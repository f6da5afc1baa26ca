import LuaAddons.Lib.Binary64
import LuaAddons.Lib.Reading
import LuaAddons.Patterns

/-!
# The struct library

`struct.pack`, `unpack` and `size` of `Lua/include/lstruct/struct.h`, which scripts use to write and
read packets. The library is built for Win32: an `int`, a `long` and a `size_t` have four bytes, the
byte order is little endian and `MAXALIGN` is 8. A `size_t` is computed modulo `2 ^ 32`. The build
has `LUA_NANTRICK`: values other than numbers are signaling NaNs, so `lua_pushnumber` refuses some
of these, and a double that a function returns goes through the x87, which makes them quiet.

A format is a zero-terminated string, so it is a list of bytes other than zero. The arguments are
the values behind the format.
-/

namespace LuaAddons.Struct

open Binary64 Reading

inductive StructError where
  /-- `luaL_argerror`. -/
  | argument (arg : Nat) (extramsg : String)
  /-- `luaL_checknumber` or `luaL_checklstring` of another type. -/
  | type (arg : Nat) (expected : String)
  /-- `luaL_error`. -/
  | message (msg : String)
  /-- `luaG_runerror`. -/
  | runerror (msg : String)
  /-- A cast, a shift or an `int` that the language leaves undefined. -/
  | undefined
  /-- Bytes that are not all in the data string are used. -/
  | outOfBounds (pos size : Nat)
  deriving DecidableEq

/-- The conversions of Lua between strings and numbers, and of the processor to a `float`. -/
structure Conversions where
  str2number : LuaString → Option UInt64
  number2str : UInt64 → LuaString
  toFloat : UInt64 → UInt32
  ofFloat : UInt32 → UInt64
  /-- A double handed to a function. It depends on the compiler whether the x87 loads it, which
  makes a signaling NaN quiet, or whether it is copied. -/
  pass : UInt64 → UInt64
  ofFloat_quiet : ∀ f, isSignaling (ofFloat f) = false
  pass_cases : ∀ n, pass n = n ∨ pass n = quiet n

inductive Endian where
  | big
  | little
  deriving DecidableEq

structure Header where
  endian : Endian
  align : Nat
  deriving DecidableEq

/-- `defaultoptions`. -/
def defaultoptions : Header := ⟨.little, 1⟩

/-! ## Formats -/

/-- The characters that the switches know. -/
inductive Letter where
  | b | B | h | H | l | L | T | i | I
  | x | f | d | c | s
  | other (opt : UInt8)
  deriving DecidableEq

def letters : List (UInt8 × Letter) :=
  [(0x62, .b), (0x42, .B), (0x68, .h), (0x48, .H), (0x6c, .l), (0x4c, .L), (0x54, .T), (0x69, .i),
    (0x49, .I), (0x78, .x), (0x66, .f), (0x64, .d), (0x63, .c), (0x73, .s)]

def letter (opt : UInt8) : Letter := (letters.lookup opt).getD (.other opt)

/-- The loop of `getnum`, after the digits of `a`. -/
def getdigits (a : Nat) (fmt : LuaString) : Except StructError (Nat × LuaString) :=
  match fmt with
  | [] => .ok (a, [])
  | c :: rest =>
    if Pattern.isdigit c then
      if 2 ^ 31 ≤ a * 10 + c.toNat then .error .undefined
      else getdigits (a * 10 + c.toNat - 0x30) rest
    else .ok (a, c :: rest)

/-- `getnum`. -/
def getnum (fmt : LuaString) (df : Nat) : Except StructError (Nat × LuaString) :=
  if !Pattern.isdigit (fmt.headD 0) then .ok (df, fmt) else getdigits 0 fmt

/-- `optsize`: the size and the rest of the format. -/
def optsize (fmt : LuaString) : Letter → Except StructError (Nat × LuaString)
  | .B | .b => .ok (1, fmt)
  | .H | .h => .ok (2, fmt)
  | .L | .l => .ok (4, fmt)
  | .T => .ok (4, fmt)
  | .f => .ok (4, fmt)
  | .d => .ok (8, fmt)
  | .x => .ok (1, fmt)
  | .c => getnum fmt 1
  | .i | .I =>
    match getnum fmt 4 with
    | .error e => .error e
    | .ok (sz, fmt) =>
      if 32 < sz then
        .error (.message ("integral size " ++ toString sz ++ " is larger than limit of 32"))
      else .ok (sz, fmt)
  | _ => .ok (0, fmt)

/-- `gettoalign`. -/
def gettoalign (len : Nat) (h : Header) (opt : Letter) (size : Nat) : Nat :=
  if size = 0 ∨ opt = .c then 0
  else
    let size := if h.align < size then h.align else size
    (size - (len &&& (size - 1))) &&& (size - 1)

/-- `isp2`. -/
def isp2 (x : Nat) : Bool := 0 < x && x &&& (x - 1) == 0

/-- `controloptions`: the rest of the format and the header. -/
def controloptions (opt : UInt8) (fmt : LuaString) (h : Header) :
    Except StructError (LuaString × Header) :=
  if opt = 0x20 then .ok (fmt, h)
  else if opt = 0x3e then .ok (fmt, { h with endian := .big })
  else if opt = 0x3c then .ok (fmt, { h with endian := .little })
  else if opt = 0x21 then
    match getnum fmt 8 with
    | .error e => .error e
    | .ok (a, fmt) =>
      if !isp2 a then
        .error (.message ("alignment " ++ toString a ++ " is not a power of 2"))
      else .ok (fmt, { h with align := a })
  else
    .error (.argument 1
      ("invalid format option '" ++ String.singleton (Char.ofNat opt.toNat) ++ "'"))

theorem bind_eq_ok {ε α β : Type} {x : Except ε α} {f : α → Except ε β} {b : β} :
    (x >>= f) = .ok b ↔ ∃ a, x = .ok a ∧ f a = .ok b := by
  cases x with
  | error e => exact ⟨nofun, nofun⟩
  | ok a => exact ⟨fun h => ⟨a, rfl, h⟩, fun ⟨_, h, hf⟩ => by cases h; exact hf⟩

theorem bind_eq_error {ε α β : Type} {x : Except ε α} {f : α → Except ε β} {e : ε} :
    (x >>= f) = .error e ↔ x = .error e ∨ ∃ a, x = .ok a ∧ f a = .error e := by
  cases x with
  | error e' =>
    refine ⟨fun h => Or.inl (by cases h; rfl), fun h => ?_⟩
    rcases h with h | ⟨a, ha, -⟩
    · cases h
      rfl
    · cases ha
  | ok a =>
    refine ⟨fun h => Or.inr ⟨a, rfl, h⟩, fun h => ?_⟩
    rcases h with h | ⟨a', ha, h⟩
    · cases h
    · cases ha
      exact h

theorem length_getdigits {a n : Nat} {fmt rest : LuaString}
    (h : getdigits a fmt = .ok (n, rest)) : rest.length ≤ fmt.length := by
  induction fmt generalizing a with
  | nil =>
    cases h
    exact Nat.le_refl _
  | cons c fmt ih =>
    rw [getdigits] at h
    split at h
    · split at h
      · cases h
      · exact Nat.le_succ_of_le (ih h)
    · cases h
      exact Nat.le_refl _

theorem length_getnum {df n : Nat} {fmt rest : LuaString} (h : getnum fmt df = .ok (n, rest)) :
    rest.length ≤ fmt.length := by
  rw [getnum] at h
  split at h
  · cases h
    exact Nat.le_refl _
  · exact length_getdigits h

theorem optsize_integer (fmt : LuaString) {opt : Letter} (hopt : opt = .i ∨ opt = .I) :
    optsize fmt opt = getnum fmt 4 >>= fun r =>
      if 32 < r.1 then
        .error (.message ("integral size " ++ toString r.1 ++ " is larger than limit of 32"))
      else .ok (r.1, r.2) := by
  rcases hopt with rfl | rfl <;> rw [optsize] <;> cases getnum fmt 4 <;> rfl

theorem length_optsize {opt : Letter} {size : Nat} {fmt rest : LuaString}
    (h : optsize fmt opt = .ok (size, rest)) : rest.length ≤ fmt.length := by
  have hinteger (hopt : opt = .i ∨ opt = .I) : rest.length ≤ fmt.length := by
    rw [optsize_integer fmt hopt] at h
    obtain ⟨r, hnum, h⟩ := bind_eq_ok.mp h
    split at h
    · cases h
    · cases h
      exact length_getnum hnum
  cases opt with
  | c => exact length_getnum h
  | i => exact hinteger (Or.inl rfl)
  | I => exact hinteger (Or.inr rfl)
  | _ =>
    cases h
    exact Nat.le_refl _

theorem length_controloptions {opt : UInt8} {fmt rest : LuaString} {h h' : Header}
    (hcontrol : controloptions opt fmt h = .ok (rest, h')) : rest.length ≤ fmt.length := by
  rw [controloptions] at hcontrol
  split at hcontrol
  · cases hcontrol
    exact Nat.le_refl _
  split at hcontrol
  · cases hcontrol
    exact Nat.le_refl _
  split at hcontrol
  · cases hcontrol
    exact Nat.le_refl _
  split at hcontrol
  · split at hcontrol
    · cases hcontrol
    · rename_i a fmt' hnum
      split at hcontrol
      · cases hcontrol
      · cases hcontrol
        exact length_getnum hnum
  · cases hcontrol

/-! ## Integers -/

/-- The cast to `Uinttype`, through `Inttype` for a negative number. -/
def toUinttype (n : UInt64) : Except StructError Nat :=
  match toInt? n with
  | none => .error .undefined
  | some v =>
    if -(2 ^ 31) ≤ v ∧ v < 2 ^ 32 then .ok (v % 2 ^ 32).toNat else .error .undefined

/-- The cast to `size_t`. -/
def toSize (n : UInt64) : Except StructError Nat :=
  match toInt? n with
  | none => .error .undefined
  | some v => if 0 ≤ v ∧ v < 2 ^ 32 then .ok v.toNat else .error .undefined

/-- A `size_t` or `Uinttype` as a signed integer. -/
def signed32 (n : Nat) : Int :=
  if n % 2 ^ 32 < 2 ^ 31 then (n % 2 ^ 32 : Nat) else (n % 2 ^ 32 : Nat) - 2 ^ 32

/-- `correctbytes`, on the bytes of a native number. -/
def correctbytes (endian : Endian) (bytes : LuaString) : LuaString :=
  if endian = .little then bytes else bytes.reverse

/-- The bytes of `putinteger`. -/
def putinteger (endian : Endian) (size : Nat) (n : UInt64) : Except StructError LuaString :=
  match toUinttype n with
  | .error e => .error e
  | .ok value =>
    .ok (if endian = .little then lowBytes size value else (lowBytes size value).reverse)

/-- `getinteger`. The mask has all bits from the sign bit on. -/
def getinteger (endian : Endian) (issigned : Bool) (size : Nat) (buff : LuaString) :
    Except StructError UInt64 :=
  let buff := if endian = .big then buff else buff.reverse
  let l := buff.foldl (fun l b => (l * 2 ^ 8 + b.toNat) % 2 ^ 32) 0
  if !issigned then .ok (ofNat l)
  else if size = 0 ∨ 4 < size then .error .undefined
  else
    let sign := 2 ^ (size * 8 - 1)
    let l := if sign ≤ l then l % sign + (2 ^ 32 - sign) else l
    .ok (ofInt (signed32 l))

/-! ## pack -/

/-- `luaL_checknumber`, of the first of the values that are left. -/
def checknumber (k : Conversions) (arg : Nat) : List LuaValue → Except StructError UInt64
  | .number n :: _ => .ok (quiet n)
  | .string s :: _ =>
    match k.str2number s with
    | some n => .ok (quiet n)
    | none => .error (.type arg "number")
  | _ => .error (.type arg "number")

/-- `luaL_checklstring`. -/
def checklstring (k : Conversions) (arg : Nat) : List LuaValue → Except StructError LuaString
  | .string s :: _ => .ok s
  | .number n :: _ => .ok (k.number2str n)
  | _ => .error (.type arg "string")

/-- The switch of `b_pack`, without the control options: what is added, its size and how many
arguments are used. -/
def packOption (k : Conversions) (endian : Endian) (arg : Nat) (args : List LuaValue) (size : Nat) :
    Letter → Except StructError (LuaString × Nat × Nat)
  | .x => .ok ([0], size, 0)
  | .f => do
    let f ← checknumber k arg args
    return (correctbytes endian (lowBytes size (k.toFloat f).toNat), size, 1)
  | .d => do
    let d ← checknumber k arg args
    return (correctbytes endian (lowBytes size d.toNat), size, 1)
  | .c => do
    let s ← checklstring k arg args
    let size := if size = 0 then s.length else size
    if s.length < size then throw (.argument (arg + 1) "string too short")
    return (s.take size, size, 1)
  | .s => do
    let s ← checklstring k arg args
    return (s ++ [0], s.length + 1, 1)
  | .other _ => .ok ([], size, 0)
  | _ => do
    let n ← checknumber k arg args
    let buff ← putinteger endian size n
    return (buff, size, 1)

/-- The loop of `b_pack`. -/
def packLoop (k : Conversions) (h : Header) (fmt : LuaString) (arg : Nat) (args : List LuaValue)
    (totalsize : Nat) (b : LuaString) : Except StructError LuaString :=
  match fmt with
  | [] => .ok b
  | o :: rest =>
    match _h : optsize rest (letter o) with
    | .error e => .error e
    | .ok (size, fmt) =>
      let toalign := gettoalign totalsize h (letter o) size
      let totalsize := (totalsize + toalign) % 2 ^ 32
      let b := b ++ List.replicate toalign 0
      match letter o with
      | .other opt =>
        match _hcontrol : controloptions opt fmt h with
        | .error e => .error e
        | .ok (fmt, h) => packLoop k h fmt arg args ((totalsize + size) % 2 ^ 32) b
      | opt => do
        let (added, size, used) ← packOption k h.endian arg args size opt
        packLoop k h fmt (arg + used) (args.drop used) ((totalsize + size) % 2 ^ 32) (b ++ added)
termination_by fmt.length
decreasing_by
  · have hle := length_optsize _h
    have hle' := length_controloptions _hcontrol
    rw [List.length_cons]
    omega
  · have hle := length_optsize _h
    rw [List.length_cons]
    omega

/-- `b_pack`. -/
def bPack (k : Conversions) (fmt : LuaString) (args : List LuaValue) :
    Except StructError LuaString :=
  packLoop k defaultoptions fmt 2 args 0 []

/-! ## unpack -/

/-- Bytes of the data string that are read or handed to `lua_pushlstring`. -/
def bytesAt (data : LuaString) (pos size : Nat) : Except StructError LuaString :=
  if pos + size ≤ data.length then .ok ((data.drop pos).take size)
  else .error (.outOfBounds pos size)

/-- `lua_tonumber`. -/
def tonumber (k : Conversions) : LuaValue → Option UInt64
  | .number n => some (quiet n)
  | .string s => (k.str2number s).map quiet
  | _ => none

/-- `ttisnumber` fails: but for the sign and its low byte, the high word is `NNMARK`. -/
def isTagged (bits : UInt64) : Bool := magnitude bits / 2 ^ 40 = 0x7ff7a5

theorem isTagged_of_not_signaling {bits : UInt64} (h : isSignaling bits = false) :
    isTagged bits = false := by
  refine decide_eq_false (fun htagged => ?_)
  refine of_decide_eq_false h ?_
  omega

/-- `lua_pushnumber`. -/
def pushnumber (k : Conversions) (n : UInt64) : Except StructError LuaValue :=
  if isTagged (k.pass n) then
    .error (.runerror "C API - attempt to push a signaling NaN")
  else .ok (.number (k.pass n))

theorem pass_of_not_signaling (k : Conversions) {n : UInt64} (h : isSignaling n = false) :
    k.pass n = n := by
  rcases k.pass_cases n with hpass | hpass
  · exact hpass
  · rw [hpass, quiet_of_not_signaling h]

theorem pushnumber_of_not_signaling (k : Conversions) {n : UInt64} (h : isSignaling n = false) :
    pushnumber k n = .ok (.number n) := by
  rw [pushnumber, pass_of_not_signaling k h, isTagged_of_not_signaling h]
  exact if_neg Bool.false_ne_true

/-- `islower` of an option. -/
def issigned (opt : Letter) : Bool := opt = .b ∨ opt = .h ∨ opt = .l ∨ opt = .i

/-- The switch of `b_unpack`, without the control options: the stack, its top first, and the size of
what was read. -/
def unpackOption (k : Conversions) (endian : Endian) (data : LuaString) (pos size : Nat)
    (stack : List LuaValue) : Letter → Except StructError (List LuaValue × Nat)
  | .x => .ok (stack, size)
  | .f => do
    let bytes ← bytesAt data pos size
    let f ← pushnumber k (k.ofFloat (.ofNat (ofLowBytes (correctbytes endian bytes))))
    return (f :: stack, size)
  | .d => do
    let bytes ← bytesAt data pos size
    let d ← pushnumber k (.ofNat (ofLowBytes (correctbytes endian bytes)))
    return (d :: stack, size)
  | .c =>
    if size = 0 then
      match tonumber k (stack.headD .nil) with
      | none => .error (.message "format `c0' needs a previous size")
      | some n => do
        let size ← toSize n
        if data.length < (pos + size) % 2 ^ 32 then throw (.argument 2 "data string too short")
        let bytes ← bytesAt data pos size
        return (.string bytes :: stack.tail, size)
    else do
      let bytes ← bytesAt data pos size
      return (.string bytes :: stack, size)
  | .s =>
    match (data.drop pos).findIdx? (· == 0) with
    | none => .error (.message "unfinished string in data")
    | some e => .ok (.string ((data.drop pos).take e) :: stack, e + 1)
  | .other _ => .ok (stack, size)
  | opt => do
    let bytes ← bytesAt data pos size
    let res ← getinteger endian (issigned opt) size bytes
    let res ← pushnumber k res
    return (res :: stack, size)

/-- The loop of `b_unpack`. -/
def unpackLoop (k : Conversions) (data : LuaString) (h : Header) (fmt : LuaString) (pos : Nat)
    (stack : List LuaValue) : Except StructError (Nat × List LuaValue) :=
  match fmt with
  | [] => .ok (pos, stack)
  | o :: rest =>
    match _h : optsize rest (letter o) with
    | .error e => .error e
    | .ok (size, fmt) =>
      let pos := (pos + gettoalign pos h (letter o) size) % 2 ^ 32
      if data.length < (pos + size) % 2 ^ 32 then .error (.argument 2 "data string too short")
      else
        match letter o with
        | .other opt =>
          match _hcontrol : controloptions opt fmt h with
          | .error e => .error e
          | .ok (fmt, h) => unpackLoop k data h fmt ((pos + size) % 2 ^ 32) stack
        | opt => do
          let (stack, size) ← unpackOption k h.endian data pos size stack opt
          unpackLoop k data h fmt ((pos + size) % 2 ^ 32) stack
termination_by fmt.length
decreasing_by
  · have hle := length_optsize _h
    have hle' := length_controloptions _hcontrol
    rw [List.length_cons]
    omega
  · have hle := length_optsize _h
    rw [List.length_cons]
    omega

/-- `b_unpack`: all values above the data string, and where the next value starts. The data string
itself is the first value on the stack. -/
def bUnpack (k : Conversions) (fmt data : LuaString) (init : Option Int) :
    Except StructError (List LuaValue) :=
  match unpackLoop k data defaultoptions fmt ((init.getD 1 - 1) % 2 ^ 32).toNat [.string data] with
  | .error e => .error e
  | .ok (pos, stack) => .ok (stack.reverse.tail ++ [.number (ofInt (signed32 (pos + 1)))])

/-! ## size -/

/-- The loop of `b_size`. -/
def sizeLoop (C : Pattern.Ctype) (h : Header) (fmt : LuaString) (pos : Nat) :
    Except StructError Nat :=
  match fmt with
  | [] => .ok pos
  | o :: rest =>
    match _h : optsize rest (letter o) with
    | .error e => .error e
    | .ok (size, fmt) =>
      let pos := (pos + gettoalign pos h (letter o) size) % 2 ^ 32
      if letter o = .s then .error (.argument 1 "option 's' has no fixed size")
      else if letter o = .c ∧ size = 0 then
        .error (.argument 1 "option 'c0' has no fixed size")
      else if C.isalnum o then sizeLoop C h fmt ((pos + size) % 2 ^ 32)
      else
        match _hcontrol : controloptions o fmt h with
        | .error e => .error e
        | .ok (fmt, h) => sizeLoop C h fmt ((pos + size) % 2 ^ 32)
termination_by fmt.length
decreasing_by
  · have hle := length_optsize _h
    rw [List.length_cons]
    omega
  · have hle := length_optsize _h
    have hle' := length_controloptions _hcontrol
    rw [List.length_cons]
    omega

/-- `b_size`. -/
def bSize (C : Pattern.Ctype) (fmt : LuaString) : Except StructError LuaValue :=
  match sizeLoop C defaultoptions fmt 0 with
  | .error e => .error e
  | .ok pos => .ok (.number (ofInt (signed32 pos)))

end LuaAddons.Struct
