import LuaAddons.Lib.Reading
import LuaAddons.Platform

/-!
# Precompiled chunks

A function of Lua is dumped by `luaU_dump` as a header and its prototype, with the prototypes
inside it, and loaded again by `luaU_undump`. The reader of `lua_load` gives a chunk in pieces,
which a `Zio` joins. The format depends on the machine (`Layout`), and the header tells machines
apart.
-/

namespace LuaAddons.Chunk

open Reading

/-! ## Streams -/

/-- `ZIO`. -/
structure Zio where
  /-- The `n` bytes from `p` on. -/
  buffer : LuaString
  /-- What the next calls of the reader return, an empty piece for `NULL` or no bytes, which is
  also what it returns after the last piece. -/
  pieces : List LuaString

/-- `luaZ_fill`, on an empty buffer. The byte is `none` at the end of the stream. -/
def Zio.fill (z : Zio) : Option UInt8 × Zio :=
  match z.pieces with
  | [] => (none, z)
  | [] :: pieces => (none, { z with pieces })
  | (c :: buffer) :: pieces => (some c, { buffer, pieces })

/-- `zgetc`. -/
def Zio.getc (z : Zio) : Option UInt8 × Zio :=
  match z.buffer with
  | c :: buffer => (some c, { z with buffer })
  | [] => z.fill

/-- The start of a round of `luaZ_read`: an empty buffer is filled, and the byte that `luaZ_fill`
took is put back. The flag is false at the end of the stream. -/
def Zio.refill (z : Zio) : Bool × Zio :=
  match z.buffer with
  | _ :: _ => (true, z)
  | [] =>
    match z.fill with
    | (none, z) => (false, z)
    | (some c, z) => (true, { z with buffer := c :: z.buffer })

theorem Zio.buffer_of_refill {z z' : Zio} (h : z.refill = (true, z')) : z'.buffer ≠ [] := by
  unfold refill at h
  split at h
  · rename_i c buffer hb
    cases h
    exact hb ▸ List.cons_ne_nil c buffer
  · split at h <;> cases h
    exact List.cons_ne_nil _ _

/-- `luaZ_read`: the bytes it copies and how many are missing. -/
def Zio.read (n : Nat) (z : Zio) : (LuaString × Nat) × Zio :=
  if n = 0 then (([], 0), z)
  else
    match _h : z.refill with
    | (false, z) => (([], n), z)
    | (true, z') =>
      let m := min n z'.buffer.length
      let r := Zio.read (n - m) { z' with buffer := z'.buffer.drop m }
      ((z'.buffer.take m ++ r.1.1, r.1.2), r.2)
termination_by n
decreasing_by
  have hpos : 0 < z'.buffer.length := List.length_pos_iff.mpr (buffer_of_refill _h)
  omega

/-! ## Layout and header -/

/-- What the format depends on: the byte order, the size of `size_t`, and the sizes of the elements
of the arrays of a prototype. -/
structure Layout where
  bigEndian : Bool
  sizeT : Nat
  sizeT_pos : 0 < sizeT
  sizeofTValue : Nat
  sizeofPointer : Nat
  sizeofUpvaldesc : Nat
  sizeofLocVar : Nat
  sizeofTString : Nat

namespace Layout

variable (L : Layout)

/-- The `n` bytes of an integer in memory. -/
def bytes (n v : Nat) : LuaString := if L.bigEndian then (lowBytes n v).reverse else lowBytes n v

/-- The integer with the given bytes in memory. -/
def number (b : LuaString) : Nat := ofLowBytes (if L.bigEndian then b.reverse else b)

/-- `MAX_SIZET`. -/
def maxSizet : Nat := 256 ^ L.sizeT - 3

/-- The test of `luaM_reallocv` for an array of `n` elements of size `e`. For the largest `int` the
sum `n + 1` is negative, a huge `size_t`. -/
def tooBig (n e : Nat) : Bool := n + 1 = 2 ^ 31 || L.maxSizet / e < n + 1

end Layout

/-- `LUA_SIGNATURE`. -/
def signature : LuaString := 0x1b :: ascii "Lua"

/-- `LUAC_TAIL`. -/
def luacTail : LuaString := [0x19, 0x93, 0x0d, 0x0a, 0x1a, 0x0a]

/-- `luaU_header`: the version 5.2, the official format, the layout, the sizes of `int`,
`Instruction` and `lua_Number`, and that numbers are not integral. -/
def luaUHeader (L : Layout) : LuaString :=
  signature ++ [0x52, 0, if L.bigEndian then 0 else 1, 4, UInt8.ofNat L.sizeT, 4, 8, 0] ++ luacTail

/-! ## Prototypes -/

/-- A constant of a function. A boolean is an `int`, a number the bits of a `double`. -/
inductive Constant where
  | nil
  | boolean (b : BitVec 32)
  | number (n : BitVec 64)
  | string (s : LuaString)
  deriving DecidableEq

structure Upvaldesc where
  name : Option LuaString
  instack : UInt8
  idx : UInt8
  deriving DecidableEq

structure LocVar where
  varname : Option LuaString
  startpc : BitVec 32
  endpc : BitVec 32
  deriving DecidableEq

/-- `Proto`: the sizes are the lengths of the arrays. -/
structure Proto where
  linedefined : BitVec 32
  lastlinedefined : BitVec 32
  numparams : UInt8
  isVararg : UInt8
  maxstacksize : UInt8
  code : List (BitVec 32)
  k : List Constant
  p : List Proto
  upvalues : List Upvaldesc
  source : Option LuaString
  lineinfo : List (BitVec 32)
  locvars : List LocVar

/-- A closure of Lua that is just made. -/
structure LClosure where
  p : Proto
  nupvalues : UInt8

/-- `luaF_newLclosure` for the prototype: the number of upvalues is kept in a byte. -/
def newLclosure (p : Proto) : LClosure := ⟨p, UInt8.ofNat p.upvalues.length⟩

/-! ## Dump

The functions give the blocks they pass to `DumpBlock`, in order. -/

section Dump

variable (L : Layout) (strip : Bool)

def dumpChar (y : BitVec 32) : LuaString := [UInt8.ofBitVec (y.setWidth 8)]

def dumpByte (y : UInt8) : LuaString := dumpChar (y.toBitVec.setWidth 32)

def dumpInt (x : BitVec 32) : LuaString := L.bytes 4 x.toNat

/-- `DumpInt` of the size of an array. -/
def dumpSize {α : Type} (l : List α) : LuaString := dumpInt L (BitVec.ofNat 32 l.length)

def dumpNumber (x : BitVec 64) : LuaString := L.bytes 8 x.toNat

/-- `DumpVector` of an array of 32-bit words. -/
def dumpVector (l : List (BitVec 32)) : List LuaString :=
  [dumpSize L l, l.flatMap (fun x => L.bytes 4 x.toNat)]

def dumpString : Option LuaString → List LuaString
  | none => [L.bytes L.sizeT 0]
  | some s => [L.bytes L.sizeT (s.length + 1), s ++ [0]]

/-- The part of `DumpConstants` for one constant. -/
def dumpConstant : Constant → List LuaString
  | .nil => [dumpChar 0]
  | .boolean b => [dumpChar 1, dumpChar b]
  | .number n => [dumpChar 3, dumpNumber L n]
  | .string s => dumpChar 4 :: dumpString L (some s)

def dumpUpvalues (f : Proto) : List LuaString :=
  dumpSize L f.upvalues :: f.upvalues.flatMap (fun u => [dumpByte u.instack, dumpByte u.idx])

/-- The part of `DumpDebug` for one local variable. -/
def dumpLocVar (v : LocVar) : List LuaString :=
  dumpString L v.varname ++ [dumpInt L v.startpc, dumpInt L v.endpc]

def dumpDebug (f : Proto) : List LuaString :=
  let lineinfo := if strip then [] else f.lineinfo
  let locvars := if strip then [] else f.locvars
  let names := if strip then [] else f.upvalues.map Upvaldesc.name
  dumpString L (if strip then none else f.source) ++ dumpVector L lineinfo ++
    dumpSize L locvars :: locvars.flatMap (dumpLocVar L) ++
    dumpSize L names :: names.flatMap (dumpString L)

/-- What `DumpFunction` dumps before the functions inside, with the constants. -/
def dumpHead (f : Proto) : List LuaString :=
  [dumpInt L f.linedefined, dumpInt L f.lastlinedefined, dumpByte f.numparams,
    dumpByte f.isVararg, dumpByte f.maxstacksize] ++
  dumpVector L f.code ++ dumpSize L f.k :: f.k.flatMap (dumpConstant L) ++ [dumpSize L f.p]

mutual

def dumpFunction : Proto → List LuaString
  | ⟨linedefined, lastlinedefined, numparams, isVararg, maxstacksize, code, k, p, upvalues, source,
      lineinfo, locvars⟩ =>
    let f : Proto := ⟨linedefined, lastlinedefined, numparams, isVararg, maxstacksize, code, k, p,
      upvalues, source, lineinfo, locvars⟩
    dumpHead L f ++ dumpFunctions p ++ dumpUpvalues L f ++ dumpDebug L strip f

/-- The loop of `DumpConstants` over the functions inside. -/
def dumpFunctions : List Proto → List LuaString
  | [] => []
  | f :: p => dumpFunction f ++ dumpFunctions p

end

/-- `DumpState`, with what the writer keeps. -/
structure DumpState (σ : Type) where
  data : σ
  status : Int

/-- `DumpBlock`: after a failure the writer is not called any more. -/
def dumpBlock {σ : Type} (writer : LuaString → σ → Int × σ) (D : DumpState σ) (b : LuaString) :
    DumpState σ :=
  if D.status = 0 then ⟨(writer b D.data).2, (writer b D.data).1⟩ else D

/-- `luaU_dump`. -/
def luaUDump {σ : Type} (writer : LuaString → σ → Int × σ) (data : σ) (f : Proto) : DumpState σ :=
  (luaUHeader L :: dumpFunction L strip f).foldl (dumpBlock writer) ⟨data, 0⟩

/-- `writer` of `lstrlib.cpp`: every block is added to a buffer. -/
def writer (b buffer : LuaString) : Int × LuaString := (0, buffer ++ b)

end Dump

/-! ## Undump -/

inductive LoadError where
  /-- `LUA_ERRSYNTAX` with its message. -/
  | errSyntax (message : LuaString)
  /-- `luaM_toobig`. -/
  | blockTooBig
  /-- Memory outside of an object is read or written. -/
  | undefined
  /-- The C stack has no room for another call of `LoadFunction`. -/
  | stackOverflow
  deriving DecidableEq

abbrev Load := EStateM LoadError Zio

/-- `LoadState`. -/
structure LoadState where
  layout : Layout
  name : LuaString

section Undump

variable (S : LoadState)

/-- `error`. -/
def LoadState.error (why : String) : LoadError :=
  .errSyntax (S.name ++ ascii ": " ++ ascii why ++ ascii " precompiled chunk")

/-- `LoadBlock`. -/
def loadBlock (size : Nat) : Load LuaString := fun z =>
  match z.read size with
  | ((b, 0), z) => .ok b z
  | ((_, _ + 1), z) => .error (S.error "truncated") z

/-- `LoadChar`: a `char` has a sign. -/
def loadChar : Load (BitVec 32) := do
  let b ← loadBlock S 1
  pure ((b.headD 0).toBitVec.signExtend 32)

/-- `LoadByte`. -/
def loadByte : Load UInt8 := do
  let x ← loadChar S
  pure (UInt8.ofBitVec (x.setWidth 8))

/-- `LoadInt`. -/
def loadInt : Load (BitVec 32) := do
  let b ← loadBlock S 4
  let x := BitVec.ofNat 32 (S.layout.number b)
  if x.msb then throw (S.error "corrupted") else pure x

/-- `LoadNumber`. -/
def loadNumber : Load (BitVec 64) := do
  let b ← loadBlock S 8
  pure (BitVec.ofNat 64 (S.layout.number b))

/-- `luaM_newvector`. -/
def newvector (n : BitVec 32) (e : Nat) : Load Unit :=
  if S.layout.tooBig n.toNat e then throw .blockTooBig else pure ()

/-- `luaZ_openspace`: the buffer has never room for a block that is too big. -/
def openspace (size : Nat) : Load Unit :=
  if S.layout.maxSizet < (size + 1) % 256 ^ S.layout.sizeT then throw .blockTooBig else pure ()

/-- `luaS_newlstr`: short strings are not checked. -/
def newlstr (s : LuaString) : Load LuaString :=
  if 40 < s.length ∧ S.layout.maxSizet - S.layout.sizeofTString < s.length + 1 then
    throw .blockTooBig
  else pure s

/-- `LoadString`. -/
def loadString : Load (Option LuaString) := do
  let b ← loadBlock S S.layout.sizeT
  let size := S.layout.number b
  if size = 0 then pure none
  else do
    openspace S size
    let s ← loadBlock S size
    let s ← newlstr S (s.take (size - 1))
    pure (some s)

/-- `LoadVector` of an array of 32-bit words, which is allocated before. -/
def loadVector : Load (List (BitVec 32)) := do
  let n ← loadInt S
  newvector S n 4
  let b ← loadBlock S (n.toNat * 4)
  pure ((pieces 4 n.toNat b).map (fun x => BitVec.ofNat 32 (S.layout.number x)))

/-- The body of the first loop of `LoadConstants`. An unknown tag leaves nil. A string that is
`NULL` is dereferenced by `setsvalue2n`. -/
def loadConstant : Load Constant := do
  let t ← loadChar S
  if t = 0 then pure .nil
  else if t = 1 then do
    let b ← loadChar S
    pure (.boolean b)
  else if t = 3 then do
    let n ← loadNumber S
    pure (.number n)
  else if t = 4 then do
    let s ← loadString S
    match s with
    | some s => pure (.string s)
    | none => throw .undefined
  else pure .nil

def loadConstants : Load (List Constant) := do
  let n ← loadInt S
  newvector S n S.layout.sizeofTValue
  times n.toNat (loadConstant S)

/-- The rest of `LoadConstants`, the functions inside. -/
def loadFunctions (loadFunction : Load Proto) : Load (List Proto) := do
  let n ← loadInt S
  newvector S n S.layout.sizeofPointer
  times n.toNat loadFunction

def loadUpvalues : Load (List Upvaldesc) := do
  let n ← loadInt S
  newvector S n S.layout.sizeofUpvaldesc
  times n.toNat (do
    let instack ← loadByte S
    let idx ← loadByte S
    pure { name := none, instack, idx })

def loadLocVar : Load LocVar := do
  let varname ← loadString S
  let startpc ← loadInt S
  let endpc ← loadInt S
  pure { varname, startpc, endpc }

/-- The last loop of `LoadDebug`. It goes by the number in the chunk, and writes behind the array
when there are fewer upvalues. -/
def loadNames : Nat → List Upvaldesc → Load (List Upvaldesc)
  | 0, upvalues => pure upvalues
  | n + 1, upvalues => do
    let name ← loadString S
    match upvalues with
    | [] => throw .undefined
    | u :: upvalues => do
      let upvalues ← loadNames n upvalues
      pure ({ u with name } :: upvalues)

/-- `LoadDebug`, with the prototype so far. -/
def loadDebug (f : Proto) : Load Proto := do
  let source ← loadString S
  let lineinfo ← loadVector S
  let n ← loadInt S
  newvector S n S.layout.sizeofLocVar
  let locvars ← times n.toNat (loadLocVar S)
  let n ← loadInt S
  let upvalues ← loadNames S n.toNat f.upvalues
  pure { f with source, lineinfo, locvars, upvalues }

/-- `LoadFunction`, with the number of its calls for which the C stack has room. -/
def loadFunction : Nat → Load Proto
  | 0 => throw .stackOverflow
  | calls + 1 => do
    let linedefined ← loadInt S
    let lastlinedefined ← loadInt S
    let numparams ← loadByte S
    let isVararg ← loadByte S
    let maxstacksize ← loadByte S
    let code ← loadVector S
    let k ← loadConstants S
    let p ← loadFunctions S (loadFunction calls)
    let upvalues ← loadUpvalues S
    loadDebug S
      { linedefined, lastlinedefined, numparams, isVararg, maxstacksize, code, k, p, upvalues,
        source := none, lineinfo := [], locvars := [] }

/-- `LoadHeader`: the first byte is already read. -/
def loadHeader : Load Unit := do
  let h := luaUHeader S.layout
  let rest ← loadBlock S (h.length - 1)
  let s := h.take 1 ++ rest
  if h = s then pure ()
  else if h.take 4 ≠ s.take 4 then throw (S.error "not a")
  else if h.take 6 ≠ s.take 6 then throw (S.error "version mismatch in")
  else if h.take 12 ≠ s.take 12 then throw (S.error "incompatible")
  else throw (S.error "corrupted")

end Undump

/-- The name of a chunk in messages. -/
def shownName : LuaString → LuaString
  | [] => []
  | c :: name =>
    if c = 0x40 ∨ c = 0x3d then name
    else if c = 0x1b then ascii "binary string"
    else c :: name

/-- `luaU_undump`. -/
def luaUUndump (L : Layout) (calls : Nat) (name : LuaString) : Load LClosure := do
  let S : LoadState := ⟨L, shownName name⟩
  loadHeader S
  let p ← loadFunction S calls
  pure (newLclosure p)

/-- `checkmode`. -/
def checkmode (mode : Option LuaString) (x : String) : Load Unit :=
  match mode with
  | none => pure ()
  | some mode =>
    if (ascii x).headD 0 ∈ mode then pure ()
    else throw (.errSyntax (ascii "attempt to load a " ++ ascii x ++ ascii " chunk (mode is '" ++
      mode ++ ascii "')"))

/-- `f_parser`, with the parser for text. -/
def fParser (L : Layout) (calls : Nat) (luaYParser : Option UInt8 → Load LClosure)
    (name : LuaString) (mode : Option LuaString) : Load LClosure := do
  let c ← modifyGet Zio.getc
  if c = some 0x1b then do
    checkmode mode "binary"
    luaUUndump L calls name
  else do
    checkmode mode "text"
    luaYParser c

end LuaAddons.Chunk
