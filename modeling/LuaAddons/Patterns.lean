import LuaAddons.Lib.Backtracking
import LuaAddons.Platform

/-!
# Pattern matching

The matcher of `Lua/src/lstrlib.cpp`. A pointer into the pattern is the rest of the pattern from
there on, a pointer into the subject is an index. The captures are changed while the matcher goes
on, and changed back where a match fails. `matchdepth` is an argument: each return of `match` gives
back what its call took.
-/

namespace LuaAddons.Pattern

open Backtracking

/-- The functions of `ctype.h` that depend on the locale. -/
structure Ctype where
  isalpha : UInt8 → Bool
  iscntrl : UInt8 → Bool
  isgraph : UInt8 → Bool
  islower : UInt8 → Bool
  ispunct : UInt8 → Bool
  isspace : UInt8 → Bool
  isupper : UInt8 → Bool
  isalnum : UInt8 → Bool
  tolower : UInt8 → UInt8

def isdigit (c : UInt8) : Bool := 0x30 ≤ c && c ≤ 0x39

def isxdigit (c : UInt8) : Bool :=
  isdigit c || (0x41 ≤ c && c ≤ 0x46) || (0x61 ≤ c && c ≤ 0x66)

/-- The locale of a program that has not chosen another one. -/
def cLocale : Ctype where
  isalpha c := (0x41 ≤ c && c ≤ 0x5a) || (0x61 ≤ c && c ≤ 0x7a)
  iscntrl c := c < 0x20 || c == 0x7f
  isgraph c := 0x21 ≤ c && c ≤ 0x7e
  islower c := 0x61 ≤ c && c ≤ 0x7a
  ispunct c := (0x21 ≤ c && c ≤ 0x2f) || (0x3a ≤ c && c ≤ 0x40) || (0x5b ≤ c && c ≤ 0x60) ||
    (0x7b ≤ c && c ≤ 0x7e)
  isspace c := c == 0x20 || (0x09 ≤ c && c ≤ 0x0d)
  isupper c := 0x41 ≤ c && c ≤ 0x5a
  isalnum c := isdigit c || (0x41 ≤ c && c ≤ 0x5a) || (0x61 ≤ c && c ≤ 0x7a)
  tolower c := if 0x41 ≤ c && c ≤ 0x5a then c + 0x20 else c

/-- The message of `luaL_error`. -/
abbrev MatchError := String

/-- A pointer into the pattern. -/
abbrev Pat := LuaString

/-- The field `len` of a capture. -/
inductive CaptureLen where
  /-- `CAP_UNFINISHED`. -/
  | unfinished
  /-- `CAP_POSITION`. -/
  | position
  | closed (len : Nat)
  deriving DecidableEq

structure Capture where
  init : Nat
  len : CaptureLen
  deriving DecidableEq

/-- The first `level` captures of `MatchState`. -/
abbrev Captures := List Capture

/-- What the matcher does: it finds the end of a match, none, or it raises an error. -/
abbrev Matcher := EStateM MatchError Captures (Option Nat)

/-- `LUA_MAXCAPTURES`. -/
def maxCaptures : Nat := 32

/-- `MAXCCALLS`. -/
def maxCCalls : Nat := 200

/-! ## Classes -/

/-- The test behind a class letter, in lower case. -/
def classTest (C : Ctype) (cl : UInt8) : Option (UInt8 → Bool) :=
  if cl = 0x61 then some C.isalpha
  else if cl = 0x63 then some C.iscntrl
  else if cl = 0x64 then some isdigit
  else if cl = 0x67 then some C.isgraph
  else if cl = 0x6c then some C.islower
  else if cl = 0x70 then some C.ispunct
  else if cl = 0x73 then some C.isspace
  else if cl = 0x75 then some C.isupper
  else if cl = 0x77 then some C.isalnum
  else if cl = 0x78 then some isxdigit
  else if cl = 0x7a then some (fun c => c == 0)
  else none

/-- `match_class`. -/
def matchClass (C : Ctype) (c cl : UInt8) : Bool :=
  match classTest C (C.tolower cl) with
  | none => cl == c
  | some test => if C.islower cl then test c else !test c

/-- The loop of `matchbracketclass` over what is left of the set. An escape at the end of the set
takes the `]` behind it. -/
def matchSet (C : Ctype) (c : UInt8) (set : LuaString) : Bool :=
  match set with
  | [] => false
  | x :: rest =>
    if x = 0x25 then matchClass C c (rest.headD 0x5d) || matchSet C c rest.tail
    else if rest.head? = some 0x2d ∧ rest.tail ≠ [] then
      (x ≤ c && c ≤ rest.tail.headD 0) || matchSet C c rest.tail.tail
    else x == c || matchSet C c rest
termination_by set.length
decreasing_by
  all_goals simp only [List.length_tail, List.length_cons]; omega

/-- `matchbracketclass`, with what is between the brackets. -/
def matchbracketclass (C : Ctype) (c : UInt8) (set : LuaString) : Bool :=
  match set with
  | 0x5e :: set => !matchSet C c set
  | set => matchSet C c set

/-- The loop of `classend` that looks for the `]`. -/
def setEnd (p : Pat) : Except MatchError Pat :=
  match p with
  | [] => .error "malformed pattern (missing ']')"
  | x :: rest =>
    let rest' := if x = 0x25 then rest.tail else rest
    if rest'.head? = some 0x5d then .ok rest'.tail else setEnd rest'
termination_by p.length
decreasing_by
  split <;> simp only [List.length_tail, List.length_cons] <;> omega

/-- `classend`, on a pattern that is not at its end. -/
def classend : Pat → Except MatchError Pat
  | [] => .ok []
  | x :: rest =>
    if x = 0x25 then
      match rest with
      | [] => .error "malformed pattern (ends with '%')"
      | _ :: rest => .ok rest
    else if x = 0x5b then setEnd (if rest.head? = some 0x5e then rest.tail else rest)
    else .ok rest

/-- What is between the `[` at `p` and the `]` before `ep`. -/
def between (p ep : Pat) : LuaString := p.tail.take (p.length - ep.length - 2)

theorem length_setEnd {p ep : Pat} (h : setEnd p = .ok ep) : ep.length + 2 ≤ p.length := by
  fun_induction setEnd p with
  | case1 => cases h
  | case2 x rest rest' hhead =>
    cases h
    obtain ⟨c, after, hrest⟩ : ∃ c after, rest' = c :: after := by
      cases hr : rest' with
      | nil => rw [hr] at hhead; cases hhead
      | cons c after => exact ⟨c, after, rfl⟩
    have hle : rest'.length ≤ rest.length := by
      simp only [rest']
      split
      · rw [List.length_tail]; omega
      · exact Nat.le_refl _
    rw [hrest, List.length_cons] at hle
    rw [hrest, List.tail_cons, List.length_cons]
    omega
  | case3 x rest rest' hhead ih =>
    have hle : rest'.length ≤ rest.length := by
      simp only [rest']
      split
      · rw [List.length_tail]; omega
      · exact Nat.le_refl _
    have hlt := ih h
    rw [List.length_cons]
    omega

/-- An item of the pattern is not empty. -/
theorem length_classend {x : UInt8} {rest ep : Pat} (h : classend (x :: rest) = .ok ep) :
    ep.length < (x :: rest).length := by
  simp only [classend] at h
  rw [List.length_cons]
  by_cases hesc : x = 0x25
  · rw [if_pos hesc] at h
    cases rest with
    | nil => cases h
    | cons y rest =>
      cases h
      rw [List.length_cons]
      omega
  · rw [if_neg hesc] at h
    by_cases hset : x = 0x5b
    · rw [if_pos hset] at h
      have hlt := length_setEnd h
      split at hlt
      · rw [List.length_tail] at hlt
        omega
      · omega
    · rw [if_neg hset] at h
      cases h
      omega

theorem length_classend_le {p ep : Pat} (h : classend p = .ok ep) : ep.length ≤ p.length := by
  cases p with
  | nil =>
    cases h
    exact Nat.le_refl _
  | cons x rest => exact Nat.le_of_lt (length_classend h)

section Match

variable (C : Ctype) (src : LuaString)

/-- The byte at an index of the subject, which ends with a zero. -/
def byteAt (s : Nat) : UInt8 := (src[s]?).getD 0

/-- The test of `singlematch` on one byte. -/
def singleTest (p ep : Pat) (c : UInt8) : Bool :=
  match p with
  | [] => false
  | x :: rest =>
    if x = 0x2e then true
    else if x = 0x25 then matchClass C c (rest.headD 0)
    else if x = 0x5b then matchbracketclass C c (between p ep)
    else x == c

/-- `singlematch`. -/
def singlematch (s : Nat) (p ep : Pat) : Bool :=
  decide (s < src.length) && singleTest C p ep (byteAt src s)

/-- The loop of `matchbalance`, from the index `s` on. -/
def balance (b e : UInt8) : Nat → Nat → LuaString → Option Nat
  | _, _, [] => none
  | cont, s, x :: rest =>
    if x = e then
      if cont - 1 = 0 then some (s + 1) else balance b e (cont - 1) (s + 1) rest
    else if x = b then balance b e (cont + 1) (s + 1) rest
    else balance b e cont (s + 1) rest

/-- `matchbalance`, with the pattern behind `%b`. -/
def matchbalance (s : Nat) (p : Pat) : Except MatchError (Option Nat) :=
  match p with
  | b :: e :: _ =>
    if byteAt src s ≠ b then .ok none
    else .ok (balance b e 1 (s + 1) (src.drop (s + 1)))
  | _ => .error "malformed pattern (missing arguments to '%b')"

/-! ## Captures -/

/-- `capture_to_close`: the last capture that is not finished. -/
def captureToClose (captures : Captures) : Option Nat :=
  (captures.reverse.findIdx? (fun c => c.len = .unfinished)).map (captures.length - 1 - ·)

/-- `check_capture`, with the digit behind the `%`. -/
def checkCapture (captures : Captures) (l : UInt8) : Except MatchError Capture :=
  match if l = 0x30 then none else captures[l.toNat - 0x31]? with
  | none => .error ("invalid capture index %" ++ toString (l.toNat - 0x30))
  | some c =>
    if c.len = .unfinished then
      .error ("invalid capture index %" ++ toString (l.toNat - 0x30))
    else .ok c

/-- `match_capture`. The length of a position capture is larger than any subject. -/
def matchCapture (captures : Captures) (s : Nat) (l : UInt8) : Except MatchError (Option Nat) :=
  match checkCapture captures l with
  | .error e => .error e
  | .ok c =>
    match c.len with
    | .closed len =>
      if len ≤ src.length - s ∧ (src.drop c.init).take len = (src.drop s).take len then
        .ok (some (s + len))
      else .ok none
    | _ => .ok none

/-- A capture is closed at `s`. -/
def closeAt (s l : Nat) (captures : Captures) : Captures :=
  captures.modify l (fun c => { c with len := .closed (s - c.init) })

/-- A capture is not closed any more. -/
def reopen (l : Nat) (captures : Captures) : Captures :=
  captures.modify l (fun c => { c with len := .unfinished })

/-! ## The matcher

`rec` is a call of `match`, one level deeper. -/

variable (rec : Nat → Pat → Matcher)

/-- `start_capture`. -/
def startCapture (s : Nat) (p : Pat) (what : CaptureLen) : Matcher := do
  let captures ← get
  if maxCaptures ≤ captures.length then throw "too many captures"
  else undoing (fun captures => captures ++ [⟨s, what⟩]) List.dropLast (rec s p)

/-- `end_capture`. -/
def endCapture (s : Nat) (p : Pat) : Matcher := do
  let captures ← get
  match captureToClose captures with
  | none => throw "invalid pattern capture"
  | some l => undoing (closeAt s l) (reopen l) (rec s p)

/-- The first loop of `max_expand`. -/
def countSingle (p ep : Pat) (s : Nat) : Nat :=
  if h : singlematch C src s p ep = true then countSingle p ep (s + 1) + 1 else 0
termination_by src.length - s
decreasing_by
  simp only [singlematch, Bool.and_eq_true, decide_eq_true_eq] at h
  omega

/-- The second loop of `max_expand`. -/
def expandDown (s : Nat) (p : Pat) : Nat → Matcher
  | 0 => rec s p
  | i + 1 => orElse (rec (s + (i + 1)) p) (expandDown s p i)

/-- `max_expand`. -/
def maxExpand (s : Nat) (p ep : Pat) : Matcher :=
  expandDown rec s ep.tail (countSingle C src p ep s)

/-- `min_expand`. -/
def minExpand (p ep : Pat) (s : Nat) : Matcher :=
  orElse (rec s ep.tail)
    (if h : singlematch C src s p ep = true then minExpand p ep (s + 1) else pure none)
termination_by src.length - s
decreasing_by
  simp only [singlematch, Bool.and_eq_true, decide_eq_true_eq] at h
  omega

/-- The body of `match`: a jump to `init` goes on further behind in the pattern. -/
def matchFrom (s : Nat) (p : Pat) : Matcher :=
  match p with
  | [] => pure (some s)
  | x :: rest =>
    if x = 0x28 then
      if rest.head? = some 0x29 then startCapture rec s rest.tail .position
      else startCapture rec s rest .unfinished
    else if x = 0x29 then endCapture rec s rest
    else if x = 0x24 ∧ rest = [] then pure (if s = src.length then some s else none)
    else if x = 0x25 ∧ rest.head? = some 0x62 then
      match matchbalance src s rest.tail with
      | .error e => throw e
      | .ok none => pure none
      | .ok (some s) => matchFrom s (rest.drop 3)
    else if x = 0x25 ∧ rest.head? = some 0x66 then
      if rest.tail.head? ≠ some 0x5b then throw "missing '[' after '%f' in pattern"
      else
        match h : classend rest.tail with
        | .error e => throw e
        | .ok ep =>
          let previous := if s = 0 then 0 else byteAt src (s - 1)
          if !matchbracketclass C previous (between rest.tail ep) &&
              matchbracketclass C (byteAt src s) (between rest.tail ep) then matchFrom s ep
          else pure none
    else if x = 0x25 ∧ 0x30 ≤ rest.headD 0 ∧ rest.headD 0 ≤ 0x39 then do
      let captures ← get
      match matchCapture src captures s (rest.headD 0) with
      | .error e => throw e
      | .ok none => pure none
      | .ok (some s) => matchFrom s rest.tail
    else
      match h : classend (x :: rest) with
      | .error e => throw e
      | .ok ep =>
        let suffix := ep.headD 0
        if !singlematch C src s (x :: rest) ep then
          if suffix = 0x2a ∨ suffix = 0x3f ∨ suffix = 0x2d then matchFrom s ep.tail
          else pure none
        else if suffix = 0x3f then orElse (rec (s + 1) ep.tail) (matchFrom s ep.tail)
        else if suffix = 0x2b then maxExpand C src rec (s + 1) (x :: rest) ep
        else if suffix = 0x2a then maxExpand C src rec s (x :: rest) ep
        else if suffix = 0x2d then minExpand C src rec (x :: rest) ep s
        else matchFrom (s + 1) ep
termination_by p.length
decreasing_by
  · rw [List.length_drop, List.length_cons]
    omega
  · have hle := length_classend_le h
    rw [List.length_tail] at hle
    rw [List.length_cons]
    omega
  · rw [List.length_tail, List.length_cons]
    omega
  · have hlt := length_classend h
    rw [List.length_tail]
    omega
  · have hlt := length_classend h
    rw [List.length_tail]
    omega
  · exact length_classend h

/-- `match`. -/
def doMatch : Nat → Nat → Pat → Matcher
  | 0, _, _ => throw "pattern too complex"
  | matchdepth + 1, s, p => matchFrom C src (doMatch matchdepth) s p

end Match

end LuaAddons.Pattern
