import LuaAddons.Matching

/-!
# The searching functions

`string.find`, `match`, `gmatch` and `gsub` of `Lua/src/lstrlib.cpp`. Each tries `match` at one
place of the subject after the other. `find` compares bytes where the pattern has no special
character.

The arguments stand for what the `luaL_check` functions return.
-/

namespace LuaAddons.Pattern

open Exec Backtracking

/-- A value that these functions push. -/
inductive Pushed where
  | nil
  | integer (n : Nat)
  | string (s : LuaString)
  deriving DecidableEq

/-- The `len` bytes from the index `init` on. -/
def substring (src : LuaString) (init len : Nat) : LuaString := (src.drop init).take len

/-- `posrelat`. -/
def posrelat (pos : Int) (len : Nat) : Nat :=
  if 0 ≤ pos then pos.toNat else if len < pos.natAbs then 0 else len - pos.natAbs + 1

/-! ## Plain search -/

/-- `SPECIALS`. -/
def specials : LuaString := [0x5e, 0x24, 0x2a, 0x2b, 0x3f, 0x2e, 0x28, 0x5b, 0x25, 0x2d]

/-- `nospecials`: `strpbrk` looks up to the next zero. -/
def nospecials (p : LuaString) : Bool :=
  if (p.takeWhile (· ≠ 0)).any (· ∈ specials) then false
  else
    match _h : p.dropWhile (· ≠ 0) with
    | [] => true
    | _ :: rest => nospecials rest
termination_by p.length
decreasing_by
  have hle := (List.dropWhile_suffix (p := (· ≠ 0)) (l := p)).length_le
  rw [_h, List.length_cons] at hle
  omega

/-- The loop of `lmemfind`: `first` is searched in the next `l1` bytes of `s1`. -/
def lmemfindLoop (first : UInt8) (others : LuaString) (l1 : Nat) (s1 : LuaString) : Option Nat :=
  match h : (s1.take l1).findIdx? (· = first) with
  | none => none
  | some k =>
    if (s1.drop (k + 1)).take others.length = others then some k
    else (lmemfindLoop first others (l1 - (k + 1)) (s1.drop (k + 1))).map (k + 1 + ·)
termination_by l1
decreasing_by
  obtain ⟨hlt, -⟩ := List.findIdx?_eq_some_iff_getElem.mp h
  rw [List.length_take] at hlt
  omega

/-- `lmemfind`. -/
def lmemfind (s1 s2 : LuaString) : Option Nat :=
  match s2 with
  | [] => some 0
  | first :: others =>
    if s1.length < s2.length then none
    else lmemfindLoop first others (s1.length - others.length) s1

section Search

variable (C : Ctype) (src : LuaString)

/-! ## Captures -/

/-- The part of `push_onecapture` for a capture that was made. -/
def pushMade (c : Capture) : Except MatchError Pushed :=
  match c.len with
  | .unfinished => .error "unfinished capture"
  | .position => .ok (.integer (c.init + 1))
  | .closed l => .ok (.string (substring src c.init l))

/-- `push_onecapture`, for the match of the bytes from `s` to `e`. -/
def pushOnecapture (captures : Captures) (i s e : Nat) : Except MatchError Pushed :=
  match captures[i]? with
  | none =>
    if i = 0 then .ok (.string (substring src s (e - s)))
    else .error "invalid capture index"
  | some c => pushMade src c

/-- `push_captures`. Without a capture the whole match is pushed, if `whole` is set. -/
def pushCaptures (captures : Captures) (whole : Bool) (s e : Nat) :
    Except MatchError (List Pushed) :=
  (List.range (if captures.length = 0 ∧ whole then 1 else captures.length)).mapM
    (fun i => pushOnecapture src captures i s e)

/-! ## find, match and gmatch -/

/-- The loops of `str_find_aux` and `gmatch_aux` over the places to try. -/
def tryFrom (p : Pat) (anchor : Bool) (s1 : Nat) :
    Except MatchError (Option (Nat × Nat × Captures)) :=
  if src.length < s1 then .ok none
  else
    match (doMatch C src maxCCalls s1 p).run [] with
    | .error e _ => .error e
    | .ok (some res) captures => .ok (some (s1, res, captures))
    | .ok none _ => if anchor then .ok none else tryFrom p anchor (s1 + 1)
termination_by src.length + 1 - s1

/-- Whether the pattern is anchored, and what follows the anchor. -/
def skipAnchor (p : Pat) : Bool × Pat :=
  match p with
  | 0x5e :: p => (true, p)
  | p => (false, p)

/-- The part of `str_find_aux` that calls `match`, from the index `s1` on. -/
def findPattern (find : Bool) (p : Pat) (s1 : Nat) : Except MatchError (List Pushed) :=
  match tryFrom C src (skipAnchor p).2 (skipAnchor p).1 s1 with
  | .error e => .error e
  | .ok none => .ok [.nil]
  | .ok (some (s1, res, captures)) =>
    if find then do
      let values ← pushCaptures src captures false 0 0
      return .integer (s1 + 1) :: .integer res :: values
    else pushCaptures src captures true s1 res

/-- The part of `str_find_aux` that does a plain search. -/
def findPlain (p : LuaString) (s1 : Nat) : Except MatchError (List Pushed) :=
  match lmemfind (src.drop s1) p with
  | none => .ok [.nil]
  | some k => .ok [.integer (s1 + k + 1), .integer (s1 + k + p.length)]

/-- The start of the search in `str_find_aux`, counted from 1. -/
def findInit (init : Option Int) : Nat :=
  let init := posrelat (init.getD 1) src.length
  if init < 1 then 1 else init

/-- `str_find_aux`. -/
def strFindAux (find : Bool) (p : Pat) (init : Option Int) (plain : Bool) :
    Except MatchError (List Pushed) :=
  if src.length + 1 < findInit src init then .ok [.nil]
  else if find && (plain || nospecials p) then findPlain src p (findInit src init - 1)
  else findPattern C src find p (findInit src init - 1)

/-- `gmatch_aux`: the values of the iterator and its next start, from the start in the upvalue. -/
def gmatchAux (p : Pat) (start : Nat) : Except MatchError (Option (List Pushed × Nat)) :=
  match tryFrom C src p false start with
  | .error e => .error e
  | .ok none => .ok none
  | .ok (some (s, e, captures)) => do
    let values ← pushCaptures src captures true s e
    return some (values, if e = s then e + 1 else e)

/-! ## gsub -/

/-- What a function or table gives for a match. -/
inductive Answer where
  /-- nil or false. -/
  | nothing
  /-- A string, or a number as a string. -/
  | text (s : LuaString)
  | other (typename : String)

/-- The error that ends `gsub`. -/
inductive Raised where
  | message (e : MatchError)
  /-- An error of the called function or of a metamethod. -/
  | value (v : LuaValue)
  deriving DecidableEq

/-- The third argument of `gsub`. A function or a table may change the world `W`. -/
inductive Replacement (W : Type) where
  | string (news : LuaString)
  | table (gettable : Pushed → EStateM Raised W Answer)
  | function (call : List Pushed → EStateM Raised W Answer)
  /-- Accepted like the others, but `lua_tolstring` finds no text in it. -/
  | userdata

/-- The loop of `add_s`. `number2str` gives the text of an integer. -/
def addS (number2str : Nat → LuaString) (captures : Captures) (s e : Nat) (news : LuaString) :
    Except MatchError LuaString :=
  match news with
  | [] => .ok []
  | c :: rest =>
    if c ≠ 0x25 then do
      let added ← addS number2str captures s e rest
      return c :: added
    else do
      let d := rest.headD 0
      let value ←
        if !isdigit d then
          if d ≠ 0x25 then .error "invalid use of '%' in replacement string" else .ok [d]
        else if d = 0x30 then .ok (substring src s (e - s))
        else
          match pushOnecapture src captures (d.toNat - 0x31) s e with
          | .error e => .error e
          | .ok .nil => .ok []
          | .ok (.integer n) => .ok (number2str n)
          | .ok (.string t) => .ok t
      let added ← addS number2str captures s e rest.tail
      return value ++ added
termination_by news.length
decreasing_by
  · rw [List.length_cons]
    omega
  · rw [List.length_cons, List.length_tail]
    omega

variable {W : Type}

/-- A call of a function of the matcher. -/
def liftMatch {α : Type} : Except MatchError α → EStateM Raised W α
  | .ok a => pure a
  | .error e => throw (.message e)

/-- The end of `add_value`, for a function or a table. -/
def addAnswer (s e : Nat) : Answer → EStateM Raised W LuaString
  | .nothing => pure (substring src s (e - s))
  | .text t => pure t
  | .other typename => throw (.message ("invalid replacement value (a " ++ typename ++ ")"))

/-- `add_value`. -/
def addValue (number2str : Nat → LuaString) (captures : Captures) (s e : Nat) :
    Replacement W → EStateM Raised W LuaString
  | .string news => liftMatch (addS src number2str captures s e news)
  | .table gettable => do
    let key ← liftMatch (pushOnecapture src captures 0 s e)
    addAnswer src s e (← gettable key)
  | .function call => do
    let values ← liftMatch (pushCaptures src captures true s e)
    addAnswer src s e (← call values)
  | .userdata => pure []

/-- The loop of `str_gsub`: the place that is reached, the number of matches and the text so far. -/
def gsubLoop (number2str : Nat → LuaString) (p : Pat) (anchor : Bool) (repl : Replacement W)
    (maxS s n : Nat) (b : LuaString) : EStateM Raised W (Nat × Nat × LuaString) :=
  if n < maxS then
    match _h : (doMatch C src maxCCalls s p).run [] with
    | .error e _ => throw (.message e)
    | .ok none _ =>
      if s < src.length then
        if anchor then pure (s + 1, n, b ++ [byteAt src s])
        else gsubLoop number2str p anchor repl maxS (s + 1) n (b ++ [byteAt src s])
      else pure (s, n, b)
    | .ok (some e) captures => do
      let value ← addValue src number2str captures s e repl
      if s < e then
        if anchor then pure (e, n + 1, b ++ value)
        else gsubLoop number2str p anchor repl maxS e (n + 1) (b ++ value)
      else if s < src.length then
        if anchor then pure (s + 1, n + 1, b ++ value ++ [byteAt src s])
        else gsubLoop number2str p anchor repl maxS (s + 1) (n + 1) (b ++ value ++ [byteAt src s])
      else pure (s, n + 1, b ++ value)
  else pure (s, n, b)
termination_by src.length - s
decreasing_by
  · omega
  · have hle := (doMatch_enclosed _h).le_length
    omega
  · omega

/-- The bound on the number of matches, by the optional fourth argument of `gsub`. It is converted
to a `size_t` of four bytes. -/
def limit (maxS : Option Int) : Nat := maxS.elim (src.length + 1) (fun i => (i % 2 ^ 32).toNat)

/-- `str_gsub`: the new text and the number of matches. -/
def strGsub (number2str : Nat → LuaString) (p : Pat) (repl : Replacement W)
    (maxS : Option Int) : EStateM Raised W (LuaString × Nat) := do
  let (s, n, b) ←
    gsubLoop C src number2str (skipAnchor p).2 (skipAnchor p).1 repl (limit src maxS) 0 0 []
  return (b ++ src.drop s, n)

end Search

end LuaAddons.Pattern
