import LuaAddons.Patterns

/-!
# What a pattern matches

A pattern is a row of items. From a place in the subject, with the captures so far, an item leads to
some places with some captures (`Item.steps`), listed by preference, and a pattern leads to what its
items lead to in a row (`results`). `match` goes from item to item, jumps and recurses, and takes
its captures back where it fails. It finds the first of the results of the pattern, and when it
finds none there is none (`finds_doMatch`).

Which captures are finished at an item depends on the pattern alone. A pattern that `fits` closes
what it opens and refers back to finished captures only. On such a pattern of fewer bytes than
`matchdepth`, `match` raises no error.
-/

namespace LuaAddons.Pattern

open Exec Backtracking

/-! ## Items -/

inductive Repetition where
  | once
  | optional
  | plus
  | star
  | minus
  deriving DecidableEq

/-- How many bytes may be taken of the `n` that match, by preference. -/
def Repetition.counts (n : Nat) : Repetition → List Nat
  | .once => if n = 0 then [] else [1]
  | .optional => if n = 0 then [0] else [1, 0]
  | .plus => ((List.range n).map (· + 1)).reverse
  | .star => (List.range (n + 1)).reverse
  | .minus => List.range (n + 1)

inductive Item where
  | opening (position : Bool)
  | closing
  | atEnd
  | balanced (b e : UInt8)
  | frontier (set : LuaString)
  | backReference (digit : UInt8)
  | single (test : UInt8 → Bool) (repetition : Repetition)

section Results

variable (C : Ctype) (src : LuaString)

/-- The field `len` of a capture that starts. -/
def opened (position : Bool) : CaptureLen := if position then .position else .unfinished

/-- How many bytes from `s` on pass the test. -/
def run (test : UInt8 → Bool) (s : Nat) : Nat := ((src.drop s).takeWhile test).length

/-- Where the item leads to. -/
def Item.steps (s : Nat) (captures : Captures) : Item → List (Nat × Captures)
  | .opening position =>
    if maxCaptures ≤ captures.length then [] else [(s, captures ++ [⟨s, opened position⟩])]
  | .closing => (captureToClose captures).toList.map (fun l => (s, closeAt s l captures))
  | .atEnd => if s = src.length then [(s, captures)] else []
  | .balanced b e =>
    if byteAt src s = b then
      (balance b e 1 (s + 1) (src.drop (s + 1))).toList.map (fun s => (s, captures))
    else []
  | .frontier set =>
    if !matchbracketclass C (if s = 0 then 0 else byteAt src (s - 1)) set &&
        matchbracketclass C (byteAt src s) set then [(s, captures)]
    else []
  | .backReference digit =>
    match matchCapture src captures s digit with
    | .ok o => o.toList.map (fun s => (s, captures))
    | .error _ => []
  | .single test repetition =>
    (repetition.counts (run src test s)).map (fun i => (s + i, captures))

/-- The suffix of a single item and what follows it. -/
def suffixOf (ep : Pat) : Repetition × Pat :=
  if ep.headD 0 = 0x3f then (.optional, ep.tail)
  else if ep.headD 0 = 0x2b then (.plus, ep.tail)
  else if ep.headD 0 = 0x2a then (.star, ep.tail)
  else if ep.headD 0 = 0x2d then (.minus, ep.tail)
  else (.once, ep)

/-- The first item of a pattern and the rest, `none` when it is malformed. -/
def nextItem (x : UInt8) (rest : Pat) : Option (Item × Pat) :=
  if x = 0x28 then
    if rest.head? = some 0x29 then some (.opening true, rest.tail)
    else some (.opening false, rest)
  else if x = 0x29 then some (.closing, rest)
  else if x = 0x24 ∧ rest = [] then some (.atEnd, [])
  else if x = 0x25 ∧ rest.head? = some 0x62 then
    match rest.tail with
    | b :: e :: q => some (.balanced b e, q)
    | _ => none
  else if x = 0x25 ∧ rest.head? = some 0x66 then
    if rest.tail.head? ≠ some 0x5b then none
    else
      match classend rest.tail with
      | .error _ => none
      | .ok ep => some (.frontier (between rest.tail ep), ep)
  else if x = 0x25 ∧ 0x30 ≤ rest.headD 0 ∧ rest.headD 0 ≤ 0x39 then
    some (.backReference (rest.headD 0), rest.tail)
  else
    match classend (x :: rest) with
    | .error _ => none
    | .ok ep =>
      some (.single (singleTest C (x :: rest) ep) (suffixOf ep).1, (suffixOf ep).2)

theorem length_suffixOf (ep : Pat) : (suffixOf ep).2.length ≤ ep.length := by
  unfold suffixOf
  repeat' split
  all_goals first
    | exact Nat.le_refl _
    | rw [List.length_tail]; omega

theorem length_nextItem {x : UInt8} {rest q : Pat} {item : Item}
    (h : nextItem C x rest = some (item, q)) : q.length ≤ rest.length := by
  unfold nextItem at h
  split at h
  · split at h <;> cases h
    · rw [List.length_tail]
      omega
    · exact Nat.le_refl _
  split at h
  · cases h
    exact Nat.le_refl _
  split at h
  · cases h
    exact Nat.zero_le _
  split at h
  · split at h
    · rename_i b e q' htail
      cases h
      have hlength := congrArg List.length htail
      rw [List.length_tail, List.length_cons, List.length_cons] at hlength
      omega
    · cases h
  split at h
  · split at h
    · cases h
    · split at h
      · cases h
      · rename_i ep hclass
        cases h
        have hle := length_classend_le hclass
        rw [List.length_tail] at hle
        omega
  split at h
  · cases h
    rw [List.length_tail]
    omega
  · split at h
    · cases h
    · rename_i ep hclass
      cases h
      have hlt := length_classend hclass
      have hle := length_suffixOf ep
      rw [List.length_cons] at hlt
      omega

/-- Where the pattern leads to, with the captures made, by preference. -/
def results (p : Pat) (s : Nat) (captures : Captures) : List (Nat × Captures) :=
  match p with
  | [] => [(s, captures)]
  | x :: rest =>
    match _h : nextItem C x rest with
    | none => []
    | some (item, q) =>
      (item.steps C src s captures).flatMap (fun r => results q r.1 r.2)
termination_by p.length
decreasing_by
  have hle := length_nextItem C _h
  rw [List.length_cons]
  omega

end Results

variable {C : Ctype} {src : LuaString}

theorem results_nil (s : Nat) (captures : Captures) :
    results C src [] s captures = [(s, captures)] := by
  rw [results]

theorem results_of_none {x : UInt8} {rest : Pat} (h : nextItem C x rest = none) (s : Nat)
    (captures : Captures) : results C src (x :: rest) s captures = [] := by
  rw [results]
  split
  · rfl
  · rename_i heq
    rw [h] at heq
    cases heq

theorem results_of_item {x : UInt8} {rest q : Pat} {item : Item}
    (h : nextItem C x rest = some (item, q)) (s : Nat) (captures : Captures) :
    results C src (x :: rest) s captures =
      (item.steps C src s captures).flatMap (fun r => results C src q r.1 r.2) := by
  rw [results]
  split
  · rename_i heq
    rw [h] at heq
    cases heq
  · rename_i heq
    rw [h] at heq
    cases heq
    rfl

/-! ## Patterns that cannot fail

A capture is represented by whether it is finished. -/

/-- Which of the captures are finished. -/
def finished (captures : Captures) : List Bool := captures.map (fun c => c.len ≠ .unfinished)

/-- The last capture that is not finished. -/
def lastOpen (shape : List Bool) : Option Nat :=
  (shape.reverse.findIdx? (fun closed => !closed)).map (shape.length - 1 - ·)

/-- Which captures are finished behind the item, `none` when it cannot stand there. -/
def Item.shape (shape : List Bool) : Item → Option (List Bool)
  | .opening position =>
    if maxCaptures ≤ shape.length then none else some (shape ++ [position])
  | .closing => (lastOpen shape).map (fun l => shape.set l true)
  | .backReference digit =>
    if digit ≠ 0x30 ∧ shape[digit.toNat - 0x31]? = some true then some shape else none
  | _ => some shape

/-- The rest of a pattern can stand behind captures of this shape. -/
def fits (C : Ctype) (p : Pat) (shape : List Bool) : Bool :=
  match p with
  | [] => shape.all id
  | x :: rest =>
    match _h : nextItem C x rest with
    | none => false
    | some (item, q) =>
      match item.shape shape with
      | none => false
      | some shape => fits C q shape
termination_by p.length
decreasing_by
  have hle := length_nextItem C _h
  rw [List.length_cons]
  omega

theorem fits_of_none {x : UInt8} {rest : Pat} (h : nextItem C x rest = none)
    (shape : List Bool) : fits C (x :: rest) shape = false := by
  rw [fits]
  split
  · rfl
  · rename_i heq
    rw [h] at heq
    cases heq

theorem fits_of_item {x : UInt8} {rest q : Pat} {item : Item}
    (h : nextItem C x rest = some (item, q)) (shape : List Bool) :
    fits C (x :: rest) shape = (item.shape shape).elim false (fits C q) := by
  rw [fits]
  split
  · rename_i heq
    rw [h] at heq
    cases heq
  · rename_i heq
    rw [h] at heq
    cases heq
    cases item.shape shape <;> rfl

theorem captureToClose_eq (captures : Captures) :
    captureToClose captures = lastOpen (finished captures) := by
  have htest : (fun closed => !closed) ∘ (fun c : Capture => decide (c.len ≠ .unfinished)) =
      fun c => decide (c.len = .unfinished) := by
    funext c
    simp
  unfold captureToClose lastOpen finished
  rw [← List.map_reverse, List.findIdx?_map, htest, List.length_map]

theorem captureToClose_unfinished {captures : Captures} {l : Nat}
    (h : captureToClose captures = some l) :
    ∃ c, captures[l]? = some c ∧ c.len = .unfinished := by
  obtain ⟨i, hi, rfl⟩ := Option.map_eq_some_iff.mp h
  obtain ⟨hlt, hlen, -⟩ := List.findIdx?_eq_some_iff_getElem.mp hi
  rw [List.length_reverse] at hlt
  rw [List.getElem_reverse, decide_eq_true_eq] at hlen
  exact ⟨_, List.getElem?_eq_getElem (by omega), hlen⟩

/-- The capture that was closed is the same again. -/
theorem reopen_closeAt {captures : Captures} {l : Nat} (h : captureToClose captures = some l)
    (s : Nat) : reopen l (closeAt s l captures) = captures := by
  obtain ⟨c, hc, hlen⟩ := captureToClose_unfinished h
  apply List.ext_getElem?
  intro i
  rw [reopen, closeAt, List.getElem?_modify, List.getElem?_modify]
  by_cases hi : l = i
  · subst hi
    rw [hc]
    obtain ⟨init, len⟩ := c
    obtain rfl : len = .unfinished := hlen
    simp
  · simp [hi]

theorem finished_closeAt (captures : Captures) (s l : Nat) :
    finished (closeAt s l captures) = (finished captures).set l true := by
  apply List.ext_getElem?
  intro i
  rw [finished, closeAt, List.getElem?_map, List.getElem?_modify, List.getElem?_set, finished,
    List.getElem?_map, List.length_map]
  by_cases hi : l = i
  · subst hi
    by_cases hlt : l < captures.length
    · simp [hlt]
    · simp [hlt]
  · simp [hi]

theorem checkCapture_ok {captures : Captures} {digit : UInt8} {c : Capture}
    (h : checkCapture captures digit = .ok c) :
    digit ≠ 0x30 ∧ captures[digit.toNat - 0x31]? = some c ∧ c.len ≠ .unfinished := by
  unfold checkCapture at h
  by_cases hzero : digit = 0x30
  · rw [if_pos hzero] at h
    cases h
  · rw [if_neg hzero] at h
    split at h
    · cases h
    · rename_i c' hc
      split at h
      · cases h
      · rename_i hlen
        cases h
        exact ⟨hzero, hc, hlen⟩

theorem finished_getElem? {captures : Captures} {i : Nat} {c : Capture}
    (h : captures[i]? = some c) (hlen : c.len ≠ .unfinished) :
    (finished captures)[i]? = some true := by
  rw [finished, List.getElem?_map, h, Option.map_some, decide_eq_true hlen]

theorem checkCapture_of_finished {captures : Captures} {digit : UInt8} (hzero : digit ≠ 0x30)
    (h : (finished captures)[digit.toNat - 0x31]? = some true) :
    ∃ c, checkCapture captures digit = .ok c := by
  rw [finished, List.getElem?_map, Option.map_eq_some_iff] at h
  obtain ⟨c, hc, hlen⟩ := h
  refine ⟨c, ?_⟩
  rw [checkCapture, if_neg hzero, hc]
  exact if_neg (of_decide_eq_true hlen)

theorem matchCapture_of_finished {captures : Captures} {digit : UInt8} (hzero : digit ≠ 0x30)
    (h : (finished captures)[digit.toNat - 0x31]? = some true) (src : LuaString) (s : Nat) :
    ∃ o, matchCapture src captures s digit = .ok o := by
  obtain ⟨c, hc⟩ := checkCapture_of_finished hzero h
  rw [matchCapture, hc]
  dsimp only
  split
  · split
    · exact ⟨_, rfl⟩
    · exact ⟨_, rfl⟩
  · exact ⟨_, rfl⟩

theorem mem_guarded {P : Prop} [Decidable P] {α : Type} {a r : α}
    (h : r ∈ if P then [a] else []) : r = a := by
  split at h
  · exact List.mem_singleton.mp h
  · cases h

/-- What an item does to the captures is known from their shape. -/
theorem steps_shape {item : Item} {src : LuaString} {s : Nat} {captures : Captures}
    {r : Nat × Captures} (h : r ∈ item.steps C src s captures) :
    item.shape (finished captures) = some (finished r.2) := by
  have hkept {l : List Nat} {r : Nat × Captures} (h : r ∈ l.map (fun s => (s, captures))) :
      some (finished captures) = some (finished r.2) := by
    obtain ⟨s', -, rfl⟩ := List.mem_map.mp h
    rfl
  cases item with
  | opening position =>
    rw [Item.steps] at h
    rw [Item.shape, finished, List.length_map]
    by_cases hmax : maxCaptures ≤ captures.length
    · rw [if_pos hmax] at h
      cases h
    · rw [if_neg hmax, List.mem_singleton] at h
      subst h
      have hopened : decide (opened position ≠ .unfinished) = position := by
        cases position <;> rfl
      rw [if_neg hmax, finished, List.map_append, List.map_singleton, hopened]
  | closing =>
    rw [Item.steps, List.mem_map] at h
    obtain ⟨l, hl, rfl⟩ := h
    rw [Option.mem_toList, captureToClose_eq] at hl
    rw [Item.shape, hl, Option.map_some, finished_closeAt]
  | atEnd =>
    obtain rfl := mem_guarded h
    rfl
  | balanced b e =>
    rw [Item.steps] at h
    split at h
    · exact hkept h
    · cases h
  | frontier set =>
    obtain rfl := mem_guarded h
    rfl
  | backReference digit =>
    rw [Item.steps] at h
    cases hcheck : checkCapture captures digit with
    | error e =>
      rw [matchCapture, hcheck] at h
      cases h
    | ok c =>
      obtain ⟨hzero, hc, hlen⟩ := checkCapture_ok hcheck
      rw [Item.shape, if_pos ⟨hzero, finished_getElem? hc hlen⟩]
      split at h
      · exact hkept h
      · cases h
  | single test repetition =>
    obtain ⟨i, -, rfl⟩ := List.mem_map.mp h
    rfl

/-! ## Repetitions -/

theorem run_of_singlematch {s : Nat} {p ep : Pat} (h : singlematch C src s p ep = true) :
    run src (singleTest C p ep) s = run src (singleTest C p ep) (s + 1) + 1 := by
  simp only [singlematch, Bool.and_eq_true, decide_eq_true_eq] at h
  obtain ⟨hlt, htest⟩ := h
  rw [byteAt, List.getElem?_eq_getElem hlt, Option.getD_some] at htest
  rw [run, run, List.drop_eq_getElem_cons hlt, List.takeWhile_cons_of_pos htest, List.length_cons]

theorem run_of_not_singlematch {s : Nat} {p ep : Pat} (h : singlematch C src s p ep = false) :
    run src (singleTest C p ep) s = 0 := by
  rw [run, List.length_eq_zero_iff]
  by_cases hlt : s < src.length
  · have htest : ¬ singleTest C p ep src[s] = true := by
      intro htest
      rw [singlematch, byteAt, List.getElem?_eq_getElem hlt, Option.getD_some, htest] at h
      simp [hlt] at h
    rw [List.drop_eq_getElem_cons hlt, List.takeWhile_cons_of_neg htest]
  · rw [List.drop_of_length_le (Nat.le_of_not_lt hlt), List.takeWhile_nil]

theorem countSingle_eq (p ep : Pat) (s : Nat) :
    countSingle C src p ep s = run src (singleTest C p ep) s := by
  fun_induction countSingle C src p ep s with
  | case1 s h ih => rw [ih, run_of_singlematch h]
  | case2 s h => rw [run_of_not_singlematch (Bool.eq_false_iff.mpr h)]

section Search

variable {rec : Nat → Pat → Matcher} {p ep q rest : Pat} {x : UInt8} {s m : Nat}
  {captures : Captures}

section Expand

variable {E : MatchError → Prop}

theorem finds_expandDown
    (hrec : ∀ s, Finds E (rec s p) captures (results C src p s captures)) (s : Nat) :
    ∀ n, Finds E (expandDown rec s p n) captures
      ((List.range (n + 1)).reverse.flatMap (fun i => results C src p (s + i) captures))
  | 0 => by
    rw [expandDown, List.range_one, List.reverse_singleton, List.flatMap_singleton]
    exact hrec s
  | n + 1 => by
    rw [expandDown, List.range_succ, List.reverse_concat, List.flatMap_cons]
    exact (hrec (s + (n + 1))).orElse (finds_expandDown hrec s n)

/-- The greedy search tries the longest repetition first. -/
theorem finds_maxExpand
    (hrec : ∀ s, Finds E (rec s ep.tail) captures (results C src ep.tail s captures)) (s : Nat) :
    Finds E (maxExpand C src rec s p ep) captures
      ((List.range (run src (singleTest C p ep) s + 1)).reverse.flatMap
        (fun i => results C src ep.tail (s + i) captures)) := by
  rw [maxExpand, countSingle_eq]
  exact finds_expandDown hrec s _

/-- The other search tries the shortest repetition first. -/
theorem finds_minExpand
    (hrec : ∀ s, Finds E (rec s ep.tail) captures (results C src ep.tail s captures)) (s : Nat) :
    Finds E (minExpand C src rec p ep s) captures
      ((List.range (run src (singleTest C p ep) s + 1)).flatMap
        (fun i => results C src ep.tail (s + i) captures)) := by
  fun_induction minExpand C src rec p ep s with
  | case1 s ih =>
    by_cases h : singlematch C src s p ep = true
    · rw [dif_pos h, run_of_singlematch h, List.range_succ_eq_map, List.flatMap_cons,
        List.flatMap_map]
      have hnext := ih h
      simp only [Nat.add_assoc, Nat.add_comm 1] at hnext
      exact (hrec s).orElse hnext
    · rw [dif_neg h, run_of_not_singlematch (Bool.eq_false_iff.mpr h), List.range_one,
        List.flatMap_singleton, ← List.append_nil (results C src ep.tail (s + 0) captures)]
      exact (hrec s).orElse finds_none

/-- The part of `match` for a class with its suffix. -/
theorem finds_class
    (hrec : ∀ s, Finds E (rec s (suffixOf ep).2) captures
      (results C src (suffixOf ep).2 s captures))
    (hjump : ∀ s, Finds E (matchFrom C src rec s (suffixOf ep).2) captures
      (results C src (suffixOf ep).2 s captures)) (s : Nat) :
    Finds E (
      let suffix := ep.headD 0
      if !singlematch C src s p ep then
        if suffix = 0x2a ∨ suffix = 0x3f ∨ suffix = 0x2d then matchFrom C src rec s ep.tail
        else pure none
      else if suffix = 0x3f then orElse (rec (s + 1) ep.tail) (matchFrom C src rec s ep.tail)
      else if suffix = 0x2b then maxExpand C src rec (s + 1) p ep
      else if suffix = 0x2a then maxExpand C src rec s p ep
      else if suffix = 0x2d then minExpand C src rec p ep s
      else matchFrom C src rec (s + 1) ep) captures
      ((Item.steps C src s captures (.single (singleTest C p ep) (suffixOf ep).1)).flatMap
        (fun r => results C src (suffixOf ep).2 r.1 r.2)) := by
  rw [Item.steps, List.flatMap_map]
  dsimp only
  unfold suffixOf at hrec hjump ⊢
  by_cases hsingle : singlematch C src s p ep = true
  · have hrun := run_of_singlematch hsingle
    rw [hsingle, Bool.not_true, if_neg Bool.false_ne_true]
    by_cases hoptional : ep.headD 0 = 0x3f
    · simp only [if_pos hoptional] at hrec hjump
      simp only [if_pos hoptional, Repetition.counts, hrun, if_neg (Nat.succ_ne_zero _)]
      exact (hrec (s + 1)).orElse (by simpa using hjump s)
    by_cases hplus : ep.headD 0 = 0x2b
    · simp only [if_neg hoptional, if_pos hplus] at hrec
      simp only [if_neg hoptional, if_pos hplus, Repetition.counts, hrun]
      have hmax : Finds E (maxExpand C src rec (s + 1) p ep) captures _ :=
        finds_maxExpand hrec (s + 1)
      rw [← List.map_reverse, List.flatMap_map]
      simpa only [Nat.add_assoc, Nat.add_comm 1] using hmax
    by_cases hstar : ep.headD 0 = 0x2a
    · simp only [if_neg hoptional, if_neg hplus, if_pos hstar] at hrec
      simp only [if_neg hoptional, if_neg hplus, if_pos hstar, Repetition.counts]
      exact finds_maxExpand hrec s
    by_cases hminus : ep.headD 0 = 0x2d
    · simp only [if_neg hoptional, if_neg hplus, if_neg hstar, if_pos hminus] at hrec
      simp only [if_neg hoptional, if_neg hplus, if_neg hstar, if_pos hminus, Repetition.counts]
      exact finds_minExpand hrec s
    · simp only [if_neg hoptional, if_neg hplus, if_neg hstar, if_neg hminus] at hjump
      simp only [if_neg hoptional, if_neg hplus, if_neg hstar, if_neg hminus, Repetition.counts,
        hrun, if_neg (Nat.succ_ne_zero _), List.flatMap_singleton]
      exact hjump (s + 1)
  · have hrun : run src (singleTest C p ep) s = 0 :=
      run_of_not_singlematch (Bool.eq_false_iff.mpr hsingle)
    rw [Bool.eq_false_iff.mpr hsingle, Bool.not_false, if_pos rfl]
    by_cases hoptional : ep.headD 0 = 0x3f
    · simp only [if_pos hoptional] at hjump
      simp only [hoptional, Repetition.counts, hrun]
      simpa using hjump s
    by_cases hplus : ep.headD 0 = 0x2b
    · simp only [hplus, Repetition.counts, hrun]
      simpa using finds_none
    by_cases hstar : ep.headD 0 = 0x2a
    · simp only [if_neg hoptional, if_neg hplus, if_pos hstar] at hjump
      simp only [hstar, Repetition.counts, hrun]
      simpa using hjump s
    by_cases hminus : ep.headD 0 = 0x2d
    · simp only [if_neg hoptional, if_neg hplus, if_neg hstar, if_pos hminus] at hjump
      simp only [hminus, Repetition.counts, hrun]
      simpa using hjump s
    · simp only [hoptional, hplus, hstar, hminus, Repetition.counts, hrun]
      simpa using finds_none

end Expand

/-! ## The matcher -/

/-- With `n` levels left, an error is raised only on a pattern that does not fit or is too long. -/
def Faulty (C : Ctype) (n : Nat) (p : Pat) (captures : Captures) (_ : MatchError) : Prop :=
  p.length < n → fits C p (finished captures) = false

/-- The calls of `match` with `n` levels left. -/
def Searches (C : Ctype) (src : LuaString) (n : Nat) (rec : Nat → Pat → Matcher) : Prop :=
  ∀ p s captures, Finds (Faulty C n p captures) (rec s p) captures (results C src p s captures)

theorem Faulty.succ {e : MatchError} (h : Faulty C (m + 1) p captures e) :
    Faulty C m p captures e := fun hlt => h (Nat.lt_succ_of_lt hlt)

theorem faulty_of_none {e : MatchError} (h : nextItem C x rest = none) :
    Faulty C m (x :: rest) captures e := fun _ => fits_of_none h _

theorem faulty_of_shape {item : Item} {e : MatchError} (h : nextItem C x rest = some (item, q))
    (hshape : item.shape (finished captures) = none) : Faulty C m (x :: rest) captures e := by
  intro
  rw [fits_of_item h, hshape]
  rfl

/-- An error behind an item is an error of the whole pattern. -/
theorem Faulty.step {item : Item} {e : MatchError} {r : Nat × Captures}
    (h : nextItem C x rest = some (item, q)) (hr : r ∈ item.steps C src s captures)
    (hfaulty : Faulty C m q r.2 e) : Faulty C (m + 1) (x :: rest) captures e := by
  intro hlt
  have hle := length_nextItem C h
  rw [List.length_cons] at hlt
  rw [fits_of_item h, steps_shape hr]
  exact hfaulty (by omega)

theorem finds_startCapture {position : Bool}
    (hitem : nextItem C x rest = some (.opening position, q)) (hrec : Searches C src m rec) :
    Finds (Faulty C (m + 1) (x :: rest) captures) (startCapture rec s q (opened position))
      captures (results C src (x :: rest) s captures) := by
  refine finds_get ?_
  rw [results_of_item hitem]
  by_cases hmax : maxCaptures ≤ captures.length
  · rw [if_pos hmax]
    refine finds_throw (faulty_of_shape hitem ?_)
    rw [Item.shape, finished, List.length_map, if_pos hmax]
  · have hstep : (s, captures ++ [⟨s, opened position⟩]) ∈
        Item.steps C src s captures (.opening position) := by
      rw [Item.steps, if_neg hmax]
      exact List.mem_singleton_self _
    have hundo : List.dropLast (captures ++ [⟨s, opened position⟩]) = captures :=
      List.dropLast_concat
    rw [Item.steps, if_neg hmax, if_neg hmax, List.flatMap_singleton]
    exact Finds.undoing ((hrec q s _).mono (fun e => Faulty.step hitem hstep)) hundo

theorem finds_endCapture (hitem : nextItem C x rest = some (.closing, q))
    (hrec : Searches C src m rec) :
    Finds (Faulty C (m + 1) (x :: rest) captures) (endCapture rec s q) captures
      (results C src (x :: rest) s captures) := by
  refine finds_get ?_
  rw [results_of_item hitem]
  cases hclose : captureToClose captures with
  | none =>
    refine finds_throw (faulty_of_shape hitem ?_)
    rw [Item.shape, ← captureToClose_eq, hclose]
    rfl
  | some l =>
    have hstep : (s, closeAt s l captures) ∈ Item.steps C src s captures .closing := by
      rw [Item.steps, hclose]
      exact List.mem_singleton_self _
    rw [Item.steps, hclose, Option.toList_some, List.map_singleton, List.flatMap_singleton]
    exact ((hrec q s _).mono (fun e => Faulty.step hitem hstep)).undoing (reopen_closeAt hclose s)

/-- The parts of the pattern that are reached by a jump are searched as they should be. -/
def Jumps (C : Ctype) (src : LuaString) (m : Nat) (rec : Nat → Pat → Matcher) (n : Nat) : Prop :=
  ∀ q : Pat, q.length < n → ∀ s captures,
    Finds (Faulty C (m + 1) q captures) (matchFrom C src rec s q) captures
      (results C src q s captures)

/-- The jump behind an item. -/
theorem Jumps.step {item : Item} {r : Nat × Captures}
    (hjumps : Jumps C src m rec (x :: rest).length) (h : nextItem C x rest = some (item, q))
    (hr : r ∈ item.steps C src s captures) :
    Finds (Faulty C (m + 1) (x :: rest) captures) (matchFrom C src rec r.1 q) r.2
      (results C src q r.1 r.2) := by
  have hlt : q.length < (x :: rest).length := Nat.lt_succ_of_le (length_nextItem C h)
  exact (hjumps q hlt r.1 r.2).mono (fun e he => he.succ.step h hr)

theorem finds_matchFrom (hrec : Searches C src m rec) (n : Nat) : Jumps C src m rec n := by
  induction n with
  | zero => exact fun q hq => absurd hq (Nat.not_lt_zero _)
  | succ n ih =>
    intro p hp s captures
    match p with
    | [] =>
      rw [matchFrom, results_nil]
      exact finds_some s
    | x :: rest =>
    have hjumps : Jumps C src m rec (x :: rest).length := fun q hq => ih q (by omega)
    rw [matchFrom]
    by_cases hopen : x = 0x28
    · rw [if_pos hopen]
      by_cases hposition : rest.head? = some 0x29
      · rw [if_pos hposition]
        exact finds_startCapture (by rw [nextItem, if_pos hopen, if_pos hposition]) hrec
      · rw [if_neg hposition]
        exact finds_startCapture (by rw [nextItem, if_pos hopen, if_neg hposition]) hrec
    rw [if_neg hopen]
    by_cases hclose : x = 0x29
    · rw [if_pos hclose]
      exact finds_endCapture (by rw [nextItem, if_neg hopen, if_pos hclose]) hrec
    rw [if_neg hclose]
    by_cases hend : x = 0x24 ∧ rest = []
    · have hitem : nextItem C x rest = some (.atEnd, []) := by
        rw [nextItem, if_neg hopen, if_neg hclose, if_pos hend]
      rw [if_pos hend, results_of_item hitem, Item.steps]
      by_cases hs : s = src.length
      · rw [if_pos hs, if_pos hs, List.flatMap_singleton, results_nil]
        exact finds_some s
      · rw [if_neg hs, if_neg hs]
        exact finds_none
    rw [if_neg hend]
    by_cases hbalance : x = 0x25 ∧ rest.head? = some 0x62
    · rw [if_pos hbalance]
      have hnext : nextItem C x rest = match rest.tail with
          | b :: e :: q => some (.balanced b e, q)
          | _ => none := by
        rw [nextItem, if_neg hopen, if_neg hclose, if_neg hend, if_pos hbalance]
      cases htail : rest.tail with
      | nil =>
        rw [htail] at hnext
        exact finds_throw (faulty_of_none hnext)
      | cons b arguments =>
        rw [htail] at hnext
        cases arguments with
        | nil => exact finds_throw (faulty_of_none hnext)
        | cons e q =>
          have hq : rest.drop 3 = q := by
            rw [show 3 = 1 + 2 from rfl, ← List.drop_drop, List.drop_one, htail]
            rfl
          rw [results_of_item hnext, matchbalance, hq]
          by_cases hb : byteAt src s = b
          · rw [if_neg (not_not_intro hb), Item.steps, if_pos hb]
            cases hbalanced : balance b e 1 (s + 1) (src.drop (s + 1)) with
            | none => exact finds_none
            | some s' =>
              have hstep : (s', captures) ∈ Item.steps C src s captures (.balanced b e) := by
                rw [Item.steps, if_pos hb, hbalanced]
                exact List.mem_singleton_self _
              rw [Option.toList_some, List.map_singleton, List.flatMap_singleton]
              exact hjumps.step hnext hstep
          · rw [if_pos hb, Item.steps, if_neg hb]
            exact finds_none
    rw [if_neg hbalance]
    by_cases hfrontier : x = 0x25 ∧ rest.head? = some 0x66
    · rw [if_pos hfrontier]
      have hnext : nextItem C x rest =
          if rest.tail.head? ≠ some 0x5b then none
          else match classend rest.tail with
            | .error _ => none
            | .ok ep => some (.frontier (between rest.tail ep), ep) := by
        rw [nextItem, if_neg hopen, if_neg hclose, if_neg hend, if_neg hbalance,
          if_pos hfrontier]
      by_cases hset : rest.tail.head? = some 0x5b
      · rw [if_neg (not_not_intro hset)] at hnext ⊢
        split
        · rename_i e hclass
          rw [hclass] at hnext
          exact finds_throw (faulty_of_none hnext)
        · rename_i ep hclass
          rw [hclass] at hnext
          rw [results_of_item hnext]
          by_cases hfront : (!matchbracketclass C (if s = 0 then 0 else byteAt src (s - 1))
              (between rest.tail ep) &&
              matchbracketclass C (byteAt src s) (between rest.tail ep)) = true
          · have hstep : (s, captures) ∈
                Item.steps C src s captures (.frontier (between rest.tail ep)) := by
              rw [Item.steps, if_pos hfront]
              exact List.mem_singleton_self _
            rw [if_pos hfront, Item.steps, if_pos hfront, List.flatMap_singleton]
            exact hjumps.step hnext hstep
          · rw [if_neg hfront, Item.steps, if_neg hfront]
            exact finds_none
      · rw [if_pos hset] at hnext ⊢
        exact finds_throw (faulty_of_none hnext)
    rw [if_neg hfrontier]
    by_cases hdigit : x = 0x25 ∧ 0x30 ≤ rest.headD 0 ∧ rest.headD 0 ≤ 0x39
    · have hitem : nextItem C x rest = some (.backReference (rest.headD 0), rest.tail) := by
        rw [nextItem, if_neg hopen, if_neg hclose, if_neg hend, if_neg hbalance,
          if_neg hfrontier, if_pos hdigit]
      rw [if_pos hdigit]
      refine finds_get ?_
      rw [results_of_item hitem]
      cases hcapture : matchCapture src captures s (rest.headD 0) with
      | error e =>
        refine finds_throw (faulty_of_shape hitem ?_)
        rw [Item.shape]
        refine if_neg ?_
        rintro ⟨hzero, hfinished⟩
        obtain ⟨o, ho⟩ := matchCapture_of_finished hzero hfinished src s
        rw [hcapture] at ho
        cases ho
      | ok o =>
        cases o with
        | none =>
          rw [Item.steps, hcapture]
          exact finds_none
        | some s' =>
          have hstep : (s', captures) ∈
              Item.steps C src s captures (.backReference (rest.headD 0)) := by
            rw [Item.steps, hcapture]
            exact List.mem_singleton_self _
          rw [Item.steps, hcapture]
          dsimp only
          rw [Option.toList_some, List.map_singleton, List.flatMap_singleton]
          exact hjumps.step hitem hstep
    rw [if_neg hdigit]
    have hnext : nextItem C x rest = match classend (x :: rest) with
        | .error _ => none
        | .ok ep =>
          some (.single (singleTest C (x :: rest) ep) (suffixOf ep).1, (suffixOf ep).2) := by
      rw [nextItem, if_neg hopen, if_neg hclose, if_neg hend, if_neg hbalance, if_neg hfrontier,
        if_neg hdigit]
    split
    · rename_i e hclass
      rw [hclass] at hnext
      exact finds_throw (faulty_of_none hnext)
    · rename_i ep hclass
      rw [hclass] at hnext
      have hlt : (suffixOf ep).2.length < (x :: rest).length :=
        Nat.lt_succ_of_le (length_nextItem C hnext)
      -- a class leaves the captures alone
      have hfaulty : ∀ e, Faulty C m (suffixOf ep).2 captures e →
          Faulty C (m + 1) (x :: rest) captures e := by
        intro e he hlength
        rw [fits_of_item hnext]
        exact he (by omega)
      rw [results_of_item hnext]
      refine finds_class (fun s => (hrec _ s captures).mono hfaulty) (fun s => ?_) s
      exact (hjumps _ hlt s captures).mono (fun e he => hfaulty e he.succ)

end Search

theorem finds_doMatch (C : Ctype) (src : LuaString) :
    ∀ matchdepth, Searches C src matchdepth (doMatch C src matchdepth)
  | 0 => fun _ _ _ => finds_throw (fun hlt => absurd hlt (Nat.not_lt_zero _))
  | matchdepth + 1 => fun p =>
    finds_matchFrom (finds_doMatch C src matchdepth) (p.length + 1) p (Nat.lt_succ_self _)

/-- **`match` finds the first result**, whatever the pattern, when it returns: the end and the
captures of the first result, or nothing and the captures of before when there is no result. -/
theorem doMatch_first (C : Ctype) (src : LuaString) (matchdepth : Nat) (p : Pat) (s : Nat)
    (captures : Captures) {r : Option Nat} {captures' : Captures}
    (h : (doMatch C src matchdepth s p).run captures = .ok r captures') :
    (EStateM.Result.ok r captures' : EStateM.Result MatchError Captures (Option Nat)) =
      answer captures (results C src p s captures) :=
  h.symm.trans ((finds_doMatch C src matchdepth p s captures).eq_answer h)

/-- A letter as a capture. -/
theorem letter_first :
    ∃ captures, (EStateM.Result.ok (some 2) captures : EStateM.Result MatchError _ _) =
      answer [] (results cLocale (ascii "x=1") (ascii "(%a)=") 0 []) :=
  ⟨_, doMatch_first cLocale (ascii "x=1") maxCCalls (ascii "(%a)=") 0 []
    (run_of_outcome (by decide +kernel))⟩

/-- **`match` returns** on a pattern that fits. -/
theorem doMatch_returns (C : Ctype) (src : LuaString) {matchdepth : Nat} {p : Pat} (s : Nat)
    {captures : Captures} (hlength : p.length < matchdepth)
    (hfits : fits C p (finished captures) = true) :
    (doMatch C src matchdepth s p).run captures = answer captures (results C src p s captures) :=
  (finds_doMatch C src matchdepth p s captures).run_eq
    (fun _ he => Bool.false_ne_true ((he hlength).symm.trans hfits))

/-- A key and a value. -/
def keyValue : Pat := ascii "(%a+)=(%d*)"

theorem keyValue_fits : fits cLocale keyValue [] = true := by decide +kernel

theorem keyValue_returns :
    (doMatch cLocale (ascii "key=12") maxCCalls 0 keyValue).run [] =
      answer [] (results cLocale (ascii "key=12") keyValue 0 []) :=
  doMatch_returns cLocale (ascii "key=12") 0 (by decide) keyValue_fits

/-! ## Where the results are -/

/-- A property that every item passes on to what follows it holds of all results. -/
theorem results_of_steps {P : Pat → Nat → Captures → Prop}
    (hsteps : ∀ {x : UInt8} {rest q : Pat} {item : Item} {s : Nat} {captures : Captures},
      nextItem C x rest = some (item, q) → P (x :: rest) s captures →
        ∀ r ∈ item.steps C src s captures, P q r.1 r.2)
    {p : Pat} {s : Nat} {captures : Captures} (h : P p s captures) :
    ∀ r ∈ results C src p s captures, P [] r.1 r.2 := by
  induction hn : p.length using Nat.strongRecOn generalizing p s captures with
  | ind n ih =>
    intro r hr
    cases p with
    | nil =>
      rw [results_nil, List.mem_singleton] at hr
      subst hr
      exact h
    | cons x rest =>
      cases hitem : nextItem C x rest with
      | none =>
        rw [results_of_none hitem] at hr
        cases hr
      | some next =>
        obtain ⟨item, q⟩ := next
        rw [results_of_item hitem, List.mem_flatMap] at hr
        obtain ⟨r', hr', hr⟩ := hr
        have hlt : q.length < n := hn ▸ Nat.lt_succ_of_le (length_nextItem C hitem)
        exact ih q.length hlt (hsteps hitem h r' hr') rfl r hr

/-- Where a capture ends. -/
def Capture.stop (c : Capture) : Nat :=
  match c.len with
  | .closed len => c.init + len
  | _ => c.init

/-- A match from `start` to `s`, with its captures inside. -/
structure Enclosed (src : LuaString) (start s : Nat) (captures : Captures) : Prop where
  start_le : start ≤ s
  le_length : s ≤ max start src.length
  captures_in : ∀ c ∈ captures, start ≤ c.init ∧ c.stop ≤ s

theorem Enclosed.forward {start s s' : Nat} {captures : Captures}
    (h : Enclosed src start s captures) (hle : s ≤ s') (hlength : s' ≤ max s src.length) :
    Enclosed src start s' captures where
  start_le := Nat.le_trans h.start_le hle
  le_length := by
    have := h.le_length
    omega
  captures_in c hc := by
    obtain ⟨hstart, hstop⟩ := h.captures_in c hc
    exact ⟨hstart, Nat.le_trans hstop hle⟩

theorem balance_bounds {b e : UInt8} {cont s s' : Nat} {rest : LuaString}
    (h : balance b e cont s rest = some s') : s < s' ∧ s' ≤ s + rest.length := by
  fun_induction balance b e cont s rest with
  | case1 => cases h
  | case2 =>
    cases h
    rw [List.length_cons]
    omega
  | case3 cont s rest hcont ih =>
    have hbounds := ih h
    rw [List.length_cons]
    omega
  | case4 cont s rest hb ih =>
    have hbounds := ih h
    rw [List.length_cons]
    omega
  | case5 cont s x rest he hb ih =>
    have hbounds := ih h
    rw [List.length_cons]
    omega

theorem matchCapture_bounds {captures : Captures} {s s' : Nat} {digit : UInt8}
    (h : matchCapture src captures s digit = .ok (some s')) :
    s ≤ s' ∧ s' ≤ max s src.length := by
  unfold matchCapture at h
  split at h
  · cases h
  · split at h
    · split at h
      · rename_i hlen
        cases h
        omega
      · cases h
    · cases h

theorem run_le (test : UInt8 → Bool) (s : Nat) : run src test s ≤ src.length - s := by
  have hle := (List.takeWhile_prefix test (l := src.drop s)).length_le
  rw [List.length_drop] at hle
  exact hle

theorem Repetition.counts_le {n i : Nat} {repetition : Repetition}
    (h : i ∈ repetition.counts n) : i ≤ n := by
  cases repetition with
  | once =>
    rw [counts] at h
    split at h
    · cases h
    · rw [List.mem_singleton] at h
      omega
  | optional =>
    rw [counts] at h
    split at h <;> simp only [List.mem_cons, List.not_mem_nil, or_false] at h <;> omega
  | plus =>
    rw [counts, List.mem_reverse, List.mem_map] at h
    obtain ⟨j, hj, rfl⟩ := h
    exact List.mem_range.mp hj
  | star =>
    rw [counts, List.mem_reverse, List.mem_range] at h
    omega
  | minus =>
    rw [counts, List.mem_range] at h
    omega

theorem stop_closeAt {s l : Nat} {captures : Captures} {c : Capture}
    (hc : c ∈ closeAt s l captures) {start : Nat}
    (h : ∀ c ∈ captures, start ≤ c.init ∧ c.stop ≤ s)
    (hl : captureToClose captures = some l) : start ≤ c.init ∧ c.stop ≤ s := by
  obtain ⟨d, hd, hopen⟩ := captureToClose_unfinished hl
  obtain ⟨i, hi⟩ := List.mem_iff_getElem?.mp hc
  rw [closeAt, List.getElem?_modify] at hi
  obtain ⟨c', hc', hmodified⟩ := Option.map_eq_some_iff.mp hi
  have hin := h c' (List.mem_of_getElem? hc')
  by_cases heq : l = i
  · rw [if_pos heq] at hmodified
    subst heq hmodified
    rw [hd] at hc'
    cases hc'
    have hstop : d.stop = d.init := by
      rw [Capture.stop, hopen]
    rw [hstop] at hin
    refine ⟨hin.1, ?_⟩
    rw [Capture.stop]
    dsimp only
    omega
  · rw [if_neg heq] at hmodified
    subst hmodified
    exact hin

theorem enclosed_steps {start : Nat} (item : Item) (s : Nat) (captures : Captures)
    (h : Enclosed src start s captures) :
    ∀ r ∈ item.steps C src s captures, Enclosed src start r.1 r.2 := by
  intro r hr
  cases item with
  | opening position =>
    rw [Item.steps] at hr
    split at hr
    · cases hr
    · rw [List.mem_singleton] at hr
      subst hr
      refine ⟨h.start_le, h.le_length, fun c hc => ?_⟩
      rw [List.mem_append, List.mem_singleton] at hc
      rcases hc with hc | rfl
      · exact h.captures_in c hc
      · cases position <;> exact ⟨h.start_le, Nat.le_refl s⟩
  | closing =>
    rw [Item.steps, List.mem_map] at hr
    obtain ⟨l, hl, rfl⟩ := hr
    rw [Option.mem_toList] at hl
    exact ⟨h.start_le, h.le_length, fun c hc => stop_closeAt hc h.captures_in hl⟩
  | atEnd =>
    obtain rfl := mem_guarded hr
    exact h
  | balanced b e =>
    rw [Item.steps] at hr
    split at hr
    · obtain ⟨s', hs', rfl⟩ := List.mem_map.mp hr
      rw [Option.mem_toList] at hs'
      obtain ⟨hlt, hle⟩ := balance_bounds hs'
      rw [List.length_drop] at hle
      exact h.forward (by omega) (by omega)
    · cases hr
  | frontier set =>
    obtain rfl := mem_guarded hr
    exact h
  | backReference digit =>
    rw [Item.steps] at hr
    split at hr
    · rename_i o hcapture
      obtain ⟨s', hs', rfl⟩ := List.mem_map.mp hr
      rw [Option.mem_toList] at hs'
      subst hs'
      obtain ⟨hle, hlength⟩ := matchCapture_bounds hcapture
      exact h.forward hle hlength
    · cases hr
  | single test repetition =>
    obtain ⟨i, hi, rfl⟩ := List.mem_map.mp hr
    have hle := Repetition.counts_le hi
    have hrun : run src test s ≤ src.length - s := run_le test s
    exact h.forward (by omega) (by omega)

theorem results_enclosed {p : Pat} {s : Nat} {r : Nat × Captures}
    (h : r ∈ results C src p s []) : Enclosed src s r.1 r.2 :=
  results_of_steps (P := fun _ => Enclosed src s) (fun _ => enclosed_steps _ _ _)
    ⟨Nat.le_refl s, Nat.le_max_left _ _, fun _ hc => absurd hc List.not_mem_nil⟩ r h

/-- Behind a pattern that fits all captures are finished. -/
theorem finished_of_fits {p : Pat} {s : Nat} {captures : Captures}
    (h : fits C p (finished captures) = true) :
    ∀ r ∈ results C src p s captures, ∀ c ∈ r.2, c.len ≠ .unfinished := by
  intro r hr
  have hall : fits C [] (finished r.2) = true := by
    refine results_of_steps (P := fun p _ captures => fits C p (finished captures) = true) ?_ h r hr
    intro x rest q item s captures hitem hfits r hr
    rw [fits_of_item hitem, steps_shape hr] at hfits
    exact hfits
  rw [fits, finished, List.all_map, List.all_eq_true] at hall
  exact fun c hc => of_decide_eq_true (hall c hc)

theorem head?_of_doMatch {matchdepth : Nat} {p : Pat} {s e : Nat} {captures captures' : Captures}
    (h : (doMatch C src matchdepth s p).run captures = .ok (some e) captures') :
    (results C src p s captures).head? = some (e, captures') :=
  answer_eq_some (((finds_doMatch C src matchdepth p s captures).eq_answer h).symm.trans h)

theorem results_eq_nil_of_doMatch {matchdepth : Nat} {p : Pat} {s : Nat}
    {captures captures' : Captures}
    (h : (doMatch C src matchdepth s p).run captures = .ok none captures') :
    results C src p s captures = [] :=
  answer_eq_none (((finds_doMatch C src matchdepth p s captures).eq_answer h).symm.trans h)

/-- What `match` finds is in the subject, and the captures are inside. -/
theorem doMatch_enclosed {matchdepth : Nat} {p : Pat} {s e : Nat} {captures : Captures}
    (h : (doMatch C src matchdepth s p).run [] = .ok (some e) captures) :
    Enclosed src s e captures :=
  results_enclosed (List.mem_of_head? (head?_of_doMatch h))

end LuaAddons.Pattern
