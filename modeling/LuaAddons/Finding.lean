import LuaAddons.Searching

/-!
# find and match

`string.find` and `string.match` return the leftmost match, and of the matches that start there the
first one. On a pattern that fits they return. The plain search finds what the matcher would find,
unless the matcher comes to a `)`.
-/

namespace LuaAddons.Pattern

open Exec Backtracking

variable {C : Ctype} {src : LuaString}

/-! ## The leftmost match -/

/-- A place that is tried. -/
structure Tried (src : LuaString) (anchor : Bool) (start i : Nat) : Prop where
  start_le : start ≤ i
  le_length : i ≤ src.length
  anchored : anchor = true → i = start

/-- The match from `s` to `e` is the first one at the leftmost of the places that are tried. -/
structure Leftmost (C : Ctype) (src : LuaString) (p : Pat) (anchor : Bool) (start s e : Nat)
    (captures : Captures) : Prop where
  tried : Tried src anchor start s
  first : (results C src p s []).head? = some (e, captures)
  none_before : ∀ i, Tried src anchor start i → i < s → results C src p i [] = []

/-- There is no match. -/
def NoMatch (C : Ctype) (src : LuaString) (p : Pat) (anchor : Bool) (start : Nat) : Prop :=
  ∀ i, Tried src anchor start i → results C src p i [] = []

theorem tryFrom_eq_some {p : Pat} {anchor : Bool} {start s e : Nat} {captures : Captures}
    (h : tryFrom C src p anchor start = .ok (some (s, e, captures))) :
    Leftmost C src p anchor start s e captures := by
  fun_induction tryFrom C src p anchor start with
  | case1 => cases h
  | case2 => cases h
  | case3 start hle s captures hrun =>
    cases h
    exact
      { tried := ⟨Nat.le_refl _, by omega, fun _ => rfl⟩
        first := head?_of_doMatch hrun
        none_before := fun i hi hlt => absurd hi.start_le (by omega) }
  | case4 => cases h
  | case5 start hle captures hrun hanchor ih =>
    have hleft := ih h
    have hnext := hleft.tried.start_le
    refine ⟨⟨by omega, hleft.tried.le_length, fun ha => absurd ha hanchor⟩, hleft.first, ?_⟩
    intro i hi hlt
    by_cases hstart : i = start
    · exact hstart ▸ results_eq_nil_of_doMatch hrun
    · have := hi.start_le
      exact hleft.none_before i ⟨by omega, hi.le_length, fun ha => absurd ha hanchor⟩ hlt

theorem tryFrom_eq_none {p : Pat} {anchor : Bool} {start : Nat}
    (h : tryFrom C src p anchor start = .ok none) : NoMatch C src p anchor start := by
  intro i hi
  fun_induction tryFrom C src p anchor start with
  | case1 start hlt => exact absurd hi.le_length (by have := hi.start_le; omega)
  | case2 => cases h
  | case3 => cases h
  | case4 start hle captures hrun hanchor =>
    rw [hi.anchored hanchor]
    exact results_eq_nil_of_doMatch hrun
  | case5 start hle captures hrun hanchor ih =>
    by_cases hstart : i = start
    · exact hstart ▸ results_eq_nil_of_doMatch hrun
    · have := hi.start_le
      exact ih h ⟨by omega, hi.le_length, fun ha => absurd ha hanchor⟩

theorem tryFrom_returns {p : Pat} (hlength : p.length < maxCCalls) (hfits : fits C p [] = true)
    (anchor : Bool) (start : Nat) : ∃ o, tryFrom C src p anchor start = .ok o := by
  have hrun := fun s => (finds_doMatch C src maxCCalls p s []).run_eq
    (fun _ he => Bool.false_ne_true ((he hlength).symm.trans hfits))
  fun_induction tryFrom C src p anchor start with
  | case1 => exact ⟨_, rfl⟩
  | case2 start hle e captures herror =>
    rw [hrun start] at herror
    cases hresults : results C src p start [] with
    | nil =>
      rw [hresults] at herror
      cases herror
    | cons r l =>
      rw [hresults] at herror
      cases herror
  | case3 => exact ⟨_, rfl⟩
  | case4 => exact ⟨_, rfl⟩
  | case5 start hle captures hnone hanchor ih => exact ih

/-! ## The values -/

/-- The value of a finished capture. -/
def captured (src : LuaString) (c : Capture) : Pushed :=
  match c.len with
  | .unfinished => .nil
  | .position => .integer (c.init + 1)
  | .closed l => .string (substring src c.init l)

/-- What is pushed for a match: the two ends for `find`, and the captures, or the whole match for
`match` when there are none. -/
def found (src : LuaString) (find : Bool) (s e : Nat) (captures : Captures) : List Pushed :=
  if find then .integer (s + 1) :: .integer e :: captures.map (captured src)
  else if captures = [] then [.string (substring src s (e - s))]
  else captures.map (captured src)

theorem pushMade_eq_ok {c : Capture} {v : Pushed} :
    pushMade src c = .ok v ↔ c.len ≠ .unfinished ∧ v = captured src c := by
  rw [pushMade, captured]
  cases c.len with
  | unfinished => simp
  | position => simp [eq_comm]
  | closed l => simp [eq_comm]

theorem range_mapM {α β ε : Type} {g : α → Except ε β} {other : Nat → Except ε β} (l : List α) :
    (List.range l.length).mapM (fun i => l[i]?.elim (other i) g) = l.mapM g := by
  induction l generalizing other with
  | nil => rfl
  | cons a l ih =>
    have htail : (List.range l.length).mapM (fun i => l[i]?.elim (other (i + 1)) g) = l.mapM g := ih
    rw [List.length_cons, List.range_succ_eq_map, List.mapM_cons, List.mapM_cons, List.mapM_map,
      List.getElem?_cons_zero, ← htail]
    rfl

theorem pushOnecapture_eq (captures : Captures) (i s e : Nat) :
    pushOnecapture src captures i s e = captures[i]?.elim
      (if i = 0 then .ok (.string (substring src s (e - s))) else .error "invalid capture index")
      (pushMade src) := by
  rw [pushOnecapture]
  cases captures[i]? <;> rfl

theorem mapM_pushMade {captures : Captures} {values : List Pushed} :
    captures.mapM (pushMade src) = .ok values ↔
      (∀ c ∈ captures, c.len ≠ .unfinished) ∧ values = captures.map (captured src) := by
  induction captures generalizing values with
  | nil =>
    constructor
    · rintro ⟨⟩
      exact ⟨fun _ hc => absurd hc List.not_mem_nil, rfl⟩
    · rintro ⟨-, rfl⟩
      rfl
  | cons c captures ih =>
    rw [List.mapM_cons, List.forall_mem_cons, List.map_cons]
    constructor
    · intro h
      cases hv : pushMade src c with
      | error e =>
        rw [hv] at h
        cases h
      | ok v =>
        rw [hv] at h
        cases hl : captures.mapM (pushMade src) with
        | error e =>
          rw [hl] at h
          cases h
        | ok l =>
          rw [hl] at h
          cases h
          obtain ⟨hc, rfl⟩ := pushMade_eq_ok.mp hv
          obtain ⟨hcs, rfl⟩ := ih.mp hl
          exact ⟨⟨hc, hcs⟩, rfl⟩
    · rintro ⟨⟨hc, hcs⟩, rfl⟩
      rw [pushMade_eq_ok.mpr ⟨hc, rfl⟩, ih.mpr ⟨hcs, rfl⟩]
      rfl

theorem pushCaptures_eq (captures : Captures) (whole : Bool) (s e : Nat) :
    pushCaptures src captures whole s e =
      if captures = [] ∧ whole then .ok [.string (substring src s (e - s))]
      else captures.mapM (pushMade src) := by
  simp only [pushCaptures, List.length_eq_zero_iff]
  by_cases hwhole : captures = [] ∧ whole = true
  · rw [if_pos hwhole, if_pos hwhole, hwhole.1]
    rfl
  · rw [if_neg hwhole, if_neg hwhole]
    simp only [pushOnecapture_eq]
    exact range_mapM captures

theorem pushCaptures_eq_ok {captures : Captures} {whole : Bool} {s e : Nat}
    {values : List Pushed} :
    pushCaptures src captures whole s e = .ok values ↔
      (∀ c ∈ captures, c.len ≠ .unfinished) ∧
        values = if captures = [] ∧ whole then [.string (substring src s (e - s))]
          else captures.map (captured src) := by
  rw [pushCaptures_eq]
  by_cases hwhole : captures = [] ∧ whole = true
  · rw [if_pos hwhole, if_pos hwhole, hwhole.1]
    simp [eq_comm]
  · rw [if_neg hwhole, if_neg hwhole]
    exact mapM_pushMade

theorem findPattern_some {find : Bool} {p : Pat} {start s e : Nat} {captures : Captures}
    (h : tryFrom C src (skipAnchor p).2 (skipAnchor p).1 start = .ok (some (s, e, captures)))
    (values : List Pushed) :
    findPattern C src find p start = .ok values ↔
      (∀ c ∈ captures, c.len ≠ .unfinished) ∧ values = found src find s e captures := by
  rw [findPattern, h]
  dsimp only
  unfold found
  cases find with
  | false =>
    rw [if_neg Bool.false_ne_true, if_neg Bool.false_ne_true, pushCaptures_eq_ok]
    simp
  | true =>
    rw [if_pos rfl, if_pos rfl, pushCaptures_eq, if_neg (by simp)]
    constructor
    · intro hvalues
      cases hl : captures.mapM (pushMade src) with
      | error e =>
        rw [hl] at hvalues
        cases hvalues
      | ok l =>
        rw [hl] at hvalues
        cases hvalues
        obtain ⟨hfinished, rfl⟩ := mapM_pushMade.mp hl
        exact ⟨hfinished, rfl⟩
    · rintro ⟨hfinished, rfl⟩
      rw [mapM_pushMade.mpr ⟨hfinished, rfl⟩]
      rfl

theorem findPattern_none {find : Bool} {p : Pat} {start : Nat}
    (h : tryFrom C src (skipAnchor p).2 (skipAnchor p).1 start = .ok none) :
    findPattern C src find p start = .ok [.nil] := by
  rw [findPattern, h]

/-- What `find` and `match` may answer: nil when there is no match, and otherwise what is found at
the leftmost one, with all of its captures finished. -/
inductive Answers (C : Ctype) (src : LuaString) (find : Bool) (p : Pat) (start : Nat) :
    List Pushed → Prop where
  | nothing : NoMatch C src (skipAnchor p).2 (skipAnchor p).1 start →
      Answers C src find p start [.nil]
  | leftmost {s e : Nat} {captures : Captures} :
      Leftmost C src (skipAnchor p).2 (skipAnchor p).1 start s e captures →
      (∀ c ∈ captures, c.len ≠ .unfinished) →
      Answers C src find p start (found src find s e captures)

theorem answers_findPattern {find : Bool} {p : Pat} {start : Nat} {values : List Pushed}
    (h : findPattern C src find p start = .ok values) : Answers C src find p start values := by
  cases htry : tryFrom C src (skipAnchor p).2 (skipAnchor p).1 start with
  | error e =>
    rw [findPattern, htry] at h
    cases h
  | ok o =>
    cases o with
    | none =>
      rw [findPattern_none htry] at h
      cases h
      exact .nothing (tryFrom_eq_none htry)
    | some r =>
      obtain ⟨s, e, captures⟩ := r
      obtain ⟨hfinished, rfl⟩ := (findPattern_some htry values).mp h
      exact .leftmost (tryFrom_eq_some htry) hfinished

/-- **`find` and `match` answer with the leftmost match**, whatever the pattern, unless they raise
an error. -/
theorem strFindAux_leftmost {find : Bool} {p : Pat} {init : Option Int} {plain : Bool}
    {values : List Pushed} (hmatcher : (find && (plain || nospecials p)) = false)
    (h : strFindAux C src find p init plain = .ok values) :
    Answers C src find p (findInit src init - 1) values := by
  rw [strFindAux] at h
  split at h
  · rename_i hlt
    cases h
    exact .nothing (fun i hi => absurd hi.le_length (by have := hi.start_le; omega))
  · rw [hmatcher, if_neg Bool.false_ne_true] at h
    exact answers_findPattern h

theorem keyValue_found :
    strFindAux cLocale (ascii "a key=12") false keyValue none false =
      .ok [.string (ascii "key"), .string (ascii "12")] := by decide +kernel

theorem keyValue_leftmost :
    Answers cLocale (ascii "a key=12") false keyValue (findInit (ascii "a key=12") none - 1)
      [.string (ascii "key"), .string (ascii "12")] :=
  strFindAux_leftmost rfl keyValue_found

/-! ## Patterns that fit -/

/-- **`find` and `match` raise no error** on a pattern that fits and is shorter than the recursion
may be deep. -/
theorem strFindAux_returns {p : Pat} (hlength : (skipAnchor p).2.length < maxCCalls)
    (hfits : fits C (skipAnchor p).2 [] = true) (find : Bool) (init : Option Int) (plain : Bool) :
    ∃ values, strFindAux C src find p init plain = .ok values := by
  rw [strFindAux]
  split
  · exact ⟨_, rfl⟩
  split
  · rw [findPlain]
    split
    · exact ⟨_, rfl⟩
    · exact ⟨_, rfl⟩
  obtain ⟨o, ho⟩ : ∃ o, tryFrom C src (skipAnchor p).2 (skipAnchor p).1
      (findInit src init - 1) = .ok o := tryFrom_returns hlength hfits _ _
  cases o with
  | none => exact ⟨_, findPattern_none ho⟩
  | some r =>
    obtain ⟨s, e, captures⟩ := r
    have hfirst := List.mem_of_head? (tryFrom_eq_some ho).first
    have hclosed : ∀ r ∈ results C src (skipAnchor p).2 s [], ∀ c ∈ r.2, c.len ≠ .unfinished :=
      finished_of_fits hfits
    exact ⟨_, (findPattern_some ho _).mpr ⟨hclosed _ hfirst, rfl⟩⟩

theorem keyValue_raises_nothing :
    ∃ values, strFindAux cLocale (ascii "a key=12") true keyValue none false = .ok values :=
  strFindAux_returns (by decide) keyValue_fits true none false

/-! ## What is pushed -/

/-- The value lies in the match from `s` to `e`: a part of its text, or a place in it. -/
def Inside (src : LuaString) (s e : Nat) : Pushed → Prop
  | .nil => False
  | .integer i => s < i ∧ i ≤ e + 1
  | .string t => t <:+: substring src s (e - s)

theorem substring_infix {s e init len : Nat} (hs : s ≤ init) (he : init + len ≤ e) :
    substring src init len <:+: substring src s (e - s) := by
  have hdrop : src.drop init = (src.drop s).drop (init - s) := by
    rw [List.drop_drop, Nat.add_sub_cancel' hs]
  have htake : (substring src s (e - s)).drop (init - s) =
      ((src.drop s).drop (init - s)).take (e - s - (init - s)) := by
    rw [substring, List.drop_take]
  have hprefix : substring src init len <+: (substring src s (e - s)).drop (init - s) := by
    rw [htake, substring, hdrop]
    exact List.take_prefix_take_left (by omega)
  exact hprefix.isInfix.trans (List.drop_suffix _ _).isInfix

theorem inside_captured {s e : Nat} {c : Capture} (hlen : c.len ≠ .unfinished)
    (hstart : s ≤ c.init) (hstop : c.stop ≤ e) : Inside src s e (captured src c) := by
  rw [Capture.stop] at hstop
  rw [captured]
  cases hc : c.len with
  | unfinished => exact absurd hc hlen
  | position =>
    rw [hc] at hstop
    dsimp only at hstop
    exact ⟨by omega, by omega⟩
  | closed l =>
    rw [hc] at hstop
    exact substring_infix hstart hstop

/-- **What `match` answers lies in the match**, whatever the pattern: it answers nil for want of a
match, and otherwise the captures are parts of the text of the leftmost match, and their positions
are positions in it. -/
theorem strFindAux_inside {p : Pat} {init : Option Int} {plain : Bool} {values : List Pushed}
    (h : strFindAux C src false p init plain = .ok values) :
    (values = [.nil] ∧
        NoMatch C src (skipAnchor p).2 (skipAnchor p).1 (findInit src init - 1)) ∨
      ∃ s e captures,
        Leftmost C src (skipAnchor p).2 (skipAnchor p).1 (findInit src init - 1) s e captures ∧
          findInit src init - 1 ≤ s ∧ s ≤ e ∧ e ≤ src.length ∧ ∀ v ∈ values, Inside src s e v := by
  rw [strFindAux, Bool.false_and, if_neg Bool.false_ne_true] at h
  split at h
  · rename_i hlt
    cases h
    exact Or.inl ⟨rfl, fun i hi => absurd hi.le_length (by have := hi.start_le; omega)⟩
  cases htry : tryFrom C src (skipAnchor p).2 (skipAnchor p).1 (findInit src init - 1) with
  | error e =>
    rw [findPattern, htry] at h
    cases h
  | ok o =>
    cases o with
    | none =>
      rw [findPattern_none htry] at h
      cases h
      exact Or.inl ⟨rfl, tryFrom_eq_none htry⟩
    | some r =>
      obtain ⟨s, e, captures⟩ := r
      obtain ⟨hfinished, rfl⟩ := (findPattern_some htry values).mp h
      have hleftmost := tryFrom_eq_some htry
      have hin : Enclosed src s e captures :=
        results_enclosed (List.mem_of_head? hleftmost.first)
      have hlength := hin.le_length
      have hs := hleftmost.tried.le_length
      refine Or.inr ⟨s, e, captures, hleftmost, hleftmost.tried.start_le, hin.start_le,
        by omega, ?_⟩
      intro v hv
      rw [found, if_neg Bool.false_ne_true] at hv
      split at hv
      · rw [List.mem_singleton] at hv
        subst hv
        exact List.infix_rfl
      · obtain ⟨c, hc, rfl⟩ := List.mem_map.mp hv
        obtain ⟨hstart, hstop⟩ := hin.captures_in c hc
        exact inside_captured (hfinished c hc) hstart hstop

theorem keyValue_inside :
    ∃ s e captures, Leftmost cLocale (ascii "a key=12") keyValue false 0 s e captures ∧
      ∀ v ∈ [Pushed.string (ascii "key"), .string (ascii "12")],
        Inside (ascii "a key=12") s e v := by
  rcases strFindAux_inside keyValue_found with ⟨hnil, -⟩ | ⟨s, e, captures, hleft, -, -, -, hin⟩
  · cases hnil
  · exact ⟨s, e, captures, hleft, hin⟩

/-! ## The plain search -/

theorem nospecials_iff {p : LuaString} : nospecials p = true ↔ ∀ c ∈ p, c ∉ specials := by
  have hzero : (0 : UInt8) ∉ specials := by decide
  fun_induction nospecials p with
  | case1 p h =>
    obtain ⟨c, hc, hspecial⟩ := List.any_eq_true.mp h
    constructor
    · rintro ⟨⟩
    · intro hno
      exact absurd (of_decide_eq_true hspecial) (hno c ((List.takeWhile_prefix _).subset hc))
  | case2 p h hdrop =>
    have hall : p.takeWhile (· ≠ 0) = p := by
      rw [← List.append_nil (p.takeWhile _), ← hdrop, List.takeWhile_append_dropWhile]
    rw [hall] at h
    refine ⟨fun _ c hc hspecial => h ?_, fun _ => rfl⟩
    exact List.any_eq_true.mpr ⟨c, hc, decide_eq_true hspecial⟩
  | case3 p h x rest hdrop ih =>
    have hx : x = 0 := by
      have hhead := List.head?_dropWhile_not (· ≠ 0) p
      rw [hdrop] at hhead
      simpa using hhead
    have happend : p = p.takeWhile (· ≠ 0) ++ x :: rest := by
      rw [← hdrop, List.takeWhile_append_dropWhile]
    constructor
    · intro hrest c hc
      rw [happend, List.mem_append, List.mem_cons] at hc
      rcases hc with hc | rfl | hc
      · exact fun hspecial => h (List.any_eq_true.mpr ⟨c, hc, decide_eq_true hspecial⟩)
      · exact hx ▸ hzero
      · exact ih.mp hrest c hc
    · intro hp
      refine ih.mpr (fun c hc => hp c ?_)
      rw [happend]
      exact List.mem_append_right _ (List.mem_cons_of_mem _ hc)

/-- `s2` stands in `s1` from the index `k` on. -/
abbrev OccursAt (s1 s2 : LuaString) (k : Nat) : Prop := s2 <+: s1.drop k

theorem occursAt_cons {s1 others : LuaString} {first : UInt8} {k : Nat} :
    OccursAt s1 (first :: others) k ↔
      s1[k]? = some first ∧ (s1.drop (k + 1)).take others.length = others := by
  rw [OccursAt]
  by_cases hlt : k < s1.length
  · rw [List.drop_eq_getElem_cons hlt, List.getElem?_eq_getElem hlt, List.cons_prefix_cons,
      Option.some.injEq, List.prefix_iff_eq_take, eq_comm]
    exact and_congr_right (fun _ => eq_comm)
  · rw [List.drop_of_length_le (by omega), List.getElem?_eq_none (by omega)]
    simp

/-- What `memchr` finds. -/
theorem memchr_some {s1 : LuaString} {first : UInt8} {l1 i : Nat}
    (h : (s1.take l1).findIdx? (fun x => decide (x = first)) = some i) :
    i < l1 ∧ s1[i]? = some first ∧ ∀ j < i, s1[j]? ≠ some first := by
  obtain ⟨hlt, hfirst, hbefore⟩ := List.findIdx?_eq_some_iff_getElem.mp h
  have htake := hlt
  rw [List.length_take] at htake
  rw [List.getElem_take, decide_eq_true_eq] at hfirst
  refine ⟨by omega, List.getElem?_eq_some_iff.mpr ⟨by omega, hfirst⟩, fun j hj hsome => ?_⟩
  have hne := hbefore j hj
  rw [List.getElem_take, decide_eq_true_eq] at hne
  exact hne (List.getElem?_eq_some_iff.mp hsome).2

theorem memchr_none {s1 : LuaString} {first : UInt8} {l1 : Nat}
    (h : (s1.take l1).findIdx? (fun x => decide (x = first)) = none) :
    ∀ j < l1, s1[j]? ≠ some first := by
  intro j hj hsome
  have hmem : first ∈ s1.take l1 := by
    refine List.mem_of_getElem? (i := j) ?_
    rw [List.getElem?_take_of_lt hj, hsome]
  have hne := List.findIdx?_eq_none_iff.mp h first hmem
  rw [decide_eq_false_iff_not] at hne
  exact hne rfl

theorem lmemfindLoop_eq_some {first : UInt8} {others s1 : LuaString} {l1 k : Nat}
    (h : lmemfindLoop first others l1 s1 = some k) :
    OccursAt s1 (first :: others) k ∧ ∀ j < k, ¬ OccursAt s1 (first :: others) j := by
  fun_induction lmemfindLoop first others l1 s1 generalizing k with
  | case1 => cases h
  | case2 l1 s1 i hfind heq =>
    cases h
    obtain ⟨-, hfirst, hbefore⟩ := memchr_some hfind
    exact ⟨occursAt_cons.mpr ⟨hfirst, heq⟩,
      fun j hj hoccurs => hbefore j hj (occursAt_cons.mp hoccurs).1⟩
  | case3 l1 s1 i hfind hne ih =>
    obtain ⟨k', hk', rfl⟩ := Option.map_eq_some_iff.mp h
    obtain ⟨-, -, hbefore⟩ := memchr_some hfind
    obtain ⟨hoccurs, hnone⟩ := ih hk'
    rw [OccursAt, List.drop_drop] at hoccurs
    refine ⟨hoccurs, fun j hj hj' => ?_⟩
    rcases Nat.lt_trichotomy j i with hlt | rfl | hgt
    · exact hbefore j hlt (occursAt_cons.mp hj').1
    · exact hne (occursAt_cons.mp hj').2
    · refine hnone (j - (i + 1)) (by omega) ?_
      rw [OccursAt, List.drop_drop, Nat.add_sub_cancel' hgt]
      exact hj'

theorem lmemfindLoop_eq_none {first : UInt8} {others s1 : LuaString} {l1 : Nat}
    (h : lmemfindLoop first others l1 s1 = none) (hlength : s1.length = l1 + others.length) :
    ∀ j, ¬ OccursAt s1 (first :: others) j := by
  fun_induction lmemfindLoop first others l1 s1 with
  | case1 l1 s1 hfind =>
    intro j hoccurs
    have hfit := hoccurs.length_le
    rw [List.length_cons, List.length_drop] at hfit
    exact memchr_none hfind j (by omega) (occursAt_cons.mp hoccurs).1
  | case2 l1 s1 i hfind heq => cases h
  | case3 l1 s1 i hfind hne ih =>
    obtain ⟨hlt, -, hbefore⟩ := memchr_some hfind
    have hnone := ih (Option.map_eq_none_iff.mp h) (by rw [List.length_drop]; omega)
    intro j hj
    rcases Nat.lt_trichotomy j i with hji | rfl | hgt
    · exact hbefore j hji (occursAt_cons.mp hj).1
    · exact hne (occursAt_cons.mp hj).2
    · refine hnone (j - (i + 1)) ?_
      rw [OccursAt, List.drop_drop, Nat.add_sub_cancel' hgt]
      exact hj

theorem lmemfind_eq_some {s1 s2 : LuaString} {k : Nat} (h : lmemfind s1 s2 = some k) :
    OccursAt s1 s2 k ∧ ∀ j < k, ¬ OccursAt s1 s2 j := by
  cases s2 with
  | nil =>
    cases h
    exact ⟨List.nil_prefix, fun j hj => absurd hj (Nat.not_lt_zero j)⟩
  | cons first others =>
    rw [lmemfind] at h
    split at h
    · cases h
    · exact lmemfindLoop_eq_some h

theorem lmemfind_eq_none {s1 s2 : LuaString} (h : lmemfind s1 s2 = none) :
    ∀ j, ¬ OccursAt s1 s2 j := by
  cases s2 with
  | nil => cases h
  | cons first others =>
    rw [lmemfind] at h
    split at h
    · rename_i hlt
      intro j hoccurs
      have hfit := hoccurs.length_le
      rw [List.length_drop] at hfit
      omega
    · rename_i hle
      rw [List.length_cons] at hle
      exact lmemfindLoop_eq_none h (by omega)

/-! ## Patterns without special characters -/

/-- A byte that stands for itself. -/
theorem matchFrom_literal {rec : Nat → Pat → Matcher} {x : UInt8} {rest : Pat}
    (hx : x ∉ specials) (hclose : x ≠ 0x29) (hnext : rest.headD 0 ∉ specials) (s : Nat) :
    matchFrom C src rec s (x :: rest) =
      if src[s]? = some x then matchFrom C src rec (s + 1) rest else pure none := by
  have hne {c d : UInt8} (hc : c ∉ specials) (hd : d ∈ specials) : c ≠ d :=
    fun h => hc (h ▸ hd)
  have hopen : x ≠ 0x28 := hne hx (by decide)
  have hend : x ≠ 0x24 := hne hx (by decide)
  have hescape : x ≠ 0x25 := hne hx (by decide)
  have hset : x ≠ 0x5b := hne hx (by decide)
  have hany : x ≠ 0x2e := hne hx (by decide)
  have hoptional : rest.headD 0 ≠ 0x3f := hne hnext (by decide)
  have hplus : rest.headD 0 ≠ 0x2b := hne hnext (by decide)
  have hstar : rest.headD 0 ≠ 0x2a := hne hnext (by decide)
  have hminus : rest.headD 0 ≠ 0x2d := hne hnext (by decide)
  have hclass : classend (x :: rest) = .ok rest := by
    simp only [classend, if_neg hescape, if_neg hset]
  have htest : singlematch C src s (x :: rest) rest = decide (src[s]? = some x) := by
    simp only [singlematch, singleTest, if_neg hescape, if_neg hset, if_neg hany, byteAt]
    by_cases hlt : s < src.length
    · rw [List.getElem?_eq_getElem hlt, Option.getD_some, decide_eq_true hlt, Bool.true_and,
        Bool.eq_iff_iff, beq_iff_eq, decide_eq_true_eq, Option.some.injEq, eq_comm]
    · rw [decide_eq_false hlt, List.getElem?_eq_none (Nat.le_of_not_lt hlt)]
      rfl
  rw [matchFrom, if_neg hopen, if_neg hclose, if_neg (fun h => hend h.1),
    if_neg (fun h => hescape h.1), if_neg (fun h => hescape h.1), if_neg (fun h => hescape h.1)]
  split
  · rename_i e herror
    rw [hclass] at herror
    cases herror
  · rename_i ep hep
    rw [hclass] at hep
    cases hep
    rw [htest]
    by_cases hs : src[s]? = some x
    · simp only [hs, hoptional, hplus, hstar, hminus, decide_true, Bool.not_true, if_true,
        Bool.false_eq_true, if_false]
    · simp only [hs, hoptional, hstar, hminus, decide_false, Bool.not_false, if_true, or_false,
        if_false]

/-- `match` compares the bytes of a pattern without special characters one by one. -/
theorem matchFrom_append {rec : Nat → Pat → Matcher} {q tail : Pat}
    (hq : ∀ c ∈ q, c ∉ specials ∧ c ≠ 0x29) (htail : tail.headD 0 ∉ specials) (s : Nat) :
    matchFrom C src rec s (q ++ tail) =
      if OccursAt src q s then matchFrom C src rec (s + q.length) tail else pure none := by
  induction q generalizing s with
  | nil => rw [List.nil_append, if_pos List.nil_prefix, List.length_nil, Nat.add_zero]
  | cons x q ih =>
    obtain ⟨⟨hx, hclose⟩, hq⟩ := List.forall_mem_cons.mp hq
    have hnext : (q ++ tail).headD 0 ∉ specials := by
      cases q with
      | nil => exact htail
      | cons y q => exact (hq y List.mem_cons_self).1
    have hoccurs : OccursAt src (x :: q) s ↔ src[s]? = some x ∧ OccursAt src q (s + 1) := by
      rw [occursAt_cons, OccursAt, List.prefix_iff_eq_take]
      exact and_congr_right (fun _ => eq_comm)
    rw [List.cons_append, matchFrom_literal hx hclose hnext, ih hq, List.length_cons,
      Nat.add_assoc, Nat.add_comm 1]
    by_cases hs : src[s]? = some x
    · rw [if_pos hs]
      simp only [hoccurs, hs, true_and]
    · rw [if_neg hs, if_neg (fun h => hs (hoccurs.mp h).1)]

/-- `match` on a pattern without special characters and without `)`. -/
theorem run_literal {p : Pat} (hp : ∀ c ∈ p, c ∉ specials ∧ c ≠ 0x29) (s : Nat) :
    (doMatch C src maxCCalls s p).run [] =
      .ok (if OccursAt src p s then some (s + p.length) else none) [] := by
  have happend : matchFrom C src (doMatch C src 199) s (p ++ []) =
      if OccursAt src p s then matchFrom C src (doMatch C src 199) (s + p.length) []
      else pure none :=
    matchFrom_append hp (by decide) s
  rw [List.append_nil] at happend
  rw [show doMatch C src maxCCalls s p = matchFrom C src (doMatch C src 199) s p from rfl, happend]
  by_cases hoccurs : OccursAt src p s
  · rw [if_pos hoccurs, if_pos hoccurs, matchFrom]
    rfl
  · rw [if_neg hoccurs, if_neg hoccurs]
    rfl

/-- `match` on a pattern without special characters but with a `)`: an error where it is reached. -/
theorem run_closing {q r : Pat} (hq : ∀ c ∈ q, c ∉ specials ∧ c ≠ 0x29) (s : Nat) :
    (doMatch C src maxCCalls s (q ++ 0x29 :: r)).run [] =
      if OccursAt src q s then .error "invalid pattern capture" [] else .ok none [] := by
  have htail : (0x29 :: r).headD 0 ∉ specials := show (0x29 : UInt8) ∉ specials by decide
  rw [show doMatch C src maxCCalls s (q ++ 0x29 :: r) =
    matchFrom C src (doMatch C src 199) s (q ++ 0x29 :: r) from rfl, matchFrom_append hq htail]
  by_cases hoccurs : OccursAt src q s
  · rw [if_pos hoccurs, if_pos hoccurs, matchFrom, if_neg (by decide), if_pos rfl]
    rfl
  · rw [if_neg hoccurs, if_neg hoccurs]
    rfl

/-! ## Both paths -/

section Paths

variable {p : Pat} {start s : Nat}

theorem tryFrom_skip (hle : start ≤ s) (hs : s ≤ src.length + 1)
    (h : ∀ i, start ≤ i → i < s → (doMatch C src maxCCalls i p).run [] = .ok none []) :
    tryFrom C src p false start = tryFrom C src p false s := by
  induction hle with
  | refl => rfl
  | @step m hm ih =>
    have hnone := h m hm (Nat.lt_succ_self m)
    have hstep : tryFrom C src p false m = tryFrom C src p false (m + 1) := by
      rw [tryFrom, if_neg (by omega), hnone]
      rfl
    rw [ih (by omega) (fun i hi hlt => h i hi (Nat.lt_succ_of_lt hlt)), hstep]

theorem tryFrom_of_none
    (h : ∀ i, start ≤ i → i ≤ src.length → (doMatch C src maxCCalls i p).run [] = .ok none [])
    (hle : start ≤ src.length) : tryFrom C src p false start = .ok none := by
  rw [tryFrom_skip (Nat.le_succ_of_le hle) (Nat.le_refl _) (fun i hi hlt => h i hi (by omega)),
    tryFrom, if_pos (Nat.lt_succ_self _)]

theorem skipAnchor_of_nospecials (hno : ∀ c ∈ p, c ∉ specials) : skipAnchor p = (false, p) := by
  unfold skipAnchor
  split
  · rename_i p
    exact absurd (show (0x5e : UInt8) ∈ specials by decide) (hno _ List.mem_cons_self)
  · rfl

theorem not_occursAt_of_lt {q : LuaString} {k i : Nat}
    (h : ∀ j < k, ¬ OccursAt (src.drop start) q j) (hi : start ≤ i) (hlt : i < start + k) :
    ¬ OccursAt src q i := by
  have hnot := h (i - start) (by omega)
  rw [OccursAt, List.drop_drop, Nat.add_sub_cancel' hi] at hnot
  exact hnot

theorem lmemfind_drop_some {q : LuaString} {k : Nat} (h : lmemfind (src.drop start) q = some k) :
    OccursAt src q (start + k) ∧ ∀ i, start ≤ i → i < start + k → ¬ OccursAt src q i := by
  obtain ⟨hoccurs, hbefore⟩ := lmemfind_eq_some h
  rw [OccursAt, List.drop_drop] at hoccurs
  exact ⟨hoccurs, fun i => not_occursAt_of_lt hbefore⟩

theorem lmemfind_drop_none {q : LuaString} (h : lmemfind (src.drop start) q = none) {i : Nat}
    (hi : start ≤ i) : ¬ OccursAt src q i :=
  not_occursAt_of_lt (fun j (_ : j < i + 1) => lmemfind_eq_none h j) hi (by omega)

/-- What is found stands in the subject. -/
theorem lmemfind_le {q : LuaString} {k : Nat} (hle : start ≤ src.length)
    (h : lmemfind (src.drop start) q = some k) : start + k ≤ src.length := by
  cases q with
  | nil =>
    cases h
    exact hle
  | cons first others =>
    have hfit := (lmemfind_eq_some h).1.length_le
    rw [List.length_cons, List.length_drop, List.length_drop] at hfit
    omega

theorem findPlain_ok (src p : LuaString) (start : Nat) :
    ∃ values, findPlain src p start = .ok values := by
  rw [findPlain]
  split
  · exact ⟨_, rfl⟩
  · exact ⟨_, rfl⟩

/-- Without a `)` both paths find the first place where the pattern stands. -/
theorem findPlain_of_literal (hp : ∀ c ∈ p, c ∉ specials ∧ c ≠ 0x29) (hle : start ≤ src.length) :
    findPlain src p start = findPattern C src true p start := by
  have hrun : ∀ s, (doMatch C src maxCCalls s p).run [] = _ := run_literal hp
  rw [findPlain, findPattern, skipAnchor_of_nospecials (fun c hc => (hp c hc).1)]
  cases hfind : lmemfind (src.drop start) p with
  | none =>
    have hnone : tryFrom C src p false start = .ok none := by
      refine tryFrom_of_none (fun i hi _ => ?_) hle
      rw [hrun, if_neg (lmemfind_drop_none hfind hi)]
    dsimp only
    rw [hnone]
  | some k =>
    obtain ⟨hoccurs, hbefore⟩ := lmemfind_drop_some hfind
    have hlength := lmemfind_le hle hfind
    have hsome : tryFrom C src p false start =
        .ok (some (start + k, start + k + p.length, [])) := by
      rw [tryFrom_skip (Nat.le_add_right start k) (by omega), tryFrom, if_neg (by omega), hrun,
        if_pos hoccurs]
      intro i hi hlt
      rw [hrun, if_neg (hbefore i hi hlt)]
    dsimp only
    rw [hsome]
    rfl

/-- With a `)` the matcher raises an error where it reaches it, and finds nothing otherwise. -/
theorem findPattern_of_closing {q r : Pat} (hq : ∀ c ∈ q, c ∉ specials ∧ c ≠ 0x29)
    (hr : ∀ c ∈ r, c ∉ specials) (hle : start ≤ src.length) :
    findPattern C src true (q ++ 0x29 :: r) start =
      if (lmemfind (src.drop start) q).isSome then .error "invalid pattern capture"
      else .ok [.nil] := by
  have hrun : ∀ s, (doMatch C src maxCCalls s (q ++ 0x29 :: r)).run [] = _ := run_closing hq
  have hno : ∀ c ∈ q ++ 0x29 :: r, c ∉ specials := by
    intro c hc
    rw [List.mem_append, List.mem_cons] at hc
    rcases hc with hc | rfl | hc
    · exact (hq c hc).1
    · decide
    · exact hr c hc
  rw [findPattern, skipAnchor_of_nospecials hno]
  cases hfind : lmemfind (src.drop start) q with
  | none =>
    have hnone : tryFrom C src (q ++ 0x29 :: r) false start = .ok none := by
      refine tryFrom_of_none (fun i hi _ => ?_) hle
      rw [hrun, if_neg (lmemfind_drop_none hfind hi)]
    dsimp only
    rw [hnone]
    rfl
  | some k =>
    obtain ⟨hoccurs, hbefore⟩ := lmemfind_drop_some hfind
    have hlength := lmemfind_le hle hfind
    have herror : tryFrom C src (q ++ 0x29 :: r) false start =
        .error "invalid pattern capture" := by
      rw [tryFrom_skip (Nat.le_add_right start k) (by omega), tryFrom, if_neg (by omega), hrun,
        if_pos hoccurs]
      intro i hi hlt
      rw [hrun, if_neg (hbefore i hi hlt)]
    dsimp only
    rw [herror]
    rfl

theorem takeWhile_closing (hclose : (0x29 : UInt8) ∈ p) :
    ∃ r, p = p.takeWhile (· ≠ 0x29) ++ 0x29 :: r := by
  have happend := List.takeWhile_append_dropWhile (p := (· ≠ (0x29 : UInt8))) (l := p)
  have hhead := List.head?_dropWhile_not (· ≠ (0x29 : UInt8)) p
  cases hdrop : p.dropWhile (· ≠ 0x29) with
  | nil =>
    rw [List.dropWhile_eq_nil_iff] at hdrop
    exact absurd (hdrop _ hclose) (by decide)
  | cons x r =>
    rw [hdrop] at happend hhead
    obtain rfl : x = 0x29 := by simpa using hhead
    exact ⟨r, happend.symm⟩

/-- **The plain search is the search with the matcher**, on a pattern without special characters,
exactly when the matcher never comes to a `)`. -/
theorem findPlain_eq_findPattern_iff (hno : nospecials p = true) (hle : start ≤ src.length) :
    findPlain src p start = findPattern C src true p start ↔
      ¬ (0x29 ∈ p ∧ ∃ i, start ≤ i ∧ OccursAt src (p.takeWhile (· ≠ 0x29)) i) := by
  rw [nospecials_iff] at hno
  by_cases hclose : (0x29 : UInt8) ∈ p
  · obtain ⟨r, hp⟩ := takeWhile_closing hclose
    have hq : ∀ c ∈ p.takeWhile (· ≠ 0x29), c ∉ specials ∧ c ≠ 0x29 := by
      intro c hc
      have hne := List.mem_takeWhile_imp hc
      rw [decide_eq_true_eq] at hne
      exact ⟨hno c ((List.takeWhile_prefix _).subset hc), hne⟩
    have hr : ∀ c ∈ r, c ∉ specials := by
      intro c hc
      refine hno c ?_
      rw [hp]
      exact List.mem_append_right _ (List.mem_cons_of_mem _ hc)
    have hpattern := findPattern_of_closing (C := C) hq hr hle
    rw [← hp] at hpattern
    rw [hpattern]
    cases hfind : lmemfind (src.drop start) (p.takeWhile (· ≠ 0x29)) with
    | none =>
      have hplain : lmemfind (src.drop start) p = none := by
        cases hfound : lmemfind (src.drop start) p with
        | none => rfl
        | some k =>
          have hoccurs := (lmemfind_drop_some hfound).1
          refine absurd ?_ (lmemfind_drop_none hfind (Nat.le_add_right start k))
          exact (List.takeWhile_prefix _).trans hoccurs
      refine iff_of_true ?_ ?_
      · rw [findPlain, hplain]
        rfl
      · rintro ⟨-, i, hi, hoccurs⟩
        exact lmemfind_drop_none hfind hi hoccurs
    | some k =>
      obtain ⟨values, hvalues⟩ := findPlain_ok src p start
      refine iff_of_false ?_ (not_not_intro ?_)
      · rw [hvalues]
        nofun
      · exact ⟨hclose, start + k, Nat.le_add_right start k, (lmemfind_drop_some hfind).1⟩
  · have hliteral : ∀ c ∈ p, c ∉ specials ∧ c ≠ 0x29 :=
      fun c hc => ⟨hno c hc, fun h => hclose (h ▸ hc)⟩
    exact iff_of_true (findPlain_of_literal hliteral hle) (fun h => hclose h.1)

/-- The plain search finds this text, the matcher refuses it. -/
theorem closing_found_plain_only :
    findPlain (ascii "x a)") (ascii "a)") 0 ≠
      findPattern cLocale (ascii "x a)") true (ascii "a)") 0 :=
  fun h => (findPlain_eq_findPattern_iff (by decide +kernel) (by decide)).mp h
    ⟨by decide, 2, by decide, by decide⟩

end Paths

end LuaAddons.Pattern
