import LuaAddons.Finding

/-!
# gmatch and gsub

The iterator of `gmatch` goes through the matches from left to right. It ends, since each call goes
on at a later start (`calls_iterate`). `gsub` replaces the matches that the iterator would give,
each of them once and in this order, and copies everything else.
-/

namespace LuaAddons.Pattern

open Exec Backtracking

variable {C : Ctype} {src : LuaString}

/-! ## The iterator -/

/-- A match, with its ends and captures. -/
structure Match where
  start : Nat
  stop : Nat
  captures : Captures
  deriving DecidableEq

/-- Where the search goes on behind the match. -/
def Match.next (m : Match) : Nat := if m.stop = m.start then m.stop + 1 else m.stop

/-- The iterator gives these values one after the other, from the start in its upvalue on. -/
inductive Calls (C : Ctype) (src : LuaString) (p : Pat) : Nat → List (List Pushed) → Nat → Prop
    where
  | refl (start : Nat) : Calls C src p start [] start
  | step {start next stop : Nat} {values : List Pushed} {l : List (List Pushed)} :
      gmatchAux C src p start = .ok (some (values, next)) → Calls C src p next l stop →
        Calls C src p start (values :: l) stop

/-- The matches that are found one after the other. When the pattern is anchored, there is one
search only. -/
inductive Iterates (C : Ctype) (src : LuaString) (p : Pat) (anchor : Bool) :
    Nat → List Match → Nat → Prop where
  | refl (start : Nat) : Iterates C src p anchor start [] start
  | step {start stop : Nat} {m : Match} {l : List Match} :
      tryFrom C src p anchor start = .ok (some (m.start, m.stop, m.captures)) →
        (anchor = true → l = []) → Iterates C src p anchor m.next l stop →
          Iterates C src p anchor start (m :: l) stop

section Bounds

variable {p : Pat} {anchor : Bool} {start : Nat}

theorem leftmost_enclosed {s e : Nat} {captures : Captures}
    (h : Leftmost C src p anchor start s e captures) :
    start ≤ s ∧ s ≤ e ∧ e ≤ src.length := by
  have hin : Enclosed src s e captures := results_enclosed (List.mem_of_head? h.first)
  have hle := hin.le_length
  have hlength := h.tried.le_length
  exact ⟨h.tried.start_le, hin.start_le, by omega⟩

theorem Match.next_bounds {m : Match}
    (h : tryFrom C src p anchor start = .ok (some (m.start, m.stop, m.captures))) :
    start < m.next ∧ m.stop ≤ m.next ∧ m.next ≤ src.length + 1 := by
  obtain ⟨hstart, hle, hlength⟩ := leftmost_enclosed (tryFrom_eq_some h)
  rw [Match.next]
  split <;> omega

theorem gmatchAux_some {values : List Pushed} {next : Nat}
    (h : gmatchAux C src p start = .ok (some (values, next))) :
    ∃ m : Match, tryFrom C src p false start = .ok (some (m.start, m.stop, m.captures)) ∧
      m.next = next ∧ values = found src false m.start m.stop m.captures := by
  unfold gmatchAux at h
  split at h
  · cases h
  · cases h
  · rename_i s e captures htry
    cases hvalues : pushCaptures src captures true s e with
    | error e =>
      rw [hvalues] at h
      cases h
    | ok values' =>
      rw [hvalues] at h
      cases h
      refine ⟨⟨s, e, captures⟩, htry, rfl, ?_⟩
      rw [(pushCaptures_eq_ok.mp hvalues).2, found, if_neg Bool.false_ne_true]
      simp

/-- The matches of a row stand one behind the other, and start at different places. -/
theorem Iterates.pairwise {l : List Match} {stop : Nat} (h : Iterates C src p anchor start l stop) :
    (∀ m ∈ l, start ≤ m.start) ∧
      l.Pairwise (fun m m' => m.stop ≤ m'.start ∧ m.start < m'.start) := by
  induction h with
  | refl => exact ⟨fun _ hm => absurd hm List.not_mem_nil, List.Pairwise.nil⟩
  | @step start stop m l htry _ _ ih =>
    obtain ⟨hstart, hle, -⟩ := leftmost_enclosed (tryFrom_eq_some htry)
    obtain ⟨-, hnext, -⟩ := Match.next_bounds htry
    have hlt : m.start < m.next := by
      rw [Match.next]
      split <;> omega
    refine ⟨List.forall_mem_cons.mpr ⟨hstart, fun m' hm' => ?_⟩,
      List.pairwise_cons.mpr ⟨fun m' hm' => ?_, ih.2⟩⟩
    · have := ih.1 m' hm'
      omega
    · have := ih.1 m' hm'
      omega

theorem Iterates.length_le {l : List Match} {stop : Nat}
    (h : Iterates C src p anchor start l stop) : start + l.length ≤ max start (src.length + 1) := by
  have hbounds : start + l.length ≤ stop ∧ stop ≤ max start (src.length + 1) := by
    induction h with
    | refl start => exact ⟨Nat.le_refl _, Nat.le_max_left _ _⟩
    | step htry _ _ ih =>
      obtain ⟨hlt, -, hle⟩ := Match.next_bounds htry
      rw [List.length_cons]
      omega
  exact Nat.le_trans hbounds.1 hbounds.2

/-- **The iterator goes through matches from left to right and ends**: each value belongs to a
leftmost match behind the one before, and there is at most one for each start that is left. -/
theorem calls_iterate {l : List (List Pushed)} {stop : Nat} (h : Calls C src p start l stop) :
    ∃ ms : List Match, Iterates C src p false start ms stop ∧
      l = ms.map (fun m => found src false m.start m.stop m.captures) ∧
        ms.Pairwise (fun m m' => m.stop ≤ m'.start ∧ m.start < m'.start) ∧
          start + l.length ≤ max start (src.length + 1) := by
  have hms : ∃ ms : List Match, Iterates C src p false start ms stop ∧
      l = ms.map (fun m => found src false m.start m.stop m.captures) := by
    induction h with
    | refl start => exact ⟨[], .refl start, rfl⟩
    | step hcall _ ih =>
      obtain ⟨m, htry, rfl, rfl⟩ := gmatchAux_some hcall
      obtain ⟨ms, hms, rfl⟩ := ih
      exact ⟨m :: ms, .step htry nofun hms, rfl⟩
  obtain ⟨ms, hiterates, rfl⟩ := hms
  refine ⟨ms, hiterates, rfl, hiterates.pairwise.2, ?_⟩
  rw [List.length_map]
  exact hiterates.length_le

theorem letters_iterate :
    ∃ ms : List Match, Iterates cLocale (ascii "a1b") (ascii "%a") false 0 ms 3 ∧
      [[.string (ascii "a")], [.string (ascii "b")]] =
        ms.map (fun m => found (ascii "a1b") false m.start m.stop m.captures) ∧
        ms.Pairwise (fun m m' => m.stop ≤ m'.start ∧ m.start < m'.start) ∧ 0 + 2 ≤ max 0 4 := by
  have hfirst : gmatchAux cLocale (ascii "a1b") (ascii "%a") 0 =
      .ok (some ([.string (ascii "a")], 1)) := by decide +kernel
  have hsecond : gmatchAux cLocale (ascii "a1b") (ascii "%a") 1 =
      .ok (some ([.string (ascii "b")], 3)) := by decide +kernel
  exact calls_iterate (.step hfirst (.step hsecond (.refl 3)))

end Bounds

/-! ## The text after the replacement -/

/-- The subject from an index on, with the matches replaced by the values. -/
def rebuild (src : LuaString) : Nat → List (Match × LuaString) → LuaString
  | start, [] => src.drop start
  | start, (m, value) :: l =>
    substring src start (m.start - start) ++ value ++ rebuild src m.stop l

section Iterating

variable {p : Pat} {anchor : Bool} {start stop : Nat}

theorem tryFrom_of_lt (h : src.length < start) : tryFrom C src p anchor start = .ok none := by
  rw [tryFrom, if_pos h]

theorem Iterates.eq_nil {l : List Match} (h : Iterates C src p anchor start l stop)
    (hlt : src.length < start) : l = [] := by
  cases h with
  | refl => rfl
  | step htry =>
    rw [tryFrom_of_lt hlt] at htry
    cases htry

theorem drop_eq_byteAt_cons (h : start < src.length) :
    src.drop start = byteAt src start :: src.drop (start + 1) := by
  rw [List.drop_eq_getElem_cons h, byteAt, List.getElem?_eq_getElem h, Option.getD_some]

/-- A byte that no match covers is copied. -/
theorem rebuild_succ (hlt : start < src.length) {l : List (Match × LuaString)}
    (h : ∀ r ∈ l, start < r.1.start) :
    rebuild src start l = byteAt src start :: rebuild src (start + 1) l := by
  cases l with
  | nil => exact drop_eq_byteAt_cons hlt
  | cons r l =>
    obtain ⟨m, value⟩ := r
    have hm : start < m.start := h _ List.mem_cons_self
    rw [rebuild, rebuild, substring, drop_eq_byteAt_cons hlt, substring,
      show m.start - start = m.start - (start + 1) + 1 by omega, List.take_succ_cons,
      List.cons_append, List.cons_append]

/-- What stands between the end of a match and the next start is copied. -/
theorem rebuild_stop {m : Match}
    (htry : tryFrom C src p anchor start = .ok (some (m.start, m.stop, m.captures)))
    {l : List Match} (h : Iterates C src p anchor m.next l stop) (values : List LuaString) :
    rebuild src m.stop (l.zip values) =
      substring src m.stop (m.next - m.stop) ++ rebuild src m.next (l.zip values) := by
  obtain ⟨-, -, hlength⟩ := leftmost_enclosed (tryFrom_eq_some htry)
  have hnext : m.next = m.stop ∨ m.next = m.stop + 1 := by
    rw [Match.next]
    split
    · exact Or.inr rfl
    · exact Or.inl rfl
  rcases hnext with hnext | hnext
  · rw [hnext, Nat.sub_self, substring, List.take_zero, List.nil_append]
  · rw [hnext] at h ⊢
    rw [Nat.add_sub_cancel_left, substring]
    by_cases hlt : m.stop < src.length
    · have hbehind : ∀ r ∈ l.zip values, m.stop < r.1.start :=
        fun r hr => h.pairwise.1 _ (List.of_mem_zip hr).1
      rw [rebuild_succ hlt hbehind, drop_eq_byteAt_cons hlt]
      rfl
    · rw [h.eq_nil (by omega), List.zip_nil_left, rebuild, rebuild,
        List.drop_of_length_le (by omega), List.drop_of_length_le (by omega)]
      rfl

theorem substring_append_drop {e : Nat} (h : start ≤ e) :
    substring src start (e - start) ++ src.drop e = src.drop start := by
  rw [substring, ← Nat.add_sub_cancel' h, Nat.add_sub_cancel_left, ← List.drop_drop,
    List.take_append_drop]

/-- What is replaced by itself stays. -/
theorem rebuild_self {l : List Match} (h : Iterates C src p anchor start l stop) :
    rebuild src start (l.zip (l.map (fun m => substring src m.start (m.stop - m.start)))) =
      src.drop start := by
  induction h with
  | refl => rfl
  | @step start stop m l htry _ hrest ih =>
    obtain ⟨hstart, hle, -⟩ := leftmost_enclosed (tryFrom_eq_some htry)
    obtain ⟨-, hnext, -⟩ := Match.next_bounds htry
    rw [List.map_cons, List.zip_cons_cons, rebuild, rebuild_stop htry hrest, ih,
      substring_append_drop hnext, List.append_assoc, substring_append_drop hle,
      substring_append_drop hstart]

end Iterating

section Gsub

variable {W : Type} {number2str : Nat → LuaString} {p : Pat} {anchor : Bool}
  {repl : Replacement W} {maxS : Nat}

/-- The calls of `add_value` for the matches in a row. -/
def addValues (src : LuaString) (number2str : Nat → LuaString) (repl : Replacement W)
    (l : List Match) : EStateM Raised W (List LuaString) :=
  l.mapM (fun m => addValue src number2str m.captures m.start m.stop repl)

/-- From the place `s`, with `n` replacements and the text `b` behind it, the loop replaces the
matches `l` by `values`. -/
structure Replaces (C : Ctype) (src : LuaString) (number2str : Nat → LuaString) (p : Pat)
    (anchor : Bool) (repl : Replacement W) (maxS s n : Nat) (b : LuaString) (w : W)
    (l : List Match) (values : List LuaString) (stop s' n' : Nat) (b' : LuaString) (w' : W) :
    Prop where
  iterates : Iterates C src p anchor s l stop
  called : (addValues src number2str repl l).run w = .ok values w'
  count : n' = n + l.length
  text : b' ++ src.drop s' = b ++ rebuild src s (l.zip values)
  /-- It ends early only when enough is replaced. -/
  complete : n' < maxS → (anchor = true ∧ l ≠ []) ∨ tryFrom C src p anchor stop = .ok none

section Rules

variable {s n s' n' stop : Nat} {b b' : LuaString} {w w₁ w' : W} {m : Match} {l : List Match}
  {value : LuaString} {values : List LuaString}

theorem Replaces.nil (htext : b' ++ src.drop s' = b ++ src.drop s)
    (hdone : n < maxS → tryFrom C src p anchor s = .ok none) :
    Replaces C src number2str p anchor repl maxS s n b w [] [] s s' n b' w where
  iterates := .refl s
  called := rfl
  count := rfl
  text := htext
  complete h := Or.inr (hdone h)

theorem run_addValues_cons
    (hvalue : (addValue src number2str m.captures m.start m.stop repl).run w = .ok value w₁)
    (hvalues : (addValues src number2str repl l).run w₁ = .ok values w') :
    (addValues src number2str repl (m :: l)).run w = .ok (value :: values) w' := by
  rw [addValues] at hvalues ⊢
  rw [List.mapM_cons, run_bind_of_ok hvalue, run_bind_of_ok hvalues]
  rfl

/-- The match at `s` is the only one. -/
theorem Replaces.single
    (htry : tryFrom C src p anchor m.start = .ok (some (m.start, m.stop, m.captures)))
    (hvalue : (addValue src number2str m.captures m.start m.stop repl).run w = .ok value w₁)
    (htext : b' ++ src.drop s' = b ++ value ++ src.drop m.stop)
    (hdone : n + 1 < maxS → anchor = true ∨ tryFrom C src p anchor m.next = .ok none) :
    Replaces C src number2str p anchor repl maxS m.start n b w [m] [value] m.next s' (n + 1) b'
      w₁ where
  iterates := .step htry (fun _ => rfl) (.refl m.next)
  called := run_addValues_cons hvalue rfl
  count := rfl
  text := by
    rw [htext, List.zip_cons_cons, List.zip_nil_left, rebuild, rebuild, Nat.sub_self, substring,
      List.take_zero, List.nil_append, List.append_assoc]
  complete h := (hdone h).imp_left (fun hanchor => ⟨hanchor, List.cons_ne_nil _ _⟩)

/-- A match at `s` before the others. -/
theorem Replaces.cons
    (htry : tryFrom C src p false m.start = .ok (some (m.start, m.stop, m.captures)))
    (hvalue : (addValue src number2str m.captures m.start m.stop repl).run w = .ok value w₁)
    (h : Replaces C src number2str p false repl maxS m.next (n + 1)
      (b ++ value ++ substring src m.stop (m.next - m.stop)) w₁ l values stop s' n' b' w') :
    Replaces C src number2str p false repl maxS m.start n b w (m :: l) (value :: values) stop s' n'
      b' w' where
  iterates := .step htry nofun h.iterates
  called := run_addValues_cons hvalue h.called
  count := by
    rw [h.count, List.length_cons]
    omega
  text := by
    rw [h.text, List.zip_cons_cons, rebuild, rebuild_stop htry h.iterates, Nat.sub_self, substring,
      substring, List.take_zero, List.nil_append]
    simp only [List.append_assoc]
  complete hlt := by
    rcases h.complete hlt with ⟨⟨⟩, -⟩ | hnone
    exact Or.inr hnone

/-- No match at `s`. -/
theorem Replaces.skip (hs : s < src.length)
    (hnext : tryFrom C src p false s = tryFrom C src p false (s + 1))
    (h : Replaces C src number2str p false repl maxS (s + 1) n (b ++ [byteAt src s]) w l values
      stop s' n' b' w') :
    ∃ stop', Replaces C src number2str p false repl maxS s n b w l values stop' s' n' b' w' := by
  have htext : b' ++ src.drop s' = b ++ rebuild src s (l.zip values) := by
    have hbehind : ∀ r ∈ l.zip values, s < r.1.start :=
      fun r hr => h.iterates.pairwise.1 _ (List.of_mem_zip hr).1
    rw [h.text, rebuild_succ hs hbehind, List.append_assoc]
    rfl
  have hcomplete := h.complete
  cases h.iterates with
  | refl =>
    rw [← hnext] at hcomplete
    exact ⟨s, .refl s, h.called, h.count, htext, hcomplete⟩
  | step htry hanchor hrest =>
    exact ⟨stop, .step (hnext.trans htry) hanchor hrest, h.called, h.count, htext, hcomplete⟩

end Rules

/-- What `match` answers at `s` is the answer of the search from there on, or not. -/
theorem tryFrom_of_run_some {s e : Nat} {captures : Captures} (hs : s ≤ src.length)
    (hrun : (doMatch C src maxCCalls s p).run [] = .ok (some e) captures) :
    tryFrom C src p anchor s = .ok (some (s, e, captures)) := by
  rw [tryFrom, if_neg (by omega), hrun]

theorem tryFrom_of_run_none {s : Nat} {captures : Captures} (hs : s ≤ src.length)
    (hrun : (doMatch C src maxCCalls s p).run [] = .ok none captures) :
    tryFrom C src p anchor s =
      if anchor then .ok none else tryFrom C src p anchor (s + 1) := by
  rw [tryFrom, if_neg (by omega), hrun]

theorem replaces_gsubLoop {s n s' n' : Nat} {b b' : LuaString} {w w' : W} (hs : s ≤ src.length)
    (h : (gsubLoop C src number2str p anchor repl maxS s n b).run w = .ok (s', n', b') w') :
    ∃ l values stop,
      Replaces C src number2str p anchor repl maxS s n b w l values stop s' n' b' w' := by
  fun_induction gsubLoop C src number2str p anchor repl maxS s n b generalizing w with
  | case1 s n b hn e captures hrun => cases h
  | case2 s n b hn captures hrun hlt hanchor =>
    cases h
    refine ⟨[], [], _, .nil ?_ (fun _ => ?_)⟩
    · rw [drop_eq_byteAt_cons hlt, List.append_assoc]
      rfl
    · rw [tryFrom_of_run_none hs hrun, if_pos hanchor]
  | case3 s n b hn captures hrun hlt hanchor ih =>
    obtain ⟨l, values, stop, hreplaces⟩ := ih hlt h
    obtain rfl : anchor = false := Bool.eq_false_iff.mpr hanchor
    have hnext := (tryFrom_of_run_none hs hrun).trans (if_neg hanchor)
    obtain ⟨stop', hskipped⟩ := hreplaces.skip hlt hnext
    exact ⟨l, values, stop', hskipped⟩
  | case4 s n b hn captures hrun hlt =>
    cases h
    refine ⟨[], [], _, .nil rfl (fun _ => ?_)⟩
    rw [tryFrom_of_run_none hs hrun, tryFrom_of_lt (by omega), ite_self]
  | case5 s n b hn e captures hrun ih₁ ih₂ =>
    obtain ⟨value, w₁, hvalue, hrest⟩ := run_bind_eq_ok h
    have hin := doMatch_enclosed hrun
    have hle := hin.start_le
    have hlength := hin.le_length
    have htry : tryFrom C src p anchor s = .ok (some (s, e, captures)) :=
      tryFrom_of_run_some hs hrun
    by_cases hlt : s < e
    · have hnext : (Match.mk s e captures).next = e := if_neg (by dsimp only; omega)
      rw [if_pos hlt] at hrest
      by_cases hanchor : anchor = true
      · rw [if_pos hanchor] at hrest
        cases hrest
        exact ⟨_, _, _, .single (m := ⟨_, _, _⟩) htry hvalue rfl (fun _ => Or.inl hanchor)⟩
      · rw [if_neg hanchor] at hrest
        obtain rfl : anchor = false := Bool.eq_false_iff.mpr hanchor
        obtain ⟨l, values, stop, hreplaces⟩ := ih₁ value hlt (by omega) hrest
        refine ⟨⟨s, e, captures⟩ :: l, value :: values, stop,
          .cons (m := ⟨s, e, captures⟩) htry hvalue ?_⟩
        simp only [hnext, Nat.sub_self, substring, List.take_zero, List.append_nil]
        exact hreplaces
    · -- an empty match: the next byte is copied
      obtain rfl : e = s := by omega
      have hnext : (Match.mk e e captures).next = e + 1 := if_pos rfl
      rw [if_neg hlt] at hrest
      by_cases hend : e < src.length
      · rw [if_pos hend] at hrest
        by_cases hanchor : anchor = true
        · rw [if_pos hanchor] at hrest
          cases hrest
          refine ⟨_, _, _, .single (m := ⟨_, _, _⟩) htry hvalue ?_ (fun _ => Or.inl hanchor)⟩
          rw [drop_eq_byteAt_cons hend, List.append_assoc _ [_]]
          rfl
        · rw [if_neg hanchor] at hrest
          obtain rfl : anchor = false := Bool.eq_false_iff.mpr hanchor
          obtain ⟨l, values, stop, hreplaces⟩ := ih₂ value hend hend hrest
          refine ⟨⟨e, e, captures⟩ :: l, value :: values, stop,
          .cons (m := ⟨e, e, captures⟩) htry hvalue ?_⟩
          have hcopied : substring src e (e + 1 - e) = [byteAt src e] := by
            rw [Nat.add_sub_cancel_left, substring, drop_eq_byteAt_cons hend]
            rfl
          simp only [hnext, hcopied]
          exact hreplaces
      · rw [if_neg hend] at hrest
        cases hrest
        refine ⟨_, _, _, .single (m := ⟨_, _, _⟩) htry hvalue rfl (fun _ => Or.inr ?_)⟩
        exact tryFrom_of_lt (by rw [hnext]; omega)
  | case6 s n b hn =>
    cases h
    exact ⟨[], [], _, .nil rfl (fun hlt => absurd hlt hn)⟩

/-- The loop stops at the bound. -/
theorem gsubLoop_le {s n s' n' : Nat} {b b' : LuaString} {w w' : W} (hn : n ≤ maxS)
    (h : (gsubLoop C src number2str p anchor repl maxS s n b).run w = .ok (s', n', b') w') :
    n' ≤ maxS := by
  fun_induction gsubLoop C src number2str p anchor repl maxS s n b generalizing w with
  | case1 => cases h
  | case2 | case4 | case6 =>
    cases h
    exact hn
  | case3 s n b hlt captures hrun hs hanchor ih => exact ih hn h
  | case5 s n b hlt e captures hrun ih₁ ih₂ =>
    obtain ⟨value, w₁, -, hrest⟩ := run_bind_eq_ok h
    split at hrest
    · split at hrest
      · cases hrest
        exact hlt
      · exact ih₁ value ‹_› hlt hrest
    · split at hrest
      · split at hrest
        · cases hrest
          exact hlt
        · exact ih₂ value ‹_› hlt hrest
      · cases hrest
        exact hlt

/-- **`gsub` replaces what `gmatch` gives**: the matches of the iterator in their order, at most as
many as allowed. The replacement is asked once for each of them, and the rest of the subject is
copied. -/
theorem strGsub_replaces {maxS : Option Int} {text : LuaString} {n : Nat} {w w' : W}
    (h : (strGsub C src number2str p repl maxS).run w = .ok (text, n) w') :
    ∃ l values stop, Iterates C src (skipAnchor p).2 (skipAnchor p).1 0 l stop ∧
      (addValues src number2str repl l).run w = .ok values w' ∧
        text = rebuild src 0 (l.zip values) ∧ n = l.length ∧ n ≤ limit src maxS ∧
          (n < limit src maxS → ((skipAnchor p).1 = true ∧ l ≠ []) ∨
            tryFrom C src (skipAnchor p).2 (skipAnchor p).1 stop = .ok none) := by
  obtain ⟨⟨s, n', b⟩, w₁, hloop, hrest⟩ := run_bind_eq_ok h
  cases hrest
  obtain ⟨l, values, stop, hreplaces⟩ := replaces_gsubLoop (Nat.zero_le _) hloop
  have hcount := hreplaces.count
  rw [Nat.zero_add] at hcount
  exact ⟨l, values, stop, hreplaces.iterates, hreplaces.called, hreplaces.text, hcount,
    gsubLoop_le (Nat.zero_le _) hloop, hreplaces.complete⟩

theorem letters_replaced :
    ∃ w' l values stop, Iterates cLocale (ascii "a1b") (ascii "%a") false 0 l stop ∧
      (addValues (ascii "a1b") (fun _ => []) (.string (ascii "<%0>") : Replacement Unit) l).run () =
        .ok values w' ∧
        ascii "<a>1<b>" = rebuild (ascii "a1b") 0 (l.zip values) ∧ 2 = l.length ∧
          2 ≤ limit (ascii "a1b") none ∧
          (2 < limit (ascii "a1b") none → (false = true ∧ l ≠ []) ∨
            tryFrom cLocale (ascii "a1b") (ascii "%a") false stop = .ok none) := by
  have h : outcome ((strGsub cLocale (ascii "a1b") (fun _ => []) (ascii "%a")
      (.string (ascii "<%0>") : Replacement Unit) none).run ()) = .ok (ascii "<a>1<b>", 2) := by
    decide +kernel
  exact ⟨_, strGsub_replaces (run_of_outcome h)⟩

/-- A replacement that gives the match back. -/
def Restores (src : LuaString) (number2str : Nat → LuaString) (repl : Replacement W) : Prop :=
  ∀ (m : Match) (w w' : W) (value : LuaString),
    (addValue src number2str m.captures m.start m.stop repl).run w = .ok value w' →
      value = substring src m.start (m.stop - m.start)

theorem Restores.addValues (hrepl : Restores src number2str repl) {l : List Match}
    {values : List LuaString} {w w' : W}
    (h : (addValues src number2str repl l).run w = .ok values w') :
    values = l.map (fun m => substring src m.start (m.stop - m.start)) := by
  induction l generalizing values w with
  | nil =>
    cases h
    rfl
  | cons m l ih =>
    rw [Pattern.addValues, List.mapM_cons] at h
    obtain ⟨value, w₁, hvalue, h⟩ := run_bind_eq_ok h
    obtain ⟨values', w₂, hvalues, h⟩ := run_bind_eq_ok h
    cases h
    rw [hrepl m w w₁ value hvalue, ih hvalues]
    rfl

/-- **`gsub` loses nothing**: when each match is replaced by itself, the subject comes back,
whatever the pattern. -/
theorem strGsub_restores (hrepl : Restores src number2str repl) {maxS : Option Int}
    {text : LuaString} {n : Nat} {w w' : W}
    (h : (strGsub C src number2str p repl maxS).run w = .ok (text, n) w') :
    text = src ∧ n ≤ src.length + 1 := by
  obtain ⟨⟨s, n', b⟩, w₁, hloop, hrest⟩ := run_bind_eq_ok h
  cases hrest
  obtain ⟨l, values, stop, hreplaces⟩ := replaces_gsubLoop (Nat.zero_le _) hloop
  obtain rfl := hrepl.addValues hreplaces.called
  have hcount := hreplaces.count
  have hlength := hreplaces.iterates.length_le
  refine ⟨?_, by omega⟩
  rw [hreplaces.text, rebuild_self hreplaces.iterates]
  rfl

/-- The string `%0` gives the match back. -/
theorem restores_whole (src : LuaString) (number2str : Nat → LuaString) :
    Restores src number2str (.string [0x25, 0x30] : Replacement W) := by
  intro m w w' value h
  have hwhole : addS src number2str m.captures m.start m.stop [0x25, 0x30] =
      .ok (substring src m.start (m.stop - m.start)) := by
    rw [addS, if_neg (not_not_intro rfl)]
    simp only [List.headD_cons, List.tail_cons, show isdigit 0x30 = true from rfl, Bool.not_true,
      Bool.false_eq_true, if_false, if_true]
    rw [addS]
    exact congrArg Except.ok (List.append_nil _)
  rw [addValue, hwhole] at h
  cases h
  rfl

/-- A function that returns nil or false gives the match back. -/
theorem restores_nothing (src : LuaString) (number2str : Nat → LuaString)
    {call : List Pushed → EStateM Raised W Answer}
    (hcall : ∀ values w answer w', (call values).run w = .ok answer w' → answer = .nothing) :
    Restores src number2str (.function call) := by
  intro m w w' value h
  obtain ⟨values, w₁, -, h⟩ := run_bind_eq_ok h
  obtain ⟨answer, w₂, hanswer, h⟩ := run_bind_eq_ok h
  rw [hcall values w₁ answer w₂ hanswer] at h
  cases h
  rfl

theorem letters_restored :
    ∃ text n, outcome ((strGsub cLocale (ascii "a1b") (fun _ => []) (ascii "%a")
        (.string [0x25, 0x30] : Replacement Unit) none).run ()) = .ok (text, n) ∧
      text = ascii "a1b" ∧ n ≤ (ascii "a1b").length + 1 := by
  have h : outcome ((strGsub cLocale (ascii "a1b") (fun _ => []) (ascii "%a")
      (.string [0x25, 0x30] : Replacement Unit) none).run ()) = .ok (ascii "a1b", 2) := by
    decide +kernel
  exact ⟨ascii "a1b", 2, h, strGsub_restores (restores_whole _ _) (run_of_outcome h)⟩

end Gsub

end LuaAddons.Pattern
