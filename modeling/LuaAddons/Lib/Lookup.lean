import Mathlib.Data.List.AList

/-!
# Single matches and removals in lists, dictionaries with list entries

`singleOrDefault` looks for the element of a list that satisfies a predicate and fails when
there are several. Removing the elements found, one by one, is filtering them out
(`foldl_erase_filter`), so a removal that goes through a single match leaves every other
element where it was (`erase_of_filter_eq`).
-/

namespace LuaAddons.Lookup

variable {ε α : Type}

/-! ## Single matches -/

/-- The element of `l` that satisfies `p`, `none` when there is none, and `tooMany` when
there are several. -/
def singleOrDefault (tooMany : ε) (p : α → Bool) (l : List α) : Except ε (Option α) :=
  match l.filter p with
  | [] => .ok none
  | [a] => .ok (some a)
  | _ => .error tooMany

variable {tooMany : ε} {p : α → Bool} {l : List α}

theorem singleOrDefault_some_iff {a : α} :
    singleOrDefault tooMany p l = .ok (some a) ↔ l.filter p = [a] := by
  unfold singleOrDefault
  rcases l.filter p with _ | ⟨b, _ | ⟨c, m⟩⟩ <;> simp

theorem singleOrDefault_none_iff :
    singleOrDefault tooMany p l = .ok none ↔ l.filter p = [] := by
  unfold singleOrDefault
  rcases l.filter p with _ | ⟨b, _ | ⟨c, m⟩⟩ <;> simp

theorem singleOrDefault_mem {a : α} (h : singleOrDefault tooMany p l = .ok (some a)) :
    a ∈ l ∧ p a = true := by
  have ha : a ∈ l.filter p := by
    rw [singleOrDefault_some_iff.mp h]
    exact List.mem_singleton_self a
  exact List.mem_filter.mp ha

theorem singleOrDefault_of_filter_eq {a : α} (h : l.filter p = [a]) :
    singleOrDefault tooMany p l = .ok (some a) := singleOrDefault_some_iff.mpr h

theorem singleOrDefault_of_length_le (h : (l.filter p).length ≤ 1) :
    ∃ o, singleOrDefault tooMany p l = .ok o := by
  cases hf : l.filter p with
  | nil => exact ⟨none, singleOrDefault_none_iff.mpr hf⟩
  | cons a rest =>
    rw [hf, List.length_cons] at h
    have hrest : rest = [] := List.length_eq_zero_iff.mp (by omega)
    exact ⟨some a, singleOrDefault_some_iff.mpr (hrest ▸ hf)⟩

/-- When any two matches of a list without repetitions agree, there is at most one. -/
theorem singleOrDefault_of_unique (tooMany : ε) (hnd : l.Nodup)
    (h : ∀ a ∈ l, ∀ b ∈ l, p a = true → p b = true → a = b) :
    ∃ o, singleOrDefault tooMany p l = .ok o ∧ ∀ a, o = some a ↔ a ∈ l ∧ p a = true := by
  cases hf : l.filter p with
  | nil =>
    refine ⟨none, singleOrDefault_none_iff.mpr hf, fun a => ⟨nofun, ?_⟩⟩
    rintro ⟨ha, hp⟩
    have : a ∈ l.filter p := List.mem_filter.mpr ⟨ha, hp⟩
    simp [hf] at this
  | cons a rest =>
    have ha : a ∈ l ∧ p a = true := by
      have : a ∈ l.filter p := by simp [hf]
      simpa using this
    have hrest : rest = [] := by
      have hnd' : (a :: rest).Nodup := hf ▸ hnd.filter p
      by_contra hne
      obtain ⟨b, hb⟩ := List.exists_mem_of_ne_nil _ hne
      have hbl : b ∈ l.filter p := by simp [hf, hb]
      rw [List.mem_filter] at hbl
      have hab := h a ha.1 b hbl.1 ha.2 hbl.2
      subst hab
      exact (List.nodup_cons.mp hnd').1 hb
    subst hrest
    refine ⟨some a, singleOrDefault_some_iff.mpr hf, fun b => ⟨?_, ?_⟩⟩
    · rintro ⟨⟩
      exact ha
    · rintro ⟨hb, hp⟩
      exact congrArg some (h a ha.1 b hb ha.2 hp)

theorem filter_eraseP_of_disjoint {q : α → Bool} (h : ∀ a ∈ l, q a = true → p a = false) :
    (l.eraseP q).filter p = l.filter p := by
  rcases List.exists_or_eq_self_of_eraseP q l with heq | ⟨a, l₁, l₂, -, hq, rfl, herase⟩
  · rw [heq]
  · have hp := h a (List.mem_append_right _ List.mem_cons_self) hq
    rw [herase, List.filter_append, List.filter_append, List.filter_cons_of_neg (by simp [hp])]

/-- A key that does not match may be erased. -/
theorem singleOrDefault_erase {κ : Type} [DecidableEq κ] {β : κ → Type} (tooMany : ε)
    {p : Sigma β → Bool} {k : κ} (d : AList β) (h : ∀ e : Sigma β, e.1 = k → p e = false) :
    singleOrDefault tooMany p (d.erase k).entries = singleOrDefault tooMany p d.entries := by
  have hfilter : (d.erase k).entries.filter p = d.entries.filter p :=
    filter_eraseP_of_disjoint (fun e _ hk => h e (of_decide_eq_true hk).symm)
  unfold singleOrDefault
  rw [hfilter]

/-! ## Removing what was found -/

section Erase

variable [DecidableEq α]

theorem foldl_erase_cons_of_ne {a : α} :
    ∀ (F l : List α), (∀ b ∈ F, b ≠ a) → F.foldl List.erase (a :: l) = a :: F.foldl List.erase l
  | [], _, _ => rfl
  | b :: F, l, h => by
    have hb : a ≠ b := (h b List.mem_cons_self).symm
    rw [List.foldl_cons, List.foldl_cons, List.erase_cons_tail (by simpa using hb)]
    exact foldl_erase_cons_of_ne F _ (fun c hc => h c (List.mem_cons_of_mem _ hc))

/-- Removing one by one the elements that satisfy `p` keeps exactly the others. -/
theorem foldl_erase_filter (p : α → Bool) :
    ∀ l : List α, (l.filter p).foldl List.erase l = l.filter (fun a => !p a)
  | [] => rfl
  | a :: l => by
    cases hp : p a with
    | true => simp [hp, foldl_erase_filter p l]
    | false =>
      rw [List.filter_cons_of_neg (by simp [hp]), List.filter_cons_of_pos (by simp [hp]),
        foldl_erase_cons_of_ne _ _ ?_, foldl_erase_filter p l]
      rintro b hb rfl
      simp [hp] at hb

/-- Removing the only element that satisfies `p` keeps exactly the others. -/
theorem erase_of_filter_eq {p : α → Bool} {l : List α} {a : α} (h : l.filter p = [a]) :
    l.erase a = l.filter (fun b => !p b) := by
  have := foldl_erase_filter p l
  rw [h] at this
  exact this

end Erase

/-! ## Dictionaries -/

theorem lookup_erase_eq_some {κ β : Type} [DecidableEq κ] {t : AList (fun _ : κ => β)}
    {key k : κ} {b : β} (h : (t.erase key).lookup k = some b) : k ≠ key ∧ t.lookup k = some b := by
  by_cases hk : k = key
  · subst hk
    rw [AList.lookup_erase] at h
    cases h
  · exact ⟨hk, by rw [← AList.lookup_erase_ne hk]; exact h⟩

end LuaAddons.Lookup
