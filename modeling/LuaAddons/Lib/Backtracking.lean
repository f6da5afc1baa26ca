import LuaAddons.Lib.Exec

/-!
# Backtracking

A search changes the store on its way and takes the changes back where it fails. `Finds` describes
it by the list of all its results, each with the store it is reached in, in the order in which they
are tried: the search returns the first one, or `none` in the store it started from, or it fails
with one of the errors `E`.
-/

namespace LuaAddons.Backtracking

variable {ε σ α : Type}

/-- The second search when the first one returns `none`. -/
def orElse (x y : EStateM ε σ (Option α)) : EStateM ε σ (Option α) := do
  match ← x with
  | some a => pure (some a)
  | none => y

/-- The search after a change of the store, which is taken back when the search returns `none`. -/
def undoing (change undo : σ → σ) (x : EStateM ε σ (Option α)) : EStateM ε σ (Option α) := do
  modify change
  match ← x with
  | some a => pure (some a)
  | none => do
    modify undo
    pure none

/-- The search, started in `s`, has the results `l`. -/
def Finds (E : ε → Prop) (x : EStateM ε σ (Option α)) (s : σ) (l : List (α × σ)) : Prop :=
  match x.run s with
  | .ok (some a) s' => l.head? = some (a, s')
  | .ok none s' => l = [] ∧ s' = s
  | .error e _ => E e

variable {E : ε → Prop} {x y : EStateM ε σ (Option α)} {s : σ} {l m : List (α × σ)}

theorem finds_some (a : α) : Finds E (pure (some a)) s [(a, s)] := rfl

theorem finds_none : Finds E (pure none) s ([] : List (α × σ)) := ⟨rfl, rfl⟩

theorem finds_throw {e : ε} (h : E e) : Finds E (throw e) s l := h

theorem Finds.mono {F : ε → Prop} (hx : Finds E x s l) (h : ∀ e, E e → F e) : Finds F x s l := by
  unfold Finds at hx ⊢
  split at hx
  · exact hx
  · exact hx
  · exact h _ hx

theorem Finds.orElse (hx : Finds E x s l) (hy : Finds E y s m) :
    Finds E (orElse x y) s (l ++ m) := by
  unfold Finds at hx
  unfold Finds Backtracking.orElse
  rw [EStateM.run_bind]
  split at hx
  · rename_i a s' hrun
    rw [hrun, List.head?_append, hx]
    rfl
  · rename_i s' hrun
    obtain ⟨rfl, rfl⟩ := hx
    rw [hrun]
    exact hy
  · rename_i e s' hrun
    rw [hrun]
    exact hx

theorem Finds.undoing {change undo : σ → σ} (hx : Finds E x (change s) l)
    (hundo : undo (change s) = s) : Finds E (undoing change undo x) s l := by
  have hrun : (Backtracking.undoing change undo x).run s =
      (x >>= fun r => match r with
        | some a => pure (some a)
        | none => do
          modify undo
          pure none).run (change s) := rfl
  unfold Finds at hx ⊢
  rw [hrun, EStateM.run_bind]
  split at hx
  · rename_i a s' h
    rw [h]
    exact hx
  · rename_i s' h
    obtain ⟨rfl, rfl⟩ := hx
    rw [h]
    exact ⟨rfl, hundo⟩
  · rename_i e s' h
    rw [h]
    exact hx

/-- A search that looks at the store first. -/
theorem finds_get {f : σ → EStateM ε σ (Option α)} (h : Finds E (f s) s l) :
    Finds E (get >>= f) s l := h

/-- What a search that has the results `l` returns. -/
def answer (s : σ) : List (α × σ) → EStateM.Result ε σ (Option α)
  | [] => .ok none s
  | (a, s') :: _ => .ok (some a) s'

theorem answer_eq_some {a : α} {s' : σ}
    (h : (answer s l : EStateM.Result ε σ (Option α)) = .ok (some a) s') :
    l.head? = some (a, s') := by
  cases l with
  | nil => cases h
  | cons r l =>
    cases h
    rfl

theorem answer_eq_none {s' : σ}
    (h : (answer s l : EStateM.Result ε σ (Option α)) = .ok none s') : l = [] := by
  cases l with
  | nil => rfl
  | cons r l => cases h

theorem Finds.eq_answer {r : Option α} {s' : σ} (hx : Finds E x s l) (h : x.run s = .ok r s') :
    x.run s = answer s l := by
  unfold Finds at hx
  rw [h] at hx ⊢
  cases r with
  | none =>
    obtain ⟨rfl, rfl⟩ := hx
    rfl
  | some a =>
    obtain ⟨l', rfl⟩ := List.head?_eq_some_iff.mp hx
    rfl

/-- A search that has no error to raise returns. -/
theorem Finds.run_eq (hx : Finds E x s l) (hE : ∀ e, ¬ E e) : x.run s = answer s l := by
  cases h : x.run s with
  | ok r s' => exact h ▸ hx.eq_answer h
  | error e s' =>
    unfold Finds at hx
    rw [h] at hx
    exact absurd hx (hE e)

end LuaAddons.Backtracking
