import Mathlib.Order.Defs.Unbundled

/-!
# Runs of methods that change a store and may throw

A method body is an `EStateM ε σ α`: it reads and changes a store of type `σ`, and returns
an `α` or throws an `ε`. An exception keeps the changes made before it.

* `Ensures x s Q`: the run of `x` from `s` ends with an outcome and a store that satisfy
  `Q`. The rules for `Keeps` are instances of those for `Ensures`.
* `Keeps R x`: every run of `x` relates the store it starts from to the store it ends in.
  For a reflexive and transitive `R` it passes through every combinator, so a relation
  that holds of each atomic step of a program holds of the whole program.
* `InStepUnless bad R S x y`: from stores related by `R` the two methods end alike, in stores
  related by `S`, unless the first one reaches a bad store. `InStep R x y` has no bad stores.
* `zoom`: a method on one component of a larger store.
-/

namespace LuaAddons.Exec

variable {ε σ τ α β : Type}

/-! ## Outcome and final store -/

/-- What a run returned or threw. -/
def outcome : EStateM.Result ε σ α → Except ε α
  | .ok a _ => .ok a
  | .error e _ => .error e

/-- The store a run ended in. -/
def final : EStateM.Result ε σ α → σ
  | .ok _ s => s
  | .error _ s => s

@[simp] theorem outcome_ok (a : α) (s : σ) :
    outcome (.ok a s : EStateM.Result ε σ α) = .ok a := rfl
@[simp] theorem outcome_error (e : ε) (s : σ) :
    outcome (.error e s : EStateM.Result ε σ α) = .error e := rfl
@[simp] theorem final_ok (a : α) (s : σ) : final (.ok a s : EStateM.Result ε σ α) = s := rfl
@[simp] theorem final_error (e : ε) (s : σ) :
    final (.error e s : EStateM.Result ε σ α) = s := rfl

/-- The store after a run of `x` from `s`. -/
def after (x : EStateM ε σ α) (s : σ) : σ := final (x.run s)

theorem run_tryCatch (x : EStateM ε σ α) (h : ε → EStateM ε σ α) (s : σ) :
    (tryCatch x h).run s =
      match x.run s with
      | .ok a s' => .ok a s'
      | .error e s' => (h e).run s' := by
  change EStateM.tryCatch x h s = _
  delta EStateM.tryCatch EStateM.run
  cases x s <;> rfl

theorem run_throw (e : ε) (s : σ) : (throw e : EStateM ε σ α).run s = .error e s := rfl

theorem run_map (x : EStateM ε σ α) (f : α → β) (s : σ) :
    (f <$> x).run s =
      match x.run s with
      | .ok a s' => .ok (f a) s'
      | .error e s' => .error e s' := by
  cases hx : x.run s <;> simp_all [Functor.map, EStateM.map, EStateM.run]

theorem run_forM_cons (a : α) (l : List α) (f : α → EStateM ε σ PUnit) (s : σ) :
    (List.forM (a :: l) f).run s =
      match (f a).run s with
      | .ok _ s' => (l.forM f).run s'
      | .error e s' => .error e s' := by
  rw [show List.forM (a :: l) f = (f a >>= fun _ => l.forM f) from rfl, EStateM.run_bind]
  cases (f a).run s <;> rfl

/-- The steps of a sequence that returned. -/
theorem run_bind_eq_ok {x : EStateM ε σ α} {f : α → EStateM ε σ β} {s s' : σ} {b : β}
    (h : (x >>= f).run s = .ok b s') :
    ∃ a s₁, x.run s = .ok a s₁ ∧ (f a).run s₁ = .ok b s' := by
  rw [EStateM.run_bind] at h
  cases hx : x.run s with
  | ok a s₁ => rw [hx] at h; exact ⟨a, s₁, rfl, h⟩
  | error e s₁ => rw [hx] at h; cases h

theorem run_bind_of_ok {x : EStateM ε σ α} {f : α → EStateM ε σ β} {s s' : σ} {a : α}
    (h : x.run s = .ok a s') : (x >>= f).run s = (f a).run s' := by
  rw [EStateM.run_bind, h]

theorem after_of_run {x : EStateM ε σ α} {s s' : σ} {a : α} (h : x.run s = .ok a s') :
    after x s = s' := by
  unfold after
  rw [h, final_ok]

theorem after_of_error {x : EStateM ε σ α} {s s' : σ} {e : ε} (h : x.run s = .error e s') :
    after x s = s' := by
  unfold after
  rw [h]
  rfl

theorem run_of_outcome {x : EStateM ε σ α} {s : σ} {a : α}
    (h : outcome (x.run s) = .ok a) : x.run s = .ok a (after x s) := by
  unfold after
  cases hx : x.run s with
  | ok b s' => rw [hx] at h; cases h; rfl
  | error e s' => rw [hx] at h; cases h

/-! ## Postconditions of one run -/

/-- The run of `x` from `s` ends with an outcome and a store that satisfy `Q`. -/
def Ensures (x : EStateM ε σ α) (s : σ) (Q : Except ε α → σ → Prop) : Prop :=
  Q (outcome (x.run s)) (final (x.run s))

theorem ensures_bind {x : EStateM ε σ α} {f : α → EStateM ε σ β} {s : σ}
    {P : Except ε α → σ → Prop} {Q : Except ε β → σ → Prop} (hx : Ensures x s P)
    (hok : ∀ a s', P (.ok a) s' → Ensures (f a) s' Q)
    (herr : ∀ e s', P (.error e) s' → Q (.error e) s') : Ensures (x >>= f) s Q := by
  unfold Ensures at hx ⊢
  rw [EStateM.run_bind]
  cases h : x.run s with
  | ok a s' => rw [h] at hx; exact hok a s' hx
  | error e s' => rw [h] at hx; exact herr e s' hx

theorem ensures_tryCatch {x : EStateM ε σ α} {h : ε → EStateM ε σ α} {s : σ}
    {P Q : Except ε α → σ → Prop} (hx : Ensures x s P)
    (hok : ∀ a s', P (.ok a) s' → Q (.ok a) s')
    (herr : ∀ e s', P (.error e) s' → Ensures (h e) s' Q) : Ensures (tryCatch x h) s Q := by
  unfold Ensures at hx ⊢
  rw [run_tryCatch]
  cases hr : x.run s with
  | ok a s' => rw [hr] at hx; exact hok a s' hx
  | error e s' => rw [hr] at hx; exact herr e s' hx

/-! ## Methods that never throw -/

/-- The method returns from every store. -/
def Returns (x : EStateM ε σ α) : Prop := ∀ s, ∃ a s', x.run s = .ok a s'

theorem returns_pure (a : α) : Returns (pure a : EStateM ε σ α) := fun s => ⟨a, s, rfl⟩

theorem returns_modify (f : σ → σ) : Returns (modify f : EStateM ε σ PUnit) :=
  fun s => ⟨.unit, f s, rfl⟩

theorem returns_bind {x : EStateM ε σ α} {f : α → EStateM ε σ β} (hx : Returns x)
    (hf : ∀ a, Returns (f a)) : Returns (x >>= f) := by
  intro s
  obtain ⟨a, s₁, h₁⟩ := hx s
  obtain ⟨b, s₂, h₂⟩ := hf a s₁
  exact ⟨b, s₂, by rw [EStateM.run_bind, h₁]; exact h₂⟩

theorem returns_tryCatch {x : EStateM ε σ α} {h : ε → EStateM ε σ α}
    (hh : ∀ e, Returns (h e)) : Returns (tryCatch x h) := by
  intro s
  rw [run_tryCatch]
  cases x.run s with
  | ok a s' => exact ⟨a, s', rfl⟩
  | error e s' => exact hh e s'

theorem returns_forM {l : List α} {f : α → EStateM ε σ PUnit} (hf : ∀ a ∈ l, Returns (f a)) :
    Returns (l.forM f) := by
  induction l with
  | nil => exact returns_pure _
  | cons a l ih =>
    exact returns_bind (hf a List.mem_cons_self)
      (fun _ => ih (fun b hb => hf b (List.mem_cons_of_mem _ hb)))

theorem returns_mapM {l : List α} {f : α → EStateM ε σ β} (hf : ∀ a ∈ l, Returns (f a)) :
    Returns (l.mapM f) := by
  induction l with
  | nil => exact returns_pure _
  | cons a l ih =>
    rw [List.mapM_cons]
    exact returns_bind (hf a List.mem_cons_self) fun _ =>
      returns_bind (ih fun b hb => hf b (List.mem_cons_of_mem _ hb)) fun _ => returns_pure _

/-- Every exception that `x` throws is `e`. -/
def OnlyThrows (e : ε) (x : EStateM ε σ α) : Prop :=
  ∀ s e' s', x.run s = .error e' s' → e' = e

theorem onlyThrows_of_returns {e : ε} {x : EStateM ε σ α} (h : Returns x) : OnlyThrows e x := by
  intro s e' s' hrun
  obtain ⟨a, s'', hok⟩ := h s
  rw [hok] at hrun
  cases hrun

theorem onlyThrows_throw (e : ε) : OnlyThrows e (throw e : EStateM ε σ α) := by
  intro s e' s' hrun
  cases hrun
  rfl

theorem onlyThrows_bind {e : ε} {x : EStateM ε σ α} {f : α → EStateM ε σ β}
    (hx : OnlyThrows e x) (hf : ∀ a, OnlyThrows e (f a)) : OnlyThrows e (x >>= f) := by
  intro s e' s' hrun
  rw [EStateM.run_bind] at hrun
  cases hr : x.run s with
  | ok a s₁ =>
    rw [hr] at hrun
    exact hf a s₁ e' s' hrun
  | error e₁ s₁ =>
    rw [hr] at hrun
    cases hrun
    exact hx s _ _ hr

theorem returns_discard {x : EStateM ε σ α} (hx : Returns x) :
    Returns (discard x : EStateM ε σ PUnit) := returns_bind hx (fun _ => returns_pure _)

theorem after_discard (x : EStateM ε σ α) (s : σ) : after (discard x) s = after x s := by
  change final ((x >>= fun _ => pure PUnit.unit : EStateM ε σ PUnit).run s) = final (x.run s)
  rw [EStateM.run_bind]
  cases x.run s <;> rfl

/-- What follows a method that returns starts in the store it left. -/
theorem Returns.run_seq {x : EStateM ε σ α} (hx : Returns x) (y : EStateM ε σ β) (s : σ) :
    (x >>= fun _ => y).run s = y.run (after x s) := by
  obtain ⟨a, s₁, h⟩ := hx s
  rw [EStateM.run_bind, h, after_of_run h]

theorem after_seq {x : EStateM ε σ α} (hx : Returns x) (y : EStateM ε σ β) (s : σ) :
    after (x >>= fun _ => y) s = after y (after x s) :=
  congrArg final (hx.run_seq y s)

/-! ## Relations kept by every run -/

/-- Every run of `x` relates its first store to its last. -/
def Keeps (R : σ → σ → Prop) (x : EStateM ε σ α) : Prop := ∀ s, R s (after x s)

theorem Keeps.mono {R S : σ → σ → Prop} {x : EStateM ε σ α} (h : Keeps R x)
    (hRS : ∀ s s', R s s' → S s s') : Keeps S x := fun s => hRS _ _ (h s)

theorem keeps_modify {R : σ → σ → Prop} {f : σ → σ} (h : ∀ s, R s (f s)) :
    Keeps R (modify f : EStateM ε σ PUnit) := h

section Preorder

variable {R : σ → σ → Prop} [IsPreorder σ R]

theorem keeps_pure (a : α) : Keeps R (pure a : EStateM ε σ α) := fun s => refl_of R s

theorem keeps_throw (e : ε) : Keeps R (throw e : EStateM ε σ α) := fun s => refl_of R s

theorem keeps_get : Keeps R (get : EStateM ε σ σ) := fun s => refl_of R s

/-- A relation that the rest of a sequence keeps holds from the end of the first part on. -/
theorem after_bind {x : EStateM ε σ α} {f : α → EStateM ε σ β} (hf : ∀ a, Keeps R (f a))
    (s : σ) : R (after x s) (after (x >>= f) s) := by
  have hx : Ensures x s (fun _ s' => s' = after x s) := rfl
  show Ensures (x >>= f) s (fun _ s' => R (after x s) s')
  apply ensures_bind hx
  · rintro a s' rfl
    exact hf a _
  · rintro e s' rfl
    exact refl_of R _

theorem keeps_bind {x : EStateM ε σ α} {f : α → EStateM ε σ β} (hx : Keeps R x)
    (hf : ∀ a, Keeps R (f a)) : Keeps R (x >>= f) := by
  intro s
  exact trans_of R (hx s) (after_bind hf s)

/-- A relation that the `catch` keeps holds from the end of the `try` block on. -/
theorem after_tryCatch {x : EStateM ε σ α} {h : ε → EStateM ε σ α} (hh : ∀ e, Keeps R (h e))
    (s : σ) : R (after x s) (after (tryCatch x h) s) := by
  have hx : Ensures x s (fun _ s' => s' = after x s) := rfl
  show Ensures (tryCatch x h) s (fun _ s' => R (after x s) s')
  apply ensures_tryCatch hx
  · rintro a s' rfl
    exact refl_of R _
  · rintro e s' rfl
    exact hh e _

theorem keeps_tryCatch {x : EStateM ε σ α} {h : ε → EStateM ε σ α} (hx : Keeps R x)
    (hh : ∀ e, Keeps R (h e)) : Keeps R (tryCatch x h) := by
  intro s
  exact trans_of R (hx s) (after_tryCatch hh s)

/-- A relation that the rest of a `try` block and its `catch` keep relates the store after
the first part to the last store. -/
theorem after_tryCatch_bind {x : EStateM ε σ α} {f : α → EStateM ε σ β}
    {h : ε → EStateM ε σ β} (hf : ∀ a, Keeps R (f a)) (hh : ∀ e, Keeps R (h e)) (s : σ) :
    R (after x s) (after (tryCatch (x >>= f) h) s) := by
  have hx : Ensures (x >>= f) s (fun _ s' => R (after x s) s') := after_bind hf s
  show Ensures (tryCatch (x >>= f) h) s (fun _ s' => R (after x s) s')
  apply ensures_tryCatch hx
  · intro a s' hr
    exact hr
  · intro e s' hr
    exact trans_of R hr (hh e s')

theorem keeps_forM {l : List α} {f : α → EStateM ε σ PUnit} (hf : ∀ a ∈ l, Keeps R (f a)) :
    Keeps R (l.forM f) := by
  induction l with
  | nil => exact keeps_pure _
  | cons a l ih =>
    exact keeps_bind (hf a List.mem_cons_self)
      (fun _ => ih (fun b hb => hf b (List.mem_cons_of_mem _ hb)))

theorem keeps_mapM {l : List α} {f : α → EStateM ε σ β} (hf : ∀ a ∈ l, Keeps R (f a)) :
    Keeps R (l.mapM f) := by
  induction l with
  | nil => exact keeps_pure _
  | cons a l ih =>
    rw [List.mapM_cons]
    exact keeps_bind (hf a List.mem_cons_self) (fun _ =>
      keeps_bind (ih (fun b hb => hf b (List.mem_cons_of_mem _ hb))) (fun _ => keeps_pure _))

end Preorder

theorem after_get_bind {f : σ → EStateM ε σ α} (s : σ) : after (get >>= f) s = after (f s) s :=
  rfl

theorem keeps_get_bind {R : σ → σ → Prop} {f : σ → EStateM ε σ α}
    (h : ∀ s, R s (after (f s) s)) : Keeps R (get >>= f) := h

/-- `R` from the stores that satisfy the invariant `V`, which holds at the end again. -/
def On (V : σ → Prop) (R : σ → σ → Prop) (s s' : σ) : Prop := V s → R s s' ∧ V s'

instance (V : σ → Prop) (R : σ → σ → Prop) [IsPreorder σ R] : IsPreorder σ (On V R) where
  refl s h := ⟨refl_of R s, h⟩
  trans _ _ _ h₁ h₂ h := by
    obtain ⟨hr₁, hv₁⟩ := h₁ h
    obtain ⟨hr₂, hv₂⟩ := h₂ hv₁
    exact ⟨trans_of R hr₁ hr₂, hv₂⟩

theorem Keeps.on {V : σ → Prop} {R : σ → σ → Prop} {x : EStateM ε σ α}
    (hV : ∀ s s', V s → R s s' → V s') (h : Keeps R x) : Keeps (On V R) x :=
  fun s hs => ⟨h s, hV s _ hs (h s)⟩

/-- A run from a stronger invariant that the relation preserves as well. -/
theorem Keeps.strengthen {V W : σ → Prop} {R : σ → σ → Prop} {x : EStateM ε σ α}
    (h : Keeps (On V R) x) (hVW : ∀ s, W s → V s) (hW : ∀ s s', W s → R s s' → W s') :
    Keeps (On W R) x := by
  intro s hs
  have hr := (h s (hVW s hs)).1
  exact ⟨hr, hW s _ hs hr⟩

/-- The invariant `V` holds at the end when it holds at the start. -/
def Preserves (V : σ → Prop) (s s' : σ) : Prop := V s → V s'

instance (V : σ → Prop) : IsPreorder σ (Preserves V) where
  refl _ := id
  trans _ _ _ h₁ h₂ := h₂ ∘ h₁

/-- The component `f` of the store is the same at both ends. -/
def Same (f : σ → τ) (s s' : σ) : Prop := f s' = f s

instance (f : σ → τ) : IsPreorder σ (Same f) where
  refl _ := rfl
  trans _ _ _ h₁ h₂ := Eq.trans h₂ h₁

/-! ## Two methods that run in step -/

/-- From stores related by `R`, the two methods end alike, in stores related by `S`, unless the
first one ends in a bad store. A bad store stays bad. -/
structure InStepUnless (bad : σ → Prop) (R S : σ → τ → Prop) (x : EStateM ε σ α)
    (y : EStateM ε τ α) : Prop where
  stays : Keeps (Preserves bad) x
  step : ∀ s t, R s t → bad (after x s) ∨
    (outcome (x.run s) = outcome (y.run t) ∧ S (after x s) (after y t))

/-- From stores related by `R`, the two methods end alike, in stores related by `R`. -/
abbrev InStep (R : σ → τ → Prop) (x : EStateM ε σ α) (y : EStateM ε τ α) : Prop :=
  InStepUnless (fun _ => False) R R x y

theorem InStep.ends {R : σ → τ → Prop} {x : EStateM ε σ α} {y : EStateM ε τ α}
    (h : InStep R x y) {s : σ} {t : τ} (hr : R s t) :
    outcome (x.run s) = outcome (y.run t) ∧ R (after x s) (after y t) :=
  (h.step s t hr).resolve_left id

section InStep

variable {bad : σ → Prop} {R S T : σ → τ → Prop}

theorem inStep_pure (a : α) :
    InStepUnless bad R R (pure a : EStateM ε σ α) (pure a : EStateM ε τ α) :=
  ⟨keeps_pure a, fun _ _ h => Or.inr ⟨rfl, h⟩⟩

theorem inStep_throw (e : ε) :
    InStepUnless bad R R (throw e : EStateM ε σ α) (throw e : EStateM ε τ α) :=
  ⟨keeps_throw e, fun _ _ h => Or.inr ⟨rfl, h⟩⟩

theorem inStep_modify {f : σ → σ} {g : τ → τ} (hbad : ∀ s, bad s → bad (f s))
    (h : ∀ s t, R s t → S (f s) (g t)) :
    InStepUnless bad R S (modify f : EStateM ε σ PUnit) (modify g : EStateM ε τ PUnit) :=
  ⟨keeps_modify hbad, fun s t hr => Or.inr ⟨rfl, h s t hr⟩⟩

theorem InStepUnless.weaken {x : EStateM ε σ α} {y : EStateM ε τ α}
    (h : InStepUnless bad S T x y) (hRS : ∀ s t, R s t → S s t) : InStepUnless bad R T x y :=
  ⟨h.stays, fun s t hr => h.step s t (hRS s t hr)⟩

/-- An exception leaves out the second part, so what holds between the parts must be enough at the
end. -/
theorem inStep_bind_of {x : EStateM ε σ α} {y : EStateM ε τ α} {f : α → EStateM ε σ β}
    {g : α → EStateM ε τ β} (hST : ∀ s t, S s t → T s t) (hx : InStepUnless bad R S x y)
    (hf : ∀ a, InStepUnless bad S T (f a) (g a)) :
    InStepUnless bad R T (x >>= f) (y >>= g) := by
  have hstays : ∀ a, Keeps (Preserves bad) (f a) := fun a => (hf a).stays
  refine ⟨keeps_bind hx.stays hstays, fun s t hr => ?_⟩
  rcases hx.step s t hr with hbad | ⟨ho, hr'⟩
  · exact Or.inl (after_bind hstays s hbad)
  · unfold after at hr' ⊢
    rw [EStateM.run_bind, EStateM.run_bind]
    cases hxs : x.run s <;> cases hyt : y.run t <;> simp only [hxs, hyt, outcome_ok,
      outcome_error, final_ok, final_error, Except.ok.injEq, Except.error.injEq,
      reduceCtorEq] at ho hr'
    · subst ho
      exact (hf _).step _ _ hr'
    · subst ho
      exact Or.inr ⟨rfl, hST _ _ hr'⟩

theorem inStep_bind {x : EStateM ε σ α} {y : EStateM ε τ α} {f : α → EStateM ε σ β}
    {g : α → EStateM ε τ β} (hx : InStepUnless bad R S x y)
    (hf : ∀ a, InStepUnless bad S S (f a) (g a)) :
    InStepUnless bad R S (x >>= f) (y >>= g) := inStep_bind_of (fun _ _ h => h) hx hf

theorem inStep_tryCatch {x : EStateM ε σ α} {y : EStateM ε τ α} {h : ε → EStateM ε σ α}
    {k : ε → EStateM ε τ α} (hx : InStepUnless bad R S x y)
    (hh : ∀ e, InStepUnless bad S S (h e) (k e)) :
    InStepUnless bad R S (tryCatch x h) (tryCatch y k) := by
  have hstays : ∀ e, Keeps (Preserves bad) (h e) := fun e => (hh e).stays
  refine ⟨keeps_tryCatch hx.stays hstays, fun s t hr => ?_⟩
  rcases hx.step s t hr with hbad | ⟨ho, hr'⟩
  · exact Or.inl (after_tryCatch hstays s hbad)
  · unfold after at hr' ⊢
    rw [run_tryCatch, run_tryCatch]
    cases hxs : x.run s <;> cases hyt : y.run t <;> simp only [hxs, hyt, outcome_ok,
      outcome_error, final_ok, final_error, Except.ok.injEq, Except.error.injEq,
      reduceCtorEq] at ho hr'
    · subst ho
      exact Or.inr ⟨rfl, hr'⟩
    · subst ho
      exact (hh _).step _ _ hr'

end InStep

/-! ## Methods on a component of the store -/

/-- Run `x` on the component `get s` of the store `s`, written back by `set`. -/
def zoom (get : σ → τ) (set : τ → σ → σ) (x : EStateM ε τ α) : EStateM ε σ α := fun s =>
  match x.run (get s) with
  | .ok a t => .ok a (set t s)
  | .error e t => .error e (set t s)

theorem run_zoom (get : σ → τ) (set : τ → σ → σ) (x : EStateM ε τ α) (s : σ) :
    (zoom get set x).run s =
      match x.run (get s) with
      | .ok a t => .ok a (set t s)
      | .error e t => .error e (set t s) := rfl

theorem after_zoom (get : σ → τ) (set : τ → σ → σ) (x : EStateM ε τ α) (s : σ) :
    after (zoom get set x) s = set (after x (get s)) s := by
  unfold after
  rw [run_zoom]
  cases x.run (get s) <;> rfl

/-! ## Lists of results -/

/-- A `mapM` of functions that may fail: it returns values that satisfy `Q` exactly when every
element does. -/
theorem mapM_eq_ok_forall {f : α → Except ε β} {Q : β → Prop} (l : List α) :
    (∃ r, l.mapM f = .ok r ∧ ∀ b ∈ r, Q b) ↔ ∀ a ∈ l, ∃ b, f a = .ok b ∧ Q b := by
  induction l with
  | nil => exact ⟨fun _ a ha => absurd ha List.not_mem_nil, fun _ => ⟨[], rfl, by simp⟩⟩
  | cons a l ih =>
    rw [List.forall_mem_cons, ← ih, List.mapM_cons]
    cases ha : f a with
    | error e =>
      constructor
      · rintro ⟨_, ⟨⟩, _⟩
      · rintro ⟨⟨_, ⟨⟩, _⟩, _⟩
    | ok b =>
      cases hl : l.mapM f with
      | error e =>
        constructor
        · rintro ⟨_, ⟨⟩, _⟩
        · rintro ⟨_, _, ⟨⟩, _⟩
      | ok r =>
        constructor
        · rintro ⟨_, ⟨⟩, hQ⟩
          rw [List.forall_mem_cons] at hQ
          exact ⟨⟨b, rfl, hQ.1⟩, r, rfl, hQ.2⟩
        · rintro ⟨⟨_, ⟨⟩, hb⟩, _, ⟨⟩, hr⟩
          exact ⟨b :: r, rfl, List.forall_mem_cons.mpr ⟨hb, hr⟩⟩

end LuaAddons.Exec
