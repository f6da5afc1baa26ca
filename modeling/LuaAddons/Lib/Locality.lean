import LuaAddons.Lib.Exec
import Mathlib.Order.Lattice

/-!
# Methods that work on one component each

A store has a component `comp s i` for every index, a value `acc s` that methods only add to, and
`rest s`, which they leave alone. A method that is `Local` to an index changes its component by
what it finds there. So a loop of such methods gives every component what its own method gives it
from the start, and `acc` the least upper bound of all parts (`run_forM_local`), in any order.
-/

namespace LuaAddons.Exec

variable {ε σ ι τ μ ρ : Type} [SemilatticeSup μ]

/-- The method works on the component `i`, and adds `part` of it to `acc` when it returns. -/
structure Local (comp : σ → ι → τ) (acc : σ → μ) (rest : σ → ρ) (part : ι → τ → μ) (i : ι)
    (x : EStateM ε σ PUnit) : Prop where
  rest : ∀ s, rest (after x s) = rest s
  other : ∀ s, ∀ j ≠ i, comp (after x s) j = comp s j
  own : ∀ s t, comp s i = comp t i →
    outcome (x.run s) = outcome (x.run t) ∧ comp (after x s) i = comp (after x t) i
  acc : ∀ s s', x.run s = .ok ⟨⟩ s' → acc s' = acc s ⊔ part i (comp s i)

variable {comp : σ → ι → τ} {acc : σ → μ} {rest : σ → ρ} {part : ι → τ → μ}
  {x : ι → EStateM ε σ PUnit}

theorem outcome_eq_ok {α : Type} {r : EStateM.Result ε σ α} {a : α} (h : outcome r = .ok a) :
    r = .ok a (final r) := by
  cases r with
  | ok b s => rw [outcome_ok, Except.ok.injEq] at h; rw [h]; rfl
  | error e s => cases h

theorem run_forM_local [DecidableEq ι] :
    ∀ (l : List ι) (s : σ), l.Nodup → (∀ i ∈ l, Local comp acc rest part i (x i)) →
      (∀ i ∈ l, outcome ((x i).run s) = .ok ⟨⟩) →
      ∃ s', (l.forM x).run s = .ok ⟨⟩ s' ∧ rest s' = rest s ∧
        (∀ j, comp s' j = if j ∈ l then comp (after (x j) s) j else comp s j) ∧
        ∀ b, acc s' ≤ b ↔ acc s ≤ b ∧ ∀ i ∈ l, part i (comp s i) ≤ b
  | [], s, _, _, _ => ⟨s, rfl, rfl, by simp, by simp⟩
  | i :: l, s, hnodup, hlocal, hok => by
    obtain ⟨hi, hnodup⟩ := List.nodup_cons.mp hnodup
    obtain ⟨hlocali, hlocal⟩ := List.forall_mem_cons.mp hlocal
    obtain ⟨hoki, hok⟩ := List.forall_mem_cons.mp hok
    have hrun : (x i).run s = .ok ⟨⟩ (after (x i) s) := outcome_eq_ok hoki
    have hsame : ∀ j ∈ l, comp (after (x i) s) j = comp s j := by
      intro j hj
      refine hlocali.other s j ?_
      rintro rfl
      exact hi hj
    obtain ⟨s', hrest, hrest', hcomp, hacc⟩ := run_forM_local l (after (x i) s) hnodup hlocal
      (fun j hj => ((hlocal j hj).own _ _ (hsame j hj)).1.trans (hok j hj))
    refine ⟨s', ?_, hrest'.trans (hlocali.rest s), fun j => ?_, fun b => ?_⟩
    · rw [run_forM_cons, hrun]
      exact hrest
    · rw [hcomp j]
      by_cases hj : j ∈ l
      · rw [if_pos hj, if_pos (List.mem_cons_of_mem _ hj)]
        exact ((hlocal j hj).own _ _ (hsame j hj)).2
      · rw [if_neg hj]
        by_cases hji : j = i
        · rw [hji, if_pos List.mem_cons_self]
        · rw [if_neg (by simp [hji, hj]), hlocali.other s j hji]
    · have hparts : (∀ j ∈ l, part j (comp (after (x i) s) j) ≤ b) ↔
          ∀ j ∈ l, part j (comp s j) ≤ b :=
        forall₂_congr (fun j hj => by rw [hsame j hj])
      rw [hacc b, hlocali.acc _ _ hrun, sup_le_iff, hparts, List.forall_mem_cons, and_assoc]

end LuaAddons.Exec
