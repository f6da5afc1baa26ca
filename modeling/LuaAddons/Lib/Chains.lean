import Mathlib.Data.Finset.Card
import Mathlib.Data.Finset.Range
import Mathlib.Data.Nat.Find
import Mathlib.Logic.Function.Basic
import Mathlib.Logic.Relation

/-!
# Chains of linked nodes

The nodes of a store are linked by `next`, as a map from nodes to nodes. A node is inserted
behind another one (`insertAfter`), or takes the place of another one in its chain (`replace`).
Both keep that chains do not run together and that they end, and whatever was reached from a
node is still reached from it.

`find` walks along a chain for a number of steps. As many steps as there are nodes are enough
(`find_isSome`).
-/

namespace LuaAddons.Chains

open Relation

variable {α : Type} [DecidableEq α] {next : α → Option α} {i j k m n p : α}

def Reaches (next : α → Option α) : α → α → Prop := ReflTransGen (fun i j => next i = some j)

/-- No two nodes have the same successor. -/
def Apart (next : α → Option α) : Prop :=
  ∀ i j k, next i = some k → next j = some k → i = j

/-- Every chain ends. -/
def Ends (next : α → Option α) : Prop := ∀ i, ∃ j, Reaches next i j ∧ next j = none

def NoPredecessor (next : α → Option α) (n : α) : Prop := ∀ i, next i ≠ some n

omit [DecidableEq α] in
theorem Reaches.ne_of_noPredecessor (h : Reaches next i j) (hn : NoPredecessor next n)
    (hi : i ≠ n) : j ≠ n := by
  cases h with
  | refl => exact hi
  | tail _ hstep =>
    rintro rfl
    exact hn _ hstep

omit [DecidableEq α] in
/-- A chain that ends has no loop. -/
theorem Ends.next_ne_self (h : Ends next) (i : α) : next i ≠ some i := by
  intro hloop
  obtain ⟨j, hj, hnone⟩ := h i
  have hstay : j = i := by
    clear hnone
    induction hj with
    | refl => rfl
    | tail _ hstep ih =>
      rw [ih, hloop] at hstep
      exact (Option.some.inj hstep).symm
  rw [hstay, hloop] at hnone
  cases hnone

/-! ## Inserting a node -/

/-- The node `n` is inserted behind `p`. -/
def insertAfter (next : α → Option α) (p n : α) : α → Option α :=
  Function.update (Function.update next n (next p)) p (some n)

theorem insertAfter_self : insertAfter next p n p = some n := Function.update_self ..

theorem insertAfter_new (hnp : n ≠ p) : insertAfter next p n n = next p := by
  rw [insertAfter, Function.update_of_ne hnp, Function.update_self]

theorem insertAfter_of_ne (hp : i ≠ p) (hn : i ≠ n) : insertAfter next p n i = next i := by
  rw [insertAfter, Function.update_of_ne hp, Function.update_of_ne hn]

theorem insertAfter_eq_some (h : insertAfter next p n i = some k) :
    (i = p ∧ k = n) ∨ (i = n ∧ next p = some k) ∨ (i ≠ p ∧ i ≠ n ∧ next i = some k) := by
  by_cases hip : i = p
  · subst hip
    rw [insertAfter_self] at h
    exact .inl ⟨rfl, (Option.some.inj h).symm⟩
  by_cases hin : i = n
  · subst hin
    rw [insertAfter_new hip] at h
    exact .inr (.inl ⟨rfl, h⟩)
  · rw [insertAfter_of_ne hip hin] at h
    exact .inr (.inr ⟨hip, hin, h⟩)

section InsertAfter

variable (hn : NoPredecessor next n) (hnp : n ≠ p)

include hn hnp

theorem Reaches.insertAfter (h : Reaches next i j) (hi : i ≠ n) :
    Reaches (insertAfter next p n) i j := by
  induction h with
  | refl => exact .refl
  | @tail k l hk hstep ih =>
    by_cases hkp : k = p
    · subst hkp
      refine (ih.tail insertAfter_self).tail ?_
      rw [insertAfter_new hnp]
      exact hstep
    · refine ih.tail ?_
      rw [insertAfter_of_ne hkp (Reaches.ne_of_noPredecessor hk hn hi)]
      exact hstep

theorem Reaches.insertAfter_new (h : Reaches next i p) (hi : i ≠ n) :
    Reaches (Chains.insertAfter next p n) i n :=
  (Reaches.insertAfter hn hnp h hi).tail insertAfter_self

omit hnp in
theorem apart_insertAfter (h : Apart next) : Apart (insertAfter next p n) := by
  intro i j k hi hj
  rcases insertAfter_eq_some hi with ⟨hip, hk⟩ | ⟨hin, hpk⟩ | ⟨hip, hin, hik⟩ <;>
    rcases insertAfter_eq_some hj with ⟨hjp, hk'⟩ | ⟨hjn, hpk'⟩ | ⟨hjp, hjn, hjk⟩
  · exact hip.trans hjp.symm
  · exact absurd (hk ▸ hpk') (hn p)
  · exact absurd (hk ▸ hjk) (hn j)
  · exact absurd (hk' ▸ hpk) (hn p)
  · exact hin.trans hjn.symm
  · exact absurd (h j p k hjk hpk) hjp
  · exact absurd (hk' ▸ hik) (hn i)
  · exact absurd (h i p k hik hpk') hip
  · exact h i j k hik hjk

theorem ends_insertAfter (h : Ends next) : Ends (insertAfter next p n) := by
  have hold (i : α) (hi : i ≠ n) :
      ∃ j, Reaches (insertAfter next p n) i j ∧ insertAfter next p n j = none := by
    obtain ⟨j, hj, hnone⟩ := h i
    by_cases hjp : j = p
    · subst hjp
      refine ⟨n, Reaches.insertAfter_new hn hnp hj hi, ?_⟩
      rw [Chains.insertAfter_new hnp]
      exact hnone
    · refine ⟨j, Reaches.insertAfter hn hnp hj hi, ?_⟩
      rw [insertAfter_of_ne hjp (Reaches.ne_of_noPredecessor hj hn hi)]
      exact hnone
  intro i
  by_cases hi : i = n
  · subst hi
    have hnext : Chains.insertAfter next p i i = next p := Chains.insertAfter_new hnp
    cases hp : next p with
    | none => exact ⟨i, .refl, hnext.trans hp⟩
    | some q =>
      have hq : q ≠ i := by
        rintro rfl
        exact hn _ hp
      obtain ⟨j, hj, hnone⟩ := hold q hq
      exact ⟨j, .head (hnext.trans hp) hj, hnone⟩
  · exact hold i hi

end InsertAfter

/-! ## Replacing a node -/

/-- The node `n` takes the place of `m`, whose predecessor is `p`. -/
def replace (next : α → Option α) (p m n : α) : α → Option α :=
  Function.update (Function.update (Function.update next p (some n)) n (next m)) m none

theorem replace_old : replace next p m n m = none := Function.update_self ..

theorem replace_new (hmn : n ≠ m) : replace next p m n n = next m := by
  rw [replace, Function.update_of_ne hmn, Function.update_self]

theorem replace_predecessor (hpm : p ≠ m) (hpn : p ≠ n) : replace next p m n p = some n := by
  rw [replace, Function.update_of_ne hpm, Function.update_of_ne hpn, Function.update_self]

theorem replace_of_ne (hp : i ≠ p) (hm : i ≠ m) (hn : i ≠ n) :
    replace next p m n i = next i := by
  rw [replace, Function.update_of_ne hm, Function.update_of_ne hn, Function.update_of_ne hp]

/-- What `replace` asks for: `m` has the predecessor `p`, no chain goes through `n`. -/
structure Replaceable (next : α → Option α) (p m n : α) : Prop where
  predecessor : next p = some m
  apart : Apart next
  noPredecessor : NoPredecessor next n
  ne_old : n ≠ m
  ne_predecessor : p ≠ n
  not_loop : p ≠ m

section Replace

variable (h : Replaceable next p m n)

include h

omit [DecidableEq α] in
theorem Replaceable.next_ne (hi : i ≠ p) : next i ≠ some m :=
  fun him => hi (h.apart _ _ _ him h.predecessor)

/-- A node reached before is still reached; in place of `m` it is `n`. -/
theorem Reaches.replace (hreach : Reaches next i j) (him : i ≠ m) (hin : i ≠ n) :
    Reaches (replace next p m n) i (if j = m then n else j) := by
  induction hreach with
  | refl =>
    rw [if_neg him]
    exact .refl
  | @tail k l hk hstep ih =>
    by_cases hkm : k = m
    · subst hkm
      have hl : l ≠ k := by
        rintro rfl
        exact h.next_ne h.not_loop.symm hstep
      rw [if_pos rfl] at ih
      rw [if_neg hl]
      refine ih.tail ?_
      rw [replace_new h.ne_old]
      exact hstep
    · rw [if_neg hkm] at ih
      by_cases hkp : k = p
      · subst hkp
        have hl : l = m := Option.some.inj (hstep.symm.trans h.predecessor)
        rw [if_pos hl]
        exact ih.tail (replace_predecessor h.not_loop h.ne_predecessor)
      · have hl : l ≠ m := by
          rintro rfl
          exact h.next_ne hkp hstep
        rw [if_neg hl]
        refine ih.tail ?_
        rw [replace_of_ne hkp hkm (Reaches.ne_of_noPredecessor hk h.noPredecessor hin)]
        exact hstep

theorem replace_eq_some (hik : Chains.replace next p m n i = some k) :
    (i = p ∧ k = n) ∨ (i = n ∧ next m = some k) ∨ (i ≠ p ∧ i ≠ m ∧ next i = some k) := by
  by_cases him : i = m
  · subst him
    rw [replace_old] at hik
    cases hik
  by_cases hin : i = n
  · subst hin
    rw [replace_new h.ne_old] at hik
    exact .inr (.inl ⟨rfl, hik⟩)
  by_cases hip : i = p
  · subst hip
    rw [replace_predecessor him hin] at hik
    exact .inl ⟨rfl, (Option.some.inj hik).symm⟩
  · rw [replace_of_ne hip him hin] at hik
    exact .inr (.inr ⟨hip, him, hik⟩)

theorem apart_replace : Apart (replace next p m n) := by
  intro i j k hi hj
  rcases replace_eq_some h hi with ⟨hip, hk⟩ | ⟨hin, hmk⟩ | ⟨hip, him, hik⟩ <;>
    rcases replace_eq_some h hj with ⟨hjp, hk'⟩ | ⟨hjn, hmk'⟩ | ⟨hjp, hjm, hjk⟩
  · exact hip.trans hjp.symm
  · exact absurd (hk ▸ hmk') (h.noPredecessor m)
  · exact absurd (hk ▸ hjk) (h.noPredecessor j)
  · exact absurd (hk' ▸ hmk) (h.noPredecessor m)
  · exact hin.trans hjn.symm
  · exact absurd (h.apart j m k hjk hmk) hjm
  · exact absurd (hk' ▸ hik) (h.noPredecessor i)
  · exact absurd (h.apart i m k hik hmk') him
  · exact h.apart i j k hik hjk

theorem ends_replace (hends : Ends next) : Ends (replace next p m n) := by
  have hold (i : α) (him : i ≠ m) (hin : i ≠ n) :
      ∃ j, Reaches (replace next p m n) i j ∧ replace next p m n j = none := by
    obtain ⟨j, hj, hnone⟩ := hends i
    refine ⟨_, Reaches.replace h hj him hin, ?_⟩
    by_cases hjm : j = m
    · rw [if_pos hjm, replace_new h.ne_old, ← hjm]
      exact hnone
    · have hjp : j ≠ p := by
        rintro rfl
        rw [h.predecessor] at hnone
        cases hnone
      rw [if_neg hjm,
        replace_of_ne hjp hjm (Reaches.ne_of_noPredecessor hj h.noPredecessor hin)]
      exact hnone
  intro i
  by_cases him : i = m
  · subst him
    exact ⟨i, .refl, replace_old⟩
  by_cases hin : i = n
  · subst hin
    have hnext : Chains.replace next p m i i = next m := replace_new h.ne_old
    cases hm : next m with
    | none => exact ⟨i, .refl, hnext.trans hm⟩
    | some q =>
      have hqm : q ≠ m := by
        rintro rfl
        exact h.next_ne h.not_loop.symm hm
      have hqn : q ≠ i := by
        rintro rfl
        exact h.noPredecessor _ hm
      obtain ⟨j, hj, hnone⟩ := hold q hqm hqn
      exact ⟨j, .head (hnext.trans hm) hj, hnone⟩
  · exact hold i him hin

end Replace

/-! ## Walking along a chain -/

section Find

omit [DecidableEq α]

variable {q : α → Bool} {fuel : Nat}

/-- The first node with `q` among the first `fuel` nodes from `i` on. -/
def find (next : α → Option α) (q : α → Bool) : Nat → α → Option α
  | 0, _ => none
  | fuel + 1, i => if q i then some i else (next i).bind (find next q fuel)

theorem find_succ_of_not (hi : q i = false) :
    find next q (fuel + 1) i = (next i).bind (find next q fuel) := by
  rw [find, hi, if_neg Bool.false_ne_true]

theorem find_eq_some (h : find next q fuel i = some j) : q j = true ∧ Reaches next i j := by
  induction fuel generalizing i with
  | zero => cases h
  | succ fuel ih =>
    cases hi : q i with
    | true =>
      rw [find, if_pos hi] at h
      cases h
      exact ⟨hi, .refl⟩
    | false =>
      rw [find_succ_of_not hi] at h
      obtain ⟨k, hk, hfind⟩ := Option.bind_eq_some_iff.mp h
      obtain ⟨hq, hreach⟩ := ih hfind
      exact ⟨hq, .head hk hreach⟩

theorem find_succ (h : find next q fuel i = some j) : find next q (fuel + 1) i = some j := by
  induction fuel generalizing i with
  | zero => cases h
  | succ fuel ih =>
    cases hi : q i with
    | true =>
      rw [find, if_pos hi] at h ⊢
      exact h
    | false =>
      rw [find_succ_of_not hi] at h ⊢
      obtain ⟨k, hk, hfind⟩ := Option.bind_eq_some_iff.mp h
      rw [hk]
      exact ih hfind

theorem find_of_le {more : Nat} (hle : fuel ≤ more) (h : find next q fuel i = some j) :
    find next q more i = some j := by
  induction hle with
  | refl => exact h
  | step _ ih => exact find_succ ih

/-- The walk from `i` takes exactly `fuel` nodes. -/
def Takes (next : α → Option α) (q : α → Bool) (fuel : Nat) (i : α) : Prop :=
  (find next q fuel i).isSome ∧ ∀ less < fuel, find next q less i = none

theorem Takes.unique {fuel' : Nat} (h : Takes next q fuel i) (h' : Takes next q fuel' i) :
    fuel = fuel' := by
  rcases Nat.lt_trichotomy fuel fuel' with hlt | heq | hlt
  · have hsome := h.1
    rw [h'.2 fuel hlt] at hsome
    cases hsome
  · exact heq
  · have hsome := h'.1
    rw [h.2 fuel' hlt] at hsome
    cases hsome

theorem exists_takes (h : Reaches next i j) (hj : q j = true) : ∃ fuel, Takes next q fuel i := by
  classical
  have hfound : ∃ fuel, (find next q fuel i).isSome := by
    induction h using ReflTransGen.head_induction_on with
    | refl => exact ⟨1, by rw [find, if_pos hj]; rfl⟩
    | @head i k hstep _ ih =>
      obtain ⟨fuel, hfuel⟩ := ih
      refine ⟨fuel + 1, ?_⟩
      cases hi : q i with
      | true => rw [find, if_pos hi]; rfl
      | false =>
        rw [find_succ_of_not hi, hstep]
        exact hfuel
  refine ⟨Nat.find hfound, Nat.find_spec hfound, fun less hless => ?_⟩
  exact Option.not_isSome_iff_eq_none.mp (Nat.find_min hfound hless)

/-- The walk passes a node for each smaller number of steps. -/
theorem Takes.passes (h : Takes next q fuel i) {less : Nat} (hpos : 0 < less)
    (hless : less ≤ fuel) : ∃ k, Reaches next i k ∧ Takes next q less k := by
  induction fuel generalizing i with
  | zero => omega
  | succ fuel ih =>
    by_cases hlast : less = fuel + 1
    · exact ⟨i, .refl, hlast ▸ h⟩
    have hi : q i = false := by
      have hnone := h.2 1 (by omega)
      cases hi : q i with
      | true => rw [find, if_pos hi] at hnone; cases hnone
      | false => rfl
    have hsome := h.1
    rw [find_succ_of_not hi] at hsome
    obtain ⟨x, hx⟩ := Option.isSome_iff_exists.mp hsome
    obtain ⟨k, hk, hfind⟩ := Option.bind_eq_some_iff.mp hx
    have htakes : Takes next q fuel k := by
      refine ⟨Option.isSome_iff_exists.mpr ⟨x, hfind⟩, fun fewer hfewer => ?_⟩
      have hnone := h.2 (fewer + 1) (by omega)
      rw [find_succ_of_not hi, hk] at hnone
      exact hnone
    obtain ⟨m, hm, hmt⟩ := ih htakes (by omega)
    exact ⟨m, .head hk hm, hmt⟩

/-- As many steps as there are nodes in the chain find a node that is there. -/
theorem find_isSome {s : Finset α} (hs : ∀ k, Reaches next i k → k ∈ s) (h : Reaches next i j)
    (hj : q j = true) (hfuel : s.card ≤ fuel) : (find next q fuel i).isSome := by
  obtain ⟨steps, hsteps⟩ := exists_takes h hj
  have hle : steps ≤ s.card := by
    have : Nonempty α := ⟨i⟩
    choose! node hreach htakes using fun (less : Nat) (hpos : 0 < less) (hless : less ≤ steps) =>
      hsteps.passes hpos hless
    have hcard : (Finset.range steps).card ≤ s.card := by
      refine Finset.card_le_card_of_injOn (fun less => node (less + 1)) ?_ ?_
      · intro less hless
        have hlt := Finset.mem_range.mp hless
        exact hs _ (hreach _ (by omega) (by omega))
      · intro a ha b hb hab
        have ha' := Finset.mem_range.mp ha
        have hb' := Finset.mem_range.mp hb
        have hta := htakes (a + 1) (by omega) (by omega)
        have htb := htakes (b + 1) (by omega) (by omega)
        rw [show node (a + 1) = node (b + 1) from hab] at hta
        have heq := hta.unique htb
        omega
    rwa [Finset.card_range] at hcard
  obtain ⟨x, hx⟩ := Option.isSome_iff_exists.mp hsteps.1
  exact Option.isSome_iff_exists.mpr ⟨x, find_of_le (hle.trans hfuel) hx⟩

end Find

end LuaAddons.Chains
