import Mathlib.Order.Interval.Finset.Nat

/-!
# Tables that hand out references

A table stores values under references it chooses itself. A released reference goes to the
front of a list and is the next one to be handed out; the table grows when the list is empty.
The live references are those handed out and not released.

`Valid`: the list of released references has no duplicates and only references of the table.
It is kept as long as only live references are released (`Reachable.valid`).
-/

namespace LuaAddons

structure RefTable (α : Type) where
  /-- The references are the numbers from 1 to the length. -/
  length : Nat
  free : List Nat
  value : Nat → α

namespace RefTable

variable {α : Type} {t : RefTable α} {r : Nat}

/-- Store a value and hand out its reference. -/
def ref (t : RefTable α) (v : α) : Nat × RefTable α :=
  match t.free with
  | [] => (t.length + 1,
      { t with length := t.length + 1, value := Function.update t.value (t.length + 1) v })
  | r :: free => (r, { t with free := free, value := Function.update t.value r v })

/-- Release a reference. -/
def unref (t : RefTable α) (r : Nat) : RefTable α := { t with free := r :: t.free }

def live (t : RefTable α) : Finset Nat := (Finset.Icc 1 t.length).filter (· ∉ t.free)

structure Valid (t : RefTable α) : Prop where
  nodup : t.free.Nodup
  mem : ∀ r ∈ t.free, r ∈ Finset.Icc 1 t.length

theorem mem_live : r ∈ t.live ↔ 1 ≤ r ∧ r ≤ t.length ∧ r ∉ t.free := by
  simp [live, and_assoc]

/-- The value is stored under the reference that was handed out. -/
theorem value_ref (t : RefTable α) (v : α) : (t.ref v).2.value (t.ref v).1 = v := by
  rw [ref]
  split <;> exact Function.update_self ..

theorem ref_not_mem_live (t : RefTable α) (v : α) : (t.ref v).1 ∉ t.live := by
  rw [mem_live, ref]
  cases hfree : t.free with
  | nil =>
    show ¬ (1 ≤ t.length + 1 ∧ t.length + 1 ≤ t.length ∧ _)
    omega
  | cons r free => simp

theorem valid_ref (h : t.Valid) (v : α) : (t.ref v).2.Valid := by
  rw [ref]
  cases hfree : t.free with
  | nil => exact ⟨List.nodup_nil, by simp⟩
  | cons r free =>
    have hnodup := h.nodup
    rw [hfree] at hnodup
    refine ⟨hnodup.of_cons, fun u hu => h.mem u ?_⟩
    rw [hfree]
    exact List.mem_cons_of_mem _ hu

/-- A stored value has one new live reference. -/
theorem live_ref (h : t.Valid) (v : α) : (t.ref v).2.live = insert (t.ref v).1 t.live := by
  ext u
  rw [Finset.mem_insert, mem_live, mem_live, ref]
  cases hfree : t.free with
  | nil =>
    simp only [List.not_mem_nil, not_false_eq_true, and_true]
    omega
  | cons r free =>
    have hr := h.mem r (by rw [hfree]; exact List.mem_cons_self)
    have hnodup := h.nodup
    rw [hfree, List.nodup_cons] at hnodup
    rw [Finset.mem_Icc] at hr
    simp only [List.mem_cons]
    by_cases hu : u = r
    · subst hu
      simp [hr, hnodup.1]
    · simp [hu]

theorem valid_unref (h : t.Valid) (hr : r ∈ t.live) : (t.unref r).Valid := by
  rw [mem_live] at hr
  refine ⟨List.nodup_cons.mpr ⟨hr.2.2, h.nodup⟩, fun u hu => ?_⟩
  rcases List.mem_cons.mp hu with rfl | hu
  · exact Finset.mem_Icc.mpr ⟨hr.1, hr.2.1⟩
  · exact h.mem u hu

theorem live_unref (t : RefTable α) (r : Nat) : (t.unref r).live = t.live.erase r := by
  ext u
  rw [Finset.mem_erase, mem_live, mem_live]
  simp only [unref, List.mem_cons, not_or]
  tauto

/-- The tables that come about from `start` when only live references are released. -/
inductive Reachable (start : RefTable α) : RefTable α → Prop
  | start : Reachable start start
  | ref {t : RefTable α} (v : α) : Reachable start t → Reachable start (t.ref v).2
  | unref {t : RefTable α} {r : Nat} : Reachable start t → r ∈ t.live →
      Reachable start (t.unref r)

theorem Reachable.valid {start : RefTable α} (hstart : start.Valid) (h : Reachable start t) :
    t.Valid := by
  induction h with
  | start => exact hstart
  | ref v _ ih => exact valid_ref ih v
  | unref _ hr ih => exact valid_unref ih hr

end RefTable

end LuaAddons
