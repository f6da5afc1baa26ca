import Mathlib.Data.List.Basic

/-!
# Call frames addressed from both ends

The values of one call stand in a list, the oldest first. A signed index names one of them:
a positive index counts from the base of the frame, a negative one from its top. An
operation is `none` where an index names no value of the frame, so an operation that
succeeds never reaches a value below the base.

The lemmas give each operation on a frame that is split where the operation acts; the
lengths of the parts determine the index.
-/

namespace LuaAddons.Frame

variable {α : Type}

/-- The position, from the base, of the value that an index names. -/
def slot (frame : List α) (idx : Int) : Option Nat :=
  if 0 < idx then
    if idx ≤ frame.length then some (idx.toNat - 1) else none
  else if idx < 0 ∧ -idx ≤ frame.length then some (frame.length - (-idx).toNat) else none

/-- The value that an index names. -/
def value? (frame : List α) (idx : Int) : Option α := (slot frame idx).bind (frame[·]?)

/-- Grow the frame with `pad`, or cut it, to the height that an index names. -/
def setTop (pad : α) (frame : List α) (idx : Int) : Option (List α) :=
  if 0 ≤ idx then some (frame.take idx.toNat ++ .replicate (idx.toNat - frame.length) pad)
  else if -(idx + 1) ≤ frame.length then some (frame.take (frame.length - (-(idx + 1)).toNat))
  else none

/-- Drop the last `n` values. -/
def pop (pad : α) (frame : List α) (n : Int) : Option (List α) := setTop pad frame (-n - 1)

/-- Move the last value to the place that an index names and shift up what stands there. -/
def insert (frame : List α) (idx : Int) : Option (List α) :=
  match slot frame idx, frame.getLast? with
  | some p, some v => some (frame.take p ++ v :: (frame.drop p).dropLast)
  | _, _ => none

/-- Take out the value that an index names and shift down what stands above it. -/
def remove (frame : List α) (idx : Int) : Option (List α) := (slot frame idx).map frame.eraseIdx

/-! ## Indices from the top -/

theorem slot_top (xs ys : List α) (v : α) {idx : Int} (h : idx = -(ys.length + 1)) :
    slot (xs ++ v :: ys) idx = some xs.length := by
  have hneg : ¬ 0 < idx := by omega
  have hbound : idx < 0 ∧ -idx ≤ (xs ++ v :: ys).length := by
    rw [List.length_append, List.length_cons]
    omega
  have hpos : (xs ++ v :: ys).length - (-idx).toNat = xs.length := by
    rw [List.length_append, List.length_cons]
    omega
  rw [slot, if_neg hneg, if_pos hbound, hpos]

theorem value?_top (xs ys : List α) (v : α) {idx : Int} (h : idx = -(ys.length + 1)) :
    value? (xs ++ v :: ys) idx = some v := by
  rw [value?, slot_top xs ys v h]
  simp

theorem value?_base (v : α) (ys : List α) : value? (v :: ys) 1 = some v := by
  have hbound : (1 : Int) ≤ (v :: ys).length := by
    rw [List.length_cons]
    omega
  rw [value?, slot, if_pos (by omega), if_pos hbound]
  rfl

theorem value?_bottom (xs ys : List α) (v : α) {idx : Int} (h : idx = xs.length + 1) :
    value? (xs ++ v :: ys) idx = some v := by
  have hbound : idx ≤ (xs ++ v :: ys).length := by
    rw [List.length_append, List.length_cons]
    omega
  have hpos : idx.toNat - 1 = xs.length := by omega
  rw [value?, slot, if_pos (by omega), if_pos hbound, hpos]
  simp

/-! ## Operations -/

theorem pop_append (pad : α) (xs ys : List α) {n : Int} (h : n = ys.length) :
    pop pad (xs ++ ys) n = some xs := by
  have hlength : (xs ++ ys).length - (-(-n - 1 + 1)).toNat = xs.length := by
    rw [List.length_append]
    omega
  have hbound : -(-n - 1 + 1) ≤ ((xs ++ ys).length : Int) := by
    rw [List.length_append]
    omega
  rw [pop, setTop, if_neg (by omega), if_pos hbound, hlength, List.take_left]

theorem setTop_append (pad : α) (xs ys : List α) {n : Int} (h : n = xs.length) :
    setTop pad (xs ++ ys) n = some xs := by
  have htake : n.toNat = xs.length := by omega
  have hpad : n.toNat - (xs ++ ys).length = 0 := by
    rw [List.length_append]
    omega
  rw [setTop, if_pos (by omega), hpad, htake, List.take_left, List.replicate_zero,
    List.append_nil]

theorem insert_append (xs ys : List α) (v : α) {idx : Int} (h : idx = -(ys.length + 1)) :
    insert (xs ++ ys ++ [v]) idx = some (xs ++ v :: ys) := by
  have hslot : slot (xs ++ ys ++ [v]) idx = some xs.length := by
    cases ys with
    | nil =>
      rw [List.append_nil]
      exact slot_top xs [] v h
    | cons y ys =>
      rw [List.append_assoc, List.cons_append]
      apply slot_top
      rw [List.length_append]
      simpa using h
  rw [insert, hslot, List.getLast?_concat]
  simp only [List.append_assoc, List.take_left, List.drop_left, List.dropLast_concat]

theorem remove_append (xs ys : List α) (v : α) {idx : Int} (h : idx = -(ys.length + 1)) :
    remove (xs ++ v :: ys) idx = some (xs ++ ys) := by
  rw [remove, slot_top xs ys v h, Option.map_some,
    List.eraseIdx_append_of_length_le (Nat.le_refl _)]
  simp

end LuaAddons.Frame
