import LuaAddons.TableLayout

/-!
# Traversals of a table

`elements` are the elements of a table in the order of `luaH_next`: those of the array by their
index, then those of the nodes by the number of the node. In a well-formed table they are exactly
the keys with a value (`mem_elements`), each of them once (`elementAt_inj`), and `luaH_next`
gives one after the other: from the key of an element it continues behind that element.

A dead key of the same object could stand in the chain before the key itself. Keys that the
collector cannot take are safe from that.
-/

namespace LuaAddons

open Chains

variable {K V : Type} [DecidableEq K] {M : KeyType K}

namespace Table

variable {t : Table K V} {i j : Nat} {k : K} {v : V}

variable (M) in
/-- `t[k]` without metamethods. -/
def rawGet (t : Table K V) (k : K) : Option V := (t.get M k).bind t.value

/-- The number of elements a traversal goes through. -/
def total (t : Table K V) : Nat := t.sizearray + t.sizenode

variable (M) in
/-- The elements with a value from the index `i` on, in the order of a traversal. -/
def elementsFrom (t : Table K V) (i : Nat) : List (K × V) :=
  (List.range' i (t.total - i)).filterMap (t.elementAt M)

variable (M) in
/-- The elements with a value. -/
def elements (t : Table K V) : List (K × V) := t.elementsFrom M 0

/-- The values of the nodes, in the order of the nodes. -/
def nodeValues (t : Table K V) : List V :=
  (List.range t.sizenode).filterMap (fun i => (t.node i).val)

omit [DecidableEq K] in
theorem elementAt_array (h : i < t.sizearray) :
    t.elementAt M i = (t.array (i + 1)).map (fun v => (M.ofIndex (i + 1), v)) := by
  rw [elementAt, if_pos h]

omit [DecidableEq K] in
theorem elementAt_node (h : ¬ i < t.sizearray) :
    t.elementAt M i = some (k, v) ↔
      (t.node (i - t.sizearray)).key = .key k ∧ (t.node (i - t.sizearray)).val = some v := by
  rw [elementAt, if_neg h]
  constructor
  · intro hsome
    split at hsome
    · rename_i k' v' hk hv
      cases hsome
      exact ⟨hk, hv⟩
    · cases hsome
  · rintro ⟨hk, hv⟩
    rw [hk, hv]

section WellFormed

variable (h : t.WellFormed M)

include h

omit [DecidableEq K] in
/-- The index of an element is found from its key. -/
theorem arrayindex_of_elementAt (hi : i < t.sizearray) (hel : t.elementAt M i = some (k, v)) :
    M.arrayindex k = i + 1 ∧ k = M.ofIndex (i + 1) ∧ t.array (i + 1) = some v := by
  rw [elementAt_array hi] at hel
  obtain ⟨v', hv', hkv⟩ := Option.map_eq_some_iff.mp hel
  cases hkv
  have hsize := h.sizearray_le
  exact ⟨M.arrayindex_ofIndex _ (by omega) (by omega), rfl, hv'⟩

omit [DecidableEq K] in
theorem lt_total (hel : t.elementAt M i = some (k, v)) : i < t.total := by
  rw [total]
  by_cases hi : i < t.sizearray
  · omega
  · have hkey := (elementAt_node hi).mp hel
    have hlt := h.bound (i - t.sizearray) (by rw [hkey.1]; exact fun hnil => by cases hnil)
    omega

omit [DecidableEq K] in
/-- No key belongs to two elements. -/
theorem elementAt_inj {v' : V} (hi : t.elementAt M i = some (k, v))
    (hj : t.elementAt M j = some (k, v')) : i = j := by
  by_cases hia : i < t.sizearray <;> by_cases hja : j < t.sizearray
  · have hik := (arrayindex_of_elementAt h hia hi).1
    have hjk := (arrayindex_of_elementAt h hja hj).1
    omega
  · have hik := (arrayindex_of_elementAt h hia hi).1
    have hkey := ((elementAt_node hja).mp hj).1
    exact absurd ⟨by omega, by omega⟩ (h.outside _ k hkey)
  · have hjk := (arrayindex_of_elementAt h hja hj).1
    have hkey := ((elementAt_node hia).mp hi).1
    exact absurd ⟨by omega, by omega⟩ (h.outside _ k hkey)
  · have hik := ((elementAt_node hia).mp hi).1
    have hjk := ((elementAt_node hja).mp hj).1
    have heq := h.distinct _ _ k hik hjk
    omega

/-- The elements are the keys with a value. -/
theorem elementAt_iff : (∃ i, t.elementAt M i = some (k, v)) ↔ t.rawGet M k = some v := by
  constructor
  · rintro ⟨i, hel⟩
    by_cases hi : i < t.sizearray
    · obtain ⟨hindex, _, hv⟩ := arrayindex_of_elementAt h hi hel
      have hin : t.inArray M k := ⟨by omega, by omega⟩
      rw [rawGet, get, if_pos hin, hindex]
      exact hv
    · obtain ⟨hk, hv⟩ := (elementAt_node hi).mp hel
      rw [rawGet, get, if_neg (h.outside _ k hk), h.findNode_eq_some hk]
      exact hv
  · intro hget
    rw [rawGet, get] at hget
    split at hget
    · rename_i hin
      obtain ⟨hpos, hle⟩ := hin
      have hv : t.array (M.arrayindex k) = some v := hget
      refine ⟨M.arrayindex k - 1, ?_⟩
      rw [elementAt_array (by omega), Nat.sub_add_cancel hpos, hv, M.ofIndex_arrayindex k hpos]
      rfl
    · cases hfind : t.findNode M k with
      | none => rw [hfind] at hget; cases hget
      | some i =>
        rw [hfind] at hget
        have hk := of_decide_eq_true (find_eq_some hfind).1
        refine ⟨t.sizearray + i, (elementAt_node (by omega)).mpr ?_⟩
        rw [Nat.add_sub_cancel_left]
        exact ⟨hk, hget⟩

theorem mem_elements : (k, v) ∈ t.elements M ↔ t.rawGet M k = some v := by
  rw [← elementAt_iff h, elements, elementsFrom, List.mem_filterMap]
  constructor
  · rintro ⟨i, _, hel⟩
    exact ⟨i, hel⟩
  · rintro ⟨i, hel⟩
    have hlt := lt_total h hel
    exact ⟨i, List.mem_range'_1.mpr ⟨by omega, by omega⟩, hel⟩

/-- `luaH_next` continues behind the element of the key. -/
theorem findindex_of_elementAt (hk : M.collectable k = false)
    (hel : t.elementAt M i = some (k, v)) : t.findindex M (some k) = some (i + 1) := by
  by_cases hi : i < t.sizearray
  · have hindex := (arrayindex_of_elementAt h hi hel).1
    have hin : t.inArray M k := ⟨by omega, by omega⟩
    rw [findindex, if_pos hin, hindex]
  · obtain ⟨hkey, _⟩ := (elementAt_node hi).mp hel
    have hq : (fun i => decide ((t.node i).key = .key k ∨
        (M.collectable k ∧ (t.node i).key = .dead k))) =
          fun i => decide ((t.node i).key = .key k) := by
      funext i
      rw [hk]
      simp
    have hfind := h.findNode_eq_some hkey
    rw [findNode] at hfind
    rw [findindex, if_neg (h.outside _ k hkey), hq, hfind]
    show some (t.sizearray + (i - t.sizearray) + 1) = some (i + 1)
    congr 1
    omega

end WellFormed

/-! ## One step after the other -/

theorem next_eq {key : Option K} (hkey : t.findindex M key = some i) :
    t.next M key = some (t.elementsFrom M i).head? := by
  rw [next, hkey, elementsFrom, List.head?_filterMap]
  rfl

omit [DecidableEq K] in
/-- The first element from an index on, and the elements behind it. -/
theorem elementsFrom_eq_cons {rest : List (K × V)} (hcons : t.elementsFrom M i = (k, v) :: rest) :
    ∃ j, t.elementAt M j = some (k, v) ∧ rest = t.elementsFrom M (j + 1) := by
  obtain ⟨before, j, behind, hrange, _, hj, hrest⟩ := List.filterMap_eq_cons_iff.mp hcons
  obtain ⟨n, hn, _, htail⟩ := List.range'_eq_append_iff.mp hrange
  obtain ⟨hstart, hpos, hbehind⟩ := List.range'_eq_cons_iff.mp htail.symm
  refine ⟨j, hj, ?_⟩
  rw [← hrest, hbehind, elementsFrom]
  congr 2
  omega

omit [DecidableEq K] in
theorem elementsFrom_ne (h : t.WellFormed M) {rest : List (K × V)}
    (hcons : t.elementsFrom M i = (k, v) :: rest) : ∀ e ∈ rest, e.1 ≠ k := by
  obtain ⟨j, hj, rfl⟩ := elementsFrom_eq_cons hcons
  rintro ⟨k', v'⟩ he rfl
  obtain ⟨j', hj', hel⟩ := List.mem_filterMap.mp he
  have heq := elementAt_inj h hj hel
  have hle := (List.mem_range'_1.mp hj').1
  omega

/-! ## The two parts -/

omit [DecidableEq K] in
/-- The values of a traversal: those of the array, then those of the nodes. -/
theorem elements_values (h : t.WellFormed M) :
    (t.elements M).map Prod.snd =
      (List.range t.sizearray).filterMap (fun i => t.array (i + 1)) ++ t.nodeValues := by
  rw [elements, elementsFrom, Nat.sub_zero, ← List.range_eq_range', total, List.range_add,
    List.filterMap_append, List.map_append, List.map_filterMap, List.map_filterMap,
    List.filterMap_map]
  congr 1
  · apply List.filterMap_congr
    intro i hi
    rw [elementAt_array (List.mem_range.mp hi), Option.map_map]
    cases t.array (i + 1) <;> rfl
  · apply List.filterMap_congr
    intro i _
    rw [Function.comp_apply, elementAt, if_neg (by omega), Nat.add_sub_cancel_left]
    cases hv : (t.node i).val with
    | none => cases (t.node i).key <;> rfl
    | some v =>
      obtain ⟨k, hk⟩ := h.live i (by rw [hv]; rfl)
      rw [hk]
      rfl

end Table

end LuaAddons
