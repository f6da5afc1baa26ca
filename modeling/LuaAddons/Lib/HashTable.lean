import Mathlib.Data.List.Pairwise

/-!
# Hash tables whose keys change

A key is an object, and what `Equals` and `GetHashCode` look at is its content, which may change
while the object is in the table. An entry keeps the hash code that its key had when it was added.
So a key is found when the entry has the hash code of its content now, and when the contents are
equal now. Entries that match the same key are found in the order of their chain.

As long as no content changes, the table is a map from contents to values (`Sound`).
-/

namespace LuaAddons

structure HashEntry (η ι β : Type) where
  hash : η
  key : ι
  value : β
  deriving DecidableEq

/-- The entries. Those of one chain are in the order in which it is searched. -/
abbrev HashTable (η ι β : Type) := List (HashEntry η ι β)

namespace HashTable

variable {η κ ι β : Type} [DecidableEq η] [DecidableEq κ] (hash : κ → η) (content : ι → κ)

/-- The entry is one for the key. -/
def isFor (k : ι) (e : HashEntry η ι β) : Bool :=
  e.hash = hash (content k) ∧ content e.key = content k

/-- `TryGetValue`. -/
def lookup (t : HashTable η ι β) (k : ι) : Option β :=
  (t.find? (isFor hash content k)).map (·.value)

/-- `Remove`. -/
def erase (t : HashTable η ι β) (k : ι) : HashTable η ι β := t.eraseP (isFor hash content k)

/-- A value set through the indexer. An entry that is there keeps its key, and a new one becomes the
first of its chain. -/
def insert (t : HashTable η ι β) (k : ι) (v : β) : HashTable η ι β :=
  match t.findIdx? (isFor hash content k) with
  | some i => t.modify i (fun e => { e with value := v })
  | none => { hash := hash (content k), key := k, value := v } :: t

/-- Every entry has the hash code of its key, and no two keys are equal. -/
structure Sound (t : HashTable η ι β) : Prop where
  hashed : ∀ e ∈ t, e.hash = hash (content e.key)
  distinct : t.Pairwise (fun e e' => content e.key ≠ content e'.key)

variable {hash content} {t : HashTable η ι β} {k : ι} {v : β} {e e' : HashEntry η ι β}

theorem isFor_eq_true :
    isFor hash content k e = true ↔ e.hash = hash (content k) ∧ content e.key = content k :=
  decide_eq_true_iff

theorem isFor_eq_false (hne : content e.key ≠ content k) : isFor hash content k e = false :=
  decide_eq_false (fun h => hne h.2)

/-! ## Entries for other keys -/

theorem mem_erase_of_ne (he : e ∈ t) (hne : content e.key ≠ content k) :
    e ∈ erase hash content t k :=
  (List.mem_eraseP_of_neg (by rw [isFor_eq_false hne]; exact Bool.false_ne_true)).mpr he

theorem mem_insert_of_ne (he : e ∈ t) (hne : content e.key ≠ content k) :
    e ∈ insert hash content t k v := by
  rw [insert]
  cases hi : t.findIdx? (isFor hash content k) with
  | none => exact List.mem_cons_of_mem _ he
  | some i =>
    obtain ⟨j, hj⟩ := List.mem_iff_getElem?.mp he
    refine List.mem_iff_getElem?.mpr ⟨j, ?_⟩
    obtain ⟨hlt, hfor, -⟩ := List.findIdx?_eq_some_iff_getElem.mp hi
    have hij : i ≠ j := by
      rintro rfl
      rw [List.getElem?_eq_getElem hlt, Option.some_inj] at hj
      rw [hj, isFor_eq_false hne] at hfor
      cases hfor
    exact (List.getElem?_modify_ne _ _ hij).trans hj

/-- The value is set for the key. -/
theorem exists_mem_insert (t : HashTable η ι β) (k : ι) (v : β) :
    ∃ e ∈ insert hash content t k v, e.value = v ∧ content e.key = content k := by
  rw [insert]
  cases hi : t.findIdx? (isFor hash content k) with
  | none => exact ⟨_, List.mem_cons_self, rfl, rfl⟩
  | some i =>
    obtain ⟨hlt, hfor, -⟩ := List.findIdx?_eq_some_iff_getElem.mp hi
    refine ⟨{ t[i] with value := v }, List.mem_iff_getElem?.mpr ⟨i, ?_⟩, rfl,
      (isFor_eq_true.mp hfor).2⟩
    rw [List.getElem?_modify_eq, List.getElem?_eq_getElem hlt]
    rfl

theorem of_lookup_eq_some (h : lookup hash content t k = some v) :
    ∃ e ∈ t, content e.key = content k ∧ e.value = v := by
  obtain ⟨e, he, hv⟩ := Option.map_eq_some_iff.mp h
  have hfor : isFor hash content k e = true := List.find?_some he
  exact ⟨e, List.mem_of_find?_eq_some he, (isFor_eq_true.mp hfor).2, hv⟩

/-! ## Sound tables -/

namespace Sound

variable (h : Sound hash content t)

include h

theorem isFor_iff (he : e ∈ t) : isFor hash content k e = true ↔ content e.key = content k := by
  rw [isFor_eq_true, h.hashed e he]
  exact ⟨And.right, fun hk => ⟨congrArg hash hk, hk⟩⟩

omit [DecidableEq η] [DecidableEq κ] in
theorem eq_of_content (he : e ∈ t) (he' : e' ∈ t) (hk : content e.key = content e'.key) :
    e = e' := by
  have : Std.Symm fun e e' : HashEntry η ι β => content e.key ≠ content e'.key :=
    ⟨fun _ _ hd => hd.symm⟩
  by_contra hne
  exact h.distinct.forall he he' hne hk

theorem lookup_of_mem (he : e ∈ t) (hk : content e.key = content k) :
    lookup hash content t k = some e.value := by
  rw [lookup]
  cases hfind : t.find? (isFor hash content k) with
  | none =>
    have hnone := List.find?_eq_none.mp hfind e he
    exact absurd ((h.isFor_iff he).mpr hk) hnone
  | some e' =>
    have hmem := List.mem_of_find?_eq_some hfind
    have hfor : isFor hash content k e' = true := List.find?_some hfind
    rw [h.eq_of_content hmem he (((h.isFor_iff hmem).mp hfor).trans hk.symm)]
    rfl

theorem of_mem_erase (he : e ∈ erase hash content t k) : e ∈ t ∧ content e.key ≠ content k := by
  have hmem : e ∈ t := List.mem_of_mem_eraseP he
  refine ⟨hmem, fun hk => ?_⟩
  have hfor := (h.isFor_iff hmem).mpr hk
  obtain ⟨e', l₁, l₂, hl₁, hfor', rfl, herase⟩ := List.exists_of_eraseP hmem hfor
  rw [erase, herase] at he
  have he' : e' ∈ l₁ ++ e' :: l₂ := List.mem_append_right _ List.mem_cons_self
  have hsame := h.eq_of_content hmem he' (hk.trans ((h.isFor_iff he').mp hfor').symm)
  subst hsame
  have hpair := List.pairwise_append.mp h.distinct
  rcases List.mem_append.mp he with he | he
  · exact hl₁ e he hfor
  · exact List.rel_of_pairwise_cons hpair.2.1 he rfl

theorem erase (k : ι) : Sound hash content (erase hash content t k) where
  hashed e he := h.hashed e (List.mem_of_mem_eraseP he)
  distinct := h.distinct.sublist List.eraseP_sublist

theorem of_mem_insert (he : e ∈ insert hash content t k v) :
    (e.value = v ∧ content e.key = content k ∧ e.hash = hash (content e.key)) ∨
      (e ∈ t ∧ content e.key ≠ content k) := by
  rw [HashTable.insert] at he
  cases hi : t.findIdx? (isFor hash content k) with
  | none =>
    rw [hi] at he
    rcases List.mem_cons.mp he with rfl | he
    · exact Or.inl ⟨rfl, rfl, rfl⟩
    · refine Or.inr ⟨he, fun hk => ?_⟩
      have hnone := List.findIdx?_eq_none_iff.mp hi e he
      rw [(h.isFor_iff he).mpr hk] at hnone
      cases hnone
  | some i =>
    rw [hi] at he
    obtain ⟨hlt, hfor, -⟩ := List.findIdx?_eq_some_iff_getElem.mp hi
    have hmem : t[i] ∈ t := List.getElem_mem hlt
    have hkey := (h.isFor_iff hmem).mp hfor
    obtain ⟨j, hj⟩ := List.mem_iff_getElem?.mp he
    by_cases hij : i = j
    · subst hij
      dsimp only at hj
      rw [List.getElem?_modify_eq, List.getElem?_eq_getElem hlt] at hj
      cases hj
      exact Or.inl ⟨rfl, hkey, h.hashed t[i] hmem⟩
    · dsimp only at hj
      rw [List.getElem?_modify_ne _ _ hij] at hj
      refine Or.inr ⟨List.mem_iff_getElem?.mpr ⟨j, hj⟩, fun hk => hij ?_⟩
      -- equal keys stand at one place only
      obtain ⟨hlt', hj⟩ := List.getElem?_eq_some_iff.mp hj
      by_contra hne
      have hd := List.pairwise_iff_getElem.mp h.distinct
      rcases Nat.lt_or_gt_of_ne hne with hless | hless
      · exact hd i j hlt hlt' hless (by rw [hkey, hj, hk])
      · exact hd j i hlt' hlt hless (by rw [hkey, hj, hk])

theorem insert (k : ι) (v : β) : Sound hash content (insert hash content t k v) := by
  refine ⟨fun e he => ?_, ?_⟩
  · rcases h.of_mem_insert he with ⟨-, -, hhash⟩ | ⟨he, -⟩
    · exact hhash
    · exact h.hashed e he
  · rw [HashTable.insert]
    cases hi : t.findIdx? (isFor hash content k) with
    | none =>
      refine List.pairwise_cons.mpr ⟨fun e he hk => ?_, h.distinct⟩
      have hnone := List.findIdx?_eq_none_iff.mp hi e he
      rw [(h.isFor_iff he).mpr hk.symm] at hnone
      cases hnone
    | some i =>
      have hkeys : (t.modify i (fun e => { e with value := v })).map (fun e => content e.key) =
          t.map (fun e => content e.key) := by
        refine List.ext_getElem? (fun j => ?_)
        rw [List.getElem?_map, List.getElem?_map]
        by_cases hij : i = j
        · subst hij
          rw [List.getElem?_modify_eq, Option.map_eq_map, Option.map_map]
          rfl
        · rw [List.getElem?_modify_ne _ _ hij]
      exact List.pairwise_map.mp (hkeys ▸ List.pairwise_map.mpr h.distinct)

omit [DecidableEq η] [DecidableEq κ] in
theorem perm {t' : HashTable η ι β} (hperm : t'.Perm t) : Sound hash content t' where
  hashed e he := h.hashed e (hperm.mem_iff.mp he)
  distinct := hperm.symm.pairwise h.distinct (fun hd => hd.symm)

end Sound

end HashTable

end LuaAddons
