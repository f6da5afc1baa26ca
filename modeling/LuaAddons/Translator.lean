import LuaAddons.Lib.HashTable
import LuaAddons.Platform

/-!
# .NET objects in Lua

`ObjectTranslator` gives an object that is pushed into Lua a number, and Lua a userdata with that
number. `objects` and `objectsBackMap` go from one to the other, and the table `luaNet_objects`,
whose values are weak, has the userdata of a number. The collector of Lua finds userdata dead,
takes them out of the weak table, and calls their finalizers some time later. Finalizers run
whenever Lua allocates, so also in the middle of a push, where they may push objects themselves.

`objectsBackMap` has the objects as keys, and what `Equals` and `GetHashCode` look at may change
while an object is in it: a script that writes a field of a boxed struct changes the struct in
place.

`WellFormed` holds in every run of such steps, with finalizers that scripts call on whatever they
like. `Undisturbed` holds when they do not, and when no push finds the number of another push that
is not finished. `Matched` holds as long as no object changes.
-/

namespace LuaAddons

/-- The identity of a userdata. -/
abbrev UserdataId := Nat

/-- The number of an object, an `int`. -/
abbrev ObjectIndex := BitVec 32

/-- Where the collector keeps a userdata with a finalizer (`Lua/src/lgc.cpp`). -/
inductive Finalization where
  /-- Not found dead. -/
  | finobj
  /-- Found dead, its finalizer is still to be called. -/
  | tobefnz
  | finalized
  deriving DecidableEq

structure Userdata where
  /-- The content of the block. -/
  index : ObjectIndex
  /-- The object it was made for. -/
  object : Nat
  finalization : Finalization

/-- The userdata is found dead. A finalizer is called once. -/
def Userdata.die (x : Userdata) : Userdata :=
  if x.finalization = .finobj then { x with finalization := .tobefnz } else x

/-- The maps of an `ObjectTranslator` and the userdata of its Lua state. The content of an object is
what `Equals` and `GetHashCode` look at: objects of the same content are equal. -/
structure Translator (κ η : Type) where
  objects : AList (fun _ : ObjectIndex => Nat)
  objectsBackMap : HashTable η Nat ObjectIndex
  content : Nat → κ
  nextObj : ObjectIndex
  /-- The weak table `luaNet_objects`. -/
  luaNetObjects : ObjectIndex → Option UserdataId
  /-- All userdata, in the order of their creation. -/
  userdata : List Userdata
  /-- The numbers and objects whose userdata is not made yet. -/
  inFlight : List (ObjectIndex × Nat)
  /-- How many objects were added. -/
  added : Nat

namespace Translator

variable {κ η : Type} [DecidableEq κ] [DecidableEq η] (hash : κ → η) (t : Translator κ η)

def start (content : Nat → κ) : Translator κ η where
  objects := ∅
  objectsBackMap := []
  content := content
  nextObj := 0
  luaNetObjects _ := none
  userdata := []
  inFlight := []
  added := 0

/-! ## The methods -/

/-- `objectsBackMap.TryGetValue`. -/
def backMap (o : Nat) : Option ObjectIndex := t.objectsBackMap.lookup hash t.content o

/-- `CollectObject(o, udata)`. -/
def collectObjectOf (o : Nat) (udata : ObjectIndex) : Translator κ η :=
  { t with
    objects := t.objects.erase udata
    objectsBackMap := t.objectsBackMap.erase hash t.content o }

/-- `CollectObject(udata)`. -/
def collectObject (udata : ObjectIndex) : Translator κ η :=
  match t.objects.lookup udata with
  | none => t
  | some o => t.collectObjectOf hash o udata

/-- `AddObject`; a call of `PushNewObject` follows. -/
def addObject (o : Nat) : Translator κ η :=
  { t with
    objects := t.objects.insert t.nextObj o
    objectsBackMap := t.objectsBackMap.insert hash t.content o t.nextObj
    nextObj := t.nextObj + 1
    inFlight := (t.nextObj, o) :: t.inFlight
    added := t.added + 1 }

/-- The userdata that `PushObject` finds for an object. -/
def stored (o : Nat) : Option UserdataId := (t.backMap hash o).bind t.luaNetObjects

/-- `PushObject` up to the call of `PushNewObject`. A stored userdata is pushed as it is. When the
weak table lost it, the entries of the object are removed before they are made again. -/
def pushObject (o : Nat) : Translator κ η :=
  match t.backMap hash o with
  | none => t.addObject hash o
  | some index =>
    match t.luaNetObjects index with
    | some _ => t
    | none => (t.collectObjectOf hash o index).addObject hash o

/-- `PushNewObject`: the userdata is made and stored. -/
def pushNewObject (index : ObjectIndex) (o : Nat) : Translator κ η :=
  { t with
    luaNetObjects := Function.update t.luaNetObjects index (some t.userdata.length)
    userdata := t.userdata ++ [{ index := index, object := o, finalization := .finobj }]
    inFlight := t.inFlight.erase (index, o) }

/-- `GetObject` on a userdata. -/
def getObject (u : UserdataId) (x : Userdata) : Except NetException NetObject :=
  if x.index = -1 then .ok (.luaUserData u)
  else match t.objects.lookup x.index with
    | some o => .ok (.object o)
    | none => .error (.exception "The given key was not present in the dictionary.")

/-- The metamethod `__gc` (`MetaFunctions.CollectObject`) on a block that starts with the number. -/
def gc (udata : ObjectIndex) : Translator κ η :=
  if udata = -1 then t else t.collectObject hash udata

/-! ## The collector -/

/-- The end of a mark phase: the weak table loses the userdata found dead, and their finalizers
are still to be called. -/
def collect (dead : List UserdataId) : Translator κ η :=
  { t with
    luaNetObjects := fun i => (t.luaNetObjects i).filter (· ∉ dead)
    userdata := t.userdata.mapIdx (fun u x => if u ∈ dead then x.die else x) }

/-- The collector calls the finalizer of a userdata. -/
def finalize (u : UserdataId) : Translator κ η :=
  match t.userdata[u]? with
  | none => t
  | some x =>
    { t.gc hash x.index with
      userdata := t.userdata.set u { x with finalization := .finalized } }

/-! ## Runs -/

inductive Step (κ η : Type) where
  | pushObject (o : Nat)
  /-- The second userdata that `RegisterTable` makes for an object. -/
  | addBase (o : Nat)
  | pushNewObject (index : ObjectIndex) (o : Nat)
  | collect (dead : List UserdataId)
  | finalize (u : UserdataId)
  /-- A script calls `__gc` on some userdata, whose block starts with the number. -/
  | callGc (index : ObjectIndex)
  /-- Objects change: `TrySetMember` writes a boxed struct in place, a method may do anything. -/
  | change (content : Nat → κ)
  /-- The dictionary grows, which may change the order of its chains. -/
  | resize (entries : HashTable η Nat ObjectIndex)

def apply : Step κ η → Translator κ η
  | .pushObject o => t.pushObject hash o
  | .addBase o => t.addObject hash o
  | .pushNewObject index o => t.pushNewObject index o
  | .collect dead => t.collect dead
  | .finalize u => t.finalize hash u
  | .callGc index => t.gc hash index
  | .change content => { t with content := content }
  | .resize entries => { t with objectsBackMap := entries }

/-- A push ends after it began, a finalizer is called after its userdata was found dead, and a
dictionary that grows keeps its entries. -/
def Possible : Step κ η → Prop
  | .pushNewObject index o => (index, o) ∈ t.inFlight
  | .finalize u => ∃ x, t.userdata[u]? = some x ∧ x.finalization = .tobefnz
  | .resize entries => entries.Perm t.objectsBackMap
  | _ => True

/-- The states that possible steps lead to, if they are allowed where they are taken. -/
inductive Reachable (allowed : Translator κ η → Step κ η → Prop) : Translator κ η → Prop where
  | start (content : Nat → κ) : Reachable allowed (start content)
  | step {t : Translator κ η} (h : Reachable allowed t) (x : Step κ η) (hpossible : t.Possible x)
      (hx : allowed t x) : Reachable allowed (t.apply hash x)

/-! ## The entries of the maps -/

/-- All numbers that were given out and not lost with a finished push. -/
def numbers : List ObjectIndex := t.inFlight.map Prod.fst ++ t.userdata.map Userdata.index

/-- An object is in `objects` for its push, or for a userdata whose finalizer was not called. The
finalizer of the number -1 does nothing. -/
def Owner (i : ObjectIndex) (o : Nat) : Prop :=
  (i, o) ∈ t.inFlight ∨ ∃ (u : UserdataId) (x : Userdata), t.userdata[u]? = some x ∧
    x.index = i ∧ x.object = o ∧ (x.finalization ≠ .finalized ∨ i = -1)

structure WellFormed : Prop where
  next : t.nextObj = BitVec.ofNat 32 t.added
  nodup : t.numbers.Nodup
  lt : ∀ i ∈ t.numbers, i.toNat < t.added
  objects : ∀ i o, t.objects.lookup i = some o → t.Owner i o
  stored : ∀ i u, t.luaNetObjects i = some u →
    ∃ x, t.userdata[u]? = some x ∧ x.index = i ∧ x.finalization = .finobj

variable {hash t}

omit [DecidableEq κ] [DecidableEq η] in
theorem wellFormed_start (content : Nat → κ) : (start content : Translator κ η).WellFormed where
  next := rfl
  nodup := List.nodup_nil
  lt := by simp [numbers, start]
  objects _ _ h := by simp [start] at h
  stored _ _ h := by cases h

theorem lookup_collectObject (udata i : ObjectIndex) :
    (t.collectObject hash udata).objects.lookup i =
      if i = udata then none else t.objects.lookup i := by
  rw [collectObject]
  by_cases hi : i = udata
  · subst hi
    rw [if_pos rfl]
    cases h : t.objects.lookup i with
    | none => exact h
    | some o => exact AList.lookup_erase _ _
  · rw [if_neg hi]
    cases t.objects.lookup udata with
    | none => rfl
    | some o => exact AList.lookup_erase_ne hi

variable (hash) in
/-- Only the two maps change. -/
theorem collectObject_eq (udata : ObjectIndex) : t.collectObject hash udata =
    { t with
      objects := (t.collectObject hash udata).objects
      objectsBackMap := (t.collectObject hash udata).objectsBackMap } := by
  rw [collectObject]
  split <;> rfl

theorem lookup_gc (udata i : ObjectIndex) : (t.gc hash udata).objects.lookup i =
    if i = udata ∧ i ≠ -1 then none else t.objects.lookup i := by
  rw [gc]
  by_cases hnone : udata = -1
  · rw [if_pos hnone, if_neg (fun h => h.2 (h.1.trans hnone))]
  · rw [if_neg hnone, lookup_collectObject]
    by_cases hi : i = udata
    · rw [if_pos hi, if_pos ⟨hi, hi ▸ hnone⟩]
    · rw [if_neg hi, if_neg (fun h => hi h.1)]

theorem gc_eq (udata : ObjectIndex) : t.gc hash udata =
    { t with
      objects := (t.gc hash udata).objects
      objectsBackMap := (t.gc hash udata).objectsBackMap } := by
  rw [gc]
  split
  · rfl
  · exact collectObject_eq hash udata

namespace WellFormed

variable (h : t.WellFormed)

include h

omit [DecidableEq κ] [DecidableEq η] in
theorem congr {content : Nat → κ} {entries : HashTable η Nat ObjectIndex} :
    ({ t with content := content, objectsBackMap := entries } : Translator κ η).WellFormed :=
  ⟨h.next, h.nodup, h.lt, h.objects, h.stored⟩

theorem collectObjectOf (o : Nat) (udata : ObjectIndex) :
    (t.collectObjectOf hash o udata).WellFormed := by
  refine ⟨h.next, h.nodup, h.lt, fun i o' hi => h.objects i o' ?_, h.stored⟩
  change (t.objects.erase udata).lookup i = some o' at hi
  by_cases hne : i = udata
  · subst hne
    rw [AList.lookup_erase] at hi
    cases hi
  · rwa [AList.lookup_erase_ne hne] at hi

theorem gc (udata : ObjectIndex) : (t.gc hash udata).WellFormed := by
  rw [Translator.gc]
  split
  · exact h
  · rw [collectObject]
    split
    · exact h
    · exact h.collectObjectOf _ udata

omit [DecidableEq κ] [DecidableEq η] in
theorem mem_numbers {i : ObjectIndex} {o : Nat} (hi : t.objects.lookup i = some o) :
    i ∈ t.numbers := by
  rcases h.objects i o hi with hmem | ⟨u, x, hx, rfl, -⟩
  · exact List.mem_append_left _ (List.mem_map_of_mem hmem)
  · exact List.mem_append_right _ (List.mem_map_of_mem (List.mem_of_getElem? hx))

omit [DecidableEq κ] [DecidableEq η] in
theorem nextObj_notMem (hadded : t.added < 2 ^ 32) : t.nextObj ∉ t.numbers := by
  intro hmem
  have hlt := h.lt _ hmem
  rw [h.next, BitVec.toNat_ofNat, Nat.mod_eq_of_lt hadded] at hlt
  exact lt_irrefl _ hlt

theorem addObject (o : Nat) (hadded : t.added < 2 ^ 32) : (t.addObject hash o).WellFormed where
  next := by
    change t.nextObj + 1 = BitVec.ofNat 32 (t.added + 1)
    rw [h.next, BitVec.ofNat_add]
    rfl
  nodup := List.nodup_cons.mpr ⟨h.nextObj_notMem hadded, h.nodup⟩
  lt := by
    refine List.forall_mem_cons.mpr ⟨?_, fun i hi => (h.lt i hi).trans (Nat.lt_succ_self _)⟩
    change t.nextObj.toNat < t.added + 1
    rw [h.next, BitVec.toNat_ofNat, Nat.mod_eq_of_lt hadded]
    exact Nat.lt_succ_self _
  objects i o' hi := by
    change (t.objects.insert t.nextObj o).lookup i = some o' at hi
    by_cases hne : i = t.nextObj
    · subst hne
      rw [AList.lookup_insert, Option.some_inj] at hi
      exact .inl (hi ▸ List.mem_cons_self)
    · rw [AList.lookup_insert_ne hne] at hi
      exact (h.objects i o' hi).imp (List.mem_cons_of_mem _) id
  stored := h.stored

theorem pushObject (o : Nat) (hadded : t.added < 2 ^ 32) :
    (t.pushObject hash o).WellFormed := by
  rw [Translator.pushObject]
  cases t.backMap hash o with
  | none => exact h.addObject o hadded
  | some index =>
    dsimp only
    cases t.luaNetObjects index with
    | some u => exact h
    | none => exact (h.collectObjectOf o index).addObject o hadded

omit [DecidableEq κ] [DecidableEq η] in
theorem pushNewObject {index : ObjectIndex} {o : Nat} (hmem : (index, o) ∈ t.inFlight) :
    (t.pushNewObject index o).WellFormed := by
  have hnumbers : (t.pushNewObject index o).numbers.Perm t.numbers := by
    have herase : (t.inFlight.map Prod.fst).Perm
        (index :: (t.inFlight.erase (index, o)).map Prod.fst) :=
      (List.perm_cons_erase hmem).map Prod.fst
    change ((t.inFlight.erase (index, o)).map Prod.fst ++ (t.userdata ++ [_]).map _).Perm _
    rw [List.map_append, ← List.append_assoc]
    exact (List.perm_append_singleton _ _).trans (herase.symm.append_right _)
  have hold : ∀ {u : UserdataId} {x : Userdata}, t.userdata[u]? = some x →
      (t.pushNewObject index o).userdata[u]? = some x := by
    intro u x hx
    exact (List.getElem?_append_left (List.getElem?_eq_some_iff.mp hx).1).trans hx
  have hnew : (t.pushNewObject index o).userdata[t.userdata.length]? =
      some { index := index, object := o, finalization := .finobj } := List.getElem?_concat_length
  refine ⟨h.next, hnumbers.nodup_iff.mpr h.nodup, fun i hi => h.lt i (hnumbers.mem_iff.mp hi),
    fun i o' hi => ?_, fun i u hi => ?_⟩
  · rcases h.objects i o' hi with hflight | ⟨u, x, hx, howner⟩
    · by_cases heq : (i, o') = (index, o)
      · obtain ⟨rfl, rfl⟩ := Prod.mk.inj heq
        exact .inr ⟨_, _, hnew, rfl, rfl, .inl (by simp)⟩
      · exact .inl ((List.mem_erase_of_ne heq).mpr hflight)
    · exact .inr ⟨u, x, hold hx, howner⟩
  · change Function.update t.luaNetObjects index _ i = some u at hi
    by_cases hne : i = index
    · subst hne
      rw [Function.update_self, Option.some_inj] at hi
      subst hi
      exact ⟨_, hnew, rfl, rfl⟩
    · rw [Function.update_of_ne hne] at hi
      obtain ⟨x, hx, hstored⟩ := h.stored i u hi
      exact ⟨x, hold hx, hstored⟩

omit h [DecidableEq κ] [DecidableEq η] in
theorem getElem?_collect (dead : List UserdataId) (u : UserdataId) :
    (t.collect dead).userdata[u]? =
      (t.userdata[u]?).map (fun x => if u ∈ dead then x.die else x) :=
  List.getElem?_mapIdx

omit [DecidableEq κ] [DecidableEq η] in
theorem collect (dead : List UserdataId) : (t.collect dead).WellFormed := by
  have hdie : ∀ x : Userdata, x.die.index = x.index ∧ x.die.object = x.object ∧
      (x.finalization ≠ .finalized → x.die.finalization ≠ .finalized) := by
    intro x
    rw [Userdata.die]
    split <;> simp
  have hnumbers : (t.collect dead).numbers = t.numbers := by
    refine congrArg (t.inFlight.map Prod.fst ++ ·) (List.ext_getElem? fun u => ?_)
    rw [List.getElem?_map, List.getElem?_map, getElem?_collect, Option.map_map]
    refine congrArg (Option.map · _) (funext fun x => ?_)
    rw [Function.comp_apply]
    split
    · exact (hdie x).1
    · rfl
  refine ⟨h.next, hnumbers ▸ h.nodup, fun i hi => h.lt i (hnumbers ▸ hi), fun i o hi => ?_,
    fun i u hi => ?_⟩
  · refine (h.objects i o hi).imp id (fun ⟨u, x, hx, hindex, hobject, hfin⟩ => ?_)
    refine ⟨u, if u ∈ dead then x.die else x, by rw [getElem?_collect, hx]; rfl, ?_⟩
    split
    · exact ⟨(hdie x).1.trans hindex, (hdie x).2.1.trans hobject, hfin.imp (hdie x).2.2 id⟩
    · exact ⟨hindex, hobject, hfin⟩
  · obtain ⟨hi, hdead⟩ := Option.filter_eq_some_iff.mp hi
    obtain ⟨x, hx, hstored⟩ := h.stored i u hi
    refine ⟨x, ?_, hstored⟩
    rw [getElem?_collect, hx, Option.map_some, if_neg (of_decide_eq_true hdead)]

theorem finalize {u : UserdataId} {x : Userdata} (hx : t.userdata[u]? = some x)
    (hfin : x.finalization = .tobefnz) : (t.finalize hash u).WellFormed := by
  have hgc : (t.gc hash x.index).WellFormed := h.gc x.index
  have hu : u < t.userdata.length := (List.getElem?_eq_some_iff.mp hx).1
  have hnumbers : (t.userdata.set u { x with finalization := .finalized }).map Userdata.index =
      t.userdata.map Userdata.index := by
    refine List.ext_getElem? (fun v => ?_)
    rw [List.getElem?_map, List.getElem?_map]
    by_cases huv : u = v
    · subst huv
      rw [List.getElem?_set_self hu, hx]
      rfl
    · rw [List.getElem?_set_ne huv]
  rw [Translator.finalize, hx]
  dsimp only
  rw [t.gc_eq]
  refine ⟨h.next, ?_, ?_, fun i o hi => ?_, fun i v hi => ?_⟩
  · change (t.inFlight.map Prod.fst ++ _).Nodup
    rw [hnumbers]
    exact h.nodup
  · change ∀ i ∈ t.inFlight.map Prod.fst ++ _, _
    rw [hnumbers]
    exact h.lt
  · have hi' : (t.gc hash x.index).objects.lookup i = some o := hi
    rw [lookup_gc] at hi'
    split at hi'
    · cases hi'
    · refine (h.objects i o hi').imp id (fun ⟨v, y, hy, hindex, hobject, howner⟩ => ?_)
      by_cases huv : u = v
      · subst huv
        obtain rfl := Option.some.inj (hy.symm.trans hx)
        have hi : i = -1 := by
          by_contra hne
          exact ‹¬ (i = y.index ∧ i ≠ -1)› ⟨hindex.symm, hne⟩
        exact ⟨u, _, List.getElem?_set_self hu, hindex, hobject, .inr hi⟩
      · exact ⟨v, y, (List.getElem?_set_ne huv).trans hy, hindex, hobject, howner⟩
  · obtain ⟨y, hy, hindex, hstored⟩ := h.stored i v hi
    have huv : u ≠ v := by
      rintro rfl
      obtain rfl := Option.some.inj (hy.symm.trans hx)
      rw [hfin] at hstored
      cases hstored
    exact ⟨y, (List.getElem?_set_ne huv).trans hy, hindex, hstored⟩

end WellFormed

theorem added_le_apply (x : Step κ η) : t.added ≤ (t.apply hash x).added := by
  cases x with
  | pushObject o =>
    rw [apply, pushObject]
    split
    · exact Nat.le_succ _
    · split
      · exact le_rfl
      · exact Nat.le_succ _
  | addBase o => exact Nat.le_succ _
  | finalize u =>
    rw [apply, finalize]
    split
    · exact le_rfl
    · dsimp only
      rw [t.gc_eq]
  | callGc index =>
    rw [apply, t.gc_eq]
  | pushNewObject | collect | change | resize => exact le_rfl

/-- While fewer than `2 ^ 32` objects were added, every run is well-formed. -/
theorem Reachable.wellFormed {allowed : Translator κ η → Step κ η → Prop}
    (h : Reachable hash allowed t) (hadded : t.added < 2 ^ 32) : t.WellFormed := by
  induction h with
  | start content => exact wellFormed_start content
  | @step t h x hpossible hx ih =>
    have hbefore : t.added < 2 ^ 32 := (added_le_apply x).trans_lt hadded
    have hwf := ih hbefore
    cases x with
    | pushObject o => exact hwf.pushObject o hbefore
    | addBase o => exact hwf.addObject o hbefore
    | pushNewObject index o => exact hwf.pushNewObject hpossible
    | collect dead => exact hwf.collect dead
    | finalize u =>
      obtain ⟨y, hy, hfin⟩ := hpossible
      exact hwf.finalize hy hfin
    | callGc index => exact hwf.gc index
    | change content => exact hwf.congr
    | resize entries => exact hwf.congr

end Translator

end LuaAddons
