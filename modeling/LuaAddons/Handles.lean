import LuaAddons.Translator

/-!
# What a userdata denotes

A userdata denotes the object it was made for, or none at all, in every run
(`getObject_own_or_missing`). It is never left without an object in an undisturbed run
(`getObject_of_finobj`). As long as no object changes, there is one userdata for all equal objects
when no table is registered as an object (`pushObject_stored`), and the translator holds on to an
object only for a userdata whose finalizer was not called (`objects_owned`).
-/

namespace LuaAddons.Translator

variable {κ η : Type} [DecidableEq κ] [DecidableEq η] {hash : κ → η} {t : Translator κ η}

/-! ## Runs -/

/-- No object changes. -/
def Unchanged (_ : Translator κ η) : Step κ η → Prop
  | .change _ => False
  | _ => True

/-- No push finds the number of another one that is not finished, and finalizers are called by the
collector only. -/
def Calm (hash : κ → η) (t : Translator κ η) : Step κ η → Prop
  | .pushObject o => ∀ i p, t.backMap hash o = some i → (i, p) ∉ t.inFlight
  | .callGc _ => False
  | _ => True

/-- As `Calm`, no object changes, and no table is registered as an object. -/
structure Single (hash : κ → η) (t : Translator κ η) (x : Step κ η) : Prop where
  calm : Calm hash t x
  unchanged : Unchanged t x
  notBase : ∀ o, x ≠ .addBase o

theorem Reachable.mono {allowed allowed' : Translator κ η → Step κ η → Prop}
    (h : Reachable hash allowed t) (himp : ∀ t x, allowed t x → allowed' t x) :
    Reachable hash allowed' t := by
  induction h with
  | start content => exact .start content
  | step h x hpossible hx ih => exact .step ih x hpossible (himp _ x hx)

/-- The object 7 is pushed, and its userdata is made. -/
def onePush : Translator Nat Nat :=
  ((start id).apply id (.pushObject 7)).apply id (.pushNewObject 0 7)

def onePushUserdata : Userdata := { index := 0, object := 7, finalization := .finobj }

theorem reachable_onePush : Reachable id (Single id) onePush := by
  have hpush : Reachable id (Single id) ((start id).apply id (.pushObject 7)) := by
    refine .step (.start id) _ trivial ⟨fun i p hi => ?_, trivial, by simp⟩
    cases hi
  exact .step hpush _ (List.mem_singleton.mpr rfl) ⟨trivial, trivial, by simp⟩

/-! ## Numbers of userdata -/

namespace WellFormed

variable (h : t.WellFormed) {u v : UserdataId} {x y : Userdata}

include h

omit [DecidableEq κ] [DecidableEq η] in
theorem index_inj (hx : t.userdata[u]? = some x) (hy : t.userdata[v]? = some y)
    (hindex : x.index = y.index) : u = v := by
  have hnodup : (t.userdata.map Userdata.index).Nodup := h.nodup.of_append_right
  have hu : u < (t.userdata.map Userdata.index).length := by
    rw [List.length_map]
    exact (List.getElem?_eq_some_iff.mp hx).1
  refine (List.getElem?_inj hu hnodup).mp ?_
  rw [List.getElem?_map, List.getElem?_map, hx, hy, Option.map_some, Option.map_some, hindex]

omit [DecidableEq κ] [DecidableEq η] in
theorem notMem_inFlight (hx : t.userdata[u]? = some x) (o : Nat) :
    (x.index, o) ∉ t.inFlight := by
  intro hmem
  exact List.disjoint_of_nodup_append h.nodup (List.mem_map_of_mem hmem)
    (List.mem_map_of_mem (List.mem_of_getElem? hx))

omit [DecidableEq κ] [DecidableEq η] in
theorem index_ne (hadded : t.added < 2 ^ 32) (hx : t.userdata[u]? = some x) : x.index ≠ -1 := by
  have hlt : x.index.toNat < t.added :=
    h.lt _ (List.mem_append_right _ (List.mem_map_of_mem (List.mem_of_getElem? hx)))
  intro hindex
  rw [hindex] at hlt
  have hmax : (-1 : ObjectIndex).toNat = 2 ^ 32 - 1 := by decide
  omega

end WellFormed

/-! ## Every run -/

/-- A userdata never denotes another object: not after its finalizer, not when it comes back to
life, and not when a script calls finalizers by itself. -/
theorem getObject_own_or_missing {allowed : Translator κ η → Step κ η → Prop}
    (h : Reachable hash allowed t) (hadded : t.added < 2 ^ 32) {u : UserdataId} {x : Userdata}
    (hx : t.userdata[u]? = some x) :
    t.getObject u x = .ok (.object x.object) ∨
      t.getObject u x =
        .error (.exception "The given key was not present in the dictionary.") := by
  have hwf := h.wellFormed hadded
  rw [getObject, if_neg (hwf.index_ne hadded hx)]
  cases ho : t.objects.lookup x.index with
  | none => exact .inr rfl
  | some o =>
    rcases hwf.objects _ _ ho with hflight | ⟨v, y, hy, hindex, hobject, -⟩
    · exact absurd hflight (hwf.notMem_inFlight hx o)
    · have huv := hwf.index_inj hy hx hindex
      subst huv
      obtain rfl := Option.some.inj (hy.symm.trans hx)
      exact .inl (by rw [hobject])

/-- A script calls the finalizer of the userdata while it is in use. -/
theorem reachable_onePush_gc : Reachable id (fun _ _ => True) (onePush.apply id (.callGc 0)) :=
  .step (reachable_onePush.mono fun _ _ _ => trivial) _ trivial trivial

theorem onePush_missing :
    (onePush.apply id (.callGc 0)).getObject 0 onePushUserdata ≠ .ok (.object 7) ∧
      ((onePush.apply id (.callGc 0)).getObject 0 onePushUserdata = .ok (.object 7) ∨
        (onePush.apply id (.callGc 0)).getObject 0 onePushUserdata =
          .error (.exception "The given key was not present in the dictionary.")) :=
  ⟨by decide, getObject_own_or_missing reachable_onePush_gc (by decide)
    (x := onePushUserdata) rfl⟩

/-! ## Undisturbed runs -/

/-- A push in flight and a userdata that is not found dead have their object, and the weak table
has the userdata. -/
structure Undisturbed (t : Translator κ η) : Prop where
  inFlight : ∀ i o, (i, o) ∈ t.inFlight → t.objects.lookup i = some o
  finobj : ∀ u x, t.userdata[u]? = some x → x.finalization = .finobj →
    t.objects.lookup x.index = some x.object ∧ t.luaNetObjects x.index = some u

namespace Undisturbed

variable (h : t.Undisturbed) (hwf : t.WellFormed)

include h

omit [DecidableEq κ] [DecidableEq η] in
theorem congr {content : Nat → κ} {entries : HashTable η Nat ObjectIndex} :
    ({ t with content := content, objectsBackMap := entries } : Translator κ η).Undisturbed :=
  ⟨h.inFlight, h.finobj⟩

/-- A number that no push and no userdata needs is removed. -/
theorem collectObjectOf {o : Nat} {udata : ObjectIndex} (hflight : ∀ o, (udata, o) ∉ t.inFlight)
    (hfin : ∀ x ∈ t.userdata, x.finalization = .finobj → x.index ≠ udata) :
    (t.collectObjectOf hash o udata).Undisturbed := by
  have hne : ∀ {i : ObjectIndex}, i ≠ udata →
      (t.objects.erase udata).lookup i = t.objects.lookup i := AList.lookup_erase_ne
  constructor
  · intro i o' hmem
    refine (hne ?_).trans (h.inFlight i o' hmem)
    rintro rfl
    exact hflight o' hmem
  · intro u x hx hx'
    obtain ⟨hobject, hstored⟩ := h.finobj u x hx hx'
    exact ⟨(hne (hfin x (List.mem_of_getElem? hx) hx')).trans hobject, hstored⟩

include hwf

theorem addObject (o : Nat) (hadded : t.added < 2 ^ 32) : (t.addObject hash o).Undisturbed := by
  have hne : ∀ {i o'}, t.objects.lookup i = some o' → i ≠ t.nextObj := by
    rintro i o' hi rfl
    exact hwf.nextObj_notMem hadded (hwf.mem_numbers hi)
  constructor
  · intro i o' hmem
    change (t.objects.insert t.nextObj o).lookup i = some o'
    rcases List.mem_cons.mp hmem with heq | hmem
    · obtain ⟨rfl, rfl⟩ := Prod.mk.inj heq
      exact AList.lookup_insert _
    · have hi := h.inFlight i o' hmem
      rw [AList.lookup_insert_ne (hne hi), hi]
  · intro u x hx hfin
    obtain ⟨hobject, hstored⟩ := h.finobj u x hx hfin
    refine ⟨?_, hstored⟩
    change (t.objects.insert t.nextObj o).lookup x.index = _
    rw [AList.lookup_insert_ne (hne hobject), hobject]

theorem pushObject {o : Nat} (hadded : t.added < 2 ^ 32)
    (hcalm : ∀ i p, t.backMap hash o = some i → (i, p) ∉ t.inFlight) :
    (t.pushObject hash o).Undisturbed := by
  rw [Translator.pushObject]
  cases hi : t.backMap hash o with
  | none => exact h.addObject hwf o hadded
  | some index =>
    dsimp only
    cases hstored : t.luaNetObjects index with
    | some u => exact h
    | none =>
      have hcollected : (t.collectObjectOf hash o index).Undisturbed := by
        refine h.collectObjectOf (fun p => hcalm index p hi) (fun x hx hfin => ?_)
        rintro rfl
        obtain ⟨u, hu⟩ := List.mem_iff_getElem?.mp hx
        rw [(h.finobj u x hu hfin).2] at hstored
        cases hstored
      exact hcollected.addObject (hwf.collectObjectOf o index) o hadded

omit [DecidableEq κ] [DecidableEq η] in
theorem pushNewObject {index : ObjectIndex} {o : Nat} (hmem : (index, o) ∈ t.inFlight) :
    (t.pushNewObject index o).Undisturbed := by
  constructor
  · intro i o' hi
    exact h.inFlight i o' (List.mem_of_mem_erase hi)
  · intro u x hx hfin
    change (t.userdata ++ [_])[u]? = some x at hx
    change t.objects.lookup x.index = _ ∧ Function.update t.luaNetObjects index _ x.index = _
    by_cases hu : u < t.userdata.length
    · rw [List.getElem?_append_left hu] at hx
      obtain ⟨hobject, hstored⟩ := h.finobj u x hx hfin
      refine ⟨hobject, ?_⟩
      rw [Function.update_of_ne, hstored]
      intro hindex
      exact hwf.notMem_inFlight hx o (hindex ▸ hmem)
    · have hlength : u = t.userdata.length := by
        have hlt := (List.getElem?_eq_some_iff.mp hx).1
        rw [List.length_append, List.length_singleton] at hlt
        exact Nat.eq_of_lt_succ_of_not_lt hlt hu
      subst hlength
      rw [List.getElem?_concat_length, Option.some_inj] at hx
      subst hx
      exact ⟨h.inFlight index o hmem, Function.update_self ..⟩

omit [DecidableEq κ] [DecidableEq η] hwf in
theorem collect (dead : List UserdataId) : (t.collect dead).Undisturbed := by
  refine ⟨h.inFlight, fun u x hx hfin => ?_⟩
  rw [WellFormed.getElem?_collect, Option.map_eq_some_iff] at hx
  obtain ⟨y, hy, rfl⟩ := hx
  by_cases hdead : u ∈ dead
  · rw [if_pos hdead, Userdata.die] at hfin
    split at hfin
    · cases hfin
    · exact absurd hfin ‹_›
  · rw [if_neg hdead] at hfin ⊢
    obtain ⟨hobject, hstored⟩ := h.finobj u y hy hfin
    refine ⟨hobject, ?_⟩
    change (t.luaNetObjects y.index).filter _ = some u
    rw [hstored, Option.filter_some, if_pos (decide_eq_true hdead)]

theorem finalize {u : UserdataId} {x : Userdata} (hx : t.userdata[u]? = some x)
    (hfin : x.finalization = .tobefnz) : (t.finalize hash u).Undisturbed := by
  have hgc : (t.gc hash x.index).Undisturbed := by
    rw [Translator.gc]
    split
    · exact h
    · rw [Translator.collectObject]
      split
      · exact h
      · refine h.collectObjectOf (hwf.notMem_inFlight hx) (fun y hy hfin' hindex => ?_)
        obtain ⟨v, hv⟩ := List.mem_iff_getElem?.mp hy
        obtain rfl := hwf.index_inj hv hx hindex
        obtain rfl := Option.some.inj (hv.symm.trans hx)
        rw [hfin] at hfin'
        cases hfin'
  have hu : u < t.userdata.length := (List.getElem?_eq_some_iff.mp hx).1
  rw [Translator.finalize, hx]
  refine ⟨fun i o hmem => hgc.inFlight i o ?_, fun v y hy hfin' => hgc.finobj v y ?_ hfin'⟩
  · exact hmem
  · rw [t.gc_eq]
    change (t.userdata.set u _)[v]? = some y at hy
    by_cases huv : u = v
    · subst huv
      rw [List.getElem?_set_self hu, Option.some_inj] at hy
      rw [← hy] at hfin'
      cases hfin'
    · rw [← List.getElem?_set_ne huv, hy]

end Undisturbed

theorem Reachable.undisturbed (h : Reachable hash (Calm hash) t) (hadded : t.added < 2 ^ 32) :
    t.Undisturbed := by
  induction h with
  | start content => exact ⟨by simp [Translator.start], by simp [Translator.start]⟩
  | @step t h x hpossible hx ih =>
    have hbefore : t.added < 2 ^ 32 := (added_le_apply x).trans_lt hadded
    have hwf := h.wellFormed hbefore
    have ht := ih hbefore
    cases x with
    | pushObject o => exact ht.pushObject hwf hbefore hx
    | addBase o => exact ht.addObject hwf o hbefore
    | pushNewObject index o => exact ht.pushNewObject hwf hpossible
    | collect dead => exact ht.collect dead
    | finalize u =>
      obtain ⟨y, hy, hfin⟩ := hpossible
      exact ht.finalize hwf hy hfin
    | callGc index => exact hx.elim
    | change content => exact ht.congr
    | resize entries => exact ht.congr

/-- A userdata that is not found dead denotes the object it was made for, so it stands for the
value `LuaValue.object`. -/
theorem getObject_of_finobj (P : Platform) (h : Reachable hash (Calm hash) t)
    (hadded : t.added < 2 ^ 32) {u : UserdataId} {x : Userdata} (hx : t.userdata[u]? = some x)
    (hfin : x.finalization = .finobj) :
    t.getObject u x = .ok (P.getObject (.object x.object)) := by
  have hwf := h.wellFormed hadded
  rw [getObject, if_neg (hwf.index_ne hadded hx), ((h.undisturbed hadded).finobj u x hx hfin).1]
  rfl

theorem onePush_denotes : onePush.getObject 0 onePushUserdata =
    .ok (asciiPlatform.getObject (.object 7)) :=
  getObject_of_finobj asciiPlatform (reachable_onePush.mono fun _ _ hx => hx.calm) (by decide)
    (x := onePushUserdata) rfl rfl

/-! ## Objects that do not change -/

/-- The back map is a map from contents to numbers, and only has numbers of objects with the content
of their key. -/
structure Matched (hash : κ → η) (t : Translator κ η) : Prop where
  sound : HashTable.Sound hash t.content t.objectsBackMap
  held : ∀ e ∈ t.objectsBackMap, ∃ o, t.objects.lookup e.value = some o ∧
    t.content o = t.content e.key

/-- `objectsBackMap` has the number of every object in `objects`. -/
def Inverse (t : Translator κ η) : Prop :=
  ∀ i o, t.objects.lookup i = some o →
    ∃ e ∈ t.objectsBackMap, e.value = i ∧ t.content e.key = t.content o

namespace Matched

variable (h : t.Matched hash)

include h

/-- The entries of an object and its number go together. -/
theorem collectObjectOf {o : Nat} {udata : ObjectIndex}
    (hudata : ∀ o', t.objects.lookup udata = some o' → t.content o' = t.content o) :
    (t.collectObjectOf hash o udata).Matched hash := by
  refine ⟨h.sound.erase o, fun e he => ?_⟩
  obtain ⟨he, hne⟩ := h.sound.of_mem_erase he
  obtain ⟨o', ho', hcontent⟩ := h.held e he
  refine ⟨o', ?_, hcontent⟩
  refine (AList.lookup_erase_ne ?_).trans ho'
  rintro rfl
  exact hne (hcontent.symm.trans (hudata o' ho'))

theorem gc (udata : ObjectIndex) : (t.gc hash udata).Matched hash := by
  rw [Translator.gc]
  split
  · exact h
  · rw [collectObject]
    split
    · exact h
    · rename_i o ho
      refine h.collectObjectOf (fun o' ho' => ?_)
      rw [Option.some.inj (ho'.symm.trans ho)]

theorem addObject (hwf : t.WellFormed) (o : Nat) (hadded : t.added < 2 ^ 32) :
    (t.addObject hash o).Matched hash := by
  refine ⟨h.sound.insert o t.nextObj, fun e he => ?_⟩
  change ∃ o', (t.objects.insert t.nextObj o).lookup e.value = some o' ∧ _
  rcases h.sound.of_mem_insert he with ⟨hvalue, hcontent, -⟩ | ⟨he, -⟩
  · exact ⟨o, by rw [hvalue, AList.lookup_insert], hcontent.symm⟩
  · obtain ⟨o', ho', hcontent⟩ := h.held e he
    refine ⟨o', ?_, hcontent⟩
    rw [AList.lookup_insert_ne, ho']
    intro hvalue
    exact hwf.nextObj_notMem hadded (hvalue ▸ hwf.mem_numbers ho')

/-- The number that is found has an object with the content looked for. -/
theorem content_of_backMap {o o' : Nat} {index : ObjectIndex} (hi : t.backMap hash o = some index)
    (ho' : t.objects.lookup index = some o') : t.content o' = t.content o := by
  obtain ⟨e, he, hkey, rfl⟩ := HashTable.of_lookup_eq_some hi
  obtain ⟨o'', ho'', hcontent⟩ := h.held e he
  rw [← Option.some.inj (ho''.symm.trans ho'), hcontent, hkey]

theorem pushObject (hwf : t.WellFormed) (o : Nat) (hadded : t.added < 2 ^ 32) :
    (t.pushObject hash o).Matched hash := by
  rw [Translator.pushObject]
  cases hi : t.backMap hash o with
  | none => exact h.addObject hwf o hadded
  | some index =>
    dsimp only
    cases t.luaNetObjects index with
    | some u => exact h
    | none =>
      exact (h.collectObjectOf fun o' => h.content_of_backMap hi).addObject
        (hwf.collectObjectOf o index) o hadded

end Matched

namespace Inverse

variable (h : t.Inverse) (hm : t.Matched hash)

include h hm

theorem collectObjectOf {o : Nat} {udata : ObjectIndex}
    (hudata : ∃ e ∈ t.objectsBackMap, e.value = udata ∧ t.content e.key = t.content o) :
    (t.collectObjectOf hash o udata).Inverse := by
  intro i o' hi
  change (t.objects.erase udata).lookup i = some o' at hi
  have hne : i ≠ udata := by
    rintro rfl
    rw [AList.lookup_erase] at hi
    cases hi
  rw [AList.lookup_erase_ne hne] at hi
  obtain ⟨e, he, rfl, hcontent⟩ := h i o' hi
  refine ⟨e, HashTable.mem_erase_of_ne he (fun hk => hne ?_), rfl, hcontent⟩
  obtain ⟨e', he', rfl, hcontent'⟩ := hudata
  rw [hm.sound.eq_of_content he he' (hk.trans hcontent'.symm)]

theorem gc (udata : ObjectIndex) : (t.gc hash udata).Inverse := by
  rw [Translator.gc]
  split
  · exact h
  · rw [collectObject]
    split
    · exact h
    · exact h.collectObjectOf hm (h udata _ ‹_›)

omit hm in
/-- An object is added that is equal to none. -/
theorem addObject {o : Nat} (hnew : ∀ e ∈ t.objectsBackMap, t.content e.key ≠ t.content o) :
    (t.addObject hash o).Inverse := by
  intro i o' hi
  change (t.objects.insert t.nextObj o).lookup i = some o' at hi
  by_cases hne : i = t.nextObj
  · subst hne
    rw [AList.lookup_insert, Option.some_inj] at hi
    subst hi
    exact HashTable.exists_mem_insert _ _ _
  · rw [AList.lookup_insert_ne hne] at hi
    obtain ⟨e, he, hvalue, hcontent⟩ := h i o' hi
    exact ⟨e, HashTable.mem_insert_of_ne he (hnew e he), hvalue, hcontent⟩

theorem pushObject (o : Nat) : (t.pushObject hash o).Inverse := by
  rw [Translator.pushObject]
  cases hi : t.backMap hash o with
  | none =>
    refine h.addObject (fun e he hk => ?_)
    have hfound := hm.sound.lookup_of_mem he hk
    rw [backMap] at hi
    rw [hi] at hfound
    cases hfound
  | some index =>
    dsimp only
    cases t.luaNetObjects index with
    | some u => exact h
    | none =>
      obtain ⟨e, he, hk, hvalue⟩ := HashTable.of_lookup_eq_some hi
      refine (h.collectObjectOf hm ⟨e, he, hvalue, hk⟩).addObject (fun e' he' => ?_)
      exact (hm.sound.of_mem_erase he').2

end Inverse

theorem Reachable.matched {allowed : Translator κ η → Step κ η → Prop}
    (h : Reachable hash allowed t) (hallowed : ∀ t x, allowed t x → Unchanged t x)
    (hadded : t.added < 2 ^ 32) : t.Matched hash := by
  induction h with
  | start content =>
    exact ⟨⟨by simp [Translator.start], List.Pairwise.nil⟩, by simp [Translator.start]⟩
  | @step t h x hpossible hx ih =>
    have hbefore : t.added < 2 ^ 32 := (added_le_apply x).trans_lt hadded
    have hwf := h.wellFormed hbefore
    have ht := ih hbefore
    cases x with
    | pushObject o => exact ht.pushObject hwf o hbefore
    | addBase o => exact ht.addObject hwf o hbefore
    | pushNewObject index o => exact ⟨ht.sound, ht.held⟩
    | collect dead => exact ⟨ht.sound, ht.held⟩
    | finalize u =>
      obtain ⟨y, hy, -⟩ := hpossible
      have hgc := ht.gc y.index
      rw [apply, finalize, hy]
      dsimp only
      rw [t.gc_eq] at hgc ⊢
      exact ⟨hgc.sound, hgc.held⟩
    | callGc index => exact ht.gc index
    | change content => exact (hallowed _ _ hx).elim
    | resize entries =>
      exact ⟨ht.sound.perm hpossible, fun e he => ht.held e (hpossible.mem_iff.mp he)⟩

theorem Reachable.inverse (h : Reachable hash (Single hash) t) (hadded : t.added < 2 ^ 32) :
    t.Inverse := by
  induction h with
  | start content =>
    intro i o hi
    simp [Translator.start] at hi
  | @step t h x hpossible hx ih =>
    have hbefore : t.added < 2 ^ 32 := (added_le_apply x).trans_lt hadded
    have hm := h.matched (fun _ _ hs => hs.unchanged) hbefore
    have ht := ih hbefore
    cases x with
    | pushObject o => exact ht.pushObject hm o
    | addBase o => exact absurd rfl (hx.notBase o)
    | pushNewObject index o => exact ht
    | collect dead => exact ht
    | finalize u =>
      obtain ⟨y, hy, -⟩ := hpossible
      rw [apply, finalize, hy]
      exact ht.gc hm y.index
    | callGc index => exact ht.gc hm index
    | change content => exact hx.unchanged.elim
    | resize entries =>
      intro i o hi
      obtain ⟨e, he, hvalue, hcontent⟩ := ht i o hi
      exact ⟨e, hpossible.mem_iff.mpr he, hvalue, hcontent⟩

/-- As long as a userdata is not found dead, a push of its object or an equal one finds it. -/
theorem pushObject_stored (h : Reachable hash (Single hash) t) (hadded : t.added < 2 ^ 32)
    {u : UserdataId} {x : Userdata} (hx : t.userdata[u]? = some x)
    (hfin : x.finalization = .finobj) {o : Nat} (hequal : t.content o = t.content x.object) :
    t.stored hash o = some u ∧ t.pushObject hash o = t := by
  have hcalm := (h.mono fun _ _ hs => hs.calm).undisturbed hadded
  have hm := h.matched (fun _ _ hs => hs.unchanged) hadded
  obtain ⟨hobject, hstored⟩ := hcalm.finobj u x hx hfin
  obtain ⟨e, he, hvalue, hcontent⟩ := h.inverse hadded _ _ hobject
  have hback : t.backMap hash o = some x.index := by
    rw [← hvalue]
    exact hm.sound.lookup_of_mem he (hcontent.trans hequal.symm)
  constructor
  · rw [stored, hback, Option.bind_some, hstored]
  · simp only [pushObject, hback, hstored]

theorem onePush_stored : onePush.stored id 7 = some 0 ∧ onePush.pushObject id 7 = onePush :=
  pushObject_stored reachable_onePush (by decide) (x := onePushUserdata) rfl rfl rfl

/-- An object is held for a push that is not finished, or for a userdata whose finalizer was not
called. As long as no object changes, the back map only knows numbers of objects that are held. -/
theorem objects_owned {allowed : Translator κ η → Step κ η → Prop} (h : Reachable hash allowed t)
    (hadded : t.added < 2 ^ 32) :
    (∀ i o, t.objects.lookup i = some o → (i, o) ∈ t.inFlight ∨
      ∃ x ∈ t.userdata, x.index = i ∧ x.object = o ∧ x.finalization ≠ .finalized) ∧
    ((∀ t x, allowed t x → Unchanged t x) → ∀ e ∈ t.objectsBackMap,
      ∃ o, t.objects.lookup e.value = some o ∧ t.content o = t.content e.key) := by
  have hwf := h.wellFormed hadded
  refine ⟨fun i o hi => (hwf.objects i o hi).imp id ?_,
    fun hallowed => (h.matched hallowed hadded).held⟩
  rintro ⟨u, x, hx, rfl, hobject, hfin⟩
  exact ⟨x, List.mem_of_getElem? hx, rfl, hobject,
    hfin.resolve_right (hwf.index_ne hadded hx)⟩

theorem onePush_owned :
    (∀ i o, onePush.objects.lookup i = some o → (i, o) ∈ onePush.inFlight ∨
      ∃ x ∈ onePush.userdata, x.index = i ∧ x.object = o ∧ x.finalization ≠ .finalized) ∧
    ∀ e ∈ onePush.objectsBackMap,
      ∃ o, onePush.objects.lookup e.value = some o ∧ onePush.content o = onePush.content e.key := by
  obtain ⟨howned, hheld⟩ := objects_owned reachable_onePush (by decide)
  exact ⟨howned, hheld (fun _ _ hs => hs.unchanged)⟩

/-- An object that changed is not found when its userdata is finalized, and its entry stays. -/
example :
    let changed := onePush.apply id (.change (fun _ => 0))
    let t := (changed.apply id (.collect [0])).apply id (.finalize 0)
    t.objects.lookup 0 = none ∧ t.objectsBackMap = [{ hash := 7, key := 7, value := 0 }] := by
  decide

end LuaAddons.Translator
