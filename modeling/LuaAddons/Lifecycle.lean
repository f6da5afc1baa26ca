import LuaAddons.Outcomes
import LuaAddons.Runs

/-!
# The lifecycle of an addon

`State` is assigned in many places, also in `catch` blocks that overwrite what another method
just set. What holds between two top-level operations is `Sound`: a loaded addon is in state
`Ok` or `Error`, state `Ok` comes with a Lua state and the fields of the last successful
`Initialize`, and an addon that was unloaded has no Lua state.

It is not preserved inside an operation, only at its end, so it is proved in two layers. Lua
code that does not re-enter `/addon` is `Quiet`: it changes the state of an addon at most to
`Error`. `Initialize`, `Reload` and `Release` are `Quiet` about all other addons, and settle
their own at their end.
-/

namespace LuaAddons

open Exec Lookup

variable {H : Type} {P : Platform}

/-! ## The fields of an addon -/

/-- The `_addon` table at the end of the last successful `Initialize` of an addon. -/
def lastInitialized : List Event → AddonId → Option AddonTable
  | [], _ => none
  | .initialized b t :: trace, a => if b = a then some t else lastInitialized trace a
  | .started _ :: trace, a => lastInitialized trace a
  | .registered _ _ _ :: trace, a => lastInitialized trace a
  | .call _ _ _ _ :: trace, a => lastInitialized trace a
  | .release _ _ :: trace, a => lastInitialized trace a
  | .removed _ :: trace, a => lastInitialized trace a
  | .command _ _ _ :: trace, a => lastInitialized trace a
  | .executed _ _ _ :: trace, a => lastInitialized trace a

/-- The field of an `_addon` table is a string, and `text` is its value. -/
def FieldIs (P : Platform) (t : AddonTable) (field text : String) : Prop :=
  ∃ v, t.lookup (.string (ascii field)) = some (.string v) ∧ text = P.luaToString v

/-- The fields of an addon are those of an `_addon` table. -/
structure Infos (P : Platform) (t : AddonTable) (x : Addon H) : Prop where
  author : FieldIs P t "author" x.author
  name : FieldIs P t "name" x.name
  version : FieldIs P t "version" x.version

/-- What state `Ok` promises about an addon. -/
structure Initialized (P : Platform) (s : Plugin H) (a : AddonId) : Prop where
  luaState : (s.objects a).luaState.isSome = true
  infos : ∃ t, lastInitialized s.trace a = some t ∧ Infos P t (s.objects a)

theorem readInfo_ok {x : Addon H} {field text : String} (h : readInfo P x field = .ok text) :
    x.luaState.isSome = true ∧
      FieldIs P ((x.luaState.map LuaState.addonTable).getD ∅) field text := by
  unfold readInfo at h
  cases hL : x.luaState with
  | none => simp [hL] at h
  | some L =>
    simp only [hL] at h
    refine ⟨rfl, ?_⟩
    simp only [Option.map_some, Option.getD_some]
    cases hv : L.addonTable.lookup (.string (ascii field)) with
    | none => simp [hv, Platform.getObject] at h
    | some v =>
      rw [hv] at h
      cases v <;> simp [Platform.getObject] at h
      exact ⟨_, hv, h.symm⟩

/-! ## Quiet code -/

/-- Nothing happened to the fields of an addon but an error. -/
structure SameFields (x x' : Addon H) : Prop where
  state : x'.state = x.state ∨ x'.state = .error
  luaState : x'.luaState.isSome = x.luaState.isSome
  author : x'.author = x.author
  name : x'.name = x.name
  version : x'.version = x.version

theorem SameFields.refl (x : Addon H) : SameFields x x := ⟨Or.inl rfl, rfl, rfl, rfl, rfl⟩

theorem SameFields.trans {x x' x'' : Addon H} (h₁ : SameFields x x') (h₂ : SameFields x' x'') :
    SameFields x x'' := by
  refine ⟨?_, h₂.luaState.trans h₁.luaState, h₂.author.trans h₁.author, h₂.name.trans h₁.name,
    h₂.version.trans h₁.version⟩
  rcases h₂.state with h | h
  · rw [h]
    exact h₁.state
  · exact Or.inr h

/-- Nothing happened to an addon but an error. -/
structure SameObject (b : AddonId) (s s' : Plugin H) : Prop where
  fields : SameFields (s.objects b) (s'.objects b)
  initialized : lastInitialized s'.trace b = lastInitialized s.trace b

/-- State `Ok` is never entered, so what it promises stays. -/
theorem SameObject.promise {b : AddonId} {s s' : Plugin H} (h : SameObject b s s')
    (hi : (s.objects b).state = .ok → Initialized P s b)
    (hok : (s'.objects b).state = .ok) : Initialized P s' b := by
  have hstate : (s.objects b).state = .ok := by
    rcases h.fields.state with he | he
    · rw [← he]
      exact hok
    · rw [he] at hok
      cases hok
  obtain ⟨hL, t, ht, hinfos⟩ := hi hstate
  refine ⟨by rw [h.fields.luaState]; exact hL, t, by rw [h.initialized]; exact ht, ?_⟩
  exact ⟨by rw [h.fields.author]; exact hinfos.author, by rw [h.fields.name]; exact hinfos.name,
    by rw [h.fields.version]; exact hinfos.version⟩

/-- No addon enters `m_Addons`, and none is unloaded. -/
structure Stays (s s' : Plugin H) : Prop where
  loaded : ∀ k b, s'.addons.lookup k = some b → s.addons.lookup k = some b
  removed : ∀ b, .removed b ∈ s'.trace → .removed b ∈ s.trace

theorem Stays.of_eq {s s' : Plugin H} (ha : s'.addons = s.addons) (ht : s'.trace = s.trace) :
    Stays s s' := ⟨fun k b h => by rw [ha] at h; exact h, fun b h => by rw [ht] at h; exact h⟩

theorem Stays.of_event {s s' : Plugin H} {e : Event} (ha : s'.addons = s.addons)
    (ht : s'.trace = e :: s.trace) (he : ∀ b, e ≠ .removed b) : Stays s s' := by
  refine ⟨fun k b h => by rw [ha] at h; exact h, fun b h => ?_⟩
  rw [ht] at h
  rcases List.mem_cons.mp h with h | h
  · exact absurd h.symm (he b)
  · exact h

/-- Code that is quiet about all addons outside `X`. -/
structure Quiet (P : Platform) (X : Set AddonId) (stack : CallStack) (s s' : Plugin H) : Prop
    where
  grows : Grows P stack s s'
  stays : Stays s s'
  same : ∀ b ∉ X, SameObject b s s'

variable {X : Set AddonId} {stack : CallStack} {a : AddonId}

instance : IsPreorder (Plugin H) (Quiet P X stack) where
  refl s := ⟨.refl s, ⟨fun _ _ h => h, fun _ h => h⟩, fun _ _ => ⟨.refl _, rfl⟩⟩
  trans _ _ _ h₁ h₂ := ⟨h₁.grows.trans h₂.grows,
    ⟨fun k b h => h₁.stays.loaded k b (h₂.stays.loaded k b h),
      fun b h => h₁.stays.removed b (h₂.stays.removed b h)⟩,
    fun b hb => ⟨(h₁.same b hb).fields.trans (h₂.same b hb).fields,
      (h₂.same b hb).initialized.trans (h₁.same b hb).initialized⟩⟩

theorem Quiet.mono {s s' : Plugin H} (h : Quiet P ∅ stack s s') : Quiet P X stack s s' :=
  ⟨h.grows, h.stays, fun b _ => h.same b (Set.notMem_empty b)⟩

/-- A write to one object that is in `X`, or that changes nothing but its state to an error. -/
theorem Quiet.of_addon {s : Plugin H} {f : Addon H → Addon H}
    (hg : Grows P stack s (s.modifyAddon a f))
    (hf : a ∉ X → SameFields (s.objects a) (f (s.objects a))) :
    Quiet P X stack s (s.modifyAddon a f) := by
  refine ⟨hg, .of_eq rfl rfl, fun b hb => ⟨?_, rfl⟩⟩
  by_cases hba : b = a
  · subst hba
    simpa [Plugin.modifyAddon] using hf hb
  · simpa [Plugin.modifyAddon, hba] using SameFields.refl (s.objects b)

theorem Quiet.of_emit {s : Plugin H} {e : Event}
    (hg : Grows P stack s (after (emit e) s)) (hr : ∀ b, e ≠ .removed b)
    (hi : ∀ b ∉ X, lastInitialized (e :: s.trace) b = lastInitialized s.trace b) :
    Quiet P X stack s (after (emit e) s) :=
  ⟨hg, .of_event rfl rfl hr, fun b hb => ⟨.refl _, hi b hb⟩⟩

theorem Quiet.of_rest {s s' : Plugin H} (hg : Grows P stack s s') (ha : s'.addons = s.addons)
    (ho : s'.objects = s.objects) (ht : s'.trace = s.trace) : Quiet P X stack s s' :=
  ⟨hg, .of_eq ha ht, fun b _ => ⟨by rw [ho]; exact .refl _, by rw [ht]⟩⟩

theorem quiet_effects (P : Platform) (X : Set AddonId) :
    ScriptEffects (H := H) P (Quiet P X) := by
  have hg := (grows_effects (H := H) P).toScriptEffects
  exact {
    preorder := fun _ => inferInstance
    grows := fun h => h.grows
    outer := fun h => ⟨h.grows.outer, h.stays, h.same⟩
    lua := fun stack a f hf => keeps_modify (fun s => .of_addon (hg.lua stack a f hf s)
      (fun _ => ⟨Or.inl rfl, by simp, rfl, rfl, rfl⟩))
    fail := fun stack a => keeps_modify (fun s => .of_addon (hg.fail stack a s)
      (fun _ => ⟨Or.inr rfl, rfl, rfl, rfl, rfl⟩))
    tell := fun stack m s => .of_rest (hg.tell stack m s) rfl rfl rfl
    call := fun stack a f args s =>
      .of_emit (hg.call stack a f args s) (by simp) (fun _ _ => rfl)
    executed := fun stack target args commands s =>
      .of_emit (hg.executed stack target args commands s) (by simp) (fun _ _ => rfl)
    store := fun stack a name f => keeps_modify (fun s => by
      have hgrows := hg.store stack a name f s
      change Grows P stack s (s.storeCommand a name f) at hgrows
      cases hL : (s.objects a).luaState with
      | none =>
        simp only [Plugin.storeCommand, hL]
        exact refl_of (Quiet P X stack) s
      | some L =>
        simp only [Plugin.storeCommand, hL] at hgrows ⊢
        refine ⟨hgrows, .of_event rfl rfl (by simp), fun b _ => ⟨?_, rfl⟩⟩
        by_cases hb : b = a
        · subst hb
          simp only [Plugin.modifyAddon, Function.update_self]
          exact ⟨Or.inl rfl, by rw [hL]; rfl, rfl, rfl, rfl⟩
        · simpa [Plugin.modifyAddon, hb] using SameFields.refl (s.objects b))
    registry := fun stack s α x h => by
      have hgrows := hg.registry stack s α x h
      rw [after_onRegistry] at hgrows ⊢
      exact .of_rest hgrows rfl rfl rfl
    handled := fun stack b s => .of_rest (hg.handled stack b s) rfl rfl rfl }

/-- The script or function does not call the delegate of `/addon`. -/
def NotAddonCommand (d : CommandDelegate) : Prop := d ≠ .handleAddonCommand

theorem callback_delegate_keeps {R : CallStack → Plugin H → Plugin H → Prop}
    (h : ScriptEffects P R) {env : Env H} (henv : env.Targets NotAddonCommand) :
    ∀ n, NestedKeeps P R NotAddonCommand (delegate P env n)
  | 0 => by
    intro stack d args _
    have := h.preorder stack
    exact keeps_pure _
  | n + 1 => by
    intro stack d args hd
    have := h.preorder stack
    cases d with
    | handleAddonCommand => exact absurd rfl hd
    | handleAddonCallbackCommand =>
      exact handleAddonCallbackCommand_keeps h (callback_delegate_keeps h henv n) henv stack args
    | foreign code => exact keeps_pure _

/-! ## Release and Initialize -/

section Start

variable {env : Env H} {n : Nat}

theorem keeps_own_addon (stack : CallStack) (a : AddonId) {f : Addon H → Addon H}
    (hfile : ∀ x, (f x).fileName = x.fileName)
    (hlua : ∀ x, (f x).luaState = x.luaState ∨ (f x).luaState = none) :
    Keeps (Quiet P {a} stack) (modifyAddon a f) :=
  keeps_modify (fun _ => .of_addon (modifyAddon_grows P stack a (hfile _) (hlua _))
    (fun h => absurd rfl h))

theorem release_quiet (env : Env H) (stack : CallStack) (a : AddonId) :
    Keeps (Quiet P {a} stack) (release env stack a) := by
  have hg := grows_effects (H := H) P
  refine keeps_bind (fun s => .of_emit (hg.release stack a s trivial) (by simp)
    (fun _ _ => rfl)) (fun _ => ?_)
  refine keeps_bind ((quiet_effects P {a}).keeps_getAddon stack a) (fun x => ?_)
  split
  · exact keeps_own_addon stack a (fun _ => rfl) (fun _ => Or.inl rfl)
  · exact keeps_own_addon stack a (fun _ => rfl) (fun _ => Or.inr rfl)

theorem readInfos_quiet (stack : CallStack) (a : AddonId) :
    Keeps (Quiet P {a} stack) (readInfos P a : Method H Unit) := by
  have hq := quiet_effects (H := H) P {a}
  have hlift := fun x : Except NetException String => hq.keeps_liftExcept stack x
  refine keeps_bind (hq.keeps_getAddon stack a) (fun x => ?_)
  refine keeps_bind (hlift _) (fun author => ?_)
  refine keeps_bind (keeps_own_addon stack a (fun _ => rfl) (fun _ => Or.inl rfl)) (fun _ => ?_)
  refine keeps_bind (hlift _) (fun name => ?_)
  refine keeps_bind (keeps_own_addon stack a (fun _ => rfl) (fun _ => Or.inl rfl)) (fun _ => ?_)
  refine keeps_bind (hlift _) (fun version => ?_)
  refine keeps_bind (keeps_own_addon stack a (fun _ => rfl) (fun _ => Or.inl rfl)) (fun _ s => ?_)
  refine .of_emit ((grows_effects P).initialized stack a _ s) (by simp) (fun b hb => ?_)
  have hba : a ≠ b := fun h => hb h.symm
  simp only [lastInitialized, if_neg hba]

/-- `Initialize` is quiet about all other addons. -/
theorem startAddon_quiet (henv : env.Targets NotAddonCommand) (stack : CallStack) (a : AddonId)
    (name : String) : Keeps (On (Valid P (a :: stack)) (Quiet P {a} stack))
      (startAddon P env (delegate P env n) stack a name) := by
  have hq := quiet_effects (H := H) P {a}
  have hn := callback_delegate_keeps hq henv n
  refine keeps_tryCatch ?_ (fun ex => ?_)
  · refine keeps_bind ?_ (fun _ => keeps_bind (hq.keeps_on (readInfos_quiet stack a))
      (fun _ => keeps_pure _))
    refine keeps_bind (hq.keeps_on (fun s => ?_)) (fun _ => ?_)
    · refine ⟨startLua_grows P stack a rfl s, .of_event rfl rfl (by simp), fun b hb => ⟨?_, rfl⟩⟩
      have hba : b ≠ a := hb
      simpa [after, Plugin.startLua, Plugin.modifyAddon, hba] using SameFields.refl (s.objects b)
    · cases hbody : env.script name with
      | none => exact keeps_throw _
      | some body =>
        refine keeps_bind (Keeps.mono (runScript_keeps hq hn (a :: stack) a body
          (henv.script name body hbody)) ?_) (fun _ => keeps_pure _)
        exact fun s s' hr hv => ⟨hq.outer (hr hv).1, (hr hv).2⟩
  · refine keeps_bind (hq.keeps_on (hq.tell stack _)) (fun _ => ?_)
    refine keeps_bind (hq.keeps_on (release_quiet env stack a)) (fun _ => ?_)
    exact keeps_bind (hq.keeps_on (hq.fail stack a)) (fun _ => keeps_pure _)

/-- The addon is in state `Ok` as it promises, or in state `Error`. -/
def Settled (P : Platform) (a : AddonId) (s : Plugin H) : Prop :=
  ((s.objects a).state = .ok ∧ Initialized P s a) ∨ (s.objects a).state = .error

theorem readInfos_settled {s s' : Plugin H} {u : Unit}
    (h : (readInfos P a).run s = .ok u s') : Settled P a s' := by
  obtain ⟨author, name, version, hauthor, hname, hversion, hobject, htrace⟩ := readInfos_ok h
  obtain ⟨hL, hauthor⟩ := readInfo_ok hauthor
  obtain ⟨-, hname⟩ := readInfo_ok hname
  obtain ⟨-, hversion⟩ := readInfo_ok hversion
  refine Or.inl ⟨by rw [hobject], by rw [hobject]; exact hL, _,
    by rw [htrace]; exact if_pos rfl, ?_⟩
  rw [hobject]
  exact ⟨hauthor, hname, hversion⟩

theorem startAddon_settled {nested : Nested H} (name : String) (s : Plugin H) :
    Settled P a (after (startAddon P env nested stack a name) s) := by
  obtain ⟨ok, s', h⟩ : ∃ ok s', (startAddon P env nested stack a name).run s = .ok ok s' :=
    returns_startAddon name s
  rw [after_of_run h]
  rcases startAddon_cases h with ⟨-, s₁, -, hinfos⟩ | ⟨-, hstate, -⟩
  · exact readInfos_settled hinfos
  · exact Or.inr hstate

theorem reload_settled {nested : Nested H} (s : Plugin H) :
    Settled P a (after (reload P env nested stack a) s) := by
  unfold after
  rw [run_reload]
  exact startAddon_settled _ _

theorem initializeAddon_quiet (henv : env.Targets NotAddonCommand) (stack : CallStack)
    (a : AddonId) (name : String) :
    Keeps (On (fun s => Valid P (a :: stack) s ∧ (s.objects a).fileName = name)
      (Quiet P {a} stack)) (initializeAddon P env (delegate P env n) stack a name) := by
  have hq := quiet_effects (H := H) P {a}
  have hmono : ∀ s s' : Plugin H, Valid P (a :: stack) s ∧ (s.objects a).fileName = name →
      Quiet P {a} stack s s' → Valid P (a :: stack) s' ∧ (s'.objects a).fileName = name :=
    fun s s' hs hr => ⟨hs.1.grows hr.grows, by rw [hr.grows.fileName a hs.1.head]; exact hs.2⟩
  have hloading : Keeps (On (fun s : Plugin H => Valid P (a :: stack) s ∧
      (s.objects a).fileName = name) (Quiet P {a} stack))
      (modifyAddon a (fun x => { x with state := .loading, fileName := name })) := by
    intro s hs
    have hr : Quiet P {a} stack s
        (s.modifyAddon a (fun x => { x with state := .loading, fileName := name })) :=
      .of_addon (modifyAddon_grows P stack a hs.2.symm (Or.inl rfl)) (fun h => absurd rfl h)
    exact ⟨hr, hmono s _ hs hr⟩
  have hrest := keeps_bind hloading (fun _ =>
    (startAddon_quiet (n := n) henv stack a name).strengthen (fun _ hs => hs.1) hmono)
  refine keeps_bind ((hq.keeps_getAddon stack a).on hmono) (fun x => ?_)
  cases x.luaState.isSome with
  | true => exact keeps_bind ((release_quiet env stack a).on hmono) (fun _ => hrest)
  | false => exact hrest

/-- `Reload` is quiet about all other addons. -/
theorem reload_quiet (henv : env.Targets NotAddonCommand) (stack : CallStack) (a : AddonId) :
    Keeps (On (Valid P (a :: stack)) (Quiet P {a} stack))
      (reload P env (delegate P env n) stack a) := by
  have hq := quiet_effects (H := H) P {a}
  refine keeps_tryCatch ?_ (fun ex => ?_)
  · refine keeps_bind (hq.keeps_on (keeps_own_addon stack a (fun _ => rfl)
      (fun _ => Or.inl rfl))) (fun _ => ?_)
    refine keeps_bind (hq.keeps_on (release_quiet env stack a)) (fun _ => ?_)
    refine keeps_get_bind (fun s hv => ?_)
    have hr := (initializeAddon_quiet (n := n) henv stack a (s.objects a).fileName s
      ⟨hv, rfl⟩).1
    exact ⟨hr, hv.grows hr.grows⟩
  · exact keeps_bind (hq.keeps_on (hq.fail stack a)) (fun _ => keeps_pure _)

end Start

/-! ## The invariant -/

/-- What holds of an addon between two operations. `D` stands for the assumption that
`Lua.Dispose` does not throw. -/
structure Sound (D : Prop) (P : Platform) (s : Plugin H) (a : AddonId) : Prop where
  promise : (s.objects a).state = .ok → Initialized P s a
  loaded : ∀ k, s.addons.lookup k = some a →
    ((s.objects a).state = .ok ∨ (s.objects a).state = .error) ∧ .removed a ∉ s.trace
  removed : .removed a ∈ s.trace →
    a < s.nextAddon ∧ (D → (s.objects a).luaState = none)

/-- Every addon is sound, and the state can be worked on. -/
structure Life (D : Prop) (P : Platform) (s : Plugin H) : Prop where
  valid : Valid P [] s
  sound : ∀ a, Sound D P s a

variable {D : Prop} {s s' : Plugin H}

theorem Sound.same {b : AddonId} (h : Sound D P s b) (hnext : s.nextAddon ≤ s'.nextAddon)
    (hstays : Stays s s') (hsame : SameObject b s s') : Sound D P s' b := by
  refine ⟨hsame.promise h.promise, fun k hl => ?_, fun hr => ?_⟩
  · obtain ⟨hstate, hnot⟩ := h.loaded k (hstays.loaded k b hl)
    refine ⟨?_, fun hr => hnot (hstays.removed b hr)⟩
    rcases hsame.fields.state with he | he
    · rw [he]
      exact hstate
    · exact Or.inr he
  · obtain ⟨hb, hlua⟩ := h.removed (hstays.removed b hr)
    refine ⟨hb.trans_le hnext, fun hd => ?_⟩
    have hL := hsame.fields.luaState
    rw [hlua hd] at hL
    exact Option.isNone_iff_eq_none.mp (by simpa using hL)

/-- A step that is quiet about all addons but `a`, when `a` comes out sound. -/
theorem Life.quiet (hv : Valid P [] s) (h : ∀ b ≠ a, Sound D P s b)
    (hq : Quiet P {a} [] s s') (ha : Sound D P s' a) : Life D P s' := by
  refine ⟨hv.grows hq.grows, fun b => ?_⟩
  by_cases hb : b = a
  · subst hb
    exact ha
  · exact (h b hb).same hq.grows.nextAddon hq.stays (hq.same b hb)

theorem Life.same (h : Life D P s) (hq : Quiet P ∅ [] s s') : Life D P s' :=
  ⟨h.valid.grows hq.grows, fun b => (h.sound b).same hq.grows.nextAddon hq.stays
    (hq.same b (Set.notMem_empty b))⟩

theorem Settled.sound (h : Settled P a s) (hr : .removed a ∉ s.trace) : Sound D P s a := by
  refine ⟨fun hok => ?_, fun k _ => ⟨?_, hr⟩, fun hm => absurd hm hr⟩
  · rcases h with ⟨-, hi⟩ | he
    · exact hi
    · rw [he] at hok
      cases hok
  · rcases h with ⟨hok, -⟩ | he
    · exact Or.inl hok
    · exact Or.inr he

/-! ## Operations -/

section Operations

variable {env : Env H} {n : Nat} (henv : env.Targets NotAddonCommand)

include henv

theorem Life.after_invokeEvent (h : Life D P s) (ha : a < s.nextAddon) (name : String)
    (args : List NetObject) : Quiet P ∅ [] s
      (after (invokeEvent P env (delegate P env n) [] a name args) s) :=
  (invokeEvent_keeps (quiet_effects P ∅) (callback_delegate_keeps (quiet_effects P ∅) henv n)
    henv [] a name args s (h.valid.cons ha)).1

omit henv in
/-- A new object is sound while its script runs: it is in no dictionary. -/
theorem Life.create (h : Life D P s) (name : String) : Life D P (s.create name) := by
  refine ⟨h.valid.grows (create_grows P [] s name), fun b => ?_⟩
  by_cases hb : b = s.nextAddon
  · subst hb
    refine ⟨fun hok => ?_, fun k hl => ?_, fun hr => ?_⟩
    · simp [Plugin.create] at hok
    · exact absurd (h.valid.keyed k _ hl).1 (lt_irrefl _)
    · exact absurd ((h.sound _).removed hr).1 (lt_irrefl _)
  · refine (h.sound b).same (Nat.le_succ _) (.of_eq rfl rfl) ⟨?_, rfl⟩
    simpa [Plugin.create, hb] using SameFields.refl (s.objects b)

omit henv in
theorem Life.tryAdd (h : Life D P s) {k : String} (hk : k = P.toLower (s.objects a).fileName)
    (ha : a < s.nextAddon) (hstate : (s.objects a).state = .ok ∨ (s.objects a).state = .error)
    (hr : .removed a ∉ s.trace) : Life D P (s.tryAdd k a) := by
  unfold Plugin.tryAdd
  split
  · exact h
  · have hlookup : ∀ k' b, (s.addons.insert k a).lookup k' = some b →
        s.addons.lookup k' = some b ∨ (k' = k ∧ b = a) := by
      intro k' b hl
      by_cases hkk : k' = k
      · subst hkk
        simp only [AList.lookup_insert, Option.some.injEq] at hl
        exact Or.inr ⟨rfl, hl.symm⟩
      · rw [AList.lookup_insert_ne hkk] at hl
        exact Or.inl hl
    refine ⟨⟨h.valid.below, fun k' b hl => ?_⟩, fun b => ⟨?_, fun k' hl => ?_, ?_⟩⟩
    · rcases hlookup k' b hl with hl | ⟨rfl, rfl⟩
      · exact h.valid.keyed k' b hl
      · exact ⟨ha, hk⟩
    · intro hok
      obtain ⟨hL, hinfos⟩ := (h.sound b).promise hok
      exact ⟨hL, hinfos⟩
    · rcases hlookup k' b hl with hl | ⟨rfl, rfl⟩
      · exact (h.sound b).loaded k' hl
      · exact ⟨hstate, hr⟩
    · exact (h.sound b).removed

theorem Life.after_loadAddon (h : Life D P s) (name : String) :
    Life D P (after (loadAddon P env (delegate P env n) [] name) s) := by
  cases hl : s.addons.lookup (P.toLower name) with
  | some a =>
    have hrun : after (loadAddon P env (delegate P env n) [] name) s = s := by
      simp [after, LuaAddons.loadAddon, hl]
    rw [hrun]
    exact h
  | none =>
    have hc := h.create name
    have hlt : s.nextAddon < (s.create name).nextAddon := Nat.lt_succ_self _
    have hnot : .removed s.nextAddon ∉ (s.create name).trace :=
      fun hm => absurd ((h.sound _).removed hm).1 (lt_irrefl _)
    have hq := (startAddon_quiet (n := n) henv [] s.nextAddon name _ (hc.valid.cons hlt)).1
    have hsettled : Settled P s.nextAddon
        (after (startAddon P env (delegate P env n) [] s.nextAddon name) (s.create name)) :=
      startAddon_settled name _
    have hreturns : Returns (startAddon P env (delegate P env n) [] s.nextAddon name) :=
      returns_startAddon name
    obtain ⟨ok, s₁, hrun⟩ := hreturns (s.create name)
    unfold after
    rw [run_loadAddon_of_none hl, EStateM.run_bind, hrun]
    rw [after_of_run hrun] at hq hsettled
    have hnot₁ : .removed s.nextAddon ∉ s₁.trace := fun hm => hnot (hq.stays.removed _ hm)
    have h₁ : Life D P s₁ := .quiet hc.valid (fun b _ => hc.sound b) hq (hsettled.sound hnot₁)
    cases ok with
    | false => exact h₁
    | true =>
      have hlt₁ := hlt.trans_le hq.grows.nextAddon
      have hq₂ := h₁.after_invokeEvent (n := n) henv hlt₁ "load" []
      simp only [if_true]
      rw [(returns_discard (returns_invokeEvent "load" [])).run_seq, after_discard]
      refine (h₁.same hq₂).tryAdd ?_ (hlt₁.trans_le hq₂.grows.nextAddon) ?_
        (fun hm => hnot₁ (hq₂.stays.removed _ hm))
      · rw [hq₂.grows.fileName _ hlt₁, hq.grows.fileName _ hlt]
        simp [Plugin.create]
      · rcases (hq₂.same s.nextAddon (Set.notMem_empty _)).fields.state with he | he
        · rw [he]
          rcases hsettled with ⟨hok, -⟩ | he
          · exact Or.inl hok
          · exact Or.inr he
        · exact Or.inr he

omit henv in
theorem removeAddonCommands_quiet (addonName : String) :
    Keeps (Quiet P ∅ []) (onRegistry (removeAddonCommands P addonName) : Method H Unit) :=
  fun s => (quiet_effects P ∅).registry [] s _ _ (.remove _ _)

/-- The addon leaves the dictionary before its handler runs and before it is released, so it
is sound again only at the end. -/
theorem Life.after_unloadFound (h : Life D P s) (hD : D → ∀ heap, env.disposeThrows heap = false)
    {key : String} (hl : s.addons.lookup key = some a) (shown : String) :
    Life D P (after (unloadFound P env (delegate P env n) [] key shown a) s) := by
  have hg := grows_effects (H := H) P
  have hlt := (h.valid.keyed key a hl).1
  let s₁ := s.unlisted key a
  have hgrows₁ : Grows P [] s s₁ := (hg.erase [] key s).trans (hg.removed [] a _)
  have hv₁ : Valid P [] s₁ := h.valid.grows hgrows₁
  have hlookup : ∀ k b, s₁.addons.lookup k = some b → k ≠ key ∧ s.addons.lookup k = some b :=
    fun k b hk => lookup_erase_eq_some hk
  have hsound₁ : ∀ b ≠ a, Sound D P s₁ b := by
    intro b hb
    have hmem : .removed b ∈ s₁.trace → .removed b ∈ s.trace := by
      intro hm
      rcases List.mem_cons.mp hm with he | hm
      · exact absurd (Event.removed.inj he) hb
      · exact hm
    refine ⟨fun hok => ?_, fun k hk => ?_, fun hm => (h.sound b).removed (hmem hm)⟩
    · obtain ⟨hL, hinfos⟩ := (h.sound b).promise hok
      exact ⟨hL, hinfos⟩
    · obtain ⟨hstate, hnot⟩ := (h.sound b).loaded k (hlookup k b hk).2
      exact ⟨hstate, fun hm => hnot (hmem hm)⟩
  -- the handler of `unload`, `Release`, the message and the removal of the commands
  have hq₂ := (invokeEvent_keeps (quiet_effects P ∅)
    (callback_delegate_keeps (quiet_effects P ∅) henv n) henv [] a "unload" [] s₁
    (hv₁.cons hlt)).1
  generalize hs₂ : after (invokeEvent P env (delegate P env n) [] a "unload" []) s₁ = s₂ at hq₂
  have hq₃ := release_quiet (P := P) env [] a s₂
  rw [after_of_run (run_release s₂)] at hq₃
  have hq₄ := (quiet_effects (H := H) P ∅).tell []
    (.success ("[Addons] Unloaded addon '" ++ shown ++ "'!")) (s₂.release env [] a)
  have hrun : after (unloadFound P env (delegate P env n) [] key shown a) s =
      after (onRegistry (removeAddonCommands P (P.toLower shown)))
        (after (tell (.success ("[Addons] Unloaded addon '" ++ shown ++ "'!")))
          (s₂.release env [] a)) := by
    rw [← hs₂]
    exact LuaAddons.after_unloadFound key shown s
  have hq₅ := removeAddonCommands_quiet (P := P) (P.toLower shown)
    (after (tell (.success ("[Addons] Unloaded addon '" ++ shown ++ "'!"))) (s₂.release env [] a))
  rw [← hrun] at hq₅
  have hobjects : (after (unloadFound P env (delegate P env n) [] key shown a) s).objects
      = (s₂.release env [] a).objects := by
    rw [hrun, after_onRegistry]
    rfl
  have haddons : (after (unloadFound P env (delegate P env n) [] key shown a) s).addons
      = s₂.addons := by
    rw [hrun, after_onRegistry]
    rfl
  have hq : Quiet P {a} [] s₁
      (after (unloadFound P env (delegate P env n) [] key shown a) s) :=
    trans_of (Quiet P {a} []) hq₂.mono (trans_of (Quiet P {a} []) hq₃
      (trans_of (Quiet P {a} []) hq₄.mono hq₅.mono))
  refine .quiet hv₁ hsound₁ hq ⟨fun hok => ?_, fun k hk => ?_, fun _ => ⟨?_, fun hd => ?_⟩⟩
  · rw [hobjects, release_objects_self] at hok
    split at hok <;> simp [Addon.released] at hok
  · rw [haddons] at hk
    obtain ⟨hne, hk⟩ := hlookup k a (hq₂.stays.loaded k a hk)
    exact absurd (h.valid.keyed.injective hk hl) hne
  · exact hlt.trans_le hq.grows.nextAddon
  · rw [hobjects, release_objects_self, if_neg]
    · rfl
    · cases (s₂.objects a).luaState <;> simp [hD hd]

theorem Life.after_unloadAddon (h : Life D P s) (hD : D → ∀ heap, env.disposeThrows heap = false)
    (addonName : String) :
    Life D P (after (unloadAddon P env (delegate P env n) [] addonName) s) := by
  rw [unloadAddon, after_get_bind]
  cases hl : s.addons.lookup (P.toLower addonName) with
  | none => exact h.same ((quiet_effects P ∅).tell [] _ s)
  | some a => exact h.after_unloadFound henv hD hl addonName

theorem Life.after_unloadAll (hD : D → ∀ heap, env.disposeThrows heap = false) :
    Keeps (Preserves (Life D P)) (unloadAll P env (delegate P env n) []) := by
  refine keeps_get_bind (fun s => keeps_forM (R := Preserves (Life D P)) (fun k _ => ?_) s)
  refine keeps_get_bind (fun s h => ?_)
  cases hl : s.addons.lookup k with
  | none => exact h
  | some a => exact h.after_unloadFound henv hD hl k

/-- The invariant while an operation works on the addons `A`, none of which is unloaded. -/
structure Holding (D : Prop) (P : Platform) (A : List AddonId) (s : Plugin H) : Prop where
  life : Life D P s
  below : ∀ a ∈ A, a < s.nextAddon
  present : ∀ a ∈ A, .removed a ∉ s.trace

variable {A : List AddonId}

omit henv in
theorem Holding.step (h : Holding D P A s) (hg : s.nextAddon ≤ s'.nextAddon) (hs : Stays s s')
    (hl : Life D P s') : Holding D P A s' :=
  ⟨hl, fun a ha => (h.below a ha).trans_le hg, fun a ha hm => h.present a ha (hs.removed a hm)⟩

omit henv in
theorem keeps_holding {α : Type} {x : Method H α}
    (hx : ∀ s, Holding D P A s → Quiet P ∅ [] s (after x s)) :
    Keeps (Preserves (Holding D P A)) x := by
  intro s h
  have hq := hx s h
  exact h.step hq.grows.nextAddon hq.stays (h.life.same hq)

theorem invokeEvent_holding (ha : a ∈ A) (name : String) (args : List NetObject) :
    Keeps (Preserves (Holding D P A))
      (discard (invokeEvent P env (delegate P env n) [] a name args) : Method H Unit) := by
  refine keeps_holding (fun s h => ?_)
  rw [after_discard]
  exact h.life.after_invokeEvent henv (h.below a ha) name args

theorem reload_holding (ha : a ∈ A) : Keeps (Preserves (Holding D P A))
    (discard (reload P env (delegate P env n) [] a) : Method H Unit) := by
  intro s h
  rw [after_discard]
  have hq := (reload_quiet (n := n) henv [] a s (h.life.valid.cons (h.below a ha))).1
  have hnot := fun hm => h.present a ha (hq.stays.removed a hm)
  exact h.step hq.grows.nextAddon hq.stays
    (.quiet h.life.valid (fun b _ => h.life.sound b) hq ((reload_settled s).sound hnot))

theorem Life.after_reloadAddon (h : Life D P s) (addonName : String) :
    Life D P (after (reloadAddon P env (delegate P env n) [] addonName) s) := by
  rw [reloadAddon, after_get_bind]
  cases hl : s.addons.lookup (P.toLower addonName) with
  | none => exact h
  | some a =>
    have ha : a ∈ [a] := List.mem_singleton_self a
    have hevent := fun name => invokeEvent_holding (D := D) (P := P) (n := n) henv ha name []
    have hall := keeps_bind (hevent "unload") (fun _ =>
      keeps_bind (keeps_holding (fun s _ => removeAddonCommands_quiet (P.toLower addonName) s))
        (fun _ => keeps_bind (reload_holding (n := n) henv ha) (fun _ =>
          keeps_bind (hevent "load") (fun _ => keeps_holding (fun s _ => (quiet_effects P ∅).tell []
            (.server ("[Addons] Reloaded addon '" ++ addonName ++ "'!")) s)))))
    refine (hall s ⟨h, ?_, ?_⟩).life
    · simpa using (h.valid.keyed _ a hl).1
    · simpa using ((h.sound a).loaded _ hl).2

theorem Life.after_onGamePostUpdate (h : Life D P s) (args : NetObject) :
    Life D P (after (onGamePostUpdate P env (delegate P env n) [] args) s) := by
  have hevents : Keeps (Preserves (Life D P))
      (forEachInvoke P env (delegate P env n) [] "GamePostUpdate" [args]) := fun s h =>
    h.same (forEachInvoke_keeps (quiet_effects P ∅)
      (callback_delegate_keeps (quiet_effects P ∅) henv n) henv [] _ _ s h.valid).1
  refine keeps_bind hevents (fun _ => keeps_get_bind (fun s h => ?_)) s h
  cases s.configuration with
  | none => exact h
  | some configuration =>
    dsimp only
    split
    · have hentries : ∀ e ∈ s.addons.entries, s.addons.lookup e.1 = some e.2 :=
        fun e he => AList.mem_lookup_iff.mpr he
      have hloop : Keeps (Preserves (Holding D P (s.addons.entries.map Sigma.snd)))
          (s.addons.entries.forM (fun e => do
            let x ← getAddon e.2
            if x.state = .error then autoReload P env (delegate P env n) [] e.2)) := by
        refine keeps_forM (fun e he => ?_)
        have ha : e.2 ∈ s.addons.entries.map Sigma.snd := List.mem_map_of_mem he
        refine keeps_bind (keeps_holding (fun s _ =>
          (quiet_effects P ∅).keeps_getAddon [] e.2 s)) (fun x => ?_)
        split
        · exact keeps_bind (reload_holding henv ha)
            (fun _ => invokeEvent_holding henv ha "load" [])
        · exact keeps_pure _
      refine (hloop s ⟨h, ?_, ?_⟩).life
      · intro a ha
        obtain ⟨e, he, rfl⟩ := List.mem_map.mp ha
        exact (h.valid.keyed _ _ (hentries e he)).1
      · intro a ha
        obtain ⟨e, he, rfl⟩ := List.mem_map.mp ha
        exact ((h.sound _).loaded _ (hentries e he)).2
    · exact h

theorem Life.after_addonSubcommand (h : Life D P s)
    (hD : D → ∀ heap, env.disposeThrows heap = false) (args : CommandArgs) :
    Life D P (after (addonSubcommand P env (delegate P env n) [] args) s) := by
  have hq := quiet_effects (H := H) P ∅
  unfold addonSubcommand
  cases args.parameters with
  | nil => exact h.same (addonUsage_keeps hq [] args s)
  | cons subcommand rest =>
    dsimp only
    split
    · refine h.same (.of_rest ((grows_effects P).configuration [] _ trivial s) rfl rfl rfl)
    · split
      · exact h.same (listAddons_keeps hq [] s)
      · split
        · refine keeps_bind (R := Preserves (Life D P))
            (fun s h => h.after_loadAddon henv _) (fun o => ?_) s h
          cases o with
          | none => exact fun s h => h.same (hq.tell [] _ s)
          | some a =>
            exact keeps_bind (fun s h => h.same (hq.keeps_getAddon [] a s))
              (fun x s h => h.same (hq.tell [] _ s))
        · split
          · exact h.after_unloadAddon henv hD _
          · split
            · exact Life.after_unloadAll henv hD s h
            · split
              · exact h.after_reloadAddon henv _
              · exact h.same (addonUsage_keeps hq [] args s)

/-- Every operation other than `Dispose` leaves the addons sound. -/
theorem Life.after_op (h : Life D P s) (hD : D → ∀ heap, env.disposeThrows heap = false)
    {op : Op} (hop : op.Plain) : Life D P (after (op.run P env n) s) := by
  have hq := quiet_effects (H := H) P ∅
  have hn := callback_delegate_keeps hq henv n
  cases op with
  | load name =>
    change Life D P (after (discard _) s)
    rw [after_discard]
    exact h.after_loadAddon henv name
  | addonCommand args =>
    have hcommand : Quiet P ∅ [] s
        (after (emit (.command args.parameters s.addons.entries [])) s) :=
      .of_emit ((grows_effects P).command [] _ _ s) (by simp) (fun _ _ => rfl)
    exact (h.same hcommand).after_addonSubcommand henv hD args
  | callbackCommand args =>
    exact h.same (handleAddonCallbackCommand_keeps hq hn henv [] args s h.valid).1
  | event name args => exact h.same (forEachInvoke_keeps hq hn henv [] name args s h.valid).1
  | handledEvent name args handled =>
    have h' := h.same (hq.handled [] handled s)
    exact h'.same (onHandled_keeps hq hn henv [] name args _ h'.valid).1
  | gamePostUpdate args => exact h.after_onGamePostUpdate henv args
  | registerCommand addonName permission command =>
    change Life D P (after (discard _) s)
    rw [after_discard]
    exact h.same (hq.registry [] s _ (modifyGet (registerCommand P addonName permission command))
      (.register addonName permission command s.registry))
  | removeAddonCommands addonName => exact h.same (removeAddonCommands_quiet addonName s)
  | dispose => exact absurd hop (by simp [Op.Plain])
  | otherPlugin chatCommands => exact absurd hop (by simp [Op.Plain])

end Operations

/-- The operations of a run whose scripts do not re-enter `/addon`. -/
def NotReentrant (env : Env H) (op : Op) : Prop := op.Plain ∧ env.Targets NotAddonCommand

theorem Reach.life {allowed : Env H → Op → Prop}
    (hallowed : ∀ env op, allowed env op → NotReentrant env op) (h : Reach P allowed s) :
    Life (∀ env op, allowed env op → ∀ heap, env.disposeThrows heap = false) P s := by
  induction h with
  | @initial s h =>
    refine ⟨⟨by simp, h.keyed⟩, fun a => ⟨fun hok => ?_, fun k hl => ?_, fun hr => ?_⟩⟩
    · rw [h.objects] at hok
      cases hok
    · rw [h.addons] at hl
      cases hl
    · rw [h.trace] at hr
      cases hr
  | step _ env n op hop ih =>
    exact ih.after_op (hallowed env op hop).2 (fun hd heap => hd env op hop heap)
      (hallowed env op hop).1
  | @reorder s _ addons hperm ih =>
    refine ⟨⟨by simp, ih.valid.keyed.reorder hperm⟩, fun a => ⟨fun hok => ?_, fun k hl => ?_,
      (ih.sound a).removed⟩⟩
    · obtain ⟨hL, hinfos⟩ := (ih.sound a).promise hok
      exact ⟨hL, hinfos⟩
    · exact (ih.sound a).loaded k (by rw [← lookup_perm hperm k]; exact hl)

/-- **Lifecycle of the addons.** After each operation of a run whose scripts do not re-enter
`/addon`, every addon in `m_Addons` is in state `Ok` or `Error` under its lower-cased file
name; state `Ok` comes with a Lua state and the fields of the last `Initialize`; an addon that
was unloaded has no Lua state, if disposing of one does not throw; and Lua code runs only in
an addon that is in state `Ok`. -/
theorem lifecycle_invariant {allowed : Env H → Op → Prop}
    (hallowed : ∀ env op, allowed env op → NotReentrant env op) (h : Reach P allowed s) :
    (∀ k a, s.addons.lookup k = some a →
      ((s.objects a).state = .ok ∨ (s.objects a).state = .error) ∧
        k = P.toLower (s.objects a).fileName) ∧
    (∀ a, (s.objects a).state = .ok → (s.objects a).luaState.isSome = true ∧
      ∃ t, lastInitialized s.trace a = some t ∧ Infos P t (s.objects a)) ∧
    ((∀ env op, allowed env op → ∀ heap, env.disposeThrows heap = false) →
      ∀ a, .removed a ∈ s.trace → (s.objects a).luaState = none) ∧
    ∀ (s : Plugin H) (env : Env H) nested stack a, (s.objects a).state ≠ .ok → ∀ name,
      (∀ args, (invokeEvent P env nested stack a name args).run s = .ok none s) ∧
        ∀ args, (invokeCommand P env nested stack a name args).run s = .ok () s := by
  have hlife := h.life hallowed
  refine ⟨fun k a hl => ?_, fun a hok => ?_, fun hd a hr => ?_,
    fun s env nested stack a hne name => ?_⟩
  · exact ⟨((hlife.sound a).loaded k hl).1, (hlife.valid.keyed k a hl).2⟩
  · obtain ⟨hL, hinfos⟩ := (hlife.sound a).promise hok
    exact ⟨hL, hinfos⟩
  · exact ((hlife.sound a).removed hr).2 hd
  · refine ⟨fun args => run_invoke_of_not_ok hne, fun args => ?_⟩
    change (invoke P env nested stack a _ _ _ _ >>= fun _ => pure PUnit.unit).run s = _
    rw [EStateM.run_bind, run_invoke_of_not_ok hne]
    rfl

theorem commandEnv_targets (T : CommandDelegate → Prop) (name : String) :
    (commandEnv name).Targets T where
  script _ body h := by
    cases h
    simp [withInfo, Script.Targets]
  call f heap args := trivial

theorem hello_lifecycle :
    ((commandState "hello").objects 0).state = .ok ∧
      ∃ t, lastInitialized (commandState "hello").trace 0 = some t ∧
        Infos asciiPlatform t ((commandState "hello").objects 0) := by
  have hok : ((commandState "hello").objects 0).state = .ok := by decide +kernel
  have hreach := reach_commandState NotReentrant "hello" ⟨trivial, commandEnv_targets _ "hello"⟩
  exact ⟨hok, ((lifecycle_invariant (fun _ _ h => h) hreach).2.1 0 hok).2⟩

end LuaAddons
