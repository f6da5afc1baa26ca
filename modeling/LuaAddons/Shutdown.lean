import LuaAddons.Lifecycle
import LuaAddons.AutoReload

/-!
# Unloading everything

`/addon unloadall` removes the commands of the addons that are loaded when it starts, and
`Dispose` clears the two dictionaries and no chat command. A command that belongs to no loaded
addon survives the first (`unloadAll_keys`), and every command survives the second as a chat
command (`dispose_leavesNothing_iff`).
-/

namespace LuaAddons

open Exec Lookup

variable {H : Type} {P : Platform}

/-- Nothing of any addon is left. -/
structure LeavesNothing (s : Plugin H) : Prop where
  addons : s.addons = ∅
  addonCommands : s.registry.addonCommands = ∅
  chatCommands : ∀ e ∈ s.registry.chatCommands,
    e.commandDelegate ≠ .handleAddonCallbackCommand

/-! ## Code that keeps to some keys -/

/-- Code that runs with the addons `A`, whose files are given by `F`, and leaves lists in
`m_AddonCommands` for all keys in `lower` and only for keys in `upper`. -/
structure Confined (A : AList (fun _ : String => AddonId)) (F : AddonId → String)
    (lower upper : Set String) (s : Plugin H) : Prop where
  addons : s.addons = A
  fileName : ∀ b, (s.objects b).fileName = F b
  lower : ∀ k ∈ lower, k ∈ s.registry.addonCommands
  upper : ∀ k ∈ s.registry.addonCommands, k ∈ upper

section Confined

variable {A : AList (fun _ : String => AddonId)} {F : AddonId → String}
  {lower upper : Set String} {a : AddonId} {env : Env H} {nested : Nested H} {stack : CallStack}

theorem modifyAddon_confined (a : AddonId) {f : Addon H → Addon H}
    (hf : ∀ x, (f x).fileName = x.fileName) :
    Keeps (Preserves (Confined A F lower upper)) (modifyAddon a f) := by
  intro s h
  refine ⟨h.addons, fun b => ?_, h.lower, h.upper⟩
  rw [← h.fileName b]
  by_cases hb : b = a
  · subst hb
    simp [after, modifyAddon, Plugin.modifyAddon, hf]
  · simp [after, modifyAddon, Plugin.modifyAddon, hb]

theorem tell_confined (m : Message) :
    Keeps (Preserves (Confined (H := H) A F lower upper)) (tell m) :=
  fun _ h => ⟨h.addons, h.fileName, h.lower, h.upper⟩

theorem emit_confined (e : Event) :
    Keeps (Preserves (Confined (H := H) A F lower upper)) (emit e) :=
  fun _ h => ⟨h.addons, h.fileName, h.lower, h.upper⟩

theorem storeCommand_confined (name : LuaString) (f : LuaFunction) :
    Keeps (Preserves (Confined (H := H) A F lower upper))
      (modify (fun s => s.storeCommand a name f) : Method H Unit) := by
  intro s h
  change Confined A F lower upper (s.storeCommand a name f)
  unfold Plugin.storeCommand
  split
  · exact h
  · refine ⟨h.addons, fun b => ?_, h.lower, h.upper⟩
    rw [← h.fileName b]
    by_cases hb : b = a
    · subst hb
      simp [Plugin.modifyAddon]
    · simp [Plugin.modifyAddon, hb]

/-- A registration under a key in `upper`. -/
theorem registerCommand_confined {addonName : String} (hkey : P.toLower addonName ∈ upper)
    (permission command : String) : Keeps (Preserves (Confined (H := H) A F lower upper))
      (onRegistry (modifyGet (registerCommand P addonName permission command))) := by
  intro s h
  rw [after_onRegistry]
  change Confined A F lower upper
    { s with registry := (registerCommand P addonName permission command s.registry).2 }
  cases ho : s.registry.owned (P.toLower command) with
  | true =>
    rw [registerCommand_refused ho]
    exact h
  | false =>
    rw [registerCommand_accepted ho]
    refine ⟨h.addons, h.fileName, fun k hk => ?_, fun k hk => ?_⟩
    · exact (AList.mem_insert _).mpr (Or.inr (h.lower k hk))
    · rcases (AList.mem_insert _).mp hk with rfl | hk
      · exact hkey
      · exact h.upper k hk

theorem dropCommand_confined (key command : String) :
    Keeps (Preserves (Confined (H := H) A F lower upper))
      (onRegistry (dropCommand key command)) := by
  intro s h
  rw [after_onRegistry]
  have hkeys : ∀ k, k ∈ (after (dropCommand key command) s.registry).addonCommands ↔
      k ∈ s.registry.addonCommands := by
    intro k
    rcases dropCommand_addonCommands key command s.registry with he | he
    · rw [he]
    · rw [he]
      unfold Registry.removeOwned
      split
      · exact Iff.rfl
      · rename_i l hl
        rw [AList.mem_insert]
        refine ⟨fun hk => hk.elim (fun hk => ?_) id, Or.inr⟩
        subst hk
        exact AList.lookup_isSome.mp (by simp [hl])
  exact ⟨h.addons, h.fileName, fun k hk => (hkeys k).mpr (h.lower k hk),
    fun k hk => h.upper k ((hkeys k).mp hk)⟩

theorem addonNewCommand_confined (ha : P.toLower (F a) ∈ upper) (name permission : LuaString)
    (f : LuaFunction) : Keeps (Preserves (Confined (H := H) A F lower upper))
      (addonNewCommand P a name permission f) := by
  refine keeps_bind (modifyAddon_confined a (fun _ => rfl)) (fun _ => keeps_get_bind (fun s => ?_))
  intro h
  have hkey : P.toLower (P.toLower (s.objects a).fileName) ∈ upper := by
    rw [P.toLower_toLower, h.fileName a]
    exact ha
  refine keeps_bind (R := Preserves (Confined A F lower upper)) (registerCommand_confined hkey
    (P.luaToString permission) (P.luaToString name)) (fun ok => ?_) s h
  cases ok with
  | true => exact keeps_bind (storeCommand_confined name f) (fun _ => keeps_pure _)
  | false => exact keeps_bind (keeps_pure _) (fun _ => keeps_pure _)

/-- The nested calls of the callback keep to the keys. -/
def NestedConfined (A : AList (fun _ : String => AddonId)) (F : AddonId → String)
    (lower upper : Set String) (nested : Nested H) : Prop :=
  ∀ stack d args, NotAddonCommand d →
    Keeps (Preserves (Confined A F lower upper)) (nested stack d args)

variable (hn : NestedConfined A F lower upper nested)

include hn

theorem runScript_confined (ha : P.toLower (F a) ∈ upper) (stack : CallStack) :
    ∀ c : Script H, c.Targets NotAddonCommand →
      Keeps (Preserves (Confined A F lower upper)) (runScript P nested stack a c) := by
  have hlua : ∀ f : LuaState H → LuaState H,
      Keeps (Preserves (Confined A F lower upper)) (modifyLua a f) :=
    fun f => modifyAddon_confined a (fun _ => rfl)
  intro c
  induction c with
  | done heap values => exact fun _ => keeps_bind (hlua _) (fun _ => keeps_pure _)
  | raise heap => exact fun _ => keeps_bind (hlua _) (fun _ => keeps_throw _)
  | registerEvent name f next ih => exact fun hT => keeps_bind (hlua _) (fun _ => ih hT)
  | registerCommand name permission f next ih =>
    exact fun hT => keeps_bind (addonNewCommand_confined ha name permission f)
      (fun ok => ih ok (hT ok))
  | assign key value next ih => exact fun hT => keeps_bind (hlua _) (fun _ => ih hT)
  | chatCommand heap target args next ih =>
    intro hT
    refine keeps_bind (hlua _) (fun _ => keeps_bind (keeps_get_bind fun s => emit_confined _ s)
      (fun _ => keeps_bind (keeps_tryCatch ?_ (fun _ => keeps_pure _))
        (fun ok => keeps_bind (getAddon_keeps a) (fun x => ih ok _ (hT.2 ok _)))))
    exact keeps_bind (hn stack target args hT.1) (fun _ => keeps_pure _)

variable (henv : env.Targets NotAddonCommand)

include henv

theorem invoke_confined (ha : P.toLower (F a) ∈ upper) (stack : CallStack)
    (table : LuaState H → Option FunctionTable) (what name : String) (args : List NetObject) :
    Keeps (Preserves (Confined A F lower upper))
      (invoke P env nested stack a table what name args) := by
  refine keeps_bind (getAddon_keeps a) (fun x => ?_)
  cases x.luaState with
  | none => exact keeps_pure _
  | some L =>
    dsimp only
    split
    · exact keeps_pure _
    · refine keeps_tryCatch ?_ (fun ex => keeps_bind (getAddon_keeps a) (fun _ => keeps_bind
        (tell_confined _) (fun _ => keeps_bind (modifyAddon_confined a (fun _ => rfl))
          (fun _ => keeps_pure _))))
      cases table L with
      | none => exact keeps_pure _
      | some t =>
        refine keeps_bind (liftExcept_keeps _) (fun f => ?_)
        cases f with
        | none => exact keeps_pure _
        | some f =>
          exact keeps_bind (emit_confined _) (fun _ => keeps_bind
            (runScript_confined hn ha (a :: stack) _ (henv.call f L.heap args))
            (fun _ => keeps_pure _))

theorem handleAddonCallbackCommand_confined
    (hA : ∀ k b, A.lookup k = some b → P.toLower (F b) ∈ upper) (stack : CallStack)
    (args : CommandArgs) : Keeps (Preserves (Confined A F lower upper))
      (handleAddonCallbackCommand P env nested stack args) := by
  refine keeps_get_bind (fun s h => ?_)
  cases singleOrDefault NetException.invalidOperation
      (fun c => c.2.contains (P.toLower (firstWord ' ' args.message)))
      s.registry.addonCommands.entries with
  | error e => exact h
  | ok o =>
    cases o with
    | none => exact h
    | some owner =>
      dsimp only
      cases haddon : singleOrDefault NetException.invalidOperation
          (fun a => P.compareIgnoreCase a.1 owner.1) s.addons.entries with
      | error e => exact h
      | ok o =>
        cases o with
        | none => exact dropCommand_confined owner.1 _ s h
        | some found =>
          have hl : A.lookup found.1 = some found.2 := by
            rw [← h.addons]
            exact AList.mem_lookup_iff.mpr (singleOrDefault_mem haddon).1
          exact keeps_bind (R := Preserves (Confined A F lower upper)) (invoke_confined hn henv
            (hA _ _ hl) stack LuaState.addonCommands "command" _ _) (fun _ => keeps_pure _) s h

omit hn in
theorem delegate_confined (hA : ∀ k b, A.lookup k = some b → P.toLower (F b) ∈ upper) :
    ∀ n, NestedConfined A F lower upper (delegate P env n)
  | 0 => fun _ _ _ _ => keeps_pure _
  | n + 1 => by
    intro stack d args hd
    cases d with
    | handleAddonCommand => exact absurd rfl hd
    | handleAddonCallbackCommand =>
      exact handleAddonCallbackCommand_confined (delegate_confined hA n) henv hA stack args
    | foreign code => exact keeps_pure _

end Confined

/-! ## `/addon unloadall` -/

/-- The keys `l` are still to be unloaded, and the keys in `stale` belong to no loaded addon. -/
structure Unloading (P : Platform) (stale : Set String) (l : List String) (s : Plugin H) :
    Prop where
  valid : Valid P [] s
  wellOwned : WellOwned P s.registry
  agrees : Agrees s.registry
  loaded : ∀ k, k ∈ s.addons ↔ k ∈ l
  commands : ∀ k ∈ s.registry.addonCommands, k ∈ stale ∨ k ∈ l
  stale : ∀ k ∈ stale, k ∈ s.registry.addonCommands

section UnloadAll

variable {env : Env H} {n : Nat} {stale : Set String} {l : List String} {key : String}
  {s : Plugin H}

/-- One addon of the loop: its list goes, and no other key comes or goes. -/
theorem Unloading.step (henv : env.Targets NotAddonCommand)
    (hstale : ∀ k ∈ stale, k ≠ key) (hnd : (key :: l).Nodup) (h : Unloading P stale (key :: l) s)
    {a : AddonId} (hl : s.addons.lookup key = some a) :
    ∃ s', (unloadFound P env (delegate P env n) [] key key a).run s = .ok () s' ∧
      Unloading P stale l s' := by
  have hg := grows_effects (H := H) P
  have hn := delegate_keeps hg env.targets_true trivial n
  obtain ⟨hlt, hkey⟩ := h.valid.keyed key a hl
  -- the handler of `unload`, with the addon out of the dictionary
  have hgrows₁ : Grows P [] s (s.unlisted key a) :=
    (hg.erase [] key s).trans (hg.removed [] a _)
  have hevent := (invokeEvent_keeps hg.toScriptEffects hn env.targets_true [] a "unload" []
    (s.unlisted key a) ((h.valid.grows hgrows₁).cons hlt)).1
  have hregistry₂ := (hgrows₁.trans hevent).registry
  have hkeys : ∀ k b, (s.unlisted key a).addons.lookup k = some b →
      P.toLower (s.objects b).fileName ∈ {k | k ∈ stale ∨ k ∈ key :: l} := by
    intro k b hb
    have hk := (lookup_erase_eq_some hb).2
    rw [← (h.valid.keyed k b hk).2]
    exact Or.inr ((h.loaded k).mp (AList.lookup_isSome.mp (by simp [hk])))
  have hupper : P.toLower (s.objects a).fileName ∈ {k | k ∈ stale ∨ k ∈ key :: l} :=
    Or.inr (hkey ▸ List.mem_cons_self)
  have hconf₀ : Confined (s.unlisted key a).addons
      (fun b => (s.objects b).fileName) stale {k | k ∈ stale ∨ k ∈ key :: l}
      (s.unlisted key a) := ⟨rfl, fun _ => rfl, h.stale, h.commands⟩
  have hconf := invoke_confined (delegate_confined henv hkeys n) henv hupper []
    LuaState.addonEvents "event" "unload" [] _ hconf₀
  -- the removal of its list, which finds one chat command for each command
  have hw := h.wellOwned.steps hregistry₂
  have hremove := (h.agrees.steps h.wellOwned hregistry₂).run_removeAddonCommands hw (P.toLower key)
  have hlower : P.toLower (P.toLower key) = key := by
    rw [hkey, P.toLower_toLower, P.toLower_toLower]
  rw [hlower] at hremove
  have hgrows := (unloadFound_keeps hg hn env.targets_true [] key key a s
    ⟨h.valid.cons hlt, trivial⟩).1
  obtain ⟨s', hrun, haddons, hregistry⟩ : ∃ s',
      (unloadFound P env (delegate P env n) [] key key a).run s = .ok () s' ∧
        s'.addons = s.addons.erase key ∧ s'.registry.addonCommands =
          (after (invokeEvent P env (delegate P env n) [] a "unload" [])
            (s.unlisted key a)).registry.addonCommands.erase key :=
    ⟨_, (run_unloadFound key key s).trans (run_onRegistry hremove), hconf.addons, rfl⟩
  rw [after_of_run hrun] at hgrows
  refine ⟨s', hrun, h.valid.grows hgrows, h.wellOwned.steps hgrows.registry,
    h.agrees.steps h.wellOwned hgrows.registry, fun k => ?_, fun k hk => ?_, fun k hk => ?_⟩
  · rw [haddons, AList.mem_erase, h.loaded, List.mem_cons]
    have hne : k ∈ l → k ≠ key := by
      rintro hk rfl
      exact (List.nodup_cons.mp hnd).1 hk
    exact ⟨fun hk => hk.2.resolve_left hk.1, fun hk => ⟨hne hk, Or.inr hk⟩⟩
  · rw [hregistry, AList.mem_erase] at hk
    rcases hconf.upper k hk.2 with hs | hs
    · exact Or.inl hs
    · exact Or.inr ((List.mem_cons.mp hs).resolve_left hk.1)
  · rw [hregistry, AList.mem_erase]
    exact ⟨hstale k hk, hconf.lower k hk⟩

/-- The loop of `unloadall`, over the keys that are loaded. -/
theorem Unloading.loop (henv : env.Targets NotAddonCommand) : ∀ (l : List String) (s : Plugin H),
    l.Nodup → (∀ k ∈ stale, k ∉ l) → Unloading P stale l s →
    Unloading P stale [] (after (l.forM (fun k => do
      let s ← get
      match s.addons.lookup k with
      | none => pure ()
      | some a => unloadFound P env (delegate P env n) [] k k a)) s)
  | [], s, _, _, h => h
  | key :: l, s, hnd, hstale, h => by
    obtain ⟨a, hl⟩ := Option.isSome_iff_exists.mp
      (AList.lookup_isSome.mpr ((h.loaded key).mpr List.mem_cons_self))
    obtain ⟨s', hrun, h'⟩ := h.step (n := n) henv
      (fun k hk he => hstale k hk (he ▸ List.mem_cons_self)) hnd hl
    have hrest := Unloading.loop henv l s' (List.nodup_cons.mp hnd).2
      (fun k hk hm => hstale k hk (List.mem_cons_of_mem _ hm)) h'
    unfold after at hrest ⊢
    rw [run_forM_cons, EStateM.run_bind, EStateM.run_get]
    simp only [hl, hrun]
    exact hrest

/-- After `unloadall` no addon is loaded, and `m_AddonCommands` has the keys left that no
loaded addon had. -/
theorem unloadAll_keys (henv : env.Targets NotAddonCommand) (hv : Valid P [] s)
    (hw : WellOwned P s.registry) (ha : Agrees s.registry) :
    let s' := after (unloadAll P env (delegate P env n) []) s
    s'.addons = ∅ ∧ Agrees s'.registry ∧
      ∀ k, k ∈ s'.registry.addonCommands ↔ k ∈ s.registry.addonCommands ∧ k ∉ s.addons := by
  have hkeys : ∀ k, k ∈ s.addons ↔ k ∈ s.addons.keys := fun k => AList.mem_keys
  have hend : Unloading P {k | k ∈ s.registry.addonCommands ∧ k ∉ s.addons} []
      (after (unloadAll P env (delegate P env n) []) s) := by
    refine Unloading.loop henv s.addons.keys s s.addons.keys_nodup
      (fun k hk hm => hk.2 ((hkeys k).mpr hm)) ⟨hv, hw, ha, hkeys, fun k hk => ?_, fun k hk => hk.1⟩
    by_cases hm : k ∈ s.addons
    · exact Or.inr ((hkeys k).mp hm)
    · exact Or.inl ⟨hk, hm⟩
  refine ⟨?_, hend.agrees, fun k => ⟨fun hk => ?_, fun hk => hend.stale k hk⟩⟩
  · refine AList.ext (List.eq_nil_iff_forall_not_mem.mpr (fun e he => ?_))
    have hmem := (hend.loaded e.1).mp (AList.lookup_isSome.mp (by
      rw [AList.mem_lookup_iff.mpr he]
      rfl))
    cases hmem
  · exact (hend.commands k hk).resolve_right (by simp)

end UnloadAll

/-! ## `Dispose` -/

/-- Where the two structures agree, chat commands of addons are left exactly if some command
has an owner. -/
theorem Agrees.no_callback_iff {r : Registry} (h : Agrees r) :
    (∀ e ∈ r.chatCommands, e.commandDelegate ≠ .handleAddonCallbackCommand) ↔
      ∀ c, r.owned c = false := by
  constructor
  · intro hno c
    refine Registry.not_owned_iff.mpr (fun k hc => ?_)
    obtain ⟨e, he, -, hed⟩ := h.entry k c hc
    exact hno e (List.mem_of_mem_filter (he ▸ List.mem_singleton_self e)) hed
  · intro hno e he hed
    obtain ⟨k, c, hc, -⟩ := h.owner e he hed
    exact Registry.not_owned_iff.mp (hno c) k hc

/-- The registry changes by steps that take no command from its owner. -/
structure OnlyAdds (P : Platform) (s s' : Plugin H) : Prop where
  steps : Relation.ReflTransGen (RegistryStep P) s.registry s'.registry
  owned : ∀ c, s.registry.owned c = true → s'.registry.owned c = true

instance : IsPreorder (Plugin H) (OnlyAdds P) where
  refl _ := ⟨.refl, fun _ h => h⟩
  trans _ _ _ h₁ h₂ := ⟨h₁.steps.trans h₂.steps, fun c h => h₂.owned c (h₁.owned c h)⟩

theorem Frame.onlyAdds {a : AddonId} {s s' : Plugin H} (h : Frame P a s s') : OnlyAdds P s s' :=
  ⟨h.registry.steps, fun _ hc => h.registry.owned_mono hc⟩

section Dispose

variable {env : Env H} {n : Nat} {s : Plugin H}

/-- The steps of `Dispose` for one addon. -/
def disposeAddon (P : Platform) (env : Env H) (n : Nat)
    (e : Sigma fun _ : String => AddonId) : Method H Unit := do
  discard (invokeEvent P env (delegate P env n) [] e.2 "unload" [])
  release env [] e.2

theorem returns_disposeAddon (e : Sigma fun _ : String => AddonId) :
    Returns (disposeAddon P env n e) :=
  returns_bind (returns_discard (returns_invokeEvent "unload" [])) (fun _ => returns_release)

theorem after_dispose : after (dispose P env (delegate P env n) []) s =
    (after (s.addons.entries.forM (disposeAddon P env n)) s).cleared := by
  change after (s.addons.entries.forM (disposeAddon P env n) >>= _) s = _
  rw [after_seq (returns_forM (fun e _ => returns_disposeAddon e))]
  rfl

theorem unload_dotless : '.' ∉ "unload".toList := by decide

variable (henv : env.Targets NoDelegate)

include henv

theorem disposeAddon_frame (e : Sigma fun _ : String => AddonId) :
    Keeps (Frame P e.2) (disposeAddon P env n e) :=
  keeps_bind (keeps_bind (invokeEvent_frame henv "unload" []) (fun _ => keeps_pure _))
    (fun _ => release_frame)

omit henv in
theorem disposeAddon_registry (e : Sigma fun _ : String => AddonId) (s : Plugin H) :
    (after (disposeAddon P env n e) s).registry =
      (after (invokeEvent P env (delegate P env n) [] e.2 "unload" []) s).registry := by
  change (after (discard (invokeEvent P env (delegate P env n) [] e.2 "unload" []) >>= _)
    s).registry = _
  rw [after_seq (returns_discard (returns_invokeEvent "unload" [])), after_discard,
    after_of_run (run_release _)]
  rfl

theorem disposeLoop_onlyAdds (l : List (Sigma fun _ : String => AddonId)) :
    Keeps (OnlyAdds P) (l.forM (disposeAddon P env n)) :=
  keeps_forM (fun e _ => (disposeAddon_frame henv e).mono (fun _ _ h => h.onlyAdds))

/-- The handlers of `unload` run one after the other, each in its own addon: together they add a
command exactly if one of them asks for one that is free. -/
theorem disposeLoop_registry : ∀ (l : List (Sigma fun _ : String => AddonId)) (s : Plugin H),
    (l.map Sigma.snd).Nodup →
    ((∀ e ∈ l, HandlerRefuses P env "unload" [] e.2 s) →
        (after (l.forM (disposeAddon P env n)) s).registry = s.registry) ∧
      ((∃ e ∈ l, ¬ HandlerRefuses P env "unload" [] e.2 s) →
        Gains s.registry (after (l.forM (disposeAddon P env n)) s).registry)
  | [], s, _ => ⟨fun _ => rfl, fun ⟨e, he, _⟩ => by cases he⟩
  | e :: l, s, hnd => by
    obtain ⟨hel, hnd⟩ := List.nodup_cons.mp hnd
    have hcons : after ((e :: l).forM (disposeAddon P env n)) s =
        after (l.forM (disposeAddon P env n)) (after (disposeAddon P env n e) s) :=
      after_seq (returns_disposeAddon e) _ s
    have hframe := disposeAddon_frame (P := P) (n := n) henv e s
    obtain ⟨hsame, hgain⟩ : (HandlerRefuses P env "unload" [] e.2 s →
          (after (disposeAddon P env n e) s).registry = s.registry) ∧
        (¬ HandlerRefuses P env "unload" [] e.2 s →
          Gains s.registry (after (disposeAddon P env n e) s).registry) := by
      rw [disposeAddon_registry]
      exact invokeEvent_registry henv unload_dotless [] s
    rw [hcons]
    by_cases hR : HandlerRefuses P env "unload" [] e.2 s
    · have hreg := hsame hR
      have hrest : ∀ e' ∈ l, HandlerRefuses P env "unload" [] e'.2
          (after (disposeAddon P env n e) s) ↔ HandlerRefuses P env "unload" [] e'.2 s := by
        intro e' he'
        have hne : e'.2 ≠ e.2 := fun h => hel (h ▸ List.mem_map_of_mem he')
        unfold HandlerRefuses
        rw [hframe.objects _ hne, hreg]
      obtain ⟨hall, hsome⟩ := disposeLoop_registry l (after (disposeAddon P env n e) s) hnd
      rw [hreg] at hall hsome
      refine ⟨fun h => hall (fun e' he' =>
        (hrest e' he').mpr (h e' (List.mem_cons_of_mem _ he'))), ?_⟩
      rintro ⟨e', he', hno⟩
      rcases List.mem_cons.mp he' with rfl | he'
      · exact absurd hR hno
      · exact hsome ⟨e', he', fun h => hno ((hrest e' he').mp h)⟩
    · refine ⟨fun h => absurd (h e List.mem_cons_self) hR, fun _ => ?_⟩
      obtain ⟨c, hc, hc'⟩ := hgain hR
      exact ⟨c, hc, (disposeLoop_onlyAdds henv l _).owned c hc'⟩

/-- `Dispose` leaves nothing exactly if no chat command of an addon was there and no handler of
`unload` registers one. -/
theorem dispose_leavesNothing_iff (hk : Keyed P s) (hw : WellOwned P s.registry)
    (ha : Agrees s.registry) :
    LeavesNothing (after (dispose P env (delegate P env n) []) s) ↔
      (∀ e ∈ s.registry.chatCommands, e.commandDelegate ≠ .handleAddonCallbackCommand) ∧
        ∀ e ∈ s.addons.entries, HandlerRefuses P env "unload" [] e.2 s := by
  have hnd := hk.nodup
  have hloop := disposeLoop_onlyAdds (P := P) (n := n) henv s.addons.entries s
  have hagrees := ha.steps hw hloop.steps
  obtain ⟨hsame, hgain⟩ := disposeLoop_registry (n := n) henv s.addons.entries s hnd
  rw [after_dispose, ha.no_callback_iff]
  constructor
  · intro h
    have hfree := hagrees.no_callback_iff.mp h.chatCommands
    refine ⟨fun c => ?_, fun e he => ?_⟩
    · by_contra hc
      have := hloop.owned c (by simpa using hc)
      rw [hfree c] at this
      cases this
    · by_contra hR
      obtain ⟨c, -, hc⟩ := hgain ⟨e, he, hR⟩
      rw [hfree c] at hc
      cases hc
  · rintro ⟨hfree, hR⟩
    refine ⟨rfl, rfl, ?_⟩
    change ∀ e ∈ (after (s.addons.entries.forM (disposeAddon P env n)) s).registry.chatCommands, _
    rw [hsame hR]
    exact ha.no_callback_iff.mpr hfree

end Dispose

section Claims

variable {s : Plugin H}

/-- **What a shutdown leaves.** In every state of a run in which only the plugin changes the chat
commands, whatever its scripts did: `/addon unloadall`, whose handlers do not re-enter `/addon`,
leaves nothing exactly if every key of `m_AddonCommands` is the key of a loaded addon; and
`Dispose`, whose handlers call no chat command, leaves nothing exactly if no chat command
dispatches to the callback and no handler of `unload` asks for a command that is free. -/
theorem shutdown_leavesNothing_iff {allowed : Env H → Op → Prop}
    (hallowed : ∀ env op, allowed env op → op.Plain) (h : Reach P allowed s) (n : Nat) :
    (∀ env : Env H, env.Targets NotAddonCommand →
      (LeavesNothing (after (unloadAll P env (delegate P env n) []) s) ↔
        ∀ k ∈ s.registry.addonCommands, k ∈ s.addons)) ∧
    ∀ env : Env H, env.Targets NoDelegate →
      (LeavesNothing (after (dispose P env (delegate P env n) []) s) ↔
        (∀ e ∈ s.registry.chatCommands, e.commandDelegate ≠ .handleAddonCallbackCommand) ∧
          ∀ e ∈ s.addons.entries, HandlerRefuses P env "unload" [] e.2 s) := by
  have ha := h.agrees hallowed
  refine ⟨fun env henv => ?_, fun env henv => dispose_leavesNothing_iff henv h.keyed h.wellOwned ha⟩
  obtain ⟨haddons, hagrees, hkeys⟩ := unloadAll_keys (n := n) henv h.valid h.wellOwned ha
  constructor
  · intro hnothing k hk
    by_contra hno
    have hleft := (hkeys k).mpr ⟨hk, hno⟩
    rw [hnothing.addonCommands] at hleft
    exact AList.notMem_empty k hleft
  · intro hloaded
    have hnone : ∀ k,
        k ∉ (after (unloadAll P env (delegate P env n) []) s).registry.addonCommands :=
      fun k hk => ((hkeys k).mp hk).2 (hloaded k ((hkeys k).mp hk).1)
    refine ⟨haddons, AList.ext (List.eq_nil_iff_forall_not_mem.mpr (fun e he => ?_)),
      hagrees.no_callback_iff.mpr (fun c => Registry.not_owned_iff.mpr (fun k hc => ?_))⟩
    · exact hnone e.1 (AList.lookup_isSome.mp (by rw [AList.mem_lookup_iff.mpr he]; rfl))
    · exact hnone k (Registry.mem_addonCommands_of_mem hc)

end Claims

/-- `/addon unloadall` after an addon was loaded that has a command. -/
theorem hello_unloaded :
    LeavesNothing (after (unloadAll asciiPlatform (commandEnv "Hello")
      (delegate asciiPlatform (commandEnv "Hello") 1) []) (commandState "Hello")) :=
  ((shutdown_leavesNothing_iff (fun _ _ h => h)
    (reach_commandState (fun _ op => op.Plain) "Hello" trivial) 1).1 _
      (commandEnv_targets NotAddonCommand "Hello")).mpr (by decide +kernel)

/-- The plugin after the load of `Foo` failed. -/
def failedState : Plugin Unit :=
  after ((Op.load "Foo").run asciiPlatform failingEnv 0) (.start [addonChatCommand])

/-- A command that a failed load registered survives `/addon unloadall`, and a command of a
loaded addon survives `Dispose`. -/
theorem shutdown_leaves_commands :
    Reach asciiPlatform (fun _ op => op.Plain) failedState ∧
      Reach asciiPlatform (fun _ op => op.Plain) (commandState "Hello") ∧
      ¬ LeavesNothing (after (unloadAll asciiPlatform failingEnv
        (delegate asciiPlatform failingEnv 1) []) failedState) ∧
      ¬ LeavesNothing (after (dispose asciiPlatform (commandEnv "Hello")
        (delegate asciiPlatform (commandEnv "Hello") 1) []) (commandState "Hello")) := by
  refine ⟨(Reach.initial initial_start).step failingEnv 0 (.load "Foo") trivial,
    reach_commandState _ "Hello" trivial, fun h => ?_, fun h => ?_⟩
  · have hleft := congrArg (fun t => t.lookup "foo") h.addonCommands
    exact absurd hleft (by decide +kernel)
  · exact absurd h.chatCommands (by decide +kernel)

end LuaAddons
