import LuaAddons.Reloading

/-!
# The auto-reload of a failed addon

An addon in state `Error` is restarted by the auto-reload or by `/addon reload`. The two take
the same steps, except that the auto-reload does not remove the commands of the addon first. So
they agree exactly when there is nothing to remove (`autoReload_agrees_iff`), where an empty
list in `m_AddonCommands` counts as something unless the new start fills it.

What a start registers is decided by the file alone as long as everything is refused
(`Script.refusedRun`), which makes the condition one on the state before the reload.
-/

namespace LuaAddons

open Exec

variable {H : Type} {P : Platform}

/-! ## Restarts that register nothing -/

/-- The Lua state that a script leaves when every registration is refused, and whether the
script returns. -/
def Script.refusedRun (P : Platform) : Script H → LuaState H → Bool × LuaState H
  | .done heap _, L => (true, { L with heap := heap })
  | .raise heap, L => (false, { L with heap := heap })
  | .registerEvent name f next, L =>
    next.refusedRun P { L with addonEvents := some ((L.addonEvents.getD ∅).insert name f) }
  | .registerCommand _ _ _ next, L =>
    (next false).refusedRun P { L with addonCommands := some (L.addonCommands.getD ∅) }
  | .assign key value next, L =>
    next.refusedRun P
      { L with addonTable := (L.addonTable.assign P key value).getD L.addonTable }
  | .chatCommand _ _ _ _, L => (true, L)

/-- An addon with this Lua state, in state `Ok`. -/
def Addon.running (L : LuaState H) : Addon H :=
  { (Addon.new : Addon H) with luaState := some L, state := .ok }

/-- The Lua state has the fields that `Initialize` asks for. -/
def LuaState.Readable (P : Platform) (L : LuaState H) : Prop :=
  ∀ field ∈ requiredFields, ∃ text, readInfo P (Addon.running L) field = .ok text

/-- The handler that the event calls in the addon asks for no command that is free. -/
def HandlerRefuses (P : Platform) (env : Env H) (event : String) (args : List NetObject)
    (a : AddonId) (s : Plugin H) : Prop :=
  ∀ L f, (s.objects a).luaState = some L →
    (s.objects a).handler P LuaState.addonEvents event = some f →
    (env.call f L.heap args).RefusesAll P s.registry

/-- The file of the addon gets no command accepted, and neither does the handler of `load` when
the file starts. -/
def RefusesRestart (P : Platform) (env : Env H) (name : String) (r : Registry) : Prop :=
  RefusesStart P env name r ∧ ∀ body, env.script name = some body →
    ∀ L, body.refusedRun P (env.newLuaState P name) = (true, L) → L.Readable P →
      ∀ f, (Addon.running L).handler P LuaState.addonEvents "load" = some f →
        (env.call f L.heap []).RefusesAll P r

section Refused

variable {env : Env H} {nested : Nested H} {stack : CallStack} {a : AddonId} {name : String}

/-- A registration that is refused leaves the table of commands behind. -/
theorem run_addonNewCommand_refused {s : Plugin H} {command permission : LuaString}
    (h : s.registry.owned (P.toLower (P.luaToString command)) = true) (f : LuaFunction) :
    (addonNewCommand P a command permission f).run s =
      .ok false (s.modifyAddon a (fun x => { x with luaState := x.luaState.map (fun L =>
        { L with addonCommands := some (L.addonCommands.getD ∅) }) })) := by
  unfold addonNewCommand
  simp only [EStateM.run_bind, getAddon, EStateM.run_get, modifyLua, modifyAddon,
    EStateM.run_modify, EStateM.run_pure, onRegistry, run_zoom, EStateM.run_modifyGet,
    Plugin.modifyAddon, registerCommand_refused h]
  rfl

theorem runScript_refused : ∀ (c : Script H) (s : Plugin H) (L : LuaState H),
    c.Targets NoDelegate → c.RefusesAll P s.registry → (s.objects a).luaState = some L →
    ((after (runScript P nested stack a c) s).objects a).luaState = some (c.refusedRun P L).2 ∧
      ((c.refusedRun P L).1 = true ↔ ∃ values, outcome ((runScript P nested stack a c).run s) =
        .ok values) := by
  intro c
  induction c with
  | done heap values =>
    intro s L _ _ hL
    refine ⟨?_, fun _ => ⟨values, rfl⟩, fun _ => rfl⟩
    simp [after, runScript, modifyLua, modifyAddon, Plugin.modifyAddon, hL, Script.refusedRun]
  | raise heap =>
    intro s L _ _ hL
    constructor
    · simp [after, runScript, run_throw, modifyLua, modifyAddon, Plugin.modifyAddon, hL,
        Script.refusedRun]
    · constructor
      · intro h
        cases h
      · rintro ⟨values, h⟩
        cases h
  | registerEvent event f next ih =>
    exact fun s L hT hR hL => ih (s.modifyAddon a _) _ hT hR (by simp [Plugin.modifyAddon, hL])
  | assign key value next ih =>
    exact fun s L hT hR hL => ih (s.modifyAddon a _) _ hT hR (by simp [Plugin.modifyAddon, hL])
  | chatCommand heap target args next ih => exact fun s L hT _ _ => hT.1.elim
  | registerCommand command permission f next ih =>
    intro s L hT hR hL
    have hrest := ih false (s.modifyAddon a (fun x => { x with
        luaState := x.luaState.map (fun L =>
          { L with addonCommands := some (L.addonCommands.getD ∅) }) }))
      { L with addonCommands := some (L.addonCommands.getD ∅) } (hT false) hR.2
      (by simp [Plugin.modifyAddon, hL])
    unfold after at hrest ⊢
    rw [runScript, EStateM.run_bind, run_addonNewCommand_refused hR.1]
    exact hrest

theorem readable_iff {s : Plugin H} {L : LuaState H} (hL : (s.objects a).luaState = some L) :
    L.Readable P ↔ ∃ s', (readInfos P a).run s = .ok () s' := by
  have hread : ∀ field, readInfo P (Addon.running L) field = readInfo P (s.objects a) field :=
    fun field => readInfo_congr hL.symm field
  constructor
  · intro h
    obtain ⟨author, hauthor⟩ := h "author" (by simp [requiredFields])
    obtain ⟨name, hname⟩ := h "name" (by simp [requiredFields])
    obtain ⟨version, hversion⟩ := h "version" (by simp [requiredFields])
    rw [hread] at hauthor hname hversion
    unfold readInfos
    simp only [getAddon, EStateM.run_bind, EStateM.run_get, EStateM.run_pure, hauthor, hname,
      hversion, liftExcept, modifyAddon, EStateM.run_modify, emit]
    exact ⟨_, rfl⟩
  · rintro ⟨s', h⟩
    obtain ⟨author, name, version, hauthor, hname, hversion, -, -⟩ := readInfos_ok h
    intro field hfield
    simp only [requiredFields, List.mem_cons, List.not_mem_nil, or_false] at hfield
    rw [hread]
    rcases hfield with rfl | rfl | rfl
    · exact ⟨author, hauthor⟩
    · exact ⟨name, hname⟩
    · exact ⟨version, hversion⟩

/-- A start during which every registration is refused: whether it succeeds, and the addon it
leaves. -/
theorem startAddon_refused (hscript : ∀ body, env.script name = some body →
      body.Targets NoDelegate) {s s' : Plugin H} {ok : Bool}
    (hR : RefusesStart P env name s.registry)
    (h : (startAddon P env nested stack a name).run s = .ok ok s') :
    (ok = true ↔ ∃ body L, env.script name = some body ∧
        body.refusedRun P (env.newLuaState P name) = (true, L) ∧ L.Readable P) ∧
      (ok = true → ∀ body, env.script name = some body → (s'.objects a).state = .ok ∧
        (s'.objects a).luaState = some (body.refusedRun P (env.newLuaState P name)).2) ∧
      (ok = false → (s'.objects a).state = .error) := by
  have hcases := startAddon_cases h
  cases hbody : env.script name with
  | none =>
    have hfile : ∀ s₁, (runFile P env nested stack a name).run s ≠ .ok () s₁ := by
      intro s₁ hrun
      simp only [runFile, hbody, EStateM.run_bind, EStateM.run_modify, run_throw] at hrun
      cases hrun
    rcases hcases with ⟨-, s₁, hrun, -⟩ | ⟨rfl, hstate, -⟩
    · exact absurd hrun (hfile s₁)
    · refine ⟨⟨Bool.noConfusion, ?_⟩, Bool.noConfusion, fun _ => hstate⟩
      rintro ⟨body, L, hb, -⟩
      cases hb
  | some body =>
    have hstart : ((s.startLua a (env.newLuaState P name)).objects a).luaState =
        some (env.newLuaState P name) := by simp [Plugin.startLua, Plugin.modifyAddon]
    have hfile : (runFile P env nested stack a name).run s =
        (discard (runScript P nested (a :: stack) a body)).run
          (s.startLua a (env.newLuaState P name)) := by
      simp only [runFile, hbody, EStateM.run_bind, EStateM.run_modify]
    obtain ⟨hL, hok⟩ : ((after (runScript P nested (a :: stack) a body)
          (s.startLua a (env.newLuaState P name))).objects a).luaState =
          some (body.refusedRun P (env.newLuaState P name)).2 ∧
        ((body.refusedRun P (env.newLuaState P name)).1 = true ↔ ∃ values,
          outcome ((runScript P nested (a :: stack) a body).run
            (s.startLua a (env.newLuaState P name))) = .ok values) :=
      runScript_refused body _ _ (hscript body hbody) (hR body hbody) hstart
    generalize hresult : body.refusedRun P (env.newLuaState P name) = result at hL hok
    unfold after at hL
    change _ = (runScript P nested (a :: stack) a body >>= fun _ => pure PUnit.unit).run _ at hfile
    rw [EStateM.run_bind] at hfile
    cases hrun : (runScript P nested (a :: stack) a body).run
        (s.startLua a (env.newLuaState P name)) with
    | error e s₁ =>
      rw [hrun] at hfile hL hok
      rcases hcases with ⟨-, s₂, hrun₂, -⟩ | ⟨rfl, hstate, -⟩
      · rw [hfile] at hrun₂
        cases hrun₂
      · refine ⟨⟨Bool.noConfusion, ?_⟩, Bool.noConfusion, fun _ => hstate⟩
        rintro ⟨body', L, hb, hr, -⟩
        cases hb
        rw [hresult] at hr
        obtain ⟨values, hv⟩ := hok.mp (congrArg Prod.fst hr)
        cases hv
    | ok values s₁ =>
      rw [hrun] at hfile hL hok
      rw [final_ok] at hL
      have hone : result.1 = true := hok.mpr ⟨values, rfl⟩
      rcases hcases with ⟨rfl, s₂, hrun₂, hinfos⟩ | ⟨rfl, hstate, hfail⟩
      · rw [hfile] at hrun₂
        cases hrun₂
        have hread := (readable_iff hL).mpr ⟨s', hinfos⟩
        obtain ⟨_, _, _, -, -, -, hobject, -⟩ := readInfos_ok hinfos
        refine ⟨⟨fun _ => ⟨body, result.2, rfl, ?_, hread⟩, fun _ => rfl⟩, fun _ body' hb => ?_,
          Bool.noConfusion⟩
        · rw [hresult, ← hone]
        · cases hb
          rw [hobject, hresult]
          exact ⟨rfl, hL⟩
      · refine ⟨⟨Bool.noConfusion, ?_⟩, Bool.noConfusion, fun _ => hstate⟩
        rintro ⟨body', L, hb, hr, hread⟩
        cases hb
        rw [hresult] at hr
        subst hr
        obtain ⟨s₃, hinfos⟩ := (readable_iff hL).mp hread
        rcases hfail with ⟨e, s₂, hrun₂⟩ | ⟨s₂, e, s₄, hrun₂, hinfos₂⟩
        · rw [hfile] at hrun₂
          cases hrun₂
        · rw [hfile] at hrun₂
          cases hrun₂
          rw [hinfos] at hinfos₂
          cases hinfos₂

variable (henv : env.Targets NoDelegate)

include henv

/-- An event whose handler asks for nothing that is free leaves the registry alone. Otherwise a
command gets an owner. -/
theorem invokeEvent_registry {event : String} (hdot : '.' ∉ event.toList) (args : List NetObject)
    (s : Plugin H) :
    (HandlerRefuses P env event args a s →
        (after (invokeEvent P env nested stack a event args) s).registry = s.registry) ∧
      (¬ HandlerRefuses P env event args a s →
        Gains s.registry (after (invokeEvent P env nested stack a event args) s).registry) := by
  cases hh : (s.objects a).handler P LuaState.addonEvents event with
  | none =>
    have hrun : (invokeEvent P env nested stack a event args).run s = .ok none s :=
      run_invoke_of_dotless hdot hh
    rw [after_of_run hrun]
    refine ⟨fun _ => rfl, fun h => absurd (fun L f _ hf => ?_) h⟩
    rw [hh] at hf
    cases hf
  | some f =>
    obtain ⟨L, hL, hcall⟩ := registry_invokeEvent hh
    rw [hcall]
    obtain ⟨hrefused, hnew⟩ :=
      runScript_registry (env.call f L.heap args)
        { s with trace := .call a f args stack :: s.trace } (henv.call f L.heap args)
    refine ⟨fun h => hrefused (h L f hL hh), fun h => hnew (fun hr => h (fun L' f' hL' hf' => ?_))⟩
    rw [hL] at hL'
    rw [hh] at hf'
    cases hL'
    cases hf'
    exact hr

omit henv in
theorem load_dotless : '.' ∉ "load".toList := by decide

/-- An auto-reload leaves the registry alone when the new start and the handler of `load` ask
for nothing that is free. Otherwise a command gets an owner. -/
theorem autoReload_registry_iff (s : Plugin H) :
    (RefusesRestart P env (s.objects a).fileName s.registry →
        (after (autoReload P env nested stack a) s).registry = s.registry) ∧
      (¬ RefusesRestart P env (s.objects a).fileName s.registry →
        Gains s.registry (after (autoReload P env nested stack a) s).registry) := by
  rw [after_autoReload]
  obtain ⟨ok, s₁, hrun⟩ : ∃ ok s₁, (startAddon P env nested stack a (s.objects a).fileName).run
      (s.restarting env stack a) = .ok ok s₁ := returns_startAddon _ _
  have hreload : after (reload P env nested stack a) s = s₁ :=
    after_of_run ((run_reload s).trans hrun)
  have hregistry : (s.restarting env stack a).registry = s.registry := loading_registry _ _
  obtain ⟨hrefused, hnew⟩ : (RefusesStart P env (s.objects a).fileName s.registry →
        s₁.registry = s.registry) ∧
      (¬ RefusesStart P env (s.objects a).fileName s.registry →
        Gains s.registry s₁.registry) := by
    rw [← after_of_run hrun, ← hregistry]
    exact startAddon_registry_iff (henv.script _) _
  rw [hreload]
  by_cases hR : RefusesStart P env (s.objects a).fileName s.registry
  · have hr₁ := hrefused hR
    obtain ⟨hiff, hobject, hfail⟩ := startAddon_refused (henv.script (s.objects a).fileName)
      (hregistry.symm ▸ hR) hrun
    cases ok with
    | false =>
      -- the new start fails, and no event reaches the addon
      have hload : (invokeEvent P env nested stack a "load" []).run s₁ = .ok none s₁ :=
        run_invoke_of_not_ok (by rw [hfail rfl]; exact nofun)
      rw [after_of_run hload]
      refine ⟨fun _ => hr₁, fun h => absurd ⟨hR, fun body hb L hL hread => ?_⟩ h⟩
      cases hiff.mpr ⟨body, L, hb, hL, hread⟩
    | true =>
      obtain ⟨body, L, hb, hL, hread⟩ := hiff.mp rfl
      obtain ⟨hstate, hluaState⟩ := hobject rfl body hb
      rw [hL] at hluaState
      have hhandler : (s₁.objects a).handler P LuaState.addonEvents "load" =
          (Addon.running L).handler P LuaState.addonEvents "load" := by
        simp [Addon.handler, Addon.running, hluaState, hstate]
      obtain ⟨hsame, hgain⟩ : (HandlerRefuses P env "load" [] a s₁ →
            (after (invokeEvent P env nested stack a "load" []) s₁).registry = s.registry) ∧
          (¬ HandlerRefuses P env "load" [] a s₁ → Gains s.registry
            (after (invokeEvent P env nested stack a "load" []) s₁).registry) :=
        hr₁ ▸ invokeEvent_registry henv load_dotless [] s₁
      refine ⟨fun h => hsame (fun L' f hL' hf => ?_), fun h => hgain (fun hall => ?_)⟩
      · rw [hluaState] at hL'
        cases hL'
        rw [hr₁]
        exact h.2 body hb L hL hread f (hhandler ▸ hf)
      · refine h ⟨hR, fun body' hb' L' hL' _ f hf => ?_⟩
        rw [hb] at hb'
        cases hb'
        rw [hL] at hL'
        cases hL'
        rw [← hr₁]
        exact hall L f hluaState (hhandler.trans hf)
  · refine ⟨fun h => absurd h.1 hR, fun _ => ?_⟩
    obtain ⟨c, hc, hc₁⟩ := hnew hR
    have hframe : Frame P a s₁ (after (invokeEvent P env nested stack a "load" []) s₁) :=
      invokeEvent_frame henv "load" [] s₁
    exact ⟨c, hc, hframe.registry.owned_mono hc₁⟩

end Refused

/-! ## The two reloads of a failed addon -/

/-- The two stores agree on `m_Addons`, the two structures of the registry and the state of the
addon. -/
structure SameOutcome (a : AddonId) (s s' : Plugin H) : Prop where
  addons : s.addons = s'.addons
  addonCommands : s.registry.addonCommands = s'.registry.addonCommands
  chatCommands : s.registry.chatCommands = s'.registry.chatCommands
  state : (s.objects a).state = (s'.objects a).state

section Failed

variable {env : Env H} {nested : Nested H} {stack : CallStack} {a : AddonId}
  {addonName : String} {s : Plugin H}

/-- An addon in state `Error` does not see the event `unload`. -/
theorem after_reloadAddon_of_error (hl : s.addons.lookup (P.toLower addonName) = some a)
    (herr : (s.objects a).state = .error) {r : Registry}
    (hremove : (removeAddonCommands P (P.toLower addonName)).run s.registry = .ok () r) :
    after (reloadAddon P env nested stack addonName) s =
      after (tell (.server ("[Addons] Reloaded addon '" ++ addonName ++ "'!")))
        (after (autoReload P env nested stack a)
          (s.removeCommands P (P.toLower addonName))) := by
  have hunload : (invokeEvent P env nested stack a "unload" []).run s = .ok none s :=
    run_invoke_of_not_ok (by rw [herr]; exact nofun)
  rw [after_reloadAddon hl (by rw [after_of_run hunload]; exact ⟨r, hremove⟩),
    after_of_run hunload]

/-- Without a list for the addon there is nothing to remove, and the two reloads take the same
steps, whatever the scripts do. -/
theorem sameOutcome_of_none (hl : s.addons.lookup (P.toLower addonName) = some a)
    (herr : (s.objects a).state = .error)
    (hnone : s.registry.addonCommands.lookup (P.toLower addonName) = none) :
    SameOutcome a (after (autoReload P env nested stack a) s)
      (after (reloadAddon P env nested stack addonName) s) := by
  have hremove : (removeAddonCommands P (P.toLower addonName)).run s.registry =
      .ok () s.registry := by
    rw [← P.toLower_toLower] at hnone
    simp only [removeAddonCommands, EStateM.run_bind, EStateM.run_get, hnone, EStateM.run_pure]
  have hsame : s.removeCommands P (P.toLower addonName) = s := by
    rw [Plugin.removeCommands, after_of_run hremove]
  rw [after_reloadAddon_of_error hl herr hremove, hsame]
  exact ⟨rfl, rfl, rfl, rfl⟩

variable (henv : env.Targets NoDelegate)

include henv

theorem twin_autoReload {Q : Registry → Registry → Prop} {key : String} {t : Plugin H}
    (hQ : Congruent P key Q) (hreg : Q s.registry t.registry)
    (hfile : (s.objects a).fileName = (t.objects a).fileName)
    (hkey : P.toLower (s.objects a).fileName = key) :
    Twin (Link.single a a hQ) (after (autoReload P env nested stack a) s)
      (after (autoReload P env nested stack a) t) := by
  rw [after_autoReload, after_autoReload]
  refine twin_invoke_single hQ henv LuaState.addonEvents "event" "load" [] ?_
  unfold after
  rw [run_reload, run_reload, ← hfile]
  refine ((twin_started (nestedTwins_noDelegate nested nested) Link.single_pair (henv.script _)
    (twin_single ?_ ?_ ?_)).resolve_left not_bad_single).2
  · change Q (s.restarting env stack a).registry (t.restarting env stack a).registry
    rw [Plugin.restarting, Plugin.restarting, loading_registry, loading_registry]
    exact hreg
  · constructor <;> simp [Plugin.restarting, Plugin.loading, Plugin.modifyAddon, Addon.withoutLua,
      hfile]
  · simpa [Plugin.restarting, Plugin.loading, Plugin.modifyAddon, Addon.withoutLua] using hkey

/-- A chat command of the addon outlives the auto-reload and is gone after `/addon reload`: the
one with the same name is a new object. -/
theorem not_sameOutcome_of_mem (hw : WellOwned P s.registry) (ha : Agrees s.registry)
    (hids : ∀ e ∈ s.registry.chatCommands, e.id < s.registry.nextCommand)
    (hl : s.addons.lookup (P.toLower addonName) = some a)
    (herr : (s.objects a).state = .error) {c : String}
    (hc : c ∈ s.registry.commandsOf (P.toLower addonName)) :
    ¬ SameOutcome a (after (autoReload P env nested stack a) s)
      (after (reloadAddon P env nested stack addonName) s) := by
  intro hsame
  have hremove := ha.run_removeAddonCommands hw (P.toLower addonName)
  obtain ⟨e, he, hen, -⟩ := ha.entry _ c hc
  have hmem : e ∈ s.registry.chatCommands :=
    List.mem_of_mem_filter (he ▸ List.mem_singleton_self e)
  have hframe : Frame P a s (after (autoReload P env nested stack a) s) := autoReload_frame henv s
  have hstays := hframe.registry.chatCommand_stays hmem hen (Registry.owned_iff.mpr ⟨_, hc⟩)
  rw [hsame.chatCommands, after_reloadAddon_of_error hl herr hremove] at hstays
  have hframe₂ : Frame P a (s.removeCommands P (P.toLower addonName))
      (after (autoReload P env nested stack a) (s.removeCommands P (P.toLower addonName))) :=
    autoReload_frame henv _
  have hfresh := FreshIds.steps hframe₂.registry.steps
  have hregistry := after_of_run hremove
  rcases hfresh.chatCommands e hstays with hold | ⟨hge, -⟩
  · rw [Plugin.removeCommands, hregistry, P.toLower_toLower] at hold
    have hany := (List.mem_filter.mp hold).2
    simp only [Bool.not_eq_true', List.any_eq_false] at hany
    exact hany c hc (by simp [hasAlias_of_names_eq hen])
  · rw [Plugin.removeCommands, hregistry] at hge
    exact absurd hge (not_le.mpr (hids e hmem))

/-- With an empty list of its own, the addon must get a command accepted for the two reloads to
agree: `/addon reload` takes the empty list away. -/
theorem sameOutcome_iff_of_nil (hw : WellOwned P s.registry) (ha : Agrees s.registry)
    (hl : s.addons.lookup (P.toLower addonName) = some a)
    (hkey : P.toLower (s.objects a).fileName = P.toLower addonName)
    (herr : (s.objects a).state = .error)
    (hnil : s.registry.addonCommands.lookup (P.toLower addonName) = some []) :
    SameOutcome a (after (autoReload P env nested stack a) s)
        (after (reloadAddon P env nested stack addonName) s) ↔
      ¬ RefusesRestart P env (s.objects a).fileName s.registry := by
  have hremove := ha.run_removeAddonCommands hw (P.toLower addonName)
  have hregistry : (s.removeCommands P (P.toLower addonName)).registry =
      { s.registry with
        addonCommands := s.registry.addonCommands.erase (P.toLower addonName) } := by
    rw [Plugin.removeCommands, after_of_run hremove, P.toLower_toLower]
    simp [Registry.commandsOf, hnil]
  rw [after_reloadAddon_of_error hl herr hremove]
  have hlist : SameUpTo (P.toLower addonName) s.registry
      (s.removeCommands P (P.toLower addonName)).registry := Or.inr ⟨hnil, hregistry⟩
  have htwin : Twin
      (Link.single a a (congruent_sameUpTo : Congruent P (P.toLower addonName) _))
      (after (autoReload P env nested stack a) s)
      (after (autoReload P env nested stack a) (s.removeCommands P (P.toLower addonName))) :=
    twin_autoReload henv congruent_sameUpTo hlist rfl hkey
  have hframe : Frame P a s (after (autoReload P env nested stack a) s) := autoReload_frame henv s
  have hframe₂ : Frame P a (s.removeCommands P (P.toLower addonName))
      (after (autoReload P env nested stack a) (s.removeCommands P (P.toLower addonName))) :=
    autoReload_frame henv _
  obtain ⟨hrefused, hgains⟩ : (RefusesRestart P env (s.objects a).fileName s.registry →
        (after (autoReload P env nested stack a) s).registry = s.registry) ∧
      (¬ RefusesRestart P env (s.objects a).fileName s.registry →
        Gains s.registry (after (autoReload P env nested stack a) s).registry) :=
    autoReload_registry_iff henv s
  constructor
  · intro hsame hR
    have hne : (s.removeCommands P (P.toLower addonName)).registry.addonCommands.lookup
        (P.toLower addonName) ≠ some [] := by
      rw [hregistry]
      simp
    refine Registrations.lookup_ne_nil (hkey ▸ hframe₂.registry) hne ?_
    have hac := hsame.addonCommands
    rw [hrefused hR] at hac
    exact (congrArg (fun t => t.lookup (P.toLower addonName)) hac).symm.trans hnil
  · intro hR
    obtain ⟨c, hno, hc⟩ := hgains hR
    have hmem := (hkey ▸ hframe.registry : Registrations P (P.toLower addonName) _ _).fresh_mem
      hno hc
    rcases htwin.registry with heq | ⟨hnil', -⟩
    · exact ⟨hframe.addons.trans hframe₂.addons.symm, congrArg Registry.addonCommands heq,
        congrArg Registry.chatCommands heq, (htwin.alike a a Link.single_pair).state⟩
    · simp [Registry.commandsOf, hnil'] at hmem

/-- An addon that a load with the same registry would bring to state `Ok` is brought there by
the auto-reload. -/
theorem autoReload_ok_of_load {t : Plugin H} {name : String} {b : AddonId}
    (hreg : s.registry = t.registry) (hfile : (s.objects a).fileName = name)
    (hnone : t.addons.lookup (P.toLower name) = none)
    (hb : (after (loadCommand P env nested stack name) t).addons.lookup (P.toLower name) = some b)
    (hok : ((after (loadCommand P env nested stack name) t).objects b).state = .ok) :
    ((after (autoReload P env nested stack a) s).objects a).state = .ok := by
  have htwin : Twin (Link.single a t.nextAddon (congruent_eq : Congruent P (P.toLower name) _))
      (after (reload P env nested stack a) s)
      (after (startAddon P env nested stack t.nextAddon name) (t.create name)) := by
    subst hfile
    refine ((twin_restarting henv (nestedTwins_noDelegate nested nested) Link.single_pair rfl
      (twin_single ?_ ?_ ?_)).resolve_left not_bad_single).2
    · change (s.restarting env stack a).registry = t.registry
      rw [Plugin.restarting, loading_registry]
      exact hreg
    · constructor <;> simp [Plugin.restarting, Plugin.loading, Plugin.modifyAddon, Plugin.create,
        Addon.withoutLua]
    · simp [Plugin.restarting, Plugin.loading, Plugin.modifyAddon, Addon.withoutLua]
  obtain ⟨ok, u, hrun⟩ : ∃ ok u, (startAddon P env nested stack t.nextAddon name).run
      (t.create name) = .ok ok u := returns_startAddon _ _
  have hframe : Frame P t.nextAddon (t.create name)
      (after (startAddon P env nested stack t.nextAddon name) (t.create name)) :=
    startAddon_frame (henv.script name) _
  rw [after_of_run hrun] at htwin hframe
  cases ok with
  | false =>
    -- the new start failed, and nothing was added
    obtain ⟨m, hload⟩ := after_loadCommand_failed hnone hrun
    rw [hload] at hb
    change u.addons.lookup _ = _ at hb
    rw [hframe.addons] at hb
    change t.addons.lookup _ = _ at hb
    rw [hnone] at hb
    cases hb
  | true =>
    obtain ⟨m, hload⟩ := after_loadCommand hnone hrun
    have hevent : Frame P t.nextAddon u
        (after (invokeEvent P env nested stack t.nextAddon "load" []) u) :=
      invokeEvent_frame henv "load" [] u
    have haddons : (after (invokeEvent P env nested stack t.nextAddon "load" []) u).addons =
        t.addons := hevent.addons.trans hframe.addons
    have hb' : b = t.nextAddon := by
      rw [hload] at hb
      change (Plugin.tryAdd _ _ _).addons.lookup _ = _ at hb
      unfold Plugin.tryAdd at hb
      rw [if_neg (by rw [haddons]; exact AList.lookup_eq_none.mp hnone)] at hb
      rw [AList.lookup_insert] at hb
      exact (Option.some.inj hb).symm
    rw [hload, hb'] at hok
    change ((Plugin.tryAdd _ _ _).objects _).state = _ at hok
    rw [tryAdd_objects] at hok
    rw [after_autoReload]
    exact ((twin_invoke_single congruent_eq henv LuaState.addonEvents "event" "load" []
      htwin).alike a t.nextAddon Link.single_pair).state.trans hok

/-- When `/addon unload` and `/addon load` would leave an addon in state `Ok`, the auto-reload
leaves this one in state `Ok`. -/
def Recovers (P : Platform) (env : Env H) (nested : Nested H) (addonName : String) (a : AddonId)
    (s : Plugin H) : Prop :=
  ∀ b, (after (loadCommand P env nested [] (s.objects a).fileName)
      (after (unloadAddon P env nested [] addonName) s)).addons.lookup (P.toLower addonName) =
        some b →
    ((after (loadCommand P env nested [] (s.objects a).fileName)
      (after (unloadAddon P env nested [] addonName) s)).objects b).state = .ok →
    ((after (autoReload P env nested [] a) s).objects a).state = .ok

omit henv in
/-- **The two reload paths of a failed addon.** Take an addon in state `Error`, in a state that
a run reached in which only the plugin changes the chat commands. The auto-reload and `/addon
reload` leave the same addons, the same registry and the same state of the addon, and the
addon recovers when its file is fine, exactly if `m_AddonCommands` has no list for the addon,
or an empty one and the new start or its handler of `load` gets a command accepted. Without a
list they agree for every script, also for scripts that call chat commands. -/
theorem autoReload_agrees_iff {allowed : Env H → Op → Prop}
    (hallowed : ∀ env op, allowed env op → op.Plain) (h : Reach P allowed s) (n : Nat)
    (hl : s.addons.lookup (P.toLower addonName) = some a)
    (herr : (s.objects a).state = .error) :
    (∀ env : Env H, s.registry.addonCommands.lookup (P.toLower addonName) = none →
      SameOutcome a (after (autoReload P env (delegate P env n) [] a) s)
        (after (reloadAddon P env (delegate P env n) [] addonName) s)) ∧
    ∀ env : Env H, env.Targets NoDelegate →
      (SameOutcome a (after (autoReload P env (delegate P env n) [] a) s)
          (after (reloadAddon P env (delegate P env n) [] addonName) s) ∧
        Recovers P env (delegate P env n) addonName a s ↔
      s.registry.addonCommands.lookup (P.toLower addonName) = none ∨
        (s.registry.addonCommands.lookup (P.toLower addonName) = some [] ∧
          ¬ RefusesRestart P env (s.objects a).fileName s.registry)) := by
  obtain ⟨hlt, hkey⟩ := h.keyed _ a hl
  have hw := h.wellOwned
  have ha := h.agrees hallowed
  refine ⟨fun env hnone => sameOutcome_of_none hl herr hnone, fun env henv => ?_⟩
  constructor
  · rintro ⟨hsame, -⟩
    cases hlist : s.registry.addonCommands.lookup (P.toLower addonName) with
    | none => exact Or.inl rfl
    | some l =>
      cases l with
      | nil => exact Or.inr ⟨rfl, (sameOutcome_iff_of_nil henv hw ha hl hkey.symm herr hlist).mp
          hsame⟩
      | cons c l =>
        have hc : c ∈ s.registry.commandsOf (P.toLower addonName) := by
          simp [Registry.commandsOf, hlist]
        exact absurd hsame
          (not_sameOutcome_of_mem henv hw ha (h.idsBelow hallowed) hl herr hc)
  · intro hcond
    have hsame : SameOutcome a (after (autoReload P env (delegate P env n) [] a) s)
        (after (reloadAddon P env (delegate P env n) [] addonName) s) := by
      rcases hcond with hnone | ⟨hnil, hR⟩
      · exact sameOutcome_of_none hl herr hnone
      · exact (sameOutcome_iff_of_nil henv hw ha hl hkey.symm herr hnil).mpr hR
    refine ⟨hsame, fun b hb hok => ?_⟩
    have hremove := ha.run_removeAddonCommands hw (P.toLower addonName)
    have hunload : (invokeEvent P env (delegate P env n) [] a "unload" []).run
        (s.unlisted (P.toLower addonName) a) = .ok none (s.unlisted (P.toLower addonName) a) :=
      run_invoke_of_not_ok (by simp [Plugin.unlisted, herr])
    obtain ⟨haddons, -, -, hregistry⟩ := unloadAddon_rest hl (after_of_run hunload).symm rfl
    rw [hsame.state, after_reloadAddon_of_error hl herr hremove]
    refine autoReload_ok_of_load henv hregistry.symm rfl ?_ (hkey ▸ hb) hok
    rw [haddons]
    change (s.addons.erase (P.toLower addonName)).lookup (P.toLower (s.objects a).fileName) = none
    rw [← hkey]
    exact AList.lookup_erase _ _

end Failed

/-- One addon, whose handler of the event `Tick` raises an error. -/
def tickEnv (next : Script Unit) : Env Unit :=
  plainEnv (fun _ => some (withInfo (.registerEvent (ascii "Tick") 1 next))) (fun _ _ => .raise ())

/-- The plugin after it loaded the addon `Foo`, which failed at its first event. -/
def tickState (next : Script Unit) : Plugin Unit :=
  after ((Op.event "Tick" []).run asciiPlatform (tickEnv next) 0)
    (after ((Op.load "Foo").run asciiPlatform (tickEnv next) 0) (.start [addonChatCommand]))

theorem reach_tickState (next : Script Unit) :
    Reach asciiPlatform (fun _ op => op.Plain) (tickState next) :=
  ((Reach.initial initial_start).step (tickEnv next) 0 (.load "Foo") trivial).step (tickEnv next)
    0 (.event "Tick" []) trivial

theorem tickEnv_targets : (tickEnv (.done () [])).Targets NoDelegate where
  script _ body h := by
    cases h
    trivial
  call _ _ _ := trivial

/-- An addon without commands is reloaded alike on both paths. -/
theorem tick_addon_recovers :
    let env := tickEnv (.done () [])
    let s := tickState (.done () [])
    SameOutcome 0 (after (autoReload asciiPlatform env (delegate asciiPlatform env 1) [] 0) s)
        (after (reloadAddon asciiPlatform env (delegate asciiPlatform env 1) [] "Foo") s) ∧
      Recovers asciiPlatform env (delegate asciiPlatform env 1) "Foo" 0 s :=
  ((autoReload_agrees_iff (fun _ _ h => h) (reach_tickState (.done () [])) 1 (by decide +kernel)
    (by decide +kernel)).2 _ tickEnv_targets).mpr (Or.inl (by decide +kernel))

/-- A script that registers a command and does not catch a refusal. -/
def helloScript : Script Unit :=
  .registerCommand (ascii "hello") [] 7 (fun ok => if ok then .done () [] else .raise ())

/-- An addon that owns a command and failed: the auto-reload is refused its own command, so the
new start fails and the addon stays in state `Error`. `/addon reload` brings it back. -/
theorem autoReload_stays_in_error :
    let env := tickEnv helloScript
    let s := tickState helloScript
    let s₁ := after (autoReload asciiPlatform env (delegate asciiPlatform env 1) [] 0) s
    let s₂ := after (reloadAddon asciiPlatform env (delegate asciiPlatform env 1) [] "Foo") s
    Reach asciiPlatform (fun _ op => op.Plain) s ∧ s.addons.lookup "foo" = some 0 ∧
      (s.objects 0).state = .error ∧ (s₁.objects 0).state = .error ∧
      (s₂.objects 0).state = .ok ∧ ¬ SameOutcome 0 s₁ s₂ := by
  intro env s s₁ s₂
  have h₁ : (s₁.objects 0).state = .error := by decide +kernel
  have h₂ : (s₂.objects 0).state = .ok := by decide +kernel
  refine ⟨reach_tickState helloScript, by decide +kernel, by decide +kernel, h₁, h₂,
    fun h => ?_⟩
  rw [h.state, h₂] at h₁
  cases h₁

end LuaAddons
