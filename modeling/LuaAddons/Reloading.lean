import LuaAddons.OwnCommands
import LuaAddons.Runs
import LuaAddons.Starting

/-!
# The two ways to reload an addon

`/addon reload` and `/addon unload` followed by `/addon load` order their steps differently:
the commands are removed before or after the release, the object is the same or a new one,
and the addon is in `m_Addons` or not while its scripts run. The scripts see none of this, because
the two runs are in step (`reload_equals_unload_load`), unless they execute a command of their own
addon: `HandleAddonCallbackCommand` finds the addon only in `m_Addons`, and drops the command where
it is not in there (`load_handler_loses_command`).
-/

namespace LuaAddons

open Exec

variable {H : Type} {P : Platform}

/-! ## What a start reads and an event leaves alone -/

section Infos

variable {env : Env H} {nested : Nested H} {stack : CallStack} {a : AddonId} {name : String}

/-- The fields that `Initialize` reads from the Lua state. -/
def Addon.infos (x : Addon H) : String × String × String := (x.author, x.name, x.version)

theorem Alike.ext {x y : Addon H} (h : Alike x y) (hinfos : x.infos = y.infos) : x = y := by
  obtain ⟨L, st, file, n, au, v⟩ := x
  obtain ⟨L', st', file', n', au', v'⟩ := y
  obtain ⟨hL, hs, hf⟩ := h
  simp only [Addon.infos, Prod.mk.injEq] at hL hs hf hinfos
  obtain ⟨hauthor, hname, hversion⟩ := hinfos
  rw [hL, hs, hf, hauthor, hname, hversion]

theorem Quiet.infos {X : Set AddonId} {s s' : Plugin H} (h : Quiet P X stack s s') {c : AddonId}
    (hc : c ∉ X) : (s'.objects c).infos = (s.objects c).infos := by
  obtain ⟨-, -, hauthor, hname, hversion⟩ := (h.same c hc).fields
  rw [Addon.infos, hauthor, hname, hversion]
  rfl

/-- The fields of an addon are those its Lua state has now. -/
structure ReadsInfos (P : Platform) (x : Addon H) : Prop where
  author : readInfo P x "author" = .ok x.author
  name : readInfo P x "name" = .ok x.name
  version : readInfo P x "version" = .ok x.version

theorem ReadsInfos.infos_eq {x y : Addon H} (hx : ReadsInfos P x) (hy : ReadsInfos P y)
    (hL : x.luaState = y.luaState) : x.infos = y.infos := by
  have hauthor := hx.author.symm.trans ((readInfo_congr hL "author").trans hy.author)
  have hname := hx.name.symm.trans ((readInfo_congr hL "name").trans hy.name)
  have hversion := hx.version.symm.trans ((readInfo_congr hL "version").trans hy.version)
  rw [Addon.infos, Except.ok.inj hauthor, Except.ok.inj hname, Except.ok.inj hversion]
  rfl

theorem readInfos_reads {s s' : Plugin H} {u : Unit}
    (h : (readInfos P a).run s = .ok u s') : ReadsInfos P (s'.objects a) := by
  obtain ⟨author, name, version, hauthor, hname, hversion, hobject, -⟩ := readInfos_ok h
  rw [hobject]
  exact ⟨hauthor, hname, hversion⟩

theorem startAddon_reads {s s' : Plugin H}
    (h : (startAddon P env nested stack a name).run s = .ok true s') :
    ReadsInfos P (s'.objects a) := by
  rcases startAddon_cases h with ⟨-, s₁, -, hinfos⟩ | ⟨hfalse, -⟩
  · exact readInfos_reads hinfos
  · cases hfalse

theorem invokeEvent_quiet (henv : env.Targets NotAddonCommand) (n : Nat) (event : String)
    (args : List NetObject) : Keeps (On (Valid P (a :: stack)) (Quiet P ∅ stack))
      (invokeEvent P env (delegate P env n) stack a event args) :=
  invokeEvent_keeps (quiet_effects P ∅) (callback_delegate_keeps (quiet_effects P ∅) henv n) henv
    stack a event args

end Infos

/-! ## An addon that executes a chat command -/

/-- One addon with the command `hello`, whose handler of `load` executes a chat command and does not
look at the outcome. -/
def loadEnv (message : String) : Env Unit :=
  plainEnv
    (fun _ => some (withInfo (.registerCommand (ascii "hello") [] 7 (fun _ =>
      .registerEvent (ascii "load") 8 (.done () [])))))
    (fun f _ => if f = 8 then
        .chatCommand () .handleAddonCallbackCommand
          { message := message, parameters := [], fromServer := true } (fun _ _ => .done () [])
      else .done () [])

/-- The plugin after it loaded the addon `Foo`. -/
def loadState (message : String) : Plugin Unit :=
  after ((Op.load "Foo").run asciiPlatform (loadEnv message) 1) (.start [addonChatCommand])

theorem loadEnv_targets (message : String) : (loadEnv message).Targets NotAddonCommand where
  script _ body h := by
    cases h
    simp [withInfo, Script.Targets]
  call f heap args := by
    change (ite (f = 8) _ _ : Script Unit).Targets NotAddonCommand
    split
    · exact ⟨by simp [NotAddonCommand], fun _ _ => trivial⟩
    · exact trivial

theorem reach_loadState (message : String) :
    Reach asciiPlatform NotReentrant (loadState message) :=
  (Reach.initial initial_start).step (loadEnv message) 1 (.load "Foo")
    ⟨trivial, loadEnv_targets message⟩

/-! ## Unloading and loading again -/

section Unload

variable {env : Env H} {nested : Nested H} {stack : CallStack} {a : AddonId}
  {addonName : String} {s : Plugin H}

/-- The steps of `/addon reload` up to the result of `Reload`. -/
def restart (P : Platform) (env : Env H) (nested : Nested H) (stack : CallStack)
    (addonName : String) (a : AddonId) : Method H Bool := do
  discard (invokeEvent P env nested stack a "unload" [])
  onRegistry (removeAddonCommands P (P.toLower addonName))
  reload P env nested stack a

theorem run_restart {r : Registry} (hremove : (removeAddonCommands P (P.toLower addonName)).run
    (after (invokeEvent P env nested stack a "unload" []) s).registry = .ok () r) :
    (restart P env nested stack addonName a).run s =
      (reload P env nested stack a).run
        ((after (invokeEvent P env nested stack a "unload" []) s).removeCommands P
          (P.toLower addonName)) := by
  unfold restart
  rw [(returns_discard (returns_invokeEvent "unload" [])).run_seq, after_discard,
    EStateM.run_bind, run_onRegistry hremove, Plugin.removeCommands, after_of_run hremove]

/-- `LoadAddon` for a name that is not loaded, when `Initialize` succeeds. -/
theorem after_loadCommand {fileName : String} {s₁ : Plugin H}
    (hl : s.addons.lookup (P.toLower fileName) = none)
    (hstart : (startAddon P env nested stack s.nextAddon fileName).run (s.create fileName) =
      .ok true s₁) :
    ∃ m, after (loadCommand P env nested stack fileName) s =
      after (tell m) ((after (invokeEvent P env nested stack s.nextAddon "load" []) s₁).tryAdd
        (P.toLower fileName) s.nextAddon) := by
  have hload : (loadAddon P env nested stack fileName).run s = .ok (some s.nextAddon)
      ((after (invokeEvent P env nested stack s.nextAddon "load" []) s₁).tryAdd
        (P.toLower fileName) s.nextAddon) := by
    rw [run_loadAddon_of_none hl, EStateM.run_bind, hstart]
    simp only [if_true]
    rw [(returns_discard (returns_invokeEvent "load" [])).run_seq, after_discard]
    rfl
  unfold loadCommand after
  rw [EStateM.run_bind, hload]
  exact ⟨_, rfl⟩

theorem after_loadCommand_failed {fileName : String} {s₁ : Plugin H}
    (hl : s.addons.lookup (P.toLower fileName) = none)
    (hstart : (startAddon P env nested stack s.nextAddon fileName).run (s.create fileName) =
      .ok false s₁) :
    ∃ m, after (loadCommand P env nested stack fileName) s = after (tell m) s₁ := by
  have hload : (loadAddon P env nested stack fileName).run s = .ok none s₁ := by
    rw [run_loadAddon_of_none hl, EStateM.run_bind, hstart]
    rfl
  unfold loadCommand after
  rw [EStateM.run_bind, hload]
  exact ⟨_, rfl⟩

@[simp] theorem tryAdd_objects (s : Plugin H) (key : String) (b : AddonId) :
    (s.tryAdd key b).objects = s.objects := by
  unfold Plugin.tryAdd
  split <;> rfl

@[simp] theorem tryAdd_registry (s : Plugin H) (key : String) (b : AddonId) :
    (s.tryAdd key b).registry = s.registry := by
  unfold Plugin.tryAdd
  split <;> rfl

/-- What an unload does behind the handler of `unload`. -/
theorem unloadAddon_rest (hl : s.addons.lookup (P.toLower addonName) = some a) {v t : Plugin H}
    (hv : v = after (invokeEvent P env nested stack a "unload" [])
      (s.unlisted (P.toLower addonName) a))
    (ht : t = after (unloadAddon P env nested stack addonName) s) :
    t.addons = v.addons ∧ t.nextAddon = v.nextAddon ∧ (∀ c ≠ a, t.objects c = v.objects c) ∧
      t.registry = (v.removeCommands P (P.toLower addonName)).registry := by
  have hunload : after (unloadAddon P env nested stack addonName) s =
      after (unloadFound P env nested stack (P.toLower addonName) addonName a) s := by
    rw [unloadAddon, after_get_bind, hl]
  rw [ht, hunload, after_unloadFound, after_onRegistry, ← hv]
  exact ⟨rfl, rfl, fun c hc => Function.update_of_ne hc _ _, rfl⟩

/-- The restarted addon and a new addon with its file. -/
theorem twin_restarting {l : Link P} {T : CommandDelegate → Prop} (henv : env.Targets T)
    (hn : NestedTwins l T nested nested) {t : Plugin H} {name : String}
    (hab : l.pair a t.nextAddon) (hfile : (s.objects a).fileName = name)
    (h : Twin l ((s.restarting env stack a).modifyAddon a Addon.withoutLua)
      ((t.create name).modifyAddon t.nextAddon Addon.withoutLua)) :
    l.Bad (after (reload P env nested stack a) s) ∨
      (outcome ((reload P env nested stack a).run s) =
          outcome ((startAddon P env nested stack t.nextAddon name).run (t.create name)) ∧
        Twin l (after (reload P env nested stack a) s)
          (after (startAddon P env nested stack t.nextAddon name) (t.create name))) := by
  subst hfile
  unfold after
  rw [run_reload]
  exact twin_started hn hab (henv.script _) h

theorem restarting_trace : s.trace <:+ (s.restarting env stack a).trace := by
  unfold Plugin.restarting Plugin.loading
  split
  · exact (List.suffix_cons _ _).trans (List.suffix_cons _ _)
  · exact List.suffix_cons _ _

/-- The stores when the addon left `m_Addons` in the second one. -/
theorem twin_unlisted (hkeyed : Keyed P s) {key : String} (hl : s.addons.lookup key = some a) :
    Twin (Link.reloading P key a a s.trace.length) s (s.unlisted key a) where
  registry := rfl
  alike c d hcd := by
    have hcd' : c = d := by
      rcases hcd with ⟨rfl, rfl⟩ | ⟨rfl, -⟩ <;> rfl
    subst hcd'
    exact .refl _
  owner _ _ _ := trivial
  loaded := by
    refine ⟨hl, rfl, fun k hk c hc => ?_⟩
    have hca : c ≠ a := by
      rintro rfl
      exact hk (hkeyed.injective hc hl)
    exact ⟨hca, hca⟩
  start := le_rfl

/-- The stores when the file is run again: by the same addon in the first one, by a new one in the
second. -/
theorem Twin.restarting {key removed : String} {start : Nat} {u v t : Plugin H}
    (h : Twin (Link.reloading P key a a start) u v) (hv : Keyed P v)
    (haddons : t.addons = v.addons) (hnext : t.nextAddon = v.nextAddon)
    (hobjects : ∀ c ≠ a, t.objects c = v.objects c)
    (hregistry : t.registry = (v.removeCommands P removed).registry) :
    Twin (Link.reloading P key a t.nextAddon start)
      (((u.removeCommands P removed).restarting env stack a).modifyAddon a Addon.withoutLua)
      ((t.create (u.objects a).fileName).modifyAddon t.nextAddon Addon.withoutLua) := by
  have hframe : Frame P a (u.removeCommands P removed)
      ((u.removeCommands P removed).restarting env stack a) := restarting_frame _
  obtain ⟨hl, herase, hothers⟩ := h.loaded
  refine ⟨?_, fun c d hcd => ?_, fun _ _ _ => trivial, ?_, ?_⟩
  · change ((u.removeCommands P removed).restarting env stack a).registry = t.registry
    have hsame : u.registry = v.registry := h.registry
    rw [hregistry, Plugin.restarting, loading_registry]
    change after (removeAddonCommands P removed) u.registry = after _ v.registry
    rw [hsame]
  · rcases hcd with ⟨rfl, rfl⟩ | ⟨rfl, hca, hcb⟩
    · constructor <;>
        simp [Plugin.modifyAddon, Plugin.create, Plugin.restarting, Plugin.loading,
          Addon.withoutLua, Plugin.removeCommands]
    · simp only [Plugin.modifyAddon, Plugin.create, Function.update_of_ne hca,
        Function.update_of_ne hcb]
      rw [hframe.objects c hca, hobjects c hca]
      exact h.alike c c (Or.inr ⟨rfl, hca, hca⟩)
  · change (Link.reloading P key a t.nextAddon start).loaded
      ((u.removeCommands P removed).restarting env stack a).addons t.addons
    rw [hframe.addons, haddons, hnext]
    refine ⟨hl, herase, fun k hk c hc => ⟨(hothers k hk c hc).1, ?_⟩⟩
    -- the addon is loaded in the second store as well
    have hloaded : v.addons.lookup k = some c := by
      rw [herase, AList.lookup_erase_ne hk]
      exact hc
    exact (hv k c hloaded).1.ne
  · have htrace : (u.removeCommands P removed).trace <:+
        ((u.removeCommands P removed).restarting env stack a).trace := restarting_trace
    exact h.start.trans htrace.length_le

theorem create_objects {t : Plugin H} {c : AddonId} {name : String} (hc : c ≠ t.nextAddon) :
    (t.create name).objects c = t.objects c := Function.update_of_ne hc _ _

/-- The loaded addons agree when the new one is added. -/
theorem Twin.same_addons {key : String} {b : AddonId} {start : Nat} {s t : Plugin H}
    (h : Twin (Link.reloading P key a b start) s t)
    (hown : (s.objects a).infos = (t.objects b).infos)
    (hinfos : ∀ c ≠ a, c ≠ b → (s.objects c).infos = (t.objects c).infos) (k : String) :
    (s.addons.lookup k).map s.objects =
      ((t.tryAdd key b).addons.lookup k).map (t.tryAdd key b).objects := by
  obtain ⟨hl, herase, hothers⟩ := h.loaded
  have htry : t.tryAdd key b = { t with addons := t.addons.insert key b } := by
    unfold Plugin.tryAdd
    rw [if_neg]
    rw [herase, AList.mem_erase]
    exact fun h => h.1 rfl
  rw [htry, herase]
  by_cases hk : k = key
  · subst hk
    simp [hl, (h.alike a b Link.reloading_pair).ext hown]
  · rw [AList.lookup_insert_ne hk, AList.lookup_erase_ne hk]
    cases hc : s.addons.lookup k with
    | none => rfl
    | some c =>
      obtain ⟨hca, hcb⟩ := hothers k hk c hc
      have halike := h.alike c c (Or.inr ⟨rfl, hca, hcb⟩)
      simp [halike.ext (hinfos c hca hcb)]

theorem Grows.suffix {s' : Plugin H} (h : Grows P stack s s') : s.trace <:+ s'.trace := by
  obtain ⟨new, hnew, -⟩ := h.trace
  exact ⟨new, hnew.symm⟩

/-- No store on the way to one without a command of the addon is bad. -/
theorem not_bad {key : String} {b : AddonId} {start : Nat} {s s' : Plugin H}
    (hown : ∀ e ∈ s'.since start, ¬ OwnCommand P key e) (h : s.trace <:+ s'.trace) :
    ¬ (Link.reloading P key a b start).Bad s := by
  rintro ⟨⟨e, he, hforbidden⟩, -⟩
  exact hown e (Plugin.since_subset h start he) hforbidden

/-- The two stores agree on the addons by their keys, with all their fields and their Lua states, on
`m_AddonCommands` and on the list of chat commands. -/
structure EndsAlike (s₁ s₂ : Plugin H) : Prop where
  addons : ∀ key, (s₁.addons.lookup key).map s₁.objects = (s₂.addons.lookup key).map s₂.objects
  addonCommands : s₁.registry.addonCommands = s₂.registry.addonCommands
  chatCommands : s₁.registry.chatCommands = s₂.registry.chatCommands

theorem invokeEvent_twin {key : String} {b : AddonId} {start n : Nat} {u v : Plugin H}
    (henv : env.Targets NotAddonCommand) (h : Twin (Link.reloading P key a b start) u v)
    (event : String) (args : List NetObject)
    (hbad : ¬ (Link.reloading P key a b start).Bad
      (after (invokeEvent P env (delegate P env n) stack a event args) u)) :
    Twin (Link.reloading P key a b start)
      (after (invokeEvent P env (delegate P env n) stack a event args) u)
      (after (invokeEvent P env (delegate P env n) stack b event args) v) := by
  have hinStep : (Link.reloading P key a b start).InStep
      (invokeEvent P env (delegate P env n) stack a event args)
      (invokeEvent P env (delegate P env n) stack b event args) :=
    twin_invoke (nestedTwins_delegate henv n) Link.reloading_pair henv LuaState.addonEvents "event"
      event args
  exact ((hinStep.step u v h).resolve_left hbad).2

/-- From the handler of `unload` on. The store `t` is `v` after the rest of the unload. -/
theorem endsAlike_of_unloaded {key removed : String} {start n : Nat} {u v t : Plugin H}
    (henv : env.Targets NotAddonCommand) (h : Twin (Link.reloading P key a a start) u v)
    (hinfos : ∀ c, (u.objects c).infos = (v.objects c).infos)
    (hkey : key = P.toLower (u.objects a).fileName) (hu : Valid P [a] u) (hv : Valid P [] v)
    (ht : Valid P [] t) (haddons : t.addons = v.addons) (hnext : t.nextAddon = v.nextAddon)
    (hobjects : ∀ c ≠ a, t.objects c = v.objects c)
    (hregistry : t.registry = (v.removeCommands P removed).registry)
    (hinit : outcome ((reload P env (delegate P env n) [] a).run (u.removeCommands P removed)) =
      .ok true)
    (hown : ∀ e ∈ (after (autoReload P env (delegate P env n) [] a)
      (u.removeCommands P removed)).since start, ¬ OwnCommand P key e) :
    EndsAlike (after (autoReload P env (delegate P env n) [] a) (u.removeCommands P removed))
      (after (loadCommand P env (delegate P env n) [] (u.objects a).fileName) t) := by
  rw [after_autoReload] at hown ⊢
  have hvalid : Valid P [a] (u.removeCommands P removed) := ⟨hu.below, hu.keyed⟩
  -- the new run of the file
  have hreload : Quiet P {a} [] (u.removeCommands P removed)
      (after (reload P env (delegate P env n) [] a) (u.removeCommands P removed)) :=
    (reload_quiet henv [] a _ hvalid).1
  have hload : Quiet P ∅ [] (after (reload P env (delegate P env n) [] a)
      (u.removeCommands P removed)) _ :=
    (invokeEvent_quiet henv n "load" [] _ (hvalid.grows hreload.grows)).1
  obtain ⟨hout, htwin⟩ := (twin_restarting henv (nestedTwins_delegate henv n)
    Link.reloading_pair rfl (h.restarting hv.keyed haddons hnext hobjects
      hregistry)).resolve_left (not_bad hown hload.grows.suffix)
  have hrun₁ := run_of_outcome hinit
  have hrun₂ := run_of_outcome (hout.symm.trans hinit)
  rw [run_reload] at hrun₁
  have hreads := (startAddon_reads hrun₁).infos_eq (startAddon_reads hrun₂)
    (htwin.alike a t.nextAddon Link.reloading_pair).luaState
  -- the load of the new addon
  have hnone : t.addons.lookup (P.toLower (u.objects a).fileName) = none := by
    rw [haddons, h.loaded.2.1, ← hkey]
    exact AList.lookup_erase _ _
  obtain ⟨m, hcommand⟩ := after_loadCommand hnone hrun₂
  have hcreate : Valid P [t.nextAddon] (t.create (u.objects a).fileName) :=
    (ht.grows (create_grows P [] t (u.objects a).fileName)).cons (Nat.lt_succ_self _)
  have hstart : Quiet P {t.nextAddon} [] (t.create (u.objects a).fileName)
      (after (startAddon P env (delegate P env n) [] t.nextAddon (u.objects a).fileName)
        (t.create (u.objects a).fileName)) :=
    (startAddon_quiet henv [] t.nextAddon (u.objects a).fileName _ hcreate).1
  have hload' : Quiet P ∅ [] (after (startAddon P env (delegate P env n) [] t.nextAddon
      (u.objects a).fileName) (t.create (u.objects a).fileName)) _ :=
    (invokeEvent_quiet henv n "load" [] _ (hcreate.grows hstart.grows)).1
  -- the handler of `load`, in step
  have hend := invokeEvent_twin henv htwin "load" [] (not_bad hown List.suffix_rfl)
  have hnot : ∀ c : AddonId, c ∉ (∅ : Set AddonId) := Set.notMem_empty
  have hself := (hload.infos (hnot a)).trans
    (hreads.trans (hload'.infos (hnot t.nextAddon)).symm)
  have hothers : ∀ c ≠ a, c ≠ t.nextAddon → _ := fun c hca hcb =>
    calc ((after (invokeEvent P env (delegate P env n) [] a "load" []) _).objects c).infos
        = (u.objects c).infos := (hload.infos (hnot c)).trans (hreload.infos hca)
      _ = (t.objects c).infos := by rw [hinfos c, hobjects c hca]
      _ = ((t.create (u.objects a).fileName).objects c).infos := by rw [create_objects hcb]
      _ = _ := ((hload'.infos (hnot c)).trans (hstart.infos hcb)).symm
  have hsame := hend.same_addons hself hothers
  rw [hcommand, ← hkey]
  refine ⟨hsame, ?_, ?_⟩
  · change _ = (Plugin.tryAdd _ _ _).registry.addonCommands
    rw [tryAdd_registry, ← (hend.registry : _ = _)]
  · change _ = (Plugin.tryAdd _ _ _).registry.chatCommands
    rw [tryAdd_registry, ← (hend.registry : _ = _)]

/-- **Reload equals unload then load**, in a run in which only the plugin changes the chat commands,
when the new run of `Initialize` succeeds, no script re-enters `/addon`, and no script executes a
command of the addon itself during the reload. The scripts may execute all other chat commands. -/
theorem reload_equals_unload_load {allowed : Env H → Op → Prop}
    (hallowed : ∀ env op, allowed env op → op.Plain) (h : Reach P allowed s) (n : Nat)
    (henv : env.Targets NotAddonCommand)
    (hl : s.addons.lookup (P.toLower addonName) = some a)
    (hinit : outcome ((restart P env (delegate P env n) [] addonName a).run s) = .ok true)
    (hown : ∀ e ∈ (after (reloadAddon P env (delegate P env n) [] addonName) s).since
      s.trace.length, ¬ OwnCommand P (P.toLower addonName) e) :
    EndsAlike (after (reloadAddon P env (delegate P env n) [] addonName) s)
      (after (loadCommand P env (delegate P env n) [] (s.objects a).fileName)
        (after (unloadAddon P env (delegate P env n) [] addonName) s)) := by
  obtain ⟨hlt, hkey⟩ := h.keyed _ a hl
  have hvalid : Valid P [a] s := h.valid.loaded hl
  have hunlisted : Grows P [] s (s.unlisted (P.toLower addonName) a) :=
    trans_of (Grows P []) (eraseAddon_grows P [] (P.toLower addonName) s)
      ((grows_effects P).removed [] a _)
  -- the handler of `unload`, in step
  obtain ⟨u, hu⟩ : ∃ u, u = after (invokeEvent P env (delegate P env n) [] a "unload" []) s :=
    ⟨_, rfl⟩
  obtain ⟨v, hv⟩ : ∃ v, v = after (invokeEvent P env (delegate P env n) [] a "unload" [])
    (s.unlisted (P.toLower addonName) a) := ⟨_, rfl⟩
  have hevent : Quiet P ∅ [] s u := hu ▸ (invokeEvent_quiet henv n "unload" [] s hvalid).1
  have hevent' : Quiet P ∅ [] (s.unlisted (P.toLower addonName) a) v :=
    hv ▸ (invokeEvent_quiet henv n "unload" [] _ (hvalid.grows hunlisted)).1
  have hvalidu : Valid P [a] u := hvalid.grows hevent.grows
  have hwell := h.wellOwned.steps hevent.grows.registry
  have hagrees := (h.agrees hallowed).steps h.wellOwned hevent.grows.registry
  have hremove := hagrees.run_removeAddonCommands hwell (P.toLower addonName)
  rw [run_restart (hu ▸ hremove), ← hu] at hinit
  rw [after_reloadAddon hl ⟨_, hu ▸ hremove⟩, ← hu] at hown ⊢
  have hvalidr : Valid P [a] (u.removeCommands P (P.toLower addonName)) :=
    ⟨hvalidu.below, hvalidu.keyed⟩
  have hreload : Grows P [] (u.removeCommands P (P.toLower addonName))
      (after (autoReload P env (delegate P env n) [] a)
        (u.removeCommands P (P.toLower addonName))) :=
    (autoReload_keeps (grows_effects P) (delegate_keeps (grows_effects P) henv trivial n) henv
      [] a _ ⟨hvalidr, trivial⟩).1
  have htwin : Twin (Link.reloading P (P.toLower addonName) a a s.trace.length) u v := by
    rw [hu, hv]
    exact invokeEvent_twin henv (twin_unlisted h.keyed hl) "unload" []
      (not_bad hown (hu ▸ hreload.suffix))
  -- the rest
  have hfile : (u.objects a).fileName = (s.objects a).fileName := hevent.grows.fileName a hlt
  have hinfos : ∀ c, (u.objects c).infos = (v.objects c).infos := fun c =>
    (hevent.infos (Set.notMem_empty c)).trans (hevent'.infos (Set.notMem_empty c)).symm
  have ht : Valid P [] (after (unloadAddon P env (delegate P env n) [] addonName) s) :=
    h.valid.grows (unloadAddon_keeps (grows_effects P)
      (delegate_keeps (grows_effects P) henv trivial n) henv [] addonName s h.valid
        (fun _ _ => trivial))
  obtain ⟨haddons, hnext, hobjects, hregistry⟩ := unloadAddon_rest hl hv rfl
  have hend := endsAlike_of_unloaded henv htwin hinfos (hkey.trans (by rw [hfile])) hvalidu
    (h.valid.grows (trans_of (Grows P []) hunlisted hevent'.grows)) ht haddons hnext hobjects
    hregistry hinit hown
  rw [hfile] at hend
  exact ⟨hend.addons, hend.addonCommands, hend.chatCommands⟩

end Unload

/-- `/addon reload FOO` against `/addon unload FOO` and `/addon load Foo`, while the handler of
`load` executes a command that no addon has. -/
theorem foo_reloads_like_unload_load :
    let nested := delegate asciiPlatform (loadEnv "bye") 1
    EndsAlike (after (reloadAddon asciiPlatform (loadEnv "bye") nested [] "FOO") (loadState "bye"))
      (after (loadCommand asciiPlatform (loadEnv "bye") nested [] "Foo")
        (after (unloadAddon asciiPlatform (loadEnv "bye") nested [] "FOO") (loadState "bye"))) := by
  have hfile : ((loadState "bye").objects 0).fileName = "Foo" := by decide +kernel
  rw [← hfile]
  exact reload_equals_unload_load (fun _ _ h => h.1) (reach_loadState "bye") 1
    (loadEnv_targets "bye") (by decide +kernel) (by decide +kernel) (by decide +kernel)

/-- The command that the handler of `load` executes is gone after an unload and a load, and is there
after a reload. -/
theorem load_handler_loses_command :
    ¬ ∀ (s : Plugin Unit) (env : Env Unit) (n : Nat) (addonName : String) (a : AddonId),
      Reach asciiPlatform NotReentrant s → env.Targets NotAddonCommand →
      s.addons.lookup (asciiPlatform.toLower addonName) = some a →
      (s.objects a).state = .ok ∨ (s.objects a).state = .error →
      outcome ((restart asciiPlatform env (delegate asciiPlatform env n) [] addonName a).run s) =
        .ok true →
      EndsAlike
        (after (reloadAddon asciiPlatform env (delegate asciiPlatform env n) [] addonName) s)
        (after (loadCommand asciiPlatform env (delegate asciiPlatform env n) []
            (s.objects a).fileName)
          (after (unloadAddon asciiPlatform env (delegate asciiPlatform env n) [] addonName) s)) := by
  intro h
  have hend := h (loadState "hello") (loadEnv "hello") 1 "foo" 0 (reach_loadState "hello")
    (loadEnv_targets "hello") (by decide +kernel) (by decide +kernel) (by decide +kernel)
  have hcommands := congrArg (fun t => t.lookup "foo") hend.addonCommands
  revert hcommands
  decide +kernel

end LuaAddons
