import LuaAddons.Runs

/-!
# The configuration of the plugin

`Initialize` and `/addon reloadcfg` set the property `Configuration` to what
`Configuration.Parse` returns for `addonscfg.json`. The autoload test of `Initialize` and every
`OnGamePostUpdate` read a field of it. `Parse` has a default for a missing file and for a parser
that throws, and none for a parser that returns null.

Here the surroundings may change at every moment of a step: a `World` gives them by what has
happened so far, and a nested command finds the file as it is when the command is entered.
`configuration_ne_null` is the invariant of the runs in which no file that is read is parsed to
null.
-/

namespace LuaAddons

open Exec

variable {H : Type}

/-! ## The file -/

/-- The configuration file is absent, or the parser does not return null for its text. -/
def Env.GivesConfiguration (env : Env H) : Prop :=
  ∀ text, env.configFile = some text → env.deserialize text ≠ .ok none

theorem Env.parseConfiguration_ne_none (env : Env H) :
    env.parseConfiguration ≠ none ↔ env.GivesConfiguration := by
  rw [Env.parseConfiguration, Env.GivesConfiguration]
  cases env.configFile with
  | none => simp
  | some text =>
    cases hd : env.deserialize text with
    | error e => simp [hd]
    | ok configuration => simp [hd]

/-! ## Steps in a world that changes -/

/-- The surroundings in which a nested command runs, by what has happened before. -/
abbrev World (H : Type) := List Event → CommandDelegate → CommandArgs → Env H

/-- `delegate` in a world that changes: a command runs in what surrounds it when it is entered. -/
def delegateIn (P : Platform) (W : World H) : Nat → Nested H
  | 0, _, _, _ => pure ()
  | n + 1, stack, .handleAddonCommand, args => do
    let s ← get
    handleAddonCommand P (W s.trace .handleAddonCommand args) (delegateIn P W n) stack args
  | n + 1, stack, .handleAddonCallbackCommand, args => do
    let s ← get
    handleAddonCallbackCommand P (W s.trace .handleAddonCallbackCommand args) (delegateIn P W n)
      stack args
  | _ + 1, _, .foreign _, _ => pure ()

/-- The first part of `Addons.Initialize`: the configuration and the chat command `/addon`. -/
def beginInitialize (env : Env H) : Method H Unit := do
  modify (fun s => { s with configuration := env.parseConfiguration })
  onRegistry (modify (fun r => { r with
    chatCommands := r.chatCommands ++
      [{ id := r.nextCommand, names := ["addon"], permissions := ["addons.manageaddons"],
         commandDelegate := .handleAddonCommand }]
    nextCommand := r.nextCommand + 1 }))

/-- The last part of `Addons.Initialize`. `folders` are the names of the directories in `Addons`,
`none` when it does not exist. -/
def autoload (P : Platform) (env : Env H) (nested : Nested H) (folders : Option (List String)) :
    Method H Unit := do
  let s ← get
  match s.configuration with
  | none => throw .nullReference
  | some configuration =>
    if configuration.autoloadAddons then
      match folders with
      | none => pure ()
      | some folders =>
        (folders.filter (fun addonName =>
          P.toLower addonName ≠ "libs" ∧ P.toLower addonName ≠ "disabled")).forM
            (loadCommand P env nested [])

/-- `Addons.Initialize`. -/
def initializeAddons (P : Platform) (env : Env H) (nested : Nested H)
    (folders : Option (List String)) : Method H Unit := do
  beginInitialize env
  autoload P env nested folders

/-- Every file that a nested command reads is `good`. -/
def World.Reads (W : World H) (P : Platform) (good : Env H → Prop) : Prop :=
  ∀ trace args, ReadsConfiguration P args.parameters → good (W trace .handleAddonCommand args)

/-- The states of runs in which the surroundings are `good` whenever the configuration file is
read. `Initialize` comes first. -/
inductive Started (P : Platform) (good : Env H → Prop) : Plugin H → Prop where
  | initialized {s : Plugin H} (h : Initial s) (env : Env H) (henv : good env) (W : World H)
      (hW : W.Reads P good) (n : Nat) (folders : Option (List String)) :
      Started P good (after (initializeAddons P env (delegateIn P W n) folders) s)
  | step {s : Plugin H} (h : Started P good s) (env : Env H) (op : Op)
      (henv : op.ReadsConfiguration P → good env) (W : World H) (hW : W.Reads P good) (n : Nat) :
      Started P good (after (op.runWith P env (delegateIn P W n)) s)
  | reorder {s : Plugin H} (h : Started P good s) (addons : AList (fun _ : String => AddonId))
      (hperm : addons.entries.Perm s.addons.entries) : Started P good { s with addons := addons }

/-- The states in which a handler reads a field of the configuration: `Initialize` before the
autoload, and `OnGamePostUpdate` behind the calls of the addons. -/
inductive Dereferenced (P : Platform) (good : Env H → Prop) : Plugin H → Prop where
  | autoload {s : Plugin H} (h : Initial s) (env : Env H) (henv : good env) :
      Dereferenced P good (after (beginInitialize env) s)
  | gamePostUpdate {s s' : Plugin H} (h : Started P good s) (env : Env H) (W : World H)
      (hW : W.Reads P good) (n : Nat) (args : NetObject)
      (hrun : (forEachInvoke P env (delegateIn P W n) [] "GamePostUpdate" [args]).run s =
        .ok () s') : Dereferenced P good s'

/-! ## Where configurations come from -/

/-- `Grows`, and a configuration that satisfies `C` is followed by one that does. -/
def Configures (P : Platform) (C : Option Configuration → Prop) (stack : CallStack)
    (s s' : Plugin H) : Prop :=
  Grows P stack s s' ∧ (C s.configuration → C s'.configuration)

instance (P : Platform) (C : Option Configuration → Prop) (stack : CallStack) :
    IsPreorder (Plugin H) (Configures P C stack) where
  refl s := ⟨.refl s, id⟩
  trans _ _ _ h₁ h₂ := ⟨h₁.1.trans h₂.1, fun hc => h₂.2 (h₁.2 hc)⟩

section Walk

variable {P : Platform} {C : Option Configuration → Prop} {good : Env H → Prop} {s : Plugin H}

theorem Configures.of_same {stack : CallStack} {s s' : Plugin H} (hg : Grows P stack s s')
    (hc : s'.configuration = s.configuration) : Configures P C stack s s' :=
  ⟨hg, fun h => by rw [hc]; exact h⟩

theorem storeCommand_configuration (s : Plugin H) (a : AddonId) (name : LuaString)
    (f : LuaFunction) : (s.storeCommand a name f).configuration = s.configuration := by
  rw [Plugin.storeCommand]
  split <;> rfl

theorem tryAdd_configuration (s : Plugin H) (k : String) (a : AddonId) :
    (s.tryAdd k a).configuration = s.configuration := by
  rw [Plugin.tryAdd]
  split <;> rfl

/-- Only a configuration that is set has to satisfy `C`. -/
theorem configures_effects (P : Platform) (C : Option Configuration → Prop) :
    Effects (H := H) P (Configures P C) (fun _ _ _ => True) C := by
  have hg := grows_effects (H := H) P
  exact {
    preorder := fun _ => inferInstance
    grows := fun h => h.1
    outer := fun h => ⟨h.1.outer, h.2⟩
    lua := fun stack a f hf s => .of_same (hg.lua stack a f hf s) rfl
    fail := fun stack a s => .of_same (hg.fail stack a s) rfl
    tell := fun stack m s => .of_same (hg.tell stack m s) rfl
    call := fun stack a f args s => .of_same (hg.call stack a f args s) rfl
    executed := fun stack target args commands s =>
      .of_same (hg.executed stack target args commands s) rfl
    store := fun stack a name f s =>
      .of_same (hg.store stack a name f s) (storeCommand_configuration s a name f)
    registry := fun stack s α x h => by
      refine .of_same (hg.registry stack s α x h) ?_
      rw [after_onRegistry]
    handled := fun stack b s => .of_same (hg.handled stack b s) rfl
    addon := fun stack s a f hfile hlua => .of_same (hg.addon stack s a f hfile hlua) rfl
    start := fun stack a L hL s => .of_same (hg.start stack a L hL s) rfl
    initialized := fun stack a t s => .of_same (hg.initialized stack a t s) rfl
    removed := fun stack a s => .of_same (hg.removed stack a s) rfl
    command := fun stack p l s => .of_same (hg.command stack p l s) rfl
    release := fun stack a s _ => .of_same (hg.release stack a s trivial) rfl
    erase := fun stack k s => .of_same (hg.erase stack k s) rfl
    configuration := fun stack c hc s => ⟨hg.configuration stack c trivial s, fun _ => hc⟩
    create := fun stack s name => .of_same (hg.create stack s name) rfl
    tryAdd := fun {stack s s' k a} h hfresh ha hk =>
      ⟨hg.tryAdd h.1 hfresh ha hk, fun hc => by
        rw [tryAdd_configuration]
        exact h.2 hc⟩
    guard_mono := fun _ _ => trivial
    guard_fresh := fun _ => trivial
    guard_command := fun _ _ _ _ _ => trivial }

/-- Nested commands set what `Parse` returns when they run. -/
theorem delegateIn_keeps {W : World H} (hW : W.Reads P (fun env => C env.parseConfiguration)) :
    ∀ n, NestedKeeps P (Configures P C) (fun _ => True) (delegateIn P W n)
  | 0 => by
    intro stack d args _
    exact keeps_pure _
  | n + 1 => by
    intro stack d args _
    have h := configures_effects (H := H) P C
    have hn := delegateIn_keeps hW n
    cases d with
    | handleAddonCommand =>
      refine keeps_get_bind (fun s hv => ?_)
      exact handleAddonCommand_keeps h hn (Env.targets_true _) stack args (hW _ args) s hv
    | handleAddonCallbackCommand =>
      refine keeps_get_bind (fun s hv => ?_)
      exact handleAddonCallbackCommand_keeps h.toScriptEffects hn (Env.targets_true _) stack args
        s hv
    | foreign code => exact keeps_pure _

/-- One operation, from a state with a configuration in `C` to one with a configuration in `C`. -/
theorem runWith_configures {env : Env H} {nested : Nested H}
    (hn : NestedKeeps P (Configures P C) (fun _ => True) nested) {op : Op}
    (henv : op.ReadsConfiguration P → C env.parseConfiguration) (hk : Keyed P s)
    (hc : C s.configuration) :
    C (after (op.runWith P env nested) s).configuration ∧
      Keyed P (after (op.runWith P env nested) s) := by
  have h := configures_effects (H := H) P C
  have hv : Valid P [] s := ⟨by simp, hk⟩
  by_cases hplain : op.Plain
  · have hr := op.runWith_keeps h hn env.targets_true henv hplain s hv
    exact ⟨hr.1.2 hc, hr.2.keyed⟩
  · cases op with
    | dispose =>
      obtain ⟨s₁, hr, hd⟩ := dispose_cases h hn env.targets_true hv
      change C (after (dispose P env nested []) s).configuration ∧
        Keyed P (after (dispose P env nested []) s)
      rcases hd with hd | hd
      · rw [hd]
        exact ⟨hr.2 hc, (hv.grows hr.1).keyed⟩
      · rw [hd]
        refine ⟨hr.2 hc, fun k a hl => ?_⟩
        cases hl
    | otherPlugin l => exact ⟨hc, hk⟩
    | _ => exact absurd trivial hplain

theorem run_beginInitialize (env : Env H) (s : Plugin H) :
    (beginInitialize env).run s = .ok () (after (beginInitialize env) s) := rfl

theorem beginInitialize_addons (env : Env H) (s : Plugin H) :
    (after (beginInitialize env) s).addons = s.addons := rfl

theorem after_initializeAddons (env : Env H) (nested : Nested H) (folders : Option (List String))
    (s : Plugin H) : after (initializeAddons P env nested folders) s =
      after (autoload P env nested folders) (after (beginInitialize env) s) := by
  rw [after, initializeAddons, run_bind_of_ok (run_beginInitialize env s)]
  rfl

/-- The autoload sets configurations only through the scripts that it starts. -/
theorem autoload_keeps {env : Env H} {nested : Nested H}
    (hn : NestedKeeps P (Configures P C) (fun _ => True) nested)
    (folders : Option (List String)) :
    Keeps (On (Valid P []) (Configures P C [])) (autoload P env nested folders) := by
  have h := configures_effects (H := H) P C
  refine keeps_bind keeps_get (fun s => ?_)
  cases s.configuration with
  | none => exact keeps_throw _
  | some configuration =>
    dsimp only
    split
    · cases folders with
      | none => exact keeps_pure _
      | some folders =>
        exact keeps_forM (fun addonName _ => loadCommand_keeps h hn env.targets_true [] addonName)
    · exact keeps_pure _

theorem World.Reads.mono {W : World H} {good' : Env H → Prop} (h : W.Reads P good)
    (hgood : ∀ env, good env → good' env) : W.Reads P good' :=
  fun trace args hreads => hgood _ (h trace args hreads)

theorem Started.configured (h : Started P good s)
    (hgood : ∀ env, good env → C env.parseConfiguration) : C s.configuration ∧ Keyed P s := by
  induction h with
  | @initialized s h env henv W hW n folders =>
    have hk : Keyed P (after (beginInitialize env) s) := by
      intro k a hl
      rw [beginInitialize_addons, h.addons] at hl
      cases hl
    have hkeeps : Keeps (On (Valid P []) (Configures P C []))
        (autoload P env (delegateIn P W n) folders) :=
      autoload_keeps (delegateIn_keeps (hW.mono hgood) n) folders
    have hr := hkeeps _ ⟨by simp, hk⟩
    rw [after_initializeAddons]
    exact ⟨hr.1.2 (hgood env henv), hr.2.keyed⟩
  | step _ env op henv W hW n ih =>
    exact runWith_configures (delegateIn_keeps (hW.mono hgood) n)
      (fun hreads => hgood env (henv hreads)) ih.2 ih.1
  | reorder _ addons hperm ih => exact ⟨ih.1, ih.2.reorder hperm⟩

theorem Dereferenced.configured (h : Dereferenced P good s)
    (hgood : ∀ env, good env → C env.parseConfiguration) : C s.configuration := by
  cases h with
  | autoload h env henv => exact hgood env henv
  | @gamePostUpdate s s' h env W hW n args hrun =>
    obtain ⟨hc, hk⟩ := h.configured hgood
    have hkeeps : Keeps (On (Valid P []) (Configures P C []))
        (forEachInvoke P env (delegateIn P W n) [] "GamePostUpdate" [args]) :=
      forEachInvoke_keeps (configures_effects P C).toScriptEffects
        (delegateIn_keeps (hW.mono hgood) n) env.targets_true [] "GamePostUpdate" [args]
    have hr := hkeeps s ⟨by simp, hk⟩
    rw [after_of_run hrun] at hr
    exact hr.1.2 hc

end Walk

/-- **The configuration is never null** in a run in which no file that is read is parsed to null,
neither between two operations nor where a handler reads it. -/
theorem configuration_ne_null {P : Platform} {s : Plugin H}
    (h : Started P Env.GivesConfiguration s ∨ Dereferenced P Env.GivesConfiguration s) :
    s.configuration ≠ none := by
  have hgood := fun env : Env H => env.parseConfiguration_ne_none.mpr
  rcases h with h | h
  · exact (Started.configured (C := (· ≠ none)) h hgood).1
  · exact Dereferenced.configured (C := (· ≠ none)) h hgood

/-! ## A file without a value -/

/-- Surroundings with a configuration file. The parser knows the empty text, which has no value,
and one configuration. -/
def configEnv (text : Option String) : Env Unit :=
  { plainEnv (fun _ => none) (fun _ _ => .done () []) with
    configFile := text
    deserialize := fun text =>
      if text = "" then .ok none
      else if text = "\x7b\"AutoReloadAddons\":true\x7d" then
        .ok (some { autoReloadAddons := true })
      else .error (.exception "JsonReaderException") }

/-- The plugin after `Initialize` with such a file. -/
def configState (text : Option String) : Plugin Unit :=
  after (initializeAddons asciiPlatform (configEnv text)
    (delegateIn asciiPlatform (fun _ _ _ => configEnv text) 0) none) (Plugin.start [])

theorem started_configState {text : Option String} (h : (configEnv text).GivesConfiguration) :
    Started asciiPlatform Env.GivesConfiguration (configState text) :=
  .initialized ⟨rfl, rfl, by simp [Plugin.start], fun _ => rfl, rfl⟩ (configEnv text) h
    (fun _ _ _ => configEnv text) (fun _ _ _ => h) 0 none

theorem missing_file_ne_null :
    (configEnv none).GivesConfiguration ∧ (configState none).configuration ≠ none := by
  have hgives : (configEnv none).GivesConfiguration := by
    rintro text ⟨⟩
  exact ⟨hgives, configuration_ne_null (.inl (started_configState hgives))⟩

/-- `/addon reloadcfg` from the console. -/
def reloadcfg : Op :=
  .addonCommand { message := "addon reloadcfg", parameters := ["reloadcfg"], fromServer := true }

/-- The operation in surroundings with such a file. -/
def runConfigured (text : Option String) (op : Op) : Method Unit Unit :=
  op.runWith asciiPlatform (configEnv text)
    (delegateIn asciiPlatform (fun _ _ _ => configEnv text) 0)

/-- An empty file: `Parse` returns null, `Initialize` throws, and so does the tick after
`/addon reloadcfg`. -/
theorem empty_file_throws :
    (configEnv (some "")).parseConfiguration = none ∧
      outcome ((initializeAddons asciiPlatform (configEnv (some ""))
        (delegateIn asciiPlatform (fun _ _ _ => configEnv (some "")) 0) none).run
          (Plugin.start [])) = .error .nullReference ∧
      outcome ((runConfigured (some "") (.gamePostUpdate .null)).run
        (after (runConfigured (some "") reloadcfg) (configState none))) = .error .nullReference := by
  decide +kernel

end LuaAddons
