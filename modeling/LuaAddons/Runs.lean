import LuaAddons.Effects

/-!
# Runs of the plugin

A run starts without addons and takes top-level operations one after the other, each in
surroundings of its own: the files on disk, the meaning of Lua functions and the depth of
nested chat commands may change from step to step. Between two steps the enumeration order of
`m_Addons` may change, because a `ConcurrentDictionary` promises none.

`Reach P allowed s`: the state `s` is reached by steps that satisfy `allowed`. Every reached
state is `Keyed`, has `TablesAgree` and `WellOwned` commands, and `Agrees` with the chat
commands as long as the plugin is not disposed of and nobody else changes them.
-/

namespace LuaAddons

open Exec Lookup

variable {H : Type}

/-! ## Operations -/

/-- The entry points of the plugin, and changes of the chat commands by other plugins. -/
inductive Op where
  | load (name : String)
  | addonCommand (args : CommandArgs)
  | callbackCommand (args : CommandArgs)
  | event (name : String) (args : List NetObject)
  | handledEvent (name : String) (args : Except NetException (List NetObject)) (handled : Bool)
  | gamePostUpdate (args : NetObject)
  | registerCommand (addonName permission command : String)
  | removeAddonCommands (addonName : String)
  | dispose
  | otherPlugin (chatCommands : List Command)

/-- The operation with nothing below it on the call stack, and `nested` for the delegates of chat
commands. -/
def Op.runWith (P : Platform) (env : Env H) (nested : Nested H) : Op → Method H Unit
  | .load name => discard (loadAddon P env nested [] name)
  | .addonCommand args => handleAddonCommand P env nested [] args
  | .callbackCommand args => handleAddonCallbackCommand P env nested [] args
  | .event name args => forEachInvoke P env nested [] name args
  | .handledEvent name args handled => do
    modify (fun s => { s with handled := handled })
    onHandled P env nested [] name args
  | .gamePostUpdate args => onGamePostUpdate P env nested [] args
  | .registerCommand addonName permission command =>
    discard (onRegistry (modifyGet (LuaAddons.registerCommand P addonName permission command)))
  | .removeAddonCommands addonName => onRegistry (LuaAddons.removeAddonCommands P addonName)
  | .dispose => LuaAddons.dispose P env nested []
  | .otherPlugin chatCommands =>
    modify (fun s => { s with registry := { s.registry with chatCommands := chatCommands } })

/-- The operation with the delegates of the plugin itself, nested `n` times at most. -/
def Op.run (P : Platform) (env : Env H) (n : Nat) (op : Op) : Method H Unit :=
  op.runWith P env (delegate P env n)

/-- The operation itself reads the configuration file. -/
def Op.ReadsConfiguration (P : Platform) : Op → Prop
  | .addonCommand args => LuaAddons.ReadsConfiguration P args.parameters
  | _ => False

/-- The operation is neither `Dispose` nor a change by another plugin. -/
def Op.Plain : Op → Prop
  | .dispose => False
  | .otherPlugin _ => False
  | _ => True

/-- The plugin before it loads anything. -/
structure Initial (s : Plugin H) : Prop where
  addons : s.addons = ∅
  addonCommands : s.registry.addonCommands = ∅
  chatCommands : ∀ c ∈ s.registry.chatCommands,
    c.commandDelegate ≠ .handleAddonCallbackCommand ∧ c.id < s.registry.nextCommand
  objects : ∀ a, s.objects a = Addon.new
  trace : s.trace = []

inductive Reach (P : Platform) (allowed : Env H → Op → Prop) : Plugin H → Prop where
  | initial {s : Plugin H} (h : Initial s) : Reach P allowed s
  | step {s : Plugin H} (h : Reach P allowed s) (env : Env H) (n : Nat) (op : Op)
      (hop : allowed env op) : Reach P allowed (after (op.run P env n) s)
  | reorder {s : Plugin H} (h : Reach P allowed s) (addons : AList (fun _ : String => AddonId))
      (hperm : addons.entries.Perm s.addons.entries) :
      Reach P allowed { s with addons := addons }

/-! ## What one operation does -/

section Steps

variable {P : Platform} {R : CallStack → Plugin H → Plugin H → Prop}
  {T : CommandDelegate → Prop} {G : CallStack → AddonId → Plugin H → Prop}
  {C : Option Configuration → Prop} {env : Env H} {nested : Nested H}

theorem Op.runWith_keeps (h : Effects P R G C) (hn : NestedKeeps P R T nested)
    (henv : env.Targets T) {op : Op} (hc : op.ReadsConfiguration P → C env.parseConfiguration)
    (hop : op.Plain) :
    Keeps (On (Valid P []) (R [])) (op.runWith P env nested) := by
  have := h.preorder []
  cases op with
  | load name => exact keeps_bind (loadAddon_keeps h hn henv [] name) (fun _ => keeps_pure _)
  | addonCommand args => exact handleAddonCommand_keeps h hn henv [] args hc
  | callbackCommand args =>
    exact handleAddonCallbackCommand_keeps h.toScriptEffects hn henv [] args
  | event name args => exact forEachInvoke_keeps h.toScriptEffects hn henv [] name args
  | handledEvent name args handled =>
    exact keeps_bind (h.keeps_on (h.handled [] handled))
      (fun _ => onHandled_keeps h.toScriptEffects hn henv [] name args)
  | gamePostUpdate args =>
    intro s hv
    have hr := onGamePostUpdate_keeps h hn henv args s hv
    exact ⟨hr, hv.grows (h.grows hr)⟩
  | registerCommand addonName permission command =>
    exact keeps_bind (h.keeps_on (fun s => h.registry [] s _
      (modifyGet (LuaAddons.registerCommand P addonName permission command))
      (.register addonName permission command s.registry))) (fun _ => keeps_pure _)
  | removeAddonCommands addonName =>
    exact h.keeps_on (fun s => h.registry [] s _ _ (.remove _ _))
  | dispose => exact absurd hop (by simp [Op.Plain])
  | otherPlugin chatCommands => exact absurd hop (by simp [Op.Plain])

theorem Op.run_keeps (h : Effects P R G) (henv : env.Targets T) (n : Nat) {op : Op}
    (hop : op.Plain) : Keeps (On (Valid P []) (R [])) (op.run P env n) := by
  exact op.runWith_keeps h (delegate_keeps h henv trivial n) henv (fun _ => trivial) hop

/-- The store after the two dictionaries are cleared. -/
def Plugin.cleared (s : Plugin H) : Plugin H :=
  { s with addons := ∅, registry := { s.registry with addonCommands := ∅ } }

/-- `Dispose` ends in a state that its loop reached, with the dictionaries cleared unless the
loop threw. -/
theorem dispose_cases (h : Effects P R G C) (hn : NestedKeeps P R T nested)
    (henv : env.Targets T) {s : Plugin H} (hv : Valid P [] s) : ∃ s₁, R [] s s₁ ∧
      (after (dispose P env nested []) s = s₁ ∨
        after (dispose P env nested []) s = s₁.cleared) := by
  have hloop := disposeLoop_keeps h hn henv s hv
  refine ⟨_, hloop, ?_⟩
  unfold dispose after
  simp only [EStateM.run_bind, EStateM.run_get]
  generalize EStateM.run (s.addons.entries.forM _) s = result
  cases result with
  | ok u s₁ => exact Or.inr rfl
  | error e s₁ => exact Or.inl rfl

end Steps

/-! ## Invariants of reached states -/

section Invariants

variable {P : Platform} {allowed : Env H → Op → Prop} {s : Plugin H}

theorem lookup_perm {β : Type} {l l' : AList (fun _ : String => β)}
    (h : l.entries.Perm l'.entries) (k : String) : l.lookup k = l'.lookup k :=
  AList.perm_lookup h

theorem Keyed.reorder (h : Keyed P s) {addons : AList (fun _ : String => AddonId)}
    (hperm : addons.entries.Perm s.addons.entries) :
    Keyed P ({ s with addons := addons } : Plugin H) :=
  fun k a hl => h k a (by rw [← lookup_perm hperm k]; exact hl)

theorem Initial.keyed (h : Initial s) : Keyed P s := by
  intro k a hl
  rw [h.addons] at hl
  cases hl

/-- An invariant of a run: it holds at the start, is preserved by a relation that every step
keeps, when the dictionaries are cleared, and when others change the chat commands. -/
theorem Reach.induct {R : CallStack → Plugin H → Plugin H → Prop}
    {G : CallStack → AddonId → Plugin H → Prop} (he : Effects P R G) {I : Plugin H → Prop}
    (hinit : ∀ s, Initial s → I s) (hstep : ∀ s s', I s → R [] s s' → I s')
    (hclear : ∀ s, I s → (∃ env, allowed env .dispose) → I s.cleared)
    (hother : ∀ s l, I s → (∃ env, allowed env (.otherPlugin l)) →
      I { s with registry := { s.registry with chatCommands := l } })
    (hreorder : ∀ (s : Plugin H) addons, addons.entries.Perm s.addons.entries → I s →
      I { s with addons := addons })
    (h : Reach P allowed s) : I s ∧ Keyed P s := by
  induction h with
  | initial h => exact ⟨hinit _ h, h.keyed⟩
  | reorder _ addons hperm ih => exact ⟨hreorder _ addons hperm ih.1, ih.2.reorder hperm⟩
  | @step s _ env n op hop ih =>
    obtain ⟨hi, hk⟩ := ih
    have hv : Valid P [] s := ⟨by simp, hk⟩
    by_cases hplain : op.Plain
    · have hr := Op.run_keeps he env.targets_true n hplain s hv
      exact ⟨hstep _ _ hi hr.1, hr.2.keyed⟩
    · cases op with
      | dispose =>
        obtain ⟨s₁, hr, hd⟩ := dispose_cases he (delegate_keeps he env.targets_true trivial n)
          env.targets_true hv
        have hi₁ := hstep _ _ hi hr
        change I (after (dispose P env (delegate P env n) []) s) ∧
          Keyed P (after (dispose P env (delegate P env n) []) s)
        rcases hd with hd | hd
        · rw [hd]
          exact ⟨hi₁, (hv.grows (he.grows hr)).keyed⟩
        · rw [hd]
          refine ⟨hclear _ hi₁ ⟨env, hop⟩, fun k a hl => ?_⟩
          cases hl
      | otherPlugin l => exact ⟨hother _ l hi ⟨env, hop⟩, hk⟩
      | _ => exact absurd trivial hplain

theorem Reach.keyed (h : Reach P allowed s) : Keyed P s :=
  (Reach.induct (grows_effects P) (I := fun _ => True) (fun _ _ => trivial)
    (fun _ _ _ _ => trivial)
    (fun _ _ _ => trivial) (fun _ _ _ _ => trivial) (fun _ _ _ _ => trivial) h).2

theorem Reach.valid (h : Reach P allowed s) : Valid P [] s := ⟨by simp, h.keyed⟩

theorem Reach.tablesAgree (h : Reach P allowed s) : TablesAgree s := by
  refine (Reach.induct (grows_effects P) (I := TablesAgree) (fun s hs a L hL => ?_)
    (fun _ _ ht hg => hg.tables ht) (fun _ ht _ => ht) (fun _ _ ht _ => ht)
    (fun _ _ _ ht => ht) h).1
  rw [hs.objects] at hL
  cases hL

theorem WellOwned.steps {r r' : Registry} (h : WellOwned P r)
    (hs : Relation.ReflTransGen (RegistryStep P) r r') : WellOwned P r' := by
  induction hs with
  | refl => exact h
  | tail _ hstep ih => exact ih.step hstep

theorem Reach.wellOwned (h : Reach P allowed s) : WellOwned P s.registry := by
  refine (Reach.induct (grows_effects P) (I := fun s => WellOwned P s.registry)
    (fun s hs => .empty hs.addonCommands) (fun _ _ hw hg => hw.steps hg.registry)
    (fun _ _ _ => .empty rfl) (fun _ _ hw _ => hw.congr rfl) (fun _ _ _ hw => hw) h).1

theorem Agrees.steps {r r' : Registry} (h : Agrees r) (hw : WellOwned P r)
    (hs : Relation.ReflTransGen (RegistryStep P) r r') : Agrees r' := by
  induction hs with
  | refl => exact h
  | @tail r₁ _ hpath hstep ih => exact ih.step (hw.steps hpath) hstep

theorem Reach.agrees (h : Reach P allowed s) (hallowed : ∀ env op, allowed env op → op.Plain) :
    Agrees s.registry := by
  refine (Reach.induct (grows_effects P)
    (I := fun s => WellOwned P s.registry ∧ Agrees s.registry)
    (fun s hs => ⟨.empty hs.addonCommands, .of_no_commands (fun k => ?_)
      (fun e he => (hs.chatCommands e he).1)⟩)
    (fun _ _ hi hg => ⟨hi.1.steps hg.registry, hi.2.steps hi.1 hg.registry⟩)
    (fun _ _ hd => ?_) (fun _ _ _ ho => ?_) (fun _ _ _ hi => hi) h).1.2
  · simp [Registry.commandsOf, hs.addonCommands]
  · obtain ⟨env, henv⟩ := hd
    exact absurd (hallowed env _ henv) (by simp [Op.Plain])
  · obtain ⟨env, henv⟩ := ho
    exact absurd (hallowed env _ henv) (by simp [Op.Plain])

theorem FreshIds.steps {r r' : Registry} (hs : Relation.ReflTransGen (RegistryStep P) r r') :
    FreshIds r r' := by
  induction hs with
  | refl => exact refl_of FreshIds r
  | tail _ hstep ih => exact trans_of FreshIds ih hstep.freshIds

/-- The objects in the list of chat commands were all created before. -/
theorem Reach.idsBelow (h : Reach P allowed s) (hallowed : ∀ env op, allowed env op → op.Plain) :
    ∀ e ∈ s.registry.chatCommands, e.id < s.registry.nextCommand := by
  refine (Reach.induct (grows_effects P)
    (I := fun s => ∀ e ∈ s.registry.chatCommands, e.id < s.registry.nextCommand)
    (fun s hs e he => (hs.chatCommands e he).2) (fun s s' hi hg e he => ?_)
    (fun _ hi _ => hi) (fun _ l _ ho => ?_) (fun _ _ _ hi => hi) h).1
  · have hf := FreshIds.steps hg.registry
    rcases hf.chatCommands e he with he | ⟨-, hlt⟩
    · exact (hi e he).trans_le hf.next
    · exact hlt
  · obtain ⟨env, henv⟩ := ho
    exact absurd (hallowed env _ henv) (by simp [Op.Plain])

end Invariants

/-! ## A concrete start -/

/-- The plugin with the given chat commands and nothing loaded. -/
def Plugin.start (chatCommands : List Command) : Plugin H where
  addons := ∅
  registry := { addonCommands := ∅, chatCommands := chatCommands, nextCommand := 1 }
  objects := fun _ => Addon.new
  nextAddon := 0
  configuration := some { autoReloadAddons := true }
  handled := false
  messages := []
  trace := []

/-- The chat command `Addons.Initialize` adds. -/
def addonChatCommand : Command where
  id := 0
  names := ["addon"]
  permissions := ["addons.manageaddons"]
  commandDelegate := .handleAddonCommand

theorem initial_start : Initial (Plugin.start [addonChatCommand] : Plugin H) where
  addons := rfl
  addonCommands := rfl
  chatCommands := by simp [Plugin.start, addonChatCommand]
  objects _ := rfl
  trace := rfl

/-- Surroundings in which Lua code keeps no data of its own. -/
def plainEnv (script : String → Option (Script Unit))
    (call : LuaFunction → List NetObject → Script Unit) : Env Unit where
  newHeap := ()
  script := script
  call f _ args := call f args
  disposeThrows _ := false
  addonPath name := name
  configFile := none
  deserialize _ := .ok none

/-- A script that fills in the author, the name and the version and goes on. -/
def withInfo (next : Script Unit) : Script Unit :=
  .assign (.string (ascii "author")) (.string (ascii "a"))
    (.assign (.string (ascii "name")) (.string (ascii "n"))
      (.assign (.string (ascii "version")) (.string (ascii "1")) next))

/-- One addon, which registers a command with the function 7 and returns. -/
def commandEnv (name : String) : Env Unit :=
  plainEnv (fun _ => some (withInfo (.registerCommand (ascii name) [] 7 (fun _ => .done () []))))
    (fun _ _ => .done () [])

/-- The plugin after it loaded the addon `Foo` with its command. -/
def commandState (name : String) : Plugin Unit :=
  after ((Op.load "Foo").run asciiPlatform (commandEnv name) 0) (Plugin.start [addonChatCommand])

theorem reach_commandState (allowed : Env Unit → Op → Prop) (name : String)
    (h : allowed (commandEnv name) (.load "Foo")) :
    Reach asciiPlatform allowed (commandState name) :=
  (Reach.initial initial_start).step (commandEnv name) 0 (.load "Foo") h

/-! ## Ownership and agreement -/

section Claims

variable {P : Platform} {allowed : Env H → Op → Prop} {s : Plugin H}

/-- **Ownership of commands is unique** in every state of every run, whatever the scripts,
the other plugins and the callers of the public methods do. -/
theorem commands_have_unique_owners (h : Reach P allowed s) :
    WellOwned P s.registry ∧
      ∀ c, ∃ o, singleOrDefault NetException.invalidOperation (fun a => a.2.contains c)
          s.registry.addonCommands.entries = .ok o ∧
        ∀ a, o = some a ↔ a ∈ s.registry.addonCommands.entries ∧ c ∈ a.2 :=
  ⟨h.wellOwned, h.wellOwned.singleOrDefault_owner NetException.invalidOperation⟩

/-- **The registry and the chat commands agree** in every state of a run in which only the
plugin changes the chat commands, so none of the lookups over them throws. -/
theorem chatCommands_agree_with_registry (hallowed : ∀ env op, allowed env op → op.Plain)
    (h : Reach P allowed s) :
    Agrees s.registry ∧
      (∀ addonName, ∃ r, (removeAddonCommands P addonName).run s.registry = .ok () r) ∧
      ∀ k, ∀ c ∈ s.registry.commandsOf k, ∃ r, (dropCommand k c).run s.registry = .ok () r := by
  have hagrees := h.agrees hallowed
  refine ⟨hagrees, fun addonName => ?_, fun k c hc => ?_⟩
  · exact ⟨_, hagrees.run_removeAddonCommands h.wellOwned addonName⟩
  · exact ⟨_, hagrees.run_dropCommand hc⟩

end Claims

theorem hello_has_unique_owner :
    "hello" ∈ (commandState "Hello").registry.commandsOf "foo" ∧
      WellOwned asciiPlatform (commandState "Hello").registry :=
  ⟨by decide, (commands_have_unique_owners
    (reach_commandState (fun _ _ => True) "Hello" trivial)).1⟩

theorem hello_agrees_with_registry :
    "hello" ∈ (commandState "Hello").registry.commandsOf "foo" ∧
      Agrees (commandState "Hello").registry :=
  ⟨by decide, (chatCommands_agree_with_registry (fun _ _ h => h)
    (reach_commandState (fun _ op => op.Plain) "Hello" trivial)).1⟩

end LuaAddons
