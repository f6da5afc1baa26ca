import LuaAddons.Ownership
import LuaAddons.Runs
import LuaAddons.SelfContained

/-!
# Failed starts

`Initialize` may fail at any point of a script, and what the script registered before stays:
the `catch` block releases the Lua state and leaves `m_AddonCommands` and the chat commands as
they are. So a failed start leaves the registry alone exactly when the script had nothing
accepted (`failed_start_keeps_registry_iff`). A registration is never undone by the script
itself, hence one accepted command is enough to see the difference.
-/

namespace LuaAddons

open Exec

variable {H : Type} {P : Platform}

/-! ## Registrations of a script -/

/-- The script asks for no command, or only for commands that are owned in `r`. -/
def Script.RefusesAll (P : Platform) (r : Registry) : Script H → Prop
  | .done _ _ => True
  | .raise _ => True
  | .registerEvent _ _ next => next.RefusesAll P r
  | .registerCommand name _ _ next =>
    r.owned (P.toLower (P.luaToString name)) = true ∧ (next false).RefusesAll P r
  | .assign _ _ next => next.RefusesAll P r
  | .chatCommand _ _ _ _ => True

/-- A command has an owner in `r'` that had none in `r`. -/
def Gains (r r' : Registry) : Prop := ∃ c, r.owned c = false ∧ r'.owned c = true

theorem Gains.ne {r r' : Registry} (h : Gains r r') : r'.addonCommands ≠ r.addonCommands := by
  intro he
  obtain ⟨c, hc, hc'⟩ := h
  simp only [Registry.owned, he] at hc hc'
  rw [hc] at hc'
  cases hc'

theorem registerCommand_owns (addonName permission command : String) (r : Registry) :
    (registerCommand P addonName permission command r).2.owned (P.toLower command) = true := by
  cases ho : r.owned (P.toLower command) with
  | true => rw [registerCommand_refused ho]; exact ho
  | false =>
    exact Registry.owned_iff.mpr
      ⟨_, (mem_commandsOf_registerCommand ho).mpr (Or.inr ⟨rfl, rfl⟩)⟩

section Run

variable {nested : Nested H} {stack : CallStack} {a : AddonId} {env : Env H}

theorem storeCommand_registry (s : Plugin H) (name : LuaString) (f : LuaFunction) :
    (s.storeCommand a name f).registry = s.registry := by
  unfold Plugin.storeCommand
  split <;> rfl

/-- `lua_AddonNewCommand` registers once and reports the outcome. -/
theorem run_addonNewCommand (name permission : LuaString) (f : LuaFunction) (s : Plugin H) :
    ∃ s', (addonNewCommand P a name permission f).run s =
        .ok (!s.registry.owned (P.toLower (P.luaToString name))) s' ∧
      s'.registry = (registerCommand P (P.toLower (s.objects a).fileName)
        (P.luaToString permission) (P.luaToString name) s.registry).2 := by
  have hfst : (registerCommand P (P.toLower (s.objects a).fileName) (P.luaToString permission)
      (P.luaToString name) s.registry).1 =
        !s.registry.owned (P.toLower (P.luaToString name)) := registerCommand_fst
  rw [← hfst]
  unfold addonNewCommand
  simp only [EStateM.run_bind, getAddon, EStateM.run_get, modifyLua, modifyAddon,
    EStateM.run_modify, EStateM.run_pure, onRegistry, run_zoom, EStateM.run_modifyGet,
    Plugin.modifyAddon, Function.update_self]
  generalize registerCommand P (P.toLower (s.objects a).fileName) (P.luaToString permission)
    (P.luaToString name) s.registry = result
  obtain ⟨ok, r⟩ := result
  cases ok with
  | true => exact ⟨_, rfl, by rw [storeCommand_registry]⟩
  | false => exact ⟨_, rfl, rfl⟩

/-- A script leaves the registry alone when all it asks for is owned. Otherwise at least one
command has a new owner: nothing the script does afterwards gives it up. -/
theorem runScript_registry : ∀ (c : Script H) (s : Plugin H), c.Targets NoDelegate →
    (c.RefusesAll P s.registry → (after (runScript P nested stack a c) s).registry = s.registry) ∧
      (¬ c.RefusesAll P s.registry →
        Gains s.registry (after (runScript P nested stack a c) s).registry) := by
  intro c
  induction c with
  | done heap values => exact fun s _ => ⟨fun _ => rfl, fun h => absurd trivial h⟩
  | raise heap => exact fun s _ => ⟨fun _ => rfl, fun h => absurd trivial h⟩
  | registerEvent name f next ih => exact fun s hT => ih (s.modifyAddon a _) hT
  | assign key value next ih => exact fun s hT => ih (s.modifyAddon a _) hT
  | chatCommand heap target args next ih => exact fun s hT => hT.1.elim
  | registerCommand name permission f next ih =>
    intro s hT
    obtain ⟨s', hrun, hreg⟩ := run_addonNewCommand (a := a) (P := P) name permission f s
    have hafter : after (runScript P nested stack a (.registerCommand name permission f next)) s =
        after (runScript P nested stack a
          (next (!s.registry.owned (P.toLower (P.luaToString name))))) s' := by
      unfold after
      rw [runScript, EStateM.run_bind, hrun]
    rw [hafter]
    cases ho : s.registry.owned (P.toLower (P.luaToString name)) with
    | true =>
      obtain ⟨hrefused, hnew⟩ := ih false s' (hT _)
      rw [registerCommand_refused ho] at hreg
      rw [hreg] at hrefused hnew
      exact ⟨fun h => hrefused h.2, fun h => hnew (fun hnext => h ⟨ho, hnext⟩)⟩
    | false =>
      refine ⟨fun h => absurd h.1 (by simp [ho]), fun _ => ⟨_, ho, ?_⟩⟩
      have hrest : LuaOnly P a s' (after (runScript P nested stack a (next true)) s') :=
        runScript_luaOnly (next true) (hT _) s'
      refine hrest.registry.owned_mono ?_
      rw [hreg]
      exact registerCommand_owns _ _ _ _

/-! ## Failed starts -/

/-- The file of the addon, if there is one, gets no command accepted. -/
def RefusesStart (P : Platform) (env : Env H) (name : String) (r : Registry) : Prop :=
  ∀ body, env.script name = some body → body.RefusesAll P r

/-- What follows the script in `Initialize` leaves the registry alone. -/
theorem startAddon_registry (name : String) (s : Plugin H) :
    Same Plugin.registry (after (runFile P env nested stack a name) s)
      (after (startAddon P env nested stack a name) s) := by
  have hrelease : Keeps (Same Plugin.registry) (release env stack a : Method H Unit) := by
    intro s
    rw [after_of_run (run_release s)]
    rfl
  have hmodify : ∀ f, Keeps (Same Plugin.registry) (modifyAddon a f : Method H Unit) :=
    fun f s => rfl
  refine after_tryCatch_bind (fun _ => keeps_bind ?_ (fun _ => keeps_pure _)) (fun ex => ?_) s
  · exact keeps_bind (getAddon_keeps a) (fun _ =>
      keeps_bind (liftExcept_keeps _) (fun _ => keeps_bind (hmodify _) (fun _ =>
        keeps_bind (liftExcept_keeps _) (fun _ => keeps_bind (hmodify _) (fun _ =>
          keeps_bind (liftExcept_keeps _) (fun _ => keeps_bind (hmodify _)
            (fun _ _ => rfl)))))))
  · exact keeps_bind (fun _ => rfl) (fun _ => keeps_bind hrelease (fun _ =>
      keeps_bind (hmodify _) (fun _ => keeps_pure _)))

variable {name : String}

/-- `Initialize` leaves both structures of the registry as they were, or neither. -/
theorem startAddon_registry_iff
    (hscript : ∀ body, env.script name = some body → body.Targets NoDelegate) (s : Plugin H) :
    (RefusesStart P env name s.registry →
        (after (startAddon P env nested stack a name) s).registry = s.registry) ∧
      (¬ RefusesStart P env name s.registry →
        Gains s.registry (after (startAddon P env nested stack a name) s).registry) := by
  rw [show (after (startAddon P env nested stack a name) s).registry =
    (after (runFile P env nested stack a name) s).registry from startAddon_registry name s]
  cases hbody : env.script name with
  | none =>
    have hrun : (after (runFile P env nested stack a name) s).registry = s.registry := by
      simp only [runFile, after, hbody, EStateM.run_bind, EStateM.run_modify, run_throw,
        final_error]
      rfl
    refine ⟨fun _ => hrun, fun h => absurd (fun body hb => ?_) h⟩
    rw [hbody] at hb
    cases hb
  | some body =>
    have hrun : after (runFile P env nested stack a name) s =
        after (runScript P nested (a :: stack) a body)
          (s.startLua a (env.newLuaState P name)) := by
      rw [← after_discard (runScript P nested (a :: stack) a body)]
      simp only [runFile, after, hbody, EStateM.run_bind, EStateM.run_modify]
    rw [hrun]
    refine (runScript_registry body (s.startLua a (env.newLuaState P name))
      (hscript body hbody)).imp (fun hrefused h => hrefused (h body hbody))
        (fun hnew h => hnew (fun hb => h ?_))
    intro body' hb'
    rw [hbody] at hb'
    cases hb'
    exact hb

end Run

section Claims

variable {env : Env H}

/-- **A failed start and the registry.** For scripts that call no chat command: whenever
`Initialize` returns false, `m_AddonCommands` and the chat commands are as they were when it
was entered exactly if the file had no command accepted. The same holds of `Reload`, which
starts the file of the addon again. When `LoadAddon` returns false, `m_Addons` is as it was. -/
theorem failed_start_keeps_registry_iff
    (hscript : ∀ name body, env.script name = some body → body.Targets NoDelegate)
    (nested : Nested H) (stack : CallStack) (s s' : Plugin H) :
    (∀ a name, (initializeAddon P env nested stack a name).run s = .ok false s' →
        (s'.registry.addonCommands = s.registry.addonCommands ∧
            s'.registry.chatCommands = s.registry.chatCommands ↔
          RefusesStart P env name s.registry)) ∧
      (∀ a, (reload P env nested stack a).run s = .ok false s' →
        (s'.registry.addonCommands = s.registry.addonCommands ∧
            s'.registry.chatCommands = s.registry.chatCommands ↔
          RefusesStart P env (s.objects a).fileName s.registry)) ∧
      ∀ name, (loadAddon P env nested stack name).run s = .ok none s' →
        s'.addons = s.addons := by
  have hstart : ∀ a name (s₁ : Plugin H), s₁.registry = s.registry →
      (startAddon P env nested stack a name).run s₁ = .ok false s' →
      (s'.registry.addonCommands = s.registry.addonCommands ∧
          s'.registry.chatCommands = s.registry.chatCommands ↔
        RefusesStart P env name s.registry) := by
    intro a name s₁ hr hrun
    obtain ⟨hrefused, hnew⟩ : (RefusesStart P env name s.registry → s'.registry = s.registry) ∧
        (¬ RefusesStart P env name s.registry → Gains s.registry s'.registry) := by
      rw [← hr, ← after_of_run hrun]
      exact startAddon_registry_iff (hscript name) s₁
    constructor
    · rintro ⟨hc, -⟩
      by_contra h
      exact (hnew h).ne hc
    · intro h
      rw [hrefused h]
      exact ⟨rfl, rfl⟩
  refine ⟨fun a name hrun => ?_, fun a hrun => ?_, fun name hrun => ?_⟩
  · rw [run_initializeAddon] at hrun
    exact hstart a name _ (loading_registry name s) hrun
  · rw [run_reload] at hrun
    exact hstart a _ _ (loading_registry _ (s.reloading env stack a)) hrun
  · cases hl : s.addons.lookup (P.toLower name) with
    | some b =>
      simp only [loadAddon, EStateM.run_bind, EStateM.run_get, hl, EStateM.run_pure] at hrun
      cases hrun
      rfl
    | none =>
      rw [run_loadAddon_of_none hl] at hrun
      obtain ⟨ok, s₁, hok, hrest⟩ := run_bind_eq_ok hrun
      have hframe : Frame P s.nextAddon (s.create name)
          (after (startAddon P env nested stack s.nextAddon name) (s.create name)) :=
        startAddon_frame (hscript name) (s.create name)
      rw [after_of_run hok] at hframe
      cases ok with
      | false =>
        cases hrest
        exact hframe.addons
      | true =>
        obtain ⟨_, _, -, hrest⟩ := run_bind_eq_ok hrest
        obtain ⟨_, _, -, hrest⟩ := run_bind_eq_ok hrest
        cases hrest

end Claims

/-- Every file registers the command `hello` and raises an error. -/
def failingEnv : Env Unit :=
  plainEnv (fun _ => some (.registerCommand (ascii "hello") [] 7 (fun _ => .raise ())))
    (fun _ _ => .done () [])

theorem failingEnv_targets (name : String) (body : Script Unit)
    (h : failingEnv.script name = some body) : body.Targets NoDelegate := by
  cases h
  exact fun _ => trivial

/-- The addon `Bar` asks for the command of `Foo`, which is refused, and fails. -/
theorem refused_start_keeps_registry :
    ∃ s', (initializeAddon asciiPlatform failingEnv (delegate asciiPlatform failingEnv 0) [] 1
          "Bar").run (commandState "Hello") = .ok false s' ∧
      s'.registry.addonCommands = (commandState "Hello").registry.addonCommands ∧
        s'.registry.chatCommands = (commandState "Hello").registry.chatCommands := by
  have hfalse : outcome ((initializeAddon asciiPlatform failingEnv
      (delegate asciiPlatform failingEnv 0) [] 1 "Bar").run (commandState "Hello")) =
      .ok false := by decide +kernel
  have hrun := run_of_outcome hfalse
  refine ⟨_, hrun, ((failed_start_keeps_registry_iff failingEnv_targets _ [] _ _).1 1 "Bar"
    hrun).mpr ?_⟩
  intro body hbody
  cases hbody
  exact ⟨by decide +kernel, trivial⟩

/-- The first load of an addon that registers a command and then fails: `LoadAddon` returns
false, and the command stays in `m_AddonCommands` and in the chat commands. -/
theorem failed_start_leaves_command :
    let s : Plugin Unit := .start [addonChatCommand]
    let x := loadAddon asciiPlatform failingEnv (delegate asciiPlatform failingEnv 0) [] "Foo"
    Initial s ∧ outcome (x.run s) = .ok none ∧
      (after x s).registry.addonCommands ≠ s.registry.addonCommands ∧
      (after x s).registry.chatCommands ≠ s.registry.chatCommands := by
  refine ⟨initial_start, by decide +kernel, fun h => ?_, by decide +kernel⟩
  exact absurd (congrArg (fun t => t.lookup "foo") h) (by decide +kernel)

end LuaAddons
