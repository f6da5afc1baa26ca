import LuaAddons.Outcomes
import LuaAddons.Runs

/-!
# Commands without an addon

An addon whose start failed leaves its commands behind, and so does one that is gone while another
plugin holds its chat command. `HandleAddonCallbackCommand` finds the owner of the command, and no
addon. It drops the command at its first use: afterwards nothing answers to it, everybody may
register it again, and no other command is touched (`stale_command_dropped`).

The handler throws exactly when several loaded addons have keys that the culture takes for the one
of the owner (`callbackCommand_throws_iff`).
-/

namespace LuaAddons

open Exec Lookup Registry

variable {H : Type} {P : Platform} {allowed : Env H → Op → Prop} {s : Plugin H} {env : Env H}
  {nested : Nested H} {stack : CallStack} {args : CommandArgs} {k c : String}

/-! ## The owner of a command -/

/-- The entry of the owner is the one that is found. -/
theorem WellOwned.find_owner {r : Registry} (h : WellOwned P r) (hk : c ∈ r.commandsOf k) :
    ∃ l, singleOrDefault NetException.invalidOperation (fun a => a.2.contains c)
      r.addonCommands.entries = .ok (some ⟨k, l⟩) := by
  obtain ⟨l, hl, hcl⟩ := mem_commandsOf_iff.mp hk
  obtain ⟨o, ho, howner⟩ := h.singleOrDefault_owner NetException.invalidOperation c
  obtain rfl := (howner ⟨k, l⟩).mpr ⟨AList.mem_lookup_iff.mp hl, hcl⟩
  exact ⟨l, ho⟩

theorem WellOwned.find_nobody {r : Registry} (h : WellOwned P r) (hno : r.owned c = false) :
    singleOrDefault NetException.invalidOperation (fun a => a.2.contains c)
      r.addonCommands.entries = .ok none := by
  obtain ⟨o, ho, howner⟩ := h.singleOrDefault_owner NetException.invalidOperation c
  cases o with
  | none => exact ho
  | some a =>
    obtain ⟨ha, hca⟩ := (howner a).mp rfl
    have hmem : c ∈ r.commandsOf a.1 :=
      mem_commandsOf_iff.mpr ⟨a.2, AList.mem_lookup_iff.mpr ha, hca⟩
    exact absurd hmem (not_owned_iff.mp hno a.1)

/-- The loaded addons whose key the culture takes for `k`. -/
def Plugin.candidates (P : Platform) (s : Plugin H) (k : String) :
    List (Sigma fun _ : String => AddonId) :=
  s.addons.entries.filter (fun e => P.compareIgnoreCase e.1 k)

/-! ## What the handler does -/

theorem run_callbackCommand_nobody (h : Reach P allowed s)
    (hno : s.registry.owned (P.toLower (firstWord ' ' args.message)) = false) :
    (handleAddonCallbackCommand P env nested stack args).run s = .ok () s := by
  unfold handleAddonCallbackCommand
  simp only [EStateM.run_bind, EStateM.run_get, h.wellOwned.find_nobody hno, EStateM.run_pure]

/-- What the handler does with the addon it found for the owner `k` of the command `c`. -/
def answerCommand (P : Platform) (env : Env H) (nested : Nested H) (stack : CallStack)
    (args : CommandArgs) (k c : String) :
    Except NetException (Option (Sigma fun _ : String => AddonId)) → Method H Unit
  | .error e => throw e
  | .ok none => onRegistry (dropCommand k c)
  | .ok (some addon) => invokeCommand P env nested stack addon.2 c args

theorem run_callbackCommand_owned (h : Reach P allowed s)
    (hk : P.toLower (firstWord ' ' args.message) ∈ s.registry.commandsOf k) :
    (handleAddonCallbackCommand P env nested stack args).run s =
      (answerCommand P env nested stack args k (P.toLower (firstWord ' ' args.message))
        (singleOrDefault NetException.invalidOperation
          (fun a => P.compareIgnoreCase a.1 k) s.addons.entries)).run s := by
  obtain ⟨l, hl⟩ := h.wellOwned.find_owner hk
  unfold handleAddonCallbackCommand
  simp only [EStateM.run_bind, EStateM.run_get, hl]
  cases singleOrDefault NetException.invalidOperation
      (fun a : Sigma fun _ : String => AddonId => P.compareIgnoreCase a.1 k) s.addons.entries with
  | error e => rfl
  | ok o => cases o <;> rfl

/-- **The handler throws** exactly when the key of the owner is ambiguous: `Release` and the
errors of scripts never leave it. -/
theorem callbackCommand_throws_iff (h : Reach P allowed s)
    (hallowed : ∀ env op, allowed env op → op.Plain) (env : Env H) (nested : Nested H)
    (stack : CallStack) (args : CommandArgs) :
    (∃ e s', (handleAddonCallbackCommand P env nested stack args).run s = .error e s') ↔
      ∃ k, P.toLower (firstWord ' ' args.message) ∈ s.registry.commandsOf k ∧
        2 ≤ (s.candidates P k).length := by
  cases hno : s.registry.owned (P.toLower (firstWord ' ' args.message)) with
  | false =>
    rw [run_callbackCommand_nobody h hno]
    constructor
    · rintro ⟨e, s', ⟨⟩⟩
    · rintro ⟨k, hk, -⟩
      exact absurd hk (not_owned_iff.mp hno k)
  | true =>
    obtain ⟨k, hk⟩ := owned_iff.mp hno
    have hunique : (∃ k', P.toLower (firstWord ' ' args.message) ∈ s.registry.commandsOf k' ∧
        2 ≤ (s.candidates P k').length) ↔ 2 ≤ (s.candidates P k).length := by
      refine ⟨fun ⟨k', hk', hlength⟩ => ?_, fun hlength => ⟨k, hk, hlength⟩⟩
      rwa [h.wellOwned.unique k k' _ hk hk']
    have hdrop := run_onRegistry (s := s) ((h.agrees hallowed).run_dropCommand hk)
    rw [hunique, run_callbackCommand_owned h hk, Plugin.candidates]
    rcases hf : s.addons.entries.filter (fun e => P.compareIgnoreCase e.1 k) with
      _ | ⟨addon, _ | ⟨second, rest⟩⟩
    · rw [singleOrDefault_none_iff.mpr hf, answerCommand, hdrop]
      simp [hf]
    · rw [singleOrDefault_some_iff.mpr hf, answerCommand]
      have hreturns : Returns (invokeCommand P env nested stack addon.2
        (P.toLower (firstWord ' ' args.message)) args) := returns_discard (returns_invoke _ _ _ _)
      obtain ⟨u, s', hrun⟩ := hreturns s
      rw [hrun]
      simp [hf]
    · have herror : singleOrDefault NetException.invalidOperation
          (fun a : Sigma fun _ : String => AddonId => P.compareIgnoreCase a.1 k)
          s.addons.entries = .error .invalidOperation := by
        unfold singleOrDefault
        rw [hf]
      rw [herror, answerCommand]
      simp [run_throw, hf]

/-- The player types `/hello`. -/
def helloArgs : CommandArgs where
  message := "hello"
  parameters := []
  fromServer := false

theorem commandState_answers :
    ¬∃ e s', (handleAddonCallbackCommand asciiPlatform (commandEnv "Hello")
      (fun _ _ _ => pure ()) [] helloArgs).run (commandState "Hello") = .error e s' := by
  rw [callbackCommand_throws_iff (reach_commandState (fun _ op => op.Plain) "Hello" trivial)
    (fun _ _ h => h)]
  rintro ⟨k, -, hlength⟩
  exact absurd hlength (Nat.not_le.mpr (Nat.lt_of_le_of_lt (List.length_filter_le _ _)
    (by decide)))

/-! ## Stale commands -/

/-- The command leaves the list of its owner, every other command stays with its own. -/
theorem WellOwned.mem_removeOwned {r : Registry} (h : WellOwned P r) (hc : c ∈ r.commandsOf k)
    (k' c' : String) :
    c' ∈ (r.removeOwned k c).commandsOf k' ↔ c' ∈ r.commandsOf k' ∧ c' ≠ c := by
  obtain ⟨l, hl, hcl⟩ := mem_commandsOf_iff.mp hc
  have hlist : r.commandsOf k = l := by simp [commandsOf, hl]
  by_cases hk : k' = k
  · subst hk
    have hnd := h.nodup k'
    rw [hlist] at hnd ⊢
    simp [commandsOf, Registry.removeOwned, hl, hnd.mem_erase_iff, and_comm]
  · have hne : c' ∈ r.commandsOf k' → c' ≠ c := by
      rintro hc' rfl
      exact hk (h.unique _ _ _ hc' hc)
    have hsame : (r.removeOwned k c).commandsOf k' = r.commandsOf k' := by
      simp [commandsOf, Registry.removeOwned, hl, AList.lookup_insert_ne hk]
    rw [hsame]
    exact ⟨fun hc' => ⟨hc', hne hc'⟩, And.left⟩

theorem chatCommands_removeOwned (r : Registry) (k c : String) :
    (r.removeOwned k c).chatCommands = r.chatCommands := by
  unfold Registry.removeOwned
  split <;> rfl

/-- **A stale command is dropped** at its first use. Nothing answers to it any more and everybody
may register it; all other commands and chat commands stay. -/
theorem stale_command_dropped (h : Reach P allowed s)
    (hallowed : ∀ env op, allowed env op → op.Plain) (env : Env H) (nested : Nested H)
    (stack : CallStack) (args : CommandArgs)
    (hk : P.toLower (firstWord ' ' args.message) ∈ s.registry.commandsOf k)
    (hstale : s.candidates P k = []) :
    ∃ r', (handleAddonCallbackCommand P env nested stack args).run s =
        .ok () { s with registry := r' } ∧
      (∀ k' c, c ∈ r'.commandsOf k' ↔
        c ∈ s.registry.commandsOf k' ∧ c ≠ P.toLower (firstWord ' ' args.message)) ∧
      r'.chatCommands = s.registry.chatCommands.filter
        (fun e => !e.hasAlias (P.toLower (firstWord ' ' args.message))) ∧
      ∀ addonName permission command,
        P.toLower command = P.toLower (firstWord ' ' args.message) →
          (registerCommand P addonName permission command r').1 = true := by
  have hagrees : Agrees s.registry := h.agrees hallowed
  let r := { s.registry with chatCommands := (s.registry.chatCommands.filter
    (fun e => !e.hasAlias (P.toLower (firstWord ' ' args.message)))) }
  have howned : WellOwned P r := h.wellOwned.congr rfl
  have hmem := howned.mem_removeOwned (c := P.toLower (firstWord ' ' args.message)) hk
  refine ⟨r.removeOwned k (P.toLower (firstWord ' ' args.message)), ?_, hmem,
    chatCommands_removeOwned _ _ _, fun addonName permission command hcommand => ?_⟩
  · rw [run_callbackCommand_owned h hk, singleOrDefault_none_iff.mpr hstale, answerCommand,
      run_onRegistry (hagrees.run_dropCommand hk)]
  · rw [registerCommand_fst, hcommand, Bool.not_eq_true']
    exact not_owned_iff.mpr (fun k' hk' => ((hmem k' _).mp hk').2 rfl)

/-- A script that registers a command and raises an error. -/
def staleEnv : Env Unit :=
  plainEnv (fun _ => some (withInfo (.registerCommand (ascii "Hello") [] 7 (fun _ => .raise ()))))
    (fun _ _ => .done () [])

/-- The plugin after the addon `Foo` failed to start: its command is left behind. -/
def staleState : Plugin Unit :=
  after ((Op.load "Foo").run asciiPlatform staleEnv 0) (Plugin.start [addonChatCommand])

theorem staleState_drops :
    ∃ r', (handleAddonCallbackCommand asciiPlatform staleEnv (fun _ _ _ => pure ()) []
        helloArgs).run staleState = .ok () { staleState with registry := r' } ∧
      (registerCommand asciiPlatform "Bar" "" "HELLO" r').1 = true := by
  obtain ⟨r', hrun, -, -, hregister⟩ := stale_command_dropped (P := asciiPlatform) (k := "foo")
    ((Reach.initial initial_start).step staleEnv 0 (.load "Foo") trivial)
    (fun _ _ (h : Op.Plain _) => h) staleEnv (fun _ _ _ => pure ()) [] helloArgs
    (by decide) (by decide)
  exact ⟨r', hrun, hregister "Bar" "" "HELLO" (by decide)⟩

end LuaAddons
