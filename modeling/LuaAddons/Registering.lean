import LuaAddons.Runs

/-!
# What a registration does to the other names

`RegisterCommand` takes out of `Commands.ChatCommands` every object that answers to the new
command. An object may answer to more names, so these lose their command as well
(`registerCommand_replaces`). Over a run of registrations a command of TShock stays exactly if
no call that is accepted asks for one of its names.

The test for an owner does not look at who asks, so an addon is refused its own commands
(`refusesOthersOnly_iff`), and the removal of a duplicate further down is never reached.
-/

namespace LuaAddons

open Lookup Registry

variable {P : Platform}

/-! ## One registration -/

/-- What the list of chat commands is for one name after a registration that is accepted. -/
theorem filter_registerCommand {addonName permission command : String} {r : Registry}
    (h : r.owned (P.toLower command) = false) (name : String) :
    (registerCommand P addonName permission command r).2.chatCommands.filter
        (fun e => e.hasAlias name) =
      (r.chatCommands.filter (fun e => e.hasAlias name)).filter
          (fun e => !e.hasAlias (P.toLower command)) ++
        if name = P.toLower command then
          [callbackCommand r.nextCommand permission (P.toLower command)] else [] := by
  rw [registerCommand_accepted h, List.filter_append, List.filter_comm]
  congr 1
  by_cases ha : name = P.toLower command <;> simp [callbackCommand, Command.hasAlias, ha]

theorem owned_eq_false_of_accepted {addonName permission command : String} {r : Registry}
    (h : (registerCommand P addonName permission command r).1 = true) :
    r.owned (P.toLower command) = false := by
  rw [registerCommand_fst] at h
  simpa using h

/-! ## Many registrations -/

/-- The arguments of a call of `RegisterCommand`. -/
structure Registration where
  addonName : String
  permission : String
  command : String

/-- The registry after calls of `RegisterCommand`. -/
def registerCommands (P : Platform) : List Registration → Registry → Registry
  | [], r => r
  | call :: calls, r =>
    registerCommands P calls
      (registerCommand P call.addonName call.permission call.command r).2

/-- The commands of the calls that return true. -/
def acceptedCommands (P : Platform) : List Registration → Registry → List String
  | [], _ => []
  | call :: calls, r =>
    let result := registerCommand P call.addonName call.permission call.command r
    if result.1 then P.toLower call.command :: acceptedCommands P calls result.2
    else acceptedCommands P calls result.2

/-- Only the objects that answer to the new command leave the list, and only chat commands of
addons enter it. -/
theorem mem_registerCommand {addonName permission command : String} {r : Registry} {e : Command}
    (he : e.commandDelegate ≠ .handleAddonCallbackCommand) :
    e ∈ (registerCommand P addonName permission command r).2.chatCommands ↔
      e ∈ r.chatCommands ∧ ((registerCommand P addonName permission command r).1 = true →
        e.hasAlias (P.toLower command) = false) := by
  cases ho : r.owned (P.toLower command) with
  | true => simp [registerCommand_refused ho]
  | false =>
    have hne : e ≠ callbackCommand r.nextCommand permission (P.toLower command) := by
      rintro rfl
      exact he rfl
    simp [registerCommand_accepted ho, hne]

/-- A command of TShock stays through a run of registrations exactly if no accepted call asks
for one of its names. -/
theorem mem_registerCommands {e : Command}
    (he : e.commandDelegate ≠ .handleAddonCallbackCommand) (calls : List Registration) :
    ∀ r : Registry, e ∈ (registerCommands P calls r).chatCommands ↔
      e ∈ r.chatCommands ∧ ∀ c ∈ acceptedCommands P calls r, e.hasAlias c = false := by
  induction calls with
  | nil => intro r; simp [registerCommands, acceptedCommands]
  | cons call calls ih =>
    intro r
    rw [registerCommands, acceptedCommands, ih, mem_registerCommand he]
    cases (registerCommand P call.addonName call.permission call.command r).1 with
    | true => simp [and_assoc]
    | false => simp

/-- **What a registration replaces.** After a registration that is accepted, exactly one chat
command answers to the new name, and to any other name those answer that did so before and do
not also answer to the new name. Through a run of registrations the command `/addon`, and any
other that is not a command of an addon, stays exactly if no accepted call asks for one of its
names. -/
theorem registerCommand_replaces (P : Platform) :
    (∀ (r : Registry) (addonName permission command : String),
      (registerCommand P addonName permission command r).1 = true →
      (∃ e, (registerCommand P addonName permission command r).2.chatCommands.filter
        (fun e => e.hasAlias (P.toLower command)) = [e]) ∧
      ∀ name ≠ P.toLower command,
        (registerCommand P addonName permission command r).2.chatCommands.filter
            (fun e => e.hasAlias name) =
          (r.chatCommands.filter (fun e => e.hasAlias name)).filter
            (fun e => !e.hasAlias (P.toLower command))) ∧
    ∀ (r : Registry) (calls : List Registration) (e : Command), e ∈ r.chatCommands →
      e.commandDelegate ≠ .handleAddonCallbackCommand →
      (e ∈ (registerCommands P calls r).chatCommands ↔
        ∀ c ∈ acceptedCommands P calls r, e.hasAlias c = false) := by
  refine ⟨fun r addonName permission command h => ?_, fun r calls e hm he => ?_⟩
  · have ho := owned_eq_false_of_accepted h
    constructor
    · refine ⟨callbackCommand r.nextCommand permission (P.toLower command), ?_⟩
      rw [filter_registerCommand ho]
      simp [List.filter_filter]
    · intro name ha
      rw [filter_registerCommand ho, if_neg ha, List.append_nil]
  · rw [mem_registerCommands he]
    exact and_iff_right hm

/-- A command of TShock with two names. -/
def helpCommand : Command where
  id := 0
  names := ["help", "?"]
  permissions := []
  commandDelegate := .foreign 0

/-- The registry of a plugin without addons. -/
def noAddons (chatCommands : List Command) : Registry where
  addonCommands := ∅
  chatCommands := chatCommands
  nextCommand := 1

/-- The registration of `HELLO` next to `/addon`. -/
theorem hello_replaces_nothing :
    ∀ name ≠ "hello", (registerCommand asciiPlatform "foo" "" "HELLO"
        (noAddons [addonChatCommand])).2.chatCommands.filter (fun e => e.hasAlias name) =
      (([addonChatCommand] : List Command).filter (fun e => e.hasAlias name)).filter
        (fun e => !e.hasAlias "hello") :=
  ((registerCommand_replaces asciiPlatform).1 (noAddons [addonChatCommand]) "foo" "" "HELLO"
    (by decide +kernel)).2

/-- The registration of `?` takes the command `help` along, and the registration of `Addon`
replaces the command `/addon`. -/
theorem registration_takes_other_names :
    ((registerCommand asciiPlatform "foo" "" "?" (noAddons [helpCommand])).1 = true ∧
      ((registerCommand asciiPlatform "foo" "" "?" (noAddons [helpCommand])).2.chatCommands.filter
        (fun e => e.hasAlias "help")) ≠ (noAddons [helpCommand]).chatCommands.filter
          (fun e => e.hasAlias "help")) ∧
      addonChatCommand ∉ (registerCommands asciiPlatform [⟨"foo", "", "Addon"⟩]
        (noAddons [addonChatCommand])).chatCommands := by decide +kernel

/-! ## The owner asks again -/

/-- A registration is refused exactly if another addon owns the command, and an owner that
registers its command again replaces the registration. -/
structure RefusesOthersOnly (P : Platform) (addonName permission command : String)
    (r : Registry) : Prop where
  refused : (registerCommand P addonName permission command r).1 = false ↔
    ∃ k, k ≠ P.toLower addonName ∧ P.toLower command ∈ r.commandsOf k
  again : P.toLower command ∈ r.commandsOf (P.toLower addonName) →
    (registerCommand P addonName permission command r).1 = true ∧
      ((registerCommand P addonName permission command r).2.commandsOf
        (P.toLower addonName)).count (P.toLower command) = 1 ∧
      ∃ e, (registerCommand P addonName permission command r).2.chatCommands.filter
          (fun e => e.hasAlias (P.toLower command)) = [e] ∧
        e.permissions = if permission.length > 0 then [permission] else []

/-- **Who is refused.** In every state of the registry, a registration is refused only because
of another owner and an owner may register again exactly if the addon that asks does not own
the command. -/
theorem refusesOthersOnly_iff (P : Platform) (addonName permission command : String)
    (r : Registry) :
    RefusesOthersOnly P addonName permission command r ↔
      P.toLower command ∉ r.commandsOf (P.toLower addonName) := by
  constructor
  · intro h hc
    have hrefused : (registerCommand P addonName permission command r).1 = false := by
      rw [registerCommand_fst, owned_iff.mpr ⟨_, hc⟩]
      rfl
    rw [(h.again hc).1] at hrefused
    cases hrefused
  · intro hc
    refine ⟨?_, fun h => absurd h hc⟩
    rw [registerCommand_fst, Bool.not_eq_false', owned_iff]
    constructor
    · rintro ⟨k, hk⟩
      refine ⟨k, ?_, hk⟩
      rintro rfl
      exact hc hk
    · rintro ⟨k, -, hk⟩
      exact ⟨k, hk⟩

/-- `Foo` owns `hello` and is refused it. -/
theorem owner_is_refused :
    Reach asciiPlatform (fun _ op => op.Plain) (commandState "Hello") ∧
      (registerCommand asciiPlatform "Foo" "p" "Hello" (commandState "Hello").registry).1 = false ∧
      ¬ ∃ k, k ≠ asciiPlatform.toLower "Foo" ∧
        asciiPlatform.toLower "Hello" ∈ (commandState "Hello").registry.commandsOf k := by
  have hreach := reach_commandState (fun _ op => op.Plain) "Hello" trivial
  refine ⟨hreach, by decide +kernel, ?_⟩
  rintro ⟨k, hk, hc⟩
  have hfoo : asciiPlatform.toLower "Hello" ∈
      (commandState "Hello").registry.commandsOf (asciiPlatform.toLower "Foo") := by
    decide +kernel
  exact hk (hreach.wellOwned.unique k _ _ hc hfoo)

end LuaAddons
