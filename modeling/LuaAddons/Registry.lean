import LuaAddons.Lib.Exec
import LuaAddons.Lib.Lookup
import LuaAddons.Platform

/-!
# The command registry

The plugin keeps the commands of each addon in `m_AddonCommands` and registers each of them
as a chat command in TShock's `Commands.ChatCommands`. This module embeds the three places
of `Addons/Addons.cs` that change the two structures: `RegisterCommand`,
`RemoveAddonCommands`, and the branch of `HandleAddonCallbackCommand` that drops a command
whose addon is not loaded (`dropCommand`).

Chat commands are objects: `Command.id` is the identity of the object, drawn from
`nextCommand` when it is created, and `List.Remove` removes the object it is given.
-/

namespace LuaAddons

open Exec Lookup

/-! ## State -/

/-- The delegate of a chat command: one of the two handlers of the plugin, or code of TShock
or of another plugin. -/
inductive CommandDelegate where
  | handleAddonCommand
  | handleAddonCallbackCommand
  | foreign (code : Nat)
  deriving DecidableEq

/-- A TShock chat command. -/
structure Command where
  id : Nat
  names : List String
  permissions : List String
  commandDelegate : CommandDelegate
  deriving DecidableEq

/-- `Command.HasAlias`. -/
def Command.hasAlias (c : Command) (name : String) : Bool := c.names.contains name

/-- The lists of commands by addon, keyed by the lower-cased name of the addon. -/
abbrev AddonCommands := AList (fun _ : String => List String)

structure Registry where
  /-- `m_AddonCommands`. -/
  addonCommands : AddonCommands
  /-- `Commands.ChatCommands`. -/
  chatCommands : List Command
  nextCommand : Nat

/-- The list of an addon, empty when it has none. -/
def Registry.commandsOf (r : Registry) (addonName : String) : List String :=
  (r.addonCommands.lookup addonName).getD []

/-! ## RegisterCommand -/

/-- Some addon owns `command`. -/
def Registry.owned (r : Registry) (command : String) : Bool :=
  r.addonCommands.entries.any (fun a => a.2.contains command)

/-- The chat command `RegisterCommand` creates. -/
def callbackCommand (id : Nat) (permission command : String) : Command where
  id := id
  names := [command]
  permissions := if permission.length > 0 then [permission] else []
  commandDelegate := .handleAddonCallbackCommand

/-- `Addons.RegisterCommand`. -/
def registerCommand (P : Platform) (addonName permission command : String) (r : Registry) :
    Bool × Registry :=
  let addonName := P.toLower addonName
  let command := P.toLower command
  -- Do not allow multiple addons to own the same command.
  if r.owned command then (false, r)
  else
    -- Erase any previous registered commands that TShock has with this name.
    let commands := r.chatCommands.filter (fun c => c.hasAlias command)
    let chatCommands := commands.foldl List.erase r.chatCommands
    let entry := r.commandsOf addonName
    -- Prevent duplicate entries.
    let entry := if entry.contains command then entry.erase command else entry
    (true,
      { addonCommands := r.addonCommands.insert addonName (entry ++ [command])
        chatCommands := chatCommands ++ [callbackCommand r.nextCommand permission command]
        nextCommand := r.nextCommand + 1 })

/-! ## RemoveAddonCommands and the stale command branch -/

/-- `ChatCommands.SingleOrDefault(c => c.HasAlias(command))`, removed when found. -/
def removeChatCommand (command : String) : EStateM NetException Registry Unit := do
  let r ← get
  match singleOrDefault NetException.invalidOperation (fun c => c.hasAlias command)
      r.chatCommands with
  | .error e => throw e
  | .ok none => pure ()
  | .ok (some cmd) => set { r with chatCommands := r.chatCommands.erase cmd }

/-- `Addons.RemoveAddonCommands`. The query over the list of the addon is lazy: each command
is looked up in the chat commands left by the removals before it. -/
def removeAddonCommands (P : Platform) (addonName : String) :
    EStateM NetException Registry Unit := do
  let r ← get
  match r.addonCommands.lookup (P.toLower addonName) with
  | none => pure ()
  | some commands =>
    commands.forM removeChatCommand
    modify (fun r => { r with addonCommands := r.addonCommands.erase (P.toLower addonName) })

/-- `m_AddonCommands[key].Remove(command)`. -/
def Registry.removeOwned (r : Registry) (key command : String) : Registry :=
  match r.addonCommands.lookup key with
  | none => r
  | some commands =>
    { r with addonCommands := r.addonCommands.insert key (commands.erase command) }

/-- The branch of `HandleAddonCallbackCommand` for a command whose addon is not loaded. -/
def dropCommand (key command : String) : EStateM NetException Registry Unit := do
  removeChatCommand command
  modify (fun r => r.removeOwned key command)

/-- One change of the registry by the plugin. -/
inductive RegistryStep (P : Platform) : Registry → Registry → Prop where
  | register (addonName permission command : String) (r : Registry) :
      RegistryStep P r (registerCommand P addonName permission command r).2
  | remove (addonName : String) (r : Registry) :
      RegistryStep P r (after (removeAddonCommands P addonName) r)
  | drop (key command : String) (r : Registry) (h : command ∈ r.commandsOf key) :
      RegistryStep P r (after (dropCommand key command) r)

end LuaAddons
