import LuaAddons.Addon

/-!
# The methods of the plugin

The functions of `Addons/Addons.cs`: loading, the `/addon` command, the callback behind the
chat commands of the addons, the hooks and `Dispose`. All of them hold the re-entrant lock
`m_AddonsLock`, so they interleave only by nesting: a script may call the delegates of chat
commands. `delegate n` is such a call with at most `n` levels of nesting.

A loop over `m_Addons` goes through the entries that are there when it starts. The enumerator of a
`ConcurrentDictionary` may also show entries that a handler adds or removes meanwhile, by a nested
`/addon` command; this is not modelled.
-/

namespace LuaAddons

open Exec Lookup

variable {H : Type}

section Operations

variable (P : Platform) (env : Env H) (nested : Nested H) (stack : CallStack)

/-! ## Loading and unloading -/

/-- `Addons.LoadAddon`: the new addon, `none` when it returns false. -/
def loadAddon (name : String) : Method H (Option AddonId) := do
  let s ← get
  match s.addons.lookup (P.toLower name) with
  | some _ => pure none
  | none =>
    let a := s.nextAddon
    modify (fun s => { s with nextAddon := a + 1 })
    modifyAddon a (fun _ => Addon.new)
    let ok ← initializeAddon P env nested stack a name
    if ok then
      discard (invokeEvent P env nested stack a "load" [])
      -- `TryAdd` leaves an entry that is there.
      modify (fun s =>
        if P.toLower name ∈ s.addons then s
        else { s with addons := s.addons.insert (P.toLower name) a })
      pure (some a)
    else pure none

/-- The steps `unload` and `unloadall` take for an addon found under `key`. -/
def unloadFound (key shown : String) (a : AddonId) : Method H Unit := do
  modify (fun s => { s with addons := s.addons.erase key })
  emit (.removed a)
  discard (invokeEvent P env nested stack a "unload" [])
  release env stack a
  tell (.success ("[Addons] Unloaded addon '" ++ shown ++ "'!"))
  onRegistry (removeAddonCommands P (P.toLower shown))

/-- `/addon unload`. -/
def unloadAddon (addonName : String) : Method H Unit := do
  let s ← get
  match s.addons.lookup (P.toLower addonName) with
  | none => tell (.failure ("[Addon] Addon '" ++ addonName ++ "' is not loaded. Cannot unload!"))
  | some a => unloadFound P env nested stack (P.toLower addonName) addonName a

/-- `/addon unloadall`: over the keys as they are at the start. -/
def unloadAll : Method H Unit := do
  let s ← get
  s.addons.keys.forM (fun k => do
    let s ← get
    match s.addons.lookup k with
    | none => pure ()
    | some a => unloadFound P env nested stack k k a)

/-- `/addon reload`. -/
def reloadAddon (addonName : String) : Method H Unit := do
  let s ← get
  match s.addons.lookup (P.toLower addonName) with
  | none => pure ()
  | some a => do
    discard (invokeEvent P env nested stack a "unload" [])
    onRegistry (removeAddonCommands P (P.toLower addonName))
    discard (reload P env nested stack a)
    discard (invokeEvent P env nested stack a "load" [])
    tell (.server ("[Addons] Reloaded addon '" ++ addonName ++ "'!"))

/-! ## The `/addon` command -/

def AddonState.text : AddonState → String
  | .error => "Error"
  | .ok => "Ok"
  | .loading => "Loading"
  | .released => "Released"
  | .reloading => "Reloading"

/-- `/addon list`. -/
def listAddons : Method H Unit := do
  let s ← get
  s.addons.entries.forM (fun e => do
    let x ← getAddon e.2
    tell (.success ("[Addon] " ++ x.name ++ " v" ++ x.version ++ ", by " ++ x.author ++
      " -- State: " ++ x.state.text)))

/-- The usage text of `/addon`. -/
def addonUsage (args : CommandArgs) : Method H Unit := do
  tell (.failure "Invalid addon command! Commands:")
  tell (.failure "/addon load [name] - Loads the given addon.")
  tell (.failure "/addon unload [name] - Unloads the given addon.")
  tell (.failure "/addon reload [name] - Reloads the given addon.")
  tell (.failure "/addon reloadcfg - Reloads the Addons configuration file.")
  if args.fromServer then
    tell (.failure "/addon list - Prints the current loaded addons and their states.")

/-- The command `/addon load` around `LoadAddon`. -/
def loadCommand (addonName : String) : Method H Unit := do
  match ← loadAddon P env nested stack addonName with
  | none => tell (.failure ("[Addon] Addon '" ++ addonName ++
      "' is already loaded or failed to initialize! Cannot load!"))
  | some a => do
    let x ← getAddon a
    tell (.success ("[Addons] Loaded addon '" ++ x.name ++ "' v" ++ x.version ++ ", by " ++
      x.author))

/-- The branches of `HandleAddonCommand`. -/
def addonSubcommand (args : CommandArgs) : Method H Unit :=
  match args.parameters with
  | [] => addonUsage args
  | subcommand :: rest =>
    let subcommand := P.toLower subcommand
    let addonName := String.intercalate " " rest
    if subcommand = "reloadcfg" then
      modify (fun s => { s with configuration := env.parseConfiguration })
    else if subcommand = "list" then listAddons
    else if subcommand = "load" ∧ rest ≠ [] then loadCommand P env nested stack addonName
    else if subcommand = "unload" ∧ rest ≠ [] then unloadAddon P env nested stack addonName
    else if subcommand = "unloadall" then unloadAll P env nested stack
    else if subcommand = "reload" ∧ rest ≠ [] then reloadAddon P env nested stack addonName
    else addonUsage args

/-- `Addons.HandleAddonCommand`. -/
def handleAddonCommand (args : CommandArgs) : Method H Unit := do
  let s ← get
  emit (.command args.parameters s.addons.entries stack)
  addonSubcommand P env nested stack args

/-- `Addons.HandleAddonCallbackCommand`. -/
def handleAddonCallbackCommand (args : CommandArgs) : Method H Unit := do
  let command := P.toLower (firstWord ' ' args.message)
  let s ← get
  match singleOrDefault NetException.invalidOperation (fun c => c.2.contains command)
      s.registry.addonCommands.entries with
  | .error e => throw e
  | .ok none => pure ()
  | .ok (some addonEntry) =>
    match singleOrDefault NetException.invalidOperation
        (fun a => P.compareIgnoreCase a.1 addonEntry.1) s.addons.entries with
    | .error e => throw e
    | .ok none => onRegistry (dropCommand addonEntry.1 command)
    | .ok (some addon) => invokeCommand P env nested stack addon.2 command args

/-! ## Hooks and Dispose -/

/-- `m_Addons.ForEach(a => a.Value.InvokeEvent(event, args))`, the hooks without a result. -/
def forEachInvoke (event : String) (args : List NetObject) : Method H Unit := do
  let s ← get
  s.addons.entries.forM (fun e => discard (invokeEvent P env nested stack e.2 event args))

/-- The part of a hook behind `InvokeEvent`: an addon whose first value renders as true sets
`args.Handled`. The rendering is outside the `catch` of `InvokeEvent`. -/
def handleResult (ret : Option (List NetObject)) : Method H Unit := do
  match ret with
  | none => pure ()
  | some [] => pure ()
  | some (value :: _) => do
    let text ← liftExcept (P.callToString value)
    if boolTryParse text = some true then
      modify (fun s => { s with handled := true })

/-- The hooks that propagate `Handled`: `event` is the name of the event and `args` builds
the arguments of each call. -/
def onHandled (event : String) (args : Except NetException (List NetObject)) :
    Method H Unit := do
  let s ← get
  s.addons.entries.forM (fun e => do
    let args ← liftExcept args
    let ret ← invokeEvent P env nested stack e.2 event args
    handleResult P ret)

/-- The two steps of the auto-reload for one addon. -/
def autoReload (a : AddonId) : Method H Unit := do
  discard (reload P env nested stack a)
  discard (invokeEvent P env nested stack a "load" [])

/-- `Addons.OnGamePostUpdate`. The query for the addons in state `Error` is lazy. -/
def onGamePostUpdate (args : NetObject) : Method H Unit := do
  forEachInvoke P env nested stack "GamePostUpdate" [args]
  let s ← get
  match s.configuration with
  | none => throw .nullReference
  | some configuration =>
    if configuration.autoReloadAddons then
      s.addons.entries.forM (fun e => do
        let x ← getAddon e.2
        if x.state = .error then autoReload P env nested stack e.2)

/-- `Addons.Dispose(true)`. -/
def dispose : Method H Unit := do
  let s ← get
  s.addons.entries.forM (fun e => do
    discard (invokeEvent P env nested stack e.2 "unload" [])
    release env stack e.2)
  modify (fun s =>
    { s with addons := ∅, registry := { s.registry with addonCommands := ∅ } })

end Operations

/-! ## Nested calls -/

/-- A call of the delegate of a chat command, with at most `n` levels of nested calls. -/
def delegate (P : Platform) (env : Env H) : Nat → Nested H
  | 0, _, _, _ => pure ()
  | n + 1, stack, .handleAddonCommand, args =>
    handleAddonCommand P env (delegate P env n) stack args
  | n + 1, stack, .handleAddonCallbackCommand, args =>
    handleAddonCallbackCommand P env (delegate P env n) stack args
  | _ + 1, _, .foreign _, _ => pure ()

end LuaAddons
