import LuaAddons.Script

/-!
# The methods of an addon

The functions of `Addons/Addon.cs`: `release`, `initializeAddon`, `reload`, `invokeEvent`,
`invokeCommand`, and the callback behind `commands.register_command`. `nested` is what runs
when a script calls the delegate of a chat command, and the call stack grows by the addon
whenever one of its methods calls into Lua.
-/

namespace LuaAddons

open Exec

variable {H : Type}

/-! ## Running scripts -/

/-- `lua_AddonNewCommand` on well-formed arguments: the table is created before the command
is registered with the plugin, and the function is stored after it, under the name as it was
given. -/
def addonNewCommand (P : Platform) (a : AddonId) (name permission : LuaString)
    (f : LuaFunction) : Method H Bool := do
  modifyLua a (fun L => { L with addonCommands := some (L.addonCommands.getD ∅) })
  let x ← getAddon a
  let ok ← onRegistry (modifyGet
    (registerCommand P (P.toLower x.fileName) (P.luaToString permission) (P.luaToString name)))
  if ok then modify (fun s => s.storeCommand a name f)
  pure ok

def emitExecuted (target : CommandDelegate) (args : CommandArgs) : Method H Unit := do
  let s ← get
  emit (.executed target args s.registry.addonCommands.entries)

/-- Run Lua code of the addon `a` until it returns or raises an error. -/
def runScript (P : Platform) (nested : Nested H) (stack : CallStack) (a : AddonId) :
    Script H → Method H (List LuaValue)
  | .done heap values => do
    modifyLua a (fun L => { L with heap := heap })
    pure values
  | .raise heap => do
    modifyLua a (fun L => { L with heap := heap })
    throw .luaScript
  | .registerEvent name f next => do
    modifyLua a (fun L => { L with addonEvents := some ((L.addonEvents.getD ∅).insert name f) })
    runScript P nested stack a next
  | .registerCommand name permission f next => do
    let ok ← addonNewCommand P a name permission f
    runScript P nested stack a (next ok)
  | .assign key value next => do
    modifyLua a (fun L =>
      { L with addonTable := (L.addonTable.assign P key value).getD L.addonTable })
    runScript P nested stack a next
  | .chatCommand heap target args next => do
    modifyLua a (fun L => { L with heap := heap })
    emitExecuted target args
    let ok ← tryCatch (do nested stack target args; pure true) (fun _ => pure false)
    let x ← getAddon a
    runScript P nested stack a (next ok ((x.luaState.map LuaState.heap).getD heap))

/-! ## Release and Initialize -/

/-- The fields of an addon after a `Release` that did not throw. -/
def Addon.released (x : Addon H) : Addon H :=
  { x with luaState := none, state := .released, name := "", author := "", version := "" }

/-- `Addon.Release`. -/
def release (env : Env H) (stack : CallStack) (a : AddonId) : Method H Unit := do
  emit (.release a stack)
  let x ← getAddon a
  if x.luaState.any (fun L => env.disposeThrows L.heap) then
    modifyAddon a (fun x => { x with state := .error })
  else
    modifyAddon a Addon.released

/-- `LuaState["_addon.field"]` cast to a string, as `Initialize` does it. -/
def readInfo (P : Platform) (x : Addon H) (field : String) : Except NetException String :=
  match x.luaState with
  | none => .error .nullReference
  | some L =>
    match P.getObject ((L.addonTable.lookup (.string (ascii field))).getD .nil) with
    | .null => .error .nullReference
    | .string s => .ok s
    | _ => .error (.exception ("_addon." ++ field ++ " has invalid data type. Expected string."))

def liftExcept {α : Type} : Except NetException α → Method H α
  | .ok a => pure a
  | .error e => throw e

/-- The part of `Initialize` that makes the Lua state and runs the file of the addon. -/
def runFile (P : Platform) (env : Env H) (nested : Nested H) (stack : CallStack) (a : AddonId)
    (name : String) : Method H Unit := do
  modify (fun s => s.startLua a (env.newLuaState P name))
  match env.script name with
  | none => throw .luaScript
  | some body => discard (runScript P nested (a :: stack) a body)

/-- The part of `Initialize` that validates the author, the name and the version. -/
def readInfos (P : Platform) (a : AddonId) : Method H Unit := do
  let x ← getAddon a
  let author ← liftExcept (readInfo P x "author")
  modifyAddon a (fun x => { x with author := author })
  let name ← liftExcept (readInfo P x "name")
  modifyAddon a (fun x => { x with name := name })
  let version ← liftExcept (readInfo P x "version")
  modifyAddon a (fun x => { x with version := version, state := .ok })
  emit (.initialized a ((x.luaState.map LuaState.addonTable).getD ∅))

/-- The `try` block of `Initialize` and its `catch`. -/
def startAddon (P : Platform) (env : Env H) (nested : Nested H) (stack : CallStack)
    (a : AddonId) (name : String) : Method H Bool :=
  tryCatch
    (do
      runFile P env nested stack a name
      readInfos P a
      pure true)
    (fun ex => do
      tell (.log (P.exceptionToString ex))
      release env stack a
      modifyAddon a (fun x => { x with state := .error })
      pure false)

/-- `Addon.Initialize`. -/
def initializeAddon (P : Platform) (env : Env H) (nested : Nested H) (stack : CallStack)
    (a : AddonId) (name : String) : Method H Bool := do
  let x ← getAddon a
  if x.luaState.isSome then release env stack a
  modifyAddon a (fun x => { x with state := .loading, fileName := name })
  startAddon P env nested stack a name

/-- `Addon.Reload`. -/
def reload (P : Platform) (env : Env H) (nested : Nested H) (stack : CallStack)
    (a : AddonId) : Method H Bool :=
  tryCatch
    (do
      modifyAddon a (fun x => { x with state := .reloading })
      release env stack a
      let x ← getAddon a
      initializeAddon P env nested stack a x.fileName)
    (fun _ => do
      modifyAddon a (fun x => { x with state := .error })
      pure false)

/-! ## Events and commands -/

/-- `Lua.CallFunction`: `PopValues` returns null when the function returns nothing. -/
def callFunction (P : Platform) (env : Env H) (nested : Nested H) (stack : CallStack)
    (a : AddonId) (L : LuaState H) (f : LuaFunction) (args : List NetObject) :
    Method H (Option (List NetObject)) := do
  emit (.call a f args stack)
  let values ← runScript P nested (a :: stack) a (env.call f L.heap args)
  pure (if values = [] then none else some (values.map P.getObject))

/-- The `catch` block of `InvokeEvent` and `InvokeCommand`. -/
def invokeError (P : Platform) (a : AddonId) (what name : String) (ex : NetException) :
    Method H (Option (List NetObject)) := do
  let x ← getAddon a
  tell (.log ("[Addon] Addon '" ++ x.name ++ "' failed to invoke " ++ what ++ ": " ++ name ++
    ".\r\n" ++ P.exceptionToString ex))
  modifyAddon a (fun x => { x with state := .error })
  pure none

/-- The body of `InvokeEvent` and `InvokeCommand`: the function `name` of a global table, if
there is one, called with `args`. An exception puts the addon into the error state. -/
def invoke (P : Platform) (env : Env H) (nested : Nested H) (stack : CallStack) (a : AddonId)
    (table : LuaState H → Option FunctionTable) (what name : String) (args : List NetObject) :
    Method H (Option (List NetObject)) := do
  let x ← getAddon a
  match x.luaState with
  | none => pure none
  | some L =>
    if x.state ≠ .ok then pure none
    else
      tryCatch
        (match table L with
          | none => pure none
          | some t => do
            match ← liftExcept (getFunction P t (split '.' name)) with
            | none => pure none
            | some f => callFunction P env nested stack a L f args)
        (invokeError P a what name)

/-- `Addon.InvokeEvent`. -/
def invokeEvent (P : Platform) (env : Env H) (nested : Nested H) (stack : CallStack)
    (a : AddonId) (name : String) (args : List NetObject) : Method H (Option (List NetObject)) :=
  invoke P env nested stack a LuaState.addonEvents "event" name args

/-- `Addon.InvokeCommand`. -/
def invokeCommand (P : Platform) (env : Env H) (nested : Nested H) (stack : CallStack)
    (a : AddonId) (name : String) (args : CommandArgs) : Method H Unit :=
  discard (invoke P env nested stack a LuaState.addonCommands "command" name
    [.commandArgs args])

end LuaAddons
