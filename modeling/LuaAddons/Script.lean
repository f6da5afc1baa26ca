import LuaAddons.Registry

/-!
# Addons, scripts and the state of the plugin

A script is seen through what it asks of the plugin (`Script`): it registers events and
commands, assigns fields of the `_addon` table and runs chat commands, and it ends or raises
an error. Everything else it computes lives in its own Lua state; the type `H` stands for
that part of a Lua state and stays arbitrary. The tables `__addon_events` and
`__addon_commands` belong to the plugin and change only through the registration functions.

`Plugin` is the state all of `Addons/Addons.cs` and `Addons/Addon.cs` work on. Addons are
objects, found by identity in `objects`. The `trace` records, newest first, what the claims
about runs speak of; no modelled function reads it.
-/

namespace LuaAddons

open Exec

/-! ## Lua states -/

/-- What a Lua table holds; no key is mapped to nil. -/
abbrev LuaTable := AList (fun _ : LuaValue => LuaValue)

/-- The `_addon` table. -/
abbrev AddonTable := LuaTable

/-- A table of registered functions. -/
abbrev FunctionTable := AList (fun _ : LuaString => LuaFunction)

/-- `lua_rawget`. -/
def LuaTable.rawGet (t : LuaTable) (key : LuaValue) : LuaValue := (t.lookup key.asKey).getD .nil

/-- A nil value removes the key. -/
def LuaTable.put (t : LuaTable) (key value : LuaValue) : LuaTable :=
  if value = .nil then t.erase key.asKey else t.insert key.asKey value

/-- `lua_rawset`. A key that is nil or not a number raises an error (`luaH_newkey`), given by
`none`. -/
def LuaTable.rawSet (t : LuaTable) (key value : LuaValue) : Option LuaTable :=
  if key = .nil ∨ key.isNaN then none else some (t.put key value)

/-- The fields of `_addon` that must be strings. -/
def requiredFields : List String := ["author", "name", "version"]

/-- Whether a key is one of the required fields up to letter case. -/
def isRequired (P : Platform) : LuaValue → Bool
  | .string k => requiredFields.any (P.compareIgnoreCase (P.luaToString k))
  | _ => false

def LuaValue.isString : LuaValue → Bool
  | .string _ => true
  | _ => false

/-- The callback `lua_AddonNewIndex` on the `_addon` table, `none` when it raises an error. -/
def AddonTable.newIndex (P : Platform) (t : AddonTable) (key value : LuaValue) :
    Option AddonTable :=
  if isRequired P key && !value.isString then none else t.rawSet key value

/-- The assignment `_addon[key] = value`, `none` when it raises an error. A key that is
present is overwritten in place (`luaV_settable`), and only a new key reaches the
`__newindex` callback. -/
def AddonTable.assign (P : Platform) (t : AddonTable) (key value : LuaValue) :
    Option AddonTable :=
  if t.rawGet key = .nil then t.newIndex P key value else some (t.put key value)

/-- What the plugin reads and writes in a Lua state; `none` is a global that is nil. -/
structure LuaState (H : Type) where
  heap : H
  addonTable : AddonTable
  addonEvents : Option FunctionTable
  addonCommands : Option FunctionTable

/-- `LuaState.GetFunction` on a global table: the path behind the name of the table is split
at every dot. A value found before the last piece is a function, which cannot be indexed. -/
def getFunction (P : Platform) (t : FunctionTable) :
    List String → Except NetException (Option LuaFunction)
  | [] => .ok none
  | [piece] => .ok (t.lookup (P.luaPushString piece))
  | piece :: _ :: _ =>
    match t.lookup (P.luaPushString piece) with
    | none => .ok none
    | some _ => .error .luaPanic

/-! ## Addons -/

inductive AddonState where
  | error
  | ok
  | loading
  | released
  | reloading
  deriving DecidableEq

/-- The identity of an `Addon` object. -/
abbrev AddonId := Nat

structure Addon (H : Type) where
  luaState : Option (LuaState H)
  state : AddonState
  fileName : String
  name : String
  author : String
  version : String

/-- A new `Addon` object: the enumeration starts at `Error`. -/
def Addon.new {H : Type} : Addon H :=
  { luaState := none, state := .error, fileName := "", name := "", author := "", version := "" }

/-! ## Scripts -/

/-- What Lua code asks of the plugin until it ends. `heap` is what the code leaves in its own
Lua state at that point. A registration that is refused raises an error the code may catch;
`next` gets whether the call went through. -/
inductive Script (H : Type) where
  /-- The code returns. -/
  | done (heap : H) (values : List LuaValue)
  /-- The code raises an error that it does not catch. -/
  | raise (heap : H)
  /-- `events.register_event(name, f)`. -/
  | registerEvent (name : LuaString) (f : LuaFunction) (next : Script H)
  /-- `commands.register_command(name, permission, f)`. -/
  | registerCommand (name permission : LuaString) (f : LuaFunction) (next : Bool → Script H)
  /-- `_addon[key] = value`. -/
  | assign (key value : LuaValue) (next : Script H)
  /-- The delegate of a chat command, called with arguments. -/
  | chatCommand (heap : H) (target : CommandDelegate) (args : CommandArgs)
      (next : Bool → H → Script H)

/-- The fields of `Configuration` with their defaults. -/
structure Configuration where
  autoloadAddons : Bool := true
  autoReloadAddons : Bool := false
  deriving DecidableEq

/-- What surrounds the plugin while it takes one step: the files of the addons, the meaning
of Lua functions, the configuration file. -/
structure Env (H : Type) where
  /-- The globals of a Lua state with the libraries opened. -/
  newHeap : H
  /-- The body of the file of an addon, `none` when it is missing or does not compile. -/
  script : String → Option (Script H)
  /-- A Lua function called in a Lua state with arguments. -/
  call : LuaFunction → H → List NetObject → Script H
  /-- `Lua.Dispose` throws. -/
  disposeThrows : H → Bool
  /-- The directory of an addon, the value of `_addon.path`. -/
  addonPath : String → String
  /-- The text of the configuration file, `none` when there is no file. -/
  configFile : Option String
  /-- `JsonConvert.DeserializeObject`. -/
  deserialize : String → Except NetException (Option Configuration)

/-- `Configuration.Parse`; `none` is a null configuration. -/
def Env.parseConfiguration {H : Type} (env : Env H) : Option Configuration :=
  match env.configFile with
  | none => some {}
  | some text =>
    match env.deserialize text with
    | .ok configuration => configuration
    | .error _ => some {}

/-- The Lua state `Initialize` builds before it runs the script. -/
def Env.newLuaState {H : Type} (env : Env H) (P : Platform) (name : String) : LuaState H :=
  { heap := env.newHeap
    addonTable :=
      AList.singleton (.string (ascii "path")) (.string (P.luaPushString (env.addonPath name)))
    addonEvents := none
    addonCommands := none }

/-! ## The plugin -/

/-- The addons whose methods `InvokeEvent`, `InvokeCommand` and `Initialize` have a call into
Lua that is still running, innermost first. -/
abbrev CallStack := List AddonId

inductive Event where
  /-- `Initialize` made a new Lua state. -/
  | started (a : AddonId)
  /-- A script registered a command without an error. -/
  | registered (a : AddonId) (name : LuaString) (f : LuaFunction)
  /-- `Initialize` succeeded, with this `_addon` table. -/
  | initialized (a : AddonId) (table : AddonTable)
  /-- `InvokeEvent` or `InvokeCommand` called a Lua function. -/
  | call (a : AddonId) (f : LuaFunction) (args : List NetObject) (stack : CallStack)
  /-- `Release` was entered. -/
  | release (a : AddonId) (stack : CallStack)
  /-- The addon left `m_Addons`. -/
  | removed (a : AddonId)
  /-- `HandleAddonCommand` was entered, with these addons loaded. -/
  | command (parameters : List String) (loaded : List (Sigma fun _ : String => AddonId))
      (stack : CallStack)
  /-- A script executed a chat command, when the addons had these commands. -/
  | executed (target : CommandDelegate) (args : CommandArgs)
      (commands : List (Sigma fun _ : String => List String))
  deriving DecidableEq

/-- Text for the player of a command, the server player or the log. -/
inductive Message where
  | success (text : String)
  | failure (text : String)
  | server (text : String)
  | log (text : String)
  deriving DecidableEq

structure Plugin (H : Type) where
  /-- `m_Addons`. The order of the entries is the order of enumeration. -/
  addons : AList (fun _ : String => AddonId)
  /-- `m_AddonCommands` and `Commands.ChatCommands`. -/
  registry : Registry
  objects : AddonId → Addon H
  nextAddon : AddonId
  /-- The property `Configuration`, `none` when it is null. -/
  configuration : Option Configuration
  /-- `Handled` of the arguments of the hook that runs. -/
  handled : Bool
  messages : List Message
  trace : List Event

/-- A method of the plugin. -/
abbrev Method (H : Type) := EStateM NetException (Plugin H)

/-- The delegate of a chat command, run inside the given calls. -/
abbrev Nested (H : Type) := CallStack → CommandDelegate → CommandArgs → Method H Unit

variable {H : Type}

def emit (e : Event) : Method H Unit := modify (fun s => { s with trace := e :: s.trace })

def tell (m : Message) : Method H Unit := modify (fun s => { s with messages := m :: s.messages })

def getAddon (a : AddonId) : Method H (Addon H) := do
  let s ← get
  pure (s.objects a)

def Plugin.modifyAddon (s : Plugin H) (a : AddonId) (f : Addon H → Addon H) : Plugin H :=
  { s with objects := Function.update s.objects a (f (s.objects a)) }

def modifyAddon (a : AddonId) (f : Addon H → Addon H) : Method H Unit :=
  modify (fun s => s.modifyAddon a f)

/-- A change inside the Lua state of an addon; nothing when it has none. -/
def modifyLua (a : AddonId) (f : LuaState H → LuaState H) : Method H Unit :=
  modifyAddon a (fun x => { x with luaState := x.luaState.map f })

/-- The addon gets a new Lua state. -/
def Plugin.startLua (s : Plugin H) (a : AddonId) (L : LuaState H) : Plugin H :=
  { s.modifyAddon a (fun x => { x with luaState := some L }) with
    trace := .started a :: s.trace }

/-- The function of a registered command is stored in the table of the addon. -/
def Plugin.storeCommand (s : Plugin H) (a : AddonId) (name : LuaString) (f : LuaFunction) :
    Plugin H :=
  match (s.objects a).luaState with
  | none => s
  | some L =>
    { s.modifyAddon a (fun x => { x with
        luaState := some { L with addonCommands := some ((L.addonCommands.getD ∅).insert name f) } })
      with trace := .registered a name f :: s.trace }

def onRegistry {α : Type} (x : EStateM NetException Registry α) : Method H α :=
  zoom Plugin.registry (fun r s => { s with registry := r }) x

end LuaAddons
