import Mathlib

/-!
# Values and strings on both sides of the Lua bridge

A Lua value that leaves a Lua state becomes a .NET object (`getObject`, the function
`ObjectTranslator.GetObject` of `NLua/ObjectTranslator.cs`). A .NET string enters Lua as a
zero-terminated byte string of the ANSI code page (`luaPushString`) and a Lua string leaves
it by its length (`luaToString`), so the two directions are not inverse in general.

`Platform` collects what the plugin uses of .NET: lower-casing, the culture comparison, the
code page and the rendering of objects. It carries the two laws used later; everything else
about these functions stays arbitrary.
-/

namespace LuaAddons

/-! ## Values -/

/-- A Lua string: its bytes, zero bytes included. -/
abbrev LuaString := List UInt8

/-- The bytes of a text that has only ASCII characters. -/
def ascii (s : String) : LuaString := s.toList.map (fun c => UInt8.ofNat c.toNat)

/-- The identity of a Lua function value. -/
abbrev LuaFunction := Nat

/-- A Lua value. Numbers are given by the bits of the double; values of reference type by
their identity; `object` is userdata that wraps a .NET object. -/
inductive LuaValue where
  | nil
  | boolean (b : Bool)
  | lightUserdata (p : Nat)
  | number (bits : UInt64)
  | string (s : LuaString)
  | table (t : Nat)
  | function (f : LuaFunction)
  | userdata (u : Nat)
  | object (o : Nat)
  | thread (t : Nat)
  deriving DecidableEq

/-- Whether the value is a number that is not equal to itself. -/
def LuaValue.isNaN : LuaValue → Bool
  | .number bits => 0x7FF0000000000000 < bits &&& 0x7FFFFFFFFFFFFFFF
  | _ => false

/-- The value as a key of a table: the two zeros are one key. -/
def LuaValue.asKey : LuaValue → LuaValue
  | .number bits => .number (if bits = 0x8000000000000000 then 0 else bits)
  | v => v

@[simp] theorem LuaValue.isNaN_string (s : LuaString) : (LuaValue.string s).isNaN = false := rfl
@[simp] theorem LuaValue.asKey_string (s : LuaString) :
    (LuaValue.string s).asKey = .string s := rfl

theorem LuaValue.asKey_eq_string {v : LuaValue} {s : LuaString} :
    v.asKey = .string s ↔ v = .string s := by
  cases v <;> simp [LuaValue.asKey]

/-- The arguments TShock passes to the delegate of a chat command. -/
structure CommandArgs where
  /-- The chat message, without the command prefix. -/
  message : String
  parameters : List String
  /-- Whether the player is the server console. -/
  fromServer : Bool
  deriving DecidableEq

/-- A .NET object as the plugin sees it. -/
inductive NetObject where
  | null
  | boolean (b : Bool)
  | number (bits : UInt64)
  | int (n : Int)
  | string (s : String)
  | luaTable (t : Nat)
  | luaFunction (f : LuaFunction)
  | luaUserData (u : Nat)
  | commandArgs (args : CommandArgs)
  | object (o : Nat)
  deriving DecidableEq

/-- The exceptions the modelled code meets. -/
inductive NetException where
  | nullReference
  | invalidOperation
  | indexOutOfRange
  | exception (message : String)
  /-- An error raised by Lua code and rethrown by the bridge. -/
  | luaScript
  /-- A Lua error outside a protected call, thrown by the panic callback. -/
  | luaPanic
  deriving DecidableEq

/-! ## The platform -/

/-- The .NET functions the plugin calls. -/
structure Platform where
  /-- `String.ToLower`. -/
  toLower : String → String
  toLower_toLower : ∀ s, toLower (toLower s) = toLower s
  /-- `string.Compare(a, b, StringComparison.InvariantCultureIgnoreCase) == 0`. -/
  compareIgnoreCase : String → String → Bool
  compareIgnoreCase_refl : ∀ s, compareIgnoreCase s s = true
  /-- The ANSI code page: bytes to text (`Marshal.PtrToStringAnsi` with a length). -/
  decode : LuaString → String
  /-- The ANSI code page: text to bytes (`CharSet.Ansi` marshalling). -/
  encode : String → LuaString
  /-- `double.ToString`, on the bits of the double. -/
  numberToString : UInt64 → String
  /-- `ToString` of a .NET object, which may throw or return null. -/
  objectToString : Nat → Except NetException (Option String)
  exceptionToString : NetException → String

attribute [simp] Platform.toLower_toLower Platform.compareIgnoreCase_refl

namespace Platform

variable (P : Platform)

/-- `CharPtr.ToString(length)`: a string that starts like a binary chunk is taken byte by
byte, any other one goes through the code page. -/
def luaToString (s : LuaString) : String :=
  if s.length > 3 ∧ s.take 4 = [0x1B, 0x4C, 0x75, 0x61] then
    String.ofList (s.map (fun b => Char.ofNat b.toNat))
  else
    P.decode s

/-- `lua_pushstring` on a marshalled .NET string: the bytes up to the first zero. -/
def luaPushString (s : String) : LuaString := (P.encode s).takeWhile (· ≠ 0)

/-- `ObjectTranslator.GetObject`. Light userdata and threads fall into its default case. -/
def getObject : LuaValue → NetObject
  | .nil => .null
  | .boolean b => .boolean b
  | .lightUserdata _ => .null
  | .number n => .number n
  | .string s => .string (P.luaToString s)
  | .table t => .luaTable t
  | .function f => .luaFunction f
  | .userdata u => .luaUserData u
  | .object o => .object o
  | .thread _ => .null

/-- The call `o.ToString()`. -/
def callToString : NetObject → Except NetException (Option String)
  | .null => .error .nullReference
  | .boolean b => .ok (some (if b then "True" else "False"))
  | .number n => .ok (some (P.numberToString n))
  | .int n => .ok (some (toString n))
  | .string s => .ok (some s)
  | .luaTable _ => .ok (some "table")
  | .luaFunction _ => .ok (some "function")
  | .luaUserData _ => .ok (some "userdata")
  | .commandArgs _ => .ok (some "TShockAPI.CommandArgs")
  | .object o => P.objectToString o

end Platform

/-! ## String functions of the standard library -/

/-- The pieces between the occurrences of `sep`, with the empty ones. -/
def splitChars (sep : Char) : List Char → List (List Char)
  | [] => [[]]
  | c :: cs =>
    if c = sep then [] :: splitChars sep cs
    else match splitChars sep cs with
      | [] => [[c]]
      | piece :: rest => (c :: piece) :: rest

/-- `String.Split(sep)`. -/
def split (sep : Char) (s : String) : List String := (splitChars sep s.toList).map String.ofList

/-- `Char.IsWhiteSpace`. -/
def isWhiteSpace (c : Char) : Bool :=
  let n := c.toNat
  (0x9 ≤ n ∧ n ≤ 0xD) ∨ n = 0x20 ∨ n = 0x85 ∨ n = 0xA0 ∨ n = 0x1680 ∨
    (0x2000 ≤ n ∧ n ≤ 0x200A) ∨ n = 0x2028 ∨ n = 0x2029 ∨ n = 0x202F ∨ n = 0x205F ∨ n = 0x3000

/-- `bool.TryParse`: the literals in any letter case, with white space and zero characters
around them. -/
def boolTryParse (value : Option String) : Option Bool :=
  match value with
  | none => none
  | some s =>
    let blank := fun c => isWhiteSpace c || c = Char.ofNat 0
    let word := ((s.toList.dropWhile blank).reverse.dropWhile blank).reverse.map Char.toLower
    if word = "true".toList then some true
    else if word = "false".toList then some false
    else none

example : boolTryParse (some " TRUE\x00") = some true := by decide

theorem splitChars_ne_nil (sep : Char) (cs : List Char) : splitChars sep cs ≠ [] := by
  cases cs with
  | nil => simp [splitChars]
  | cons c cs =>
    unfold splitChars
    split
    · simp
    · split <;> simp

theorem split_ne_nil (sep : Char) (s : String) : split sep s ≠ [] := by
  simp [split, splitChars_ne_nil]

/-- `String.Split(sep)[0]`. -/
def firstWord (sep : Char) (s : String) : String := (split sep s).head (split_ne_nil sep s)

/-! ## ASCII text -/

/-- A platform on which ASCII text behaves as it does in .NET: lower-casing and the culture
comparison act on letters, and the code page is the identity on bytes. -/
def asciiPlatform : Platform where
  toLower s := String.ofList (s.toList.map Char.toLower)
  toLower_toLower s := by simp [Function.comp_def, Char.toLower_toLower_eq_toLower]
  compareIgnoreCase a b := a.toList.map Char.toLower = b.toList.map Char.toLower
  compareIgnoreCase_refl s := by simp
  decode s := String.ofList (s.map (fun b => Char.ofNat b.toNat))
  encode s := s.toList.map (fun c => UInt8.ofNat c.toNat)
  numberToString n := toString n.toNat
  objectToString _ := .ok (some "System.Object")
  exceptionToString
    | .nullReference => "System.NullReferenceException"
    | .invalidOperation => "System.InvalidOperationException"
    | .indexOutOfRange => "System.IndexOutOfRangeException"
    | .exception message => "System.Exception: " ++ message
    | .luaScript => "NLua.Exceptions.LuaScriptException"
    | .luaPanic => "NLua.Exceptions.LuaException"

end LuaAddons
