import LuaAddons.Lib.Binary64
import LuaAddons.Lib.Exec
import LuaAddons.LuaApi
import LuaAddons.SendPacket

/-!
# The global `print`

`Initialize` registers `lua_Print(params object[] args)` as `print`. A call goes through
`LuaMethodWrapper.Call`: `MatchParameters` (`NLua/Metatables.cs`) turns the arguments into those
of the method, by the type of the first argument and with a table taken apart, and the method
is invoked with them.

`print_returns_iff` tells from the arguments whether the call returns.
-/

namespace LuaAddons

open Exec

/-! ## Values as arguments -/

/-- What the bridge sees of the tables and objects among the arguments. -/
structure Interop where
  /-- The tables; `lua_next` takes their entries in order. -/
  tables : TableId → LuaTable
  /-- The field `__index` of the metatable of a table, nil where there is none. -/
  metaIndex : TableId → LuaValue
  /-- `luaL_checkmetatable`: the metatable of the value has the tag of NLua. -/
  tagged : LuaValue → Bool
  /-- The elements of a .NET object that is an `object[]`. -/
  elements : Nat → Option (List NetObject)
  /-- The .NET object is an `IConvertible`, or an `object` and nothing else. -/
  convertible : Nat → Bool

/-- The types of the parameters of the methods that `Initialize` registers, as far as `print` and
`dump` have them. -/
inductive ParameterType where
  | object
  | objectArray
  deriving DecidableEq

structure ParameterInfo where
  parameterType : ParameterType
  /-- The parameter has the `ParamArrayAttribute`. -/
  isParamArray : Bool

inductive ExtractValue where
  | getAsObject
  | getAsTable
  | getAsNetObject

/-- An argument of a method: an object, or an array made for the call. -/
inductive NetArgument where
  | object (o : NetObject)
  | array (items : List NetObject)

section Matching

variable (P : Platform) (I : Interop)

/-- `ObjectTranslator.GetNetObject`. -/
def getNetObject : Option LuaValue → Option Nat
  | some (.object o) => some o
  | _ => none

/-- The value is a .NET object of type `object[]`. -/
def Interop.isArray (v : Option LuaValue) : Bool := (getNetObject v).any (I.elements · |>.isSome)

/-- A table whose `__index` is an object of NLua stands for that object. -/
def Interop.asObject : LuaValue → LuaValue
  | .table t => if I.metaIndex t ≠ .nil ∧ I.tagged (I.metaIndex t) then I.metaIndex t else .table t
  | v => v

/-- `CheckType.CheckLuaType`, for the value at a position of the stack and `none` above its top.
There is no extractor for numbers as arrays. -/
def checkLuaType (v : Option LuaValue) : ParameterType → Except NetException (Option ExtractValue)
  | .object => .ok (some .getAsObject)
  | .objectArray =>
    match v with
    | some (.number _) => .error (.exception "KeyNotFound")
    | some .nil => .ok (some .getAsNetObject)
    | some (.table t) =>
      .ok (if I.isArray (some (I.metaIndex t)) then some .getAsNetObject else none)
    | v => .ok (if I.isArray v then some .getAsNetObject else none)

/-- `MetaFunctions.IsTypeCorrect`. -/
def isTypeCorrect (v : Option LuaValue) (p : ParameterInfo) : Option ExtractValue :=
  match checkLuaType I v p.parameterType with
  | .ok extractValue => extractValue
  | .error _ => none

/-- `MetaFunctions.IsParamsArray`. -/
def isParamsArray (v : Option LuaValue) (p : ParameterInfo) : Option ExtractValue :=
  if p.isParamArray then
    match v with
    | some (.table _) => some .getAsTable
    | v =>
      match checkLuaType I v .object with
      | .ok extractValue => extractValue
      | .error _ => none
  else none

/-- The extractors. -/
def extract (v : Option LuaValue) : ExtractValue → NetObject
  | .getAsObject => P.getObject (I.asObject (v.getD .nil))
  | .getAsTable => P.getObject (v.getD .nil)
  | .getAsNetObject =>
    match v with
    | some (.table t) =>
      if I.tagged (I.metaIndex t) then
        (getNetObject (some (I.metaIndex t))).elim .null .object
      else .null
    | v => (getNetObject v).elim .null .object

/-- `Lua.GetTableDict`. -/
def LuaTable.dictionary (t : LuaTable) : Except NetException NetDictionary :=
  t.entries.foldlM (fun dict e =>
    if P.getObject e.1 = .null then .error (.exception "Value cannot be null.")
    else .ok (dict.set (P.getObject e.1) (P.getObject e.2))) []

/-- An integral double becomes an `int`. -/
def toInt32OfDouble : NetObject → Except NetException NetObject
  | .number bits =>
    if Binary64.isInteger bits then
      match Binary64.toInt32? bits with
      | some n => .ok (.int n)
      | none => .error (.exception "Overflow")
    else .ok (.number bits)
  | value => .ok value

/-- `Convert.ChangeType(value, typeof(object))`. -/
def changeType : NetObject → Except NetException NetObject
  | .null => .ok .null
  | .boolean b => .ok (.boolean b)
  | .number bits => .ok (.number bits)
  | .int n => .ok (.int n)
  | .string s => .ok (.string s)
  | .object o => if I.convertible o then .ok (.object o) else .error (.exception "InvalidCast")
  | _ => .error (.exception "InvalidCast")

/-- What the loop of `TableToArray` sets for a value of the table. -/
def paramArrayValue (value : NetObject) : Except NetException NetObject := do
  let value ← toInt32OfDouble value
  changeType I value

/-- `MetaFunctions.TableToArray` on `count` values of the stack: the array, and the position of the
next parameter. A table in the first place is taken apart. -/
def tableToArray (args : List LuaValue) (extractValue : ExtractValue) (currentLuaParam : Nat)
    (count : Int) : Except NetException (List NetObject × Nat) :=
  if count = 0 then .ok ([], currentLuaParam)
  else
    match extract P I args[currentLuaParam - 1]? extractValue with
    | .luaTable t => do
      let dict ← (I.tables t).dictionary P
      let array ← (dict.map Prod.snd).mapM (paramArrayValue I)
      pure (array, currentLuaParam + 1)
    | first =>
      if count < 0 then .error (.exception "ArgumentOutOfRange")
      else
        .ok (first :: (List.range (count.toNat - 1)).map
          (fun i => extract P I args[currentLuaParam + i]? extractValue),
          currentLuaParam + count.toNat)

/-- The loop of `MetaFunctions.MatchParameters` from one of the parameters on, `none` when the
arguments do not match. -/
def matchParametersFrom (args : List LuaValue) :
    List ParameterInfo → Nat → Except NetException (Option (List NetArgument))
  | [], currentLuaParam => .ok (if currentLuaParam = args.length + 1 then some [] else none)
  | p :: paramInfo, currentLuaParam =>
    let v := args[currentLuaParam - 1]?
    match isTypeCorrect I v p with
    | some extractValue => do
      let rest ← matchParametersFrom args paramInfo (currentLuaParam + 1)
      pure (rest.map (NetArgument.object (extract P I v extractValue) :: ·))
    | none =>
      match isParamsArray I v p with
      | some extractValue => do
        let (array, currentLuaParam) ← tableToArray P I args extractValue currentLuaParam
          (args.length - currentLuaParam + 1)
        let rest ← matchParametersFrom args paramInfo currentLuaParam
        pure (rest.map (NetArgument.array array :: ·))
      | none => .ok none

/-- `MetaFunctions.MatchParameters`. -/
def matchParameters (paramInfo : List ParameterInfo) (args : List LuaValue) :
    Except NetException (Option (List NetArgument)) :=
  matchParametersFrom P I args paramInfo 1

end Matching

/-! ## The call -/

/-- The console of the server. -/
structure Console where
  foregroundColor : Nat
  lines : List String
  deriving DecidableEq

/-- `ConsoleColor.Green`. -/
def green : Nat := 10

/-- How a call of a wrapped method ends when it does not return. -/
inductive CallFault where
  /-- `ThrowError` with a message. -/
  | luaError (message : String)
  /-- `ThrowError` with an exception. -/
  | luaException (e : NetException)
  /-- The exception leaves the callback. -/
  | exception (e : NetException)
  deriving DecidableEq

abbrev NetCall := EStateM NetException Console

/-- What `lua_Print` does with one argument. -/
def printArgument (P : Platform) (fileName : String) (a : NetObject) : NetCall Unit :=
  match P.callToString a with
  | .ok text =>
    modify (fun s => { s with
      lines := s.lines ++ ["[Addon] (" ++ fileName ++ ") " ++ text.getD ""] })
  | .error e => throw e

/-- `Addon.lua_Print` of the addon with the file name; `none` is a null array. -/
def luaPrint (P : Platform) (fileName : String) (args : Option (List NetObject)) :
    NetCall Unit := do
  let s ← get
  let oldColor := s.foregroundColor
  modify (fun s => { s with foregroundColor := green })
  match args with
  | some args => args.forM (printArgument P fileName)
  | none => modify (fun s => { s with lines := s.lines ++ ["[Addon] nil"] })
  modify (fun s => { s with foregroundColor := oldColor })

/-- `LuaMethodWrapper.Call` for a method of a known object that returns one value, with so many
free slots on the stack. -/
def callMethod (P : Platform) (I : Interop) (freeSlots : Nat) (paramInfo : List ParameterInfo)
    (invoke : List NetArgument → NetCall Unit) (args : List LuaValue) :
    EStateM CallFault Console Nat :=
  if freeSlots < 5 then throw (.exception (.exception "Lua stack overflow"))
  else
    match matchParameters P I paramInfo args with
    | .error e => throw (.exception e)
    | .ok none => throw (.luaError "invalid arguments to method call")
    | .ok (some netArgs) =>
      if freeSlots < 6 then throw (.exception (.exception "Lua stack overflow"))
      else do
        EStateM.adaptExcept .luaException (invoke netArgs)
        pure 1

/-- The parameter `params object[] args`. -/
def printParameter : ParameterInfo := { parameterType := .objectArray, isParamArray := true }

/-- The array that an argument for `object[]` is. -/
def Interop.toArray (I : Interop) : NetArgument → Except NetException (Option (List NetObject))
  | .array items => .ok (some items)
  | .object .null => .ok none
  | .object (.object o) =>
    match I.elements o with
    | some items => .ok (some items)
    | none => .error (.exception "ArgumentException")
  | .object _ => .error (.exception "ArgumentException")

/-- `MethodBase.Invoke` of `lua_Print`. -/
def invokePrint (P : Platform) (I : Interop) (fileName : String) : List NetArgument → NetCall Unit
  | [arg] =>
    match I.toArray arg with
    | .ok args => luaPrint P fileName args
    | .error e => throw e
  | _ => throw (.exception "TargetParameterCount")

/-- The global `print`. -/
def print (P : Platform) (I : Interop) (freeSlots : Nat) (fileName : String)
    (args : List LuaValue) : EStateM CallFault Console Nat :=
  callMethod P I freeSlots [printParameter] (invokePrint P I fileName) args

/-! ## Arguments that print takes -/

section Arguments

variable (P : Platform) (I : Interop)

/-- The object is not null and its `ToString` returns. -/
def Prints (o : NetObject) : Prop := ∃ text, P.callToString o = .ok text

/-- A value of a table, taken out of the table to be printed: an integral number has to be an
`int`, and no table, function or userdata of Lua can be converted. -/
def PrintsFromTable : NetObject → Prop
  | .boolean _ => True
  | .string _ => True
  | .int _ => True
  | .number bits => Binary64.isInteger bits = true → (Binary64.toInt32? bits).isSome
  | .object o => I.convertible o = true ∧ Prints P (.object o)
  | _ => False

/-- The entries of the table as objects. A key that becomes the object of an earlier one takes its
place. -/
def LuaTable.netDictionary (t : LuaTable) : NetDictionary :=
  t.entries.foldl (fun dict e => NetDictionary.set dict (P.getObject e.1) (P.getObject e.2)) []

/-- The values of the table as objects. -/
def LuaTable.netValues (t : LuaTable) : List NetObject := (t.netDictionary P).map Prod.snd

/-- The elements of a .NET array. -/
def Interop.elementsOf (v : LuaValue) : List NetObject :=
  ((getNetObject (some v)).bind I.elements).getD []

/-- A boolean, a number, a string or a function. -/
def LuaValue.isPlain : LuaValue → Bool
  | .boolean _ | .number _ | .string _ | .function _ => true
  | _ => false

/-- Arguments with which `print` returns: none, nil alone, an array alone, a table alone, or
values none of which is null. -/
def PrintArguments : List LuaValue → Prop
  | [] => True
  | .nil :: rest => rest = []
  | .table t :: rest => rest = [] ∧
    if I.isArray (some (I.metaIndex t)) then
      I.tagged (I.metaIndex t) = true → ∀ o ∈ I.elementsOf (I.metaIndex t), Prints P o
    else (∀ e ∈ (I.tables t).entries, P.getObject e.1 ≠ .null) ∧
      ∀ o ∈ (I.tables t).netValues P, PrintsFromTable P I o
  | v :: rest =>
    if I.isArray (some v) then rest = [] ∧ ∀ o ∈ I.elementsOf v, Prints P o
    else ∀ w ∈ v :: rest, Prints P (P.getObject (I.asObject w))

variable {P I}

theorem NetDictionary.mem_set {dict : NetDictionary} {key value : NetObject}
    {p : NetObject × NetObject} (h : p ∈ dict.set key value) : p ∈ dict ∨ p.2 = value := by
  rw [NetDictionary.set] at h
  split at h
  · obtain ⟨e, he, hp⟩ := List.mem_map.mp h
    split at hp
    · exact .inr (congrArg Prod.snd hp).symm
    · exact .inl (hp ▸ he)
  · rcases List.mem_append.mp h with h | h
    · exact .inl h
    · exact .inr (congrArg Prod.snd (List.mem_singleton.mp h))

theorem mem_netValues {t : LuaTable} {o : NetObject} (h : o ∈ t.netValues P) :
    ∃ e ∈ t.entries, o = P.getObject e.2 := by
  obtain ⟨p, hp, rfl⟩ := List.mem_map.mp h
  rw [LuaTable.netDictionary] at hp
  have hfold : ∀ (entries : List (Σ _ : LuaValue, LuaValue)) (dict : NetDictionary),
      p ∈ entries.foldl (fun dict e => dict.set (P.getObject e.1) (P.getObject e.2)) dict →
        p ∈ dict ∨ ∃ e ∈ entries, p.2 = P.getObject e.2 := by
    intro entries
    induction entries with
    | nil => exact fun dict hp => .inl hp
    | cons e entries ih =>
      intro dict hp
      rcases ih _ hp with hp | ⟨e', he', hp⟩
      · rcases NetDictionary.mem_set hp with hp | hp
        · exact .inl hp
        · exact .inr ⟨e, List.mem_cons_self, hp⟩
      · exact .inr ⟨e', List.mem_cons_of_mem _ he', hp⟩
  exact (hfold _ _ hp).resolve_left List.not_mem_nil

/-- Small natural numbers print out of a table. -/
theorem printsFromTable_ofNat {n : Nat} (hn : n < 2 ^ 31) :
    PrintsFromTable P I (.number (Binary64.ofNat n)) := by
  intro _
  rw [Binary64.toInt32?_ofNat hn]
  rfl

/-- A list of small natural numbers prints. -/
theorem printArguments_numbers {t : TableId} (harray : I.isArray (some (I.metaIndex t)) = false)
    (hkeys : ∀ e ∈ (I.tables t).entries, ∃ bits, e.1 = .number bits)
    (hvalues : ∀ e ∈ (I.tables t).entries, ∃ n < 2 ^ 31, e.2 = .number (Binary64.ofNat n)) :
    PrintArguments P I [.table t] := by
  refine ⟨rfl, ?_⟩
  rw [harray, if_neg (by decide)]
  constructor
  · intro e he
    obtain ⟨bits, hbits⟩ := hkeys e he
    rw [hbits]
    rintro ⟨⟩
  · intro o ho
    obtain ⟨e, he, rfl⟩ := mem_netValues ho
    obtain ⟨n, hn, hvalue⟩ := hvalues e he
    rw [hvalue]
    exact printsFromTable_ofNat hn

/-- Booleans, numbers, strings and functions print, in any number. -/
theorem printArguments_of_plain {args : List LuaValue} (h : ∀ v ∈ args, v.isPlain = true) :
    PrintArguments P I args := by
  have hplain : ∀ v : LuaValue, v.isPlain = true → Prints P (P.getObject (I.asObject v)) := by
    intro v hv
    cases v <;> first | exact ⟨_, rfl⟩ | cases hv
  have hall : ∀ v ∈ args, Prints P (P.getObject (I.asObject v)) := fun v hv => hplain v (h v hv)
  cases args with
  | nil => trivial
  | cons v rest =>
    have hv := h v List.mem_cons_self
    cases v <;> first | exact hall | cases hv

end Arguments

/-! ## When the method returns -/

section Invocation

variable {P : Platform} {I : Interop} {fileName : String}

theorem printArguments_returns : ∀ (items : List NetObject) (s : Console),
    (∃ s', (items.forM (printArgument P fileName)).run s = .ok () s') ↔
      ∀ o ∈ items, Prints P o := by
  intro items
  induction items with
  | nil =>
    intro s
    constructor
    · intro _ o ho
      cases ho
    · intro _
      exact ⟨s, rfl⟩
  | cons o items ih =>
    intro s
    rw [run_forM_cons, List.forall_mem_cons]
    cases ho : P.callToString o with
    | error e =>
      have hrun : (printArgument P fileName o).run s = .error e s := by
        rw [printArgument, ho]
        rfl
      rw [hrun]
      constructor
      · rintro ⟨s', hs'⟩
        cases hs'
      · rintro ⟨⟨text, htext⟩, _⟩
        rw [ho] at htext
        cases htext
    | ok text =>
      obtain ⟨s₁, hrun⟩ : ∃ s₁, (printArgument P fileName o).run s = .ok () s₁ := by
        rw [printArgument, ho]
        exact ⟨_, rfl⟩
      rw [hrun]
      exact (ih s₁).trans (and_iff_right ⟨text, ho⟩).symm

theorem luaPrint_returns (args : Option (List NetObject)) (s : Console) :
    (∃ s', (luaPrint P fileName args).run s = .ok () s') ↔
      ∀ items, args = some items → ∀ o ∈ items, Prints P o := by
  rw [luaPrint, run_bind_of_ok (EStateM.run_get s), run_bind_of_ok (EStateM.run_modify _ _)]
  cases args with
  | none =>
    constructor
    · intro _ items hitems
      cases hitems
    · intro _
      exact ⟨_, rfl⟩
  | some items =>
    have hloop := @printArguments_returns P fileName items { s with foregroundColor := green }
    constructor
    · rintro ⟨s', hrun⟩ _ ⟨⟩
      obtain ⟨_, s₁, hprint, _⟩ := run_bind_eq_ok hrun
      exact hloop.mp ⟨s₁, hprint⟩
    · intro hitems
      obtain ⟨s₁, hprint⟩ := hloop.mpr (hitems items rfl)
      exact ⟨_, run_bind_of_ok hprint⟩

theorem invokePrint_returns (arg : NetArgument) (s : Console) :
    (∃ s', (invokePrint P I fileName [arg]).run s = .ok () s') ↔
      ∃ args, I.toArray arg = .ok args ∧ ∀ items, args = some items → ∀ o ∈ items, Prints P o := by
  rw [invokePrint]
  cases harg : I.toArray arg with
  | error e =>
    constructor
    · rintro ⟨s', hs'⟩
      cases hs'
    · rintro ⟨args, hargs, _⟩
      cases hargs
  | ok args =>
    rw [luaPrint_returns]
    constructor
    · intro hitems
      exact ⟨args, rfl, hitems⟩
    · rintro ⟨_, ⟨⟩, hitems⟩
      exact hitems

/-- A call returns if the arguments match and the method returns. -/
theorem callMethod_returns (freeSlots : Nat) (paramInfo : List ParameterInfo)
    (invoke : List NetArgument → NetCall Unit) (args : List LuaValue) (s : Console) :
    (∃ n s', (callMethod P I freeSlots paramInfo invoke args).run s = .ok n s') ↔
      6 ≤ freeSlots ∧ ∃ netArgs, matchParameters P I paramInfo args = .ok (some netArgs) ∧
        ∃ s', (invoke netArgs).run s = .ok () s' := by
  rw [callMethod]
  split
  · constructor
    · rintro ⟨n, s', hs'⟩
      cases hs'
    · intro hslots
      omega
  cases hmatch : matchParameters P I paramInfo args with
  | error e =>
    constructor
    · rintro ⟨n, s', hs'⟩
      cases hs'
    · rintro ⟨_, netArgs, hnet, _⟩
      cases hnet
  | ok result =>
    cases result with
    | none =>
      constructor
      · rintro ⟨n, s', hs'⟩
        cases hs'
      · rintro ⟨_, netArgs, hnet, _⟩
        cases hnet
    | some netArgs =>
      dsimp only
      split
      · constructor
        · rintro ⟨n, s', hs'⟩
          cases hs'
        · intro hslots
          omega
      rw [EStateM.run_bind, EStateM.run_adaptExcept]
      cases hinvoke : (invoke netArgs).run s with
      | ok _ s₁ => exact ⟨fun _ => ⟨by omega, netArgs, rfl, s₁, hinvoke⟩, fun _ => ⟨1, s₁, rfl⟩⟩
      | error e s₁ =>
        constructor
        · rintro ⟨n, s', hs'⟩
          cases hs'
        · rintro ⟨_, _, ⟨⟩, s', hs'⟩
          rw [hinvoke] at hs'
          cases hs'

end Invocation

/-! ## Which arguments match -/

section Match

variable {P : Platform} {I : Interop} {args : List LuaValue} {e : ExtractValue}

theorem isParamsArray_table (t : TableId) :
    isParamsArray I (some (.table t)) printParameter = some .getAsTable := rfl

theorem isParamsArray_of_ne_table {v : Option LuaValue} (hv : ∀ t, v ≠ some (.table t)) :
    isParamsArray I v printParameter = some .getAsObject := by
  rw [isParamsArray]
  · rfl
  · exact hv

/-- An argument of the type of the parameter is the only one. -/
theorem matchParameters_typed
    (htype : isTypeCorrect I args[0]? printParameter = some e) :
    matchParameters P I [printParameter] args =
      .ok (if args.length = 1 then some [.object (extract P I args[0]? e)]
        else none) := by
  rw [matchParameters, matchParametersFrom]
  simp only [Nat.sub_self, htype, matchParametersFrom]
  by_cases hlen : args.length = 1
  · rw [if_pos hlen, if_pos (by omega)]
    rfl
  · rw [if_neg hlen, if_neg (by omega)]
    rfl

/-- Otherwise the arguments go into an array, which has to use them up. -/
theorem matchParameters_array (htype : isTypeCorrect I args[0]? printParameter = none)
    (harray : isParamsArray I args[0]? printParameter = some e) :
    matchParameters P I [printParameter] args =
      (tableToArray P I args e 1 args.length).map (fun result =>
        if result.2 = args.length + 1 then some [.array result.1] else none) := by
  rw [matchParameters, matchParametersFrom]
  simp only [Nat.sub_self, htype, harray, matchParametersFrom]
  rw [show (args.length : Int) - (1 : Nat) + 1 = args.length from by omega]
  cases tableToArray P I args e 1 args.length with
  | error exception => rfl
  | ok result =>
    change Except.ok (Option.map (NetArgument.array result.1 :: ·)
      (if result.2 = args.length + 1 then some [] else none)) = _
    rw [apply_ite (Option.map _)]
    rfl

/-- `Lua.GetTableDict` fails on a key that becomes null, and on nothing else. -/
theorem dictionary_eq_ok (t : LuaTable) (dict : NetDictionary) : t.dictionary P = .ok dict ↔
    (∀ e ∈ t.entries, P.getObject e.1 ≠ .null) ∧ dict = t.netDictionary P := by
  rw [LuaTable.dictionary, LuaTable.netDictionary]
  generalize t.entries = entries
  generalize hstart : ([] : NetDictionary) = start
  clear hstart
  induction entries generalizing start with
  | nil =>
    constructor
    · rintro ⟨⟩
      exact ⟨fun e he => absurd he List.not_mem_nil, rfl⟩
    · rintro ⟨_, rfl⟩
      rfl
  | cons e entries ih =>
    rw [List.foldlM_cons, List.foldl_cons, List.forall_mem_cons]
    by_cases hkey : P.getObject e.1 = .null
    · rw [if_pos hkey]
      constructor
      · rintro ⟨⟩
      · rintro ⟨⟨hne, _⟩, _⟩
        exact absurd hkey hne
    · rw [if_neg hkey, and_iff_right hkey]
      exact ih _

theorem paramArrayValue_prints (o : NetObject) :
    (∃ item, paramArrayValue I o = .ok item ∧ Prints P item) ↔ PrintsFromTable P I o := by
  cases o with
  | number bits =>
    rw [paramArrayValue, toInt32OfDouble, PrintsFromTable]
    split
    · cases hn : Binary64.toInt32? bits with
      | none =>
        constructor
        · rintro ⟨_, ⟨⟩, _⟩
        · intro hsome
          cases hsome ‹_›
      | some n => exact ⟨fun _ _ => rfl, fun _ => ⟨.int n, rfl, _, rfl⟩⟩
    · exact ⟨fun _ h => absurd h ‹_›, fun _ => ⟨.number bits, rfl, _, rfl⟩⟩
  | object o =>
    change (∃ item, changeType I (.object o) = .ok item ∧ _) ↔ _
    rw [changeType, PrintsFromTable]
    split
    · constructor
      · rintro ⟨_, ⟨⟩, hprints⟩
        exact ⟨‹_›, hprints⟩
      · rintro ⟨_, hprints⟩
        exact ⟨_, rfl, hprints⟩
    · constructor
      · rintro ⟨_, ⟨⟩, _⟩
      · rintro ⟨hconv, _⟩
        exact absurd hconv ‹_›
  | null =>
    constructor
    · rintro ⟨_, ⟨⟩, _, ⟨⟩⟩
    · exact False.elim
  | boolean b => exact ⟨fun _ => trivial, fun _ => ⟨.boolean b, rfl, _, rfl⟩⟩
  | int n => exact ⟨fun _ => trivial, fun _ => ⟨.int n, rfl, _, rfl⟩⟩
  | string text => exact ⟨fun _ => trivial, fun _ => ⟨.string text, rfl, _, rfl⟩⟩
  | luaTable _ | luaFunction _ | luaUserData _ | commandArgs _ =>
    constructor
    · rintro ⟨_, ⟨⟩, _⟩
    · exact False.elim

/-- A table in the first place is taken apart, and takes up one argument. -/
theorem tableToArray_table (t : TableId) (rest : List LuaValue) :
    (∃ array next, tableToArray P I (.table t :: rest) .getAsTable 1 (rest.length + 1 : Nat) =
        .ok (array, next) ∧ next = rest.length + 2 ∧ ∀ o ∈ array, Prints P o) ↔
      rest = [] ∧ (∀ e ∈ (I.tables t).entries, P.getObject e.1 ≠ .null) ∧
        ∀ o ∈ (I.tables t).netValues P, PrintsFromTable P I o := by
  have hrun : tableToArray P I (.table t :: rest) .getAsTable 1 (rest.length + 1 : Nat) = (do
      let dict ← (I.tables t).dictionary P
      let array ← (dict.map Prod.snd).mapM (paramArrayValue I)
      pure (array, 2)) := by
    rw [tableToArray, if_neg (by omega)]
    rfl
  have hdict := dictionary_eq_ok (P := P) (I.tables t)
  rw [hrun]
  cases hd : (I.tables t).dictionary P with
  | error e =>
    constructor
    · rintro ⟨_, _, ⟨⟩, _⟩
    · rintro ⟨_, hkeys, _⟩
      rw [(hdict _).mpr ⟨hkeys, rfl⟩] at hd
      cases hd
  | ok dict =>
    obtain ⟨hkeys, rfl⟩ := (hdict dict).mp hd
    rw [and_iff_right hkeys]
    have hvalues := mapM_eq_ok_forall (Q := Prints P) (f := paramArrayValue I)
      ((I.tables t).netValues P)
    simp only [paramArrayValue_prints] at hvalues
    rw [← hvalues]
    change (∃ array next, (do
      let array ← ((I.tables t).netValues P).mapM (paramArrayValue I)
      pure (array, 2)) = Except.ok (array, next) ∧ _) ↔ _
    cases ((I.tables t).netValues P).mapM (paramArrayValue I) with
    | error e =>
      constructor
      · rintro ⟨_, _, ⟨⟩, _⟩
      · rintro ⟨_, _, ⟨⟩, _⟩
    | ok array =>
      constructor
      · rintro ⟨_, _, ⟨⟩, hnext, hprints⟩
        exact ⟨List.length_eq_zero_iff.mp (by omega), array, rfl, hprints⟩
      · rintro ⟨rfl, _, ⟨⟩, hprints⟩
        exact ⟨array, 2, rfl, rfl, hprints⟩

/-- Other arguments become the elements of the array as they are. -/
theorem tableToArray_values {v : LuaValue} {rest : List LuaValue} (hv : ∀ t, v ≠ .table t) :
    tableToArray P I (v :: rest) .getAsObject 1 (rest.length + 1 : Nat) =
      .ok ((v :: rest).map (fun w => P.getObject (I.asObject w)), rest.length + 2) := by
  have hlist : (List.range rest.length).map (fun i =>
      extract P I (v :: rest)[1 + i]? .getAsObject) =
        rest.map (fun w => P.getObject (I.asObject w)) := by
    apply List.ext_getElem
    · simp
    · intro i h₁ h₂
      rw [List.length_map] at h₂
      simp [extract, Nat.add_comm 1 i, h₂]
  have hfirst : extract P I (v :: rest)[1 - 1]? .getAsObject = P.getObject (I.asObject v) := rfl
  have htable (t : TableId) : P.getObject (I.asObject v) ≠ .luaTable t := by
    cases v with
    | table t' => exact absurd rfl (hv t')
    | _ => rintro ⟨⟩
  rw [tableToArray, if_neg (by omega), hfirst]
  split
  · exact absurd ‹_› (htable _)
  · rw [if_neg (by omega)]
    rw [Int.toNat_natCast, Nat.add_sub_cancel, hlist, Nat.add_comm 1]
    rfl

theorem isTypeCorrect_table (t : TableId) :
    isTypeCorrect I (some (.table t)) printParameter =
      if I.isArray (some (I.metaIndex t)) then some .getAsNetObject else none := rfl

theorem isTypeCorrect_value {v : LuaValue} (hnil : v ≠ .nil) (htable : ∀ t, v ≠ .table t) :
    isTypeCorrect I (some v) printParameter =
      if I.isArray (some v) then some .getAsNetObject else none := by
  cases v with
  | nil => exact absurd rfl hnil
  | table t => exact absurd rfl (htable t)
  | _ => rfl

/-- The array that is printed when the argument is an array itself. -/
theorem toArray_prints {v : LuaValue} (harray : I.isArray (some v)) :
    (∃ args, I.toArray (.object ((getNetObject (some v)).elim .null .object)) = .ok args ∧
      ∀ items, args = some items → ∀ o ∈ items, Prints P o) ↔
        ∀ o ∈ I.elementsOf v, Prints P o := by
  cases v with
  | object o =>
    change (I.elements o).isSome = true at harray
    obtain ⟨items, hitems⟩ := Option.isSome_iff_exists.mp harray
    change (∃ args, I.toArray (.object (.object o)) = .ok args ∧ _) ↔
      ∀ o' ∈ (I.elements o).getD [], Prints P o'
    rw [Interop.toArray, hitems]
    constructor
    · rintro ⟨_, ⟨⟩, hprints⟩
      exact hprints items rfl
    · intro hprints
      refine ⟨_, rfl, ?_⟩
      rintro _ ⟨⟩
      exact hprints
  | _ => cases harray

end Match

/-! ## When print returns -/

section Returns

variable {P : Platform} {I : Interop} {fileName : String} {freeSlots : Nat} {s : Console}

theorem array_returns {netArgs : NetArgument} {args : List LuaValue}
    (hmatch : matchParameters P I [printParameter] args =
      .ok (if args.length = 1 then some [netArgs] else none)) :
    (∃ n s', (print P I freeSlots fileName args).run s = .ok n s') ↔
      6 ≤ freeSlots ∧ args.length = 1 ∧ ∃ args, I.toArray netArgs = .ok args ∧
        ∀ items, args = some items → ∀ o ∈ items, Prints P o := by
  rw [print, callMethod_returns, hmatch]
  apply and_congr_right'
  constructor
  · rintro ⟨netArgs', hnet, hinvoke⟩
    split at hnet
    · cases hnet
      exact ⟨‹_›, (invokePrint_returns _ s).mp hinvoke⟩
    · cases hnet
  · rintro ⟨hlen, hprints⟩
    rw [if_pos hlen]
    exact ⟨_, rfl, (invokePrint_returns _ s).mpr hprints⟩

theorem items_returns {args : List LuaValue} {e : ExtractValue}
    (htype : isTypeCorrect I args[0]? printParameter = none)
    (harray : isParamsArray I args[0]? printParameter = some e) :
    (∃ n s', (print P I freeSlots fileName args).run s = .ok n s') ↔
      6 ≤ freeSlots ∧ ∃ array next, tableToArray P I args e 1 args.length = .ok (array, next) ∧
        next = args.length + 1 ∧ ∀ o ∈ array, Prints P o := by
  rw [print, callMethod_returns, matchParameters_array htype harray]
  apply and_congr_right'
  cases tableToArray P I args e 1 args.length with
  | error e =>
    constructor
    · rintro ⟨_, ⟨⟩, _⟩
    · rintro ⟨_, _, ⟨⟩, _⟩
  | ok result =>
    obtain ⟨array, next⟩ := result
    change (∃ netArgs, Except.ok
      (if next = args.length + 1 then some [NetArgument.array array] else none) =
        Except.ok (some netArgs) ∧ _) ↔ _
    constructor
    · rintro ⟨netArgs, hnet, hinvoke⟩
      split at hnet
      · cases hnet
        obtain ⟨_, ⟨⟩, hprints⟩ := (invokePrint_returns _ s).mp hinvoke
        exact ⟨array, next, rfl, ‹_›, hprints array rfl⟩
      · cases hnet
    · rintro ⟨_, _, ⟨⟩, hnext, hprints⟩
      rw [if_pos hnext]
      refine ⟨_, rfl, (invokePrint_returns _ s).mpr ⟨_, rfl, ?_⟩⟩
      rintro _ ⟨⟩
      exact hprints

theorem length_cons_eq_one {α : Type} {a : α} {l : List α} : (a :: l).length = 1 ↔ l = [] := by
  rw [List.length_cons, Nat.add_eq_right, List.length_eq_zero_iff]

/-- A call of `print` returns exactly for the arguments that it takes, on a stack with room for
the call. -/
theorem print_returns_iff (P : Platform) (I : Interop) (freeSlots : Nat) (fileName : String)
    (args : List LuaValue) (s : Console) :
    (∃ n s', (print P I freeSlots fileName args).run s = .ok n s') ↔
      6 ≤ freeSlots ∧ PrintArguments P I args := by
  cases args with
  | nil =>
    rw [items_returns (e := .getAsObject) rfl rfl]
    apply and_congr_right'
    constructor
    · intro _
      trivial
    · intro _
      exact ⟨[], 1, rfl, rfl, by simp⟩
  | cons v rest =>
    by_cases hnil : v = .nil
    · subst hnil
      rw [array_returns (matchParameters_typed (e := .getAsNetObject) rfl)]
      apply and_congr_right'
      constructor
      · rintro ⟨hlen, _⟩
        exact List.length_eq_zero_iff.mp (Nat.succ.inj hlen)
      · rintro ⟨⟩
        refine ⟨rfl, none, rfl, ?_⟩
        rintro _ ⟨⟩
    by_cases htable : ∃ t, v = .table t
    · obtain ⟨t, rfl⟩ := htable
      have htype := isTypeCorrect_table (I := I) t
      rw [PrintArguments]
      split at htype
      · rw [array_returns (matchParameters_typed htype), if_pos ‹_›]
        apply and_congr_right'
        refine and_congr length_cons_eq_one ?_
        by_cases htag : I.tagged (I.metaIndex t) = true
        · rw [forall_prop_of_true htag, ← toArray_prints ‹_›]
          rw [List.getElem?_cons_zero, extract, if_pos htag]
        · rw [List.getElem?_cons_zero, extract, if_neg htag]
          refine iff_of_true ⟨none, rfl, ?_⟩ (fun h => absurd h htag)
          rintro _ ⟨⟩
      · rw [items_returns htype (isParamsArray_table t), if_neg ‹_›]
        apply and_congr_right'
        exact tableToArray_table t rest
    have hv : ∀ t, v ≠ .table t := fun t ht => htable ⟨t, ht⟩
    have htype := isTypeCorrect_value (I := I) hnil hv
    have harguments : PrintArguments P I (v :: rest) ↔
        if I.isArray (some v) then rest = [] ∧ ∀ o ∈ I.elementsOf v, Prints P o
        else ∀ w ∈ v :: rest, Prints P (P.getObject (I.asObject w)) := by
      cases v with
      | nil => exact absurd rfl hnil
      | table t => exact absurd rfl (hv t)
      | _ => rfl
    rw [harguments]
    split at htype
    · rw [array_returns (matchParameters_typed htype), if_pos ‹_›]
      apply and_congr_right'
      refine and_congr length_cons_eq_one ?_
      rw [← toArray_prints ‹_›, List.getElem?_cons_zero, extract]
      exact fun t ht => hv t (Option.some.inj ht)
    · rw [items_returns htype (isParamsArray_of_ne_table (fun t ht => hv t (Option.some.inj ht))),
        if_neg ‹_›]
      apply and_congr_right'
      rw [← List.forall_mem_map (f := fun w => P.getObject (I.asObject w)) (P := Prints P)]
      constructor
      · rintro ⟨array, next, hrun, _, hprints⟩
        cases (tableToArray_values hv).symm.trans hrun
        exact hprints
      · intro hprints
        exact ⟨_, _, tableToArray_values hv, rfl, hprints⟩

end Returns

/-- A bridge without tables and objects. -/
def plainInterop : Interop where
  tables _ := ∅
  metaIndex _ := .nil
  tagged _ := false
  elements _ := none
  convertible _ := false

/-- `print(true, nil)` raises an error after the first line, and leaves the console green. -/
theorem print_nil_fails :
    (print asciiPlatform plainInterop 20 "foo" [.boolean true, .nil]).run
        { foregroundColor := 7, lines := [] } =
      .error (.luaException .nullReference)
        { foregroundColor := green, lines := ["[Addon] (foo) True"] } := by
  rfl

end LuaAddons
