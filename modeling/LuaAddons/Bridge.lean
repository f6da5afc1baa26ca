import LuaAddons.LuaApi
import LuaAddons.Outcomes
import LuaAddons.Lib.Exec
import LuaAddons.Lib.References

/-!
# References of managed objects

A table, a function or a userdata that reaches .NET becomes a managed object (`NLua/LuaBase.cs`)
with a reference of the registry (`luaL_ref`). `Dispose` releases the reference; the
finalizer, which calls `Dispose(false)`, does not.

`InvokeEvent` and `InvokeCommand` are followed down to the references they take: the null test
of the global, the walk along the path (`Lua.cs`, `ObjectTranslator.cs`), the call and its
results. `Interp` is the Lua side: it reads and changes what it likes of `W`, its handlers may
do anything but take references.
-/

namespace LuaAddons

open Exec

variable {W : Type}

/-! ## The bridge -/

/-- What the bridge asks of a Lua state, and the state of the addon beside it. -/
structure Interp (W : Type) where
  /-- `Addon.State`. -/
  state : W → AddonState
  /-- The `catch` block of `InvokeEvent` and `InvokeCommand`. -/
  fail : NetException → W → W
  /-- `lua_getglobal`. -/
  getGlobal : LuaString → W → LuaValue
  /-- `lua_gettable`, `none` when it raises an error. -/
  getTable : LuaValue → LuaString → W → Option LuaValue × W
  /-- `lua_pcall`: the results, or the error value. -/
  call : LuaValue → List NetObject → W → Except LuaValue (List LuaValue) × W
  /-- Whether a .NET object is a `LuaNativeFunction`. -/
  isNativeFunction : Nat → Bool

/-- A managed object: `LuaTable`, `LuaFunction` or `LuaUserData`. -/
structure LuaBase where
  type : LuaTypes
  /-- `_Reference`. -/
  reference : Nat
  /-- The field `function` of a `LuaFunction`. -/
  native : Option Nat
  disposed : Bool

def LuaBase.new (type : LuaTypes) (reference : Nat) (native : Option Nat) : LuaBase :=
  { type := type, reference := reference, native := native, disposed := false }

/-- A Lua state with its registry, and the managed objects made from it. -/
structure Bridge (W : Type) where
  refs : RefTable LuaValue
  objects : List LuaBase
  addon : W

/-- The registry as `luaL_newstate` leaves it: the main thread and the table of the globals. -/
def newRegistry : RefTable LuaValue :=
  { length := 2, free := [], value := fun r => if r = 1 then .thread 0 else .table 1 }

theorem newRegistry_valid : newRegistry.Valid := ⟨List.nodup_nil, by simp [newRegistry]⟩

def Bridge.setAddon (s : Bridge W) (w : W) : Bridge W := { s with addon := w }

/-- A .NET object that came from Lua. -/
inductive BridgeObject where
  | null
  | plain (v : LuaValue)
  /-- The managed object with this number. -/
  | base (id : Nat)
  deriving DecidableEq

abbrev BridgeMethod (W : Type) := EStateM NetException (Bridge W)

/-- A step of the Lua side. -/
def onAddon {α : Type} (f : W → α × W) : BridgeMethod W α :=
  modifyGet (fun s => ((f s.addon).1, s.setAddon (f s.addon).2))

/-- `ObjectTranslator.GetObject` gives null. -/
def LuaValue.isNull : LuaValue → Bool
  | .nil => true
  | .lightUserdata _ => true
  | .thread _ => true
  | _ => false

/-- `ObjectTranslator.GetObject` makes a managed object. -/
def LuaValue.isReferenced : LuaValue → Bool
  | .table _ => true
  | .function _ => true
  | .userdata _ => true
  | _ => false

/-- `ObjectTranslator.GetTable`, `GetFunction` and `GetUserData`: a managed object with a new
reference to the value. -/
def Bridge.newObject (s : Bridge W) (v : LuaValue) : Bridge W :=
  { s with
    refs := (s.refs.ref v).2
    objects := s.objects ++ [.new v.type (s.refs.ref v).1 none] }

/-- A `LuaFunction` for a delegate has no reference. -/
def Bridge.newNative (s : Bridge W) (o : Nat) : Bridge W :=
  { s with objects := s.objects ++ [.new .function 0 (some o)] }

/-- `ObjectTranslator.GetObject`. -/
def getBridgeObject (v : LuaValue) : BridgeMethod W BridgeObject := do
  if v.isNull then pure .null
  else if v.isReferenced then
    let s ← get
    set (s.newObject v)
    pure (.base s.objects.length)
  else pure (.plain v)

/-- `LuaBase.Dispose(disposeManagedResources)` on the registry. -/
def LuaBase.dispose (b : LuaBase) (disposeManagedResources : Bool) (refs : RefTable LuaValue) :
    LuaBase × RefTable LuaValue :=
  if b.disposed then (b, refs)
  else
    ({ b with disposed := true },
      if disposeManagedResources && b.reference != 0 then refs.unref b.reference else refs)

/-- `LuaBase.Dispose()`. -/
def disposeObject (id : Nat) : BridgeMethod W Unit :=
  modify (fun s =>
    match s.objects[id]? with
    | none => s
    | some b =>
      { s with
        objects := s.objects.set id (b.dispose true s.refs).1
        refs := (b.dispose true s.refs).2 })

/-- The finalizers of the managed objects from the number `n` on. -/
def finalizeFrom (n : Nat) (s : Bridge W) : Bridge W :=
  { s with
    objects := s.objects.take n ++ (s.objects.drop n).map (fun b => (b.dispose false s.refs).1)
    refs := (s.objects.drop n).foldl (fun refs b => (b.dispose false refs).2) s.refs }

/-! ## Reading a path -/

section Methods

variable (P : Platform) (I : Interp W)

/-- `Lua.GetObject(remainingPath)` on the value on top of the stack. -/
def getObjectPath (v : LuaValue) : List String → BridgeMethod W BridgeObject
  | [] => pure .null
  | piece :: rest => do
    match ← onAddon (I.getTable v (P.luaPushString piece)) with
    | none => throw .luaPanic
    | some x => do
      let returnValue ← getBridgeObject x
      if returnValue = .null ∨ rest = [] then pure returnValue else getObjectPath x rest

/-- `dispose.Dispose()` for an object that is a `LuaBase`. -/
def disposeBase : BridgeObject → BridgeMethod W Unit
  | .base id => disposeObject id
  | _ => pure ()

/-- `Lua.this[fullPath]` from the value of the global on: the object of the global is disposed
when the path goes on. -/
def getItemOf (v : LuaValue) (remainingPath : List String) : BridgeMethod W BridgeObject := do
  let returnValue ← getBridgeObject v
  if remainingPath = [] then pure returnValue
  else
    let result ← getObjectPath P I v remainingPath
    disposeBase returnValue
    pure result

/-- `Lua.this[fullPath]`. -/
def getItem (fullPath : String) : BridgeMethod W BridgeObject := do
  let s ← get
  getItemOf P I (I.getGlobal (P.luaPushString (firstWord '.' fullPath)) s.addon)
    (split '.' fullPath).tail

/-- The casts of `Lua.GetFunction`: a delegate gets a `LuaFunction` of its own. -/
def asLuaFunction : BridgeObject → BridgeMethod W (Option Nat)
  | .null => pure none
  | .base id => do
    let s ← get
    match s.objects[id]? with
    | some b => if b.type = .function then pure (some id) else throw (.exception "InvalidCast")
    | none => throw .nullReference
  | .plain (.object o) =>
    if I.isNativeFunction o then do
      let s ← get
      set (s.newNative o)
      pure (some s.objects.length)
    else throw (.exception "InvalidCast")
  | .plain _ => throw (.exception "InvalidCast")

/-- `Lua.GetFunction(fullPath)`, the number of the `LuaFunction`. -/
def getLuaFunction (fullPath : String) : BridgeMethod W (Option Nat) := do
  let obj ← getItem P I fullPath
  asLuaFunction I obj

/-- The value that `LuaFunction.Push` pushes. -/
def functionValue (id : Nat) (s : Bridge W) : LuaValue :=
  match s.objects[id]? with
  | none => .nil
  | some b =>
    match b.native with
    | some o => .object o
    | none => s.refs.value b.reference

/-- `LuaFunction.Call`: an error value becomes an object before it is thrown. -/
def callLuaFunction (id : Nat) (args : List NetObject) :
    BridgeMethod W (Option (List BridgeObject)) := do
  let s ← get
  match ← onAddon (I.call (functionValue id s) args) with
  | .error e => do
    let _ ← getBridgeObject e
    throw .luaScript
  | .ok [] => pure none
  | .ok values => do
    let objects ← values.mapM getBridgeObject
    pure (some objects)

/-- The `try` block of `InvokeEvent` and `InvokeCommand` once the global is read. -/
def callNamed (table name : String) (args : List NetObject) (t : BridgeObject) :
    BridgeMethod W (Option (List BridgeObject)) := do
  if t = .null then pure none
  else
    match ← getLuaFunction P I (table ++ "." ++ name) with
    | none => pure none
    | some id => callLuaFunction I id args

/-- `Addon.InvokeEvent` and `Addon.InvokeCommand` on the global `table`. -/
def invokeBridge (table name : String) (args : List NetObject) :
    BridgeMethod W (Option (List BridgeObject)) := do
  let s ← get
  if I.state s.addon ≠ .ok then pure none
  else
    tryCatch
      (do
        let t ← getItem P I table
        callNamed P I table name args t)
      (fun ex => do
        modify (fun s => s.setAddon (I.fail ex s.addon))
        pure none)

end Methods

/-- A call of `InvokeEvent` or of `InvokeCommand`. -/
inductive AddonCall where
  | event (name : String) (args : List NetObject)
  | command (name : String) (args : CommandArgs)

namespace AddonCall

def table : AddonCall → String
  | event _ _ => "__addon_events"
  | command _ _ => "__addon_commands"

def name : AddonCall → String
  | event name _ => name
  | command name _ => name

def args : AddonCall → List NetObject
  | event _ args => args
  | command _ args => [.commandArgs args]

end AddonCall

/-- The calls of a sequence one after the other. -/
def invokeAll (P : Platform) (I : Interp W) (s : Bridge W) (calls : List AddonCall) : Bridge W :=
  calls.foldl (fun s c => after (invokeBridge P I c.table c.name c.args) s) s

/-! ## References only grow -/

/-- No live reference is released. -/
def RefsGrow (s s' : Bridge W) : Prop :=
  s.refs.Valid → s'.refs.Valid ∧ s.refs.live ⊆ s'.refs.live

/-- No managed object is disposed. -/
def NewObjects (s s' : Bridge W) : Prop := s.objects <+: s'.objects

instance : IsPreorder (Bridge W) RefsGrow where
  refl _ h := ⟨h, Finset.Subset.refl _⟩
  trans _ _ _ h₁ h₂ h := by
    obtain ⟨hvalid, hsub⟩ := h₁ h
    obtain ⟨hvalid', hsub'⟩ := h₂ hvalid
    exact ⟨hvalid', hsub.trans hsub'⟩

instance : IsPreorder (Bridge W) NewObjects where
  refl s := List.prefix_refl s.objects
  trans _ _ _ h₁ h₂ := List.IsPrefix.trans h₁ h₂

theorem grows_of_refs {s s' : Bridge W} (h : s'.refs = s.refs) : RefsGrow s s' := by
  intro hvalid
  rw [h]
  exact ⟨hvalid, Finset.Subset.refl _⟩

section Values

variable {s : Bridge W} {v : LuaValue}

theorem newObject_grows (s : Bridge W) (v : LuaValue) : RefsGrow s (s.newObject v) := by
  intro hvalid
  refine ⟨RefTable.valid_ref hvalid v, ?_⟩
  show _ ⊆ (s.refs.ref v).2.live
  rw [RefTable.live_ref hvalid]
  exact Finset.subset_insert _ _

/-- The reference of a new managed object is live and was not. -/
theorem newObject_reference (hvalid : s.refs.Valid) (v : LuaValue) :
    (s.refs.ref v).1 ∈ (s.newObject v).refs.live ∧ (s.refs.ref v).1 ∉ s.refs.live := by
  refine ⟨?_, RefTable.ref_not_mem_live _ _⟩
  show _ ∈ (s.refs.ref v).2.live
  rw [RefTable.live_ref hvalid]
  exact Finset.mem_insert_self _ _

theorem isNull_of_isReferenced (h : v.isReferenced = true) : v.isNull = false := by
  cases v <;> first | rfl | cases h

theorem run_getBridgeObject_referenced (h : v.isReferenced = true) :
    (getBridgeObject v).run s = .ok (.base s.objects.length) (s.newObject v) := by
  rw [getBridgeObject, isNull_of_isReferenced h, if_neg Bool.false_ne_true, if_pos h]
  rfl

/-- A value that takes no reference leaves the bridge as it is. -/
theorem run_getBridgeObject (h : v.isReferenced = false) :
    (getBridgeObject v).run s = .ok (if v.isNull then .null else .plain v) s := by
  unfold getBridgeObject
  rw [h]
  cases v.isNull <;> rfl

theorem keeps_getBridgeObject (v : LuaValue) :
    Keeps RefsGrow (getBridgeObject v : BridgeMethod W BridgeObject) := by
  intro s
  cases h : v.isReferenced with
  | true =>
    rw [after_of_run (run_getBridgeObject_referenced h)]
    exact newObject_grows s v
  | false =>
    rw [after_of_run (run_getBridgeObject h)]
    exact refl_of _ s

theorem newObjects_getBridgeObject (v : LuaValue) :
    Keeps NewObjects (getBridgeObject v : BridgeMethod W BridgeObject) := by
  intro s
  cases h : v.isReferenced with
  | true =>
    rw [after_of_run (run_getBridgeObject_referenced h)]
    exact List.prefix_append _ _
  | false =>
    rw [after_of_run (run_getBridgeObject h)]
    exact refl_of _ s

end Values

theorem run_onAddon {α : Type} (f : W → α × W) (s : Bridge W) :
    (onAddon f).run s = .ok (f s.addon).1 (s.setAddon (f s.addon).2) := rfl

theorem keeps_onAddon {α : Type} (f : W → α × W) : Keeps RefsGrow (onAddon f) :=
  fun _ => grows_of_refs rfl

theorem newObjects_onAddon {α : Type} (f : W → α × W) : Keeps NewObjects (onAddon f) :=
  fun s => List.prefix_refl s.objects

variable {P : Platform} {I : Interp W}

/-- Both relations pass through the walk along a path. -/
theorem keeps_getObjectPath {R : Bridge W → Bridge W → Prop} [IsPreorder (Bridge W) R]
    (haddon : ∀ {α : Type} (f : W → α × W), Keeps R (onAddon f))
    (hobject : ∀ v, Keeps R (getBridgeObject v : BridgeMethod W BridgeObject)) :
    ∀ (path : List String) (v : LuaValue), Keeps R (getObjectPath P I v path) := by
  intro path
  induction path with
  | nil => exact fun v => keeps_pure _
  | cons piece rest ih =>
    intro v
    apply keeps_bind (haddon _)
    intro x
    cases x with
    | none => exact keeps_throw _
    | some x =>
      apply keeps_bind (hobject x)
      intro returnValue
      split
      · exact keeps_pure _
      · exact ih x

theorem disposeObject_refs {s : Bridge W} {id : Nat} {b : LuaBase} (hb : s.objects[id]? = some b)
    (hdisposed : b.disposed = false) (hreference : b.reference ≠ 0) :
    (after (disposeObject id) s).refs = s.refs.unref b.reference := by
  have hdispose : (b.dispose true s.refs).2 = s.refs.unref b.reference := by
    have hne : (true && b.reference != 0) = true := by simpa using hreference
    rw [LuaBase.dispose, hdisposed, if_neg Bool.false_ne_true, if_pos hne]
  show (match s.objects[id]? with | none => s | some b => _ : Bridge W).refs = _
  rw [hb]
  exact hdispose

/-- The managed object of the global is disposed after the walk: its reference is released, and
it was not live before. -/
theorem keeps_getItemOf (v : LuaValue) (path : List String) :
    Keeps RefsGrow (getItemOf P I v path) := by
  intro s
  unfold getItemOf
  by_cases hpath : path = []
  · simp only [if_pos hpath]
    exact keeps_bind (keeps_getBridgeObject _) (fun _ => keeps_pure _) s
  · simp only [if_neg hpath]
    cases hv : v.isReferenced with
    | false =>
      have hfirst := run_getBridgeObject (s := s) hv
      have hbase : Keeps RefsGrow (disposeBase (if v.isNull then .null else .plain v) :
          BridgeMethod W Unit) := by
        split <;> exact keeps_pure _
      rw [after, run_bind_of_ok hfirst]
      exact keeps_bind (keeps_getObjectPath keeps_onAddon keeps_getBridgeObject path v)
        (fun _ => keeps_bind hbase (fun _ => keeps_pure _)) s
    | true =>
      have hfirst := run_getBridgeObject_referenced (s := s) hv
      have hgrows := keeps_getObjectPath (P := P) (I := I) keeps_onAddon keeps_getBridgeObject
        path v (s.newObject v)
      have hobjects := keeps_getObjectPath (P := P) (I := I) newObjects_onAddon
        newObjects_getBridgeObject path v (s.newObject v)
      rw [after, run_bind_of_ok hfirst, EStateM.run_bind]
      intro hvalid
      obtain ⟨hvalid₁, hsub₁⟩ := newObject_grows s v hvalid
      obtain ⟨hlive, hnew⟩ := newObject_reference hvalid v
      unfold after at hgrows hobjects
      cases hr : (getObjectPath P I v path).run (s.newObject v) with
      | error e s₂ =>
        rw [hr] at hgrows
        obtain ⟨hvalid₂, hsub₂⟩ := hgrows hvalid₁
        exact ⟨hvalid₂, hsub₁.trans hsub₂⟩
      | ok result s₂ =>
        rw [hr] at hgrows hobjects
        obtain ⟨hvalid₂, hsub₂⟩ := hgrows hvalid₁
        have hb : s₂.objects[s.objects.length]? = some (.new v.type (s.refs.ref v).1 none) := by
          obtain ⟨rest, hrest⟩ := hobjects
          rw [final_ok] at hrest
          rw [← hrest]
          simp [Bridge.newObject]
        have hmem := hsub₂ hlive
        have hreference : (s.refs.ref v).1 ≠ 0 := by
          have hpos := (RefTable.mem_live.mp hmem).1
          omega
        have hrefs := disposeObject_refs hb rfl hreference
        show (after (disposeObject s.objects.length) s₂).refs.Valid ∧
          s.refs.live ⊆ (after (disposeObject s.objects.length) s₂).refs.live
        rw [hrefs]
        refine ⟨RefTable.valid_unref hvalid₂ hmem, ?_⟩
        rw [RefTable.live_unref]
        exact Finset.subset_erase.mpr ⟨hsub₁.trans hsub₂, hnew⟩

theorem keeps_getItem (fullPath : String) : Keeps RefsGrow (getItem P I fullPath) :=
  keeps_get_bind fun s => keeps_getItemOf _ _ s

theorem keeps_asLuaFunction (obj : BridgeObject) : Keeps RefsGrow (asLuaFunction I obj) := by
  cases obj with
  | null => exact keeps_pure _
  | base id =>
    apply keeps_get_bind
    intro s
    cases s.objects[id]? with
    | none => exact refl_of _ s
    | some b =>
      show RefsGrow s (after (if b.type = .function then pure (some id) else throw _) s)
      split <;> exact refl_of _ s
  | plain v =>
    cases v with
    | object o =>
      show Keeps RefsGrow (if I.isNativeFunction o then _ else _)
      split
      · exact fun s => grows_of_refs rfl
      · exact keeps_throw _
    | _ => exact keeps_throw _

theorem keeps_getLuaFunction (fullPath : String) : Keeps RefsGrow (getLuaFunction P I fullPath) :=
  keeps_bind (keeps_getItem fullPath) keeps_asLuaFunction

theorem keeps_callLuaFunction (id : Nat) (args : List NetObject) :
    Keeps RefsGrow (callLuaFunction I id args) := by
  apply keeps_get_bind
  intro s
  refine keeps_bind (keeps_onAddon _) (fun result => ?_) s
  cases result with
  | error e => exact keeps_bind (keeps_getBridgeObject e) (fun _ => keeps_throw _)
  | ok values =>
    cases values with
    | nil => exact keeps_pure _
    | cons v vs =>
      exact keeps_bind (keeps_mapM fun _ _ => keeps_getBridgeObject _) (fun _ => keeps_pure _)

/-! ## The values a call reads -/

theorem splitChars_append {sep : Char} {xs : List Char} (h : sep ∉ xs) (ys : List Char) :
    splitChars sep (xs ++ sep :: ys) = xs :: splitChars sep ys := by
  induction xs with
  | nil => rw [List.nil_append, splitChars, if_pos rfl]
  | cons c xs ih =>
    have hc : ¬ c = sep := fun hc => h (hc ▸ List.mem_cons_self)
    rw [List.cons_append, splitChars, if_neg hc, ih fun hx => h (List.mem_cons_of_mem _ hx)]

/-- The path of a function goes on behind the name of its table. -/
theorem split_table (c : AddonCall) (name : String) :
    split '.' (c.table ++ "." ++ name) = c.table :: split '.' name ∧
      split '.' c.table = [c.table] := by
  have hdot : '.' ∉ c.table.toList := by
    cases c with
    | event name args => show '.' ∉ "__addon_events".toList; decide
    | command name args => show '.' ∉ "__addon_commands".toList; decide
  have htable : split '.' c.table = [c.table] := by
    rw [split, splitChars_eq_singleton.mpr ⟨hdot, rfl⟩]
    simp
  refine ⟨?_, htable⟩
  have hchars : (c.table ++ "." ++ name).toList = c.table.toList ++ '.' :: name.toList := by
    simp
  rw [split, hchars, splitChars_append hdot]
  simp [split]

section Reads

variable (P I)

/-- The values along a path, the last of them (`none` when it cannot be indexed), and the Lua
side after the walk. -/
def readPath (v : LuaValue) : List String → W → List LuaValue × Option LuaValue × W
  | [], w => ([], some .nil, w)
  | piece :: rest, w =>
    let next := I.getTable v (P.luaPushString piece) w
    match next.1 with
    | none => ([], none, next.2)
    | some x =>
      if x.isNull ∨ rest = [] then ([x], some x, next.2)
      else (x :: (readPath x rest next.2).1, (readPath x rest next.2).2)

/-- What a Lua function leaves for the bridge. -/
def leftValues : Except LuaValue (List LuaValue) → List LuaValue
  | .ok values => values
  | .error e => [e]

/-- What calling the delegate at the end of a path leaves. -/
def delegateValues (args : List NetObject) : Option LuaValue → W → List LuaValue
  | some (.object o), w =>
    if I.isNativeFunction o then leftValues (I.call (.object o) args w).1 else []
  | _, _ => []

/-- The values a call reads from Lua: the global, the values along the path and, where these
end in a delegate, what calling it leaves. -/
def valuesRead (c : AddonCall) (w : W) : List LuaValue :=
  let v := I.getGlobal (P.luaPushString c.table) w
  let path := readPath P I v (split '.' c.name) w
  v :: path.1 ++ delegateValues I c.args path.2.1 path.2.2

/-- The addon is not in State Ok, or the global reads as null, or the call reads no value that
takes a reference. -/
def QuietCall (c : AddonCall) (w : W) : Prop :=
  I.state w ≠ .ok ∨ (I.getGlobal (P.luaPushString c.table) w).isNull = true ∨
    ∀ x ∈ valuesRead P I c w, x.isReferenced = false

end Reads

theorem mem_delegateValues {args : List NetObject} {last : Option LuaValue} {w : W}
    {x : LuaValue} :
    x ∈ delegateValues I args last w ↔
      ∃ o, last = some (.object o) ∧ I.isNativeFunction o = true ∧
        x ∈ leftValues (I.call (.object o) args w).1 := by
  constructor
  · intro hx
    unfold delegateValues at hx
    split at hx
    · split at hx
      · exact ⟨_, rfl, ‹_›, hx⟩
      · cases hx
    · cases hx
  · rintro ⟨o, rfl, hnative, hx⟩
    rw [delegateValues, if_pos hnative]
    exact hx

/-- A reference is live in the end that was not live before. -/
def Leaks (s s' : Bridge W) : Prop := ∃ r ∈ s'.refs.live, r ∉ s.refs.live

theorem Leaks.grows {s s₁ s₂ : Bridge W} (h : Leaks s s₁) (hg : RefsGrow s₁ s₂)
    (hvalid : s₁.refs.Valid) : Leaks s s₂ := by
  obtain ⟨r, hr, hnew⟩ := h
  exact ⟨r, (hg hvalid).2 hr, hnew⟩

theorem newObject_leaks {s : Bridge W} (hvalid : s.refs.Valid) (v : LuaValue) :
    Leaks s (s.newObject v) :=
  ⟨_, newObject_reference hvalid v⟩

/-- A walk past a value that takes a reference keeps that reference. -/
theorem getObjectPath_leaks : ∀ (path : List String) (v : LuaValue) (s : Bridge W),
    s.refs.Valid → (∃ x ∈ (readPath P I v path s.addon).1, x.isReferenced = true) →
      Leaks s (after (getObjectPath P I v path) s) := by
  intro path
  induction path with
  | nil =>
    rintro v s _ ⟨x, hx, _⟩
    cases hx
  | cons piece rest ih =>
    intro v s hvalid hread
    obtain ⟨x, hx, hreferenced⟩ := hread
    rw [readPath] at hx
    rw [getObjectPath, after, run_bind_of_ok (run_onAddon _ s)]
    cases hnext : (I.getTable v (P.luaPushString piece) s.addon).1 with
    | none =>
      rw [hnext] at hx
      cases hx
    | some y =>
      rw [hnext] at hx
      have hvalid₁ : (s.setAddon (I.getTable v (P.luaPushString piece) s.addon).2).refs.Valid :=
        hvalid
      cases hy : y.isReferenced with
      | true =>
        simp only
        rw [run_bind_of_ok (run_getBridgeObject_referenced hy)]
        apply (newObject_leaks hvalid₁ y).grows _ (newObject_grows _ y hvalid₁).1
        show RefsGrow _ (after (if _ then pure _ else getObjectPath P I y rest) _)
        split
        · exact refl_of _ _
        · exact keeps_getObjectPath keeps_onAddon keeps_getBridgeObject rest y _
      | false =>
        simp only at hx ⊢
        rw [run_bind_of_ok (run_getBridgeObject hy)]
        by_cases hlast : y.isNull = true ∨ rest = []
        · rw [if_pos hlast, List.mem_singleton] at hx
          rw [hx, hy] at hreferenced
          cases hreferenced
        · obtain ⟨hnull, hrest⟩ := not_or.mp hlast
          rw [if_neg hlast] at hx
          rw [if_neg hnull, if_neg (by simp [hrest])]
          rcases List.mem_cons.mp hx with rfl | hx
          · rw [hy] at hreferenced
            cases hreferenced
          · exact ih y _ hvalid₁ ⟨x, hx, hreferenced⟩

/-- A walk past no value that takes a reference takes none. -/
theorem run_getObjectPath : ∀ (path : List String) (v : LuaValue) (s : Bridge W),
    (∀ x ∈ (readPath P I v path s.addon).1, x.isReferenced = false) →
      (∀ x, (readPath P I v path s.addon).2.1 = some x →
        (getObjectPath P I v path).run s = .ok (if x.isNull then .null else .plain x)
          (s.setAddon (readPath P I v path s.addon).2.2)) ∧
      ((readPath P I v path s.addon).2.1 = none →
        (getObjectPath P I v path).run s = .error .luaPanic
          (s.setAddon (readPath P I v path s.addon).2.2)) := by
  intro path
  induction path with
  | nil =>
    intro v s _
    refine ⟨fun x hx => ?_, fun hx => by cases hx⟩
    cases hx
    rfl
  | cons piece rest ih =>
    intro v s hread
    rw [readPath] at hread ⊢
    rw [getObjectPath, run_bind_of_ok (run_onAddon _ s)]
    cases hnext : (I.getTable v (P.luaPushString piece) s.addon).1 with
    | none =>
      refine ⟨fun x hx => ?_, fun _ => rfl⟩
      cases hx
    | some y =>
      rw [hnext] at hread
      simp only at hread ⊢
      by_cases hlast : y.isNull = true ∨ rest = []
      · rw [if_pos hlast] at hread ⊢
        have hy := hread y (List.mem_singleton_self y)
        refine ⟨fun x hx => ?_, fun hx => by cases hx⟩
        cases hx
        rw [run_bind_of_ok (run_getBridgeObject hy)]
        have hdone : (if y.isNull = true then BridgeObject.null else .plain y) = .null ∨
            rest = [] := by
          rcases hlast with hnull | hrest
          · exact .inl (if_pos hnull)
          · exact .inr hrest
        rw [if_pos hdone]
        rfl
      · obtain ⟨hnull, hrest⟩ := not_or.mp hlast
        rw [if_neg hlast] at hread ⊢
        have hy := hread y List.mem_cons_self
        rw [run_bind_of_ok (run_getBridgeObject hy), if_neg hnull, if_neg (by simp [hrest])]
        exact ih y (s.setAddon (I.getTable v (P.luaPushString piece) s.addon).2)
          fun x hx => hread x (List.mem_cons_of_mem _ hx)

/-! ## The call and its results -/

/-- The references stay exactly as they are. -/
def SameRefs (s s' : Bridge W) : Prop := s'.refs = s.refs

instance : IsPreorder (Bridge W) SameRefs where
  refl _ := rfl
  trans _ _ _ h₁ h₂ := h₂.trans h₁

theorem run_mapM_getBridgeObject {values : List LuaValue}
    (h : ∀ x ∈ values, x.isReferenced = false) (s : Bridge W) :
    ∃ objects, (values.mapM getBridgeObject).run s = .ok objects s := by
  induction values with
  | nil => exact ⟨[], rfl⟩
  | cons v values ih =>
    obtain ⟨objects, hrun⟩ := ih fun x hx => h x (List.mem_cons_of_mem _ hx)
    rw [List.mapM_cons, run_bind_of_ok (run_getBridgeObject (h v List.mem_cons_self)),
      run_bind_of_ok hrun]
    exact ⟨_, rfl⟩

theorem mapM_leaks {values : List LuaValue} (h : ∃ x ∈ values, x.isReferenced = true)
    (s : Bridge W) (hvalid : s.refs.Valid) :
    Leaks s (after (values.mapM getBridgeObject) s) := by
  induction values with
  | nil =>
    obtain ⟨x, hx, _⟩ := h
    cases hx
  | cons v values ih =>
    have hrest : ∀ object : BridgeObject, Keeps RefsGrow (do
        let objects ← values.mapM getBridgeObject
        pure (object :: objects) : BridgeMethod W (List BridgeObject)) := fun _ =>
      keeps_bind (keeps_mapM fun _ _ => keeps_getBridgeObject _) (fun _ => keeps_pure _)
    rw [List.mapM_cons]
    cases hv : v.isReferenced with
    | true =>
      have hgrows := after_bind (R := RefsGrow) (x := getBridgeObject v) hrest s
      rw [after_of_run (run_getBridgeObject_referenced hv)] at hgrows
      exact (newObject_leaks hvalid v).grows hgrows (newObject_grows s v hvalid).1
    | false =>
      have htail : ∃ x ∈ values, x.isReferenced = true := by
        obtain ⟨x, hx, hreferenced⟩ := h
        rcases List.mem_cons.mp hx with rfl | hx
        · rw [hv] at hreferenced
          cases hreferenced
        · exact ⟨x, hx, hreferenced⟩
      have hgrows := after_bind (R := RefsGrow) (x := values.mapM getBridgeObject)
        (f := fun objects => pure ((if v.isNull then .null else .plain v) :: objects))
        (fun _ => keeps_pure _) s
      rw [after, run_bind_of_ok (run_getBridgeObject hv)]
      exact (ih htail).grows hgrows (keeps_mapM (fun _ _ => keeps_getBridgeObject _) s hvalid).1

section Call

variable (id : Nat) (args : List NetObject) (s : Bridge W)

theorem callLuaFunction_sameRefs
    (h : ∀ x ∈ leftValues (I.call (functionValue id s) args s.addon).1, x.isReferenced = false) :
    SameRefs s (after (callLuaFunction I id args) s) := by
  rw [callLuaFunction, after_get_bind, after, run_bind_of_ok (run_onAddon _ s)]
  cases hr : (I.call (functionValue id s) args s.addon).1 with
  | error e =>
    rw [hr] at h
    simp only
    rw [run_bind_of_ok (run_getBridgeObject (h e (List.mem_singleton_self e)))]
    rfl
  | ok values =>
    rw [hr] at h
    cases values with
    | nil => rfl
    | cons v vs =>
      have hvalues : ∀ x ∈ v :: vs, x.isReferenced = false := h
      obtain ⟨objects, hrun⟩ := run_mapM_getBridgeObject hvalues
        (s.setAddon (I.call (functionValue id s) args s.addon).2)
      simp only
      rw [run_bind_of_ok hrun]
      rfl

theorem callLuaFunction_leaks (hvalid : s.refs.Valid)
    (h : ∃ x ∈ leftValues (I.call (functionValue id s) args s.addon).1, x.isReferenced = true) :
    Leaks s (after (callLuaFunction I id args) s) := by
  rw [callLuaFunction, after_get_bind, after, run_bind_of_ok (run_onAddon _ s)]
  cases hr : (I.call (functionValue id s) args s.addon).1 with
  | error e =>
    obtain ⟨x, hx, hreferenced⟩ := h
    rw [hr, leftValues, List.mem_singleton] at hx
    rw [hx] at hreferenced
    simp only
    rw [run_bind_of_ok (run_getBridgeObject_referenced hreferenced)]
    exact newObject_leaks hvalid e
  | ok values =>
    rw [hr] at h
    cases values with
    | nil =>
      obtain ⟨x, hx, _⟩ := h
      cases hx
    | cons v vs =>
      have hgrows := after_bind (R := RefsGrow) (x := (v :: vs).mapM getBridgeObject)
        (f := fun objects => pure (some objects)) (fun _ => keeps_pure _)
        (s.setAddon (I.call (functionValue id s) args s.addon).2)
      have hvalues : ∃ x ∈ v :: vs, x.isReferenced = true := h
      have hleaks := mapM_leaks hvalues
        (s.setAddon (I.call (functionValue id s) args s.addon).2) hvalid
      have hkeeps : Keeps RefsGrow ((v :: vs).mapM getBridgeObject : BridgeMethod W _) :=
        keeps_mapM fun x _ => keeps_getBridgeObject x
      have hvalid₁ := (hkeeps (s.setAddon (I.call (functionValue id s) args s.addon).2) hvalid).1
      exact hleaks.grows hgrows hvalid₁

end Call

/-! ## One call -/

theorem keeps_callNamed (table name : String) (args : List NetObject) (t : BridgeObject) :
    Keeps RefsGrow (callNamed P I table name args t) := by
  unfold callNamed
  split
  · exact keeps_pure _
  · apply keeps_bind (keeps_getLuaFunction _)
    intro id
    cases id with
    | none => exact keeps_pure _
    | some id => exact keeps_callLuaFunction id args

/-- The `catch` block. -/
theorem keeps_fail {R : Bridge W → Bridge W → Prop} (h : ∀ s w, R s (Bridge.setAddon s w))
    (ex : NetException) :
    Keeps R (do
      modify (fun s => s.setAddon (I.fail ex s.addon))
      pure none : BridgeMethod W (Option (List BridgeObject))) :=
  fun s => h s _

theorem keeps_invokeBridge (c : AddonCall) :
    Keeps RefsGrow (invokeBridge P I c.table c.name c.args) := by
  apply keeps_get_bind
  intro s
  split
  · exact refl_of _ s
  · refine keeps_tryCatch (keeps_bind (keeps_getItem _) fun t => keeps_callNamed _ _ _ t)
      (keeps_fail fun s w => ?_) s
    exact grows_of_refs rfl

section Invoke

variable (c : AddonCall) (s : Bridge W)

/-- The null test reads the global. -/
theorem run_getItem_table :
    (getItem P I c.table).run s =
      (getBridgeObject (I.getGlobal (P.luaPushString c.table) s.addon)).run s := by
  have hfirst : firstWord '.' c.table = c.table := by
    simp [firstWord, (split_table c c.name).2]
  rw [getItem, run_bind_of_ok (EStateM.run_get s), hfirst, (split_table c c.name).2, getItemOf,
    EStateM.run_bind]
  cases (getBridgeObject (I.getGlobal (P.luaPushString c.table) s.addon)).run s <;> rfl

/-- The path of the function is walked from the global. -/
theorem run_getItem_path
    (hv : (I.getGlobal (P.luaPushString c.table) s.addon).isReferenced = false) :
    (getItem P I (c.table ++ "." ++ c.name)).run s =
      (getObjectPath P I (I.getGlobal (P.luaPushString c.table) s.addon) (split '.' c.name)).run
        s := by
  have hfirst : firstWord '.' (c.table ++ "." ++ c.name) = c.table := by
    simp [firstWord, (split_table c c.name).1]
  rw [getItem, run_bind_of_ok (EStateM.run_get s), hfirst, (split_table c c.name).1,
    List.tail_cons, getItemOf, run_bind_of_ok (run_getBridgeObject hv),
    if_neg (split_ne_nil '.' c.name), EStateM.run_bind]
  have hdispose : disposeBase (if (I.getGlobal (P.luaPushString c.table) s.addon).isNull
      then .null else .plain (I.getGlobal (P.luaPushString c.table) s.addon)) =
        (pure () : BridgeMethod W Unit) := by
    split <;> rfl
  rw [hdispose]
  cases (getObjectPath P I (I.getGlobal (P.luaPushString c.table) s.addon)
    (split '.' c.name)).run s <;> rfl

/-- The `try` block. -/
def tryBlock (P : Platform) (I : Interp W) (c : AddonCall) :
    BridgeMethod W (Option (List BridgeObject)) :=
  getItem P I c.table >>= callNamed P I c.table c.name c.args

theorem after_tryBlock {R : Bridge W → Bridge W → Prop} [IsPreorder (Bridge W) R]
    (h : ∀ s w, R s (Bridge.setAddon s w)) (hok : I.state s.addon = .ok) :
    R (after (tryBlock P I c) s) (after (invokeBridge P I c.table c.name c.args) s) := by
  have hinvoke : after (invokeBridge P I c.table c.name c.args) s =
      after (tryCatch (tryBlock P I c) (fun ex => do
        modify (fun s => s.setAddon (I.fail ex s.addon))
        pure none)) s := by
    rw [invokeBridge, after_get_bind, if_neg (not_not.mpr hok)]
    rfl
  rw [hinvoke]
  exact after_tryCatch (keeps_fail h) s

/-- The rest of the `try` block when the global takes no reference and is not null. -/
theorem run_tryBlock (hv : (I.getGlobal (P.luaPushString c.table) s.addon).isReferenced = false)
    (hnull : (I.getGlobal (P.luaPushString c.table) s.addon).isNull = false) :
    (tryBlock P I c).run s =
      (getLuaFunction P I (c.table ++ "." ++ c.name) >>= fun id =>
        match id with
        | none => pure none
        | some id => callLuaFunction I id c.args).run s := by
  have hitem := run_getItem_table (P := P) (I := I) c s
  rw [run_getBridgeObject hv, hnull] at hitem
  rw [tryBlock, run_bind_of_ok hitem, callNamed, if_neg Bool.false_ne_true, if_neg (by simp)]

/-- The delegate that a walk ended in. -/
theorem run_getLuaFunction_native {o : Nat} (hnative : I.isNativeFunction o = true)
    {s' : Bridge W} {fullPath : String}
    (hitem : (getItem P I fullPath).run s = .ok (.plain (.object o)) s') :
    (getLuaFunction P I fullPath).run s = .ok (some s'.objects.length) (s'.newNative o) ∧
      functionValue s'.objects.length (s'.newNative o) = .object o := by
  constructor
  · rw [getLuaFunction, run_bind_of_ok hitem, asLuaFunction, if_pos hnative]
    rfl
  · rw [functionValue, Bridge.newNative]
    simp [LuaBase.new]

/-- What the walk from the global comes to when it takes no reference. -/
theorem run_getItem_values
    (hv : (I.getGlobal (P.luaPushString c.table) s.addon).isReferenced = false)
    (h : ∀ x ∈ (readPath P I (I.getGlobal (P.luaPushString c.table) s.addon) (split '.' c.name)
      s.addon).1, x.isReferenced = false) :
    let path := readPath P I (I.getGlobal (P.luaPushString c.table) s.addon) (split '.' c.name)
      s.addon
    (∀ x, path.2.1 = some x →
      (getItem P I (c.table ++ "." ++ c.name)).run s =
        .ok (if x.isNull then .null else .plain x) (s.setAddon path.2.2)) ∧
      (path.2.1 = none →
        (getItem P I (c.table ++ "." ++ c.name)).run s = .error .luaPanic
          (s.setAddon path.2.2)) := by
  rw [run_getItem_path c s hv]
  exact run_getObjectPath _ _ s h

/-- A path that ends in a value other than a delegate calls nothing. -/
theorem run_getLuaFunction_plain {x : LuaValue} {s' : Bridge W} {fullPath : String}
    (hnative : ∀ o, x = .object o → I.isNativeFunction o = false)
    (hitem : (getItem P I fullPath).run s =
      .ok (if x.isNull then .null else .plain x) s') :
    ((getLuaFunction P I fullPath).run s = .ok none s') ∨
      (getLuaFunction P I fullPath).run s = .error (.exception "InvalidCast") s' := by
  rw [getLuaFunction, run_bind_of_ok hitem]
  cases x with
  | object o =>
    right
    show (if I.isNativeFunction o then _ else throw _ : BridgeMethod W _).run s' = _
    rw [hnative o rfl]
    rfl
  | nil => exact .inl rfl
  | lightUserdata n => exact .inl rfl
  | thread n => exact .inl rfl
  | _ => exact .inr rfl

theorem isReferenced_of_isNull {v : LuaValue} (h : v.isNull = true) : v.isReferenced = false := by
  cases v <;> first | rfl | cases h

/-- A `try` block that reads no value with a reference takes none. -/
theorem tryBlock_sameRefs
    (h : ∀ x ∈ valuesRead P I c s.addon, x.isReferenced = false)
    (hnull : (I.getGlobal (P.luaPushString c.table) s.addon).isNull = false) :
    SameRefs s (after (tryBlock P I c) s) := by
  have hv := h _ List.mem_cons_self
  obtain ⟨hsome, hnone⟩ := run_getItem_values c s hv fun x hx =>
    h x (List.mem_cons_of_mem _ (List.mem_append_left _ hx))
  rw [after, run_tryBlock c s hv hnull]
  cases hlast : (readPath P I (I.getGlobal (P.luaPushString c.table) s.addon)
      (split '.' c.name) s.addon).2.1 with
  | none =>
    rw [getLuaFunction, bind_assoc, EStateM.run_bind, hnone hlast]
    rfl
  | some x =>
    have hitem := hsome x hlast
    by_cases hnative : ∃ o, x = .object o ∧ I.isNativeFunction o = true
    · obtain ⟨o, rfl, ho⟩ := hnative
      obtain ⟨hrun, hvalue⟩ := run_getLuaFunction_native s ho hitem
      rw [run_bind_of_ok hrun]
      have hleft : ∀ y ∈ leftValues (I.call (.object o) c.args (readPath P I
          (I.getGlobal (P.luaPushString c.table) s.addon) (split '.' c.name) s.addon).2.2).1,
          y.isReferenced = false := by
        intro y hy
        apply h y
        apply List.mem_cons_of_mem
        apply List.mem_append_right
        exact mem_delegateValues.mpr ⟨o, hlast, ho, hy⟩
      apply callLuaFunction_sameRefs
      rw [hvalue]
      exact hleft
    · have hplain : ∀ o, x = .object o → I.isNativeFunction o = false := by
        intro o ho
        rw [Bool.eq_false_iff]
        exact fun htrue => hnative ⟨o, ho, htrue⟩
      rcases run_getLuaFunction_plain s hplain hitem with hrun | hrun
      · rw [run_bind_of_ok hrun]
        rfl
      · rw [EStateM.run_bind, hrun]
        rfl

/-- A quiet call takes no reference. -/
theorem invokeBridge_sameRefs (h : QuietCall P I c s.addon) :
    SameRefs s (after (invokeBridge P I c.table c.name c.args) s) := by
  by_cases hok : I.state s.addon = .ok
  · apply trans_of SameRefs _ (after_tryBlock c s (fun _ _ => rfl) hok)
    have hnullcase (hnull : (I.getGlobal (P.luaPushString c.table) s.addon).isNull = true) :
        SameRefs s (after (tryBlock P I c) s) := by
      have hitem := run_getItem_table (P := P) (I := I) c s
      rw [run_getBridgeObject (isReferenced_of_isNull hnull), if_pos hnull] at hitem
      rw [after, tryBlock, run_bind_of_ok hitem, callNamed, if_pos rfl]
      rfl
    rcases h with hstate | hnull | hvalues
    · exact absurd hok hstate
    · exact hnullcase hnull
    · cases hnull : (I.getGlobal (P.luaPushString c.table) s.addon).isNull with
      | true => exact hnullcase hnull
      | false => exact tryBlock_sameRefs c s hvalues hnull
  · rw [invokeBridge, after_get_bind, if_pos hok]
    rfl

theorem keeps_tryBlock : Keeps RefsGrow (tryBlock P I c) :=
  keeps_bind (keeps_getItem _) fun t => keeps_callNamed _ _ _ t

theorem tryBlock_leaks (hvalid : s.refs.Valid)
    (hnull : (I.getGlobal (P.luaPushString c.table) s.addon).isNull = false)
    (hvalues : ∃ x ∈ valuesRead P I c s.addon, x.isReferenced = true) :
    Leaks s (after (tryBlock P I c) s) := by
  cases hv : (I.getGlobal (P.luaPushString c.table) s.addon).isReferenced with
  | true =>
    -- the null test itself
    have hitem := run_getItem_table (P := P) (I := I) c s
    rw [run_getBridgeObject_referenced hv] at hitem
    rw [after, tryBlock, run_bind_of_ok hitem]
    apply (newObject_leaks hvalid _).grows (keeps_callNamed _ _ _ _ _)
    exact (newObject_grows s _ hvalid).1
  | false =>
    rw [after, run_tryBlock c s hv hnull]
    have hrest : ∀ id : Option Nat, Keeps RefsGrow (match id with
        | none => pure none
        | some id => callLuaFunction I id c.args) := by
      intro id
      cases id with
      | none => exact keeps_pure _
      | some id => exact keeps_callLuaFunction id _
    by_cases hpath : ∃ x ∈ (readPath P I (I.getGlobal (P.luaPushString c.table) s.addon)
        (split '.' c.name) s.addon).1, x.isReferenced = true
    · -- a value on the path
      have hwalk := getObjectPath_leaks _ _ s hvalid hpath
      rw [after, ← run_getItem_path c s hv] at hwalk
      have hcast : RefsGrow (after (getItem P I (c.table ++ "." ++ c.name)) s)
          (after (getLuaFunction P I (c.table ++ "." ++ c.name)) s) :=
        after_bind keeps_asLuaFunction s
      exact hwalk.grows (trans_of RefsGrow hcast (after_bind hrest s)) (keeps_getItem _ s hvalid).1
    · -- what the delegate leaves
      have hwalk : ∀ x ∈ (readPath P I (I.getGlobal (P.luaPushString c.table) s.addon)
          (split '.' c.name) s.addon).1, x.isReferenced = false := by
        intro x hx
        rw [Bool.eq_false_iff]
        exact fun htrue => hpath ⟨x, hx, htrue⟩
      obtain ⟨hsome, _⟩ := run_getItem_values c s hv hwalk
      obtain ⟨x, hx, hreferenced⟩ := hvalues
      rw [valuesRead] at hx
      rcases List.mem_cons.mp hx with rfl | hx
      · rw [hv] at hreferenced
        cases hreferenced
      rcases List.mem_append.mp hx with hx | hx
      · exact absurd ⟨x, hx, hreferenced⟩ hpath
      obtain ⟨o, hlast, ho, hleft⟩ := mem_delegateValues.mp hx
      obtain ⟨hrun, hvalue⟩ := run_getLuaFunction_native s ho (hsome _ hlast)
      rw [run_bind_of_ok hrun]
      apply callLuaFunction_leaks (s := Bridge.newNative _ o)
      · exact hvalid
      · rw [hvalue]
        exact ⟨x, hleft, hreferenced⟩

/-- Any other call leaves a reference behind. -/
theorem invokeBridge_leaks (hvalid : s.refs.Valid) (h : ¬ QuietCall P I c s.addon) :
    Leaks s (after (invokeBridge P I c.table c.name c.args) s) := by
  obtain ⟨hok, hnull, hvalues⟩ : I.state s.addon = .ok ∧
      (I.getGlobal (P.luaPushString c.table) s.addon).isNull = false ∧
      ∃ x ∈ valuesRead P I c s.addon, x.isReferenced = true := by
    simpa [QuietCall, not_or] using h
  have hleaks := tryBlock_leaks c s hvalid hnull hvalues
  have hgrows := after_tryBlock (P := P) (I := I) (R := RefsGrow) c s
    (fun _ _ => grows_of_refs rfl) hok
  exact hleaks.grows hgrows (keeps_tryBlock c s hvalid).1

end Invoke

/-! ## Sequences of calls -/

/-- A finalizer releases no reference. -/
theorem dispose_false (b : LuaBase) (refs : RefTable LuaValue) :
    (b.dispose false refs).2 = refs := by
  rw [LuaBase.dispose]
  split <;> rfl

theorem finalizeFrom_refs (n : Nat) (s : Bridge W) : (finalizeFrom n s).refs = s.refs := by
  have hfold : ∀ (objects : List LuaBase) (refs : RefTable LuaValue),
      objects.foldl (fun refs b => (b.dispose false refs).2) refs = refs := by
    intro objects refs
    induction objects with
    | nil => rfl
    | cons b objects ih => rw [List.foldl_cons, dispose_false, ih]
  exact hfold _ _

theorem invokeAll_append (s : Bridge W) (calls calls' : List AddonCall) :
    invokeAll P I s (calls ++ calls') = invokeAll P I (invokeAll P I s calls) calls' :=
  List.foldl_append

theorem grows_invokeAll (calls : List AddonCall) (s : Bridge W) :
    RefsGrow s (invokeAll P I s calls) := by
  induction calls generalizing s with
  | nil => exact refl_of _ s
  | cons c calls ih => exact trans_of RefsGrow (keeps_invokeBridge c s) (ih _)

/-- As long as every call is quiet, no reference is taken. -/
theorem invokeAll_sameRefs {s : Bridge W} {calls : List AddonCall}
    (h : ∀ p c, p ++ [c] <+: calls → QuietCall P I c (invokeAll P I s p).addon) :
    SameRefs s (invokeAll P I s calls) := by
  induction calls using List.reverseRecOn with
  | nil => rfl
  | append_singleton calls c ih =>
    rw [invokeAll_append]
    apply trans_of SameRefs (ih fun p d hp => h p d (hp.trans (List.prefix_append _ _)))
    exact invokeBridge_sameRefs c _ (h calls c (List.prefix_refl _))

/-- A call that is not quiet leaves a reference that the calls after it keep. -/
theorem invokeAll_leaks {s : Bridge W} (hvalid : s.refs.Valid) {calls p : List AddonCall}
    {c : AddonCall} (hp : p ++ [c] <+: calls) (h : ¬ QuietCall P I c (invokeAll P I s p).addon) :
    Leaks s (invokeAll P I s calls) := by
  obtain ⟨rest, rfl⟩ := hp
  obtain ⟨hvalid₁, hsub⟩ := grows_invokeAll p s hvalid
  obtain ⟨r, hr, hnew⟩ := invokeBridge_leaks c _ hvalid₁ h
  have hvalid₂ := (keeps_invokeBridge (P := P) (I := I) c (invokeAll P I s p) hvalid₁).1
  rw [invokeAll_append, invokeAll_append]
  exact ⟨r, (grows_invokeAll rest _ hvalid₂).2 hr, fun hmem => hnew (hsub hmem)⟩

/-- The live references are the same after a sequence of calls exactly when every call of it is
quiet. -/
theorem references_unchanged_iff (P : Platform) (I : Interp W) (s : Bridge W)
    (hrefs : RefTable.Reachable newRegistry s.refs) (calls : List AddonCall) :
    (finalizeFrom s.objects.length (invokeAll P I s calls)).refs.live = s.refs.live ↔
      ∀ p c, p ++ [c] <+: calls → QuietCall P I c (invokeAll P I s p).addon := by
  rw [finalizeFrom_refs]
  constructor
  · intro hlive p c hp
    by_contra hquiet
    obtain ⟨r, hr, hnew⟩ := invokeAll_leaks (hrefs.valid newRegistry_valid) hp hquiet
    rw [hlive] at hr
    exact hnew hr
  · intro h
    rw [invokeAll_sameRefs h]

/-- An addon whose only global of the two is `global`, without handlers. -/
def noHandlers (global : String) : Interp AddonState where
  state w := w
  fail _ _ := .error
  getGlobal name _ := if name = ascii global then .table 0 else .nil
  getTable _ _ w := (some .nil, w)
  call _ _ w := (.ok [], w)
  isNativeFunction _ := false

/-- A new Lua state. -/
def Bridge.initial (w : W) : Bridge W := { refs := newRegistry, objects := [], addon := w }

theorem references_unchanged_no_commands :
    (finalizeFrom 0 (invokeAll asciiPlatform (noHandlers "__addon_events") (.initial .ok)
      [.command "/home" ⟨"home", [], false⟩])).refs.live =
        (Bridge.initial AddonState.ok).refs.live := by
  refine (references_unchanged_iff asciiPlatform (noHandlers "__addon_events") (.initial .ok)
    .start [.command "/home" ⟨"home", [], false⟩]).mpr ?_
  intro p c hp
  obtain ⟨rfl, rfl⟩ : p = [] ∧ c = .command "/home" ⟨"home", [], false⟩ := by
    rcases List.prefix_cons_iff.mp hp with h | ⟨t, ht, hnil⟩
    · simp at h
    · rw [List.prefix_nil.mp hnil] at ht
      simpa using List.append_eq_singleton_iff.mp ht
  right
  left
  decide +kernel

/-- An event without a handler in an addon that registered events before. -/
theorem events_table_leaks :
    (noHandlers "__addon_events").state AddonState.ok = .ok ∧
      (finalizeFrom 0 (invokeAll asciiPlatform (noHandlers "__addon_events") (.initial .ok)
        [.event "GamePostUpdate" []])).refs.live ≠
          (Bridge.initial AddonState.ok).refs.live := by
  decide +kernel

end LuaAddons
