import LuaAddons.Script
import LuaAddons.Lib.Exec
import LuaAddons.Lib.Frame

/-!
# The Lua C API below the callbacks

A callback works on the call frame of the thread that called it (`Lua/src/lapi.cpp`). The
threads of one Lua state share its tables, of which one holds the globals and has no
metatable. `Api` is what a callback does: it ends, it raises a Lua error, or it reaches below
the base of a frame or uses a value that is no table as one, which the C API leaves undefined.

The `run` lemmas give each function of the API on a frame that is split where it acts.
-/

namespace LuaAddons

open Exec

/-- The identity of a Lua thread: the main thread or a coroutine. -/
abbrev ThreadId := Nat

/-- The identity of a table. -/
abbrev TableId := Nat

/-- A Lua state with all its threads, and what the .NET side keeps. -/
structure GlobalState (σ : Type) where
  /-- The frame of the function that each thread runs. -/
  frames : ThreadId → List LuaValue
  tables : TableId → LuaTable
  /-- The global table. -/
  globals : TableId
  /-- The identity the next new table gets. -/
  nextTable : TableId
  globals_lt : globals < nextTable
  net : σ

inductive Fault where
  /-- `lua_error` with this value. -/
  | luaError (value : LuaValue)
  /-- `luaL_error` or `luaG_runerror` with this format. -/
  | raised (format : String)
  /-- A .NET exception leaves the callback. -/
  | exception (e : NetException)
  | undefined
  deriving DecidableEq

/-- What a callback does. -/
abbrev Api (σ : Type) := EStateM Fault (GlobalState σ)

inductive LuaTypes where
  | nil
  | boolean
  | lightUserdata
  | number
  | string
  | table
  | function
  | userdata
  | thread
  deriving DecidableEq

def LuaValue.type : LuaValue → LuaTypes
  | .nil => .nil
  | .boolean _ => .boolean
  | .lightUserdata _ => .lightUserdata
  | .number _ => .number
  | .string _ => .string
  | .table _ => .table
  | .function _ => .function
  | .userdata _ => .userdata
  | .object _ => .userdata
  | .thread _ => .thread

theorem LuaValue.type_eq_string {v : LuaValue} : v.type = .string ↔ ∃ s, v = .string s := by
  cases v <;> simp [LuaValue.type]

theorem LuaValue.type_eq_function {v : LuaValue} : v.type = .function ↔ ∃ f, v = .function f := by
  cases v <;> simp [LuaValue.type]

theorem LuaValue.type_eq_table {v : LuaValue} : v.type = .table ↔ ∃ t, v = .table t := by
  cases v <;> simp [LuaValue.type]

variable {σ α : Type}

/-! ## Changes of the state -/

namespace GlobalState

def setFrame (s : GlobalState σ) (L : ThreadId) (frame : List LuaValue) : GlobalState σ :=
  { s with frames := Function.update s.frames L frame }

def setTable (s : GlobalState σ) (t : TableId) (table : LuaTable) : GlobalState σ :=
  { s with tables := Function.update s.tables t table }

/-- A new empty table. -/
def newTable (s : GlobalState σ) : GlobalState σ :=
  { s with
    tables := Function.update s.tables s.nextTable ∅
    nextTable := s.nextTable + 1
    globals_lt := Nat.lt_succ_of_lt s.globals_lt }

def setNet (s : GlobalState σ) (net : σ) : GlobalState σ := { s with net := net }

/-- The value of a global. -/
def global (s : GlobalState σ) (name : LuaString) : LuaValue :=
  (s.tables s.globals).rawGet (.string name)

def setGlobal (s : GlobalState σ) (name : LuaString) (table : TableId) : GlobalState σ :=
  s.setTable s.globals ((s.tables s.globals).insert (.string name) (.table table))

variable (s : GlobalState σ) (L : ThreadId) (frame : List LuaValue) (t : TableId)
  (table : LuaTable) (name : LuaString)

@[simp] theorem setFrame_frames : (s.setFrame L frame).frames L = frame :=
  Function.update_self _ _ _
@[simp] theorem setFrame_tables : (s.setFrame L frame).tables = s.tables := rfl
@[simp] theorem setFrame_globals : (s.setFrame L frame).globals = s.globals := rfl
@[simp] theorem setFrame_nextTable : (s.setFrame L frame).nextTable = s.nextTable := rfl
@[simp] theorem setFrame_net : (s.setFrame L frame).net = s.net := rfl
@[simp] theorem setFrame_global : (s.setFrame L frame).global name = s.global name := rfl

@[simp] theorem setFrame_setFrame (frame' : List LuaValue) :
    (s.setFrame L frame).setFrame L frame' = s.setFrame L frame' := by
  simp [setFrame]

@[simp] theorem setFrame_self : s.setFrame L (s.frames L) = s := by
  simp [setFrame]

theorem setFrame_of_eq (h : s.frames L = frame) : s.setFrame L frame = s := by
  rw [← h, setFrame_self]

@[simp] theorem setTable_frames : (s.setTable t table).frames = s.frames := rfl
@[simp] theorem setTable_globals : (s.setTable t table).globals = s.globals := rfl
@[simp] theorem setTable_nextTable : (s.setTable t table).nextTable = s.nextTable := rfl
@[simp] theorem setTable_net : (s.setTable t table).net = s.net := rfl
@[simp] theorem setTable_tables : (s.setTable t table).tables t = table :=
  Function.update_self _ _ _

theorem setTable_tables_of_ne {u : TableId} (h : u ≠ t) :
    (s.setTable t table).tables u = s.tables u :=
  Function.update_of_ne h _ _

@[simp] theorem setFrame_setTable :
    (s.setFrame L frame).setTable t table = (s.setTable t table).setFrame L frame := rfl

@[simp] theorem newTable_frames : s.newTable.frames = s.frames := rfl
@[simp] theorem newTable_globals : s.newTable.globals = s.globals := rfl
@[simp] theorem newTable_net : s.newTable.net = s.net := rfl
@[simp] theorem newTable_nextTable : s.newTable.nextTable = s.nextTable + 1 := rfl
@[simp] theorem newTable_tables : s.newTable.tables s.nextTable = ∅ :=
  Function.update_self _ _ _

theorem newTable_tables_of_ne {u : TableId} (h : u ≠ s.nextTable) :
    s.newTable.tables u = s.tables u :=
  Function.update_of_ne h _ _

@[simp] theorem setGlobal_frames : (s.setGlobal name t).frames = s.frames := rfl
@[simp] theorem setGlobal_globals : (s.setGlobal name t).globals = s.globals := rfl
@[simp] theorem setGlobal_net : (s.setGlobal name t).net = s.net := rfl
@[simp] theorem setFrame_setGlobal :
    (s.setFrame L frame).setGlobal name t = (s.setGlobal name t).setFrame L frame := rfl

@[simp] theorem setNet_frames (net : σ) : (s.setNet net).frames = s.frames := rfl
@[simp] theorem setNet_tables (net : σ) : (s.setNet net).tables = s.tables := rfl
@[simp] theorem setNet_globals (net : σ) : (s.setNet net).globals = s.globals := rfl
@[simp] theorem setNet_net (net : σ) : (s.setNet net).net = net := rfl
@[simp] theorem setFrame_setNet (net : σ) :
    (s.setFrame L frame).setNet net = (s.setNet net).setFrame L frame := rfl

theorem setGlobal_tables_of_ne {u : TableId} (h : u ≠ s.globals) :
    (s.setGlobal name t).tables u = s.tables u :=
  Function.update_of_ne h _ _

end GlobalState

/-! ## Tables -/

namespace LuaTable

theorem rawGet_put (t : LuaTable) (key value k : LuaValue) :
    (t.put key value).rawGet k = if k.asKey = key.asKey then value else t.rawGet k := by
  unfold put rawGet
  by_cases hk : k.asKey = key.asKey
  · rw [if_pos hk, hk]
    by_cases hv : value = .nil
    · rw [if_pos hv, AList.lookup_erase, hv]
      rfl
    · rw [if_neg hv, AList.lookup_insert]
      rfl
  · rw [if_neg hk]
    by_cases hv : value = .nil
    · rw [if_pos hv, AList.lookup_erase_ne hk]
    · rw [if_neg hv, AList.lookup_insert_ne hk]

theorem rawGet_insert_string (t : LuaTable) (k : LuaString) {v : LuaValue} (hv : v ≠ .nil)
    (key : LuaValue) :
    rawGet (t.insert (.string k) v) key = if key = .string k then v else t.rawGet key := by
  have hput : t.put (.string k) v = t.insert (.string k) v := if_neg hv
  rw [← hput, rawGet_put, LuaValue.asKey_string]
  simp only [LuaValue.asKey_eq_string]

theorem rawSet_string (t : LuaTable) (k : LuaString) {v : LuaValue} (hv : v ≠ .nil) :
    t.rawSet (.string k) v = some (t.insert (.string k) v) := by
  simp [rawSet, put, hv]

@[simp] theorem rawGet_empty (key : LuaValue) : rawGet ∅ key = .nil := by
  simp [rawGet]

end LuaTable

theorem GlobalState.setGlobal_global (s : GlobalState σ) (name : LuaString) (t : TableId) :
    (s.setGlobal name t).global name = .table t := by
  rw [global, setGlobal, setTable_globals, setTable_tables,
    LuaTable.rawGet_insert_string _ _ (by simp), if_pos rfl]

/-! ## The functions of the API -/

/-- Put another frame in the place of the one of a thread. -/
def onFrame (L : ThreadId) (f : List LuaValue → Option (List LuaValue)) : Api σ Unit := do
  let s ← get
  match f (s.frames L) with
  | some frame => set (s.setFrame L frame)
  | none => throw .undefined

/-- Read the value that an index names. -/
def index2addr (L : ThreadId) (idx : Int) : Api σ LuaValue := do
  let s ← get
  match Frame.value? (s.frames L) idx with
  | some v => pure v
  | none => throw .undefined

def luaGetTop (L : ThreadId) : Api σ Int := do
  let s ← get
  pure (s.frames L).length

def luaPop (L : ThreadId) (amount : Int) : Api σ Unit := onFrame L (Frame.pop .nil · amount)

def luaInsert (L : ThreadId) (newTop : Int) : Api σ Unit := onFrame L (Frame.insert · newTop)

def luaRemove (L : ThreadId) (index : Int) : Api σ Unit := onFrame L (Frame.remove · index)

def luaPush (L : ThreadId) (v : LuaValue) : Api σ Unit :=
  modify (fun s => s.setFrame L (s.frames L ++ [v]))

def luaType (L : ThreadId) (index : Int) : Api σ LuaTypes := LuaValue.type <$> index2addr L index

/-- `LuaLib.LuaToString` on a value that is a string. -/
def luaToString (P : Platform) (L : ThreadId) (index : Int) : Api σ String := do
  match ← index2addr L index with
  | .string s => pure (P.luaToString s)
  | _ => throw .undefined

def luaNewTable (L : ThreadId) : Api σ Unit :=
  modify (fun s => s.newTable.setFrame L (s.frames L ++ [.table s.nextTable]))

def luaGetGlobal (L : ThreadId) (name : String) : Api σ Unit := do
  let s ← get
  luaPush L (s.global (ascii name))

/-- `lua_settable` on a table without metatable, `lua_rawset`: the table at an index gets the
value on top under the key below it, and both leave the frame. -/
def luaRawSet (L : ThreadId) (index : Int) : Api σ Unit := do
  let key ← index2addr L (-2)
  let value ← index2addr L (-1)
  match ← index2addr L index with
  | .table t => do
    let s ← get
    match (s.tables t).rawSet key value with
    | some table => do
      set (s.setTable t table)
      luaPop L 2
    | none =>
      throw (.raised (if key = .nil then "table index is nil" else "table index is NaN"))
  | _ => throw .undefined

def luaSetGlobal (L : ThreadId) (name : String) : Api σ Unit := do
  let value ← index2addr L (-1)
  let s ← get
  match (s.tables s.globals).rawSet (.string (ascii name)) value with
  | some table => do
    set (s.setTable s.globals table)
    luaPop L 1
  | none => throw .undefined

def luaError (L : ThreadId) : Api σ α := do
  let value ← index2addr L (-1)
  throw (.luaError value)

def luaLError (message : String) : Api σ α := throw (.raised message)

/-- A call of a .NET method. -/
def callNet (f : σ → α × σ) : Api σ α :=
  modifyGet (fun s => ((f s.net).1, s.setNet (f s.net).2))

/-! ## Runs -/

section Runs

variable {s : GlobalState σ} {L : ThreadId} {frame : List LuaValue} {v : LuaValue}

theorem run_onFrame {f : List LuaValue → Option (List LuaValue)}
    (h : f (s.frames L) = some frame) :
    (onFrame L f).run s = .ok () (s.setFrame L frame) := by
  simp only [onFrame, EStateM.run_bind, EStateM.run_get, h]
  rfl

theorem run_index2addr (xs ys : List LuaValue) {idx : Int}
    (h : s.frames L = xs ++ v :: ys) (hidx : idx = -(ys.length + 1)) :
    (index2addr L idx).run s = .ok v s := by
  simp only [index2addr, EStateM.run_bind, EStateM.run_get, h, Frame.value?_top xs ys v hidx]
  rfl

theorem run_index2addr_base {ys : List LuaValue} (h : s.frames L = v :: ys) :
    (index2addr L 1).run s = .ok v s := by
  simp only [index2addr, EStateM.run_bind, EStateM.run_get, h, Frame.value?_base]
  rfl

theorem run_luaGetTop : (luaGetTop L).run s = .ok ((s.frames L).length : Int) s := rfl

theorem run_luaPop (xs ys : List LuaValue) {n : Int} (h : s.frames L = xs ++ ys)
    (hn : n = ys.length) :
    (luaPop L n).run s = .ok () (s.setFrame L xs) :=
  run_onFrame (by rw [h, Frame.pop_append .nil xs ys hn])

theorem run_luaPop_setFrame (xs ys : List LuaValue) {n : Int} (hn : n = ys.length) :
    (luaPop L n).run (s.setFrame L (xs ++ ys)) = .ok () (s.setFrame L xs) := by
  rw [run_luaPop xs ys (s.setFrame_frames L (xs ++ ys)) hn, GlobalState.setFrame_setFrame]

theorem run_luaInsert (xs ys : List LuaValue) {idx : Int}
    (h : s.frames L = xs ++ ys ++ [v]) (hidx : idx = -(ys.length + 1)) :
    (luaInsert L idx).run s = .ok () (s.setFrame L (xs ++ v :: ys)) :=
  run_onFrame (by rw [h, Frame.insert_append xs ys v hidx])

theorem run_luaRemove (xs ys : List LuaValue) {idx : Int}
    (h : s.frames L = xs ++ v :: ys) (hidx : idx = -(ys.length + 1)) :
    (luaRemove L idx).run s = .ok () (s.setFrame L (xs ++ ys)) :=
  run_onFrame (by rw [h, Frame.remove_append xs ys v hidx])

theorem run_luaType (xs ys : List LuaValue) {idx : Int}
    (h : s.frames L = xs ++ v :: ys) (hidx : idx = -(ys.length + 1)) :
    (luaType L idx).run s = .ok v.type s := by
  rw [luaType, run_map, run_index2addr xs ys h hidx]

theorem run_luaToString (xs ys : List LuaValue) {P : Platform} {k : LuaString} {idx : Int}
    (h : s.frames L = xs ++ .string k :: ys) (hidx : idx = -(ys.length + 1)) :
    (luaToString P L idx).run s = .ok (P.luaToString k) s := by
  simp only [luaToString, EStateM.run_bind, run_index2addr xs ys h hidx]
  rfl

theorem run_luaPush : (luaPush L v).run s = .ok () (s.setFrame L (s.frames L ++ [v])) := rfl

theorem run_luaNewTable : (luaNewTable L).run s =
    .ok () (s.newTable.setFrame L (s.frames L ++ [.table s.nextTable])) := rfl

theorem run_luaGetGlobal {name : String} : (luaGetGlobal L name).run s =
    .ok () (s.setFrame L (s.frames L ++ [s.global (ascii name)])) := rfl

theorem run_callNet {f : σ → α × σ} :
    (callNet f).run s = .ok (f s.net).1 (s.setNet (f s.net).2) := rfl

/-- The reads of `lua_rawset` on a table at the base of the frame. -/
theorem run_luaRawSet_reads (xs : List LuaValue) {t : TableId} {key value : LuaValue}
    (h : s.frames L = .table t :: xs ++ [key, value]) :
    (index2addr L (-2)).run s = .ok key s ∧ (index2addr L (-1)).run s = .ok value s ∧
      (index2addr L 1).run s = .ok (.table t) s := by
  refine ⟨run_index2addr (.table t :: xs) [value] h rfl, ?_, run_index2addr_base h⟩
  apply run_index2addr (.table t :: xs ++ [key]) []
  · rw [h]
    simp
  · rfl

theorem run_luaRawSet (xs : List LuaValue) {t : TableId} {key value : LuaValue} {table : LuaTable}
    (h : s.frames L = .table t :: xs ++ [key, value])
    (ht : (s.tables t).rawSet key value = some table) :
    (luaRawSet L 1).run s = .ok () ((s.setTable t table).setFrame L (.table t :: xs)) := by
  obtain ⟨hkey, hvalue, hbase⟩ := run_luaRawSet_reads xs h
  have hpop : (luaPop L 2).run (s.setTable t table) =
      .ok () ((s.setTable t table).setFrame L (.table t :: xs)) :=
    run_luaPop (.table t :: xs) [key, value] h rfl
  rw [luaRawSet, run_bind_of_ok hkey, run_bind_of_ok hvalue, run_bind_of_ok hbase]
  simp only [EStateM.run_bind, EStateM.run_get, ht, EStateM.run_set, hpop]

theorem run_luaRawSet_none (xs : List LuaValue) {t : TableId} {key value : LuaValue}
    (h : s.frames L = .table t :: xs ++ [key, value])
    (ht : (s.tables t).rawSet key value = none) :
    ∃ message, (luaRawSet L 1).run s = .error (.raised message) s := by
  obtain ⟨hkey, hvalue, hbase⟩ := run_luaRawSet_reads xs h
  rw [luaRawSet, run_bind_of_ok hkey, run_bind_of_ok hvalue, run_bind_of_ok hbase]
  simp only [EStateM.run_bind, EStateM.run_get, ht]
  exact ⟨_, rfl⟩

theorem run_luaError {α : Type} (xs : List LuaValue) (h : s.frames L = xs ++ [v]) :
    (luaError L : Api σ α).run s = .error (.luaError v) s := by
  have hvalue : (index2addr L (-1)).run s = .ok v s := run_index2addr xs [] h rfl
  rw [luaError, run_bind_of_ok hvalue]
  rfl

theorem run_luaSetGlobal {xs : List LuaValue} {name : String} {t : TableId}
    (h : s.frames L = xs ++ [.table t]) :
    (luaSetGlobal L name).run s = .ok () ((s.setGlobal (ascii name) t).setFrame L xs) := by
  have hvalue : (index2addr L (-1)).run s = .ok (.table t) s :=
    run_index2addr xs [] h rfl
  have hpop : (luaPop L 1).run (s.setGlobal (ascii name) t) =
      .ok () ((s.setGlobal (ascii name) t).setFrame L xs) :=
    run_luaPop xs [.table t] h rfl
  have hset : (s.tables s.globals).rawSet (.string (ascii name)) (.table t) =
      some ((s.tables s.globals).insert (.string (ascii name)) (.table t)) :=
    LuaTable.rawSet_string _ _ (by simp)
  simp only [luaSetGlobal, EStateM.run_bind, hvalue, EStateM.run_get, hset, EStateM.run_set]
  exact hpop

end Runs

end LuaAddons
