import LuaAddons.LuaApi

/-!
# The register callbacks on the call frame

`lua_AddonNewEvent` and `lua_AddonNewCommand` of `Addons/Addon.cs`, operation by operation on
the frame of the thread that calls them. `register` stands for `Addons.RegisterCommand` on
whatever the .NET side keeps.
-/

namespace LuaAddons

open Exec

variable {σ : Type}

/-! ## The callbacks -/

/-- Leave the table of a global on top of the frame; a global that is no table gets a new
one. -/
def ensureGlobalTable (L : ThreadId) (name : String) : Api σ Unit := do
  luaGetGlobal L name
  let type ← luaType L (-1)
  if type ≠ .table then
    luaPop L 1
    luaNewTable L
    luaSetGlobal L name
    luaGetGlobal L name

/-- `Addon.lua_AddonNewEvent`. -/
def luaAddonNewEvent (L : ThreadId) : Api σ Nat := do
  let top ← luaGetTop L
  if top ≠ 2 then
    luaPop L top
    luaLError "Invalid arguments for events.register_event!"
  else
    let type1 ← luaType L (-1)
    let type2 ← luaType L (-2)
    if type1 ≠ .function ∨ type2 ≠ .string then
      luaPop L top
      luaLError "Invalid arguments for events.register_event!"
    else
      ensureGlobalTable L "__addon_events"
      luaInsert L (-3)
      luaRawSet L 1
      luaPop L 1
      pure 0

/-- `Addon.lua_AddonNewCommand` of an addon with the given file name. -/
def luaAddonNewCommand (P : Platform) (register : String → String → String → σ → Bool × σ)
    (fileName : String) (L : ThreadId) : Api σ Nat := do
  let top ← luaGetTop L
  if top ≠ 3 then
    luaPop L top
    luaLError "Invalid arguments for commands.register_command!"
  else
    let type1 ← luaType L (-3)
    let type2 ← luaType L (-2)
    let type3 ← luaType L (-1)
    if type1 ≠ .string ∨ type2 ≠ .string ∨ type3 ≠ .function then
      luaPop L top
      luaLError "Invalid arguments for commands.register_command!"
    else
      let name ← luaToString P L (-3)
      let permissions ← luaToString P L (-2)
      ensureGlobalTable L "__addon_commands"
      let registered ← callNet (register (P.toLower fileName) permissions name)
      if !registered then
        luaPop L (top + 1)
        luaLError ("Failed to register command '" ++ name ++ "'!")
      else
        luaRemove L (-3)
        luaInsert L (-3)
        luaRawSet L 1
        luaPop L 1
        pure 0

/-! ## The table of a global -/

namespace GlobalState

/-- The table of a global, or the next new one where the global is no table. -/
def tableOf (s : GlobalState σ) (name : LuaString) : TableId :=
  match s.global name with
  | .table t => t
  | _ => s.nextTable

/-- What the table of a global holds under a key; a global that is no table holds nothing. -/
def entry (s : GlobalState σ) (name : LuaString) (key : LuaValue) : LuaValue :=
  match s.global name with
  | .table t => (s.tables t).rawGet key
  | _ => .nil

/-- A global that is no table gets a new one. -/
def ensureTable (s : GlobalState σ) (name : LuaString) : GlobalState σ :=
  match s.global name with
  | .table _ => s
  | _ => s.newTable.setGlobal name s.nextTable

/-- The table of a global gets a function under a string. -/
def addEntry (s : GlobalState σ) (name key : LuaString) (f : LuaFunction) : GlobalState σ :=
  let s' := s.ensureTable name
  let t := s.tableOf name
  s'.setTable t ((s'.tables t).insert (.string key) (.function f))

variable (s : GlobalState σ) (name : LuaString) (L : ThreadId)

/-- The two shapes of a global. -/
theorem global_cases :
    (s.global name = .table (s.tableOf name) ∧ s.ensureTable name = s ∧
      ∀ key, s.entry name key = (s.tables (s.tableOf name)).rawGet key) ∨
    ((s.global name).type ≠ .table ∧ s.tableOf name = s.nextTable ∧
      s.ensureTable name = s.newTable.setGlobal name s.nextTable ∧
      ∀ key, s.entry name key = .nil) := by
  by_cases h : (s.global name).type = .table
  · obtain ⟨t, ht⟩ := LuaValue.type_eq_table.mp h
    simp [tableOf, ensureTable, entry, ht]
  · refine .inr ⟨h, ?_⟩
    simp only [tableOf, ensureTable, entry]
    cases hg : s.global name with
    | table t => rw [hg] at h; exact absurd rfl h
    | _ => exact ⟨rfl, rfl, fun _ => rfl⟩

@[simp] theorem ensureTable_globals : (s.ensureTable name).globals = s.globals := by
  rcases s.global_cases name with ⟨_, hs, _⟩ | ⟨_, _, hs, _⟩ <;> rw [hs]
  rfl

@[simp] theorem ensureTable_net : (s.ensureTable name).net = s.net := by
  rcases s.global_cases name with ⟨_, hs, _⟩ | ⟨_, _, hs, _⟩ <;> rw [hs]
  rfl

@[simp] theorem ensureTable_frames : (s.ensureTable name).frames = s.frames := by
  rcases s.global_cases name with ⟨_, hs, _⟩ | ⟨_, _, hs, _⟩ <;> rw [hs]
  rfl

theorem ensureTable_global : (s.ensureTable name).global name = .table (s.tableOf name) := by
  rcases s.global_cases name with ⟨hg, hs, _⟩ | ⟨_, ht, hs, _⟩
  · rw [hs, hg]
  · rw [hs, setGlobal_global, ht]

/-- A table that the global does not hold yet is new and empty. -/
theorem ensureTable_entries (key : LuaValue) :
    ((s.ensureTable name).tables (s.tableOf name)).rawGet key = s.entry name key := by
  rcases s.global_cases name with ⟨_, hs, he⟩ | ⟨_, ht, hs, he⟩
  · rw [hs, he]
  · have hne : s.nextTable ≠ s.newTable.globals := Nat.ne_of_gt s.globals_lt
    rw [hs, he, ht, setGlobal_tables_of_ne _ _ _ hne, newTable_tables, LuaTable.rawGet_empty]

/-- Of the tables that exist only the global table may change, and there only the global. -/
theorem ensureTable_globalTable (key : LuaValue) :
    ((s.ensureTable name).tables s.globals).rawGet key =
      if key = .string name then .table (s.tableOf name)
      else (s.tables s.globals).rawGet key := by
  by_cases hkey : key = .string name
  · rw [if_pos hkey, hkey, ← ensureTable_global s name, global, ensureTable_globals]
  · rw [if_neg hkey]
    rcases s.global_cases name with ⟨_, hs, _⟩ | ⟨_, _, hs, _⟩
    · rw [hs]
    · have hne : s.globals ≠ s.nextTable := Nat.ne_of_lt s.globals_lt
      have hinsert : (s.newTable.setGlobal name s.nextTable).tables s.globals =
          (s.tables s.globals).insert (.string name) (.table s.nextTable) := by
        rw [setGlobal, newTable_globals, setTable_tables, newTable_tables_of_ne s hne]
      rw [hs, hinsert, LuaTable.rawGet_insert_string _ _ (by simp), if_neg hkey]

theorem ensureTable_tables_of_ne {u : TableId} (hu : u ≠ s.tableOf name) (hg : u ≠ s.globals) :
    (s.ensureTable name).tables u = s.tables u := by
  rcases s.global_cases name with ⟨_, hs, _⟩ | ⟨_, ht, hs, _⟩
  · rw [hs]
  · rw [ht] at hu
    rw [hs, setGlobal_tables_of_ne s.newTable _ _ hg, newTable_tables_of_ne s hu]

theorem entry_of_global {s : GlobalState σ} {name : LuaString} {t : TableId}
    (h : s.global name = .table t) (key : LuaValue) :
    s.entry name key = (s.tables t).rawGet key := by
  rw [entry, h]

theorem entry_ensureTable (key : LuaValue) :
    (s.ensureTable name).entry name key = s.entry name key := by
  rw [entry_of_global (s.ensureTable_global name), ensureTable_entries]

/-- From `s` to `s'` the table of the global `name`, a new one where the global was no table,
gets the function `f` under `key`, the global holds that table, and nothing else changes. The
table of the global may be the global table itself: then an entry under the name of the
global replaces the global. -/
structure EntryAdded (name key : LuaString) (f : LuaFunction) (s s' : GlobalState σ) : Prop where
  globals : s'.globals = s.globals
  entries : ∀ k, (s'.tables (s.tableOf name)).rawGet k =
    if k = .string key then .function f else s.entry name k
  global : s.tableOf name ≠ s.globals ∨ key ≠ name → s'.global name = .table (s.tableOf name)
  globalTable : s.tableOf name ≠ s.globals → ∀ k, k ≠ .string name →
    (s'.tables s.globals).rawGet k = (s.tables s.globals).rawGet k
  others : ∀ u, u ≠ s.tableOf name → u ≠ s.globals → s'.tables u = s.tables u

@[simp] theorem addEntry_frames (key : LuaString) (f : LuaFunction) :
    (s.addEntry name key f).frames = s.frames :=
  ensureTable_frames s name

@[simp] theorem addEntry_net (key : LuaString) (f : LuaFunction) :
    (s.addEntry name key f).net = s.net :=
  ensureTable_net s name

theorem addEntry_entryAdded (key : LuaString) (f : LuaFunction) :
    EntryAdded name key f s (s.addEntry name key f) where
  globals := ensureTable_globals s name
  entries k := by
    show (((s.ensureTable name).setTable _ _).tables _).rawGet k = _
    rw [setTable_tables, LuaTable.rawGet_insert_string _ _ (by simp), ensureTable_entries]
  global h := by
    show (((s.ensureTable name).setTable _ _).tables (s.ensureTable name).globals).rawGet _ = _
    rw [ensureTable_globals]
    by_cases ht : s.tableOf name = s.globals
    · have hkey : LuaValue.string name ≠ .string key := by
        rintro heq
        cases heq
        exact h.elim (· ht) (· rfl)
      rw [ht, setTable_tables, LuaTable.rawGet_insert_string _ _ (by simp), if_neg hkey,
        ensureTable_globalTable, if_pos rfl, ht]
    · rw [setTable_tables_of_ne _ _ _ (Ne.symm ht), ensureTable_globalTable, if_pos rfl]
  globalTable ht k hk := by
    show (((s.ensureTable name).setTable _ _).tables _).rawGet k = _
    rw [setTable_tables_of_ne _ _ _ ht.symm, ensureTable_globalTable, if_neg hk]
  others u hu hg := by
    show ((s.ensureTable name).setTable _ _).tables u = _
    rw [setTable_tables_of_ne _ _ _ hu, ensureTable_tables_of_ne s name hu hg]

/-- The frames and the .NET side play no part. -/
theorem EntryAdded.of_tables {s s' s'' : GlobalState σ} {name key : LuaString} {f : LuaFunction}
    (h : EntryAdded name key f s s') (hglobals : s''.globals = s'.globals)
    (htables : s''.tables = s'.tables) : EntryAdded name key f s s'' where
  globals := hglobals.trans h.globals
  entries k := by rw [htables]; exact h.entries k
  global hne := by rw [GlobalState.global, htables, hglobals]; exact h.global hne
  globalTable hne k hk := by rw [htables]; exact h.globalTable hne k hk
  others u hu hg := by rw [htables]; exact h.others u hu hg

end GlobalState

/-! ## The runs of the callbacks -/

section Runs

variable {s : GlobalState σ} {L : ThreadId}

theorem run_ensureGlobalTable (name : String) :
    (ensureGlobalTable L name).run s = .ok ()
      ((s.ensureTable (ascii name)).setFrame L
        (s.frames L ++ [.table (s.tableOf (ascii name))])) := by
  have htype : (luaType L (-1)).run (s.setFrame L (s.frames L ++ [s.global (ascii name)])) =
      .ok (s.global (ascii name)).type (s.setFrame L (s.frames L ++ [s.global (ascii name)])) :=
    run_luaType (s.frames L) [] (s.setFrame_frames L _) rfl
  simp only [ensureGlobalTable, EStateM.run_bind, run_luaGetGlobal, htype]
  rcases s.global_cases (ascii name) with ⟨hg, hs, _⟩ | ⟨hg, ht, hs, _⟩
  · rw [if_neg (by rw [hg]; exact fun h => h rfl), hs, hg]
    rfl
  · have hpop : (luaPop L 1).run (s.setFrame L (s.frames L ++ [s.global (ascii name)])) =
        .ok () (s.setFrame L (s.frames L)) :=
      run_luaPop_setFrame _ [_] rfl
    rw [GlobalState.setFrame_self] at hpop
    have hset : (luaSetGlobal L name).run
        (s.newTable.setFrame L (s.frames L ++ [.table s.nextTable])) =
        .ok () (s.newTable.setGlobal (ascii name) s.nextTable) := by
      rw [run_luaSetGlobal (s.newTable.setFrame_frames L _), GlobalState.setFrame_setGlobal,
        GlobalState.setFrame_setFrame]
      exact congrArg _ (GlobalState.setFrame_of_eq _ _ _ rfl)
    rw [if_pos hg]
    simp only [EStateM.run_bind, hpop, run_luaNewTable, hset, run_luaGetGlobal]
    rw [hs, ht, GlobalState.setGlobal_global, GlobalState.setGlobal_frames,
      GlobalState.newTable_frames]

/-- The end of both callbacks: the function on top, its name and the table leave the frame. -/
theorem run_storeFunction {t : TableId} {key : LuaString} {f : LuaFunction}
    (h : s.frames L = [.string key, .function f, .table t]) :
    (do luaInsert L (-3); luaRawSet L 1; luaPop L 1; pure 0 : Api σ Nat).run s =
      .ok 0 ((s.setTable t ((s.tables t).insert (.string key) (.function f))).setFrame L []) := by
  have hinsert : (luaInsert L (-3)).run s =
      .ok () (s.setFrame L [.table t, .string key, .function f]) :=
    run_luaInsert [] [.string key, .function f] h rfl
  have hset := run_luaRawSet [] (s.setFrame_frames L [.table t, .string key, .function f])
    (LuaTable.rawSet_string _ key (by simp))
  have hpop : ∀ s' : GlobalState σ,
      (luaPop L 1).run (s'.setFrame L [.table t]) = .ok () (s'.setFrame L []) :=
    fun s' => run_luaPop_setFrame [] [.table t] rfl
  simp only [GlobalState.setFrame_setTable, GlobalState.setFrame_setFrame,
    GlobalState.setFrame_tables] at hset
  simp only [EStateM.run_bind, hinsert, hset, hpop, EStateM.run_pure]

/-- The end of `lua_AddonNewCommand`, which takes out the permission first. -/
theorem run_storeCommand {t : TableId} {name permission : LuaString} {f : LuaFunction}
    (h : s.frames L = [.string name, .string permission, .function f, .table t]) :
    (do luaRemove L (-3); luaInsert L (-3); luaRawSet L 1; luaPop L 1; pure 0 : Api σ Nat).run s =
      .ok 0 ((s.setTable t ((s.tables t).insert (.string name) (.function f))).setFrame L []) := by
  have hremove : (luaRemove L (-3)).run s =
      .ok () (s.setFrame L [.string name, .function f, .table t]) :=
    run_luaRemove [.string name] [.function f, .table t] h rfl
  rw [run_bind_of_ok hremove]
  apply (run_storeFunction (GlobalState.setFrame_frames _ _ _)).trans
  rw [GlobalState.setFrame_setTable, GlobalState.setFrame_setFrame]
  rfl

/-- The argument tests of both callbacks: the frame is emptied and an error is raised. -/
theorem run_invalidArguments (message : String) :
    (do luaPop L (s.frames L).length; luaLError message : Api σ Nat).run s =
      .error (.raised message) (s.setFrame L []) := by
  have hpop : (luaPop L (s.frames L).length).run s = .ok () (s.setFrame L []) :=
    run_luaPop [] (s.frames L) rfl rfl
  simp only [EStateM.run_bind, hpop]
  rfl

/-- `events.register_event` called with a string and a function. -/
theorem run_luaAddonNewEvent {key : LuaString} {f : LuaFunction}
    (h : s.frames L = [.string key, .function f]) :
    (luaAddonNewEvent L).run s =
      .ok 0 ((s.addEntry (ascii "__addon_events") key f).setFrame L []) := by
  have htype1 : (luaType L (-1)).run s = .ok .function s :=
    run_luaType [.string key] [] h rfl
  have htype2 : (luaType L (-2)).run s = .ok .string s :=
    run_luaType [] [.function f] h rfl
  have htop : ¬ ((s.frames L).length : Int) ≠ 2 := by rw [h]; exact not_not.mpr rfl
  have htypes : ¬ ((LuaTypes.function ≠ .function) ∨ LuaTypes.string ≠ .string) := by decide
  rw [luaAddonNewEvent, run_bind_of_ok run_luaGetTop, if_neg htop, run_bind_of_ok htype1,
    run_bind_of_ok htype2, if_neg htypes, run_bind_of_ok (run_ensureGlobalTable _), h]
  apply (run_storeFunction (GlobalState.setFrame_frames _ _ _)).trans
  rw [GlobalState.setFrame_setTable, GlobalState.setFrame_setFrame]
  rfl

/-- `events.register_event` called with anything else. -/
theorem run_luaAddonNewEvent_invalid
    (h : ∀ key f, s.frames L ≠ [.string key, .function f]) :
    (luaAddonNewEvent L).run s =
      .error (.raised "Invalid arguments for events.register_event!") (s.setFrame L []) := by
  rw [luaAddonNewEvent, run_bind_of_ok run_luaGetTop]
  by_cases htop : ((s.frames L).length : Int) ≠ 2
  · rw [if_pos htop]
    exact run_invalidArguments _
  · obtain ⟨v, w, hframe⟩ : ∃ v w, s.frames L = [v, w] := List.length_eq_two.mp (by omega)
    have htype1 : (luaType L (-1)).run s = .ok w.type s :=
      run_luaType [v] [] hframe rfl
    have htype2 : (luaType L (-2)).run s = .ok v.type s :=
      run_luaType [] [w] hframe rfl
    have htypes : w.type ≠ .function ∨ v.type ≠ .string := by
      by_contra hboth
      obtain ⟨⟨f, rfl⟩, ⟨key, rfl⟩⟩ : (∃ f, w = .function f) ∧ ∃ key, v = .string key := by
        rw [not_or, not_not, not_not] at hboth
        exact ⟨LuaValue.type_eq_function.mp hboth.1, LuaValue.type_eq_string.mp hboth.2⟩
      exact h key f hframe
    rw [if_neg htop, run_bind_of_ok htype1, run_bind_of_ok htype2, if_pos htypes]
    exact run_invalidArguments _

variable {P : Platform} {register : String → String → String → σ → Bool × σ} {fileName : String}

/-- What the registration of a command returned. -/
def registrationResult (P : Platform) (register : String → String → String → σ → Bool × σ)
    (fileName : String) (s : GlobalState σ) (name permission : LuaString) : Bool × σ :=
  register (P.toLower fileName) (P.luaToString permission) (P.luaToString name) s.net

/-- `commands.register_command` up to the registration. -/
theorem run_luaAddonNewCommand {name permission : LuaString} {f : LuaFunction}
    (h : s.frames L = [.string name, .string permission, .function f]) :
    (luaAddonNewCommand P register fileName L).run s =
      (if !(registrationResult P register fileName s name permission).1 then do
        luaPop L ((s.frames L).length + 1)
        luaLError ("Failed to register command '" ++ P.luaToString name ++ "'!")
      else do
        luaRemove L (-3)
        luaInsert L (-3)
        luaRawSet L 1
        luaPop L 1
        pure 0 : Api σ Nat).run
      (((s.ensureTable (ascii "__addon_commands")).setNet
        (registrationResult P register fileName s name permission).2).setFrame L
          (s.frames L ++ [.table (s.tableOf (ascii "__addon_commands"))])) := by
  have htype1 : (luaType L (-3)).run s = .ok .string s :=
    run_luaType [] [_, _] h rfl
  have htype2 : (luaType L (-2)).run s = .ok .string s :=
    run_luaType [_] [_] h rfl
  have htype3 : (luaType L (-1)).run s = .ok .function s :=
    run_luaType [_, _] [] h rfl
  have hname : (luaToString P L (-3)).run s = .ok (P.luaToString name) s :=
    run_luaToString [] [_, _] h rfl
  have hpermission : (luaToString P L (-2)).run s = .ok (P.luaToString permission) s :=
    run_luaToString [_] [_] h rfl
  have htop : ¬ ((s.frames L).length : Int) ≠ 3 := by rw [h]; exact not_not.mpr rfl
  have htypes : ¬ (LuaTypes.string ≠ .string ∨ LuaTypes.string ≠ .string ∨
      LuaTypes.function ≠ .function) := by decide
  rw [luaAddonNewCommand, run_bind_of_ok run_luaGetTop, if_neg htop, run_bind_of_ok htype1,
    run_bind_of_ok htype2, run_bind_of_ok htype3, if_neg htypes, run_bind_of_ok hname,
    run_bind_of_ok hpermission, run_bind_of_ok (run_ensureGlobalTable _),
    run_bind_of_ok run_callNet, GlobalState.setFrame_net, GlobalState.ensureTable_net,
    GlobalState.setFrame_setNet]
  rfl

theorem run_luaAddonNewCommand_accepted {name permission : LuaString} {f : LuaFunction}
    (h : s.frames L = [.string name, .string permission, .function f])
    (hr : (registrationResult P register fileName s name permission).1 = true) :
    (luaAddonNewCommand P register fileName L).run s =
      .ok 0 (((s.addEntry (ascii "__addon_commands") name f).setNet
        (registrationResult P register fileName s name permission).2).setFrame L []) := by
  rw [run_luaAddonNewCommand h, hr, Bool.not_true, if_neg Bool.false_ne_true, h]
  apply (run_storeCommand (GlobalState.setFrame_frames _ _ _)).trans
  rw [GlobalState.setFrame_setTable, GlobalState.setFrame_setFrame]
  rfl

theorem run_luaAddonNewCommand_refused {name permission : LuaString} {f : LuaFunction}
    (h : s.frames L = [.string name, .string permission, .function f])
    (hr : (registrationResult P register fileName s name permission).1 = false) :
    (luaAddonNewCommand P register fileName L).run s =
      .error (.raised ("Failed to register command '" ++ P.luaToString name ++ "'!"))
        (((s.ensureTable (ascii "__addon_commands")).setNet
          (registrationResult P register fileName s name permission).2).setFrame L []) := by
  have hpop := run_luaPop_setFrame (L := L) (s := (s.ensureTable (ascii "__addon_commands")).setNet
      (registrationResult P register fileName s name permission).2) []
    (s.frames L ++ [.table (s.tableOf (ascii "__addon_commands"))])
    (n := (s.frames L).length + 1) (by simp)
  rw [run_luaAddonNewCommand h, hr, Bool.not_false, if_pos rfl]
  exact run_bind_of_ok hpop

/-- `commands.register_command` called with anything else. -/
theorem run_luaAddonNewCommand_invalid
    (h : ∀ name permission f, s.frames L ≠ [.string name, .string permission, .function f]) :
    (luaAddonNewCommand P register fileName L).run s =
      .error (.raised "Invalid arguments for commands.register_command!") (s.setFrame L []) := by
  rw [luaAddonNewCommand, run_bind_of_ok run_luaGetTop]
  by_cases htop : ((s.frames L).length : Int) ≠ 3
  · rw [if_pos htop]
    exact run_invalidArguments _
  · obtain ⟨u, v, w, hframe⟩ : ∃ u v w, s.frames L = [u, v, w] :=
      List.length_eq_three.mp (by omega)
    have htype1 : (luaType L (-3)).run s = .ok u.type s :=
      run_luaType [] [v, w] hframe rfl
    have htype2 : (luaType L (-2)).run s = .ok v.type s :=
      run_luaType [u] [w] hframe rfl
    have htype3 : (luaType L (-1)).run s = .ok w.type s :=
      run_luaType [u, v] [] hframe rfl
    have htypes : u.type ≠ .string ∨ v.type ≠ .string ∨ w.type ≠ .function := by
      by_contra hall
      rw [not_or, not_or, not_not, not_not, not_not] at hall
      obtain ⟨name, rfl⟩ := LuaValue.type_eq_string.mp hall.1
      obtain ⟨permission, rfl⟩ := LuaValue.type_eq_string.mp hall.2.1
      obtain ⟨f, rfl⟩ := LuaValue.type_eq_function.mp hall.2.2
      exact h name permission f hframe
    rw [if_neg htop, run_bind_of_ok htype1, run_bind_of_ok htype2, run_bind_of_ok htype3,
      if_pos htypes]
    exact run_invalidArguments _

end Runs

/-! ## What the callbacks do on every frame -/

/-- `events.register_event`: with a string and a function the entry is added and the frame is
empty, with anything else an error is raised and no global changes. -/
def EventCall (s : GlobalState σ) (L : ThreadId)
    (r : EStateM.Result Fault (GlobalState σ) Nat) : Prop :=
  match s.frames L with
  | [.string key, .function f] =>
    ∃ s', r = .ok 0 s' ∧ s.EntryAdded (ascii "__addon_events") key f s' ∧
      s'.frames = Function.update s.frames L [] ∧ s'.net = s.net
  | _ =>
    ∃ message s', r = .error (.raised message) s' ∧ s'.globals = s.globals ∧
      s'.tables = s.tables ∧ s'.net = s.net

/-- `commands.register_command`: with two strings and a function the command is registered
once; the entry is added if that succeeded, and an error is raised and no entry changes if it
did not. With anything else an error is raised and nothing changes. -/
def CommandCall (P : Platform) (register : String → String → String → σ → Bool × σ)
    (fileName : String) (s : GlobalState σ) (L : ThreadId)
    (r : EStateM.Result Fault (GlobalState σ) Nat) : Prop :=
  match s.frames L with
  | [.string name, .string permission, .function f] =>
    let result := register (P.toLower fileName) (P.luaToString permission) (P.luaToString name)
      s.net
    if result.1 then
      ∃ s', r = .ok 0 s' ∧ s.EntryAdded (ascii "__addon_commands") name f s' ∧
        s'.frames = Function.update s.frames L [] ∧ s'.net = result.2
    else
      ∃ message s', r = .error (.raised message) s' ∧ s'.net = result.2 ∧
        (∀ key, s'.entry (ascii "__addon_commands") key = s.entry (ascii "__addon_commands") key) ∧
        s'.globals = s.globals ∧
        (∀ key, key ≠ .string (ascii "__addon_commands") →
          (s'.tables s.globals).rawGet key = (s.tables s.globals).rawGet key) ∧
        ∀ u, u ≠ s.tableOf (ascii "__addon_commands") → u ≠ s.globals → s'.tables u = s.tables u
  | _ =>
    ∃ message s', r = .error (.raised message) s' ∧ s'.globals = s.globals ∧
      s'.tables = s.tables ∧ s'.net = s.net

theorem eventCall_luaAddonNewEvent (s : GlobalState σ) (L : ThreadId) :
    EventCall s L ((luaAddonNewEvent L).run s) := by
  unfold EventCall
  split
  case _ key f h =>
    refine ⟨_, run_luaAddonNewEvent h, ?_, ?_, ?_⟩
    · exact (s.addEntry_entryAdded _ key f).of_tables rfl rfl
    · show Function.update (s.addEntry (ascii "__addon_events") key f).frames L [] = _
      rw [GlobalState.addEntry_frames]
    · exact s.addEntry_net _ key f
  case _ h =>
    exact ⟨_, _, run_luaAddonNewEvent_invalid h, rfl, rfl, rfl⟩

theorem commandCall_luaAddonNewCommand (P : Platform)
    (register : String → String → String → σ → Bool × σ) (fileName : String)
    (s : GlobalState σ) (L : ThreadId) :
    CommandCall P register fileName s L ((luaAddonNewCommand P register fileName L).run s) := by
  unfold CommandCall
  split
  case _ name permission f h =>
    dsimp only
    split
    case _ hr =>
      refine ⟨_, run_luaAddonNewCommand_accepted h hr, ?_, ?_, rfl⟩
      · exact (s.addEntry_entryAdded _ name f).of_tables rfl rfl
      · show Function.update (s.addEntry (ascii "__addon_commands") name f).frames L [] = _
        rw [GlobalState.addEntry_frames]
    case _ hr =>
      refine ⟨_, _, run_luaAddonNewCommand_refused h (Bool.eq_false_iff.mpr hr), rfl,
        ?_, ?_, ?_, ?_⟩
      · exact s.entry_ensureTable _
      · exact s.ensureTable_globals _
      · intro key hkey
        exact (s.ensureTable_globalTable _ key).trans (if_neg hkey)
      · intro u hu hg
        exact s.ensureTable_tables_of_ne _ hu hg
  case _ h =>
    exact ⟨_, _, run_luaAddonNewCommand_invalid h, rfl, rfl, rfl⟩

/-- Both callbacks on every call frame, whatever the globals hold. -/
theorem registerCallbacks_run (P : Platform)
    (register : String → String → String → σ → Bool × σ) (fileName : String)
    (s : GlobalState σ) (L : ThreadId) :
    EventCall s L ((luaAddonNewEvent L).run s) ∧
      CommandCall P register fileName s L ((luaAddonNewCommand P register fileName L).run s) :=
  ⟨eventCall_luaAddonNewEvent s L, commandCall_luaAddonNewCommand P register fileName s L⟩

/-- A script has stored the global table in `__addon_events` and registers an event of that
name. -/
def globalTableAsEvents : GlobalState Unit where
  frames _ := [.string (ascii "__addon_events"), .function 7]
  tables _ := AList.singleton (.string (ascii "__addon_events")) (.table 0)
  globals := 0
  nextTable := 1
  globals_lt := Nat.one_pos
  net := ()

/-- The entry is the global itself, which then holds the function and no table. -/
theorem event_entry_replaces_global :
    ¬ ∀ (s : GlobalState Unit) (key : LuaString) (f : LuaFunction),
      s.frames 0 = [.string key, .function f] →
        ∃ s', (luaAddonNewEvent 0).run s = .ok 0 s' ∧
          s'.global (ascii "__addon_events") = .table (s.tableOf (ascii "__addon_events")) := by
  intro h
  obtain ⟨s', hrun, hglobal⟩ := h globalTableAsEvents _ _ rfl
  rw [run_luaAddonNewEvent rfl] at hrun
  cases hrun
  revert hglobal
  decide +kernel

end LuaAddons
