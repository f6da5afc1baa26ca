import LuaAddons.Callbacks
import LuaAddons.Starting

/-!
# The register callbacks behind the scripts

A script registers events and commands in one step (`Script.registerEvent`,
`Script.registerCommand`). Below it stand the callbacks on the call frame, which work on
tables of the Lua state. `Holds` says which tables a script sees there, and each step of a
script is a run of the callback: the events by `Holds.addEvent`, the commands by
`addonNewCommand_refined`.
-/

namespace LuaAddons

open Exec

variable {σ H : Type}

/-- The global `name` holds a table of its own with the functions of `T`, or no table. -/
def HoldsTable (s : GlobalState σ) (name : LuaString) : Option FunctionTable → Prop
  | none => (s.global name).type ≠ .table
  | some T =>
    s.global name = .table (s.tableOf name) ∧ s.tableOf name ≠ s.globals ∧
      s.tableOf name < s.nextTable ∧
        ∀ k, s.entry name (.string k) = ((T.lookup k).map LuaValue.function).getD .nil

/-- The tables of the registered functions in a Lua state, as the scripts see them. -/
structure Holds (s : GlobalState σ) (lua : LuaState H) : Prop where
  events : HoldsTable s (ascii "__addon_events") lua.addonEvents
  commands : HoldsTable s (ascii "__addon_commands") lua.addonCommands
  distinct : ∀ t, s.global (ascii "__addon_events") = .table t →
    s.global (ascii "__addon_commands") ≠ .table t

namespace HoldsTable

variable {s s' : GlobalState σ} {name other : LuaString} {T U : Option FunctionTable}

/-- The table of a global depends on the global, and its entries on that table. -/
theorem of_eq (h : HoldsTable s name T) (hg : s'.global name = s.global name)
    (hglobals : s'.globals = s.globals) (hnext : s.nextTable ≤ s'.nextTable)
    (ht : ∀ t, s.global name = .table t → s'.tables t = s.tables t) : HoldsTable s' name T := by
  cases T with
  | none =>
    show (s'.global name).type ≠ .table
    rw [hg]
    exact h
  | some T =>
    obtain ⟨hglobal, hne, hlt, hentries⟩ := h
    have hglobal' : s'.global name = .table (s.tableOf name) := hg.trans hglobal
    have htable : s'.tableOf name = s.tableOf name := by
      rw [GlobalState.tableOf, hglobal']
    refine ⟨by rw [htable]; exact hglobal', by rw [htable, hglobals]; exact hne, ?_, ?_⟩
    · rw [htable]
      exact Nat.lt_of_lt_of_le hlt hnext
    · intro k
      rw [GlobalState.entry_of_global hglobal', ht _ hglobal, ← hentries k,
        GlobalState.entry_of_global hglobal]

theorem tableOf_ne_globals (h : HoldsTable s name T) : s.tableOf name ≠ s.globals := by
  cases T with
  | none =>
    rcases s.global_cases name with ⟨hg, _⟩ | ⟨_, ht, _⟩
    · have htype : (s.global name).type ≠ .table := h
      rw [hg] at htype
      exact absurd rfl htype
    · rw [ht]
      exact Nat.ne_of_gt s.globals_lt
  | some T => exact h.2.1

theorem lt_nextTable (h : HoldsTable s name T) {t : TableId} (hg : s.global name = .table t) :
    t < s.nextTable := by
  cases T with
  | none =>
    have htype : (s.global name).type ≠ .table := h
    rw [hg] at htype
    exact absurd rfl htype
  | some T =>
    have htable : s.tableOf name = t := by rw [GlobalState.tableOf, hg]
    rw [← htable]
    exact h.2.2.1

theorem ne_globals (h : HoldsTable s name T) {t : TableId} (hg : s.global name = .table t) :
    t ≠ s.globals := by
  have htable : s.tableOf name = t := by rw [GlobalState.tableOf, hg]
  rw [← htable]
  exact h.tableOf_ne_globals

/-- A global that held no table holds an empty one. -/
theorem ensureTable (h : HoldsTable s name T) :
    HoldsTable (s.ensureTable name) name (some (T.getD ∅)) := by
  have hglobal := s.ensureTable_global name
  have htable : (s.ensureTable name).tableOf name = s.tableOf name := by
    rw [GlobalState.tableOf, hglobal]
  refine ⟨by rw [htable]; exact hglobal, ?_, ?_, ?_⟩
  · rw [htable, GlobalState.ensureTable_globals]
    exact h.tableOf_ne_globals
  · rw [htable]
    rcases s.global_cases name with ⟨hg, hs, _⟩ | ⟨_, ht, hs, _⟩
    · rw [hs]
      exact h.lt_nextTable hg
    · rw [hs, ht]
      exact Nat.lt_succ_self _
  · intro k
    rw [GlobalState.entry_ensureTable]
    cases T with
    | none =>
      rcases s.global_cases name with ⟨hg, _⟩ | ⟨_, _, _, he⟩
      · have htype : (s.global name).type ≠ .table := h
        rw [hg] at htype
        exact absurd rfl htype
      · rw [he]
        rfl
    | some T => exact h.2.2.2 k

theorem global_ensureTable (s : GlobalState σ) (hne : other ≠ name) :
    (s.ensureTable name).global other = s.global other := by
  have hkey : LuaValue.string other ≠ .string name := fun h => hne (LuaValue.string.inj h)
  rw [GlobalState.global, GlobalState.ensureTable_globals, GlobalState.ensureTable_globalTable,
    if_neg hkey]
  rfl

theorem ensureTable_other (ho : HoldsTable s other U) (hne : other ≠ name) :
    HoldsTable (s.ensureTable name) other U := by
  rcases s.global_cases name with ⟨_, hs, _⟩ | ⟨_, ht, hs, _⟩
  · rw [hs]
    exact ho
  · apply ho.of_eq
    · exact global_ensureTable s hne
    · exact GlobalState.ensureTable_globals s name
    · rw [hs]
      exact Nat.le_succ _
    · intro t hg
      have hlt := ho.lt_nextTable hg
      apply s.ensureTable_tables_of_ne name
      · rw [ht]
        exact Nat.ne_of_lt hlt
      · exact ho.ne_globals hg

theorem setEntry {T : FunctionTable} (h : HoldsTable s name (some T)) (key : LuaString)
    (f : LuaFunction) :
    HoldsTable (s.setTable (s.tableOf name)
      ((s.tables (s.tableOf name)).insert (.string key) (.function f))) name
      (some (T.insert key f)) := by
  obtain ⟨hglobal, hne, hlt, hentries⟩ := h
  have hglobal' : (s.setTable (s.tableOf name) ((s.tables (s.tableOf name)).insert
      (.string key) (.function f))).global name = .table (s.tableOf name) := by
    rw [GlobalState.global, GlobalState.setTable_globals,
      GlobalState.setTable_tables_of_ne _ _ _ hne.symm]
    exact hglobal
  have htable : (s.setTable (s.tableOf name) ((s.tables (s.tableOf name)).insert
      (.string key) (.function f))).tableOf name = s.tableOf name := by
    rw [GlobalState.tableOf, hglobal']
  refine ⟨by rw [htable]; exact hglobal', by rw [htable]; exact hne, by rw [htable]; exact hlt,
    ?_⟩
  intro k
  rw [GlobalState.entry_of_global hglobal', GlobalState.setTable_tables,
    LuaTable.rawGet_insert_string _ _ (by simp)]
  by_cases hk : k = key
  · rw [hk, if_pos rfl, AList.lookup_insert]
    rfl
  · rw [if_neg (fun h => hk (LuaValue.string.inj h)), AList.lookup_insert_ne hk, ← hentries k,
      GlobalState.entry_of_global hglobal]

theorem setTable_other (ho : HoldsTable s other U) {t : TableId} (ht : t ≠ s.globals)
    (hd : s.global other ≠ .table t) (table : LuaTable) :
    HoldsTable (s.setTable t table) other U := by
  apply ho.of_eq
  · rw [GlobalState.global, GlobalState.setTable_globals,
      GlobalState.setTable_tables_of_ne _ _ _ ht.symm]
    rfl
  · rfl
  · exact Nat.le_refl _
  · intro u hg
    apply GlobalState.setTable_tables_of_ne
    rintro rfl
    exact hd hg

/-- Two globals that hold no table in common hold none after one of them got a table. -/
theorem global_ne (ho : HoldsTable s other U)
    (hd : ∀ t, s.global name = .table t → s.global other ≠ .table t) :
    s.global other ≠ .table (s.tableOf name) := by
  rcases s.global_cases name with ⟨hg, _⟩ | ⟨_, ht, _⟩
  · exact hd _ hg
  · intro hg
    have hlt := ho.lt_nextTable hg
    rw [ht] at hlt
    exact Nat.lt_irrefl _ hlt

theorem addEntry (h : HoldsTable s name T) (key : LuaString) (f : LuaFunction) :
    HoldsTable (s.addEntry name key f) name (some ((T.getD ∅).insert key f)) := by
  have htable : (s.ensureTable name).tableOf name = s.tableOf name := by
    rw [GlobalState.tableOf, s.ensureTable_global name]
  have hset := h.ensureTable.setEntry key f
  rw [htable] at hset
  exact hset

theorem addEntry_other (h : HoldsTable s name T) (ho : HoldsTable s other U) (hne : other ≠ name)
    (hd : ∀ t, s.global name = .table t → s.global other ≠ .table t) (key : LuaString)
    (f : LuaFunction) : HoldsTable (s.addEntry name key f) other U := by
  apply (ho.ensureTable_other hne).setTable_other
  · rw [GlobalState.ensureTable_globals]
    exact h.tableOf_ne_globals
  · rw [global_ensureTable s hne]
    exact ho.global_ne hd

theorem global_addEntry (h : HoldsTable s name T) (hne : other ≠ name) (key : LuaString)
    (f : LuaFunction) : (s.addEntry name key f).global other = s.global other := by
  have hadd := s.addEntry_entryAdded name key f
  rw [GlobalState.global, hadd.globals]
  exact hadd.globalTable h.tableOf_ne_globals _ (fun h => hne (LuaValue.string.inj h))

end HoldsTable

namespace Holds

variable {s : GlobalState σ} {lua : LuaState H}

theorem ascii_events_ne : ascii "__addon_events" ≠ ascii "__addon_commands" := by decide

/-- The frames and the .NET side play no part. -/
theorem of_tables {s' : GlobalState σ} (h : Holds s lua) (hglobals : s'.globals = s.globals)
    (hnext : s'.nextTable = s.nextTable) (htables : s'.tables = s.tables) : Holds s' lua := by
  have hglobal : ∀ name, s'.global name = s.global name := by
    intro name
    rw [GlobalState.global, GlobalState.global, htables, hglobals]
  have hle : s.nextTable ≤ s'.nextTable := Nat.le_of_eq hnext.symm
  refine ⟨h.events.of_eq (hglobal _) hglobals hle ?_,
    h.commands.of_eq (hglobal _) hglobals hle ?_, ?_⟩
  · exact fun t _ => congrFun htables t
  · exact fun t _ => congrFun htables t
  · intro t
    rw [hglobal, hglobal]
    exact h.distinct t

theorem addEvent (h : Holds s lua) (key : LuaString) (f : LuaFunction) :
    Holds (s.addEntry (ascii "__addon_events") key f)
      { lua with addonEvents := some ((lua.addonEvents.getD ∅).insert key f) } where
  events := h.events.addEntry key f
  commands := h.events.addEntry_other h.commands ascii_events_ne.symm h.distinct key f
  distinct t ht := by
    have hadd := s.addEntry_entryAdded (ascii "__addon_events") key f
    rw [hadd.global (.inl h.events.tableOf_ne_globals)] at ht
    cases ht
    rw [h.events.global_addEntry ascii_events_ne.symm]
    exact h.commands.global_ne h.distinct

theorem distinct_symm (h : Holds s lua) (t : TableId)
    (ht : s.global (ascii "__addon_commands") = .table t) :
    s.global (ascii "__addon_events") ≠ .table t :=
  fun he => h.distinct t he ht

theorem addCommand (h : Holds s lua) (key : LuaString) (f : LuaFunction) :
    Holds (s.addEntry (ascii "__addon_commands") key f)
      { lua with addonCommands := some ((lua.addonCommands.getD ∅).insert key f) } where
  events := h.commands.addEntry_other h.events ascii_events_ne h.distinct_symm key f
  commands := h.commands.addEntry key f
  distinct t ht := by
    have hadd := s.addEntry_entryAdded (ascii "__addon_commands") key f
    rw [hadd.global (.inl h.commands.tableOf_ne_globals)]
    rw [h.commands.global_addEntry ascii_events_ne] at ht
    rintro heq
    cases heq
    exact h.events.global_ne h.distinct_symm ht

theorem ensureCommands (h : Holds s lua) :
    Holds (s.ensureTable (ascii "__addon_commands"))
      { lua with addonCommands := some (lua.addonCommands.getD ∅) } where
  events := h.events.ensureTable_other ascii_events_ne
  commands := h.commands.ensureTable
  distinct t ht := by
    rw [GlobalState.ensureTable_global]
    rw [HoldsTable.global_ensureTable s ascii_events_ne] at ht
    rintro heq
    cases heq
    exact h.events.global_ne h.distinct_symm ht

end Holds

/-! ## Steps of a script -/

variable {s : GlobalState σ} {lua : LuaState H} {L : ThreadId}

/-- `Script.registerEvent` is a run of `lua_AddonNewEvent`. -/
theorem registerEvent_refined (h : Holds s lua) {key : LuaString} {f : LuaFunction}
    (hframe : s.frames L = [.string key, .function f]) :
    ∃ s', (luaAddonNewEvent L).run s = .ok 0 s' ∧
      Holds s' { lua with addonEvents := some ((lua.addonEvents.getD ∅).insert key f) } :=
  ⟨_, run_luaAddonNewEvent hframe, (h.addEvent key f).of_tables rfl rfl rfl⟩

/-- `addonNewCommand`, the step of `Script.registerCommand`, is a run of
`lua_AddonNewCommand`: both ask the registry once, agree on the outcome and leave the same
tables. -/
theorem addonNewCommand_refined (P : Platform) {p : Plugin H} {a : AddonId}
    {s : GlobalState Registry} (h : Holds s lua) (hnet : s.net = p.registry)
    (hlua : (p.objects a).luaState = some lua) {name permission : LuaString} {f : LuaFunction}
    (hframe : s.frames L = [.string name, .string permission, .function f]) :
    ∃ ok p' lua' s', (addonNewCommand P a name permission f).run p = .ok ok p' ∧
      (p'.objects a).luaState = some lua' ∧ Holds s' lua' ∧ s'.net = p'.registry ∧
        ((luaAddonNewCommand P (registerCommand P) (p.objects a).fileName L).run s = .ok 0 s' ∧
            ok = true ∨
          (∃ message, (luaAddonNewCommand P (registerCommand P) (p.objects a).fileName L).run s =
            .error (.raised message) s') ∧ ok = false) := by
  have hresult : registerCommand P (P.toLower (p.objects a).fileName) (P.luaToString permission)
      (P.luaToString name) p.registry =
        registrationResult P (registerCommand P) (p.objects a).fileName s name permission := by
    rw [registrationResult, hnet]
  unfold addonNewCommand
  simp only [EStateM.run_bind, getAddon, EStateM.run_get, modifyLua, modifyAddon,
    EStateM.run_modify, EStateM.run_pure, onRegistry, run_zoom, EStateM.run_modifyGet,
    Plugin.modifyAddon, Function.update_self, hlua, hresult]
  cases hok : (registrationResult P (registerCommand P) (p.objects a).fileName s name
      permission).1 with
  | true =>
    simp only [if_true, EStateM.run_bind, EStateM.run_modify, EStateM.run_pure]
    refine ⟨true, _,
      { lua with addonCommands := some ((lua.addonCommands.getD ∅).insert name f) }, _, rfl, ?_,
      ?_, ?_, .inl ⟨run_luaAddonNewCommand_accepted hframe hok, rfl⟩⟩
    · simp [Plugin.storeCommand, Plugin.modifyAddon]
    · exact (h.addCommand name f).of_tables rfl rfl rfl
    · rw [storeCommand_registry]
      rfl
  | false =>
    refine ⟨false, _, { lua with addonCommands := some (lua.addonCommands.getD ∅) }, _, rfl, ?_,
      ?_, rfl, .inr ⟨⟨_, run_luaAddonNewCommand_refused hframe hok⟩, rfl⟩⟩
    · simp
    · exact h.ensureCommands.of_tables rfl rfl rfl

end LuaAddons
