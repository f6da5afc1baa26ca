import LuaAddons.LuaApi
import LuaAddons.Runs

/-!
# The guard of the `_addon` table

`Initialize` gives the `_addon` table the metamethod `__newindex`, the callback
`lua_AddonNewIndex`, which refuses a value that is no string under one of the required
fields. Lua asks the metamethod only about keys the table does not hold, so the guard says
nothing about the second assignment to a field.

`luaSetTable` is one assignment with the callback on a frame of its own, and `assignAll` a
script's assignments in order. `requiredAreStrings_iff` says exactly which sequences keep
the required fields strings.
-/

namespace LuaAddons

open Exec

variable {σ : Type}

/-! ## The callback and the assignment -/

/-- `Addon.lua_AddonNewIndex`. -/
def luaAddonNewIndex (P : Platform) (L : ThreadId) : Api σ Nat := do
  let type ← luaType L (-2)
  if type ≠ .string then
    luaRawSet L 1
    pure 0
  else
    let key ← luaToString P L (-2)
    let valueType ← luaType L (-1)
    if requiredFields.any (P.compareIgnoreCase key) ∧ valueType ≠ .string then
      luaPush L (.string (P.luaPushString
        ("Invalid value for _addon." ++ key ++ "! Expected a string.")))
      luaError L
    else
      luaRawSet L 1
      pure 0

/-- `_addon[key] = value`, where `_addon` is the table `t` (`luaV_settable`). A present key is
overwritten in place; for any other one the callback runs on a frame of its own. -/
def luaSetTable (P : Platform) (L : ThreadId) (t : TableId) (key value : LuaValue) :
    Api σ Unit := do
  let s ← get
  if (s.tables t).rawGet key = .nil then
    set (s.setFrame L [.table t, key, value])
    let _ ← luaAddonNewIndex P L
    modify (fun s' => s'.setFrame L (s.frames L))
  else set (s.setTable t ((s.tables t).put key value))

/-- Assignments in order, each in its thread; an error ends only the assignment. -/
def assignAll (P : Platform) (t : TableId) (s : GlobalState σ)
    (assignments : List (ThreadId × LuaValue × LuaValue)) : GlobalState σ :=
  assignments.foldl (fun s a => after (luaSetTable P a.1 t a.2.1 a.2.2) s) s

/-! ## Runs -/

section Runs

variable {s : GlobalState σ} {L : ThreadId} {t : TableId} {key value : LuaValue} {P : Platform}

theorem type_ne_string (v : LuaValue) : v.type ≠ .string ↔ v.isString = false := by
  cases v <;> simp [LuaValue.type, LuaValue.isString]

/-- The guard lets the callback set the entry. -/
theorem run_luaAddonNewIndex (h : s.frames L = [.table t, key, value])
    (hg : (isRequired P key && !value.isString) = false) :
    (luaAddonNewIndex P L).run s = (do luaRawSet L 1; pure 0 : Api σ Nat).run s := by
  have htype : (luaType L (-2)).run s = .ok key.type s := run_luaType [.table t] [value] h rfl
  have hvalue : (luaType L (-1)).run s = .ok value.type s :=
    run_luaType [.table t, key] [] h rfl
  rw [luaAddonNewIndex, run_bind_of_ok htype]
  by_cases hkey : key.type ≠ .string
  · rw [if_pos hkey]
  · obtain ⟨k, rfl⟩ := LuaValue.type_eq_string.mp (not_not.mp hkey)
    have hname : (luaToString P L (-2)).run s = .ok (P.luaToString k) s :=
      run_luaToString [.table t] [value] h rfl
    have hguard : ¬ (requiredFields.any (P.compareIgnoreCase (P.luaToString k)) = true ∧
        value.type ≠ .string) := by
      rintro ⟨hrequired, hstring⟩
      have hr : isRequired P (.string k) = true := hrequired
      rw [hr, (type_ne_string value).mp hstring] at hg
      exact absurd hg (by decide)
    rw [if_neg hkey, run_bind_of_ok hname, run_bind_of_ok hvalue, if_neg hguard]

/-- The guard raises an error. -/
theorem run_luaAddonNewIndex_refused (h : s.frames L = [.table t, key, value])
    (hg : (isRequired P key && !value.isString) = true) :
    ∃ v s', (luaAddonNewIndex P L).run s = .error (.luaError v) s' ∧ s'.tables = s.tables := by
  rw [Bool.and_eq_true, Bool.not_eq_true'] at hg
  obtain ⟨k, rfl⟩ : ∃ k, key = .string k := by
    cases key with
    | string k => exact ⟨k, rfl⟩
    | _ => exact absurd hg.1 Bool.false_ne_true
  have htype : (luaType L (-2)).run s = .ok .string s := run_luaType [.table t] [value] h rfl
  have hvalue : (luaType L (-1)).run s = .ok value.type s :=
    run_luaType [.table t, .string k] [] h rfl
  have hname : (luaToString P L (-2)).run s = .ok (P.luaToString k) s :=
    run_luaToString [.table t] [value] h rfl
  have hguard : requiredFields.any (P.compareIgnoreCase (P.luaToString k)) = true ∧
      value.type ≠ .string := ⟨hg.1, (type_ne_string value).mpr hg.2⟩
  rw [luaAddonNewIndex, run_bind_of_ok htype, if_neg (not_not.mpr rfl), run_bind_of_ok hname,
    run_bind_of_ok hvalue, if_pos hguard, run_bind_of_ok run_luaPush,
    run_luaError (s.frames L) (GlobalState.setFrame_frames _ _ _)]
  exact ⟨_, _, rfl, rfl⟩

/-- One assignment is `AddonTable.assign`. -/
theorem run_luaSetTable {table : AddonTable}
    (h : AddonTable.assign P (s.tables t) key value = some table) :
    (luaSetTable P L t key value).run s = .ok () (s.setTable t table) := by
  unfold AddonTable.assign AddonTable.newIndex at h
  rw [luaSetTable, run_bind_of_ok (EStateM.run_get _)]
  by_cases hkey : (s.tables t).rawGet key = .nil
  · rw [if_pos hkey] at h ⊢
    by_cases hg : (isRequired P key && !value.isString) = true
    · rw [if_pos hg] at h
      cases h
    · rw [if_neg hg] at h
      have hframe := s.setFrame_frames L [.table t, key, value]
      have hcallback : (luaAddonNewIndex P L).run (s.setFrame L [.table t, key, value]) =
          .ok 0 ((s.setTable t table).setFrame L [.table t]) := by
        rw [run_luaAddonNewIndex hframe (Bool.eq_false_iff.mpr hg),
          run_bind_of_ok (run_luaRawSet [] hframe h), GlobalState.setFrame_setTable,
          GlobalState.setFrame_setFrame]
        rfl
      have hframes : (s.setTable t table).setFrame L (s.frames L) = s.setTable t table :=
        (s.setTable t table).setFrame_self L
      rw [run_bind_of_ok (EStateM.run_set _ _), run_bind_of_ok hcallback, EStateM.run_modify,
        GlobalState.setFrame_setFrame, hframes]
  · rw [if_neg hkey] at h ⊢
    cases h
    rfl

/-- An assignment that raises an error leaves the tables as they are. -/
theorem run_luaSetTable_none (h : AddonTable.assign P (s.tables t) key value = none) :
    ∃ e s', (luaSetTable P L t key value).run s = .error e s' ∧ e ≠ .undefined ∧
      s'.tables = s.tables := by
  unfold AddonTable.assign AddonTable.newIndex at h
  rw [luaSetTable, run_bind_of_ok (EStateM.run_get _)]
  by_cases hkey : (s.tables t).rawGet key = .nil
  · rw [if_pos hkey] at h ⊢
    rw [run_bind_of_ok (EStateM.run_set _ _), EStateM.run_bind]
    have hframe := s.setFrame_frames L [.table t, key, value]
    by_cases hg : (isRequired P key && !value.isString) = true
    · obtain ⟨v, s', hrun, htables⟩ := run_luaAddonNewIndex_refused hframe hg
      rw [hrun]
      exact ⟨_, _, rfl, by simp, htables⟩
    · rw [if_neg hg] at h
      obtain ⟨message, hset⟩ := run_luaRawSet_none [] hframe h
      rw [run_luaAddonNewIndex hframe (Bool.eq_false_iff.mpr hg), EStateM.run_bind, hset]
      exact ⟨_, _, rfl, by simp, rfl⟩
  · rw [if_neg hkey] at h
    cases h

theorem after_luaSetTable :
    (after (luaSetTable P L t key value) s).tables t =
      (AddonTable.assign P (s.tables t) key value).getD (s.tables t) := by
  cases h : AddonTable.assign P (s.tables t) key value with
  | none =>
    obtain ⟨e, s', hrun, _, htables⟩ := run_luaSetTable_none (L := L) h
    rw [after_of_error hrun, htables]
    rfl
  | some table =>
    rw [after_of_run (run_luaSetTable h), GlobalState.setTable_tables]
    rfl

end Runs

/-! ## The required fields -/

/-- Every required field the table holds is a string. -/
def RequiredAreStrings (P : Platform) (table : AddonTable) : Prop :=
  ∀ key, isRequired P key → table.rawGet key ≠ .nil → (table.rawGet key).isString

/-- The assignment does not overwrite a required field with a value other than a string. -/
def SafeAssignment (P : Platform) (table : AddonTable) (key value : LuaValue) : Prop :=
  isRequired P key → table.rawGet key ≠ .nil → value ≠ .nil → value.isString

section Fields

variable {P : Platform} {table table' : AddonTable} {key value : LuaValue}

theorem isRequired_asKey (key : LuaValue) : isRequired P key.asKey = isRequired P key := by
  cases key <;> rfl

/-- An assignment that takes effect sets the entry; the guard saw it if the key was new. -/
theorem assign_eq_some (h : AddonTable.assign P table key value = some table') :
    table' = table.put key value ∧
      (isRequired P key → table.rawGet key = .nil → value.isString) := by
  unfold AddonTable.assign AddonTable.newIndex LuaTable.rawSet at h
  by_cases hkey : table.rawGet key = .nil
  · rw [if_pos hkey] at h
    by_cases hg : (isRequired P key && !value.isString) = true
    · rw [if_pos hg] at h
      cases h
    · rw [if_neg hg] at h
      refine ⟨?_, fun hrequired _ => ?_⟩
      · by_cases hinvalid : key = .nil ∨ key.isNaN = true
        · rw [if_pos hinvalid] at h
          cases h
        · rw [if_neg hinvalid] at h
          cases h
          rfl
      · rw [hrequired, Bool.true_and, Bool.not_eq_true', Bool.not_eq_false] at hg
        exact hg
  · rw [if_neg hkey] at h
    cases h
    exact ⟨rfl, fun _ h => absurd h hkey⟩

theorem assign_of_present (h : table.rawGet key ≠ .nil) :
    AddonTable.assign P table key value = some (table.put key value) := if_neg h

/-- Step: an assignment keeps the required fields strings when it is safe. -/
theorem RequiredAreStrings.assign (h : RequiredAreStrings P table)
    (hsafe : SafeAssignment P table key value) :
    RequiredAreStrings P ((AddonTable.assign P table key value).getD table) := by
  cases ha : AddonTable.assign P table key value with
  | none => exact h
  | some table' =>
    obtain ⟨rfl, hnew⟩ := assign_eq_some ha
    intro k hrequired hpresent
    rw [Option.getD_some, LuaTable.rawGet_put] at hpresent ⊢
    by_cases hk : k.asKey = key.asKey
    · rw [if_pos hk] at hpresent ⊢
      have hkey : isRequired P key = true := by
        rw [← isRequired_asKey, ← hk, isRequired_asKey]
        exact hrequired
      by_cases hold : table.rawGet key = .nil
      · exact hnew hkey hold
      · exact hsafe hkey hold hpresent
    · rw [if_neg hk] at hpresent ⊢
      exact h k hrequired hpresent

/-- An assignment that is not safe leaves a required field that is no string. -/
theorem SafeAssignment.of_assign
    (h : RequiredAreStrings P ((AddonTable.assign P table key value).getD table)) :
    SafeAssignment P table key value := by
  intro hrequired hpresent hvalue
  have hkey := h key hrequired
  rw [assign_of_present hpresent, Option.getD_some, LuaTable.rawGet_put, if_pos rfl] at hkey
  exact hkey hvalue

theorem requiredAreStrings_new {H : Type} (env : Env H) (name : String) :
    RequiredAreStrings P (env.newLuaState P name).addonTable := by
  intro key _ hpresent
  have hlookup : (env.newLuaState P name).addonTable =
      LuaTable.put ∅ (.string (ascii "path"))
        (.string (P.luaPushString (env.addonPath name))) := by
    rw [LuaTable.put, if_neg (by simp), LuaValue.asKey_string, AList.insert_empty]
    rfl
  rw [hlookup, LuaTable.rawGet_put] at hpresent ⊢
  by_cases hk : key.asKey = (LuaValue.string (ascii "path")).asKey
  · rw [if_pos hk]
    rfl
  · rw [if_neg hk, LuaTable.rawGet_empty] at hpresent
    exact absurd rfl hpresent

end Fields

/-! ## Sequences of assignments -/

theorem assignAll_append (P : Platform) (t : TableId) (s : GlobalState σ)
    (p : List (ThreadId × LuaValue × LuaValue)) (L : ThreadId) (key value : LuaValue) :
    (assignAll P t s (p ++ [(L, key, value)])).tables t =
      (AddonTable.assign P ((assignAll P t s p).tables t) key value).getD
        ((assignAll P t s p).tables t) := by
  rw [assignAll, List.foldl_append]
  exact after_luaSetTable

/-- Run: safe assignments keep the required fields strings. -/
theorem requiredAreStrings_assignAll {P : Platform} {t : TableId} {s : GlobalState σ}
    (h : RequiredAreStrings P (s.tables t)) :
    ∀ p : List (ThreadId × LuaValue × LuaValue),
      (∀ q L key value, q ++ [(L, key, value)] <+: p →
        SafeAssignment P ((assignAll P t s q).tables t) key value) →
      RequiredAreStrings P ((assignAll P t s p).tables t) := by
  intro p
  induction p using List.reverseRecOn with
  | nil => exact fun _ => h
  | append_singleton p a ih =>
    obtain ⟨L, key, value⟩ := a
    intro hsafe
    rw [assignAll_append]
    have hbefore := ih fun q L key value hq =>
      hsafe q L key value (hq.trans (List.prefix_append _ _))
    apply hbefore.assign
    exact hsafe p L key value (List.prefix_refl _)

/-- In a script's assignments to the `_addon` table of `Initialize`, the required fields are
strings at every moment, and an assignment that raises an error leaves the table unchanged,
if and only if no assignment overwrites a required field with a value other than a string. -/
theorem requiredAreStrings_iff {H : Type} (P : Platform) (env : Env H) (name : String)
    (s : GlobalState σ) (t : TableId) (l : List (ThreadId × LuaValue × LuaValue)) :
    let start := s.setTable t (env.newLuaState P name).addonTable
    (∀ p, p <+: l → RequiredAreStrings P ((assignAll P t start p).tables t) ∧
      ∀ L key value, p ++ [(L, key, value)] <+: l → ∀ e s',
        (luaSetTable P L t key value).run (assignAll P t start p) = .error e s' →
          s'.tables t = (assignAll P t start p).tables t) ↔
    ∀ p L key value, p ++ [(L, key, value)] <+: l →
      SafeAssignment P ((assignAll P t start p).tables t) key value := by
  intro start
  constructor
  · intro h p L key value hp
    have hnext := (h _ hp).1
    rw [assignAll_append] at hnext
    exact .of_assign hnext
  · intro h p hp
    refine ⟨?_, ?_⟩
    · have hstart : RequiredAreStrings P (start.tables t) := by
        rw [GlobalState.setTable_tables]
        exact requiredAreStrings_new env name
      exact requiredAreStrings_assignAll hstart p
        fun q L key value hq => h q L key value (hq.trans hp)
    · intro L key value _ e s' hrun
      cases ha : AddonTable.assign P ((assignAll P t start p).tables t) key value with
      | none =>
        obtain ⟨e', s'', hrun', _, htables⟩ := run_luaSetTable_none (L := L) ha
        rw [hrun'] at hrun
        cases hrun
        rw [htables]
      | some table =>
        rw [run_luaSetTable ha] at hrun
        cases hrun

/-- A Lua state without values whose `_addon` table is to be table 1. -/
def blankState : GlobalState Unit where
  frames _ := []
  tables _ := ∅
  globals := 0
  nextTable := 2
  globals_lt := Nat.two_pos
  net := ()

/-- `_addon.name = "n"; _addon.name = 5`: the guard never sees the second assignment. -/
theorem number_overwrites_name :
    ¬ ∀ (s : GlobalState Unit) (l : List (ThreadId × LuaValue × LuaValue)),
      let start := s.setTable 1 ((plainEnv (fun _ => none) (fun _ _ => .raise ())).newLuaState
        asciiPlatform "Foo").addonTable
      ∀ p, p <+: l → RequiredAreStrings asciiPlatform
        ((assignAll asciiPlatform 1 start p).tables 1) := by
  intro h
  have hname := h blankState
    [(0, .string (ascii "name"), .string (ascii "n")),
      (0, .string (ascii "name"), .number 0x4014000000000000)] _
    (List.prefix_refl _) (.string (ascii "name"))
  revert hname
  decide +kernel

end LuaAddons
