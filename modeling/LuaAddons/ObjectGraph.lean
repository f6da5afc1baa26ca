import LuaAddons.Script

/-!
# Delegates behind native callbacks

`LuaPushStdCallCFunction` hands the native stub of a delegate to Lua and keeps no reference to
the delegate, so a garbage collection frees a delegate that no field reaches, and the stub with
it. The packages `File` and `ObjectHelper` keep their delegates in a dictionary; `Initialize`
converts the method groups `lua_AddonNewIndex`, `lua_AddonNewEvent` and `lua_AddonNewCommand` on
the spot.

`ObjectGraph` has the objects and fields that the delegates could be reached through, between any
two statements of `Initialize`. `WellFormed` says where the delegates come from, and holds in
every state that loads, reloads and unloads lead to.
-/

namespace LuaAddons

/-! ## Objects and fields -/

/-- The identity of an `NLua.Lua` object and its Lua state. -/
abbrev LuaId := Nat

abbrev PackageId := Nat

/-- A delegate for a native callback, by where it was made. -/
inductive NativeDelegate where
  /-- By the constructor of a package, for its dictionary. -/
  | entry (package : PackageId) (key : String)
  /-- From a method group of the addon, for a Lua state. -/
  | methodGroup (lua : LuaId) (method : String)
  deriving DecidableEq

/-- `Packages.File` or `Packages.ObjectHelper`. -/
structure Package where
  /-- The addon whose `Initialize` made the package. -/
  owner : AddonId
  /-- `m_FunctionDelegates`. -/
  functionDelegates : List (String × NativeDelegate)
  /-- `m_Lua`, null in a `File`. -/
  lua : Option LuaId

/-- The fields of an addon that hold objects. -/
structure AddonFields where
  /-- The property `Addons` is the plugin. -/
  addons : Bool
  luaState : Option LuaId
  filePackage : Option PackageId
  objectHelperPackage : Option PackageId

structure NativeState where
  /-- The addon whose `Initialize` made the Lua state. -/
  owner : AddonId
  disposed : Bool
  /-- The delegates whose stubs were pushed. -/
  stubs : List NativeDelegate

structure ObjectGraph where
  addon : AddonId → AddonFields
  /-- The addons in `m_Addons`. -/
  loaded : List AddonId
  lua : LuaId → NativeState
  nextLua : LuaId
  package : PackageId → Package
  nextPackage : PackageId

/-- The state before anything is loaded: a new addon has null fields. -/
def ObjectGraph.start : ObjectGraph where
  addon _ :=
    { addons := false, luaState := none, filePackage := none, objectHelperPackage := none }
  loaded := []
  lua _ := { owner := 0, disposed := true, stubs := [] }
  nextLua := 0
  package _ := { owner := 0, functionDelegates := [], lua := none }
  nextPackage := 0

/-! ## Statements -/

namespace ObjectGraph

variable (g : ObjectGraph)

def setAddon (a : AddonId) (f : AddonFields → AddonFields) : ObjectGraph :=
  { g with addon := Function.update g.addon a (f (g.addon a)) }

def setLua (L : LuaId) (f : NativeState → NativeState) : ObjectGraph :=
  { g with lua := Function.update g.lua L (f (g.lua L)) }

def setPackage (p : PackageId) (f : Package → Package) : ObjectGraph :=
  { g with package := Function.update g.package p (f (g.package p)) }

/-- `new NLua.Lua()` for an addon. -/
def newLua (a : AddonId) : ObjectGraph :=
  { g.setLua g.nextLua (fun _ => { owner := a, disposed := false, stubs := [] }) with
    nextLua := g.nextLua + 1 }

/-- `new Packages.File()` and `new Packages.ObjectHelper()`: a dictionary of new delegates. -/
def newPackage (a : AddonId) (functions : List String) : ObjectGraph :=
  { g.setPackage g.nextPackage (fun _ =>
      { owner := a
        functionDelegates := functions.map (fun key => (key, .entry g.nextPackage key))
        lua := none }) with
    nextPackage := g.nextPackage + 1 }

/-- `LuaPushStdCallCFunction`. -/
def pushStdCallCFunction (L : LuaId) (fn : NativeDelegate) : ObjectGraph :=
  g.setLua L (fun x => { x with stubs := fn :: x.stubs })

/-- `RegisterTableFunction` for an entry of the dictionary of a package. -/
def registerTableFunction (L : LuaId) (p : PackageId) (key : String) : ObjectGraph :=
  match (g.package p).functionDelegates.lookup key with
  | none => g
  | some fn => g.pushStdCallCFunction L fn

end ObjectGraph

/-- The functions of the package `File`, in the order of its dictionary. -/
def fileFunctions : List String :=
  ["create_dir", "dir_exists", "file_exists", "get_dir", "get_dirs"]

/-- The functions of the package `ObjectHelper`. -/
def objectHelperFunctions : List String := ["get_field", "set_field"]

/-- The statements of `Addon.Initialize` that make objects, set fields or push stubs. -/
inductive Statement where
  | newLua
  | newFilePackage
  | registerFile (key : String)
  | newObjectHelperPackage
  /-- `this.m_Lua = state` in `ObjectHelper.RegisterPackage`. -/
  | setObjectHelperLua
  | registerObjectHelper (key : String)
  | pushMethodGroup (method : String)
  deriving DecidableEq

/-- The statements in order. -/
def installation : List Statement :=
  Statement.newLua :: Statement.newFilePackage :: fileFunctions.map Statement.registerFile ++
    Statement.newObjectHelperPackage :: Statement.setObjectHelperLua ::
      objectHelperFunctions.map Statement.registerObjectHelper ++
    [Statement.pushMethodGroup "lua_AddonNewIndex", Statement.pushMethodGroup "lua_AddonNewEvent",
      Statement.pushMethodGroup "lua_AddonNewCommand"]

/-- One statement of `Initialize` of the addon. -/
def Statement.exec (a : AddonId) (g : ObjectGraph) : Statement → ObjectGraph
  | .newLua => (g.newLua a).setAddon a (fun x => { x with luaState := some g.nextLua })
  | .newFilePackage =>
    (g.newPackage a fileFunctions).setAddon a (fun x => { x with
      filePackage := some g.nextPackage })
  | .registerFile key =>
    match (g.addon a).luaState, (g.addon a).filePackage with
    | some L, some p => g.registerTableFunction L p key
    | _, _ => g
  | .newObjectHelperPackage =>
    (g.newPackage a objectHelperFunctions).setAddon a (fun x => { x with
      objectHelperPackage := some g.nextPackage })
  | .setObjectHelperLua =>
    match (g.addon a).objectHelperPackage with
    | some p => g.setPackage p (fun x => { x with lua := (g.addon a).luaState })
    | none => g
  | .registerObjectHelper key =>
    match (g.addon a).luaState, (g.addon a).objectHelperPackage with
    | some L, some p => g.registerTableFunction L p key
    | _, _ => g
  | .pushMethodGroup method =>
    match (g.addon a).luaState with
    | some L => g.pushStdCallCFunction L (.methodGroup L method)
    | none => g

/-- `Addon.Release`. When `Dispose` throws, the Lua state stays. -/
def ObjectGraph.release (g : ObjectGraph) (a : AddonId) (throws : Bool) : ObjectGraph :=
  match (g.addon a).luaState with
  | none => g
  | some L =>
    if throws then g
    else (g.setLua L (fun x => { x with disposed := true })).setAddon a (fun x => { x with
      luaState := none })

/-- `Addon.Initialize` up to one of its statements: the end, the statement that throws, or the one
that runs. `throws` is about `Dispose` of a Lua state that is there. -/
def ObjectGraph.runInitialize (g : ObjectGraph) (a : AddonId) (throws : Bool) (count : Nat) :
    ObjectGraph :=
  (installation.take count).foldl (Statement.exec a)
    ((g.release a throws).setAddon a (fun x => { x with addons := true }))

inductive ObjectGraph.Step where
  | initializeAddon (a : AddonId) (throws : Bool) (count : Nat)
  | release (a : AddonId) (throws : Bool)
  /-- `m_Addons` changes. -/
  | setLoaded (addons : List AddonId)

def ObjectGraph.apply (g : ObjectGraph) : Step → ObjectGraph
  | .initializeAddon a throws count => g.runInitialize a throws count
  | .release a throws => g.release a throws
  | .setLoaded addons => { g with loaded := addons }

/-- The states that steps allowed where they are taken lead to. A load, a reload and an unload are
such steps one after the other, a failed load is an `Initialize` that stops and a `Release`. -/
inductive ObjectGraph.Reachable (allowed : ObjectGraph → Step → Prop) : ObjectGraph → Prop where
  | start : Reachable allowed .start
  | step {g : ObjectGraph} (h : Reachable allowed g) (x : Step) (hx : allowed g x) :
      Reachable allowed (g.apply x)

/-! ## What a collection keeps -/

inductive Object where
  | plugin
  | addon (a : AddonId)
  | lua (L : LuaId)
  | package (p : PackageId)
  | delegate (fn : NativeDelegate)

/-- A field of the first object holds the second one. -/
inductive Field (g : ObjectGraph) : Object → Object → Prop where
  | addons {a : AddonId} (h : (g.addon a).addons = true) : Field g (.addon a) .plugin
  | luaState {a : AddonId} {L : LuaId} (h : (g.addon a).luaState = some L) :
      Field g (.addon a) (.lua L)
  | filePackage {a : AddonId} {p : PackageId} (h : (g.addon a).filePackage = some p) :
      Field g (.addon a) (.package p)
  | objectHelperPackage {a : AddonId} {p : PackageId}
      (h : (g.addon a).objectHelperPackage = some p) : Field g (.addon a) (.package p)
  | loaded {a : AddonId} (h : a ∈ g.loaded) : Field g .plugin (.addon a)
  | functionDelegates {p : PackageId} {key : String} {fn : NativeDelegate}
      (h : (key, fn) ∈ (g.package p).functionDelegates) : Field g (.package p) (.delegate fn)
  | objectHelperLua {p : PackageId} {L : LuaId} (h : (g.package p).lua = some L) :
      Field g (.package p) (.lua L)

/-- A chain of fields leads from the addon to the delegate. -/
def ObjectGraph.Held (g : ObjectGraph) (a : AddonId) (fn : NativeDelegate) : Prop :=
  Relation.ReflTransGen (Field g) (.addon a) (.delegate fn)

/-- Every callback that a Lua state can call is held from its addon. -/
def ObjectGraph.CallbacksHeld (g : ObjectGraph) : Prop :=
  ∀ L, (g.lua L).disposed = false → ∀ fn ∈ (g.lua L).stubs, g.Held (g.lua L).owner fn

/-- The package is one of the addon. -/
def AddonFields.HasPackage (x : AddonFields) (p : PackageId) : Prop :=
  x.filePackage = some p ∨ x.objectHelperPackage = some p

/-- The callbacks of a Lua state that is not disposed of are all entries of packages that its
addon still has. -/
def ObjectGraph.PackagesOnly (g : ObjectGraph) : Prop :=
  ∀ L, (g.lua L).disposed = false → ∀ fn ∈ (g.lua L).stubs,
    ∃ p key, fn = .entry p key ∧ (g.addon (g.lua L).owner).HasPackage p

namespace ObjectGraph

/-! ## What the statements keep -/

/-- The delegates in the dictionaries are those that the constructors made, and the fields and
stubs of an addon come from its own `Initialize`. -/
structure WellFormed (g : ObjectGraph) : Prop where
  entries : ∀ p e, e ∈ (g.package p).functionDelegates → e.2 = .entry p e.1
  package : ∀ a p, (g.addon a).HasPackage p → p < g.nextPackage ∧ (g.package p).owner = a
  lua : ∀ a L, (g.addon a).luaState = some L → L < g.nextLua ∧ (g.lua L).owner = a
  stubs : ∀ L p key, .entry p key ∈ (g.lua L).stubs → p < g.nextPackage ∧
    (g.package p).owner = (g.lua L).owner ∧ (key, .entry p key) ∈ (g.package p).functionDelegates

theorem wellFormed_start : WellFormed .start where
  entries _ _ he := absurd he List.not_mem_nil
  package _ _ hp := by rcases hp with hp | hp <;> cases hp
  lua _ _ hL := by cases hL
  stubs _ _ _ hfn := absurd hfn List.not_mem_nil

section Updates

variable (g : ObjectGraph) (a : AddonId) (L : LuaId) (p : PackageId)

@[simp] theorem setAddon_addon_self (f : AddonFields → AddonFields) :
    (g.setAddon a f).addon a = f (g.addon a) := Function.update_self ..

theorem setAddon_addon_of_ne (f : AddonFields → AddonFields) {b : AddonId} (h : b ≠ a) :
    (g.setAddon a f).addon b = g.addon b := Function.update_of_ne h ..

theorem setAddon_lua (f : AddonFields → AddonFields) : (g.setAddon a f).lua = g.lua := rfl

@[simp] theorem setLua_lua_self (f : NativeState → NativeState) :
    (g.setLua L f).lua L = f (g.lua L) := Function.update_self ..

theorem setLua_lua_of_ne (f : NativeState → NativeState) {L' : LuaId} (h : L' ≠ L) :
    (g.setLua L f).lua L' = g.lua L' := Function.update_of_ne h ..

@[simp] theorem setPackage_package_self (f : Package → Package) :
    (g.setPackage p f).package p = f (g.package p) := Function.update_self ..

theorem setPackage_package_of_ne (f : Package → Package) {p' : PackageId} (h : p' ≠ p) :
    (g.setPackage p f).package p' = g.package p' := Function.update_of_ne h ..

theorem newLua_lua_self : (g.newLua a).lua g.nextLua =
    { owner := a, disposed := false, stubs := [] } := Function.update_self ..

theorem newLua_lua_of_ne {L : LuaId} (h : L ≠ g.nextLua) : (g.newLua a).lua L = g.lua L :=
  Function.update_of_ne h ..

theorem newPackage_package_self (functions : List String) :
    (g.newPackage a functions).package g.nextPackage =
      { owner := a
        functionDelegates := functions.map (fun key => (key, .entry g.nextPackage key))
        lua := none } := Function.update_self ..

theorem newPackage_package_of_ne (functions : List String) {p : PackageId}
    (h : p ≠ g.nextPackage) : (g.newPackage a functions).package p = g.package p :=
  Function.update_of_ne h ..

variable {g a L}

theorem release_of_none {throws : Bool} (h : (g.addon a).luaState = none) :
    g.release a throws = g := by rw [release, h]

theorem release_of_throws : g.release a true = g := by
  rw [release]
  split <;> rfl

theorem release_of_some (h : (g.addon a).luaState = some L) : g.release a false =
    (g.setLua L (fun x => { x with disposed := true })).setAddon a (fun x => { x with
      luaState := none }) := by
  rw [release, h]
  rfl

end Updates

namespace WellFormed

variable {g : ObjectGraph} {a : AddonId} {L : LuaId} {p : PackageId} {key : String}

theorem setAddon {f : AddonFields → AddonFields} (h : g.WellFormed)
    (hp : ∀ p, (f (g.addon a)).HasPackage p → p < g.nextPackage ∧ (g.package p).owner = a)
    (hL : ∀ L, (f (g.addon a)).luaState = some L → L < g.nextLua ∧ (g.lua L).owner = a) :
    (g.setAddon a f).WellFormed where
  entries := h.entries
  package b p hb := by
    by_cases hab : b = a
    · subst hab
      rw [setAddon_addon_self] at hb
      exact hp p hb
    · rw [setAddon_addon_of_ne _ _ _ hab] at hb
      exact h.package b p hb
  lua b L hb := by
    by_cases hab : b = a
    · subst hab
      rw [setAddon_addon_self] at hb
      exact hL L hb
    · rw [setAddon_addon_of_ne _ _ _ hab] at hb
      exact h.lua b L hb
  stubs := h.stubs

/-- A change of a Lua state, of which the new stubs are in the dictionaries. -/
theorem setLua {f : NativeState → NativeState} (h : g.WellFormed)
    (howner : (f (g.lua L)).owner = (g.lua L).owner)
    (hstubs : ∀ p key, .entry p key ∈ (f (g.lua L)).stubs → p < g.nextPackage ∧
      (g.package p).owner = (g.lua L).owner ∧
        (key, .entry p key) ∈ (g.package p).functionDelegates) :
    (g.setLua L f).WellFormed where
  entries := h.entries
  package := h.package
  lua b L' hb := by
    obtain ⟨hlt, hb'⟩ := h.lua b L' hb
    refine ⟨hlt, ?_⟩
    by_cases hL : L' = L
    · subst hL
      rw [setLua_lua_self, howner, hb']
    · rw [setLua_lua_of_ne _ _ _ hL, hb']
  stubs L' p key hfn := by
    by_cases hL : L' = L
    · subst hL
      rw [setLua_lua_self] at hfn ⊢
      rw [howner]
      exact hstubs p key hfn
    · rw [setLua_lua_of_ne _ _ _ hL] at hfn ⊢
      exact h.stubs L' p key hfn

theorem pushStdCallCFunction {fn : NativeDelegate} (h : g.WellFormed)
    (hfn : ∀ p key, fn = .entry p key → p < g.nextPackage ∧
      (g.package p).owner = (g.lua L).owner ∧
        (key, .entry p key) ∈ (g.package p).functionDelegates) :
    (g.pushStdCallCFunction L fn).WellFormed := by
  refine h.setLua rfl (fun p key hmem => ?_)
  rcases List.mem_cons.mp hmem with heq | hmem
  · exact hfn p key heq.symm
  · exact h.stubs L p key hmem

/-- The entry that is found is the delegate made for its key. -/
theorem registerTableFunction_cases (h : g.WellFormed) (L : LuaId) (p : PackageId)
    (key : String) : g.registerTableFunction L p key = g ∨
      (key, .entry p key) ∈ (g.package p).functionDelegates ∧
        g.registerTableFunction L p key = g.pushStdCallCFunction L (.entry p key) := by
  rw [ObjectGraph.registerTableFunction]
  cases hfn : (g.package p).functionDelegates.lookup key with
  | none => exact .inl rfl
  | some fn =>
    obtain ⟨l₁, l₂, hl, _⟩ := List.lookup_eq_some_iff.mp hfn
    have hmem : (key, fn) ∈ (g.package p).functionDelegates := by
      rw [hl]
      exact List.mem_append_right l₁ List.mem_cons_self
    obtain rfl : fn = .entry p key := h.entries p _ hmem
    exact .inr ⟨hmem, rfl⟩

theorem registerTableFunction (h : g.WellFormed) (hlt : p < g.nextPackage)
    (howner : (g.package p).owner = (g.lua L).owner) :
    (g.registerTableFunction L p key).WellFormed := by
  rcases h.registerTableFunction_cases L p key with heq | ⟨hmem, heq⟩
  · rw [heq]
    exact h
  · rw [heq]
    refine h.pushStdCallCFunction ?_
    rintro _ _ ⟨⟩
    exact ⟨hlt, howner, hmem⟩

theorem newLua (h : g.WellFormed) (a : AddonId) : (g.newLua a).WellFormed where
  entries := h.entries
  package := h.package
  lua b L hb := by
    obtain ⟨hlt, howner⟩ := h.lua b L hb
    refine ⟨Nat.lt_succ_of_lt hlt, ?_⟩
    rw [newLua_lua_of_ne _ _ (Nat.ne_of_lt hlt), howner]
  stubs L p key hfn := by
    by_cases hL : L = g.nextLua
    · subst hL
      rw [newLua_lua_self] at hfn
      cases hfn
    · rw [newLua_lua_of_ne _ _ hL] at hfn ⊢
      exact h.stubs L p key hfn

theorem newPackage (h : g.WellFormed) (a : AddonId) (functions : List String) :
    (g.newPackage a functions).WellFormed where
  entries p e he := by
    by_cases hp : p = g.nextPackage
    · subst hp
      rw [newPackage_package_self] at he
      obtain ⟨key, _, rfl⟩ := List.mem_map.mp he
      rfl
    · rw [newPackage_package_of_ne _ _ _ hp] at he
      exact h.entries p e he
  package b p hb := by
    obtain ⟨hlt, howner⟩ := h.package b p hb
    refine ⟨Nat.lt_succ_of_lt hlt, ?_⟩
    rw [newPackage_package_of_ne _ _ _ (Nat.ne_of_lt hlt), howner]
  lua := h.lua
  stubs L p key hfn := by
    obtain ⟨hlt, hrest⟩ := h.stubs L p key hfn
    refine ⟨Nat.lt_succ_of_lt hlt, ?_⟩
    rw [newPackage_package_of_ne _ _ _ (Nat.ne_of_lt hlt)]
    exact hrest

theorem setPackageLua (h : g.WellFormed) (L : Option LuaId) :
    (g.setPackage p (fun x => { x with lua := L })).WellFormed := by
  have hsame : ∀ p', ((g.setPackage p (fun x => { x with lua := L })).package p').owner =
      (g.package p').owner ∧
      ((g.setPackage p (fun x => { x with lua := L })).package p').functionDelegates =
        (g.package p').functionDelegates := by
    intro p'
    by_cases hp : p' = p
    · subst hp
      rw [setPackage_package_self]
      exact ⟨rfl, rfl⟩
    · rw [setPackage_package_of_ne _ _ _ hp]
      exact ⟨rfl, rfl⟩
  refine ⟨fun p' e he => ?_, fun b p' hb => ?_, h.lua, fun L' p' key hfn => ?_⟩
  · rw [(hsame p').2] at he
    exact h.entries p' e he
  · rw [(hsame p').1]
    exact h.package b p' hb
  · rw [(hsame p').1, (hsame p').2]
    exact h.stubs L' p' key hfn

/-- A new package for a field of its addon. -/
theorem setNewPackage {functions : List String} {f : AddonFields → AddonFields}
    (h : g.WellFormed)
    (hf : ∀ p, (f (g.addon a)).HasPackage p → (g.addon a).HasPackage p ∨ p = g.nextPackage)
    (hlua : (f (g.addon a)).luaState = (g.addon a).luaState) :
    ((g.newPackage a functions).setAddon a f).WellFormed := by
  refine (h.newPackage a functions).setAddon (fun p hp => ?_) (fun L hL => ?_)
  · rcases hf p hp with hp | rfl
    · exact (h.newPackage a functions).package a p hp
    · rw [newPackage_package_self]
      exact ⟨Nat.lt_succ_self _, rfl⟩
  · exact h.lua a L (hlua ▸ hL)

theorem exec (h : g.WellFormed) (a : AddonId) (x : Statement) : (x.exec a g).WellFormed := by
  cases x with
  | newLua =>
    rw [Statement.exec]
    refine (h.newLua a).setAddon (fun p hp => ?_) ?_
    · exact h.package a p hp
    · rintro _ ⟨⟩
      rw [newLua_lua_self]
      exact ⟨Nat.lt_succ_self _, rfl⟩
  | newFilePackage =>
    rw [Statement.exec]
    refine h.setNewPackage (fun p hp => ?_) ?_
    · rcases hp with hp | hp
      · exact .inr (Option.some.inj hp).symm
      · exact .inl (.inr hp)
    · rfl
  | newObjectHelperPackage =>
    rw [Statement.exec]
    refine h.setNewPackage (fun p hp => ?_) ?_
    · rcases hp with hp | hp
      · exact .inl (.inl hp)
      · exact .inr (Option.some.inj hp).symm
    · rfl
  | registerFile key =>
    rw [Statement.exec]
    split
    · rename_i L p hL hp
      obtain ⟨hlt, howner⟩ := h.package a p (.inl hp)
      exact h.registerTableFunction hlt (howner.trans (h.lua a L hL).2.symm)
    · exact h
  | registerObjectHelper key =>
    rw [Statement.exec]
    split
    · rename_i L p hL hp
      obtain ⟨hlt, howner⟩ := h.package a p (.inr hp)
      exact h.registerTableFunction hlt (howner.trans (h.lua a L hL).2.symm)
    · exact h
  | setObjectHelperLua =>
    rw [Statement.exec]
    split
    · exact h.setPackageLua _
    · exact h
  | pushMethodGroup method =>
    rw [Statement.exec]
    split
    · refine h.pushStdCallCFunction ?_
      rintro _ _ ⟨⟩
    · exact h

theorem release (h : g.WellFormed) (a : AddonId) (throws : Bool) :
    (g.release a throws).WellFormed := by
  rw [ObjectGraph.release]
  split
  · exact h
  split
  · exact h
  · refine (h.setLua rfl (fun p key hfn => h.stubs _ p key hfn)).setAddon
      (fun p hp => h.package a p hp) ?_
    rintro _ ⟨⟩

theorem exec_all (h : g.WellFormed) (a : AddonId) (statements : List Statement) :
    (statements.foldl (Statement.exec a) g).WellFormed := by
  induction statements generalizing g with
  | nil => exact h
  | cons x statements ih => exact ih (h.exec a x)

theorem apply (h : g.WellFormed) (x : Step) : (g.apply x).WellFormed := by
  cases x with
  | initializeAddon a throws count =>
    refine WellFormed.exec_all ?_ a _
    exact (h.release a throws).setAddon (fun p hp => (h.release a throws).package a p hp)
      (fun L hL => (h.release a throws).lua a L hL)
  | release a throws => exact h.release a throws
  | setLoaded addons => exact ⟨h.entries, h.package, h.lua, h.stubs⟩

end WellFormed

theorem Reachable.wellFormed {allowed : ObjectGraph → Step → Prop} {g : ObjectGraph}
    (h : Reachable allowed g) : g.WellFormed := by
  induction h with
  | start => exact wellFormed_start
  | step _ x _ ih => exact ih.apply x

end ObjectGraph

end LuaAddons
