import LuaAddons.ObjectGraph
import LuaAddons.Runs

/-!
# Callbacks that are kept alive

A callback is kept alive when a chain of fields leads from its addon to its delegate.
`callbacks_held_iff` tells in which reachable states all callbacks are. The runs of the plugin
are simulated by object graphs (`Reach.simulated`), and in none of their states is the callback
behind `_addon.__newindex` kept alive (`Reach.newIndex_not_held`).
-/

namespace LuaAddons

namespace ObjectGraph

/-! ## Chains of fields -/

section Chains

variable {g : ObjectGraph} {a : AddonId} {fn : NativeDelegate}

/-- Only the dictionary of a package holds delegates, and only an addon holds packages. -/
theorem Held.entry (h : g.WellFormed) (hheld : g.Held a fn) :
    ∃ p key, fn = .entry p key ∧ (g.addon (g.package p).owner).HasPackage p := by
  rcases Relation.ReflTransGen.cases_tail hheld with heq | ⟨x, hchain, hlast⟩
  · cases heq
  cases hlast with
  | @functionDelegates p key _ hmem =>
    have hfn : fn = .entry p key := h.entries p _ hmem
    rcases Relation.ReflTransGen.cases_tail hchain with heq | ⟨y, _, hfield⟩
    · cases heq
    suffices hhas : ∃ b, (g.addon b).HasPackage p by
      obtain ⟨b, hb⟩ := hhas
      refine ⟨p, key, hfn, ?_⟩
      rw [(h.package b p hb).2]
      exact hb
    cases hfield with
    | filePackage hp => exact ⟨_, .inl hp⟩
    | objectHelperPackage hp => exact ⟨_, .inr hp⟩

/-- The dictionary of a package that the addon has holds its delegates. -/
theorem held_of_hasPackage {p : PackageId} {key : String} (hp : (g.addon a).HasPackage p)
    (hmem : (key, fn) ∈ (g.package p).functionDelegates) : g.Held a fn := by
  have hfirst : Field g (.addon a) (.package p) := by
    rcases hp with hp | hp
    · exact .filePackage hp
    · exact .objectHelperPackage hp
  exact .tail (.single hfirst) (.functionDelegates hmem)

theorem WellFormed.callbacksHeld_iff (h : g.WellFormed) : g.CallbacksHeld ↔ g.PackagesOnly := by
  constructor
  · intro hheld L hL fn hfn
    obtain ⟨p, key, rfl, hp⟩ := (hheld L hL fn hfn).entry h
    refine ⟨p, key, rfl, ?_⟩
    rw [← (h.stubs L p key hfn).2.1]
    exact hp
  · intro honly L hL fn hfn
    obtain ⟨p, key, rfl, hp⟩ := honly L hL fn hfn
    exact held_of_hasPackage hp (h.stubs L p key hfn).2.2

end Chains

/-! ## Runs that keep every delegate -/

/-- `Initialize` stops before it pushes a method group, and does not leave a Lua state behind that
`Dispose` did not close. -/
def StopsEarly (g : ObjectGraph) : Step → Prop
  | .initializeAddon a throws count =>
    (∀ method, .pushMethodGroup method ∉ installation.take count) ∧
      ((g.addon a).luaState = none ∨ throws = false)
  | .release _ _ => True
  | .setLoaded _ => True

/-- The callbacks come from packages, and a Lua state that is not disposed of is the one of its
addon. -/
structure Retained (g : ObjectGraph) : Prop where
  wellFormed : g.WellFormed
  packagesOnly : g.PackagesOnly
  luaState : ∀ L, (g.lua L).disposed = false → (g.addon (g.lua L).owner).luaState = some L

namespace Retained

variable {g : ObjectGraph} {a : AddonId} {L : LuaId} {p : PackageId} {key : String}

theorem registerTableFunction (h : g.Retained) (hL : (g.addon a).luaState = some L)
    (hp : (g.addon a).HasPackage p) : (g.registerTableFunction L p key).Retained := by
  obtain ⟨hlt, howner⟩ := h.wellFormed.package a p hp
  have hluaOwner := (h.wellFormed.lua a L hL).2
  refine ⟨h.wellFormed.registerTableFunction hlt (howner.trans hluaOwner.symm), ?_, ?_⟩
  · rcases h.wellFormed.registerTableFunction_cases L p key with heq | ⟨_, heq⟩
    · rw [heq]
      exact h.packagesOnly
    · rw [heq]
      intro L' hL' fn hfn
      rw [ObjectGraph.pushStdCallCFunction] at hL' hfn ⊢
      by_cases hsame : L' = L
      · subst hsame
        rw [setLua_lua_self] at hL' hfn ⊢
        rcases List.mem_cons.mp hfn with rfl | hfn
        · refine ⟨p, key, rfl, ?_⟩
          change (g.addon (g.lua L').owner).HasPackage p
          rw [hluaOwner]
          exact hp
        · exact h.packagesOnly L' hL' fn hfn
      · rw [setLua_lua_of_ne _ _ _ hsame] at hL' hfn ⊢
        exact h.packagesOnly L' hL' fn hfn
  · rcases h.wellFormed.registerTableFunction_cases L p key with heq | ⟨_, heq⟩
    · rw [heq]
      exact h.luaState
    · rw [heq]
      intro L' hL'
      rw [ObjectGraph.pushStdCallCFunction] at hL' ⊢
      by_cases hsame : L' = L
      · subst hsame
        rw [setLua_lua_self] at hL' ⊢
        exact h.luaState L' hL'
      · rw [setLua_lua_of_ne _ _ _ hsame] at hL' ⊢
        exact h.luaState L' hL'

/-- A change of the fields of an addon that keeps its packages, where its Lua state is not needed
any more. -/
theorem setAddon {f : AddonFields → AddonFields} (h : g.Retained)
    (hwell : (g.setAddon a f).WellFormed)
    (hp : ∀ L, (g.lua L).disposed = false → (g.lua L).owner = a → ∀ fn ∈ (g.lua L).stubs,
      ∃ p key, fn = .entry p key ∧ (f (g.addon a)).HasPackage p)
    (hL : ∀ L, (g.lua L).disposed = false → (g.lua L).owner = a →
      (f (g.addon a)).luaState = some L) : (g.setAddon a f).Retained := by
  refine ⟨hwell, fun L hdisposed fn hfn => ?_, fun L hdisposed => ?_⟩
  · by_cases hab : (g.lua L).owner = a
    · obtain ⟨p, key, hentry, hhas⟩ := hp L hdisposed hab fn hfn
      refine ⟨p, key, hentry, ?_⟩
      change ((g.setAddon a f).addon (g.lua L).owner).HasPackage p
      rw [hab, setAddon_addon_self]
      exact hhas
    · obtain ⟨p, key, hentry, hhas⟩ := h.packagesOnly L hdisposed fn hfn
      refine ⟨p, key, hentry, ?_⟩
      change ((g.setAddon a f).addon (g.lua L).owner).HasPackage p
      rw [setAddon_addon_of_ne _ _ _ hab]
      exact hhas
  · change ((g.setAddon a f).addon (g.lua L).owner).luaState = some L
    by_cases hab : (g.lua L).owner = a
    · rw [hab, setAddon_addon_self]
      exact hL L hdisposed hab
    · rw [setAddon_addon_of_ne _ _ _ hab]
      exact h.luaState L hdisposed

theorem setDisposed (h : g.Retained) (L : LuaId) :
    (g.setLua L (fun x => { x with disposed := true })).Retained := by
  refine ⟨h.wellFormed.setLua rfl (fun p key hfn => h.wellFormed.stubs L p key hfn),
    fun L' hdisposed fn hfn => ?_, fun L' hdisposed => ?_⟩
  · by_cases hsame : L' = L
    · subst hsame
      rw [setLua_lua_self] at hdisposed
      cases hdisposed
    · rw [setLua_lua_of_ne _ _ _ hsame] at hdisposed hfn ⊢
      exact h.packagesOnly L' hdisposed fn hfn
  · by_cases hsame : L' = L
    · subst hsame
      rw [setLua_lua_self] at hdisposed
      cases hdisposed
    · rw [setLua_lua_of_ne _ _ _ hsame] at hdisposed ⊢
      exact h.luaState L' hdisposed

theorem newLua (h : g.Retained) (hnone : (g.addon a).luaState = none) :
    ((g.newLua a).setAddon a (fun x => { x with luaState := some g.nextLua })).Retained := by
  have howner : ∀ L, (g.lua L).disposed = false → (g.lua L).owner ≠ a := by
    intro L hdisposed howner
    have hstate := h.luaState L hdisposed
    rw [howner, hnone] at hstate
    cases hstate
  refine ⟨h.wellFormed.exec a .newLua, fun L hdisposed fn hfn => ?_, fun L hdisposed => ?_⟩
  · change ((g.newLua a).lua L).disposed = false at hdisposed
    change fn ∈ ((g.newLua a).lua L).stubs at hfn
    change ∃ p key, fn = .entry p key ∧ AddonFields.HasPackage
      (((g.newLua a).setAddon a _).addon ((g.newLua a).lua L).owner) p
    by_cases hL : L = g.nextLua
    · subst hL
      rw [newLua_lua_self] at hfn
      cases hfn
    · rw [newLua_lua_of_ne _ _ hL] at hdisposed hfn ⊢
      rw [setAddon_addon_of_ne _ _ _ (howner L hdisposed)]
      exact h.packagesOnly L hdisposed fn hfn
  · change ((g.newLua a).lua L).disposed = false at hdisposed
    change AddonFields.luaState
      (((g.newLua a).setAddon a _).addon ((g.newLua a).lua L).owner) = some L
    by_cases hL : L = g.nextLua
    · subst hL
      rw [newLua_lua_self, setAddon_addon_self]
    · rw [newLua_lua_of_ne _ _ hL] at hdisposed ⊢
      rw [setAddon_addon_of_ne _ _ _ (howner L hdisposed)]
      exact h.luaState L hdisposed

theorem setAddons (h : g.Retained) (a : AddonId) :
    (g.setAddon a (fun x => { x with addons := true })).Retained := by
  refine h.setAddon (h.wellFormed.setAddon (fun p hp => h.wellFormed.package a p hp)
    (fun L hL => h.wellFormed.lua a L hL)) ?_ ?_
  · rintro L hdisposed rfl fn hfn
    exact h.packagesOnly L hdisposed fn hfn
  · rintro L hdisposed rfl
    exact h.luaState L hdisposed

/-- A new package keeps everything that is there. -/
theorem newPackage (h : g.Retained) (a : AddonId) (functions : List String) :
    (g.newPackage a functions).Retained :=
  ⟨h.wellFormed.newPackage a functions, h.packagesOnly, h.luaState⟩

theorem release (h : g.Retained) (a : AddonId) (throws : Bool) : (g.release a throws).Retained := by
  cases hL : (g.addon a).luaState with
  | none =>
    rw [release_of_none hL]
    exact h
  | some L =>
    cases throws with
    | true =>
      rw [release_of_throws]
      exact h
    | false =>
      have hwell := h.wellFormed.release a false
      rw [release_of_some hL] at hwell ⊢
      have hd := h.setDisposed L
      have hnone : ∀ L', ((g.setLua L (fun x => { x with disposed := true })).lua L').disposed =
          false → ((g.setLua L (fun x => { x with disposed := true })).lua L').owner ≠ a := by
        intro L' hdisposed howner
        have hstate := hd.luaState L' hdisposed
        rw [howner] at hstate
        cases hL.symm.trans hstate
        rw [setLua_lua_self] at hdisposed
        cases hdisposed
      exact hd.setAddon hwell (fun L' hdisposed howner => absurd howner (hnone L' hdisposed))
        (fun L' hdisposed howner => absurd howner (hnone L' hdisposed))

end Retained

/-- A release that does not throw leaves no Lua state. -/
theorem release_luaState {g : ObjectGraph} {a : AddonId} {throws : Bool}
    (h : (g.addon a).luaState = none ∨ throws = false) :
    ((g.release a throws).addon a).luaState = none := by
  cases hL : (g.addon a).luaState with
  | none => rw [release_of_none hL, hL]
  | some L =>
    obtain rfl : throws = false := h.resolve_left (by rw [hL]; rintro ⟨⟩)
    rw [release_of_some hL, setAddon_addon_self]

/-! ## The statements in order -/

end ObjectGraph

/-- The statement may come before another one. -/
def Statement.Precedes (x : Statement) : Statement → Prop
  | .newLua => False
  | .newFilePackage => x = .newLua
  | .newObjectHelperPackage => x = .newLua ∨ x = .newFilePackage ∨ ∃ key, x = .registerFile key
  | _ => True

theorem installation_pairwise : installation.Pairwise Statement.Precedes := by
  simp [installation, fileFunctions, objectHelperFunctions, Statement.Precedes]

namespace ObjectGraph

/-- What holds of the addon while these statements are still to be run: a package that is to come
has no callbacks yet. -/
structure Installing (a : AddonId) (rest : List Statement) (g : ObjectGraph) : Prop where
  retained : g.Retained
  newLua : .newLua ∈ rest → (g.addon a).luaState = none
  newFilePackage : .newFilePackage ∈ rest →
    ∀ L, (g.addon a).luaState = some L → (g.lua L).stubs = []
  newObjectHelperPackage : .newObjectHelperPackage ∈ rest →
    ∀ L, (g.addon a).luaState = some L → ∀ fn ∈ (g.lua L).stubs,
      ∃ p key, fn = .entry p key ∧ (g.addon a).filePackage = some p

namespace Installing

variable {g : ObjectGraph} {a : AddonId} {x : Statement} {rest : List Statement}

theorem newLua_step (h : Installing a (.newLua :: rest) g)
    (hrest : ∀ y ∈ rest, Statement.newLua.Precedes y) :
    Installing a rest (Statement.newLua.exec a g) := by
  have hretained := h.retained.newLua (h.newLua List.mem_cons_self)
  rw [Statement.exec]
  have hstubs : ∀ L, (((g.newLua a).setAddon a (fun x => { x with
      luaState := some g.nextLua })).addon a).luaState = some L →
      ((g.newLua a).lua L).stubs = [] := by
    rw [setAddon_addon_self]
    rintro _ ⟨⟩
    rw [newLua_lua_self]
  refine ⟨hretained, fun hmem => (hrest _ hmem).elim, fun _ => hstubs, fun _ L hL fn hfn => ?_⟩
  change fn ∈ ((g.newLua a).lua L).stubs at hfn
  rw [hstubs L hL] at hfn
  cases hfn

theorem newFilePackage_step (h : Installing a (.newFilePackage :: rest) g)
    (hrest : ∀ y ∈ rest, Statement.newFilePackage.Precedes y) :
    Installing a rest (Statement.newFilePackage.exec a g) := by
  have hstubs := h.newFilePackage List.mem_cons_self
  have hwell := h.retained.wellFormed.exec a .newFilePackage
  rw [Statement.exec] at hwell ⊢
  have hlua : ∀ L, (((g.newPackage a fileFunctions).setAddon a (fun x => { x with
      filePackage := some g.nextPackage })).addon a).luaState = some L → (g.lua L).stubs = [] := by
    rw [setAddon_addon_self]
    exact hstubs
  have hstate : ∀ L, (g.lua L).disposed = false → (g.lua L).owner = a →
      (g.addon a).luaState = some L := by
    rintro L hdisposed rfl
    exact h.retained.luaState L hdisposed
  refine ⟨?_, fun hmem => (hrest _ hmem).elim, fun _ => hlua, fun _ L hL fn hfn => ?_⟩
  · refine (h.retained.newPackage a fileFunctions).setAddon hwell ?_ hstate
    intro L hdisposed howner fn hfn
    change fn ∈ (g.lua L).stubs at hfn
    rw [hstubs L (hstate L hdisposed howner)] at hfn
    cases hfn
  · change fn ∈ (g.lua L).stubs at hfn
    rw [hlua L hL] at hfn
    cases hfn

theorem newObjectHelperPackage_step (h : Installing a (.newObjectHelperPackage :: rest) g)
    (hrest : ∀ y ∈ rest, Statement.newObjectHelperPackage.Precedes y) :
    Installing a rest (Statement.newObjectHelperPackage.exec a g) := by
  have hwell := h.retained.wellFormed.exec a .newObjectHelperPackage
  rw [Statement.exec] at hwell ⊢
  have hstate : ∀ L, (g.lua L).disposed = false → (g.lua L).owner = a →
      (g.addon a).luaState = some L := by
    rintro L hdisposed rfl
    exact h.retained.luaState L hdisposed
  refine ⟨?_, fun hmem => (hrest _ hmem).elim, fun hmem => ?_, fun hmem => ?_⟩
  · refine (h.retained.newPackage a objectHelperFunctions).setAddon hwell ?_ hstate
    intro L hdisposed howner fn hfn
    obtain ⟨p, key, hentry, hp⟩ := h.newObjectHelperPackage List.mem_cons_self L
      (hstate L hdisposed howner) fn hfn
    exact ⟨p, key, hentry, .inl hp⟩
  · cases hrest _ hmem
  · rcases hrest _ hmem with heq | heq | ⟨key, heq⟩ <;> cases heq

theorem registerFile_step {key : String} (h : Installing a (.registerFile key :: rest) g)
    (hrest : ∀ y ∈ rest, (Statement.registerFile key).Precedes y) :
    Installing a rest ((Statement.registerFile key).exec a g) := by
  have hnewFile : Statement.newFilePackage ∉ rest := by
    intro hmem
    cases hrest _ hmem
  rw [Statement.exec]
  split
  · rename_i L p hL hp
    refine ⟨h.retained.registerTableFunction hL (.inl hp), fun hmem => (hrest _ hmem).elim,
      fun hmem => absurd hmem hnewFile, fun hmem => ?_⟩
    have hold := h.newObjectHelperPackage (List.mem_cons_of_mem _ hmem)
    rcases h.retained.wellFormed.registerTableFunction_cases L p key with heq | ⟨_, heq⟩
    · rw [heq]
      exact hold
    · rw [heq]
      intro L' hL' fn hfn
      cases hL.symm.trans hL'
      rw [ObjectGraph.pushStdCallCFunction, setLua_lua_self] at hfn
      rcases List.mem_cons.mp hfn with rfl | hfn
      · exact ⟨p, key, rfl, hp⟩
      · exact hold L hL fn hfn
  · exact ⟨h.retained, fun hmem => (hrest _ hmem).elim, fun hmem => absurd hmem hnewFile,
      fun hmem => h.newObjectHelperPackage (List.mem_cons_of_mem _ hmem)⟩

theorem registerObjectHelper_step {key : String}
    (h : Installing a (.registerObjectHelper key :: rest) g)
    (hrest : ∀ y ∈ rest, (Statement.registerObjectHelper key).Precedes y) :
    Installing a rest ((Statement.registerObjectHelper key).exec a g) := by
  have hretained : ((Statement.registerObjectHelper key).exec a g).Retained := by
    rw [Statement.exec]
    split
    · rename_i L p hL hp
      exact h.retained.registerTableFunction hL (.inr hp)
    · exact h.retained
  refine ⟨hretained, fun hmem => (hrest _ hmem).elim, fun hmem => ?_, fun hmem => ?_⟩
  · cases hrest _ hmem
  · rcases hrest _ hmem with heq | heq | ⟨key', heq⟩ <;> cases heq

theorem setObjectHelperLua_step (h : Installing a (.setObjectHelperLua :: rest) g)
    (hrest : ∀ y ∈ rest, Statement.setObjectHelperLua.Precedes y) :
    Installing a rest (Statement.setObjectHelperLua.exec a g) := by
  have hretained : (Statement.setObjectHelperLua.exec a g).Retained := by
    rw [Statement.exec]
    split
    · exact ⟨h.retained.wellFormed.setPackageLua _, h.retained.packagesOnly, h.retained.luaState⟩
    · exact h.retained
  refine ⟨hretained, fun hmem => (hrest _ hmem).elim, fun hmem => ?_, fun hmem => ?_⟩
  · cases hrest _ hmem
  · rcases hrest _ hmem with heq | heq | ⟨key', heq⟩ <;> cases heq

theorem step (h : Installing a (x :: rest) g) (hrest : ∀ y ∈ rest, x.Precedes y)
    (hgroup : ∀ method, x ≠ .pushMethodGroup method) : Installing a rest (x.exec a g) := by
  cases x with
  | newLua => exact h.newLua_step hrest
  | newFilePackage => exact h.newFilePackage_step hrest
  | registerFile key => exact h.registerFile_step hrest
  | newObjectHelperPackage => exact h.newObjectHelperPackage_step hrest
  | setObjectHelperLua => exact h.setObjectHelperLua_step hrest
  | registerObjectHelper key => exact h.registerObjectHelper_step hrest
  | pushMethodGroup method => exact absurd rfl (hgroup method)

theorem run {statements : List Statement} (h : Installing a statements g)
    (hordered : statements.Pairwise Statement.Precedes)
    (hgroup : ∀ method, .pushMethodGroup method ∉ statements) :
    (statements.foldl (Statement.exec a) g).Retained := by
  induction statements generalizing g with
  | nil => exact h.retained
  | cons x statements ih =>
    rw [List.pairwise_cons] at hordered
    refine ih (h.step hordered.1 (fun method hx => ?_)) hordered.2 (fun method hmem => ?_)
    · exact hgroup method (hx ▸ List.mem_cons_self)
    · exact hgroup method (List.mem_cons_of_mem _ hmem)

end Installing

theorem Retained.apply {g : ObjectGraph} (h : g.Retained) {x : Step} (hx : g.StopsEarly x) :
    (g.apply x).Retained := by
  cases x with
  | initializeAddon a throws count =>
    obtain ⟨hgroup, hthrows⟩ := hx
    have hrelease := h.release a throws
    have hnone := release_luaState hthrows
    have hstart := hrelease.setAddons a
    have hstarted : (((g.release a throws).setAddon a (fun x => { x with
        addons := true })).addon a).luaState = none := by
      rw [setAddon_addon_self]
      exact hnone
    refine Installing.run ⟨hstart, fun _ => hstarted, fun _ L hL => ?_, fun _ L hL => ?_⟩
      (installation_pairwise.sublist (List.take_sublist _ _)) hgroup
    · rw [hstarted] at hL
      cases hL
    · rw [hstarted] at hL
      cases hL
  | release a throws => exact h.release a throws
  | setLoaded addons =>
    exact ⟨h.wellFormed.apply (.setLoaded addons), h.packagesOnly, h.luaState⟩

theorem retained_start : Retained .start := by
  refine ⟨wellFormed_start, fun L hdisposed => ?_, fun L hdisposed => ?_⟩
  · cases hdisposed
  · cases hdisposed

theorem Reachable.retained {allowed : ObjectGraph → Step → Prop}
    (hallowed : ∀ g x, allowed g x → g.StopsEarly x) {g : ObjectGraph}
    (h : Reachable allowed g) : g.Retained := by
  induction h with
  | start => exact retained_start
  | step _ x hx ih => exact ih.apply (hallowed _ x hx)

end ObjectGraph

/-- **Which callbacks are kept alive**: in every state reached, every callback of a Lua state is
held from its addon exactly if none comes from a method group and the addon still has the packages
of the others. Runs in which every `Initialize` stops early stay in such states. -/
theorem callbacks_held_iff {allowed : ObjectGraph → ObjectGraph.Step → Prop} {g : ObjectGraph}
    (h : ObjectGraph.Reachable allowed g) :
    (g.CallbacksHeld ↔ g.PackagesOnly) ∧
      ((∀ g x, allowed g x → g.StopsEarly x) → g.CallbacksHeld) := by
  have hiff := h.wellFormed.callbacksHeld_iff
  exact ⟨hiff, fun hallowed => hiff.mpr (h.retained hallowed).packagesOnly⟩

/-- The callbacks of the packages of an addon whose `Initialize` stopped behind them. -/
theorem file_callbacks_held :
    (ObjectGraph.start.apply (.initializeAddon 0 false 7)).CallbacksHeld ∧
      ((ObjectGraph.start.apply (.initializeAddon 0 false 7)).lua 0).stubs.length = 5 := by
  have hearly : ObjectGraph.start.StopsEarly (.initializeAddon 0 false 7) := by
    refine ⟨fun method => ?_, .inl rfl⟩
    simp [installation, fileFunctions]
  have hreach : ObjectGraph.Reachable ObjectGraph.StopsEarly
      (ObjectGraph.start.apply (.initializeAddon 0 false 7)) := .step .start _ hearly
  exact ⟨(callbacks_held_iff hreach).2 (fun _ _ hx => hx), by decide⟩

/-- After one `Initialize` that came to its end, nothing holds the callback behind
`_addon.__newindex`. -/
theorem newIndex_callback_lost :
    (ObjectGraph.start.apply (.initializeAddon 0 false installation.length)).Reachable
        (fun _ _ => True) ∧
      ¬ (ObjectGraph.start.apply (.initializeAddon 0 false installation.length)).CallbacksHeld := by
  have hreach : (ObjectGraph.start.apply (.initializeAddon 0 false installation.length)).Reachable
      (fun _ _ => True) := .step .start _ trivial
  refine ⟨hreach, fun hheld => ?_⟩
  obtain ⟨p, key, hentry, _⟩ := hreach.wellFormed.callbacksHeld_iff.mp hheld 0 (by decide)
    (.methodGroup 0 "lua_AddonNewIndex") (by decide)
  cases hentry

/-! ## Runs of the plugin -/

namespace ObjectGraph

section Frame

variable {g : ObjectGraph} {a : AddonId} {L : LuaId}

/-- What the statements behind `new NLua.Lua()` leave alone. -/
structure Extends (a : AddonId) (L : LuaId) (g g' : ObjectGraph) : Prop where
  addon : ∀ b, b ≠ a → g'.addon b = g.addon b
  luaState : (g'.addon a).luaState = (g.addon a).luaState
  lua : ∀ L', L' ≠ L → g'.lua L' = g.lua L'
  disposed : (g'.lua L).disposed = (g.lua L).disposed
  stubs : (g.lua L).stubs ⊆ (g'.lua L).stubs
  loaded : g'.loaded = g.loaded

theorem Extends.trans {g₁ g₂ g₃ : ObjectGraph} (h₁ : Extends a L g₁ g₂) (h₂ : Extends a L g₂ g₃) :
    Extends a L g₁ g₃ where
  addon b hb := (h₂.addon b hb).trans (h₁.addon b hb)
  luaState := h₂.luaState.trans h₁.luaState
  lua L' hL := (h₂.lua L' hL).trans (h₁.lua L' hL)
  disposed := h₂.disposed.trans h₁.disposed
  stubs := List.Subset.trans h₁.stubs h₂.stubs
  loaded := h₂.loaded.trans h₁.loaded

theorem Extends.refl (g : ObjectGraph) : Extends a L g g :=
  ⟨fun _ _ => rfl, rfl, fun _ _ => rfl, rfl, List.Subset.refl _, rfl⟩

theorem extends_setAddon (f : AddonFields → AddonFields)
    (hf : (f (g.addon a)).luaState = (g.addon a).luaState) : Extends a L g (g.setAddon a f) where
  addon b hb := setAddon_addon_of_ne g a f hb
  luaState := by rw [setAddon_addon_self, hf]
  lua _ _ := rfl
  disposed := rfl
  stubs := List.Subset.refl _
  loaded := rfl

theorem extends_newPackage (functions : List String) :
    Extends a L g (g.newPackage a functions) :=
  ⟨fun _ _ => rfl, rfl, fun _ _ => rfl, rfl, List.Subset.refl _, rfl⟩

theorem extends_pushStdCallCFunction (fn : NativeDelegate) :
    Extends a L g (g.pushStdCallCFunction L fn) where
  addon _ _ := rfl
  luaState := rfl
  lua L' hL := setLua_lua_of_ne g L _ hL
  disposed := by rw [pushStdCallCFunction, setLua_lua_self]
  stubs := by
    rw [pushStdCallCFunction, setLua_lua_self]
    exact List.subset_cons_self _ _
  loaded := rfl

theorem extends_registerTableFunction (p : PackageId) (key : String) :
    Extends a L g (g.registerTableFunction L p key) := by
  rw [registerTableFunction]
  split
  · exact .refl g
  · exact extends_pushStdCallCFunction _

theorem extends_exec {x : Statement} (hx : x ≠ .newLua) (hL : (g.addon a).luaState = some L) :
    Extends a L g (x.exec a g) := by
  cases x with
  | newLua => exact absurd rfl hx
  | newFilePackage =>
    rw [Statement.exec]
    exact (extends_newPackage _).trans (extends_setAddon _ rfl)
  | newObjectHelperPackage =>
    rw [Statement.exec]
    exact (extends_newPackage _).trans (extends_setAddon _ rfl)
  | registerFile key =>
    rw [Statement.exec, hL]
    split
    · rename_i L' p heq _
      cases heq
      exact extends_registerTableFunction p key
    · exact .refl g
  | registerObjectHelper key =>
    rw [Statement.exec, hL]
    split
    · rename_i L' p heq _
      cases heq
      exact extends_registerTableFunction p key
    · exact .refl g
  | setObjectHelperLua =>
    rw [Statement.exec]
    split
    · exact ⟨fun _ _ => rfl, rfl, fun _ _ => rfl, rfl, List.Subset.refl _, rfl⟩
    · exact .refl g
  | pushMethodGroup method =>
    rw [Statement.exec, hL]
    exact extends_pushStdCallCFunction _

theorem extends_run {statements : List Statement} (h : .newLua ∉ statements)
    (hL : (g.addon a).luaState = some L) :
    Extends a L g (statements.foldl (Statement.exec a) g) := by
  induction statements generalizing g with
  | nil => exact .refl g
  | cons x statements ih =>
    have hx := extends_exec (a := a) (fun hx => h (hx ▸ List.mem_cons_self)) hL
    exact hx.trans (ih (fun hmem => h (List.mem_cons_of_mem x hmem)) (hx.luaState.trans hL))

/-- What a complete `Initialize` leads to: a new Lua state with the callback behind
`_addon.__newindex`. -/
structure Completed (a : AddonId) (g g' : ObjectGraph) : Prop where
  addon : ∀ b, b ≠ a → g'.addon b = g.addon b
  luaState : (g'.addon a).luaState = some g.nextLua
  lua : ∀ L, L ≠ g.nextLua → g'.lua L = g.lua L
  disposed : (g'.lua g.nextLua).disposed = false
  newIndex : .methodGroup g.nextLua "lua_AddonNewIndex" ∈ (g'.lua g.nextLua).stubs
  loaded : g'.loaded = g.loaded

theorem completed_runInitialize (g : ObjectGraph) (a : AddonId) :
    Completed a g (g.runInitialize a true installation.length) := by
  obtain ⟨early, late, hsplit, hearly, hlate⟩ : ∃ early late, installation = .newLua :: (early ++
      .pushMethodGroup "lua_AddonNewIndex" :: late) ∧ .newLua ∉ early ∧ .newLua ∉ late :=
    ⟨(installation.drop 1).take 10, installation.drop 12, by decide⟩
  rw [runInitialize, List.take_length, release_of_throws, hsplit, List.foldl_cons,
    List.foldl_append, List.foldl_cons]
  generalize hg₁ : Statement.exec a (g.setAddon a (fun x => { x with addons := true })) .newLua = g₁
  have hL₁ : (g₁.addon a).luaState = some g.nextLua := by
    rw [← hg₁, Statement.exec, setAddon_addon_self]
    rfl
  have h₂ := extends_run hearly hL₁
  generalize early.foldl (Statement.exec a) g₁ = g₂ at h₂ ⊢
  have hL₂ := h₂.luaState.trans hL₁
  have hpush : Statement.exec a g₂ (.pushMethodGroup "lua_AddonNewIndex") =
      g₂.pushStdCallCFunction g.nextLua (.methodGroup g.nextLua "lua_AddonNewIndex") := by
    rw [Statement.exec, hL₂]
  rw [hpush]
  have h₃ : Extends a g.nextLua g₂ (g₂.pushStdCallCFunction g.nextLua
      (.methodGroup g.nextLua "lua_AddonNewIndex")) := extends_pushStdCallCFunction _
  have h₄ := extends_run hlate (h₃.luaState.trans hL₂)
  have h₁₄ := h₂.trans (h₃.trans h₄)
  refine ⟨fun b hb => ?_, h₁₄.luaState.trans hL₁, fun L hL => ?_, ?_, h₄.stubs ?_, ?_⟩
  · rw [h₁₄.addon b hb, ← hg₁, Statement.exec, setAddon_addon_of_ne _ _ _ hb]
    exact setAddon_addon_of_ne g a (fun x => { x with addons := true }) hb
  · rw [h₁₄.lua L hL, ← hg₁]
    exact newLua_lua_of_ne _ _ hL
  · rw [h₁₄.disposed, ← hg₁]
    exact congrArg NativeState.disposed
      (newLua_lua_self (g.setAddon a (fun x => { x with addons := true })) a)
  · rw [pushStdCallCFunction, setLua_lua_self]
    exact List.mem_cons_self
  · rw [h₁₄.loaded, ← hg₁]
    rfl

end Frame

end ObjectGraph

section Simulation

variable {H : Type} {P : Platform}

/-- The object graph is one of the plugin: the same addons have Lua states and are loaded, and
every Lua state of an addon went through the whole of `Initialize`. -/
structure Simulates (s : Plugin H) (g : ObjectGraph) : Prop where
  reachable : g.Reachable (fun _ _ => True)
  luaState : ∀ a, (g.addon a).luaState.isSome = (s.objects a).luaState.isSome
  loaded : g.loaded = s.addons.entries.map Sigma.snd
  newIndex : ∀ a L, (g.addon a).luaState = some L → (g.lua L).disposed = false ∧
    .methodGroup L "lua_AddonNewIndex" ∈ (g.lua L).stubs

/-- A step that starts and disposes of no Lua state. -/
theorem Simulates.same {s s' : Plugin H} {g : ObjectGraph} (h : Simulates s g)
    (hlua : ∀ a, (s'.objects a).luaState.isSome = (s.objects a).luaState.isSome) :
    ∃ g', Simulates s' g' :=
  ⟨g.apply (.setLoaded (s'.addons.entries.map Sigma.snd)), h.reachable.step _ trivial,
    fun a => (h.luaState a).trans (hlua a).symm, rfl, h.newIndex⟩

theorem Simulates.startLua {s : Plugin H} {g : ObjectGraph} (h : Simulates s g) (a : AddonId)
    (L : LuaState H) : ∃ g', Simulates (s.startLua a L) g' := by
  have hdone := g.completed_runInitialize a
  refine ⟨g.apply (.initializeAddon a true installation.length), h.reachable.step _ trivial,
    fun b => ?_, hdone.loaded.trans h.loaded, fun b L' hL' => ?_⟩
  · change ((g.runInitialize a true installation.length).addon b).luaState.isSome =
      (Function.update s.objects a _ b).luaState.isSome
    by_cases hb : b = a
    · subst hb
      rw [hdone.luaState, Function.update_self]
      rfl
    · rw [hdone.addon b hb, h.luaState b, Function.update_of_ne hb]
  · change ((g.runInitialize a true installation.length).addon b).luaState = some L' at hL'
    by_cases hb : b = a
    · subst hb
      cases hdone.luaState.symm.trans hL'
      exact ⟨hdone.disposed, hdone.newIndex⟩
    · rw [hdone.addon b hb] at hL'
      have hlt := (h.reachable.wellFormed.lua b L' hL').1
      change ((g.runInitialize a true installation.length).lua L').disposed = false ∧
        _ ∈ ((g.runInitialize a true installation.length).lua L').stubs
      rw [hdone.lua L' (Nat.ne_of_lt hlt)]
      exact h.newIndex b L' hL'

/-- A step after which one addon has no Lua state. -/
theorem Simulates.release {s s' : Plugin H} {g : ObjectGraph} (h : Simulates s g) {a : AddonId}
    (ha : (s'.objects a).luaState = none)
    (hlua : ∀ b, b ≠ a → (s'.objects b).luaState.isSome = (s.objects b).luaState.isSome) :
    ∃ g', Simulates s' g' := by
  cases hL : (g.addon a).luaState with
  | none =>
    refine h.same (fun b => ?_)
    by_cases hb : b = a
    · rw [hb, ha, ← h.luaState a, hL]
      rfl
    · exact hlua b hb
  | some L =>
    have hstep := ObjectGraph.release_of_some hL
    refine ⟨(g.release a false).apply (.setLoaded (s'.addons.entries.map Sigma.snd)),
      (h.reachable.step (.release a false) trivial).step _ trivial, fun b => ?_, rfl,
      fun b L' hL' => ?_⟩
    · change ((g.release a false).addon b).luaState.isSome = _
      rw [hstep]
      by_cases hb : b = a
      · rw [hb, ObjectGraph.setAddon_addon_self, ha]
        rfl
      · rw [ObjectGraph.setAddon_addon_of_ne _ _ _ hb, hlua b hb]
        exact h.luaState b
    · change ((g.release a false).addon b).luaState = some L' at hL'
      change ((g.release a false).lua L').disposed = false ∧ _ ∈ ((g.release a false).lua L').stubs
      rw [hstep] at hL' ⊢
      by_cases hb : b = a
      · rw [hb, ObjectGraph.setAddon_addon_self] at hL'
        cases hL'
      · rw [ObjectGraph.setAddon_addon_of_ne _ _ _ hb] at hL'
        have hne : L' ≠ L := by
          rintro rfl
          have howner := h.reachable.wellFormed.lua b L' hL'
          exact hb (howner.2.symm.trans (h.reachable.wellFormed.lua a L' hL).2)
        rw [ObjectGraph.setAddon_lua, ObjectGraph.setLua_lua_of_ne _ _ _ hne]
        exact h.newIndex b L' hL'

/-- `Grows`, and what an object graph simulates is simulated afterwards. -/
def Simulated (P : Platform) (stack : CallStack) (s s' : Plugin H) : Prop :=
  Grows P stack s s' ∧ ((∃ g, Simulates s g) → ∃ g, Simulates s' g)

instance (stack : CallStack) : IsPreorder (Plugin H) (Simulated P stack) where
  refl s := ⟨.refl s, id⟩
  trans _ _ _ h₁ h₂ := ⟨h₁.1.trans h₂.1, fun h => h₂.2 (h₁.2 h)⟩

theorem Simulated.of_same {stack : CallStack} {s s' : Plugin H} (hg : Grows P stack s s')
    (hlua : ∀ a, (s'.objects a).luaState.isSome = (s.objects a).luaState.isSome) :
    Simulated P stack s s' := by
  refine ⟨hg, ?_⟩
  rintro ⟨g, h⟩
  exact h.same hlua

theorem isSome_modifyAddon (s : Plugin H) {a : AddonId} {f : Addon H → Addon H}
    (hf : (f (s.objects a)).luaState.isSome = (s.objects a).luaState.isSome) (b : AddonId) :
    ((s.modifyAddon a f).objects b).luaState.isSome = (s.objects b).luaState.isSome := by
  change (Function.update s.objects a _ b).luaState.isSome = _
  by_cases hb : b = a
  · rw [hb, Function.update_self, hf]
  · rw [Function.update_of_ne hb]

theorem isSome_storeCommand (s : Plugin H) (a : AddonId) (name : LuaString) (f : LuaFunction)
    (b : AddonId) :
    ((s.storeCommand a name f).objects b).luaState.isSome = (s.objects b).luaState.isSome := by
  rw [Plugin.storeCommand]
  split
  · rfl
  · rename_i L hL
    change (Function.update s.objects a _ b).luaState.isSome = _
    by_cases hb : b = a
    · rw [hb, Function.update_self, hL]
      rfl
    · rw [Function.update_of_ne hb]

theorem simulated_effects (P : Platform) :
    Effects (H := H) P (Simulated P) (fun _ _ _ => True) := by
  have hg := grows_effects (H := H) P
  exact {
    preorder := fun _ => inferInstance
    grows := fun h => h.1
    outer := fun h => ⟨h.1.outer, h.2⟩
    lua := fun stack a f hf s =>
      .of_same (hg.lua stack a f hf s) (@isSome_modifyAddon H s a (fun x => { x with
        luaState := x.luaState.map f }) Option.isSome_map)
    fail := fun stack a s => .of_same (hg.fail stack a s)
      (@isSome_modifyAddon H s a (fun x => { x with state := .error }) rfl)
    tell := fun stack m s => .of_same (hg.tell stack m s) (fun _ => rfl)
    call := fun stack a f args s => .of_same (hg.call stack a f args s) (fun _ => rfl)
    executed := fun stack target args commands s =>
      .of_same (hg.executed stack target args commands s) (fun _ => rfl)
    store := fun stack a name f s =>
      .of_same (hg.store stack a name f s) (isSome_storeCommand s a name f)
    registry := fun stack s α x h => by
      refine .of_same (hg.registry stack s α x h) (fun b => ?_)
      rw [after_onRegistry]
    handled := fun stack b s => .of_same (hg.handled stack b s) (fun _ => rfl)
    addon := fun stack s a f hfile hlua => by
      rcases hlua with hsame | hnone
      · exact .of_same (hg.addon stack s a f hfile (.inl hsame))
          (isSome_modifyAddon s (congrArg Option.isSome hsame))
      · refine ⟨hg.addon stack s a f hfile (.inr hnone), ?_⟩
        rintro ⟨g, h⟩
        refine h.release (a := a) ?_ (fun b hb => ?_)
        · change (Function.update s.objects a _ a).luaState = none
          rw [Function.update_self, hnone]
        · change (Function.update s.objects a _ b).luaState.isSome = _
          rw [Function.update_of_ne hb]
    start := fun stack a L hL s =>
      ⟨hg.start stack a L hL s, by
        rintro ⟨g, h⟩
        exact h.startLua a L⟩
    initialized := fun stack a t s => .of_same (hg.initialized stack a t s) (fun _ => rfl)
    removed := fun stack a s => .of_same (hg.removed stack a s) (fun _ => rfl)
    command := fun stack p l s => .of_same (hg.command stack p l s) (fun _ => rfl)
    release := fun stack a s _ => .of_same (hg.release stack a s trivial) (fun _ => rfl)
    erase := fun stack k s => .of_same (hg.erase stack k s) (fun _ => rfl)
    configuration := fun stack c _ s => .of_same (hg.configuration stack c trivial s) (fun _ => rfl)
    create := fun stack s name => by
      refine ⟨hg.create stack s name, ?_⟩
      rintro ⟨g, h⟩
      refine h.release (a := s.nextAddon) ?_ (fun b hb => ?_)
      · change (Function.update s.objects s.nextAddon _ s.nextAddon).luaState = none
        rw [Function.update_self]
        rfl
      · change (Function.update s.objects s.nextAddon _ b).luaState.isSome = _
        rw [Function.update_of_ne hb]
    tryAdd := fun {stack s s' k a} h hfresh ha hk => by
      refine ⟨hg.tryAdd h.1 hfresh ha hk, fun hsim => ?_⟩
      obtain ⟨g, hsim'⟩ := h.2 hsim
      refine hsim'.same (fun b => ?_)
      rw [Plugin.tryAdd]
      split <;> rfl
    guard_mono := fun _ _ => trivial
    guard_fresh := fun _ => trivial
    guard_command := fun _ _ _ _ _ => trivial }

theorem simulates_initial {s : Plugin H} (h : Initial s) : Simulates s ObjectGraph.start := by
  refine ⟨.start, fun a => ?_, ?_, fun a L hL => ?_⟩
  · rw [h.objects a]
    rfl
  · rw [h.addons]
    rfl
  · cases hL

/-- Every run of the plugin is one of an object graph. -/
theorem Reach.simulated {allowed : Env H → Op → Prop} {s : Plugin H} (h : Reach P allowed s) :
    ∃ g, Simulates s g :=
  (Reach.induct (simulated_effects P) (I := fun s => ∃ g, Simulates s g)
    (fun _ hs => ⟨_, simulates_initial hs⟩) (fun _ _ hi hr => hr.2 hi)
    (fun _ hi _ => hi.elim fun _ h => h.same fun _ => rfl)
    (fun _ _ hi _ => hi.elim fun _ h => h.same fun _ => rfl)
    (fun _ _ _ hi => hi.elim fun _ h => h.same fun _ => rfl) h).1

/-- In every state of every run, the callback behind `_addon.__newindex` of an addon with a Lua
state is lost. -/
theorem Reach.newIndex_not_held {allowed : Env H → Op → Prop} {s : Plugin H}
    (h : Reach P allowed s) {a : AddonId} (ha : (s.objects a).luaState.isSome = true) :
    ∃ g L, Simulates s g ∧ (g.addon a).luaState = some L ∧ (g.lua L).disposed = false ∧
      .methodGroup L "lua_AddonNewIndex" ∈ (g.lua L).stubs ∧
      ¬ g.Held a (.methodGroup L "lua_AddonNewIndex") := by
  obtain ⟨g, hsim⟩ := h.simulated
  rw [← hsim.luaState a] at ha
  obtain ⟨L, hL⟩ := Option.isSome_iff_exists.mp ha
  obtain ⟨hdisposed, hmem⟩ := hsim.newIndex a L hL
  refine ⟨g, L, hsim, hL, hdisposed, hmem, fun hheld => ?_⟩
  obtain ⟨p, key, hentry, _⟩ := hheld.entry hsim.reachable.wellFormed
  cases hentry

end Simulation

end LuaAddons
