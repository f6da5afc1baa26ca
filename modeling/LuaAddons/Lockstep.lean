import LuaAddons.Outcomes
import LuaAddons.SelfContained

/-!
# Two runs in step

A script depends only on its own Lua state, on the outcome of its registrations and on that of the
chat commands it executes. So two addons with the same file, the same Lua state and the same state
of their registries run in step, whatever else differs between the stores they run in: the identity
of their objects, the loaded addons, the call stacks.

A `Link` says what two stores have in common (`Twin`). It pairs the addons of one with those of the
other, and the registries need not be equal: it is enough that they answer registrations alike
(`Congruent`), as with equality, or equality up to an empty list (`SameUpTo`). Chat commands may be
different in the two stores. The events that show this are forbidden: a run with such an event is
not compared any more.
-/

namespace LuaAddons

open Exec

variable {H : Type} {P : Platform} {key : String}

/-! ## Registries that answer alike -/

/-- Registries related by `Q` answer registrations of the addon `key` alike. -/
def Congruent (P : Platform) (key : String) (Q : Registry → Registry → Prop) : Prop :=
  ∀ r r' addonName permission command, P.toLower addonName = key → Q r r' →
    (registerCommand P addonName permission command r).1 =
        (registerCommand P addonName permission command r').1 ∧
      Q (registerCommand P addonName permission command r).2
        (registerCommand P addonName permission command r').2

theorem congruent_eq : Congruent P key Eq := by
  rintro r _ addonName permission command - rfl
  exact ⟨rfl, rfl⟩

/-- The registries are equal, or the first has an empty list for `key` and the second none. -/
def SameUpTo (key : String) (r r' : Registry) : Prop :=
  r = r' ∨ (r.addonCommands.lookup key = some [] ∧
    r' = { r with addonCommands := r.addonCommands.erase key })

theorem owned_erase_of_nil {r : Registry} (h : r.addonCommands.lookup key = some [])
    (c : String) :
    ({ r with addonCommands := r.addonCommands.erase key } : Registry).owned c = r.owned c := by
  have hcommands : ∀ k, ({ r with addonCommands := r.addonCommands.erase key } :
      Registry).commandsOf k = r.commandsOf k := by
    intro k
    unfold Registry.commandsOf
    by_cases hk : k = key
    · subst hk
      simp [h]
    · simp [AList.lookup_erase_ne hk]
  rw [Bool.eq_iff_iff, Registry.owned_iff, Registry.owned_iff]
  simp only [hcommands]

theorem insert_erase (t : AddonCommands) (l : List String) :
    (t.erase key).insert key l = t.insert key l := by
  have hmem : key ∉ t.erase key := fun h => (AList.mem_erase.mp h).1 rfl
  exact AList.ext (congrArg (List.cons _) (List.kerase_of_notMem_keys hmem))

/-- An accepted registration puts the list there in both. -/
theorem congruent_sameUpTo : Congruent P key (SameUpTo key) := by
  rintro r r' addonName permission command rfl (rfl | ⟨hnil, rfl⟩)
  · exact ⟨rfl, Or.inl rfl⟩
  · have howned := owned_erase_of_nil hnil (P.toLower command)
    cases ho : r.owned (P.toLower command) with
    | true =>
      rw [ho] at howned
      rw [registerCommand_refused ho, registerCommand_refused howned]
      exact ⟨rfl, Or.inr ⟨hnil, rfl⟩⟩
    | false =>
      rw [ho] at howned
      rw [registerCommand_accepted ho, registerCommand_accepted howned]
      refine ⟨rfl, Or.inl ?_⟩
      simp [Registry.commandsOf, hnil, insert_erase]

/-! ## Links -/

/-- What two stores have in common. -/
structure Link (P : Platform) where
  registry : Registry → Registry → Prop
  /-- The addons of the first store and their partners in the second. -/
  pair : AddonId → AddonId → Prop
  pair_iff : ∀ {a b c d}, pair a b → pair c d → (c = a ↔ d = b)
  /-- The keys of these addons. -/
  owner : String → Prop
  congruent : ∀ {key}, owner key → Congruent P key registry
  loaded : AList (fun _ : String => AddonId) → AList (fun _ : String => AddonId) → Prop
  /-- The length of the trace of the first store when the comparison begins. -/
  start : Nat
  forbidden : Event → Prop
  paired : ∀ {e A B k c}, forbidden e → loaded A B → A.lookup k = some c → ∃ d, pair c d

/-- One addon in each store. -/
def Link.single (a b : AddonId) {key : String} {Q : Registry → Registry → Prop}
    (hQ : Congruent P key Q) : Link P where
  registry := Q
  pair c d := c = a ∧ d = b
  pair_iff := by
    rintro _ _ _ _ ⟨rfl, rfl⟩ ⟨rfl, rfl⟩
    exact ⟨fun _ => rfl, fun _ => rfl⟩
  owner k := k = key
  congruent := by
    rintro _ rfl
    exact hQ
  loaded _ _ := True
  start := 0
  forbidden _ := False
  paired h := h.elim

/-- The addons have the same file, state and Lua state. -/
structure Alike (x y : Addon H) : Prop where
  luaState : x.luaState = y.luaState
  state : x.state = y.state
  fileName : x.fileName = y.fileName

theorem Alike.refl (x : Addon H) : Alike x x := ⟨rfl, rfl, rfl⟩

/-- The addon gets a Lua state. -/
def setLua (L : LuaState H) (x : Addon H) : Addon H := { x with luaState := some L }

theorem Alike.setLua {x y : Addon H} (h : Alike x y) (L : LuaState H) :
    Alike (setLua L x) (setLua L y) := ⟨rfl, h.state, h.fileName⟩

/-- The events of a run that came to `s'` since the trace had the length `start`. -/
def Plugin.since (s : Plugin H) (start : Nat) : List Event :=
  s.trace.take (s.trace.length - start)

theorem Plugin.since_subset {s s' : Plugin H} (h : s.trace <:+ s'.trace) (start : Nat) :
    s.since start ⊆ s'.since start := by
  obtain ⟨new, hnew⟩ := h
  unfold Plugin.since
  rw [← hnew, List.length_append]
  by_cases hstart : start ≤ s.trace.length
  · rw [Nat.add_sub_assoc hstart, List.take_length_add_append]
    exact List.subset_append_right _ _
  · rw [Nat.sub_eq_zero_of_le (Nat.le_of_not_le hstart)]
    exact List.nil_subset _

/-- A forbidden event happened. -/
def Link.Bad (l : Link P) (s : Plugin H) : Prop :=
  (∃ e ∈ s.since l.start, l.forbidden e) ∧
    ∀ k c, s.addons.lookup k = some c → ∃ d, l.pair c d

theorem Link.Bad.grows {l : Link P} {s s' : Plugin H} (h : l.Bad s)
    (htrace : s.trace <:+ s'.trace) (haddons : s'.addons = s.addons) : l.Bad s' := by
  obtain ⟨⟨e, he, hforbidden⟩, hpaired⟩ := h
  exact ⟨⟨e, Plugin.since_subset htrace _ he, hforbidden⟩, haddons ▸ hpaired⟩

/-- The stores are linked: paired addons are alike. -/
structure Twin (l : Link P) (s t : Plugin H) : Prop where
  registry : l.registry s.registry t.registry
  alike : ∀ a b, l.pair a b → Alike (s.objects a) (t.objects b)
  owner : ∀ a b, l.pair a b → l.owner (P.toLower (s.objects a).fileName)
  loaded : l.loaded s.addons t.addons
  start : l.start ≤ s.trace.length

/-- Two stores that share one addon and its registry. -/
theorem twin_single {a b : AddonId} {key : String} {Q : Registry → Registry → Prop}
    {hQ : Congruent P key Q} {s t : Plugin H} (hreg : Q s.registry t.registry)
    (halike : Alike (s.objects a) (t.objects b))
    (hkey : P.toLower (s.objects a).fileName = key) : Twin (Link.single a b hQ) s t where
  registry := hreg
  alike := by
    rintro _ _ ⟨rfl, rfl⟩
    exact halike
  owner := by
    rintro _ _ ⟨rfl, rfl⟩
    exact hkey
  loaded := trivial
  start := Nat.zero_le _

theorem Link.single_pair {a b : AddonId} {key : String} {Q : Registry → Registry → Prop}
    {hQ : Congruent P key Q} : (Link.single a b hQ).pair a b := ⟨rfl, rfl⟩

theorem not_bad_single {a b : AddonId} {key : String} {Q : Registry → Registry → Prop}
    {hQ : Congruent P key Q} {s : Plugin H} : ¬ (Link.single a b hQ).Bad s := by
  rintro ⟨⟨_, -, hfalse⟩, -⟩
  exact hfalse

/-- Linked stores stay linked, unless a forbidden event happens. -/
abbrev Link.InStep {α : Type} (l : Link P) (x y : Method H α) : Prop :=
  InStepUnless l.Bad (Twin l) (Twin l) x y

section Twin

variable {l : Link P} {a b : AddonId} {nested nested' : Nested H} {stack stack' : CallStack}
  {env : Env H}

/-- Two changes of a pair that keep it alike. -/
theorem Twin.modifyAddon {s t : Plugin H} (h : Twin l s t) (hab : l.pair a b)
    {f g : Addon H → Addon H} (hfg : ∀ x y, Alike x y → Alike (f x) (g y))
    (hf : ∀ x, (f x).fileName = x.fileName) :
    Twin l (s.modifyAddon a f) (t.modifyAddon b g) := by
  refine ⟨h.registry, fun c d hcd => ?_, fun c d hcd => ?_, h.loaded, h.start⟩
  · simp only [Plugin.modifyAddon]
    by_cases hc : c = a
    · obtain rfl := (l.pair_iff hab hcd).mp hc
      subst hc
      rw [Function.update_self, Function.update_self]
      exact hfg _ _ (h.alike _ _ hcd)
    · have hd : d ≠ b := fun hd => hc ((l.pair_iff hab hcd).mpr hd)
      rw [Function.update_of_ne hc, Function.update_of_ne hd]
      exact h.alike c d hcd
  · have hfile : ((s.modifyAddon a f).objects c).fileName = (s.objects c).fileName := by
      by_cases hc : c = a
      · subst hc
        simp [Plugin.modifyAddon, hf]
      · simp [Plugin.modifyAddon, hc]
    rw [hfile]
    exact h.owner c d hcd

theorem twin_modifyAddon (hab : l.pair a b) {f g : Addon H → Addon H}
    (hfg : ∀ x y, Alike x y → Alike (f x) (g y)) (hf : ∀ x, (f x).fileName = x.fileName) :
    l.InStep (modifyAddon a f) (modifyAddon b g) :=
  inStep_modify (fun _ hbad => hbad.grows List.suffix_rfl rfl)
    (fun _ _ h => h.modifyAddon hab hfg hf)

theorem twin_modifyLua (hab : l.pair a b) (f : LuaState H → LuaState H) :
    l.InStep (modifyLua a f) (modifyLua b f) :=
  twin_modifyAddon hab (fun _ _ h => ⟨by rw [h.luaState], h.state, h.fileName⟩) (fun _ => rfl)

theorem twin_setState (hab : l.pair a b) (state : AddonState) :
    l.InStep (modifyAddon (H := H) a (fun x => { x with state := state }))
      (modifyAddon b (fun x => { x with state := state })) :=
  twin_modifyAddon hab (fun _ _ h => ⟨h.luaState, rfl, h.fileName⟩) (fun _ => rfl)

theorem twin_tell (m m' : Message) : l.InStep (H := H) (tell m) (tell m') :=
  inStep_modify (fun _ hbad => hbad.grows List.suffix_rfl rfl)
    (fun _ _ h => ⟨h.registry, h.alike, h.owner, h.loaded, h.start⟩)

theorem twin_emit (e e' : Event) : l.InStep (H := H) (emit e) (emit e') :=
  inStep_modify (fun _ hbad => hbad.grows (List.suffix_cons _ _) rfl)
    (fun _ _ h => ⟨h.registry, h.alike, h.owner, h.loaded, h.start.trans (Nat.le_succ _)⟩)

theorem twin_getAddon {α : Type} (hab : l.pair a b) {f g : Addon H → Method H α}
    (h : ∀ x y, Alike x y → l.InStep (f x) (g y)) :
    l.InStep (getAddon a >>= f) (getAddon b >>= g) :=
  ⟨fun s hbad => (h _ _ (.refl (s.objects a))).stays s hbad,
    fun s t hr => (h _ _ (hr.alike a b hab)).step s t hr⟩

theorem twin_liftExcept {α : Type} (x : Except NetException α) :
    l.InStep (H := H) (liftExcept x) (liftExcept x) := by
  cases x with
  | ok v => exact inStep_pure v
  | error e => exact inStep_throw e

theorem storeCommand_trace (s : Plugin H) (a : AddonId) (name : LuaString) (f : LuaFunction) :
    s.trace <:+ (s.storeCommand a name f).trace ∧
      (s.storeCommand a name f).addons = s.addons := by
  unfold Plugin.storeCommand
  split
  · exact ⟨List.suffix_rfl, rfl⟩
  · exact ⟨List.suffix_cons _ _, rfl⟩

theorem twin_storeCommand (hab : l.pair a b) (name : LuaString) (f : LuaFunction) :
    l.InStep (modify (fun s => s.storeCommand a name f) : Method H Unit)
      (modify (fun s => s.storeCommand b name f) : Method H Unit) := by
  refine inStep_modify (fun s hbad => ?_) (fun s t hr => ?_)
  · obtain ⟨htrace, haddons⟩ := storeCommand_trace s a name f
    exact hbad.grows htrace haddons
  · have hL := (hr.alike a b hab).luaState
    cases ha : (s.objects a).luaState with
    | none =>
      simp only [Plugin.storeCommand, ha, hL.symm.trans ha]
      exact hr
    | some L =>
      simp only [Plugin.storeCommand, ha, hL.symm.trans ha]
      have hstored := hr.modifyAddon hab (f := setLua { L with
          addonCommands := some ((L.addonCommands.getD ∅).insert name f) })
        (fun _ _ h => h.setLua _) (fun _ => rfl)
      exact ⟨hstored.registry, hstored.alike, hstored.owner, hstored.loaded,
        hstored.start.trans (Nat.le_succ _)⟩

theorem twin_release (hab : l.pair a b) :
    l.InStep (release env stack a) (release env stack' b) := by
  refine inStep_bind (twin_emit _ _) (fun _ => twin_getAddon hab (fun x y h => ?_))
  rw [h.luaState]
  split
  · exact twin_setState hab .error
  · exact twin_modifyAddon hab (fun _ _ h => ⟨rfl, rfl, h.fileName⟩) (fun _ => rfl)

theorem readInfo_congr {x y : Addon H} (h : x.luaState = y.luaState) (field : String) :
    readInfo P x field = readInfo P y field := by
  unfold readInfo
  rw [h]

theorem twin_readInfos (hab : l.pair a b) :
    l.InStep (H := H) (readInfos P a) (readInfos P b) := by
  refine twin_getAddon hab (fun x y h => ?_)
  simp only [readInfo_congr h.luaState]
  refine inStep_bind (twin_liftExcept _) (fun author => inStep_bind (twin_modifyAddon hab
    (fun _ _ h => ⟨h.luaState, h.state, h.fileName⟩) (fun _ => rfl)) (fun _ => ?_))
  refine inStep_bind (twin_liftExcept _) (fun name => inStep_bind (twin_modifyAddon hab
    (fun _ _ h => ⟨h.luaState, h.state, h.fileName⟩) (fun _ => rfl)) (fun _ => ?_))
  exact inStep_bind (twin_liftExcept _) (fun version => inStep_bind (twin_modifyAddon hab
    (fun _ _ h => ⟨h.luaState, rfl, h.fileName⟩) (fun _ => rfl)) (fun _ => twin_emit _ _))

theorem twin_invokeError (hab : l.pair a b) (what name : String) (ex : NetException) :
    l.InStep (H := H) (invokeError P a what name ex) (invokeError P b what name ex) :=
  twin_getAddon hab (fun _ _ _ => inStep_bind (twin_tell _ _) (fun _ =>
    inStep_bind (twin_setState hab .error) (fun _ => inStep_pure _)))

/-! ## Registrations -/

/-- `RegisterCommand` for an addon of a pair. -/
theorem twin_registerCommand (hab : l.pair a b) (permission command : String) :
    l.InStep (H := H)
      (getAddon a >>= fun x => onRegistry (modifyGet
        (registerCommand P (P.toLower x.fileName) permission command)))
      (getAddon b >>= fun x => onRegistry (modifyGet
        (registerCommand P (P.toLower x.fileName) permission command))) := by
  refine ⟨fun s hbad => hbad.grows List.suffix_rfl rfl, fun s t hr => Or.inr ?_⟩
  have howner : l.owner (P.toLower (P.toLower (s.objects a).fileName)) := by
    rw [P.toLower_toLower]
    exact hr.owner a b hab
  obtain ⟨hok, hq⟩ := l.congruent howner s.registry t.registry (P.toLower (s.objects a).fileName)
    permission command rfl hr.registry
  unfold after
  simp only [EStateM.run_bind, getAddon, EStateM.run_get, EStateM.run_pure, onRegistry, run_zoom,
    EStateM.run_modifyGet, outcome_ok, final_ok, ← (hr.alike a b hab).fileName, hok]
  exact ⟨trivial, hq, hr.alike, hr.owner, hr.loaded, hr.start⟩

theorem twin_addonNewCommand (hab : l.pair a b) (name permission : LuaString)
    (f : LuaFunction) :
    l.InStep (H := H) (addonNewCommand P a name permission f)
      (addonNewCommand P b name permission f) := by
  refine inStep_bind (twin_modifyLua hab _) (fun _ => ?_)
  rw [← bind_assoc, ← bind_assoc]
  refine inStep_bind (twin_registerCommand hab _ _) (fun ok => ?_)
  cases ok with
  | true => exact inStep_bind (twin_storeCommand hab name f) (fun _ => inStep_pure _)
  | false => exact inStep_bind (inStep_pure _) (fun _ => inStep_pure _)

/-! ## Scripts -/

/-- The stores are linked, and if the event is forbidden then one has happened. -/
structure Marked (l : Link P) (target : CommandDelegate) (args : CommandArgs) (s t : Plugin H) :
    Prop where
  twin : Twin l s t
  bad : l.forbidden (.executed target args s.registry.addonCommands.entries) → l.Bad s

/-- The nested calls of delegates in `T` keep linked stores linked. -/
def NestedTwins (l : Link P) (T : CommandDelegate → Prop) (nested nested' : Nested H) : Prop :=
  ∀ stack stack' target args, T target → InStepUnless l.Bad (Marked l target args) (Twin l)
    (nested stack target args) (nested' stack' target args)

theorem nestedTwins_noDelegate (nested nested' : Nested H) :
    NestedTwins l NoDelegate nested nested' := fun _ _ _ _ h => h.elim

theorem twin_emitExecuted (target : CommandDelegate) (args : CommandArgs) :
    InStepUnless l.Bad (Twin (H := H) l) (Marked l target args) (emitExecuted target args)
      (emitExecuted target args) := by
  refine ⟨fun s hbad => hbad.grows (List.suffix_cons _ _) rfl, fun s t h => Or.inr ⟨rfl, ?_⟩⟩
  refine ⟨⟨h.registry, h.alike, h.owner, h.loaded, h.start.trans (Nat.le_succ _)⟩,
    fun hforbidden => ⟨⟨_, ?_, hforbidden⟩, fun k c hc => l.paired hforbidden h.loaded hc⟩⟩
  change _ ∈ (_ :: s.trace).take (s.trace.length + 1 - l.start)
  rw [Nat.succ_sub h.start, List.take_succ_cons]
  exact List.mem_cons_self

section Run

variable {T : CommandDelegate → Prop} (hn : NestedTwins l T nested nested')

include hn

theorem twin_runScript (hab : l.pair a b) : ∀ c : Script H, c.Targets T →
    l.InStep (runScript P nested stack a c) (runScript P nested' stack' b c) := by
  intro c
  induction c with
  | done heap values =>
    exact fun _ => inStep_bind (twin_modifyLua hab _) (fun _ => inStep_pure _)
  | raise heap => exact fun _ => inStep_bind (twin_modifyLua hab _) (fun _ => inStep_throw _)
  | registerEvent name f next ih =>
    exact fun hT => inStep_bind (twin_modifyLua hab _) (fun _ => ih hT)
  | registerCommand name permission f next ih =>
    exact fun hT => inStep_bind (twin_addonNewCommand hab name permission f)
      (fun ok => ih ok (hT ok))
  | assign key value next ih =>
    exact fun hT => inStep_bind (twin_modifyLua hab _) (fun _ => ih hT)
  | chatCommand heap target args next ih =>
    intro hT
    refine inStep_bind (twin_modifyLua hab _) (fun _ => ?_)
    refine inStep_bind_of (fun _ _ h => h.twin) (twin_emitExecuted target args) (fun _ => ?_)
    refine inStep_bind (inStep_tryCatch (inStep_bind (hn stack stack' target args hT.1)
      (fun _ => inStep_pure _)) (fun _ => inStep_pure _)) (fun ok => ?_)
    refine twin_getAddon hab (fun x y h => ?_)
    rw [← h.luaState]
    exact ih ok _ (hT.2 ok _)

/-- `Initialize` overwrites the Lua state it finds. -/
def Addon.withoutLua (x : Addon H) : Addon H := { x with luaState := none }

omit hn in
theorem run_startAddon_withoutLua (name : String) (s : Plugin H) :
    (startAddon P env nested stack a name).run (s.modifyAddon a Addon.withoutLua) =
      (startAddon P env nested stack a name).run s := by
  have hstart : (s.modifyAddon a Addon.withoutLua).startLua a (env.newLuaState P name) =
      s.startLua a (env.newLuaState P name) := by
    simp [Plugin.startLua, Plugin.modifyAddon, Addon.withoutLua]
  unfold startAddon runFile
  simp only [run_tryCatch, EStateM.run_bind, EStateM.run_modify, hstart]

theorem twin_startAddon (hab : l.pair a b) {name : String}
    (hscript : ∀ body, env.script name = some body → body.Targets T) :
    l.InStep (startAddon P env nested stack a name) (startAddon P env nested' stack' b name) := by
  refine inStep_tryCatch (inStep_bind ?_ (fun _ => inStep_bind (twin_readInfos hab)
    (fun _ => inStep_pure _))) (fun ex => ?_)
  · refine inStep_bind (inStep_modify (fun _ hbad => ?_) (fun s t hr => ?_)) (fun _ => ?_)
    · exact hbad.grows (List.suffix_cons _ _) rfl
    · have hstarted := hr.modifyAddon hab (f := setLua (env.newLuaState P name))
        (fun _ _ h => h.setLua _) (fun _ => rfl)
      exact ⟨hstarted.registry, hstarted.alike, hstarted.owner, hstarted.loaded,
        hstarted.start.trans (Nat.le_succ _)⟩
    · cases hs : env.script name with
      | none => exact inStep_throw _
      | some body =>
        exact inStep_bind (twin_runScript hn hab body (hscript body hs)) (fun _ => inStep_pure _)
  · exact inStep_bind (twin_tell _ _) (fun _ => inStep_bind (twin_release hab) (fun _ =>
      inStep_bind (twin_setState hab .error) (fun _ => inStep_pure _)))

/-- It does not matter which Lua states a start finds. -/
theorem twin_started (hab : l.pair a b) {name : String}
    (hscript : ∀ body, env.script name = some body → body.Targets T) {s t : Plugin H}
    (h : Twin l (s.modifyAddon a Addon.withoutLua) (t.modifyAddon b Addon.withoutLua)) :
    l.Bad (after (startAddon P env nested stack a name) s) ∨
      (outcome ((startAddon P env nested stack a name).run s) =
          outcome ((startAddon P env nested' stack' b name).run t) ∧
        Twin l (after (startAddon P env nested stack a name) s)
          (after (startAddon P env nested' stack' b name) t)) := by
  have hinStep : l.InStep (startAddon P env nested stack a name)
      (startAddon P env nested' stack' b name) := twin_startAddon hn hab hscript
  have hstep := hinStep.step _ _ h
  unfold after at hstep ⊢
  rwa [run_startAddon_withoutLua, run_startAddon_withoutLua] at hstep

theorem twin_invoke (hab : l.pair a b) (henv : env.Targets T)
    (table : LuaState H → Option FunctionTable) (what name : String) (args : List NetObject) :
    l.InStep (invoke P env nested stack a table what name args)
      (invoke P env nested' stack' b table what name args) := by
  refine twin_getAddon hab (fun x y h => ?_)
  rw [← h.luaState, ← h.state]
  cases x.luaState with
  | none => exact inStep_pure _
  | some L =>
    dsimp only
    split
    · exact inStep_pure _
    · refine inStep_tryCatch ?_ (twin_invokeError hab what name)
      cases table L with
      | none => exact inStep_pure _
      | some t =>
        refine inStep_bind (twin_liftExcept _) (fun f => ?_)
        cases f with
        | none => exact inStep_pure _
        | some f =>
          exact inStep_bind (twin_emit _ _) (fun _ => inStep_bind
            (twin_runScript hn hab _ (henv.call f L.heap args)) (fun _ => inStep_pure _))

end Run

/-- Without chat commands nothing ends the comparison. -/
theorem twin_invoke_single {key : String} {Q : Registry → Registry → Prop}
    (hQ : Congruent P key Q) (henv : env.Targets NoDelegate)
    (table : LuaState H → Option FunctionTable) (what name : String) (args : List NetObject)
    {s t : Plugin H} (h : Twin (Link.single a b hQ) s t) :
    Twin (Link.single a b hQ) (after (invoke P env nested stack a table what name args) s)
      (after (invoke P env nested' stack' b table what name args) t) := by
  have hinStep : (Link.single a b hQ).InStep (invoke P env nested stack a table what name args)
      (invoke P env nested' stack' b table what name args) :=
    twin_invoke (nestedTwins_noDelegate nested nested') Link.single_pair henv table what name args
  exact ((hinStep.step s t h).resolve_left not_bad_single).2

end Twin

end LuaAddons
