import LuaAddons.Bridge
import LuaAddons.Starting

/-!
# The references that the addons leave behind

`invoke`, the body of `InvokeEvent` and `InvokeCommand`, passes values by themselves. Below it
stands `invokeBridge`, which passes references. `addonInterp` is the Lua side of one addon for
it, and `invokeBridge_refines` says that the plugin is the same after both.

So an addon with a table for a kind of calls keeps a reference of every one of them
(`invoke_leaks`): with each event that is fired, as long as it is in the state Ok.
-/

namespace LuaAddons

open Exec

variable {H : Type} {P : Platform} {env : Env H} {nested : Nested H} {stack : CallStack}
  {a : AddonId}

/-! ## Errors of a script -/

/-- Lua code ends with an error of Lua or not at all. -/
theorem runScript_throws (body : Script H) :
    ∀ stack, OnlyThrows .luaScript (runScript P nested stack a body) := by
  induction body with
  | done heap values =>
    intro stack
    exact onlyThrows_of_returns (returns_bind (returns_modify _) fun _ => returns_pure _)
  | raise heap =>
    intro stack
    apply onlyThrows_bind (onlyThrows_of_returns (returns_modify _))
    intro _
    exact onlyThrows_throw _
  | registerEvent name f next ih =>
    intro stack
    exact onlyThrows_bind (onlyThrows_of_returns (returns_modify _)) fun _ => ih stack
  | registerCommand name permission f next ih =>
    intro stack
    have hreturns : Returns (addonNewCommand P a name permission f : Method H Bool) := by
      intro s
      obtain ⟨s', hrun, _⟩ := run_addonNewCommand name permission f s
      exact ⟨_, s', hrun⟩
    exact onlyThrows_bind (onlyThrows_of_returns hreturns) fun ok => ih ok stack
  | assign key value next ih =>
    intro stack
    exact onlyThrows_bind (onlyThrows_of_returns (returns_modify _)) fun _ => ih stack
  | chatCommand heap target args next ih =>
    intro stack
    apply onlyThrows_bind (onlyThrows_of_returns (returns_modify _))
    intro _
    apply onlyThrows_bind (onlyThrows_of_returns (returns_emitExecuted target args))
    intro _
    apply onlyThrows_bind (onlyThrows_of_returns (returns_tryCatch fun _ => returns_pure _))
    intro ok
    exact onlyThrows_bind (onlyThrows_of_returns (returns_getAddon a)) fun x => ih ok _ stack

/-! ## The Lua side of one addon -/

namespace AddonCall

/-- The table of the functions for the call. -/
def functions : AddonCall → LuaState H → Option FunctionTable
  | event _ _ => LuaState.addonEvents
  | command _ _ => LuaState.addonCommands

def what : AddonCall → String
  | event _ _ => "event"
  | command _ _ => "command"

end AddonCall

/-- `InvokeEvent` and the body of `InvokeCommand`. -/
def invokeCall (P : Platform) (env : Env H) (nested : Nested H) (stack : CallStack) (a : AddonId)
    (c : AddonCall) : Method H (Option (List NetObject)) :=
  invoke P env nested stack a c.functions c.what c.name c.args

/-- The table of the functions in the addon `a`. -/
def Plugin.functions (w : Plugin H) (a : AddonId) (c : AddonCall) : Option FunctionTable :=
  (w.objects a).luaState.bind c.functions

/-- A call into Lua as `callFunction` makes it. -/
def callRun (P : Platform) (env : Env H) (nested : Nested H) (stack : CallStack) (a : AddonId)
    (f : LuaFunction) (args : List NetObject) (L : LuaState H) : Method H (List LuaValue) := do
  emit (.call a f args stack)
  runScript P nested (a :: stack) a (env.call f L.heap args)

/-- What `lua_pcall` makes of a run: every exception becomes an error value. -/
def pcallResult : EStateM.Result NetException (Plugin H) (List LuaValue) →
    Except LuaValue (List LuaValue) × Plugin H
  | .ok values w => (.ok values, w)
  | .error _ w => (.error .nil, w)

/-- What the bridge asks of the Lua state of the addon `a` for the call `c`. -/
def addonInterp (P : Platform) (env : Env H) (nested : Nested H) (stack : CallStack)
    (a : AddonId) (c : AddonCall) : Interp (Plugin H) where
  state w := if (w.objects a).luaState.isSome then (w.objects a).state else .released
  fail ex w := after (invokeError P a c.what c.name ex) w
  getGlobal name w :=
    if name = P.luaPushString c.table ∧ (w.functions a c).isSome then .table 0 else .nil
  getTable v key w :=
    match v with
    | .table _ => (some (((w.functions a c).bind (·.lookup key)).elim .nil .function), w)
    | _ => (none, w)
  call v args w :=
    match v, (w.objects a).luaState with
    | .function f, some L => pcallResult ((callRun P env nested stack a f args L).run w)
    | _, _ => (.error .nil, w)
  isNativeFunction _ := false

/-- Both runs return, or both throw the same exception, and the plugin is the same. -/
def SameRun {α β : Type} : EStateM.Result NetException (Bridge (Plugin H)) α →
    EStateM.Result NetException (Plugin H) β → Prop
  | .ok _ s, .ok _ w => s.addon = w
  | .error e s, .error e' w => e = e' ∧ s.addon = w
  | _, _ => False

/-- Handlers that leave the same plugin may stand around runs that are the same. -/
theorem SameRun.tryCatch {α β : Type} {x : BridgeMethod (Plugin H) α} {y : Method H β}
    {h : NetException → BridgeMethod (Plugin H) α} {h' : NetException → Method H β}
    {s : Bridge (Plugin H)} {w : Plugin H} (hxy : SameRun (x.run s) (y.run w))
    (hh : ∀ ex s, (after (h ex) s).addon = after (h' ex) s.addon) :
    (after (tryCatch x h) s).addon = after (tryCatch y h') w := by
  unfold after
  rw [run_tryCatch, run_tryCatch]
  cases hx : x.run s with
  | ok r s' =>
    cases hy : y.run w with
    | ok r' w' =>
      rw [hx, hy] at hxy
      exact hxy
    | error e w' =>
      rw [hx, hy] at hxy
      cases hxy
  | error e s' =>
    cases hy : y.run w with
    | ok r' w' =>
      rw [hx, hy] at hxy
      cases hxy
    | error e' w' =>
      rw [hx, hy] at hxy
      obtain ⟨rfl, rfl⟩ := hxy
      exact hh e s'

/-- The plugin is the same. -/
def SameAddon (s s' : Bridge (Plugin H)) : Prop := s'.addon = s.addon

instance : IsPreorder (Bridge (Plugin H)) SameAddon where
  refl _ := rfl
  trans _ _ _ h₁ h₂ := h₂.trans h₁

theorem returns_getBridgeObject (v : LuaValue) :
    Returns (getBridgeObject v : BridgeMethod (Plugin H) BridgeObject) := by
  intro s
  cases h : v.isReferenced with
  | true => exact ⟨_, _, run_getBridgeObject_referenced h⟩
  | false => exact ⟨_, _, run_getBridgeObject h⟩

theorem sameAddon_getBridgeObject (v : LuaValue) :
    Keeps SameAddon (getBridgeObject v : BridgeMethod (Plugin H) BridgeObject) := by
  intro s
  cases h : v.isReferenced with
  | true =>
    rw [after_of_run (run_getBridgeObject_referenced h)]
    rfl
  | false =>
    rw [after_of_run (run_getBridgeObject h)]
    rfl

section Refinement

variable (c : AddonCall) (s : Bridge (Plugin H)) {L : LuaState H} {t : FunctionTable}

/-- The body of `invoke`'s `try` block. -/
def invokeBlock (P : Platform) (env : Env H) (nested : Nested H) (stack : CallStack)
    (a : AddonId) (c : AddonCall) (L : LuaState H) : Method H (Option (List NetObject)) :=
  match c.functions L with
  | none => pure none
  | some t => do
    match ← liftExcept (getFunction P t (split '.' c.name)) with
    | none => pure none
    | some f => callFunction P env nested stack a L f c.args

theorem getGlobal_addonInterp (hL : (s.addon.objects a).luaState = some L) :
    (addonInterp P env nested stack a c).getGlobal (P.luaPushString c.table) s.addon =
      if (c.functions L).isSome then .table 0 else .nil := by
  show (if _ ∧ (s.addon.functions a c).isSome then _ else _) = _
  rw [Plugin.functions, hL]
  simp

theorem getTable_addonInterp (hL : (s.addon.objects a).luaState = some L)
    (ht : c.functions L = some t) (n : Nat) (key : LuaString) :
    (addonInterp P env nested stack a c).getTable (.table n) key s.addon =
      (some ((t.lookup key).elim .nil .function), s.addon) := by
  show (some (((s.addon.functions a c).bind _).elim _ _), s.addon) = _
  rw [Plugin.functions, hL, Option.bind_some, ht, Option.bind_some]

/-- The call of the function: the bridge and `callFunction` run the same script. -/
theorem callLuaFunction_refines (hL : (s.addon.objects a).luaState = some L) {id : Nat}
    {f : LuaFunction} (hvalue : functionValue id s = .function f) :
    SameRun ((callLuaFunction (addonInterp P env nested stack a c) id c.args).run s)
      ((callFunction P env nested stack a L f c.args).run s.addon) := by
  have hcallFunction : callFunction P env nested stack a L f c.args =
      callRun P env nested stack a f c.args L >>= fun values =>
        pure (if values = [] then none else some (values.map P.getObject)) := by
    rw [callRun, bind_assoc]
    rfl
  have hthrows : OnlyThrows .luaScript (callRun P env nested stack a f c.args L) :=
    onlyThrows_bind (onlyThrows_of_returns (returns_modify _)) fun _ => runScript_throws _ _
  have hcall : (addonInterp P env nested stack a c).call (.function f) c.args s.addon =
      pcallResult ((callRun P env nested stack a f c.args L).run s.addon) := by
    simp only [addonInterp, hL]
  rw [callLuaFunction, run_bind_of_ok (EStateM.run_get s), run_bind_of_ok (run_onAddon _ s),
    hvalue, hcall, hcallFunction, EStateM.run_bind]
  cases hrun : (callRun P env nested stack a f c.args L).run s.addon with
  | error e w' =>
    have he := hthrows _ _ _ hrun
    simp only [pcallResult]
    rw [run_bind_of_ok (run_getBridgeObject (by rfl))]
    exact ⟨he.symm, rfl⟩
  | ok values w' =>
    cases values with
    | nil => rfl
    | cons v vs =>
      have hreturns : Returns ((v :: vs).mapM getBridgeObject : BridgeMethod (Plugin H) _) :=
        returns_mapM fun x _ => returns_getBridgeObject x
      have hsame : Keeps SameAddon ((v :: vs).mapM getBridgeObject : BridgeMethod (Plugin H) _) :=
        keeps_mapM fun x _ => sameAddon_getBridgeObject x
      obtain ⟨objects, s', hobjects⟩ := hreturns (s.setAddon w')
      have haddon := hsame (s.setAddon w')
      rw [after_of_run hobjects] at haddon
      simp only [pcallResult]
      rw [run_bind_of_ok hobjects]
      exact haddon

/-- `getItem` of the path of a function when the global is a table: the walk, and the managed
object of the table disposed. -/
theorem run_getItem_of_table {I : Interp (Plugin H)} {v : LuaValue} (hv : v.isReferenced = true)
    (hglobal : I.getGlobal (P.luaPushString c.table) s.addon = v) :
    (getItem P I (c.table ++ "." ++ c.name)).run s =
      (do
        let result ← getObjectPath P I v (split '.' c.name)
        disposeObject s.objects.length
        pure result : BridgeMethod (Plugin H) BridgeObject).run (s.newObject v) := by
  have hfirst : firstWord '.' (c.table ++ "." ++ c.name) = c.table := by
    simp [firstWord, (split_table c c.name).1]
  rw [getItem, run_bind_of_ok (EStateM.run_get s), hfirst, (split_table c c.name).1,
    List.tail_cons, hglobal, getItemOf, run_bind_of_ok (run_getBridgeObject_referenced hv),
    if_neg (split_ne_nil '.' c.name)]
  rfl

/-- Disposing one object leaves the values of the references and the other objects. -/
theorem run_disposeObject (id : Nat) :
    ∃ s', (disposeObject id).run s = .ok () s' ∧ s'.addon = s.addon ∧
      s'.refs.value = s.refs.value ∧ ∀ j, j ≠ id → s'.objects[j]? = s.objects[j]? := by
  refine ⟨_, rfl, ?_⟩
  cases hb : s.objects[id]? with
  | none =>
    simp [hb]
  | some b =>
    simp only [hb]
    refine ⟨trivial, ?_, fun j hj => List.getElem?_set_ne hj.symm⟩
    show (b.dispose true s.refs).2.value = _
    rw [LuaBase.dispose]
    split
    · rfl
    · show (if _ then _ else _ : RefTable LuaValue).value = _
      split <;> rfl

theorem newObject_object (v : LuaValue) :
    (s.newObject v).objects[s.objects.length]? =
      some (.new v.type (s.refs.ref v).1 none) :=
  List.getElem?_concat_length

/-- The cast of a managed function. -/
theorem run_asLuaFunction {I : Interp (Plugin H)} {s : Bridge (Plugin H)} {id : Nat}
    {b : LuaBase} (hb : s.objects[id]? = some b) (htype : b.type = .function) :
    (asLuaFunction I (.base id)).run s = .ok (some id) s := by
  rw [asLuaFunction, run_bind_of_ok (EStateM.run_get s), hb]
  show ((if b.type = .function then _ else _ : BridgeMethod (Plugin H) _).run s) = _
  rw [if_pos htype]
  rfl

/-- The bridge ends as `result` says when it reads the path of a function: a managed object holds the
function, and the plugin stays. -/
def FoundFunction (result : Except NetException (Option LuaFunction)) (s : Bridge (Plugin H)) :
    EStateM.Result NetException (Bridge (Plugin H)) (Option Nat) → Prop
  | .error e s' => result = .error e ∧ s'.addon = s.addon
  | .ok none s' => result = .ok none ∧ s'.addon = s.addon
  | .ok (some id) s' =>
    s'.addon = s.addon ∧ ∃ f, result = .ok (some f) ∧ functionValue id s' = .function f

/-- `Lua.GetFunction` finds what `getFunction` finds in the table of the addon. -/
theorem getLuaFunction_refines (hL : (s.addon.objects a).luaState = some L)
    (ht : c.functions L = some t) :
    FoundFunction (getFunction P t (split '.' c.name)) s
      ((getLuaFunction P (addonInterp P env nested stack a c) (c.table ++ "." ++ c.name)).run
        s) := by
  have hreferenced : (LuaValue.table 0).isReferenced = true := rfl
  have hglobal : (addonInterp P env nested stack a c).getGlobal (P.luaPushString c.table) s.addon =
      .table 0 := by
    rw [getGlobal_addonInterp c s hL, ht, if_pos (by rfl)]
  have hwalk := run_getItem_of_table c s hreferenced hglobal
  have hget (key : LuaString) : (addonInterp P env nested stack a c).getTable (.table 0) key
      (s.newObject (.table 0)).addon =
        (some ((t.lookup key).elim .nil .function), (s.newObject (.table 0)).addon) :=
    getTable_addonInterp c (s.newObject (.table 0)) hL ht 0 key
  rw [getLuaFunction]
  cases hpath : split '.' c.name with
  | nil => exact absurd hpath (split_ne_nil _ _)
  | cons piece rest =>
    rw [hpath, getObjectPath, bind_assoc, run_bind_of_ok (run_onAddon _ _), hget] at hwalk
    simp only at hwalk
    cases hf : t.lookup (P.luaPushString piece) with
    | none =>
      rw [hf, Option.elim_none, bind_assoc, run_bind_of_ok (run_getBridgeObject (by rfl)),
        if_pos (.inl (by rfl))] at hwalk
      obtain ⟨s', hdispose, haddon, _⟩ := run_disposeObject
        ((s.newObject (.table 0)).setAddon (s.newObject (.table 0)).addon) s.objects.length
      rw [pure_bind, run_bind_of_ok hdispose] at hwalk
      rw [run_bind_of_ok hwalk]
      refine ⟨?_, haddon⟩
      cases rest with
      | nil => rw [getFunction, hf]
      | cons piece' rest => rw [getFunction, hf]
    | some f =>
      rw [hf, Option.elim_some, bind_assoc,
        run_bind_of_ok (run_getBridgeObject_referenced (by rfl))] at hwalk
      cases rest with
      | nil =>
        rw [if_pos (.inr rfl), pure_bind] at hwalk
        generalize hs₁ : (s.newObject (.table 0)).setAddon _ = s₁ at hwalk
        obtain ⟨s', hdispose, haddon, hvalue, hobjects⟩ := run_disposeObject
          (s₁.newObject (.function f)) s.objects.length
        rw [run_bind_of_ok hdispose] at hwalk
        -- the object of the function is a new one, so it is not disposed
        have hlength : s₁.objects.length ≠ s.objects.length := by
          rw [← hs₁]
          simp [Bridge.newObject, Bridge.setAddon]
        have hobject := (hobjects _ hlength).trans (newObject_object s₁ (.function f))
        rw [run_bind_of_ok hwalk, run_asLuaFunction hobject rfl]
        refine ⟨by rw [haddon, ← hs₁]; rfl, f, by rw [getFunction, hf], ?_⟩
        rw [functionValue, hobject]
        exact (congrFun hvalue _).trans (RefTable.value_ref _ _)
      | cons piece' rest =>
        rw [if_neg (by simp), getObjectPath] at hwalk
        rw [EStateM.run_bind, hwalk]
        exact ⟨by rw [getFunction, hf], rfl⟩

/-- The `try` block of the bridge and that of `invoke`. -/
theorem tryBlock_refines (hL : (s.addon.objects a).luaState = some L) :
    SameRun ((tryBlock P (addonInterp P env nested stack a c) c).run s)
      ((invokeBlock P env nested stack a c L).run s.addon) := by
  have hitem := run_getItem_table (P := P) (I := addonInterp P env nested stack a c) c s
  rw [getGlobal_addonInterp c s hL] at hitem
  rw [invokeBlock]
  cases ht : c.functions L with
  | none =>
    rw [ht, if_neg (by simp), run_getBridgeObject rfl] at hitem
    rw [tryBlock, run_bind_of_ok hitem, callNamed, if_pos (by rfl)]
    rfl
  | some t =>
    rw [ht, if_pos (by rfl), run_getBridgeObject_referenced (by rfl)] at hitem
    have hfound : FoundFunction (getFunction P t (split '.' c.name)) (s.newObject (.table 0))
        ((getLuaFunction P (addonInterp P env nested stack a c)
          (c.table ++ "." ++ c.name)).run (s.newObject (.table 0))) :=
      getLuaFunction_refines c (s.newObject (.table 0)) hL ht
    rw [tryBlock, run_bind_of_ok hitem, callNamed, if_neg (by simp), EStateM.run_bind]
    simp only
    cases hrun : (getLuaFunction P (addonInterp P env nested stack a c)
        (c.table ++ "." ++ c.name)).run (s.newObject (.table 0)) with
    | error e s' =>
      rw [hrun] at hfound
      obtain ⟨hresult, haddon⟩ := hfound
      rw [hresult]
      exact ⟨rfl, haddon⟩
    | ok id s' =>
      rw [hrun] at hfound
      cases id with
      | none =>
        obtain ⟨hresult, haddon⟩ := hfound
        rw [hresult]
        exact haddon
      | some id =>
        obtain ⟨haddon, f, hresult, hvalue⟩ := hfound
        have hsame : s'.addon = s.addon := haddon
        rw [hresult, ← hsame]
        exact callLuaFunction_refines c s' (hsame ▸ hL) hvalue

/-- `invoke` on an addon with a Lua state. -/
theorem run_invokeCall {w : Plugin H} (hL : (w.objects a).luaState = some L) :
    (invokeCall P env nested stack a c).run w =
      (if (w.objects a).state ≠ .ok then pure none
        else tryCatch (invokeBlock P env nested stack a c L) (invokeError P a c.what c.name) :
          Method H (Option (List NetObject))).run w := by
  rw [invokeCall, invoke, run_bind_of_ok (show (getAddon a).run w = .ok (w.objects a) w from rfl),
    hL]
  rfl

/-- The plugin after a call through the bridge is the plugin after `invoke`. -/
theorem invokeBridge_refines :
    (after (invokeBridge P (addonInterp P env nested stack a c) c.table c.name c.args) s).addon =
      after (invokeCall P env nested stack a c) s.addon := by
  have hstate : (addonInterp P env nested stack a c).state s.addon =
      if (s.addon.objects a).luaState.isSome then (s.addon.objects a).state else .released := rfl
  rw [invokeBridge, after_get_bind, hstate]
  cases hL : (s.addon.objects a).luaState with
  | none =>
    have hnone : after (invokeCall P env nested stack a c) s.addon = s.addon := by
      rw [invokeCall, invoke, after,
        run_bind_of_ok (show (getAddon a).run s.addon = .ok (s.addon.objects a) s.addon from rfl),
        hL]
      rfl
    rw [hnone]
    rfl
  | some L =>
    rw [after, after, run_invokeCall c hL, Option.isSome_some, if_pos rfl]
    by_cases hok : (s.addon.objects a).state = .ok
    · rw [if_neg (not_not.mpr hok), if_neg (not_not.mpr hok)]
      exact (tryBlock_refines c s hL).tryCatch fun _ _ => rfl
    · rw [if_pos hok, if_pos hok]
      rfl

end Refinement

/-- A call of an addon in State Ok that has the table for it leaves a reference behind. -/
theorem invoke_leaks (c : AddonCall) (s : Bridge (Plugin H)) (hvalid : s.refs.Valid)
    (hstate : (addonInterp P env nested stack a c).state s.addon = .ok)
    (htable : (s.addon.functions a c).isSome) :
    Leaks s (after (invokeBridge P (addonInterp P env nested stack a c) c.table c.name c.args)
      s) := by
  apply invokeBridge_leaks c s hvalid
  have hglobal : (addonInterp P env nested stack a c).getGlobal (P.luaPushString c.table) s.addon =
      .table 0 := if_pos ⟨rfl, htable⟩
  rintro (hne | hnull | hvalues)
  · exact hne hstate
  · rw [hglobal] at hnull
    cases hnull
  · have hmem := hvalues _ List.mem_cons_self
    rw [hglobal] at hmem
    cases hmem

end LuaAddons
