import LuaAddons.Plugin

/-!
# Outcomes of the methods of an addon

`Release`, `Initialize`, `Reload`, `InvokeEvent` and `InvokeCommand` catch every exception, so
they always return. `Plugin.release` is the state `Release` leaves behind. An addon that is
not in state `Ok` ignores events and commands.
-/

namespace LuaAddons

open Exec

variable {H : Type} {P : Platform} {env : Env H} {nested : Nested H} {stack : CallStack}
  {a : AddonId}

theorem returns_getAddon (a : AddonId) : Returns (getAddon a : Method H (Addon H)) :=
  fun s => ⟨s.objects a, s, rfl⟩

theorem returns_emitExecuted (target : CommandDelegate) (args : CommandArgs) :
    Returns (emitExecuted target args : Method H Unit) := fun _ => ⟨_, _, rfl⟩

theorem run_onRegistry {α : Type} {x : EStateM NetException Registry α} {s : Plugin H} {b : α}
    {r : Registry} (h : x.run s.registry = .ok b r) :
    (onRegistry x).run s = .ok b { s with registry := r } := by
  rw [onRegistry, run_zoom, h]

/-! ## Release -/

/-- The state after `Release`. -/
def Plugin.release (s : Plugin H) (env : Env H) (stack : CallStack) (a : AddonId) : Plugin H :=
  { s.modifyAddon a (fun x =>
      if x.luaState.any (fun L => env.disposeThrows L.heap) then { x with state := .error }
      else x.released) with
    trace := .release a stack :: s.trace }

theorem run_release (s : Plugin H) :
    (release env stack a).run s = .ok () (s.release env stack a) := by
  unfold release Plugin.release
  simp only [emit, getAddon, modifyAddon, EStateM.run_bind, EStateM.run_modify, EStateM.run_get,
    EStateM.run_pure]
  split <;> rename_i h
  · simp [Plugin.modifyAddon, h]
  · simp [Plugin.modifyAddon, h]

theorem returns_release : Returns (release env stack a : Method H Unit) :=
  fun s => ⟨(), _, run_release s⟩

@[simp] theorem release_objects_self (s : Plugin H) :
    (s.release env stack a).objects a =
      if (s.objects a).luaState.any (fun L => env.disposeThrows L.heap) then
        { s.objects a with state := .error }
      else (s.objects a).released := by
  simp [Plugin.release, Plugin.modifyAddon]

@[simp] theorem release_fileName (s : Plugin H) :
    ((s.release env stack a).objects a).fileName = (s.objects a).fileName := by
  rw [release_objects_self]
  split <;> rfl

/-! ## Initialize and Reload -/

theorem run_liftExcept_eq_ok {α : Type} {x : Except NetException α} {s s' : Plugin H} {v : α}
    (h : (liftExcept x).run s = .ok v s') : x = .ok v ∧ s' = s := by
  cases x with
  | error e => cases h
  | ok w => cases h; exact ⟨rfl, rfl⟩

/-- What `Initialize` wrote when all three fields were strings. -/
theorem readInfos_ok {s s' : Plugin H} {u : Unit} (h : (readInfos P a).run s = .ok u s') :
    ∃ author name version, readInfo P (s.objects a) "author" = .ok author ∧
      readInfo P (s.objects a) "name" = .ok name ∧
      readInfo P (s.objects a) "version" = .ok version ∧
      s'.objects a = { s.objects a with author, name, version, state := .ok } ∧
      s'.trace = .initialized a (((s.objects a).luaState.map LuaState.addonTable).getD ∅) ::
        s.trace := by
  obtain ⟨x, s₀, hx, h⟩ := run_bind_eq_ok h
  cases hx
  obtain ⟨author, s₁, hs₁, h⟩ := run_bind_eq_ok h
  obtain ⟨hauthor, rfl⟩ := run_liftExcept_eq_ok hs₁
  obtain ⟨_, s₂, hs₂, h⟩ := run_bind_eq_ok h
  cases hs₂
  obtain ⟨name, s₃, hs₃, h⟩ := run_bind_eq_ok h
  obtain ⟨hname, rfl⟩ := run_liftExcept_eq_ok hs₃
  obtain ⟨_, s₄, hs₄, h⟩ := run_bind_eq_ok h
  cases hs₄
  obtain ⟨version, s₅, hs₅, h⟩ := run_bind_eq_ok h
  obtain ⟨hversion, rfl⟩ := run_liftExcept_eq_ok hs₅
  obtain ⟨_, s₆, hs₆, h⟩ := run_bind_eq_ok h
  cases hs₆
  cases h
  exact ⟨author, name, version, hauthor, hname, hversion, by simp [Plugin.modifyAddon], rfl⟩

/-- The two ways a start ends: the script and the three fields were fine, or one of them
failed and the addon is in state `Error`. -/
theorem startAddon_cases {name : String} {s s' : Plugin H} {ok : Bool}
    (h : (startAddon P env nested stack a name).run s = .ok ok s') :
    (ok = true ∧ ∃ s₁, (runFile P env nested stack a name).run s = .ok () s₁ ∧
        (readInfos P a).run s₁ = .ok () s') ∨
      (ok = false ∧ (s'.objects a).state = .error ∧
        ((∃ e s₁, (runFile P env nested stack a name).run s = .error e s₁) ∨
          ∃ s₁ e s₂, (runFile P env nested stack a name).run s = .ok () s₁ ∧
            (readInfos P a).run s₁ = .error e s₂)) := by
  have hfail : ∀ (ex : NetException) (s₁ : Plugin H), (do
        tell (.log (P.exceptionToString ex))
        release env stack a
        modifyAddon a (fun x => { x with state := .error })
        pure false : Method H Bool).run s₁ = .ok ok s' →
      ok = false ∧ (s'.objects a).state = .error := by
    intro ex s₁ h
    simp only [tell, modifyAddon, EStateM.run_bind, EStateM.run_modify, run_release,
      EStateM.run_pure] at h
    cases h
    exact ⟨rfl, by simp [Plugin.modifyAddon]⟩
  unfold startAddon at h
  rw [run_tryCatch, EStateM.run_bind] at h
  cases hfile : (runFile P env nested stack a name).run s with
  | error e s₁ =>
    rw [hfile] at h
    obtain ⟨hok, hstate⟩ := hfail e s₁ h
    exact Or.inr ⟨hok, hstate, Or.inl ⟨e, s₁, rfl⟩⟩
  | ok u s₁ =>
    rw [hfile] at h
    simp only [EStateM.run_bind] at h
    cases hinfos : (readInfos P a).run s₁ with
    | error e s₂ =>
      rw [hinfos] at h
      obtain ⟨hok, hstate⟩ := hfail e s₂ h
      exact Or.inr ⟨hok, hstate, Or.inr ⟨s₁, e, s₂, rfl, hinfos⟩⟩
    | ok u s₂ =>
      rw [hinfos] at h
      cases h
      exact Or.inl ⟨rfl, s₁, rfl, hinfos⟩

theorem returns_startAddon (name : String) :
    Returns (startAddon P env nested stack a name) :=
  returns_tryCatch (fun _ => returns_bind (returns_modify _) (fun _ =>
    returns_bind returns_release (fun _ => returns_bind (returns_modify _)
      (fun _ => returns_pure _))))

/-- The state in which `Initialize` enters its `try` block. -/
def Plugin.loading (s : Plugin H) (env : Env H) (stack : CallStack) (a : AddonId)
    (name : String) : Plugin H :=
  (if (s.objects a).luaState.isSome then s.release env stack a else s).modifyAddon a
    (fun x => { x with state := .loading, fileName := name })

theorem run_initializeAddon (name : String) (s : Plugin H) :
    (initializeAddon P env nested stack a name).run s =
      (startAddon P env nested stack a name).run (s.loading env stack a name) := by
  unfold initializeAddon Plugin.loading getAddon modifyAddon
  simp only [EStateM.run_bind, EStateM.run_get, EStateM.run_pure]
  cases (s.objects a).luaState.isSome with
  | true =>
    simp only [if_true, EStateM.run_bind, run_release, EStateM.run_modify]
  | false =>
    simp only [Bool.false_eq_true, if_false, EStateM.run_bind, EStateM.run_modify]

theorem loading_registry (name : String) (s : Plugin H) :
    (s.loading env stack a name).registry = s.registry := by
  unfold Plugin.loading
  split <;> rfl

/-- The state in which `Reload` enters `Initialize`. -/
def Plugin.reloading (s : Plugin H) (env : Env H) (stack : CallStack) (a : AddonId) : Plugin H :=
  (s.modifyAddon a (fun x => { x with state := .reloading })).release env stack a

@[simp] theorem reloading_fileName (s : Plugin H) :
    ((s.reloading env stack a).objects a).fileName = (s.objects a).fileName := by
  rw [Plugin.reloading, release_fileName]
  simp [Plugin.modifyAddon]

/-- The state in which `Reload` enters the `try` block of `Initialize`. -/
def Plugin.restarting (s : Plugin H) (env : Env H) (stack : CallStack) (a : AddonId) :
    Plugin H :=
  (s.reloading env stack a).loading env stack a (s.objects a).fileName

/-- `Initialize` catches every exception, so the `catch` of `Reload` is never entered. -/
theorem run_reload (s : Plugin H) :
    (reload P env nested stack a).run s =
      (startAddon P env nested stack a (s.objects a).fileName).run (s.restarting env stack a) := by
  have hinit : (initializeAddon P env nested stack a (s.objects a).fileName).run
        (s.reloading env stack a) =
      (startAddon P env nested stack a (s.objects a).fileName).run (s.restarting env stack a) :=
    run_initializeAddon _ _
  obtain ⟨b, s', h⟩ : ∃ b s', (startAddon P env nested stack a (s.objects a).fileName).run
    (s.restarting env stack a) = .ok b s' := returns_startAddon _ _
  rw [h] at hinit ⊢
  unfold reload
  rw [run_tryCatch]
  simp only [modifyAddon, getAddon, EStateM.run_bind, EStateM.run_modify, run_release,
    EStateM.run_get, EStateM.run_pure]
  rw [← Plugin.reloading, reloading_fileName, hinit]

theorem returns_reload : Returns (reload P env nested stack a) := fun s => by
  rw [run_reload]
  exact returns_startAddon _ _

/-! ## Paths -/

theorem splitChars_eq_singleton {sep : Char} {cs w : List Char} :
    splitChars sep cs = [w] ↔ sep ∉ cs ∧ w = cs := by
  induction cs generalizing w with
  | nil => simp [splitChars, eq_comm]
  | cons c cs ih =>
    unfold splitChars
    by_cases hc : c = sep
    · simp [hc, splitChars_ne_nil]
    · rw [if_neg hc]
      cases hs : splitChars sep cs with
      | nil => exact absurd hs (splitChars_ne_nil sep cs)
      | cons piece rest =>
        have hpiece : ∀ v, piece = v ∧ rest = [] ↔ sep ∉ cs ∧ v = cs := by
          intro v
          rw [← ih, hs]
          simp
        simp only [List.cons.injEq, List.mem_cons, not_or]
        constructor
        · rintro ⟨rfl, hrest⟩
          obtain ⟨hmem, rfl⟩ := (hpiece piece).mp ⟨rfl, hrest⟩
          exact ⟨⟨Ne.symm hc, hmem⟩, rfl⟩
        · rintro ⟨⟨-, hmem⟩, rfl⟩
          obtain ⟨rfl, hrest⟩ := (hpiece cs).mpr ⟨hmem, rfl⟩
          exact ⟨rfl, hrest⟩

theorem split_of_not_mem {sep : Char} {s : String} (h : sep ∉ s.toList) : split sep s = [s] := by
  simp [split, splitChars_eq_singleton.mpr ⟨h, rfl⟩]

/-- A path leads to a function only when it has a single piece: the tables hold functions,
and a function has no fields. -/
theorem getFunction_eq_some {t : FunctionTable} {c : String} {f : LuaFunction} :
    getFunction P t (split '.' c) = .ok (some f) ↔
      '.' ∉ c.toList ∧ t.lookup (P.luaPushString c) = some f := by
  by_cases hdot : '.' ∈ c.toList
  · have hne : ∀ w, splitChars '.' c.toList ≠ [w] :=
      fun w h => (splitChars_eq_singleton.mp h).1 hdot
    simp only [hdot, not_true_eq_false, false_and, iff_false]
    unfold split
    rcases hs : splitChars '.' c.toList with _ | ⟨w, _ | ⟨v, rest⟩⟩
    · simp [getFunction]
    · exact absurd hs (hne w)
    · simp only [List.map_cons, getFunction]
      cases t.lookup (P.luaPushString (String.ofList w)) <;> simp
  · rw [split_of_not_mem hdot]
    simp [getFunction, hdot]

/-! ## Events and commands -/

theorem returns_invokeError (what name : String) (ex : NetException) :
    Returns (invokeError P a what name ex : Method H (Option (List NetObject))) :=
  returns_bind (returns_getAddon a) (fun _ => returns_bind (returns_modify _)
    (fun _ => returns_bind (returns_modify _) (fun _ => returns_pure _)))

theorem returns_invoke (table : LuaState H → Option FunctionTable) (what name : String)
    (args : List NetObject) : Returns (invoke P env nested stack a table what name args) := by
  refine returns_bind (returns_getAddon a) (fun x => ?_)
  cases x.luaState with
  | none => exact returns_pure _
  | some L =>
    dsimp only
    split
    · exact returns_pure _
    · exact returns_tryCatch (returns_invokeError what name)

theorem returns_invokeEvent (name : String) (args : List NetObject) :
    Returns (invokeEvent P env nested stack a name args) := returns_invoke _ _ _ _

theorem after_callFunction (s : Plugin H) (L : LuaState H) (f : LuaFunction)
    (args : List NetObject) :
    after (callFunction P env nested stack a L f args) s =
      after (runScript P nested (a :: stack) a (env.call f L.heap args))
        { s with trace := .call a f args stack :: s.trace } := by
  unfold after
  change final ((runScript P nested (a :: stack) a (env.call f L.heap args) >>= _).run _) = _
  rw [EStateM.run_bind]
  cases (runScript P nested (a :: stack) a (env.call f L.heap args)).run
    { s with trace := .call a f args stack :: s.trace } <;> rfl

/-- The function that `InvokeEvent` or `InvokeCommand` finds and calls, if any. -/
def Addon.handler (P : Platform) (x : Addon H) (table : LuaState H → Option FunctionTable)
    (name : String) : Option LuaFunction :=
  match x.luaState with
  | none => none
  | some L =>
    if x.state ≠ .ok then none
    else match table L with
      | none => none
      | some t => match getFunction P t (split '.' name) with
        | .ok f => f
        | .error _ => none

variable {table : LuaState H → Option FunctionTable} {what name : String}
  {args : List NetObject}

theorem handler_some_iff {x : Addon H} {f : LuaFunction} :
    x.handler P table name = some f ↔ x.state = .ok ∧ ∃ L t, x.luaState = some L ∧
      table L = some t ∧ getFunction P t (split '.' name) = .ok (some f) := by
  unfold Addon.handler
  cases x.luaState with
  | none => simp
  | some L =>
    by_cases hok : x.state = .ok
    · cases ht : table L with
      | none => simp [hok, ht]
      | some t => cases hg : getFunction P t (split '.' name) <;> simp [hok, ht, hg]
    · simp [hok]

theorem run_invoke_of_handler {s : Plugin H} {f : LuaFunction}
    (h : (s.objects a).handler P table name = some f) :
    ∃ L, (s.objects a).luaState = some L ∧ ∀ (env : Env H) nested stack what args,
      (invoke P env nested stack a table what name args).run s =
        (tryCatch (callFunction P env nested stack a L f args)
          (invokeError P a what name)).run s := by
  obtain ⟨hok, L, t, hL, ht, hg⟩ := handler_some_iff.mp h
  refine ⟨L, hL, fun env nested stack what args => ?_⟩
  unfold invoke getAddon
  simp only [EStateM.run_bind, EStateM.run_get, EStateM.run_pure, hL, hok, ne_eq,
    not_true_eq_false, if_false, ht, hg]
  rfl

/-- The registry after an event is the one its handler leaves. -/
theorem registry_invokeEvent {s : Plugin H} {event : String} {f : LuaFunction}
    (h : (s.objects a).handler P LuaState.addonEvents event = some f) :
    ∃ L, (s.objects a).luaState = some L ∧ ∀ (env : Env H) nested stack args,
      (after (invokeEvent P env nested stack a event args) s).registry =
        (after (runScript P nested (a :: stack) a (env.call f L.heap args))
          { s with trace := .call a f args stack :: s.trace }).registry := by
  obtain ⟨L, hL, hrun⟩ := run_invoke_of_handler h
  refine ⟨L, hL, fun env nested stack args => ?_⟩
  have hafter : (after (callFunction P env nested stack a L f args) s).registry = _ :=
    congrArg Plugin.registry (after_callFunction s L f args)
  unfold after at hafter
  unfold after invokeEvent
  rw [hrun, run_tryCatch, ← hafter]
  cases (callFunction P env nested stack a L f args).run s <;> rfl

/-- Without a function to call, the addon is left alone, or the path to the function goes
through a function. -/
theorem run_invoke_of_no_handler {s : Plugin H}
    (h : (s.objects a).handler P table name = none) :
    (invoke P env nested stack a table what name args).run s = .ok none s ∨
      (∃ t ex, getFunction P t (split '.' name) = .error ex) ∧
        ∃ ex, (invoke P env nested stack a table what name args).run s =
          (invokeError P a what name ex).run s := by
  unfold invoke getAddon
  simp only [EStateM.run_bind, EStateM.run_get, EStateM.run_pure]
  unfold Addon.handler at h
  cases hL : (s.objects a).luaState with
  | none => exact Or.inl rfl
  | some L =>
    rw [hL] at h
    by_cases hok : (s.objects a).state = .ok
    · cases ht : table L with
      | none => left; simp [hok, ht]
      | some t =>
        cases hg : getFunction P t (split '.' name) with
        | ok f =>
          simp only [hok, ne_eq, not_true_eq_false, if_false, ht, hg] at h
          subst h
          left
          simp [hok, ht, hg, liftExcept]
        | error ex =>
          refine Or.inr ⟨⟨t, ex, hg⟩, ex, ?_⟩
          simp [hok, ht, hg, liftExcept, run_throw, EStateM.Backtrackable.restore]
    · exact Or.inl (by simp [hok])

/-- A name without a dot is looked up in one step, which does not fail. -/
theorem run_invoke_of_dotless {s : Plugin H} (hdot : '.' ∉ name.toList)
    (h : (s.objects a).handler P table name = none) :
    (invoke P env nested stack a table what name args).run s = .ok none s := by
  rcases run_invoke_of_no_handler h with hrun | ⟨⟨t, ex, hg⟩, -⟩
  · exact hrun
  · rw [split_of_not_mem hdot] at hg
    cases hg

/-- An addon runs Lua code only from state `Ok`. -/
theorem run_invoke_of_not_ok {s : Plugin H} (h : (s.objects a).state ≠ .ok) :
    (invoke P env nested stack a table what name args).run s = .ok none s := by
  unfold invoke getAddon
  simp only [EStateM.run_bind, EStateM.run_get, EStateM.run_pure]
  cases (s.objects a).luaState with
  | none => rfl
  | some L => simp [h]

/-! ## Loading, unloading and reloading -/

/-- The addon left `m_Addons`. -/
def Plugin.unlisted (s : Plugin H) (key : String) (a : AddonId) : Plugin H :=
  { s with addons := s.addons.erase key, trace := .removed a :: s.trace }

/-- The commands of an addon were removed. -/
def Plugin.removeCommands (s : Plugin H) (P : Platform) (addonName : String) : Plugin H :=
  { s with registry := after (removeAddonCommands P addonName) s.registry }

/-- The removal of the commands is the last step of an unload, and the only one that may
throw. -/
theorem run_unloadFound (key shown : String) (s : Plugin H) :
    (unloadFound P env nested stack key shown a).run s =
      (onRegistry (removeAddonCommands P (P.toLower shown))).run
        (after (tell (.success ("[Addons] Unloaded addon '" ++ shown ++ "'!")))
          ((after (invokeEvent P env nested stack a "unload" []) (s.unlisted key a)).release env
            stack a)) := by
  change (discard (invokeEvent P env nested stack a "unload" []) >>= _).run (s.unlisted key a) = _
  rw [(returns_discard (returns_invokeEvent "unload" [])).run_seq, after_discard,
    returns_release.run_seq, after_of_run (run_release _)]
  rfl

theorem after_unloadFound (key shown : String) (s : Plugin H) :
    after (unloadFound P env nested stack key shown a) s =
      after (onRegistry (removeAddonCommands P (P.toLower shown)))
        (after (tell (.success ("[Addons] Unloaded addon '" ++ shown ++ "'!")))
          ((after (invokeEvent P env nested stack a "unload" []) (s.unlisted key a)).release env
            stack a)) :=
  congrArg final (run_unloadFound key shown s)

theorem after_autoReload (s : Plugin H) :
    after (autoReload P env nested stack a) s =
      after (invokeEvent P env nested stack a "load" [])
        (after (reload P env nested stack a) s) := by
  change after (discard (reload P env nested stack a) >>= _) s = _
  rw [after_seq (returns_discard returns_reload), after_discard, after_discard]

/-- `/addon reload` is the auto-reload between the handler of `unload` and the removal of the
commands on one side and a message on the other. -/
theorem after_reloadAddon {addonName : String} {s : Plugin H}
    (hl : s.addons.lookup (P.toLower addonName) = some a)
    (hremove : ∃ r, (removeAddonCommands P (P.toLower addonName)).run
      (after (invokeEvent P env nested stack a "unload" []) s).registry = .ok () r) :
    after (reloadAddon P env nested stack addonName) s =
      after (tell (.server ("[Addons] Reloaded addon '" ++ addonName ++ "'!")))
        (after (autoReload P env nested stack a)
          ((after (invokeEvent P env nested stack a "unload" []) s).removeCommands P
            (P.toLower addonName))) := by
  rw [reloadAddon, after_get_bind, hl]
  change after (discard (invokeEvent P env nested stack a "unload" []) >>= _) s = _
  rw [after_seq (returns_discard (returns_invokeEvent "unload" [])), after_discard]
  generalize after (invokeEvent P env nested stack a "unload" []) s = s₁ at hremove ⊢
  obtain ⟨r, hr⟩ := hremove
  have hrun : (onRegistry (removeAddonCommands P (P.toLower addonName))).run s₁ =
      .ok () (s₁.removeCommands P (P.toLower addonName)) := by
    rw [run_onRegistry hr, Plugin.removeCommands, after_of_run hr]
  change final ((onRegistry (removeAddonCommands P (P.toLower addonName)) >>= _).run s₁) = _
  rw [EStateM.run_bind, hrun]
  change after (discard (reload P env nested stack a) >>= _)
    (s₁.removeCommands P (P.toLower addonName)) = _
  rw [after_seq (returns_discard returns_reload), after_discard,
    after_seq (returns_discard (returns_invokeEvent "load" [])), after_discard, after_autoReload]

end LuaAddons
