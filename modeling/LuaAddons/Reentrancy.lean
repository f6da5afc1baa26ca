import LuaAddons.Runs

/-!
# Releases below a running call

The lock `m_AddonsLock` is re-entrant, so a Lua handler may execute `/addon` while calls into
Lua are on the stack. A release inside the calls `stack` is recorded as `.release a stack`,
and is harmless when `a` is not among them.

`Justified` is the invariant: when an addon is released below a call of its own, then an
`/addon` command that targets it was entered before, inside the same calls. Every other
release in the code is one of a new object, or happens at the top level. So the releases are
safe in every run whose commands are all `Harmless` (`release_not_running`), and one command
that is not is enough to break this (`unload_releases_running`).
-/

namespace LuaAddons

open Exec

variable {H : Type} {P : Platform}

/-! ## The invariant -/

/-- A command targets `a` inside the calls `stack`. -/
def Targeted (P : Platform) (trace : List Event) (stack : CallStack) (a : AddonId) : Prop :=
  ∃ parameters loaded, .command parameters loaded stack ∈ trace ∧
    a ∈ commandTargets P loaded parameters

/-- Each release of an addon with a running call comes after a command that targets it. -/
def Justified (P : Platform) (trace : List Event) : Prop :=
  ∀ t a stack, (.release a stack :: t) <:+ trace → a ∈ stack → Targeted P t stack a

theorem Targeted.mono {trace trace' : List Event} {stack : CallStack} {a : AddonId}
    (h : Targeted P trace stack a) (hsub : trace ⊆ trace') : Targeted P trace' stack a := by
  obtain ⟨parameters, loaded, hm, ha⟩ := h
  exact ⟨parameters, loaded, hsub hm, ha⟩

theorem Justified.cons {trace : List Event} {e : Event} (h : Justified P trace)
    (he : ∀ a stack, e = .release a stack → a ∈ stack → Targeted P trace stack a) :
    Justified P (e :: trace) := by
  intro t a stack hsuf ha
  rcases List.suffix_cons_iff.mp hsuf with heq | hsuf
  · obtain ⟨rfl, rfl⟩ := List.cons.inj heq
    exact he a stack rfl ha
  · exact h t a stack hsuf ha

/-- `Grows`, and the releases stay justified. -/
def Safe (P : Platform) (stack : CallStack) (s s' : Plugin H) : Prop :=
  Grows P stack s s' ∧ (Justified P s.trace → Justified P s'.trace)

instance (stack : CallStack) : IsPreorder (Plugin H) (Safe P stack) where
  refl s := ⟨.refl s, id⟩
  trans _ _ _ h₁ h₂ := ⟨h₁.1.trans h₂.1, fun h => h₂.2 (h₁.2 h)⟩

/-- A release of `a` inside the calls `stack` would be justified now. -/
def Excused (P : Platform) (stack : CallStack) (a : AddonId) (s : Plugin H) : Prop :=
  a ∈ stack → Targeted P s.trace stack a

theorem Safe.of_trace {stack : CallStack} {s s' : Plugin H} (hg : Grows P stack s s')
    (ht : s'.trace = s.trace) : Safe P stack s s' := ⟨hg, fun h => by rw [ht]; exact h⟩

theorem Safe.of_event {stack : CallStack} {s s' : Plugin H} {e : Event}
    (hg : Grows P stack s s') (ht : s'.trace = e :: s.trace)
    (he : ∀ a st, e ≠ .release a st) : Safe P stack s s' := by
  refine ⟨hg, fun h => ?_⟩
  rw [ht]
  exact h.cons (fun a st hrel => absurd hrel (he a st))

theorem safe_effects (P : Platform) : Effects (H := H) P (Safe P) (Excused P) := by
  have hg := grows_effects (H := H) P
  exact {
    preorder := fun _ => inferInstance
    grows := fun h => h.1
    outer := fun h => ⟨h.1.outer, h.2⟩
    lua := fun stack a _ hf s => .of_trace (hg.lua stack a _ hf s) rfl
    fail := fun stack a s => .of_trace (hg.fail stack a s) rfl
    tell := fun stack m s => .of_trace (hg.tell stack m s) rfl
    call := fun stack a f args s => .of_event (hg.call stack a f args s) rfl (by simp)
    executed := fun stack target args commands s =>
      .of_event (hg.executed stack target args commands s) rfl (by simp)
    store := fun stack a name f s => by
      have hgrows := hg.store stack a name f s
      cases hL : (s.objects a).luaState with
      | none =>
        refine .of_trace hgrows ?_
        change (s.storeCommand a name f).trace = _
        simp only [Plugin.storeCommand, hL]
      | some L =>
        refine .of_event (e := .registered a name f) hgrows ?_ (by simp)
        change (s.storeCommand a name f).trace = _
        simp only [Plugin.storeCommand, hL]
    registry := fun stack s α x h => by
      refine .of_trace (hg.registry stack s α x h) ?_
      rw [after_onRegistry]
    handled := fun stack b s => .of_trace (hg.handled stack b s) rfl
    addon := fun stack s a f hfile hlua => .of_trace (hg.addon stack s a f hfile hlua) rfl
    start := fun stack a L hL s => .of_event (hg.start stack a L hL s) rfl (by simp)
    initialized := fun stack a t s => .of_event (hg.initialized stack a t s) rfl (by simp)
    removed := fun stack a s => .of_event (hg.removed stack a s) rfl (by simp)
    command := fun stack p l s => .of_event (hg.command stack p l s) rfl (by simp)
    release := fun stack a s h => by
      refine ⟨hg.release stack a s trivial, fun hj => hj.cons (fun b st he hb => ?_)⟩
      cases he
      exact h hb
    erase := fun stack k s => .of_trace (hg.erase stack k s) rfl
    configuration := fun stack c hc s => .of_trace (hg.configuration stack c hc s) rfl
    create := fun stack s name => .of_trace (hg.create stack s name) rfl
    tryAdd := fun {stack s s' k a} h hfresh ha hk => by
      refine ⟨hg.tryAdd h.1 hfresh ha hk, fun hj => ?_⟩
      have ht : (s'.tryAdd k a).trace = s'.trace := by
        unfold Plugin.tryAdd
        split <;> rfl
      rw [ht]
      exact h.2 hj
    guard_mono := fun {stack stack' a s s'} h hx ha => by
      obtain ⟨new, ht, -⟩ := h.1.trace
      exact (hx ha).mono (by rw [ht]; exact List.subset_append_right _ _)
    guard_fresh := fun h ha => absurd ha h
    guard_command := fun stack p a s ha _ => ⟨p, s.addons.entries, List.mem_cons_self, ha⟩ }

theorem Reach.justified {allowed : Env H → Op → Prop} {s : Plugin H} (h : Reach P allowed s) :
    Justified P s.trace := by
  refine (Reach.induct (safe_effects P) (I := fun s => Justified P s.trace)
    (fun s hs t a stack hsuf => ?_) (fun _ _ hj hr => hr.2 hj) (fun _ hj _ => hj)
    (fun _ _ hj _ => hj) (fun _ _ _ hj => hj) h).1
  rw [hs.trace] at hsuf
  exact absurd (List.suffix_nil.mp hsuf) (by simp)

/-! ## Harmless commands -/

/-- A command that targets no addon with a running call. -/
def Harmless (P : Platform) : Event → Prop
  | .command parameters loaded stack => ∀ a ∈ commandTargets P loaded parameters, a ∉ stack
  | _ => True

/-- **No running Lua state is disposed** in a run of which every `/addon` command, nested ones
included, targets only addons without a running call. -/
theorem release_not_running {allowed : Env H → Op → Prop} {s : Plugin H}
    (h : Reach P allowed s) (hharmless : ∀ e ∈ s.trace, Harmless P e) (a : AddonId)
    (stack : CallStack) (hr : .release a stack ∈ s.trace) : a ∉ stack := by
  intro ha
  obtain ⟨t₁, t₂, ht⟩ := List.append_of_mem hr
  have hsuf : (.release a stack :: t₂) <:+ s.trace := ⟨t₁, ht.symm⟩
  obtain ⟨parameters, loaded, hm, htarget⟩ := h.justified t₂ a stack hsuf ha
  have hm' : .command parameters loaded stack ∈ s.trace :=
    hsuf.subset (List.mem_cons_of_mem _ hm)
  exact hharmless _ hm' a htarget ha

/-! ## Handlers that unload an addon -/

/-- The arguments of an `/addon` command. -/
def addonArgs (parameters : List String) : CommandArgs :=
  { message := "addon", parameters := parameters, fromServer := true }

/-- Addons of which `Foo` has a handler of `ServerChat`. It executes `/addon unload` on the
addon `target`. -/
def unloadEnv (target : String) : Env Unit :=
  plainEnv
    (fun name => some (withInfo (if name = "Foo" then
      .registerEvent (ascii "ServerChat") 1 (.done () []) else .done () [])))
    (fun _ _ => .chatCommand () .handleAddonCommand (addonArgs ["unload", target])
      (fun _ _ => .done () []))

/-- `Foo` and `Bar` are loaded, and a chat message arrives. -/
def unloadRun (target : String) : Plugin Unit :=
  let run := fun op => after (Op.run asciiPlatform (unloadEnv target) 1 op)
  run (.handledEvent "ServerChat" (.ok []) false)
    (run (.load "Bar") (run (.load "Foo") (Plugin.start [addonChatCommand])))

theorem reach_unloadRun (target : String) :
    Reach asciiPlatform (fun _ _ => True) (unloadRun target) :=
  (((Reach.initial initial_start).step (unloadEnv target) 1 (.load "Foo") trivial).step
    (unloadEnv target) 1 (.load "Bar") trivial).step (unloadEnv target) 1
    (.handledEvent "ServerChat" (.ok []) false) trivial

/-- A handler that unloads its own addon. -/
theorem unload_releases_running :
    ¬ ∀ s : Plugin Unit, Reach asciiPlatform (fun _ _ => True) s →
      ∀ a stack, .release a stack ∈ s.trace → a ∉ stack := by
  intro h
  have hrelease : .release 0 [0] ∈ (unloadRun "foo").trace := by decide +kernel
  exact h _ (reach_unloadRun "foo") 0 [0] hrelease List.mem_cons_self

instance (P : Platform) : DecidablePred (Harmless P)
  | .command parameters loaded stack =>
    inferInstanceAs (Decidable (∀ a ∈ commandTargets P loaded parameters, a ∉ stack))
  | .started _ => .isTrue trivial
  | .registered _ _ _ => .isTrue trivial
  | .initialized _ _ => .isTrue trivial
  | .call _ _ _ _ => .isTrue trivial
  | .release _ _ => .isTrue trivial
  | .removed _ => .isTrue trivial
  | .executed _ _ _ => .isTrue trivial

/-- A handler that unloads another addon. -/
theorem unload_of_other_not_running :
    .release 1 [0] ∈ (unloadRun "bar").trace ∧ (1 : AddonId) ∉ ([0] : CallStack) := by
  have hrelease : .release 1 [0] ∈ (unloadRun "bar").trace := by decide +kernel
  exact ⟨hrelease, release_not_running (reach_unloadRun "bar") (by decide +kernel) 1 [0] hrelease⟩

end LuaAddons
