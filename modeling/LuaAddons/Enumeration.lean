import LuaAddons.Dispatch
import LuaAddons.Lib.Locality

/-!
# The order of the addons

A hook goes through `m_Addons` in the order in which a `ConcurrentDictionary` enumerates it, which
nothing determines. A handler that registers no command and executes no chat command works on its
own addon alone. Then every addon is afterwards what it would be if the event were for it only, and
the order is not seen (`hook_order_irrelevant`).
-/

namespace LuaAddons

open Exec

variable {H : Type}

/-! ## Local scripts -/

/-- The script registers no command and executes no chat command. -/
def Script.Local : Script H → Prop
  | .done _ _ => True
  | .raise _ => True
  | .registerEvent _ _ next => next.Local
  | .registerCommand _ _ _ _ => False
  | .assign _ _ next => next.Local
  | .chatCommand _ _ _ _ => False

/-- All handlers are local. -/
def Env.Local (env : Env H) : Prop := ∀ f heap args, (env.call f heap args).Local

theorem Script.Local.targets : ∀ c : Script H, c.Local → c.Targets NoDelegate
  | .done _ _, _ => trivial
  | .raise _, _ => trivial
  | .registerEvent _ _ next, h => Script.Local.targets next h
  | .registerCommand _ _ _ _, h => h.elim
  | .assign _ _ next, h => Script.Local.targets next h
  | .chatCommand _ _ _ _, h => h.elim

/-- Events do not read the files of the addons. -/
def Env.withoutFiles (env : Env H) : Env H := { env with script := fun _ => none }

theorem Env.Local.targets {env : Env H} (henv : env.Local) :
    env.withoutFiles.Targets NoDelegate where
  script _ _ h := by cases h
  call f heap args := Script.Local.targets _ (henv f heap args)

section Local

variable {P : Platform} {env : Env H} {nested : Nested H} {stack : CallStack} {a : AddonId}

/-- The two stores have the same object. -/
def EqualObject (a : AddonId) (s t : Plugin H) : Prop := s.objects a = t.objects a

theorem modifyAddon_equalObject (f : Addon H → Addon H) :
    InStep (EqualObject a) (modifyAddon a f) (modifyAddon a f) := by
  refine inStep_modify (fun _ => id) (fun s t h => ?_)
  simp only [EqualObject, Plugin.modifyAddon, Function.update_self] at h ⊢
  rw [h]

theorem getAddon_equalObject {α : Type} {f : Addon H → Method H α}
    (hf : ∀ x, InStep (EqualObject a) (f x) (f x)) :
    InStep (EqualObject a) (getAddon a >>= f) (getAddon a >>= f) := by
  refine ⟨fun _ => id, fun s t h => Or.inr ?_⟩
  have hx := (hf (s.objects a)).ends h
  change outcome ((f (s.objects a)).run s) = outcome ((f (t.objects a)).run t) ∧
    EqualObject a (after (f (s.objects a)) s) (after (f (t.objects a)) t)
  rwa [← (h : s.objects a = t.objects a)]

theorem liftExcept_equalObject {α : Type} (x : Except NetException α) :
    InStep (EqualObject (H := H) a) (liftExcept x) (liftExcept x) := by
  cases x with
  | ok v => exact inStep_pure v
  | error e => exact inStep_throw e

theorem runScript_equalObject : ∀ c : Script H, c.Local →
    InStep (EqualObject a) (runScript P nested stack a c) (runScript P nested stack a c)
  | .done _ _, _ => inStep_bind (modifyAddon_equalObject _) (fun _ => inStep_pure _)
  | .raise _, _ => inStep_bind (modifyAddon_equalObject _) (fun _ => inStep_throw _)
  | .registerEvent _ _ next, h =>
    inStep_bind (modifyAddon_equalObject _) (fun _ => runScript_equalObject next h)
  | .registerCommand _ _ _ _, h => h.elim
  | .assign _ _ next, h =>
    inStep_bind (modifyAddon_equalObject _) (fun _ => runScript_equalObject next h)
  | .chatCommand _ _ _ _, h => h.elim

theorem runScript_registry_of_local : ∀ c : Script H, c.Local →
    Keeps (Same Plugin.registry) (runScript P nested stack a c)
  | .done _ _, _ => keeps_bind (fun _ => rfl) (fun _ => keeps_pure _)
  | .raise _, _ => keeps_bind (fun _ => rfl) (fun _ => keeps_throw _)
  | .registerEvent _ _ next, h =>
    keeps_bind (fun _ => rfl) (fun _ => runScript_registry_of_local next h)
  | .registerCommand _ _ _ _, h => h.elim
  | .assign _ _ next, h => keeps_bind (fun _ => rfl) (fun _ => runScript_registry_of_local next h)
  | .chatCommand _ _ _ _, h => h.elim

variable (henv : env.Local)

include henv

theorem callFunction_equalObject (L : LuaState H) (f : LuaFunction) (args : List NetObject) :
    InStep (EqualObject a) (callFunction P env nested stack a L f args)
      (callFunction P env nested stack a L f args) := by
  refine inStep_bind (inStep_modify (fun _ => id) fun _ _ h => h) (fun _ => ?_)
  exact inStep_bind (runScript_equalObject _ (henv f L.heap args)) (fun _ => inStep_pure _)

theorem invokeEvent_equalObject (event : String) (args : List NetObject) :
    InStep (EqualObject a) (invokeEvent P env nested stack a event args)
      (invokeEvent P env nested stack a event args) := by
  refine getAddon_equalObject (fun x => ?_)
  cases x.luaState with
  | none => exact inStep_pure _
  | some L =>
    dsimp only
    split
    · exact inStep_pure _
    · refine inStep_tryCatch ?_ (fun ex => ?_)
      · cases L.addonEvents with
        | none => exact inStep_pure _
        | some t =>
          refine inStep_bind (liftExcept_equalObject _) (fun f => ?_)
          cases f with
          | none => exact inStep_pure _
          | some f => exact callFunction_equalObject henv L f args
      · refine getAddon_equalObject (fun y => ?_)
        refine inStep_bind (inStep_modify (fun _ => id) fun _ _ h => h) (fun _ => ?_)
        exact inStep_bind (modifyAddon_equalObject _) (fun _ => inStep_pure _)

theorem invokeEvent_registry_of_local (event : String) (args : List NetObject) :
    Keeps (Same Plugin.registry) (invokeEvent P env nested stack a event args) := by
  refine keeps_bind (getAddon_keeps a) (fun x => ?_)
  cases x.luaState with
  | none => exact keeps_pure _
  | some L =>
    dsimp only
    split
    · exact keeps_pure _
    · refine keeps_tryCatch ?_ (fun ex => ?_)
      · cases L.addonEvents with
        | none => exact keeps_pure _
        | some t =>
          refine keeps_bind (liftExcept_keeps _) (fun f => ?_)
          cases f with
          | none => exact keeps_pure _
          | some f =>
            refine keeps_bind (fun _ => rfl) (fun _ => ?_)
            exact keeps_bind (runScript_registry_of_local _ (henv f L.heap args))
              (fun _ => keeps_pure _)
      · refine keeps_bind (getAddon_keeps a) (fun _ => keeps_bind (fun _ => rfl) (fun _ => ?_))
        exact keeps_bind (fun _ => rfl) (fun _ => keeps_pure _)

/-- What an addon does at an event is decided by its object. -/
theorem answer_congr {event : String} {args : List NetObject} {s t : Plugin H}
    (h : s.objects a = t.objects a) :
    answer P env nested stack event args a s = answer P env nested stack event args a t := by
  unfold answer
  rw [← h]
  cases (s.objects a).handler P LuaState.addonEvents event with
  | none => rfl
  | some f =>
    cases (s.objects a).luaState with
    | none => rfl
    | some L =>
      have hstep : InStep (EqualObject a) (callFunction P env nested stack a L f args)
        (callFunction P env nested stack a L f args) := callFunction_equalObject henv L f args
      have hout := (hstep.ends h).1
      dsimp only
      cases hs : (callFunction P env nested stack a L f args).run s <;>
        cases ht : (callFunction P env nested stack a L f args).run t <;>
        rw [hs, ht] at hout <;> simp_all

end Local

/-! ## Hooks as loops of local steps -/

section Loop

variable {P : Platform} {env : Env H} {nested : Nested H} {stack : CallStack} {event : String}
  {args : List NetObject} {a : AddonId}

/-- What a hook leaves alone. -/
def Plugin.rest (s : Plugin H) :
    AList (fun _ : String => AddonId) × Registry × AddonId × Option Configuration :=
  (s.addons, s.registry, s.nextAddon, s.configuration)

/-- Only the object of one addon changes, and what a hook may change. -/
structure Besides (a : AddonId) (s s' : Plugin H) : Prop where
  rest : s'.rest = s.rest
  objects : ∀ b ≠ a, s'.objects b = s.objects b

instance (a : AddonId) : IsPreorder (Plugin H) (Besides a) where
  refl _ := ⟨rfl, fun _ _ => rfl⟩
  trans _ _ _ h₁ h₂ := ⟨h₂.rest.trans h₁.rest,
    fun b hb => (h₂.objects b hb).trans (h₁.objects b hb)⟩

/-- Whether an addon with this object sets `Handled`. -/
def setsHandledBy (P : Platform) (env : Env H) (nested : Nested H) (stack : CallStack)
    (event : String) (args : List NetObject) (s : Plugin H) (a : AddonId) (x : Addon H) : Bool :=
  (answer P env nested stack event args a (s.modifyAddon a (fun _ => x))).setsHandled P

variable (henv : env.Local)

include henv

theorem setsHandledBy_objects (s t : Plugin H) :
    setsHandledBy P env nested stack event args s a (t.objects a) =
      (answer P env nested stack event args a t).setsHandled P := by
  unfold setsHandledBy
  rw [answer_congr henv (t := t)]
  exact Function.update_self ..

theorem onHandledStep_equalObject :
    InStep (EqualObject a) (onHandledStep P env nested stack event (.ok args) a)
      (onHandledStep P env nested stack event (.ok args) a) := by
  refine inStep_bind (liftExcept_equalObject _) (fun args => ?_)
  refine inStep_bind (invokeEvent_equalObject henv event args) (fun ret => ?_)
  rcases ret with _ | ⟨_ | ⟨value, rest⟩⟩
  · exact inStep_pure _
  · exact inStep_pure _
  · refine inStep_bind (liftExcept_equalObject _) (fun text => ?_)
    split
    · exact inStep_modify (fun _ => id) fun _ _ h => h
    · exact inStep_pure _

theorem invokeEvent_frame_of_local (s : Plugin H) :
    Frame P a s (after (invokeEvent P env nested stack a event args) s) := by
  have hframe : Frame P a s (after (invokeEvent P env.withoutFiles nested stack a event args) s) :=
    invokeEvent_frame henv.targets event args s
  exact hframe

theorem run_onHandledStep_of_local (hdot : '.' ∉ event.toList) {s : Plugin H}
    (hr : (answer P env nested stack event args a s).Renders P) :
    (onHandledStep P env nested stack event (.ok args) a).run s =
      .ok () (answered P env nested stack event args a s) := by
  have hok : (onHandledStep P env.withoutFiles nested stack event (.ok args) a).run s =
    .ok () (answered P env.withoutFiles nested stack event args a s) :=
    run_onHandledStep_of_renders henv.targets hdot hr
  exact hok

theorem onHandledStep_besides :
    Keeps (Besides a) (onHandledStep P env nested stack event (.ok args) a) := by
  refine keeps_bind (liftExcept_keeps _) (fun args => keeps_bind ?_ (fun ret => ?_))
  · intro s
    have hframe : Frame P a s (after (invokeEvent P env nested stack a event args) s) :=
      invokeEvent_frame_of_local henv s
    have hregistry : (after (invokeEvent P env nested stack a event args) s).registry =
        s.registry := invokeEvent_registry_of_local henv event args s
    refine ⟨?_, hframe.objects⟩
    rw [Plugin.rest, hframe.addons, hregistry, hframe.nextAddon, hframe.configuration]
    rfl
  · rcases ret with _ | ⟨_ | ⟨value, rest⟩⟩
    · exact keeps_pure _
    · exact keeps_pure _
    · refine keeps_bind (liftExcept_keeps _) (fun text => ?_)
      split
      · exact fun _ => ⟨rfl, fun _ _ => rfl⟩
      · exact keeps_pure _

theorem onHandledStep_handled (hdot : '.' ∉ event.toList) {s s' : Plugin H}
    (hrun : (onHandledStep P env nested stack event (.ok args) a).run s = .ok () s') :
    (answer P env nested stack event args a s).Renders P ∧
      s'.handled = (s.handled || (answer P env nested stack event args a s).setsHandled P) := by
  by_cases hr : (answer P env nested stack event args a s).Renders P
  · have hok : (onHandledStep P env nested stack event (.ok args) a).run s = .ok () _ :=
      run_onHandledStep_of_local henv hdot hr
    obtain rfl := (EStateM.Result.ok.inj (hok.symm.trans hrun)).2
    have hframe : Frame P a s (after (invokeEvent P env nested stack a event args) s) :=
      invokeEvent_frame_of_local henv s
    exact ⟨hr, congrArg (· || _) hframe.handled⟩
  · obtain ⟨ex, s₁, herror⟩ : ∃ ex s₁,
        (onHandledStep P env.withoutFiles nested stack event (.ok args) a).run s = .error ex s₁ :=
      run_onHandledStep_of_not_renders henv.targets hdot hr
    cases herror.symm.trans hrun

theorem onHandledStep_local (hdot : '.' ∉ event.toList) (s₀ : Plugin H) :
    Local Plugin.objects Plugin.handled Plugin.rest
      (setsHandledBy P env nested stack event args s₀) a
      (onHandledStep P env nested stack event (.ok args) a) where
  rest s := (onHandledStep_besides henv s).rest
  other s := (onHandledStep_besides henv s).objects
  own _ _ h := (onHandledStep_equalObject henv).ends h
  acc s s' hrun := by
    rw [setsHandledBy_objects henv]
    exact (onHandledStep_handled henv hdot hrun).2

/-- A value that can be rendered is no reason for the hook to stop. -/
theorem onHandledStep_of_renders (hdot : '.' ∉ event.toList) {s : Plugin H}
    (hr : (answer P env nested stack event args a s).Renders P) :
    outcome ((onHandledStep P env nested stack event (.ok args) a).run s) = .ok () ∧
      (after (onHandledStep P env nested stack event (.ok args) a) s).objects =
        (after (invokeEvent P env nested stack a event args) s).objects := by
  have hok : (onHandledStep P env nested stack event (.ok args) a).run s = .ok () _ :=
    run_onHandledStep_of_local henv hdot hr
  rw [after_of_run hok, hok]
  exact ⟨rfl, rfl⟩

end Loop

/-- **The order of the addons is not seen** by local handlers whose values can all be rendered: in
whatever order the addons come, each of them is afterwards what its own `InvokeEvent` makes of it
in the state before, and `Handled` is set if one of them sets it there. -/
theorem hook_order_irrelevant {P : Platform} {env : Env H} (henv : env.Local)
    (nested : Nested H) (stack : CallStack) (hook : HandledHook) (s : Plugin H)
    (hdistinct : (s.addons.entries.map Sigma.snd).Nodup) (hbuilds : hook.Builds P)
    (hrenders : ∀ e ∈ s.addons.entries,
      (answer P env nested stack (hook.call P).1 (hook.args P) e.2 s).Renders P)
    (addons : AList (fun _ : String => AddonId)) (hperm : addons.entries.Perm s.addons.entries) :
    ∃ s', (hook.run P env nested stack).run { s with addons := addons } = .ok () s' ∧
      s'.rest = (addons, s.registry, s.nextAddon, s.configuration) ∧
      (∀ a, s'.objects a =
        if a ∈ s.addons.entries.map Sigma.snd then
          (after (invokeEvent P env nested stack a (hook.call P).1 (hook.args P)) s).objects a
        else s.objects a) ∧
      (s'.handled = true ↔ s.handled = true ∨ ∃ e ∈ s.addons.entries,
        (answer P env nested stack (hook.call P).1 (hook.args P) e.2 s).setsHandled P = true) := by
  have hdot := hook.event_dotless P
  obtain ⟨args, hargs⟩ := hbuilds
  have hargs' : hook.args P = args := by rw [HandledHook.args, hargs]
  rw [hargs'] at hrenders ⊢
  have hids : (addons.entries.map Sigma.snd).Perm (s.addons.entries.map Sigma.snd) :=
    hperm.map Sigma.snd
  have hsame : ∀ a, ({ s with addons := addons } : Plugin H).objects a = s.objects a :=
    fun _ => rfl
  have hrenders' : ∀ a ∈ addons.entries.map Sigma.snd,
      (answer P env nested stack (hook.call P).1 args a { s with addons := addons }).Renders P := by
    intro a ha
    obtain ⟨e, he, rfl⟩ := List.mem_map.mp (hids.mem_iff.mp ha)
    rw [answer_congr henv (hsame e.2)]
    exact hrenders e he
  obtain ⟨s', hrun, hrest, hobjects, hhandled⟩ := run_forM_local
    (x := fun a => onHandledStep P env nested stack (hook.call P).1 (.ok args) a)
    (addons.entries.map Sigma.snd) { s with addons := addons } (hids.nodup_iff.mpr hdistinct)
    (fun a _ => onHandledStep_local henv hdot s)
    (fun a ha => (onHandledStep_of_renders henv hdot (hrenders' a ha)).1)
  refine ⟨s', ?_, hrest, fun a => ?_, ?_⟩
  · rw [hook.run_eq_onHandled, hargs]
    rw [List.forM_eq_forM, List.forM_map] at hrun
    exact hrun
  · rw [hobjects a]
    by_cases ha : a ∈ addons.entries.map Sigma.snd
    · rw [if_pos ha, if_pos (hids.mem_iff.mp ha),
        (onHandledStep_of_renders henv hdot (hrenders' a ha)).2]
      exact ((invokeEvent_equalObject henv (hook.call P).1 args).ends (hsame a)).2
    · rw [if_neg ha, if_neg (fun h => ha (hids.mem_iff.mpr h))]
  · -- `Handled` is the least upper bound of what it was and of the parts of all addons.
    have hparts : ∀ a, setsHandledBy P env nested stack (hook.call P).1 args s a (s.objects a) =
        (answer P env nested stack (hook.call P).1 args a s).setsHandled P :=
      fun a => setsHandledBy_objects henv s s
    have hle : ∀ b : Bool, b ≤ false ↔ b = false := by decide
    have hbound := (hhandled false).not
    simp only [hparts, hle, not_and_or, not_forall, Bool.not_eq_false,
      hids.mem_iff, exists_prop] at hbound
    rw [hbound]
    refine or_congr_right ⟨?_, ?_⟩
    · rintro ⟨a, ha, hsets⟩
      obtain ⟨e, he, rfl⟩ := List.mem_map.mp ha
      exact ⟨e, he, hsets⟩
    · rintro ⟨e, he, hsets⟩
      exact ⟨e.2, List.mem_map_of_mem he, hsets⟩

/-- Two addons whose handlers return true. -/
def twoAddons : Plugin Unit :=
  after ((Op.load "Second").run asciiPlatform nilEnv 0) (nilState "First")

def twoAddonsReversed : AList (fun _ : String => AddonId) where
  entries := twoAddons.addons.entries.reverse
  nodupKeys := (List.perm_nodupKeys (List.reverse_perm _)).mpr twoAddons.addons.nodupKeys

theorem twoAddons_reversed :
    ∃ s', (onServerChat asciiPlatform nilEnv (delegate asciiPlatform nilEnv 0) []
        (.object 0)).run { twoAddons with addons := twoAddonsReversed } = .ok () s' ∧
      s'.handled = true := by
  have hdistinct : (twoAddons.addons.entries.map Sigma.snd).Nodup := by decide +kernel
  have hanswers : ∀ e ∈ twoAddons.addons.entries,
      answer asciiPlatform nilEnv (delegate asciiPlatform nilEnv 0) [] "ServerChat" [.object 0]
        e.2 twoAddons = .returned (some [.boolean true]) := by decide +kernel
  obtain ⟨s', hrun, -, -, hhandled⟩ := hook_order_irrelevant (P := asciiPlatform)
    (show nilEnv.Local from fun _ _ _ => trivial) (delegate asciiPlatform nilEnv 0) []
    (.serverChat (.object 0))
    twoAddons hdistinct ⟨_, rfl⟩ (fun e he => (hanswers e he).symm ▸ ⟨_, rfl⟩)
    twoAddonsReversed (List.reverse_perm _)
  refine ⟨s', hrun, hhandled.mpr (.inr ?_)⟩
  obtain ⟨e, he⟩ : ∃ e, e ∈ twoAddons.addons.entries :=
    List.exists_mem_of_ne_nil _ (by decide +kernel)
  exact ⟨e, he, (congrArg (Answer.setsHandled asciiPlatform) (hanswers e he)).trans (by decide)⟩

end LuaAddons
