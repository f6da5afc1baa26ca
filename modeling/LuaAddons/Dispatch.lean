import LuaAddons.Hooks
import LuaAddons.Runs
import LuaAddons.SelfContained

/-!
# Event dispatch

A hook that propagates `Handled` goes through the addons, invokes the event in each of them,
and renders the first value it gets back. The `catch` of `InvokeEvent` covers the handler; the
rendering is outside of it, so a value without a rendering (nil, to begin with) takes the
event away from all later addons.

`answers` is what the handlers do, one after the other. `Isolates` is what the addons and the
server may expect, and it holds exactly when every answer can be rendered
(`hook_isolates_iff`).
-/

namespace LuaAddons

open Exec

variable {H : Type}

/-! ## Answers -/

/-- What an addon does at an event. -/
inductive Answer where
  /-- The addon is not in state `Ok`, or it has no handler. -/
  | silent
  | raised
  /-- The handler returned; the values are null when there are none. -/
  | returned (values : Option (List NetObject))
  deriving DecidableEq

/-- The first value can be rendered. -/
def Answer.Renders (P : Platform) : Answer → Prop
  | .returned (some (value :: _)) => ∃ text, P.callToString value = .ok text
  | _ => True

/-- The first value renders as true. -/
def Answer.setsHandled (P : Platform) : Answer → Bool
  | .returned (some (value :: _)) =>
    match P.callToString value with
    | .ok text => decide (boolTryParse text = some true)
    | .error _ => false
  | _ => false

/-- The number of calls into Lua recorded for an addon. -/
def callCount (a : AddonId) (trace : List Event) : Nat :=
  trace.countP (fun e => match e with
    | .call b _ _ _ => b = a
    | _ => false)

section Answers

variable (P : Platform) (env : Env H) (nested : Nested H) (stack : CallStack) (event : String)
  (args : List NetObject)

/-- What the addon `a` does at the event in the state `s`. -/
def answer (a : AddonId) (s : Plugin H) : Answer :=
  match (s.objects a).handler P LuaState.addonEvents event, (s.objects a).luaState with
  | some f, some L =>
    match (callFunction P env nested stack a L f args).run s with
    | .ok values _ => .returned values
    | .error _ _ => .raised
  | _, _ => .silent

/-- The state the next addon sees. -/
def answered (a : AddonId) (s : Plugin H) : Plugin H :=
  let s' := after (invokeEvent P env nested stack a event args) s
  { s' with handled := s'.handled || (answer P env nested stack event args a s).setsHandled P }

/-- What the addons of a list do, one after the other. -/
def answers : List (Sigma fun _ : String => AddonId) → Plugin H → List (AddonId × Answer)
  | [], _ => []
  | e :: l, s => (e.2, answer P env nested stack event args e.2 s) ::
      answers l (answered P env nested stack event args e.2 s)

end Answers

/-! ## One addon -/

section Step

variable {P : Platform} {env : Env H} {nested : Nested H} {stack : CallStack} {event : String}
  {args : List NetObject} {a : AddonId}

theorem callCount_append_registrations {new trace : List Event} (b : AddonId)
    (h : ∀ e ∈ new, e.IsRegistration) : callCount b (new ++ trace) = callCount b trace := by
  unfold callCount
  rw [List.countP_append, List.countP_eq_zero.mpr, Nat.zero_add]
  intro e he
  obtain ⟨c, n, f, rfl⟩ := h e he
  simp

/-- A call touches one addon, whose fields it leaves alone, and is counted once. -/
structure Touches (P : Platform) (a : AddonId) (s s' : Plugin H) : Prop
    extends Frame P a s s' where
  state : (s'.objects a).state = (s.objects a).state
  count : ∀ b, callCount b s'.trace = callCount b s.trace + if b = a then 1 else 0

theorem callFunction_touches (henv : env.Targets NoDelegate) (L : LuaState H) (f : LuaFunction)
    (s : Plugin H) : Touches P a s (after (callFunction P env nested stack a L f args) s) := by
  rw [after_callFunction]
  have hrun : LuaOnly P a { s with trace := .call a f args stack :: s.trace }
      (after (runScript P nested (a :: stack) a (env.call f L.heap args))
        { s with trace := .call a f args stack :: s.trace }) :=
    runScript_luaOnly _ (henv.call f L.heap args) _
  obtain ⟨new, ht, hnew⟩ := hrun.trace
  refine ⟨⟨hrun.addons, hrun.nextAddon, hrun.configuration, hrun.handled, hrun.objects,
    hrun.fileName, hrun.registry⟩, ?_, ?_⟩
  · rw [hrun.own]
  · intro b
    rw [ht, callCount_append_registrations b hnew]
    by_cases hb : b = a
    · subst hb
      simp [callCount]
    · simp [callCount, hb, Ne.symm hb]

theorem invokeError_run (ex : NetException) (what name : String) (s : Plugin H) :
    ∃ s', (invokeError P a what name ex).run s = .ok none s' ∧ Frame P a s s' ∧
      (s'.objects a).state = .error ∧ s'.trace = s.trace := by
  refine ⟨_, rfl, invokeError_frame what name ex s, ?_, rfl⟩
  simp [Plugin.modifyAddon]

/-- What `InvokeEvent` does at an addon that gives this answer. -/
def AnswersAs (P : Platform) (env : Env H) (nested : Nested H) (stack : CallStack)
    (event : String) (args : List NetObject) (a : AddonId) (s : Plugin H) : Answer → Prop
  | .silent => (s.objects a).handler P LuaState.addonEvents event = none ∧
      (invokeEvent P env nested stack a event args).run s = .ok none s
  | .raised => ((s.objects a).handler P LuaState.addonEvents event).isSome = true ∧
      ∃ s₁ s', Touches P a s s₁ ∧ Frame P a s₁ s' ∧ (s'.objects a).state = .error ∧
        s'.trace = s₁.trace ∧
        (invokeEvent P env nested stack a event args).run s = .ok none s'
  | .returned values => ((s.objects a).handler P LuaState.addonEvents event).isSome = true ∧
      ∃ s', Touches P a s s' ∧
        (invokeEvent P env nested stack a event args).run s = .ok values s'

theorem answersAs_answer (henv : env.Targets NoDelegate) (hdot : '.' ∉ event.toList)
    (s : Plugin H) :
    AnswersAs P env nested stack event args a s (answer P env nested stack event args a s) := by
  unfold AnswersAs answer invokeEvent
  cases hh : (s.objects a).handler P LuaState.addonEvents event with
  | none => exact ⟨rfl, run_invoke_of_dotless hdot hh⟩
  | some f =>
    obtain ⟨L, hL, hrun⟩ := run_invoke_of_handler hh
    have htouch : Touches P a s (after (callFunction P env nested stack a L f args) s) :=
      callFunction_touches henv L f s
    simp only [hL, hrun, run_tryCatch]
    unfold after at htouch
    cases hc : (callFunction P env nested stack a L f args).run s with
    | ok values s' =>
      rw [hc] at htouch
      exact ⟨rfl, s', htouch, rfl⟩
    | error ex s₁ =>
      rw [hc] at htouch
      obtain ⟨s', hrun', hframe, hstate, htrace⟩ := invokeError_run (P := P) (a := a) ex "event"
        event s₁
      exact ⟨rfl, s₁, s', htouch, hframe, hstate, htrace, hrun'⟩

/-- What the addons and the server may expect of a hook that went through the addons `ids`,
from `s` to `s'`, when they gave the answers `given`. -/
structure Isolates (P : Platform) (event : String) (ids : List AddonId) (s s' : Plugin H)
    (given : List (AddonId × Answer)) : Prop where
  addons : s'.addons = s.addons
  objects : ∀ b ∉ ids, s'.objects b = s.objects b
  called : ∀ b, callCount b s'.trace = callCount b s.trace +
    if b ∈ ids ∧ ((s.objects b).handler P LuaState.addonEvents event).isSome = true then 1 else 0
  states : ∀ b, (s'.objects b).state =
    if (b, Answer.raised) ∈ given then .error else (s.objects b).state
  handled : s'.handled = true ↔
    s.handled = true ∨ ∃ p ∈ given, p.2.setsHandled P = true

theorem answers_ids : ∀ (l : List (Sigma fun _ : String => AddonId)) (s : Plugin H),
    (answers P env nested stack event args l s).map Prod.fst = l.map Sigma.snd
  | [], _ => rfl
  | e :: l, _ => congrArg (e.2 :: ·) (answers_ids l _)

theorem Isolates.nil (s : Plugin H) : Isolates P event [] s s [] :=
  ⟨rfl, fun _ _ => rfl, by simp, by simp, by simp⟩

/-- Addons that are gone through one after the other, each of them once. -/
theorem Isolates.cons {ids : List AddonId} {s s₁ s' : Plugin H} {ans : Answer}
    {given : List (AddonId × Answer)} (ha : a ∉ ids) (hids : given.map Prod.fst = ids)
    (h₁ : Isolates P event [a] s s₁ [(a, ans)]) (h₂ : Isolates P event ids s₁ s' given) :
    Isolates P event (a :: ids) s s' ((a, ans) :: given) := by
  have hgiven : ∀ ans', (a, ans') ∉ given := by
    intro ans' hm
    rw [← hids] at ha
    exact ha (List.mem_map.mpr ⟨_, hm, rfl⟩)
  refine ⟨h₂.addons.trans h₁.addons, fun b hb => ?_, fun b => ?_, fun b => ?_, ?_⟩
  · rw [List.mem_cons, not_or] at hb
    rw [h₂.objects b hb.2, h₁.objects b (by simpa using hb.1)]
  · rw [h₂.called b, h₁.called b]
    by_cases hb : b = a
    · subst hb
      simp [ha]
    · rw [h₁.objects b (by simpa using hb)]
      simp [hb]
  · rw [h₂.states b, h₁.states b]
    by_cases hb : b = a
    · subst hb
      simp [hgiven]
    · simp [hb]
  · rw [h₂.handled, h₁.handled]
    simp only [List.mem_cons, List.not_mem_nil, or_false, exists_eq_left, exists_eq_or_imp]
    exact or_assoc

/-- The body of the loop. -/
def onHandledStep (P : Platform) (env : Env H) (nested : Nested H) (stack : CallStack)
    (event : String) (args : Except NetException (List NetObject)) (a : AddonId) :
    Method H Unit := do
  let args ← liftExcept args
  let ret ← invokeEvent P env nested stack a event args
  handleResult P ret

theorem run_onHandledStep {s s₁ : Plugin H} {ret : Option (List NetObject)}
    (h : (invokeEvent P env nested stack a event args).run s = .ok ret s₁) :
    (onHandledStep P env nested stack event (.ok args) a).run s = (handleResult P ret).run s₁ := by
  change (invokeEvent P env nested stack a event args >>= handleResult P).run s = _
  rw [EStateM.run_bind, h]

/-- One addon touches nothing but its own object. -/
theorem isolates_answered (henv : env.Targets NoDelegate) (hdot : '.' ∉ event.toList)
    (s : Plugin H) :
    Isolates P event [a] s (answered P env nested stack event args a s)
      [(a, answer P env nested stack event args a s)] := by
  have hspec : AnswersAs P env nested stack event args a s
    (answer P env nested stack event args a s) := answersAs_answer henv hdot s
  unfold answered
  dsimp only
  cases hans : answer P env nested stack event args a s with
  | silent =>
    rw [hans] at hspec
    obtain ⟨hh, hrun⟩ := hspec
    rw [after_of_run hrun]
    refine ⟨rfl, fun _ _ => rfl, fun b => ?_, by simp, by simp [Answer.setsHandled]⟩
    by_cases hb : b = a
    · subst hb
      simp [hh]
    · simp [hb]
  | raised =>
    rw [hans] at hspec
    obtain ⟨hh, s₁, s', htouch, hframe, hstate, htrace, hrun⟩ := hspec
    rw [after_of_run hrun]
    refine ⟨hframe.addons.trans htouch.addons, fun b hb => ?_, fun b => ?_, fun b => ?_, ?_⟩
    · have hba : b ≠ a := by simpa using hb
      exact (hframe.objects b hba).trans (htouch.objects b hba)
    · simp only [htrace, htouch.count b, List.mem_singleton]
      by_cases hb : b = a
      · subst hb
        simp [hh]
      · simp [hb]
    · by_cases hb : b = a
      · subst hb
        simpa using hstate
      · simp only [hframe.objects b hb, htouch.objects b hb]
        simp [hb]
    · simp [Answer.setsHandled, hframe.handled, htouch.handled]
  | returned values =>
    rw [hans] at hspec
    obtain ⟨hh, s', htouch, hrun⟩ := hspec
    rw [after_of_run hrun]
    refine ⟨htouch.addons, fun b hb => htouch.objects b (by simpa using hb), fun b => ?_,
      fun b => ?_, ?_⟩
    · simp only [htouch.count b, List.mem_singleton]
      by_cases hb : b = a
      · subst hb
        simp [hh]
      · simp [hb]
    · by_cases hb : b = a
      · subst hb
        simpa using htouch.state
      · simp only [htouch.objects b hb]
        simp
    · simp [htouch.handled]

/-- When the answer can be rendered the loop goes on. -/
theorem run_onHandledStep_of_renders (henv : env.Targets NoDelegate)
    (hdot : '.' ∉ event.toList) {s : Plugin H}
    (hr : (answer P env nested stack event args a s).Renders P) :
    (onHandledStep P env nested stack event (.ok args) a).run s =
      .ok () (answered P env nested stack event args a s) := by
  have hspec : AnswersAs P env nested stack event args a s
    (answer P env nested stack event args a s) := answersAs_answer henv hdot s
  unfold answered
  dsimp only
  cases hans : answer P env nested stack event args a s with
  | silent =>
    rw [hans] at hspec
    rw [run_onHandledStep hspec.2, after_of_run hspec.2]
    simp [handleResult, Answer.setsHandled]
  | raised =>
    rw [hans] at hspec
    obtain ⟨-, s₁, s', -, -, -, -, hrun⟩ := hspec
    rw [run_onHandledStep hrun, after_of_run hrun]
    simp [handleResult, Answer.setsHandled]
  | returned values =>
    rw [hans] at hspec hr
    obtain ⟨-, s', -, hrun⟩ := hspec
    rw [run_onHandledStep hrun, after_of_run hrun]
    rcases values with _ | ⟨_ | ⟨value, rest⟩⟩
    · simp [handleResult, Answer.setsHandled]
    · simp [handleResult, Answer.setsHandled]
    · obtain ⟨text, htext⟩ := hr
      by_cases htrue : boolTryParse text = some true
      · simp [handleResult, Answer.setsHandled, liftExcept, htext, htrue]
      · simp [handleResult, Answer.setsHandled, liftExcept, htext, htrue]

/-- Otherwise the exception leaves the hook. -/
theorem run_onHandledStep_of_not_renders (henv : env.Targets NoDelegate)
    (hdot : '.' ∉ event.toList) {s : Plugin H}
    (hr : ¬ (answer P env nested stack event args a s).Renders P) :
    ∃ ex s', (onHandledStep P env nested stack event (.ok args) a).run s = .error ex s' := by
  have hspec : AnswersAs P env nested stack event args a s
    (answer P env nested stack event args a s) := answersAs_answer henv hdot s
  cases hans : answer P env nested stack event args a s with
  | silent => rw [hans] at hr; exact absurd trivial hr
  | raised => rw [hans] at hr; exact absurd trivial hr
  | returned values =>
    rw [hans] at hspec hr
    obtain ⟨-, s', -, hrun⟩ := hspec
    rw [run_onHandledStep hrun]
    rcases values with _ | ⟨_ | ⟨value, rest⟩⟩
    · exact absurd trivial hr
    · exact absurd trivial hr
    · cases htext : P.callToString value with
      | ok text => exact absurd ⟨text, htext⟩ hr
      | error ex => exact ⟨ex, s', by simp [handleResult, liftExcept, htext, run_throw]⟩

/-! ## All addons -/

theorem run_loop_of_renders (henv : env.Targets NoDelegate) (hdot : '.' ∉ event.toList) :
    ∀ (l : List (Sigma fun _ : String => AddonId)) (s : Plugin H), (l.map Sigma.snd).Nodup →
      (∀ p ∈ answers P env nested stack event args l s, p.2.Renders P) →
      ∃ s', (l.forM (fun e => onHandledStep P env nested stack event (.ok args) e.2)).run s =
          .ok () s' ∧
        Isolates P event (l.map Sigma.snd) s s' (answers P env nested stack event args l s)
  | [], s, _, _ => ⟨s, rfl, .nil s⟩
  | e :: l, s, hnd, hr => by
    obtain ⟨ha, hnd⟩ := List.nodup_cons.mp hnd
    obtain ⟨hr₁, hr⟩ := List.forall_mem_cons.mp hr
    obtain ⟨s', hrun, hisolates⟩ := run_loop_of_renders henv hdot l _ hnd hr
    refine ⟨s', ?_, (isolates_answered henv hdot s).cons ha (answers_ids l _) hisolates⟩
    rw [run_forM_cons, run_onHandledStep_of_renders henv hdot hr₁]
    exact hrun

theorem run_loop_of_not_renders (henv : env.Targets NoDelegate) (hdot : '.' ∉ event.toList) :
    ∀ (l : List (Sigma fun _ : String => AddonId)) (s : Plugin H),
      (¬ ∀ p ∈ answers P env nested stack event args l s, p.2.Renders P) →
      ∃ ex s', (l.forM (fun e => onHandledStep P env nested stack event (.ok args) e.2)).run s =
        .error ex s'
  | [], _, hr => absurd (by simp [answers]) hr
  | e :: l, s, hr => by
    rw [run_forM_cons]
    by_cases hr₁ : (answer P env nested stack event args e.2 s).Renders P
    · rw [run_onHandledStep_of_renders henv hdot hr₁]
      exact run_loop_of_not_renders henv hdot l _
        (fun h => hr (List.forall_mem_cons.mpr ⟨hr₁, h⟩))
    · obtain ⟨ex, s', hrun⟩ := run_onHandledStep_of_not_renders henv hdot hr₁
      rw [hrun]
      exact ⟨ex, s', rfl⟩

end Step

/-- **Event dispatch isolates addons** exactly when the arguments of the event can be built
and the first value of every answer can be rendered. -/
theorem hook_isolates_iff {P : Platform} {env : Env H} (henv : env.Targets NoDelegate)
    (nested : Nested H) (stack : CallStack) (hook : HandledHook) (s : Plugin H)
    (hdistinct : (s.addons.entries.map Sigma.snd).Nodup) :
    let given := answers P env nested stack (hook.call P).1 (hook.args P) s.addons.entries s
    (∃ s', (hook.run P env nested stack).run s = .ok () s' ∧
        Isolates P (hook.call P).1 (s.addons.entries.map Sigma.snd) s s' given) ↔
      (s.addons.entries = [] ∨ hook.Builds P) ∧ ∀ p ∈ given, p.2.Renders P := by
  have hdot := hook.event_dotless P
  have hrun : (hook.run P env nested stack).run s =
      (s.addons.entries.forM (fun e =>
        onHandledStep P env nested stack (hook.call P).1 (hook.call P).2 e.2)).run s := by
    rw [hook.run_eq_onHandled]
    rfl
  unfold HandledHook.Builds HandledHook.args
  dsimp only
  rw [hrun]
  cases hargs : (hook.call P).2 with
  | ok args =>
    constructor
    · rintro ⟨s', hok, -⟩
      refine ⟨Or.inr ⟨args, rfl⟩, ?_⟩
      by_contra hr
      obtain ⟨ex, s₁, herror⟩ := run_loop_of_not_renders henv hdot _ s hr
      rw [hok] at herror
      cases herror
    · rintro ⟨-, hr⟩
      exact run_loop_of_renders henv hdot _ s hdistinct hr
  | error ex =>
    cases hentries : s.addons.entries with
    | nil =>
      refine ⟨fun _ => ⟨Or.inl rfl, by simp [answers]⟩, fun _ => ⟨s, rfl, .nil s⟩⟩
    | cons e l =>
      simp only [reduceCtorEq, exists_false, or_false, false_and, iff_false, not_exists, not_and]
      intro s' hok
      cases hok

/-! ## A handler that returns nil -/

/-- Addons that register a handler of `ServerChat`. In `Nil` it returns nil, in the others
true. -/
def nilEnv : Env Unit :=
  plainEnv
    (fun name => some (withInfo (.registerEvent (ascii "ServerChat") (if name = "Nil" then 1 else 2)
      (.done () []))))
    (fun f _ => .done () [if f = 1 then .nil else .boolean true])

theorem nilEnv_targets : nilEnv.Targets NoDelegate where
  script _ body h := by
    cases h
    simp [withInfo, Script.Targets]
  call _ _ _ := trivial

/-- The plugin after it loaded the addon `name`. -/
def nilState (name : String) : Plugin Unit :=
  after ((Op.load name).run asciiPlatform nilEnv 0) (Plugin.start [addonChatCommand])

/-- A handler that returns true. -/
theorem true_isolates :
    ∃ s', (onServerChat asciiPlatform nilEnv (delegate asciiPlatform nilEnv 0) [] (.object 0)).run
        (nilState "True") = .ok () s' ∧ s'.handled = true := by
  have hdistinct : ((nilState "True").addons.entries.map Sigma.snd).Nodup := by decide +kernel
  have hgiven : answers asciiPlatform nilEnv (delegate asciiPlatform nilEnv 0) [] "ServerChat"
      [.object 0] (nilState "True").addons.entries (nilState "True") =
        [(0, .returned (some [.boolean true]))] := by decide +kernel
  have hiff := hook_isolates_iff (P := asciiPlatform) nilEnv_targets
    (delegate asciiPlatform nilEnv 0) [] (.serverChat (.object 0)) (nilState "True") hdistinct
  obtain ⟨s', hrun, hisolates⟩ := hiff.mpr ⟨Or.inr ⟨_, rfl⟩, by
    intro p hp
    change p ∈ answers asciiPlatform nilEnv (delegate asciiPlatform nilEnv 0) [] "ServerChat"
      [.object 0] (nilState "True").addons.entries (nilState "True") at hp
    rw [hgiven, List.mem_singleton] at hp
    subst hp
    exact ⟨_, rfl⟩⟩
  refine ⟨s', hrun, hisolates.handled.mpr (Or.inr ⟨(0, .returned (some [.boolean true])), ?_,
    by decide⟩)⟩
  change _ ∈ answers asciiPlatform nilEnv (delegate asciiPlatform nilEnv 0) [] "ServerChat"
    [.object 0] (nilState "True").addons.entries (nilState "True")
  rw [hgiven]
  exact List.mem_singleton_self _

/-- A handler that returns nil makes the callback throw. -/
theorem nil_result_throws :
    ¬ ∀ (hook : HandledHook) (s : Plugin Unit), (s.addons.entries.map Sigma.snd).Nodup →
      ∃ s', (hook.run asciiPlatform nilEnv (delegate asciiPlatform nilEnv 0) []).run s =
          .ok () s' ∧
        Isolates asciiPlatform (hook.call asciiPlatform).1 (s.addons.entries.map Sigma.snd) s s'
          (answers asciiPlatform nilEnv (delegate asciiPlatform nilEnv 0) []
            (hook.call asciiPlatform).1 (hook.args asciiPlatform) s.addons.entries s) := by
  intro h
  obtain ⟨s', hrun, -⟩ := h (.serverChat (.object 0)) (nilState "Nil") (by decide +kernel)
  have herror : outcome ((onServerChat asciiPlatform nilEnv (delegate asciiPlatform nilEnv 0) []
      (.object 0)).run (nilState "Nil")) = .error .nullReference := by decide +kernel
  change (onServerChat asciiPlatform nilEnv (delegate asciiPlatform nilEnv 0) []
    (.object 0)).run (nilState "Nil") = .ok () s' at hrun
  rw [hrun] at herror
  cases herror

end LuaAddons
