import LuaAddons.Outcomes
import LuaAddons.Runs

/-!
# Routing of addon commands

`RegisterCommand` stores a command lower-cased in `m_AddonCommands`, `lua_AddonNewCommand`
stores its function under the name as it was given, and `InvokeCommand` looks the lower-cased
name up as a path that is split at every dot. `Routed` says when the three agree: the command
is owned, the addon is the only loaded one whose key compares equal to the owner, and the
lookup finds the function. That is exactly when the function is called
(`command_routed_iff`). A lower-case name without a dot is found again, the name `Hello` is
not.
-/

namespace LuaAddons

open Exec Lookup

variable {H : Type} {P : Platform}

/-! ## Direct calls -/

/-- The Lua functions called with nothing below them on the call stack, newest first. -/
def directCalls (trace : List Event) : List (AddonId × LuaFunction × List NetObject) :=
  trace.filterMap (fun e => match e with
    | .call a f args [] => some (a, f, args)
    | _ => none)

theorem directCalls_append_within {a : AddonId} {new trace : List Event}
    (h : ∀ e ∈ new, e.Within [a]) : directCalls (new ++ trace) = directCalls trace := by
  unfold directCalls
  rw [List.filterMap_append, List.filterMap_eq_nil_iff.mpr, List.nil_append]
  intro e he
  cases e with
  | call b f args stack =>
    cases stack with
    | nil => exact absurd (h _ he [] rfl) (by simp)
    | cons c stack => rfl
  | _ => rfl

section Calls

variable {env : Env H} {nested : Nested H} {a : AddonId} {s : Plugin H}
  {table : LuaState H → Option FunctionTable} {what name : String} {args : List NetObject}

theorem invokeError_trace (ex : NetException) :
    (after (invokeError P a what name ex) s).trace = s.trace := rfl

/-- Whatever a function does, it is the only one called directly. -/
theorem callFunction_directCalls (hn : NestedKeeps P (Grows P) (fun _ => True) nested)
    (hv : Valid P [a] s) (L : LuaState H) (f : LuaFunction) :
    directCalls (after (callFunction P env nested [] a L f args) s).trace =
      (a, f, args) :: directCalls s.trace := by
  have hg := grows_effects (H := H) P
  have hv₁ := hv.grows (hg.call [] a f args s)
  obtain ⟨new, ht, hw⟩ := (runScript_keeps hg.toScriptEffects hn [a] a _
    (Script.targets_true (env.call f L.heap args)) _ hv₁).1.trace
  rw [after_callFunction]
  refine (congrArg directCalls ht).trans ?_
  rw [directCalls_append_within hw]
  rfl

theorem invoke_directCalls (hn : NestedKeeps P (Grows P) (fun _ => True) nested)
    (hv : Valid P [a] s) :
    directCalls (after (invoke P env nested [] a table what name args) s).trace =
      match (s.objects a).handler P table name with
      | none => directCalls s.trace
      | some f => (a, f, args) :: directCalls s.trace := by
  cases hh : (s.objects a).handler P table name with
  | none =>
    rcases (run_invoke_of_no_handler hh :
      (invoke P env nested [] a table what name args).run s = .ok none s ∨ _)
      with hrun | ⟨-, ex, hrun⟩
    · rw [after_of_run hrun]
    · unfold after
      rw [hrun]
      exact congrArg directCalls (invokeError_trace ex)
  | some f =>
    obtain ⟨L, -, hrun⟩ := run_invoke_of_handler hh
    have hcall : directCalls (after (callFunction P env nested [] a L f args) s).trace =
        (a, f, args) :: directCalls s.trace := callFunction_directCalls hn hv L f
    unfold after at hcall ⊢
    rw [hrun, run_tryCatch]
    cases hc : (callFunction P env nested [] a L f args).run s with
    | ok ret s' => rw [hc] at hcall; exact hcall
    | error ex s' =>
      rw [hc] at hcall
      exact (congrArg directCalls (invokeError_trace ex)).trans hcall

end Calls

/-! ## The command callback -/

/-- The command `c` is owned, `a` is the only loaded addon whose key compares equal to that of
its owner, and `f` is what `a` registered last under the Lua string of `c`, which has no dot. -/
structure Routed (P : Platform) (s : Plugin H) (a : AddonId) (f : LuaFunction) (c : String) :
    Prop where
  owner : ∃ k, c ∈ s.registry.commandsOf k ∧
    (s.addons.entries.filter (fun e => P.compareIgnoreCase e.1 k)).map Sigma.snd = [a]
  state : (s.objects a).state = .ok ∧ (s.objects a).luaState.isSome = true
  dotless : '.' ∉ c.toList
  registered : registration s.trace a (P.luaPushString c) = some f

/-- The lookup of a command in the table of an addon, read off the trace. -/
theorem handler_addonCommands {s : Plugin H} (ht : TablesAgree s) {a : AddonId} {f : LuaFunction}
    {c : String} : (s.objects a).handler P LuaState.addonCommands c = some f ↔
      ((s.objects a).state = .ok ∧ (s.objects a).luaState.isSome = true) ∧
        '.' ∉ c.toList ∧ registration s.trace a (P.luaPushString c) = some f := by
  rw [handler_some_iff]
  constructor
  · rintro ⟨hok, L, t, hL, hcommands, hg⟩
    obtain ⟨hdot, hf⟩ := getFunction_eq_some.mp hg
    have htable := ht a L hL (P.luaPushString c)
    rw [hcommands, Option.getD_some, hf] at htable
    exact ⟨⟨hok, by simp [hL]⟩, hdot, htable.symm⟩
  · rintro ⟨⟨hok, hsome⟩, hdot, hf⟩
    obtain ⟨L, hL⟩ := Option.isSome_iff_exists.mp hsome
    have htable := ht a L hL (P.luaPushString c)
    rw [hf] at htable
    cases hcommands : L.addonCommands with
    | none => simp [hcommands] at htable
    | some t =>
      rw [hcommands, Option.getD_some] at htable
      exact ⟨hok, L, t, hL, hcommands, getFunction_eq_some.mpr ⟨hdot, htable⟩⟩

/-- **A command is dispatched** to the function it was registered with exactly when it is
routed to it: then the function is called once, and no other function is called directly. -/
theorem command_routed_iff {allowed : Env H → Op → Prop} {s : Plugin H}
    (h : Reach P allowed s) (env : Env H) (depth : Nat) (a : AddonId) (n : LuaString)
    (f : LuaFunction) (args : CommandArgs)
    (hword : P.toLower (firstWord ' ' args.message) = P.toLower (P.luaToString n)) :
    directCalls
        (after (handleAddonCallbackCommand P env (delegate P env depth) [] args) s).trace =
        (a, f, [.commandArgs args]) :: directCalls s.trace ↔
      Routed P s a f (P.toLower (P.luaToString n)) := by
  generalize P.toLower (P.luaToString n) = c at hword
  have hn := delegate_keeps (grows_effects P) env.targets_true trivial depth
  have hnot : directCalls s.trace ≠ (a, f, [.commandArgs args]) :: directCalls s.trace := by
    intro he
    simpa using congrArg List.length he
  obtain ⟨o, ho, howner⟩ := h.wellOwned.singleOrDefault_owner NetException.invalidOperation c
  have hkey : ∀ k, c ∈ s.registry.commandsOf k → ∃ l, o = some ⟨k, l⟩ := by
    intro k hc
    obtain ⟨l, hl, hcl⟩ := Registry.mem_commandsOf_iff.mp hc
    exact ⟨l, (howner _).mpr ⟨AList.mem_lookup_iff.mp hl, hcl⟩⟩
  unfold handleAddonCallbackCommand after
  simp only [EStateM.run_bind, EStateM.run_get, hword, ho]
  cases o with
  | none =>
    refine ⟨fun hd => absurd hd hnot, fun hr => ?_⟩
    obtain ⟨k, hc, -⟩ := hr.owner
    obtain ⟨l, hl⟩ := hkey k hc
    cases hl
  | some owner =>
    have hc : c ∈ s.registry.commandsOf owner.1 := by
      obtain ⟨hm, hc⟩ := (howner owner).mp rfl
      exact Registry.mem_commandsOf_iff.mpr ⟨owner.2, AList.mem_lookup_iff.mpr hm, hc⟩
    have howned : (∃ k, c ∈ s.registry.commandsOf k ∧
          (s.addons.entries.filter (fun e => P.compareIgnoreCase e.1 k)).map Sigma.snd = [a]) ↔
        (s.addons.entries.filter
          (fun e => P.compareIgnoreCase e.1 owner.1)).map Sigma.snd = [a] := by
      refine ⟨fun ⟨k, hk, hf⟩ => ?_, fun hf => ⟨owner.1, hc, hf⟩⟩
      obtain ⟨l, hl⟩ := hkey k hk
      cases hl
      exact hf
    dsimp only
    generalize hf : s.addons.entries.filter (fun e => P.compareIgnoreCase e.1 owner.1) = found
      at howned
    rcases found with _ | ⟨addon, _ | ⟨second, rest⟩⟩
    · -- the addon is gone: the command is dropped
      rw [singleOrDefault_none_iff.mpr hf]
      dsimp only
      refine ⟨fun hd => absurd ?_ hnot, fun hr => absurd (howned.mp hr.owner) (by simp)⟩
      have htrace := congrArg Plugin.trace (after_onRegistry (dropCommand owner.1 c) s)
      unfold after at htrace
      rw [htrace] at hd
      exact hd
    · rw [singleOrDefault_some_iff.mpr hf]
      dsimp only
      have hmem : addon ∈ s.addons.entries := by
        have : addon ∈ s.addons.entries.filter (fun e => P.compareIgnoreCase e.1 owner.1) := by
          simp [hf]
        exact List.mem_of_mem_filter this
      have hv := h.valid.loaded (AList.mem_lookup_iff.mpr hmem)
      have hcalls : directCalls (after (invokeCommand P env (delegate P env depth) [] addon.2 c
          args) s).trace = _ :=
        (congrArg (directCalls ∘ Plugin.trace) (after_discard _ s)).trans
          (invoke_directCalls hn hv)
      unfold after at hcalls
      rw [hcalls]
      constructor
      · intro hd
        cases hh : (s.objects addon.2).handler P LuaState.addonCommands c with
        | none =>
          rw [hh] at hd
          exact absurd hd hnot
        | some g =>
          rw [hh] at hd
          obtain ⟨rfl, rfl, -⟩ := by simpa using hd
          obtain ⟨hstate, hdot, hreg⟩ := (handler_addonCommands h.tablesAgree).mp hh
          exact ⟨howned.mpr rfl, hstate, hdot, hreg⟩
      · intro hr
        obtain rfl : addon.2 = a := by simpa using howned.mp hr.owner
        rw [(handler_addonCommands h.tablesAgree).mpr ⟨hr.state, hr.dotless, hr.registered⟩]
    · -- several keys compare equal: the lookup throws
      have herror : singleOrDefault NetException.invalidOperation
          (fun a => P.compareIgnoreCase a.1 owner.1) s.addons.entries =
            .error .invalidOperation := by
        unfold singleOrDefault
        rw [hf]
      rw [herror]
      exact ⟨fun hd => absurd hd hnot, fun hr => absurd (howned.mp hr.owner) (by simp)⟩

/-! ## Names as they are typed -/

/-- A chat message, as TShock passes it to the delegate of a command. -/
def chatArgs (message : String) : CommandArgs :=
  { message := message, parameters := [], fromServer := false }

/-- A lower-case name without a dot. -/
theorem hello_dispatched :
    directCalls (after (handleAddonCallbackCommand asciiPlatform (commandEnv "hello")
        (delegate asciiPlatform (commandEnv "hello") 0) [] (chatArgs "Hello you"))
          (commandState "hello")).trace =
      [(0, 7, [.commandArgs (chatArgs "Hello you")])] := by
  have hroute : Routed asciiPlatform (commandState "hello") 0 7
      (asciiPlatform.toLower (asciiPlatform.luaToString (ascii "hello"))) :=
    ⟨⟨"foo", by decide +kernel, by decide +kernel⟩, by decide +kernel, by decide +kernel,
      by decide +kernel⟩
  have hcalls : directCalls (commandState "hello").trace = [] := by decide +kernel
  rw [(command_routed_iff (reach_commandState (fun _ _ => True) "hello" trivial)
    (commandEnv "hello") 0 0 (ascii "hello") 7 (chatArgs "Hello you") (by decide +kernel)).mpr
      hroute, hcalls]

/-- The command `Hello` is accepted and owned, and never found. -/
theorem capital_name_not_dispatched :
    ¬ ∀ s : Plugin Unit, Reach asciiPlatform (fun _ op => op.Plain) s →
      ∀ a n f args, (s.objects a).state = .ok → registration s.trace a n = some f →
        asciiPlatform.toLower (firstWord ' ' args.message) =
          asciiPlatform.toLower (asciiPlatform.luaToString n) →
        directCalls (after (handleAddonCallbackCommand asciiPlatform (commandEnv "Hello")
          (delegate asciiPlatform (commandEnv "Hello") 0) [] args) s).trace =
            (a, f, [.commandArgs args]) :: directCalls s.trace := by
  intro h
  have hcall := h _ (reach_commandState (fun _ op => op.Plain) "Hello" trivial) 0 (ascii "Hello") 7
    (chatArgs "Hello you") (by decide +kernel) (by decide +kernel) (by decide +kernel)
  revert hcall
  decide +kernel

end LuaAddons
