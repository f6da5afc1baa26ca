import LuaAddons.Lifecycle
import LuaAddons.Lockstep

/-!
# Chat commands beside a reload

While an addon is reloaded in one store, and unloaded and loaded again in another one, its scripts
may execute chat commands. Those of the other addons do the same in both stores, because the other
addons are the same. A command of the addon itself finds it in the first store only, so it is an
event that ends the comparison (`OwnCommand`).

Every nested call that is left keeps the stores linked (`nestedTwins_delegate`).
-/

namespace LuaAddons

open Exec Lookup

variable {H : Type} {P : Platform}

/-- A script executes a command of an addon whose key compares equal to `key`. -/
def OwnCommand (P : Platform) (key : String) : Event → Prop
  | .executed .handleAddonCallbackCommand args commands =>
    ∃ e ∈ commands, P.toLower (firstWord ' ' args.message) ∈ e.2 ∧
      P.compareIgnoreCase key e.1 = true
  | _ => False

instance (P : Platform) (key : String) : DecidablePred (OwnCommand P key)
  | .executed .handleAddonCallbackCommand args commands =>
    inferInstanceAs (Decidable (∃ e ∈ commands, P.toLower (firstWord ' ' args.message) ∈ e.2 ∧
      P.compareIgnoreCase key e.1 = true))
  | .executed .handleAddonCommand _ _ => .isFalse id
  | .executed (.foreign _) _ _ => .isFalse id
  | .started _ => .isFalse id
  | .registered _ _ _ => .isFalse id
  | .initialized _ _ => .isFalse id
  | .call _ _ _ _ => .isFalse id
  | .release _ _ => .isFalse id
  | .removed _ => .isFalse id
  | .command _ _ _ => .isFalse id

/-- The addon `a` is loaded under `key` in the first store, and in the second one `b` is its partner
and not loaded. All other addons are the same. -/
def Link.reloading (P : Platform) (key : String) (a b : AddonId) (start : Nat) : Link P where
  registry := Eq
  pair c d := (c = a ∧ d = b) ∨ (c = d ∧ c ≠ a ∧ c ≠ b)
  pair_iff := by
    rintro _ _ _ _ (⟨rfl, rfl⟩ | ⟨rfl, hca, hcb⟩) (⟨rfl, rfl⟩ | ⟨rfl, hda, hdb⟩)
    · exact ⟨fun _ => rfl, fun _ => rfl⟩
    · exact iff_of_false hda hdb
    · exact iff_of_false hca.symm hcb.symm
    · exact Iff.rfl
  owner _ := True
  congruent _ := congruent_eq
  loaded A B := A.lookup key = some a ∧ B = A.erase key ∧
    ∀ k ≠ key, ∀ c, A.lookup k = some c → c ≠ a ∧ c ≠ b
  start := start
  forbidden := OwnCommand P key
  paired := by
    rintro _ A _ k c - ⟨hl, -, hothers⟩ hc
    by_cases hk : k = key
    · subst hk
      exact ⟨b, Or.inl ⟨Option.some.inj (hc.symm.trans hl), rfl⟩⟩
    · exact ⟨c, Or.inr ⟨rfl, hothers k hk c hc⟩⟩

section Callback

variable {key : String} {a b : AddonId} {start : Nat} {env : Env H} {nested nested' : Nested H}
  {stack stack' : CallStack}

theorem Link.reloading_pair : (Link.reloading P key a b start).pair a b := Or.inl ⟨rfl, rfl⟩

/-- A method on equal registries. -/
theorem twin_onRegistry {α : Type} (x : EStateM NetException Registry α) :
    (Link.reloading P key a b start).InStep (H := H) (onRegistry x) (onRegistry x) := by
  refine ⟨fun s hbad => ?_, fun s t h => Or.inr ?_⟩
  · rw [after_onRegistry]
    exact hbad.grows List.suffix_rfl rfl
  · have hregistry : s.registry = t.registry := h.registry
    rw [after_onRegistry, after_onRegistry, hregistry]
    refine ⟨?_, rfl, h.alike, h.owner, h.loaded, h.start⟩
    simp only [onRegistry, run_zoom, hregistry]
    cases x.run t.registry <;> rfl

/-- A command of another addon finds the same addon in both stores. -/
theorem same_owner {args : CommandArgs} {owner : Sigma fun _ : String => List String}
    {commands : List (Sigma fun _ : String => List String)} (s : Plugin H)
    (hown : ¬ OwnCommand P key (.executed .handleAddonCallbackCommand args commands))
    (howner : singleOrDefault NetException.invalidOperation
      (fun c => c.2.contains (P.toLower (firstWord ' ' args.message))) commands =
        .ok (some owner)) :
    P.compareIgnoreCase key owner.1 = false ∧
      singleOrDefault NetException.invalidOperation
          (fun a => P.compareIgnoreCase a.1 owner.1) (s.addons.erase key).entries =
        singleOrDefault NetException.invalidOperation
          (fun a => P.compareIgnoreCase a.1 owner.1) s.addons.entries := by
  obtain ⟨hmem, hword⟩ := singleOrDefault_mem howner
  have hkey : P.compareIgnoreCase key owner.1 = false := by
    by_contra hcompare
    rw [Bool.not_eq_false] at hcompare
    exact hown ⟨owner, hmem, List.elem_iff.mp hword, hcompare⟩
  refine ⟨hkey, singleOrDefault_erase _ s.addons ?_⟩
  rintro e rfl
  exact hkey

variable (henv : env.Targets NotAddonCommand)

include henv

theorem twin_invokeCommand
    (hn : NestedTwins (Link.reloading P key a b start) NotAddonCommand nested nested')
    {c d : AddonId} (hcd : (Link.reloading P key a b start).pair c d) (command : String)
    (args : CommandArgs) :
    (Link.reloading P key a b start).InStep
      (invokeCommand P env nested stack c command args)
      (invokeCommand P env nested' stack' d command args) :=
  inStep_bind (twin_invoke hn hcd henv LuaState.addonCommands "command" _ _)
    (fun _ => inStep_pure _)

/-- A bad store stays bad when the callback runs. -/
theorem callback_stays
    (hn : NestedTwins (Link.reloading P key a b start) NotAddonCommand nested nested')
    (args : CommandArgs) :
    Keeps (Preserves (Link.reloading P key a b start).Bad)
      (handleAddonCallbackCommand P env nested stack args) := by
  refine keeps_get_bind (fun s hbad => ?_)
  cases singleOrDefault NetException.invalidOperation
      (fun c => c.2.contains (P.toLower (firstWord ' ' args.message)))
      s.registry.addonCommands.entries with
  | error e => exact hbad
  | ok o =>
    cases o with
    | none => exact hbad
    | some owner =>
      dsimp only
      cases haddon : singleOrDefault NetException.invalidOperation
          (fun a => P.compareIgnoreCase a.1 owner.1) s.addons.entries with
      | error e => exact hbad
      | ok o =>
        cases o with
        | none => exact (twin_onRegistry (dropCommand owner.1 _)).stays s hbad
        | some found =>
          have hl := AList.mem_lookup_iff.mpr (singleOrDefault_mem haddon).1
          obtain ⟨d, hd⟩ := hbad.2 found.1 found.2 hl
          have hinvoke : (Link.reloading P key a b start).InStep
              (invokeCommand P env nested stack found.2 _ args)
              (invokeCommand P env nested' stack d _ args) :=
            twin_invokeCommand henv hn hd (P.toLower (firstWord ' ' args.message)) args
          exact hinvoke.stays s hbad

/-- The callback behind the commands, for a command that is not forbidden. -/
theorem twin_callback
    (hn : NestedTwins (Link.reloading P key a b start) NotAddonCommand nested nested')
    (args : CommandArgs) :
    InStepUnless (Link.reloading P key a b start).Bad
      (Marked (Link.reloading P key a b start) .handleAddonCallbackCommand args)
      (Twin (Link.reloading P key a b start))
      (handleAddonCallbackCommand P env nested stack args)
      (handleAddonCallbackCommand P env nested' stack' args) := by
  refine ⟨callback_stays henv hn args, fun s t hm => ?_⟩
  obtain ⟨h, hforbidden⟩ := hm
  have hregistry : s.registry = t.registry := h.registry
  obtain ⟨hl, hadd, hothers⟩ := h.loaded
  by_cases hown : OwnCommand P key
      (.executed .handleAddonCallbackCommand args s.registry.addonCommands.entries)
  · exact Or.inl (callback_stays henv hn args s (hforbidden hown))
  · unfold handleAddonCallbackCommand after
    simp only [EStateM.run_bind, EStateM.run_get, ← hregistry]
    cases howner : singleOrDefault NetException.invalidOperation
        (fun c => c.2.contains (P.toLower (firstWord ' ' args.message)))
        s.registry.addonCommands.entries with
    | error e => exact Or.inr ⟨rfl, h⟩
    | ok o =>
      cases o with
      | none => exact Or.inr ⟨rfl, h⟩
      | some owner =>
        obtain ⟨hkey, hsame⟩ := same_owner s hown howner
        dsimp only
        rw [hadd, hsame]
        cases haddon : singleOrDefault NetException.invalidOperation
            (fun a => P.compareIgnoreCase a.1 owner.1) s.addons.entries with
        | error e => exact Or.inr ⟨rfl, h⟩
        | ok o =>
          cases o with
          | none => exact (twin_onRegistry (dropCommand owner.1 _)).step s t h
          | some found =>
            -- it is not the addon that is reloaded
            obtain ⟨hfound, hcompare⟩ := singleOrDefault_mem haddon
            have hne : found.1 ≠ key := by
              intro hk
              rw [hk, hkey] at hcompare
              cases hcompare
            have hpair : (Link.reloading P key a b start).pair found.2 found.2 :=
              Or.inr ⟨rfl, hothers found.1 hne found.2 (AList.mem_lookup_iff.mpr hfound)⟩
            exact (twin_invokeCommand henv hn hpair _ args).step s t h

/-- Every nested call keeps the stores linked, as long as no script re-enters `/addon`. -/
theorem nestedTwins_delegate : ∀ n, NestedTwins (Link.reloading P key a b start)
    NotAddonCommand (delegate P env n) (delegate P env n)
  | 0 => fun _ _ _ _ _ => (inStep_pure ()).weaken (fun _ _ h => Marked.twin h)
  | n + 1 => by
    intro stack stack' target args ht
    cases target with
    | handleAddonCommand => exact absurd rfl ht
    | handleAddonCallbackCommand => exact twin_callback henv (nestedTwins_delegate n) args
    | foreign code => exact (inStep_pure ()).weaken (fun _ _ h => Marked.twin h)

end Callback

end LuaAddons
