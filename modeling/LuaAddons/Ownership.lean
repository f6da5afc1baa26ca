import LuaAddons.Registry

/-!
# Ownership of commands

Two invariants of the command registry, each preserved by every `RegistryStep`.

* `WellOwned`: keys and commands are lower-cased, and a command occurs in at most one list
  and there only once. It speaks about `m_AddonCommands` alone, so it also survives other
  plugins changing the chat commands.
* `Agrees`: `m_AddonCommands` and `Commands.ChatCommands` describe the same commands. A
  command that is owned has exactly one chat command, which has no other alias, and every
  chat command that calls back into an addon belongs to an owned command.
-/

namespace LuaAddons

open Exec Lookup

namespace Registry

/-! ## The lists of the addons -/

theorem mem_commandsOf_iff {r : Registry} {k c : String} :
    c ∈ r.commandsOf k ↔ ∃ l, r.addonCommands.lookup k = some l ∧ c ∈ l := by
  unfold commandsOf
  cases r.addonCommands.lookup k <;> simp

theorem mem_addonCommands_of_mem {r : Registry} {k c : String} (h : c ∈ r.commandsOf k) :
    k ∈ r.addonCommands := by
  obtain ⟨l, hl, -⟩ := mem_commandsOf_iff.mp h
  exact AList.lookup_isSome.mp (by simp [hl])

theorem owned_iff {r : Registry} {c : String} : r.owned c = true ↔ ∃ k, c ∈ r.commandsOf k := by
  simp only [owned, List.any_eq_true, List.contains_eq_mem, decide_eq_true_eq, mem_commandsOf_iff]
  constructor
  · rintro ⟨⟨k, l⟩, hm, hc⟩
    exact ⟨k, l, AList.mem_lookup_iff.mpr hm, hc⟩
  · rintro ⟨k, l, hl, hc⟩
    exact ⟨⟨k, l⟩, AList.mem_lookup_iff.mp hl, hc⟩

theorem not_owned_iff {r : Registry} {c : String} :
    r.owned c = false ↔ ∀ k, c ∉ r.commandsOf k := by
  rw [← Bool.not_eq_true, owned_iff, not_exists]

end Registry

open Registry

section Steps

variable {P : Platform} {addonName permission command : String} {r : Registry}

theorem registerCommand_refused (h : r.owned (P.toLower command) = true) :
    registerCommand P addonName permission command r = (false, r) := by
  simp [registerCommand, h]

theorem registerCommand_fst :
    (registerCommand P addonName permission command r).1 = !r.owned (P.toLower command) := by
  unfold registerCommand
  cases h : r.owned (P.toLower command) <;> simp [h]

/-- The registry after a registration that is accepted: the list of the addon grows at its
end, and one chat command replaces all those that had the alias. -/
theorem registerCommand_accepted (h : r.owned (P.toLower command) = false) :
    registerCommand P addonName permission command r =
      (true,
        { addonCommands := r.addonCommands.insert (P.toLower addonName)
            (r.commandsOf (P.toLower addonName) ++ [P.toLower command])
          chatCommands := r.chatCommands.filter (fun c => !c.hasAlias (P.toLower command)) ++
            [callbackCommand r.nextCommand permission (P.toLower command)]
          nextCommand := r.nextCommand + 1 }) := by
  have hc : P.toLower command ∉ r.commandsOf (P.toLower addonName) := not_owned_iff.mp h _
  simp [registerCommand, h, hc, foldl_erase_filter]

theorem commandsOf_registerCommand (h : r.owned (P.toLower command) = false) (k : String) :
    (registerCommand P addonName permission command r).2.commandsOf k =
      if k = P.toLower addonName then r.commandsOf k ++ [P.toLower command]
      else r.commandsOf k := by
  rw [registerCommand_accepted h]
  unfold commandsOf
  split
  · rename_i hk
    subst hk
    simp
  · rename_i hk
    simp [AList.lookup_insert_ne hk]

theorem mem_commandsOf_registerCommand (h : r.owned (P.toLower command) = false) {k c : String} :
    c ∈ (registerCommand P addonName permission command r).2.commandsOf k ↔
      c ∈ r.commandsOf k ∨ (k = P.toLower addonName ∧ c = P.toLower command) := by
  rw [commandsOf_registerCommand h]
  by_cases hk : k = P.toLower addonName <;> simp [hk]

theorem run_removeChatCommand (c : String) (r : Registry) :
    (removeChatCommand c).run r =
      match singleOrDefault NetException.invalidOperation (fun e => e.hasAlias c)
          r.chatCommands with
      | .error e => .error e r
      | .ok none => .ok () r
      | .ok (some cmd) => .ok () { r with chatCommands := r.chatCommands.erase cmd } := by
  simp only [removeChatCommand, EStateM.run_bind, EStateM.run_get]
  cases singleOrDefault NetException.invalidOperation (fun e => e.hasAlias c) r.chatCommands with
  | error e => rfl
  | ok found => cases found <;> rfl

theorem removeChatCommand_addonCommands (c : String) :
    Keeps (Same Registry.addonCommands) (removeChatCommand c) := by
  intro r
  unfold after
  rw [run_removeChatCommand]
  split <;> rfl

/-- A throw in the middle of `RemoveAddonCommands` leaves the lists as they were. -/
theorem removeAddonCommands_addonCommands (P : Platform) (addonName : String) (r : Registry) :
    (after (removeAddonCommands P addonName) r).addonCommands = r.addonCommands ∨
      (after (removeAddonCommands P addonName) r).addonCommands =
        r.addonCommands.erase (P.toLower addonName) := by
  unfold after removeAddonCommands
  simp only [EStateM.run_bind, EStateM.run_get]
  split
  · exact Or.inl rfl
  · rename_i commands _
    have hloop : Keeps (Same Registry.addonCommands) (commands.forM removeChatCommand) :=
      keeps_forM (fun c _ => removeChatCommand_addonCommands c)
    have hr := hloop r
    unfold after at hr
    simp only [EStateM.run_bind]
    cases h : (commands.forM removeChatCommand).run r with
    | error e r' => rw [h] at hr; exact Or.inl hr
    | ok u r' =>
      rw [h] at hr
      have hr' : r'.addonCommands = r.addonCommands := hr
      exact Or.inr (by simp [hr'])

theorem dropCommand_addonCommands (key c : String) (r : Registry) :
    (after (dropCommand key c) r).addonCommands = r.addonCommands ∨
      (after (dropCommand key c) r).addonCommands = (r.removeOwned key c).addonCommands := by
  have hr := removeChatCommand_addonCommands c r
  unfold after at hr
  unfold after dropCommand
  simp only [EStateM.run_bind]
  cases h : (removeChatCommand c).run r with
  | error e r' => rw [h] at hr; exact Or.inl hr
  | ok u r' =>
    rw [h] at hr
    have hr' : r'.addonCommands = r.addonCommands := hr
    right
    simp only [EStateM.run_modify, final_ok, removeOwned, hr']
    split <;> simp [hr']

end Steps

/-! ## Unique owners -/

/-- Keys and commands are lower-cased, and a command occurs in one list at most, once. -/
structure WellOwned (P : Platform) (r : Registry) : Prop where
  key_lower : ∀ k ∈ r.addonCommands, P.toLower k = k
  command_lower : ∀ k, ∀ c ∈ r.commandsOf k, P.toLower c = c
  nodup : ∀ k, (r.commandsOf k).Nodup
  unique : ∀ k₁ k₂ c, c ∈ r.commandsOf k₁ → c ∈ r.commandsOf k₂ → k₁ = k₂

namespace WellOwned

variable {P : Platform} {r r' : Registry}

theorem congr (h : WellOwned P r) (he : r'.addonCommands = r.addonCommands) : WellOwned P r' := by
  have hc : ∀ k, r'.commandsOf k = r.commandsOf k := fun k => by simp [commandsOf, he]
  refine ⟨fun k hk => h.key_lower k (he ▸ hk), fun k c hm => ?_, fun k => ?_, ?_⟩
  · rw [hc] at hm
    exact h.command_lower k c hm
  · rw [hc]
    exact h.nodup k
  · intro k₁ k₂ c h₁ h₂
    rw [hc] at h₁ h₂
    exact h.unique k₁ k₂ c h₁ h₂

theorem empty (h : r.addonCommands = ∅) : WellOwned P r := by
  have hc : ∀ k, r.commandsOf k = [] := fun k => by simp [commandsOf, h]
  refine ⟨fun k hk => ?_, fun k c hm => ?_, fun k => ?_, fun k₁ k₂ c h₁ _ => ?_⟩
  · rw [h] at hk
    exact absurd hk (AList.notMem_empty k)
  · simp [hc] at hm
  · simp [hc]
  · simp [hc] at h₁

theorem register (h : WellOwned P r) (addonName permission command : String) :
    WellOwned P (registerCommand P addonName permission command r).2 := by
  cases ho : r.owned (P.toLower command) with
  | true => rw [registerCommand_refused ho]; exact h
  | false =>
    have hno := not_owned_iff.mp ho
    refine ⟨fun k hk => ?_, fun k c hc => ?_, fun k => ?_, fun k₁ k₂ c h₁ h₂ => ?_⟩
    · rw [registerCommand_accepted ho, AList.mem_insert] at hk
      rcases hk with rfl | hk
      · exact P.toLower_toLower _
      · exact h.key_lower k hk
    · rcases (mem_commandsOf_registerCommand ho).mp hc with hc | ⟨-, rfl⟩
      · exact h.command_lower k c hc
      · exact P.toLower_toLower _
    · rw [commandsOf_registerCommand ho]
      split
      · rw [List.nodup_append]
        refine ⟨h.nodup k, List.nodup_singleton _, ?_⟩
        rintro c hc d hd rfl
        rw [List.mem_singleton] at hd
        exact hno k (hd ▸ hc)
      · exact h.nodup k
    · rw [mem_commandsOf_registerCommand ho] at h₁ h₂
      rcases h₁ with h₁ | ⟨rfl, rfl⟩ <;> rcases h₂ with h₂ | ⟨rfl, hc⟩
      · exact h.unique k₁ k₂ c h₁ h₂
      · exact absurd (hc ▸ h₁) (hno k₁)
      · exact absurd h₂ (hno k₂)
      · rfl

theorem of_subset (h : WellOwned P r) (hk : ∀ k ∈ r'.addonCommands, k ∈ r.addonCommands)
    (hc : ∀ k, (r'.commandsOf k).Sublist (r.commandsOf k)) : WellOwned P r' where
  key_lower k hm := h.key_lower k (hk k hm)
  command_lower k c hm := h.command_lower k c ((hc k).subset hm)
  nodup k := (h.nodup k).sublist (hc k)
  unique k₁ k₂ c h₁ h₂ := h.unique k₁ k₂ c ((hc k₁).subset h₁) ((hc k₂).subset h₂)

theorem erase (h : WellOwned P r) {k : String}
    (he : r'.addonCommands = r.addonCommands.erase k) : WellOwned P r' := by
  refine h.of_subset (fun k' hm => ?_) (fun k' => ?_)
  · rw [he, AList.mem_erase] at hm
    exact hm.2
  · unfold commandsOf
    rw [he]
    by_cases hk : k' = k
    · subst hk
      simp
    · rw [AList.lookup_erase_ne hk]

theorem removeOwned (h : WellOwned P r) (k c : String) : WellOwned P (r.removeOwned k c) := by
  unfold Registry.removeOwned
  split
  · exact h
  · rename_i l hl
    refine h.of_subset (fun k' hm => ?_) (fun k' => ?_)
    · rcases (AList.mem_insert _).mp hm with rfl | hm
      · exact AList.lookup_isSome.mp (by simp [hl])
      · exact hm
    · unfold commandsOf
      by_cases hk : k' = k
      · subst hk
        simp [hl, List.erase_sublist]
      · simp [AList.lookup_insert_ne hk]

/-- **Unique ownership** is preserved by every change of the registry. -/
theorem step (h : WellOwned P r) (hs : RegistryStep P r r') : WellOwned P r' := by
  cases hs with
  | register addonName permission command => exact h.register addonName permission command
  | remove addonName =>
    rcases removeAddonCommands_addonCommands P addonName r with he | he
    · exact h.congr he
    · exact h.erase he
  | drop key c =>
    rcases dropCommand_addonCommands key c r with he | he
    · exact h.congr he
    · exact (h.removeOwned key c).congr he

/-- The lookup of the owner of a command never finds two. -/
theorem singleOrDefault_owner (h : WellOwned P r) {ε : Type} (tooMany : ε) (c : String) :
    ∃ o, singleOrDefault tooMany (fun a => a.2.contains c) r.addonCommands.entries = .ok o ∧
      ∀ a, o = some a ↔ a ∈ r.addonCommands.entries ∧ c ∈ a.2 := by
  have hmem : ∀ a ∈ r.addonCommands.entries, c ∈ a.2 → c ∈ r.commandsOf a.1 := by
    rintro ⟨k, l⟩ ha hc
    exact mem_commandsOf_iff.mpr ⟨l, AList.mem_lookup_iff.mpr ha, hc⟩
  obtain ⟨o, ho, hiff⟩ := singleOrDefault_of_unique tooMany
    (p := fun a : Sigma (fun _ : String => List String) => a.2.contains c)
    (List.NodupKeys.nodup r.addonCommands.nodupKeys) (by
      intro a ha b hb hpa hpb
      have hk := h.unique a.1 b.1 c (hmem a ha (by simpa using hpa))
        (hmem b hb (by simpa using hpb))
      obtain ⟨k, l⟩ := a
      obtain ⟨k', l'⟩ := b
      obtain rfl : k = k' := hk
      have hl := AList.mem_lookup_iff.mpr ha
      have hl' := AList.mem_lookup_iff.mpr hb
      rw [Option.mem_def] at hl hl'
      rw [hl] at hl'
      cases hl'
      rfl)
  exact ⟨o, ho, fun a => by simpa using hiff a⟩

end WellOwned

/-! ## Agreement with the chat commands -/

/-- Every owned command has exactly one chat command, which is its own, and every chat
command that dispatches to the addons belongs to an owned command. -/
structure Agrees (r : Registry) : Prop where
  entry : ∀ k, ∀ c ∈ r.commandsOf k, ∃ e, r.chatCommands.filter (fun e => e.hasAlias c) = [e] ∧
    e.names = [c] ∧ e.commandDelegate = .handleAddonCallbackCommand
  owner : ∀ e ∈ r.chatCommands, e.commandDelegate = .handleAddonCallbackCommand →
    ∃ k c, c ∈ r.commandsOf k ∧ e.names = [c]

theorem hasAlias_of_names_eq {e : Command} {c : String} (h : e.names = [c]) (d : String) :
    e.hasAlias d = decide (d = c) := by
  simp [Command.hasAlias, h]

/-- Filtering by another predicate that the only match satisfies keeps the match. -/
theorem filter_filter_of_filter_eq {p q : Command → Bool} {l : List Command} {e : Command}
    (h : l.filter p = [e]) (hq : q e = true) : (l.filter q).filter p = [e] := by
  rw [List.filter_comm, h]
  simp [hq]

/-- Removing the commands of a list one by one, when each of them has exactly one chat
command and no other alias. -/
theorem run_removeChatCommands :
    ∀ (l : List String) (r : Registry), l.Nodup →
      (∀ c ∈ l, ∃ e, r.chatCommands.filter (fun e => e.hasAlias c) = [e] ∧ e.names = [c]) →
      (l.forM removeChatCommand).run r =
        .ok () { r with chatCommands :=
          r.chatCommands.filter (fun e => !l.any (fun c => e.hasAlias c)) }
  | [], r, _, _ => by simp
  | c :: l, r, hnd, h => by
    obtain ⟨hcl, hnd⟩ := List.nodup_cons.mp hnd
    obtain ⟨e, he, hen⟩ := h c List.mem_cons_self
    have hstep : (removeChatCommand c).run r =
        .ok () { r with chatCommands := r.chatCommands.filter (fun e => !e.hasAlias c) } := by
      rw [run_removeChatCommand, singleOrDefault_of_filter_eq he]
      simp only [erase_of_filter_eq he]
    rw [run_forM_cons, hstep]
    simp only
    rw [run_removeChatCommands l _ hnd]
    · simp [List.filter_filter, Bool.and_comm]
    · intro d hd
      obtain ⟨e', he', hen'⟩ := h d (List.mem_cons_of_mem _ hd)
      refine ⟨e', filter_filter_of_filter_eq he' ?_, hen'⟩
      have hne : c ≠ d := fun hcd => hcl (hcd ▸ hd)
      simp [hasAlias_of_names_eq hen', hne]

namespace Agrees

variable {P : Platform} {r r' : Registry}

theorem of_no_commands (hc : ∀ k, r.commandsOf k = [])
    (h : ∀ e ∈ r.chatCommands, e.commandDelegate ≠ .handleAddonCallbackCommand) : Agrees r :=
  ⟨fun k c hm => by simp [hc] at hm, fun e he hd => absurd hd (h e he)⟩

theorem register (h : Agrees r) (addonName permission command : String) :
    Agrees (registerCommand P addonName permission command r).2 := by
  cases ho : r.owned (P.toLower command) with
  | true => rw [registerCommand_refused ho]; exact h
  | false =>
    have hno := not_owned_iff.mp ho
    have hchat : (registerCommand P addonName permission command r).2.chatCommands =
        r.chatCommands.filter (fun c => !c.hasAlias (P.toLower command)) ++
          [callbackCommand r.nextCommand permission (P.toLower command)] := by
      rw [registerCommand_accepted ho]
    refine ⟨fun k c hc => ?_, fun e he hd => ?_⟩
    · rw [hchat]
      rcases (mem_commandsOf_registerCommand ho).mp hc with hc | ⟨-, rfl⟩
      · -- an older command: its chat command does not carry the new alias
        have hne : c ≠ P.toLower command := by
          rintro rfl
          exact hno k hc
        obtain ⟨e, he, hen, hed⟩ := h.entry k c hc
        refine ⟨e, ?_, hen, hed⟩
        rw [List.filter_append, filter_filter_of_filter_eq he]
        · simp [callbackCommand, Command.hasAlias, hne]
        · simp [hasAlias_of_names_eq hen, hne.symm]
      · refine ⟨callbackCommand r.nextCommand permission (P.toLower command), ?_, rfl, rfl⟩
        simp [List.filter_append, List.filter_filter, callbackCommand, Command.hasAlias]
    · rw [hchat, List.mem_append] at he
      rcases he with he | he
      · obtain ⟨k, c, hc, hen⟩ := h.owner e (List.mem_of_mem_filter he) hd
        exact ⟨k, c, (mem_commandsOf_registerCommand ho).mpr (Or.inl hc), hen⟩
      · rw [List.mem_singleton] at he
        subst he
        exact ⟨_, _, (mem_commandsOf_registerCommand ho).mpr (Or.inr ⟨rfl, rfl⟩), rfl⟩

/-- `RemoveAddonCommands` runs to its end and deletes exactly the chat commands of the
addon. -/
theorem run_removeAddonCommands (h : Agrees r) (hw : WellOwned P r) (addonName : String) :
    (removeAddonCommands P addonName).run r =
      .ok () { r with
        chatCommands := r.chatCommands.filter
          (fun e => !(r.commandsOf (P.toLower addonName)).any (fun c => e.hasAlias c))
        addonCommands := r.addonCommands.erase (P.toLower addonName) } := by
  unfold removeAddonCommands
  simp only [EStateM.run_bind, EStateM.run_get]
  cases hl : r.addonCommands.lookup (P.toLower addonName) with
  | none =>
    have hmem : P.toLower addonName ∉ r.addonCommands := AList.lookup_eq_none.mp hl
    have herase : r.addonCommands.erase (P.toLower addonName) = r.addonCommands := by
      apply AList.ext
      exact List.kerase_of_notMem_keys hmem
    simp [commandsOf, hl, herase]
  | some l =>
    have hcl : r.commandsOf (P.toLower addonName) = l := by simp [commandsOf, hl]
    have hrun := run_removeChatCommands l r (hcl ▸ hw.nodup (P.toLower addonName))
      (fun c hc => by
        obtain ⟨e, he, hen, -⟩ := h.entry (P.toLower addonName) c (hcl ▸ hc)
        exact ⟨e, he, hen⟩)
    simp only [EStateM.run_bind, hrun, EStateM.run_modify, hcl]

theorem remove (h : Agrees r) (hw : WellOwned P r) (addonName : String) :
    Agrees (after (removeAddonCommands P addonName) r) := by
  unfold after
  rw [h.run_removeAddonCommands hw, final_ok]
  have hcommands : ∀ k, k ≠ P.toLower addonName →
      (r.addonCommands.erase (P.toLower addonName)).lookup k = r.addonCommands.lookup k :=
    fun k hk => AList.lookup_erase_ne hk
  refine ⟨fun k c hc => ?_, fun e he hd => ?_⟩
  · have hk : k ≠ P.toLower addonName := by
      rintro rfl
      simp [commandsOf] at hc
    have hc' : c ∈ r.commandsOf k := by simpa [commandsOf, hcommands k hk] using hc
    obtain ⟨e, he, hen, hed⟩ := h.entry k c hc'
    refine ⟨e, filter_filter_of_filter_eq he ?_, hen, hed⟩
    simp only [Bool.not_eq_true', List.any_eq_false]
    intro d hd
    rw [hasAlias_of_names_eq hen]
    simp only [decide_eq_true_eq]
    rintro rfl
    exact hk (hw.unique _ _ _ hc' hd)
  · obtain ⟨he, hrest⟩ := List.mem_filter.mp he
    obtain ⟨k, c, hc, hen⟩ := h.owner e he hd
    have hk : k ≠ P.toLower addonName := by
      rintro rfl
      simp only [Bool.not_eq_true', List.any_eq_false] at hrest
      exact hrest c hc (by simp [hasAlias_of_names_eq hen])
    exact ⟨k, c, by simpa [commandsOf, hcommands k hk] using hc, hen⟩

/-- The branch for a command whose addon is gone deletes its chat command. -/
theorem run_dropCommand (h : Agrees r) {key c : String} (hc : c ∈ r.commandsOf key) :
    (dropCommand key c).run r =
      .ok () (({ r with chatCommands := r.chatCommands.filter (fun e => !e.hasAlias c) } :
        Registry).removeOwned key c) := by
  obtain ⟨e, he, -, -⟩ := h.entry key c hc
  have hstep : (removeChatCommand c).run r =
      .ok () { r with chatCommands := r.chatCommands.filter (fun e => !e.hasAlias c) } := by
    rw [run_removeChatCommand, singleOrDefault_of_filter_eq he]
    simp only [erase_of_filter_eq he]
  simp only [dropCommand, EStateM.run_bind, hstep, EStateM.run_modify]

theorem drop (h : Agrees r) (hw : WellOwned P r) {key c : String} (hc : c ∈ r.commandsOf key) :
    Agrees (after (dropCommand key c) r) := by
  unfold after
  rw [h.run_dropCommand hc, final_ok]
  obtain ⟨l, hl, hcl⟩ := mem_commandsOf_iff.mp hc
  have hlist : r.commandsOf key = l := by simp [commandsOf, hl]
  simp only [Registry.removeOwned, hl]
  have hmem : ∀ k d, (d ∈ ({ r with
        chatCommands := r.chatCommands.filter (fun e => !e.hasAlias c)
        addonCommands := r.addonCommands.insert key (l.erase c) } : Registry).commandsOf k) ↔
      d ∈ r.commandsOf k ∧ d ≠ c := by
    intro k d
    by_cases hk : k = key
    · subst hk
      have hnd := hw.nodup k
      rw [hlist] at hnd ⊢
      simp [commandsOf, hnd.mem_erase_iff, and_comm]
    · have hd : d ∈ r.commandsOf k → d ≠ c := by
        rintro hd rfl
        exact hk (hw.unique _ _ _ hd hc)
      simp only [commandsOf, AList.lookup_insert_ne hk]
      exact ⟨fun h => ⟨h, hd h⟩, fun h => h.1⟩
  refine ⟨fun k d hd => ?_, fun e he hde => ?_⟩
  · obtain ⟨hd, hne⟩ := (hmem k d).mp hd
    obtain ⟨e, he, hen, hed⟩ := h.entry k d hd
    refine ⟨e, filter_filter_of_filter_eq he ?_, hen, hed⟩
    simp [hasAlias_of_names_eq hen, hne.symm]
  · obtain ⟨he, hrest⟩ := List.mem_filter.mp he
    obtain ⟨k, d, hd, hen⟩ := h.owner e he hde
    refine ⟨k, d, (hmem k d).mpr ⟨hd, ?_⟩, hen⟩
    rintro rfl
    simp [hasAlias_of_names_eq hen] at hrest

/-- **Agreement** is preserved by every change of the registry. -/
theorem step (h : Agrees r) (hw : WellOwned P r) (hs : RegistryStep P r r') : Agrees r' := by
  cases hs with
  | register addonName permission command => exact h.register addonName permission command
  | remove addonName => exact h.remove hw addonName
  | drop key c _ hc => exact h.drop hw hc

end Agrees

/-! ## Registrations of one addon -/

/-- The registry after any number of registrations of the addon with this key. -/
def Registrations (P : Platform) (key : String) : Registry → Registry → Prop :=
  Relation.ReflTransGen (fun r r' => ∃ addonName permission command,
    P.toLower addonName = key ∧ r' = (registerCommand P addonName permission command r).2)

namespace Registrations

variable {P : Platform} {key : String} {r r' : Registry}

theorem steps (h : Registrations P key r r') : Relation.ReflTransGen (RegistryStep P) r r' :=
  Relation.ReflTransGen.mono (fun r _ ⟨addonName, permission, command, _, hr⟩ =>
    hr ▸ .register addonName permission command r) _ _ h

/-- The list of the addon grows at its end, and no other list changes. -/
theorem commandsOf (h : Registrations P key r r') :
    (∃ l, r'.commandsOf key = r.commandsOf key ++ l) ∧
      ∀ k ≠ key, r'.addonCommands.lookup k = r.addonCommands.lookup k := by
  induction h with
  | refl => exact ⟨⟨[], (List.append_nil _).symm⟩, fun _ _ => rfl⟩
  | @tail r₁ r₂ _ hstep ih =>
    obtain ⟨addonName, permission, command, rfl, rfl⟩ := hstep
    cases ho : r₁.owned (P.toLower command) with
    | true => rw [registerCommand_refused ho]; exact ih
    | false =>
      obtain ⟨⟨l, hl⟩, hother⟩ := ih
      refine ⟨⟨l ++ [P.toLower command], ?_⟩, fun k hk => ?_⟩
      · rw [commandsOf_registerCommand ho, if_pos rfl, hl, List.append_assoc]
      · rw [registerCommand_accepted ho, ← hother k hk]
        exact AList.lookup_insert_ne hk

theorem commandsOf_ne (h : Registrations P key r r') {k : String} (hk : k ≠ key) :
    r'.commandsOf k = r.commandsOf k := by
  unfold Registry.commandsOf
  rw [h.commandsOf.2 k hk]

theorem mono (h : Registrations P key r r') {k c : String} (hc : c ∈ r.commandsOf k) :
    c ∈ r'.commandsOf k := by
  by_cases hk : k = key
  · subst hk
    obtain ⟨l, hl⟩ := h.commandsOf.1
    rw [hl]
    exact List.mem_append_left l hc
  · rw [h.commandsOf_ne hk]
    exact hc

theorem owned_mono (h : Registrations P key r r') {c : String} (hc : r.owned c = true) :
    r'.owned c = true := by
  obtain ⟨k, hk⟩ := owned_iff.mp hc
  exact owned_iff.mpr ⟨k, h.mono hk⟩

/-- A command that got its owner on the way belongs to the addon that registered. -/
theorem fresh_mem (h : Registrations P key r r') {c : String} (hno : r.owned c = false)
    (hc : r'.owned c = true) : c ∈ r'.commandsOf key := by
  obtain ⟨k, hk⟩ := owned_iff.mp hc
  by_cases he : k = key
  · exact he ▸ hk
  · rw [h.commandsOf_ne he] at hk
    exact absurd hk (not_owned_iff.mp hno k)

/-- An empty list is only what was there before. -/
theorem lookup_ne_nil (h : Registrations P key r r')
    (hne : r.addonCommands.lookup key ≠ some []) : r'.addonCommands.lookup key ≠ some [] := by
  induction h with
  | refl => exact hne
  | @tail r₁ r₂ _ hstep ih =>
    obtain ⟨addonName, permission, command, rfl, rfl⟩ := hstep
    cases ho : r₁.owned (P.toLower command) with
    | true => rw [registerCommand_refused ho]; exact ih
    | false =>
      rw [registerCommand_accepted ho, AList.lookup_insert]
      simp

/-- The chat command of an owned command outlives registrations, which delete chat commands
only by the name of a command without an owner. -/
theorem chatCommand_stays (h : Registrations P key r r') {e : Command} {c : String}
    (he : e ∈ r.chatCommands) (hen : e.names = [c]) (hc : r.owned c = true) :
    e ∈ r'.chatCommands := by
  induction h with
  | refl => exact he
  | @tail r₁ r₂ hpath hstep ih =>
    obtain ⟨addonName, permission, command, rfl, rfl⟩ := hstep
    cases ho : r₁.owned (P.toLower command) with
    | true => rw [registerCommand_refused ho]; exact ih
    | false =>
      have hne : P.toLower command ≠ c := by
        rintro rfl
        rw [owned_mono hpath hc] at ho
        cases ho
      rw [registerCommand_accepted ho]
      exact List.mem_append_left _ (List.mem_filter.mpr
        ⟨ih, by simp [hasAlias_of_names_eq hen, hne]⟩)

end Registrations

/-- New chat commands are new objects. -/
structure FreshIds (r r' : Registry) : Prop where
  next : r.nextCommand ≤ r'.nextCommand
  chatCommands : ∀ e ∈ r'.chatCommands, e ∈ r.chatCommands ∨
    r.nextCommand ≤ e.id ∧ e.id < r'.nextCommand

instance : IsPreorder Registry FreshIds where
  refl _ := ⟨le_rfl, fun _ h => Or.inl h⟩
  trans r₁ r₂ r₃ h₁ h₂ := by
    refine ⟨h₁.next.trans h₂.next, fun e he => ?_⟩
    rcases h₂.chatCommands e he with he | ⟨hge, hlt⟩
    · rcases h₁.chatCommands e he with he | ⟨hge, hlt⟩
      · exact Or.inl he
      · exact Or.inr ⟨hge, hlt.trans_le h₂.next⟩
    · exact Or.inr ⟨h₁.next.trans hge, hlt⟩

theorem freshIds_of_subset {r r' : Registry} (hn : r'.nextCommand = r.nextCommand)
    (hc : r'.chatCommands ⊆ r.chatCommands) : FreshIds r r' :=
  ⟨hn.ge, fun _ he => Or.inl (hc he)⟩

theorem removeChatCommand_freshIds (c : String) : Keeps FreshIds (removeChatCommand c) := by
  intro r
  unfold after
  rw [run_removeChatCommand]
  split
  · exact refl_of FreshIds r
  · exact refl_of FreshIds r
  · exact freshIds_of_subset rfl List.erase_subset

theorem RegistryStep.freshIds {P : Platform} {r r' : Registry} (h : RegistryStep P r r') :
    FreshIds r r' := by
  cases h with
  | register addonName permission command =>
    cases ho : r.owned (P.toLower command) with
    | true => rw [registerCommand_refused ho]; exact refl_of FreshIds r
    | false =>
      rw [registerCommand_accepted ho]
      refine ⟨Nat.le_succ _, fun e he => ?_⟩
      rcases List.mem_append.mp he with he | he
      · exact Or.inl (List.mem_of_mem_filter he)
      · rw [List.mem_singleton] at he
        subst he
        exact Or.inr ⟨le_rfl, Nat.lt_succ_self _⟩
  | remove addonName =>
    refine (keeps_get_bind (fun r => ?_) : Keeps FreshIds (removeAddonCommands P addonName)) r
    cases r.addonCommands.lookup (P.toLower addonName) with
    | none => exact refl_of FreshIds r
    | some commands =>
      refine keeps_bind (keeps_forM (l := commands) (fun c _ => removeChatCommand_freshIds c))
        (fun _ => keeps_modify (fun _ => ?_)) r
      exact freshIds_of_subset rfl (List.Subset.refl _)
  | drop key c =>
    refine (keeps_bind (removeChatCommand_freshIds c) (fun _ => keeps_modify (fun r => ?_)) :
      Keeps FreshIds (dropCommand key c)) r
    unfold Registry.removeOwned
    split
    · exact refl_of FreshIds r
    · exact freshIds_of_subset rfl (List.Subset.refl _)

end LuaAddons
