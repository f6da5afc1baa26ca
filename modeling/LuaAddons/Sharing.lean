import LuaAddons.Reloading

/-!
# Chat commands shared with other plugins

`Commands.ChatCommands` belongs to TShock, and other plugins add and remove commands of their
own in it. A shared run (`Shared`) interleaves them with the operations of this plugin. What
stays true is that a chat command which calls back into an addon has one name, that the name is
owned, and that no two have the same name (`OwnCallbacks`).

`RemoveAddonCommands` looks for the chat command by its name with `SingleOrDefault`. So an
unload takes out its own commands and nothing else exactly if no command of another plugin
answers to a name that the addon owns (`unloadAddon_own_iff`).
-/

namespace LuaAddons

open Exec Lookup Registry

variable {H : Type} {P : Platform}

/-! ## Callbacks of the addons in a shared list -/

/-- The chat command calls back into an addon. -/
def Command.isCallback (e : Command) : Bool := e.commandDelegate = .handleAddonCallbackCommand

/-- Chat commands that call back into an addon have one name, which is owned, and no two of
them have the same. -/
structure OwnCallbacks (r : Registry) : Prop where
  owner : ∀ e ∈ r.chatCommands, e.isCallback = true → ∃ k c, c ∈ r.commandsOf k ∧ e.names = [c]
  unique : ∀ c, (r.chatCommands.filter (fun e => e.isCallback && e.hasAlias c)).length ≤ 1

theorem length_filter_le_of_sublist {p : Command → Bool} {l l' : List Command}
    (h : l'.Sublist l) : (l'.filter p).length ≤ (l.filter p).length :=
  (h.filter p).length_le

/-- The chat commands lose elements, and the commands of every addon that are lost have no chat
command left. -/
theorem OwnCallbacks.of_sublist {r r' : Registry} (h : OwnCallbacks r)
    (hs : r'.chatCommands.Sublist r.chatCommands)
    (hc : ∀ e ∈ r'.chatCommands, ∀ k c, c ∈ r.commandsOf k → e.names = [c] →
      c ∈ r'.commandsOf k) : OwnCallbacks r' where
  owner e he hcall := by
    obtain ⟨k, c, hk, hn⟩ := h.owner e (hs.subset he) hcall
    exact ⟨k, c, hc e he k c hk hn, hn⟩
  unique c := (length_filter_le_of_sublist hs).trans (h.unique c)

theorem removeChatCommand_sublist (c : String) :
    Keeps (fun r r' : Registry => r'.chatCommands.Sublist r.chatCommands)
      (removeChatCommand c) := by
  intro r
  unfold after
  rw [run_removeChatCommand]
  split
  · exact List.Sublist.refl _
  · exact List.Sublist.refl _
  · exact List.erase_sublist

/-- A removal that does not throw leaves no chat command with the name. -/
theorem removeChatCommand_ok {c : String} {r r' : Registry}
    (h : (removeChatCommand c).run r = .ok () r') :
    r' = { r with chatCommands := r.chatCommands.filter (fun e => !e.hasAlias c) } := by
  rw [run_removeChatCommand] at h
  cases hs : singleOrDefault NetException.invalidOperation (fun e => e.hasAlias c)
      r.chatCommands with
  | error e =>
    rw [hs] at h
    cases h
  | ok found =>
    rw [hs] at h
    cases found with
    | none =>
      cases h
      have hnone := singleOrDefault_none_iff.mp hs
      have hkeep : r.chatCommands.filter (fun e => !e.hasAlias c) = r.chatCommands := by
        rw [List.filter_eq_self]
        intro e he
        have := List.filter_eq_nil_iff.mp hnone e he
        simpa using this
      rw [hkeep]
    | some cmd =>
      cases h
      rw [erase_of_filter_eq (singleOrDefault_some_iff.mp hs)]

theorem removeChatCommands_ok : ∀ (l : List String) (r r' : Registry),
    (l.forM removeChatCommand).run r = .ok () r' →
    r' = { r with chatCommands := r.chatCommands.filter (fun e => !l.any (fun c => e.hasAlias c)) }
  | [], r, r', h => by
    cases h
    simp
  | c :: l, r, r', h => by
    rw [run_forM_cons] at h
    cases hstep : (removeChatCommand c).run r with
    | error e r₁ =>
      rw [hstep] at h
      cases h
    | ok u r₁ =>
      rw [hstep] at h
      have h₁ := removeChatCommand_ok hstep
      have h₂ := removeChatCommands_ok l r₁ r' h
      subst h₁ h₂
      simp [List.filter_filter, Bool.and_comm]

/-- A removal of names that have one chat command at most does not throw. -/
theorem run_removeChatCommands_of_le : ∀ (l : List String) (r : Registry),
    (∀ c ∈ l, (r.chatCommands.filter (fun e => e.hasAlias c)).length ≤ 1) →
    ∃ r', (l.forM removeChatCommand).run r = .ok () r'
  | [], r, _ => ⟨r, rfl⟩
  | c :: l, r, h => by
    have hstep : ∃ r₁, (removeChatCommand c).run r = .ok () r₁ := by
      obtain ⟨found, hfound⟩ : ∃ o, singleOrDefault NetException.invalidOperation
          (fun e => e.hasAlias c) r.chatCommands = .ok o :=
        singleOrDefault_of_length_le (h c List.mem_cons_self)
      rw [run_removeChatCommand, hfound]
      cases found with
      | none => exact ⟨_, rfl⟩
      | some cmd => exact ⟨_, rfl⟩
    obtain ⟨r₁, hstep⟩ := hstep
    have hsub : r₁.chatCommands.Sublist r.chatCommands := by
      rw [removeChatCommand_ok hstep]
      exact List.filter_sublist
    obtain ⟨r', hrest⟩ := run_removeChatCommands_of_le l r₁ (fun d hd =>
      (length_filter_le_of_sublist hsub).trans (h d (List.mem_cons_of_mem _ hd)))
    refine ⟨r', ?_⟩
    rw [run_forM_cons, hstep]
    exact hrest

/-- Other commands stay in the list that one is removed from. -/
theorem mem_removeOwned {r : Registry} {key c k d : String} (h : d ∈ r.commandsOf k)
    (hne : d ≠ c) : d ∈ (r.removeOwned key c).commandsOf k := by
  unfold Registry.removeOwned
  cases hl : r.addonCommands.lookup key with
  | none => exact h
  | some l =>
    by_cases hk : k = key
    · subst hk
      have hd : d ∈ l := by simpa [commandsOf, hl] using h
      simpa [commandsOf] using (List.mem_erase_of_ne hne).mpr hd
    · simpa [commandsOf, AList.lookup_insert_ne hk] using h

namespace OwnCallbacks

variable {r r' : Registry}

theorem register (h : OwnCallbacks r) (addonName permission command : String) :
    OwnCallbacks (registerCommand P addonName permission command r).2 := by
  cases ho : r.owned (P.toLower command) with
  | true => rw [registerCommand_refused ho]; exact h
  | false =>
    have hchat : (registerCommand P addonName permission command r).2.chatCommands =
        r.chatCommands.filter (fun c => !c.hasAlias (P.toLower command)) ++
          [callbackCommand r.nextCommand permission (P.toLower command)] := by
      rw [registerCommand_accepted ho]
    constructor
    · intro e he hcall
      rw [hchat, List.mem_append] at he
      rcases he with he | he
      · obtain ⟨k, c, hc, hn⟩ := h.owner e (List.mem_of_mem_filter he) hcall
        exact ⟨k, c, (mem_commandsOf_registerCommand ho).mpr (Or.inl hc), hn⟩
      · rw [List.mem_singleton] at he
        subst he
        exact ⟨_, _, (mem_commandsOf_registerCommand ho).mpr (Or.inr ⟨rfl, rfl⟩), rfl⟩
    · intro c
      rw [hchat, List.filter_append, List.length_append]
      by_cases hc : c = P.toLower command
      · subst hc
        have hnone : (r.chatCommands.filter (fun c => !c.hasAlias (P.toLower command))).filter
            (fun e => e.isCallback && e.hasAlias (P.toLower command)) = [] := by
          rw [List.filter_filter, List.filter_eq_nil_iff]
          intro e _
          simp
        rw [hnone, List.length_nil, Nat.zero_add]
        exact List.length_filter_le _ _
      · have hnew : [callbackCommand r.nextCommand permission (P.toLower command)].filter
            (fun e => e.isCallback && e.hasAlias c) = [] := by
          simp [callbackCommand, Command.hasAlias, hc]
        rw [hnew, List.length_nil, Nat.add_zero]
        exact (length_filter_le_of_sublist List.filter_sublist).trans (h.unique c)

/-- A loop of removals only takes chat commands out, and leaves the lists of the addons. -/
theorem removeChatCommands_after (l : List String) (r : Registry) :
    (after (l.forM removeChatCommand) r).chatCommands.Sublist r.chatCommands ∧
      (after (l.forM removeChatCommand) r).addonCommands = r.addonCommands := by
  have : IsPreorder Registry (fun r r' : Registry => r'.chatCommands.Sublist r.chatCommands) :=
    { refl := fun r => List.Sublist.refl _, trans := fun _ _ _ h₁ h₂ => h₂.trans h₁ }
  refine ⟨?_, ?_⟩
  · exact keeps_forM (R := fun r r' : Registry => r'.chatCommands.Sublist r.chatCommands)
      (fun c _ => removeChatCommand_sublist c) r
  · exact keeps_forM (R := Same Registry.addonCommands)
      (fun c _ => removeChatCommand_addonCommands c) r

theorem remove (h : OwnCallbacks r) (addonName : String) :
    OwnCallbacks (after (removeAddonCommands P addonName) r) := by
  unfold after removeAddonCommands
  simp only [EStateM.run_bind, EStateM.run_get]
  cases hl : r.addonCommands.lookup (P.toLower addonName) with
  | none => exact h
  | some l =>
    obtain ⟨hsub, hlists⟩ := removeChatCommands_after l r
    simp only [EStateM.run_bind]
    cases hrun : (l.forM removeChatCommand).run r with
    | error e r₁ =>
      -- the loop threw: the lists are as they were
      rw [after_of_error hrun] at hsub hlists
      refine h.of_sublist hsub (fun e _ k c hc _ => ?_)
      rwa [final_error, commandsOf, hlists]
    | ok u r₁ =>
      have hr₁ := removeChatCommands_ok l r r₁ hrun
      subst hr₁
      refine h.of_sublist List.filter_sublist (fun e he k c hc hn => ?_)
      have hk : k ≠ P.toLower addonName := by
        rintro rfl
        have hcl : c ∈ l := by simpa [commandsOf, hl] using hc
        have hno := (List.mem_filter.mp he).2
        simp only [Bool.not_eq_true', List.any_eq_false] at hno
        exact hno c hcl (by simp [Command.hasAlias, hn])
      simpa [commandsOf, AList.lookup_erase_ne hk] using hc

theorem drop (h : OwnCallbacks r) (key c : String) :
    OwnCallbacks (after (dropCommand key c) r) := by
  have hsub := removeChatCommand_sublist c r
  have hlists := removeChatCommand_addonCommands c r
  unfold after dropCommand
  simp only [EStateM.run_bind]
  cases hrun : (removeChatCommand c).run r with
  | error e r₁ =>
    rw [after_of_error hrun] at hsub hlists
    refine h.of_sublist hsub (fun e _ k d hd _ => ?_)
    rwa [final_error, commandsOf, hlists]
  | ok u r₁ =>
    have hr₁ := removeChatCommand_ok hrun
    subst hr₁
    simp only [EStateM.run_modify, final_ok]
    have hchat : ∀ r : Registry, (r.removeOwned key c).chatCommands = r.chatCommands := by
      intro r
      unfold Registry.removeOwned
      split <;> rfl
    refine h.of_sublist (by rw [hchat]; exact List.filter_sublist) (fun e he k d hd hn => ?_)
    rw [hchat] at he
    have hne : d ≠ c := by
      rintro rfl
      have := (List.mem_filter.mp he).2
      simp [Command.hasAlias, hn] at this
    exact mem_removeOwned hd hne

theorem step (h : OwnCallbacks r) (hs : RegistryStep P r r') : OwnCallbacks r' := by
  cases hs with
  | register addonName permission command => exact h.register addonName permission command
  | remove addonName => exact h.remove addonName
  | drop key c => exact h.drop key c

theorem steps (h : OwnCallbacks r) (hs : Relation.ReflTransGen (RegistryStep P) r r') :
    OwnCallbacks r' := by
  induction hs with
  | refl => exact h
  | tail _ hstep ih => exact ih.step hstep

end OwnCallbacks

/-! ## What a handler registers -/

/-- The commands that a script gets accepted when those in `owned` have an owner. -/
def Script.accepts (P : Platform) : Script H → (String → Bool) → List String
  | .done _ _, _ => []
  | .raise _, _ => []
  | .registerEvent _ _ next, owned => next.accepts P owned
  | .registerCommand name _ _ next, owned =>
    let command := P.toLower (P.luaToString name)
    if owned command then (next false).accepts P owned
    else command :: (next true).accepts P (fun c => c = command || owned c)
  | .assign _ _ next, owned => next.accepts P owned
  | .chatCommand _ _ _ _, _ => []

/-- The addon with the key `k` got the commands `cs` accepted. -/
structure Adds (k : String) (cs : List String) (r r' : Registry) : Prop where
  others : ∀ k' ≠ k, r'.addonCommands.lookup k' = r.addonCommands.lookup k'
  commands : r'.commandsOf k = r.commandsOf k ++ cs
  chatCommands : ∃ new, r'.chatCommands =
      r.chatCommands.filter (fun e => !cs.any (fun c => e.hasAlias c)) ++ new ∧
    new.map Command.names = cs.map (fun c => [c])
  nodup : cs.Nodup
  fresh : ∀ c ∈ cs, r.owned c = false

theorem Adds.nil (k : String) (r : Registry) : Adds k [] r r :=
  ⟨fun _ _ => rfl, by simp, ⟨[], by simp, by simp⟩, List.nodup_nil, by simp⟩

theorem Adds.keeps_names {cs : List String} {l : List Command} {e : Command}
    {c : String} (hn : e.names = [c]) (hc : c ∉ cs) :
    (l ++ [e]).filter (fun e => !cs.any (fun c => e.hasAlias c)) =
      l.filter (fun e => !cs.any (fun c => e.hasAlias c)) ++ [e] := by
  rw [List.filter_append]
  congr 1
  simp only [List.filter_cons, List.filter_nil]
  rw [if_pos]
  simp only [Bool.not_eq_true', List.any_eq_false, hasAlias_of_names_eq hn, decide_eq_true_eq]
  rintro d hd rfl
  exact hc hd

theorem owned_registerCommand {addonName permission command : String} {r : Registry}
    (h : r.owned (P.toLower command) = false) (c : String) :
    (registerCommand P addonName permission command r).2.owned c =
      (c = P.toLower command || r.owned c) := by
  rw [Bool.eq_iff_iff]
  simp only [owned_iff, mem_commandsOf_registerCommand h, Bool.or_eq_true, decide_eq_true_eq]
  constructor
  · rintro ⟨k, hk | ⟨-, rfl⟩⟩
    · exact Or.inr ⟨k, hk⟩
    · exact Or.inl rfl
  · rintro (rfl | ⟨k, hk⟩)
    · exact ⟨P.toLower addonName, Or.inr ⟨rfl, rfl⟩⟩
    · exact ⟨k, Or.inl hk⟩

/-- One registration before others. -/
theorem Adds.cons {addonName permission command : String} {cs : List String} {r r' : Registry}
    (h : r.owned (P.toLower command) = false)
    (hrest : Adds (P.toLower addonName) cs
      (registerCommand P addonName permission command r).2 r') :
    Adds (P.toLower addonName) (P.toLower command :: cs) r r' := by
  have hfresh : ∀ c ∈ cs, c ≠ P.toLower command ∧ r.owned c = false := by
    intro c hc
    have := hrest.fresh c hc
    rw [owned_registerCommand h] at this
    simpa using this
  have hno : P.toLower command ∉ cs := fun hc => (hfresh _ hc).1 rfl
  obtain ⟨new, hchat, hnew⟩ := hrest.chatCommands
  refine ⟨fun k hk => ?_, ?_, ?_, List.nodup_cons.mpr ⟨hno, hrest.nodup⟩, ?_⟩
  · rw [hrest.others k hk, registerCommand_accepted h]
    exact AList.lookup_insert_ne hk
  · rw [hrest.commands, commandsOf_registerCommand h, if_pos rfl, List.append_assoc]
    rfl
  · refine ⟨callbackCommand r.nextCommand permission (P.toLower command) :: new, ?_, ?_⟩
    · rw [hchat, registerCommand_accepted h]
      simp only
      rw [Adds.keeps_names rfl hno, List.filter_filter,
        List.append_assoc]
      congr 1
      apply List.filter_congr
      intro e _
      simp [Bool.and_comm]
    · simp [hnew, callbackCommand]
  · intro c hc
    rcases List.mem_cons.mp hc with rfl | hc
    · exact h
    · exact (hfresh c hc).2

section Handlers

variable {env : Env H} {nested : Nested H} {stack : CallStack} {a : AddonId}

theorem addonNewCommand_fileName (name permission : LuaString) (f : LuaFunction) (s : Plugin H) :
    ((after (addonNewCommand P a name permission f) s).objects a).fileName =
      (s.objects a).fileName := (addonNewCommand_luaOnly a name permission f s).fileName

theorem modifyLua_fileName (s : Plugin H) (a : AddonId) {f : LuaState H → LuaState H} :
    ((s.modifyAddon a (fun x => { x with luaState := x.luaState.map f })).objects a).fileName =
      (s.objects a).fileName := by
  simp [Plugin.modifyAddon]

/-- A script adds to the registry the commands it gets accepted. -/
theorem runScript_adds : ∀ (c : Script H) (s : Plugin H), c.Targets NoDelegate →
    Adds (P.toLower (s.objects a).fileName) (c.accepts P s.registry.owned) s.registry
      (after (runScript P nested stack a c) s).registry := by
  intro c
  induction c with
  | done heap values => exact fun s _ => Adds.nil _ _
  | raise heap => exact fun s _ => Adds.nil _ _
  | registerEvent name f next ih =>
    intro s hT
    rw [Script.accepts, ← modifyLua_fileName s a]
    exact ih (s.modifyAddon a _) hT
  | assign key value next ih =>
    intro s hT
    rw [Script.accepts, ← modifyLua_fileName s a]
    exact ih (s.modifyAddon a _) hT
  | chatCommand heap target args next ih => exact fun s hT => hT.1.elim
  | registerCommand name permission f next ih =>
    intro s hT
    obtain ⟨s', hrun, hreg⟩ := run_addonNewCommand (P := P) (a := a) name permission f s
    have hfile := addonNewCommand_fileName (P := P) (a := a) name permission f s
    have hafter : after (runScript P nested stack a (.registerCommand name permission f next)) s =
        after (runScript P nested stack a
          (next (!s.registry.owned (P.toLower (P.luaToString name))))) s' := by
      unfold after
      rw [runScript, EStateM.run_bind, hrun]
    rw [after_of_run hrun] at hfile
    rw [hafter, Script.accepts]
    cases ho : s.registry.owned (P.toLower (P.luaToString name)) with
    | true =>
      have hrest := ih false s' (hT _)
      rw [registerCommand_refused ho] at hreg
      rw [hfile, hreg] at hrest
      simpa [ho] using hrest
    | false =>
      have hrest := ih true s' (hT _)
      have howned : s'.registry.owned =
          fun c => decide (c = P.toLower (P.luaToString name)) || s.registry.owned c := by
        funext c
        rw [hreg, owned_registerCommand ho]
      rw [hfile, howned, hreg] at hrest
      have hcons : Adds (P.toLower (P.toLower (s.objects a).fileName)) _ s.registry _ :=
        Adds.cons ho (by rw [P.toLower_toLower]; exact hrest)
      rw [P.toLower_toLower] at hcons
      simpa [ho] using hcons

/-- The commands that the handler of an event gets accepted. -/
def handlerAccepts (P : Platform) (env : Env H) (a : AddonId) (event : String) (s : Plugin H) :
    List String :=
  match (s.objects a).luaState, (s.objects a).handler P LuaState.addonEvents event with
  | some L, some f => (env.call f L.heap []).accepts P s.registry.owned
  | _, _ => []

theorem invokeEvent_adds (henv : env.Targets NoDelegate) {event : String}
    (hdot : '.' ∉ event.toList) (s : Plugin H) :
    Adds (P.toLower (s.objects a).fileName) (handlerAccepts P env a event s) s.registry
      (after (invokeEvent P env nested stack a event []) s).registry := by
  unfold handlerAccepts
  cases hh : (s.objects a).handler P LuaState.addonEvents event with
  | none =>
    have hrun : (invokeEvent P env nested stack a event []).run s = .ok none s :=
      run_invoke_of_dotless hdot hh
    rw [after_of_run hrun]
    cases (s.objects a).luaState <;> exact Adds.nil _ _
  | some f =>
    obtain ⟨L, hL, hcall⟩ := registry_invokeEvent hh
    rw [hcall, hL]
    exact runScript_adds (env.call f L.heap [])
      { s with trace := .call a f [] stack :: s.trace } (henv.call f L.heap [])

end Handlers

/-! ## Removing the commands of an addon -/

/-- `RegisterCommand` made the chat command for the addon with the key `k`. -/
def Registry.createdFor (r : Registry) (k : String) (e : Command) : Bool :=
  e.isCallback && (r.commandsOf k).any (fun c => e.hasAlias c)

/-- A removal that does not throw takes out everything that answers to a command of the
addon. -/
theorem removeAddonCommands_ok {addonName : String} {r r' : Registry}
    (h : (removeAddonCommands P addonName).run r = .ok () r') :
    r'.addonCommands = r.addonCommands.erase (P.toLower addonName) ∧
      r'.chatCommands = r.chatCommands.filter
        (fun e => !(r.commandsOf (P.toLower addonName)).any (fun c => e.hasAlias c)) := by
  unfold removeAddonCommands at h
  simp only [EStateM.run_bind, EStateM.run_get] at h
  cases hl : r.addonCommands.lookup (P.toLower addonName) with
  | none =>
    rw [hl] at h
    cases h
    have hmem : P.toLower addonName ∉ r.addonCommands := AList.lookup_eq_none.mp hl
    refine ⟨?_, by simp [commandsOf, hl]⟩
    apply AList.ext
    exact (List.kerase_of_notMem_keys hmem).symm
  | some l =>
    rw [hl] at h
    simp only [EStateM.run_bind] at h
    cases hrun : (l.forM removeChatCommand).run r with
    | error e r₁ =>
      rw [hrun] at h
      cases h
    | ok u r₁ =>
      rw [hrun] at h
      cases h
      have hr₁ := removeChatCommands_ok l r r₁ hrun
      subst hr₁
      simp [commandsOf, hl]

/-- A removal does not throw when no command of the addon has two chat commands. -/
theorem run_removeAddonCommands_of_le {addonName : String} {r : Registry}
    (h : ∀ c ∈ r.commandsOf (P.toLower addonName),
      (r.chatCommands.filter (fun e => e.hasAlias c)).length ≤ 1) :
    ∃ r', (removeAddonCommands P addonName).run r = .ok () r' := by
  unfold removeAddonCommands
  simp only [EStateM.run_bind, EStateM.run_get]
  cases hl : r.addonCommands.lookup (P.toLower addonName) with
  | none => exact ⟨r, rfl⟩
  | some l =>
    obtain ⟨r', hrun⟩ := run_removeChatCommands_of_le l r (by simpa [commandsOf, hl] using h)
    simp only [EStateM.run_bind, hrun]
    exact ⟨_, rfl⟩

/-- New chat commands with one name each. -/
theorem length_filter_of_names {new : List Command} (c : String) : ∀ {cs : List String},
    new.map Command.names = cs.map (fun c => [c]) →
    (new.filter (fun e => e.hasAlias c)).length = cs.count c := by
  induction new with
  | nil =>
    intro cs h
    cases cs with
    | nil => rfl
    | cons d cs => cases h
  | cons e new ih =>
    intro cs h
    cases cs with
    | nil => cases h
    | cons d cs =>
      obtain ⟨hn, hrest⟩ := List.cons.inj h
      rw [List.filter_cons, List.count_cons, ← ih hrest, hasAlias_of_names_eq hn]
      by_cases hd : c = d
      · subst hd
        simp
      · simp [hd, Ne.symm hd]

/-- The removal after the registrations of the handler: it does not throw and takes out the
chat commands of the addon and nothing else exactly if every chat command that answers to one
of its names is a command of an addon. -/
theorem Adds.remove_iff {addonName : String} {cs : List String} {r r₁ : Registry}
    (ho : OwnCallbacks r) (hA : Adds (P.toLower addonName) cs r r₁) :
    (∃ r₂, (removeAddonCommands P addonName).run r₁ = .ok () r₂ ∧
      r₂.chatCommands =
        r.chatCommands.filter (fun e => !r.createdFor (P.toLower addonName) e)) ↔
    ∀ c ∈ r.commandsOf (P.toLower addonName) ++ cs, ∀ e ∈ r.chatCommands,
      e.hasAlias c = true → e.isCallback = true := by
  obtain ⟨new, hchat, hnew⟩ := hA.chatCommands
  -- everything that answers to a command of the addon is gone
  have hleft : ∀ r₂, (removeAddonCommands P addonName).run r₁ = .ok () r₂ → r₂.chatCommands =
      r.chatCommands.filter (fun e =>
        !(r.commandsOf (P.toLower addonName) ++ cs).any (fun c => e.hasAlias c)) := by
    intro r₂ h
    rw [(removeAddonCommands_ok h).2, hA.commands, hchat, List.filter_append, List.filter_filter]
    have hgone : new.filter (fun e =>
        !(r.commandsOf (P.toLower addonName) ++ cs).any (fun c => e.hasAlias c)) = [] := by
      rw [List.filter_eq_nil_iff]
      intro e he
      have hn : e.names ∈ cs.map (fun c => [c]) := hnew ▸ List.mem_map_of_mem he
      obtain ⟨c, hc, hec⟩ := List.mem_map.mp hn
      have hany : (r.commandsOf (P.toLower addonName) ++ cs).any (fun c => e.hasAlias c) = true :=
        List.any_eq_true.mpr ⟨c, List.mem_append_right _ hc, by simp [Command.hasAlias, ← hec]⟩
      simp [hany]
    rw [hgone, List.append_nil]
    apply List.filter_congr
    intro e _
    simp
  constructor
  · rintro ⟨r₂, hrun, hr₂⟩ c hc e he hec
    rw [hleft r₂ hrun] at hr₂
    by_contra hno
    have hin : e ∈ r.chatCommands.filter (fun e => !r.createdFor (P.toLower addonName) e) :=
      List.mem_filter.mpr ⟨he, by simp [createdFor, hno]⟩
    rw [← hr₂] at hin
    have := (List.mem_filter.mp hin).2
    simp only [Bool.not_eq_true', List.any_eq_false] at this
    exact this c hc hec
  · intro hcond
    obtain ⟨r₂, hrun⟩ : ∃ r₂, (removeAddonCommands P addonName).run r₁ = .ok () r₂ := by
      refine run_removeAddonCommands_of_le (fun c hc => ?_)
      rw [hA.commands] at hc
      rw [hchat, List.filter_append, List.length_append, length_filter_of_names c hnew]
      by_cases hcs : c ∈ cs
      · have hnone : (r.chatCommands.filter (fun e => !cs.any (fun c => e.hasAlias c))).filter
            (fun e => e.hasAlias c) = [] := by
          rw [List.filter_filter, List.filter_eq_nil_iff]
          intro e _
          by_cases hec : e.hasAlias c = true
          · have : cs.any (fun c => e.hasAlias c) = true := List.any_eq_true.mpr ⟨c, hcs, hec⟩
            simp [this]
          · simp [hec]
        rw [hnone, List.length_nil, Nat.zero_add]
        exact List.nodup_iff_count_le_one.mp hA.nodup c
      · rw [List.count_eq_zero.mpr hcs, Nat.add_zero]
        have hcall : r.chatCommands.filter (fun e => e.hasAlias c) =
            r.chatCommands.filter (fun e => e.isCallback && e.hasAlias c) := by
          apply List.filter_congr
          intro e he
          by_cases hec : e.hasAlias c = true
          · simp [hec, hcond c hc e he hec]
          · simp [hec]
        refine (length_filter_le_of_sublist List.filter_sublist).trans ?_
        rw [hcall]
        exact ho.unique c
    refine ⟨r₂, hrun, ?_⟩
    rw [hleft r₂ hrun]
    apply List.filter_congr
    intro e he
    congr 1
    rw [Bool.eq_iff_iff, createdFor, Bool.and_eq_true, List.any_eq_true, List.any_eq_true]
    constructor
    · rintro ⟨c, hc, hec⟩
      have hcall := hcond c hc e he hec
      obtain ⟨k, d, hd, hn⟩ := ho.owner e he hcall
      rw [hasAlias_of_names_eq hn, decide_eq_true_eq] at hec
      subst hec
      rcases List.mem_append.mp hc with hc | hc
      · exact ⟨hcall, c, hc, by simp [Command.hasAlias, hn]⟩
      · have hno := not_owned_iff.mp (hA.fresh c hc) k
        exact absurd hd hno
    · rintro ⟨-, c, hc, hec⟩
      exact ⟨c, List.mem_append_left _ hc, hec⟩

/-! ## Shared runs -/

/-- Other plugins add commands of their own, and remove and reorder what they like. -/
def OthersChange (l l' : List Command) : Prop :=
  (l'.filter Command.isCallback).Subperm (l.filter Command.isCallback)

/-- The states of a run in which other plugins change the chat commands between the operations
of this one. -/
inductive Shared (P : Platform) : Plugin H → Prop where
  | initial {s : Plugin H} (h : Initial s) : Shared P s
  | step {s : Plugin H} (h : Shared P s) (env : Env H) (n : Nat) (op : Op) (hop : op.Plain) :
      Shared P (after (op.run P env n) s)
  | reorder {s : Plugin H} (h : Shared P s) (addons : AList (fun _ : String => AddonId))
      (hperm : addons.entries.Perm s.addons.entries) : Shared P { s with addons := addons }
  | others {s : Plugin H} (h : Shared P s) (l : List Command)
      (hl : OthersChange s.registry.chatCommands l) :
      Shared P { s with registry := { s.registry with chatCommands := l } }

theorem OwnCallbacks.others {r : Registry} (h : OwnCallbacks r) {l : List Command}
    (hl : OthersChange r.chatCommands l) : OwnCallbacks { r with chatCommands := l } where
  owner e he hcall := by
    have hm : e ∈ l.filter Command.isCallback := List.mem_filter.mpr ⟨he, hcall⟩
    obtain ⟨k, c, hc, hn⟩ := h.owner e (List.mem_filter.mp (hl.subset hm)).1 hcall
    exact ⟨k, c, hc, hn⟩
  unique c := by
    have hle := (hl.filter (fun e => e.hasAlias c)).length_le
    rw [List.filter_filter, List.filter_filter] at hle
    have hcomm : ∀ e : Command, (e.hasAlias c && e.isCallback) = (e.isCallback && e.hasAlias c) :=
      fun e => Bool.and_comm _ _
    simp only [hcomm] at hle
    exact hle.trans (h.unique c)

theorem Shared.invariants {s : Plugin H} (h : Shared P s) :
    Keyed P s ∧ WellOwned P s.registry ∧ OwnCallbacks s.registry := by
  induction h with
  | initial h =>
    refine ⟨h.keyed, .empty h.addonCommands, ⟨fun e he hcall => ?_, fun c => ?_⟩⟩
    · exact absurd (by simpa [Command.isCallback] using hcall) (h.chatCommands e he).1
    · rw [List.filter_eq_nil_iff.mpr]
      · simp
      · intro e he
        simp [Command.isCallback, (h.chatCommands e he).1]
  | @step s _ env n op hop ih =>
    obtain ⟨hk, hw, ho⟩ := ih
    have hr := Op.run_keeps (grows_effects P) env.targets_true n hop s ⟨by simp, hk⟩
    exact ⟨hr.2.keyed, hw.steps hr.1.registry, ho.steps hr.1.registry⟩
  | reorder _ addons hperm ih => exact ⟨ih.1.reorder hperm, ih.2⟩
  | others _ l hl ih => exact ⟨ih.1, ih.2.1.congr rfl, ih.2.2.others hl⟩

/-! ## Unloading -/

/-- The addon with the key is gone from both dictionaries, its chat commands are gone, and
everything else in the two structures of the registry is as it was. -/
structure UnloadsOwn (key : String) (s s' : Plugin H) : Prop where
  addons : s'.addons = s.addons.erase key
  addonCommands : key ∉ s'.registry.addonCommands
  others : ∀ k ≠ key, s'.registry.addonCommands.lookup k = s.registry.addonCommands.lookup k
  chatCommands : s'.registry.chatCommands =
    s.registry.chatCommands.filter (fun e => !s.registry.createdFor key e)

/-- The unload of a loaded addon ends in the removal of its commands. -/
theorem run_unloadAddon {env : Env H} {nested : Nested H} {stack : CallStack} {a : AddonId}
    {addonName : String} {s : Plugin H} (hl : s.addons.lookup (P.toLower addonName) = some a) :
    (unloadAddon P env nested stack addonName).run s =
      (unloadFound P env nested stack (P.toLower addonName) addonName a).run s := by
  rw [unloadAddon, EStateM.run_bind, EStateM.run_get]
  simp only [hl]

/-- **An unload among other plugins.** In every state of a run in which other plugins change
the chat commands, for every loaded addon whose scripts call no chat command: `/addon unload`
ends without an exception, and takes out the addon, its list and its chat commands and nothing
else, exactly if every chat command that answers to a command of the addon, or to one that its
handler of `unload` gets accepted, calls back into an addon. -/
theorem unloadAddon_own_iff {s : Plugin H} (h : Shared P s) (n : Nat) {env : Env H}
    (henv : env.Targets NoDelegate) {addonName : String} {a : AddonId}
    (hl : s.addons.lookup (P.toLower addonName) = some a) :
    (∃ s', (unloadAddon P env (delegate P env n) [] addonName).run s = .ok () s' ∧
      UnloadsOwn (P.toLower addonName) s s') ↔
    ∀ c ∈ s.registry.commandsOf (P.toLower addonName) ++ handlerAccepts P env a "unload" s,
      ∀ e ∈ s.registry.chatCommands, e.hasAlias c = true → e.isCallback = true := by
  obtain ⟨hk, hw, ho⟩ := h.invariants
  have hkey := (hk _ a hl).2
  have hA : Adds (P.toLower addonName) (handlerAccepts P env a "unload" s) s.registry
      (after (invokeEvent P env (delegate P env n) [] a "unload" [])
        (s.unlisted (P.toLower addonName) a)).registry := by
    rw [hkey]
    exact invokeEvent_adds henv (by decide) (s.unlisted _ a)
  have hframe : Frame P a (s.unlisted (P.toLower addonName) a)
      (after (invokeEvent P env (delegate P env n) [] a "unload" [])
        (s.unlisted (P.toLower addonName) a)) := invokeEvent_frame henv "unload" [] _
  -- the removal is the last step, in the registry that the handler left
  obtain ⟨s₁, hrun, hregistry, haddons⟩ : ∃ s₁ : Plugin H,
      (unloadAddon P env (delegate P env n) [] addonName).run s =
          (onRegistry (removeAddonCommands P (P.toLower addonName))).run s₁ ∧
        s₁.registry = (after (invokeEvent P env (delegate P env n) [] a "unload" [])
          (s.unlisted (P.toLower addonName) a)).registry ∧
        s₁.addons = s.addons.erase (P.toLower addonName) :=
    ⟨_, (run_unloadAddon hl).trans (run_unloadFound _ _ s), rfl, hframe.addons⟩
  rw [← hregistry, ← P.toLower_toLower addonName] at hA
  have hiff := hA.remove_iff ho
  rw [P.toLower_toLower] at hA hiff
  rw [← hiff, hrun, onRegistry, run_zoom]
  constructor
  · rintro ⟨s', hs, hown⟩
    cases hr : (removeAddonCommands P (P.toLower addonName)).run s₁.registry with
    | error e r =>
      rw [hr] at hs
      cases hs
    | ok u r =>
      rw [hr] at hs
      cases hs
      exact ⟨r, rfl, hown.chatCommands⟩
  · rintro ⟨r, hr, hchat⟩
    obtain ⟨hcommands, -⟩ := removeAddonCommands_ok hr
    rw [P.toLower_toLower] at hcommands
    rw [hr]
    refine ⟨_, rfl, haddons, ?_, fun k hk => ?_, hchat⟩
    · rw [hcommands, AList.mem_erase]
      exact fun h => h.1 rfl
    · rw [hcommands, AList.lookup_erase_ne hk]
      exact hA.others k hk

/-- A command of another plugin. -/
def otherCommand (name : String) : Command where
  id := 0
  names := [name]
  permissions := []
  commandDelegate := .foreign 1

/-- `Foo` is loaded with its command `hello`, and another plugin adds a command. -/
def sharedState (name : String) : Plugin Unit :=
  { commandState "Hello" with registry := { (commandState "Hello").registry with
    chatCommands := (commandState "Hello").registry.chatCommands ++ [otherCommand name] } }

theorem shared_sharedState (name : String) : Shared asciiPlatform (sharedState name) := by
  refine ((Shared.initial initial_start).step (commandEnv "Hello") 0 (.load "Foo") trivial).others
    _ ?_
  unfold OthersChange
  rw [List.filter_append]
  have hnone : [otherCommand name].filter Command.isCallback = [] := rfl
  rw [hnone, List.append_nil]
  exact List.Subperm.refl _

/-- Unloading `Foo` next to a command `bye` of another plugin. -/
theorem foo_unloads_own :
    ∃ s', (unloadAddon asciiPlatform (commandEnv "Hello")
        (delegate asciiPlatform (commandEnv "Hello") 0) [] "Foo").run (sharedState "bye") =
          .ok () s' ∧ UnloadsOwn (asciiPlatform.toLower "Foo") (sharedState "bye") s' :=
  (unloadAddon_own_iff (a := 0) (shared_sharedState "bye") 0 (commandEnv_targets NoDelegate "Hello")
    (by decide +kernel)).mpr (by decide +kernel)

/-- With a second command `hello` the removal throws, and the unload stops half-way: `Foo` is
released and its command is still registered. -/
theorem unload_throws_next_to_hello :
    let x := unloadAddon asciiPlatform (commandEnv "Hello")
      (delegate asciiPlatform (commandEnv "Hello") 0) [] "Foo"
    Shared asciiPlatform (sharedState "hello") ∧
      (sharedState "hello").addons.lookup (asciiPlatform.toLower "Foo") = some 0 ∧
      outcome (x.run (sharedState "hello")) = .error .invalidOperation ∧
      (after x (sharedState "hello")).addons.lookup "foo" = none ∧
      (after x (sharedState "hello")).registry.commandsOf "foo" = ["hello"] := by
  intro x
  exact ⟨shared_sharedState "hello", by decide +kernel, by decide +kernel, by decide +kernel,
    by decide +kernel⟩

end LuaAddons
