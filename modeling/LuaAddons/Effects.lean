import LuaAddons.Growth
import LuaAddons.Ownership

/-!
# Relations kept by the methods of the plugin

An invariant over runs is proved from what the plugin does in one atomic step. `ScriptEffects`
lists the steps that happen while Lua code runs: writes to the tables of an addon, the error
state, messages, the trace of calls, registrations and the removal of commands. `Effects` adds
those of `/addon`, with a guard `G` for entering `Release` and one for the configurations that
are set. A relation that holds of these steps holds of every method, for arbitrary scripts
(`runScript_keeps`), nested delegates (`delegate_keeps`) and commands
(`handleAddonCommand_keeps`).

The relations are kept from `Valid` states. `Targets T` restricts the chat commands a script
may call to those whose delegate satisfies `T`.
-/

namespace LuaAddons

open Exec Lookup

variable {H : Type}

/-! ## The delegates a script may call -/

/-- The script calls only delegates that satisfy `T`. -/
def Script.Targets (T : CommandDelegate → Prop) : Script H → Prop
  | .done _ _ => True
  | .raise _ => True
  | .registerEvent _ _ next => next.Targets T
  | .registerCommand _ _ _ next => ∀ ok, (next ok).Targets T
  | .assign _ _ next => next.Targets T
  | .chatCommand _ target _ next => T target ∧ ∀ ok heap, (next ok heap).Targets T

structure Env.Targets (env : Env H) (T : CommandDelegate → Prop) : Prop where
  script : ∀ name body, env.script name = some body → body.Targets T
  call : ∀ f heap args, (env.call f heap args).Targets T

theorem Script.targets_true : ∀ c : Script H, c.Targets (fun _ => True)
  | .done _ _ => trivial
  | .raise _ => trivial
  | .registerEvent _ _ next => next.targets_true
  | .registerCommand _ _ _ next => fun ok => (next ok).targets_true
  | .assign _ _ next => next.targets_true
  | .chatCommand _ _ _ next => ⟨trivial, fun ok heap => (next ok heap).targets_true⟩

theorem Env.targets_true (env : Env H) : env.Targets (fun _ => True) :=
  ⟨fun _ body _ => body.targets_true, fun f heap args => (env.call f heap args).targets_true⟩

/-! ## Atomic steps -/

/-- The relation `R` holds of every step that Lua code can cause. -/
structure ScriptEffects (P : Platform) (R : CallStack → Plugin H → Plugin H → Prop) : Prop where
  preorder : ∀ stack, IsPreorder (Plugin H) (R stack)
  grows : ∀ {stack s s'}, R stack s s' → Grows P stack s s'
  outer : ∀ {a stack s s'}, R (a :: stack) s s' → R stack s s'
  lua : ∀ stack a (f : LuaState H → LuaState H),
    (∀ L, (f L).addonCommands.getD ∅ = L.addonCommands.getD ∅) → Keeps (R stack) (modifyLua a f)
  fail : ∀ stack a, Keeps (R stack) (modifyAddon a (fun x => { x with state := .error }))
  tell : ∀ stack m, Keeps (R stack) (tell m)
  call : ∀ stack a f args, Keeps (R stack) (emit (.call a f args stack))
  executed : ∀ stack target args commands,
    Keeps (R stack) (emit (.executed target args commands))
  store : ∀ stack a name f,
    Keeps (R stack) (modify (fun s => s.storeCommand a name f) : Method H Unit)
  registry : ∀ stack s (α : Type) (x : EStateM NetException Registry α),
    RegistryStep P s.registry (after x s.registry) → R stack s (after (onRegistry x) s)
  handled : ∀ stack b,
    Keeps (R stack) (modify (fun s => { s with handled := b }) : Method H Unit)

/-- The addons that `/addon` with these parameters releases when `loaded` are loaded. -/
def commandTargets (P : Platform) (loaded : List (Sigma fun _ : String => AddonId)) :
    List String → List AddonId
  | [] => []
  | subcommand :: rest =>
    let subcommand := P.toLower subcommand
    if (subcommand = "unload" ∨ subcommand = "reload") ∧ rest ≠ [] then
      (loaded.filter (fun e => e.1 = P.toLower (String.intercalate " " rest))).map Sigma.snd
    else if subcommand = "unloadall" then loaded.map Sigma.snd
    else []

/-- `/addon` with these parameters reads the configuration file. -/
def ReadsConfiguration (P : Platform) (parameters : List String) : Prop :=
  ∃ subcommand rest, parameters = subcommand :: rest ∧ P.toLower subcommand = "reloadcfg"

/-- The relation `R` holds of every step of the plugin, of entering `Release` under the guard `G`,
and of setting a configuration that satisfies `C`. -/
structure Effects (P : Platform) (R : CallStack → Plugin H → Plugin H → Prop)
    (G : CallStack → AddonId → Plugin H → Prop)
    (C : Option Configuration → Prop := fun _ => True) : Prop extends ScriptEffects P R where
  addon : ∀ stack s a (f : Addon H → Addon H),
    (f (s.objects a)).fileName = (s.objects a).fileName →
    ((f (s.objects a)).luaState = (s.objects a).luaState ∨ (f (s.objects a)).luaState = none) →
    R stack s (s.modifyAddon a f)
  start : ∀ stack a (L : LuaState H), L.addonCommands = none →
    Keeps (R stack) (modify (fun s => s.startLua a L) : Method H Unit)
  initialized : ∀ stack a t, Keeps (R stack) (emit (.initialized a t))
  removed : ∀ stack a, Keeps (R stack) (emit (.removed a))
  command : ∀ stack parameters loaded, Keeps (R stack) (emit (.command parameters loaded stack))
  release : ∀ stack a s, G stack a s → R stack s (after (emit (.release a stack)) s)
  erase : ∀ stack k,
    Keeps (R stack) (modify (fun s => { s with addons := s.addons.erase k }) : Method H Unit)
  configuration : ∀ stack c, C c →
    Keeps (R stack) (modify (fun s => { s with configuration := c }) : Method H Unit)
  create : ∀ stack s name, R stack s (s.create name)
  tryAdd : ∀ {stack s s' k a}, R stack s s' → s.nextAddon ≤ a → a < s'.nextAddon →
    k = P.toLower (s'.objects a).fileName → R stack s (s'.tryAdd k a)
  guard_mono : ∀ {stack stack' a s s'}, R stack' s s' → G stack a s → G stack a s'
  guard_fresh : ∀ {stack a s}, a ∉ stack → G stack a s
  guard_command : ∀ stack parameters a s, a ∈ commandTargets P s.addons.entries parameters →
    G stack a (after (emit (.command parameters s.addons.entries stack)) s)

/-- The nested calls of the delegates in `T` keep `R`. -/
def NestedKeeps (P : Platform) (R : CallStack → Plugin H → Plugin H → Prop)
    (T : CommandDelegate → Prop) (nested : Nested H) : Prop :=
  ∀ stack d args, T d → Keeps (On (Valid P stack) (R stack)) (nested stack d args)

section Walk

variable {P : Platform} {R : CallStack → Plugin H → Plugin H → Prop}
  {T : CommandDelegate → Prop} {env : Env H} {nested : Nested H}

/-! ## Scripts and calls -/

section Scripts

variable (h : ScriptEffects P R) (hn : NestedKeeps P R T nested) (henv : env.Targets T)

include h

theorem ScriptEffects.keeps_on {α : Type} {stack stack' : CallStack} {x : Method H α}
    (hx : Keeps (R stack') x) : Keeps (On (Valid P stack) (R stack')) x :=
  hx.on (fun _ _ hv hr => hv.grows (h.grows hr))

theorem ScriptEffects.keeps_getAddon (stack : CallStack) (a : AddonId) :
    Keeps (R stack) (getAddon a : Method H (Addon H)) := by
  have := h.preorder stack
  exact keeps_bind keeps_get (fun _ => keeps_pure _)

theorem emitExecuted_keeps (stack : CallStack) (target : CommandDelegate) (args : CommandArgs) :
    Keeps (R stack) (emitExecuted (H := H) target args) :=
  keeps_get_bind (fun s => h.executed stack target args s.registry.addonCommands.entries s)

theorem ScriptEffects.keeps_liftExcept {α : Type} (stack : CallStack)
    (x : Except NetException α) : Keeps (R stack) (liftExcept x : Method H α) := by
  have := h.preorder stack
  cases x with
  | ok a => exact keeps_pure a
  | error e => exact keeps_throw e

theorem addonNewCommand_keeps (stack : CallStack) (a : AddonId) (name permission : LuaString)
    (f : LuaFunction) : Keeps (R stack) (addonNewCommand P a name permission f) := by
  have := h.preorder stack
  refine keeps_bind (h.lua stack a _ (fun L => rfl)) (fun _ => ?_)
  refine keeps_bind (h.keeps_getAddon stack a) (fun x => ?_)
  refine keeps_bind (fun s => h.registry stack s _ _ (.register _ _ _ _)) (fun ok => ?_)
  cases ok with
  | true => exact keeps_bind (h.store stack a name f) (fun _ => keeps_pure _)
  | false => exact keeps_bind (keeps_pure _) (fun _ => keeps_pure _)

include hn

theorem runScript_keeps (stack : CallStack) (a : AddonId) : ∀ c : Script H, c.Targets T →
    Keeps (On (Valid P stack) (R stack)) (runScript P nested stack a c) := by
  have := h.preorder stack
  have hlua : ∀ f : LuaState H → LuaState H,
      (∀ L, (f L).addonCommands.getD ∅ = L.addonCommands.getD ∅) →
      Keeps (On (Valid P stack) (R stack)) (modifyLua a f) :=
    fun f hf => h.keeps_on (h.lua stack a f hf)
  intro c
  induction c with
  | done heap values =>
    intro _
    exact keeps_bind (hlua _ (fun _ => rfl)) (fun _ => keeps_pure _)
  | raise heap =>
    intro _
    exact keeps_bind (hlua _ (fun _ => rfl)) (fun _ => keeps_throw _)
  | registerEvent name f next ih =>
    intro hT
    exact keeps_bind (hlua _ (fun _ => rfl)) (fun _ => ih hT)
  | registerCommand name permission f next ih =>
    intro hT
    exact keeps_bind (h.keeps_on (addonNewCommand_keeps h stack a name permission f))
      (fun ok => ih ok (hT ok))
  | assign key value next ih =>
    intro hT
    exact keeps_bind (hlua _ (fun _ => rfl)) (fun _ => ih hT)
  | chatCommand heap target args next ih =>
    intro hT
    refine keeps_bind (hlua _ (fun _ => rfl)) (fun _ => ?_)
    refine keeps_bind (h.keeps_on (emitExecuted_keeps h stack target args)) (fun _ => ?_)
    refine keeps_bind (keeps_tryCatch ?_ (fun _ => keeps_pure _)) (fun ok => ?_)
    · exact keeps_bind (hn stack target args hT.1) (fun _ => keeps_pure _)
    · exact keeps_bind (h.keeps_on (h.keeps_getAddon stack a))
        (fun x => ih ok _ (hT.2 ok _))

include henv

theorem callFunction_keeps (stack : CallStack) (a : AddonId) (L : LuaState H) (f : LuaFunction)
    (args : List NetObject) : Keeps (On (Valid P (a :: stack)) (R stack))
      (callFunction P env nested stack a L f args) := by
  have := h.preorder stack
  refine keeps_bind (h.keeps_on (h.call stack a f args)) (fun _ => ?_)
  refine keeps_bind ?_ (fun _ => keeps_pure _)
  exact (runScript_keeps h hn (a :: stack) a _ (henv.call f L.heap args)).mono
    (fun s s' hr hv => ⟨h.outer (hr hv).1, (hr hv).2⟩)

theorem invoke_keeps (stack : CallStack) (a : AddonId)
    (table : LuaState H → Option FunctionTable) (what name : String) (args : List NetObject) :
    Keeps (On (Valid P (a :: stack)) (R stack))
      (invoke P env nested stack a table what name args) := by
  have := h.preorder stack
  have hget : Keeps (On (Valid P (a :: stack)) (R stack)) (getAddon a) :=
    h.keeps_on (h.keeps_getAddon stack a)
  refine keeps_bind hget (fun x => ?_)
  cases x.luaState with
  | none => exact keeps_pure _
  | some L =>
    dsimp only
    split
    · exact keeps_pure _
    · refine keeps_tryCatch ?_ (fun ex => ?_)
      · cases table L with
        | none => exact keeps_pure _
        | some t =>
          refine keeps_bind (h.keeps_on (h.keeps_liftExcept stack _)) (fun f => ?_)
          cases f with
          | none => exact keeps_pure _
          | some f => exact callFunction_keeps h hn henv stack a L f args
      · refine keeps_bind hget (fun y => ?_)
        refine keeps_bind (h.keeps_on (h.tell stack _)) (fun _ => ?_)
        exact keeps_bind (h.keeps_on (h.fail stack a)) (fun _ => keeps_pure _)

theorem invokeEvent_keeps (stack : CallStack) (a : AddonId) (name : String)
    (args : List NetObject) : Keeps (On (Valid P (a :: stack)) (R stack))
      (invokeEvent P env nested stack a name args) :=
  invoke_keeps h hn henv stack a _ _ _ _

theorem invokeCommand_keeps (stack : CallStack) (a : AddonId) (name : String)
    (args : CommandArgs) : Keeps (On (Valid P (a :: stack)) (R stack))
      (invokeCommand P env nested stack a name args) := by
  have := h.preorder stack
  exact keeps_bind (invoke_keeps h hn henv stack a _ _ _ _) (fun _ => keeps_pure _)

/-- The command is in the list it was found in, so the drop is a step of the registry. -/
theorem handleAddonCallbackCommand_keeps (stack : CallStack) (args : CommandArgs) :
    Keeps (On (Valid P stack) (R stack)) (handleAddonCallbackCommand P env nested stack args) := by
  have := h.preorder stack
  refine keeps_get_bind (fun s => ?_)
  cases howner : singleOrDefault NetException.invalidOperation
      (fun c => c.2.contains (P.toLower (firstWord ' ' args.message)))
      s.registry.addonCommands.entries with
  | error e => exact refl_of (On (Valid P stack) (R stack)) s
  | ok o =>
    cases o with
    | none => exact refl_of (On (Valid P stack) (R stack)) s
    | some owner =>
      dsimp only
      cases haddon : singleOrDefault NetException.invalidOperation
          (fun a => P.compareIgnoreCase a.1 owner.1) s.addons.entries with
      | error e => exact refl_of (On (Valid P stack) (R stack)) s
      | ok o =>
        cases o with
        | none =>
          intro hv
          have hmem := singleOrDefault_mem howner
          have hc : P.toLower (firstWord ' ' args.message) ∈ s.registry.commandsOf owner.1 :=
            Registry.mem_commandsOf_iff.mpr
              ⟨owner.2, AList.mem_lookup_iff.mpr hmem.1, by simpa using hmem.2⟩
          have hr := h.registry stack s _ _ (.drop owner.1 _ _ hc)
          exact ⟨hr, hv.grows (h.grows hr)⟩
        | some found =>
          intro hv
          have hmem := (singleOrDefault_mem haddon).1
          have hl : s.addons.lookup found.1 = some found.2 := AList.mem_lookup_iff.mpr hmem
          have := invokeCommand_keeps h hn henv stack found.2
            (P.toLower (firstWord ' ' args.message)) args s (hv.loaded hl)
          exact ⟨this.1, hv.grows (h.grows this.1)⟩

omit hn henv in
/-- A loop over entries whose addons have been made. -/
theorem ScriptEffects.keeps_entries {f : (Sigma fun _ : String => AddonId) → Method H Unit}
    {stack : CallStack} {l : List (Sigma fun _ : String => AddonId)} {s : Plugin H}
    (hl : ∀ e ∈ l, e.2 < s.nextAddon)
    (hf : ∀ e ∈ l, Keeps (On (Valid P (e.2 :: stack)) (R stack)) (f e)) :
    On (Valid P stack) (R stack) s (after (l.forM f) s) := by
  intro hv
  have := h.preorder stack
  have hloop : Keeps (On (Valid P (l.map Sigma.snd ++ stack)) (R stack)) (l.forM f) := by
    refine keeps_forM (fun e he => (hf e he).strengthen (fun s hs => ?_)
      (fun _ _ hs hr => hs.grows (h.grows hr)))
    refine ⟨fun b hb => hs.below b ?_, hs.keyed⟩
    rcases List.mem_cons.mp hb with rfl | hb
    · exact List.mem_append_left _ (List.mem_map_of_mem he)
    · exact List.mem_append_right _ hb
  have hr := (hloop s ⟨fun b hb => ?_, hv.keyed⟩).1
  · exact ⟨hr, hv.grows (h.grows hr)⟩
  · rcases List.mem_append.mp hb with hb | hb
    · obtain ⟨e, he, rfl⟩ := List.mem_map.mp hb
      exact hl e he
    · exact hv.below b hb

omit h hn henv in
theorem Valid.entries {stack : CallStack} {s : Plugin H} (hv : Valid P stack s) :
    ∀ e ∈ s.addons.entries, e.2 < s.nextAddon :=
  fun e he => (hv.keyed e.1 e.2 (AList.mem_lookup_iff.mpr he)).1

theorem forEachInvoke_keeps (stack : CallStack) (event : String) (args : List NetObject) :
    Keeps (On (Valid P stack) (R stack)) (forEachInvoke P env nested stack event args) := by
  have := h.preorder stack
  refine keeps_get_bind (fun s hv => h.keeps_entries hv.entries (fun e _ => ?_) hv)
  exact keeps_bind (invokeEvent_keeps h hn henv stack e.2 event args) (fun _ => keeps_pure _)

omit hn henv in
theorem handleResult_keeps (stack : CallStack) (ret : Option (List NetObject)) :
    Keeps (R stack) (handleResult (H := H) P ret) := by
  have := h.preorder stack
  unfold handleResult
  split
  · exact keeps_pure _
  · exact keeps_pure _
  · refine keeps_bind (h.keeps_liftExcept stack _) (fun text => ?_)
    split
    · exact h.handled stack true
    · exact keeps_pure _

theorem onHandled_keeps (stack : CallStack) (event : String)
    (args : Except NetException (List NetObject)) :
    Keeps (On (Valid P stack) (R stack)) (onHandled P env nested stack event args) := by
  have := h.preorder stack
  refine keeps_get_bind (fun s hv => h.keeps_entries hv.entries (fun e _ => ?_) hv)
  refine keeps_bind (h.keeps_on (h.keeps_liftExcept stack _)) (fun args => ?_)
  refine keeps_bind (invokeEvent_keeps h hn henv stack e.2 event args) (fun ret => ?_)
  exact h.keeps_on (handleResult_keeps h stack ret)

omit hn henv in
theorem listAddons_keeps (stack : CallStack) : Keeps (R stack) (listAddons : Method H Unit) := by
  have := h.preorder stack
  refine keeps_get_bind (fun s => keeps_forM (R := R stack) (fun e _ => ?_) s)
  exact keeps_bind (h.keeps_getAddon stack e.2) (fun x => h.tell stack _)

omit hn henv in
theorem addonUsage_keeps (stack : CallStack) (args : CommandArgs) :
    Keeps (R stack) (addonUsage args : Method H Unit) := by
  have := h.preorder stack
  iterate 5 refine keeps_bind (h.tell stack _) (fun _ => ?_)
  split
  · exact h.tell stack _
  · exact keeps_pure _

end Scripts

/-! ## Release and Initialize -/

/-- `a` may be released inside the calls `stack`. -/
def Ready (P : Platform) (G : CallStack → AddonId → Plugin H → Prop) (stack : CallStack)
    (a : AddonId) (s : Plugin H) : Prop := Valid P (a :: stack) s ∧ G stack a s

section Commands

variable {G : CallStack → AddonId → Plugin H → Prop} {C : Option Configuration → Prop}
  (h : Effects P R G C)
  (hn : NestedKeeps P R T nested) (henv : env.Targets T)

include h

theorem Effects.ready_mono {stack : CallStack} {a : AddonId} (s s' : Plugin H)
    (hs : Ready P G stack a s) (hr : R stack s s') : Ready P G stack a s' :=
  ⟨hs.1.grows (h.grows hr), h.guard_mono hr hs.2⟩

theorem Effects.keeps_ready {α : Type} {stack : CallStack} {a : AddonId} {x : Method H α}
    (hx : Keeps (R stack) x) : Keeps (On (Ready P G stack a) (R stack)) x :=
  hx.on (h.ready_mono)

theorem Effects.keeps_addon (stack : CallStack) (a : AddonId) {f : Addon H → Addon H}
    (hfile : ∀ x, (f x).fileName = x.fileName)
    (hlua : ∀ x, (f x).luaState = x.luaState ∨ (f x).luaState = none) :
    Keeps (R stack) (modifyAddon a f) :=
  keeps_modify (fun s => h.addon stack s a f (hfile _) (hlua _))

theorem release_keeps (stack : CallStack) (a : AddonId) :
    Keeps (On (Ready P G stack a) (R stack)) (release env stack a) := by
  have := h.preorder stack
  refine keeps_bind (fun s hs => ?_) (fun _ => ?_)
  · have hr := h.release stack a s hs.2
    exact ⟨hr, h.ready_mono s _ hs hr⟩
  · refine keeps_bind (h.keeps_ready (h.keeps_getAddon stack a)) (fun x => ?_)
    split
    · exact h.keeps_ready (h.keeps_addon stack a (fun _ => rfl) (fun _ => Or.inl rfl))
    · exact h.keeps_ready (h.keeps_addon stack a (fun _ => rfl) (fun _ => Or.inr rfl))

theorem readInfos_keeps (stack : CallStack) (a : AddonId) :
    Keeps (R stack) (readInfos P a : Method H Unit) := by
  have := h.preorder stack
  have hlift := fun x : Except NetException String => h.keeps_liftExcept stack x
  refine keeps_bind (h.keeps_getAddon stack a) (fun x => ?_)
  refine keeps_bind (hlift _) (fun author => ?_)
  refine keeps_bind (h.keeps_addon stack a (fun _ => rfl) (fun _ => Or.inl rfl)) (fun _ => ?_)
  refine keeps_bind (hlift _) (fun name => ?_)
  refine keeps_bind (h.keeps_addon stack a (fun _ => rfl) (fun _ => Or.inl rfl)) (fun _ => ?_)
  refine keeps_bind (hlift _) (fun version => ?_)
  refine keeps_bind (h.keeps_addon stack a (fun _ => rfl) (fun _ => Or.inl rfl)) (fun _ => ?_)
  exact h.initialized stack a _

include hn henv

theorem runFile_keeps (stack : CallStack) (a : AddonId) (name : String) :
    Keeps (On (Ready P G stack a) (R stack)) (runFile P env nested stack a name) := by
  have := h.preorder stack
  refine keeps_bind (h.keeps_ready (h.start stack a _ rfl)) (fun _ => ?_)
  cases hbody : env.script name with
  | none => exact keeps_throw _
  | some body =>
    have hrun : Keeps (On (Ready P G stack a) (R stack))
        (runScript P nested (a :: stack) a body) := by
      intro s hs
      have hr := h.outer (runScript_keeps h.toScriptEffects hn (a :: stack) a body
        (henv.script name body hbody) s hs.1).1
      exact ⟨hr, h.ready_mono s _ hs hr⟩
    exact keeps_bind hrun (fun _ => keeps_pure _)

theorem startAddon_keeps (stack : CallStack) (a : AddonId) (name : String) :
    Keeps (On (Ready P G stack a) (R stack)) (startAddon P env nested stack a name) := by
  have := h.preorder stack
  refine keeps_tryCatch ?_ (fun ex => ?_)
  · refine keeps_bind (runFile_keeps h hn henv stack a name) (fun _ => ?_)
    exact keeps_bind (h.keeps_ready (readInfos_keeps h stack a)) (fun _ => keeps_pure _)
  · refine keeps_bind (h.keeps_ready (h.tell stack _)) (fun _ => ?_)
    refine keeps_bind (release_keeps h stack a) (fun _ => ?_)
    exact keeps_bind (h.keeps_ready (h.fail stack a)) (fun _ => keeps_pure _)

/-- `Initialize` under the file name the addon has. -/
theorem initializeAddon_keeps (stack : CallStack) (a : AddonId) (name : String) :
    Keeps (On (fun s => Ready P G stack a s ∧ (s.objects a).fileName = name) (R stack))
      (initializeAddon P env nested stack a name) := by
  have := h.preorder stack
  have hmono : ∀ s s' : Plugin H, Ready P G stack a s ∧ (s.objects a).fileName = name →
      R stack s s' → Ready P G stack a s' ∧ (s'.objects a).fileName = name := by
    intro s s' hs hr
    exact ⟨h.ready_mono s s' hs.1 hr, by rw [(h.grows hr).fileName a hs.1.1.head]; exact hs.2⟩
  refine keeps_bind ((h.keeps_getAddon stack a).on hmono) (fun x => ?_)
  have hloading : Keeps (On (fun s => Ready P G stack a s ∧ (s.objects a).fileName = name)
      (R stack)) (modifyAddon a (fun x => { x with state := .loading, fileName := name })) := by
    intro s hs
    have hr := h.addon stack s a (fun x => { x with state := .loading, fileName := name })
      hs.2.symm (Or.inl rfl)
    exact ⟨hr, hmono s _ hs hr⟩
  have hrest := keeps_bind hloading (fun _ =>
    (startAddon_keeps h hn henv stack a name).strengthen (fun _ hs => hs.1) hmono)
  cases hL : x.luaState.isSome with
  | true =>
    simp only [if_true]
    exact keeps_bind ((release_keeps h stack a).strengthen (fun _ hs => hs.1) hmono)
      (fun _ => hrest)
  | false =>
    simp only [Bool.false_eq_true, if_false]
    exact hrest

theorem reload_keeps (stack : CallStack) (a : AddonId) :
    Keeps (On (Ready P G stack a) (R stack)) (reload P env nested stack a) := by
  have := h.preorder stack
  refine keeps_tryCatch ?_ (fun ex => ?_)
  · refine keeps_bind (h.keeps_ready (h.keeps_addon stack a (fun _ => rfl)
      (fun _ => Or.inl rfl))) (fun _ => ?_)
    refine keeps_bind (release_keeps h stack a) (fun _ => ?_)
    refine keeps_get_bind (fun s hs => ?_)
    have hr := (initializeAddon_keeps h hn henv stack a (s.objects a).fileName s ⟨hs, rfl⟩).1
    exact ⟨hr, h.ready_mono s _ hs hr⟩
  · exact keeps_bind (h.keeps_ready (h.fail stack a)) (fun _ => keeps_pure _)

theorem invokeEvent_ready (stack : CallStack) (a : AddonId) (name : String)
    (args : List NetObject) : Keeps (On (Ready P G stack a) (R stack))
      (invokeEvent P env nested stack a name args) :=
  (invokeEvent_keeps h.toScriptEffects hn henv stack a name args).strengthen
    (fun _ hs => hs.1) h.ready_mono

/-! ## Loading and unloading -/

omit h hn henv in
/-- `LoadAddon` for a name that is not loaded starts the script in a new object. -/
theorem run_loadAddon_of_none {stack : CallStack} {name : String} {s : Plugin H}
    (hl : s.addons.lookup (P.toLower name) = none) :
    (loadAddon P env nested stack name).run s =
      (do
        let ok ← startAddon P env nested stack s.nextAddon name
        if ok then
          discard (invokeEvent P env nested stack s.nextAddon "load" [])
          modify (fun s' => s'.tryAdd (P.toLower name) s.nextAddon)
          pure (some s.nextAddon)
        else pure none : Method H (Option AddonId)).run (s.create name) := by
  have hinit : (initializeAddon P env nested stack s.nextAddon name).run
        (({ s with nextAddon := s.nextAddon + 1 } : Plugin H).modifyAddon s.nextAddon
          (fun _ => Addon.new)) =
      (startAddon P env nested stack s.nextAddon name).run (s.create name) := by
    simp [initializeAddon, getAddon, Plugin.modifyAddon, Addon.new, Plugin.create, modifyAddon]
  unfold loadAddon
  simp only [EStateM.run_bind, EStateM.run_get, hl, EStateM.run_modify, modifyAddon]
  rw [hinit]
  rfl

theorem loadAddon_keeps (stack : CallStack) (name : String) :
    Keeps (On (Valid P stack) (R stack)) (loadAddon P env nested stack name) := by
  have := h.preorder stack
  intro s hv
  cases hl : s.addons.lookup (P.toLower name) with
  | some a =>
    have hrun : after (loadAddon P env nested stack name) s = s := by
      simp [after, loadAddon, hl]
    rw [hrun]
    exact refl_of (On (Valid P stack) (R stack)) s hv
  | none =>
    have hcreate := h.create stack s name
    have hready : Ready P G stack s.nextAddon (s.create name) :=
      ⟨(hv.grows (h.grows hcreate)).cons (Nat.lt_succ_self _),
        h.guard_fresh (fun hm => absurd (hv.below _ hm) (lt_irrefl _))⟩
    suffices hr : R stack s (after (loadAddon P env nested stack name) s) from
      ⟨hr, hv.grows (h.grows hr)⟩
    unfold after
    rw [run_loadAddon_of_none hl, EStateM.run_bind]
    have hstart := startAddon_keeps h hn henv stack s.nextAddon name (s.create name) hready
    unfold after at hstart
    cases hs : (startAddon P env nested stack s.nextAddon name).run (s.create name) with
    | error e s₁ =>
      rw [hs] at hstart
      exact trans_of (R stack) hcreate hstart.1
    | ok ok s₁ =>
      rw [hs] at hstart
      cases ok with
      | false => exact trans_of (R stack) hcreate hstart.1
      | true =>
        have hload := keeps_bind (f := fun _ => pure PUnit.unit)
          (invokeEvent_ready h hn henv stack s.nextAddon "load" []) (fun _ => keeps_pure _)
          s₁ hstart.2
        have hall := trans_of (R stack) hcreate (trans_of (R stack) hstart.1 hload.1)
        have hlt : s.nextAddon < (s.create name).nextAddon := Nat.lt_succ_self _
        have hname : ((s.create name).objects s.nextAddon).fileName = name := by
          simp [Plugin.create]
        have hg := h.grows (trans_of (R stack) hstart.1 hload.1)
        simp only [if_true]
        rw [EStateM.run_bind]
        change R stack _ (after (discard _) s₁) at hall
        change Grows P stack _ (after (discard _) s₁) at hg
        unfold after at hall hg
        cases hd : (discard (invokeEvent P env nested stack s.nextAddon "load" [])).run s₁ with
        | error e s₂ => rw [hd] at hall; exact hall
        | ok u s₂ =>
          rw [hd] at hall hg
          refine h.tryAdd hall le_rfl (hlt.trans_le hg.nextAddon) ?_
          rw [final_ok] at hg
          rw [hg.fileName _ hlt, hname]

theorem loadCommand_keeps (stack : CallStack) (addonName : String) :
    Keeps (On (Valid P stack) (R stack)) (loadCommand P env nested stack addonName) := by
  have := h.preorder stack
  refine keeps_bind (loadAddon_keeps h hn henv stack addonName) (fun o => ?_)
  cases o with
  | none => exact h.keeps_on (h.tell stack _)
  | some a => exact h.keeps_on (keeps_bind (h.keeps_getAddon stack a) (fun x => h.tell stack _))

theorem unloadFound_keeps (stack : CallStack) (key shown : String) (a : AddonId) :
    Keeps (On (Ready P G stack a) (R stack)) (unloadFound P env nested stack key shown a) := by
  have := h.preorder stack
  refine keeps_bind (h.keeps_ready (h.erase stack key)) (fun _ => ?_)
  refine keeps_bind (h.keeps_ready (h.removed stack a)) (fun _ => ?_)
  refine keeps_bind (keeps_bind (invokeEvent_ready h hn henv stack a "unload" [])
    (fun _ => keeps_pure _)) (fun _ => ?_)
  refine keeps_bind (release_keeps h stack a) (fun _ => ?_)
  refine keeps_bind (h.keeps_ready (h.tell stack _)) (fun _ => ?_)
  exact h.keeps_ready (fun s => h.registry stack s _ _ (.remove _ _))

/-- The addons found by `unloadall` after the command was entered may be released: they were
loaded then, or they are new. -/
theorem unloadAll_keeps (stack : CallStack) :
    Keeps (On (fun s => Valid P stack s ∧ ∀ k a, s.addons.lookup k = some a → G stack a s)
      (R stack)) (unloadAll P env nested stack) := by
  have := h.preorder stack
  have hmono : ∀ s s' : Plugin H,
      (Valid P stack s ∧ ∀ k a, s.addons.lookup k = some a → G stack a s) → R stack s s' →
      Valid P stack s' ∧ ∀ k a, s'.addons.lookup k = some a → G stack a s' := by
    intro s s' hs hr
    refine ⟨hs.1.grows (h.grows hr), fun k a hl => ?_⟩
    rcases (h.grows hr).loaded k a hl with hl | ⟨hfresh, -, -⟩
    · exact h.guard_mono hr (hs.2 k a hl)
    · exact h.guard_fresh (fun hm => absurd (hs.1.below a hm) (Nat.not_lt.mpr hfresh))
  refine keeps_get_bind (fun s hs => ?_)
  refine keeps_forM (R := On (fun s => Valid P stack s ∧
    ∀ k a, s.addons.lookup k = some a → G stack a s) (R stack)) (fun k _ => ?_) s hs
  refine keeps_get_bind (fun s hs => ?_)
  cases hl : s.addons.lookup k with
  | none => exact ⟨refl_of (R stack) s, hs⟩
  | some a =>
    have hr := (unloadFound_keeps h hn henv stack k k a s ⟨hs.1.loaded hl, hs.2 k a hl⟩).1
    exact ⟨hr, hmono s _ hs hr⟩

/-- `unload` and `reload` for an addon that may be released. -/
theorem unloadAddon_keeps (stack : CallStack) (addonName : String) (s : Plugin H)
    (hv : Valid P stack s)
    (hg : ∀ a, s.addons.lookup (P.toLower addonName) = some a → G stack a s) :
    R stack s (after (unloadAddon P env nested stack addonName) s) := by
  have := h.preorder stack
  rw [unloadAddon, after_get_bind]
  cases hl : s.addons.lookup (P.toLower addonName) with
  | none => exact h.tell stack _ s
  | some a => exact (unloadFound_keeps h hn henv stack _ _ a s ⟨hv.loaded hl, hg a hl⟩).1

theorem reloadAddon_keeps (stack : CallStack) (addonName : String) (s : Plugin H)
    (hv : Valid P stack s)
    (hg : ∀ a, s.addons.lookup (P.toLower addonName) = some a → G stack a s) :
    R stack s (after (reloadAddon P env nested stack addonName) s) := by
  have := h.preorder stack
  rw [reloadAddon, after_get_bind]
  cases hl : s.addons.lookup (P.toLower addonName) with
  | none => exact refl_of (R stack) s
  | some a =>
    have hevent := fun name => keeps_bind (f := fun _ => pure PUnit.unit)
      (invokeEvent_ready h hn henv stack a name []) (fun _ => keeps_pure _)
    have hall := keeps_bind (hevent "unload") (fun _ =>
      keeps_bind (h.keeps_ready (a := a) (fun s => h.registry stack s _ _
        (.remove (P.toLower addonName) _))) (fun _ =>
      keeps_bind (keeps_bind (f := fun _ => pure PUnit.unit) (reload_keeps h hn henv stack a)
        (fun _ => keeps_pure _)) (fun _ =>
      keeps_bind (hevent "load") (fun _ =>
      h.keeps_ready (h.tell stack (.server ("[Addons] Reloaded addon '" ++ addonName ++ "'!")))))))
    exact (hall s ⟨hv.loaded hl, hg a hl⟩).1

/-- The subcommands, when the addons they are about to release may be released. -/
theorem addonSubcommand_keeps (stack : CallStack) (args : CommandArgs)
    (hc : ReadsConfiguration P args.parameters → C env.parseConfiguration) (s : Plugin H)
    (hv : Valid P stack s)
    (hg : ∀ a ∈ commandTargets P s.addons.entries args.parameters, G stack a s) :
    R stack s (after (addonSubcommand P env nested stack args) s) := by
  have := h.preorder stack
  unfold addonSubcommand
  cases hp : args.parameters with
  | nil => exact addonUsage_keeps h.toScriptEffects stack args s
  | cons subcommand rest =>
    rw [hp] at hg hc
    have htarget : ∀ a, s.addons.lookup (P.toLower (String.intercalate " " rest)) = some a →
        (P.toLower subcommand = "unload" ∨ P.toLower subcommand = "reload") ∧ rest ≠ [] →
        G stack a s := by
      intro a hl hsub
      refine hg a ?_
      simp only [commandTargets, if_pos hsub]
      exact List.mem_map.mpr
        ⟨_, List.mem_filter.mpr ⟨AList.mem_lookup_iff.mp hl, by simp⟩, rfl⟩
    dsimp only
    split
    · rename_i hreload
      exact h.configuration stack _ (hc ⟨subcommand, rest, rfl, hreload⟩) s
    · split
      · exact listAddons_keeps h.toScriptEffects stack s
      · split
        · exact (loadCommand_keeps h hn henv stack _ s hv).1
        · split
          · rename_i hsub
            exact unloadAddon_keeps h hn henv stack _ s hv
              (fun a hl => htarget a hl ⟨Or.inl hsub.1, hsub.2⟩)
          · split
            · rename_i hsub
              refine (unloadAll_keeps h hn henv stack s ⟨hv, fun k a hl => hg a ?_⟩).1
              have hmem : a ∈ s.addons.entries.map Sigma.snd :=
                List.mem_map.mpr ⟨_, AList.mem_lookup_iff.mp hl, rfl⟩
              simpa [commandTargets, hsub] using hmem
            · split
              · rename_i hsub
                exact reloadAddon_keeps h hn henv stack _ s hv
                  (fun a hl => htarget a hl ⟨Or.inr hsub.1, hsub.2⟩)
              · exact addonUsage_keeps h.toScriptEffects stack _ s

theorem handleAddonCommand_keeps (stack : CallStack) (args : CommandArgs)
    (hc : ReadsConfiguration P args.parameters → C env.parseConfiguration) :
    Keeps (On (Valid P stack) (R stack)) (handleAddonCommand P env nested stack args) := by
  have := h.preorder stack
  refine keeps_get_bind (fun s hv => ?_)
  have hcommand := h.command stack args.parameters s.addons.entries s
  have hv₁ := hv.grows (h.grows hcommand)
  have hr := trans_of (R stack) hcommand (addonSubcommand_keeps h hn henv stack args hc _ hv₁
    (fun a ha => h.guard_command stack args.parameters a s ha))
  exact ⟨hr, hv.grows (h.grows hr)⟩

/-! ## Nested delegates and hooks -/

omit hn in
/-- Calls of the delegates of chat commands, nested to any depth. -/
theorem delegate_keeps (hc : C env.parseConfiguration) :
    ∀ n, NestedKeeps P R T (delegate P env n)
  | 0 => by
    intro stack d args _
    have := h.preorder stack
    exact keeps_pure _
  | n + 1 => by
    intro stack d args _
    have := h.preorder stack
    cases d with
    | handleAddonCommand =>
      exact handleAddonCommand_keeps h (delegate_keeps hc n) henv stack args (fun _ => hc)
    | handleAddonCallbackCommand =>
      exact handleAddonCallbackCommand_keeps h.toScriptEffects (delegate_keeps hc n) henv stack args
    | foreign code => exact keeps_pure _

omit hn henv in
/-- A loop over the loaded addons, when they may be released. -/
theorem Effects.keeps_entries {f : (Sigma fun _ : String => AddonId) → Method H Unit}
    {stack : CallStack} {s : Plugin H} (hv : Valid P stack s)
    (hg : ∀ e ∈ s.addons.entries, G stack e.2 s)
    (hf : ∀ e ∈ s.addons.entries, Keeps (On (Ready P G stack e.2) (R stack)) (f e)) :
    R stack s (after (s.addons.entries.forM f) s) := by
  have := h.preorder stack
  have hmono : ∀ s₁ s₂ : Plugin H, (∀ e ∈ s.addons.entries, Ready P G stack e.2 s₁) →
      R stack s₁ s₂ → ∀ e ∈ s.addons.entries, Ready P G stack e.2 s₂ :=
    fun s₁ s₂ hs hr e he => h.ready_mono s₁ s₂ (hs e he) hr
  refine (keeps_forM (R := On (fun s' => ∀ e ∈ s.addons.entries, Ready P G stack e.2 s')
    (R stack)) (fun e he => (hf e he).strengthen (fun _ hs => hs e he) hmono) s
    (fun e he => ⟨hv.cons (hv.entries e he), hg e he⟩)).1

theorem autoReload_keeps (stack : CallStack) (a : AddonId) :
    Keeps (On (Ready P G stack a) (R stack)) (autoReload P env nested stack a) := by
  have := h.preorder stack
  refine keeps_bind (keeps_bind (f := fun _ => pure PUnit.unit) (reload_keeps h hn henv stack a)
    (fun _ => keeps_pure _)) (fun _ => ?_)
  exact keeps_bind (invokeEvent_ready h hn henv stack a "load" []) (fun _ => keeps_pure _)

/-- The hook at the top level, where nothing is on the call stack. -/
theorem onGamePostUpdate_keeps (args : NetObject) (s : Plugin H) (hs : Valid P [] s) :
    R [] s (after (onGamePostUpdate P env nested [] args) s) := by
  have := h.preorder []
  refine (keeps_bind (R := On (Valid P []) (R []))
    (forEachInvoke_keeps h.toScriptEffects hn henv [] "GamePostUpdate" [args])
    (fun _ => ?_) s hs).1
  refine keeps_get_bind (fun s hv => ?_)
  suffices hr : R [] s _ from ⟨hr, hv.grows (h.grows hr)⟩
  cases s.configuration with
  | none => exact refl_of (R []) s
  | some configuration =>
    dsimp only
    split
    · refine h.keeps_entries hv (fun e _ => h.guard_fresh (List.not_mem_nil)) (fun e _ => ?_)
      refine keeps_bind (h.keeps_ready (h.keeps_getAddon [] e.2)) (fun x => ?_)
      split
      · exact autoReload_keeps h hn henv [] e.2
      · exact keeps_pure _
    · exact refl_of (R []) s

/-- The loop of `Dispose` at the top level. -/
theorem disposeLoop_keeps (s : Plugin H) (hs : Valid P [] s) :
    R [] s (after (s.addons.entries.forM (fun e => do
      discard (invokeEvent P env nested [] e.2 "unload" [])
      release env [] e.2)) s) := by
  have := h.preorder []
  refine h.keeps_entries hs (fun e _ => h.guard_fresh (List.not_mem_nil)) (fun e _ => ?_)
  exact keeps_bind (keeps_bind (f := fun _ => pure PUnit.unit)
    (invokeEvent_ready h hn henv [] e.2 "unload" []) (fun _ => keeps_pure _))
    (fun _ => release_keeps h [] e.2)

end Commands

end Walk

/-! ## The bound on every piece -/

/-- `Grows` holds of every step, without a guard on releases. -/
theorem grows_effects (P : Platform) :
    Effects (H := H) P (Grows P) (fun _ _ _ => True) where
  preorder _ := inferInstance
  grows h := h
  outer h := h.outer
  lua stack a _ hf := modifyLua_grows P stack a hf
  fail stack a := keeps_modify (fun _ => modifyAddon_grows P stack a rfl (Or.inl rfl))
  tell stack m := tell_grows P stack m
  call stack _ _ _ := emit_grows P stack (within_self stack rfl) (fun _ _ _ => rfl)
  executed stack _ _ _ := emit_grows P stack (within_none stack rfl) (fun _ _ _ => rfl)
  store stack a name f := storeCommand_grows P stack a name f
  registry stack _ _ _ h := onRegistry_grows P stack h
  handled _ _ := keeps_modify (fun _ =>
    .of_objects rfl rfl rfl rfl (fun _ => rfl) (fun _ L h => ⟨L, h, rfl⟩))
  addon stack _ a _ hfile hlua := modifyAddon_grows P stack a hfile hlua
  start stack a _ hL := startLua_grows P stack a hL
  initialized stack _ _ := emit_grows P stack (within_none stack rfl) (fun _ _ _ => rfl)
  removed stack _ := emit_grows P stack (within_none stack rfl) (fun _ _ _ => rfl)
  command stack _ _ := emit_grows P stack (within_self stack rfl) (fun _ _ _ => rfl)
  release stack _ s _ := emit_grows P stack (within_self stack rfl) (fun _ _ _ => rfl) s
  erase stack k := eraseAddon_grows P stack k
  configuration _ _ _ := keeps_modify (fun _ =>
    .of_objects rfl rfl rfl rfl (fun _ => rfl) (fun _ L h => ⟨L, h, rfl⟩))
  create stack s name := create_grows P stack s name
  tryAdd hr hfresh ha hk := tryAdd_grows P _ hr hfresh ha hk
  guard_mono _ _ := trivial
  guard_fresh _ := trivial
  guard_command _ _ _ _ _ := trivial

end LuaAddons
