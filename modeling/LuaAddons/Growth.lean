import LuaAddons.Plugin

/-!
# What any piece of the plugin can do to its state

`Grows P stack s s'` bounds the effect of the code that runs inside the calls `stack`, with
arbitrary scripts and arbitrary nesting: the registry changes by `RegistryStep`s only, addon
identities are drawn upward and keep their file name, addons enter `m_Addons` only as new
objects under the lower-cased form of their file name, the trace grows by events whose call
stack extends `stack`, and the table `__addon_commands` of a Lua state stays what the trace
says was registered in it.

The relation is reflexive and transitive, so it is enough to check it where the state is
written. Invariants over whole runs are read off it afterwards.
-/

namespace LuaAddons

open Exec Lookup

variable {H : Type}

/-! ## The trace -/

/-- The call stack an event was recorded with. -/
def Event.stack? : Event → Option CallStack
  | .started _ => none
  | .registered _ _ _ => none
  | .initialized _ _ => none
  | .call _ _ _ stack => some stack
  | .release _ stack => some stack
  | .removed _ => none
  | .command _ _ stack => some stack
  | .executed _ _ _ => none

/-- The event happened inside the calls `stack`. -/
def Event.Within (stack : CallStack) (e : Event) : Prop := ∀ st, e.stack? = some st → stack <:+ st

/-- The function an addon registered last under a name, since its last Lua state was made. -/
def registration : List Event → AddonId → LuaString → Option LuaFunction
  | [], _, _ => none
  | .started b :: t, a, n => if b = a then none else registration t a n
  | .registered b m f :: t, a, n => if b = a ∧ m = n then some f else registration t a n
  | .initialized _ _ :: t, a, n => registration t a n
  | .call _ _ _ _ :: t, a, n => registration t a n
  | .release _ _ :: t, a, n => registration t a n
  | .removed _ :: t, a, n => registration t a n
  | .command _ _ _ :: t, a, n => registration t a n
  | .executed _ _ _ :: t, a, n => registration t a n

/-- Each Lua state holds under a name the function that was registered last. -/
def TablesAgree (s : Plugin H) : Prop :=
  ∀ a L, (s.objects a).luaState = some L →
    ∀ n, (L.addonCommands.getD ∅).lookup n = registration s.trace a n

/-! ## The relation -/

/-- The effect of code that runs inside the calls `stack`. -/
structure Grows (P : Platform) (stack : CallStack) (s s' : Plugin H) : Prop where
  registry : Relation.ReflTransGen (RegistryStep P) s.registry s'.registry
  nextAddon : s.nextAddon ≤ s'.nextAddon
  fileName : ∀ a < s.nextAddon, (s'.objects a).fileName = (s.objects a).fileName
  loaded : ∀ k a, s'.addons.lookup k = some a → s.addons.lookup k = some a ∨
    (s.nextAddon ≤ a ∧ a < s'.nextAddon ∧ k = P.toLower (s'.objects a).fileName)
  trace : ∃ new, s'.trace = new ++ s.trace ∧ ∀ e ∈ new, e.Within stack
  tables : TablesAgree s → TablesAgree s'

namespace Grows

variable {P : Platform} {stack : CallStack} {s s' s'' : Plugin H}

theorem refl (s : Plugin H) : Grows P stack s s :=
  ⟨.refl, le_rfl, fun _ _ => rfl, fun _ _ h => Or.inl h, ⟨[], rfl, by simp⟩, id⟩

theorem trans (h₁ : Grows P stack s s') (h₂ : Grows P stack s' s'') : Grows P stack s s'' := by
  refine ⟨h₁.registry.trans h₂.registry, h₁.nextAddon.trans h₂.nextAddon, fun a ha => ?_,
    fun k a hl => ?_, ?_, fun ht => h₂.tables (h₁.tables ht)⟩
  · rw [h₂.fileName a (ha.trans_le h₁.nextAddon), h₁.fileName a ha]
  · rcases h₂.loaded k a hl with hl | ⟨h1, h2, h3⟩
    · rcases h₁.loaded k a hl with hl | ⟨h1, h2, h3⟩
      · exact Or.inl hl
      · exact Or.inr ⟨h1, h2.trans_le h₂.nextAddon, by rw [h₂.fileName a h2]; exact h3⟩
    · exact Or.inr ⟨h₁.nextAddon.trans h1, h2, h3⟩
  · obtain ⟨new₁, he₁, hw₁⟩ := h₁.trace
    obtain ⟨new₂, he₂, hw₂⟩ := h₂.trace
    refine ⟨new₂ ++ new₁, by rw [he₂, he₁, List.append_assoc], fun e he => ?_⟩
    rcases List.mem_append.mp he with he | he
    · exact hw₂ e he
    · exact hw₁ e he

instance : IsPreorder (Plugin H) (Grows P stack) where
  refl := refl
  trans _ _ _ := trans

/-- Code inside a further call is code inside the calls around it. -/
theorem outer {a : AddonId} (h : Grows P (a :: stack) s s') : Grows P stack s s' := by
  refine ⟨h.registry, h.nextAddon, h.fileName, h.loaded, ?_, h.tables⟩
  obtain ⟨new, he, hw⟩ := h.trace
  exact ⟨new, he, fun e hm st hst => (List.suffix_cons a stack).trans (hw e hm st hst)⟩

/-- A write to the addon objects that keeps file names and tables of commands. -/
theorem of_objects (hreg : s'.registry = s.registry) (hnext : s'.nextAddon = s.nextAddon)
    (haddons : s'.addons = s.addons) (htrace : s'.trace = s.trace)
    (hfile : ∀ a, (s'.objects a).fileName = (s.objects a).fileName)
    (htables : ∀ a L', (s'.objects a).luaState = some L' →
      ∃ L, (s.objects a).luaState = some L ∧
        L'.addonCommands.getD ∅ = L.addonCommands.getD ∅) : Grows P stack s s' := by
  refine ⟨by rw [hreg], by rw [hnext], fun a _ => hfile a, fun k a h => ?_,
    ⟨[], by simpa using htrace, by simp⟩, fun ht a L' hL' n => ?_⟩
  · rw [haddons] at h
    exact Or.inl h
  · obtain ⟨L, hL, he⟩ := htables a L' hL'
    rw [he, htrace]
    exact ht a L hL n

end Grows

/-! ## Keys and identities -/

/-- Every loaded addon has an identity that was drawn and stands under the lower-cased form
of its file name. -/
def Keyed (P : Platform) (s : Plugin H) : Prop :=
  ∀ k a, s.addons.lookup k = some a → a < s.nextAddon ∧ k = P.toLower (s.objects a).fileName

/-- An addon stands under one key only. -/
theorem Keyed.injective {P : Platform} {s : Plugin H} (h : Keyed P s) {k k' : String}
    {a : AddonId} (hk : s.addons.lookup k = some a) (hk' : s.addons.lookup k' = some a) :
    k = k' := by
  rw [(h k a hk).2, (h k' a hk').2]

theorem Keyed.nodup {P : Platform} {s : Plugin H} (h : Keyed P s) :
    (s.addons.entries.map Sigma.snd).Nodup := by
  refine List.Nodup.map_on ?_ (List.NodupKeys.nodup s.addons.nodupKeys)
  rintro ⟨k, a⟩ ha ⟨k', a'⟩ ha' (rfl : a = a')
  obtain rfl := h.injective (AList.mem_lookup_iff.mpr ha) (AList.mem_lookup_iff.mpr ha')
  rfl

/-- What holds whenever code runs inside the calls `stack`. -/
structure Valid (P : Platform) (stack : CallStack) (s : Plugin H) : Prop where
  below : ∀ a ∈ stack, a < s.nextAddon
  keyed : Keyed P s

namespace Valid

variable {P : Platform} {stack : CallStack} {s s' : Plugin H} {a : AddonId}

theorem grows {stack' : CallStack} (h : Valid P stack s) (hg : Grows P stack' s s') :
    Valid P stack s' := by
  refine ⟨fun a ha => (h.below a ha).trans_le hg.nextAddon, fun k a hl => ?_⟩
  rcases hg.loaded k a hl with hl | ⟨-, h2, h3⟩
  · obtain ⟨h1, h2⟩ := h.keyed k a hl
    exact ⟨h1.trans_le hg.nextAddon, by rw [hg.fileName a h1]; exact h2⟩
  · exact ⟨h2, h3⟩

theorem head (h : Valid P (a :: stack) s) : a < s.nextAddon := h.below a List.mem_cons_self

theorem cons (h : Valid P stack s) (ha : a < s.nextAddon) : Valid P (a :: stack) s := by
  refine ⟨fun b hb => ?_, h.keyed⟩
  rcases List.mem_cons.mp hb with rfl | hb
  · exact ha
  · exact h.below b hb

theorem loaded {k : String} (h : Valid P stack s) (hl : s.addons.lookup k = some a) :
    Valid P (a :: stack) s := h.cons (h.keyed k a hl).1

end Valid

theorem after_onRegistry {α : Type} (x : EStateM NetException Registry α) (s : Plugin H) :
    after (onRegistry x) s = { s with registry := after x s.registry } :=
  after_zoom _ _ x s

section Primitives

variable (P : Platform) (stack : CallStack)

theorem modifyAddon_grows {s : Plugin H} (a : AddonId) {f : Addon H → Addon H}
    (hfile : (f (s.objects a)).fileName = (s.objects a).fileName)
    (hlua : (f (s.objects a)).luaState = (s.objects a).luaState ∨
      (f (s.objects a)).luaState = none) : Grows P stack s (s.modifyAddon a f) := by
  refine .of_objects rfl rfl rfl rfl (fun b => ?_) (fun b L hL => ?_)
  · by_cases hb : b = a
    · subst hb
      simp [Plugin.modifyAddon, hfile]
    · simp [Plugin.modifyAddon, hb]
  · by_cases hb : b = a
    · subst hb
      simp only [Plugin.modifyAddon, Function.update_self] at hL
      rcases hlua with h | h
      · exact ⟨L, by rw [← h]; exact hL, rfl⟩
      · rw [h] at hL
        cases hL
    · exact ⟨L, by simpa [Plugin.modifyAddon, hb] using hL, rfl⟩

theorem modifyLua_grows (a : AddonId) {f : LuaState H → LuaState H}
    (h : ∀ L, (f L).addonCommands.getD ∅ = L.addonCommands.getD ∅) :
    Keeps (Grows P stack) (modifyLua a f) := by
  refine keeps_modify (fun s => ?_)
  refine .of_objects rfl rfl rfl rfl (fun b => ?_) (fun b L hL => ?_)
  · by_cases hb : b = a
    · subst hb
      simp [Plugin.modifyAddon]
    · simp [Plugin.modifyAddon, hb]
  · by_cases hb : b = a
    · subst hb
      simp only [Plugin.modifyAddon, Function.update_self, Option.map_eq_some_iff] at hL
      obtain ⟨L₀, hL₀, rfl⟩ := hL
      exact ⟨L₀, hL₀, h L₀⟩
    · exact ⟨L, by simpa [Plugin.modifyAddon, hb] using hL, rfl⟩

theorem tell_grows (m : Message) : Keeps (Grows (H := H) P stack) (tell m) :=
  keeps_modify (fun _ => .of_objects rfl rfl rfl rfl (fun _ => rfl) (fun _ L h => ⟨L, h, rfl⟩))

theorem emit_grows {e : Event} (hw : e.Within stack)
    (hr : ∀ t a n, registration (e :: t) a n = registration t a n) :
    Keeps (Grows (H := H) P stack) (emit e) := by
  refine keeps_modify (fun s => ?_)
  refine ⟨.refl, le_rfl, fun _ _ => rfl, fun _ _ h => Or.inl h, ⟨[e], rfl, by simpa using hw⟩,
    fun ht a L hL n => ?_⟩
  simp only [hr]
  exact ht a L hL n

theorem within_self {e : Event} (h : e.stack? = some stack) : e.Within stack := by
  intro st hst
  rw [h] at hst
  cases hst
  exact List.suffix_rfl

theorem within_none {e : Event} (h : e.stack? = none) : e.Within stack := by
  intro st hst
  rw [h] at hst
  cases hst

theorem startLua_grows (a : AddonId) {L : LuaState H} (hL : L.addonCommands = none) :
    Keeps (Grows P stack) (modify (fun s => s.startLua a L) : Method H Unit) := by
  refine keeps_modify (fun s => ?_)
  refine ⟨.refl, le_rfl, fun b _ => ?_, fun _ _ h => Or.inl h,
    ⟨[.started a], rfl, by simpa using within_none stack rfl⟩, fun ht b L' hL' n => ?_⟩
  · by_cases hb : b = a
    · subst hb
      simp [Plugin.startLua, Plugin.modifyAddon]
    · simp [Plugin.startLua, Plugin.modifyAddon, hb]
  · by_cases hb : b = a
    · subst hb
      simp only [Plugin.startLua, Plugin.modifyAddon, Function.update_self,
        Option.some.injEq] at hL'
      subst hL'
      simp [Plugin.startLua, registration, hL]
    · simp only [Plugin.startLua, Plugin.modifyAddon, Function.update_of_ne hb] at hL'
      simp only [Plugin.startLua, registration, if_neg (Ne.symm hb)]
      exact ht b L' hL' n

theorem storeCommand_grows (a : AddonId) (name : LuaString) (f : LuaFunction) :
    Keeps (Grows P stack) (modify (fun s => s.storeCommand a name f) : Method H Unit) := by
  refine keeps_modify (fun s => ?_)
  cases hL : (s.objects a).luaState with
  | none =>
    simp only [Plugin.storeCommand, hL]
    exact Grows.refl s
  | some L =>
    simp only [Plugin.storeCommand, hL]
    refine ⟨.refl, le_rfl, fun b _ => ?_, fun _ _ h => Or.inl h,
      ⟨[.registered a name f], rfl, by simpa using within_none stack rfl⟩,
      fun ht b L' hL' n => ?_⟩
    · by_cases hb : b = a
      · subst hb
        simp [Plugin.modifyAddon]
      · simp [Plugin.modifyAddon, hb]
    · by_cases hb : b = a
      · subst hb
        simp only [Plugin.modifyAddon, Function.update_self, Option.some.injEq] at hL'
        subst hL'
        by_cases hn : n = name
        · subst hn
          simp [registration]
        · simp only [Option.getD_some, AList.lookup_insert_ne hn, registration, true_and,
            if_neg (Ne.symm hn)]
          exact ht b L hL n
      · simp only [Plugin.modifyAddon, Function.update_of_ne hb] at hL'
        simp only [registration, Ne.symm hb, false_and, if_false]
        exact ht b L' hL' n

theorem onRegistry_grows {α : Type} {x : EStateM NetException Registry α} {s : Plugin H}
    (h : RegistryStep P s.registry (after x s.registry)) :
    Grows P stack s (after (onRegistry x) s) := by
  rw [after_onRegistry]
  exact ⟨.single h, le_rfl, fun _ _ => rfl, fun _ _ h => Or.inl h, ⟨[], rfl, by simp⟩, id⟩

theorem eraseAddon_grows (k : String) :
    Keeps (Grows P stack)
      (modify (fun s => { s with addons := s.addons.erase k }) : Method H Unit) := by
  refine keeps_modify (fun s => ?_)
  exact ⟨.refl, le_rfl, fun _ _ => rfl, fun k' a h => Or.inl (lookup_erase_eq_some h).2,
    ⟨[], rfl, by simp⟩, id⟩

/-- The object `LoadAddon` makes, as it is when its script starts. -/
def Plugin.create (s : Plugin H) (name : String) : Plugin H :=
  { s with
    nextAddon := s.nextAddon + 1
    objects := Function.update s.objects s.nextAddon
      { (Addon.new : Addon H) with state := .loading, fileName := name } }

theorem create_grows (s : Plugin H) (name : String) : Grows P stack s (s.create name) := by
  refine ⟨.refl, Nat.le_succ _, fun a ha => ?_, fun _ _ h => Or.inl h, ⟨[], rfl, by simp⟩,
    fun ht a L hL n => ?_⟩
  · simp [Plugin.create, ha.ne]
  · by_cases ha : a = s.nextAddon
    · subst ha
      simp [Plugin.create, Addon.new] at hL
    · simp only [Plugin.create, Function.update_of_ne ha] at hL
      exact ht a L hL n

/-- `m_Addons.TryAdd`, which leaves an entry that is there. -/
def Plugin.tryAdd (s : Plugin H) (k : String) (a : AddonId) : Plugin H :=
  if k ∈ s.addons then s else { s with addons := s.addons.insert k a }

theorem tryAdd_grows {s s' : Plugin H} {k : String} {a : AddonId} (hg : Grows P stack s s')
    (hfresh : s.nextAddon ≤ a) (ha : a < s'.nextAddon)
    (hk : k = P.toLower (s'.objects a).fileName) : Grows P stack s (s'.tryAdd k a) := by
  unfold Plugin.tryAdd
  split
  · exact hg
  · refine ⟨hg.registry, hg.nextAddon, hg.fileName, fun k' b hl => ?_, hg.trace, hg.tables⟩
    by_cases hkk : k' = k
    · subst hkk
      simp only [AList.lookup_insert, Option.some.injEq] at hl
      subst hl
      exact Or.inr ⟨hfresh, ha, hk⟩
    · rw [AList.lookup_insert_ne hkk] at hl
      exact hg.loaded k' b hl

end Primitives

end LuaAddons
