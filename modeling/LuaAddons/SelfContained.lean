import LuaAddons.Outcomes
import LuaAddons.Effects

/-!
# Self-contained scripts

A script that calls no chat command depends only on its own Lua state and on the outcome of
its registrations. Its addon is then the only object it touches (`LuaOnly`, `Frame`).
-/

namespace LuaAddons

open Exec

variable {H : Type} {P : Platform}

/-- No delegate at all. -/
def NoDelegate (_ : CommandDelegate) : Prop := False

/-! ## What Lua code touches -/

/-- Only the object of `a`, the registry, the messages and the trace change. The object keeps
its file name, and the registry changes by registrations under it. -/
structure Frame (P : Platform) (a : AddonId) (s s' : Plugin H) : Prop where
  addons : s'.addons = s.addons
  nextAddon : s'.nextAddon = s.nextAddon
  configuration : s'.configuration = s.configuration
  handled : s'.handled = s.handled
  objects : ∀ b ≠ a, s'.objects b = s.objects b
  fileName : (s'.objects a).fileName = (s.objects a).fileName
  registry : Registrations P (P.toLower (s.objects a).fileName) s.registry s'.registry

instance (a : AddonId) : IsPreorder (Plugin H) (Frame P a) where
  refl _ := ⟨rfl, rfl, rfl, rfl, fun _ _ => rfl, rfl, .refl⟩
  trans _ _ _ h₁ h₂ := ⟨h₂.addons.trans h₁.addons, h₂.nextAddon.trans h₁.nextAddon,
    h₂.configuration.trans h₁.configuration, h₂.handled.trans h₁.handled,
    fun b hb => (h₂.objects b hb).trans (h₁.objects b hb), h₂.fileName.trans h₁.fileName,
    h₁.registry.trans (by rw [← h₁.fileName]; exact h₂.registry)⟩

/-- The event is an accepted registration. -/
def Event.IsRegistration (e : Event) : Prop := ∃ a n f, e = .registered a n f

/-- Only the Lua state of `a` and the registry change, and registrations are recorded. -/
structure LuaOnly (P : Platform) (a : AddonId) (s s' : Plugin H) : Prop
    extends Frame P a s s' where
  own : s'.objects a = { s.objects a with luaState := (s'.objects a).luaState }
  luaState : (s'.objects a).luaState.isSome = (s.objects a).luaState.isSome
  trace : ∃ new, s'.trace = new ++ s.trace ∧ ∀ e ∈ new, e.IsRegistration

instance (a : AddonId) : IsPreorder (Plugin H) (LuaOnly P a) where
  refl s := ⟨refl_of (Frame P a) s, rfl, rfl, [], rfl, by simp⟩
  trans s₁ s₂ s₃ h₁ h₂ := by
    refine ⟨trans_of (Frame P a) h₁.toFrame h₂.toFrame, ?_, h₂.luaState.trans h₁.luaState, ?_⟩
    · rw [h₂.own, h₁.own]
    · obtain ⟨new₁, ht₁, he₁⟩ := h₁.trace
      obtain ⟨new₂, ht₂, he₂⟩ := h₂.trace
      refine ⟨new₂ ++ new₁, by rw [ht₂, ht₁, List.append_assoc], fun e he => ?_⟩
      rcases List.mem_append.mp he with he | he
      · exact he₂ e he
      · exact he₁ e he

section Touch

variable {nested : Nested H} {stack : CallStack} {a : AddonId} {env : Env H}

/-- A change of the object of `a` that keeps its file name. -/
theorem Plugin.modifyAddon_frame (s : Plugin H) {f : Addon H → Addon H}
    (hf : (f (s.objects a)).fileName = (s.objects a).fileName) :
    Frame P a s (s.modifyAddon a f) :=
  ⟨rfl, rfl, rfl, rfl, fun _ hb => Function.update_of_ne hb _ _,
    by simpa [Plugin.modifyAddon] using hf, .refl⟩

theorem modifyAddon_frame (a : AddonId) {f : Addon H → Addon H}
    (hf : ∀ x, (f x).fileName = x.fileName) : Keeps (Frame P a) (modifyAddon a f) :=
  fun s => s.modifyAddon_frame (hf _)

theorem getAddon_keeps {R : Plugin H → Plugin H → Prop} [IsPreorder (Plugin H) R] (a : AddonId) :
    Keeps R (getAddon a) := keeps_bind keeps_get (fun _ => keeps_pure _)

theorem modifyLua_luaOnly (a : AddonId) (f : LuaState H → LuaState H) :
    Keeps (LuaOnly P a) (modifyLua a f) := by
  have hframe : Keeps (Frame P a) (modifyLua a f) := modifyAddon_frame a (fun _ => rfl)
  intro s
  refine ⟨hframe s, ?_, ?_, [], rfl, by simp⟩
  · simp [after, modifyLua, modifyAddon, Plugin.modifyAddon]
  · simp [after, modifyLua, modifyAddon, Plugin.modifyAddon]

theorem storeCommand_luaOnly (a : AddonId) (name : LuaString) (f : LuaFunction) (s : Plugin H) :
    LuaOnly P a s (s.storeCommand a name f) := by
  cases hL : (s.objects a).luaState with
  | none =>
    simp only [Plugin.storeCommand, hL]
    exact refl_of (LuaOnly P a) s
  | some L =>
    simp only [Plugin.storeCommand, hL]
    refine ⟨⟨rfl, rfl, rfl, rfl, fun _ hb => Function.update_of_ne hb _ _, ?_, .refl⟩, ?_, ?_,
      [.registered a name f], rfl, by simp [Event.IsRegistration]⟩
    · simp [Plugin.modifyAddon]
    · simp [Plugin.modifyAddon]
    · simp [Plugin.modifyAddon, hL]

/-- `RegisterCommand` as a script of `a` calls it. -/
theorem registerCommand_luaOnly (a : AddonId) (permission command : String) (s : Plugin H) :
    LuaOnly P a s { s with registry := (registerCommand P (P.toLower (s.objects a).fileName)
      permission command s.registry).2 } :=
  ⟨⟨rfl, rfl, rfl, rfl, fun _ _ => rfl, rfl,
    .single ⟨_, _, _, P.toLower_toLower _, rfl⟩⟩, rfl, rfl, [], rfl, by simp⟩

theorem addonNewCommand_luaOnly (a : AddonId) (name permission : LuaString) (f : LuaFunction) :
    Keeps (LuaOnly (H := H) P a) (addonNewCommand P a name permission f) := by
  refine keeps_bind (modifyLua_luaOnly a _) (fun _ => keeps_get_bind (fun s => ?_))
  have hregister := registerCommand_luaOnly (P := P) a (P.luaToString permission)
    (P.luaToString name) s
  unfold after
  simp only [EStateM.run_bind, onRegistry, run_zoom, EStateM.run_modifyGet]
  cases (registerCommand P (P.toLower (s.objects a).fileName) (P.luaToString permission)
    (P.luaToString name) s.registry).1 with
  | true => exact trans_of (LuaOnly P a) hregister (storeCommand_luaOnly a name f _)
  | false => exact hregister

theorem runScript_luaOnly : ∀ c : Script H, c.Targets NoDelegate →
    Keeps (LuaOnly P a) (runScript P nested stack a c) := by
  intro c
  induction c with
  | done heap values =>
    intro _
    exact keeps_bind (modifyLua_luaOnly a _) (fun _ => keeps_pure _)
  | raise heap =>
    intro _
    exact keeps_bind (modifyLua_luaOnly a _) (fun _ => keeps_throw _)
  | registerEvent name f next ih =>
    intro hT
    exact keeps_bind (modifyLua_luaOnly a _) (fun _ => ih hT)
  | registerCommand name permission f next ih =>
    intro hT
    exact keeps_bind (addonNewCommand_luaOnly a name permission f) (fun ok => ih ok (hT ok))
  | assign key value next ih =>
    intro hT
    exact keeps_bind (modifyLua_luaOnly a _) (fun _ => ih hT)
  | chatCommand heap target args next ih =>
    intro hT
    exact hT.1.elim

theorem emit_frame (a : AddonId) (e : Event) : Keeps (Frame (H := H) P a) (emit e) :=
  fun _ => ⟨rfl, rfl, rfl, rfl, fun _ _ => rfl, rfl, .refl⟩

theorem tell_frame (a : AddonId) (m : Message) : Keeps (Frame (H := H) P a) (tell m) :=
  fun _ => ⟨rfl, rfl, rfl, rfl, fun _ _ => rfl, rfl, .refl⟩

theorem liftExcept_keeps {R : Plugin H → Plugin H → Prop} [IsPreorder (Plugin H) R] {α : Type}
    (x : Except NetException α) : Keeps R (liftExcept x) := by
  cases x with
  | ok v => exact keeps_pure v
  | error e => exact keeps_throw e

theorem release_frame : Keeps (Frame P a) (release env stack a) := by
  refine keeps_bind (emit_frame a _) (fun _ => keeps_bind (getAddon_keeps a) (fun x => ?_))
  split
  · exact modifyAddon_frame a (fun _ => rfl)
  · exact modifyAddon_frame a (fun _ => rfl)

theorem readInfos_frame : Keeps (Frame P a) (readInfos P a : Method H Unit) :=
  keeps_bind (getAddon_keeps a) (fun _ =>
    keeps_bind (liftExcept_keeps _) (fun _ =>
      keeps_bind (modifyAddon_frame a (fun _ => rfl)) (fun _ =>
      keeps_bind (liftExcept_keeps _) (fun _ =>
      keeps_bind (modifyAddon_frame a (fun _ => rfl)) (fun _ =>
        keeps_bind (liftExcept_keeps _) (fun _ => keeps_bind (modifyAddon_frame a (fun _ => rfl))
          (fun _ => emit_frame a _)))))))

theorem startAddon_frame {name : String}
    (hscript : ∀ body, env.script name = some body → body.Targets NoDelegate) :
    Keeps (Frame P a) (startAddon P env nested stack a name) := by
  refine keeps_tryCatch ?_ (fun ex => ?_)
  · refine keeps_bind ?_ (fun _ => keeps_bind readInfos_frame (fun _ => keeps_pure _))
    refine keeps_bind ?_ (fun _ => ?_)
    · intro s
      have hframe := s.modifyAddon_frame (P := P) (a := a)
        (f := fun x => { x with luaState := some (env.newLuaState P name) }) rfl
      exact ⟨hframe.addons, hframe.nextAddon, hframe.configuration, hframe.handled,
        hframe.objects, hframe.fileName, hframe.registry⟩
    · cases hbody : env.script name with
      | none => exact keeps_throw _
      | some body =>
        refine keeps_bind ?_ (fun _ => keeps_pure _)
        exact (runScript_luaOnly body (hscript body hbody)).mono (fun _ _ h => h.toFrame)
  · exact keeps_bind (tell_frame a _) (fun _ => keeps_bind release_frame (fun _ =>
      keeps_bind (modifyAddon_frame a (fun _ => rfl)) (fun _ => keeps_pure _)))

theorem invokeError_frame (what name : String) (ex : NetException) :
    Keeps (Frame (H := H) P a) (invokeError P a what name ex) :=
  keeps_bind (getAddon_keeps a) (fun _ => keeps_bind (tell_frame a _) (fun _ =>
    keeps_bind (modifyAddon_frame a (fun _ => rfl)) (fun _ => keeps_pure _)))

variable (henv : env.Targets NoDelegate)

include henv

omit henv in
theorem restarting_frame (s : Plugin H) : Frame P a s (s.restarting env stack a) := by
  have hrelease : ∀ s : Plugin H, Frame P a s (s.release env stack a) := by
    intro s
    rw [← after_of_run (run_release s)]
    exact release_frame s
  have hreloading : Frame P a s (s.reloading env stack a) :=
    trans_of (Frame P a) (s.modifyAddon_frame rfl) (hrelease _)
  refine trans_of (Frame P a) hreloading ?_
  unfold Plugin.restarting Plugin.loading
  split
  · refine trans_of (Frame P a) (hrelease _) (Plugin.modifyAddon_frame _ ?_)
    simp only [release_fileName, reloading_fileName]
  · exact Plugin.modifyAddon_frame _ (by simp only [reloading_fileName])

theorem reload_frame : Keeps (Frame P a) (reload P env nested stack a) := by
  intro s
  unfold after
  rw [run_reload]
  exact trans_of (Frame P a) (restarting_frame s) (startAddon_frame (henv.script _) _)

theorem invoke_frame (table : LuaState H → Option FunctionTable) (what name : String)
    (args : List NetObject) :
    Keeps (Frame P a) (invoke P env nested stack a table what name args) := by
  refine keeps_bind (getAddon_keeps a) (fun x => ?_)
  cases x.luaState with
  | none => exact keeps_pure _
  | some L =>
    dsimp only
    split
    · exact keeps_pure _
    · refine keeps_tryCatch ?_ (fun ex => ?_)
      · cases table L with
        | none => exact keeps_pure _
        | some t =>
          refine keeps_bind (liftExcept_keeps _) (fun f => ?_)
          cases f with
          | none => exact keeps_pure _
          | some f =>
            refine keeps_bind (emit_frame a _) (fun _ => keeps_bind ?_ (fun _ => keeps_pure _))
            exact (runScript_luaOnly _ (henv.call f L.heap args)).mono (fun _ _ h => h.toFrame)
      · exact invokeError_frame what name ex

theorem invokeEvent_frame (event : String) (args : List NetObject) :
    Keeps (Frame P a) (invokeEvent P env nested stack a event args) :=
  invoke_frame henv LuaState.addonEvents "event" event args

theorem autoReload_frame : Keeps (Frame P a) (autoReload P env nested stack a) :=
  keeps_bind (keeps_bind (reload_frame henv) (fun _ => keeps_pure _)) (fun _ =>
    keeps_bind (invokeEvent_frame henv "load" []) (fun _ => keeps_pure _))

end Touch

end LuaAddons
