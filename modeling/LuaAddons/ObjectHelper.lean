import LuaAddons.LuaApi

/-!
# The package `objhelper`

`ObjectHelper` keeps the interpreter it was registered with and pops and pushes through it
(`Lua.Pop`, `Lua.Push`), so on the stack of the main thread, while it counts the arguments and
pushes nil and booleans on the thread that called it. `objhelper_sameAsMain_iff` says what follows
for a call from any thread.

`Reflection` is what the package uses of .NET on whatever the .NET side keeps.
-/

namespace LuaAddons

open Exec

variable {σ Field : Type}

structure Reflection (σ Field : Type) where
  /-- `o.GetType().GetField(name, BindFlags)`. -/
  getField : NetObject → String → σ → Option Field × σ
  /-- `f.GetValue(o)`. -/
  getValue : Field → NetObject → σ → Except NetException NetObject × σ
  /-- `f.SetValue(o, Convert.ChangeType(v, f.FieldType))`. -/
  setValue : Field → NetObject → NetObject → σ → Except NetException Unit × σ
  /-- The value that `ObjectTranslator.Push` leaves for an object. -/
  push : NetObject → σ → LuaValue × σ

/-! ## The interpreter -/

/-- `ObjectTranslator.PopValues`: the values above `oldTop`, `none` for null. -/
def popValues (P : Platform) (L : ThreadId) (oldTop : Int) : Api σ (Option (List NetObject)) := do
  let newTop ← luaGetTop L
  if oldTop = newTop then pure none
  else
    let returnValues ← (List.range (newTop - oldTop).toNat).mapM
      (fun i : Nat => P.getObject <$> index2addr L (oldTop + 1 + i))
    onFrame L (Frame.setTop .nil · oldTop)
    pure (some returnValues)

/-- `Lua.Pop` of the interpreter with the main thread `main`. -/
def luaPopObject (P : Platform) (main : ThreadId) : Api σ NetObject := do
  let top ← luaGetTop main
  match ← popValues P main (top - 1) with
  | none => throw (.exception .nullReference)
  | some [] => throw (.exception .indexOutOfRange)
  | some (value :: _) => pure value

/-- `Lua.Push` of the interpreter with the main thread `main`. -/
def luaPushObject (R : Reflection σ Field) (main : ThreadId) (value : NetObject) : Api σ Unit := do
  let v ← callNet (R.push value)
  luaPush main v

/-! ## The callbacks -/

/-- `lua_getfield` once the arguments are popped. -/
def getfieldOf (R : Reflection σ Field) (main L : ThreadId) (n o : NetObject) : Api σ Nat :=
  match n with
  | .string name =>
    if o = .null then luaLError "Invalid arguments for 'get_field'."
    else do
      match ← callNet (R.getField o name) with
      | none => do
        luaPush L .nil
        pure 1
      | some f =>
        match ← callNet (R.getValue f o) with
        | .ok value => do
          luaPushObject R main value
          pure 1
        | .error e => throw (.exception e)
  | _ => luaLError "Invalid arguments for 'get_field'."

/-- `ObjectHelper.lua_getfield`, called by the thread `L`. -/
def luaGetfield (P : Platform) (R : Reflection σ Field) (main L : ThreadId) : Api σ Nat := do
  let top ← luaGetTop L
  if top ≠ 2 then luaLError "Invalid arguments for 'get_field'."
  else
    let n ← luaPopObject P main
    let o ← luaPopObject P main
    getfieldOf R main L n o

/-- `lua_setfield` once the arguments are popped. -/
def setfieldOf (R : Reflection σ Field) (L : ThreadId) (v n o : NetObject) : Api σ Nat :=
  match n with
  | .string name =>
    if o = .null then luaLError "Invalid arguments for 'set_field'."
    else do
      match ← callNet (R.getField o name) with
      | none => do
        luaPush L (.boolean false)
        pure 1
      | some f =>
        match ← callNet (R.setValue f o v) with
        | .ok () => do
          luaPush L (.boolean true)
          pure 1
        | .error _ => do
          luaPush L (.boolean false)
          pure 1
  | _ => luaLError "Invalid arguments for 'set_field'."

/-- `ObjectHelper.lua_setfield`, called by the thread `L`. -/
def luaSetfield (P : Platform) (R : Reflection σ Field) (main L : ThreadId) : Api σ Nat := do
  let top ← luaGetTop L
  if top ≠ 3 then luaLError "Invalid arguments for 'set_field'."
  else
    let v ← luaPopObject P main
    let n ← luaPopObject P main
    let o ← luaPopObject P main
    setfieldOf R L v n o

/-- From one of the threads in `T` the code returns one value, or it raises an error and leaves
all frames alone. -/
def ReturnsOne (T : List ThreadId) (x : Api σ Nat) : Prop :=
  ∀ s, ∃ net, (∃ e, e ≠ .undefined ∧ x.run s = .error e (s.setNet net)) ∨
    ∃ t ∈ T, ∃ v, x.run s = .ok 1 ((s.setNet net).setFrame t (s.frames t ++ [v]))

theorem returnsOne_getfieldOf (R : Reflection σ Field) (main L : ThreadId) (n o : NetObject) :
    ReturnsOne [L, main] (getfieldOf R main L n o) := by
  intro s
  cases n with
  | string name =>
    unfold getfieldOf
    simp only
    by_cases ho : o = .null
    · rw [if_pos ho]
      exact ⟨s.net, .inl ⟨_, by simp, rfl⟩⟩
    · rw [if_neg ho, run_bind_of_ok run_callNet]
      cases (R.getField o name s.net).1 with
      | none => exact ⟨_, .inr ⟨L, by simp, .nil, rfl⟩⟩
      | some f =>
        simp only
        rw [run_bind_of_ok run_callNet]
        cases (R.getValue f o (s.setNet (R.getField o name s.net).2).net).1 with
        | ok value => exact ⟨_, .inr ⟨main, by simp, _, rfl⟩⟩
        | error e => exact ⟨_, .inl ⟨_, by simp, rfl⟩⟩
  | _ => exact ⟨s.net, .inl ⟨_, by simp, rfl⟩⟩

theorem returnsOne_setfieldOf (R : Reflection σ Field) (L : ThreadId) (v n o : NetObject) :
    ReturnsOne [L] (setfieldOf R L v n o) := by
  intro s
  cases n with
  | string name =>
    unfold setfieldOf
    simp only
    by_cases ho : o = .null
    · rw [if_pos ho]
      exact ⟨s.net, .inl ⟨_, by simp, rfl⟩⟩
    · rw [if_neg ho, run_bind_of_ok run_callNet]
      cases (R.getField o name s.net).1 with
      | none => exact ⟨_, .inr ⟨L, by simp, .boolean false, rfl⟩⟩
      | some f =>
        simp only
        rw [run_bind_of_ok run_callNet]
        cases (R.setValue f o v (s.setNet (R.getField o name s.net).2).net).1 with
        | ok _ => exact ⟨_, .inr ⟨L, by simp, .boolean true, rfl⟩⟩
        | error e => exact ⟨_, .inr ⟨L, by simp, .boolean false, rfl⟩⟩
  | _ => exact ⟨s.net, .inl ⟨_, by simp, rfl⟩⟩

/-! ## Popping from the main thread -/

section Pop

variable {s : GlobalState σ} {P : Platform} {main : ThreadId}

theorem run_luaPopObject (xs : List LuaValue) {v : LuaValue} (h : s.frames main = xs ++ [v]) :
    (luaPopObject P main).run s = .ok (P.getObject v) (s.setFrame main xs) := by
  have hlength : ((s.frames main).length : Int) = xs.length + 1 := by
    rw [h, List.length_append]
    rfl
  have hne : ¬ (xs.length : Int) + 1 - 1 = xs.length + 1 := by omega
  have hcount : ((xs.length : Int) + 1 - (xs.length + 1 - 1)).toNat = 1 := by omega
  have hread : (index2addr main ((xs.length : Int) + 1 - 1 + 1 + (0 : Nat))).run s = .ok v s := by
    rw [index2addr, run_bind_of_ok (EStateM.run_get s), h,
      Frame.value?_bottom xs [] v (by omega)]
    rfl
  have hmap : ([0].mapM (fun i : Nat => P.getObject <$>
      index2addr main ((xs.length : Int) + 1 - 1 + 1 + i)) : Api σ _).run s =
        .ok [P.getObject v] s := by
    simp only [List.mapM_cons, List.mapM_nil, EStateM.run_bind, run_map, hread, EStateM.run_pure]
  have hset : (onFrame main (Frame.setTop .nil · ((xs.length : Int) + 1 - 1))).run s =
      .ok () (s.setFrame main xs) :=
    run_onFrame (by rw [h, Frame.setTop_append .nil xs [v] (by omega)])
  have hpop : (popValues P main ((xs.length : Int) + 1 - 1)).run s =
      .ok (some [P.getObject v]) (s.setFrame main xs) := by
    rw [popValues, run_bind_of_ok run_luaGetTop, hlength, if_neg hne, hcount]
    exact (run_bind_of_ok hmap).trans (run_bind_of_ok hset)
  rw [luaPopObject, run_bind_of_ok run_luaGetTop, hlength, run_bind_of_ok hpop]
  rfl

/-- Nothing is left to pop: the index 0 names no value. -/
theorem run_luaPopObject_nil (h : s.frames main = []) :
    (luaPopObject P main).run s = .error .undefined s := by
  have hlength : ((s.frames main).length : Int) = 0 := by rw [h]; rfl
  have hread : (index2addr main 0).run s = .error .undefined s := by
    rw [index2addr, run_bind_of_ok (EStateM.run_get s)]
    rfl
  have hmap : ([0].mapM (fun i : Nat => P.getObject <$>
      index2addr main ((0 : Int) - 1 + 1 + i)) : Api σ _).run s = .error .undefined s := by
    have hzero : ((0 : Int) - 1 + 1 + (0 : Nat)) = 0 := rfl
    simp only [List.mapM_cons, EStateM.run_bind, run_map, hzero, hread]
  have hpop : (popValues P main (0 - 1)).run s = .error .undefined s := by
    rw [popValues, run_bind_of_ok run_luaGetTop, hlength, if_neg (by decide), EStateM.run_bind]
    have hrange : List.range ((0 : Int) - (0 - 1)).toNat = [0] := rfl
    rw [hrange, hmap]
  rw [luaPopObject, run_bind_of_ok run_luaGetTop, hlength, EStateM.run_bind, hpop]

end Pop

/-! ## Code that pops from the main thread -/

/-- The code never reaches below the base of the main thread's frame when that holds `k`
values. -/
def Defined (main : ThreadId) (k : Nat) (x : Api σ Nat) : Prop :=
  ∀ s, k ≤ (s.frames main).length → outcome (x.run s) ≠ .error .undefined

/-- The code reaches below a base, or the main thread's frame ends lower by `m` at least. -/
def Lowers (main : ThreadId) (m : Int) (x : Api σ Nat) : Prop :=
  ∀ s, outcome (x.run s) = .error .undefined ∨
    ((final (x.run s)).frames main).length + m ≤ (s.frames main).length

/-- The frames of all threads but one. -/
def OtherFrames (main : ThreadId) (s s' : GlobalState σ) : Prop :=
  ∀ t, t ≠ main → s'.frames t = s.frames t

instance (main : ThreadId) : IsPreorder (GlobalState σ) (OtherFrames main) where
  refl _ _ _ := rfl
  trans _ _ _ h₁ h₂ t ht := (h₂ t ht).trans (h₁ t ht)

section Rules

variable {P : Platform} {main : ThreadId} {f : NetObject → Api σ Nat} {x : Api σ Nat}
  {T : List ThreadId}

theorem Defined.pop {k : Nat} (h : ∀ o, Defined main k (f o)) :
    Defined main (k + 1) (luaPopObject P main >>= f) := by
  intro s hk
  rcases List.eq_nil_or_concat (s.frames main) with hnil | ⟨xs, v, hframe⟩
  · rw [hnil] at hk
    exact absurd hk (by simp)
  · rw [hframe, List.concat_eq_append, List.length_append, List.length_singleton] at hk
    rw [run_bind_of_ok (run_luaPopObject xs (hframe.trans List.concat_eq_append))]
    apply h
    rw [GlobalState.setFrame_frames]
    omega

theorem Lowers.pop {m : Int} (h : ∀ o, Lowers main m (f o)) :
    Lowers main (m + 1) (luaPopObject P main >>= f) := by
  intro s
  rcases List.eq_nil_or_concat (s.frames main) with hnil | ⟨xs, v, hframe⟩
  · rw [EStateM.run_bind, run_luaPopObject_nil hnil]
    exact .inl rfl
  · have hlength : (s.frames main).length = xs.length + 1 := by
      rw [hframe, List.length_concat]
    rw [run_bind_of_ok (run_luaPopObject xs (hframe.trans List.concat_eq_append))]
    rcases h (P.getObject v) (s.setFrame main xs) with hundefined | hlower
    · exact .inl hundefined
    · rw [GlobalState.setFrame_frames] at hlower
      exact .inr (by omega)

theorem keeps_luaPopObject : Keeps (OtherFrames (σ := σ) main) (luaPopObject P main) := by
  intro s
  rcases List.eq_nil_or_concat (s.frames main) with hnil | ⟨xs, v, hframe⟩
  · rw [after_of_error (run_luaPopObject_nil hnil)]
    exact refl_of _ s
  · rw [after_of_run (run_luaPopObject xs (hframe.trans List.concat_eq_append))]
    exact fun t ht => Function.update_of_ne ht _ _

theorem ReturnsOne.defined (h : ReturnsOne T x) : Defined main 0 x := by
  intro s _
  obtain ⟨net, ⟨e, he, hrun⟩ | ⟨t, _, v, hrun⟩⟩ := h s
  · rw [hrun]
    rintro heq
    cases heq
    exact he rfl
  · rw [hrun]
    rintro heq
    cases heq

theorem ReturnsOne.lowers (h : ReturnsOne T x) : Lowers main (-1) x := by
  intro s
  obtain ⟨net, ⟨e, _, hrun⟩ | ⟨t, _, v, hrun⟩⟩ := h s
  · rw [hrun, final_error, GlobalState.setNet_frames]
    exact .inr (by omega)
  · rw [hrun, final_ok]
    by_cases ht : t = main
    · rw [ht, GlobalState.setFrame_frames, List.length_append, List.length_singleton]
      exact .inr (by omega)
    · have hframe : (((s.setNet net).setFrame t (s.frames t ++ [v])).frames main) =
          s.frames main := Function.update_of_ne (Ne.symm ht) _ _
      rw [hframe]
      exact .inr (by omega)

theorem ReturnsOne.keeps (h : ReturnsOne T x) (hT : ∀ t ∈ T, t = main) :
    Keeps (OtherFrames main) x := by
  intro s u hu
  obtain ⟨net, ⟨e, _, hrun⟩ | ⟨t, ht, v, hrun⟩⟩ := h s
  · rw [after_of_error hrun]
    rfl
  · rw [after_of_run hrun]
    exact Function.update_of_ne (by rw [hT t ht]; exact hu) _ _

end Rules

/-! ## Calls from any thread -/

/-- The call from the thread `L` does on the frame of `L` what the same call does on the frame
of the main thread, with the same outcome, and leaves the frames of all other threads alone. -/
def SameAsMain (main L : ThreadId) (s : GlobalState σ) (call : ThreadId → Api σ Nat) : Prop :=
  let here := (call L).run s
  let there := (call main).run (s.setFrame main (s.frames L))
  outcome here = outcome there ∧
    (final here).frames = Function.update s.frames L ((final there).frames main) ∧
      (final here).net = (final there).net ∧ (final here).tables = (final there).tables

/-- A callback that counts `k` arguments on the thread that calls it and pops them from the main
thread. -/
theorem sameAsMain_of_pops {main : ThreadId} {k : Nat} {m : Int} (hm : 0 < m) {message : String}
    {body call : ThreadId → Api σ Nat}
    (hcall : ∀ L, call L = do
      let top ← luaGetTop L
      if top ≠ k then luaLError message else body L)
    (hdefined : Defined main k (body main)) (hlowers : ∀ L, Lowers main m (body L))
    (hkeeps : Keeps (OtherFrames main) (body main)) (s : GlobalState σ) (L : ThreadId) :
    SameAsMain main L s call ↔ L = main ∨ (s.frames L).length ≠ k := by
  have hrun : ∀ L (s : GlobalState σ), (call L).run s =
      (if ((s.frames L).length : Int) ≠ k then luaLError message
        else body L : Api σ Nat).run s := by
    intro L s
    rw [hcall L, run_bind_of_ok run_luaGetTop]
  constructor
  · intro hsame
    by_contra hnot
    obtain ⟨hL, hk⟩ : L ≠ main ∧ ¬ ((s.frames L).length : Int) ≠ k := by
      rw [not_or, not_not] at hnot
      exact ⟨hnot.1, not_not.mpr (congrArg _ hnot.2)⟩
    have hthere : ((s.setFrame main (s.frames L)).frames main) = s.frames L :=
      s.setFrame_frames main _
    obtain ⟨houtcome, hframes, _⟩ := hsame
    rw [hrun, hrun, if_neg hk, hthere, if_neg hk] at houtcome hframes
    rcases hlowers L s with hundefined | hlower
    · refine hdefined (s.setFrame main (s.frames L)) ?_ (houtcome.symm.trans hundefined)
      rw [hthere]
      omega
    · rw [hframes, Function.update_of_ne (Ne.symm hL)] at hlower
      omega
  · rintro (rfl | hk)
    · have hself : s.setFrame L (s.frames L) = s := s.setFrame_self L
      show outcome _ = outcome _ ∧ _
      rw [hself]
      refine ⟨rfl, ?_, rfl, rfl⟩
      have hothers : OtherFrames L s (final ((call L).run s)) := by
        rw [hrun]
        by_cases hk : ((s.frames L).length : Int) ≠ k
        · rw [if_pos hk]
          exact fun _ _ => rfl
        · rw [if_neg hk]
          exact hkeeps s
      funext t
      by_cases ht : t = L
      · rw [ht, Function.update_self]
      · rw [Function.update_of_ne ht, hothers t ht]
    · have hk' : ((s.frames L).length : Int) ≠ k := by omega
      have hthere : ((s.setFrame main (s.frames L)).frames main) = s.frames L :=
        s.setFrame_frames main _
      show outcome ((call L).run s) = outcome ((call main).run _) ∧ _
      rw [hrun, hrun, hthere, if_pos hk', if_pos hk']
      refine ⟨rfl, ?_, rfl, rfl⟩
      show s.frames = Function.update s.frames L ((s.setFrame main (s.frames L)).frames main)
      rw [hthere, Function.update_eq_self]

/-- **`objhelper` from every Lua thread.** A call of `get_field` or `set_field` works as the same
call made from the main thread exactly if it is made from the main thread or its number of
arguments is wrong. -/
theorem objhelper_sameAsMain_iff (P : Platform) (R : Reflection σ Field) (main L : ThreadId)
    (s : GlobalState σ) :
    (SameAsMain main L s (luaGetfield P R main) ↔ L = main ∨ (s.frames L).length ≠ 2) ∧
      (SameAsMain main L s (luaSetfield P R main) ↔ L = main ∨ (s.frames L).length ≠ 3) := by
  constructor
  · apply sameAsMain_of_pops (m := 1) (by decide) (fun L => rfl)
    · exact .pop fun n => .pop fun o => (returnsOne_getfieldOf R main main n o).defined
    · exact fun L => .pop fun n => .pop fun o => (returnsOne_getfieldOf R main L n o).lowers
    · refine keeps_bind keeps_luaPopObject fun n => keeps_bind keeps_luaPopObject fun o => ?_
      exact (returnsOne_getfieldOf R main main n o).keeps (by simp)
  · apply sameAsMain_of_pops (m := 2) (by decide) (fun L => rfl)
    · exact .pop fun v => .pop fun n => .pop fun o =>
        (returnsOne_setfieldOf R main v n o).defined
    · exact fun L => .pop fun v => .pop fun n => .pop fun o =>
        (returnsOne_setfieldOf R L v n o).lowers
    · refine keeps_bind keeps_luaPopObject fun v => keeps_bind keeps_luaPopObject fun n =>
        keeps_bind keeps_luaPopObject fun o => ?_
      exact (returnsOne_setfieldOf R main v n o).keeps (by simp)

/-- Reflection on objects that have no fields. -/
def noFields : Reflection Unit Unit where
  getField _ _ s := (none, s)
  getValue _ _ s := (.ok .null, s)
  setValue _ _ _ s := (.ok (), s)
  push _ s := (.nil, s)

/-- The main thread has resumed the coroutine 1, which calls `get_field` with an object and a
name. -/
def resumedCoroutine : GlobalState Unit where
  frames t := if t = 1 then [.object 3, .string (ascii "x")] else [.thread 1]
  tables _ := ∅
  globals := 0
  nextTable := 1
  globals_lt := Nat.one_pos
  net := ()

/-- The call takes the coroutine off the frame of `coroutine.resume` and never looks at its own
arguments. -/
theorem get_field_in_coroutine :
    ¬ SameAsMain 0 1 resumedCoroutine (luaGetfield asciiPlatform noFields 0) := by
  rintro ⟨houtcome, _⟩
  revert houtcome
  decide +kernel

end LuaAddons
