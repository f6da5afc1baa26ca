import LuaAddons.Callbacks

/-!
# Messages as formats

`luaL_error` hands its message to `luaO_pushvfstring` (`Lua/src/lobject.cpp`) as a format. The
plugin passes no further arguments, so `va_arg` finds whatever the machine holds where they
would be; a `VaList` gives that for every number of arguments taken before.

A format comes out unchanged, without an argument taken, exactly when it has no percent sign
(`verbatim_iff`).
-/

namespace LuaAddons

open Exec

/-! ## The interpreter -/

/-- What `va_arg` finds behind the arguments taken so far, by the type it is asked for. -/
structure VaList where
  /-- `char *`, `none` for `NULL`. -/
  string : Nat → Option LuaString
  int : Nat → Int
  /-- `l_uacNumber`, as `lua_Number2str` prints it. -/
  number : Nat → LuaString
  /-- `void *`, as `sprintf` prints it for `%p`. -/
  pointer : Nat → LuaString

/-- The character `%`. -/
def percent : UInt8 := 0x25

/-- The `switch` of `luaO_pushvfstring` on the character behind a percent sign, `none` at the end
of the format: what is pushed and how many arguments are taken by then. An invalid option is
thrown. -/
def formatItem (argp : VaList) (taken : Nat) : Option UInt8 → Except UInt8 (LuaString × Nat)
  | none => .error 0
  | some option =>
    if option = 0x73 then .ok ((argp.string taken).getD (ascii "(null)"), taken + 1)
    else if option = 0x63 then .ok ([.ofNat (argp.int taken % 256).toNat], taken + 1)
    else if option = 0x64 then .ok (ascii (toString (argp.int taken)), taken + 1)
    else if option = 0x66 then .ok (argp.number taken, taken + 1)
    else if option = 0x70 then .ok (argp.pointer taken, taken + 1)
    else if option = percent then .ok ([percent], taken)
    else .error option

/-- The loop of `luaO_pushvfstring`: the strings that it pushes, and how many arguments it has
taken. -/
def pushPieces (argp : VaList) (fmt : LuaString) (taken : Nat) :
    Except UInt8 (List LuaString × Nat) :=
  match _h : fmt.dropWhile (· ≠ percent) with
  | [] => .ok ([fmt], taken)
  | _ :: e =>
    match formatItem argp taken e.head? with
    | .error option => .error option
    | .ok (item, taken) =>
      match pushPieces argp e.tail taken with
      | .error option => .error option
      | .ok (pieces, taken) => .ok (fmt.takeWhile (· ≠ percent) :: item :: pieces, taken)
termination_by fmt.length
decreasing_by
  have hle := (List.dropWhile_suffix (l := fmt) (· ≠ percent)).length_le
  rw [_h, List.length_cons] at hle
  rw [List.length_tail]
  omega

/-- `luaO_pushvfstring`: the string and the number of arguments taken. -/
def luaOPushvfstring (argp : VaList) (fmt : LuaString) : Except UInt8 (LuaString × Nat) :=
  (pushPieces argp fmt 0).map (fun r => (r.1.flatten, r.2))

/-- The format comes out as it is: no argument is taken and no option is invalid. -/
def Verbatim (argp : VaList) (fmt : LuaString) : Prop := luaOPushvfstring argp fmt = .ok (fmt, 0)

/-! ## Formats with and without percent signs -/

variable {argp : VaList} {fmt item : LuaString} {taken taken' : Nat}

theorem pushPieces_of_notMem (h : percent ∉ fmt) :
    pushPieces argp fmt taken = .ok ([fmt], taken) := by
  have hdrop : fmt.dropWhile (· ≠ percent) = [] := by
    rw [List.dropWhile_eq_nil_iff]
    intro c hc
    exact decide_eq_true fun heq => h (heq ▸ hc)
  rw [pushPieces]
  split
  · rfl
  · rename_i hcons
    rw [hdrop] at hcons
    cases hcons

theorem formatItem_ok {option : Option UInt8}
    (h : formatItem argp taken option = .ok (item, taken')) :
    option.isSome ∧ (taken' = taken + 1 ∨ (item = [percent] ∧ taken' = taken)) := by
  cases option with
  | none => cases h
  | some option =>
    refine ⟨rfl, ?_⟩
    rw [formatItem] at h
    split_ifs at h <;> cases h <;> first | exact .inl rfl | exact .inr ⟨rfl, rfl⟩

/-- Where the loop takes no argument, what it pushes is no longer than the format, and shorter
when there is a percent sign. -/
theorem length_pushPieces {pieces : List LuaString}
    (h : pushPieces argp fmt taken = .ok (pieces, taken')) :
    taken ≤ taken' ∧ (taken' = taken → pieces.flatten.length ≤ fmt.length ∧
      (percent ∈ fmt → pieces.flatten.length < fmt.length)) := by
  fun_induction pushPieces argp fmt taken generalizing pieces taken' with
  | case1 fmt taken hdrop =>
    cases h
    refine ⟨Nat.le_refl _, fun _ => ⟨by simp, fun hmem => ?_⟩⟩
    exact absurd rfl (of_decide_eq_true (List.dropWhile_eq_nil_iff.mp hdrop percent hmem))
  | case2 => cases h
  | case3 => cases h
  | case4 fmt taken c e hdrop item taken₁ hitem rest taken₂ hrest ih =>
    cases h
    obtain ⟨hsome, hcases⟩ := formatItem_ok hitem
    obtain ⟨hle, hshort⟩ := ih hrest
    have he : e.tail.length + 1 = e.length := by
      cases e with
      | nil => cases hsome
      | cons d e => rfl
    have hlength : fmt.length = (fmt.takeWhile (· ≠ percent)).length + (e.length + 1) := by
      have hsplit := List.takeWhile_append_dropWhile (p := (· ≠ percent)) (l := fmt)
      conv_lhs => rw [← hsplit, hdrop, List.length_append, List.length_cons]
    rcases hcases with htaken | ⟨hpercent, htaken⟩
    · exact ⟨by omega, fun heq => by omega⟩
    · refine ⟨by omega, fun heq => ?_⟩
      have hrestLength := (hshort (by omega)).1
      simp only [List.flatten_cons, List.length_append, hpercent, List.length_singleton]
      exact ⟨by omega, fun _ => by omega⟩

theorem verbatim_iff (argp : VaList) (fmt : LuaString) : Verbatim argp fmt ↔ percent ∉ fmt := by
  rw [Verbatim, luaOPushvfstring]
  constructor
  · intro h hmem
    cases hrun : pushPieces argp fmt 0 with
    | error option =>
      rw [hrun] at h
      cases h
    | ok r =>
      obtain ⟨pieces, taken⟩ := r
      rw [hrun] at h
      injection h with h
      injection h with hfmt htaken
      have hless := ((length_pushPieces hrun).2 htaken).2 hmem
      rw [hfmt] at hless
      exact absurd hless (Nat.lt_irrefl _)
  · intro h
    rw [pushPieces_of_notMem h]
    simp [Except.map]

/-! ## The refusal of a command -/

/-- The message of `lua_AddonNewCommand` for a command that `RegisterCommand` refuses. -/
def refusal (P : Platform) (name : LuaString) : String :=
  "Failed to register command '" ++ P.luaToString name ++ "'!"

theorem run_refused {P : Platform} {fileName : String} {s : GlobalState Registry} {L : ThreadId}
    {name permission : LuaString} {f : LuaFunction}
    (hframe : s.frames L = [.string name, .string permission, .function f])
    (hrefused : (registerCommand P (P.toLower fileName) (P.luaToString permission)
      (P.luaToString name) s.net).1 = false) :
    ∃ s', (luaAddonNewCommand P (registerCommand P) fileName L).run s =
      .error (.raised (refusal P name)) s' :=
  ⟨_, run_luaAddonNewCommand_refused hframe hrefused⟩

/-- The code page takes a text character by character, and ASCII text to itself. -/
structure AsciiCodePage (P : Platform) : Prop where
  encode_append : ∀ s t, P.encode (s ++ t) = P.encode s ++ P.encode t
  encode_ascii : ∀ s : String, (∀ c ∈ s.toList, c.toNat < 128) → P.encode s = ascii s

theorem asciiCodePage_asciiPlatform : AsciiCodePage asciiPlatform where
  encode_append s t := by simp [asciiPlatform]
  encode_ascii s _ := by simp [asciiPlatform, ascii]

/-- The percent signs of a message around a name are those of the name. -/
theorem percent_mem_append {P : Platform} (h : AsciiCodePage P) {a b name : String}
    (ha : ∀ c ∈ P.encode a, c ≠ 0 ∧ c ≠ percent) (hb : ∀ c ∈ P.encode b, c ≠ 0 ∧ c ≠ percent)
    (hzero : 0 ∉ P.encode name) :
    percent ∈ P.luaPushString (a ++ name ++ b) ↔ percent ∈ P.encode name := by
  have hencode : P.encode (a ++ name ++ b) = P.encode a ++ P.encode name ++ P.encode b := by
    rw [h.encode_append, h.encode_append]
  have hnonzero : ∀ c ∈ P.encode (a ++ name ++ b), decide (c ≠ 0) = true := by
    rw [hencode]
    intro c hc
    apply decide_eq_true
    rintro rfl
    rcases List.mem_append.mp hc with hc | hc
    · rcases List.mem_append.mp hc with hc | hc
      · exact (ha 0 hc).1 rfl
      · exact hzero hc
    · exact (hb 0 hc).1 rfl
  have hprefix : percent ∉ P.encode a := fun hmem => (ha percent hmem).2 rfl
  have hsuffix : percent ∉ P.encode b := fun hmem => (hb percent hmem).2 rfl
  rw [Platform.luaPushString, List.takeWhile_eq_self_iff.mpr hnonzero, hencode, List.mem_append,
    List.mem_append, or_iff_right hprefix, or_iff_left hsuffix]

/-- On such a code page the message has a percent sign exactly when the name has one. -/
theorem percent_mem_refusal {P : Platform} (h : AsciiCodePage P) {name : LuaString}
    (hzero : 0 ∉ P.encode (P.luaToString name)) :
    percent ∈ P.luaPushString (refusal P name) ↔ percent ∈ P.encode (P.luaToString name) := by
  apply percent_mem_append h _ _ hzero
  · rw [h.encode_ascii _ (by simp)]
    simp [ascii, percent]
  · rw [h.encode_ascii _ (by simp)]
    simp [ascii, percent]

/-- A refused registration raises its message as a format, and the message comes out as it is
exactly when its bytes have no percent sign: when the name has none, on a code page that takes
ASCII text to itself. -/
theorem refusal_verbatim_iff (P : Platform) (argp : VaList) (fileName : String)
    (s : GlobalState Registry) (L : ThreadId) (name permission : LuaString) (f : LuaFunction)
    (hframe : s.frames L = [.string name, .string permission, .function f])
    (hrefused : (registerCommand P (P.toLower fileName) (P.luaToString permission)
      (P.luaToString name) s.net).1 = false) :
    (∃ s', (luaAddonNewCommand P (registerCommand P) fileName L).run s =
      .error (.raised (refusal P name)) s') ∧
    (Verbatim argp (P.luaPushString (refusal P name)) ↔
      percent ∉ P.luaPushString (refusal P name)) ∧
    (AsciiCodePage P → 0 ∉ P.encode (P.luaToString name) →
      (Verbatim argp (P.luaPushString (refusal P name)) ↔
        percent ∉ P.encode (P.luaToString name))) := by
  refine ⟨run_refused hframe hrefused, verbatim_iff _ _, fun hpage hzero => ?_⟩
  rw [verbatim_iff, percent_mem_refusal hpage hzero]

/-- A script registers a command that an addon owns already. -/
def ownedCommand (name : LuaString) : GlobalState Registry where
  frames _ := [.string name, .string [], .function 0]
  tables _ := ∅
  globals := 0
  nextTable := 1
  globals_lt := Nat.one_pos
  net :=
    { addonCommands := AList.singleton "first" [asciiPlatform.luaToString name]
      chatCommands := []
      nextCommand := 0 }

/-- Nothing is known about the arguments that are not there. -/
def noArguments : VaList where
  string _ := none
  int _ := 0
  number _ := []
  pointer _ := []

theorem refusal_home_verbatim :
    (∃ s', (luaAddonNewCommand asciiPlatform (registerCommand asciiPlatform) "second" 0).run
      (ownedCommand (ascii "home")) = .error (.raised (refusal asciiPlatform (ascii "home"))) s') ∧
    Verbatim noArguments (asciiPlatform.luaPushString (refusal asciiPlatform (ascii "home"))) := by
  obtain ⟨hrun, _, hverbatim⟩ := refusal_verbatim_iff asciiPlatform noArguments "second"
    (ownedCommand (ascii "home")) 0 (ascii "home") [] 0 rfl (by decide +kernel)
  exact ⟨hrun, (hverbatim asciiCodePage_asciiPlatform (by decide +kernel)).mpr (by decide +kernel)⟩

/-- The name `%s` takes an argument that is not there. -/
theorem percent_name_interpreted :
    ¬ ∀ (P : Platform) (argp : VaList) (fileName : String) (s : GlobalState Registry)
      (L : ThreadId) (name permission : LuaString) (f : LuaFunction), (0 : UInt8) ∉ name →
        s.frames L = [.string name, .string permission, .function f] →
        (registerCommand P (P.toLower fileName) (P.luaToString permission) (P.luaToString name)
          s.net).1 = false →
        ∃ fmt s', (luaAddonNewCommand P (registerCommand P) fileName L).run s =
          .error (.raised fmt) s' ∧ Verbatim argp (P.luaPushString fmt) := by
  intro h
  have hrefused : (registerCommand asciiPlatform (asciiPlatform.toLower "second")
      (asciiPlatform.luaToString []) (asciiPlatform.luaToString (ascii "%s"))
      (ownedCommand (ascii "%s")).net).1 = false := by decide +kernel
  obtain ⟨fmt, s', hrun, hverbatim⟩ := h asciiPlatform noArguments "second"
    (ownedCommand (ascii "%s")) 0 (ascii "%s") [] 0 (by decide) rfl hrefused
  obtain ⟨s₁, hraised⟩ := run_refused (s := ownedCommand (ascii "%s")) rfl hrefused
  rw [hraised] at hrun
  cases hrun
  revert hverbatim
  rw [verbatim_iff]
  decide +kernel

end LuaAddons
