import LuaAddons.Structs

/-!
# The items of a format

A format is a row of items, each with the byte order and the alignment that hold for it (`items`).
`pack`, `unpack` and `size` go through the items of the format.
-/

namespace LuaAddons.Struct

open Binary64 Reading

/-! ## Items -/

structure Item where
  opt : Letter
  size : Nat
  header : Header
  deriving DecidableEq

/-- The items of the format. -/
def items (h : Header) (fmt : LuaString) : Except StructError (List Item) :=
  match fmt with
  | [] => .ok []
  | o :: rest =>
    match _h : optsize rest (letter o) with
    | .error e => .error e
    | .ok (size, fmt) =>
      match letter o with
      | .other opt =>
        match _hcontrol : controloptions opt fmt h with
        | .error e => .error e
        | .ok (fmt, h) => items h fmt
      | opt => (items h fmt).map (⟨opt, size, h⟩ :: ·)
termination_by fmt.length
decreasing_by
  · have hle := length_optsize _h
    have hle' := length_controloptions _hcontrol
    rw [List.length_cons]
    omega
  · have hle := length_optsize _h
    rw [List.length_cons]
    omega

def Item.toalign (item : Item) (len : Nat) : Nat :=
  gettoalign len item.header item.opt item.size

/-- `pack` on items. -/
def packItems (k : Conversions) :
    List Item → Nat → List LuaValue → Nat → LuaString → Except StructError LuaString
  | [], _, _, _, b => .ok b
  | item :: l, arg, args, totalsize, b =>
    let toalign := item.toalign totalsize
    packOption k item.header.endian arg args item.size item.opt >>= fun r =>
      packItems k l (arg + r.2.2) (args.drop r.2.2)
        (((totalsize + toalign) % 2 ^ 32 + r.2.1) % 2 ^ 32)
        (b ++ List.replicate toalign 0 ++ r.1)

/-- `unpack` on items. -/
def unpackItems (k : Conversions) (data : LuaString) :
    List Item → Nat → List LuaValue → Except StructError (Nat × List LuaValue)
  | [], pos, stack => .ok (pos, stack)
  | item :: l, pos, stack =>
    let pos := (pos + item.toalign pos) % 2 ^ 32
    if data.length < (pos + item.size) % 2 ^ 32 then .error (.argument 2 "data string too short")
    else
      unpackOption k item.header.endian data pos item.size stack item.opt >>= fun r =>
        unpackItems k data l ((pos + r.2) % 2 ^ 32) r.1

/-- `size` on items. -/
def sizeItems : List Item → Nat → Except StructError Nat
  | [], pos => .ok pos
  | item :: l, pos =>
    if item.opt = .s then .error (.argument 1 "option 's' has no fixed size")
    else if item.opt = .c ∧ item.size = 0 then
      .error (.argument 1 "option 'c0' has no fixed size")
    else sizeItems l (((pos + item.toalign pos) % 2 ^ 32 + item.size) % 2 ^ 32)

theorem optsize_other {fmt rest : LuaString} {opt : UInt8} {size : Nat}
    (h : optsize fmt (.other opt) = .ok (size, rest)) : size = 0 ∧ rest = fmt := by
  cases h
  exact ⟨rfl, rfl⟩

theorem gettoalign_zero (len : Nat) (h : Header) (opt : Letter) : gettoalign len h opt 0 = 0 :=
  if_pos (Or.inl rfl)

section Loops

variable {k : Conversions} {data : LuaString} {C : Pattern.Ctype} {h h' : Header} {o opt : UInt8}
  {rest fmt fmt' : LuaString} {size : Nat}

theorem packLoop_control (hopt : optsize rest (letter o) = .ok (size, fmt))
    (hletter : letter o = .other opt) (hcontrol : controloptions opt fmt h = .ok (fmt', h'))
    {totalsize : Nat} (hsize : totalsize < 2 ^ 32) (arg : Nat) (args : List LuaValue)
    (b : LuaString) :
    packLoop k h (o :: rest) arg args totalsize b = packLoop k h' fmt' arg args totalsize b := by
  rw [packLoop]
  split
  · rename_i herror
    rw [hopt] at herror
    cases herror
  · rename_i hopt'
    rw [hopt] at hopt'
    cases hopt'
    rw [hletter] at hopt
    obtain ⟨rfl, -⟩ := optsize_other hopt
    split
    · rename_i hletter'
      rw [hletter] at hletter'
      cases hletter'
      split
      · rename_i herror
        rw [hcontrol] at herror
        cases herror
      · rename_i hcontrol'
        rw [hcontrol] at hcontrol'
        cases hcontrol'
        simp only [gettoalign_zero, List.replicate_zero, List.append_nil, Nat.add_zero,
          Nat.mod_eq_of_lt hsize]
    · rename_i hother
      exact (hother _ hletter).elim

theorem packLoop_option (hopt : optsize rest (letter o) = .ok (size, fmt))
    (hother : ∀ opt, letter o ≠ .other opt) (totalsize arg : Nat) (args : List LuaValue)
    (b : LuaString) :
    packLoop k h (o :: rest) arg args totalsize b =
      packOption k h.endian arg args size (letter o) >>= fun r =>
        packLoop k h fmt (arg + r.2.2) (args.drop r.2.2)
          (((totalsize + gettoalign totalsize h (letter o) size) % 2 ^ 32 + r.2.1) % 2 ^ 32)
          (b ++ List.replicate (gettoalign totalsize h (letter o) size) 0 ++ r.1) := by
  rw [packLoop]
  split
  · rename_i herror
    rw [hopt] at herror
    cases herror
  · rename_i hopt'
    rw [hopt] at hopt'
    cases hopt'
    split
    · rename_i hletter
      exact absurd hletter (hother _)
    · rfl

theorem unpackLoop_control (hopt : optsize rest (letter o) = .ok (size, fmt))
    (hletter : letter o = .other opt) (hcontrol : controloptions opt fmt h = .ok (fmt', h'))
    {pos : Nat} (hpos : pos < 2 ^ 32) (hle : pos ≤ data.length) (stack : List LuaValue) :
    unpackLoop k data h (o :: rest) pos stack = unpackLoop k data h' fmt' pos stack := by
  rw [unpackLoop]
  split
  · rename_i herror
    rw [hopt] at herror
    cases herror
  · rename_i hopt'
    rw [hopt] at hopt'
    cases hopt'
    rw [hletter] at hopt
    obtain ⟨rfl, -⟩ := optsize_other hopt
    simp only [gettoalign_zero, Nat.add_zero, Nat.mod_eq_of_lt hpos, if_neg (Nat.not_lt.mpr hle)]
    split
    · rename_i hletter'
      rw [hletter] at hletter'
      cases hletter'
      split
      · rename_i herror
        rw [hcontrol] at herror
        cases herror
      · rename_i hcontrol'
        rw [hcontrol] at hcontrol'
        cases hcontrol'
        rfl
    · rename_i hother
      exact (hother _ hletter).elim

theorem unpackLoop_option (hopt : optsize rest (letter o) = .ok (size, fmt))
    (hother : ∀ opt, letter o ≠ .other opt) (pos : Nat) (stack : List LuaValue) :
    unpackLoop k data h (o :: rest) pos stack =
      if data.length < ((pos + gettoalign pos h (letter o) size) % 2 ^ 32 + size) % 2 ^ 32 then
        .error (.argument 2 "data string too short")
      else
        unpackOption k h.endian data ((pos + gettoalign pos h (letter o) size) % 2 ^ 32) size stack
            (letter o) >>= fun r =>
          unpackLoop k data h fmt
            (((pos + gettoalign pos h (letter o) size) % 2 ^ 32 + r.2) % 2 ^ 32) r.1 := by
  rw [unpackLoop]
  split
  · rename_i herror
    rw [hopt] at herror
    cases herror
  · rename_i hopt'
    rw [hopt] at hopt'
    cases hopt'
    dsimp only
    split
    · rfl
    · split
      · rename_i hletter
        exact absurd hletter (hother _)
      · rfl

end Loops

/-- The loop of `pack` goes through the items. -/
theorem packLoop_eq {k : Conversions} {h : Header} {fmt : LuaString} {its : List Item}
    (hits : items h fmt = .ok its) {arg totalsize : Nat} {args : List LuaValue} {b : LuaString}
    (hsize : totalsize < 2 ^ 32) :
    packLoop k h fmt arg args totalsize b = packItems k its arg args totalsize b := by
  fun_induction items h fmt generalizing its arg args totalsize b with
  | case1 =>
    cases hits
    rw [packLoop, packItems]
  | case2 => cases hits
  | case3 => cases hits
  | case4 h o rest size fmt hopt opt hletter fmt' h' hcontrol ih =>
    rw [packLoop_control hopt hletter hcontrol hsize, ih hits hsize]
  | case5 h o rest size fmt hopt hother ih =>
    cases hrest : items h fmt with
    | error e =>
      rw [hrest] at hits
      cases hits
    | ok l =>
      rw [hrest] at hits
      cases hits
      rw [packLoop_option hopt hother, packItems]
      refine bind_congr (fun r => ?_)
      exact ih hrest (Nat.mod_lt _ (by decide))

/-- The end of what was read is in the data string again. -/
theorem unpackOption_pos {k : Conversions} {endian : Endian} {data : LuaString} {pos size : Nat}
    {stack : List LuaValue} {opt : Letter} {r : List LuaValue × Nat}
    (hle : (pos + size) % 2 ^ 32 ≤ data.length)
    (h : unpackOption k endian data pos size stack opt = .ok r) :
    (pos + r.2) % 2 ^ 32 ≤ data.length := by
  have hinteger {signed : Bool}
      (h : (bytesAt data pos size >>= fun bytes => getinteger endian signed size bytes >>=
        fun res => pushnumber k res >>= fun res => Except.ok (res :: stack, size)) = .ok r) :
      (pos + r.2) % 2 ^ 32 ≤ data.length := by
    obtain ⟨bytes, -, h⟩ := bind_eq_ok.mp h
    obtain ⟨res, -, h⟩ := bind_eq_ok.mp h
    obtain ⟨v, -, h⟩ := bind_eq_ok.mp h
    cases h
    exact hle
  cases opt with
  | x =>
    cases h
    exact hle
  | other =>
    cases h
    exact hle
  | f =>
    obtain ⟨bytes, -, h⟩ := bind_eq_ok.mp h
    obtain ⟨v, -, h⟩ := bind_eq_ok.mp h
    cases h
    exact hle
  | d =>
    obtain ⟨bytes, -, h⟩ := bind_eq_ok.mp h
    obtain ⟨v, -, h⟩ := bind_eq_ok.mp h
    cases h
    exact hle
  | c =>
    rw [unpackOption] at h
    split at h
    · split at h
      · cases h
      · obtain ⟨size', -, h⟩ := bind_eq_ok.mp h
        split at h
        · cases h
        · rename_i hshort
          obtain ⟨bytes, -, h⟩ := bind_eq_ok.mp h
          cases h
          exact Nat.le_of_not_lt hshort
    · obtain ⟨bytes, -, h⟩ := bind_eq_ok.mp h
      cases h
      exact hle
  | s =>
    rw [unpackOption] at h
    split at h
    · cases h
    · rename_i e hfind
      cases h
      obtain ⟨hlt, -⟩ := List.findIdx?_eq_some_iff_getElem.mp hfind
      rw [List.length_drop] at hlt
      exact Nat.le_trans (Nat.mod_le _ _) (by dsimp only; omega)
  | b => exact hinteger h
  | B => exact hinteger h
  | h => exact hinteger h
  | H => exact hinteger h
  | l => exact hinteger h
  | L => exact hinteger h
  | T => exact hinteger h
  | i => exact hinteger h
  | I => exact hinteger h

/-- The loop of `unpack` goes through the items. -/
theorem unpackLoop_eq {k : Conversions} {data : LuaString} {h : Header} {fmt : LuaString}
    {its : List Item} (hits : items h fmt = .ok its) {pos : Nat} {stack : List LuaValue}
    (hpos : pos < 2 ^ 32) (hle : pos ≤ data.length) :
    unpackLoop k data h fmt pos stack = unpackItems k data its pos stack := by
  fun_induction items h fmt generalizing its pos stack with
  | case1 =>
    cases hits
    rw [unpackLoop, unpackItems]
  | case2 => cases hits
  | case3 => cases hits
  | case4 h o rest size fmt hopt opt hletter fmt' h' hcontrol ih =>
    rw [unpackLoop_control hopt hletter hcontrol hpos hle, ih hits hpos hle]
  | case5 h o rest size fmt hopt hother ih =>
    cases hrest : items h fmt with
    | error e =>
      rw [hrest] at hits
      cases hits
    | ok l =>
      rw [hrest] at hits
      cases hits
      rw [unpackLoop_option hopt hother, unpackItems]
      dsimp only [Item.toalign]
      refine ite_congr rfl (fun _ => rfl) (fun hshort => ?_)
      cases hread : unpackOption k h.endian data
          ((pos + gettoalign pos h (letter o) size) % 2 ^ 32) size stack (letter o) with
      | error e => rfl
      | ok r =>
        have hnext := unpackOption_pos (Nat.le_of_not_lt hshort) hread
        exact ih hrest (Nat.mod_lt _ (by decide)) hnext

/-- The locales agree on the characters that formats use. -/
def Ascii (C : Pattern.Ctype) : Prop :=
  ∀ c : UInt8, c < 0x80 → C.isalnum c = Pattern.cLocale.isalnum c

/-- A letter of the table, or a control option. -/
theorem letter_cases (o : UInt8) : (o, letter o) ∈ letters ∨ letter o = .other o := by
  rw [letter]
  cases h : letters.lookup o with
  | none => exact Or.inr rfl
  | some opt =>
    obtain ⟨l₁, l₂, hl, -⟩ := List.lookup_eq_some_iff.mp h
    rw [hl]
    exact Or.inl (List.mem_append_right _ List.mem_cons_self)

theorem letter_other {o opt : UInt8} (h : letter o = .other opt) : opt = o := by
  have hno : ∀ r ∈ letters, ∀ opt, r.2 ≠ .other opt := by
    simp [letters]
  rcases letter_cases o with hmem | hother
  · exact absurd h (hno _ hmem opt)
  · rw [h] at hother
    cases hother
    rfl

theorem isalnum_of_letter {C : Pattern.Ctype} (hC : Ascii C) {o : UInt8}
    (h : ∀ opt, letter o ≠ .other opt) : C.isalnum o = true := by
  have hletters : ∀ r ∈ letters, r.1 < 0x80 ∧ Pattern.cLocale.isalnum r.1 = true := by decide
  rcases letter_cases o with hmem | hother
  · obtain ⟨hascii, halnum⟩ := hletters _ hmem
    exact (hC o hascii).trans halnum
  · exact absurd hother (h o)

theorem isalnum_of_control {C : Pattern.Ctype} (hC : Ascii C) {o : UInt8} {fmt : LuaString}
    {h : Header} {r : LuaString × Header} (hcontrol : controloptions o fmt h = .ok r) :
    C.isalnum o = false := by
  have hascii {c : UInt8} (ho : o = c) (hc : c < 0x80)
      (halnum : Pattern.cLocale.isalnum c = false) : C.isalnum o = false := by
    rw [ho, hC c hc, halnum]
  unfold controloptions at hcontrol
  split at hcontrol
  · exact hascii ‹_› (by decide) (by decide)
  split at hcontrol
  · exact hascii ‹_› (by decide) (by decide)
  split at hcontrol
  · exact hascii ‹_› (by decide) (by decide)
  split at hcontrol
  · exact hascii ‹_› (by decide) (by decide)
  · cases hcontrol

/-- The loop of `size` goes through the items. -/
theorem sizeLoop_eq {C : Pattern.Ctype} (hC : Ascii C) {h : Header} {fmt : LuaString}
    {its : List Item} (hits : items h fmt = .ok its) {pos : Nat} (hpos : pos < 2 ^ 32) :
    sizeLoop C h fmt pos = sizeItems its pos := by
  fun_induction items h fmt generalizing its pos with
  | case1 =>
    cases hits
    rw [sizeLoop, sizeItems]
  | case2 => cases hits
  | case3 => cases hits
  | case4 h o rest size fmt hopt opt hletter fmt' h' hcontrol ih =>
    obtain rfl := letter_other hletter
    rw [← ih hits hpos, sizeLoop]
    split
    · rename_i herror
      rw [hopt] at herror
      cases herror
    · rename_i hopt'
      rw [hopt] at hopt'
      cases hopt'
      rw [hletter] at hopt
      obtain ⟨rfl, -⟩ := optsize_other hopt
      simp only [hletter, gettoalign_zero, Nat.add_zero, Nat.mod_eq_of_lt hpos, reduceCtorEq,
        false_and, if_false, isalnum_of_control hC hcontrol, Bool.false_eq_true]
      split
      · rename_i herror
        rw [hcontrol] at herror
        cases herror
      · rename_i hcontrol'
        rw [hcontrol] at hcontrol'
        cases hcontrol'
        rfl
  | case5 h o rest size fmt hopt hother ih =>
    cases hrest : items h fmt with
    | error e =>
      rw [hrest] at hits
      cases hits
    | ok l =>
      rw [hrest] at hits
      cases hits
      rw [sizeLoop, sizeItems]
      split
      · rename_i herror
        rw [hopt] at herror
        cases herror
      · rename_i hopt'
        rw [hopt] at hopt'
        cases hopt'
        dsimp only [Item.toalign]
        rw [if_pos (isalnum_of_letter hC hother), ih hrest (Nat.mod_lt _ (by decide))]

/-- A format that `pack` got through is well-formed. -/
theorem items_of_packLoop {k : Conversions} {h : Header} {fmt : LuaString} {arg totalsize : Nat}
    {args : List LuaValue} {b b' : LuaString} (hsize : totalsize < 2 ^ 32)
    (hpack : packLoop k h fmt arg args totalsize b = .ok b') : ∃ its, items h fmt = .ok its := by
  fun_induction items h fmt generalizing arg args totalsize b with
  | case1 => exact ⟨_, rfl⟩
  | case2 h o rest e herror =>
    rw [packLoop] at hpack
    split at hpack
    · cases hpack
    · rename_i hopt
      rw [herror] at hopt
      cases hopt
  | case3 h o rest size fmt hopt opt hletter e herror =>
    rw [packLoop] at hpack
    split at hpack
    · cases hpack
    · rename_i hopt'
      rw [hopt] at hopt'
      cases hopt'
      split at hpack
      · rename_i hletter'
        rw [hletter] at hletter'
        cases hletter'
        split at hpack
        · cases hpack
        · rename_i hcontrol
          rw [herror] at hcontrol
          cases hcontrol
      · rename_i hother
        exact (hother _ hletter).elim
  | case4 h o rest size fmt hopt opt hletter fmt' h' hcontrol ih =>
    rw [packLoop_control hopt hletter hcontrol hsize] at hpack
    exact ih hsize hpack
  | case5 h o rest size fmt hopt hother ih =>
    rw [packLoop_option hopt hother] at hpack
    obtain ⟨r, -, hpack⟩ := bind_eq_ok.mp hpack
    obtain ⟨l, hl⟩ := ih (Nat.mod_lt _ (by decide)) hpack
    rw [hl]
    exact ⟨_, rfl⟩

/-! ## Items of a format -/

/-- The size that belongs to an option. -/
def Sized (size : Nat) : Letter → Prop
  | .x => size = 1
  | .f => size = 4
  | .d => size = 8
  | .s => size = 0
  | _ => True

theorem sized_optsize {fmt rest : LuaString} {opt : Letter} {size : Nat}
    (h : optsize fmt opt = .ok (size, rest)) : Sized size opt := by
  cases opt <;> first | trivial | (cases h; rfl)

/-- The alignment that a format sets is a power of two. -/
theorem align_controloptions {opt : UInt8} {fmt rest : LuaString} {h h' : Header}
    (halign : ∃ j, h.align = 2 ^ j) (hcontrol : controloptions opt fmt h = .ok (rest, h')) :
    ∃ j, h'.align = 2 ^ j := by
  unfold controloptions at hcontrol
  split at hcontrol
  · cases hcontrol
    exact halign
  split at hcontrol
  · cases hcontrol
    exact halign
  split at hcontrol
  · cases hcontrol
    exact halign
  split at hcontrol
  · split at hcontrol
    · cases hcontrol
    · rename_i a fmt' hnum
      split at hcontrol
      · cases hcontrol
      · rename_i hpower
        cases hcontrol
        simp only [isp2, Bool.not_eq_true', Bool.and_eq_false_imp, decide_eq_true_eq,
          Classical.not_imp, Bool.not_eq_false, beq_iff_eq] at hpower
        have hpow := Nat.ne_zero_and_sub_one_eq_zero_iff_isPowerOfTwo.mp
          ⟨Nat.pos_iff_ne_zero.mp hpower.1, hpower.2⟩
        exact hpow
  · cases hcontrol

/-- What holds of each item of a format. -/
structure Item.WellFormed (item : Item) : Prop where
  sized : Sized item.size item.opt
  align : ∃ j, item.header.align = 2 ^ j
  letter : ∀ opt, item.opt ≠ .other opt

theorem wellFormed_items {h : Header} {fmt : LuaString} {its : List Item}
    (halign : ∃ j, h.align = 2 ^ j) (hits : items h fmt = .ok its) :
    ∀ item ∈ its, item.WellFormed := by
  fun_induction items h fmt generalizing its with
  | case1 =>
    cases hits
    exact fun _ hitem => absurd hitem List.not_mem_nil
  | case2 => cases hits
  | case3 => cases hits
  | case4 h o rest size fmt hopt opt hletter fmt' h' hcontrol ih =>
    exact ih (align_controloptions halign hcontrol) hits
  | case5 h o rest size fmt hopt hother ih =>
    cases hrest : items h fmt with
    | error e =>
      rw [hrest] at hits
      cases hits
    | ok l =>
      rw [hrest] at hits
      cases hits
      exact List.forall_mem_cons.mpr ⟨⟨sized_optsize hopt, halign, hother⟩, ih halign hrest⟩

/-! ## Alignment -/

theorem and_eq_mod_and {x m j : Nat} (hm : m < 2 ^ j) : x &&& m = (x % 2 ^ j) &&& m := by
  apply Nat.eq_of_testBit_eq
  intro i
  rw [Nat.testBit_and, Nat.testBit_and, Nat.testBit_mod_two_pow]
  by_cases hi : i < j
  · simp [hi]
  · have hlt : m < 2 ^ i := Nat.lt_of_lt_of_le hm (Nat.pow_le_pow_right (by decide) (by omega))
    have hbit : m.testBit i = false := Nat.testBit_eq_false_of_lt hlt
    simp [hi, hbit]

/-- What stands before keeps the alignment when its length is a multiple of it. -/
theorem toalign_add {item : Item} (hitem : item.WellFormed) {base : Nat}
    (hbase : item.header.align ∣ base) (len : Nat) :
    item.toalign (base + len) = item.toalign len := by
  obtain ⟨j, hj⟩ := hitem.align
  obtain ⟨c, rfl⟩ := hbase
  have hmask (m : Nat) (hm : m < 2 ^ j) : (item.header.align * c + len) &&& m = len &&& m := by
    rw [and_eq_mod_and hm, hj, Nat.mul_add_mod, ← and_eq_mod_and hm]
  rw [Item.toalign, Item.toalign, gettoalign, gettoalign]
  by_cases hnone : item.size = 0 ∨ item.opt = .c
  · rw [if_pos hnone, if_pos hnone]
  · rw [if_neg hnone, if_neg hnone]
    dsimp only
    rw [hmask]
    have hpos : 0 < 2 ^ j := Nat.two_pow_pos j
    rw [hj]
    split <;> omega

end LuaAddons.Struct
