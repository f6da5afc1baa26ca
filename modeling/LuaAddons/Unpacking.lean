import LuaAddons.Packing

/-!
# What struct.unpack reads

`unpack` checks that the items end inside the data string, but it computes the end modulo `2 ^ 32`.
It reads outside the data string only where this wraps around, which behind a start in the string
takes a length on the stack. For items that are written in one way only, packing what was unpacked
gives the same bytes again.
-/

namespace LuaAddons.Struct

open Binary64 Reading

/-! ## Sizes -/

theorem getdigits_lt {a n : Nat} {fmt rest : LuaString} (ha : a < 2 ^ 31)
    (h : getdigits a fmt = .ok (n, rest)) : n < 2 ^ 31 := by
  induction fmt generalizing a with
  | nil =>
    cases h
    exact ha
  | cons c fmt ih =>
    rw [getdigits] at h
    split at h
    · split at h
      · cases h
      · exact ih (by omega) h
    · cases h
      exact ha

theorem getnum_lt {df n : Nat} {fmt rest : LuaString} (hdf : df < 2 ^ 31)
    (h : getnum fmt df = .ok (n, rest)) : n < 2 ^ 31 := by
  rw [getnum] at h
  split at h
  · cases h
    exact hdf
  · exact getdigits_lt (by decide) h

theorem getdigits_inside {a : Nat} {fmt : LuaString} {pos size : Nat} :
    getdigits a fmt ≠ .error (.outOfBounds pos size) := by
  induction fmt generalizing a with
  | nil =>
    intro h
    cases h
  | cons c fmt ih =>
    rw [getdigits]
    split
    · split
      · intro h
        cases h
      · exact ih
    · intro h
      cases h

theorem getnum_inside {df : Nat} {fmt : LuaString} {pos size : Nat} :
    getnum fmt df ≠ .error (.outOfBounds pos size) := by
  rw [getnum]
  split
  · intro h
    cases h
  · exact getdigits_inside

/-- The sizes of an option. Only the size of a string is not small. -/
def Bounded (size : Nat) (opt : Letter) : Prop :=
  size < 2 ^ 31 ∧ (opt ≠ .c → size ≤ 32)

theorem bounded_of_le {size : Nat} {opt : Letter} (h : size ≤ 32) : Bounded size opt :=
  ⟨Nat.lt_of_le_of_lt h (by decide), fun _ => h⟩

theorem bounded_optsize {fmt rest : LuaString} {opt : Letter} {size : Nat}
    (h : optsize fmt opt = .ok (size, rest)) : Bounded size opt := by
  have hinteger (hopt : opt = .i ∨ opt = .I) : Bounded size opt := by
    rw [optsize_integer fmt hopt] at h
    obtain ⟨r, -, h⟩ := bind_eq_ok.mp h
    split at h
    · cases h
    · cases h
      exact bounded_of_le (Nat.le_of_not_lt ‹_›)
  cases opt with
  | c => exact ⟨getnum_lt (by decide) h, fun hne => absurd rfl hne⟩
  | i => exact hinteger (Or.inl rfl)
  | I => exact hinteger (Or.inr rfl)
  | _ =>
    cases h
    exact bounded_of_le (by decide)

theorem optsize_inside {fmt : LuaString} {opt : Letter} {pos size : Nat} :
    optsize fmt opt ≠ .error (.outOfBounds pos size) := by
  have hinteger (hopt : opt = .i ∨ opt = .I) :
      optsize fmt opt ≠ .error (.outOfBounds pos size) := by
    rw [optsize_integer fmt hopt]
    cases hnum : getnum fmt 4 with
    | error e => exact fun h => getnum_inside (hnum.trans h)
    | ok r =>
      dsimp only [bind, Except.bind]
      split <;> simp
  cases opt with
  | c => exact getnum_inside
  | i => exact hinteger (Or.inl rfl)
  | I => exact hinteger (Or.inr rfl)
  | _ =>
    intro h
    cases h

theorem controloptions_inside {opt : UInt8} {fmt : LuaString} {h : Header} {pos size : Nat} :
    controloptions opt fmt h ≠ .error (.outOfBounds pos size) := by
  unfold controloptions
  split
  · intro h
    cases h
  split
  · intro h
    cases h
  split
  · intro h
    cases h
  split
  · split
    · rename_i e hnum
      intro herror
      cases herror
      exact getnum_inside hnum
    · split <;> simp
  · intro h
    cases h

/-- An item that starts below `2 ^ 31` ends below `2 ^ 32`. -/
theorem end_lt {size : Nat} {opt : Letter} (hbounded : Bounded size opt) {pos : Nat}
    (hpos : pos < 2 ^ 31) (h : Header) : pos + gettoalign pos h opt size + size < 2 ^ 32 := by
  obtain ⟨hsize, hsmall⟩ := hbounded
  by_cases hc : opt = .c
  · rw [gettoalign, if_pos (Or.inr hc)]
    omega
  · have hle := hsmall hc
    have htoalign : gettoalign pos h opt size ≤ 32 := by
      rw [gettoalign]
      split
      · exact Nat.zero_le _
      · refine Nat.le_trans Nat.and_le_right ?_
        split <;> omega
    omega

/-! ## Reads outside the data string -/

section Outside

variable {k : Conversions} {data : LuaString} {endian : Endian} {pos size p n : Nat}
  {stack : List LuaValue} {opt : Letter}

theorem bytesAt_inside (hfit : pos + size ≤ data.length) :
    bytesAt data pos size = .ok ((data.drop pos).take size) :=
  if_pos hfit

theorem bytesAt_outside :
    bytesAt data pos size = .error (.outOfBounds p n) ↔
      data.length < pos + size ∧ p = pos ∧ n = size := by
  rw [bytesAt]
  split
  · exact iff_of_false (by simp) (fun h => absurd h.1 (Nat.not_lt.mpr ‹_›))
  · constructor
    · intro h
      cases h
      exact ⟨Nat.lt_of_not_le ‹_›, rfl, rfl⟩
    · rintro ⟨-, rfl, rfl⟩
      rfl

theorem getinteger_inside {signed : Bool} {buff : LuaString} :
    getinteger endian signed size buff ≠ .error (.outOfBounds p n) := by
  unfold getinteger
  dsimp only
  split
  · intro h
    cases h
  · split <;> simp

theorem pushnumber_inside {v : UInt64} : pushnumber k v ≠ .error (.outOfBounds p n) := by
  rw [pushnumber]
  split <;> simp

theorem toSize_inside {v : UInt64} : toSize v ≠ .error (.outOfBounds p n) := by
  rw [toSize]
  split
  · intro h
    cases h
  · split <;> simp

/-- A length on the stack with which `c0` reads outside the data string. -/
def WrapsAt (k : Conversions) (stack : List LuaValue) (p n : Nat) : Prop :=
  ∃ v, tonumber k (stack.headD .nil) = some v ∧ toSize v = .ok n ∧ 2 ^ 32 ≤ p + n

theorem toSize_lt {v : UInt64} (h : toSize v = .ok n) : n < 2 ^ 32 := by
  rw [toSize] at h
  split at h
  · cases h
  · split at h
    · cases h
      omega
    · cases h

/-- An item reads outside the data string for its size, or for the length on the stack of a `c0`. -/
theorem unpackOption_outOfBounds
    (h : unpackOption k endian data pos size stack opt = .error (.outOfBounds p n)) :
    bytesAt data pos size = .error (.outOfBounds p n) ∨
      opt = .c ∧ size = 0 ∧ ∃ v m, tonumber k (stack.headD .nil) = some v ∧ toSize v = .ok m ∧
        (pos + m) % 2 ^ 32 ≤ data.length ∧ bytesAt data pos m = .error (.outOfBounds p n) := by
  have hinteger {signed : Bool} (hopt : opt.signed? = some signed) :
      bytesAt data pos size = .error (.outOfBounds p n) := by
    rw [(option_integer k endian size hopt).2] at h
    rcases bind_eq_error.mp h with h | ⟨bytes, -, h⟩
    · exact h
    rcases bind_eq_error.mp h with h | ⟨v, -, h⟩
    · exact absurd h getinteger_inside
    · cases h
  cases opt with
  | x => cases h
  | other opt => cases h
  | f | d =>
    rcases bind_eq_error.mp h with h | ⟨bytes, -, h⟩
    · exact Or.inl h
    rcases bind_eq_error.mp h with h | ⟨v, -, h⟩
    · exact absurd h pushnumber_inside
    · cases h
  | s =>
    rw [unpackOption] at h
    split at h <;> cases h
  | c =>
    rw [unpackOption] at h
    split at h
    · rename_i hzero
      split at h
      · cases h
      · rename_i v hv
        rcases bind_eq_error.mp h with h | ⟨m, hm, h⟩
        · exact absurd h toSize_inside
        split at h
        · cases h
        rcases bind_eq_error.mp h with h | ⟨bytes, -, h⟩
        · exact Or.inr ⟨rfl, hzero, v, m, hv, hm, Nat.le_of_not_lt ‹_›, h⟩
        · cases h
    · rcases bind_eq_error.mp h with h | ⟨bytes, -, h⟩
      · exact Or.inl h
      · cases h
  | b => exact Or.inl (hinteger rfl)
  | B => exact Or.inl (hinteger rfl)
  | h => exact Or.inl (hinteger rfl)
  | H => exact Or.inl (hinteger rfl)
  | l => exact Or.inl (hinteger rfl)
  | L => exact Or.inl (hinteger rfl)
  | T => exact Or.inl (hinteger rfl)
  | i => exact Or.inl (hinteger rfl)
  | I => exact Or.inl (hinteger rfl)

/-- Where an item reads outside the data string, its end wraps around. -/
theorem unpackOption_wraps (hsize : size < 2 ^ 32) (hle : (pos + size) % 2 ^ 32 ≤ data.length)
    (h : unpackOption k endian data pos size stack opt = .error (.outOfBounds p n)) :
    p = pos ∧ n < 2 ^ 32 ∧ 2 ^ 32 ≤ p + n ∧ (p + n) % 2 ^ 32 ≤ data.length := by
  have hcut {m : Nat} (hm : m < 2 ^ 32) (hle : (pos + m) % 2 ^ 32 ≤ data.length)
      (h : bytesAt data pos m = .error (.outOfBounds p n)) :
      p = pos ∧ n < 2 ^ 32 ∧ 2 ^ 32 ≤ p + n ∧ (p + n) % 2 ^ 32 ≤ data.length := by
    obtain ⟨hlong, rfl, rfl⟩ := bytesAt_outside.mp h
    omega
  rcases unpackOption_outOfBounds h with h | ⟨-, -, v, m, -, hm, hle, h⟩
  · exact hcut hsize hle h
  · exact hcut (toSize_lt hm) hle h

/-- An item that is not cut off reads outside the data string only for a `c0`. -/
theorem unpackOption_outside (hfit : pos + size ≤ data.length) (hdata : data.length < 2 ^ 31) :
    unpackOption k endian data pos size stack opt = .error (.outOfBounds p n) ↔
      opt = .c ∧ size = 0 ∧ p = pos ∧ WrapsAt k stack p n := by
  constructor
  · intro h
    rcases unpackOption_outOfBounds h with h | ⟨hc, hzero, v, m, hv, hm, hle, h⟩
    · rw [bytesAt_inside hfit] at h
      cases h
    · obtain ⟨hlong, rfl, rfl⟩ := bytesAt_outside.mp h
      exact ⟨hc, hzero, rfl, v, hv, hm, by omega⟩
  · rintro ⟨rfl, rfl, rfl, v, hv, hn, hwrap⟩
    have hlt := toSize_lt hn
    have hcut : bytesAt data p n = .error (.outOfBounds p n) :=
      bytesAt_outside.mpr ⟨by omega, rfl, rfl⟩
    have hshort : ¬ data.length < (p + n) % 2 ^ 32 := by omega
    rw [unpackOption, if_pos rfl, hv]
    refine bind_eq_error.mpr (Or.inr ⟨n, hn, ?_⟩)
    rw [if_neg hshort]
    exact bind_eq_error.mpr (Or.inl hcut)

end Outside

/-- Where an item stands that is not cut off. -/
theorem place_inside {data : LuaString} (hdata : data.length < 2 ^ 31) {pos size : Nat}
    {opt : Letter} {h : Header} (hbounded : Bounded size opt) (hpos : pos < 2 ^ 31)
    (hshort : ¬ data.length < ((pos + gettoalign pos h opt size) % 2 ^ 32 + size) % 2 ^ 32) :
    (pos + gettoalign pos h opt size) % 2 ^ 32 = pos + gettoalign pos h opt size ∧
      pos + gettoalign pos h opt size + size ≤ data.length := by
  have hend := end_lt hbounded hpos h
  omega

/-- Only an end that wraps around leads outside the data string. -/
theorem unpackLoop_inside {k : Conversions} {data : LuaString} {h : Header} {fmt : LuaString}
    {pos p n : Nat} {stack : List LuaValue}
    (hrun : unpackLoop k data h fmt pos stack = .error (.outOfBounds p n)) :
    p < 2 ^ 32 ∧ n < 2 ^ 32 ∧ 2 ^ 32 ≤ p + n ∧ (p + n) % 2 ^ 32 ≤ data.length := by
  fun_induction unpackLoop k data h fmt pos stack with
  | case1 => cases hrun
  | case2 h pos stack o rest e herror =>
    cases hrun
    exact absurd herror optsize_inside
  | case3 => cases hrun
  | case4 h pos stack o rest size fmt hopt place hshort opt hletter e herror =>
    cases hrun
    exact absurd herror controloptions_inside
  | case5 h pos stack o rest size fmt hopt place hshort opt hletter fmt' h' hcontrol ih =>
    exact ih hrun
  | case6 h pos stack o rest size fmt hopt place hshort hother ih =>
    rcases bind_eq_error.mp hrun with hrun | ⟨r, hr, hrun⟩
    · have hsize : size < 2 ^ 32 := Nat.lt_trans (bounded_optsize hopt).1 (by decide)
      obtain ⟨rfl, hwraps⟩ := unpackOption_wraps hsize (Nat.le_of_not_lt hshort) hrun
      exact ⟨Nat.mod_lt _ (by decide), hwraps⟩
    · exact ih r.1 r.2 hrun

/-- Whatever the format, the data and the start are, `unpack` uses bytes outside the data string
only where the end of an item wraps around, so that it passes the check. -/
theorem unpack_inside {k : Conversions} {fmt data : LuaString} {init : Option Int} {p n : Nat}
    (hrun : bUnpack k fmt data init = .error (.outOfBounds p n)) :
    p < 2 ^ 32 ∧ n < 2 ^ 32 ∧ 2 ^ 32 ≤ p + n ∧ (p + n) % 2 ^ 32 ≤ data.length := by
  rw [bUnpack] at hrun
  split at hrun
  · rename_i e herror
    cases hrun
    exact unpackLoop_inside herror
  · cases hrun

/-- A byte before the start of the data string. -/
theorem unpack_inside_before :
    bUnpack noConversions (ascii "b") [7] (some 0) = .error (.outOfBounds (2 ^ 32 - 1) 1) ∧
      2 ^ 32 ≤ 2 ^ 32 - 1 + 1 := by
  have hrun : bUnpack noConversions (ascii "b") [7] (some 0) =
      .error (.outOfBounds (2 ^ 32 - 1) 1) := by
    decide +kernel
  exact ⟨hrun, (unpack_inside hrun).2.2.1⟩

/-! ## Where a length wraps around -/

theorem bounded_items {h : Header} {fmt : LuaString} {its : List Item}
    (hits : items h fmt = .ok its) : ∀ item ∈ its, Bounded item.size item.opt := by
  fun_induction items h fmt generalizing its with
  | case1 =>
    cases hits
    exact fun _ hitem => absurd hitem List.not_mem_nil
  | case2 => cases hits
  | case3 => cases hits
  | case4 h o rest size fmt hopt opt hletter fmt' h' hcontrol ih => exact ih hits
  | case5 h o rest size fmt hopt hother ih =>
    cases hrest : items h fmt with
    | error e =>
      rw [hrest] at hits
      cases hits
    | ok l =>
      rw [hrest] at hits
      cases hits
      exact List.forall_mem_cons.mpr ⟨bounded_optsize hopt, ih hrest⟩

/-- The items before some `c0` are read, and the length that they leave for it wraps around. -/
def Overruns (k : Conversions) (data : LuaString) (its : List Item) (pos : Nat)
    (stack : List LuaValue) (p n : Nat) : Prop :=
  ∃ l₁ item l₂ stack', its = l₁ ++ item :: l₂ ∧ item.opt = .c ∧ item.size = 0 ∧
    unpackItems k data l₁ pos stack = .ok (p, stack') ∧ p ≤ data.length ∧ WrapsAt k stack' p n

theorem toalign_zero {item : Item} (h : item.size = 0) (len : Nat) : item.toalign len = 0 :=
  if_pos (Or.inl h)

theorem unpackItems_outside {k : Conversions} {data : LuaString} (hdata : data.length < 2 ^ 31)
    {its : List Item} (hits : ∀ item ∈ its, Bounded item.size item.opt) {pos p n : Nat}
    {stack : List LuaValue} (hpos : pos < 2 ^ 31) :
    unpackItems k data its pos stack = .error (.outOfBounds p n) ↔
      Overruns k data its pos stack p n := by
  induction its generalizing pos stack with
  | nil =>
    refine iff_of_false (by intro h; cases h) ?_
    rintro ⟨l₁, item, l₂, stack', hl, -⟩
    cases l₁ <;> cases hl
  | cons item l ih =>
    obtain ⟨hbounded, hl⟩ := List.forall_mem_cons.mp hits
    rw [unpackItems]
    by_cases hshort : data.length < ((pos + item.toalign pos) % 2 ^ 32 + item.size) % 2 ^ 32
    · rw [if_pos hshort]
      refine iff_of_false (by intro h; cases h) ?_
      rintro ⟨l₁, item', l₂, stack', hsplit, hc, hzero, hread, hle, -⟩
      cases l₁ with
      | nil =>
        cases hsplit
        cases hread
        rw [toalign_zero hzero] at hshort
        omega
      | cons first l₁ =>
        cases hsplit
        rw [unpackItems, if_pos hshort] at hread
        cases hread
    · rw [if_neg hshort]
      obtain ⟨hplace, hfit⟩ : (pos + item.toalign pos) % 2 ^ 32 = pos + item.toalign pos ∧
        pos + item.toalign pos + item.size ≤ data.length :=
          place_inside hdata hbounded hpos hshort
      constructor
      · intro hrun
        rcases bind_eq_error.mp hrun with hrun | ⟨r, hr, hrun⟩
        · rw [← hplace] at hfit
          obtain ⟨hc, hzero, rfl, hwrap⟩ := (unpackOption_outside hfit hdata).mp hrun
          have hstart : (pos + item.toalign pos) % 2 ^ 32 = pos := by
            rw [hplace, toalign_zero hzero, Nat.add_zero]
          rw [hstart] at hwrap hfit ⊢
          exact ⟨[], item, l, stack, rfl, hc, hzero, rfl, by omega, hwrap⟩
        · have hnext := unpackOption_pos (Nat.le_of_not_lt hshort) hr
          obtain ⟨l₁, item', l₂, stack', rfl, hc, hzero, hread, hle, hwrap⟩ :=
            (ih hl (Nat.lt_of_le_of_lt hnext hdata)).mp hrun
          refine ⟨item :: l₁, item', l₂, stack', rfl, hc, hzero, ?_, hle, hwrap⟩
          rw [unpackItems, if_neg hshort]
          exact bind_eq_ok.mpr ⟨r, hr, hread⟩
      · rintro ⟨l₁, item', l₂, stack', hsplit, hc, hzero, hread, hle, hwrap⟩
        cases l₁ with
        | nil =>
          cases hsplit
          cases hread
          have hstart : (p + item.toalign p) % 2 ^ 32 = p := by
            rw [hplace, toalign_zero hzero, Nat.add_zero]
          rw [← hplace, hstart] at hfit
          rw [hstart]
          refine bind_eq_error.mpr (Or.inl ?_)
          exact (unpackOption_outside hfit hdata).mpr ⟨hc, hzero, rfl, hwrap⟩
        | cons first l₁ =>
          cases hsplit
          rw [unpackItems, if_neg hshort] at hread
          obtain ⟨r, hr, hread⟩ := bind_eq_ok.mp hread
          have hnext := unpackOption_pos (Nat.le_of_not_lt hshort) hr
          refine bind_eq_error.mpr (Or.inr ⟨r, hr, ?_⟩)
          refine (ih hl (Nat.lt_of_le_of_lt hnext hdata)).mpr ?_
          exact ⟨l₁, item', l₂, stack', rfl, hc, hzero, hread, hle, hwrap⟩

/-- `unpack` reads outside the data string exactly when the length before some `c0` wraps around. -/
theorem unpack_outside_iff {k : Conversions} {fmt data : LuaString} {its : List Item}
    {init : Option Int} {p n : Nat} (hits : items defaultoptions fmt = .ok its)
    (hdata : data.length < 2 ^ 31) (hinit : 1 ≤ init.getD 1 ∧ init.getD 1 - 1 ≤ data.length) :
    bUnpack k fmt data init = .error (.outOfBounds p n) ↔
      Overruns k data its (init.getD 1 - 1).toNat [.string data] p n := by
  have hstart : ((init.getD 1 - 1) % 2 ^ 32).toNat = (init.getD 1 - 1).toNat := by omega
  rw [← unpackItems_outside hdata (bounded_items hits) (by omega), bUnpack, hstart,
    unpackLoop_eq hits (by omega) (by omega)]
  cases unpackItems k data its (init.getD 1 - 1).toNat [.string data] with
  | error e =>
    dsimp only
    rw [Except.error.injEq, Except.error.injEq]
  | ok r => exact iff_of_false (by intro h; cases h) (by intro h; cases h)

theorem unpack_outside_smallest :
    bUnpack noConversions (ascii "I4c0") [0xfc, 0xff, 0xff, 0xff] none =
      .error (.outOfBounds 4 (2 ^ 32 - 4)) := by
  have hits : items defaultoptions (ascii "I4c0") =
      .ok [⟨.I, 4, defaultoptions⟩, ⟨.c, 0, defaultoptions⟩] := by
    decide +kernel
  have hread : unpackItems noConversions [0xfc, 0xff, 0xff, 0xff] [⟨.I, 4, defaultoptions⟩] 0
      [.string [0xfc, 0xff, 0xff, 0xff]] =
        .ok (4, [.number (ofNat (2 ^ 32 - 4)), .string [0xfc, 0xff, 0xff, 0xff]]) := by
    decide +kernel
  have hwraps : WrapsAt noConversions
      [.number (ofNat (2 ^ 32 - 4)), .string [0xfc, 0xff, 0xff, 0xff]] 4 (2 ^ 32 - 4) :=
    ⟨ofNat (2 ^ 32 - 4), rfl, by decide +kernel, by decide⟩
  exact (unpack_outside_iff hits (by decide) (by decide)).mpr
    ⟨[⟨.I, 4, defaultoptions⟩], ⟨.c, 0, defaultoptions⟩, [], _, rfl, rfl, rfl, hread, by decide,
      hwraps⟩

/-! ## Packing again -/

/-- The bytes of an integer of at most four bytes, from the lowest one on. -/
theorem getinteger_eq (endian : Endian) (signed : Bool) {size : Nat} {buff : LuaString}
    (hsize : 1 ≤ size ∧ size ≤ 4) (hlength : buff.length = size) :
    ∃ l, l < 256 ^ size ∧
      (if endian = .little then lowBytes size l else (lowBytes size l).reverse) = buff ∧
      getinteger endian signed size buff = .ok (if signed then
        ofInt (signed32 (if 2 ^ (size * 8 - 1) ≤ l then
          l % 2 ^ (size * 8 - 1) + (2 ^ 32 - 2 ^ (size * 8 - 1)) else l)) else ofNat l) := by
  have hnarrow : 256 ^ size ≤ 2 ^ 32 := Nat.pow_le_pow_right (show 0 < 256 by decide) hsize.2
  have hwide : ¬ (size = 0 ∨ 4 < size) := by omega
  cases endian with
  | little =>
    have hlt := ofLowBytes_lt buff
    rw [hlength] at hlt
    refine ⟨ofLowBytes buff, hlt, ?_, ?_⟩
    · rw [if_pos rfl, ← hlength, lowBytes_ofLowBytes]
    · simp only [getinteger, reduceCtorEq, if_false, foldl_bytes, List.reverse_reverse,
        Nat.mod_eq_of_lt (Nat.lt_of_lt_of_le hlt hnarrow), if_neg hwide]
      cases signed <;> rfl
  | big =>
    have hlt := ofLowBytes_lt buff.reverse
    rw [List.length_reverse, hlength] at hlt
    refine ⟨ofLowBytes buff.reverse, hlt, ?_, ?_⟩
    · have hbytes := lowBytes_ofLowBytes buff.reverse
      rw [List.length_reverse, hlength] at hbytes
      rw [if_neg (by decide), hbytes, List.reverse_reverse]
    · simp only [getinteger, if_true, foldl_bytes,
        Nat.mod_eq_of_lt (Nat.lt_of_lt_of_le hlt hnarrow), if_neg hwide]
      cases signed <;> rfl

/-- The sign that was extended is cut off again. -/
theorem signed32_cut {size l : Nat} (hsize : 1 ≤ size ∧ size ≤ 4) (hl : l < 256 ^ size) {v : Int}
    (hv : v = signed32 (if 2 ^ (size * 8 - 1) ≤ l then
      l % 2 ^ (size * 8 - 1) + (2 ^ 32 - 2 ^ (size * 8 - 1)) else l)) :
    -(2 ^ 31) ≤ v ∧ v < 2 ^ 31 ∧ (v % 2 ^ 32).toNat % 256 ^ size = l := by
  obtain ⟨hpos, hle⟩ := hsize
  subst hv
  simp only [signed32]
  interval_cases size <;> norm_num at hl ⊢ <;> split <;> split <;> omega

/-- What `getinteger` reads, `putinteger` writes. -/
theorem putinteger_getinteger {endian : Endian} {signed : Bool} {size : Nat} {buff : LuaString}
    (hsize : 1 ≤ size ∧ size ≤ 4) (hlength : buff.length = size) {n : UInt64}
    (hread : getinteger endian signed size buff = .ok n) :
    putinteger endian size n = .ok buff := by
  have hnarrow : 256 ^ size ≤ 2 ^ 32 := Nat.pow_le_pow_right (show 0 < 256 by decide) hsize.2
  obtain ⟨l, hl, hbytes, hget⟩ := getinteger_eq endian signed hsize hlength
  obtain rfl := Except.ok.inj (hget.symm.trans hread)
  cases signed with
  | false =>
    have hnat : ofNat l = ofInt (l : Int) := by
      rw [ofInt, if_pos (Int.natCast_nonneg l), Int.natAbs_natCast]
    have hvalue : ((l : Int) % 2 ^ 32).toNat = l := by omega
    rw [if_neg Bool.false_ne_true, putinteger, hnat, toUinttype_ofInt (by omega) (by omega), hvalue]
    exact congrArg Except.ok hbytes
  | true =>
    obtain ⟨hlow, hhigh, hcut⟩ := signed32_cut hsize hl rfl
    rw [if_pos rfl, putinteger, toUinttype_ofInt hlow (by omega)]
    dsimp only
    rw [← lowBytes_mod, hcut]
    exact congrArg Except.ok hbytes

/-- The items that can be written in one way only. -/
def Item.Exact (item : Item) : Prop :=
  item.header.align = 1 ∧
    ((∃ signed, item.opt.signed? = some signed ∧ 1 ≤ item.size ∧ item.size ≤ 4) ∨
      item.opt = .d ∨ (item.opt = .c ∧ item.size ≠ 0) ∨ item.opt = .s)

theorem toalign_unaligned {item : Item} (h : item.header.align = 1) (len : Nat) :
    item.toalign len = 0 := by
  rw [Item.toalign, gettoalign, h]
  by_cases hnone : item.size = 0 ∨ item.opt = .c
  · exact if_pos hnone
  · rw [if_neg hnone]
    have hone : (if 1 < item.size then 1 else item.size) = 1 := by
      split <;> omega
    dsimp only
    rw [hone, Nat.sub_self, Nat.and_zero]

theorem bytesAt_eq_ok {data bytes : LuaString} {pos size : Nat} :
    bytesAt data pos size = .ok bytes ↔
      pos + size ≤ data.length ∧ bytes = (data.drop pos).take size := by
  rw [bytesAt]
  split
  · exact ⟨fun h => by cases h; exact ⟨‹_›, rfl⟩, fun h => by rw [h.2]⟩
  · exact iff_of_false (by simp) (fun h => absurd h.1 ‹_›)

/-- The double that stands at a place of the data string. -/
def doubleAt (endian : Endian) (data : LuaString) (pos : Nat) : UInt64 :=
  .ofNat (ofLowBytes (correctbytes endian ((data.drop pos).take 8)))

/-- A double is written as it stands, unless it goes through the x87 as a signaling NaN. -/
theorem doubleAt_exact {endian : Endian} {data : LuaString} {pos : Nat} (k : Conversions)
    (hfit : pos + 8 ≤ data.length) :
    correctbytes endian (lowBytes 8 (quiet (k.pass (doubleAt endian data pos))).toNat) =
        (data.drop pos).take 8 ↔ isSignaling (doubleAt endian data pos) = false := by
  have hlength : (correctbytes endian ((data.drop pos).take 8)).length = 8 := by
    rw [length_correctbytes, List.length_take, List.length_drop]
    omega
  have hlt := ofLowBytes_lt (correctbytes endian ((data.drop pos).take 8))
  have hbits := lowBytes_ofLowBytes (correctbytes endian ((data.drop pos).take 8))
  rw [hlength] at hlt hbits
  have hvalue : (doubleAt endian data pos).toNat =
      ofLowBytes (correctbytes endian ((data.drop pos).take 8)) := by
    rw [doubleAt, UInt64.toNat_ofNat']
    exact Nat.mod_eq_of_lt hlt
  constructor
  · intro hbytes
    have hsame : (quiet (k.pass (doubleAt endian data pos))).toNat =
        (doubleAt endian data pos).toNat := by
      rw [hvalue, ← hbytes, correctbytes_correctbytes,
        ofLowBytes_lowBytes 8 _ (UInt64.toNat_lt _)]
    rw [← UInt64.toNat_inj.mp hsame]
    exact isSignaling_quiet _
  · intro hquiet
    rw [pass_of_not_signaling k hquiet, quiet_of_not_signaling hquiet, hvalue, hbits,
      correctbytes_correctbytes]

/-- Packing the value of an item gives the bytes that it was read from, unless they are a signaling
NaN. -/
theorem option_exact {k : Conversions} {endian : Endian} {data : LuaString} {pos : Nat}
    {stack : List LuaValue} {item : Item} (hitem : item.WellFormed) (hexact : item.Exact)
    (hpos : pos ≤ data.length) {r : List LuaValue × Nat}
    (hread : unpackOption k endian data pos item.size stack item.opt = .ok r) :
    ∃ v written, r.1 = v :: stack ∧ pos + r.2 ≤ data.length ∧ written.length = r.2 ∧
      (∀ arg args, packOption k endian arg (v :: args) item.size item.opt =
        .ok (written, r.2, 1)) ∧
      (written = (data.drop pos).take r.2 ↔
        (item.opt = .d → isSignaling (doubleAt endian data pos) = false)) := by
  have hsized := hitem.sized
  have hcut {size : Nat} (hfit : pos + size ≤ data.length) :
      ((data.drop pos).take size).length = size := by
    rw [List.length_take, List.length_drop]
    omega
  have hsame {bytes : LuaString} (hopt : item.opt ≠ .d) :
      bytes = bytes ↔ (item.opt = .d → isSignaling (doubleAt endian data pos) = false) :=
    iff_of_true rfl (fun h => absurd h hopt)
  rcases hexact.2 with ⟨signed, hopt, hsize⟩ | hopt | ⟨hopt, hsize⟩ | hopt
  · obtain ⟨hpack, hunpack⟩ := option_integer k endian item.size hopt
    rw [hunpack] at hread
    obtain ⟨bytes, hbytes, hread⟩ := bind_eq_ok.mp hread
    obtain ⟨n, hn, hread⟩ := bind_eq_ok.mp hread
    cases hread
    obtain ⟨hfit, rfl⟩ := bytesAt_eq_ok.mp hbytes
    refine ⟨.number n, _, rfl, hfit, hcut hfit, fun arg args => ?_, hsame ?_⟩
    · rw [hpack, checknumber, quiet_of_not_signaling (isSignaling_getinteger hn)]
      exact bind_eq_ok.mpr ⟨n, rfl, bind_eq_ok.mpr
        ⟨_, putinteger_getinteger hsize (hcut hfit) hn, rfl⟩⟩
    · intro hd
      rw [hd] at hopt
      cases hopt
  · have hsize : item.size = 8 := by
      rw [hopt] at hsized
      exact hsized
    rw [hopt, hsize, unpackOption] at hread
    obtain ⟨bytes, hbytes, hread⟩ := bind_eq_ok.mp hread
    obtain ⟨v, hv, hread⟩ := bind_eq_ok.mp hread
    cases hread
    obtain ⟨hfit, rfl⟩ := bytesAt_eq_ok.mp hbytes
    rw [pushnumber] at hv
    split at hv
    · cases hv
    · cases hv
      refine ⟨_, correctbytes endian (lowBytes 8 (quiet (k.pass (doubleAt endian data pos))).toNat),
        rfl, hfit, by rw [length_correctbytes, length_lowBytes], fun arg args => ?_, ?_⟩
      · rw [hopt, hsize]
        rfl
      · exact (doubleAt_exact k hfit).trans ⟨fun h _ => h, fun h => h hopt⟩
  · rw [hopt, unpackOption, if_neg hsize] at hread
    obtain ⟨bytes, hbytes, hread⟩ := bind_eq_ok.mp hread
    cases hread
    obtain ⟨hfit, rfl⟩ := bytesAt_eq_ok.mp hbytes
    refine ⟨_, _, rfl, hfit, hcut hfit, fun arg args => ?_, hsame (by simp [hopt])⟩
    rw [hopt]
    refine bind_eq_ok.mpr ⟨_, rfl, ?_⟩
    dsimp only
    rw [if_neg hsize, hcut hfit, if_neg (Nat.lt_irrefl _), List.take_take, Nat.min_self]
    rfl
  · rw [hopt, unpackOption] at hread
    split at hread
    · cases hread
    · rename_i e hfind
      cases hread
      obtain ⟨hlt, hzero, -⟩ := List.findIdx?_eq_some_iff_getElem.mp hfind
      rw [List.length_drop] at hlt
      refine ⟨_, _, rfl, by dsimp only; omega, hcut (by dsimp only; omega), fun arg args => ?_,
        hsame (by simp [hopt])⟩
      rw [hopt]
      refine bind_eq_ok.mpr ⟨_, rfl, ?_⟩
      have hend : (data.drop pos).take (e + 1) = (data.drop pos).take e ++ [0] := by
        rw [List.take_succ_eq_append_getElem (by rw [List.length_drop]; omega), eq_of_beq hzero]
      have hlength : ((data.drop pos).take e).length = e := hcut (by omega)
      rw [hend, hlength]
      rfl

/-- No double that the items read is a signaling NaN. -/
def QuietDoubles (k : Conversions) (data : LuaString) (its : List Item) (pos : Nat)
    (stack : List LuaValue) : Prop :=
  ∀ l₁ item l₂ p stack', its = l₁ ++ item :: l₂ → item.opt = .d →
    unpackItems k data l₁ pos stack = .ok (p, stack') →
      isSignaling (doubleAt item.header.endian data p) = false

theorem quietDoubles_cons {k : Conversions} {data : LuaString} {item : Item} {l : List Item}
    {pos : Nat} {stack : List LuaValue} {r : List LuaValue × Nat}
    (hplace : (pos + item.toalign pos) % 2 ^ 32 = pos)
    (hshort : ¬ data.length < (pos + item.size) % 2 ^ 32)
    (hr : unpackOption k item.header.endian data pos item.size stack item.opt = .ok r) :
    QuietDoubles k data (item :: l) pos stack ↔
      (item.opt = .d → isSignaling (doubleAt item.header.endian data pos) = false) ∧
        QuietDoubles k data l ((pos + r.2) % 2 ^ 32) r.1 := by
  have hread (l₁ : List Item) : unpackItems k data (item :: l₁) pos stack =
      unpackItems k data l₁ ((pos + r.2) % 2 ^ 32) r.1 := by
    rw [unpackItems, hplace, if_neg hshort, hr]
    rfl
  constructor
  · intro h
    refine ⟨fun hd => h [] item l pos stack rfl hd rfl, fun l₁ other l₂ p stack' hl hd hp => ?_⟩
    exact h (item :: l₁) other l₂ p stack' (congrArg _ hl) hd ((hread l₁).trans hp)
  · rintro ⟨hone, hrest⟩ l₁ other l₂ p stack' hl hd hp
    cases l₁ with
    | nil =>
      cases hl
      cases hp
      exact hone hd
    | cons first l₁ =>
      cases hl
      exact hrest l₁ other l₂ p stack' rfl hd ((hread l₁).symm.trans hp)

/-- Packing the values of the items gives as many bytes as were read, and these bytes unless one of
the doubles is a signaling NaN. -/
theorem unpackItems_exact {k : Conversions} {data : LuaString} (hdata : data.length < 2 ^ 31)
    {its : List Item} (hits : ∀ item ∈ its, item.WellFormed) (hexact : ∀ item ∈ its, item.Exact)
    {pos pos' : Nat} {stack stack' : List LuaValue} (hpos : pos ≤ data.length)
    (hread : unpackItems k data its pos stack = .ok (pos', stack')) :
    pos ≤ pos' ∧ pos' ≤ data.length ∧ ∃ values packed, stack' = values.reverse ++ stack ∧
      packed.length = pos' - pos ∧
      (∀ arg rest totalsize b, packItems k its arg (values ++ rest) totalsize b =
        .ok (b ++ packed)) ∧
      (packed = (data.drop pos).take (pos' - pos) ↔ QuietDoubles k data its pos stack) := by
  induction its generalizing pos stack with
  | nil =>
    cases hread
    refine ⟨Nat.le_refl _, hpos, [], [], rfl, (Nat.sub_self _).symm,
      fun arg rest totalsize b => ?_, ?_⟩
    · rw [List.append_nil, packItems]
    · refine iff_of_true (by rw [Nat.sub_self, List.take_zero]) ?_
      intro l₁ item l₂ p stack' hl
      cases l₁ <;> cases hl
  | cons item l ih =>
    obtain ⟨hitem, hl⟩ := List.forall_mem_cons.mp hits
    obtain ⟨hone, hexactl⟩ := List.forall_mem_cons.mp hexact
    have hplace : (pos + item.toalign pos) % 2 ^ 32 = pos := by
      rw [toalign_unaligned hone.1]
      omega
    rw [unpackItems, hplace] at hread
    split at hread
    · cases hread
    · obtain ⟨r, hr, hread⟩ := bind_eq_ok.mp hread
      obtain ⟨v, written, hv, hfit, hlength, hpack, hwritten⟩ := option_exact hitem hone hpos hr
      have hdoubles := quietDoubles_cons (l := l) hplace ‹_› hr
      have hwrap : (pos + r.2) % 2 ^ 32 = pos + r.2 := Nat.mod_eq_of_lt (by omega)
      rw [hv, hwrap] at hread hdoubles
      obtain ⟨hle, hle', values, packed, hvalues, hlength', hpackl, hpacked⟩ :=
        ih hl hexactl hfit hread
      have hsplit : pos' - pos = r.2 + (pos' - (pos + r.2)) := by omega
      refine ⟨by omega, hle', v :: values, written ++ packed, ?_, ?_,
        fun arg rest totalsize b => ?_, ?_⟩
      · rw [hvalues, List.reverse_cons, List.append_assoc]
        rfl
      · rw [List.length_append, hlength, hlength', hsplit]
      · rw [packItems, toalign_unaligned hone.1, List.replicate_zero, List.append_nil]
        refine bind_eq_ok.mpr ⟨_, hpack arg (values ++ rest), ?_⟩
        refine (hpackl _ rest _ _).trans ?_
        rw [List.append_assoc]
      · rw [hdoubles, ← hwritten, ← hpacked, hsplit, List.take_add, List.drop_drop]
        constructor
        · intro h
          refine List.append_inj h ?_
          rw [hlength, List.length_take, List.length_drop]
          omega
        · rintro ⟨h₁, h₂⟩
          rw [← h₁, ← h₂]

/-- When each item can be written in one way only, packing what was unpacked gives as many bytes as
were read, and it gives these bytes exactly when none of the doubles is a signaling NaN. `pack`
leaves the place behind them aside. -/
theorem pack_unpack {k : Conversions} {fmt data : LuaString} {its : List Item}
    {values : List LuaValue} {pos : Nat} (hits : items defaultoptions fmt = .ok its)
    (hexact : ∀ item ∈ its, item.Exact) (hdata : data.length < 2 ^ 31 - 1)
    (hpos : pos ≤ data.length) (hread : bUnpack k fmt data (some (pos + 1)) = .ok values) :
    ∃ n packed, pos + n ≤ data.length ∧
      values.getLast? = some (.number (ofNat (pos + n + 1))) ∧
      bPack k fmt values = .ok packed ∧ packed.length = n ∧
      (packed = (data.drop pos).take n ↔ QuietDoubles k data its pos [.string data]) := by
  have hstart : (((some ((pos : Int) + 1)).getD 1 - 1) % 2 ^ 32).toNat = pos := by
    rw [Option.getD_some]
    omega
  rw [bUnpack, hstart, unpackLoop_eq hits (by omega) hpos] at hread
  cases hrun : unpackItems k data its pos [.string data] with
  | error e =>
    rw [hrun] at hread
    cases hread
  | ok r =>
    rw [hrun] at hread
    obtain ⟨hle, hle', vs, packed, hvs, hlength, hpack, hpacked⟩ :=
      unpackItems_exact (by omega) (wellFormed_items ⟨0, rfl⟩ hits) hexact hpos hrun
    have hnext : signed32 (r.1 + 1) = (r.1 + 1 : Nat) := by
      rw [signed32, Nat.mod_eq_of_lt (by omega), if_pos (by omega)]
    have hvalues : values = vs ++ [.number (ofNat (r.1 + 1))] := by
      refine (Except.ok.inj hread).symm.trans ?_
      rw [hvs, hnext, List.reverse_append, List.reverse_reverse, List.reverse_singleton,
        List.singleton_append, List.tail_cons, ofInt, if_pos (Int.natCast_nonneg _),
        Int.natAbs_natCast]
    refine ⟨r.1 - pos, packed, by omega, ?_, ?_, hlength, hpacked⟩
    · rw [hvalues, List.getLast?_concat, Nat.add_sub_cancel' hle]
    · rw [bPack, packLoop_eq hits (by decide), hvalues, hpack, List.nil_append]

theorem pack_unpack_name :
    ∃ n, 1 + n ≤ 6 ∧
      [LuaValue.number (ofNat 258), .string [7], .number (ofNat 6)].getLast? =
        some (.number (ofNat (1 + n + 1))) ∧
      bPack noConversions (ascii ">Hs") [.number (ofNat 258), .string [7], .number (ofNat 6)] =
        .ok ((List.drop 1 [9, 1, 2, 7, 0, 8]).take n) := by
  have hits : items defaultoptions (ascii ">Hs") =
      .ok [⟨.H, 2, ⟨.big, 1⟩⟩, ⟨.s, 0, ⟨.big, 1⟩⟩] := by
    decide +kernel
  have hexact : ∀ item ∈ [(⟨.H, 2, ⟨.big, 1⟩⟩ : Item), ⟨.s, 0, ⟨.big, 1⟩⟩], item.Exact := by
    simp [Item.Exact, Letter.signed?]
  have hread : bUnpack noConversions (ascii ">Hs") [9, 1, 2, 7, 0, 8] (some ((1 : Nat) + 1)) =
      .ok [.number (ofNat 258), .string [7], .number (ofNat 6)] := by
    decide +kernel
  obtain ⟨n, packed, hfit, hlast, hpack, -, hpacked⟩ :=
    pack_unpack hits hexact (by decide) (by decide) hread
  refine ⟨n, hfit, hlast, hpack.trans (congrArg _ (hpacked.mpr ?_))⟩
  intro l₁ item l₂ p stack' hl hd
  have hmem : item ∈ [(⟨.H, 2, ⟨.big, 1⟩⟩ : Item), ⟨.s, 0, ⟨.big, 1⟩⟩] := by
    rw [hl]
    simp
  simp only [List.mem_cons, List.not_mem_nil, or_false] at hmem
  rcases hmem with rfl | rfl <;> cases hd

/-- A signaling NaN comes back quiet. -/
example : bUnpack noConversions (ascii "d") [1, 0, 0, 0, 0, 0, 0xf0, 0x7f] none =
      .ok [.number 0x7ff0000000000001, .number (ofNat 9)] ∧
    bPack noConversions (ascii "d") [.number 0x7ff0000000000001] =
      .ok [1, 0, 0, 0, 0, 0, 0xf8, 0x7f] := by
  decide +kernel

/-- A NaN with the tag of another type is refused. -/
example : bUnpack noConversions (ascii "d") [0, 0, 0, 0, 0, 0xa5, 0xf7, 0x7f] none =
    .error (.runerror "C API - attempt to push a signaling NaN") := by
  decide +kernel

end LuaAddons.Struct
