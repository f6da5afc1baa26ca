import Mathlib.Algebra.Group.Nat.Defs
import Mathlib.Tactic.ByContra

/-!
# Natural numbers as binary64 words

A double is its 64 bits. `ofNat` is the double nearest to a natural number, `toNat?` the natural
number below `2 ^ 53` that a double is equal to and `trunc` its integer part. Below `2 ^ 53` the
three agree (`toNat?_ofNat`, `trunc_ofNat`), and the doubles of larger numbers are none of them
(`toNat?_ofNat_of_le`). `isInteger` and `toInt32?` are the conversion to a 32-bit integer, `ofInt`
and `toInt?` are `ofNat` and `trunc` with a sign. `quiet` is what the processor makes of a signaling
NaN; the double of an integer is none (`isSignaling_of_toInt?`).
-/

namespace LuaAddons.Binary64

/-- The sign and the exponent. -/
def exponent (bits : UInt64) : Nat := bits.toNat / 2 ^ 52

/-- The significand of a normal number. -/
def significand (bits : UInt64) : Nat := 2 ^ 52 + bits.toNat % 2 ^ 52

/-- `n / 2 ^ s`, rounded to the nearest number and to the even one of two. -/
def roundShift (n s : Nat) : Nat :=
  if n % 2 ^ s * 2 > 2 ^ s ∨ (n % 2 ^ s * 2 = 2 ^ s ∧ n / 2 ^ s % 2 = 1) then n / 2 ^ s + 1
  else n / 2 ^ s

/-- The significand for a number with `e + 1` binary digits, of 53 digits (or `2 ^ 53`). -/
def significandOf (n e : Nat) : Nat :=
  if e ≤ 52 then n * 2 ^ (52 - e) else roundShift n (e - 52)

/-- The double nearest to `n`. -/
def ofNat (n : Nat) : UInt64 :=
  if n = 0 then 0
  else if n.log2 ≤ 1023 then .ofNat ((1022 + n.log2) * 2 ^ 52 + significandOf n n.log2)
  else 0x7FF0000000000000

/-- The natural number below `2 ^ 53` that the double is equal to. -/
def toNat? (bits : UInt64) : Option Nat :=
  if bits = 0 then some 0
  else if 1023 ≤ exponent bits ∧ exponent bits ≤ 1075 ∧
      2 ^ (1075 - exponent bits) ∣ significand bits then
    some (significand bits / 2 ^ (1075 - exponent bits))
  else none

/-- The integer part of a nonnegative number below `2 ^ 53`. -/
def trunc (bits : UInt64) : Nat :=
  if 1023 ≤ exponent bits ∧ exponent bits ≤ 1075 then
    significand bits / 2 ^ (1075 - exponent bits)
  else 0

/-- The bits without the sign. -/
def magnitude (bits : UInt64) : Nat := bits.toNat % 2 ^ 63

/-- The double is equal to the next integer above it. The infinities are. -/
def isInteger (bits : UInt64) : Bool :=
  let e := magnitude bits / 2 ^ 52
  magnitude bits = 0 ∨ (1023 ≤ e ∧ e < 1075 ∧ 2 ^ (1075 - e) ∣ significand bits) ∨
    (1075 ≤ e ∧ magnitude bits ≤ 2047 * 2 ^ 52)

/-- The 32-bit integer that an integral double is equal to. -/
def toInt32? (bits : UInt64) : Option Int :=
  let e := magnitude bits / 2 ^ 52
  if magnitude bits = 0 then some 0
  else if e < 1054 then
    let n : Int := (significand bits / 2 ^ (1075 - e) : Nat)
    some (if bits.toNat / 2 ^ 63 = 0 then n else -n)
  else if bits = 0xC1E0000000000000 then some (-2147483648)
  else none

/-- The double nearest to an integer. -/
def ofInt (v : Int) : UInt64 :=
  if 0 ≤ v then ofNat v.natAbs else .ofNat (2 ^ 63 + (ofNat v.natAbs).toNat)

/-- The integer part, towards zero, of a number of which it is exact and below `2 ^ 53`. -/
def toInt? (bits : UInt64) : Option Int :=
  let e := magnitude bits / 2 ^ 52
  if 1076 ≤ e then none
  else
    let n : Int := ((if 1023 ≤ e then significand bits / 2 ^ (1075 - e) else 0 : Nat) : Int)
    some (if bits.toNat / 2 ^ 63 = 0 then n else -n)

/-- A NaN whose highest bit of the fraction is not set. -/
def isSignaling (bits : UInt64) : Bool :=
  2047 * 2 ^ 52 < magnitude bits ∧ magnitude bits < 2047 * 2 ^ 52 + 2 ^ 51

/-- The NaN with this bit set. -/
def quiet (bits : UInt64) : UInt64 :=
  if isSignaling bits then .ofNat (bits.toNat + 2 ^ 51) else bits

variable {n : Nat} {bits : UInt64}

theorem quiet_of_not_signaling (h : isSignaling bits = false) : quiet bits = bits := by
  rw [quiet, h]
  exact if_neg Bool.false_ne_true

theorem isSignaling_quiet (bits : UInt64) : isSignaling (quiet bits) = false := by
  rw [quiet]
  split
  · rename_i h
    have hbits := of_decide_eq_true h
    simp only [magnitude] at hbits
    refine decide_eq_false (fun hsignaling => ?_)
    simp only [magnitude, UInt64.toNat_ofNat'] at hsignaling
    omega
  · exact Bool.eq_false_iff.mpr ‹_›

/-- A number with an integer part is not a NaN. -/
theorem isSignaling_of_toInt? {v : Int} (h : toInt? bits = some v) : isSignaling bits = false := by
  rw [toInt?] at h
  dsimp only at h
  split at h
  · cases h
  · refine decide_eq_false (fun hsignaling => ?_)
    omega

/-- The bits of a number with at most 53 digits. -/
theorem toNat_ofNat (hpos : 0 < n) (hlt : n < 2 ^ 53) :
    ∃ e ≤ 52, 2 ^ 52 ≤ n * 2 ^ (52 - e) ∧ n * 2 ^ (52 - e) < 2 ^ 53 ∧
      (ofNat n).toNat = (1022 + e) * 2 ^ 52 + n * 2 ^ (52 - e) := by
  have hne : n ≠ 0 := by omega
  have hlo : 2 ^ n.log2 ≤ n := Nat.log2_self_le hne
  have hhi : n < 2 ^ (n.log2 + 1) := Nat.lt_log2_self
  have he : n.log2 ≤ 52 := by
    by_contra hgt
    have hle : 2 ^ 53 ≤ 2 ^ n.log2 := Nat.pow_le_pow_right (by decide) (by omega)
    omega
  have hsum : 2 ^ n.log2 * 2 ^ (52 - n.log2) = 2 ^ 52 := by
    rw [← Nat.pow_add, Nat.add_sub_cancel' he]
  have hsum' : 2 ^ (n.log2 + 1) * 2 ^ (52 - n.log2) = 2 ^ 53 := by
    rw [Nat.pow_succ, Nat.mul_right_comm, hsum]
    decide
  have hge : 2 ^ 52 ≤ n * 2 ^ (52 - n.log2) := hsum ▸ Nat.mul_le_mul_right _ hlo
  have hless : n * 2 ^ (52 - n.log2) < 2 ^ 53 :=
    hsum' ▸ Nat.mul_lt_mul_of_pos_right hhi (Nat.two_pow_pos _)
  refine ⟨n.log2, he, hge, hless, ?_⟩
  rw [ofNat, if_neg hne, if_pos (by omega), significandOf, if_pos he, UInt64.toNat_ofNat',
    Nat.mod_eq_of_lt]
  generalize n * 2 ^ (52 - n.log2) = m at hless
  omega

theorem exponent_ofNat (hpos : 0 < n) (hlt : n < 2 ^ 53) :
    ∃ e ≤ 52, exponent (ofNat n) = 1023 + e ∧ significand (ofNat n) = n * 2 ^ (52 - e) := by
  obtain ⟨e, he, hge, hless, hbits⟩ := toNat_ofNat hpos hlt
  refine ⟨e, he, ?_, ?_⟩
  · rw [exponent, hbits]
    generalize n * 2 ^ (52 - e) = m at hge hless
    omega
  · rw [significand, hbits]
    generalize n * 2 ^ (52 - e) = m at hge hless
    omega

theorem ofNat_ne_zero (hpos : 0 < n) (hlt : n < 2 ^ 53) : ofNat n ≠ 0 := by
  obtain ⟨e, _, hexp, _⟩ := exponent_ofNat hpos hlt
  intro hzero
  rw [hzero] at hexp
  have hz : exponent 0 = 0 := by decide
  omega

theorem toNat?_ofNat (hlt : n < 2 ^ 53) : toNat? (ofNat n) = some n := by
  rcases Nat.eq_zero_or_pos n with rfl | hpos
  · rfl
  obtain ⟨e, he, hexp, hsig⟩ := exponent_ofNat hpos hlt
  have hshift : 1075 - exponent (ofNat n) = 52 - e := by omega
  rw [toNat?, if_neg (ofNat_ne_zero hpos hlt), if_pos, hshift, hsig,
    Nat.mul_div_cancel _ (Nat.two_pow_pos _)]
  refine ⟨by omega, by omega, ?_⟩
  rw [hshift, hsig]
  exact Nat.dvd_mul_left _ _

theorem trunc_ofNat (hlt : n < 2 ^ 53) : trunc (ofNat n) = n := by
  rcases Nat.eq_zero_or_pos n with rfl | hpos
  · rfl
  obtain ⟨e, he, hexp, hsig⟩ := exponent_ofNat hpos hlt
  have hshift : 1075 - exponent (ofNat n) = 52 - e := by omega
  rw [trunc, if_pos (by omega), hshift, hsig, Nat.mul_div_cancel _ (Nat.two_pow_pos _)]

/-- The magnitude of a natural number is all of its bits. -/
theorem magnitude_ofNat (hpos : 0 < n) (hlt : n < 2 ^ 53) :
    magnitude (ofNat n) = (ofNat n).toNat ∧ (ofNat n).toNat / 2 ^ 63 = 0 := by
  obtain ⟨e, he, hexp, _⟩ := exponent_ofNat hpos hlt
  rw [exponent] at hexp
  rw [magnitude]
  omega

theorem toInt32?_ofNat (hlt : n < 2 ^ 31) : toInt32? (ofNat n) = some (n : Int) := by
  rcases Nat.eq_zero_or_pos n with rfl | hpos
  · rfl
  have hlt' : n < 2 ^ 53 := Nat.lt_trans hlt (by decide)
  obtain ⟨e, he, hexp, hsig⟩ := exponent_ofNat hpos hlt'
  obtain ⟨hmagnitude, hsign⟩ := magnitude_ofNat hpos hlt'
  have hfield : magnitude (ofNat n) / 2 ^ 52 = 1023 + e := by
    rw [hmagnitude]
    exact hexp
  have hsmall : e < 31 := by
    by_contra hlarge
    have hge : 2 ^ 52 ≤ n * 2 ^ (52 - e) := by
      rw [← hsig, significand]
      exact Nat.le_add_right _ _
    have hless : n * 2 ^ (52 - e) < 2 ^ 31 * 2 ^ (52 - e) :=
      Nat.mul_lt_mul_of_pos_right hlt (Nat.two_pow_pos _)
    have hpow : 2 ^ 31 * 2 ^ (52 - e) ≤ 2 ^ 52 := by
      rw [← Nat.pow_add]
      exact Nat.pow_le_pow_right (by decide) (by omega)
    omega
  have hnonzero : magnitude (ofNat n) ≠ 0 := by omega
  have hshift : 1075 - (1023 + e) = 52 - e := by omega
  rw [toInt32?, if_neg hnonzero, if_pos (by omega), hfield, hsig, hshift,
    Nat.mul_div_cancel _ (Nat.two_pow_pos _)]
  exact congrArg some (if_pos hsign)

/-- Rounding gives 53 digits, or the next power of two. -/
theorem significandOf_log2 (hle : 2 ^ 53 ≤ n) :
    2 ^ 52 ≤ significandOf n n.log2 ∧ significandOf n n.log2 ≤ 2 ^ 53 := by
  have hne : n ≠ 0 := by omega
  have hlog : 53 ≤ n.log2 := (Nat.le_log2 hne).mpr hle
  have hlo : 2 ^ n.log2 ≤ n := Nat.log2_self_le hne
  have hhi : n < 2 ^ (n.log2 + 1) := Nat.lt_log2_self
  have hsum : 2 ^ 52 * 2 ^ (n.log2 - 52) = 2 ^ n.log2 := by
    rw [← Nat.pow_add, Nat.add_sub_cancel' (by omega)]
  have hsum' : 2 ^ 53 * 2 ^ (n.log2 - 52) = 2 ^ (n.log2 + 1) := by
    rw [← Nat.pow_add]
    congr 1
    omega
  have hdiv : 2 ^ 52 ≤ n / 2 ^ (n.log2 - 52) :=
    (Nat.le_div_iff_mul_le (Nat.two_pow_pos _)).mpr (hsum ▸ hlo)
  have hdiv' : n / 2 ^ (n.log2 - 52) < 2 ^ 53 :=
    (Nat.div_lt_iff_lt_mul (Nat.two_pow_pos _)).mpr (hsum' ▸ hhi)
  rw [significandOf, if_neg (by omega), roundShift]
  split <;> omega

/-- The doubles of larger numbers have larger exponents. -/
theorem toNat?_ofNat_of_le (hle : 2 ^ 53 ≤ n) : toNat? (ofNat n) = none := by
  have hne : n ≠ 0 := by omega
  have hlog : 53 ≤ n.log2 := (Nat.le_log2 hne).mpr hle
  have hexp : 1076 ≤ exponent (ofNat n) := by
    rw [ofNat, if_neg hne]
    split
    · have hsig := significandOf_log2 hle
      rw [exponent, UInt64.toNat_ofNat', Nat.mod_eq_of_lt] <;> omega
    · decide
  have hzero : ofNat n ≠ 0 := by
    intro hzero
    rw [hzero] at hexp
    have hz : exponent 0 = 0 := by decide
    omega
  rw [toNat?, if_neg hzero, if_neg (by omega)]

/-- At most one shift leads to 53 digits. -/
theorem shift_le {a b : Nat} (ha : 2 ^ 52 ≤ n * 2 ^ a) (hb : n * 2 ^ b < 2 ^ 53) : b ≤ a := by
  by_contra hgt
  have hpow : 2 ^ (a + 1) ≤ 2 ^ b := Nat.pow_le_pow_right (by decide) (by omega)
  have hle : n * 2 ^ a * 2 ≤ n * 2 ^ b := by
    rw [Nat.mul_assoc, ← Nat.pow_succ]
    exact Nat.mul_le_mul_left n hpow
  omega

/-- A double that is equal to a natural number is the double of that number. -/
theorem ofNat_of_toNat? (h : toNat? bits = some n) : ofNat n = bits := by
  rw [toNat?] at h
  split at h
  · cases h
    exact (‹bits = 0›).symm
  split at h
  · obtain ⟨hlo, hhi, hdvd⟩ := ‹_ ∧ _ ∧ _›
    cases h
    have hbits : bits.toNat = exponent bits * 2 ^ 52 + (significand bits - 2 ^ 52) := by
      rw [exponent, significand]
      omega
    have hsig : 2 ^ 52 ≤ significand bits ∧ significand bits < 2 ^ 53 := by
      rw [significand]
      omega
    have hmul := Nat.div_mul_cancel hdvd
    generalize hn : significand bits / 2 ^ (1075 - exponent bits) = n at hmul
    have hpos : 0 < n := by
      apply Nat.pos_of_ne_zero
      rintro rfl
      omega
    have hlt : n < 2 ^ 53 := by
      have hle := Nat.le_mul_of_pos_right n (Nat.two_pow_pos (1075 - exponent bits))
      omega
    obtain ⟨e, he, hge, hless, hofNat⟩ := toNat_ofNat hpos hlt
    -- both shifts give 53 digits
    have hshift : 52 - e = 1075 - exponent bits :=
      Nat.le_antisymm (shift_le (hmul ▸ hsig.1) hless) (shift_le hge (hmul ▸ hsig.2))
    rw [hshift, hmul] at hofNat
    apply UInt64.toNat_inj.mp
    omega
  · cases h

theorem toInt?_ofNat (hlt : n < 2 ^ 53) : toInt? (ofNat n) = some (n : Int) := by
  rcases Nat.eq_zero_or_pos n with rfl | hpos
  · rfl
  obtain ⟨e, he, hexp, hsig⟩ := exponent_ofNat hpos hlt
  obtain ⟨hmagnitude, hsign⟩ := magnitude_ofNat hpos hlt
  have hfield : magnitude (ofNat n) / 2 ^ 52 = 1023 + e := by
    rw [hmagnitude]
    exact hexp
  have hshift : 1075 - (1023 + e) = 52 - e := by omega
  simp only [toInt?]
  rw [hfield, if_neg (by omega), if_pos hsign, if_pos (Nat.le_add_right 1023 e), hshift, hsig,
    Nat.mul_div_cancel _ (Nat.two_pow_pos _)]

/-- The sign bit changes the sign. -/
theorem toInt?_neg (hpos : 0 < n) (hlt : n < 2 ^ 53) :
    toInt? (.ofNat (2 ^ 63 + (ofNat n).toNat)) = some (-(n : Int)) := by
  obtain ⟨e, he, hexp, hsig⟩ := exponent_ofNat hpos hlt
  obtain ⟨hmagnitude, hsign⟩ := magnitude_ofNat hpos hlt
  rw [exponent] at hexp
  rw [significand] at hsig
  have hbits : (UInt64.ofNat (2 ^ 63 + (ofNat n).toNat)).toNat = 2 ^ 63 + (ofNat n).toNat := by
    rw [UInt64.toNat_ofNat', Nat.mod_eq_of_lt]
    omega
  have hfield : magnitude (.ofNat (2 ^ 63 + (ofNat n).toNat)) / 2 ^ 52 = 1023 + e := by
    rw [magnitude, hbits]
    omega
  have hfraction : significand (.ofNat (2 ^ 63 + (ofNat n).toNat)) = n * 2 ^ (52 - e) := by
    rw [significand, hbits, ← hsig]
    omega
  have hshift : 1075 - (1023 + e) = 52 - e := by omega
  simp only [toInt?]
  rw [hfield, if_neg (by omega), hbits, if_neg (by omega), if_pos (Nat.le_add_right 1023 e),
    hshift, hfraction, Nat.mul_div_cancel _ (Nat.two_pow_pos _)]

theorem toInt?_ofInt {v : Int} (h : v.natAbs < 2 ^ 53) : toInt? (ofInt v) = some v := by
  rw [ofInt]
  by_cases hneg : 0 ≤ v
  · rw [if_pos hneg, toInt?_ofNat h, Int.natAbs_of_nonneg hneg]
  · rw [if_neg hneg, toInt?_neg (by omega) h]
    congr 1
    omega

end LuaAddons.Binary64
