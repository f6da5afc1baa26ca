import LuaAddons.FormatItems

/-!
# What struct.pack writes

What `pack` writes for values that their items can hold, `unpack` reads back, at the start of a
string or behind anything that keeps the alignment, and whatever follows. It is as long as `size`
says.
-/

namespace LuaAddons.Struct

open Binary64 Reading

/-! ## Integers -/

/-- `getinteger` reads a number from its high byte on, modulo `2 ^ 32`. -/
theorem foldl_bytes (buff : LuaString) :
    buff.foldl (fun l b => (l * 2 ^ 8 + b.toNat) % 2 ^ 32) 0 =
      ofLowBytes buff.reverse % 2 ^ 32 := by
  induction buff using List.reverseRecOn with
  | nil => rfl
  | append_singleton buff b ih =>
    rw [List.foldl_append, List.foldl_cons, List.foldl_nil, ih, List.reverse_append,
      List.reverse_singleton, List.singleton_append, ofLowBytes]
    omega

/-- The integers that an option can hold. -/
def InRange (signed : Bool) (size : Nat) (v : Int) : Prop :=
  if signed then 1 ≤ size ∧ size ≤ 4 ∧ -(2 ^ (size * 8 - 1)) ≤ v ∧ v < 2 ^ (size * 8 - 1)
  else 0 ≤ v ∧ v < 256 ^ size ∧ v < 2 ^ 32

theorem toUinttype_ofInt {v : Int} (hlow : -(2 ^ 31) ≤ v) (hhigh : v < 2 ^ 32) :
    toUinttype (ofInt v) = .ok (v % 2 ^ 32).toNat := by
  rw [toUinttype, toInt?_ofInt (by omega)]
  exact if_pos ⟨hlow, hhigh⟩

theorem length_putinteger {endian : Endian} {size : Nat} {n : UInt64} {buff : LuaString}
    (h : putinteger endian size n = .ok buff) : buff.length = size := by
  unfold putinteger at h
  split at h
  · cases h
  · cases h
    split
    · exact length_lowBytes _ _
    · rw [List.length_reverse, length_lowBytes]

theorem InRange.bounds {signed : Bool} {size : Nat} {v : Int} (h : InRange signed size v) :
    -(2 ^ 31) ≤ v ∧ v < 2 ^ 32 := by
  unfold InRange at h
  split at h
  · obtain ⟨hpos, hle, hlow, hhigh⟩ := h
    interval_cases size <;> norm_num at hlow hhigh <;> omega
  · omega

/-- The sign is extended from the highest bit that was written. -/
theorem signed32_extend {size : Nat} {v : Int} (h : InRange true size v) :
    let l := (v % 2 ^ 32).toNat % 256 ^ size
    let sign := 2 ^ (size * 8 - 1)
    signed32 (if sign ≤ l then l % sign + (2 ^ 32 - sign) else l) = v := by
  obtain ⟨hpos, hle, hlow, hhigh⟩ := h
  intro l sign
  unfold signed32
  simp only [l, sign]
  interval_cases size <;> norm_num at hlow hhigh ⊢ <;> split <;> split <;> omega

/-- What `putinteger` writes, `getinteger` reads. -/
theorem getinteger_putinteger (endian : Endian) {signed : Bool} {size : Nat} {v : Int}
    (hv : InRange signed size v) :
    ∃ buff, putinteger endian size (ofInt v) = .ok buff ∧
      getinteger endian signed size buff = .ok (ofInt v) := by
  obtain ⟨hlow, hhigh⟩ := hv.bounds
  refine ⟨_, by rw [putinteger, toUinttype_ofInt hlow hhigh], ?_⟩
  have hread : (if endian = .big then
        (if endian = .little then lowBytes size (v % 2 ^ 32).toNat
          else (lowBytes size (v % 2 ^ 32).toNat).reverse)
      else (if endian = .little then lowBytes size (v % 2 ^ 32).toNat
          else (lowBytes size (v % 2 ^ 32).toNat).reverse).reverse) =
      (lowBytes size (v % 2 ^ 32).toNat).reverse := by
    cases endian <;> simp
  simp only [getinteger, hread, foldl_bytes, List.reverse_reverse, ofLowBytes_lowBytes_mod]
  cases signed with
  | false =>
    obtain ⟨hnonneg, hsize, -⟩ := hv
    obtain ⟨n, rfl⟩ := Int.eq_ofNat_of_zero_le hnonneg
    have hn : n < 256 ^ size := by exact_mod_cast hsize
    have hmod : ((n : Int) % 2 ^ 32).toNat = n := by omega
    rw [Bool.not_false, if_pos rfl, hmod, Nat.mod_eq_of_lt hn, Nat.mod_eq_of_lt (by omega), ofInt,
      if_pos hnonneg, Int.natAbs_natCast]
  | true =>
    have hextend := signed32_extend hv
    obtain ⟨hpos, hle, -⟩ := hv
    have hsize : (v % 2 ^ 32).toNat % 256 ^ size < 2 ^ 32 := by
      have hlt := Nat.mod_lt (v % 2 ^ 32).toNat (Nat.pow_pos (n := size) (show 0 < 256 by decide))
      have hpow : 256 ^ size ≤ 256 ^ 4 := Nat.pow_le_pow_right (by decide) hle
      omega
    rw [Bool.not_true, if_neg Bool.false_ne_true, if_neg (by omega), Nat.mod_eq_of_lt hsize]
    exact congrArg (fun v => Except.ok (ofInt v)) hextend

/-- An integer that was read is no NaN. -/
theorem isSignaling_getinteger {endian : Endian} {signed : Bool} {size : Nat} {buff : LuaString}
    {n : UInt64} (h : getinteger endian signed size buff = .ok n) : isSignaling n = false := by
  have hsigned (l : Nat) : isSignaling (ofInt (signed32 l)) = false := by
    have hsmall : (signed32 l).natAbs < 2 ^ 53 := by
      rw [signed32]
      split <;> omega
    exact isSignaling_of_toInt? (toInt?_ofInt hsmall)
  simp only [getinteger, foldl_bytes] at h
  split at h
  · cases h
    exact isSignaling_of_toInt? (toInt?_ofNat
      (Nat.lt_trans (Nat.mod_lt _ (by decide)) (by decide)))
  · split at h
    · cases h
    · cases h
      exact hsigned _

/-! ## Values that their items can hold -/

/-- The signedness of an integer option. -/
def Letter.signed? : Letter → Option Bool
  | .x | .f | .d | .c | .s | .other _ => none
  | opt => some (issigned opt)

/-- The value comes back from the bytes of the item. On the processors for which `luaconf.h` allows
`LUA_NANTRICK`, the NaN of a Lua number are quiet. -/
def Holds (k : Conversions) (item : Item) : LuaValue → Prop
  | .number n =>
    (item.opt = .f ∧ k.ofFloat (k.toFloat n) = n) ∨
      (item.opt = .d ∧ isSignaling n = false) ∨
      ∃ signed v, item.opt.signed? = some signed ∧ InRange signed item.size v ∧ n = ofInt v
  | .string s =>
    (item.opt = .c ∧ item.size ≠ 0 ∧ s.length = item.size) ∨ (item.opt = .s ∧ (0 : UInt8) ∉ s)
  | _ => False

/-- The arguments can be held by the items, with `stack` for the values before them, the last one
first. `final` are all values that come back: a length before a `c0` does not. -/
inductive Fits (k : Conversions) :
    List Item → List LuaValue → List LuaValue → List LuaValue → Prop where
  | nil (args stack : List LuaValue) : Fits k [] args stack stack
  | padding {item : Item} {l : List Item} {args stack final : List LuaValue} :
      item.opt = .x → Fits k l args stack final → Fits k (item :: l) args stack final
  | value {item : Item} {l : List Item} {v : LuaValue} {args stack final : List LuaValue} :
      Holds k item v → Fits k l args (v :: stack) final → Fits k (item :: l) (v :: args) stack final
  | counted {item : Item} {l : List Item} {s : LuaString} {args stack final : List LuaValue} :
      item.opt = .c → item.size = 0 → s.length < 2 ^ 32 →
        Fits k l args (.string s :: stack) final →
          Fits k (item :: l) (.string s :: args) (.number (ofNat s.length) :: stack) final

section Options

variable {k : Conversions} {endian : Endian} {data bytes post : LuaString} {pos size : Nat}

theorem correctbytes_correctbytes (endian : Endian) (bytes : LuaString) :
    correctbytes endian (correctbytes endian bytes) = bytes := by
  cases endian with
  | little => rfl
  | big => exact List.reverse_reverse bytes

theorem length_correctbytes (endian : Endian) (bytes : LuaString) :
    (correctbytes endian bytes).length = bytes.length := by
  cases endian with
  | little => rfl
  | big => exact List.length_reverse

theorem bytesAt_of_drop (h : data.drop pos = bytes ++ post) (hpos : pos ≤ data.length) :
    bytesAt data pos bytes.length = .ok bytes := by
  have hlength := congrArg List.length h
  rw [List.length_drop, List.length_append] at hlength
  rw [bytesAt, if_pos (by omega), h, List.take_left]

/-- The switches for an integer. -/
theorem option_integer (k : Conversions) (endian : Endian) (size : Nat) {opt : Letter}
    {signed : Bool} (hopt : opt.signed? = some signed) :
    (∀ arg args, packOption k endian arg args size opt =
      checknumber k arg args >>= fun n => putinteger endian size n >>= fun buff =>
        .ok (buff, size, 1)) ∧
    (∀ data pos stack, unpackOption k endian data pos size stack opt =
      bytesAt data pos size >>= fun buff => getinteger endian signed size buff >>= fun res =>
        .ok (.number res :: stack, size)) := by
  have hpush (signed : Bool) (data : LuaString) (pos : Nat) (stack : List LuaValue) :
      (bytesAt data pos size >>= fun buff => getinteger endian signed size buff >>= fun res =>
        pushnumber k res >>= fun v => Except.ok (v :: stack, size)) =
      bytesAt data pos size >>= fun buff => getinteger endian signed size buff >>= fun res =>
        .ok (.number res :: stack, size) := by
    refine bind_congr (fun buff => ?_)
    cases hget : getinteger endian signed size buff with
    | error e => rfl
    | ok n =>
      have hnumber := pushnumber_of_not_signaling k (isSignaling_getinteger hget)
      exact congrArg (fun r => r >>= fun v => Except.ok (v :: stack, size)) hnumber
  cases opt <;> cases hopt <;>
    exact ⟨fun _ _ => rfl, fun data pos stack => hpush _ data pos stack⟩

/-- What an item holds is written in full, and read back. -/
theorem option_holds {item : Item} (hitem : item.WellFormed) {v : LuaValue} (hv : Holds k item v)
    (endian : Endian) :
    ∃ added : LuaString, (item.size = 0 ∨ item.size = added.length) ∧
      (∀ arg args, packOption k endian arg (v :: args) item.size item.opt =
        .ok (added, added.length, 1)) ∧
      ∀ data pos stack post, data.drop pos = added ++ post → pos ≤ data.length →
        unpackOption k endian data pos item.size stack item.opt =
          .ok (v :: stack, added.length) := by
  cases v with
  | number n =>
    have hsized := hitem.sized
    rcases hv with ⟨hopt, hfloat⟩ | ⟨hopt, hquiet⟩ | ⟨signed, v, hopt, hrange, rfl⟩
    · have hsize : item.size = 4 := by
        rw [hopt] at hsized
        exact hsized
      have hlength : (correctbytes endian (lowBytes 4 (k.toFloat n).toNat)).length = 4 := by
        rw [length_correctbytes, length_lowBytes]
      have hquiet : isSignaling n = false := hfloat ▸ k.ofFloat_quiet (k.toFloat n)
      refine ⟨correctbytes endian (lowBytes 4 (k.toFloat n).toNat), Or.inr (by rw [hlength, hsize]),
        fun arg args => ?_, fun data pos stack post hdrop hpos => ?_⟩
      · rw [hlength, hopt, hsize, packOption, checknumber, quiet_of_not_signaling hquiet]
        rfl
      · have hbytes := bytesAt_of_drop hdrop hpos
        rw [hlength] at hbytes ⊢
        rw [hopt, hsize, unpackOption]
        refine bind_eq_ok.mpr ⟨_, hbytes, ?_⟩
        rw [correctbytes_correctbytes, ofLowBytes_lowBytes 4 _ (UInt32.toNat_lt _),
          UInt32.ofNat_toNat, hfloat, pushnumber_of_not_signaling k hquiet]
        rfl
    · have hsize : item.size = 8 := by
        rw [hopt] at hsized
        exact hsized
      have hlength : (correctbytes endian (lowBytes 8 n.toNat)).length = 8 := by
        rw [length_correctbytes, length_lowBytes]
      refine ⟨correctbytes endian (lowBytes 8 n.toNat), Or.inr (by rw [hlength, hsize]),
        fun arg args => ?_, fun data pos stack post hdrop hpos => ?_⟩
      · rw [hlength, hopt, hsize, packOption, checknumber, quiet_of_not_signaling hquiet]
        rfl
      · have hbytes := bytesAt_of_drop hdrop hpos
        rw [hlength] at hbytes ⊢
        rw [hopt, hsize, unpackOption]
        refine bind_eq_ok.mpr ⟨_, hbytes, ?_⟩
        rw [correctbytes_correctbytes, ofLowBytes_lowBytes 8 _ (UInt64.toNat_lt _),
          UInt64.ofNat_toNat, pushnumber_of_not_signaling k hquiet]
        rfl
    · obtain ⟨hpack, hunpack⟩ := option_integer k endian item.size hopt
      obtain ⟨buff, hput, hget⟩ := getinteger_putinteger endian hrange
      have hlength := length_putinteger hput
      refine ⟨buff, Or.inr hlength.symm, fun arg args => ?_,
        fun data pos stack post hdrop hpos => ?_⟩
      · have hnumber := toInt?_ofInt (v := v) (by have hbounds := hrange.bounds; omega)
        rw [hpack, checknumber, quiet_of_not_signaling (isSignaling_of_toInt? hnumber), hlength]
        exact bind_eq_ok.mpr ⟨_, rfl, bind_eq_ok.mpr ⟨buff, hput, rfl⟩⟩
      · have hbytes := bytesAt_of_drop hdrop hpos
        rw [hlength] at hbytes
        rw [hunpack, hlength]
        exact bind_eq_ok.mpr ⟨buff, hbytes, bind_eq_ok.mpr ⟨_, hget, rfl⟩⟩
  | string s =>
    rcases hv with ⟨hopt, hsize, hlength⟩ | ⟨hopt, hzero⟩
    · refine ⟨s, Or.inr hlength.symm, fun arg args => ?_, fun data pos stack post hdrop hpos => ?_⟩
      · rw [hopt, packOption, ← hlength]
        rw [← hlength] at hsize
        refine bind_eq_ok.mpr ⟨s, rfl, ?_⟩
        simp only [if_neg hsize, if_neg (Nat.lt_irrefl _), List.take_length]
        rfl
      · rw [hopt, unpackOption, if_neg hsize, ← hlength]
        exact bind_eq_ok.mpr ⟨s, bytesAt_of_drop hdrop hpos, rfl⟩
    · have hsize : item.size = 0 := by
        have hsized := hitem.sized
        rw [hopt] at hsized
        exact hsized
      refine ⟨s ++ [0], Or.inl hsize, fun arg args => ?_, fun data pos stack post hdrop hpos => ?_⟩
      · rw [hopt, List.length_append]
        rfl
      · have hfind : (data.drop pos).findIdx? (· == 0) = some s.length := by
          have hnone : s.findIdx? (· == 0) = none := by
            refine List.findIdx?_eq_none_iff.mpr (fun c hc => beq_eq_false_iff_ne.mpr ?_)
            exact fun h => hzero (h ▸ hc)
          rw [hdrop, List.append_assoc, List.findIdx?_append, hnone, List.singleton_append,
            List.findIdx?_cons]
          simp
        rw [hopt, unpackOption, hfind, hdrop, List.append_assoc, List.length_append]
        dsimp only
        rw [List.take_left]
        rfl
  | _ => exact hv.elim

/-- A string after its length. -/
theorem option_counted {item : Item} (hopt : item.opt = .c) (hsize : item.size = 0) (s : LuaString)
    (endian : Endian) :
    (∀ arg args, packOption k endian arg (.string s :: args) item.size item.opt =
      .ok (s, s.length, 1)) ∧
    ∀ data pos stack post, data.drop pos = s ++ post → pos ≤ data.length → data.length < 2 ^ 32 →
      unpackOption k endian data pos item.size (.number (ofNat s.length) :: stack) item.opt =
        .ok (.string s :: stack, s.length) := by
  rw [hopt, hsize]
  refine ⟨fun arg args => ?_, fun data pos stack post hdrop hpos hlength => ?_⟩
  · refine bind_eq_ok.mpr ⟨s, rfl, ?_⟩
    simp only [if_pos, if_neg (Nat.lt_irrefl _), List.take_length]
    rfl
  · have hfit := congrArg List.length hdrop
    rw [List.length_drop, List.length_append] at hfit
    have hcount : toSize (ofNat s.length) = .ok s.length := by
      rw [toSize, toInt?_ofNat (by omega)]
      exact if_pos ⟨by omega, by omega⟩
    have hshort : ¬ data.length < (pos + s.length) % 2 ^ 32 := by omega
    have hquiet : isSignaling (ofNat s.length) = false :=
      isSignaling_of_toInt? (toInt?_ofNat (by omega))
    rw [unpackOption, if_pos rfl, List.headD_cons, tonumber, quiet_of_not_signaling hquiet]
    refine bind_eq_ok.mpr ⟨s.length, hcount, ?_⟩
    rw [if_neg hshort]
    exact bind_eq_ok.mpr ⟨s, bytesAt_of_drop hdrop hpos, rfl⟩

end Options

/-! ## Reading back -/

/-- The items write the arguments, and put the values on the stack when they read what they
wrote: behind a `base` that keeps the alignment, before anything, and over any stack. -/
def Carries (k : Conversions) (its : List Item) (args stack final : List LuaValue) : Prop :=
  ∀ arg totalsize b, totalsize < 2 ^ 32 →
    ∃ added, packItems k its arg args totalsize b = .ok (b ++ added) ∧
      ∀ base data post bottom, (∀ item ∈ its, item.header.align ∣ base) →
        data.drop (base + totalsize) = added ++ post → base + totalsize ≤ data.length →
          data.length < 2 ^ 32 →
            unpackItems k data its (base + totalsize) (stack ++ bottom) =
              .ok (base + totalsize + added.length, final ++ bottom)

theorem Carries.cons {k : Conversions} {item : Item} {l : List Item}
    {args stack stack' final : List LuaValue} (written : LuaString) (used : Nat)
    (hitem : item.WellFormed) (hsize : item.size = 0 ∨ item.size = written.length)
    (hpack : ∀ arg, packOption k item.header.endian arg args item.size item.opt =
      .ok (written, written.length, used))
    (hunpack : ∀ data pos bottom post, data.drop pos = written ++ post → pos ≤ data.length →
      data.length < 2 ^ 32 →
        unpackOption k item.header.endian data pos item.size (stack ++ bottom) item.opt =
          .ok (stack' ++ bottom, written.length))
    (hl : Carries k l (args.drop used) stack' final) : Carries k (item :: l) args stack final := by
  intro arg totalsize b htotal
  have hrest := hl (arg + used) (((totalsize + item.toalign totalsize) % 2 ^ 32 + written.length) %
    2 ^ 32) (b ++ List.replicate (item.toalign totalsize) 0 ++ written) (Nat.mod_lt _ (by decide))
  obtain ⟨added, hadded, hread⟩ := hrest
  refine ⟨List.replicate (item.toalign totalsize) 0 ++ written ++ added, ?_, ?_⟩
  · rw [packItems]
    refine bind_eq_ok.mpr ⟨_, hpack arg, ?_⟩
    simpa only [List.append_assoc] using hadded
  · intro base data post bottom halign hdrop hle hlength
    obtain ⟨hbase, halign⟩ := List.forall_mem_cons.mp halign
    have htoalign := toalign_add hitem hbase totalsize
    have hfit := congrArg List.length hdrop
    simp only [List.length_drop, List.length_append, List.length_replicate] at hfit
    -- nothing wraps around, since the data string holds all of it
    have hdata : data.drop (base + totalsize + item.toalign totalsize) =
        written ++ (added ++ post) := by
      rw [← List.drop_drop, hdrop, List.append_assoc, List.append_assoc,
        List.drop_left' List.length_replicate]
    have hnext : data.drop (base + (totalsize + item.toalign totalsize + written.length)) =
        added ++ post := by
      rw [show base + (totalsize + item.toalign totalsize + written.length) =
        base + totalsize + item.toalign totalsize + written.length by omega, ← List.drop_drop,
        hdata, List.drop_left]
    have htotal' : ((totalsize + item.toalign totalsize) % 2 ^ 32 + written.length) % 2 ^ 32 =
        totalsize + item.toalign totalsize + written.length := by omega
    have hpos : (base + totalsize + item.toalign totalsize) % 2 ^ 32 =
        base + totalsize + item.toalign totalsize := Nat.mod_eq_of_lt (by omega)
    rw [htotal'] at hread
    have hrun := hread base data post bottom halign hnext (by omega) hlength
    have hshort : ¬ data.length <
        (base + totalsize + item.toalign totalsize + item.size) % 2 ^ 32 := by
      rcases hsize with hsize | hsize <;> omega
    rw [unpackItems, htoalign, hpos, if_neg hshort]
    refine bind_eq_ok.mpr ⟨_, hunpack data _ bottom _ hdata (by omega) hlength, ?_⟩
    have hwrap : (base + totalsize + item.toalign totalsize + written.length) % 2 ^ 32 =
        base + (totalsize + item.toalign totalsize + written.length) := by omega
    dsimp only
    rw [hwrap, hrun]
    simp only [List.length_append, List.length_replicate]
    congr 2
    omega

theorem carries_of_fits {k : Conversions} {its : List Item} {args stack final : List LuaValue}
    (hits : ∀ item ∈ its, item.WellFormed) (hfits : Fits k its args stack final) :
    Carries k its args stack final := by
  induction hfits with
  | nil args stack =>
    intro arg totalsize b htotal
    refine ⟨[], by rw [packItems, List.append_nil], fun base data post bottom _ _ _ _ => ?_⟩
    rw [unpackItems]
    rfl
  | @padding item l args stack final hopt _ ih =>
    obtain ⟨hitem, hl⟩ := List.forall_mem_cons.mp hits
    have hsize : item.size = 1 := by
      have hsized := hitem.sized
      rw [hopt] at hsized
      exact hsized
    refine Carries.cons [0] 0 hitem (Or.inr hsize) (fun arg => ?_)
      (fun data pos bottom post _ _ _ => ?_) (ih hl)
    · rw [hopt, hsize]
      rfl
    · rw [hopt, hsize]
      rfl
  | @value item l v args stack final hv _ ih =>
    obtain ⟨hitem, hl⟩ := List.forall_mem_cons.mp hits
    obtain ⟨written, hsize, hpack, hunpack⟩ := option_holds hitem hv item.header.endian
    exact Carries.cons written 1 hitem hsize (fun arg => hpack arg args)
      (fun data pos bottom post hdrop hpos _ => hunpack data pos _ post hdrop hpos) (ih hl)
  | @counted item l s args stack final hopt hsize _ _ ih =>
    obtain ⟨hitem, hl⟩ := List.forall_mem_cons.mp hits
    obtain ⟨hpack, hunpack⟩ := option_counted hopt hsize s item.header.endian
    refine Carries.cons s 1 hitem (Or.inl hsize) (fun arg => hpack arg args)
      (fun data pos bottom post hdrop hpos hlength => ?_) (ih hl)
    exact hunpack data pos (stack ++ bottom) post hdrop hpos hlength

/-- `unpack` reads back what `pack` writes, wherever it stands. -/
theorem unpack_pack {k : Conversions} {fmt : LuaString} {its : List Item}
    {args final : List LuaValue} (hits : items defaultoptions fmt = .ok its)
    (hfits : Fits k its args [] final) :
    ∃ b, bPack k fmt args = .ok b ∧
      ∀ before after : LuaString, (∀ item ∈ its, item.header.align ∣ before.length) →
        before.length + b.length + after.length < 2 ^ 31 - 1 →
          bUnpack k fmt (before ++ b ++ after) (some (before.length + 1)) =
            .ok (final.reverse ++ [.number (ofNat (before.length + b.length + 1))]) := by
  have hwell := wellFormed_items ⟨0, rfl⟩ hits
  obtain ⟨b, hb, hread⟩ := carries_of_fits hwell hfits 2 0 [] (by decide)
  refine ⟨b, ?_, fun before after halign hlength => ?_⟩
  · rw [bPack, packLoop_eq hits (by decide), hb, List.nil_append]
  · have hpos :
        (((some ((before.length : Int) + 1)).getD 1 - 1) % 2 ^ 32).toNat = before.length := by
      rw [Option.getD_some]
      omega
    have hdata : (before ++ b ++ after).length = before.length + b.length + after.length := by
      rw [List.length_append, List.length_append]
    have hrun := hread before.length (before ++ b ++ after) after [.string (before ++ b ++ after)]
      halign (by rw [Nat.add_zero, List.append_assoc, List.drop_left]) (by omega) (by omega)
    have hnext :
        signed32 (before.length + b.length + 1) = (before.length + b.length + 1 : Nat) := by
      rw [signed32, Nat.mod_eq_of_lt (by omega), if_pos (by omega)]
    rw [Nat.add_zero, List.nil_append] at hrun
    rw [bUnpack, hpos, unpackLoop_eq hits (by omega) (by omega), hrun]
    dsimp only
    rw [hnext, List.reverse_append, List.reverse_singleton, List.singleton_append, List.tail_cons,
      ofInt, if_pos (Int.natCast_nonneg _), Int.natAbs_natCast]

/-- Nothing is converted. -/
def noConversions : Conversions where
  str2number _ := none
  number2str _ := []
  toFloat _ := 0
  ofFloat _ := 0
  pass := id
  ofFloat_quiet _ := by decide
  pass_cases _ := .inl rfl

/-- A byte, a string behind its length, a padding byte and a string that ends with a zero. -/
def countedItems : List Item :=
  [⟨.b, 1, ⟨.little, 4⟩⟩, ⟨.I, 2, ⟨.big, 4⟩⟩, ⟨.c, 0, ⟨.big, 4⟩⟩, ⟨.x, 1, ⟨.big, 4⟩⟩,
    ⟨.s, 0, ⟨.big, 4⟩⟩]

theorem unpack_pack_counted :
    ∃ b, bPack noConversions (ascii "!4b>I2c0xs")
        [.number (ofInt (-5)), .number (ofNat 2), .string [1, 0], .string [7]] = .ok b ∧
      bUnpack noConversions (ascii "!4b>I2c0xs") ([9, 9, 9, 9] ++ b ++ [3]) (some 5) =
        .ok [.number (ofInt (-5)), .string [1, 0], .string [7], .number (ofNat 14)] := by
  have hits : items defaultoptions (ascii "!4b>I2c0xs") = .ok countedItems := by
    decide +kernel
  have hbytes : bPack noConversions (ascii "!4b>I2c0xs")
      [.number (ofInt (-5)), .number (ofNat 2), .string [1, 0], .string [7]] =
        .ok [0xfb, 0, 0, 2, 1, 0, 0, 7, 0] := by
    decide +kernel
  have hfits : Fits noConversions countedItems
      [.number (ofInt (-5)), .number (ofNat 2), .string [1, 0], .string [7]] []
      [.string [7], .string [1, 0], .number (ofInt (-5))] := by
    refine .value (Or.inr (Or.inr ⟨true, -5, rfl, ?_, rfl⟩)) ?_
    · norm_num [InRange]
    refine .value (Or.inr (Or.inr ⟨false, 2, rfl, ?_, rfl⟩)) ?_
    · norm_num [InRange]
    exact .counted rfl rfl (by decide) (.padding rfl (.value (Or.inr ⟨rfl, by decide⟩) (.nil _ _)))
  obtain ⟨b, hb, hread⟩ := unpack_pack hits hfits
  obtain rfl : b = [0xfb, 0, 0, 2, 1, 0, 0, 7, 0] := Except.ok.inj (hb.symm.trans hbytes)
  exact ⟨_, hb, hread [9, 9, 9, 9] [3] (by decide) (by decide)⟩

/-! ## Size -/

/-- The items that `size` can count. -/
def Item.HasSize (item : Item) : Prop :=
  item.opt ≠ .s ∧ ¬ (item.opt = .c ∧ item.size = 0)

/-- `pack` counts the bytes that it adds, and adds as many as the item has. -/
theorem packOption_size {k : Conversions} {endian : Endian} {arg : Nat} {args : List LuaValue}
    {item : Item} {r : LuaString × Nat × Nat} (hitem : item.WellFormed)
    (h : packOption k endian arg args item.size item.opt = .ok r) :
    r.1.length = r.2.1 ∧ (item.HasSize → r.2.1 = item.size) := by
  have hsized := hitem.sized
  have hinteger {signed : Bool} (hopt : item.opt.signed? = some signed) :
      r.1.length = r.2.1 ∧ (item.HasSize → r.2.1 = item.size) := by
    rw [(option_integer k endian item.size hopt).1] at h
    obtain ⟨n, -, h⟩ := bind_eq_ok.mp h
    obtain ⟨buff, hput, h⟩ := bind_eq_ok.mp h
    cases h
    exact ⟨length_putinteger hput, fun _ => rfl⟩
  cases hopt : item.opt with
  | x =>
    rw [hopt] at h hsized
    cases h
    exact ⟨hsized.symm, fun _ => rfl⟩
  | f =>
    rw [hopt] at h
    obtain ⟨n, -, h⟩ := bind_eq_ok.mp h
    cases h
    exact ⟨by rw [length_correctbytes, length_lowBytes], fun _ => rfl⟩
  | d =>
    rw [hopt] at h
    obtain ⟨n, -, h⟩ := bind_eq_ok.mp h
    cases h
    exact ⟨by rw [length_correctbytes, length_lowBytes], fun _ => rfl⟩
  | c =>
    rw [hopt] at h
    obtain ⟨s, -, h⟩ := bind_eq_ok.mp h
    dsimp only at h
    split at h
    · split at h
      · cases h
      · cases h
        refine ⟨by rw [List.length_take, Nat.min_self], fun hsize => ?_⟩
        exact absurd ⟨hopt, ‹_›⟩ hsize.2
    · split at h
      · cases h
      · rename_i hlong
        cases h
        exact ⟨by rw [List.length_take, Nat.min_eq_left (Nat.le_of_not_lt hlong)], fun _ => rfl⟩
  | s =>
    rw [hopt] at h
    obtain ⟨s, -, h⟩ := bind_eq_ok.mp h
    cases h
    exact ⟨List.length_append, fun hsize => absurd hopt hsize.1⟩
  | other opt => exact absurd hopt (hitem.letter opt)
  | b => exact hinteger (by rw [hopt]; rfl)
  | B => exact hinteger (by rw [hopt]; rfl)
  | h => exact hinteger (by rw [hopt]; rfl)
  | H => exact hinteger (by rw [hopt]; rfl)
  | l => exact hinteger (by rw [hopt]; rfl)
  | L => exact hinteger (by rw [hopt]; rfl)
  | T => exact hinteger (by rw [hopt]; rfl)
  | i => exact hinteger (by rw [hopt]; rfl)
  | I => exact hinteger (by rw [hopt]; rfl)

/-- `pack` and `size` are at the same place all the way. -/
theorem sizeItems_of_packItems {k : Conversions} {its : List Item}
    (hits : ∀ item ∈ its, item.WellFormed) (hsize : ∀ item ∈ its, item.HasSize) {arg : Nat}
    {args : List LuaValue} {b b' : LuaString}
    (hpack : packItems k its arg args (b.length % 2 ^ 32) b = .ok b') :
    sizeItems its (b.length % 2 ^ 32) = .ok (b'.length % 2 ^ 32) := by
  induction its generalizing arg args b with
  | nil =>
    cases hpack
    rfl
  | cons item l ih =>
    obtain ⟨hitem, hl⟩ := List.forall_mem_cons.mp hits
    obtain ⟨hhas, hhasl⟩ := List.forall_mem_cons.mp hsize
    obtain ⟨r, hr, hrest⟩ := bind_eq_ok.mp hpack
    obtain ⟨hlength, hcount⟩ := packOption_size hitem hr
    have hplace : (((b.length % 2 ^ 32 + item.toalign (b.length % 2 ^ 32)) % 2 ^ 32 + r.2.1) %
        2 ^ 32) = (b ++ List.replicate (item.toalign (b.length % 2 ^ 32)) 0 ++ r.1).length %
          2 ^ 32 := by
      simp only [List.length_append, List.length_replicate, hlength]
      omega
    rw [hplace] at hrest
    have hnext := ih hl hhasl hrest
    rw [sizeItems, if_neg hhas.1, if_neg hhas.2, ← hcount hhas, hplace, hnext]

theorem sizeItems_error {its : List Item} (h : ∃ item ∈ its, ¬ item.HasSize) (pos : Nat) :
    ∃ msg, sizeItems its pos = .error (.argument 1 msg) := by
  induction its generalizing pos with
  | nil =>
    obtain ⟨_, hitem, -⟩ := h
    exact absurd hitem List.not_mem_nil
  | cons item l ih =>
    rw [sizeItems]
    by_cases hs : item.opt = .s
    · exact ⟨_, if_pos hs⟩
    · rw [if_neg hs]
      by_cases hc : item.opt = .c ∧ item.size = 0
      · exact ⟨_, if_pos hc⟩
      · rw [if_neg hc]
        refine ih ?_ _
        obtain ⟨other, hmem, hother⟩ := h
        rcases List.mem_cons.mp hmem with rfl | hmem
        · exact absurd ⟨hs, hc⟩ hother
        · exact ⟨other, hmem, hother⟩

/-- `size` is the length of every string that `pack` makes with the format. It has no answer only
for a format with an `s` or a `c0`. -/
theorem size_of_pack {C : Pattern.Ctype} (hC : Ascii C) {k : Conversions} {fmt : LuaString}
    {args : List LuaValue} {b : LuaString} (hpack : bPack k fmt args = .ok b) :
    ∃ its, items defaultoptions fmt = .ok its ∧
      ((∀ item ∈ its, item.HasSize) →
        bSize C fmt = .ok (.number (ofInt (signed32 b.length)))) ∧
      ((∃ item ∈ its, ¬ item.HasSize) → ∃ msg, bSize C fmt = .error (.argument 1 msg)) := by
  obtain ⟨its, hits⟩ := items_of_packLoop (by decide) hpack
  have hwell := wellFormed_items ⟨0, rfl⟩ hits
  refine ⟨its, hits, fun hsize => ?_, fun hvaries => ?_⟩
  · rw [bPack, packLoop_eq hits (by decide)] at hpack
    have hlength := sizeItems_of_packItems (b := []) hwell hsize hpack
    have hsigned : signed32 (b.length % 2 ^ 32) = signed32 b.length := by
      rw [signed32, signed32, Nat.mod_mod]
    rw [bSize, sizeLoop_eq hC hits (by decide)]
    rw [List.length_nil, Nat.zero_mod] at hlength
    rw [hlength]
    exact congrArg (fun v => Except.ok (LuaValue.number (ofInt v))) hsigned
  · obtain ⟨msg, hmsg⟩ := sizeItems_error hvaries 0
    refine ⟨msg, ?_⟩
    rw [bSize, sizeLoop_eq hC hits (by decide), hmsg]

theorem size_aligned : bSize Pattern.cLocale (ascii "!4bi") = .ok (.number (ofNat 8)) := by
  have hpack : bPack noConversions (ascii "!4bi") [.number (ofNat 1), .number (ofNat 2)] =
      .ok [1, 0, 0, 0, 2, 0, 0, 0] := by
    decide +kernel
  obtain ⟨its, hits, hsize, -⟩ := size_of_pack (fun _ _ => rfl) hpack
  have hknown : items defaultoptions (ascii "!4bi") =
      .ok [⟨.b, 1, ⟨.little, 4⟩⟩, ⟨.i, 4, ⟨.little, 4⟩⟩] := by
    decide +kernel
  obtain rfl := Except.ok.inj (hits.symm.trans hknown)
  exact hsize (by simp [Item.HasSize])

end LuaAddons.Struct
