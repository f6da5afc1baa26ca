import LuaAddons.Lib.Exec
import Mathlib.Algebra.Ring.Nat

/-!
# Reading from the front of a stream

A store holds a stream, and `content` is what can still be read from it. `Reads` says that a
method takes a given list from the front of the content, and that it fails with a given error when
the content ends within that list. Methods in a row read the lists in a row (`Reads.bind`), so a
format is read as it is written, and no part of it is taken for all of it.

`ByContent` methods do not see how the content is held. `Yields` is a postcondition, and `Within`
bounds how deep a recursion over the content goes.
-/

namespace LuaAddons.Reading

open Exec

variable {ε σ α β γ : Type} {content : σ → List γ} {e : ε}

/-- The method `n` times, with the results in order. -/
def times (n : Nat) (x : EStateM ε σ α) : EStateM ε σ (List α) :=
  match n with
  | 0 => pure []
  | n + 1 => do
    let a ← x
    let l ← times n x
    pure (a :: l)

/-! ## Lists that are read -/

/-- The method takes `l` from the front of the content and returns `a`. When the content ends
within `l`, it fails with `e`. -/
structure Reads (content : σ → List γ) (e : ε) (x : EStateM ε σ α) (l : List γ) (a : α) :
    Prop where
  takes : ∀ s rest, content s = l ++ rest → ∃ s', x.run s = .ok a s' ∧ content s' = rest
  short : ∀ s rest, l = content s ++ rest → rest ≠ [] → ∃ s', x.run s = .error e s'

theorem reads_pure (a : α) : Reads content e (pure a) [] a where
  takes s _ h := ⟨s, rfl, h⟩
  short _ _ h hne := absurd (List.append_eq_nil_iff.mp h.symm).2 hne

theorem Reads.bind {x : EStateM ε σ α} {f : α → EStateM ε σ β} {l m : List γ} {a : α} {b : β}
    (hx : Reads content e x l a) (hf : Reads content e (f a) m b) :
    Reads content e (x >>= f) (l ++ m) b where
  takes s rest h := by
    rw [List.append_assoc] at h
    obtain ⟨s₁, hs₁, hc₁⟩ := hx.takes s _ h
    obtain ⟨s₂, hs₂, hc₂⟩ := hf.takes s₁ _ hc₁
    exact ⟨s₂, (run_bind_of_ok hs₁).trans hs₂, hc₂⟩
  short s rest h hne := by
    rcases List.append_eq_append_iff.mp h with ⟨c, hc, hm⟩ | ⟨c, hc, hrest⟩
    · obtain ⟨s₁, hs₁, hc₁⟩ := hx.takes s c hc
      obtain ⟨s₂, hs₂⟩ := hf.short s₁ rest (hc₁ ▸ hm) hne
      exact ⟨s₂, (run_bind_of_ok hs₁).trans hs₂⟩
    · by_cases hnil : c = []
      · subst hnil
        rw [List.append_nil] at hc
        rw [List.nil_append] at hrest
        obtain ⟨s₁, hs₁, hc₁⟩ := hx.takes s [] (by rw [hc, List.append_nil])
        obtain ⟨s₂, hs₂⟩ := hf.short s₁ rest (by rw [hc₁, hrest, List.nil_append]) hne
        exact ⟨s₂, (run_bind_of_ok hs₁).trans hs₂⟩
      · obtain ⟨s₁, hs₁⟩ := hx.short s c hc hnil
        exact ⟨s₁, by rw [EStateM.run_bind, hs₁]⟩

/-- A last step that only computes reads nothing. -/
theorem Reads.map {x : EStateM ε σ α} {f : α → EStateM ε σ β} {l : List γ} {a : α} {b : β}
    (hx : Reads content e x l a) (hf : f a = pure b) : Reads content e (x >>= f) l b := by
  have hpure : Reads content e (f a) [] b := hf ▸ reads_pure b
  simpa only [List.append_nil] using hx.bind hpure

/-- A test that is passed reads nothing. -/
theorem Reads.guard {x : EStateM ε σ PUnit} {f : PUnit → EStateM ε σ β} {m : List γ} {b : β}
    (hx : x = pure ⟨⟩) (hf : Reads content e (f ⟨⟩) m b) : Reads content e (x >>= f) m b := by
  have hpure : Reads content e x [] ⟨⟩ := hx ▸ reads_pure _
  simpa only [List.nil_append] using hpure.bind hf

theorem reads_times {x : EStateM ε σ α} {write : β → List γ} {value : β → α} :
    ∀ l : List β, (∀ b ∈ l, Reads content e x (write b) (value b)) →
      Reads content e (times l.length x) (l.flatMap write) (l.map value)
  | [], _ => reads_pure []
  | b :: l, h => by
    have htail : Reads content e (times l.length x) (l.flatMap write) (l.map value) :=
      reads_times l (fun c hc => h c (List.mem_cons_of_mem b hc))
    rw [List.flatMap_cons]
    exact (h b List.mem_cons_self).bind (htail.map rfl)

/-! ## Streams with the same content -/

/-- The method sees the content only. -/
def ByContent (content : σ → List γ) (x : EStateM ε σ α) : Prop :=
  ∀ s t, content s = content t → outcome (x.run s) = outcome (x.run t) ∧
    ∀ a s' t', x.run s = .ok a s' → x.run t = .ok a t' → content s' = content t'

theorem byContent_pure (a : α) : ByContent content (pure a : EStateM ε σ α) := by
  refine fun s t h => ⟨rfl, ?_⟩
  rintro _ _ _ ⟨⟩ ⟨⟩
  exact h

theorem byContent_throw (e : ε) : ByContent content (throw e : EStateM ε σ α) :=
  fun _ _ _ => ⟨rfl, nofun⟩

theorem ByContent.bind {x : EStateM ε σ α} {f : α → EStateM ε σ β}
    (hx : ByContent content x) (hf : ∀ a, ByContent content (f a)) :
    ByContent content (x >>= f) := by
  intro s t h
  obtain ⟨hout, hcontent⟩ := hx s t h
  cases hs : x.run s with
  | ok a s₁ =>
    rw [hs, outcome_ok] at hout
    have ht : x.run t = .ok a (final (x.run t)) := run_of_outcome hout.symm
    rw [run_bind_of_ok hs, run_bind_of_ok ht]
    exact hf a s₁ _ (hcontent a s₁ _ hs ht)
  | error e s₁ =>
    cases ht : x.run t with
    | ok a t₁ => rw [hs, ht] at hout; cases hout
    | error e' t₁ =>
      rw [hs, ht] at hout
      simp only [EStateM.run_bind, hs, ht]
      exact ⟨congrArg Except.error (Except.error.inj hout), nofun⟩

theorem byContent_times {x : EStateM ε σ α} (hx : ByContent content x) :
    ∀ n, ByContent content (times n x)
  | 0 => byContent_pure []
  | n + 1 => hx.bind (fun _ => (byContent_times hx n).bind (fun _ => byContent_pure _))

/-! ## What a method returns -/

/-- Whatever the method returns satisfies `Q`. -/
def Yields (x : EStateM ε σ α) (Q : α → Prop) : Prop := ∀ s a s', x.run s = .ok a s' → Q a

theorem Yields.bind {x : EStateM ε σ α} {f : α → EStateM ε σ β} {Q : α → Prop} {R : β → Prop}
    (hx : Yields x Q) (hf : ∀ a, Q a → Yields (f a) R) : Yields (x >>= f) R := by
  intro s b s' h
  obtain ⟨a, s₁, hs₁, h⟩ := run_bind_eq_ok h
  exact hf a (hx s a s₁ hs₁) s₁ b s' h

/-- With at most `n` symbols left, the method does not fail with `e`, and at least `k` symbols are
gone when it returns. -/
def Within (content : σ → List γ) (e : ε) (n k : Nat) (x : EStateM ε σ α) : Prop :=
  ∀ s, (content s).length ≤ n → outcome (x.run s) ≠ .error e ∧
    ∀ a s', x.run s = .ok a s' → (content s').length + k ≤ (content s).length

variable {n k : Nat}

theorem within_pure (a : α) : Within content e n 0 (pure a) := by
  refine fun s _ => ⟨nofun, ?_⟩
  rintro _ _ ⟨⟩
  exact Nat.le_refl _

theorem within_throw {e' : ε} (h : e' ≠ e) : Within content e n k (throw e' : EStateM ε σ α) :=
  fun _ _ => ⟨fun heq => h (Except.error.inj heq), nofun⟩

theorem Within.mono {x : EStateM ε σ α} {n' k' : Nat} (h : Within content e n k x) (hn : n' ≤ n)
    (hk : k' ≤ k) : Within content e n' k' x := by
  intro s hs
  obtain ⟨hne, hless⟩ := h s (Nat.le_trans hs hn)
  refine ⟨hne, fun a s' hrun => ?_⟩
  have hle := hless a s' hrun
  omega

/-- What the first step takes is not there for the second one. -/
theorem Within.bind {x : EStateM ε σ α} {f : α → EStateM ε σ β} {k' : Nat}
    (hx : Within content e n k x) (hf : k ≤ n → ∀ a, Within content e (n - k) k' (f a)) :
    Within content e n (k + k') (x >>= f) := by
  intro s hs
  obtain ⟨hne, hless⟩ := hx s hs
  cases h : x.run s with
  | error e' s₁ =>
    rw [h] at hne
    simp only [EStateM.run_bind, h]
    exact ⟨fun heq => hne (congrArg Except.error (Except.error.inj heq)), nofun⟩
  | ok a s₁ =>
    have hle := hless a s₁ h
    obtain ⟨hne', hless'⟩ := hf (by omega) a s₁ (by omega)
    rw [run_bind_of_ok h]
    refine ⟨hne', fun b s' hrun => ?_⟩
    have hle' := hless' b s' hrun
    omega

theorem Within.seq {x : EStateM ε σ α} {f : α → EStateM ε σ β} (hx : Within content e n 0 x)
    (hf : ∀ a, Within content e n k (f a)) : Within content e n k (x >>= f) := by
  simpa only [Nat.zero_add] using hx.bind (fun _ => hf)

theorem within_times {x : EStateM ε σ α} (hx : Within content e n 0 x) :
    ∀ m, Within content e n 0 (times m x)
  | 0 => within_pure []
  | m + 1 => hx.seq (fun _ => (within_times hx m).seq (fun _ => within_pure _))

/-! ## Numbers of a fixed width -/

/-- The lowest `n` bytes of a number, the lowest one first. -/
def lowBytes : Nat → Nat → List UInt8
  | 0, _ => []
  | n + 1, v => UInt8.ofNat v :: lowBytes n (v / 256)

/-- The number with these bytes, the lowest one first. -/
def ofLowBytes : List UInt8 → Nat
  | [] => 0
  | b :: l => b.toNat + 256 * ofLowBytes l

@[simp] theorem length_lowBytes : ∀ n v, (lowBytes n v).length = n
  | 0, _ => rfl
  | n + 1, v => by rw [lowBytes, List.length_cons, length_lowBytes n]

theorem ofLowBytes_lowBytes : ∀ n v, v < 256 ^ n → ofLowBytes (lowBytes n v) = v
  | 0, v, h => by
    rw [Nat.pow_zero] at h
    rw [lowBytes, ofLowBytes]
    omega
  | n + 1, v, h => by
    have hrest : v / 256 < 256 ^ n := Nat.div_lt_of_lt_mul (by rwa [Nat.pow_succ'] at h)
    have hlow : (UInt8.ofNat v).toNat = v % 256 := UInt8.toNat_ofNat'
    rw [lowBytes, ofLowBytes, ofLowBytes_lowBytes n _ hrest, hlow]
    omega

theorem ofLowBytes_lowBytes_mod : ∀ n v, ofLowBytes (lowBytes n v) = v % 256 ^ n
  | 0, v => by
    rw [lowBytes, ofLowBytes, Nat.pow_zero, Nat.mod_one]
  | n + 1, v => by
    have hlow : (UInt8.ofNat v).toNat = v % 256 := UInt8.toNat_ofNat'
    rw [lowBytes, ofLowBytes, ofLowBytes_lowBytes_mod n, hlow, Nat.pow_succ', Nat.mod_mul]

theorem ofLowBytes_lt : ∀ l : List UInt8, ofLowBytes l < 256 ^ l.length
  | [] => Nat.one_pos
  | b :: l => by
    have hrest := ofLowBytes_lt l
    have hb := b.toNat_lt
    rw [ofLowBytes, List.length_cons, Nat.pow_succ']
    omega

theorem lowBytes_ofLowBytes : ∀ l : List UInt8, lowBytes l.length (ofLowBytes l) = l
  | [] => rfl
  | b :: l => by
    have hb := b.toNat_lt
    have hlow : UInt8.ofNat (b.toNat + 256 * ofLowBytes l) = b := by
      apply UInt8.toNat_inj.mp
      rw [UInt8.toNat_ofNat']
      omega
    have hrest : (b.toNat + 256 * ofLowBytes l) / 256 = ofLowBytes l := by omega
    rw [List.length_cons, ofLowBytes, lowBytes, hlow, hrest, lowBytes_ofLowBytes l]

theorem lowBytes_mod (n v : Nat) : lowBytes n (v % 256 ^ n) = lowBytes n v := by
  have hbytes := lowBytes_ofLowBytes (lowBytes n v)
  rwa [length_lowBytes, ofLowBytes_lowBytes_mod] at hbytes

/-- A list cut into `n` pieces of `k` elements. -/
def pieces (k : Nat) : Nat → List γ → List (List γ)
  | 0, _ => []
  | n + 1, l => l.take k :: pieces k n (l.drop k)

theorem pieces_flatMap {k : Nat} {f : α → List γ} :
    ∀ l : List α, (∀ a ∈ l, (f a).length = k) → pieces k l.length (l.flatMap f) = l.map f
  | [], _ => rfl
  | a :: l, h => by
    have ha : (f a).length = k := h a List.mem_cons_self
    have hl := pieces_flatMap l (fun b hb => h b (List.mem_cons_of_mem a hb))
    rw [List.length_cons, List.flatMap_cons, pieces, List.take_left' ha, List.drop_left' ha, hl,
      List.map_cons]

end LuaAddons.Reading
