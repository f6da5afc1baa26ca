import LuaAddons.Tables

/-!
# The layout of a table

`WellFormed` is the invariant of the hash part: from the main position of every key a chain leads
to the one node that holds it, and the node at a main position that is in use is in its own main
position (or its key is dead). It holds of a new vector of nodes and is kept by each of the three
ways in which `luaH_newkey` fills a node, so by every step of a table (`wellFormed_of_reachable`).

The resizing in between needs nothing but this: each nested call starts from a well-formed table,
whatever sizes were computed.
-/

namespace LuaAddons

open Chains

variable {K V : Type} {M : KeyType K}

namespace Table

variable {t t' : Table K V} {i j n : Nat} {k : K} {slot : Slot}

@[simp] theorem setNode_node (t : Table K V) (i : Nat) (x : Node K V) (j : Nat) :
    (t.setNode i x).node j = if j = i then x else t.node j := Function.update_apply ..

theorem links_setNode (t : Table K V) (i : Nat) (x : Node K V) :
    (t.setNode i x).links = Function.update t.links i x.next := by
  funext j
  rw [Function.update_apply, links, setNode_node]
  split <;> rfl

theorem mainposition_lt (t : Table K V) (k : K) : t.mainposition M k < t.sizenode := by
  have hpos : 0 < t.sizenode := Nat.two_pow_pos _
  rw [mainposition]
  split
  · exact Nat.mod_lt _ hpos
  · have hodd : 0 < (t.sizenode - 1) ||| 1 := Nat.lt_of_lt_of_le Nat.one_pos Nat.right_le_or
    have hle : (t.sizenode - 1) ||| 1 ≤ t.sizenode := by
      rw [sizenode]
      cases t.lsizenode with
      | zero => decide
      | succ l =>
        have hpow := Nat.two_pow_pos (l + 1)
        have hlt : (2 ^ (l + 1) - 1) ||| 1 < 2 ^ (l + 1) :=
          Nat.or_lt_two_pow (by omega) (Nat.one_lt_two_pow (by omega))
        exact hlt.le
    exact (Nat.mod_lt _ hodd).trans_le hle

/-! ## The invariant -/

variable (M) in
/-- The node `p` is in its own main position, or its key is dead. -/
def InMain (t : Table K V) (p : Nat) : Prop :=
  (∃ k, (t.node p).key = .key k ∧ t.mainposition M k = p) ∨ ∃ k, (t.node p).key = .dead k

variable (M) in
structure WellFormed (t : Table K V) : Prop where
  sizearray_le : t.sizearray ≤ maxInt
  lsizenode_le : t.lsizenode ≤ maxBits
  lastfree_le : t.lastfree ≤ t.sizenode
  dummy : t.isdummy = true → t.lastfree = 0
  bound : ∀ i, (t.node i).key ≠ .nil → i < t.sizenode
  live : ∀ i, (t.node i).val.isSome → ∃ k, (t.node i).key = .key k
  used : ∀ i j, t.links i = some j → (t.node j).key ≠ .nil
  apart : Apart t.links
  ends : Ends t.links
  reach : ∀ i k, (t.node i).key = .key k → Reaches t.links (t.mainposition M k) i
  main : ∀ i k, (t.node i).key = .key k → t.InMain M (t.mainposition M k)
  distinct : ∀ i j k, (t.node i).key = .key k → (t.node j).key = .key k → i = j
  outside : ∀ i k, (t.node i).key = .key k → ¬ t.inArray M k

/-- A table with a new vector of nodes. -/
theorem wellFormed_fresh (hnode : t.node = fun _ => .free) (hsize : t.sizearray ≤ maxInt)
    (hlsize : t.lsizenode ≤ maxBits) (hlast : t.lastfree ≤ t.sizenode)
    (hdummy : t.isdummy = true → t.lastfree = 0) : t.WellFormed M := by
  have hkey (i : Nat) : (t.node i).key = .nil := by rw [hnode]; rfl
  have hlinks (i : Nat) : t.links i = none := by rw [links, hnode]; rfl
  have hnokey (i : Nat) (k : K) : (t.node i).key ≠ .key k := by
    rw [hkey]
    exact fun h => by cases h
  exact
    { sizearray_le := hsize
      lsizenode_le := hlsize
      lastfree_le := hlast
      dummy := hdummy
      bound := fun i hi => absurd (hkey i) hi
      live := fun i hi => by rw [hnode] at hi; cases hi
      used := fun i j hij => by rw [hlinks] at hij; cases hij
      apart := fun i j k hi => by rw [hlinks] at hi; cases hi
      ends := fun i => ⟨i, .refl, hlinks i⟩
      reach := fun i k hi => absurd hi (hnokey i k)
      main := fun i k hi => absurd hi (hnokey i k)
      distinct := fun i j k hi => absurd hi (hnokey i k)
      outside := fun i k hi => absurd hi (hnokey i k) }

namespace WellFormed

variable (h : t.WellFormed M)

include h

/-- A free node has no predecessor. -/
theorem noPredecessor (hn : (t.node n).key = .nil) : NoPredecessor t.links n :=
  fun i hi => h.used i n hi hn

/-- No key has a free node as its main position. -/
theorem mainposition_ne (hi : (t.node i).key = .key k) (hn : (t.node n).key = .nil) :
    t.mainposition M k ≠ n := by
  rintro rfl
  rcases h.main i k hi with ⟨k', hk', _⟩ | ⟨k', hk'⟩ <;> rw [hn] at hk' <;> cases hk'

/-- The chain of a key goes through no free node. -/
theorem key_ne_nil (hi : (t.node i).key = .key k)
    (hreach : Reaches t.links (t.mainposition M k) j) : (t.node j).key ≠ .nil := by
  cases hreach with
  | refl => exact fun hnil => h.mainposition_ne hi hnil rfl
  | tail _ hstep => exact h.used _ j hstep

/-- A chain from a main position stays in the vector. -/
theorem lt_sizenode (hreach : Reaches t.links (t.mainposition M k) j) : j < t.sizenode := by
  cases hreach with
  | refl => exact mainposition_lt t k
  | tail _ hstep => exact h.bound j (h.used _ j hstep)

/-- What is in the chain of a key is found in as many steps as there are nodes. -/
theorem find_isSome {q : Nat → Bool} (hreach : Reaches t.links (t.mainposition M k) j)
    (hj : q j = true) : (find t.links q t.sizenode (t.mainposition M k)).isSome := by
  apply Chains.find_isSome (s := Finset.range t.sizenode) _ hreach hj
  · rw [Finset.card_range]
  · intro i hi
    exact Finset.mem_range.mpr (h.lt_sizenode hi)

/-- Every key is found. -/
theorem findNode_eq_some [DecidableEq K] (hi : (t.node i).key = .key k) :
    t.findNode M k = some i := by
  obtain ⟨j, hj⟩ := Option.isSome_iff_exists.mp
    (h.find_isSome (q := fun i => (t.node i).key = .key k) (h.reach i k hi)
      (decide_eq_true hi))
  have hkey := of_decide_eq_true (find_eq_some hj).1
  rw [findNode, hj, h.distinct j i k hkey hi]

theorem get_eq_none [DecidableEq K] (hget : t.get M k = none) :
    ¬ t.inArray M k ∧ ∀ i, (t.node i).key ≠ .key k := by
  rw [get] at hget
  split at hget
  · cases hget
  · refine ⟨‹_›, fun i hi => ?_⟩
    rw [h.findNode_eq_some hi] at hget
    cases hget

/-- A table with the same keys in the same chains. -/
theorem of_keys (hsize : t'.sizearray = t.sizearray) (hlsize : t'.lsizenode = t.lsizenode)
    (hlast : t'.lastfree ≤ t.lastfree) (hdummy : t'.isdummy = t.isdummy)
    (hkey : ∀ i, (t'.node i).key = (t.node i).key)
    (hlinks : t'.links = t.links)
    (hlive : ∀ i, (t'.node i).val.isSome → ∃ k, (t'.node i).key = .key k) : t'.WellFormed M := by
  have hsizenode : t'.sizenode = t.sizenode := by rw [sizenode, hlsize, sizenode]
  have hmain (k : K) : t'.mainposition M k = t.mainposition M k := by
    rw [mainposition, hsizenode, mainposition]
  have hinMain (p : Nat) (hp : t.InMain M p) : t'.InMain M p := by
    rcases hp with ⟨k, hk, hmp⟩ | ⟨k, hk⟩
    · exact .inl ⟨k, (hkey p).trans hk, (hmain k).trans hmp⟩
    · exact .inr ⟨k, (hkey p).trans hk⟩
  constructor
  · exact hsize ▸ h.sizearray_le
  · exact hlsize ▸ h.lsizenode_le
  · exact hsizenode ▸ hlast.trans h.lastfree_le
  · intro hd
    have hzero := h.dummy (hdummy ▸ hd)
    omega
  · intro i hi
    rw [hkey] at hi
    exact hsizenode ▸ h.bound i hi
  · exact hlive
  · intro i j hij
    rw [hkey]
    exact h.used i j (hlinks ▸ hij)
  · exact hlinks ▸ h.apart
  · exact hlinks ▸ h.ends
  · intro i k hi
    rw [hkey] at hi
    rw [hlinks, hmain]
    exact h.reach i k hi
  · intro i k hi
    rw [hkey] at hi
    rw [hmain]
    exact hinMain _ (h.main i k hi)
  · intro i j k hi hj
    rw [hkey] at hi hj
    exact h.distinct i j k hi hj
  · intro i k hi
    rw [hkey] at hi
    rw [inArray, hsize]
    exact h.outside i k hi

end WellFormed

/-! ## The three ways to fill a node -/

/-- The key is stored nowhere. -/
structure Absent (M : KeyType K) (t : Table K V) (k : K) : Prop where
  notInArray : ¬ t.inArray M k
  key_ne : ∀ i, (t.node i).key ≠ .key k

/-- What filling a node for the key `k` does: `p` is the node of `k` afterwards, and the node
`i` of any other key is `σ i` afterwards. -/
structure Fills (M : KeyType K) (t t' : Table K V) (k : K) (p : Nat) (σ : Nat → Nat) : Prop where
  sizearray : t'.sizearray = t.sizearray
  lsizenode : t'.lsizenode = t.lsizenode
  lastfree : t'.lastfree ≤ t.lastfree
  isdummy : t'.isdummy = t.isdummy
  new : (t'.node p).key = .key k
  keys : ∀ i k', (t'.node i).key = .key k' →
    (i = p ∧ k' = k) ∨ ∃ j, (t.node j).key = .key k' ∧ i = σ j
  bound : ∀ i, (t'.node i).key ≠ .nil → i < t.sizenode
  live : ∀ i, (t'.node i).val.isSome → ∃ k, (t'.node i).key = .key k
  used : ∀ i j, t'.links i = some j → (t'.node j).key ≠ .nil
  apart : Apart t'.links
  ends : Ends t'.links
  reachNew : Reaches t'.links (t.mainposition M k) p
  reachOld : ∀ j k', (t.node j).key = .key k' → Reaches t'.links (t.mainposition M k') (σ j)
  mainNew : t'.InMain M (t.mainposition M k)
  mainOld : ∀ j k', (t.node j).key = .key k' → t'.InMain M (t.mainposition M k')

theorem Fills.mainposition_eq {p : Nat} {σ : Nat → Nat} (hfills : Fills M t t' k p σ) (k' : K) :
    t'.mainposition M k' = t.mainposition M k' := by
  rw [mainposition, sizenode, hfills.lsizenode, mainposition, sizenode]

theorem Fills.wellFormed {p : Nat} {σ : Nat → Nat} (hfills : Fills M t t' k p σ)
    (h : t.WellFormed M) (habsent : t.Absent M k) : t'.WellFormed M := by
  have hsizenode : t'.sizenode = t.sizenode := by rw [sizenode, hfills.lsizenode, sizenode]
  constructor
  · exact hfills.sizearray ▸ h.sizearray_le
  · exact hfills.lsizenode ▸ h.lsizenode_le
  · exact hsizenode ▸ hfills.lastfree.trans h.lastfree_le
  · intro hd
    have hle := hfills.lastfree
    have hzero := h.dummy (hfills.isdummy ▸ hd)
    omega
  · exact hsizenode ▸ hfills.bound
  · exact hfills.live
  · exact hfills.used
  · exact hfills.apart
  · exact hfills.ends
  · intro i k' hi
    rw [hfills.mainposition_eq]
    rcases hfills.keys i k' hi with ⟨rfl, rfl⟩ | ⟨j, hj, rfl⟩
    · exact hfills.reachNew
    · exact hfills.reachOld j k' hj
  · intro i k' hi
    rw [hfills.mainposition_eq]
    rcases hfills.keys i k' hi with ⟨rfl, rfl⟩ | ⟨j, hj, rfl⟩
    · exact hfills.mainNew
    · exact hfills.mainOld j k' hj
  · intro i i' k' hi hi'
    rcases hfills.keys i k' hi with ⟨hip, hk⟩ | ⟨j, hj, hij⟩ <;>
      rcases hfills.keys i' k' hi' with ⟨hip', hk'⟩ | ⟨j', hj', hij'⟩
    · exact hip.trans hip'.symm
    · exact absurd (hk ▸ hj') (habsent.key_ne j')
    · exact absurd (hk' ▸ hj) (habsent.key_ne j)
    · rw [hij, hij', h.distinct j j' k' hj hj']
  · intro i k' hi
    rw [inArray, hfills.sizearray]
    rcases hfills.keys i k' hi with ⟨_, rfl⟩ | ⟨j, hj, _⟩
    · exact habsent.notInArray
    · exact h.outside j k' hj

section Fill

variable (h : t.WellFormed M)

include h

/-- A main position without a value is taken over, in whatever chain it is. -/
theorem fills_main (hval : (t.node (t.mainposition M k)).val = none) :
    Fills M t (t.setNode (t.mainposition M k)
      { t.node (t.mainposition M k) with key := .key k }) k (t.mainposition M k) id := by
  have hlt := mainposition_lt (M := M) t k
  generalize hmp : t.mainposition M k = mp at hval hlt
  have hlinks : (t.setNode mp { t.node mp with key := .key k }).links = t.links := by
    rw [links_setNode]
    exact Function.update_eq_self ..
  have hmain : (t.setNode mp { t.node mp with key := .key k }).InMain M mp := by
    refine .inl ⟨k, ?_, hmp⟩
    rw [setNode_node, if_pos rfl]
  constructor
  · rfl
  · rfl
  · exact le_refl _
  · rfl
  · rw [setNode_node, if_pos rfl]
  · intro i k' hi
    rw [setNode_node] at hi
    split at hi
    · cases hi
      exact .inl ⟨‹_›, rfl⟩
    · exact .inr ⟨i, hi, rfl⟩
  · intro i hi
    by_cases him : i = mp
    · exact him ▸ hlt
    · rw [setNode_node, if_neg him] at hi
      exact h.bound i hi
  · intro i hi
    rw [setNode_node] at hi ⊢
    split at hi
    · rw [hval] at hi
      cases hi
    · rw [if_neg ‹_›]
      exact h.live i hi
  · intro i j hij
    rw [hlinks] at hij
    rw [setNode_node]
    split
    · exact fun hnil => by cases hnil
    · exact h.used i j hij
  · exact hlinks ▸ h.apart
  · exact hlinks ▸ h.ends
  · rw [hmp]
    exact .refl
  · intro j k' hj
    rw [hlinks]
    exact h.reach j k' hj
  · exact hmp ▸ hmain
  · intro j k' hj
    by_cases hm : t.mainposition M k' = mp
    · exact hm ▸ hmain
    · have hold := h.main j k' hj
      rw [InMain] at hold ⊢
      rw [setNode_node, if_neg hm]
      exact hold

section Collide

variable (hfree : (t.node n).key = .nil) (hn : n < t.sizenode)

include hfree hn

/-- The node at the main position is in its own: the new key goes to the free node behind it. -/
theorem fills_free (hmain : t.InMain M (t.mainposition M k)) :
    let t₁ := t.setNode n
      { t.node n with key := .key k, next := (t.node (t.mainposition M k)).next }
    Fills M t (t₁.setNode (t.mainposition M k)
      { t₁.node (t.mainposition M k) with next := some n }) k n id := by
  have hlt := mainposition_lt (M := M) t k
  have hne : n ≠ t.mainposition M k := by
    intro heq
    rw [← heq] at hmain
    rcases hmain with ⟨k', hk', _⟩ | ⟨k', hk'⟩ <;> rw [hfree] at hk' <;> cases hk'
  generalize hmp : t.mainposition M k = mp at hlt hne hmain
  intro t₁
  have hmp₁ : t₁.node mp = t.node mp := by rw [setNode_node, if_neg hne.symm]
  have hnopred := h.noPredecessor hfree
  have hval : (t.node n).val = none := by
    cases hval : (t.node n).val with
    | none => rfl
    | some v =>
      obtain ⟨k', hk'⟩ := h.live n (by rw [hval]; rfl)
      rw [hfree] at hk'
      cases hk'
  have hlinks : (t₁.setNode mp { t₁.node mp with next := some n }).links =
      insertAfter t.links mp n := by
    rw [links_setNode, links_setNode]
    rfl
  have hkey (i : Nat) : ((t₁.setNode mp { t₁.node mp with next := some n }).node i).key =
      if i = n then .key k else (t.node i).key := by
    rw [setNode_node]
    by_cases him : i = mp
    · rw [if_pos him, if_neg (him ▸ hne.symm), hmp₁, him]
    · rw [if_neg him, setNode_node]
      split <;> rfl
  have hinMain (q : Nat) (hq : t.InMain M q) :
      (t₁.setNode mp { t₁.node mp with next := some n }).InMain M q := by
    have hqn : q ≠ n := by
      rintro rfl
      rcases hq with ⟨k', hk', _⟩ | ⟨k', hk'⟩ <;> rw [hfree] at hk' <;> cases hk'
    rw [InMain, hkey, if_neg hqn]
    exact hq
  constructor
  · rfl
  · rfl
  · exact le_refl _
  · rfl
  · rw [hkey, if_pos rfl]
  · intro i k' hi
    rw [hkey] at hi
    split at hi
    · cases hi
      exact .inl ⟨‹_›, rfl⟩
    · exact .inr ⟨i, hi, rfl⟩
  · intro i hi
    rw [hkey] at hi
    split at hi
    · rwa [‹i = n›]
    · exact h.bound i hi
  · intro i hi
    rw [hkey]
    split
    · exact ⟨k, rfl⟩
    · apply h.live i
      rw [setNode_node] at hi
      split at hi
      · rw [hmp₁] at hi
        rwa [‹i = mp›]
      · rwa [setNode_node, if_neg ‹_›] at hi
  · intro i j hij
    rw [hlinks] at hij
    rw [hkey]
    split
    · exact fun hnil => by cases hnil
    · rcases insertAfter_eq_some hij with ⟨_, hjn⟩ | ⟨_, hstep⟩ | ⟨_, _, hstep⟩
      · exact absurd hjn ‹_›
      · exact h.used mp j hstep
      · exact h.used i j hstep
  · exact hlinks ▸ apart_insertAfter hnopred h.apart
  · exact hlinks ▸ ends_insertAfter hnopred hne h.ends
  · rw [hlinks, hmp]
    exact Reaches.insertAfter_new hnopred hne .refl hne.symm
  · intro j k' hj
    rw [hlinks]
    exact Reaches.insertAfter hnopred hne (h.reach j k' hj) (h.mainposition_ne hj hfree)
  · rw [hmp]
    exact hinMain mp hmain
  · intro j k' hj
    exact hinMain _ (h.main j k' hj)

/-- The node at the main position is out of its own: it moves to the free node, and the new key
takes its place. -/
theorem fills_moved {k₀ : K} {previous : Nat}
    (hcolliding : (t.node (t.mainposition M k)).key = .key k₀)
    (hout : t.mainposition M k₀ ≠ t.mainposition M k)
    (hprevious : t.links previous = some (t.mainposition M k))
    (hreach : Reaches t.links (t.mainposition M k₀) previous) :
    let t₁ := t.setNode previous { t.node previous with next := some n }
    let t₂ := t₁.setNode n (t₁.node (t.mainposition M k))
    Fills M t (t₂.setNode (t.mainposition M k) { key := .key k, val := none, next := none }) k
      (t.mainposition M k) (fun j => if j = t.mainposition M k then n else j) := by
  have hlt := mainposition_lt (M := M) t k
  have hstays (j : Nat) (k' : K) (hj : (t.node j).key = .key k') :
      t.mainposition M k' ≠ t.mainposition M k := by
    intro heq
    have hmain := h.main j k' hj
    rw [heq] at hmain
    rcases hmain with ⟨k'', hk'', hmp⟩ | ⟨k'', hk''⟩
    · rw [hcolliding] at hk''
      cases hk''
      exact hout hmp
    · rw [hcolliding] at hk''
      cases hk''
  have hne : n ≠ t.mainposition M k := by
    intro heq
    rw [← heq, hfree] at hcolliding
    cases hcolliding
  have hreplaceable : Replaceable t.links previous (t.mainposition M k) n :=
    { predecessor := hprevious
      apart := h.apart
      noPredecessor := h.noPredecessor hfree
      ne_old := hne
      ne_predecessor := by
        rintro rfl
        exact h.key_ne_nil hcolliding hreach hfree
      not_loop := by
        rintro heq
        rw [heq] at hprevious
        exact h.ends.next_ne_self _ hprevious }
  generalize hmp : t.mainposition M k = mp at *
  intro t₁ t₂
  have hmp₁ : t₁.node mp = t.node mp := by
    rw [setNode_node, if_neg hreplaceable.not_loop.symm]
  have hlinks : (t₂.setNode mp { key := .key k, val := none, next := none }).links =
      replace t.links previous mp n := by
    rw [links_setNode, links_setNode, links_setNode, hmp₁]
    rfl
  have hkey (i : Nat) :
      ((t₂.setNode mp { key := .key k, val := none, next := none }).node i).key =
        if i = mp then .key k else if i = n then .key k₀ else (t.node i).key := by
    rw [setNode_node]
    split
    · rfl
    · rw [setNode_node]
      split
      · rw [hmp₁, hcolliding]
      · rw [setNode_node]
        split
        · rw [‹i = previous›]
        · rfl
  constructor
  · rfl
  · rfl
  · exact le_refl _
  · rfl
  · rw [hkey, if_pos rfl]
  · intro i k' hi
    rw [hkey] at hi
    split at hi
    · cases hi
      exact .inl ⟨‹_›, rfl⟩
    · split at hi
      · cases hi
        exact .inr ⟨mp, hcolliding, by rw [if_pos rfl]; assumption⟩
      · exact .inr ⟨i, hi, by rw [if_neg ‹_›]⟩
  · intro i hi
    rw [hkey] at hi
    split at hi
    · rwa [‹i = mp›]
    · split at hi
      · rwa [‹i = n›]
      · exact h.bound i hi
  · intro i hi
    rw [hkey]
    split
    · exact ⟨k, rfl⟩
    · split
      · exact ⟨k₀, rfl⟩
      · apply h.live i
        rw [setNode_node, if_neg ‹_›, setNode_node, if_neg ‹_›, setNode_node] at hi
        split at hi
        · rwa [‹i = previous›]
        · exact hi
  · intro i j hij
    rw [hlinks] at hij
    rw [hkey]
    split
    · exact fun hnil => by cases hnil
    · split
      · exact fun hnil => by cases hnil
      · rcases replace_eq_some hreplaceable hij with ⟨_, hjn⟩ | ⟨_, hstep⟩ | ⟨_, _, hstep⟩
        · exact absurd hjn ‹_›
        · exact h.used mp j hstep
        · exact h.used i j hstep
  · exact hlinks ▸ apart_replace hreplaceable
  · exact hlinks ▸ ends_replace hreplaceable h.ends
  · rw [hmp]
    exact .refl
  · intro j k' hj
    rw [hlinks]
    exact Reaches.replace hreplaceable (h.reach j k' hj) (hstays j k' hj)
      (h.mainposition_ne hj hfree)
  · refine .inl ⟨k, ?_, rfl⟩
    rw [hkey, hmp, if_pos rfl]
  · intro j k' hj
    have hold := h.main j k' hj
    rw [InMain, hkey, if_neg (hstays j k' hj), if_neg (h.mainposition_ne hj hfree)]
    exact hold

end Collide

end Fill

/-! ## The operations -/

/-- A slot of the array, or a node with a key. -/
def Holds (t : Table K V) : Slot → Prop
  | .array _ => True
  | .node i => ∃ k, (t.node i).key = .key k

theorem wellFormed_assign (h : t.WellFormed M) {v : Option V} (hslot : v.isSome → t.Holds slot) :
    (t.assign slot v).WellFormed M := by
  cases slot with
  | array i => exact h.of_keys rfl rfl (le_refl _) rfl (fun _ => rfl) rfl h.live
  | node i =>
    have hkey (j : Nat) : ((t.assign (.node i) v).node j).key = (t.node j).key := by
      rw [assign, setNode_node]
      split
      · rw [‹j = i›]
      · rfl
    refine h.of_keys rfl rfl (le_refl _) rfl hkey ?_ fun j hj => ?_
    · rw [assign, links_setNode]
      exact Function.update_eq_self ..
    · rw [hkey]
      rw [assign, setNode_node] at hj
      split at hj
      · rw [‹j = i›]
        exact hslot hj
      · exact h.live j hj

/-- The collector marks only keys of nodes without value. -/
theorem wellFormed_removeentry (h : t.WellFormed M) (i : Nat) :
    (t.removeentry M i).WellFormed M := by
  rw [removeentry]
  split
  · rename_i k hk hval
    split
    · have hlinks : (t.setNode i { t.node i with key := .dead k }).links = t.links := by
        rw [links_setNode]
        exact Function.update_eq_self ..
      have hkey (j : Nat) (k' : K)
          (hj : ((t.setNode i { t.node i with key := .dead k }).node j).key = .key k') :
          j ≠ i ∧ (t.node j).key = .key k' := by
        rw [setNode_node] at hj
        split at hj
        · cases hj
        · exact ⟨‹_›, hj⟩
      constructor
      · exact h.sizearray_le
      · exact h.lsizenode_le
      · exact h.lastfree_le
      · exact h.dummy
      · intro j hj
        apply h.bound j
        rw [setNode_node] at hj
        split at hj
        · rw [‹j = i›, hk]
          exact fun hnil => by cases hnil
        · exact hj
      · intro j hj
        rw [setNode_node] at hj ⊢
        split at hj
        · rw [hval] at hj
          cases hj
        · rw [if_neg ‹_›]
          exact h.live j hj
      · intro j l hjl
        rw [setNode_node]
        split
        · exact fun hnil => by cases hnil
        · exact h.used j l (hlinks ▸ hjl)
      · exact hlinks ▸ h.apart
      · exact hlinks ▸ h.ends
      · intro j k' hj
        rw [hlinks]
        exact h.reach j k' (hkey j k' hj).2
      · intro j k' hj
        have hmain := h.main j k' (hkey j k' hj).2
        show InMain M _ (t.mainposition M k')
        by_cases heq : t.mainposition M k' = i
        · refine .inr ⟨k, ?_⟩
          rw [setNode_node, if_pos heq]
        · rw [InMain] at hmain ⊢
          rw [setNode_node, if_neg heq]
          exact hmain
      · intro j l k' hj hl
        exact h.distinct j l k' (hkey j k' hj).2 (hkey l k' hl).2
      · intro j k' hj
        exact h.outside j k' (hkey j k' hj).2
    · exact h
  · exact h

section Free

variable [DecidableEq K] {m : Nat}

theorem freeBelow_eq_some (hn : t.freeBelow m = some n) :
    n < m ∧ (t.node n).key = .nil := by
  induction m with
  | zero => cases hn
  | succ m ih =>
    rw [freeBelow] at hn
    split at hn
    · cases hn
      exact ⟨Nat.lt_succ_self _, ‹_›⟩
    · obtain ⟨hlt, hkey⟩ := ih hn
      exact ⟨by omega, hkey⟩

theorem wellFormed_getfreepos (h : t.WellFormed M) : t.getfreepos.2.WellFormed M := by
  refine h.of_keys rfl rfl ?_ rfl (fun _ => rfl) rfl h.live
  show (t.freeBelow t.lastfree).getD 0 ≤ t.lastfree
  cases hn : t.freeBelow t.lastfree with
  | none => exact Nat.zero_le _
  | some n => exact (freeBelow_eq_some hn).1.le

end Free

/-- `luaH_newkey` with a free position at hand. -/
theorem collide_spec {r : Table K V × Slot} (h : t.WellFormed M) (habsent : t.Absent M k)
    (hlive : (t.node (t.mainposition M k)).val.isSome) (hfree : (t.node n).key = .nil)
    (hn : n < t.sizenode) (hr : t.collide M k n = some r) :
    r.1.WellFormed M ∧ r.1.Holds r.2 := by
  obtain ⟨k₀, hk₀⟩ := h.live _ hlive
  rw [collide, hk₀] at hr
  simp only [NodeKey.key?] at hr
  split at hr
  · split at hr
    · cases hr
    · rename_i previous hprevious
      cases hr
      obtain ⟨hnext, hreach⟩ := find_eq_some hprevious
      have hfills := fills_moved h hfree hn hk₀ ‹_› (of_decide_eq_true hnext) hreach
      exact ⟨hfills.wellFormed h habsent, k, hfills.new⟩
  · cases hr
    have hmain : t.InMain M (t.mainposition M k) := .inl ⟨k₀, hk₀, not_not.mp ‹_›⟩
    have hfills := fills_free h hfree hn hmain
    exact ⟨hfills.wellFormed h habsent, k, hfills.new⟩

/-- What every nested call of `luaH_newkey` does. -/
def NewkeySpec (M : KeyType K) (newkey : Table K V → K → Option (Table K V × Slot)) : Prop :=
  ∀ (t : Table K V) (k : K) (r : Table K V × Slot), t.WellFormed M → t.Absent M k →
    newkey t k = some r → r.1.WellFormed M ∧ r.1.Holds r.2

theorem setnodevector_spec {size : Nat} (ht' : t.setnodevector size = some t') :
    t'.node = (fun _ => .free) ∧ t'.lsizenode ≤ maxBits ∧ t'.lastfree ≤ t'.sizenode ∧
      (t'.isdummy = true → t'.lastfree = 0) := by
  rw [setnodevector] at ht'
  split at ht'
  · cases ht'
    exact ⟨rfl, Nat.zero_le _, Nat.zero_le _, fun _ => rfl⟩
  · split at ht'
    · cases ht'
    · cases ht'
      exact ⟨rfl, not_lt.mp ‹_›, le_refl _, fun hd => by cases hd⟩

/-- A loop that may stop keeps what each of its steps keeps. -/
theorem foldlM_keeps {α β : Type} {P : α → Prop} {f : α → β → Option α}
    (hf : ∀ a b a', P a → f a b = some a' → P a') (l : List β) {a a' : α} (ha : P a)
    (h : l.foldlM f a = some a') : P a' := by
  induction l generalizing a with
  | nil =>
    cases h
    exact ha
  | cons b l ih =>
    rw [List.foldlM_cons] at h
    obtain ⟨a₁, ha₁, hrest⟩ := Option.bind_eq_some_iff.mp h
    exact ih (hf a b a₁ ha ha₁) hrest

section With

variable [DecidableEq K] {newkey : Table K V → K → Option (Table K V × Slot)}
  (hnewkey : NewkeySpec M newkey)

include hnewkey

theorem setWith_spec {r : Table K V × Slot} (h : t.WellFormed M)
    (hr : setWith M newkey t k = some r) : r.1.WellFormed M ∧ r.1.Holds r.2 := by
  rw [setWith] at hr
  split at hr
  · rename_i slot hslot
    cases hr
    refine ⟨h, ?_⟩
    rw [get] at hslot
    split at hslot
    · cases hslot
      trivial
    · obtain ⟨i, hi, rfl⟩ := Option.map_eq_some_iff.mp hslot
      exact ⟨k, of_decide_eq_true (find_eq_some hi).1⟩
  · rename_i hnone
    obtain ⟨hnot, hne⟩ := h.get_eq_none hnone
    exact hnewkey t k r h ⟨hnot, hne⟩ hr

theorem storeWith_spec {v : Option V} (h : t.WellFormed M)
    (ht' : storeWith M newkey t k v = some t') : t'.WellFormed M := by
  obtain ⟨r, hr, hassign⟩ := Option.bind_eq_some_iff.mp ht'
  cases hassign
  obtain ⟨hwell, hholds⟩ := setWith_spec hnewkey h hr
  exact wellFormed_assign hwell fun _ => hholds

theorem resizeWith_spec {nasize nhsize : Nat}
    (ht' : resizeWith M newkey t nasize nhsize = some t') : t'.WellFormed M := by
  rw [resizeWith] at ht'
  split at ht'
  · cases ht'
  obtain ⟨fresh, hfresh, hrest⟩ := Option.bind_eq_some_iff.mp ht'
  obtain ⟨shrunk, hshrunk, hnodes⟩ := Option.bind_eq_some_iff.mp hrest
  obtain ⟨hnode, hlsize, hlast, hdummy⟩ := setnodevector_spec hfresh
  have hstart : Table.WellFormed M { fresh with sizearray := nasize } :=
    wellFormed_fresh hnode (not_lt.mp ‹_›) hlsize hlast hdummy
  have hslice : shrunk.WellFormed M := by
    refine foldlM_keeps (fun u i u' hu hu' => ?_) _ hstart hshrunk
    split at hu'
    · cases hu'
      exact hu
    · exact storeWith_spec hnewkey hu hu'
  refine foldlM_keeps (fun u i u' hu hu' => ?_) _ hslice hnodes
  split at hu'
  · exact storeWith_spec hnewkey hu hu'
  · cases hu'
    exact hu

end With

section Newkey

variable [DecidableEq K]

theorem newkey_spec (fuel : Nat) : NewkeySpec M (newkey (V := V) M fuel) := by
  induction fuel with
  | zero =>
    intro t k r _ _ hr
    cases hr
  | succ fuel ih =>
    intro t k r h habsent hr
    rw [newkey] at hr
    split at hr
    · cases hr
    split at hr
    · rename_i htaken
      split at hr
      · obtain ⟨t'', ht'', hset⟩ := Option.bind_eq_some_iff.mp hr
        exact setWith_spec ih (resizeWith_spec ih ht'') hset
      · rename_i n t' hfreepos
        have hn : t.freeBelow t.lastfree = some n := congrArg Prod.fst hfreepos
        have ht' : t.getfreepos.2 = t' := congrArg Prod.snd hfreepos
        obtain ⟨hlt, hfree⟩ := freeBelow_eq_some hn
        have hlive : (t.node (t.mainposition M k)).val.isSome := by
          rcases htaken with hval | hdummy
          · exact hval
          · have hzero := h.dummy hdummy
            omega
        subst ht'
        exact collide_spec (wellFormed_getfreepos h) ⟨habsent.notInArray, habsent.key_ne⟩ hlive
          hfree (hlt.trans_le h.lastfree_le) hr
    · cases hr
      have hval := Option.not_isSome_iff_eq_none.mp (not_or.mp ‹_›).1
      have hfills := fills_main h hval
      exact ⟨hfills.wellFormed h habsent, k, hfills.new⟩

theorem Reachable.store (h : t.Reachable M) (fuel : Nat) (k : K) (v : Option V) :
    ((t.store M fuel k v).getD t).Reachable M := by
  cases hstore : t.store M fuel k v with
  | none => exact h
  | some t' => exact h.tail (.store fuel k v hstore)

theorem Reachable.resize (h : t.Reachable M) (fuel nasize nhsize : Nat) :
    ((t.resize M fuel nasize nhsize).getD t).Reachable M := by
  cases hresize : t.resize M fuel nasize nhsize with
  | none => exact h
  | some t' => exact h.tail (.resize fuel nasize nhsize hresize)

/-- **Every reachable table is well formed.** -/
theorem wellFormed_of_reachable (h : t.Reachable M) : t.WellFormed M := by
  induction h with
  | refl =>
    exact wellFormed_fresh rfl (Nat.zero_le _) (Nat.zero_le _) (Nat.zero_le _) fun _ => rfl
  | tail _ hstep ih =>
    cases hstep with
    | store fuel k v hstore => exact storeWith_spec (newkey_spec fuel) ih hstore
    | resize fuel nasize nhsize hresize => exact resizeWith_spec (newkey_spec fuel) hresize
    | removeentry i => exact wellFormed_removeentry ih i
    | clear slot => exact wellFormed_assign ih fun hsome => by cases hsome

end Newkey

end Table

end LuaAddons
