import LuaAddons.Chunks

/-!
# Chunks are loaded as they were dumped

`string.dump` and `load` are inverse to each other. However the reader cuts a chunk into pieces,
the prototype that was dumped comes back, without the debug information when it was stripped
(`undump_dump`), and what is behind the chunk is not read. A chunk that ends early is refused as
truncated (`run_fParser_truncated`), so what a writer left that failed is never taken for a function
(`undump_written`), and a chunk of another machine is refused as incompatible
(`undump_other_layout`).
-/

namespace LuaAddons.Chunk

open Exec Reading

/-! ## The content of a stream -/

/-- The bytes up to the end of the stream. -/
def Zio.content (z : Zio) : LuaString :=
  z.buffer ++ (z.pieces.takeWhile (fun piece => !piece.isEmpty)).flatten

namespace Zio

theorem fill_none {z z' : Zio} (hb : z.buffer = []) (h : z.fill = (none, z')) :
    z.content = [] := by
  obtain ⟨buffer, pieces⟩ := z
  obtain rfl := hb
  rcases pieces with _ | ⟨_ | ⟨c, piece⟩, pieces⟩
  · rfl
  · rfl
  · cases h

theorem fill_some {z z' : Zio} {c : UInt8} (hb : z.buffer = []) (h : z.fill = (some c, z')) :
    z.content = c :: z'.content := by
  obtain ⟨buffer, pieces⟩ := z
  obtain rfl := hb
  rcases pieces with _ | ⟨_ | ⟨d, piece⟩, pieces⟩
  · cases h
  · cases h
  · cases h
    rfl

theorem getc_eq (z : Zio) : z.getc.1 = z.content.head? ∧ (z.content ≠ [] →
    z.getc.2.content = z.content.tail) := by
  unfold getc
  split
  · rename_i c buffer hb
    simp [content, hb]
  · rename_i hb
    obtain ⟨o, z', h⟩ : ∃ o z', z.fill = (o, z') := ⟨_, _, rfl⟩
    rw [h]
    cases o with
    | none =>
      have hnil := fill_none hb h
      exact ⟨by rw [hnil]; rfl, fun hne => absurd hnil hne⟩
    | some c =>
      rw [fill_some hb h]
      exact ⟨rfl, fun _ => rfl⟩

theorem content_of_refill {z z' : Zio} {b : Bool} (h : z.refill = (b, z')) :
    if b then z'.content = z.content else z.content = [] := by
  unfold refill at h
  split at h
  · cases h
    rfl
  · rename_i hb
    split at h
    · rename_i z₁ hfill
      cases h
      exact fill_none hb hfill
    · rename_i c z₁ hfill
      cases h
      exact (fill_some hb hfill).symm

/-- A stream that nothing was read from. -/
theorem content_of_pieces : ∀ {pieces : List LuaString}, [] ∉ pieces →
    (Zio.mk [] pieces).content = pieces.flatten
  | [], _ => rfl
  | [] :: _, h => absurd List.mem_cons_self h
  | (c :: piece) :: pieces, h => by
    have hrest := content_of_pieces (fun hm => h (List.mem_cons_of_mem _ hm))
    rw [content, List.nil_append] at hrest ⊢
    rw [List.takeWhile_cons_of_pos rfl, List.flatten_cons, hrest, List.flatten_cons]

theorem content_drop (z : Zio) {m : Nat} (h : m ≤ z.buffer.length) :
    ({ z with buffer := z.buffer.drop m } : Zio).content = z.content.drop m := by
  rw [content, content, List.drop_append_of_le_length h]

/-- `luaZ_read` copies what is there, across the pieces. -/
theorem read_eq (n : Nat) (z : Zio) :
    (z.read n).1 = (z.content.take n, n - z.content.length) ∧
      (n ≤ z.content.length → (z.read n).2.content = z.content.drop n) := by
  fun_induction Zio.read n z with
  | case1 z => simp
  | case2 n z hn z' h =>
    have hnil : z.content = [] := content_of_refill h
    simp [hnil, hn]
  | case3 n z hn z' h m r ih =>
    have hcontent : z'.content = z.content := content_of_refill h
    have hm : m ≤ z'.buffer.length := Nat.min_le_right _ _
    have hmn : m + (n - m) = n := Nat.add_sub_of_le (Nat.min_le_left _ _)
    have hmc : m ≤ z.content.length := by
      rw [← hcontent, content, List.length_append]
      omega
    rw [content_drop z' hm, hcontent] at ih
    obtain ⟨hr, hdrop⟩ := ih
    have htake : z'.buffer.take m = z.content.take m := by
      rw [← hcontent, content, List.take_append_of_le_length hm]
    rw [List.length_drop] at hr hdrop
    constructor
    · have hsplit : z.content.take n = z.content.take m ++ (z.content.drop m).take (n - m) := by
        rw [← List.take_add, hmn]
      simp only [r, hr, htake, hsplit]
      congr 1
      omega
    · intro hle
      rw [hdrop (by omega), List.drop_drop, hmn]

end Zio

/-! ## The parts of a chunk -/

variable {S : LoadState} {L : Layout} {l : LuaString}

/-- The format is read from the front of the content, and the error says when it ends early. -/
abbrev Parses {α : Type} (S : LoadState) (x : Load α) (l : LuaString) (a : α) : Prop :=
  Reads Zio.content (S.error "truncated") x l a

theorem run_loadBlock (n : Nat) (z : Zio) : (loadBlock S n).run z =
    if n ≤ z.content.length then .ok (z.content.take n) (z.read n).2
    else .error (S.error "truncated") (z.read n).2 := by
  obtain ⟨hread, -⟩ := z.read_eq n
  unfold loadBlock EStateM.run
  rcases h : z.read n with ⟨⟨b, missing⟩, z'⟩
  rw [h] at hread
  obtain ⟨rfl, rfl⟩ := Prod.mk.inj hread
  by_cases hle : n ≤ z.content.length
  · rw [Nat.sub_eq_zero_of_le hle] at h
    simp only [h, if_pos hle]
  · obtain ⟨k, hk⟩ : ∃ k, n - z.content.length = k + 1 := ⟨n - z.content.length - 1, by omega⟩
    rw [hk] at h
    simp only [h, if_neg hle]

theorem parses_block {n : Nat} (h : l.length = n) : Parses S (loadBlock S n) l l where
  takes z rest hz := by
    have hle : n ≤ z.content.length := by
      rw [hz, List.length_append, h]
      exact Nat.le_add_right _ _
    refine ⟨(z.read n).2, ?_, ?_⟩
    · rw [run_loadBlock, if_pos hle, hz, List.take_left' h]
    · rw [(z.read_eq n).2 hle, hz, List.drop_left' h]
  short z rest hz hne := by
    have hlt : ¬ n ≤ z.content.length := by
      have hpos := List.length_pos_iff.mpr hne
      rw [← h, hz, List.length_append]
      omega
    exact ⟨(z.read n).2, by rw [run_loadBlock, if_neg hlt]⟩

/-! ## Integers and strings -/

theorem Layout.length_bytes (L : Layout) (n v : Nat) : (L.bytes n v).length = n := by
  unfold bytes
  split <;> simp

theorem Layout.number_bytes (L : Layout) {n v : Nat} (h : v < 256 ^ n) :
    L.number (L.bytes n v) = v := by
  unfold number bytes
  split <;> simp [ofLowBytes_lowBytes n v h]

theorem parses_loadChar (y : UInt8) : Parses S (loadChar S) [y] (y.toBitVec.signExtend 32) := by
  have hblock : Parses S (loadBlock S 1) [y] [y] := parses_block rfl
  exact hblock.map rfl

theorem setWidth_signExtend (x : BitVec 8) : (x.signExtend 32).setWidth 8 = x := by
  apply BitVec.eq_of_getLsbD_eq
  intro i hi
  have h32 : i < 32 := by omega
  rw [BitVec.getLsbD_setWidth, BitVec.getLsbD_signExtend]
  simp [hi, h32]

/-- An `int` that is a `char`. -/
def IsChar (y : BitVec 32) : Prop := (y.setWidth 8).signExtend 32 = y

theorem parses_char {y : BitVec 32} (h : IsChar y) : Parses S (loadChar S) (dumpChar y) y := by
  have hload : Parses S (loadChar S) (dumpChar y) ((y.setWidth 8).signExtend 32) :=
    parses_loadChar (UInt8.ofBitVec (y.setWidth 8))
  rwa [h] at hload

theorem parses_byte (y : UInt8) : Parses S (loadByte S) (dumpByte y) y := by
  have hdump : dumpByte y = [y] := by
    rw [dumpByte, dumpChar, BitVec.setWidth_setWidth_of_le _ (by decide), BitVec.setWidth_eq]
  rw [hdump]
  refine (parses_loadChar y).map ?_
  rw [setWidth_signExtend]

/-- Only numbers that are not negative are loaded again. -/
theorem parses_int {x : BitVec 32} (h : x.msb = false) :
    Parses S (loadInt S) (dumpInt S.layout x) x := by
  refine (parses_block (S.layout.length_bytes 4 _)).map ?_
  rw [S.layout.number_bytes (by have := x.isLt; omega), BitVec.ofNat_toNat, BitVec.setWidth_eq]
  simp [h]

theorem parses_number (x : BitVec 64) : Parses S (loadNumber S) (dumpNumber S.layout x) x := by
  refine (parses_block (S.layout.length_bytes 8 _)).map ?_
  rw [S.layout.number_bytes (by have := x.isLt; omega), BitVec.ofNat_toNat, BitVec.setWidth_eq]

/-- The string fits into memory. -/
structure Layout.FitsString (L : Layout) (s : LuaString) : Prop where
  buffer : s.length + 2 ≤ L.maxSizet
  object : 40 < s.length → s.length + 1 ≤ L.maxSizet - L.sizeofTString

instance (s : LuaString) : Decidable (L.FitsString s) :=
  decidable_of_iff (_ ∧ _) ⟨fun h => ⟨h.1, h.2⟩, fun h => ⟨h.buffer, h.object⟩⟩

theorem parses_string {s : Option LuaString} (h : ∀ t ∈ s, S.layout.FitsString t) :
    Parses S (loadString S) (dumpString S.layout s).flatten s := by
  have hpow : 0 < 256 ^ S.layout.sizeT := Nat.pow_pos (by decide)
  cases s with
  | none =>
    rw [dumpString, List.flatten_singleton]
    refine (parses_block (S.layout.length_bytes _ _)).map ?_
    rw [S.layout.number_bytes hpow]
    rfl
  | some t =>
    obtain ⟨hbuffer, hobject⟩ := h t rfl
    have hmax : S.layout.maxSizet = 256 ^ S.layout.sizeT - 3 := rfl
    have hopen : openspace S (t.length + 1) = pure () := by
      rw [openspace, Nat.mod_eq_of_lt (by omega), if_neg (by omega)]
    have hnew : newlstr S t = pure t := by
      rw [newlstr, if_neg]
      rintro ⟨hlong, hbig⟩
      have hfits := hobject hlong
      omega
    rw [dumpString, List.flatten_cons, List.flatten_singleton]
    refine (parses_block (S.layout.length_bytes _ _)).bind ?_
    rw [S.layout.number_bytes (by omega), if_neg (Nat.succ_ne_zero _)]
    refine Reads.guard hopen ?_
    refine (parses_block (by simp)).map ?_
    rw [Nat.add_sub_cancel, List.take_left, hnew]
    rfl

/-! ## Arrays -/

/-- An array with `n` elements of size `e` fits into memory. -/
def Layout.Fits (L : Layout) (n e : Nat) : Prop := n < 2 ^ 31 ∧ L.tooBig n e = false

instance (n e : Nat) : Decidable (L.Fits n e) := inferInstanceAs (Decidable (_ ∧ _))

theorem Layout.Fits.mono {m n e : Nat} (h : L.Fits n e) (hm : m ≤ n) : L.Fits m e := by
  obtain ⟨hn, hbig⟩ := h
  simp only [tooBig, Bool.or_eq_false_iff, decide_eq_false_iff_not] at hbig
  refine ⟨by omega, ?_⟩
  simp only [tooBig, Bool.or_eq_false_iff, decide_eq_false_iff_not]
  omega

theorem toNat_size {n : Nat} (h : n < 2 ^ 31) : (BitVec.ofNat 32 n).toNat = n := by
  rw [BitVec.toNat_ofNat]
  omega

theorem parses_size {α : Type} {l : List α} (h : l.length < 2 ^ 31) :
    Parses S (loadInt S) (dumpSize S.layout l) (BitVec.ofNat 32 l.length) := by
  refine parses_int ?_
  rw [BitVec.msb_eq_false_iff_two_mul_lt, toNat_size h]
  omega

theorem newvector_of_fits {n e : Nat} (h : S.layout.Fits n e) :
    newvector S (BitVec.ofNat 32 n) e = pure () := by
  rw [newvector, toNat_size h.1, h.2]
  rfl

theorem parses_array {α β : Type} {e : Nat} {x : Load α} {write : β → LuaString} {value : β → α}
    {l : List β} (hfits : S.layout.Fits l.length e)
    (hx : ∀ b ∈ l, Parses S x (write b) (value b)) :
    Parses S (do
      let n ← loadInt S
      newvector S n e
      times n.toNat x) (dumpSize S.layout l ++ l.flatMap write) (l.map value) := by
  refine (parses_size hfits.1).bind (Reads.guard (newvector_of_fits hfits) ?_)
  rw [toNat_size hfits.1]
  exact reads_times l hx

theorem parses_vector {l : List (BitVec 32)} (hfits : S.layout.Fits l.length 4) :
    Parses S (loadVector S) (dumpVector S.layout l).flatten l := by
  have hlength : ∀ x ∈ l, (S.layout.bytes 4 x.toNat).length = 4 :=
    fun x _ => S.layout.length_bytes 4 _
  rw [dumpVector, List.flatten_cons, List.flatten_singleton]
  refine (parses_size hfits.1).bind (Reads.guard (newvector_of_fits hfits) ?_)
  rw [toNat_size hfits.1]
  refine (parses_block ?_).map ?_
  · rw [List.length_flatMap]
    simp [S.layout.length_bytes]
  · have hword : ∀ x ∈ l,
        ((fun b => BitVec.ofNat 32 (S.layout.number b)) ∘ fun x => S.layout.bytes 4 x.toNat) x =
          id x := by
      intro x _
      have hx := x.isLt
      rw [Function.comp_apply, S.layout.number_bytes (by omega), BitVec.ofNat_toNat,
        BitVec.setWidth_eq]
      rfl
    rw [pieces_flatMap l hlength, List.map_map, List.map_congr_left hword, List.map_id]

/-! ## Prototypes -/

/-- What the parser and `luaU_undump` make sure of. -/
def Constant.WellFormed (L : Layout) : Constant → Prop
  | .boolean b => IsChar b
  | .string s => L.FitsString s
  | _ => True

structure LocVar.WellFormed (L : Layout) (v : LocVar) : Prop where
  varname : ∀ s ∈ v.varname, L.FitsString s
  startpc : v.startpc.msb = false
  endpc : v.endpc.msb = false

/-- The fields of a prototype without the functions inside. -/
structure Proto.FieldsWellFormed (L : Layout) (f : Proto) : Prop where
  linedefined : f.linedefined.msb = false
  lastlinedefined : f.lastlinedefined.msb = false
  code : L.Fits f.code.length 4
  sizek : L.Fits f.k.length L.sizeofTValue
  k : ∀ c ∈ f.k, c.WellFormed L
  sizep : L.Fits f.p.length L.sizeofPointer
  sizeupvalues : L.Fits f.upvalues.length L.sizeofUpvaldesc
  names : ∀ u ∈ f.upvalues, ∀ s ∈ u.name, L.FitsString s
  source : ∀ s ∈ f.source, L.FitsString s
  lineinfo : L.Fits f.lineinfo.length 4
  sizelocvars : L.Fits f.locvars.length L.sizeofLocVar
  locvars : ∀ v ∈ f.locvars, v.WellFormed L

/-- At most `depth` functions are inside of each other. -/
inductive Proto.WellFormed (L : Layout) : Nat → Proto → Prop where
  | intro {depth : Nat} {f : Proto} (fields : f.FieldsWellFormed L)
      (inside : ∀ g ∈ f.p, g.WellFormed L depth) : Proto.WellFormed L (depth + 1) f

theorem parses_constant {c : Constant} (h : c.WellFormed S.layout) :
    Parses S (loadConstant S) (dumpConstant S.layout c).flatten c := by
  have htag : ∀ t : BitVec 32, IsChar t → Parses S (loadChar S) (dumpChar t) t :=
    fun t ht => parses_char ht
  cases c with
  | nil => exact (htag 0 rfl).map rfl
  | boolean b =>
    exact (htag 1 rfl).bind ((parses_char h).map rfl)
  | number n =>
    rw [dumpConstant, List.flatten_cons, List.flatten_singleton]
    exact (htag 3 rfl).bind ((parses_number n).map rfl)
  | string s =>
    refine (htag 4 rfl).bind ((parses_string ?_).map rfl)
    rintro t ⟨⟩
    exact h

theorem parses_constants {k : List Constant}
    (hfits : S.layout.Fits k.length S.layout.sizeofTValue) (h : ∀ c ∈ k, c.WellFormed S.layout) :
    Parses S (loadConstants S)
      (dumpSize S.layout k ++ k.flatMap fun c => (dumpConstant S.layout c).flatten) k := by
  have hid : ∀ c ∈ k, Parses S (loadConstant S) (dumpConstant S.layout c).flatten (id c) :=
    fun c hc => parses_constant (h c hc)
  have harray := parses_array hfits hid
  rwa [List.map_id] at harray

theorem flatten_flatMap {α β : Type} (f : α → List (List β)) :
    ∀ l : List α, (l.flatMap f).flatten = l.flatMap (fun a => (f a).flatten)
  | [] => rfl
  | a :: l => by
    rw [List.flatMap_cons, List.flatten_append, flatten_flatMap f l, List.flatMap_cons]

/-- The upvalues as `LoadUpvalues` leaves them. -/
def Upvaldesc.unnamed (u : Upvaldesc) : Upvaldesc := { u with name := none }

theorem parses_upvalues {upvalues : List Upvaldesc}
    (hfits : S.layout.Fits upvalues.length S.layout.sizeofUpvaldesc) :
    Parses S (loadUpvalues S)
      (dumpSize S.layout upvalues ++
        upvalues.flatMap fun u => dumpByte u.instack ++ dumpByte u.idx)
      (upvalues.map Upvaldesc.unnamed) :=
  parses_array hfits (fun _ _ => (parses_byte _).bind ((parses_byte _).map rfl))

theorem parses_locVar {v : LocVar} (h : v.WellFormed S.layout) :
    Parses S (loadLocVar S) (dumpLocVar S.layout v).flatten v := by
  rw [dumpLocVar, List.flatten_append, List.flatten_cons, List.flatten_singleton]
  exact (parses_string h.varname).bind ((parses_int h.startpc).bind ((parses_int h.endpc).map rfl))

/-- The upvalues get their names in order, as far as there are names. -/
def rename : List Upvaldesc → List (Option LuaString) → List Upvaldesc
  | u :: upvalues, name :: names => { u with name } :: rename upvalues names
  | upvalues, _ => upvalues

theorem parses_names :
    ∀ (names : List (Option LuaString)) (upvalues : List Upvaldesc),
      names.length ≤ upvalues.length → (∀ name ∈ names, ∀ s ∈ name, S.layout.FitsString s) →
      Parses S (loadNames S names.length upvalues)
        (names.flatMap fun name => (dumpString S.layout name).flatten) (rename upvalues names)
  | [], upvalues, _, _ => by
    cases upvalues <;> exact reads_pure _
  | name :: names, [], hlength, _ => absurd hlength (by simp)
  | name :: names, u :: upvalues, hlength, h => by
    have hnames := parses_names names upvalues (by simpa using hlength)
      (fun n hn => h n (List.mem_cons_of_mem _ hn))
    rw [List.flatMap_cons]
    exact (parses_string (h name List.mem_cons_self)).bind (hnames.map rfl)

/-! ## Functions -/

/-- What is left of a prototype that is dumped with `strip`. -/
def Proto.stripFields (strip : Bool) (f : Proto) : Proto :=
  if strip then
    { f with source := none, lineinfo := [], locvars := [],
             upvalues := f.upvalues.map Upvaldesc.unnamed }
  else f

mutual

def Proto.strip (strip : Bool) : Proto → Proto
  | ⟨linedefined, lastlinedefined, numparams, isVararg, maxstacksize, code, k, p, upvalues, source,
      lineinfo, locvars⟩ =>
    Proto.stripFields strip ⟨linedefined, lastlinedefined, numparams, isVararg, maxstacksize, code,
      k, stripAll strip p, upvalues, source, lineinfo, locvars⟩

def stripAll (strip : Bool) : List Proto → List Proto
  | [] => []
  | f :: p => f.strip strip :: stripAll strip p

end

theorem stripAll_eq_map (strip : Bool) : ∀ p, stripAll strip p = p.map (Proto.strip strip)
  | [] => rfl
  | f :: p => by rw [stripAll, List.map_cons, stripAll_eq_map strip p]

theorem strip_eq (strip : Bool) (f : Proto) :
    f.strip strip = Proto.stripFields strip { f with p := f.p.map (Proto.strip strip) } := by
  obtain ⟨⟩ := f
  rw [Proto.strip, stripAll_eq_map]

mutual

theorem strip_false : ∀ f : Proto, f.strip false = f
  | ⟨_, _, _, _, _, _, _, p, _, _, _, _⟩ => by
    rw [Proto.strip, stripAll_false p]
    rfl

theorem stripAll_false : ∀ p, stripAll false p = p
  | [] => rfl
  | f :: p => by rw [stripAll, strip_false f, stripAll_false p]

end

theorem dumpFunctions_eq_flatMap (strip : Bool) :
    ∀ p, dumpFunctions L strip p = p.flatMap (dumpFunction L strip)
  | [] => rfl
  | f :: p => by rw [dumpFunctions, List.flatMap_cons, dumpFunctions_eq_flatMap strip p]

theorem dumpFunction_eq (strip : Bool) (f : Proto) : dumpFunction L strip f =
    dumpHead L f ++ f.p.flatMap (dumpFunction L strip) ++ dumpUpvalues L f ++
      dumpDebug L strip f := by
  obtain ⟨⟩ := f
  rw [dumpFunction, dumpFunctions_eq_flatMap]

theorem rename_nil (upvalues : List Upvaldesc) : rename upvalues [] = upvalues := by
  cases upvalues <;> rfl

theorem rename_unnamed :
    ∀ upvalues : List Upvaldesc,
      rename (upvalues.map Upvaldesc.unnamed) (upvalues.map Upvaldesc.name) = upvalues
  | [] => rfl
  | u :: upvalues => by
    rw [List.map_cons, List.map_cons, rename, rename_unnamed upvalues]
    rfl

/-- The fields of `f` that are loaded before the debug information. -/
def Proto.undebugged (f : Proto) : Proto :=
  { f with source := none, lineinfo := [], locvars := [],
           upvalues := f.upvalues.map Upvaldesc.unnamed }

theorem parses_loadDebug (f : Proto) (source : Option LuaString) (lineinfo : List (BitVec 32))
    (locvars : List LocVar) (names : List (Option LuaString))
    (hsource : ∀ s ∈ source, S.layout.FitsString s) (hlineinfo : S.layout.Fits lineinfo.length 4)
    (hsize : S.layout.Fits locvars.length S.layout.sizeofLocVar)
    (hlocvars : ∀ v ∈ locvars, v.WellFormed S.layout)
    (hlength : names.length < 2 ^ 31 ∧ names.length ≤ f.upvalues.length)
    (hnames : ∀ name ∈ names, ∀ s ∈ name, S.layout.FitsString s) :
    Parses S (loadDebug S f)
      ((dumpString S.layout source).flatten ++ ((dumpVector S.layout lineinfo).flatten ++
        (dumpSize S.layout locvars ++
          (locvars.flatMap (fun v => (dumpLocVar S.layout v).flatten) ++
            (dumpSize S.layout names ++
              names.flatMap (fun name => (dumpString S.layout name).flatten))))))
      { f with source, lineinfo, locvars, upvalues := rename f.upvalues names } := by
  refine (parses_string hsource).bind ((parses_vector hlineinfo).bind ?_)
  refine (parses_size hsize.1).bind (Reads.guard (newvector_of_fits hsize) ?_)
  rw [toNat_size hsize.1]
  have htimes : Parses S (times locvars.length (loadLocVar S))
      (locvars.flatMap fun v => (dumpLocVar S.layout v).flatten) (locvars.map id) :=
    reads_times _ (fun v hv => parses_locVar (hlocvars v hv))
  rw [List.map_id] at htimes
  refine htimes.bind ?_
  refine (parses_size hlength.1).bind ?_
  rw [toNat_size hlength.1]
  exact (parses_names names f.upvalues hlength.2 hnames).map rfl

theorem parses_debug (strip : Bool) {f : Proto} (h : f.FieldsWellFormed S.layout)
    (p : List Proto) :
    Parses S (loadDebug S { f.undebugged with p }) (dumpDebug S.layout strip f).flatten
      (Proto.stripFields strip { f with p }) := by
  have hflat : ∀ (source : Option LuaString) (lineinfo : List (BitVec 32))
      (locvars : List LocVar) (names : List (Option LuaString)),
      (dumpString S.layout source ++ dumpVector S.layout lineinfo ++
        dumpSize S.layout locvars :: locvars.flatMap (dumpLocVar S.layout) ++
        dumpSize S.layout names :: names.flatMap (dumpString S.layout)).flatten =
      (dumpString S.layout source).flatten ++ ((dumpVector S.layout lineinfo).flatten ++
        (dumpSize S.layout locvars ++
          (locvars.flatMap (fun v => (dumpLocVar S.layout v).flatten) ++
            (dumpSize S.layout names ++
              names.flatMap (fun name => (dumpString S.layout name).flatten))))) := by
    intro source lineinfo locvars names
    simp only [List.flatten_append, List.flatten_cons, flatten_flatMap, List.append_assoc]
  cases strip with
  | true =>
    have hline : S.layout.Fits 0 4 := h.lineinfo.mono (Nat.zero_le _)
    have hloc : S.layout.Fits 0 S.layout.sizeofLocVar := h.sizelocvars.mono (Nat.zero_le _)
    have hparses := parses_loadDebug (S := S) { f.undebugged with p } none [] [] [] nofun
      hline hloc nofun
      ⟨by decide, Nat.zero_le _⟩ nofun
    rw [rename_nil, ← hflat] at hparses
    exact hparses
  | false =>
    have hparses := parses_loadDebug (S := S) { f.undebugged with p } f.source f.lineinfo f.locvars
      (f.upvalues.map Upvaldesc.name) h.source h.lineinfo h.sizelocvars h.locvars
      (by simpa [Proto.undebugged] using h.sizeupvalues.1) (fun name hname => by
        obtain ⟨u, hu, rfl⟩ := List.mem_map.mp hname
        exact h.names u hu)
    rw [← hflat] at hparses
    simp only [Proto.undebugged, rename_unnamed] at hparses
    exact hparses

theorem parses_function (strip : Bool) {depth : Nat} {f : Proto}
    (h : f.WellFormed S.layout depth) :
    ∀ calls, depth ≤ calls → Parses S (loadFunction S calls)
      (dumpFunction S.layout strip f).flatten (f.strip strip) := by
  induction h with
  | @intro depth f fields inside ih =>
    intro calls hcalls
    obtain ⟨calls, rfl⟩ : ∃ k, calls = k + 1 := ⟨calls - 1, by omega⟩
    have hflat : (dumpFunction S.layout strip f).flatten =
        dumpInt S.layout f.linedefined ++ (dumpInt S.layout f.lastlinedefined ++
        (dumpByte f.numparams ++ (dumpByte f.isVararg ++ (dumpByte f.maxstacksize ++
        ((dumpVector S.layout f.code).flatten ++
        ((dumpSize S.layout f.k ++ f.k.flatMap (fun c => (dumpConstant S.layout c).flatten)) ++
        ((dumpSize S.layout f.p ++ f.p.flatMap fun g => (dumpFunction S.layout strip g).flatten) ++
        ((dumpSize S.layout f.upvalues ++
          f.upvalues.flatMap fun u => dumpByte u.instack ++ dumpByte u.idx) ++
        (dumpDebug S.layout strip f).flatten)))))))) := by
      rw [dumpFunction_eq]
      simp only [dumpHead, dumpUpvalues, List.flatten_append, List.flatten_cons, List.flatten_nil,
        flatten_flatMap, List.append_assoc, List.append_nil]
    have hfunctions : Parses S (loadFunctions S (loadFunction S calls))
        (dumpSize S.layout f.p ++ f.p.flatMap fun g => (dumpFunction S.layout strip g).flatten)
        (f.p.map (Proto.strip strip)) :=
      parses_array fields.sizep (fun g hg => ih g hg calls (by omega))
    rw [hflat, strip_eq]
    refine (parses_int fields.linedefined).bind ((parses_int fields.lastlinedefined).bind ?_)
    refine (parses_byte _).bind ((parses_byte _).bind ((parses_byte _).bind ?_))
    refine (parses_vector fields.code).bind ((parses_constants fields.sizek fields.k).bind ?_)
    exact hfunctions.bind ((parses_upvalues fields.sizeupvalues).bind (parses_debug strip fields _))

/-! ## Whole chunks -/

/-- The bytes of all blocks. -/
def chunk (L : Layout) (strip : Bool) (f : Proto) : LuaString :=
  luaUHeader L ++ (dumpFunction L strip f).flatten

theorem chunk_eq_cons (L : Layout) (strip : Bool) (f : Proto) : chunk L strip f =
    0x1b :: ((luaUHeader L).tail ++ (dumpFunction L strip f).flatten) := rfl

theorem take_append_tail (L L' : Layout) :
    (luaUHeader L).take 1 ++ (luaUHeader L').tail = luaUHeader L' := rfl

theorem parses_headerBlock (L : Layout) :
    Parses S (loadBlock S ((luaUHeader S.layout).length - 1)) (luaUHeader L).tail
      (luaUHeader L).tail :=
  parses_block rfl

theorem parses_header : Parses S (loadHeader S) (luaUHeader S.layout).tail () := by
  refine (parses_headerBlock S.layout).map ?_
  simp only [take_append_tail, if_true]

theorem parses_undump (strip : Bool) {depth calls : Nat} {f : Proto} (h : f.WellFormed L depth)
    (hcalls : depth ≤ calls) (name : LuaString) :
    Reads Zio.content ((LoadState.mk L (shownName name)).error "truncated")
      (luaUUndump L calls name) ((luaUHeader L).tail ++ (dumpFunction L strip f).flatten)
      (newLclosure (f.strip strip)) :=
  let S : LoadState := ⟨L, shownName name⟩
  (parses_header (S := S)).bind ((parses_function (S := S) strip h calls hcalls).map rfl)

/-- A chunk goes to `luaU_undump` when the mode allows it. -/
theorem run_fParser_eq (L : Layout) (calls : Nat) (luaYParser : Option UInt8 → Load LClosure)
    (name : LuaString) (mode : Option LuaString) {z : Zio} (hz : z.content.head? = some 0x1b) :
    (fParser L calls luaYParser name mode).run z =
        (checkmode mode "binary" >>= fun _ => luaUUndump L calls name).run z.getc.2 ∧
      z.getc.2.content = z.content.tail := by
  obtain ⟨hc, hcontent⟩ := z.getc_eq
  have hget : (modifyGet Zio.getc : Load (Option UInt8)).run z = .ok (some 0x1b) z.getc.2 := by
    rw [EStateM.run_modifyGet, hc, hz]
  refine ⟨?_, hcontent (fun hnil => by rw [hnil] at hz; cases hz)⟩
  rw [fParser, run_bind_of_ok hget, if_pos rfl]

theorem checkmode_binary {mode : Option LuaString} (h : ∀ m ∈ mode, 0x62 ∈ m) :
    checkmode mode "binary" = pure () := by
  cases mode with
  | none => rfl
  | some m =>
    have hm : (ascii "binary").headD 0 ∈ m := h m rfl
    rw [checkmode, if_pos hm]

theorem run_fParser (L : Layout) (calls : Nat) (luaYParser : Option UInt8 → Load LClosure)
    (name : LuaString) {mode : Option LuaString} (hmode : ∀ m ∈ mode, 0x62 ∈ m) {z : Zio}
    (hz : z.content.head? = some 0x1b) :
    (fParser L calls luaYParser name mode).run z = (luaUUndump L calls name).run z.getc.2 ∧
      z.getc.2.content = z.content.tail := by
  obtain ⟨hrun, hcontent⟩ := run_fParser_eq L calls luaYParser name mode hz
  exact ⟨by rw [hrun, checkmode_binary hmode]; rfl, hcontent⟩

theorem foldl_dumpBlock_writer :
    ∀ (blocks : List LuaString) (buffer : LuaString),
      blocks.foldl (dumpBlock writer) ⟨buffer, 0⟩ = ⟨buffer ++ blocks.flatten, 0⟩
  | [], buffer => by rw [List.foldl_nil, List.flatten_nil, List.append_nil]
  | b :: blocks, buffer => by
    rw [List.foldl_cons, dumpBlock, if_pos rfl, writer, foldl_dumpBlock_writer blocks,
      List.flatten_cons, List.append_assoc]

theorem luaUDump_writer (L : Layout) (strip : Bool) (f : Proto) :
    luaUDump L strip writer [] f = ⟨chunk L strip f, 0⟩ := by
  rw [luaUDump, foldl_dumpBlock_writer, List.nil_append, List.flatten_cons, chunk]

section Parser

variable {depth calls : Nat} {f : Proto} {luaYParser : Option UInt8 → Load LClosure}
  {name : LuaString} {mode : Option LuaString} {z : Zio} {rest : LuaString}

theorem run_fParser_chunk (h : f.WellFormed L depth) (hcalls : depth ≤ calls) (strip : Bool)
    (hmode : ∀ m ∈ mode, 0x62 ∈ m) (hz : z.content = chunk L strip f ++ rest) :
    ∃ z', (fParser L calls luaYParser name mode).run z = .ok (newLclosure (f.strip strip)) z' ∧
      z'.content = rest := by
  rw [chunk_eq_cons, List.cons_append] at hz
  obtain ⟨hrun, hcontent⟩ := run_fParser L calls luaYParser name hmode
    (by rw [hz]; rfl : z.content.head? = some 0x1b)
  rw [hz, List.tail_cons] at hcontent
  rw [hrun]
  exact (parses_undump strip h hcalls name).takes _ rest hcontent

/-- A chunk is refused when it ends early, wherever it ends. -/
theorem run_fParser_truncated (h : f.WellFormed L depth) (hcalls : depth ≤ calls) (strip : Bool)
    (hmode : ∀ m ∈ mode, 0x62 ∈ m) (hz : chunk L strip f = z.content ++ rest)
    (hstart : z.content ≠ []) (hrest : rest ≠ []) :
    ∃ z', (fParser L calls luaYParser name mode).run z =
      .error (.errSyntax (shownName name ++ ascii ": truncated precompiled chunk")) z' := by
  obtain ⟨c, content, hc⟩ := List.exists_cons_of_ne_nil hstart
  rw [chunk_eq_cons, hc, List.cons_append] at hz
  obtain ⟨hfirst, htail⟩ := List.cons.inj hz
  subst hfirst
  obtain ⟨hrun, hcontent⟩ := run_fParser L calls luaYParser name hmode
    (by rw [hc]; rfl : z.content.head? = some 0x1b)
  rw [hc, List.tail_cons] at hcontent
  rw [hrun]
  obtain ⟨z', hz'⟩ := (parses_undump strip h hcalls name).short _ rest
    (hcontent.symm ▸ htail) hrest
  have herror : (LoadState.mk L (shownName name)).error "truncated" =
      .errSyntax (shownName name ++ ascii ": truncated precompiled chunk") := by
    rw [LoadState.error, List.append_assoc, List.append_assoc]
    rfl
  exact ⟨z', herror ▸ hz'⟩

end Parser

/-- A machine with 64-bit pointers. -/
def x64 : Layout where
  bigEndian := false
  sizeT := 8
  sizeT_pos := by decide
  sizeofTValue := 16
  sizeofPointer := 8
  sizeofUpvaldesc := 16
  sizeofLocVar := 16
  sizeofTString := 24

/-- A function that returns. -/
def innerProto : Proto where
  linedefined := 1
  lastlinedefined := 1
  numparams := 0
  isVararg := 0
  maxstacksize := 2
  code := [0x0080001f]
  k := []
  p := []
  upvalues := []
  source := some (ascii "=x")
  lineinfo := [1]
  locvars := []

theorem innerProto_fields : innerProto.FieldsWellFormed x64 where
  linedefined := rfl
  lastlinedefined := rfl
  code := by decide
  sizek := by decide
  k := nofun
  sizep := by decide
  sizeupvalues := by decide
  names := nofun
  source := by
    rintro _ ⟨⟩
    decide
  lineinfo := by decide
  sizelocvars := by decide
  locvars := nofun

/-- A function with a constant and a function inside. -/
def outerProto : Proto := { innerProto with k := [.string (ascii "hi")], p := [innerProto] }

theorem outerProto_wellFormed : outerProto.WellFormed x64 2 :=
  .intro
    { innerProto_fields with
      sizek := by decide
      k := fun c hc => by
        obtain rfl := List.mem_singleton.mp hc
        change x64.FitsString (ascii "hi")
        decide
      sizep := by decide }
    (fun g hg => by
      obtain rfl := List.mem_singleton.mp hg
      exact .intro innerProto_fields nofun)

theorem chunk_ne_nil (L : Layout) (strip : Bool) (f : Proto) : [] ∉ [chunk L strip f] := by
  rw [chunk_eq_cons]
  simp

/-- The chunk of the function in two pieces, stripped. -/
def twoPieces : Zio where
  buffer := []
  pieces := [(luaUDump x64 true writer [] outerProto).data.take 7,
    (luaUDump x64 true writer [] outerProto).data.drop 7]

theorem content_twoPieces : twoPieces.content = chunk x64 true outerProto := by
  have hpieces : [] ∉ [(chunk x64 true outerProto).take 7, (chunk x64 true outerProto).drop 7] := by
    rw [chunk_eq_cons]
    simp [luaUHeader, luacTail]
    omega
  rw [twoPieces, luaUDump_writer, Zio.content_of_pieces hpieces]
  simp

/-- **A function that is dumped is loaded again**, however the reader cuts its chunk, and nothing
behind the chunk is read. Only the debug information is missing when it was stripped. -/
theorem undump_dump {depth calls : Nat} {f : Proto} (h : f.WellFormed L depth)
    (hcalls : depth ≤ calls) (strip : Bool) (luaYParser : Option UInt8 → Load LClosure)
    (name : LuaString) (mode : Option LuaString) (hmode : ∀ m ∈ mode, 0x62 ∈ m) (z : Zio)
    (rest : LuaString) (hz : z.content = (luaUDump L strip writer [] f).data ++ rest) :
    ∃ z', (fParser L calls luaYParser name mode).run z = .ok (newLclosure (f.strip strip)) z' ∧
      z'.content = rest := by
  rw [luaUDump_writer] at hz
  exact run_fParser_chunk h hcalls strip hmode hz

theorem twoPieces_loaded :
    ∃ z', (fParser x64 200 (fun _ => throw .undefined) (ascii "=x") (some (ascii "bt"))).run
      twoPieces = .ok (newLclosure (outerProto.strip true)) z' ∧ z'.content = [] :=
  undump_dump outerProto_wellFormed (by decide) true _ _ _ (by rintro _ ⟨⟩; decide) twoPieces []
    (by rw [content_twoPieces, luaUDump_writer, List.append_nil])

/-- The writer adds what it gets to a file. It may fail at any time, in the middle of a block as
well. -/
def Appends (writer : LuaString → LuaString → Int × LuaString) : Prop :=
  ∀ b file, ∃ written missing, b = written ++ missing ∧ (writer b file).2 = file ++ written ∧
    ((writer b file).1 = 0 → missing = [])

theorem foldl_dumpBlock_failed {σ : Type} {writer : LuaString → σ → Int × σ} {D : DumpState σ}
    (h : D.status ≠ 0) : ∀ blocks : List LuaString, blocks.foldl (dumpBlock writer) D = D
  | [] => rfl
  | b :: blocks => by rw [List.foldl_cons, dumpBlock, if_neg h, foldl_dumpBlock_failed h blocks]

theorem foldl_dumpBlock_appends {writer : LuaString → LuaString → Int × LuaString}
    (hwriter : Appends writer) :
    ∀ (blocks : List LuaString) (file : LuaString), ∃ written missing,
      blocks.flatten = written ++ missing ∧
        (blocks.foldl (dumpBlock writer) ⟨file, 0⟩).data = file ++ written ∧
        ((blocks.foldl (dumpBlock writer) ⟨file, 0⟩).status = 0 → missing = [])
  | [], file => ⟨[], [], rfl, (List.append_nil _).symm, fun _ => rfl⟩
  | b :: blocks, file => by
    obtain ⟨written, missing, hb, hdata, hstatus⟩ := hwriter b file
    rw [List.foldl_cons, dumpBlock, if_pos rfl, hdata]
    by_cases hfail : (writer b file).1 = 0
    · obtain rfl := hstatus hfail
      rw [List.append_nil] at hb
      obtain ⟨written', missing', hblocks, hdata', hstatus'⟩ :=
        foldl_dumpBlock_appends hwriter blocks (file ++ written)
      rw [hfail]
      refine ⟨written ++ written', missing', ?_, ?_, hstatus'⟩
      · rw [List.flatten_cons, hblocks, hb, List.append_assoc]
      · rw [hdata', List.append_assoc]
    · rw [foldl_dumpBlock_failed hfail]
      refine ⟨written, missing ++ blocks.flatten, ?_, rfl, fun h => absurd h hfail⟩
      rw [List.flatten_cons, hb, List.append_assoc]

/-- **What a failed dump leaves** is refused as truncated, unless all of it was written. When
`luaU_dump` returns 0, the file is loaded. -/
theorem undump_written {depth calls : Nat} {f : Proto} (h : f.WellFormed L depth)
    (hcalls : depth ≤ calls) (strip : Bool)
    (writer : LuaString → LuaString → Int × LuaString) (hwriter : Appends writer)
    (luaYParser : Option UInt8 → Load LClosure) (name : LuaString) (mode : Option LuaString)
    (hmode : ∀ m ∈ mode, 0x62 ∈ m) (z : Zio)
    (hz : z.content = (luaUDump L strip writer [] f).data) (hne : z.content ≠ []) :
    (∃ z', (fParser L calls luaYParser name mode).run z =
        .ok (newLclosure (f.strip strip)) z' ∧ z'.content = []) ∨
      (luaUDump L strip writer [] f).status ≠ 0 ∧
        ∃ z', (fParser L calls luaYParser name mode).run z =
          .error (.errSyntax (shownName name ++ ascii ": truncated precompiled chunk")) z' := by
  obtain ⟨written, missing, hchunk, hdata, hstatus⟩ :=
    foldl_dumpBlock_appends hwriter (luaUHeader L :: dumpFunction L strip f) []
  rw [List.nil_append] at hdata
  rw [List.flatten_cons, ← chunk] at hchunk
  obtain rfl : z.content = written := hz.trans hdata
  by_cases hmissing : missing = []
  · subst hmissing
    rw [List.append_nil] at hchunk
    exact Or.inl (run_fParser_chunk h hcalls strip hmode (by rw [hchunk, List.append_nil]))
  · exact Or.inr ⟨fun h0 => hmissing (hstatus h0),
      run_fParser_truncated h hcalls strip hmode hchunk hne hmissing⟩

/-- A file that takes the header and nothing else. -/
def fullWriter (b file : LuaString) : Int × LuaString := if file = [] then (0, b) else (1, file)

theorem fullWriter_appends : Appends fullWriter := by
  intro b file
  unfold fullWriter
  by_cases hfile : file = []
  · rw [if_pos hfile, hfile]
    exact ⟨b, [], (List.append_nil b).symm, rfl, fun _ => rfl⟩
  · rw [if_neg hfile]
    exact ⟨[], b, rfl, (List.append_nil file).symm, nofun⟩

theorem fullWriter_file :
    (∃ z', (fParser x64 200 (fun _ => throw .undefined) (ascii "=x") none).run
        ⟨[], [luaUHeader x64]⟩ = .ok (newLclosure (outerProto.strip false)) z' ∧ z'.content = []) ∨
      (luaUDump x64 false fullWriter [] outerProto).status ≠ 0 ∧
        ∃ z', (fParser x64 200 (fun _ => throw .undefined) (ascii "=x") none).run
          ⟨[], [luaUHeader x64]⟩ =
            .error (.errSyntax (shownName (ascii "=x") ++
              ascii ": truncated precompiled chunk")) z' :=
  undump_written outerProto_wellFormed (by decide) false fullWriter fullWriter_appends _ _ none
    nofun ⟨[], [luaUHeader x64]⟩ rfl (by decide)

/-- **A chunk of another machine is refused**: with another byte order or another size of `size_t`
nothing of it is taken for a function. -/
theorem undump_other_layout {L' : Layout} (hne : luaUHeader L' ≠ luaUHeader L) (strip : Bool)
    (f : Proto) (calls : Nat) (luaYParser : Option UInt8 → Load LClosure) (name : LuaString)
    (mode : Option LuaString) (hmode : ∀ m ∈ mode, 0x62 ∈ m) (z : Zio) (rest : LuaString)
    (hz : z.content = (luaUDump L' strip writer [] f).data ++ rest) :
    ∃ z', (fParser L calls luaYParser name mode).run z =
      .error (.errSyntax (shownName name ++ ascii ": incompatible precompiled chunk")) z' := by
  rw [luaUDump_writer, chunk_eq_cons, List.cons_append] at hz
  obtain ⟨hrun, hcontent⟩ := run_fParser L calls luaYParser name hmode
    (by rw [hz]; rfl : z.content.head? = some 0x1b)
  rw [hz, List.tail_cons, List.append_assoc] at hcontent
  rw [hrun]
  let S : LoadState := ⟨L, shownName name⟩
  obtain ⟨z', hz', -⟩ := (parses_headerBlock (S := S) L').takes _ _ hcontent
  have hheader : (loadHeader S).run z.getc.2 = .error (S.error "incompatible") z' := by
    rw [loadHeader, run_bind_of_ok hz']
    have h12 : (luaUHeader L).take 12 ≠ (luaUHeader L').take 12 := by
      intro heq
      refine hne ?_
      rw [← List.take_append_drop 12 (luaUHeader L'), ← heq]
      exact List.take_append_drop 12 (luaUHeader L)
    have h4 : (luaUHeader L).take 4 = (luaUHeader L').take 4 := rfl
    have h6 : (luaUHeader L).take 6 = (luaUHeader L').take 6 := rfl
    have hS : S.layout = L := rfl
    simp only [hS, take_append_tail, if_neg (Ne.symm hne), h4, h6, ne_eq, not_true_eq_false,
      if_false]
    rw [if_pos h12]
    rfl
  refine ⟨z', ?_⟩
  have herror : S.error "incompatible" =
      .errSyntax (shownName name ++ ascii ": incompatible precompiled chunk") := by
    rw [LoadState.error, List.append_assoc, List.append_assoc]
    rfl
  rw [luaUUndump, EStateM.run_bind, hheader, herror]

/-- A machine with 32-bit pointers. -/
def x86 : Layout :=
  { x64 with sizeT := 4, sizeT_pos := by decide, sizeofPointer := 4, sizeofUpvaldesc := 8,
             sizeofLocVar := 12, sizeofTString := 16 }

theorem x86_refuses_x64 :
    ∃ z', (fParser x86 200 (fun _ => throw .undefined) (ascii "=x") none).run twoPieces =
      .error (.errSyntax (shownName (ascii "=x") ++ ascii ": incompatible precompiled chunk")) z' :=
  undump_other_layout (show luaUHeader x64 ≠ luaUHeader x86 by decide) true outerProto 200
    _ _ none nofun twoPieces [] (by rw [content_twoPieces, luaUDump_writer, List.append_nil])

end LuaAddons.Chunk
