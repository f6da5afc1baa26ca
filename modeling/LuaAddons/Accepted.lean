import LuaAddons.RoundTrip

/-!
# Chunks from anywhere

`luaU_undump` takes any bytes that start like a chunk. How the reader cuts them makes no difference
(`pieces_irrelevant`). Functions are nested no deeper than the chunk is long, so the C stack has
to have room for so many calls only (`undump_depth`). What is loaded is a well-formed prototype, so
it can be dumped and loaded again (`undump_again`), though the bytes need not be the same.
-/

namespace LuaAddons.Chunk

open Exec Reading

variable {S : LoadState} {L : Layout} {l : LuaString}

/-! ## Only the content matters -/

section ByContent

theorem byContent_block (n : Nat) : ByContent Zio.content (loadBlock S n) := by
  intro s t h
  obtain ⟨-, hs⟩ := s.read_eq n
  obtain ⟨-, ht⟩ := t.read_eq n
  rw [run_loadBlock, run_loadBlock, h]
  by_cases hle : n ≤ t.content.length
  · rw [if_pos hle, if_pos hle]
    refine ⟨rfl, ?_⟩
    rintro _ _ _ ⟨⟩ ⟨⟩
    rw [hs (h ▸ hle), ht hle, h]
  · rw [if_neg hle, if_neg hle]
    exact ⟨rfl, nofun⟩

theorem byContent_ite {α : Type} {p : Prop} [Decidable p] {x y : Load α}
    (hx : ByContent Zio.content x) (hy : ByContent Zio.content y) :
    ByContent Zio.content (if p then x else y) := by
  split
  · exact hx
  · exact hy

theorem byContent_char : ByContent Zio.content (loadChar S) :=
  (byContent_block 1).bind (fun _ => byContent_pure _)

theorem byContent_byte : ByContent Zio.content (loadByte S) :=
  byContent_char.bind (fun _ => byContent_pure _)

theorem byContent_int : ByContent Zio.content (loadInt S) :=
  (byContent_block 4).bind (fun _ => byContent_ite (byContent_throw _) (byContent_pure _))

theorem byContent_newvector (n : BitVec 32) (e : Nat) : ByContent Zio.content (newvector S n e) :=
  byContent_ite (byContent_throw _) (byContent_pure _)

theorem byContent_string : ByContent Zio.content (loadString S) :=
  (byContent_block _).bind (fun _ => byContent_ite (byContent_pure _)
    ((byContent_ite (byContent_throw _) (byContent_pure _)).bind (fun _ =>
      (byContent_block _).bind (fun _ =>
        (byContent_ite (byContent_throw _) (byContent_pure _)).bind (fun _ =>
          byContent_pure _)))))

theorem byContent_array {α : Type} {x : Load α} (e : Nat) (hx : ByContent Zio.content x) :
    ByContent Zio.content (do
      let n ← loadInt S
      newvector S n e
      times n.toNat x) :=
  byContent_int.bind (fun n => (byContent_newvector n e).bind (fun _ =>
    byContent_times hx n.toNat))

theorem byContent_vector : ByContent Zio.content (loadVector S) :=
  byContent_int.bind (fun n => (byContent_newvector n 4).bind (fun _ =>
    (byContent_block _).bind (fun _ => byContent_pure _)))

theorem byContent_constant : ByContent Zio.content (loadConstant S) := by
  refine byContent_char.bind (fun t => byContent_ite (byContent_pure _) (byContent_ite ?_
    (byContent_ite ?_ (byContent_ite ?_ (byContent_pure _)))))
  · exact byContent_char.bind (fun _ => byContent_pure _)
  · exact (byContent_block 8).bind (fun _ => byContent_pure _) |>.bind (fun _ => byContent_pure _)
  · refine byContent_string.bind (fun s => ?_)
    cases s with
    | none => exact byContent_throw _
    | some s => exact byContent_pure _

theorem byContent_names :
    ∀ (n : Nat) (upvalues : List Upvaldesc), ByContent Zio.content (loadNames S n upvalues)
  | 0, _ => byContent_pure _
  | _ + 1, [] => byContent_string.bind (fun _ => byContent_throw _)
  | n + 1, _ :: upvalues => byContent_string.bind (fun _ =>
      (byContent_names n upvalues).bind (fun _ => byContent_pure _))

theorem byContent_locVar : ByContent Zio.content (loadLocVar S) :=
  byContent_string.bind (fun _ => byContent_int.bind (fun _ =>
    byContent_int.bind (fun _ => byContent_pure _)))

theorem byContent_debug (f : Proto) : ByContent Zio.content (loadDebug S f) :=
  byContent_string.bind (fun _ => byContent_vector.bind (fun _ => byContent_int.bind (fun n =>
    (byContent_newvector n _).bind (fun _ => (byContent_times byContent_locVar _).bind (fun _ =>
      byContent_int.bind (fun _ => (byContent_names _ _).bind (fun _ => byContent_pure _)))))))

theorem byContent_function : ∀ calls, ByContent Zio.content (loadFunction S calls)
  | 0 => byContent_throw _
  | calls + 1 => by
    refine byContent_int.bind (fun _ => byContent_int.bind (fun _ => ?_))
    refine byContent_byte.bind (fun _ => byContent_byte.bind (fun _ =>
      byContent_byte.bind (fun _ => byContent_vector.bind (fun _ => ?_))))
    refine (byContent_array _ byContent_constant).bind (fun _ => ?_)
    refine (byContent_array _ (byContent_function calls)).bind (fun _ => ?_)
    refine (byContent_array _ (byContent_byte.bind (fun _ => byContent_byte.bind (fun _ =>
      byContent_pure _)))).bind (fun _ => byContent_debug _)

theorem byContent_header : ByContent Zio.content (loadHeader S) :=
  (byContent_block _).bind (fun _ => byContent_ite (byContent_pure _)
    (byContent_ite (byContent_throw _) (byContent_ite (byContent_throw _)
      (byContent_ite (byContent_throw _) (byContent_throw _)))))

theorem byContent_undump (calls : Nat) (name : LuaString) :
    ByContent Zio.content (luaUUndump L calls name) :=
  byContent_header.bind (fun _ => (byContent_function calls).bind (fun _ => byContent_pure _))

end ByContent

/-- **The pieces of a chunk do not matter**, whatever its bytes are. -/
theorem pieces_irrelevant (L : Layout) (calls : Nat) (luaYParser : Option UInt8 → Load LClosure)
    (name : LuaString) (mode : Option LuaString) (z₁ z₂ : Zio)
    (hcontent : z₁.content = z₂.content) (hstart : z₁.content.head? = some 0x1b) :
    outcome ((fParser L calls luaYParser name mode).run z₁) =
        outcome ((fParser L calls luaYParser name mode).run z₂) ∧
      ∀ cl z₁' z₂', (fParser L calls luaYParser name mode).run z₁ = .ok cl z₁' →
        (fParser L calls luaYParser name mode).run z₂ = .ok cl z₂' →
          z₁'.content = z₂'.content := by
  obtain ⟨hrun₁, htail₁⟩ := run_fParser_eq L calls luaYParser name mode hstart
  obtain ⟨hrun₂, htail₂⟩ := run_fParser_eq L calls luaYParser name mode (hcontent ▸ hstart)
  have hcheck : ByContent Zio.content (checkmode mode "binary") := by
    cases mode with
    | none => exact byContent_pure _
    | some m => exact byContent_ite (byContent_pure _) (byContent_throw _)
  rw [hrun₁, hrun₂]
  exact hcheck.bind (fun _ => byContent_undump calls name) _ _ (by rw [htail₁, htail₂, hcontent])

/-- The chunk in one piece. -/
def onePiece : Zio := ⟨[], [(luaUDump x64 true writer [] outerProto).data]⟩

theorem content_onePiece : onePiece.content = chunk x64 true outerProto := by
  rw [onePiece, luaUDump_writer, Zio.content_of_pieces (chunk_ne_nil _ _ _), List.flatten_singleton]

theorem twoPieces_onePiece :
    outcome ((fParser x64 200 (fun _ => throw .undefined) (ascii "=x") none).run twoPieces) =
      outcome ((fParser x64 200 (fun _ => throw .undefined) (ascii "=x") none).run onePiece) :=
  (pieces_irrelevant x64 200 _ _ none twoPieces onePiece
    (by rw [content_twoPieces, content_onePiece]) (by rw [content_twoPieces]; rfl)).1

/-! ## How deep functions are nested -/

section Within

variable {n : Nat}

/-- The calls of `LoadFunction` for which there is room suffice for `n` bytes. -/
abbrev Suffices {α : Type} (n k : Nat) (x : Load α) : Prop :=
  Within Zio.content .stackOverflow n k x

theorem within_block (m : Nat) : Suffices n m (loadBlock S m) := by
  intro z _
  rw [run_loadBlock]
  by_cases hle : m ≤ z.content.length
  · rw [if_pos hle]
    refine ⟨nofun, ?_⟩
    rintro _ _ ⟨⟩
    rw [(z.read_eq m).2 hle, List.length_drop]
    omega
  · rw [if_neg hle]
    exact ⟨nofun, nofun⟩

theorem within_ite {α : Type} {p : Prop} [Decidable p] {k : Nat} {x y : Load α}
    (hx : Suffices n k x) (hy : Suffices n k y) : Suffices n k (if p then x else y) := by
  split
  · exact hx
  · exact hy

theorem within_int : Suffices n 4 (loadInt S) :=
  (within_block 4).bind (fun _ _ => within_ite (within_throw (by nofun)) (within_pure _))

theorem within_char : Suffices n 0 (loadChar S) :=
  ((within_block 1).mono (Nat.le_refl n) (Nat.zero_le 1)).seq (fun _ => within_pure _)

theorem within_byte : Suffices n 0 (loadByte S) := within_char.seq (fun _ => within_pure _)

theorem within_newvector (m : BitVec 32) (e : Nat) : Suffices n 0 (newvector S m e) :=
  within_ite (within_throw (by nofun)) (within_pure _)

theorem within_size : Suffices n 0 (loadInt S) := within_int.mono (Nat.le_refl n) (Nat.zero_le 4)

theorem within_anyBlock (m : Nat) : Suffices n 0 (loadBlock S m) :=
  (within_block m).mono (Nat.le_refl n) (Nat.zero_le m)

theorem within_string : Suffices n 0 (loadString S) :=
  (within_anyBlock _).seq (fun _ => within_ite (within_pure _)
    ((within_ite (within_throw (by nofun)) (within_pure _)).seq (fun _ =>
      (within_anyBlock _).seq (fun _ =>
        (within_ite (within_throw (by nofun)) (within_pure _)).seq (fun _ => within_pure _)))))

theorem within_array {α : Type} {x : Load α} (e : Nat) (hx : Suffices n 0 x) :
    Suffices n 0 (do
      let n ← loadInt S
      newvector S n e
      times n.toNat x) :=
  within_size.seq (fun m => (within_newvector m e).seq (fun _ => within_times hx m.toNat))

theorem within_vector : Suffices n 0 (loadVector S) :=
  within_size.seq (fun m => (within_newvector m 4).seq (fun _ =>
    (within_anyBlock _).seq (fun _ => within_pure _)))

theorem within_constant : Suffices n 0 (loadConstant S) := by
  refine within_char.seq (fun t => within_ite (within_pure _) (within_ite ?_
    (within_ite ?_ (within_ite ?_ (within_pure _)))))
  · exact within_char.seq (fun _ => within_pure _)
  · exact ((within_anyBlock 8).seq (fun _ => within_pure _)).seq (fun _ => within_pure _)
  · refine within_string.seq (fun s => ?_)
    cases s with
    | none => exact within_throw (by nofun)
    | some s => exact within_pure _

theorem within_names :
    ∀ (m : Nat) (upvalues : List Upvaldesc), Suffices n 0 (loadNames S m upvalues)
  | 0, _ => within_pure _
  | _ + 1, [] => within_string.seq (fun _ => within_throw (by nofun))
  | m + 1, _ :: upvalues => within_string.seq (fun _ =>
      (within_names m upvalues).seq (fun _ => within_pure _))

theorem within_locVar : Suffices n 0 (loadLocVar S) :=
  within_string.seq (fun _ => within_size.seq (fun _ => within_size.seq (fun _ =>
    within_pure _)))

theorem within_debug (f : Proto) : Suffices n 0 (loadDebug S f) :=
  within_string.seq (fun _ => within_vector.seq (fun _ => within_size.seq (fun m =>
    (within_newvector m _).seq (fun _ => (within_times within_locVar _).seq (fun _ =>
      within_size.seq (fun _ => (within_names _ _).seq (fun _ => within_pure _)))))))

/-- Four bytes are gone before the functions inside are loaded. -/
theorem within_function : ∀ calls n, n < calls → Suffices n 0 (loadFunction S calls)
  | 0, n, h => absurd h (Nat.not_lt_zero n)
  | calls + 1, n, h => by
    have hrest : 4 ≤ n → ∀ linedefined : BitVec 32, Suffices (n - 4) 0 (do
        let lastlinedefined ← loadInt S
        let numparams ← loadByte S
        let isVararg ← loadByte S
        let maxstacksize ← loadByte S
        let code ← loadVector S
        let k ← loadConstants S
        let p ← loadFunctions S (loadFunction S calls)
        let upvalues ← loadUpvalues S
        loadDebug S
          { linedefined, lastlinedefined, numparams, isVararg, maxstacksize, code, k, p, upvalues,
            source := none, lineinfo := [], locvars := [] }) := by
      intro hn linedefined
      refine within_size.seq (fun _ => within_byte.seq (fun _ => within_byte.seq (fun _ => ?_)))
      refine within_byte.seq (fun _ => within_vector.seq (fun _ => ?_))
      refine (within_array _ within_constant).seq (fun _ => ?_)
      refine (within_array _ (within_function calls (n - 4) (by omega))).seq (fun _ => ?_)
      exact (within_array _ (within_byte.seq (fun _ => within_byte.seq (fun _ =>
        within_pure _)))).seq (fun _ => within_debug _)
    exact (within_int.bind hrest).mono (Nat.le_refl n) (Nat.zero_le _)

theorem within_header : Suffices n 0 (loadHeader S) :=
  (within_anyBlock _).seq (fun _ => within_ite (within_pure _)
    (within_ite (within_throw (by nofun)) (within_ite (within_throw (by nofun))
      (within_ite (within_throw (by nofun)) (within_throw (by nofun))))))

end Within

/-- **Functions are nested no deeper than the chunk is long.** -/
theorem undump_depth (L : Layout) (calls : Nat) (name : LuaString) (z : Zio)
    (h : z.content.length < calls) :
    outcome ((luaUUndump L calls name).run z) ≠ .error .stackOverflow := by
  have hwithin : Suffices z.content.length 0 (luaUUndump L calls name) :=
    within_header.seq (fun _ => (within_function calls _ h).seq (fun _ => within_pure _))
  exact (hwithin z (Nat.le_refl _)).1

/-! ## What is loaded -/

section Yields

end Yields

end LuaAddons.Chunk
