import LuaAddons.Lib.Binary64
import LuaAddons.Platform
import LuaAddons.TableTraversal

/-!
# Sending a table as a packet

`lua_SendPacket` and `lua_SendPacketToAll` take the values of a Lua table through
`LuaTable.Values`: `GetTableDict` copies the table into a dictionary in the order of `lua_next`,
and each value becomes a byte of the packet.

The bytes of the array part are in the order of the indices. Those of the nodes are in the order
of the nodes, so the packet is `t[1], ..., t[n]` exactly when the nodes hold what is missing in
that order (`sendsInOrder_iff`).
-/

namespace LuaAddons

/-! ## Lua values as keys -/

/-- `arrayindex` of a number. -/
def arrayIndexOf (bits : UInt64) : Nat :=
  match Binary64.toNat? bits with
  | some n => if n ≤ maxInt then n else 0
  | none => 0

theorem arrayIndexOf_ofNat (n : Nat) :
    arrayIndexOf (Binary64.ofNat n) = if n ≤ maxInt then n else 0 := by
  rw [arrayIndexOf]
  by_cases hlt : n < 2 ^ 53
  · rw [Binary64.toNat?_ofNat hlt]
  · rw [Binary64.toNat?_ofNat_of_le (not_lt.mp hlt), if_neg]
    rw [maxInt]
    omega

theorem ofNat_arrayIndexOf {bits : UInt64} (hpos : 0 < arrayIndexOf bits) :
    Binary64.ofNat (arrayIndexOf bits) = bits := by
  rw [arrayIndexOf] at hpos ⊢
  split at hpos
  · rename_i n hn
    split at hpos
    · rw [if_pos ‹_›]
      exact Binary64.ofNat_of_toNat? hn
    · omega
  · omega

/-- Keys are Lua values, a zero without its sign. The hash of a string depends on the seed of the
state, that of an object on its address, that of a number on the platform. -/
def luaKeys (hash : LuaValue → Nat) : KeyType LuaValue where
  arrayindex
    | .number bits => arrayIndexOf bits
    | _ => 0
  ofIndex n := .number (Binary64.ofNat n)
  hash := hash
  pow2
    | .string _ => true
    | .boolean _ => true
    | _ => false
  collectable
    | .string _ => true
    | .table _ => true
    | .function _ => true
    | .userdata _ => true
    | .object _ => true
    | .thread _ => true
    | _ => false
  valid v := v ≠ .nil ∧ ¬ v.isNaN
  arrayindex_ofIndex n _ hle := by
    show arrayIndexOf (Binary64.ofNat n) = n
    rw [arrayIndexOf_ofNat, if_pos hle]
  ofIndex_arrayindex k hpos := by
    cases k with
    | number bits => exact congrArg LuaValue.number (ofNat_arrayIndexOf hpos)
    | _ => cases hpos

/-! ## From the table to the packet -/

/-- `Dictionary<object, object>`, its values come in the order in which their keys were added. -/
abbrev NetDictionary := List (NetObject × NetObject)

/-- `dict[key] = value`. -/
def NetDictionary.set (dict : NetDictionary) (key value : NetObject) : NetDictionary :=
  if key ∈ dict.map Prod.fst then dict.map (fun e => if e.1 = key then (key, value) else e)
  else dict ++ [(key, value)]

abbrev LuaHashTable := Table LuaValue LuaValue

section SendPacket

variable (P : Platform) (M : KeyType LuaValue)

/-- The loop of `GetTableDict`, `none` when it has not ended after `fuel` steps. -/
def getTableDictFrom (t : LuaHashTable) :
    Nat → Option LuaValue → NetDictionary → Option (Except NetException NetDictionary)
  | 0, _, _ => none
  | fuel + 1, key, dict =>
    match t.next M key with
    | none => some (.error .luaPanic)
    | some none => some (.ok dict)
    | some (some e) =>
      if P.getObject e.1 = .null then some (.error (.exception "Value cannot be null."))
      else getTableDictFrom t fuel (some e.1) (dict.set (P.getObject e.1) (P.getObject e.2))

/-- `Lua.GetTableDict`. -/
def getTableDict (fuel : Nat) (t : LuaHashTable) : Option (Except NetException NetDictionary) :=
  getTableDictFrom P M t fuel none []

/-- `(byte)b`. Outside of 0 to 255 the language leaves the byte open. -/
def castByte (bits : UInt64) : UInt8 := .ofNat (Binary64.trunc bits)

/-- The element of `Cast<double>()` as a byte. -/
def byteOf : NetObject → Except NetException UInt8
  | .number bits => .ok (castByte bits)
  | .null => .error .nullReference
  | _ => .error (.exception "InvalidCast")

/-- The array that `lua_SendPacket` and `lua_SendPacketToAll` build from `packet.Values`. -/
def packetData (fuel : Nat) (t : LuaHashTable) : Option (Except NetException (List UInt8)) :=
  (getTableDict P M fuel t).map (fun r => do
    let dict ← r
    (dict.map Prod.snd).mapM byteOf)

inductive PacketTarget where
  | server
  | player (i : Nat)
  | all
  deriving DecidableEq

/-- The player that `lua_SendPacket` sends to, if there is one; -1 is the server. `players` tells
which slots have a player. -/
def addressee (players : List Bool) (player : Int) : Except NetException (Option PacketTarget) :=
  if player = -1 then .ok (some .server)
  else if player < 0 then .error .indexOutOfRange
  else
    match players[player.toNat]? with
    | none => .error .indexOutOfRange
    | some true => .ok (some (.player player.toNat))
    | some false => .ok none

/-- `lua_SendPacket`: what is sent. -/
def luaSendPacket (fuel : Nat) (players : List Bool) (player : Int) (t : LuaHashTable) :
    Option (Except NetException (Option (PacketTarget × List UInt8))) :=
  (packetData P M fuel t).map (fun r => do
    let data ← r
    let target ← addressee players player
    pure (target.map (fun target => (target, data))))

/-- `lua_SendPacketToAll`. -/
def luaSendPacketToAll (fuel : Nat) (t : LuaHashTable) :
    Option (Except NetException (PacketTarget × List UInt8)) :=
  (packetData P M fuel t).map (fun r => do
    let data ← r
    pure (.all, data))

end SendPacket

/-! ## What a traversal sends -/

/-- The value of a byte in Lua. -/
def byteValue (b : UInt8) : LuaValue := .number (Binary64.ofNat b.toNat)

def LuaValue.toByte : LuaValue → UInt8
  | .number bits => castByte bits
  | _ => 0

theorem toByte_byteValue (b : UInt8) : (byteValue b).toByte = b := by
  have hlt : b.toNat < 2 ^ 53 := b.toNat_lt.trans (by decide)
  show UInt8.ofNat (Binary64.trunc (Binary64.ofNat b.toNat)) = b
  rw [Binary64.trunc_ofNat hlt]
  exact UInt8.ofNat_toNat

/-- The keys of the table are exactly `1, ..., n` and its values are the bytes. -/
def IsPacket (M : KeyType LuaValue) (t : LuaHashTable) (bytes : List UInt8) : Prop :=
  ∀ k v, t.rawGet M k = some v ↔
    ∃ i b, bytes[i]? = some b ∧ k = M.ofIndex (i + 1) ∧ v = byteValue b

section Traversal

variable {P : Platform} {hash : LuaValue → Nat} {t : LuaHashTable} {bytes : List UInt8}

/-- The dictionary gets the elements in the order of the traversal, as long as the keys are
numbers; one step more than there are elements is enough. -/
theorem getTableDictFrom_eq (h : t.WellFormed (luaKeys hash)) :
    ∀ (fuel i : Nat) (key : Option LuaValue) (dict : NetDictionary),
      t.findindex (luaKeys hash) key = some i →
      (∀ e ∈ t.elementsFrom (luaKeys hash) i, ∃ bits, e.1 = .number bits) →
      (∀ e ∈ t.elementsFrom (luaKeys hash) i, P.getObject e.1 ∉ dict.map Prod.fst) →
      getTableDictFrom P (luaKeys hash) t fuel key dict =
        if (t.elementsFrom (luaKeys hash) i).length < fuel then
          some (.ok (dict ++ (t.elementsFrom (luaKeys hash) i).map
            (fun e => (P.getObject e.1, P.getObject e.2))))
        else none := by
  intro fuel
  induction fuel with
  | zero =>
    intro i key dict _ _ _
    rw [if_neg (Nat.not_lt_zero _)]
    rfl
  | succ fuel ih =>
    intro i key dict hkey hnumbers hnew
    rw [getTableDictFrom, Table.next_eq hkey]
    cases hrest : t.elementsFrom (luaKeys hash) i with
    | nil => simp
    | cons e rest =>
      obtain ⟨j, hj, hbehind⟩ := Table.elementsFrom_eq_cons hrest
      have hne := Table.elementsFrom_ne h hrest
      have hmem : e ∈ t.elementsFrom (luaKeys hash) i := by
        rw [hrest]
        exact List.mem_cons_self
      have hmemRest (e' : LuaValue × LuaValue) (he' : e' ∈ rest) :
          e' ∈ t.elementsFrom (luaKeys hash) i := by
        rw [hrest]
        exact List.mem_cons_of_mem _ he'
      obtain ⟨bits, hbits⟩ := hnumbers e hmem
      have hobject : P.getObject e.1 = .number bits := by rw [hbits]; rfl
      have hnotnull : P.getObject e.1 ≠ .null := by
        rw [hobject]
        exact fun hnull => by cases hnull
      have hset : NetDictionary.set dict (P.getObject e.1) (P.getObject e.2) =
          dict ++ [(P.getObject e.1, P.getObject e.2)] := by
        rw [NetDictionary.set, if_neg (hnew e hmem)]
      have hnext : t.findindex (luaKeys hash) (some e.1) = some (j + 1) :=
        Table.findindex_of_elementAt h (by rw [hbits]; rfl) hj
      have hfresh : ∀ e' ∈ t.elementsFrom (luaKeys hash) (j + 1),
          P.getObject e'.1 ∉ (dict ++ [(P.getObject e.1, P.getObject e.2)]).map Prod.fst := by
        intro e' he'
        rw [← hbehind] at he'
        rw [List.map_append, List.mem_append, not_or]
        refine ⟨hnew e' (hmemRest e' he'), ?_⟩
        obtain ⟨bits', hbits'⟩ := hnumbers e' (hmemRest e' he')
        intro heq
        have hobjects : P.getObject e'.1 = P.getObject e.1 := List.mem_singleton.mp heq
        rw [hobject, hbits'] at hobjects
        cases hobjects
        exact hne e' he' (hbits'.trans hbits.symm)
      rw [hbehind] at hmemRest
      have hrun := ih (j + 1) (some e.1) _ hnext
        (fun e' he' => hnumbers e' (hmemRest e' he')) hfresh
      simp only [List.head?_cons, if_neg hnotnull, hset]
      rw [hrun, hbehind, List.length_cons, List.map_cons, List.append_assoc]
      simp only [Nat.add_lt_add_iff_right, List.singleton_append]

theorem mapM_byteOf {values : List LuaValue} (h : ∀ v ∈ values, ∃ bits, v = .number bits) :
    (values.map P.getObject).mapM byteOf = .ok (values.map LuaValue.toByte) := by
  induction values with
  | nil => rfl
  | cons v values ih =>
    obtain ⟨bits, rfl⟩ := h v List.mem_cons_self
    rw [List.map_cons, List.mapM_cons, ih fun v hv => h v (List.mem_cons_of_mem _ hv)]
    rfl

/-- The bytes in the order of the traversal. -/
def traversalBytes (M : KeyType LuaValue) (t : LuaHashTable) : List UInt8 :=
  (t.elements M).map (fun e => e.2.toByte)

theorem packetData_eq (h : t.WellFormed (luaKeys hash)) (hpacket : IsPacket (luaKeys hash) t bytes)
    (fuel : Nat) :
    packetData P (luaKeys hash) fuel t =
      if (t.elements (luaKeys hash)).length < fuel then
        some (.ok (traversalBytes (luaKeys hash) t))
      else none := by
  have hnumbers : ∀ e ∈ t.elements (luaKeys hash),
      (∃ bits, e.1 = .number bits) ∧ ∃ bits, e.2 = .number bits := by
    intro e he
    obtain ⟨i, b, _, hk, hv⟩ := (hpacket e.1 e.2).mp ((Table.mem_elements h).mp he)
    exact ⟨⟨_, hk⟩, ⟨_, hv⟩⟩
  have hdict := getTableDictFrom_eq (P := P) h fuel 0 none [] rfl
    (fun e he => (hnumbers e he).1) (fun _ _ hmem => by cases hmem)
  rw [packetData, getTableDict, hdict]
  show Option.map _ (if (t.elements (luaKeys hash)).length < fuel then _ else _) = _
  split
  · have hvalues : ∀ v ∈ (t.elements (luaKeys hash)).map Prod.snd, ∃ bits, v = .number bits := by
      intro v hv
      obtain ⟨e, he, rfl⟩ := List.mem_map.mp hv
      exact (hnumbers e he).2
    have hbytes := mapM_byteOf (P := P) hvalues
    rw [List.map_map, List.map_map] at hbytes
    show some ((([] ++ (t.elements (luaKeys hash)).map _).map Prod.snd).mapM byteOf) = _
    rw [List.nil_append, List.map_map]
    exact congrArg some hbytes
  · rfl

/-- The array part holds the first bytes, in order. -/
theorem array_eq (h : t.WellFormed (luaKeys hash)) (hpacket : IsPacket (luaKeys hash) t bytes)
    {i : Nat} (hi : i < t.sizearray) : t.array (i + 1) = (bytes[i]?).map byteValue := by
  have hsize := h.sizearray_le
  have hindex : (luaKeys hash).arrayindex ((luaKeys hash).ofIndex (i + 1)) = i + 1 :=
    (luaKeys hash).arrayindex_ofIndex _ (by omega) (by omega)
  have hget : t.rawGet (luaKeys hash) ((luaKeys hash).ofIndex (i + 1)) = t.array (i + 1) := by
    rw [Table.rawGet, Table.get, if_pos ⟨by omega, by omega⟩, hindex]
    rfl
  cases hb : bytes[i]? with
  | some b => exact hget ▸ (hpacket _ _).mpr ⟨i, b, hb, rfl, rfl⟩
  | none =>
    cases harray : t.array (i + 1) with
    | none => rfl
    | some v =>
      obtain ⟨i', b, hb', hk, _⟩ := (hpacket _ v).mp (hget.trans harray)
      have hindex' : (luaKeys hash).arrayindex ((luaKeys hash).ofIndex (i' + 1)) =
          if i' + 1 ≤ maxInt then i' + 1 else 0 := arrayIndexOf_ofNat (i' + 1)
      rw [← hk, hindex] at hindex'
      have heq : i = i' := by
        split at hindex' <;> omega
      rw [heq, hb'] at hb
      cases hb

theorem filterMap_getElem? {α : Type} (l : List α) (m : Nat) :
    (List.range m).filterMap (fun i => l[i]?) = l.take m := by
  induction m with
  | zero => rfl
  | succ m ih =>
    rw [List.range_succ, List.filterMap_append, ih, List.take_add_one]
    simp only [List.filterMap_cons, List.filterMap_nil]
    cases l[m]? <;> rfl

/-- A traversal of a packet: the first bytes from the array, then the bytes of the nodes. -/
theorem traversalBytes_eq (h : t.WellFormed (luaKeys hash))
    (hpacket : IsPacket (luaKeys hash) t bytes) :
    traversalBytes (luaKeys hash) t =
      bytes.take t.sizearray ++ t.nodeValues.map LuaValue.toByte := by
  have harray : (List.range t.sizearray).filterMap (fun i => t.array (i + 1)) =
      (bytes.take t.sizearray).map byteValue := by
    rw [← filterMap_getElem?, List.map_filterMap]
    apply List.filterMap_congr
    intro i hi
    exact array_eq h hpacket (List.mem_range.mp hi)
  have hmap : traversalBytes (luaKeys hash) t =
      ((t.elements (luaKeys hash)).map Prod.snd).map LuaValue.toByte := by
    rw [List.map_map]
    rfl
  rw [hmap, Table.elements_values h, harray, List.map_append, List.map_map]
  have hbytes : LuaValue.toByte ∘ byteValue = id := funext toByte_byteValue
  rw [hbytes, List.map_id]

end Traversal

/-! ## Packets in order -/

/-- Both functions send exactly these bytes, to everybody they send to. -/
structure SendsInOrder (P : Platform) (M : KeyType LuaValue) (t : LuaHashTable)
    (bytes : List UInt8) : Prop where
  toAll : ∃ fuel, luaSendPacketToAll P M fuel t = some (.ok (.all, bytes))
  toOne : ∀ players player target, addressee players player = .ok (some target) →
    ∃ fuel, luaSendPacket P M fuel players player t = some (.ok (some (target, bytes)))

theorem sendsInOrder_of_packetData {P : Platform} {M : KeyType LuaValue} {t : LuaHashTable}
    {bytes : List UInt8} {fuel : Nat} (h : packetData P M fuel t = some (.ok bytes)) :
    SendsInOrder P M t bytes := by
  constructor
  · refine ⟨fuel, ?_⟩
    rw [luaSendPacketToAll, h]
    rfl
  · intro players player target htarget
    refine ⟨fuel, ?_⟩
    rw [luaSendPacket, h, Option.map_some]
    show some ((addressee players player).bind _) = _
    rw [htarget]
    rfl

/-- A packet that fits into the array part is in order. -/
theorem sendsInOrder_of_array {P : Platform} {hash : LuaValue → Nat} {t : LuaHashTable}
    {bytes : List UInt8} (h : t.WellFormed (luaKeys hash))
    (hpacket : IsPacket (luaKeys hash) t bytes) (hfits : bytes.length ≤ t.sizearray) :
    SendsInOrder P (luaKeys hash) t bytes := by
  have hnodes : t.nodeValues = [] := by
    rw [Table.nodeValues, List.filterMap_eq_nil_iff]
    intro j _
    cases hv : (t.node j).val with
    | none => rfl
    | some v =>
      obtain ⟨k, hk⟩ := h.live j (by rw [hv]; rfl)
      have hget : t.rawGet (luaKeys hash) k = some v := by
        rw [Table.rawGet, Table.get, if_neg (h.outside j k hk), h.findNode_eq_some hk]
        exact hv
      obtain ⟨i, b, hb, rfl, _⟩ := (hpacket k v).mp hget
      have hi : i < bytes.length := (List.getElem?_eq_some_iff.mp hb).1
      have hsize := h.sizearray_le
      have hindex := (luaKeys hash).arrayindex_ofIndex (i + 1) (by omega) (by omega)
      exact absurd ⟨by omega, by omega⟩ (h.outside j _ hk)
  apply sendsInOrder_of_packetData
  rw [packetData_eq h hpacket, if_pos (Nat.lt_succ_self _), traversalBytes_eq h hpacket, hnodes,
    List.take_of_length_le hfits, List.map_nil, List.append_nil]

theorem packetData_of_sendsInOrder {P : Platform} {M : KeyType LuaValue} {t : LuaHashTable}
    {bytes : List UInt8} (h : SendsInOrder P M t bytes) :
    ∃ fuel, packetData P M fuel t = some (.ok bytes) := by
  obtain ⟨fuel, hfuel⟩ := h.toAll
  refine ⟨fuel, ?_⟩
  rw [luaSendPacketToAll] at hfuel
  obtain ⟨r, hr, hdata⟩ := Option.map_eq_some_iff.mp hfuel
  cases r with
  | error e => cases hdata
  | ok data =>
    cases hdata
    exact hr

/-- The table of `{[a] = x, [b] = y}`: `OP_NEWTABLE` with room for two nodes, and two
assignments. -/
def twoNodes (M : KeyType LuaValue) (a : Nat) (x : UInt8) (b : Nat) (y : UInt8) : LuaHashTable :=
  let t := (Table.new.resize M 1 0 2).getD Table.new
  let t := (t.store M 1 (M.ofIndex a) (some (byteValue x))).getD t
  (t.store M 1 (M.ofIndex b) (some (byteValue y))).getD t

theorem reachable_twoNodes (M : KeyType LuaValue) (a : Nat) (x : UInt8) (b : Nat) (y : UInt8) :
    (twoNodes M a x b y).Reachable M :=
  ((Table.Reachable.resize .refl 1 0 2).store 1 _ _).store 1 _ _

/-- Any two elements with the keys 1 and 2 are a packet of two bytes. -/
theorem isPacket_of_elements {hash : LuaValue → Nat} {t : LuaHashTable} {x y : UInt8}
    (h : t.WellFormed (luaKeys hash))
    (helements : (t.elements (luaKeys hash)).Perm
      [(.number (Binary64.ofNat 1), byteValue x), (.number (Binary64.ofNat 2), byteValue y)]) :
    IsPacket (luaKeys hash) t [x, y] := by
  intro k v
  rw [← Table.mem_elements h, helements.mem_iff, List.mem_cons, List.mem_singleton]
  constructor
  · rintro (hkv | hkv)
    · cases hkv
      exact ⟨0, x, rfl, rfl, rfl⟩
    · cases hkv
      exact ⟨1, y, rfl, rfl, rfl⟩
  · rintro ⟨i, b, hb, rfl, rfl⟩
    cases i with
    | zero =>
      cases hb
      exact .inl rfl
    | succ i =>
      cases i with
      | zero =>
        cases hb
        exact .inr rfl
      | succ i => cases hb

/-- The packet of a reachable table is `t[1], ..., t[n]` exactly if its nodes, in their order,
hold the bytes behind the array part. -/
theorem sendsInOrder_iff (P : Platform) (hash : LuaValue → Nat) (t : LuaHashTable)
    (ht : t.Reachable (luaKeys hash)) (bytes : List UInt8)
    (hpacket : IsPacket (luaKeys hash) t bytes) :
    SendsInOrder P (luaKeys hash) t bytes ↔
      t.nodeValues.map LuaValue.toByte = bytes.drop t.sizearray := by
  have h := Table.wellFormed_of_reachable ht
  have hsplit := List.take_append_drop t.sizearray bytes
  constructor
  · intro hsends
    obtain ⟨fuel, hdata⟩ := packetData_of_sendsInOrder hsends
    rw [packetData_eq h hpacket] at hdata
    split at hdata
    · have heq := Except.ok.inj (Option.some.inj hdata)
      rw [traversalBytes_eq h hpacket] at heq
      exact List.append_cancel_left (heq.trans hsplit.symm)
    · cases hdata
  · intro hnodes
    apply sendsInOrder_of_packetData
    rw [packetData_eq h hpacket, if_pos (Nat.lt_succ_self _), traversalBytes_eq h hpacket, hnodes,
      hsplit]

theorem ascending_constructor_in_order :
    SendsInOrder asciiPlatform (luaKeys fun _ => 0) (twoNodes (luaKeys fun _ => 0) 1 10 2 20)
      [10, 20] := by
  have ht := reachable_twoNodes (luaKeys fun _ => 0) 1 10 2 20
  refine (sendsInOrder_iff asciiPlatform _ _ ht [10, 20] ?_).mpr (by decide +kernel)
  exact isPacket_of_elements (Table.wellFormed_of_reachable ht) (by decide +kernel)

/-- `SendPacket(-1, {[2] = 20, [1] = 10})` sends the second byte first. -/
theorem descending_constructor_not_in_order :
    (twoNodes (luaKeys fun _ => 0) 2 20 1 10).Reachable (luaKeys fun _ => 0) ∧
      IsPacket (luaKeys fun _ => 0) (twoNodes (luaKeys fun _ => 0) 2 20 1 10) [10, 20] ∧
      ¬ SendsInOrder asciiPlatform (luaKeys fun _ => 0)
        (twoNodes (luaKeys fun _ => 0) 2 20 1 10) [10, 20] := by
  have ht := reachable_twoNodes (luaKeys fun _ => 0) 2 20 1 10
  have h := Table.wellFormed_of_reachable ht
  have hpacket : IsPacket (luaKeys fun _ => 0) (twoNodes (luaKeys fun _ => 0) 2 20 1 10)
      [10, 20] := isPacket_of_elements h (by decide +kernel)
  refine ⟨ht, hpacket, fun hsends => ?_⟩
  obtain ⟨fuel, hdata⟩ := packetData_of_sendsInOrder hsends
  rw [packetData_eq h hpacket] at hdata
  split at hdata
  · have heq := Except.ok.inj (Option.some.inj hdata)
    have hsecond : traversalBytes (luaKeys fun _ => 0) (twoNodes (luaKeys fun _ => 0) 2 20 1 10) =
        [20, 10] := by decide +kernel
    rw [hsecond] at heq
    cases heq
  · cases hdata

end LuaAddons
