import LuaAddons.Hooks

/-!
# Packets on their way to Lua

The server keeps packets back to back in its buffers. `OnNetSendBytes` cuts out the packet at
the offset it is given, `OnNetGetData` takes as many bytes as the packet has from the start of
the buffer. So the second hands over the right packet exactly if the packet is the first one of
the buffer or equal to it (`netHooks_exact_iff`).

The bytes then become a .NET string (`GetRawString`) and are pushed into Lua with the length of
that string. They arrive unchanged exactly if the string has as many UTF-16 units as there are
bytes, which a code page with one unit for each byte guarantees (`rawBytes_unchanged_iff`).
-/

namespace LuaAddons

/-! ## Packets in a buffer -/

/-- A packet: its total length in two bytes, the message id and the payload. -/
structure Packet where
  low : UInt8
  high : UInt8
  msgId : UInt8
  payload : List UInt8
  total : low.toNat + 256 * high.toNat = payload.length + 3

def Packet.bytes (p : Packet) : List UInt8 := p.low :: p.high :: p.msgId :: p.payload

@[simp] theorem Packet.length_bytes (p : Packet) : p.bytes.length = p.payload.length + 3 := by
  simp [bytes]

theorem Packet.third_byte (p : Packet) : p.bytes[2]? = some p.msgId := rfl

/-- A packet carries its own length, so a packet at the start of some bytes is determined. -/
theorem Packet.bytes_inj_of_prefix {p q : Packet} {l : List UInt8} (hp : p.bytes <+: l)
    (hq : q.bytes <+: l) : p.bytes = q.bytes := by
  have hlength : p.bytes.length = q.bytes.length := by
    obtain ⟨u, rfl⟩ := hp
    obtain ⟨v, hv⟩ := hq
    simp only [bytes, List.cons_append, List.cons.injEq] at hv
    have htp := p.total
    have htq := q.total
    rw [hv.1, hv.2.1] at htq
    rw [p.length_bytes, q.length_bytes]
    omega
  exact List.IsPrefix.eq_of_length (List.prefix_of_prefix_length_le hp hq hlength.le) hlength

/-- The bytes of packets that stand back to back. -/
def packetsBytes (packets : List Packet) : List UInt8 := packets.flatMap Packet.bytes

/-! ## The two slices -/

/-- The array that `OnNetGetData` builds. -/
def getDataBytes (readBuffer : List UInt8) (length : Int) : List UInt8 :=
  readBuffer.take (length + 2).toNat

/-- The array that `OnNetSendBytes` builds. -/
def sendBytesBytes (buffer : List UInt8) (offset count : Nat) : List UInt8 :=
  (buffer.drop offset).take count

theorem getDataArgs_eq (P : Platform) (whoAmI : Int) (msgId : UInt8) (readBuffer : List UInt8)
    (length : Int) : getDataArgs P whoAmI msgId readBuffer length =
      packetArgs P whoAmI msgId.toNat (getDataBytes readBuffer length).length
        (getDataBytes readBuffer length) := rfl

theorem sendBytesArgs_eq (P : Platform) (whoAmI : Int) (buffer : List UInt8)
    (offset count : Nat) {msgId : UInt8}
    (h : (sendBytesBytes buffer offset count)[2]? = some msgId) :
    sendBytesArgs P whoAmI buffer offset count =
      .ok (packetArgs P whoAmI msgId.toNat count (sendBytesBytes buffer offset count)) := by
  unfold sendBytesBytes at h
  simp only [sendBytesArgs, h]
  rfl

/-- What `TerrariaServer` passes to `NetGetData`. -/
structure GetDataEventArgs where
  msgId : UInt8
  whoAmI : Int
  readBuffer : List UInt8
  /-- The offset of the first byte of the payload. -/
  index : Nat
  /-- The length of the id and the payload. -/
  length : Nat

/-- The arguments for the packet `p` behind the packets `before` in a buffer. -/
def GetDataEventArgs.at (whoAmI : Int) (before : List Packet) (p : Packet) (rest : List UInt8) :
    GetDataEventArgs where
  msgId := p.msgId
  whoAmI := whoAmI
  readBuffer := packetsBytes before ++ p.bytes ++ rest
  index := (packetsBytes before).length + 3
  length := p.payload.length + 1

/-- The packet stands in the buffer where the arguments say. -/
theorem GetDataEventArgs.at_index (whoAmI : Int) (before : List Packet) (p : Packet)
    (rest : List UInt8) :
    let e := GetDataEventArgs.at whoAmI before p rest
    (e.readBuffer.drop (e.index - 3)).take (e.length + 2) = p.bytes := by
  simp [GetDataEventArgs.at, List.append_assoc]

/-- The first packet of the buffer has the bytes of `p`. -/
def FirstIs (before : List Packet) (p : Packet) : Prop :=
  ∀ q ∈ before.head?, q.bytes = p.bytes

theorem getDataBytes_at_iff (whoAmI : Int) (before : List Packet) (p : Packet)
    (rest : List UInt8) :
    getDataBytes (GetDataEventArgs.at whoAmI before p rest).readBuffer
        (GetDataEventArgs.at whoAmI before p rest).length = p.bytes ↔ FirstIs before p := by
  have hlength : (((p.payload.length + 1 : Nat) : Int) + 2).toNat = p.bytes.length := by
    rw [p.length_bytes]
    omega
  have htake : getDataBytes (GetDataEventArgs.at whoAmI before p rest).readBuffer
      (GetDataEventArgs.at whoAmI before p rest).length =
        (packetsBytes before ++ p.bytes ++ rest).take p.bytes.length := by
    rw [← hlength]
    rfl
  rw [htake]
  cases before with
  | nil => simp [FirstIs, packetsBytes]
  | cons q before =>
    have hq : q.bytes <+: packetsBytes (q :: before) ++ p.bytes ++ rest := by
      simp [packetsBytes, List.append_assoc]
    constructor
    · intro h r hr
      cases hr
      exact Packet.bytes_inj_of_prefix hq (List.prefix_iff_eq_take.mpr h.symm)
    · intro h
      have hqp : q.bytes = p.bytes := h q rfl
      have hfirst := List.prefix_iff_eq_take.mp hq
      rw [hqp] at hfirst
      exact hfirst.symm

/-- **What the hooks about packets hand over.** For every packet in a receive buffer, the array
of `OnNetGetData` is that packet and the size its length exactly if the first packet of the
buffer has the same bytes. For every packet in a send buffer, the arguments of `OnNetSendBytes`
are that packet, its length and its id. -/
theorem netHooks_exact_iff (P : Platform) (whoAmI : Int) (p : Packet) (rest : List UInt8) :
    (∀ before : List Packet,
      let e := GetDataEventArgs.at whoAmI before p rest
      (getDataBytes e.readBuffer e.length = p.bytes ∧
        getDataArgs P e.whoAmI e.msgId e.readBuffer e.length =
          packetArgs P whoAmI p.msgId.toNat p.bytes.length p.bytes) ↔ FirstIs before p) ∧
    ∀ before : List UInt8,
      sendBytesBytes (before ++ p.bytes ++ rest) before.length p.bytes.length = p.bytes ∧
        sendBytesArgs P whoAmI (before ++ p.bytes ++ rest) before.length p.bytes.length =
          .ok (packetArgs P whoAmI p.msgId.toNat p.bytes.length p.bytes) := by
  refine ⟨fun before => ?_, fun before => ?_⟩
  · intro e
    rw [← getDataBytes_at_iff whoAmI before p rest]
    constructor
    · exact fun h => h.1
    · intro h
      refine ⟨h, ?_⟩
      rw [getDataArgs_eq, h]
      rfl
  · have hbytes : sendBytesBytes (before ++ p.bytes ++ rest) before.length p.bytes.length =
        p.bytes := by
      simp [sendBytesBytes, List.append_assoc]
    refine ⟨hbytes, ?_⟩
    have hid : (sendBytesBytes (before ++ p.bytes ++ rest) before.length p.bytes.length)[2]? =
        some p.msgId := by
      rw [hbytes]
      exact p.third_byte
    rw [sendBytesArgs_eq P whoAmI _ _ _ hid, hbytes]

/-- A packet without payload. -/
def emptyPacket (msgId : UInt8) : Packet where
  low := 3
  high := 0
  msgId := msgId
  payload := []
  total := rfl

/-- Of two packets in a buffer, `OnNetGetData` hands over the first when it gets the second. -/
theorem second_packet_not_handed_over :
    let e := GetDataEventArgs.at 0 [emptyPacket 1] (emptyPacket 2) []
    getDataBytes e.readBuffer e.length = (emptyPacket 1).bytes ∧
      (emptyPacket 1).bytes ≠ (emptyPacket 2).bytes := by decide

/-! ## Raw strings -/

/-- The conversions of the ANSI code page between bytes and UTF-16. -/
structure CodePage where
  /-- `Marshal.PtrToStringAnsi` with a length. -/
  decode : List UInt8 → List UInt16
  /-- `CharSet.Ansi` marshalling. -/
  encode : List UInt16 → List UInt8

/-- `ByteArrayExtensions.GetRawString`. -/
def getRawString (page : CodePage) (data : List UInt8) : List UInt16 := page.decode data

/-- The memory behind the pointer that a marshalled string becomes: its bytes, a zero, and
whatever stands behind them. -/
def marshalled (page : CodePage) (str : List UInt16) (beyond : Nat → UInt8) (i : Nat) : UInt8 :=
  (page.encode str ++ [0]).getD i (beyond i)

/-- `luanet_pushlstring`: the Lua string with the bytes at `s`. -/
def luanetPushLString (s : Nat → UInt8) (len : Nat) : LuaString := (List.range len).map s

/-- The case of `ObjectTranslator.Push` for strings. -/
def pushString (page : CodePage) (beyond : Nat → UInt8) (str : List UInt16) : LuaString :=
  luanetPushLString (marshalled page str beyond) str.length

theorem length_pushString (page : CodePage) (beyond : Nat → UInt8) (str : List UInt16) :
    (pushString page beyond str).length = str.length := by
  simp [pushString, luanetPushLString]

/-- A string with as many units as the code page makes bytes of it is pushed as these bytes. -/
theorem pushString_eq_encode {page : CodePage} {beyond : Nat → UInt8} {str : List UInt16}
    (h : str.length = (page.encode str).length) : pushString page beyond str = page.encode str := by
  apply List.ext_getElem
  · rw [length_pushString, h]
  · intro i h₁ h₂
    simp only [pushString, luanetPushLString, List.getElem_map, List.getElem_range]
    rw [marshalled, List.getD_eq_getElem?_getD, List.getElem?_append_left h₂,
      List.getElem?_eq_getElem h₂]
    rfl

/-- **Raw bytes in Lua.** For every code page and all bytes that survive the way to UTF-16 and
back: the Lua string has exactly these bytes, and the length passed beside it, exactly if the
string in between has as many units as there are bytes. -/
theorem rawBytes_unchanged_iff (page : CodePage) (beyond : Nat → UInt8) (data : List UInt8)
    (h : page.encode (page.decode data) = data) :
    (pushString page beyond (getRawString page data) = data ∧
      (pushString page beyond (getRawString page data)).length = data.length) ↔
        (page.decode data).length = data.length := by
  constructor
  · rintro ⟨-, hlength⟩
    rwa [length_pushString] at hlength
  · intro hlength
    have hencode : pushString page beyond (getRawString page data) =
        page.encode (page.decode data) := by
      apply pushString_eq_encode
      rw [getRawString, h, hlength]
    rw [hencode, h]
    exact ⟨rfl, rfl⟩

/-- A code page of single bytes: Latin-1. -/
def latin1 : CodePage where
  decode data := data.map (fun b => UInt16.ofNat b.toNat)
  encode str := str.map (fun u => UInt8.ofNat u.toNat)

/-- A packet with zero bytes on a single-byte code page. -/
theorem latin1_unchanged :
    pushString latin1 (fun _ => 0) (getRawString latin1 [3, 0, 200]) = [3, 0, 200] :=
  ((rawBytes_unchanged_iff latin1 (fun _ => 0) [3, 0, 200] (by decide)).mpr (by decide)).1

def shiftJisDecode : List UInt8 → List UInt16
  | [] => []
  | [b] => [UInt16.ofNat b.toNat]
  | b :: c :: data =>
    if b = 0x82 then UInt16.ofNat (c.toNat - 0x9F + 0x3041) :: shiftJisDecode data
    else UInt16.ofNat b.toNat :: shiftJisDecode (c :: data)

/-- The part of Shift JIS with ASCII and the hiragana in the row `82`. -/
def shiftJis : CodePage where
  decode := shiftJisDecode
  encode str := str.flatMap (fun u => if u < 0x80 then [UInt8.ofNat u.toNat]
    else [0x82, UInt8.ofNat (u.toNat - 0x3041 + 0x9F)])

/-- The character of the two bytes `82 A0` is one unit, so Lua gets the first byte alone. -/
theorem shiftJis_cut :
    shiftJis.encode (shiftJis.decode [0x82, 0xA0]) = [0x82, 0xA0] ∧
      ∀ beyond, pushString shiftJis beyond (getRawString shiftJis [0x82, 0xA0]) = [0x82] := by
  refine ⟨by decide, ?_⟩
  intro beyond
  have hlength : (shiftJis.decode [0x82, 0xA0]).length = 1 := by decide
  rw [pushString, getRawString, hlength]
  rfl

end LuaAddons
