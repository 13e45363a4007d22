import ZeroGo.Basic

/-!
The VL1 datagram framing of `vl1/packet.go`: an 8-byte big-endian header (version,
type, network ID, reserved) followed by the payload. `DecodePacket` accepts exactly
the byte strings of at least eight bytes whose first byte is the current version,
and the codec is a bijection between those strings and the packets of version 1.
-/

namespace ZeroGo.Vl1

def HeaderSize : Nat := 8

/-- `Version`, the only header version `DecodeHeader` accepts. -/
def Version : UInt8 := 1

/-- `PacketType` values; any other byte is an unknown type. -/
def PacketTypeData : UInt8 := 0x01
def PacketTypeControl : UInt8 := 0x02
def PacketTypeKeepalive : UInt8 := 0x03
def PacketTypeHandshake : UInt8 := 0x04

structure Header where
  version : UInt8
  type : UInt8
  networkID : UInt32
  reserved : UInt16
  deriving DecidableEq, Repr

def Header.encode (h : Header) : List UInt8 :=
  [h.version, h.type] ++ putUintBE 4 h.networkID.toNat ++ putUintBE 2 h.reserved.toNat

/-- The two errors of `DecodeHeader`; a wrong version still carries the parsed header. -/
inductive DecodeError where
  | tooShort
  | unsupportedVersion (h : Header)
  deriving DecidableEq, Repr

def DecodeError.message : DecodeError → String
  | .tooShort => "packet too short for header"
  | .unsupportedVersion h => "unsupported version: " ++ toString h.version

def decodeHeader (buf : List UInt8) : Except DecodeError Header :=
  if buf.length < HeaderSize then .error .tooShort
  else
    let h : Header :=
      { version := buf.getD 0 0
        type := buf.getD 1 0
        networkID := UInt32.ofNat (uintBE ((buf.drop 2).take 4))
        reserved := UInt16.ofNat (uintBE ((buf.drop 6).take 2)) }
    if h.version ≠ Version then .error (.unsupportedVersion h) else .ok h

structure Packet where
  header : Header
  payload : List UInt8
  deriving DecidableEq, Repr

def Packet.encode (p : Packet) : List UInt8 := p.header.encode ++ p.payload

def decodePacket (data : List UInt8) : Except DecodeError Packet := do
  let hdr ← decodeHeader data
  pure { header := hdr, payload := data.drop HeaderSize }

def newDataPacket (networkID : UInt32) (payload : List UInt8) : Packet :=
  ⟨⟨Version, PacketTypeData, networkID, 0⟩, payload⟩

def newKeepalivePacket : Packet := ⟨⟨Version, PacketTypeKeepalive, 0, 0⟩, []⟩

def newHandshakePacket (payload : List UInt8) : Packet :=
  ⟨⟨Version, PacketTypeHandshake, 0, 0⟩, payload⟩

@[simp] theorem length_header_encode (h : Header) : h.encode.length = HeaderSize := by
  simp [Header.encode, HeaderSize]

theorem decodeHeader_encode (h : Header) (rest : List UInt8) (hv : h.version = Version) :
    decodeHeader (h.encode ++ rest) = .ok h := by
  obtain ⟨v, t, n, r⟩ := h
  have e4 : (putUintBE 4 n.toNat ++ (putUintBE 2 r.toNat ++ rest)).take 4 = putUintBE 4 n.toNat :=
    List.take_left' (by simp)
  have e2 : ((putUintBE 4 n.toNat ++ (putUintBE 2 r.toNat ++ rest)).drop 4).take 2 =
      putUintBE 2 r.toNat := by
    rw [List.drop_left' (by simp), List.take_left' (by simp)]
  have hlen : ¬ (4 + (2 + rest.length) + 1 + 1 < 8) := by omega
  simp only at hv
  subst hv
  simp [decodeHeader, Header.encode, HeaderSize, e4, e2, hlen, uint32_ofNat_uintBE_putUintBE,
    uint16_ofNat_uintBE_putUintBE]

theorem decodePacket_ok_iff (b : List UInt8) :
    (∃ p, decodePacket b = .ok p) ↔ HeaderSize ≤ b.length ∧ b.head? = some Version := by
  match b with
  | [] => simp [decodePacket, decodeHeader, HeaderSize, bind, Except.bind]
  | v :: rest =>
      by_cases hl : rest.length + 1 < 8 <;> by_cases hv : v = Version <;>
        simp [decodePacket, decodeHeader, HeaderSize, hv, hl, bind, Except.bind, pure,
          Except.pure] <;> omega

theorem encode_of_decodePacket {b : List UInt8} {p : Packet} (h : decodePacket b = .ok p) :
    p.encode = b := by
  match b, h with
  | [], h | [_], h => simp [decodePacket, decodeHeader, HeaderSize, bind, Except.bind] at h
  | v :: t :: rest, h =>
      by_cases hl : rest.length + 2 < 8 <;> by_cases hv : v = Version <;>
        simp [decodePacket, decodeHeader, HeaderSize, hv, hl, bind, Except.bind, pure,
          Except.pure] at h
      subst h hv
      have hl4 : (rest.take 4).length = 4 := by simp; omega
      have hl2 : ((rest.drop 4).take 2).length = 2 := by simp; omega
      simp only [Packet.encode, Header.encode, putUintBE_uint32_ofNat_uintBE hl4,
        putUintBE_uint16_ofNat_uintBE hl2]
      rw [show rest.drop 6 = (rest.drop 4).drop 2 by simp [List.drop_drop]]
      simp only [List.append_assoc, List.take_append_drop, List.cons_append, List.nil_append]

theorem decodePacket_encode (p : Packet) (hv : p.header.version = Version) :
    decodePacket p.encode = .ok p := by
  simp [decodePacket, Packet.encode, decodeHeader_encode _ _ hv, bind, Except.bind, pure,
    Except.pure, HeaderSize]

/-- The datagram codec: `DecodePacket` succeeds exactly on strings of at least eight bytes
that start with the current version, re-encoding what it decodes gives the string back,
and it decodes every encoded packet of the current version to that packet. -/
theorem decodePacket_roundTrip :
    (∀ b : List UInt8,
      (∃ p, decodePacket b = .ok p) ↔ HeaderSize ≤ b.length ∧ b.head? = some Version) ∧
    (∀ b p, decodePacket b = .ok p → p.encode = b) ∧
    (∀ p : Packet, p.header.version = Version → decodePacket p.encode = .ok p) :=
  ⟨decodePacket_ok_iff, fun _ _ => encode_of_decodePacket, decodePacket_encode⟩

end ZeroGo.Vl1
