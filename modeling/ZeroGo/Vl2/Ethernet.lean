import ZeroGo.Basic

/-!
Ethernet framing of package `vl2`: `ParseEthernetFrame` and the destination
classifiers the switch and the ARP proxy branch on, the `MACKey` map key and the
locally administered MAC `GenerateMAC` derives for a (network, node) pair.
-/

namespace ZeroGo.Vl2

def EthernetHeaderSize : Nat := 14
def MinFrameSize : Nat := EthernetHeaderSize
def MaxFrameSize : Nat := 9000

def EtherTypeIPv4 : UInt16 := 0x0800
def EtherTypeARP : UInt16 := 0x0806
def EtherTypeIPv6 : UInt16 := 0x86DD
def EtherTypeVLAN : UInt16 := 0x8100

/-- A parsed frame; `payload` and `raw` are slices of the input. -/
structure EthernetFrame where
  dstMAC : List UInt8
  srcMAC : List UInt8
  etherType : UInt16
  payload : List UInt8
  raw : List UInt8
  deriving DecidableEq, Repr

def parseEthernetFrame (data : List UInt8) : Except String EthernetFrame :=
  if data.length < MinFrameSize then .error "frame too short"
  else .ok
    { dstMAC := data.take 6
      srcMAC := (data.drop 6).take 6
      etherType := UInt16.ofNat (uintBE ((data.drop 12).take 2))
      payload := data.drop EthernetHeaderSize
      raw := data }

namespace EthernetFrame

/-- `IsBroadcast`: the all-ones destination. -/
def isBroadcast (f : EthernetFrame) : Bool :=
  (List.range 6).all fun i => f.dstMAC.getD i 0 == 0xff

/-- `IsMulticast`: the group bit of the first destination byte. -/
def isMulticast (f : EthernetFrame) : Bool := f.dstMAC.getD 0 0 &&& 0x01 != 0

def isUnicast (f : EthernetFrame) : Bool := !f.isMulticast

def isARP (f : EthernetFrame) : Bool := f.etherType == EtherTypeARP

end EthernetFrame

/-- `MACKey`, a `[6]byte` usable as a map key. -/
abbrev MACKey := FixedBytes 6

/-- `MACToKey`: copies the first six bytes, zero-padding a shorter slice. -/
def macToKey (mac : List UInt8) : MACKey := FixedBytes.ofList 6 mac

/-- `GenerateMAC`: `02` followed by the low 16 bits of the network ID and the first
three bytes of the node address. -/
def generateMAC (networkID : UInt32) (nodeAddr : Address) : List UInt8 :=
  let netIDBytes := putUintBE 4 networkID.toNat
  [0x02, netIDBytes.getD 2 0, netIDBytes.getD 3 0, nodeAddr.b0, nodeAddr.b1, nodeAddr.b2]

theorem parseEthernetFrame_ok_iff (data : List UInt8) :
    (∃ f, parseEthernetFrame data = .ok f) ↔ MinFrameSize ≤ data.length := by
  unfold parseEthernetFrame
  split <;> simp_all [MinFrameSize, EthernetHeaderSize]

theorem parseEthernetFrame_raw {data : List UInt8} {f : EthernetFrame}
    (h : parseEthernetFrame data = .ok f) : f.raw = data := by
  unfold parseEthernetFrame at h
  split at h <;> cases h
  rfl

theorem parseEthernetFrame_short {data : List UInt8} (h : data.length < MinFrameSize) :
    parseEthernetFrame data = .error "frame too short" :=
  if_pos h

theorem parseEthernetFrame_of_le {data : List UInt8} (h : MinFrameSize ≤ data.length) :
    ∃ f, parseEthernetFrame data = .ok f ∧ f.srcMAC = (data.drop 6).take 6 ∧
      f.dstMAC = data.take 6 ∧ f.raw = data := by
  unfold parseEthernetFrame
  rw [if_neg (by omega)]
  exact ⟨_, rfl, rfl, rfl, rfl⟩

theorem EthernetFrame.isMulticast_of_isBroadcast {f : EthernetFrame} (h : f.isBroadcast) :
    f.isMulticast := by
  simp only [isBroadcast, List.all_eq_true, List.mem_range, beq_iff_eq] at h
  simp only [isMulticast, h 0 (by omega)]
  decide

end ZeroGo.Vl2
