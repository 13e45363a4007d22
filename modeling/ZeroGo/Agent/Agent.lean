import ZeroGo.Vl1.Packet
import ZeroGo.Vl1.Peer
import ZeroGo.Vl2.Arp
import ZeroGo.Protocol

/-!
The agent of `agent/agent.go` as a state machine: the configuration, the peer table,
the network (switch and ARP proxy) once it exists, and what the agent has emitted: the
datagrams handed to the UDP socket, the frames written into the tap, every call of the
AEAD's `Seal`, with the peer whose cipher made it, and the phases of `addPeerFromInfo` the
controller client has still to run. Each loop body of the tap, UDP and maintenance goroutines
is one function of the state; the switch's `PeerSender` calls are carried out by
`SendToPeer` and `BroadcastToPeers` here.
-/

namespace ZeroGo

open Vl1 Vl2

/-- `PeerEndpoint`: a static peer of the configuration. -/
structure PeerEndpoint where
  publicKey : String
  address : String

/-- The fields of `Config` the modelled functions read or write. -/
structure Config where
  psk : Bytes32
  networkID : UInt32
  tapMTU : Nat
  staticPeers : List PeerEndpoint
  networks : List String

/-- A datagram handed to the UDP socket. -/
structure Datagram where
  dst : UDPAddr
  packet : Packet

/-- A call of `Seal` by `NoiseCipher.Encrypt`: the peer whose cipher sealed, the key and
the counter. -/
structure SealCall where
  peer : Address
  key : Bytes32
  counter : UInt64
  deriving DecidableEq

/-- A phase of an `addPeerFromInfo` call that the controller client has still to run: the
connected check of a roster entry, the `AddPeer` of an entry that passed it, and the
`SetCipher` and hello of an added entry. Each phase is its own critical section, so the other
goroutines can run between them. -/
inductive RosterStep where
  | check (info : PeerInfo) (psk : Bytes32)
  | add (pubKey : Bytes32) (endpoint : UDPAddr) (psk : Bytes32)
  | install (pubKey : Bytes32) (psk : Bytes32)

structure Agent where
  config : Config
  publicKey : Bytes32
  port : Nat
  peers : PeerManager
  network : Option Network
  tapUp : Bool
  sent : List Datagram
  tapWrites : List (List UInt8)
  seals : List SealCall
  pending : List RosterStep

variable (P : Primitives)

namespace Agent

/-- `identity.Address`. -/
def address (a : Agent) : Address := addressFromPublicKey P a.publicKey.bytes

/-- `Transport.SendPacket` to a peer's endpoint; a nil endpoint makes the write fail. -/
def sendPacket (a : Agent) (pkt : Packet) : Option UDPAddr → Agent
  | some e => { a with sent := a.sent ++ [⟨e, pkt⟩] }
  | none => a

def setPeers (a : Agent) (peers : PeerManager) : Agent := { a with peers := peers }

@[simp] theorem sendPacket_peers (a : Agent) (pkt : Packet) (e : Option UDPAddr) :
    (a.sendPacket pkt e).peers = a.peers := by
  cases e <;> rfl

@[simp] theorem sendPacket_seals (a : Agent) (pkt : Packet) (e : Option UDPAddr) :
    (a.sendPacket pkt e).seals = a.seals := by
  cases e <;> rfl

@[simp] theorem sendPacket_network (a : Agent) (pkt : Packet) (e : Option UDPAddr) :
    (a.sendPacket pkt e).network = a.network := by
  cases e <;> rfl

theorem setPeers_sendPacket (a : Agent) (pkt : Packet) (e : Option UDPAddr) (peers : PeerManager) :
    (a.sendPacket pkt e).setPeers peers = (a.setPeers peers).sendPacket pkt e := by
  cases e <;> rfl

/-- `sendHello`: a handshake datagram carrying our public key; `LastSend` is set only when
the write succeeds. -/
def sendHello (a : Agent) (addr : Address) (now : Int) : Agent :=
  match a.peers.lookup addr with
  | some peer =>
      match peer.endpoint with
      | some e =>
          (a.sendPacket (newHandshakePacket a.publicKey.bytes) (some e)).setPeers
            (a.peers.modify addr fun p => { p with lastSend := now })
      | none => a
  | none => a

@[simp] theorem setPeers_peers (a : Agent) (peers : PeerManager) :
    (a.setPeers peers).peers = peers :=
  rfl

@[simp] theorem setPeers_config (a : Agent) (peers : PeerManager) :
    (a.setPeers peers).config = a.config := rfl

@[simp] theorem setPeers_seals (a : Agent) (peers : PeerManager) :
    (a.setPeers peers).seals = a.seals :=
  rfl

@[simp] theorem setPeers_publicKey (a : Agent) (peers : PeerManager) :
    (a.setPeers peers).publicKey = a.publicKey := rfl
@[simp] theorem setPeers_network (a : Agent) (peers : PeerManager) :
    (a.setPeers peers).network = a.network := rfl

theorem sendHello_config (a : Agent) (addr : Address) (now : Int) :
    (sendHello a addr now).config = a.config := by
  unfold sendHello
  split <;> (try split) <;> rfl

theorem sendHello_publicKey (a : Agent) (addr : Address) (now : Int) :
    (sendHello a addr now).publicKey = a.publicKey := by
  unfold sendHello
  split <;> (try split) <;> rfl

theorem lookup_sendHello_cipher (a : Agent) (addr k : Address) (now : Int) :
    ((sendHello a addr now).peers.lookup k).map Peer.cipher =
      (a.peers.lookup k).map Peer.cipher := by
  unfold sendHello
  split
  · split
    · rw [setPeers_peers, PeerManager.lookup_modify]
      split
      · next hk => subst hk; cases a.peers.lookup k <;> rfl
      · rfl
    · rfl
  · rfl

theorem lookup_sendHello_ne (a : Agent) {addr k : Address} (hk : k ≠ addr) (now : Int) :
    (sendHello a addr now).peers.lookup k = a.peers.lookup k := by
  unfold sendHello
  split
  · split
    · rw [setPeers_peers, PeerManager.lookup_modify, if_neg hk]
    · rfl
  · rfl

theorem sendHello_peers {a : Agent} {addr : Address} {p : Peer} (hp : a.peers.lookup addr = some p)
    {e : UDPAddr} (he : p.endpoint = some e) (now : Int) :
    (sendHello a addr now).peers = a.peers.modify addr fun p => { p with lastSend := now } := by
  simp only [sendHello, hp, he, setPeers_peers]

theorem sendHello_tapUp (a : Agent) (addr : Address) (now : Int) :
    (sendHello a addr now).tapUp = a.tapUp := by
  unfold sendHello
  split <;> (try split) <;> rfl

theorem sendHello_network (a : Agent) (addr : Address) (now : Int) :
    (sendHello a addr now).network = a.network := by
  unfold sendHello
  split <;> (try split) <;> rfl

theorem sendHello_pending (a : Agent) (addr : Address) (now : Int) :
    (sendHello a addr now).pending = a.pending := by
  unfold sendHello
  split <;> (try split) <;> rfl

/-- The keys and fresh cipher a hello or a roster entry installs. -/
def freshCipher (psk : Bytes32) (a : Agent) (remotePub : Bytes32) : NoiseCipher :=
  NoiseCipher.new (deriveKeysFromPSK P psk a.publicKey remotePub)

/-- `initiateHandshake`: install the cipher derived from the configured PSK, then say
hello. -/
def initiateHandshake (a : Agent) (addr : Address) (now : Int) : Agent :=
  match a.peers.lookup addr with
  | some peer =>
      sendHello (a.setPeers (a.peers.modify addr fun p =>
        p.setCipher (freshCipher P a.config.psk a peer.publicKey) now)) addr now
  | none => a

/-- `handleHandshake`: a hello carrying a 32-byte public key. A known peer's endpoint
migrates to the sender and it is touched; it gets a cipher if it has none. An unknown
peer is added with a cipher and answered. -/
def handleHandshake (a : Agent) (payload : List UInt8) (src : UDPAddr) (now : Int) : Agent :=
  if payload.length < 32 then a else
  let remotePubKey := FixedBytes.ofList 32 payload
  let remoteAddr := addressFromPublicKey P remotePubKey.bytes
  match a.peers.getPeer remoteAddr with
  | some peer =>
      let a := a.setPeers (a.peers.modify remoteAddr fun p => { p with endpoint := some src }.touch now)
      if !peer.isConnected then
        a.setPeers (a.peers.modify remoteAddr fun p =>
          p.setCipher (freshCipher P a.config.psk a remotePubKey) now)
      else a
  | none =>
      let a := a.setPeers (a.peers.addPeer remoteAddr remotePubKey (some src))
      let a := a.setPeers (a.peers.modify remoteAddr fun p =>
        p.setCipher (freshCipher P a.config.psk a remotePubKey) now)
      sendHello a remoteAddr now

/-- A hello whose key maps to the address of a known peer moves that peer to the hello's
source and touches it, whatever key the peer was added with; a peer without a cipher gets the
one derived from the hello's key. The peer's public key is kept. -/
theorem handleHandshake_known (a : Agent) {payload : List UInt8} (src : UDPAddr) (now : Int)
    (hlen : 32 ≤ payload.length) {p : Peer}
    (hp : a.peers.lookup (addressFromPublicKey P (FixedBytes.ofList 32 payload).bytes) = some p) :
    ∃ p', (handleHandshake P a payload src now).peers.lookup
        (addressFromPublicKey P (FixedBytes.ofList 32 payload).bytes) = some p' ∧
      p'.endpoint = some src ∧ p'.publicKey = p.publicKey ∧ p'.lastSeen = now ∧
      p'.cipher = if p.isConnected then p.cipher
        else some (freshCipher P a.config.psk a (FixedBytes.ofList 32 payload)) := by
  have hlt : ¬payload.length < 32 := by omega
  simp only [handleHandshake, hlt, if_false, PeerManager.getPeer, hp]
  cases hc : p.isConnected
  · simp only [Bool.not_false, if_true, setPeers_peers, PeerManager.lookup_modify, hp,
      Option.map_some']
    exact ⟨_, rfl, rfl, rfl, rfl, rfl⟩
  · simp only [Bool.not_true, Bool.false_eq_true, if_false, setPeers_peers,
      PeerManager.lookup_modify, hp, Option.map_some']
    exact ⟨_, rfl, rfl, rfl, rfl, rfl⟩

/-- Keys `11 11 11 11 11 00 …` and `11 11 11 11 11 22 00 …` map to one address under the
transparent primitives. A hello carrying the second from `5.6.7.8:9993` moves the peer added
with the first away from `1.2.3.4:9993`. -/
theorem colliding_hello_moves_peer :
    let P := NoiseCipher.transparentPrimitives
    let k₁ : Bytes32 := FixedBytes.ofList 32 [0x11, 0x11, 0x11, 0x11, 0x11]
    let hello := (FixedBytes.ofList 32 [0x11, 0x11, 0x11, 0x11, 0x11, 0x22] : Bytes32).bytes
    let peer : Peer := ⟨addressFromPublicKey P k₁.bytes, k₁, .connected,
      some ⟨[1, 2, 3, 4], 9993⟩, some (NoiseCipher.new (k₁, k₁)), 0, 0⟩
    let a : Agent := ⟨⟨default, 7, 0, [], []⟩, default, 9993,
      (∅ : PeerManager).insert peer.address peer, none, false, [], [], [], []⟩
    addressFromPublicKey P hello = peer.address ∧ hello ≠ k₁.bytes ∧
      ((handleHandshake P a hello ⟨[5, 6, 7, 8], 9993⟩ 1).peers.lookup peer.address).map
        (fun p => (p.endpoint, p.publicKey, p.cipher)) =
        some (some ⟨[5, 6, 7, 8], 9993⟩, k₁, some (NoiseCipher.new (k₁, k₁))) := by
  intro P k₁ hello peer a
  have haddr : addressFromPublicKey P hello = peer.address := by decide
  have hb : (FixedBytes.ofList 32 hello).bytes = hello :=
    FixedBytes.ofList_bytes (FixedBytes.length_eq _)
  refine ⟨haddr, by decide, ?_⟩
  obtain ⟨p', hp', hep, hpk, -, hc⟩ := @handleHandshake_known P a hello ⟨[5, 6, 7, 8], 9993⟩ 1
    (by decide) peer (by rw [hb, haddr]; exact AList.lookup_insert _)
  rw [hb, haddr] at hp'
  rw [hp', Option.map_some', hep, hpk, hc]
  rfl

/-- The body shared by `SendToPeer` and `BroadcastToPeers` for one peer: encrypt under
its cipher, then send a data datagram to its endpoint. -/
def encryptAndSend (a : Agent) (addr : Address) (networkID : UInt32) (frame : List UInt8) :
    Agent :=
  match a.peers.lookup addr with
  | some peer =>
      match peer.cipher with
      | some c =>
          let r := c.encrypt P frame
          let peer' := { peer with cipher := some r.1 }
          let a := { a with seals := a.seals ++ [SealCall.mk addr c.sendKey c.sendNonce] }
          (a.sendPacket (newDataPacket networkID r.2) peer'.endpoint).setPeers
            (a.peers.insert addr peer')
      | none => a
  | none => a

/-- `SendToPeer`: the agent after the call, and the error it returns. -/
def sendToPeer (a : Agent) (peerAddr : Address) (networkID : UInt32) (frame : List UInt8) :
    Agent × Option String :=
  match a.peers.getPeer peerAddr with
  | none => (a, some ("unknown peer: " ++ peerAddr.toHex))
  | some peer =>
      if !peer.isConnected then (a, some ("peer not connected: " ++ peerAddr.toHex))
      else
        let a' := encryptAndSend P a peerAddr networkID frame
        (a', if peer.endpoint.isSome then none else some "write to nil address")

/-- One iteration of the loop of `BroadcastToPeers`. -/
def broadcastStep (networkID : UInt32) (frame : List UInt8) (excludePeer : Address) (a : Agent)
    (peer : Peer) : Agent :=
  if peer.address = excludePeer then a else encryptAndSend P a peer.address networkID frame

/-- `BroadcastToPeers`: every connected peer but `excludePeer`, in iteration order. -/
def broadcastToPeers (a : Agent) (networkID : UInt32) (frame : List UInt8)
    (excludePeer : Address) : Agent :=
  a.peers.connectedPeers.foldl (broadcastStep P networkID frame excludePeer) a

/-- Carry out a switch's `PeerSender` call. -/
def performCall (a : Agent) : SendCall → Agent
  | .sendToPeer peerAddr networkID frame => (sendToPeer P a peerAddr networkID frame).1
  | .broadcastToPeers networkID frame excludePeer => broadcastToPeers P a networkID frame excludePeer

/-- Write a frame into the tap, if there is one. -/
def inject (a : Agent) : Option (List UInt8) → Agent
  | some f => if a.tapUp then { a with tapWrites := a.tapWrites ++ [f] } else a
  | none => a

theorem inject_some (a : Agent) {f : List UInt8} (h : a.tapUp = true) :
    inject a (some f) = { a with tapWrites := a.tapWrites ++ [f] } := by
  simp only [inject, h, if_true]

/-! The senders and the tap write leave the network, its switch and its ARP proxy, alone. -/

theorem encryptAndSend_network (a : Agent) (addr : Address) (networkID : UInt32)
    (frame : List UInt8) : (encryptAndSend P a addr networkID frame).network = a.network := by
  unfold encryptAndSend
  split
  · split <;> simp
  · rfl

theorem broadcastToPeers_network (a : Agent) (networkID : UInt32) (frame : List UInt8)
    (excludePeer : Address) :
    (broadcastToPeers P a networkID frame excludePeer).network = a.network := by
  refine List.foldlRecOn (motive := fun b : Agent => b.network = a.network) _ _ _ rfl
    fun b hb peer _ => ?_
  unfold broadcastStep
  split
  exacts [hb, (encryptAndSend_network P b _ _ _).trans hb]

theorem performCall_network (a : Agent) (call : SendCall) :
    (performCall P a call).network = a.network := by
  cases call with
  | sendToPeer peerAddr networkID frame =>
      show (sendToPeer P a peerAddr networkID frame).1.network = a.network
      unfold sendToPeer
      split
      · rfl
      · split
        · rfl
        · exact encryptAndSend_network P a _ _ _
  | broadcastToPeers networkID frame excludePeer => exact broadcastToPeers_network P a _ _ _

theorem inject_network (a : Agent) (frame : Option (List UInt8)) :
    (inject a frame).network = a.network := by
  unfold inject
  split
  · split <;> rfl
  · rfl

/-- `handleDataPacket`: find the sender by endpoint, touch it, decrypt, and hand the
frame to the switch, whose call is made before the frame is injected. -/
def handleDataPacket (a : Agent) (pkt : Packet) (src : UDPAddr) (now : Int) : Agent :=
  match a.peers.getPeerByEndpoint src with
  | none => a
  | some peer =>
      let touched := peer.touch now
      match touched.decrypt P pkt.payload with
      | .error _ => a.setPeers (a.peers.insert peer.address touched)
      | .ok (peer', plaintext) =>
          let a := a.setPeers (a.peers.insert peer.address peer')
          match a.network with
          | none => a
          | some net =>
              match net.switch.handleRemoteFrame peer.address plaintext now with
              | .error _ => a
              | .ok (sw, call, frame) =>
                  let a := { a with network := some { net with switch := sw } }
                  let a := match call with
                    | some c => performCall P a c
                    | none => a
                  inject a frame

/-- `handleUDPPacket`: dispatch on the packet type. -/
def handleUDPPacket (a : Agent) (data : List UInt8) (src : UDPAddr) (now : Int) : Agent :=
  match decodePacket data with
  | .error _ => a
  | .ok pkt =>
      if pkt.header.type = PacketTypeHandshake then handleHandshake P a pkt.payload src now
      else if pkt.header.type = PacketTypeData then handleDataPacket P a pkt src now
      else if pkt.header.type = PacketTypeKeepalive then
        match a.peers.getPeerByEndpoint src with
        | some peer => a.setPeers (a.peers.modify peer.address fun p => p.touch now)
        | none => a
      else a

theorem handleHandshake_network (a : Agent) (payload : List UInt8) (src : UDPAddr) (now : Int) :
    (handleHandshake P a payload src now).network = a.network := by
  unfold handleHandshake
  split
  · rfl
  · dsimp only
    split
    · split <;> rfl
    · exact sendHello_network _ _ _

theorem handleDataPacket_arp (a : Agent) (pkt : Packet) (src : UDPAddr) (now : Int) :
    (handleDataPacket P a pkt src now).network.map Network.arp = a.network.map Network.arp := by
  unfold handleDataPacket
  split
  · rfl
  · dsimp only
    split
    · rfl
    · split
      · rfl
      · next net hnet =>
          rw [setPeers_network] at hnet
          split
          · rfl
          · rw [inject_network, hnet]
            split
            · rw [performCall_network]
              rfl
            · rfl

theorem handleUDPPacket_arp (a : Agent) (data : List UInt8) (src : UDPAddr) (now : Int) :
    (handleUDPPacket P a data src now).network.map Network.arp = a.network.map Network.arp := by
  unfold handleUDPPacket
  split
  · rfl
  · split
    · rw [handleHandshake_network]
    · split
      · exact handleDataPacket_arp P a _ src now
      · split
        · split <;> rfl
        · rfl

theorem handleUDPPacket_data (a : Agent) {data : List UInt8} {pkt : Packet} (src : UDPAddr)
    (now : Int) (h : decodePacket data = .ok pkt) (ht : pkt.header.type = PacketTypeData) :
    handleUDPPacket P a data src now = handleDataPacket P a pkt src now := by
  have hne : PacketTypeData ≠ PacketTypeHandshake := by decide
  simp only [handleUDPPacket, h, ht, if_neg hne, if_true]

/-- `handleUDPPacket` never reads the network ID of a data datagram's header: a datagram that
differs only there is handled the same way, frame delivery to the switch and the tap
included. -/
theorem handleUDPPacket_ignores_networkID (a : Agent) (pkt : Packet) (src : UDPAddr) (now : Int)
    (hv : pkt.header.version = Version) (ht : pkt.header.type = PacketTypeData) (n : UInt32) :
    handleUDPPacket P a { pkt with header := { pkt.header with networkID := n } }.encode src now =
      handleUDPPacket P a pkt.encode src now := by
  rw [handleUDPPacket_data P a src now (decodePacket_encode pkt hv) ht,
    handleUDPPacket_data P a src now
      (decodePacket_encode { pkt with header := { pkt.header with networkID := n } } hv) ht]
  rfl

/-- An agent of network 7 with one connected peer takes a data datagram of network 99 from
that peer: the broadcast frame inside is written into its tap. -/
theorem foreign_network_frame_injected :
    let P := NoiseCipher.transparentPrimitives
    let k : Bytes32 := FixedBytes.ofList 32 [0x11]
    let src : UDPAddr := ⟨[1, 2, 3, 4], 9993⟩
    let peer : Peer := ⟨addressFromPublicKey P k.bytes, k, .connected, some src,
      some (NoiseCipher.new (k, k)), 0, 0⟩
    let a : Agent := ⟨⟨default, 7, 0, [], []⟩, default, 9993,
      (∅ : PeerManager).insert peer.address peer, some (Network.new 7), true, [], [], [], []⟩
    let frame : List UInt8 := [0xff, 0xff, 0xff, 0xff, 0xff, 0xff, 2, 0, 0, 0, 0, 9, 8, 0]
    let payload := List.replicate 8 0 ++ frame ++ List.replicate NoiseTagSize 0
    a.config.networkID = 7 ∧
      (handleUDPPacket P a (newDataPacket 99 payload).encode src 1).tapWrites = [frame] := by
  intro P k src peer a frame payload
  rw [show newDataPacket 99 payload =
    { newDataPacket 7 payload with header := { (newDataPacket 7 payload).header with networkID := 99 } }
    from rfl, handleUDPPacket_ignores_networkID P a _ src 1 rfl rfl]
  exact ⟨rfl, by decide⟩

/-- One iteration of `tapReadLoop` on a frame read from the tap: the ARP proxy may answer
it into the tap; otherwise the switch forwards it. -/
def handleTapFrame (a : Agent) (data : List UInt8) (now : Int) : Agent :=
  if data.length < MinFrameSize then a else
  match parseEthernetFrame data, a.network with
  | .ok frame, some net =>
      let (arp, reply) := if frame.isARP then net.arp.handleARP frame now else (net.arp, none)
      let net := { net with arp := arp }
      let a := { a with network := some net }
      match reply with
      | some r => { a with tapWrites := a.tapWrites ++ [r] }
      | none =>
          match net.switch.handleLocalFrame data now with
          | .ok (sw, call) =>
              let a := { a with network := some { net with switch := sw } }
              match call with
              | some c => performCall P a c
              | none => a
          | .error _ => a
  | _, _ => a

/-- A frame read from the tap that the ARP proxy answers goes no further: the reply is
written into the tap and the switch never sees the frame. -/
theorem handleTapFrame_of_reply (a : Agent) {net : Network} (hnet : a.network = some net)
    {data : List UInt8} {f : EthernetFrame} (hp : parseEthernetFrame data = .ok f)
    (hisARP : f.isARP = true) {now : Int} {arp : ARPProxy} {r : List UInt8}
    (h : net.arp.handleARP f now = (arp, some r)) :
    handleTapFrame P a data now = { a with
      network := some { net with arp := arp }
      tapWrites := a.tapWrites ++ [r] } := by
  have hlen : ¬data.length < MinFrameSize :=
    Nat.not_lt.2 ((parseEthernetFrame_ok_iff data).1 ⟨f, hp⟩)
  simp only [handleTapFrame, if_neg hlen, hp, hnet, hisARP, if_true, h]

/-- A well-formed ARP request read from the tap whose sender IP is its target IP (a gratuitous
announcement) is answered by the proxy from the binding the announcement itself taught the
cache: the reply goes into the tap, and the frame never reaches the switch or a peer. -/
theorem gratuitous_request_answered_in_tap (a : Agent) {net : Network} (hnet : a.network = some net)
    (data : List UInt8) (now : Int) (hlen : MinFrameSize ≤ data.length)
    (harp : UInt16.ofNat (uintBE ((data.drop 12).take 2)) = EtherTypeARP)
    (hwf : ARPProxy.IsEthernetIPv4 (data.drop EthernetHeaderSize))
    (hop : ARPProxy.oper (data.drop EthernetHeaderSize) = ARPRequest)
    (hs : ARPProxy.senderIP (data.drop EthernetHeaderSize) =
      ARPProxy.targetIP (data.drop EthernetHeaderSize)) :
    let p := data.drop EthernetHeaderSize
    ∃ arp, handleTapFrame P a data now = { a with
      network := some { net with arp := arp }
      tapWrites := a.tapWrites ++ [ARPProxy.buildARPReply
        (FixedBytes.ofList 6 (ARPProxy.senderMAC p)).bytes (ARPProxy.senderMAC p)
        (ARPProxy.senderIP p) (ARPProxy.senderIP p)] } := by
  intro p
  let f : EthernetFrame :=
    ⟨data.take 6, (data.drop 6).take 6, UInt16.ofNat (uintBE ((data.drop 12).take 2)), p, data⟩
  have hp : parseEthernetFrame data = .ok f := if_neg (Nat.not_lt.2 hlen)
  have hr := ARPProxy.handleARP_announcement (a := net.arp) (f := f) hwf hop hs now
  exact ⟨_, handleTapFrame_of_reply P a hnet hp (by simp only [f, EthernetFrame.isARP, harp,
    beq_self_eq_true]) (Prod.ext rfl hr)⟩

/-- Host `10.0.0.1` at `02:00:00:00:00:01` announces itself; the agent writes the proxy's
reply back into its tap and sends nothing. -/
theorem announcement_answered_in_tap :
    let data : List UInt8 := [0xff, 0xff, 0xff, 0xff, 0xff, 0xff, 2, 0, 0, 0, 0, 1, 8, 6,
      0, 1, 8, 0, 6, 4, 0, 1, 2, 0, 0, 0, 0, 1, 10, 0, 0, 1, 0, 0, 0, 0, 0, 0, 10, 0, 0, 1]
    let a : Agent := ⟨⟨default, 7, 0, [], []⟩, default, 9993, ∅, some (Network.new 7), true, [], [], [],
      []⟩
    let b := handleTapFrame NoiseCipher.transparentPrimitives a data 0
    b.tapWrites = [[2, 0, 0, 0, 0, 1, 2, 0, 0, 0, 0, 1, 8, 6, 0, 1, 8, 0, 6, 4, 0, 2,
      2, 0, 0, 0, 0, 1, 10, 0, 0, 1, 2, 0, 0, 0, 0, 1, 10, 0, 0, 1]] ∧ b.sent = [] := by
  intro data a b
  obtain ⟨arp, h⟩ := gratuitous_request_answered_in_tap NoiseCipher.transparentPrimitives a rfl
    data 0 (by decide) (by decide) (by decide) (by decide) (by decide)
  simp only [b, h]
  exact ⟨by decide, trivial⟩

/-- Over a stale binding of `10.0.0.1` to `02:00:00:00:00:09`, the announcement of `10.0.0.1`
at `02:00:00:00:00:01` is answered in the tap from the binding it teaches. -/
theorem stale_binding_announcement_answered :
    let data : List UInt8 := [0xff, 0xff, 0xff, 0xff, 0xff, 0xff, 2, 0, 0, 0, 0, 1, 8, 6,
      0, 1, 8, 0, 6, 4, 0, 1, 2, 0, 0, 0, 0, 1, 10, 0, 0, 1, 0, 0, 0, 0, 0, 0, 10, 0, 0, 1]
    let stale : ARPCache := (∅ : ARPCache).insert (FixedBytes.ofList 4 [10, 0, 0, 1])
      ⟨[2, 0, 0, 0, 0, 9], 0⟩
    let a : Agent := ⟨⟨default, 7, 0, [], []⟩, default, 9993, ∅, some ⟨Switch.new 7, ⟨stale⟩⟩, true,
      [], [], [], []⟩
    let b := handleTapFrame NoiseCipher.transparentPrimitives a data ARPCacheExpiry
    b.tapWrites = [[2, 0, 0, 0, 0, 1, 2, 0, 0, 0, 0, 1, 8, 6, 0, 1, 8, 0, 6, 4, 0, 2,
      2, 0, 0, 0, 0, 1, 10, 0, 0, 1, 2, 0, 0, 0, 0, 1, 10, 0, 0, 1]] ∧ b.sent = [] := by
  intro data stale a b
  obtain ⟨arp, h⟩ := gratuitous_request_answered_in_tap NoiseCipher.transparentPrimitives a rfl
    data ARPCacheExpiry (by decide) (by decide) (by decide) (by decide) (by decide)
  simp only [b, h]
  exact ⟨by decide, trivial⟩

/-- One tick of `maintenanceLoop`: keepalives to connected peers that are due (`LastSend`
is set even if the write fails), hellos to peers not connected, and the sweeps of the
MAC table and the ARP cache. -/
def maintenance (a : Agent) (now : Int) : Agent :=
  let a := a.peers.connectedPeers.foldl (fun a peer =>
    if peer.needsKeepalive now then
      (a.sendPacket newKeepalivePacket peer.endpoint).setPeers
        (a.peers.modify peer.address fun p => { p with lastSend := now })
    else a) a
  let a := a.peers.allPeers.foldl (fun a peer =>
    if !peer.isConnected then sendHello a peer.address now else a) a
  match a.network with
  | some net =>
      { a with network := some ⟨(net.switch.cleanExpired now).1, (net.arp.cleanExpired now).1⟩ }
  | none => a

theorem maintenance_induction {Q : Agent → Prop} {a : Agent} (now : Int) (ha : Q a)
    (keepalive : ∀ b (peer : Peer), Q b →
      Q ((b.sendPacket newKeepalivePacket peer.endpoint).setPeers
        (b.peers.modify peer.address fun p => { p with lastSend := now })))
    (hello : ∀ b addr, Q b → Q (sendHello b addr now))
    (sweep : ∀ b net, Q b → b.network = some net →
      Q { b with
        network := some ⟨(net.switch.cleanExpired now).1, (net.arp.cleanExpired now).1⟩ }) :
    Q (maintenance a now) := by
  have h₁ : ∀ (peers : List Peer) (b : Agent), Q b → Q (peers.foldl (fun b peer =>
      if peer.needsKeepalive now then
        (b.sendPacket newKeepalivePacket peer.endpoint).setPeers
          (b.peers.modify peer.address fun p => { p with lastSend := now })
      else b) b) := fun peers b hb =>
    List.foldlRecOn (motive := Q) peers _ b hb fun b hb peer _ => by
      split
      · exact keepalive b peer hb
      · exact hb
  have h₂ : ∀ (peers : List Peer) (b : Agent), Q b → Q (peers.foldl (fun b peer =>
      if !peer.isConnected then sendHello b peer.address now else b) b) := fun peers b hb =>
    List.foldlRecOn (motive := Q) peers _ b hb fun b hb peer _ => by
      split
      · exact hello b _ hb
      · exact hb
  unfold maintenance
  dsimp only
  split
  · next net hnet => exact sweep _ net (h₂ _ _ (h₁ _ _ ha)) hnet
  · exact h₂ _ _ (h₁ _ _ ha)

/-! ### What the data plane leaves alone

The tap, UDP and maintenance goroutines write the peer table, the network, the datagrams, the
seals and the tap, but never the configuration, the key, the tap's state or the roster work the
read loop has pending; the senders and the hello handling write nothing into the tap. -/

/-- The part of the state that only the controller client writes. -/
def control (a : Agent) : Config × Bytes32 × Bool × List RosterStep :=
  (a.config, a.publicKey, a.tapUp, a.pending)

/-- `b` differs from `a` in its peers, network, datagrams and seals only. -/
def SendsOnly (a b : Agent) : Prop := b.control = a.control ∧ b.tapWrites = a.tapWrites

theorem SendsOnly.refl (a : Agent) : SendsOnly a a := ⟨rfl, rfl⟩

theorem SendsOnly.trans {a b c : Agent} (h₁ : SendsOnly a b) (h₂ : SendsOnly b c) :
    SendsOnly a c :=
  ⟨h₂.1.trans h₁.1, h₂.2.trans h₁.2⟩

theorem sendsOnly_sendPacket (a : Agent) (pkt : Packet) (e : Option UDPAddr) :
    SendsOnly a (a.sendPacket pkt e) := by
  cases e <;> exact ⟨rfl, rfl⟩

theorem sendsOnly_setPeers (a : Agent) (peers : PeerManager) : SendsOnly a (a.setPeers peers) :=
  ⟨rfl, rfl⟩

theorem sendsOnly_sendHello (a : Agent) (addr : Address) (now : Int) :
    SendsOnly a (sendHello a addr now) := by
  unfold sendHello
  split <;> (try split) <;> exact ⟨rfl, rfl⟩

theorem sendsOnly_encryptAndSend (a : Agent) (addr : Address) (networkID : UInt32)
    (frame : List UInt8) : SendsOnly a (encryptAndSend P a addr networkID frame) := by
  unfold encryptAndSend
  split
  · split
    · next c _ =>
        exact SendsOnly.trans (b := { a with seals := a.seals ++ [⟨addr, c.sendKey, c.sendNonce⟩] })
          ⟨rfl, rfl⟩ ((sendsOnly_sendPacket _ _ _).trans (sendsOnly_setPeers _ _))
    · exact .refl a
  · exact .refl a

theorem sendsOnly_performCall (a : Agent) (call : SendCall) : SendsOnly a (performCall P a call) := by
  cases call with
  | sendToPeer peerAddr networkID frame =>
      show SendsOnly a (sendToPeer P a peerAddr networkID frame).1
      unfold sendToPeer
      split
      · exact .refl a
      · split
        · exact .refl a
        · exact sendsOnly_encryptAndSend P a _ _ _
  | broadcastToPeers networkID frame excludePeer =>
      refine List.foldlRecOn (motive := SendsOnly a) _ _ _ (.refl a) fun b hb peer _ => ?_
      unfold broadcastStep
      split
      exacts [hb, hb.trans (sendsOnly_encryptAndSend P b _ _ _)]

theorem sendsOnly_handleHandshake (a : Agent) (payload : List UInt8) (src : UDPAddr) (now : Int) :
    SendsOnly a (handleHandshake P a payload src now) := by
  unfold handleHandshake
  split
  · exact .refl a
  · dsimp only
    split
    · split <;> exact ⟨rfl, rfl⟩
    · exact (sendsOnly_setPeers _ _).trans ((sendsOnly_setPeers _ _).trans (sendsOnly_sendHello _ _ _))

theorem sendsOnly_maintenance (a : Agent) (now : Int) : SendsOnly a (maintenance a now) :=
  maintenance_induction now (.refl a)
    (fun b _ hb => hb.trans ((sendsOnly_sendPacket b _ _).trans (sendsOnly_setPeers _ _)))
    (fun b _ hb => hb.trans (sendsOnly_sendHello b _ now)) fun _ _ hb _ => hb.trans ⟨rfl, rfl⟩

theorem inject_control (a : Agent) (frame : Option (List UInt8)) :
    (inject a frame).control = a.control := by
  unfold inject
  split
  · split <;> rfl
  · rfl

theorem handleDataPacket_control (a : Agent) (pkt : Packet) (src : UDPAddr) (now : Int) :
    (handleDataPacket P a pkt src now).control = a.control := by
  unfold handleDataPacket
  split
  · rfl
  · dsimp only
    split
    · rfl
    · split
      · rfl
      · split
        · rfl
        · rw [inject_control]
          split
          exacts [(sendsOnly_performCall P _ _).1, rfl]

theorem handleUDPPacket_control (a : Agent) (data : List UInt8) (src : UDPAddr) (now : Int) :
    (handleUDPPacket P a data src now).control = a.control := by
  unfold handleUDPPacket
  split
  · rfl
  · split
    · exact (sendsOnly_handleHandshake P a _ src now).1
    · split
      · exact handleDataPacket_control P a _ src now
      · split
        · split <;> rfl
        · rfl

theorem handleTapFrame_control (a : Agent) (data : List UInt8) (now : Int) :
    (handleTapFrame P a data now).control = a.control := by
  unfold handleTapFrame
  split
  · rfl
  · split
    · dsimp only
      split
      · rfl
      · split
        · split
          exacts [(sendsOnly_performCall P _ _).1, rfl]
        · rfl
    · rfl

end Agent

end ZeroGo
