import ZeroGo.Agent.Agent
import ZeroGo.Protocol

/-!
The controller client of `agent/controller_client.go`: the `join` message `connect`
sends, and the handlers of `network_config` and `peer_update`, which install the
controller's peer roster with `addPeerFromInfo`. Also the static start-up of
`Agent.Start` and the agent's runs: the start in one of the two modes followed by any
sequence of inbound datagrams, tap frames, maintenance ticks and control messages.
The creation of the tap device is assumed to succeed.
-/

namespace ZeroGo

open Vl1 Vl2

variable (P : Primitives) (lookupHost : String → Option (List UInt8))

namespace Agent

/-- The join message of `connect`: the only endpoint advertised is `":<port>"`. -/
def joinMessage (a : Agent) : JoinMessage :=
  { nodeAddr := (a.address P).toHex
    publicKey := hexEncodeToString a.publicKey.bytes
    networks :=
      if a.config.networks = [] ∧ 0 < a.config.networkID then [toString a.config.networkID]
      else a.config.networks
    endpoints := [portOnlyAddress a.port]
    platform := "linux"
    version := "0.1.0" }

theorem joinMessage_endpoints_portOnly (a : Agent) :
    ∀ ep ∈ (a.joinMessage P).endpoints, IsPortOnly ep := fun _ hep =>
  ⟨a.port, List.mem_singleton.mp hep⟩

/-- The endpoint loop of `addPeerFromInfo`: the first endpoint that resolves to an address
with a non-nil IP. -/
def firstResolved : List String → Option UDPAddr
  | [] => none
  | ep :: eps =>
      match resolveUDPAddr lookupHost ep with
      | .ok r => if r.ip ≠ [] then some r else firstResolved eps
      | .error _ => firstResolved eps

/-- The connected check and the endpoint loop of `addPeerFromInfo`: the key and the endpoint
of a roster entry with a valid 32-byte key, whose peer is not connected and that has a
resolvable endpoint. -/
def rosterCheck (a : Agent) (info : PeerInfo) : Option (Bytes32 × UDPAddr) :=
  match hexDecodeString info.publicKey with
  | some bytes =>
      if bytes.length ≠ 32 then none else
      let pubKey := FixedBytes.ofList 32 bytes
      if (a.peers.getPeer (addressFromPublicKey P pubKey.bytes)).any Peer.isConnected then none
      else (firstResolved lookupHost info.endpoints).map fun endpoint => (pubKey, endpoint)
  | none => none

/-- The `AddPeer` of `addPeerFromInfo`. -/
def rosterAdd (a : Agent) (pubKey : Bytes32) (endpoint : UDPAddr) : Agent :=
  a.setPeers (a.peers.addPeer (addressFromPublicKey P pubKey.bytes) pubKey (some endpoint))

/-- The `SetCipher` with the keys derived from `psk`, and the hello, of `addPeerFromInfo`. -/
def rosterInstall (a : Agent) (pubKey psk : Bytes32) (now : Int) : Agent :=
  let peerAddr := addressFromPublicKey P pubKey.bytes
  sendHello (a.setPeers (a.peers.modify peerAddr fun p =>
    p.setCipher (freshCipher P psk a pubKey) now)) peerAddr now

/-- `addPeerFromInfo` run without a break: a roster entry with a valid 32-byte key whose peer is
not yet connected and that has a resolvable endpoint is added with a cipher derived from `psk`,
and greeted. -/
def addPeerFromInfo (a : Agent) (info : PeerInfo) (psk : Bytes32) (now : Int) : Agent :=
  match rosterCheck P lookupHost a info with
  | some (pubKey, endpoint) => rosterInstall P (rosterAdd P a pubKey endpoint) pubKey psk now
  | none => a

/-- The PSK field of a `network_config`: `none` when it is invalid, `some none` when it is
empty, the key otherwise. -/
def parsePSK (field : String) : Option (Option Bytes32) :=
  if field = "" then some none
  else
    match hexDecodeString field with
    | some b => if b.length = 32 then some (some (FixedBytes.ofList 32 b)) else none
    | none => none

/-- The part of `handleNetworkConfig` before the roster, for a valid PSK field: the configured
PSK when the field holds one, the network ID `Sscanf` reads, and on the first message the tap
and the network. -/
def configure (a : Agent) (msg : NetworkConfigMessage) (field : Option Bytes32) : Agent :=
  let a := match field with
    | some k => { a with config := { a.config with psk := k } }
    | none => a
  let networkID := scanUint32 msg.networkID
  let a := { a with config := { a.config with networkID := networkID } }
  if a.tapUp then a
  else
    { a with
      config := { a.config with tapMTU := if msg.mtu = 0 then 2800 else msg.mtu }
      tapUp := true
      network := some (Network.new networkID) }

/-- `handleNetworkConfig`. The roster is installed with the local `psk`, which stays zero
when the message's PSK field is empty, while `config.PSK` then keeps its value. The tap and
the network are set up on the first message only. -/
def handleNetworkConfig (a : Agent) (msg : NetworkConfigMessage) (now : Int) : Agent :=
  match parsePSK msg.psk with
  | none => a
  | some field =>
      msg.peers.foldl (fun a info => addPeerFromInfo P lookupHost a info (field.getD (FixedBytes.zero 32)) now)
        (a.configure msg field)

/-- The `remove` branch of `handlePeerUpdate`: the peer at the hex address is dropped. -/
def removeFromUpdate (a : Agent) (msg : PeerUpdateMessage) : Agent :=
  if msg.action = "remove" then
    match addressFromHex msg.peer.address with
    | .ok addr => a.setPeers (a.peers.removePeer addr)
    | .error _ => a
  else a

/-- `handlePeerUpdate`: `add` installs the entry with the configured PSK, `remove` drops the
peer at the hex address. -/
def handlePeerUpdate (a : Agent) (msg : PeerUpdateMessage) (now : Int) : Agent :=
  if msg.action = "add" then addPeerFromInfo P lookupHost a msg.peer a.config.psk now
  else removeFromUpdate a msg

/-! ### The roster install as the goroutines interleave it

The controller client's read loop runs `addPeerFromInfo` as three critical sections of the peer
table: the connected check, `AddPeer`, and `SetCipher` with the hello. The tap, UDP and
maintenance goroutines may run between them. The agent takes a message's configuration at once
and queues the roster's phases in `pending`; the read loop takes no other message before they
have run. -/

/-- `handleNetworkConfig` up to its roster, whose phases are queued. -/
def beginNetworkConfig (a : Agent) (msg : NetworkConfigMessage) : Agent :=
  match parsePSK msg.psk with
  | none => a
  | some field =>
      { a.configure msg field with
        pending := msg.peers.map fun info => .check info (field.getD (FixedBytes.zero 32)) }

/-- `handlePeerUpdate` with the phases of an `add` queued. -/
def beginPeerUpdate (a : Agent) (msg : PeerUpdateMessage) : Agent :=
  if msg.action = "add" then { a with pending := [.check msg.peer a.config.psk] }
  else removeFromUpdate a msg

/-- The next queued phase of the read loop, at time `now`. -/
def rosterStep (a : Agent) (now : Int) : Agent :=
  match a.pending with
  | [] => a
  | .check info psk :: rest =>
      match rosterCheck P lookupHost a info with
      | some (pubKey, endpoint) => { a with pending := .add pubKey endpoint psk :: rest }
      | none => { a with pending := rest }
  | .add pubKey endpoint psk :: rest =>
      { rosterAdd P a pubKey endpoint with pending := .install pubKey psk :: rest }
  | .install pubKey psk :: rest => { rosterInstall P a pubKey psk now with pending := rest }

/-! ### What each phase changes -/

@[simp] theorem rosterAdd_config (a : Agent) (pubKey : Bytes32) (endpoint : UDPAddr) :
    (rosterAdd P a pubKey endpoint).config = a.config := rfl

@[simp] theorem rosterAdd_publicKey (a : Agent) (pubKey : Bytes32) (endpoint : UDPAddr) :
    (rosterAdd P a pubKey endpoint).publicKey = a.publicKey := rfl

@[simp] theorem rosterAdd_network (a : Agent) (pubKey : Bytes32) (endpoint : UDPAddr) :
    (rosterAdd P a pubKey endpoint).network = a.network := rfl

@[simp] theorem rosterAdd_pending (a : Agent) (pubKey : Bytes32) (endpoint : UDPAddr) :
    (rosterAdd P a pubKey endpoint).pending = a.pending := rfl

@[simp] theorem rosterInstall_config (a : Agent) (pubKey psk : Bytes32) (now : Int) :
    (rosterInstall P a pubKey psk now).config = a.config :=
  sendHello_config _ _ _

@[simp] theorem rosterInstall_publicKey (a : Agent) (pubKey psk : Bytes32) (now : Int) :
    (rosterInstall P a pubKey psk now).publicKey = a.publicKey :=
  sendHello_publicKey _ _ _

@[simp] theorem rosterInstall_network (a : Agent) (pubKey psk : Bytes32) (now : Int) :
    (rosterInstall P a pubKey psk now).network = a.network :=
  sendHello_network _ _ _

@[simp] theorem rosterInstall_pending (a : Agent) (pubKey psk : Bytes32) (now : Int) :
    (rosterInstall P a pubKey psk now).pending = a.pending :=
  sendHello_pending _ _ _

theorem rosterCheck_eq_some (a : Agent) {info : PeerInfo} {bytes : List UInt8}
    (hkey : hexDecodeString info.publicKey = some bytes) (hlen : bytes.length = 32)
    (hconn : (a.peers.getPeer (addressFromPublicKey P bytes)).any Peer.isConnected = false)
    {ep : UDPAddr} (hep : firstResolved lookupHost info.endpoints = some ep) :
    rosterCheck P lookupHost a info = some (FixedBytes.ofList 32 bytes, ep) := by
  simp only [rosterCheck, hkey, hlen, FixedBytes.ofList_bytes hlen, ne_eq, not_true_eq_false,
    if_false, hconn, Bool.false_eq_true, hep, Option.map_some']

theorem rosterCheck_key {a : Agent} {info : PeerInfo} {k : Bytes32}
    (hk : info.publicKey = hexEncodeToString k.bytes) {pubKey : Bytes32} {ep : UDPAddr}
    (h : rosterCheck P lookupHost a info = some (pubKey, ep)) : pubKey = k := by
  simp only [rosterCheck, hk, hexDecodeString_hexEncodeToString, k.length_eq, ne_eq,
    not_true_eq_false, if_false, FixedBytes.ofList_self] at h
  split at h
  · cases h
  · obtain ⟨_, -, h⟩ := Option.map_eq_some'.mp h
    exact (Prod.mk.inj h).1.symm

theorem lookup_rosterAdd_ne (a : Agent) {pubKey : Bytes32} (endpoint : UDPAddr) {y : Address}
    (hy : y ≠ addressFromPublicKey P pubKey.bytes) :
    (rosterAdd P a pubKey endpoint).peers.lookup y = a.peers.lookup y := by
  rw [rosterAdd, setPeers_peers, PeerManager.lookup_addPeer, if_neg hy]

theorem lookup_rosterInstall_ne (a : Agent) {pubKey : Bytes32} (psk : Bytes32) (now : Int)
    {y : Address} (hy : y ≠ addressFromPublicKey P pubKey.bytes) :
    (rosterInstall P a pubKey psk now).peers.lookup y = a.peers.lookup y := by
  rw [rosterInstall, lookup_sendHello_ne _ hy, setPeers_peers, PeerManager.lookup_modify, if_neg hy]

theorem lookup_rosterInstall_rosterAdd_cipher (a : Agent) (pubKey : Bytes32) (endpoint : UDPAddr)
    (psk : Bytes32) (now : Int) :
    ((rosterInstall P (rosterAdd P a pubKey endpoint) pubKey psk now).peers.lookup
        (addressFromPublicKey P pubKey.bytes)).map Peer.cipher =
      some (some (freshCipher P psk a pubKey)) := by
  rw [rosterInstall, lookup_sendHello_cipher, setPeers_peers, PeerManager.lookup_modify, if_pos rfl,
    rosterAdd, setPeers_peers, PeerManager.lookup_addPeer, if_pos rfl]
  split <;> rfl

/-! ### The roster install without a break -/

theorem addPeerFromInfo_config (a : Agent) (info : PeerInfo) (psk : Bytes32) (now : Int) :
    (addPeerFromInfo P lookupHost a info psk now).config = a.config := by
  unfold addPeerFromInfo
  split <;> simp

theorem addPeerFromInfo_cipher (a : Agent) {info : PeerInfo} (psk : Bytes32) (now : Int)
    {bytes : List UInt8} (hkey : hexDecodeString info.publicKey = some bytes)
    (hlen : bytes.length = 32)
    (hconn : (a.peers.getPeer (addressFromPublicKey P bytes)).any Peer.isConnected = false)
    {ep : UDPAddr} (hep : firstResolved lookupHost info.endpoints = some ep) :
    ((addPeerFromInfo P lookupHost a info psk now).peers.lookup (addressFromPublicKey P bytes)).map
        Peer.cipher = some (some (freshCipher P psk a (FixedBytes.ofList 32 bytes))) := by
  have h := lookup_rosterInstall_rosterAdd_cipher P a (FixedBytes.ofList 32 bytes) ep psk now
  rw [FixedBytes.ofList_bytes hlen] at h
  rw [addPeerFromInfo, rosterCheck_eq_some P lookupHost a hkey hlen hconn hep]
  exact h

theorem configure_eq (a : Agent) (msg : NetworkConfigMessage) (field : Option Bytes32) :
    ∃ (c : Config) (t : Bool) (n : Option Network), c.psk = field.getD a.config.psk ∧
      (n = a.network ∨ n = some (Network.new (scanUint32 msg.networkID))) ∧
      a.configure msg field = { a with config := c, tapUp := t, network := n } := by
  cases field <;> simp only [configure] <;> split <;> refine ⟨_, _, _, ?_, ?_, rfl⟩
  all_goals first | rfl | exact .inl rfl | exact .inr rfl

theorem configure_spec (a : Agent) (msg : NetworkConfigMessage) (field : Option Bytes32) :
    (a.configure msg field).config.psk = field.getD a.config.psk ∧
      (a.configure msg field).config.networkID = scanUint32 msg.networkID ∧
      (a.tapUp = false → (a.configure msg field).network = some (Network.new (scanUint32 msg.networkID))) := by
  cases field <;> simp only [configure] <;> split <;>
    first | exact ⟨rfl, rfl, fun _ => rfl⟩ | exact ⟨rfl, rfl, fun h => by simp_all⟩

theorem configure_peers (a : Agent) (msg : NetworkConfigMessage) (field : Option Bytes32) :
    (a.configure msg field).peers = a.peers := by
  obtain ⟨c, t, n, -, -, h⟩ := configure_eq a msg field
  rw [h]

/-- A `network_config` with an empty PSK field installs its roster with the zero PSK,
whatever the configured PSK, which the message leaves as it was. -/
theorem handleNetworkConfig_empty_psk_cipher (a : Agent) {msg : NetworkConfigMessage} (now : Int)
    (hpsk : msg.psk = "") {info : PeerInfo} (hpeers : msg.peers = [info]) {bytes : List UInt8}
    (hkey : hexDecodeString info.publicKey = some bytes) (hlen : bytes.length = 32)
    (hconn : (a.peers.getPeer (addressFromPublicKey P bytes)).any Peer.isConnected = false)
    {ep : UDPAddr} (hep : firstResolved lookupHost info.endpoints = some ep) :
    (handleNetworkConfig P lookupHost a msg now).config.psk = a.config.psk ∧
      ((handleNetworkConfig P lookupHost a msg now).peers.lookup (addressFromPublicKey P bytes)).map
        Peer.cipher = some (some (freshCipher P (FixedBytes.zero 32) a (FixedBytes.ofList 32 bytes))) := by
  obtain ⟨c, t, n, -, -, hcfg⟩ := configure_eq a msg none
  have hpsk' := (configure_spec a msg none).1
  rw [handleNetworkConfig, hpsk, show parsePSK "" = some none from rfl]
  dsimp only
  rw [hpeers, List.foldl_cons, List.foldl_nil, addPeerFromInfo_config, hpsk', Option.getD_none, hcfg]
  exact ⟨rfl, addPeerFromInfo_cipher P lookupHost _ _ now hkey hlen hconn hep⟩

/-- An agent configured with a PSK, and without a tap yet, receives a configuration without
one: the roster peer gets the cipher of the zero PSK, not of the configured one. -/
theorem handleNetworkConfig_empty_psk_cipher_roster :
    let P : Primitives :=
      ⟨fun k d => FixedBytes.ofList 32 (k ++ d), fun _ _ m _ => m, fun _ _ c _ => some c,
        fun _ _ => default⟩
    let K : Bytes32 := FixedBytes.ofList 32 [1]
    let a : Agent := ⟨⟨K, 0, 0, [], ["7"]⟩, default, 9993, ∅, none, false, [], [], [], []⟩
    let info : PeerInfo := ⟨"x", String.mk (List.replicate 64 '1'), ["1.2.3.4:9993"], "B"⟩
    let pubKey : Bytes32 := FixedBytes.ofList 32 (List.replicate 32 0x11)
    let b := handleNetworkConfig P (fun _ => none) a ⟨"7", 0, "", "", [info]⟩ 0
    b.config.psk = K ∧
      (b.peers.lookup (addressFromPublicKey P pubKey.bytes)).map Peer.cipher =
        some (some (freshCipher P (FixedBytes.zero 32) a pubKey)) ∧
      freshCipher P (FixedBytes.zero 32) a pubKey ≠ freshCipher P K a pubKey := by
  intro P K a info pubKey b
  have h := @handleNetworkConfig_empty_psk_cipher P (fun _ => none) a ⟨"7", 0, "", "", [info]⟩ 0
    rfl info rfl (List.replicate 32 0x11) (by decide) rfl (by decide) ⟨[1, 2, 3, 4], 9993⟩
    (by decide)
  exact ⟨h.1, h.2, by decide⟩

/-! ### The network a configuration sets up -/

theorem addPeerFromInfo_lookup_ne (a : Agent) {info : PeerInfo} {k : Bytes32}
    (hk : info.publicKey = hexEncodeToString k.bytes) (psk : Bytes32) (now : Int) {y : Address}
    (hy : y ≠ addressFromPublicKey P k.bytes) :
    (addPeerFromInfo P lookupHost a info psk now).peers.lookup y = a.peers.lookup y := by
  unfold addPeerFromInfo
  split
  · next pubKey endpoint hc =>
      obtain rfl := rosterCheck_key P lookupHost hk hc
      rw [lookup_rosterInstall_ne P _ psk now hy, lookup_rosterAdd_ne P a endpoint hy]
  · rfl

theorem handlePeerUpdate_remove (a : Agent) {peer : PeerInfo} {addr : Address}
    (hp : peer.address = addr.toHex) (now : Int) :
    (handlePeerUpdate P lookupHost a ⟨"remove", peer⟩ now).peers = a.peers.removePeer addr := by
  rw [handlePeerUpdate, if_neg (show ¬"remove" = "add" by decide), removeFromUpdate, if_pos rfl, hp,
    addressFromHex_toHex]
  rfl

/-! ### Port-only endpoints -/

theorem firstResolved_portOnly {eps : List String} (h : ∀ ep ∈ eps, IsPortOnly ep) :
    firstResolved lookupHost eps = none := by
  induction eps with
  | nil => rfl
  | cons ep eps ih =>
      have ih := ih fun e he => h e (List.mem_cons_of_mem _ he)
      obtain ⟨port, rfl⟩ := h ep (List.mem_cons_self _ _)
      unfold firstResolved
      split
      · next r hr => simp [resolveUDPAddr_portOnlyAddress lookupHost port hr, ih]
      · exact ih

theorem rosterCheck_portOnly (a : Agent) {info : PeerInfo} (h : ∀ ep ∈ info.endpoints, IsPortOnly ep) :
    rosterCheck P lookupHost a info = none := by
  unfold rosterCheck
  rw [firstResolved_portOnly lookupHost h]
  split <;> (try split) <;> simp

theorem foldl_addPeerFromInfo_portOnly (a : Agent) {infos : List PeerInfo} (psk : Bytes32)
    (now : Int) (h : ∀ info ∈ infos, ∀ ep ∈ info.endpoints, IsPortOnly ep) :
    infos.foldl (fun a info => addPeerFromInfo P lookupHost a info psk now) a = a := by
  induction infos with
  | nil => rfl
  | cons info infos ih =>
      rw [List.foldl_cons, addPeerFromInfo,
        rosterCheck_portOnly P lookupHost _ (h info (List.mem_cons_self _ _))]
      exact ih fun i hi => h i (List.mem_cons_of_mem _ hi)

/-- A `network_config` whose roster advertises only port-only endpoints leaves the peer
table as it was. -/
theorem handleNetworkConfig_peers_portOnly (a : Agent) {msg : NetworkConfigMessage} (now : Int)
    (h : ∀ info ∈ msg.peers, ∀ ep ∈ info.endpoints, IsPortOnly ep) :
    (handleNetworkConfig P lookupHost a msg now).peers = a.peers := by
  unfold handleNetworkConfig
  split
  · rfl
  · rw [foldl_addPeerFromInfo_portOnly P lookupHost _ _ _ h, configure_peers]

/-! ### Start-up and runs -/

/-- The static-peer part of `Start`: each configured peer whose endpoint resolves and whose
key decodes is added and handshaken. -/
def addStaticPeer (a : Agent) (sp : PeerEndpoint) (now : Int) : Agent :=
  match resolveUDPAddr lookupHost sp.address, hexDecodeString sp.publicKey with
  | .ok endpoint, some bytes =>
      let pubKey := FixedBytes.ofList 32 bytes
      let peerAddr := addressFromPublicKey P pubKey.bytes
      initiateHandshake P (a.setPeers (a.peers.addPeer peerAddr pubKey (some endpoint))) peerAddr now
  | _, _ => a

inductive Mode where
  | static
  | controller

/-- `New` followed by `Start`: static mode creates the tap and the network at once and
handshakes with the configured peers; controller mode waits for a `network_config`. -/
def start (config : Config) (publicKey : Bytes32) (port : Nat) (mode : Mode) (now : Int) :
    Agent :=
  let a : Agent := ⟨config, publicKey, port, ∅, none, false, [], [], [], []⟩
  match mode with
  | .static =>
      config.staticPeers.foldl (fun a sp => addStaticPeer P lookupHost a sp now)
        { a with tapUp := true, network := some (Network.new config.networkID) }
  | .controller => a

theorem addStaticPeer_frame (a : Agent) (sp : PeerEndpoint) (now : Int) :
    (addStaticPeer P lookupHost a sp now).config = a.config ∧
      (addStaticPeer P lookupHost a sp now).publicKey = a.publicKey ∧
      (addStaticPeer P lookupHost a sp now).tapUp = a.tapUp ∧
      (addStaticPeer P lookupHost a sp now).network = a.network ∧
      (addStaticPeer P lookupHost a sp now).pending = a.pending := by
  unfold addStaticPeer
  split
  · dsimp only
    unfold initiateHandshake
    split
    · exact ⟨sendHello_config _ _ _, sendHello_publicKey _ _ _,
        sendHello_tapUp _ _ _, sendHello_network _ _ _, sendHello_pending _ _ _⟩
    · exact ⟨rfl, rfl, rfl, rfl, rfl⟩
  · exact ⟨rfl, rfl, rfl, rfl, rfl⟩

theorem foldl_addStaticPeer_frame (now : Int) :
    ∀ (l : List PeerEndpoint) (a : Agent),
      (l.foldl (fun a sp => addStaticPeer P lookupHost a sp now) a).config = a.config ∧
      (l.foldl (fun a sp => addStaticPeer P lookupHost a sp now) a).publicKey = a.publicKey ∧
      (l.foldl (fun a sp => addStaticPeer P lookupHost a sp now) a).tapUp = a.tapUp ∧
      (l.foldl (fun a sp => addStaticPeer P lookupHost a sp now) a).network = a.network ∧
      (l.foldl (fun a sp => addStaticPeer P lookupHost a sp now) a).pending = a.pending
  | [], _ => ⟨rfl, rfl, rfl, rfl, rfl⟩
  | sp :: l, a => by
      obtain ⟨h₁, h₂, h₃, h₄, h₅⟩ := foldl_addStaticPeer_frame now l (addStaticPeer P lookupHost a sp now)
      obtain ⟨h₁', h₂', h₃', h₄', h₅'⟩ := addStaticPeer_frame P lookupHost a sp now
      exact ⟨h₁.trans h₁', h₂.trans h₂', h₃.trans h₃', h₄.trans h₄', h₅.trans h₅'⟩

theorem start_pending (config : Config) (publicKey : Bytes32) (port : Nat) (mode : Mode) (now : Int) :
    (start P lookupHost config publicKey port mode now).pending = [] := by
  unfold start
  split
  · exact (foldl_addStaticPeer_frame P lookupHost now _ _).2.2.2.2
  · rfl

theorem sendsOnly_addStaticPeer (a : Agent) (sp : PeerEndpoint) (now : Int) :
    SendsOnly a (addStaticPeer P lookupHost a sp now) := by
  unfold addStaticPeer
  split
  · dsimp only
    unfold initiateHandshake
    split
    · exact (sendsOnly_setPeers _ _).trans ((sendsOnly_setPeers _ _).trans (sendsOnly_sendHello _ _ _))
    · exact sendsOnly_setPeers _ _
  · exact .refl a

theorem start_tapWrites (config : Config) (publicKey : Bytes32) (port : Nat) (mode : Mode) (now : Int) :
    (start P lookupHost config publicKey port mode now).tapWrites = [] := by
  unfold start
  split
  · exact (List.foldlRecOn (motive := SendsOnly _) _ _ _ (.refl _) fun b hb sp _ =>
      hb.trans (sendsOnly_addStaticPeer P lookupHost b sp now)).2
  · rfl

/-- What the agent's goroutines react to after start-up: a datagram, a tap frame, a
maintenance tick, a control message, and the next phase of the roster work the read loop has
pending. -/
inductive Event where
  | udp (data : List UInt8) (src : UDPAddr) (now : Int)
  | tap (data : List UInt8) (now : Int)
  | tick (now : Int)
  | networkConfig (msg : NetworkConfigMessage)
  | peerUpdate (msg : PeerUpdateMessage)
  | roster (now : Int)

/-- One event. The read loop takes a control message only once its roster work is done. -/
def step (a : Agent) : Event → Agent
  | .udp data src now => handleUDPPacket P a data src now
  | .tap data now => handleTapFrame P a data now
  | .tick now => maintenance a now
  | .networkConfig msg => if a.pending.isEmpty then beginNetworkConfig a msg else a
  | .peerUpdate msg => if a.pending.isEmpty then beginPeerUpdate a msg else a
  | .roster now => rosterStep P lookupHost a now

def run (a : Agent) (events : List Event) : Agent := events.foldl (step P lookupHost) a

/-! ### What a control event can do -/

theorem rosterCheck_not_connected {a : Agent} {info : PeerInfo} {pubKey : Bytes32} {ep : UDPAddr}
    (h : rosterCheck P lookupHost a info = some (pubKey, ep)) :
    (a.peers.getPeer (addressFromPublicKey P pubKey.bytes)).any Peer.isConnected = false := by
  unfold rosterCheck at h
  split at h
  · split at h
    · cases h
    · dsimp only at h
      split at h
      · cases h
      · next hconn =>
          obtain ⟨_, -, h⟩ := Option.map_eq_some'.mp h
          rw [← (Prod.mk.inj h).1]
          simpa using hconn
  · cases h

/-- The phases of the roster work: nothing pending; a check that fails; a check that passes,
for a peer that is not connected; an `AddPeer`; a `SetCipher` with its hello. -/
theorem rosterStep_cases (a : Agent) (now : Int) :
    rosterStep P lookupHost a now = a ∨
    (∃ info psk rest, a.pending = .check info psk :: rest ∧
      rosterStep P lookupHost a now = { a with pending := rest }) ∨
    (∃ info psk rest pubKey ep, a.pending = .check info psk :: rest ∧
      rosterCheck P lookupHost a info = some (pubKey, ep) ∧
      rosterStep P lookupHost a now = { a with pending := .add pubKey ep psk :: rest }) ∨
    (∃ pubKey ep psk rest, a.pending = .add pubKey ep psk :: rest ∧
      rosterStep P lookupHost a now = { rosterAdd P a pubKey ep with pending := .install pubKey psk :: rest }) ∨
    (∃ pubKey psk rest, a.pending = .install pubKey psk :: rest ∧
      rosterStep P lookupHost a now = { rosterInstall P a pubKey psk now with pending := rest }) := by
  unfold rosterStep
  split
  · exact .inl rfl
  · next info psk rest hp =>
      split
      · next pubKey ep hc => exact .inr (.inr (.inl ⟨info, psk, rest, pubKey, ep, hp, hc, rfl⟩))
      · exact .inr (.inl ⟨info, psk, rest, hp, rfl⟩)
  · next pubKey ep psk rest hp => exact .inr (.inr (.inr (.inl ⟨pubKey, ep, psk, rest, hp, rfl⟩)))
  · next pubKey psk rest hp => exact .inr (.inr (.inr (.inr ⟨pubKey, psk, rest, hp, rfl⟩)))

theorem rosterStep_frame (a : Agent) (now : Int) :
    (rosterStep P lookupHost a now).config = a.config ∧
      (rosterStep P lookupHost a now).publicKey = a.publicKey ∧
      (rosterStep P lookupHost a now).network = a.network ∧
      (rosterStep P lookupHost a now).tapUp = a.tapUp ∧
      (rosterStep P lookupHost a now).tapWrites = a.tapWrites := by
  rcases rosterStep_cases P lookupHost a now with h | ⟨_, _, _, _, h⟩ | ⟨_, _, _, _, _, _, _, h⟩ |
    ⟨_, _, _, _, _, h⟩ | ⟨pubKey, psk, _, _, h⟩ <;> rw [h]
  · exact ⟨rfl, rfl, rfl, rfl, rfl⟩
  · exact ⟨rfl, rfl, rfl, rfl, rfl⟩
  · exact ⟨rfl, rfl, rfl, rfl, rfl⟩
  · exact ⟨rfl, rfl, rfl, rfl, rfl⟩
  · have hs := sendsOnly_sendHello (a.setPeers (a.peers.modify (addressFromPublicKey P pubKey.bytes)
      fun p => p.setCipher (freshCipher P psk a pubKey) now)) (addressFromPublicKey P pubKey.bytes) now
    exact ⟨congrArg (·.1) hs.1, congrArg (·.2.1) hs.1, rosterInstall_network P _ _ _ _,
      congrArg (·.2.2.1) hs.1, hs.2⟩

theorem beginNetworkConfig_cases (a : Agent) (msg : NetworkConfigMessage) :
    beginNetworkConfig a msg = a ∨
      ∃ field, parsePSK msg.psk = some field ∧ ∃ (c : Config) (t : Bool) (n : Option Network),
        c.psk = field.getD a.config.psk ∧
        (n = a.network ∨ n = some (Network.new (scanUint32 msg.networkID))) ∧
        beginNetworkConfig a msg = { a with
          config := c
          tapUp := t
          network := n
          pending := msg.peers.map fun info => .check info (field.getD (FixedBytes.zero 32)) } := by
  unfold beginNetworkConfig
  split
  · exact .inl rfl
  · next field hfield =>
      obtain ⟨c, t, n, hc, hn, h⟩ := configure_eq a msg field
      exact .inr ⟨field, hfield, c, t, n, hc, hn, by rw [h]⟩

theorem beginPeerUpdate_cases (a : Agent) (msg : PeerUpdateMessage) :
    beginPeerUpdate a msg = { a with pending := [.check msg.peer a.config.psk] } ∨
      beginPeerUpdate a msg = a ∨
      (msg.action = "remove" ∧ ∃ addr, beginPeerUpdate a msg = a.setPeers (a.peers.removePeer addr)) := by
  unfold beginPeerUpdate removeFromUpdate
  split
  · exact .inl rfl
  · split
    · next hr =>
        split
        exacts [.inr (.inr ⟨hr, _, rfl⟩), .inr (.inl rfl)]
    · exact .inr (.inl rfl)

/-! ### The phases refine the atomic handlers -/

end Agent

end ZeroGo
