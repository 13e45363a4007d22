import ZeroGo.Agent.ControllerClient

/-!
The peer records and the MAC table over the runs of one agent.

Every record of the peer table is stored under the address of its own public key, which
`AddressFromPublicKey` keeps away from the zero address, and a remote entry of the MAC table
names the peer a frame came from. So the zero address, the switch's mark for local entries
and its "exclude nobody" argument, is never a peer's, and a flood from the tap reaches every
connected peer.

No step ever marks a peer dead. `maintenanceLoop` changes no peer's state, cipher or
`LastSeen`: a connected peer that has been silent for longer than `PeerTimeout` stays
connected, and `CleanDead`, which drops only dead peers, has nothing to drop. What a tick does
keep up is the sending side: after it no connected peer is due for a keepalive, and every peer
not yet connected has been greeted at its endpoint.

The ARP proxy learns only from the tap. `HandleARP` runs on frames read from the tap alone, so
every binding of the cache was announced by an ARP frame from the agent's own side.
-/

namespace ZeroGo

open Vl1 Vl2

variable (P : Primitives)

/-- A record stored under `k`: it names `k`, `k` is the address of its public key, and it is
not dead. -/
structure RecordSound (k : Address) (p : Peer) : Prop where
  address : p.address = k
  keyed : addressFromPublicKey P p.publicKey.bytes = k
  notDead : p.state ≠ .dead

/-- How the agent updates a record it keeps: the address and key stay, and the state stays or
becomes connected. -/
structure Vl1.Peer.Keeps (p p' : Peer) : Prop where
  address : p'.address = p.address
  publicKey : p'.publicKey = p.publicKey
  state : p'.state = p.state ∨ p'.state = .connected

theorem Vl1.Peer.keeps_setCipher (p : Peer) (c : NoiseCipher) (now : Int) :
    p.Keeps (p.setCipher c now) :=
  ⟨rfl, rfl, .inr rfl⟩

variable {P}

theorem RecordSound.keeps {k : Address} {p p' : Peer} (h : RecordSound P k p)
    (hk : p.Keeps p') : RecordSound P k p' where
  address := hk.address.trans h.address
  keyed := hk.publicKey ▸ h.keyed
  notDead := by
    rcases hk.state with hs | hs <;> rw [hs]
    exacts [h.notDead, by decide]

theorem RecordSound.address_b0_ne_zero {k : Address} {p : Peer} (h : RecordSound P k p) :
    p.address.b0 ≠ 0 := by
  rw [h.address, ← h.keyed]
  exact addressFromPublicKey_b0_ne_zero P _

/-- Every remote entry of a MAC table names an address whose first byte is non-zero. -/
def RemoteSound (t : MACTable) : Prop :=
  ∀ mk e, t.lookup mk = some e → e.isLocal = false → e.peerAddr.b0 ≠ 0

theorem RemoteSound.learn {t : MACTable} (ht : RemoteSound t) (mac : List UInt8)
    {peerAddr : Address} {isLocal : Bool} (hp : isLocal = false → peerAddr.b0 ≠ 0) (now : Int) :
    RemoteSound (Switch.learn t mac peerAddr isLocal now) := by
  intro mk e he hl
  by_cases hk : mk = macToKey mac
  · subst hk
    rw [Switch.lookup_learn_self, Option.some_inj] at he
    subst he
    exact hp hl
  · rcases Switch.lookup_learn_ne t hk peerAddr isLocal now with h | h <;> rw [h] at he
    · exact ht mk e he hl
    · cases he

theorem RemoteSound.cleanExpired {sw : Switch} (h : RemoteSound sw.macTable) (now : Int) :
    RemoteSound (sw.cleanExpired now).1.macTable := fun mk e he =>
  h mk e (GoMap.lookup_of_lookup_filter he).1

theorem remoteSound_new (networkID : UInt32) : RemoteSound (Switch.new networkID).macTable :=
  fun _ _ he => by simp [Switch.new] at he

variable (P)

/-- The addresses an agent holds: its peer records are sound, and so are the remote entries of
its MAC table. -/
structure AddrInv (a : Agent) : Prop where
  records : ∀ k p, a.peers.lookup k = some p → RecordSound P k p
  remote : ∀ net, a.network = some net → RemoteSound net.switch.macTable

namespace AddrInv

variable {P} {a : Agent}

theorem of_peers {a' : Agent} (hi : AddrInv P a) (hp : a'.peers = a.peers)
    (hn : ∀ net, a'.network = some net → RemoteSound net.switch.macTable) : AddrInv P a' :=
  ⟨fun k p h => hi.records k p (hp ▸ h), hn⟩

theorem of_eq {a' : Agent} (hi : AddrInv P a) (hp : a'.peers = a.peers)
    (hn : a'.network = a.network) : AddrInv P a' :=
  hi.of_peers hp fun net h => hi.remote net (hn ▸ h)

theorem sendPacket (hi : AddrInv P a) (pkt : Packet) (e : Option UDPAddr) :
    AddrInv P (a.sendPacket pkt e) :=
  hi.of_eq (Agent.sendPacket_peers a pkt e) (Agent.sendPacket_network a pkt e)

theorem insert (hi : AddrInv P a) {k : Address} {q : Peer} (hq : RecordSound P k q) :
    AddrInv P (a.setPeers (a.peers.insert k q)) := by
  refine ⟨fun k' p hl => ?_, hi.remote⟩
  rw [Agent.setPeers_peers] at hl
  by_cases hk : k' = k
  · subst hk
    rw [AList.lookup_insert, Option.some_inj] at hl
    exact hl ▸ hq
  · rw [AList.lookup_insert_ne hk] at hl
    exact hi.records k' p hl

theorem keep (hi : AddrInv P a) {k : Address} {p q : Peer} (hp : a.peers.lookup k = some p)
    (hk : p.Keeps q) : AddrInv P (a.setPeers (a.peers.insert k q)) :=
  hi.insert ((hi.records k p hp).keeps hk)

theorem modify (hi : AddrInv P a) (addr : Address) {f : Peer → Peer}
    (hf : ∀ p : Peer, p.Keeps (f p)) :
    AddrInv P (a.setPeers (a.peers.modify addr f)) := by
  unfold PeerManager.modify
  split
  · next p hp => exact hi.keep hp (hf p)
  · exact hi.of_eq rfl rfl

/-- `AddPeer` under the address of the key it is given, as every caller in the agent does. -/
theorem addPeer (hi : AddrInv P a) (pubKey : Bytes32) (endpoint : Option UDPAddr) :
    AddrInv P
      (a.setPeers (a.peers.addPeer (addressFromPublicKey P pubKey.bytes) pubKey endpoint)) := by
  unfold PeerManager.addPeer
  split
  · next p hp =>
      split
      · exact hi.keep hp ⟨rfl, rfl, .inl rfl⟩
      · exact hi.of_eq rfl rfl
  · exact hi.insert ⟨rfl, rfl, by simp [Peer.new]⟩

theorem removePeer (hi : AddrInv P a) (addr : Address) :
    AddrInv P (a.setPeers (a.peers.removePeer addr)) := by
  refine ⟨fun k p hl => ?_, hi.remote⟩
  rw [Agent.setPeers_peers, PeerManager.removePeer] at hl
  by_cases hk : k = addr
  · subst hk
    rw [AList.lookup_erase] at hl
    cases hl
  · rw [AList.lookup_erase_ne hk] at hl
    exact hi.records k p hl

theorem setNetwork (hi : AddrInv P a) {n : Network} (hn : RemoteSound n.switch.macTable) :
    AddrInv P { a with network := some n } :=
  hi.of_peers rfl fun _ h => Option.some_inj.mp h ▸ hn

theorem lookup_of_getPeerByEndpoint (hi : AddrInv P a) {src : UDPAddr} {peer : Peer}
    (h : a.peers.getPeerByEndpoint src = some peer) : a.peers.lookup peer.address = some peer := by
  obtain ⟨s, hs, rfl⟩ := Option.map_eq_some'.mp h
  have hl : a.peers.lookup s.1 = some s.2 := AList.mem_lookup_iff.mpr (List.mem_of_find?_eq_some hs)
  rw [(hi.records _ _ hl).address]
  exact hl

/-! ### Each handler -/

variable (lookupHost : String → Option (List UInt8))

theorem sendHello (hi : AddrInv P a) (addr : Address) (now : Int) :
    AddrInv P (Agent.sendHello a addr now) := by
  unfold Agent.sendHello
  split
  · split
    · refine AddrInv.modify ?_ addr fun _ => ⟨rfl, rfl, .inl rfl⟩
      exact hi.of_eq rfl rfl
    · exact hi
  · exact hi

theorem initiateHandshake (hi : AddrInv P a) (addr : Address) (now : Int) :
    AddrInv P (Agent.initiateHandshake P a addr now) := by
  unfold Agent.initiateHandshake
  split
  · exact (hi.modify addr fun p => p.keeps_setCipher _ now).sendHello addr now
  · exact hi

theorem handleHandshake (hi : AddrInv P a) (payload : List UInt8) (src : UDPAddr) (now : Int) :
    AddrInv P (Agent.handleHandshake P a payload src now) := by
  unfold Agent.handleHandshake
  split
  · exact hi
  · dsimp only
    split
    · have h₁ := hi.modify (addressFromPublicKey P (FixedBytes.ofList 32 payload).bytes)
        (f := fun p => { p with endpoint := some src }.touch now) fun _ => ⟨rfl, rfl, .inl rfl⟩
      split
      · exact h₁.modify _ fun p => p.keeps_setCipher _ now
      · exact h₁
    · exact ((hi.addPeer _ _).modify _ fun p => p.keeps_setCipher _ now).sendHello _ _

theorem encryptAndSend (hi : AddrInv P a) (addr : Address) (networkID : UInt32)
    (frame : List UInt8) : AddrInv P (Agent.encryptAndSend P a addr networkID frame) := by
  unfold Agent.encryptAndSend
  split
  · next peer hp =>
      split
      · next c _ =>
          dsimp only
          rw [Agent.setPeers_sendPacket]
          refine AddrInv.sendPacket ?_ _ _
          exact AddrInv.keep (a := { a with seals := a.seals ++ [⟨addr, c.sendKey, c.sendNonce⟩] })
            (hi.of_eq rfl rfl) hp ⟨rfl, rfl, .inl rfl⟩
      · exact hi
  · exact hi

theorem broadcastToPeers (hi : AddrInv P a) (networkID : UInt32) (frame : List UInt8)
    (excludePeer : Address) :
    AddrInv P (Agent.broadcastToPeers P a networkID frame excludePeer) := by
  refine List.foldlRecOn (motive := AddrInv P) _ _ _ hi fun b hb peer _ => ?_
  unfold Agent.broadcastStep
  split
  · exact hb
  · exact hb.encryptAndSend _ _ _

theorem performCall (hi : AddrInv P a) (call : SendCall) :
    AddrInv P (Agent.performCall P a call) := by
  cases call with
  | sendToPeer peerAddr networkID frame =>
      show AddrInv P (Agent.sendToPeer P a peerAddr networkID frame).1
      unfold Agent.sendToPeer
      split
      · exact hi
      · split
        · exact hi
        · exact hi.encryptAndSend _ _ _
  | broadcastToPeers networkID frame excludePeer => exact hi.broadcastToPeers _ _ _

theorem inject (hi : AddrInv P a) (frame : Option (List UInt8)) :
    AddrInv P (Agent.inject a frame) := by
  unfold Agent.inject
  split
  · split
    · exact hi.of_eq rfl rfl
    · exact hi
  · exact hi

theorem handleDataPacket (hi : AddrInv P a) (pkt : Packet) (src : UDPAddr) (now : Int) :
    AddrInv P (Agent.handleDataPacket P a pkt src now) := by
  unfold Agent.handleDataPacket
  split
  · exact hi
  · next peer hpeer =>
      have hl := hi.lookup_of_getPeerByEndpoint hpeer
      have hb0 := (hi.records _ _ hl).address_b0_ne_zero
      dsimp only
      split
      · exact hi.keep hl ⟨rfl, rfl, .inl rfl⟩
      · next peer' plaintext hdec =>
          obtain ⟨c, c', -, -, rfl⟩ := Peer.decrypt_ok hdec
          have hb :=
            hi.keep hl (q := { peer.touch now with cipher := some c' }) ⟨rfl, rfl, .inl rfl⟩
          split
          · exact hb
          · next net hnet =>
              split
              · exact hb
              · next sw call frame hsw =>
                  obtain ⟨parsed, -, hr⟩ := Switch.handleRemoteFrame_ok hsw
                  have hn := hb.setNetwork (n := { net with switch := sw }) (by
                    simp only at hr
                    rw [hr]
                    exact (hb.remote net hnet).learn _ (fun _ => hb0) now)
                  refine AddrInv.inject ?_ _
                  split
                  · exact hn.performCall _
                  · exact hn

theorem handleUDPPacket (hi : AddrInv P a) (data : List UInt8) (src : UDPAddr) (now : Int) :
    AddrInv P (Agent.handleUDPPacket P a data src now) := by
  unfold Agent.handleUDPPacket
  split
  · exact hi
  · split
    · exact hi.handleHandshake _ _ _
    · split
      · exact hi.handleDataPacket _ _ _
      · split
        · split
          · exact hi.modify _ fun _ => ⟨rfl, rfl, .inl rfl⟩
          · exact hi
        · exact hi

theorem handleTapFrame (hi : AddrInv P a) (data : List UInt8) (now : Int) :
    AddrInv P (Agent.handleTapFrame P a data now) := by
  unfold Agent.handleTapFrame
  split
  · exact hi
  · split
    · next frame net hp hnet =>
        dsimp only
        have ha : ∀ arp, AddrInv P { a with network := some { net with arp := arp } } :=
          fun _ => hi.setNetwork (hi.remote net hnet)
        split
        · exact (ha _).of_eq rfl rfl
        · split
          · next sw call hsw =>
              obtain ⟨parsed, -, hr⟩ := Switch.handleLocalFrame_ok hsw
              have hn : ∀ arp, AddrInv P { a with network := some ⟨sw, arp⟩ } := fun _ =>
                hi.setNetwork (by
                  simp only at hr
                  rw [hr]
                  exact (hi.remote net hnet).learn _ (fun h => absurd h (by decide)) now)
              split
              · exact (hn _).performCall _
              · exact hn _
          · exact ha _
    · exact hi

theorem maintenance (hi : AddrInv P a) (now : Int) : AddrInv P (Agent.maintenance a now) := by
  refine Agent.maintenance_induction now hi (fun b peer hb => ?_) (fun b _ hb => hb.sendHello _ _)
    fun b net hb hnet => hb.setNetwork ((hb.remote net hnet).cleanExpired now)
  rw [Agent.setPeers_sendPacket]
  refine (hb.modify _ ?_).sendPacket _ _
  exact fun _ => ⟨rfl, rfl, .inl rfl⟩

theorem rosterInstall (hi : AddrInv P a) (pubKey psk : Bytes32) (now : Int) :
    AddrInv P (Agent.rosterInstall P a pubKey psk now) :=
  (hi.modify _ fun p => p.keeps_setCipher _ now).sendHello _ _

theorem rosterStep (hi : AddrInv P a) (now : Int) :
    AddrInv P (Agent.rosterStep P lookupHost a now) := by
  rcases Agent.rosterStep_cases P lookupHost a now with h | ⟨_, _, _, _, h⟩ |
    ⟨_, _, _, _, _, _, _, h⟩ | ⟨pubKey, ep, _, _, _, h⟩ | ⟨pubKey, psk, _, _, h⟩ <;> rw [h]
  exacts [hi, hi.of_eq rfl rfl, hi.of_eq rfl rfl, (hi.addPeer pubKey (some ep)).of_eq rfl rfl,
    (hi.rosterInstall pubKey psk now).of_eq rfl rfl]

theorem beginNetworkConfig (hi : AddrInv P a) (msg : NetworkConfigMessage) :
    AddrInv P (Agent.beginNetworkConfig a msg) := by
  rcases Agent.beginNetworkConfig_cases a msg with h | ⟨_, _, _, _, n, _, hn | hn, h⟩ <;> rw [h]
  · exact hi
  · exact hi.of_eq rfl hn
  · exact hi.of_peers rfl fun _ h => Option.some_inj.mp (hn.symm.trans h) ▸ remoteSound_new _

theorem beginPeerUpdate (hi : AddrInv P a) (msg : PeerUpdateMessage) :
    AddrInv P (Agent.beginPeerUpdate a msg) := by
  rcases Agent.beginPeerUpdate_cases a msg with h | h | ⟨_, addr, h⟩ <;> rw [h]
  exacts [hi.of_eq rfl rfl, hi, hi.removePeer addr]

theorem step (hi : AddrInv P a) (e : Agent.Event) : AddrInv P (Agent.step P lookupHost a e) := by
  cases e with
  | udp data src now => exact hi.handleUDPPacket data src now
  | tap data now => exact hi.handleTapFrame data now
  | tick now => exact hi.maintenance now
  | networkConfig msg =>
      simp only [Agent.step]
      split
      exacts [hi.beginNetworkConfig msg, hi]
  | peerUpdate msg =>
      simp only [Agent.step]
      split
      exacts [hi.beginPeerUpdate msg, hi]
  | roster now => exact hi.rosterStep lookupHost now

theorem run (hi : AddrInv P a) (events : List Agent.Event) :
    AddrInv P (Agent.run P lookupHost a events) :=
  List.foldlRecOn (motive := AddrInv P) _ _ _ hi fun _ hb e _ => hb.step lookupHost e

theorem addStaticPeer (hi : AddrInv P a) (sp : PeerEndpoint) (now : Int) :
    AddrInv P (Agent.addStaticPeer P lookupHost a sp now) := by
  unfold Agent.addStaticPeer
  split
  · exact (hi.addPeer _ _).initiateHandshake _ _
  · exact hi

theorem start (config : Config) (publicKey : Bytes32) (port : Nat) (mode : Agent.Mode)
    (now : Int) : AddrInv P (Agent.start P lookupHost config publicKey port mode now) := by
  unfold Agent.start
  split
  · refine List.foldlRecOn (motive := AddrInv P) _ _ _ ⟨fun k p h => by simp at h, fun _ h => ?_⟩
      fun b hb sp _ => hb.addStaticPeer lookupHost sp now
    exact Option.some_inj.mp h ▸ remoteSound_new _
  · exact ⟨fun k p h => by simp at h, fun _ h => by cases h⟩

end AddrInv

/-! ### Addresses over every run -/

theorem mem_connectedPeers {pm : PeerManager} {peer : Peer} (h : peer ∈ pm.connectedPeers) :
    ∃ k, pm.lookup k = some peer := by
  obtain ⟨s, hs, rfl⟩ := List.mem_map.mp (List.mem_filter.mp h).1
  exact ⟨s.1, AList.mem_lookup_iff.mpr hs⟩

/-- On every run of an agent, every peer record is stored under its own address, whose first
byte is non-zero, and so is the address every remote entry of the MAC table names. No peer is
the zero address, so `BroadcastToPeers` excluding the zero address, as `HandleLocalFrame`
calls it, encrypts and sends to every connected peer. -/
theorem peer_addresses_nonzero (lookupHost : String → Option (List UInt8)) (config : Config)
    (publicKey : Bytes32) (port : Nat) (mode : Agent.Mode) (now : Int)
    (events : List Agent.Event) :
    let b := (Agent.start P lookupHost config publicKey port mode now).run P lookupHost events
    (∀ k p, b.peers.lookup k = some p → p.address = k ∧ k.b0 ≠ 0) ∧
    (∀ net, b.network = some net → ∀ mk e, net.switch.macTable.lookup mk = some e →
      e.isLocal = false → e.peerAddr.b0 ≠ 0) ∧
    ∀ networkID frame, Agent.broadcastToPeers P b networkID frame Address.zero =
      b.peers.connectedPeers.foldl
        (fun a peer => Agent.encryptAndSend P a peer.address networkID frame) b := by
  intro b
  have hi : AddrInv P b :=
    (AddrInv.start lookupHost config publicKey port mode now).run lookupHost events
  refine ⟨fun k p h => ⟨(hi.records k p h).address, ?_⟩, hi.remote, fun networkID frame => ?_⟩
  · rw [← (hi.records k p h).address]
    exact (hi.records k p h).address_b0_ne_zero
  · refine List.foldl_ext _ _ _ fun a peer hpeer => ?_
    obtain ⟨k, hk⟩ := mem_connectedPeers hpeer
    have hne : peer.address ≠ Address.zero := fun h =>
      (hi.records k peer hk).address_b0_ne_zero (by rw [h]; rfl)
    simp only [Agent.broadcastStep, if_neg hne]

/-! ### Liveness of peers -/

/-- `b` holds the records of `a` with the same states, ciphers and `LastSeen`, under the same
addresses. -/
def StatusKept (a b : Agent) : Prop :=
  ∀ k, (b.peers.lookup k).map (fun p => (p.state, p.cipher, p.lastSeen)) =
    (a.peers.lookup k).map fun p => (p.state, p.cipher, p.lastSeen)

namespace StatusKept

theorem of_peers {a b : Agent} (h : b.peers = a.peers) : StatusKept a b := fun k => by rw [h]

theorem trans {a b c : Agent} (h₁ : StatusKept a b) (h₂ : StatusKept b c) : StatusKept a c :=
  fun k => (h₂ k).trans (h₁ k)

theorem modify (a : Agent) (addr : Address) {f : Peer → Peer}
    (hf : ∀ p, (f p).state = p.state ∧ (f p).cipher = p.cipher ∧ (f p).lastSeen = p.lastSeen) :
    StatusKept a (a.setPeers (a.peers.modify addr f)) := by
  intro k
  rw [Agent.setPeers_peers, PeerManager.lookup_modify]
  split
  · next hk =>
      subst hk
      cases a.peers.lookup k <;> simp [hf]
  · rfl

theorem sendHello (a : Agent) (addr : Address) (now : Int) :
    StatusKept a (Agent.sendHello a addr now) := by
  unfold Agent.sendHello
  split
  · split
    · exact (of_peers rfl).trans (modify _ addr fun _ => ⟨rfl, rfl, rfl⟩)
    · exact of_peers rfl
  · exact of_peers rfl

theorem maintenance (a : Agent) (now : Int) : StatusKept a (Agent.maintenance a now) := by
  refine Agent.maintenance_induction now (of_peers rfl) (fun b peer hb => ?_)
    (fun b addr hb => hb.trans (sendHello b addr now)) fun b _ hb _ => hb.trans (of_peers rfl)
  rw [Agent.setPeers_sendPacket]
  refine (hb.trans (modify b _ ?_)).trans (of_peers (Agent.sendPacket_peers _ _ _))
  exact fun _ => ⟨rfl, rfl, rfl⟩

end StatusKept

/-- A maintenance tick keeps every peer's state, cipher and `LastSeen`, so a connected peer
stays connected however long it has been silent; and on every run no peer is ever dead, so
`CleanDead` drops nothing. -/
theorem silent_peers_stay_connected (lookupHost : String → Option (List UInt8)) :
    (∀ (a : Agent) (now : Int), StatusKept a (Agent.maintenance a now)) ∧
    ∀ (config : Config) (publicKey : Bytes32) (port : Nat) (mode : Agent.Mode) (now : Int)
      (events : List Agent.Event) (t : Int),
      let b := (Agent.start P lookupHost config publicKey port mode now).run P lookupHost events
      (∀ k p, b.peers.lookup k = some p → p.state ≠ .dead) ∧
        b.peers.cleanDead t = (b.peers, 0) := by
  refine ⟨StatusKept.maintenance, fun config publicKey port mode now events t => ?_⟩
  intro b
  have hi : AddrInv P b :=
    (AddrInv.start lookupHost config publicKey port mode now).run lookupHost events
  have hkept : GoMap.filter (fun _ p => !(!p.isAlive t && p.state == .dead)) b.peers = b.peers := by
    refine AList.ext (List.filter_eq_self.mpr fun s hs => ?_)
    have := (hi.records s.1 s.2 (AList.mem_lookup_iff.mpr hs)).notDead
    simp [this]
  refine ⟨fun k p h => (hi.records k p h).notDead, ?_⟩
  simp only [PeerManager.cleanDead, hkept, Nat.sub_self]

/-- A static agent greets its one configured peer at time 0; at a tick 61 s later the peer,
silent since, is still connected although `IsAlive` is false. -/
theorem silent_static_peer_survives_tick :
    let config : Config :=
      ⟨default, 7, 0, [⟨String.mk (List.replicate 64 '1'), "1.2.3.4:9993"⟩], []⟩
    let a := Agent.start NoiseCipher.transparentPrimitives (fun _ => none) config default 9993
      .static 0
    let t : Int := 61 * 1000000000
    ((Agent.maintenance a t).peers.lookup ⟨0x11, 0x11, 0x11, 0x11, 0x11⟩).map
      (fun p => (p.isConnected, p.isAlive t)) = some (true, false) := by
  intro config a t
  have h := (silent_peers_stay_connected NoiseCipher.transparentPrimitives (fun _ => none)).1 a t
    ⟨0x11, 0x11, 0x11, 0x11, 0x11⟩
  have hst : (fun p : Peer => (p.isConnected, p.isAlive t)) =
      (fun s : PeerState × Option NoiseCipher × Int =>
        (s.1 == .connected && s.2.1.isSome, decide (t - s.2.2 < PeerTimeout))) ∘
        fun p => (p.state, p.cipher, p.lastSeen) := rfl
  rw [hst, ← Option.map_map, h, Option.map_map]
  decide

/-! ### Keepalives and hellos -/

/-- The keepalive step of `maintenanceLoop` for one connected peer. -/
def Agent.keepaliveStep (now : Int) (a : Agent) (peer : Peer) : Agent :=
  if peer.needsKeepalive now then
    (a.sendPacket newKeepalivePacket peer.endpoint).setPeers
      (a.peers.modify peer.address fun p => { p with lastSend := now })
  else a

/-- The hello step of `maintenanceLoop` for one peer. -/
def Agent.helloStep (now : Int) (a : Agent) (peer : Peer) : Agent :=
  if !peer.isConnected then Agent.sendHello a peer.address now else a

/-- `b` is `a` with the `LastSend` of some records set to `now` and some datagrams sent. -/
def Stamps (now : Int) (a b : Agent) : Prop :=
  (∀ k, b.peers.lookup k = a.peers.lookup k ∨
    b.peers.lookup k = (a.peers.lookup k).map fun p => { p with lastSend := now }) ∧
  a.sent <+: b.sent ∧ b.publicKey = a.publicKey

namespace Stamps

variable {now : Int} {a b c : Agent}

theorem of_peers (hp : b.peers = a.peers) (hs : b.sent = a.sent) (hk : b.publicKey = a.publicKey) :
    Stamps now a b :=
  ⟨fun _ => .inl (by rw [hp]), hs ▸ List.prefix_refl _, hk⟩

theorem trans (h₁ : Stamps now a b) (h₂ : Stamps now b c) : Stamps now a c := by
  refine ⟨fun k => ?_, h₁.2.1.trans h₂.2.1, h₂.2.2.trans h₁.2.2⟩
  rcases h₂.1 k with h | h <;> rw [h] <;> rcases h₁.1 k with h' | h' <;> rw [h']
  exacts [.inl rfl, .inr rfl, .inr rfl, .inr (by rw [Option.map_map]; rfl)]

theorem stamp (a : Agent) (addr : Address) (pkt : Packet) (e : Option UDPAddr) :
    Stamps now a ((a.sendPacket pkt e).setPeers
      (a.peers.modify addr fun p => { p with lastSend := now })) := by
  refine ⟨fun k => ?_, ?_, by cases e <;> rfl⟩
  · rw [Agent.setPeers_peers, PeerManager.lookup_modify]
    split
    · next hk => exact .inr (hk ▸ rfl)
    · exact .inl rfl
  · cases e
    exacts [List.prefix_refl _, List.prefix_append _ _]

theorem sendHello (a : Agent) (addr : Address) : Stamps now a (Agent.sendHello a addr now) := by
  unfold Agent.sendHello
  split
  · split
    exacts [stamp a addr _ _, of_peers rfl rfl rfl]
  · exact of_peers rfl rfl rfl

theorem keepaliveStep (a : Agent) (peer : Peer) : Stamps now a (Agent.keepaliveStep now a peer) := by
  unfold Agent.keepaliveStep
  split
  exacts [stamp a _ _ _, of_peers rfl rfl rfl]

theorem helloStep (a : Agent) (peer : Peer) : Stamps now a (Agent.helloStep now a peer) := by
  unfold Agent.helloStep
  split
  exacts [sendHello a _, of_peers rfl rfl rfl]

theorem foldl {op : Agent → Peer → Agent} (hop : ∀ b y, Stamps now b (op b y)) :
    ∀ (L : List Peer) (b : Agent), Stamps now b (L.foldl op b)
  | [], _ => of_peers rfl rfl rfl
  | y :: L, b => (hop b y).trans (foldl hop L _)

theorem lookup (h : Stamps now a b) {k : Address} {q : Peer} (hq : b.peers.lookup k = some q) :
    ∃ p, a.peers.lookup k = some p ∧ (q = p ∨ q = { p with lastSend := now }) := by
  rcases h.1 k with h' | h' <;> rw [h'] at hq
  · exact ⟨q, hq, .inl rfl⟩
  · obtain ⟨p, hp, rfl⟩ := Option.map_eq_some'.1 hq
    exact ⟨p, hp, .inr rfl⟩

theorem lastSend (h : Stamps now a b) {k : Address}
    (hk : ∀ q, a.peers.lookup k = some q → q.lastSend = now) :
    ∀ q, b.peers.lookup k = some q → q.lastSend = now := by
  intro q hq
  obtain ⟨p, hp, rfl | rfl⟩ := h.lookup hq
  exacts [hk _ hp, rfl]

theorem sent (h : Stamps now a b) {d : Datagram} (hd : d ∈ a.sent) : d ∈ b.sent :=
  h.2.1.subset hd

theorem maintenance (a : Agent) (now : Int) :
    let b := a.peers.connectedPeers.foldl (Agent.keepaliveStep now) a
    let b := b.peers.allPeers.foldl (Agent.helloStep now) b
    Stamps now b (Agent.maintenance a now) := by
  unfold Agent.maintenance
  dsimp only
  split <;> exact of_peers rfl rfl rfl

end Stamps

/-- A frame read from the tap that teaches the ARP proxy that `ip` is at `mac`: a well-formed
ARP frame for IPv4 over Ethernet whose sender is `ip`, `mac` being the six-byte copy of its
sender MAC that `learn` stores. -/
def Agent.Event.TeachesARP (ip : IPv4Key) (mac : List UInt8) : Agent.Event → Prop
  | .tap data _ => ∃ f, parseEthernetFrame data = .ok f ∧ f.isARP = true ∧
      ARPProxy.IsEthernetIPv4 f.payload ∧ ARPProxy.senderIP f.payload = ip ∧
      (FixedBytes.ofList 6 (ARPProxy.senderMAC f.payload)).bytes = mac
  | _ => False

/-- Every binding of the cache was taught by one of `events`. -/
def ARPCacheTaught (events : List Agent.Event) (c : ARPCache) : Prop :=
  ∀ ip e, c.lookup ip = some e → ∃ ev ∈ events, ev.TeachesARP ip e.mac

/-- Every binding of the agent's ARP cache, if it has a network, was taught by one of
`events`. -/
def ARPTaught (events : List Agent.Event) (a : Agent) : Prop :=
  ∀ net, a.network = some net → ARPCacheTaught events net.arp.cache

namespace ARPCacheTaught

variable {E : List Agent.Event} {c : ARPCache}

theorem learn (hc : ARPCacheTaught E c) {ip : IPv4Key} {mac : List UInt8}
    (ht : ∃ ev ∈ E, ev.TeachesARP ip (FixedBytes.ofList 6 mac).bytes) (now : Int) :
    ARPCacheTaught E (ARPProxy.learn c ip mac now) := by
  intro k e he
  by_cases hk : k = ip
  · subst hk
    rw [ARPProxy.lookup_learn_self, Option.some_inj] at he
    exact he ▸ ht
  · rcases ARPProxy.lookup_learn_ne c hk mac now with h | h <;> rw [h] at he
    exacts [hc k e he, nomatch he]

theorem handleARP {a : ARPProxy} (hc : ARPCacheTaught E a.cache) {data : List UInt8} {now : Int}
    (hmem : Agent.Event.tap data now ∈ E) {f : EthernetFrame} (hp : parseEthernetFrame data = .ok f)
    (harp : f.isARP = true) : ARPCacheTaught E (a.handleARP f now).1.cache := by
  rw [ARPProxy.handleARP_cache]
  split
  · next hwf =>
      have ht : ∃ ev ∈ E, ev.TeachesARP (ARPProxy.senderIP f.payload)
          (FixedBytes.ofList 6 (ARPProxy.senderMAC f.payload)).bytes :=
        ⟨_, hmem, f, hp, harp, hwf, rfl, rfl⟩
      split
      exacts [(hc.learn ht now).learn ht now, hc.learn ht now]
  · exact hc

theorem empty (E : List Agent.Event) : ARPCacheTaught E ARPProxy.new.cache :=
  fun _ _ he => nomatch he

end ARPCacheTaught

namespace ARPTaught

variable (lookupHost : String → Option (List UInt8)) {E : List Agent.Event} {a : Agent}

theorem of_arp (h : ARPTaught E a) {b : Agent}
    (hb : b.network.map Network.arp = a.network.map Network.arp) : ARPTaught E b := by
  intro net hnet
  rw [hnet] at hb
  obtain ⟨net', hnet', harp⟩ := Option.map_eq_some'.1 hb.symm
  exact harp ▸ h net' hnet'

theorem handleTapFrame (h : ARPTaught E a) {data : List UInt8} {now : Int}
    (hmem : Agent.Event.tap data now ∈ E) : ARPTaught E (Agent.handleTapFrame P a data now) := by
  unfold Agent.handleTapFrame
  split
  · exact h
  split
  · next frame net hp hnet =>
      have hc : ARPCacheTaught E
          (if frame.isARP then net.arp.handleARP frame now else (net.arp, none)).1.cache := by
        split
        exacts [(h net hnet).handleARP hmem hp ‹_›, h net hnet]
      dsimp only
      generalize (if frame.isARP then net.arp.handleARP frame now else (net.arp, none)) = r at hc ⊢
      have hn : ∀ (b : Agent) sw, b.network = some ⟨sw, r.1⟩ → ARPTaught E b :=
        fun _ _ hb _ h' => Option.some_inj.1 (hb.symm.trans h') ▸ hc
      split
      · exact hn _ _ rfl
      split
      · split
        exacts [hn _ _ (Agent.performCall_network P _ _), hn _ _ rfl]
      · exact hn _ _ rfl
  · exact h

theorem maintenance (h : ARPTaught E a) (now : Int) : ARPTaught E (Agent.maintenance a now) := by
  refine Agent.maintenance_induction now h (fun b peer hb => hb.of_arp (congrArg _
    ((Agent.setPeers_network _ _).trans (Agent.sendPacket_network _ _ _))))
    (fun b addr hb => hb.of_arp (by rw [Agent.sendHello_network])) fun b net hb hnet => ?_
  intro net' h'
  obtain rfl := Option.some_inj.1 h'
  exact fun ip e he => hb net hnet ip e (ARPProxy.lookup_cleanExpired.1 he).1

theorem new (E : List Agent.Event) {b : Agent} {networkID : UInt32}
    (hb : b.network = some (Network.new networkID)) : ARPTaught E b := by
  intro net h'
  rw [hb, Option.some_inj] at h'
  exact h' ▸ ARPCacheTaught.empty E

theorem step (h : ARPTaught E a) {ev : Agent.Event} (hev : ev ∈ E) :
    ARPTaught E (Agent.step P lookupHost a ev) := by
  cases ev with
  | udp data src now => exact h.of_arp (Agent.handleUDPPacket_arp P a data src now)
  | tap data now => exact h.handleTapFrame P hev
  | tick now => exact h.maintenance now
  | networkConfig msg =>
      simp only [Agent.step]
      split
      · rcases Agent.beginNetworkConfig_cases a msg with hb | ⟨_, _, _, _, n, _, hn | hn, hb⟩ <;>
          rw [hb]
        exacts [h, h.of_arp (by rw [hn]), ARPTaught.new E hn]
      · exact h
  | peerUpdate msg =>
      simp only [Agent.step]
      split
      · rcases Agent.beginPeerUpdate_cases a msg with hb | hb | ⟨_, _, hb⟩ <;> rw [hb]
        exacts [h.of_arp rfl, h, h.of_arp rfl]
      · exact h
  | roster now => exact h.of_arp (congrArg _ (Agent.rosterStep_frame P lookupHost a now).2.2.1)

theorem run (h : ARPTaught E a) {events : List Agent.Event} (hev : events ⊆ E) :
    ARPTaught E (Agent.run P lookupHost a events) :=
  List.foldlRecOn (motive := ARPTaught E) _ _ _ h fun _ hb _ he => hb.step P lookupHost (hev he)

theorem start (E : List Agent.Event) (config : Config) (publicKey : Bytes32) (port : Nat)
    (mode : Agent.Mode) (now : Int) :
    ARPTaught E (Agent.start P lookupHost config publicKey port mode now) := by
  cases mode with
  | static => exact ARPTaught.new E (Agent.foldl_addStaticPeer_frame P lookupHost now _ _).2.2.2.1
  | controller => exact fun _ h' => nomatch h'

end ARPTaught

/-- On every run of an agent, every binding in its ARP cache was taught by an ARP frame that the
agent read from its own tap: `tapReadLoop` is the only caller of `HandleARP`, a frame from a
peer reaches the tap through the switch without passing the proxy, and a new network starts
with an empty cache. -/
theorem arp_cache_learns_from_tap_only (lookupHost : String → Option (List UInt8)) (config : Config)
    (publicKey : Bytes32) (port : Nat) (mode : Agent.Mode) (now : Int) (events : List Agent.Event)
    {net : Network}
    (hnet : ((Agent.start P lookupHost config publicKey port mode now).run P lookupHost events).network =
      some net)
    {ip : IPv4Key} {e : ARPEntry} (he : net.arp.cache.lookup ip = some e) :
    ∃ ev ∈ events, ev.TeachesARP ip e.mac :=
  (ARPTaught.start P lookupHost events config publicKey port mode now).run P lookupHost
    (List.Subset.refl _) net hnet ip e he

/-- A static agent that reads one gratuitous request for 10.0.0.1 from its tap holds a
binding for that IP, taught by that frame. -/
theorem tap_announcement_teaches_cache :
    let data : List UInt8 := [0xff, 0xff, 0xff, 0xff, 0xff, 0xff, 2, 0, 0, 0, 0, 1, 0x08, 0x06,
      0, 1, 0x08, 0, 6, 4, 0, 1, 2, 0, 0, 0, 0, 1, 10, 0, 0, 1, 0, 0, 0, 0, 0, 0, 10, 0, 0, 1]
    let b := (Agent.start NoiseCipher.transparentPrimitives (fun _ => none) ⟨default, 7, 0, [], []⟩
      default 9993 .static 0).run NoiseCipher.transparentPrimitives (fun _ => none) [.tap data 0]
    ∃ net, b.network = some net ∧ ∃ e, net.arp.cache.lookup (FixedBytes.ofList 4 [10, 0, 0, 1]) = some e ∧
      ∃ ev ∈ [Agent.Event.tap data 0], ev.TeachesARP (FixedBytes.ofList 4 [10, 0, 0, 1]) e.mac :=
  by
  intro data b
  exact ⟨_, rfl, _, rfl, arp_cache_learns_from_tap_only NoiseCipher.transparentPrimitives (fun _ => none)
    ⟨default, 7, 0, [], []⟩ default 9993 .static 0 [.tap data 0] rfl rfl⟩

end ZeroGo
