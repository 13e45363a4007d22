import ZeroGo.Agent.ControllerClient

/-!
What an agent puts on the wire and into its tap, over every run.

Every cipher of the peer table holds the pair of transport keys that `DeriveKeysFromPSK` makes
from the agent's own public key and a PSK it was given: the configured PSK, or the PSK a
`network_config` installs its roster with, which is the zero PSK when the message's field is
empty. `Encrypt` and `Decrypt` move only the counters, so the keys stay.

So every datagram the agent hands to the socket is a hello carrying its public key, a
keepalive, or a data packet whose payload is a counter followed by the AEAD seal of a frame
under such a send key: no frame leaves in clear. And every frame the agent writes into its tap
is a reply of the ARP proxy to an ARP frame read from the tap, or a plaintext that the AEAD
opened, under such a receive key, from the payload of a data datagram the agent received.
-/

namespace ZeroGo

open Vl1 Vl2

variable (P : Primitives)

/-- A PSK the agent was given: the configured one, or the one a `network_config` of `events`
installs its roster with (`field.getD` zero, as `handleNetworkConfig` computes it). -/
def PSKGiven (config : Config) (events : List Agent.Event) (psk : Bytes32) : Prop :=
  psk = config.psk ∨ ∃ msg field, Agent.Event.networkConfig msg ∈ events ∧
    Agent.parsePSK msg.psk = some field ∧ psk = field.getD (FixedBytes.zero 32)

/-- Transport keys that `DeriveKeysFromPSK` makes from a given PSK and the local key `pub`. -/
def KeysDerived (G : Bytes32 → Prop) (pub : Bytes32) (keys : Bytes32 × Bytes32) : Prop :=
  ∃ psk remote, G psk ∧ deriveKeysFromPSK P psk pub remote = keys

/-- A peer record whose cipher, if it has one, holds derived keys. -/
def CipherDerived (G : Bytes32 → Prop) (pub : Bytes32) (p : Peer) : Prop :=
  ∀ c, p.cipher = some c → KeysDerived P G pub (c.sendKey, c.recvKey)

/-- What the agent may hand to the socket: a hello with its key, a keepalive, or a data packet
whose payload is a counter and the seal of a frame under a derived send key. -/
def WireForm (G : Bytes32 → Prop) (pub : Bytes32) (pkt : Packet) : Prop :=
  pkt = newHandshakePacket pub.bytes ∨ pkt = newKeepalivePacket ∨
    ∃ (networkID : UInt32) (counter : UInt64) (frame : List UInt8) (keys : Bytes32 × Bytes32),
      KeysDerived P G pub keys ∧
      pkt = newDataPacket networkID (putUintLE 8 counter.toNat ++
        P.aeadSeal keys.1 (NoiseCipher.nonceOf counter) frame [])

/-- The PSK a pending phase of the roster work installs with. -/
def RosterStep.psk : RosterStep → Bytes32
  | .check _ psk => psk
  | .add _ _ psk => psk
  | .install _ psk => psk

/-- How an event, taken by the agent in state `a`, accounts for a frame written into the tap:
an ARP frame read from the tap that the agent's own ARP proxy answers with it, or a data
datagram from the endpoint of a peer whose cipher holds derived keys and whose receive key
opens the datagram's payload to it. -/
def Agent.Event.Delivers (G : Bytes32 → Prop) (pub : Bytes32) (a : Agent) (f : List UInt8) :
    Agent.Event → Prop
  | .tap data now => ∃ frame net, parseEthernetFrame data = .ok frame ∧ frame.isARP = true ∧
      a.network = some net ∧ (net.arp.handleARP frame now).2 = some f
  | .udp data src _ => ∃ pkt, decodePacket data = .ok pkt ∧ pkt.header.type = PacketTypeData ∧
      ∃ peer c, a.peers.getPeerByEndpoint src = some peer ∧ peer.cipher = some c ∧
        KeysDerived P G pub (c.sendKey, c.recvKey) ∧
        P.aeadOpen c.recvKey (NoiseCipher.nonceOf (UInt64.ofNat (uintLE (pkt.payload.take 8))))
          (pkt.payload.drop 8) [] = some f
  | _ => False

/-- The traffic of an agent started with `config` and the public key `pub`, on a run within
`E`: its ciphers hold keys derived from PSKs given in `config` or `E`, its pending roster work
installs with such PSKs, and what it sent carries such keys. -/
structure Traffic (C : Config) (E : List Agent.Event) (pub : Bytes32) (a : Agent) : Prop where
  publicKey : a.publicKey = pub
  psk : PSKGiven C E a.config.psk
  ciphers : ∀ k p, a.peers.lookup k = some p → CipherDerived P (PSKGiven C E) pub p
  sent : ∀ d ∈ a.sent, WireForm P (PSKGiven C E) pub d.packet
  pending : ∀ s ∈ a.pending, PSKGiven C E s.psk

/-- `b` is `a` with frames added to its tap that event `ev`, taken in `a`, accounts for. -/
def TapAccounted (G : Bytes32 → Prop) (pub : Bytes32) (a : Agent) (ev : Agent.Event) (b : Agent) :
    Prop :=
  ∃ new, b.tapWrites = a.tapWrites ++ new ∧ ∀ f ∈ new, ev.Delivers P G pub a f

variable {P}

theorem CipherDerived.of_cipher {G : Bytes32 → Prop} {pub : Bytes32} {p q : Peer}
    (h : CipherDerived P G pub p) (hq : q.cipher = p.cipher) : CipherDerived P G pub q :=
  fun c hc => h c (hq ▸ hc)

theorem cipherDerived_setCipher {G : Bytes32 → Prop} {psk : Bytes32} (hpsk : G psk) {a : Agent}
    {pub : Bytes32} (ha : a.publicKey = pub) (remote : Bytes32) (p : Peer) (now : Int) :
    CipherDerived P G pub (p.setCipher (Agent.freshCipher P psk a remote) now) := by
  rintro c ⟨⟩
  subst ha
  exact ⟨psk, remote, hpsk, rfl⟩

theorem PeerManager.exists_lookup_of_getPeerByEndpoint {pm : PeerManager} {src : UDPAddr}
    {peer : Peer} (h : pm.getPeerByEndpoint src = some peer) : ∃ k, pm.lookup k = some peer := by
  obtain ⟨s, hs, rfl⟩ := Option.map_eq_some'.mp h
  exact ⟨s.1, AList.mem_lookup_iff.mpr (List.mem_of_find?_eq_some hs)⟩

theorem Vl2.Switch.handleRemoteFrame_inject {sw : Switch} {peerAddr : Address}
    {frame : List UInt8} {now : Int} {r : Switch × Option SendCall × Option (List UInt8)}
    (h : sw.handleRemoteFrame peerAddr frame now = .ok r) {x : List UInt8} (hx : r.2.2 = some x) :
    x = frame := by
  unfold Switch.handleRemoteFrame at h
  split at h
  · cases h
  · cases h
    unfold Switch.remoteCall at hx
    split at hx
    · exact (Option.some_inj.1 hx).symm
    · split at hx
      · split at hx
        · exact (Option.some_inj.1 hx).symm
        · cases hx
      · exact (Option.some_inj.1 hx).symm

namespace Traffic

variable {C : Config} {E : List Agent.Event} {pub : Bytes32} {a : Agent}

theorem of_eq {a' : Agent} (hi : Traffic P C E pub a) (hk : a'.publicKey = a.publicKey)
    (hc : a'.config.psk = a.config.psk) (hp : a'.peers = a.peers) (hs : a'.sent = a.sent)
    (hq : a'.pending = a.pending) : Traffic P C E pub a' :=
  ⟨hk.trans hi.publicKey, hc ▸ hi.psk, fun k p h => hi.ciphers k p (hp ▸ h),
    fun d hd => hi.sent d (hs ▸ hd), fun s hs' => hi.pending s (hq ▸ hs')⟩

theorem sendPacket (hi : Traffic P C E pub a) {pkt : Packet}
    (hpkt : WireForm P (PSKGiven C E) pub pkt) (e : Option UDPAddr) :
    Traffic P C E pub (a.sendPacket pkt e) := by
  cases e with
  | none => exact hi
  | some e =>
      refine ⟨hi.publicKey, hi.psk, hi.ciphers, fun d hd => ?_, hi.pending⟩
      rcases List.mem_append.1 hd with hd | hd
      · exact hi.sent d hd
      · obtain rfl := List.mem_singleton.1 hd
        exact hpkt

theorem hello (hi : Traffic P C E pub a) :
    WireForm P (PSKGiven C E) pub (newHandshakePacket a.publicKey.bytes) :=
  .inl (by rw [hi.publicKey])

theorem insert (hi : Traffic P C E pub a) {k : Address} {q : Peer}
    (hq : CipherDerived P (PSKGiven C E) pub q) :
    Traffic P C E pub (a.setPeers (a.peers.insert k q)) := by
  refine ⟨hi.publicKey, hi.psk, fun k' p hl => ?_, hi.sent, hi.pending⟩
  rw [Agent.setPeers_peers] at hl
  by_cases hk : k' = k
  · subst hk
    rw [AList.lookup_insert, Option.some_inj] at hl
    exact hl ▸ hq
  · rw [AList.lookup_insert_ne hk] at hl
    exact hi.ciphers k' p hl

theorem modify (hi : Traffic P C E pub a) (addr : Address) {f : Peer → Peer}
    (hf : ∀ p, CipherDerived P (PSKGiven C E) pub p → CipherDerived P (PSKGiven C E) pub (f p)) :
    Traffic P C E pub (a.setPeers (a.peers.modify addr f)) := by
  unfold PeerManager.modify
  split
  · next p hp => exact hi.insert (hf p (hi.ciphers _ _ hp))
  · exact hi.of_eq rfl rfl rfl rfl rfl

theorem addPeer (hi : Traffic P C E pub a) (addr : Address) (pubKey : Bytes32)
    (endpoint : Option UDPAddr) :
    Traffic P C E pub (a.setPeers (a.peers.addPeer addr pubKey endpoint)) := by
  unfold PeerManager.addPeer
  split
  · next p hp =>
      split
      · exact hi.insert ((hi.ciphers _ _ hp).of_cipher rfl)
      · exact hi.of_eq rfl rfl rfl rfl rfl
  · exact hi.insert fun _ h => Option.noConfusion h

theorem removePeer (hi : Traffic P C E pub a) (addr : Address) :
    Traffic P C E pub (a.setPeers (a.peers.removePeer addr)) := by
  refine ⟨hi.publicKey, hi.psk, fun k p hl => ?_, hi.sent, hi.pending⟩
  rw [Agent.setPeers_peers, PeerManager.removePeer] at hl
  by_cases hk : k = addr
  · subst hk
    rw [AList.lookup_erase] at hl
    cases hl
  · rw [AList.lookup_erase_ne hk] at hl
    exact hi.ciphers k p hl

theorem inject (hi : Traffic P C E pub a) (frame : Option (List UInt8)) :
    Traffic P C E pub (Agent.inject a frame) := by
  unfold Agent.inject
  split
  · split
    exacts [hi.of_eq rfl rfl rfl rfl rfl, hi]
  · exact hi

/-! ### Each handler -/

variable (lookupHost : String → Option (List UInt8))

theorem sendHello (hi : Traffic P C E pub a) (addr : Address) (now : Int) :
    Traffic P C E pub (Agent.sendHello a addr now) := by
  unfold Agent.sendHello
  split
  · split
    · refine (hi.sendPacket hi.hello _).modify addr ?_
      exact fun _ h => h.of_cipher rfl
    · exact hi
  · exact hi

theorem initiateHandshake (hi : Traffic P C E pub a) (addr : Address) (now : Int) :
    Traffic P C E pub (Agent.initiateHandshake P a addr now) := by
  unfold Agent.initiateHandshake
  split
  · refine (hi.modify addr ?_).sendHello addr now
    exact fun p _ => cipherDerived_setCipher hi.psk hi.publicKey _ p now
  · exact hi

theorem handleHandshake (hi : Traffic P C E pub a) (payload : List UInt8) (src : UDPAddr)
    (now : Int) : Traffic P C E pub (Agent.handleHandshake P a payload src now) := by
  unfold Agent.handleHandshake
  split
  · exact hi
  · dsimp only
    split
    · have h₁ := hi.modify (addressFromPublicKey P (FixedBytes.ofList 32 payload).bytes)
        (f := fun p => { p with endpoint := some src }.touch now) fun _ h => h.of_cipher rfl
      split
      · exact h₁.modify _ fun p _ => cipherDerived_setCipher h₁.psk h₁.publicKey _ p now
      · exact h₁
    · have h₁ := hi.addPeer (addressFromPublicKey P (FixedBytes.ofList 32 payload).bytes)
        (FixedBytes.ofList 32 payload) (some src)
      exact (h₁.modify _ fun p _ => cipherDerived_setCipher h₁.psk h₁.publicKey _ p now).sendHello _ _

theorem encryptAndSend (hi : Traffic P C E pub a) (addr : Address) (networkID : UInt32)
    (frame : List UInt8) : Traffic P C E pub (Agent.encryptAndSend P a addr networkID frame) := by
  unfold Agent.encryptAndSend
  split
  · next peer hp =>
      split
      · next c hc =>
          have hk := hi.ciphers addr peer hp c hc
          dsimp only
          rw [Agent.setPeers_sendPacket]
          refine Traffic.sendPacket ?_ (.inr (.inr ⟨networkID, c.sendNonce, frame, _, hk, rfl⟩)) _
          refine Traffic.insert (a := { a with seals := a.seals ++ [⟨addr, c.sendKey, c.sendNonce⟩] })
            (hi.of_eq rfl rfl rfl rfl rfl) ?_
          rintro _ ⟨⟩
          exact hk
      · exact hi
  · exact hi

theorem broadcastToPeers (hi : Traffic P C E pub a) (networkID : UInt32) (frame : List UInt8)
    (excludePeer : Address) :
    Traffic P C E pub (Agent.broadcastToPeers P a networkID frame excludePeer) := by
  refine List.foldlRecOn (motive := Traffic P C E pub) _ _ _ hi fun b hb peer _ => ?_
  unfold Agent.broadcastStep
  split
  · exact hb
  · exact hb.encryptAndSend _ _ _

theorem performCall (hi : Traffic P C E pub a) (call : SendCall) :
    Traffic P C E pub (Agent.performCall P a call) := by
  cases call with
  | sendToPeer peerAddr networkID frame =>
      show Traffic P C E pub (Agent.sendToPeer P a peerAddr networkID frame).1
      unfold Agent.sendToPeer
      split
      · exact hi
      · split
        · exact hi
        · exact hi.encryptAndSend _ _ _
  | broadcastToPeers networkID frame excludePeer => exact hi.broadcastToPeers _ _ _

theorem handleDataPacket (hi : Traffic P C E pub a) (pkt : Packet) (src : UDPAddr) (now : Int) :
    Traffic P C E pub (Agent.handleDataPacket P a pkt src now) := by
  unfold Agent.handleDataPacket
  split
  · exact hi
  · next peer hpeer =>
      obtain ⟨k, hl⟩ := PeerManager.exists_lookup_of_getPeerByEndpoint hpeer
      have hd := hi.ciphers k peer hl
      dsimp only
      split
      · exact hi.insert (hd.of_cipher rfl)
      · next peer' plaintext hdec =>
          obtain ⟨c, c', hc, hdec', rfl⟩ := Peer.decrypt_ok hdec
          obtain ⟨hs, hr, -⟩ := NoiseCipher.decrypt_keys P hdec'
          have hb := hi.insert (k := peer.address) (q := { peer.touch now with cipher := some c' })
            (by rintro _ ⟨⟩; rw [hs, hr]; exact hd c hc)
          split
          · exact hb
          · split
            · exact hb
            · refine Traffic.inject ?_ _
              have hn : ∀ n, Traffic P C E pub { a.setPeers (a.peers.insert peer.address
                  { peer.touch now with cipher := some c' }) with network := n } :=
                fun _ => hb.of_eq rfl rfl rfl rfl rfl
              split
              · exact (hn _).performCall _
              · exact hn _

theorem handleUDPPacket (hi : Traffic P C E pub a) (data : List UInt8) (src : UDPAddr) (now : Int) :
    Traffic P C E pub (Agent.handleUDPPacket P a data src now) := by
  unfold Agent.handleUDPPacket
  split
  · exact hi
  · split
    · exact hi.handleHandshake _ _ _
    · split
      · exact hi.handleDataPacket _ _ _
      · split
        · split
          · exact hi.modify _ fun _ h => h.of_cipher rfl
          · exact hi
        · exact hi

theorem handleTapFrame (hi : Traffic P C E pub a) (data : List UInt8) (now : Int) :
    Traffic P C E pub (Agent.handleTapFrame P a data now) := by
  unfold Agent.handleTapFrame
  split
  · exact hi
  split
  · dsimp only
    have hn : ∀ n, Traffic P C E pub { a with network := some n } :=
      fun _ => hi.of_eq rfl rfl rfl rfl rfl
    split
    · exact hi.of_eq rfl rfl rfl rfl rfl
    · split
      · split
        · exact (hn _).performCall _
        · exact hn _
      · exact hn _
  · exact hi

theorem maintenance (hi : Traffic P C E pub a) (now : Int) :
    Traffic P C E pub (Agent.maintenance a now) := by
  refine Agent.maintenance_induction now hi (fun b peer hb => ?_) (fun b addr hb => hb.sendHello addr now)
    fun b net hb _ => hb.of_eq rfl rfl rfl rfl rfl
  rw [Agent.setPeers_sendPacket]
  refine (hb.modify _ ?_).sendPacket (.inr (.inl rfl)) _
  exact fun _ h => h.of_cipher rfl

theorem rosterStep (hi : Traffic P C E pub a) (now : Int) :
    Traffic P C E pub (Agent.rosterStep P lookupHost a now) := by
  rcases Agent.rosterStep_cases P lookupHost a now with h | ⟨_, _, rest, hp, h⟩ |
    ⟨_, psk, rest, _, ep, hp, _, h⟩ | ⟨pubKey, ep, psk, rest, hp, h⟩ | ⟨pubKey, psk, rest, hp, h⟩ <;>
    rw [h]
  · exact hi
  · exact ⟨hi.publicKey, hi.psk, hi.ciphers, hi.sent,
      fun s hs => hi.pending s (hp ▸ List.mem_cons_of_mem _ hs)⟩
  · refine ⟨hi.publicKey, hi.psk, hi.ciphers, hi.sent, fun s hs => ?_⟩
    rcases List.mem_cons.mp hs with rfl | hs
    exacts [hi.pending (.check _ psk) (hp ▸ List.mem_cons_self _ _),
      hi.pending s (hp ▸ List.mem_cons_of_mem _ hs)]
  · have h₁ := hi.addPeer (addressFromPublicKey P pubKey.bytes) pubKey (some ep)
    refine ⟨h₁.publicKey, h₁.psk, h₁.ciphers, h₁.sent, fun s hs => ?_⟩
    rcases List.mem_cons.mp hs with rfl | hs
    exacts [hi.pending (.add pubKey ep psk) (hp ▸ List.mem_cons_self _ _),
      hi.pending s (hp ▸ List.mem_cons_of_mem _ hs)]
  · have h₁ := (hi.modify (addressFromPublicKey P pubKey.bytes) fun p _ => cipherDerived_setCipher
      (hi.pending (.install pubKey psk) (hp ▸ List.mem_cons_self _ _)) hi.publicKey pubKey p now).sendHello
      (addressFromPublicKey P pubKey.bytes) now
    exact ⟨h₁.publicKey, h₁.psk, h₁.ciphers, h₁.sent,
      fun s hs => hi.pending s (hp ▸ List.mem_cons_of_mem _ hs)⟩

theorem beginNetworkConfig (hi : Traffic P C E pub a) {msg : NetworkConfigMessage}
    (hev : Agent.Event.networkConfig msg ∈ E) : Traffic P C E pub (Agent.beginNetworkConfig a msg) := by
  rcases Agent.beginNetworkConfig_cases a msg with h | ⟨field, hfield, c, t, n, hc, -, h⟩ <;> rw [h]
  · exact hi
  · have hpsk : PSKGiven C E (field.getD (FixedBytes.zero 32)) := .inr ⟨msg, field, hev, hfield, rfl⟩
    refine ⟨hi.publicKey, ?_, hi.ciphers, hi.sent, fun s hs => ?_⟩
    · show PSKGiven C E c.psk
      rw [hc]
      cases field
      exacts [hi.psk, hpsk]
    · obtain ⟨info, -, rfl⟩ := List.mem_map.mp hs
      exact hpsk

theorem beginPeerUpdate (hi : Traffic P C E pub a) (msg : PeerUpdateMessage) :
    Traffic P C E pub (Agent.beginPeerUpdate a msg) := by
  rcases Agent.beginPeerUpdate_cases a msg with h | h | ⟨_, addr, h⟩ <;> rw [h]
  · exact ⟨hi.publicKey, hi.psk, hi.ciphers, hi.sent, fun s hs => List.mem_singleton.mp hs ▸ hi.psk⟩
  · exact hi
  · exact hi.removePeer addr

theorem step (hi : Traffic P C E pub a) {ev : Agent.Event} (hev : ev ∈ E) :
    Traffic P C E pub (Agent.step P lookupHost a ev) := by
  cases ev with
  | udp data src now => exact hi.handleUDPPacket data src now
  | tap data now => exact hi.handleTapFrame data now
  | tick now => exact hi.maintenance now
  | networkConfig msg =>
      simp only [Agent.step]
      split
      exacts [hi.beginNetworkConfig hev, hi]
  | peerUpdate msg =>
      simp only [Agent.step]
      split
      exacts [hi.beginPeerUpdate msg, hi]
  | roster now => exact hi.rosterStep lookupHost now

theorem run (hi : Traffic P C E pub a) {events : List Agent.Event} (hev : events ⊆ E) :
    Traffic P C E pub (Agent.run P lookupHost a events) :=
  List.foldlRecOn (motive := Traffic P C E pub) _ _ _ hi fun _ hb _ he => hb.step lookupHost (hev he)

theorem addStaticPeer (hi : Traffic P C E pub a) (sp : PeerEndpoint) (now : Int) :
    Traffic P C E pub (Agent.addStaticPeer P lookupHost a sp now) := by
  unfold Agent.addStaticPeer
  split
  · exact (hi.addPeer _ _ _).initiateHandshake _ _
  · exact hi

theorem start (E : List Agent.Event) (config : Config) (publicKey : Bytes32) (port : Nat)
    (mode : Agent.Mode) (now : Int) :
    Traffic P config E publicKey (Agent.start P lookupHost config publicKey port mode now) := by
  have h₀ : Traffic P config E publicKey ⟨config, publicKey, port, ∅, none, false, [], [], [], []⟩ :=
    ⟨rfl, .inl rfl, fun k p h => by simp at h, fun _ h => (nomatch h), fun _ h => (nomatch h)⟩
  cases mode with
  | static =>
      exact List.foldlRecOn (motive := Traffic P config E publicKey) _ _ _ (h₀.of_eq rfl rfl rfl rfl rfl)
        fun b hb sp _ => hb.addStaticPeer lookupHost sp now
  | controller => exact h₀

/-! ### What goes into the tap -/

theorem tapAccounted_of_eq {G : Bytes32 → Prop} {ev : Agent.Event} {b : Agent}
    (h : b.tapWrites = a.tapWrites) : TapAccounted P G pub a ev b :=
  ⟨[], by rw [h, List.append_nil], fun _ hf => absurd hf (List.not_mem_nil _)⟩

theorem tap_handleDataPacket (hi : Traffic P C E pub a) {data : List UInt8} {src : UDPAddr}
    {now : Int} {pkt : Packet} (hpkt : decodePacket data = .ok pkt)
    (htype : pkt.header.type = PacketTypeData) :
    TapAccounted P (PSKGiven C E) pub a (.udp data src now) (Agent.handleDataPacket P a pkt src now) := by
  unfold Agent.handleDataPacket
  split
  · exact tapAccounted_of_eq rfl
  · next peer hpeer =>
      obtain ⟨k, hl⟩ := PeerManager.exists_lookup_of_getPeerByEndpoint hpeer
      dsimp only
      split
      · exact tapAccounted_of_eq rfl
      · next peer' plaintext hdec =>
          obtain ⟨c, c', hc, hdec', rfl⟩ := Peer.decrypt_ok hdec
          have hdel : Agent.Event.Delivers P (PSKGiven C E) pub a plaintext (.udp data src now) :=
            ⟨pkt, hpkt, htype, peer, c, hpeer, hc, hi.ciphers k peer hl c hc,
              (NoiseCipher.decrypt_ok P hdec').1⟩
          split
          · exact tapAccounted_of_eq rfl
          · split
            · exact tapAccounted_of_eq rfl
            · next sw call frame hsw =>
                have hw : ∀ b : Agent, b.tapWrites = a.tapWrites →
                    TapAccounted P (PSKGiven C E) pub a (.udp data src now) (Agent.inject b frame) := by
                  intro b hb
                  cases hx : frame with
                  | none => exact tapAccounted_of_eq hb
                  | some x =>
                      simp only [Agent.inject]
                      split
                      · exact ⟨[x], congrArg (· ++ [x]) hb, fun f hf => List.mem_singleton.mp hf ▸
                          Switch.handleRemoteFrame_inject hsw hx ▸ hdel⟩
                      · exact tapAccounted_of_eq hb
                split
                · exact hw _ (Agent.sendsOnly_performCall P _ _).2
                · exact hw _ rfl

theorem tap_handleTapFrame {G : Bytes32 → Prop} (data : List UInt8) (now : Int) :
    TapAccounted P G pub a (.tap data now) (Agent.handleTapFrame P a data now) := by
  unfold Agent.handleTapFrame
  split
  · exact tapAccounted_of_eq rfl
  split
  · next frame net hp hnet =>
      have hr : ∀ r, (if frame.isARP then net.arp.handleARP frame now else (net.arp, none)).2 =
          some r → Agent.Event.Delivers P G pub a r (.tap data now) := by
        intro r h
        split at h
        · exact ⟨frame, net, hp, ‹_›, hnet, h⟩
        · cases h
      dsimp only
      generalize (if frame.isARP then net.arp.handleARP frame now else (net.arp, none)) = res at hr ⊢
      split
      · next r hres => exact ⟨[r], rfl, fun f hf => List.mem_singleton.mp hf ▸ hr r hres⟩
      · split
        · split
          · exact tapAccounted_of_eq (Agent.sendsOnly_performCall P _ _).2
          · exact tapAccounted_of_eq rfl
        · exact tapAccounted_of_eq rfl
  · exact tapAccounted_of_eq rfl

/-- Every event adds to the tap only frames it accounts for. -/
theorem tap_step (hi : Traffic P C E pub a) (ev : Agent.Event) :
    TapAccounted P (PSKGiven C E) pub a ev (Agent.step P lookupHost a ev) := by
  cases ev with
  | udp data src now =>
      show TapAccounted P _ pub a _ (Agent.handleUDPPacket P a data src now)
      unfold Agent.handleUDPPacket
      split
      · exact tapAccounted_of_eq rfl
      · next pkt hpkt =>
          split
          · exact tapAccounted_of_eq (Agent.sendsOnly_handleHandshake P a _ src now).2
          · split
            · next htype => exact hi.tap_handleDataPacket hpkt htype
            · split
              · split <;> exact tapAccounted_of_eq rfl
              · exact tapAccounted_of_eq rfl
  | tap data now => exact tap_handleTapFrame data now
  | tick now => exact tapAccounted_of_eq (Agent.sendsOnly_maintenance a now).2
  | networkConfig msg =>
      refine tapAccounted_of_eq ?_
      simp only [Agent.step]
      split
      · rcases Agent.beginNetworkConfig_cases a msg with h | ⟨_, _, _, _, _, _, _, h⟩ <;> rw [h]
      · rfl
  | peerUpdate msg =>
      refine tapAccounted_of_eq ?_
      simp only [Agent.step]
      split
      · rcases Agent.beginPeerUpdate_cases a msg with h | h | ⟨_, _, h⟩ <;> rw [h]
        rfl
      · rfl
  | roster now => exact tapAccounted_of_eq (Agent.rosterStep_frame P lookupHost a now).2.2.2.2

/-- Every frame in the tap after a run is one the agent had, or one that an event of the run,
taken in the state the run had reached, accounts for. -/
theorem tap_run (hi : Traffic P C E pub a) {events : List Agent.Event} (hev : events ⊆ E)
    {f : List UInt8} (hf : f ∈ (Agent.run P lookupHost a events).tapWrites) :
    f ∈ a.tapWrites ∨ ∃ pre ev post, events = pre ++ ev :: post ∧
      ev.Delivers P (PSKGiven C E) pub (Agent.run P lookupHost a pre) f := by
  induction events generalizing a with
  | nil => exact .inl hf
  | cons e es ih =>
      rcases ih (hi.step lookupHost (hev (List.mem_cons_self _ _)))
        (fun x hx => hev (List.mem_cons_of_mem _ hx)) hf with hf | ⟨pre, ev, post, rfl, hd⟩
      · obtain ⟨new, hw, hnew⟩ := hi.tap_step lookupHost e
        rw [hw] at hf
        rcases List.mem_append.mp hf with hf | hf
        exacts [.inl hf, .inr ⟨[], e, es, rfl, hnew f hf⟩]
      · exact .inr ⟨e :: pre, ev, post, rfl, hd⟩

end Traffic

variable (P)

/-- On every run of an agent, each cipher of its peer table holds the transport keys derived
from its own public key and a PSK it was given, and every datagram it has handed to the socket
is a hello carrying its public key, a keepalive, or a data packet whose payload is a counter
followed by the AEAD seal of a frame under such a send key. -/
theorem wire_carries_only_sealed_frames (lookupHost : String → Option (List UInt8))
    (config : Config) (publicKey : Bytes32) (port : Nat) (mode : Agent.Mode) (now : Int)
    (events : List Agent.Event) :
    let b := (Agent.start P lookupHost config publicKey port mode now).run P lookupHost events
    (∀ k p, b.peers.lookup k = some p → CipherDerived P (PSKGiven config events) publicKey p) ∧
    ∀ d ∈ b.sent, WireForm P (PSKGiven config events) publicKey d.packet :=
  have h := (Traffic.start lookupHost events config publicKey port mode now).run lookupHost
    (List.Subset.refl _)
  ⟨h.ciphers, h.sent⟩

/-- On every run of an agent, every frame it has written into its tap was accounted for by an
event of the run, taken in the state the run had reached: an ARP frame read from the tap that
the agent's own ARP proxy answered with it, or a data datagram from the endpoint of a peer
whose cipher holds keys derived from the agent's public key and a PSK it was given, and whose
receive key opened the datagram's payload to it. -/
theorem tap_receives_only_authenticated_frames (lookupHost : String → Option (List UInt8))
    (config : Config) (publicKey : Bytes32) (port : Nat) (mode : Agent.Mode) (now : Int)
    (events : List Agent.Event) :
    ∀ f ∈ ((Agent.start P lookupHost config publicKey port mode now).run P lookupHost events).tapWrites,
      ∃ pre ev post, events = pre ++ ev :: post ∧
        ev.Delivers P (PSKGiven config events) publicKey
          ((Agent.start P lookupHost config publicKey port mode now).run P lookupHost pre) f := by
  intro f hf
  rcases (Traffic.start lookupHost events config publicKey port mode now).tap_run lookupHost
    (List.Subset.refl _) hf with hf | h
  · rw [Agent.start_tapWrites] at hf
    cases hf
  · exact h

/-- A static agent that reads one gratuitous ARP request from its tap writes the proxy's reply
into the tap, which that request, read with the agent's new proxy, accounts for. -/
theorem announcement_reply_accounted :
    let data : List UInt8 := [0xff, 0xff, 0xff, 0xff, 0xff, 0xff, 2, 0, 0, 0, 0, 1, 0x08, 0x06,
      0, 1, 0x08, 0, 6, 4, 0, 1, 2, 0, 0, 0, 0, 1, 10, 0, 0, 1, 0, 0, 0, 0, 0, 0, 10, 0, 0, 1]
    let a := Agent.start NoiseCipher.transparentPrimitives (fun _ => none) ⟨default, 7, 0, [], []⟩
      default 9993 .static 0
    let b := a.run NoiseCipher.transparentPrimitives (fun _ => none) [.tap data 0]
    ∃ f ∈ b.tapWrites, ∃ pre ev post, [Agent.Event.tap data 0] = pre ++ ev :: post ∧
      ev.Delivers NoiseCipher.transparentPrimitives (PSKGiven ⟨default, 7, 0, [], []⟩ [.tap data 0])
        default (a.run NoiseCipher.transparentPrimitives (fun _ => none) pre) f := by
  intro data a b
  obtain ⟨f, hf⟩ := List.exists_mem_of_ne_nil b.tapWrites (by decide)
  exact ⟨f, hf, tap_receives_only_authenticated_frames NoiseCipher.transparentPrimitives (fun _ => none)
    ⟨default, 7, 0, [], []⟩ default 9993 .static 0 [.tap data 0] f hf⟩

end ZeroGo
