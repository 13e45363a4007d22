import ZeroGo.Agent.ControllerClient

/-!
What holds over the runs of one agent, and what does not.

Counters under the transport keys: `NoiseCipher.Encrypt` seals with its send counter and
advances it, and a hello gives a peer record a new cipher only while it has none. The roster
install of `addPeerFromInfo` gives one to a record that was not connected at its check, so when
no other goroutine runs between the check and the install, for as long as a peer's record exists
the seals made for it use one key with the counters `0, 1, 2, …` in order. Two things break
this. `RemovePeer` drops the record with its counter, and a hello from the same peer creates a
record whose cipher, derived from the same PSK and public keys, starts at `0` again. And a hello
that arrives between the check and the install gives the peer a cipher that may seal frames
before the install replaces it by a new one starting at `0`.
A hello is handled here in one step, so the like race between a hello's own check and its
`SetCipher` is not among the runs.

Endpoints in the peer table: a hello from a known peer migrates its endpoint to the
datagram's source whatever other peer is already there, so two peers can share an
endpoint, and `GetPeerByEndpoint` then answers by iteration order
(`PeerManager.getPeerByEndpoint_orders`).
-/

namespace ZeroGo

open Vl1 Vl2

/-- The key and the next counter of a record's cipher. -/
def sendState (p : Option Peer) : Option (Bytes32 × UInt64) :=
  (p.bind Peer.cipher).map fun c => (c.sendKey, c.sendNonce)

/-- The seals made by the cipher of the peer at `k`. -/
def sealsFor (seals : List SealCall) (k : Address) : List SealCall :=
  seals.filter fun s => s.peer = k

/-- The seals `l` made for `k` are the counters `0, …, n - 1` under the key of its cipher,
whose send counter is `n`; a peer without a cipher has none. -/
def SealsCounted (k : Address) (l : List SealCall) : Option (Bytes32 × UInt64) → Prop
  | some (key, nonce) =>
      ∃ n, l = (List.range n).map (fun i => ⟨k, key, UInt64.ofNat i⟩) ∧ nonce = UInt64.ofNat n
  | none => l = []

/-- A record stored under `k` names `k`, and has a cipher only once connected. -/
def PeerSound (k : Address) (p : Peer) : Prop :=
  p.address = k ∧ (p.cipher.isSome → p.state = .connected)

structure NonceInv (a : Agent) : Prop where
  sound : ∀ k p, a.peers.lookup k = some p → PeerSound k p
  counted : ∀ k, SealsCounted k (sealsFor a.seals k) (sendState (a.peers.lookup k))

theorem sealsFor_append (seals : List SealCall) (s : SealCall) (k : Address) :
    sealsFor (seals ++ [s]) k = sealsFor seals k ++ if s.peer = k then [s] else [] := by
  unfold sealsFor
  rw [List.filter_append]
  split <;> simp [*]

theorem sealsFor_nil (k : Address) : sealsFor [] k = [] := rfl

theorem counted_pairs_nodup (k : Address) (key : Bytes32) {n : Nat} (hn : n ≤ 2 ^ 64) :
    (((List.range n).map fun i => (⟨k, key, UInt64.ofNat i⟩ : SealCall)).map
      fun s => (s.key, s.counter)).Nodup := by
  rw [List.map_map]
  refine (List.nodup_range n).map_on fun i hi j hj h => ?_
  simp only [List.mem_range] at hi hj
  exact uint64_ofNat_inj (by omega) (by omega) (congrArg Prod.snd h)

namespace NonceInv

variable {a : Agent}

theorem of_eq {a' : Agent} (hi : NonceInv a) (hp : a'.peers = a.peers) (hs : a'.seals = a.seals) :
    NonceInv a' := by
  constructor
  · rw [hp]; exact hi.sound
  · rw [hp, hs]; exact hi.counted

theorem sendPacket (hi : NonceInv a) (pkt : Packet) (e : Option UDPAddr) :
    NonceInv (a.sendPacket pkt e) :=
  hi.of_eq (Agent.sendPacket_peers a pkt e) (Agent.sendPacket_seals a pkt e)

theorem insert (hi : NonceInv a) {k : Address} {q : Peer} (hq : PeerSound k q)
    (hc : SealsCounted k (sealsFor a.seals k) (sendState (some q))) :
    NonceInv (a.setPeers (a.peers.insert k q)) := by
  constructor
  · intro k' p hl
    by_cases hk : k' = k
    · subst hk
      rw [Agent.setPeers_peers, AList.lookup_insert, Option.some_inj] at hl
      exact hl ▸ hq
    · rw [Agent.setPeers_peers, AList.lookup_insert_ne hk] at hl
      exact hi.sound k' p hl
  · intro k'
    by_cases hk : k' = k
    · subst hk
      rw [Agent.setPeers_peers, AList.lookup_insert]
      exact hc
    · rw [Agent.setPeers_peers, AList.lookup_insert_ne hk]
      exact hi.counted k'

theorem insert_same (hi : NonceInv a) {k : Address} {p q : Peer} (hp : a.peers.lookup k = some p)
    (haddr : q.address = p.address) (hstate : q.state = p.state)
    (hsend : sendState (some q) = sendState (some p)) :
    NonceInv (a.setPeers (a.peers.insert k q)) := by
  have hsome : q.cipher.isSome = p.cipher.isSome := by
    simpa [sendState] using congrArg Option.isSome hsend
  have hp' := hi.sound k p hp
  refine hi.insert ⟨haddr.trans hp'.1, fun h => hstate.trans (hp'.2 (hsome ▸ h))⟩ ?_
  rw [hsend, ← hp]
  exact hi.counted k

theorem modify (hi : NonceInv a) (addr : Address) {f : Peer → Peer}
    (hf : ∀ p, (f p).address = p.address ∧ (f p).state = p.state ∧
      sendState (some (f p)) = sendState (some p)) :
    NonceInv (a.setPeers (a.peers.modify addr f)) := by
  unfold PeerManager.modify
  split
  · next p hp => exact hi.insert_same hp (hf p).1 (hf p).2.1 (hf p).2.2
  · exact hi.of_eq rfl rfl

theorem sealsFor_eq_nil (hi : NonceInv a) {k : Address}
    (h : (a.peers.lookup k).any Peer.isConnected = false) : sealsFor a.seals k = [] := by
  have hc := hi.counted k
  cases hp : a.peers.lookup k with
  | none => rw [hp] at hc; exact hc
  | some p =>
      have hnone : p.cipher = none := by
        cases hcp : p.cipher with
        | none => rfl
        | some c =>
            have hs := (hi.sound k p hp).2 (by simp [hcp])
            simp [hp, Peer.isConnected, hs, hcp] at h
      rw [hp] at hc
      simpa [sendState, hnone, SealsCounted] using hc

theorem installFresh (hi : NonceInv a) {addr : Address} (hs : sealsFor a.seals addr = [])
    (keys : Bytes32 × Bytes32) (now : Int) :
    NonceInv (a.setPeers (a.peers.modify addr fun p =>
      p.setCipher (NoiseCipher.new keys) now)) := by
  unfold PeerManager.modify
  split
  · next p hp => exact hi.insert ⟨(hi.sound addr p hp).1, fun _ => rfl⟩ ⟨0, hs, rfl⟩
  · exact hi.of_eq rfl rfl

theorem addPeer (hi : NonceInv a) (addr : Address) (pubKey : Bytes32) (endpoint : Option UDPAddr) :
    NonceInv (a.setPeers (a.peers.addPeer addr pubKey endpoint)) := by
  unfold PeerManager.addPeer
  split
  · next p hp =>
      split
      · exact hi.insert_same hp rfl rfl rfl
      · exact hi.of_eq rfl rfl
  · next hp =>
      refine hi.insert ⟨rfl, fun h => absurd h (by simp [Peer.new])⟩ ?_
      have hc := hi.counted addr
      rw [hp] at hc
      exact hc

theorem sealed (hi : NonceInv a) {addr : Address} {peer : Peer} {c : NoiseCipher}
    (hp : a.peers.lookup addr = some peer) (hc : peer.cipher = some c) (c' : NoiseCipher)
    (hkey : c'.sendKey = c.sendKey) (hnonce : c'.sendNonce = c.sendNonce + 1) :
    let a' : Agent := { a with seals := a.seals ++ [⟨addr, c.sendKey, c.sendNonce⟩] }
    NonceInv (a'.setPeers (a.peers.insert addr { peer with cipher := some c' })) := by
  intro a'
  have hsound := hi.sound addr peer hp
  obtain ⟨n, hn, hnonce'⟩ :
      SealsCounted addr (sealsFor a.seals addr) (some (c.sendKey, c.sendNonce)) := by
    have h := hi.counted addr
    rwa [hp, sendState, Option.some_bind, hc, Option.map_some'] at h
  constructor
  · intro k p hl
    rw [Agent.setPeers_peers] at hl
    by_cases hk : k = addr
    · subst hk
      rw [AList.lookup_insert, Option.some_inj] at hl
      exact hl ▸ ⟨hsound.1, fun _ => hsound.2 (by simp [hc])⟩
    · rw [AList.lookup_insert_ne hk] at hl
      exact hi.sound k p hl
  · intro k
    rw [Agent.setPeers_peers, Agent.setPeers_seals, sealsFor_append]
    by_cases hk : k = addr
    · subst hk
      rw [AList.lookup_insert, if_pos rfl, hn]
      refine ⟨n + 1, ?_, by rw [hnonce, hnonce', uint64_ofNat_add_one]⟩
      rw [List.range_succ, List.map_append, hkey, hnonce']
      rfl
    · rw [AList.lookup_insert_ne hk, if_neg (Ne.symm hk), List.append_nil]
      exact hi.counted k

/-! ### Seals made by each handler -/

variable (P : Primitives) (lookupHost : String → Option (List UInt8))

theorem sendHello_seals (a : Agent) (addr : Address) (now : Int) :
    (Agent.sendHello a addr now).seals = a.seals := by
  unfold Agent.sendHello
  split <;> (try split) <;> rfl

theorem sendHello (hi : NonceInv a) (addr : Address) (now : Int) :
    NonceInv (Agent.sendHello a addr now) := by
  unfold Agent.sendHello
  split
  · split
    · refine NonceInv.modify ?_ addr fun _ => ⟨rfl, rfl, rfl⟩
      exact hi.of_eq rfl rfl
    · exact hi
  · exact hi

theorem encryptAndSend (hi : NonceInv a) (addr : Address) (networkID : UInt32)
    (frame : List UInt8) : NonceInv (Agent.encryptAndSend P a addr networkID frame) := by
  unfold Agent.encryptAndSend
  split
  · next peer hp =>
      split
      · next c hc =>
          dsimp only
          rw [Agent.setPeers_sendPacket]
          exact (hi.sealed hp hc (c.encrypt P frame).1 rfl rfl).sendPacket _ _
      · exact hi
  · exact hi

theorem broadcastToPeers (hi : NonceInv a) (networkID : UInt32) (frame : List UInt8)
    (excludePeer : Address) :
    NonceInv (Agent.broadcastToPeers P a networkID frame excludePeer) := by
  refine List.foldlRecOn (motive := NonceInv) _ _ _ hi fun b hb peer _ => ?_
  unfold Agent.broadcastStep
  split
  · exact hb
  · exact hb.encryptAndSend P _ _ _

theorem performCall (hi : NonceInv a) (call : SendCall) :
    NonceInv (Agent.performCall P a call) := by
  cases call with
  | sendToPeer peerAddr networkID frame =>
      show NonceInv (Agent.sendToPeer P a peerAddr networkID frame).1
      unfold Agent.sendToPeer
      split
      · exact hi
      · split
        · exact hi
        · exact hi.encryptAndSend P _ _ _
  | broadcastToPeers networkID frame excludePeer => exact hi.broadcastToPeers P _ _ _

theorem inject (hi : NonceInv a) (frame : Option (List UInt8)) :
    NonceInv (Agent.inject a frame) := by
  unfold Agent.inject
  split
  · split
    · exact hi.of_eq rfl rfl
    · exact hi
  · exact hi

theorem lookup_of_getPeerByEndpoint (hi : NonceInv a) {src : UDPAddr} {peer : Peer}
    (h : a.peers.getPeerByEndpoint src = some peer) : a.peers.lookup peer.address = some peer := by
  obtain ⟨s, hs, rfl⟩ := Option.map_eq_some'.mp h
  have hl : a.peers.lookup s.1 = some s.2 := AList.mem_lookup_iff.mpr (List.mem_of_find?_eq_some hs)
  rw [(hi.sound _ _ hl).1]
  exact hl

theorem handleDataPacket (hi : NonceInv a) (pkt : Packet) (src : UDPAddr) (now : Int) :
    NonceInv (Agent.handleDataPacket P a pkt src now) := by
  unfold Agent.handleDataPacket
  split
  · exact hi
  · next peer hpeer =>
      have hl := hi.lookup_of_getPeerByEndpoint hpeer
      dsimp only
      split
      · exact hi.insert_same hl rfl rfl rfl
      · next peer' plaintext hdec =>
          obtain ⟨c, c', hc, hdc, rfl⟩ := Peer.decrypt_ok hdec
          obtain ⟨hkey, -, hnonce⟩ := NoiseCipher.decrypt_keys P hdc
          rw [Peer.touch_cipher] at hc
          have hb : NonceInv (a.setPeers (a.peers.insert peer.address
              { peer.touch now with cipher := some c' })) :=
            hi.insert_same hl rfl rfl (by simp [sendState, hc, hkey, hnonce])
          split
          · exact hb
          · split
            · exact hb.of_eq rfl rfl
            · refine NonceInv.inject (?_ : NonceInv _) _
              split
              · refine NonceInv.performCall P ?_ _
                exact hb.of_eq rfl rfl
              · exact hb.of_eq rfl rfl

theorem handleHandshake (hi : NonceInv a) (payload : List UInt8) (src : UDPAddr)
    (now : Int) : NonceInv (Agent.handleHandshake P a payload src now) := by
  unfold Agent.handleHandshake
  split
  · exact hi
  · dsimp only
    split
    · next peer hpeer =>
        have h₁ := hi.modify (addressFromPublicKey P (FixedBytes.ofList 32 payload).bytes)
          (f := fun p => { p with endpoint := some src }.touch now) fun _ => ⟨rfl, rfl, rfl⟩
        split
        · next hconn =>
            refine h₁.installFresh (hi.sealsFor_eq_nil ?_) _ now
            have hl : a.peers.lookup _ = some peer := hpeer
            rw [hl]
            simpa using hconn
        · exact h₁
    · next hpeer =>
        refine ((hi.addPeer _ _ _).installFresh ?_ _ now).sendHello _ _
        have hl : a.peers.lookup _ = none := hpeer
        exact hi.sealsFor_eq_nil (by rw [hl]; rfl)

theorem handleUDPPacket (hi : NonceInv a) (data : List UInt8) (src : UDPAddr) (now : Int) :
    NonceInv (Agent.handleUDPPacket P a data src now) := by
  unfold Agent.handleUDPPacket
  split
  · exact hi
  · split
    · exact hi.handleHandshake P _ _ _
    · split
      · exact hi.handleDataPacket P _ _ _
      · split
        · split
          · exact hi.modify _ fun _ => ⟨rfl, rfl, rfl⟩
          · exact hi
        · exact hi

theorem handleTapFrame (hi : NonceInv a) (data : List UInt8) (now : Int) :
    NonceInv (Agent.handleTapFrame P a data now) := by
  unfold Agent.handleTapFrame
  split
  · exact hi
  · split
    · dsimp only
      split
      · exact hi.of_eq rfl rfl
      · split
        · split
          · refine NonceInv.performCall P ?_ _
            exact hi.of_eq rfl rfl
          · exact hi.of_eq rfl rfl
        · exact hi.of_eq rfl rfl
    · exact hi

theorem maintenance (hi : NonceInv a) (now : Int) : NonceInv (Agent.maintenance a now) := by
  refine Agent.maintenance_induction now hi (fun b peer hb => ?_) (fun b _ hb => hb.sendHello _ _)
    fun b _ hb _ => hb.of_eq rfl rfl
  rw [Agent.setPeers_sendPacket]
  refine (hb.modify _ ?_).sendPacket _ _
  exact fun _ => ⟨rfl, rfl, rfl⟩

theorem rosterAdd (hi : NonceInv a) (pubKey : Bytes32) (endpoint : UDPAddr) :
    NonceInv (Agent.rosterAdd P a pubKey endpoint) :=
  hi.addPeer _ _ _

theorem rosterInstall (hi : NonceInv a) {pubKey : Bytes32}
    (hs : sealsFor a.seals (addressFromPublicKey P pubKey.bytes) = []) (psk : Bytes32) (now : Int) :
    NonceInv (Agent.rosterInstall P a pubKey psk now) :=
  (hi.installFresh hs _ now).sendHello _ _

end NonceInv

def Agent.Event.removesPeer : Agent.Event → Bool
  | .peerUpdate msg => msg.action == "remove"
  | _ => false

def Agent.Event.isRoster : Agent.Event → Bool
  | .roster _ => true
  | _ => false

/-- Whether the run of `events` from `a` is the schedule in which the controller client runs
each `addPeerFromInfo` as one critical section: while roster work is pending, the next event is
its next phase. -/
def Agent.rosterAtomic (P : Primitives) (lookupHost : String → Option (List UInt8)) (a : Agent) :
    List Agent.Event → Bool
  | [] => true
  | ev :: evs => (a.pending.isEmpty || ev.isRoster) && rosterAtomic P lookupHost (a.step P lookupHost ev) evs

/-- The key of the peer a pending phase is to add or to give a cipher. -/
def RosterStep.target : RosterStep → Option Bytes32
  | .check .. => none
  | .add pubKey .. => some pubKey
  | .install pubKey _ => some pubKey

/-- Nothing has been sealed for a peer that pending roster work is to add or to give a cipher. -/
def PendingFresh (P : Primitives) (a : Agent) : Prop :=
  ∀ s ∈ a.pending, ∀ k, s.target = some k → sealsFor a.seals (addressFromPublicKey P k.bytes) = []

theorem PendingFresh.of_nil {P : Primitives} {a : Agent} (h : a.pending = []) : PendingFresh P a :=
  fun _ hs => absurd (h ▸ hs) (List.not_mem_nil _)

namespace NonceInv

variable {a : Agent} (P : Primitives) (lookupHost : String → Option (List UInt8))

/-- One event of a run in which no peer is removed and no other goroutine runs between the
phases of an `addPeerFromInfo`. -/
theorem step (hi : NonceInv a) (hf : PendingFresh P a) {e : Agent.Event}
    (hrem : e.removesPeer = false) (hat : (a.pending.isEmpty || e.isRoster) = true) :
    NonceInv (Agent.step P lookupHost a e) ∧ PendingFresh P (Agent.step P lookupHost a e) := by
  have hpend : ∀ {b : Agent}, b.control = a.control → e.isRoster = false → b.pending = [] :=
    fun hb he => (congrArg (fun x => x.2.2.2) hb).trans (by simpa [he] using hat)
  cases e with
  | udp data src now =>
      exact ⟨hi.handleUDPPacket P data src now,
        .of_nil (hpend (Agent.handleUDPPacket_control P a data src now) rfl)⟩
  | tap data now =>
      exact ⟨hi.handleTapFrame P data now,
        .of_nil (hpend (Agent.handleTapFrame_control P a data now) rfl)⟩
  | tick now => exact ⟨hi.maintenance now, .of_nil (hpend (Agent.sendsOnly_maintenance a now).1 rfl)⟩
  | networkConfig msg =>
      simp only [Agent.step]
      split
      · rcases Agent.beginNetworkConfig_cases a msg with h | ⟨field, -, c, t, n, -, -, h⟩ <;> rw [h]
        · exact ⟨hi, hf⟩
        · refine ⟨hi.of_eq rfl rfl, fun s hs k hk => ?_⟩
          obtain ⟨info, -, rfl⟩ := List.mem_map.mp hs
          cases hk
      · exact ⟨hi, hf⟩
  | peerUpdate msg =>
      simp only [Agent.step]
      split
      · rcases Agent.beginPeerUpdate_cases a msg with h | h | ⟨hr, -⟩
        · rw [h]
          refine ⟨hi.of_eq rfl rfl, fun s hs k hk => ?_⟩
          rw [List.mem_singleton.mp hs] at hk
          cases hk
        · rw [h]
          exact ⟨hi, hf⟩
        · simp [Agent.Event.removesPeer, hr] at hrem
      · exact ⟨hi, hf⟩
  | roster now =>
      simp only [Agent.step]
      rcases Agent.rosterStep_cases P lookupHost a now with h | ⟨info, psk, rest, hp, h⟩ |
        ⟨info, psk, rest, pubKey, ep, hp, hc, h⟩ | ⟨pubKey, ep, psk, rest, hp, h⟩ |
        ⟨pubKey, psk, rest, hp, h⟩ <;> rw [h]
      · exact ⟨hi, hf⟩
      · exact ⟨hi.of_eq rfl rfl, fun s hs => hf s (hp ▸ List.mem_cons_of_mem _ hs)⟩
      · refine ⟨hi.of_eq rfl rfl, fun s hs k hk => ?_⟩
        rcases List.mem_cons.mp hs with rfl | hs
        · cases hk
          exact hi.sealsFor_eq_nil (by simpa [PeerManager.getPeer] using
            Agent.rosterCheck_not_connected P lookupHost hc)
        · exact hf s (hp ▸ List.mem_cons_of_mem _ hs) k hk
      · refine ⟨(hi.rosterAdd P pubKey ep).of_eq rfl rfl, fun s hs k hk => ?_⟩
        rcases List.mem_cons.mp hs with rfl | hs
        · exact hf (.add pubKey ep psk) (hp ▸ List.mem_cons_self _ _) k hk
        · exact hf s (hp ▸ List.mem_cons_of_mem _ hs) k hk
      · have hseals : (Agent.rosterInstall P a pubKey psk now).seals = a.seals :=
          sendHello_seals _ _ _
        refine ⟨(hi.rosterInstall P (hf (.install pubKey psk) (hp ▸ List.mem_cons_self _ _) pubKey rfl) psk now).of_eq
          rfl rfl, fun s hs k hk => ?_⟩
        show sealsFor (Agent.rosterInstall P a pubKey psk now).seals _ = []
        rw [hseals]
        exact hf s (hp ▸ List.mem_cons_of_mem _ hs) k hk

theorem run (hi : NonceInv a) (hf : PendingFresh P a) {events : List Agent.Event}
    (hkeep : ∀ e ∈ events, e.removesPeer = false)
    (hat : a.rosterAtomic P lookupHost events = true) :
    NonceInv (Agent.run P lookupHost a events) := by
  induction events generalizing a with
  | nil => exact hi
  | cons e es ih =>
      simp only [Agent.rosterAtomic, Bool.and_eq_true] at hat
      obtain ⟨hi', hf'⟩ := hi.step P lookupHost hf (hkeep e (List.mem_cons_self _ _)) hat.1
      exact ih hi' hf' (fun e' h' => hkeep e' (List.mem_cons_of_mem _ h')) hat.2

theorem initiateHandshake (hi : NonceInv a) (hs : a.seals = []) (addr : Address) (now : Int) :
    NonceInv (Agent.initiateHandshake P a addr now) ∧
      (Agent.initiateHandshake P a addr now).seals = [] := by
  unfold Agent.initiateHandshake
  split
  · refine ⟨(hi.installFresh (by rw [hs]; rfl) _ now).sendHello _ _, ?_⟩
    rw [sendHello_seals]
    exact hs
  · exact ⟨hi, hs⟩

theorem addStaticPeer (hi : NonceInv a) (hs : a.seals = []) (sp : PeerEndpoint) (now : Int) :
    NonceInv (Agent.addStaticPeer P lookupHost a sp now) ∧
      (Agent.addStaticPeer P lookupHost a sp now).seals = [] := by
  unfold Agent.addStaticPeer
  split
  · exact (hi.addPeer _ _ _).initiateHandshake P hs _ now
  · exact ⟨hi, hs⟩

theorem start (config : Config) (publicKey : Bytes32) (port : Nat) (mode : Agent.Mode) (now : Int) :
    NonceInv (Agent.start P lookupHost config publicKey port mode now) := by
  have hinit : ∀ b : Agent, b.peers = ∅ → b.seals = [] → NonceInv b := fun b hp hs =>
    ⟨fun k p h => by simp [hp] at h, fun k => by simp [hp, hs, sealsFor, sendState, SealsCounted]⟩
  unfold Agent.start
  split
  · -- adding static peers keeps the invariant and, with no session yet, makes no seal
    refine (List.foldlRecOn (motive := fun b => NonceInv b ∧ b.seals = []) _ _ _
      ⟨hinit _ rfl rfl, rfl⟩ fun b hb sp _ => hb.1.addStaticPeer P lookupHost hb.2 sp now).1
  · exact hinit _ rfl rfl

end NonceInv

/-- On every run of an agent in which no peer is removed and the controller client runs each
`addPeerFromInfo` without another goroutine between its phases, the seals made for one peer
carry pairwise distinct (key, counter) pairs, as long as there are at most `2 ^ 64` of them. -/
theorem seal_pairs_distinct (P : Primitives) (lookupHost : String → Option (List UInt8))
    (config : Config) (publicKey : Bytes32) (port : Nat) (mode : Agent.Mode) (now : Int)
    {events : List Agent.Event} (hkeep : ∀ e ∈ events, e.removesPeer = false)
    (hatomic : (Agent.start P lookupHost config publicKey port mode now).rosterAtomic P lookupHost
      events = true) (k : Address)
    (hbound : (sealsFor ((Agent.start P lookupHost config publicKey port mode now).run P lookupHost
      events).seals k).length ≤ 2 ^ 64) :
    ((sealsFor ((Agent.start P lookupHost config publicKey port mode now).run P lookupHost
      events).seals k).map fun s => (s.key, s.counter)).Nodup := by
  have hc := ((NonceInv.start P lookupHost config publicKey port mode now).run P lookupHost
    (.of_nil (Agent.start_pending P lookupHost config publicKey port mode now)) hkeep hatomic).counted k
  revert hc hbound
  generalize (Agent.start P lookupHost config publicKey port mode now).run P lookupHost events = b
  intro hbound hc
  cases hs : sendState (b.peers.lookup k) with
  | none =>
      rw [hs] at hc
      rw [show sealsFor b.seals k = [] from hc]
      exact List.nodup_nil
  | some ks =>
      rw [hs] at hc
      obtain ⟨n, hn, -⟩ := hc
      rw [hn, List.length_map, List.length_range] at hbound
      rw [hn]
      exact counted_pairs_nodup k ks.1 hbound

/-- A static agent with one peer sends it two broadcast frames: counters `0` and `1`. -/
theorem seal_pairs_distinct_two_frames :
    let P : Primitives :=
      ⟨fun k d => FixedBytes.ofList 32 (k ++ d), fun _ _ m _ => m, fun _ _ c _ => some c,
        fun _ _ => default⟩
    let frame : List UInt8 := [0xff, 0xff, 0xff, 0xff, 0xff, 0xff, 2, 0, 0, 0, 0, 1, 8, 0]
    let config : Config := ⟨default, 7, 0, [⟨String.mk (List.replicate 64 '1'), "1.2.3.4:9993"⟩], []⟩
    let b := (Agent.start P (fun _ => none) config default 9993 .static 0).run P (fun _ => none)
      [.tap frame 1, .tap frame 2]
    (sealsFor b.seals ⟨0x11, 0x11, 0x11, 0x11, 0x11⟩).length = 2 ∧
      ((sealsFor b.seals ⟨0x11, 0x11, 0x11, 0x11, 0x11⟩).map fun s => (s.key, s.counter)).Nodup := by
  intro P frame config b
  exact ⟨by decide, seal_pairs_distinct P _ config default 9993 .static 0 (by decide) (by decide) _
    (by decide)⟩

/-- Two runs in which a (key, counter) pair repeats. In the first, a static agent sends a
broadcast frame to its peer, the controller removes the peer, the peer says hello again and the
agent sends another broadcast frame. In the second nothing is removed: a controller-mode agent
checks the roster entry of peer `B`, a hello from `B` arrives before the entry is added and
gives `B` a cipher, the tap sends a broadcast frame, and the install of the entry then replaces
that cipher by a new one, from the same PSK, whose counter starts at `0` again. -/
theorem seal_pair_reused :
    let P : Primitives :=
      ⟨fun k d => FixedBytes.ofList 32 (k ++ d), fun _ _ m _ => m, fun _ _ c _ => some c,
        fun _ _ => default⟩
    let keyB := String.mk (List.replicate 64 '1')
    let hello := (newHandshakePacket (List.replicate 32 0x11)).encode
    let frame : List UInt8 := [0xff, 0xff, 0xff, 0xff, 0xff, 0xff, 2, 0, 0, 0, 0, 1, 8, 0]
    let a := Agent.start P (fun _ => none) ⟨default, 7, 0, [⟨keyB, "1.2.3.4:9993"⟩], []⟩ default 9993
      .static 0
    let removal : List Agent.Event :=
      [.tap frame 1, .peerUpdate ⟨"remove", ⟨"1111111111", keyB, [], "B"⟩⟩,
        .udp hello ⟨[1, 2, 3, 4], 9993⟩ 3, .tap frame 4]
    let b := Agent.start P (fun _ => none) ⟨default, 0, 0, [], ["7"]⟩ default 9993 .controller 0
    let msg : NetworkConfigMessage := ⟨"7", 1400, String.mk (List.replicate 64 '2'), "10.0.0.1/24",
      [⟨"b", keyB, ["1.2.3.4:9993"], "B"⟩]⟩
    let race : List Agent.Event :=
      [.networkConfig msg, .roster 1, .udp hello ⟨[1, 2, 3, 4], 9993⟩ 2, .tap frame 3, .roster 4,
        .roster 5, .tap frame 6]
    ¬ ((a.run P (fun _ => none) removal).seals.map fun s => (s.key, s.counter)).Nodup ∧
      (∀ e ∈ race, e.removesPeer = false) ∧ b.rosterAtomic P (fun _ => none) race = false ∧
      ¬ ((b.run P (fun _ => none) race).seals.map fun s => (s.key, s.counter)).Nodup := by
  decide

/-! ### Endpoints in the peer table -/

/-- Two static peers at different addresses; the first says hello from the second's
address. Both peers then have that endpoint. -/
theorem migrated_hello_shares_endpoint :
    let P : Primitives :=
      ⟨fun k d => FixedBytes.ofList 32 (k ++ d), fun _ _ m _ => m, fun _ _ c _ => some c,
        fun _ _ => default⟩
    let config : Config := ⟨default, 7, 0,
      [⟨String.mk (List.replicate 64 '1'), "1.2.3.4:9993"⟩,
        ⟨String.mk (List.replicate 64 '2'), "5.6.7.8:9993"⟩], []⟩
    let a := Agent.start P (fun _ => none) config default 9993 .static 0
    let b := a.run P (fun _ => none)
      [.udp (newHandshakePacket (List.replicate 32 0x11)).encode ⟨[5, 6, 7, 8], 9993⟩ 1]
    PeerManager.EndpointsDistinct a.peers ∧ ¬ PeerManager.EndpointsDistinct b.peers := by
  decide

end ZeroGo
