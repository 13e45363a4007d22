import ZeroGo.Agent.Agent
import Mathlib.Algebra.BigOperators.Fin

/-!
The data plane of a network of `n` agents whose peer tables form a full mesh: every agent
holds every other one as a connected peer at its endpoint, with the keys the two share.
A frame that an agent's switch floods is encrypted to every peer (`BroadcastToPeers`);
a receiver injects it into its tap and floods it again to every peer but the one it came
from (`HandleRemoteFrame`). The datagrams in flight form a list and are delivered in any
order the network picks, each at the agent whose endpoint it is addressed to.
-/

namespace ZeroGo

open Vl1 Vl2

variable (P : Primitives)

/-! ### A flooded frame at one agent -/

/-- An agent's switch floods `f`: its network is up, `f` is a frame that the ARP proxy, which
sees an ARP frame first, lets through, and the switch sends it to every peer. -/
def FloodsFrame (f : List UInt8) (a : Agent) : Prop :=
  match a.network, parseEthernetFrame f with
  | some net, .ok parsed =>
      (parsed.isARP = true → net.arp.Passes parsed) ∧ Switch.Floods net.switch.macTable parsed
  | _, _ => False

instance (f : List UInt8) (a : Agent) : Decidable (FloodsFrame f a) := by
  unfold FloodsFrame
  split <;> infer_instance

theorem floodsFrame_iff {f : List UInt8} {a : Agent} :
    FloodsFrame f a ↔ ∃ net parsed, a.network = some net ∧
      parseEthernetFrame f = .ok parsed ∧ (parsed.isARP = true → net.arp.Passes parsed) ∧
      Switch.Floods net.switch.macTable parsed := by
  unfold FloodsFrame
  cases hn : a.network <;> cases hp : parseEthernetFrame f <;> simp

/-- A data packet carrying `f` encrypted by a cipher whose send key is `key`. -/
def SealedFor (key : Bytes32) (f : List UInt8) (pkt : Packet) : Prop :=
  ∃ networkID c, NoiseCipher.sendKey c = key ∧
    pkt = newDataPacket networkID (NoiseCipher.encrypt P c f).2

section Members

variable {n : Nat} (addr : Fin n → Address) (ep : Fin n → UDPAddr)
  (S : Fin n → Fin n → Bytes32)

/-- Members' endpoints are told apart by the comparison `GetPeerByEndpoint` makes. -/
def EndpointsApart : Prop :=
  ∀ k i, ipEqual (ep k).ip (ep i).ip = true → (ep k).port = (ep i).port → k = i

instance : Decidable (EndpointsApart ep) := by
  unfold EndpointsApart
  infer_instance

theorem EndpointsApart.injective {ep : Fin n → UDPAddr} (h : EndpointsApart ep) :
    Function.Injective ep := fun k i he =>
  h k i (by rw [he]; exact ipEqual_self _) (by rw [he])

/-- Agent `j`'s record of member `k`: connected at `k`'s endpoint, sending under the key
`S j k` and receiving under `S k j`. -/
def MeshRecord (j k : Fin n) (p : Peer) : Prop :=
  p.address = addr k ∧ p.endpoint = some (ep k) ∧ p.state = .connected ∧
    ∃ c ∈ p.cipher, c.sendKey = S j k ∧ c.recvKey = S k j

instance (j k : Fin n) (p : Peer) : Decidable (MeshRecord addr ep S j k p) := by
  unfold MeshRecord
  infer_instance

/-- Agent `j` of the mesh: a record of every other member and no other peer, and a tap. -/
structure MeshMember (j : Fin n) (a : Agent) : Prop where
  record : ∀ k, k ≠ j → ∃ p ∈ a.peers.lookup (addr k), MeshRecord addr ep S j k p
  only : ∀ s ∈ a.peers.entries, ∃ k, k ≠ j ∧ s.1 = addr k
  tapUp : a.tapUp = true

instance (j : Fin n) (a : Agent) : Decidable (MeshMember addr ep S j a) :=
  decidable_of_iff
    ((∀ k, k ≠ j → ∃ p ∈ a.peers.lookup (addr k), MeshRecord addr ep S j k p) ∧
      (∀ s ∈ a.peers.entries, ∃ k, k ≠ j ∧ s.1 = addr k) ∧ a.tapUp = true)
    ⟨fun ⟨h₁, h₂, h₃⟩ => ⟨h₁, h₂, h₃⟩, fun ⟨h₁, h₂, h₃⟩ => ⟨h₁, h₂, h₃⟩⟩

/-- The datagrams `ds` flood `f` from member `j` to the peers `L` but the one at `x`: one
to the endpoint of each such peer, each sealed under `j`'s key to the member there. -/
structure FloodOf (j : Fin n) (f : List UInt8) (x : Address) (L : List Peer)
    (ds : List Datagram) : Prop where
  sealed : ∀ d ∈ ds, ∃ k, k ≠ j ∧ addr k ≠ x ∧ d.dst = ep k ∧
    SealedFor P (S j k) f d.packet
  length : ds.length = (L.filter (·.address != x)).length
  reaches : ∀ p ∈ L, p.address ≠ x → ∃ d ∈ ds, p.endpoint = some d.dst

namespace FloodOf

variable {P addr ep S} {j : Fin n} {f : List UInt8} {x : Address}

theorem nil : FloodOf P addr ep S j f x [] [] :=
  ⟨by simp, rfl, by simp⟩

theorem skip {p : Peer} {L : List Peer} {ds : List Datagram} (hx : p.address = x)
    (h : FloodOf P addr ep S j f x L ds) : FloodOf P addr ep S j f x (p :: L) ds where
  sealed := h.sealed
  length := by simp [List.filter_cons, hx, h.length]
  reaches q hq hqx := by
    rcases List.mem_cons.mp hq with rfl | hq
    · exact absurd hx hqx
    · exact h.reaches q hq hqx

theorem cons {p : Peer} {L : List Peer} {ds : List Datagram} {k : Fin n} (hx : p.address ≠ x)
    (hkj : k ≠ j) (hpa : p.address = addr k) (hp : p.endpoint = some (ep k)) {pkt : Packet}
    (hpkt : SealedFor P (S j k) f pkt) (h : FloodOf P addr ep S j f x L ds) :
    FloodOf P addr ep S j f x (p :: L) (⟨ep k, pkt⟩ :: ds) where
  sealed d hd := by
    rcases List.mem_cons.mp hd with rfl | hd
    · exact ⟨k, hkj, hpa ▸ hx, rfl, hpkt⟩
    · exact h.sealed d hd
  length := by simp [List.filter_cons, hx, h.length]
  reaches q hq hqx := by
    rcases List.mem_cons.mp hq with rfl | hq
    · exact ⟨_, List.mem_cons_self _ _, hp⟩
    · obtain ⟨d, hd, hqd⟩ := h.reaches q hq hqx
      exact ⟨d, List.mem_cons_of_mem _ hd, hqd⟩

end FloodOf

/-- The datagrams `ds` flood `f` from member `j` to every other member whose address is not
`x`: one to each, sealed under `j`'s key to it. -/
structure SendsFlood (j : Fin n) (f : List UInt8) (x : Address) (ds : List Datagram) : Prop where
  sealed : ∀ d ∈ ds, ∃ k, k ≠ j ∧ addr k ≠ x ∧ d.dst = ep k ∧
    SealedFor P (S j k) f d.packet
  length : ds.length = (Finset.univ.filter fun k => k ≠ j ∧ addr k ≠ x).card
  reaches : ∀ k, k ≠ j → addr k ≠ x → ∃ d ∈ ds, d.dst = ep k

/-- `a'` is member `j` after it flooded `f` to every other member whose address is not `x`:
still a member whose switch floods `f`, having sent `a`'s datagrams and then that flood. -/
structure FloodedFrom (j : Fin n) (f : List UInt8) (x : Address) (a a' : Agent) : Prop where
  member : MeshMember addr ep S j a'
  floods : FloodsFrame f a'
  sent : ∃ ds, a'.sent = a.sent ++ ds ∧ SendsFlood P addr ep S j f x ds

namespace MeshRecord

variable {addr ep S} {j k : Fin n} {p : Peer}

theorem atEndpoint_iff (hsep : EndpointsApart ep) (h : MeshRecord addr ep S j k p) (i : Fin n) :
    p.atEndpoint (ep i) = true ↔ k = i := by
  simp only [Peer.atEndpoint, h.2.1, Bool.and_eq_true, beq_iff_eq]
  exact ⟨fun ⟨h₁, h₂⟩ => hsep k i h₁ h₂, by rintro rfl; exact ⟨ipEqual_self _, rfl⟩⟩

theorem isConnected (h : MeshRecord addr ep S j k p) : p.isConnected = true := by
  obtain ⟨-, -, hst, c, hc, -⟩ := h
  simp [Peer.isConnected, hst, Option.mem_def.mp hc]

end MeshRecord

namespace MeshMember

variable {addr ep S} {j : Fin n} {a : Agent}

theorem of_eq (h : MeshMember addr ep S j a) {b : Agent} (hp : b.peers = a.peers)
    (ht : b.tapUp = a.tapUp) : MeshMember addr ep S j b :=
  ⟨fun k hk => hp ▸ h.record k hk, fun s hs => h.only s (hp ▸ hs), ht.trans h.tapUp⟩

theorem lookup_eq (h : MeshMember addr ep S j a) {x : Address} {p : Peer}
    (hp : a.peers.lookup x = some p) :
    ∃ k, k ≠ j ∧ x = addr k ∧ MeshRecord addr ep S j k p := by
  obtain ⟨k, hkj, hx⟩ := h.only ⟨x, p⟩ (AList.mem_lookup_iff.mp hp)
  subst hx
  obtain ⟨p', hp', hrec⟩ := h.record k hkj
  obtain rfl : p' = p := Option.some_inj.mp ((Option.mem_def.mp hp').symm.trans hp)
  exact ⟨k, hkj, rfl, hrec⟩

theorem insert_record (hinj : Function.Injective addr) (h : MeshMember addr ep S j a) {k : Fin n}
    (hkj : k ≠ j) {p : Peer} (hp : MeshRecord addr ep S j k p) :
    MeshMember addr ep S j (a.setPeers (a.peers.insert (addr k) p)) where
  record k' hk' := by
    rw [Agent.setPeers_peers]
    by_cases hkk : k' = k
    · subst hkk
      exact ⟨p, AList.lookup_insert _, hp⟩
    · rw [AList.lookup_insert_ne (hinj.ne hkk)]
      exact h.record k' hk'
  only s hs := by
    rw [Agent.setPeers_peers, AList.insert_entries] at hs
    rcases List.mem_cons.mp hs with rfl | hs
    · exact ⟨k, hkj, rfl⟩
    · exact h.only s ((List.kerase_sublist _ _).subset hs)
  tapUp := h.tapUp

theorem getPeerByEndpoint_ep (hsep : EndpointsApart ep) (h : MeshMember addr ep S j a)
    {i : Fin n} (hij : i ≠ j) :
    ∃ p, a.peers.getPeerByEndpoint (ep i) = some p ∧ a.peers.lookup (addr i) = some p ∧
      MeshRecord addr ep S j i p := by
  obtain ⟨p, hp, hrec⟩ := h.record i hij
  refine ⟨p, PeerManager.getPeerByEndpoint_of_unique hp ((hrec.atEndpoint_iff hsep i).mpr rfl) ?_,
    hp, hrec⟩
  intro x q hq hat
  obtain ⟨k, -, rfl, hrec'⟩ := h.lookup_eq hq
  rw [(hrec'.atEndpoint_iff hsep i).mp hat]

theorem encryptAndSend (hinj : Function.Injective addr) (h : MeshMember addr ep S j a)
    {k : Fin n} (hkj : k ≠ j) (networkID : UInt32) (f : List UInt8) :
    MeshMember addr ep S j (a.encryptAndSend P (addr k) networkID f) ∧
      (a.encryptAndSend P (addr k) networkID f).network = a.network ∧
      (a.encryptAndSend P (addr k) networkID f).tapWrites = a.tapWrites ∧
      ∃ pkt, (a.encryptAndSend P (addr k) networkID f).sent = a.sent ++ [⟨ep k, pkt⟩] ∧
        SealedFor P (S j k) f pkt := by
  obtain ⟨p, hp, hadr, hep, hst, c, hc, hsk, hrk⟩ := h.record k hkj
  rw [Option.mem_def] at hp hc
  simp only [Agent.encryptAndSend, hp, hc, hep]
  refine ⟨?_, rfl, rfl, _, rfl, networkID, c, hsk, rfl⟩
  refine insert_record hinj (h.of_eq ?_ ?_) hkj ?_
  exacts [rfl, rfl, ⟨hadr, rfl, hst, _, rfl, hsk, hrk⟩]

theorem mem_connectedPeers (h : MeshMember addr ep S j a) {p : Peer}
    (hp : p ∈ a.peers.connectedPeers) : ∃ k, k ≠ j ∧ MeshRecord addr ep S j k p := by
  obtain ⟨s, hs, rfl⟩ := List.mem_map.mp (List.mem_filter.mp hp).1
  obtain ⟨k, hkj, -, hrec⟩ := h.lookup_eq (AList.mem_lookup_iff.mpr hs)
  exact ⟨k, hkj, hrec⟩

theorem mem_connectedPeers_of_lookup {k : Fin n} {p : Peer}
    (hp : a.peers.lookup (addr k) = some p) (hrec : MeshRecord addr ep S j k p) :
    p ∈ a.peers.connectedPeers :=
  List.mem_filter.mpr
    ⟨List.mem_map.mpr ⟨_, AList.mem_lookup_iff.mp hp, rfl⟩, hrec.isConnected⟩

theorem length_filter_connectedPeers (hinj : Function.Injective addr)
    (h : MeshMember addr ep S j a) (x : Address) :
    (a.peers.connectedPeers.filter (·.address != x)).length =
      (Finset.univ.filter fun k => k ≠ j ∧ addr k ≠ x).card := by
  have hkeys : (a.peers.entries.map (·.2)).map Peer.address = a.peers.keys := by
    rw [List.map_map]
    refine List.map_congr_left fun s hs => ?_
    obtain ⟨k, -, hx, hrec⟩ := h.lookup_eq (AList.mem_lookup_iff.mpr hs)
    exact hrec.1.trans hx.symm
  have hnodup : ((a.peers.connectedPeers.filter (·.address != x)).map Peer.address).Nodup :=
    a.peers.keys_nodup.sublist
      (hkeys ▸ ((List.filter_sublist _).trans (List.filter_sublist _)).map _)
  have hfin : ((a.peers.connectedPeers.filter (·.address != x)).map Peer.address).toFinset =
      (Finset.univ.filter fun k => k ≠ j ∧ addr k ≠ x).image addr := by
    ext y
    simp only [List.mem_toFinset, List.mem_map, List.mem_filter, Finset.mem_image,
      Finset.mem_filter, Finset.mem_univ, true_and, bne_iff_ne, ne_eq]
    constructor
    · rintro ⟨p, ⟨hp, hpx⟩, rfl⟩
      obtain ⟨k, hkj, hrec⟩ := h.mem_connectedPeers hp
      exact ⟨k, ⟨hkj, hrec.1 ▸ hpx⟩, hrec.1.symm⟩
    · rintro ⟨k, ⟨hkj, hkx⟩, rfl⟩
      obtain ⟨p, hp, hrec⟩ := h.record k hkj
      exact ⟨p, ⟨mem_connectedPeers_of_lookup hp hrec, hrec.1 ▸ hkx⟩, hrec.1⟩
  rw [← List.length_map _ Peer.address, ← List.toFinset_card_of_nodup hnodup, hfin,
    Finset.card_image_of_injective _ hinj]

theorem foldl_broadcastStep (hinj : Function.Injective addr) (networkID : UInt32)
    (f : List UInt8) (x : Address) {L : List Peer}
    (hL : ∀ p ∈ L, ∃ k, k ≠ j ∧ p.address = addr k ∧ p.endpoint = some (ep k))
    (h : MeshMember addr ep S j a) :
    MeshMember addr ep S j (L.foldl (Agent.broadcastStep P networkID f x) a) ∧
      (L.foldl (Agent.broadcastStep P networkID f x) a).network = a.network ∧
      (L.foldl (Agent.broadcastStep P networkID f x) a).tapWrites = a.tapWrites ∧
      ∃ ds, (L.foldl (Agent.broadcastStep P networkID f x) a).sent = a.sent ++ ds ∧
        FloodOf P addr ep S j f x L ds := by
  induction L generalizing a with
  | nil => exact ⟨h, rfl, rfl, [], by simp, FloodOf.nil⟩
  | cons p L ih =>
      have hL' := fun q hq => hL q (List.mem_cons_of_mem _ hq)
      obtain ⟨k, hkj, hpa, hpe⟩ := hL p (List.mem_cons_self _ _)
      rw [List.foldl_cons, Agent.broadcastStep]
      by_cases hx : p.address = x
      · rw [if_pos hx]
        obtain ⟨h', hn, ht, ds, hs, hds⟩ := ih hL' h
        exact ⟨h', hn, ht, ds, hs, hds.skip hx⟩
      · rw [if_neg hx, hpa]
        obtain ⟨h₁, hn₁, ht₁, pkt, hs₁, hpkt⟩ := h.encryptAndSend P hinj hkj networkID f
        obtain ⟨h', hn, ht, ds, hs, hds⟩ := ih hL' h₁
        exact ⟨h', hn.trans hn₁, ht.trans ht₁, _,
          by rw [hs, hs₁, List.append_assoc, List.singleton_append],
          hds.cons hx hkj hpa hpe hpkt⟩

/-- A member's `BroadcastToPeers` sends `f` once to every other member whose address is not
the excluded one, and changes neither its network nor its tap. -/
theorem broadcastToPeers (hinj : Function.Injective addr) (h : MeshMember addr ep S j a)
    (networkID : UInt32) (f : List UInt8) (x : Address) :
    MeshMember addr ep S j (a.broadcastToPeers P networkID f x) ∧
      (a.broadcastToPeers P networkID f x).network = a.network ∧
      (a.broadcastToPeers P networkID f x).tapWrites = a.tapWrites ∧
      ∃ ds, (a.broadcastToPeers P networkID f x).sent = a.sent ++ ds ∧
        SendsFlood P addr ep S j f x ds := by
  have hL : ∀ p ∈ a.peers.connectedPeers, ∃ k, k ≠ j ∧ p.address = addr k ∧
      p.endpoint = some (ep k) := fun p hp => by
    obtain ⟨k, hkj, hrec⟩ := h.mem_connectedPeers hp
    exact ⟨k, hkj, hrec.1, hrec.2.1⟩
  obtain ⟨h', hn, ht, ds, hs, hds⟩ := h.foldl_broadcastStep P hinj networkID f x hL
  refine ⟨h', hn, ht, ds, hs, hds.sealed,
    hds.length.trans (h.length_filter_connectedPeers hinj x), fun k hkj hkx => ?_⟩
  obtain ⟨p, hp, hrec⟩ := h.record k hkj
  obtain ⟨d, hd, hpd⟩ := hds.reaches p (mem_connectedPeers_of_lookup hp hrec) (hrec.1 ▸ hkx)
  exact ⟨d, hd, Option.some_inj.mp (hpd.symm.trans hrec.2.1)⟩

/-- A frame its switch floods, written into member `j`'s tap, is sent to every other member
and not written back into the tap. -/
theorem handleTapFrame (hinj : Function.Injective addr) (h : MeshMember addr ep S j a)
    {f : List UInt8} (hf : FloodsFrame f a) (now : Int) :
    FloodedFrom P addr ep S j f Address.zero a (a.handleTapFrame P f now) ∧
      (a.handleTapFrame P f now).tapWrites = a.tapWrites := by
  obtain ⟨net, parsed, hnet, hp, harp, hfl⟩ := floodsFrame_iff.mp hf
  have hlen : ¬ f.length < MinFrameSize :=
    not_lt.mpr ((parseEthernetFrame_ok_iff f).mp ⟨_, hp⟩)
  -- the proxy answers nothing and, having learned from an ARP frame, still lets `f` through
  obtain ⟨arp, hpass, hreply⟩ : ∃ arp : ARPProxy, (parsed.isARP = true → arp.Passes parsed) ∧
      (if parsed.isARP then net.arp.handleARP parsed now else (net.arp, none)) = (arp, none) := by
    cases hb : parsed.isARP
    · exact ⟨net.arp, nofun, rfl⟩
    · obtain ⟨h₁, h₂⟩ := (harp hb).handleARP now
      exact ⟨_, fun _ => h₂, by rw [if_pos rfl, ← h₁]⟩
  let a₁ : Agent := { a with network := some { net with arp := arp, switch := { net.switch with
    macTable := Switch.learn net.switch.macTable parsed.srcMAC Address.zero true now } } }
  have heq : a.handleTapFrame P f now =
      a₁.broadcastToPeers P net.switch.networkID f Address.zero := by
    simp only [Agent.handleTapFrame, if_neg hlen, hp, hnet, hreply,
      Switch.handleLocalFrame_flood hp hfl now]
    rfl
  obtain ⟨h', hn, ht, ds, hs, hds⟩ :=
    (h.of_eq (b := a₁) rfl rfl).broadcastToPeers P hinj net.switch.networkID f Address.zero
  rw [heq]
  exact ⟨⟨h', floodsFrame_iff.mpr ⟨_, parsed, hn, hp, hpass, Switch.floods_learn hfl _ _ _⟩,
    ds, hs, hds⟩, ht⟩

/-- A copy of `f` from member `i`, sealed under `i`'s key to `j`, is written into `j`'s tap
and sent on to every member but `i` and `j`. -/
theorem handleUDPPacket (hP : NoiseCipher.AeadCorrect P) (hinj : Function.Injective addr)
    (hsep : EndpointsApart ep) (h : MeshMember addr ep S j a) {f : List UInt8}
    (hf : FloodsFrame f a) {i : Fin n} (hij : i ≠ j) {pkt : Packet}
    (hpkt : SealedFor P (S i j) f pkt) (now : Int) :
    FloodedFrom P addr ep S j f (addr i) a (a.handleUDPPacket P pkt.encode (ep i) now) ∧
      (a.handleUDPPacket P pkt.encode (ep i) now).tapWrites = a.tapWrites ++ [f] := by
  obtain ⟨net, parsed, hnet, hp, harp, hfl⟩ := floodsFrame_iff.mp hf
  obtain ⟨networkID, c₀, hk₀, rfl⟩ := hpkt
  obtain ⟨p, hget, -, hadr, hep, hst, c, hc, hsk, hrk⟩ := h.getPeerByEndpoint_ep hsep hij
  rw [Option.mem_def] at hc
  obtain ⟨d', hdec, hdsk, hdrk, -⟩ :=
    NoiseCipher.decrypt_encrypt hP c₀ c f (hrk.trans hk₀.symm)
  have hpd : (p.touch now).decrypt P (newDataPacket networkID (c₀.encrypt P f).2).payload =
      .ok ({ p.touch now with cipher := some d' }, f) := by
    simp only [Peer.decrypt, Peer.touch_cipher, hc, newDataPacket, hdec]
  let a₁ : Agent := a.setPeers (a.peers.insert (addr i) { p.touch now with cipher := some d' })
  let a₂ : Agent := { a₁ with network := some { net with switch := { net.switch with
    macTable := Switch.learn net.switch.macTable parsed.srcMAC (addr i) false now } } }
  have heq : a.handleUDPPacket P (newDataPacket networkID (c₀.encrypt P f).2).encode (ep i) now =
      Agent.inject (a₂.broadcastToPeers P net.switch.networkID f (addr i)) (some f) := by
    rw [Agent.handleUDPPacket_data P a _ now (decodePacket_encode _ rfl) rfl]
    simp only [Agent.handleDataPacket, hget, hpd, hadr, Agent.setPeers_network, hnet,
      Switch.handleRemoteFrame_flood hp hfl now]
    rfl
  have h₁ : MeshMember addr ep S j a₁ :=
    h.insert_record hinj hij ⟨hadr, hep, hst, d', rfl, hdsk.trans hsk, hdrk.trans hrk⟩
  obtain ⟨h₃, hn, ht, ds, hs, hds⟩ :=
    (h₁.of_eq (b := a₂) rfl rfl).broadcastToPeers P hinj net.switch.networkID f (addr i)
  rw [heq, Agent.inject_some _ h₃.tapUp]
  exact ⟨⟨h₃.of_eq rfl rfl,
    floodsFrame_iff.mpr ⟨_, parsed, hn, hp, harp, Switch.floods_learn hfl _ _ _⟩, ds, hs, hds⟩,
    by rw [ht]; rfl⟩

end MeshMember

end Members

/-! ### The network -/

/-- A datagram in flight from member `src` to member `dst`. -/
structure Flight (n : Nat) where
  src : Fin n
  dst : Fin n
  packet : Packet
  deriving DecidableEq

/-- The agents of the network and the datagrams in flight between them. -/
structure Mesh (n : Nat) where
  agents : Fin n → Agent
  inflight : List (Flight n)

section Network

variable {n : Nat} (ep : Fin n → UDPAddr)

def agentAt (dst : UDPAddr) : Option (Fin n) := (List.finRange n).find? fun k => ep k = dst

/-- The flights of the datagrams member `j` sent; one addressed to no member is lost. -/
def routeSent (j : Fin n) (ds : List Datagram) : List (Flight n) :=
  ds.filterMap fun d => (agentAt ep d.dst).map fun k => ⟨j, k, d.packet⟩

namespace Mesh

/-- Member `j` becomes `a'`, and the datagrams it sent beyond its old ones are put in
flight. -/
def update (m : Mesh n) (j : Fin n) (a' : Agent) : Mesh n :=
  ⟨Function.update m.agents j a',
    m.inflight ++ routeSent ep j (a'.sent.drop (m.agents j).sent.length)⟩

/-- Member `o`'s `tapReadLoop` reads the frame `f` from its tap. -/
def writeTap (m : Mesh n) (o : Fin n) (f : List UInt8) (now : Int) : Mesh n :=
  m.update ep o ((m.agents o).handleTapFrame P f now)

/-- The network delivers the datagram at position `idx` of those in flight, if there is one:
the `udpReadLoop` of its receiver reads it from its sender's endpoint. -/
def deliverAt (m : Mesh n) (idx : Nat) (now : Int) : Mesh n :=
  match m.inflight[idx]? with
  | some fl => Mesh.update ep ⟨m.agents, m.inflight.eraseIdx idx⟩ fl.dst
      ((m.agents fl.dst).handleUDPPacket P fl.packet.encode (ep fl.src) now)
  | none => m

/-- Deliveries in the order a schedule gives, each at its own time. -/
def run (m : Mesh n) (σ : List (Nat × Int)) : Mesh n :=
  σ.foldl (fun m e => m.deliverAt P ep e.1 e.2) m

def emitted (m : Mesh n) : Nat := ∑ j, (m.agents j).sent.length

@[simp] theorem update_agents_self (m : Mesh n) (j : Fin n) (a' : Agent) :
    (m.update ep j a').agents j = a' := Function.update_same _ _ _

theorem update_agents_ne (m : Mesh n) {j k : Fin n} (a' : Agent) (hk : k ≠ j) :
    (m.update ep j a').agents k = m.agents k := Function.update_noteq hk _ _

theorem forall_update_agents (m : Mesh n) {j : Fin n} {a' : Agent} {Q : Fin n → Agent → Prop}
    (h : Q j a') (hm : ∀ k, Q k (m.agents k)) (k : Fin n) : Q k ((m.update ep j a').agents k) := by
  by_cases hk : k = j
  · subst hk
    simpa using h
  · rw [update_agents_ne ep m a' hk]
    exact hm k

theorem emitted_update (m : Mesh n) (j : Fin n) (a' : Agent) :
    (m.update ep j a').emitted + (m.agents j).sent.length = m.emitted + a'.sent.length := by
  have hrest : ∑ k in Finset.univ \ {j}, ((m.update ep j a').agents k).sent.length =
      ∑ k in Finset.univ \ {j}, (m.agents k).sent.length :=
    Finset.sum_congr rfl fun k hk =>
      by rw [update_agents_ne ep m a' (by simpa using hk)]
  simp only [emitted, Finset.sum_eq_add_sum_diff_singleton (Finset.mem_univ j), hrest,
    update_agents_self]
  omega

theorem deliverAt_of_none {m : Mesh n} {idx : Nat} (h : m.inflight[idx]? = none) (now : Int) :
    m.deliverAt P ep idx now = m := by
  simp only [deliverAt, h]

theorem run_cons (m : Mesh n) (e : Nat × Int) (σ : List (Nat × Int)) :
    m.run P ep (e :: σ) = (m.deliverAt P ep e.1 e.2).run P ep σ := rfl

theorem run_append (m : Mesh n) (σ τ : List (Nat × Int)) :
    m.run P ep (σ ++ τ) = (m.run P ep σ).run P ep τ :=
  List.foldl_append _ _ _ _

end Mesh

theorem agentAt_ep {ep : Fin n → UDPAddr} (hinj : Function.Injective ep) (k : Fin n) :
    agentAt ep (ep k) = some k := by
  unfold agentAt
  cases h : (List.finRange n).find? (fun i => ep i = ep k) with
  | none => simpa using List.find?_eq_none.mp h k (List.mem_finRange k)
  | some i => exact congrArg some (hinj (by simpa using List.find?_some h))

theorem mem_routeSent {j : Fin n} {ds : List Datagram} {fl : Flight n}
    (h : fl ∈ routeSent ep j ds) :
    fl.src = j ∧ ∃ d ∈ ds, d.dst = ep fl.dst ∧ fl.packet = d.packet := by
  obtain ⟨d, hd, hfl⟩ := List.mem_filterMap.mp h
  obtain ⟨k, hk, rfl⟩ := Option.map_eq_some'.mp hfl
  have hek : ep k = d.dst := by simpa using List.find?_some hk
  exact ⟨rfl, d, hd, hek.symm, rfl⟩

theorem length_routeSent {ep : Fin n → UDPAddr} (hinj : Function.Injective ep) (j : Fin n)
    {ds : List Datagram} (h : ∀ d ∈ ds, ∃ k, d.dst = ep k) :
    (routeSent ep j ds).length = ds.length := by
  induction ds with
  | nil => rfl
  | cons d ds ih =>
      obtain ⟨k, hk⟩ := h d (List.mem_cons_self _ _)
      simp only [routeSent, List.filterMap_cons, hk, agentAt_ep hinj, Option.map_some',
        List.length_cons] at ih ⊢
      rw [ih fun d hd => h d (List.mem_cons_of_mem _ hd)]

end Network

/-! ### The flood -/

section Flood

variable {n : Nat} (addr : Fin n → Address) (ep : Fin n → UDPAddr)
  (S : Fin n → Fin n → Bytes32)

theorem card_others_ne (hinj : Function.Injective addr) {i j : Fin n} (hij : i ≠ j) :
    (Finset.univ.filter fun k => k ≠ j ∧ addr k ≠ addr i).card = n - 2 := by
  have hset : (Finset.univ.filter fun k => k ≠ j ∧ addr k ≠ addr i) =
      (Finset.univ.erase j).erase i := by
    ext k
    simp [hinj.ne_iff, and_comm]
  rw [hset, Finset.card_erase_of_mem (Finset.mem_erase.mpr ⟨hij, Finset.mem_univ i⟩),
    Finset.card_erase_of_mem (Finset.mem_univ j), Finset.card_univ, Fintype.card_fin]
  omega

theorem card_others_ne_zero (hz : ∀ k, addr k ≠ Address.zero) (j : Fin n) :
    (Finset.univ.filter fun k => k ≠ j ∧ addr k ≠ Address.zero).card = n - 1 := by
  have hset : (Finset.univ.filter fun k => k ≠ j ∧ addr k ≠ Address.zero) =
      Finset.univ.erase j := by
    ext k
    simp [hz]
  rw [hset, Finset.card_erase_of_mem (Finset.mem_univ j), Finset.card_univ, Fintype.card_fin]

/-- The flood of `f` through the mesh: every agent a member whose switch floods `f`, and
every datagram in flight a copy of `f` sealed by its sender under the key its receiver
opens with. -/
structure Flooding (f : List UInt8) (m : Mesh n) : Prop where
  member : ∀ j, MeshMember addr ep S j (m.agents j)
  floods : ∀ j, FloodsFrame f (m.agents j)
  sealed : ∀ fl ∈ m.inflight, fl.src ≠ fl.dst ∧ SealedFor P (S fl.src fl.dst) f fl.packet

/-- What member `o` reading `f` from its tap did to the flood, from `m` to `m'`. -/
structure Written (f : List UInt8) (o : Fin n) (m m' : Mesh n) : Prop where
  flooding : Flooding P addr ep S f m'
  taps : ∀ k, (m'.agents k).tapWrites = (m.agents k).tapWrites
  length : m'.inflight.length = m.inflight.length + (n - 1)
  emitted : m'.emitted = m.emitted + (n - 1)
  reaches : ∀ k, k ≠ o → ∃ pkt, ⟨o, k, pkt⟩ ∈ m'.inflight
  fresh : ∀ fl ∈ m'.inflight, fl ∈ m.inflight ∨ fl.src = o

/-- What delivering the datagram `fl` did to the flood, from `m` to `m'`: its receiver wrote
`f` into its tap and sent a copy to every member but itself and the sender. -/
structure Delivered (f : List UInt8) (fl : Flight n) (m m' : Mesh n) : Prop where
  flooding : Flooding P addr ep S f m'
  tap : (m'.agents fl.dst).tapWrites = (m.agents fl.dst).tapWrites ++ [f]
  others : ∀ k, k ≠ fl.dst → m'.agents k = m.agents k
  length : m'.inflight.length + 1 = m.inflight.length + (n - 2)
  emitted : m'.emitted = m.emitted + (n - 2)
  relays : ∀ k, k ≠ fl.src → k ≠ fl.dst → ∃ pkt, ⟨fl.dst, k, pkt⟩ ∈ m'.inflight
  keeps : ∀ fl' ∈ m.inflight, fl' ≠ fl → fl' ∈ m'.inflight
  fresh : ∀ fl' ∈ m'.inflight, fl' ∈ m.inflight ∨ (fl'.src = fl.dst ∧ fl'.dst ≠ fl.src)

/-- What replacing member `j` by an agent that flooded `f` to every member but itself and
the one at `x` did to the flood, from `m` with the flights `base` kept, to `m'`. -/
structure Relayed (f : List UInt8) (j : Fin n) (x : Address) (base : List (Flight n))
    (m m' : Mesh n) : Prop where
  flooding : Flooding P addr ep S f m'
  length : m'.inflight.length =
    base.length + (Finset.univ.filter fun k => k ≠ j ∧ addr k ≠ x).card
  emitted : m'.emitted = m.emitted + (Finset.univ.filter fun k => k ≠ j ∧ addr k ≠ x).card
  keeps : base ⊆ m'.inflight
  reaches : ∀ k, k ≠ j → addr k ≠ x → ∃ pkt, ⟨j, k, pkt⟩ ∈ m'.inflight
  fresh : ∀ fl ∈ m'.inflight, fl ∈ base ∨ (fl.src = j ∧ addr fl.dst ≠ x)

variable {P addr ep S} {f : List UInt8}

namespace SendsFlood

variable {j : Fin n} {x : Address} {ds : List Datagram}

theorem flights_sealed (hinj : Function.Injective ep) (h : SendsFlood P addr ep S j f x ds)
    {fl : Flight n} (hfl : fl ∈ routeSent ep j ds) :
    fl.src = j ∧ fl.src ≠ fl.dst ∧ addr fl.dst ≠ x ∧
      SealedFor P (S fl.src fl.dst) f fl.packet := by
  obtain ⟨rfl, d, hd, hdst, hpkt⟩ := mem_routeSent ep hfl
  obtain ⟨k, hkj, hkx, hdk, hsealed⟩ := h.sealed d hd
  obtain rfl : fl.dst = k := hinj (hdst.symm.trans hdk)
  exact ⟨rfl, hkj.symm, hkx, hpkt ▸ hsealed⟩

theorem length_flights (hinj : Function.Injective ep) (h : SendsFlood P addr ep S j f x ds) :
    (routeSent ep j ds).length = (Finset.univ.filter fun k => k ≠ j ∧ addr k ≠ x).card :=
  (length_routeSent hinj j fun d hd =>
    let ⟨k, _, _, hk, _⟩ := h.sealed d hd
    ⟨k, hk⟩).trans h.length

theorem flight_to (hinj : Function.Injective ep) (h : SendsFlood P addr ep S j f x ds) {k : Fin n}
    (hkj : k ≠ j) (hkx : addr k ≠ x) : ∃ pkt, ⟨j, k, pkt⟩ ∈ routeSent ep j ds := by
  obtain ⟨d, hd, hdk⟩ := h.reaches k hkj hkx
  exact ⟨d.packet, List.mem_filterMap.mpr ⟨d, hd, by rw [hdk, agentAt_ep hinj]; rfl⟩⟩

end SendsFlood

namespace Flooding

variable {m : Mesh n}

/-- Member `j` replaced by an agent that flooded `f` to every member but itself and the one
at `x`, the flights `base` of those in flight kept: the flood goes on, with one new flight
to each such member. -/
theorem update (hinj : Function.Injective ep) (h : Flooding P addr ep S f m)
    {base : List (Flight n)} (hbase : base ⊆ m.inflight) {j : Fin n} {x : Address} {a' : Agent}
    (ha : FloodedFrom P addr ep S j f x (m.agents j) a') :
    Relayed P addr ep S f j x base m (Mesh.update ep ⟨m.agents, base⟩ j a') := by
  obtain ⟨ds, hs, hds⟩ := ha.sent
  have hin : (Mesh.update ep ⟨m.agents, base⟩ j a').inflight = base ++ routeSent ep j ds := by
    rw [Mesh.update, hs, List.drop_left]
  have hmem : ∀ fl ∈ (Mesh.update ep ⟨m.agents, base⟩ j a').inflight, fl ∈ base ∨
      (fl.src = j ∧ fl.src ≠ fl.dst ∧ addr fl.dst ≠ x ∧
        SealedFor P (S fl.src fl.dst) f fl.packet) :=
    fun fl hfl => (List.mem_append.mp (hin ▸ hfl)).imp_right (hds.flights_sealed hinj)
  have hem := Mesh.emitted_update ep ⟨m.agents, base⟩ j a'
  have hbase_em : Mesh.emitted ⟨m.agents, base⟩ = m.emitted := rfl
  rw [hs, List.length_append, hds.length, hbase_em] at hem
  refine ⟨⟨Mesh.forall_update_agents ep _ ha.member h.member,
      Mesh.forall_update_agents ep _ ha.floods h.floods, fun fl hfl => ?_⟩,
    by rw [hin, List.length_append, hds.length_flights hinj], by dsimp only at hem; omega,
    fun fl hfl => hin ▸ List.mem_append_left _ hfl, fun k hkj hkx => ?_,
    fun fl hfl => (hmem fl hfl).imp_right fun ⟨hsrc, _, hx, _⟩ => ⟨hsrc, hx⟩⟩
  · rcases hmem fl hfl with hb | ⟨-, hne, -, hsealed⟩
    · exact h.sealed fl (hbase hb)
    · exact ⟨hne, hsealed⟩
  · obtain ⟨pkt, hpkt⟩ := hds.flight_to hinj hkj hkx
    exact ⟨pkt, hin ▸ List.mem_append_right _ hpkt⟩

/-- Member `o` reading `f` from its tap sends it to every other member and writes no tap. -/
theorem writeTap (hinj : Function.Injective addr) (hz : ∀ k, addr k ≠ Address.zero)
    (hsep : EndpointsApart ep) (h : Flooding P addr ep S f m) (o : Fin n) (now : Int) :
    Written P addr ep S f o m (m.writeTap P ep o f now) := by
  obtain ⟨ha, htap⟩ := (h.member o).handleTapFrame P hinj (h.floods o) now
  have hr := h.update hsep.injective (List.Subset.refl _) ha
  exact ⟨hr.flooding,
    Mesh.forall_update_agents ep (Q := fun k a => a.tapWrites = (m.agents k).tapWrites) _ htap
      fun _ => rfl,
    hr.length.trans (by rw [card_others_ne_zero addr hz]),
    hr.emitted.trans (by rw [card_others_ne_zero addr hz]),
    fun k hk => hr.reaches k hk (hz k), fun fl hfl => (hr.fresh fl hfl).imp_right And.left⟩

/-- Delivering a datagram of the flood writes `f` into its receiver's tap and puts a copy in
flight to every member but its sender and receiver. -/
theorem deliverAt (hP : NoiseCipher.AeadCorrect P) (hinj : Function.Injective addr)
    (hsep : EndpointsApart ep) (h : Flooding P addr ep S f m) {idx : Nat} {fl : Flight n}
    (hidx : m.inflight[idx]? = some fl) (now : Int) :
    Delivered P addr ep S f fl m (m.deliverAt P ep idx now) := by
  obtain ⟨hne, hsealed⟩ := h.sealed fl (List.getElem?_mem hidx)
  obtain ⟨ha, htap⟩ :=
    (h.member fl.dst).handleUDPPacket P hP hinj hsep (h.floods fl.dst) hne hsealed now
  have hr := h.update hsep.injective (List.eraseIdx_subset m.inflight idx) ha
  have hdeliver : m.deliverAt P ep idx now = Mesh.update ep ⟨m.agents, m.inflight.eraseIdx idx⟩
      fl.dst ((m.agents fl.dst).handleUDPPacket P fl.packet.encode (ep fl.src) now) := by
    simp only [Mesh.deliverAt, hidx]
  have hlt : idx < m.inflight.length := (List.getElem?_eq_some_iff.mp hidx).1
  rw [hdeliver]
  refine ⟨hr.flooding, by simpa using htap, fun k hk => Mesh.update_agents_ne ep _ _ hk, ?_,
    by rw [hr.emitted, card_others_ne addr hinj hne],
    fun k hks hkd => hr.reaches k hkd (hinj.ne hks),
    fun fl' hfl' hne' => hr.keeps ?_, fun fl' hfl' => (hr.fresh fl' hfl').imp
      List.mem_of_mem_eraseIdx fun ⟨hsrc, hx⟩ => ⟨hsrc, fun hd => hx (congrArg addr hd)⟩⟩
  · rw [hr.length, card_others_ne addr hinj hne, List.length_eraseIdx_of_lt hlt]
    omega
  · obtain ⟨i, hi⟩ := List.mem_iff_getElem?.mp hfl'
    refine List.mem_eraseIdx_iff_getElem?.mpr ⟨i, ?_, hi⟩
    rintro rfl
    exact hne' (Option.some_inj.mp (hi.symm.trans hidx))

end Flooding

end Flood

/-! ### Runs of the flood -/

section Runs

variable {P} {n : Nat} {addr : Fin n → Address} {ep : Fin n → UDPAddr}
  {S : Fin n → Fin n → Bytes32} {f : List UInt8}

theorem Fin.exists_ne_ne (h3 : 3 ≤ n) (a b : Fin n) : ∃ k : Fin n, k ≠ a ∧ k ≠ b := by
  by_contra hne
  push_neg at hne
  have h0 := hne ⟨0, by omega⟩
  have h1 := hne ⟨1, by omega⟩
  have h2 := hne ⟨2, by omega⟩
  simp only [ne_eq, Fin.ext_iff] at h0 h1 h2
  omega

namespace Flooding

variable {m : Mesh n}

/-- A property of the flood that every delivery keeps holds after every schedule. -/
theorem run_induction (hP : NoiseCipher.AeadCorrect P) (hinj : Function.Injective addr)
    (hsep : EndpointsApart ep) (I : Mesh n → Prop)
    (hstep : ∀ m fl m', Flooding P addr ep S f m → I m → fl ∈ m.inflight →
      Delivered P addr ep S f fl m m' → I m')
    (h : Flooding P addr ep S f m) (hI : I m) (σ : List (Nat × Int)) :
    Flooding P addr ep S f (m.run P ep σ) ∧ I (m.run P ep σ) := by
  induction σ generalizing m with
  | nil => exact ⟨h, hI⟩
  | cons e σ ih =>
      rw [Mesh.run_cons]
      cases hidx : m.inflight[e.1]? with
      | none =>
          rw [Mesh.deliverAt_of_none P ep hidx]
          exact ih h hI
      | some fl =>
          have hd := h.deliverAt hP hinj hsep hidx e.2
          exact ih hd.flooding (hstep m fl _ h hI (List.getElem?_mem hidx) hd)

theorem exists_deliver (hP : NoiseCipher.AeadCorrect P) (hinj : Function.Injective addr)
    (hsep : EndpointsApart ep) (h : Flooding P addr ep S f m) {fl : Flight n}
    (hfl : fl ∈ m.inflight) : ∃ idx, Delivered P addr ep S f fl m (m.deliverAt P ep idx 0) :=
  let ⟨idx, hidx⟩ := List.mem_iff_getElem?.mp hfl
  ⟨idx, h.deliverAt hP hinj hsep hidx 0⟩

theorem inflight_ge (hP : NoiseCipher.AeadCorrect P) (hinj : Function.Injective addr)
    (hsep : EndpointsApart ep) (h3 : 3 ≤ n) (h : Flooding P addr ep S f m)
    (hlen : n - 1 ≤ m.inflight.length) (σ : List (Nat × Int)) :
    n - 1 ≤ (m.run P ep σ).inflight.length :=
  (h.run_induction hP hinj hsep (fun m' => n - 1 ≤ m'.inflight.length)
    (fun _ _ _ _ hI _ hd => by have := hd.length; omega) hlen σ).2

theorem emitted_unbounded (hP : NoiseCipher.AeadCorrect P) (hinj : Function.Injective addr)
    (hsep : EndpointsApart ep) (h3 : 3 ≤ n) (h : Flooding P addr ep S f m)
    (hlen : n - 1 ≤ m.inflight.length) (N : Nat) :
    ∃ σ, m.emitted + N ≤ (m.run P ep σ).emitted := by
  induction N with
  | zero => exact ⟨[], le_refl _⟩
  | succ N ih =>
      obtain ⟨σ, hσ⟩ := ih
      have hf := (h.run_induction hP hinj hsep (fun _ => True) (fun _ _ _ _ _ _ _ => trivial)
        trivial σ).1
      have hl := h.inflight_ge hP hinj hsep h3 hlen σ
      obtain ⟨fl, hfl⟩ : ∃ fl, (m.run P ep σ).inflight[0]? = some fl := by
        cases hin : (m.run P ep σ).inflight with
        | nil => rw [hin] at hl; simp at hl; omega
        | cons fl _ => exact ⟨fl, by simp⟩
      have hd := hf.deliverAt hP hinj hsep hfl 0
      refine ⟨σ ++ [(0, 0)], ?_⟩
      rw [Mesh.run_append]
      show _ ≤ ((m.run P ep σ).deliverAt P ep 0 0).emitted
      have := hd.emitted
      omega

end Flooding

namespace Written

variable {m m₀ : Mesh n} {o : Fin n}

theorem run_two (hP : NoiseCipher.AeadCorrect P) (hinj : Function.Injective addr)
    (hsep : EndpointsApart ep) (hn : n = 2) (hw : Written P addr ep S f o m m₀)
    (hnil : m.inflight = []) (σ : List (Nat × Int)) :
    (m₀.run P ep σ).emitted = m.emitted + 1 ∧
      ((m₀.run P ep σ).agents o).tapWrites = (m.agents o).tapWrites ∧
      ∀ j, j ≠ o → ((m₀.run P ep σ).agents j).tapWrites = (m.agents j).tapWrites ∨
        ((m₀.run P ep σ).agents j).tapWrites = (m.agents j).tapWrites ++ [f] := by
  subst hn
  have hother : ∀ o j k : Fin 2, j ≠ o → k ≠ o → j = k := by decide
  let I : Mesh 2 → Prop := fun m' => m'.emitted = m.emitted + 1 ∧
    (∀ fl ∈ m'.inflight, fl.src = o) ∧ m'.inflight.length ≤ 1 ∧
    (m'.agents o).tapWrites = (m.agents o).tapWrites ∧
    ∀ j, j ≠ o → (m'.agents j).tapWrites =
      (m.agents j).tapWrites ++ List.replicate (1 - m'.inflight.length) f
  have hI₀ : I m₀ := by
    refine ⟨hw.emitted, fun fl hfl => (hw.fresh fl hfl).resolve_left (by simp [hnil]),
      by simp [hw.length, hnil], hw.taps o, fun j _ => by simp [hw.taps j, hw.length, hnil]⟩
  have hstep : ∀ m₁ fl m₂, Flooding P addr ep S f m₁ → I m₁ → fl ∈ m₁.inflight →
      Delivered P addr ep S f fl m₁ m₂ → I m₂ := by
    rintro m₁ fl m₂ hf ⟨he, hsrc, hlen, hto, htj⟩ hfl hd
    have hdo : fl.dst ≠ o := hsrc fl hfl ▸ (hf.sealed fl hfl).1.symm
    have hlen₁ : m₁.inflight.length = 1 := by
      have := List.length_pos_of_mem hfl; omega
    have hlen₂ : m₂.inflight.length = 0 := by have := hd.length; omega
    refine ⟨by rw [hd.emitted, he], fun fl' hfl' => absurd hfl' (by
      rw [List.length_eq_zero.mp hlen₂]; exact List.not_mem_nil _), by omega,
      by rw [hd.others o hdo.symm, hto], fun j hj => ?_⟩
    rw [hother o j fl.dst hj hdo, hd.tap, htj fl.dst hdo, hlen₁, hlen₂]
    simp
  obtain ⟨-, he, -, hlen, hto, htj⟩ := (hw.flooding.run_induction hP hinj hsep I hstep hI₀ σ)
  refine ⟨he, hto, fun j hj => ?_⟩
  rw [htj j hj]
  rcases Nat.le_one_iff_eq_zero_or_eq_one.mp hlen with h0 | h1
  · exact .inr (by rw [h0]; rfl)
  · exact .inl (by rw [h1]; simp)

theorem returns_to_origin (hP : NoiseCipher.AeadCorrect P) (hinj : Function.Injective addr)
    (hsep : EndpointsApart ep) (h3 : 3 ≤ n) (hw : Written P addr ep S f o m m₀) :
    ∃ σ, ((m₀.run P ep σ).agents o).tapWrites = (m.agents o).tapWrites ++ [f] := by
  obtain ⟨j, hjo, -⟩ := Fin.exists_ne_ne h3 o o
  obtain ⟨k, hko, hkj⟩ := Fin.exists_ne_ne h3 o j
  obtain ⟨p₁, h₁⟩ := hw.reaches j hjo
  obtain ⟨i₁, d₁⟩ := hw.flooding.exists_deliver hP hinj hsep h₁
  obtain ⟨p₂, h₂⟩ := d₁.relays k hko hkj
  obtain ⟨i₂, d₂⟩ := d₁.flooding.exists_deliver hP hinj hsep h₂
  obtain ⟨p₃, h₃⟩ := d₂.relays o hjo.symm hko.symm
  obtain ⟨i₃, d₃⟩ := d₂.flooding.exists_deliver hP hinj hsep h₃
  refine ⟨[(i₁, 0), (i₂, 0), (i₃, 0)], ?_⟩
  calc _ = (((m₀.deliverAt P ep i₁ 0).deliverAt P ep i₂ 0).agents o).tapWrites ++ [f] :=
        d₃.tap
    _ = (m₀.agents o).tapWrites ++ [f] := by rw [d₂.others o hko.symm, d₁.others o hjo.symm]
    _ = (m.agents o).tapWrites ++ [f] := by rw [hw.taps o]

theorem reaches_twice (hP : NoiseCipher.AeadCorrect P) (hinj : Function.Injective addr)
    (hsep : EndpointsApart ep) (h3 : 3 ≤ n) (hw : Written P addr ep S f o m m₀) {j : Fin n}
    (hjo : j ≠ o) :
    ∃ σ, ((m₀.run P ep σ).agents j).tapWrites = (m.agents j).tapWrites ++ [f, f] := by
  obtain ⟨k, hko, hkj⟩ := Fin.exists_ne_ne h3 o j
  obtain ⟨p₁, h₁⟩ := hw.reaches j hjo
  obtain ⟨p₂, h₂⟩ := hw.reaches k hko
  obtain ⟨i₁, d₁⟩ := hw.flooding.exists_deliver hP hinj hsep h₁
  obtain ⟨i₂, d₂⟩ := d₁.flooding.exists_deliver hP hinj hsep
    (d₁.keeps _ h₂ fun h => hkj (congrArg Flight.dst h))
  obtain ⟨p₃, h₃⟩ := d₂.relays j hjo hkj.symm
  obtain ⟨i₃, d₃⟩ := d₂.flooding.exists_deliver hP hinj hsep h₃
  refine ⟨[(i₁, 0), (i₂, 0), (i₃, 0)], ?_⟩
  calc _ = (((m₀.deliverAt P ep i₁ 0).deliverAt P ep i₂ 0).agents j).tapWrites ++ [f] :=
        d₃.tap
    _ = ((m₀.deliverAt P ep i₁ 0).agents j).tapWrites ++ [f] := by rw [d₂.others j hkj.symm]
    _ = (m.agents j).tapWrites ++ [f, f] := by rw [d₁.tap, hw.taps j, List.append_assoc]; rfl

end Written

/-! ### Three agents -/

/-- An AEAD that appends a zero tag and strips it again. -/
def zeroTagAead : Primitives :=
  ⟨fun k d => FixedBytes.ofList 32 (k ++ d), fun _ _ m _ => m ++ List.replicate NoiseTagSize 0,
    fun _ _ c _ => some (c.take (c.length - NoiseTagSize)), fun _ _ => default⟩

theorem zeroTagAead_correct : NoiseCipher.AeadCorrect zeroTagAead :=
  ⟨fun _ _ _ _ => by simp [zeroTagAead], fun _ _ _ _ => by simp [zeroTagAead]⟩

def trioAddr (k : Fin 3) : Address := ⟨(k.val + 1).toUInt8, 0, 0, 0, 0⟩

def trioEndpoint (k : Fin 3) : UDPAddr := ⟨[10, 0, 0, (k.val + 1).toUInt8], 9993⟩

def trioKey (j k : Fin 3) : Bytes32 := FixedBytes.ofList 32 [j.val.toUInt8, k.val.toUInt8]

def trioPeer (j k : Fin 3) : Peer :=
  ⟨trioAddr k, default, .connected, some (trioEndpoint k),
    some ⟨trioKey j k, trioKey k j, 0, 0⟩, 0, 0⟩

def trioAgent (j : Fin 3) : Agent :=
  ⟨⟨default, 7, 1400, [], ["7"]⟩, default, 9993,
    (((List.finRange 3).filter (· ≠ j)).map fun k => ⟨trioAddr k, trioPeer j k⟩).toAList,
    some (Network.new 7), true, [], [], [], []⟩

def trio : Mesh 3 := ⟨trioAgent, []⟩

/-- An IPv4 broadcast from `02:00:00:00:00:01`. -/
def broadcastFrame : List UInt8 := [0xff, 0xff, 0xff, 0xff, 0xff, 0xff, 2, 0, 0, 0, 0, 1, 8, 0]

/-- The three switches flood the broadcast, and an ARP request for `10.0.0.2`, which no proxy
holds, as well. -/
example : ∀ j, FloodsFrame broadcastFrame (trio.agents j) ∧
    FloodsFrame [0xff, 0xff, 0xff, 0xff, 0xff, 0xff, 2, 0, 0, 0, 0, 1, 8, 6, 0, 1, 8, 0, 6, 4, 0, 1,
      2, 0, 0, 0, 0, 1, 10, 0, 0, 1, 0, 0, 0, 0, 0, 0, 10, 0, 0, 2] (trio.agents j) := by
  decide

/-- A full mesh of agents whose switches flood `f`, with nothing in flight; member `o` reads
`f` from its tap. With two agents, in every order of delivery one datagram is sent, the
origin's tap is never written and the other tap at most once. With three or more, every
order keeps at least `n - 1` datagrams in flight, so the flood never ends: some order sends
as many datagrams as one likes, some order writes `f` back into the origin's tap, and for
every other member some order writes `f` into its tap twice. -/
theorem flood_ends_only_with_two (hP : NoiseCipher.AeadCorrect P) (hinj : Function.Injective addr)
    (hz : ∀ k, addr k ≠ Address.zero) (hsep : EndpointsApart ep) {m : Mesh n}
    (hm : ∀ j, MeshMember addr ep S j (m.agents j)) (hf : ∀ j, FloodsFrame f (m.agents j))
    (hnil : m.inflight = []) (o : Fin n) (now : Int) :
    let m₀ := m.writeTap P ep o f now
    (n = 2 → ∀ σ, (m₀.run P ep σ).emitted = m.emitted + 1 ∧
      ((m₀.run P ep σ).agents o).tapWrites = (m.agents o).tapWrites ∧
      ∀ j, j ≠ o → ((m₀.run P ep σ).agents j).tapWrites = (m.agents j).tapWrites ∨
        ((m₀.run P ep σ).agents j).tapWrites = (m.agents j).tapWrites ++ [f]) ∧
    (3 ≤ n → (∀ σ, n - 1 ≤ (m₀.run P ep σ).inflight.length) ∧
      (∀ N, ∃ σ, m.emitted + N ≤ (m₀.run P ep σ).emitted) ∧
      (∃ σ, ((m₀.run P ep σ).agents o).tapWrites = (m.agents o).tapWrites ++ [f]) ∧
      ∀ j, j ≠ o → ∃ σ,
        ((m₀.run P ep σ).agents j).tapWrites = (m.agents j).tapWrites ++ [f, f]) := by
  intro m₀
  have hw : Written P addr ep S f o m m₀ :=
    Flooding.writeTap hinj hz hsep ⟨hm, hf, by simp [hnil]⟩ o now
  have hlen : n - 1 ≤ m₀.inflight.length := by rw [hw.length]; omega
  refine ⟨fun hn σ => hw.run_two hP hinj hsep hn hnil σ, fun h3 =>
    ⟨hw.flooding.inflight_ge hP hinj hsep h3 hlen, fun N => ?_,
      hw.returns_to_origin hP hinj hsep h3, fun j hj => hw.reaches_twice hP hinj hsep h3 hj⟩⟩
  obtain ⟨σ, hσ⟩ := hw.flooding.emitted_unbounded hP hinj hsep h3 hlen N
  exact ⟨σ, by rw [hw.emitted] at hσ; omega⟩

end Runs

/-- Among the three agents at least two copies of the broadcast stay in flight whatever the
order of delivery, and some order writes it back into agent 0's tap. -/
theorem trio_flood_never_ends :
    (∀ σ, 2 ≤ ((trio.writeTap zeroTagAead trioEndpoint 0 broadcastFrame 0).run zeroTagAead
      trioEndpoint σ).inflight.length) ∧
    ∃ σ, (((trio.writeTap zeroTagAead trioEndpoint 0 broadcastFrame 0).run zeroTagAead
      trioEndpoint σ).agents 0).tapWrites = [broadcastFrame] := by
  have h := (@flood_ends_only_with_two zeroTagAead 3 trioAddr trioEndpoint trioKey broadcastFrame
    zeroTagAead_correct (by decide) (by decide) (by decide) trio (by decide) (by decide) rfl 0 0).2
    (le_refl 3)
  exact ⟨h.1, h.2.2.1⟩

/-- Three agents of a full mesh, agent 0 reading a broadcast from its tap. Delivering the
copy to agent 1, then agent 1's copy to agent 2, then agent 2's copy to agent 0 writes the
broadcast back into agent 0's tap; delivering the copies to agents 1 and 2, then agent 2's
copy to agent 1, writes it twice into agent 1's tap. -/
theorem trio_broadcast_echoes :
    (∀ j, MeshMember trioAddr trioEndpoint trioKey j (trio.agents j)) ∧
      (((trio.writeTap zeroTagAead trioEndpoint 0 broadcastFrame 0).run zeroTagAead trioEndpoint
        [(0, 0), (1, 0), (1, 0)]).agents 0).tapWrites = [broadcastFrame] ∧
      (((trio.writeTap zeroTagAead trioEndpoint 0 broadcastFrame 0).run zeroTagAead trioEndpoint
        [(0, 0), (0, 0), (1, 0)]).agents 1).tapWrites = [broadcastFrame, broadcastFrame] := by
  decide

end ZeroGo
