import ZeroGo.Mesh

/-!
Unicast through the mesh. A frame read from member `j`'s tap whose destination `j`'s switch,
once it has learned the source, maps to member `k` is sent to `k` alone, sealed under the key
`k` opens with (`SendToPeer`). Member `k` decrypts it, learns its source as `remote(j)`, and
writes it into its tap without sending anything when its own table maps the destination to a
local MAC (`HandleRemoteFrame`). Over the network: one datagram in flight, one tap write at
the receiver, and nothing left in flight once it is delivered.
-/

namespace ZeroGo

open Vl1 Vl2

variable (P : Primitives)

section Members

variable {n : Nat} {addr : Fin n → Address} {ep : Fin n → UDPAddr}
  {S : Fin n → Fin n → Bytes32}

namespace MeshMember

variable {j : Fin n} {a : Agent}

theorem sendToPeer (hinj : Function.Injective addr) (h : MeshMember addr ep S j a) {k : Fin n}
    (hkj : k ≠ j) (networkID : UInt32) (f : List UInt8) :
    MeshMember addr ep S j (a.sendToPeer P (addr k) networkID f).1 ∧
      (a.sendToPeer P (addr k) networkID f).1.network = a.network ∧
      (a.sendToPeer P (addr k) networkID f).1.tapWrites = a.tapWrites ∧
      ∃ pkt, (a.sendToPeer P (addr k) networkID f).1.sent = a.sent ++ [⟨ep k, pkt⟩] ∧
        SealedFor P (S j k) f pkt := by
  obtain ⟨p, hp, hrec⟩ := h.record k hkj
  rw [Option.mem_def] at hp
  have hc : (!p.isConnected) = false := by rw [hrec.isConnected]; rfl
  simp only [Agent.sendToPeer, PeerManager.getPeer, hp, hc, Bool.false_eq_true, if_false]
  exact h.encryptAndSend P hinj hkj networkID f

/-- A frame read from member `j`'s tap whose destination its switch maps, once the source is
learned, to member `k` goes to `k` alone and is not written back into the tap. -/
theorem handleTapFrame_unicast (hinj : Function.Injective addr) (h : MeshMember addr ep S j a)
    {net : Network} (hnet : a.network = some net) {f : List UInt8} {parsed : EthernetFrame}
    (hp : parseEthernetFrame f = .ok parsed) (harp : parsed.isARP = false)
    (hg : (parsed.isBroadcast || parsed.isMulticast) = false) {k : Fin n} (hkj : k ≠ j)
    {now seen : Int}
    (hd : (Switch.learn net.switch.macTable parsed.srcMAC Address.zero true now).lookup
      (macToKey parsed.dstMAC) = some ⟨addr k, seen, false⟩) :
    MeshMember addr ep S j (a.handleTapFrame P f now) ∧
      (a.handleTapFrame P f now).tapWrites = a.tapWrites ∧
      ∃ pkt, (a.handleTapFrame P f now).sent = a.sent ++ [⟨ep k, pkt⟩] ∧
        SealedFor P (S j k) f pkt := by
  have hlen : ¬ f.length < MinFrameSize :=
    not_lt.mpr ((parseEthernetFrame_ok_iff f).mp ⟨_, hp⟩)
  let a₁ : Agent := { a with network := some { net with switch := { net.switch with
    macTable := Switch.learn net.switch.macTable parsed.srcMAC Address.zero true now } } }
  have heq : a.handleTapFrame P f now =
      (a₁.sendToPeer P (addr k) net.switch.networkID f).1 := by
    simp only [Agent.handleTapFrame, if_neg hlen, hp, hnet, harp,
      (Switch.localForwarding net.switch hp now).unicasts _ _ hg hd]
    rfl
  obtain ⟨h', -, ht, hs⟩ :=
    (h.of_eq (b := a₁) rfl rfl).sendToPeer P hinj hkj net.switch.networkID f
  rw [heq]
  exact ⟨h', ht, hs⟩

theorem handleUDPPacket_local (hP : NoiseCipher.AeadCorrect P) (hinj : Function.Injective addr)
    (hsep : EndpointsApart ep) (h : MeshMember addr ep S j a) {net : Network}
    (hnet : a.network = some net) {f : List UInt8} {parsed : EthernetFrame}
    (hp : parseEthernetFrame f = .ok parsed)
    (hg : (parsed.isBroadcast || parsed.isMulticast) = false) {i : Fin n} (hij : i ≠ j)
    {pkt : Packet} (hpkt : SealedFor P (S i j) f pkt) {now : Int} {e : MACEntry}
    (hd : (Switch.learn net.switch.macTable parsed.srcMAC (addr i) false now).lookup
      (macToKey parsed.dstMAC) = some e) (he : e.isLocal = true) :
    MeshMember addr ep S j (a.handleUDPPacket P pkt.encode (ep i) now) ∧
      (a.handleUDPPacket P pkt.encode (ep i) now).tapWrites = a.tapWrites ++ [f] ∧
      (a.handleUDPPacket P pkt.encode (ep i) now).sent = a.sent := by
  obtain ⟨networkID, c₀, hk₀, rfl⟩ := hpkt
  obtain ⟨p, hget, -, hadr, hep, hst, c, hc, hsk, hrk⟩ := h.getPeerByEndpoint_ep hsep hij
  rw [Option.mem_def] at hc
  obtain ⟨d', hdec, hdsk, hdrk, -⟩ :=
    NoiseCipher.decrypt_encrypt hP c₀ c f (hrk.trans hk₀.symm)
  have hpd : (p.touch now).decrypt P (newDataPacket networkID (c₀.encrypt P f).2).payload =
      .ok ({ p.touch now with cipher := some d' }, f) := by
    simp only [Peer.decrypt, Peer.touch_cipher, hc, newDataPacket, hdec]
  let a₁ : Agent := a.setPeers (a.peers.insert (addr i) { p.touch now with cipher := some d' })
  let a₂ : Agent := { a₁ with network := some { net with switch := { net.switch with
    macTable := Switch.learn net.switch.macTable parsed.srcMAC (addr i) false now } } }
  have heq : a.handleUDPPacket P (newDataPacket networkID (c₀.encrypt P f).2).encode (ep i) now =
      Agent.inject a₂ (some f) := by
    rw [Agent.handleUDPPacket_data P a _ now (decodePacket_encode _ rfl) rfl]
    simp only [Agent.handleDataPacket, hget, hpd, hadr, Agent.setPeers_network, hnet,
      (Switch.remoteForwarding net.switch (addr i) hp now).injectsLocal e hg hd he]
  have h₁ : MeshMember addr ep S j a₁ :=
    h.insert_record hinj hij ⟨hadr, hep, hst, d', rfl, hdsk.trans hsk, hdrk.trans hrk⟩
  rw [heq, Agent.inject_some a₂ h₁.tapUp]
  exact ⟨h₁.of_eq rfl rfl, rfl, rfl⟩

end MeshMember

end Members

/-! ### Delivery -/

section Network

variable {P} {n : Nat} {addr : Fin n → Address} {ep : Fin n → UDPAddr}
  {S : Fin n → Fin n → Bytes32}

theorem routeSent_singleton (hinj : Function.Injective ep) (j k : Fin n) (pkt : Packet) :
    routeSent ep j [⟨ep k, pkt⟩] = [⟨j, k, pkt⟩] := by
  simp only [routeSent, List.filterMap_cons, agentAt_ep hinj, Option.map_some',
    List.filterMap_nil]

/-- A unicast frame crosses the mesh in one datagram. Member `j` reads `f` from its tap; its
switch maps the destination to member `k`, whose switch maps it to a local MAC, each after
learning the source. The network then delivers the datagram `j` sent, whenever it likes: `k`
writes `f` into its tap, no other tap is written, no agent but `j` and `k` changes, exactly one
datagram was emitted, and no datagram is left in flight beyond those before. -/
theorem unicast_delivered (hP : NoiseCipher.AeadCorrect P) (hinj : Function.Injective addr)
    (hsep : EndpointsApart ep) {m : Mesh n} (hm : ∀ o, MeshMember addr ep S o (m.agents o))
    {j k : Fin n} (hkj : k ≠ j) {f : List UInt8} {parsed : EthernetFrame}
    (hp : parseEthernetFrame f = .ok parsed) (harp : parsed.isARP = false)
    (hg : (parsed.isBroadcast || parsed.isMulticast) = false)
    {netj netk : Network} (hnj : (m.agents j).network = some netj)
    (hnk : (m.agents k).network = some netk) {now now' seen : Int} {e : MACEntry}
    (hdj : (Switch.learn netj.switch.macTable parsed.srcMAC Address.zero true now).lookup
      (macToKey parsed.dstMAC) = some ⟨addr k, seen, false⟩)
    (hdk : (Switch.learn netk.switch.macTable parsed.srcMAC (addr j) false now').lookup
      (macToKey parsed.dstMAC) = some e) (he : e.isLocal = true) :
    let m' := (m.writeTap P ep j f now).deliverAt P ep m.inflight.length now'
    m'.inflight = m.inflight ∧ m'.emitted = m.emitted + 1 ∧
      (m'.agents k).tapWrites = (m.agents k).tapWrites ++ [f] ∧
      (m'.agents j).tapWrites = (m.agents j).tapWrites ∧
      (∀ o, o ≠ j → o ≠ k → m'.agents o = m.agents o) ∧
      ∀ o, MeshMember addr ep S o (m'.agents o) := by
  intro m'
  obtain ⟨hj, htj, pkt, hsj, hseal⟩ := (hm j).handleTapFrame_unicast P hinj hnj hp harp hg hkj hdj
  let b := (m.agents k).handleUDPPacket P pkt.encode (ep j) now'
  obtain ⟨hk, htk, hsk⟩ :=
    (hm k).handleUDPPacket_local P hP hinj hsep hnk hp hg hkj.symm hseal hdk he
  have hin₁ : (m.writeTap P ep j f now).inflight = m.inflight ++ [⟨j, k, pkt⟩] := by
    simp only [Mesh.writeTap, Mesh.update, hsj, List.drop_left,
      routeSent_singleton hsep.injective]
  have hk₁ : (m.writeTap P ep j f now).agents k = m.agents k := Mesh.update_agents_ne ep m _ hkj
  have hm' : m' = Mesh.update ep ⟨(m.writeTap P ep j f now).agents, m.inflight⟩ k b := by
    simp only [m', Mesh.deliverAt, hin₁, List.getElem?_concat_length,
      List.eraseIdx_append_of_length_le (le_refl _), Nat.sub_self, List.eraseIdx_cons_zero,
      List.append_nil, hk₁]
  have hm₁ : ∀ o, MeshMember addr ep S o ((m.writeTap P ep j f now).agents o) :=
    Mesh.forall_update_agents ep m (Q := MeshMember addr ep S) hj hm
  have he₁ : (m.writeTap P ep j f now).emitted + (m.agents j).sent.length =
      m.emitted + ((m.agents j).sent.length + 1) := by
    rw [← List.length_singleton (a := (⟨ep k, pkt⟩ : Datagram)), ← List.length_append, ← hsj]
    exact Mesh.emitted_update ep m j _
  have he₂ := Mesh.emitted_update ep ⟨(m.writeTap P ep j f now).agents, m.inflight⟩ k b
  have hsb : b.sent = (m.agents k).sent := hsk
  have he₃ : Mesh.emitted ⟨(m.writeTap P ep j f now).agents, m.inflight⟩ =
    (m.writeTap P ep j f now).emitted := rfl
  simp only [hk₁, hsb, he₃] at he₂
  rw [hm']
  refine ⟨by simp only [Mesh.update, hk₁, b, hsk, List.drop_length, routeSent,
      List.filterMap_nil, List.append_nil], by omega, by simpa using htk, ?_, fun o hoj hok => ?_,
    Mesh.forall_update_agents ep _ (Q := MeshMember addr ep S) hk hm₁⟩
  · rw [Mesh.update_agents_ne ep _ _ hkj.symm]
    simpa [Mesh.writeTap] using htj
  · rw [Mesh.update_agents_ne ep _ _ hok]
    exact Mesh.update_agents_ne ep m _ hoj

end Network

/-! ### Three agents -/

/-- An IPv4 frame from `02:00:00:00:00:01` to `02:00:00:00:00:02`. -/
def unicastFrame : List UInt8 := [2, 0, 0, 0, 0, 2, 2, 0, 0, 0, 0, 1, 8, 0]

/-- The trio once agent 0's switch has seen `02:00:00:00:00:02` behind agent 1, and agent 1's
switch has seen it on its own tap. -/
def trioLearned : Mesh 3 :=
  let learned (j : Fin 3) (e : MACEntry) : Agent :=
    { trioAgent j with network := some ⟨⟨7, (∅ : MACTable).insert
      (macToKey [2, 0, 0, 0, 0, 2]) e⟩, ARPProxy.new⟩ }
  ⟨fun j => if j = 0 then learned 0 ⟨trioAddr 1, 0, false⟩
    else if j = 1 then learned 1 ⟨Address.zero, 0, true⟩ else trioAgent 2, []⟩

/-- Agent 0 reads the frame for `02:00:00:00:00:02` from its tap: one datagram, to agent 1,
which writes the frame into its tap; agent 2 sees nothing. -/
theorem trio_unicast_reaches_one_tap :
    let m' := (trioLearned.writeTap zeroTagAead trioEndpoint 0 unicastFrame 0).deliverAt
      zeroTagAead trioEndpoint 0 0
    m'.inflight = [] ∧ (m'.agents 1).tapWrites = [unicastFrame] ∧ (m'.agents 0).tapWrites = [] ∧
      m'.agents 2 = trioAgent 2 := by
  obtain ⟨hin, -, h1, h0, h2, -⟩ := @unicast_delivered zeroTagAead 3 trioAddr trioEndpoint trioKey
    zeroTagAead_correct (by decide) (by decide) trioLearned (by decide) 0 1 (by decide)
    unicastFrame _ rfl (by decide) (by decide) _ _ rfl rfl 0 0 0 ⟨Address.zero, 0, true⟩
    (by decide) (by decide) (by decide)
  exact ⟨hin, h1, h0, h2 2 (by decide) (by decide)⟩

end ZeroGo
