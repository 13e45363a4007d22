import ZeroGo.Agent.ControllerClient
import ZeroGo.Controller.Roster

/-!
The control plane end to end: what the controller's agent endpoint sends, read by the
agent's controller client. The roster of a `network_config` carries the endpoints the
members advertised in their joins, and an agent advertises only `":port"`; such an endpoint
resolves to an address without an IP, which `addPeerFromInfo` skips. So on every run of the
controller, no roster it sends installs a peer.

The identities come across as well: a roster entry carries the hex of a node's key and of the
address that key hashes to, as the node's join gave them, so the peer an agent installs from it
sits at the address the entry names, where a `remove` update naming that address finds it.

The network itself comes across when it is named in decimal: the controller names a
configuration by the text the join named the network by, which SQLite reads as a number, and
sends its PSK as 32 bytes in hex. The agent's `hex.DecodeString` reads back exactly that key,
and its `Sscanf` reads back the network's ID from a decimal numeral; from other texts that SQLite
reads as the same number (`+7`, `7.0`, `70e-1`) it reads another one.
-/

namespace ZeroGo

open Controller Controller.WSHandler

/-- On every run of the agent endpoint in which each join advertises port-only endpoints,
as every agent's does (`Agent.joinMessage_endpoints_portOnly`), a `network_config` it sends
leaves the peer table of the agent that handles it unchanged. -/
theorem networkConfig_adds_no_peer (P : Primitives) (lookupHost : String → Option (List UInt8))
    (db : DB) {events : List WSEvent} (hjoins : ∀ e ∈ events, e.JoinsPortOnly) {conn : Nat}
    {msg : NetworkConfigMessage}
    (hsent : (conn, .networkConfig msg) ∈ ((WSHandler.new db).run events).outbox)
    (b : Agent) (now : Int) :
    (b.handleNetworkConfig P lookupHost msg now).peers = b.peers :=
  Agent.handleNetworkConfig_peers_portOnly P lookupHost b now
    (((PortOnly.new db).run hjoins).rosters _ hsent)

/-- Two authorized members join network 7 from port 9993; the configuration sent to the
second lists the first with its advertised endpoint, and a controller-mode agent handling
it keeps its empty peer table. -/
theorem networkConfig_adds_no_peer_join :
    let db : DB := ⟨[⟨7, 1400, "", "10.0.0.0/24"⟩], [],
      [⟨7, "a", true, "10.0.0.1", "A"⟩, ⟨7, "b", true, "10.0.0.2", "B"⟩]⟩
    let keyA := String.mk (List.replicate 64 '1')
    let events : List WSEvent :=
      [.connect "a" keyA, .message 0 (.join ⟨"a", keyA, ["7"], [portOnlyAddress 9993], "linux", "0.1.0"⟩),
        .connect "b" "", .message 1 (.join ⟨"b", "", ["7"], [portOnlyAddress 9993], "linux", "0.1.0"⟩)]
    let msg : NetworkConfigMessage := ⟨"7", 1400, "", "10.0.0.2", [⟨"a", keyA, [":9993"], "A"⟩]⟩
    let b := Agent.start default (fun _ => none) ⟨default, 0, 0, [], ["7"]⟩ default 9993 .controller 0
    (1, .networkConfig msg) ∈ ((WSHandler.new db).run events).outbox ∧
      (b.handleNetworkConfig default (fun _ => none) msg 0).peers = ∅ := by
  intro db keyA events msg b
  have hjoins : ∀ e ∈ events, e.JoinsPortOnly := by
    have hep : ∀ ep ∈ [portOnlyAddress 9993], IsPortOnly ep := fun _ h =>
      ⟨9993, List.mem_singleton.mp h⟩
    simp only [events, List.mem_cons, List.mem_singleton, List.not_mem_nil, or_false]
    rintro e (rfl | rfl | rfl | rfl)
    exacts [trivial, hep, trivial, hep]
  have hsent : (1, .networkConfig msg) ∈ ((WSHandler.new db).run events).outbox := by decide
  exact ⟨hsent, networkConfig_adds_no_peer default (fun _ => none) db hjoins hsent b 0⟩

/-- A join that names network 7 as `70e-1` gets network 7's configuration, with that text as
its network ID, which `Sscanf` reads as 70. -/
example :
    let k : Bytes32 := FixedBytes.ofList 32 [1]
    let db : DB := ⟨[⟨7, 1400, hexEncodeToString k.bytes, "10.0.0.0/24"⟩], [],
      [⟨7, "a", true, "10.0.0.1/24", "A"⟩]⟩
    let events : List ServerEvent := [.ws (.connect "a" "k"),
      .ws (.message 0 (.join ⟨"a", "k", ["70e-1"], [":9993"], "linux", "0.1.0"⟩))]
    (0, .networkConfig ⟨"70e-1", 1400, hexEncodeToString k.bytes, "10.0.0.1/24", []⟩) ∈
        (AuthorizeServer.serve (fun _ => (7, ⟨"a", true, "", ""⟩)) ⟨WSHandler.new db, []⟩ events).ws.outbox ∧
      scanUint32 "70e-1" = 70 := by
  decide

theorem Agent.joinMessage_namesKey (P : Primitives) (a : Agent) :
    NamesKey P (a.joinMessage P).nodeAddr (a.joinMessage P).publicKey :=
  ⟨a.publicKey, rfl, rfl⟩

/-- On every run of the controller from a database whose node rows name their keys (an empty
one, say), in which every join names the key it carries, as every agent's does
(`Agent.joinMessage_namesKey`), each roster entry it sends, in a `network_config` or an `add`
update, carries the hex of a key and the hex of that key's address. An agent that installs the
entry changes its peer table at that address only, and after the `remove` update naming the
entry's address its table is the one it had, without that address. -/
theorem roster_entry_names_its_peer (P : Primitives) (lookupHost : String → Option (List UInt8))
    (reqs : Nat → UInt32 × AuthorizeMemberRequest) {db : DB}
    (hdb : ∀ n ∈ db.nodes, NamesKey P n.address n.publicKey) {events : List ServerEvent}
    (hjoins : ∀ e ∈ events, e.JoinNamesKey P) {x : Nat × ControlMessage}
    (hx : x ∈ (AuthorizeServer.serve reqs ⟨WSHandler.new db, []⟩ events).ws.outbox)
    {info : PeerInfo} (hinfo : info ∈ x.2.roster) (b : Agent) (psk : Bytes32) (now : Int) :
    ∃ (k : Bytes32) (addr : Address), info.publicKey = hexEncodeToString k.bytes ∧
      addr = addressFromPublicKey P k.bytes ∧ addressFromHex info.address = .ok addr ∧
      (∀ y, y ≠ addr →
        (b.addPeerFromInfo P lookupHost info psk now).peers.lookup y = b.peers.lookup y) ∧
      ∀ y, ((b.addPeerFromInfo P lookupHost info psk now).handlePeerUpdate P lookupHost
        ⟨"remove", ⟨info.address, "", [], ""⟩⟩ now).peers.lookup y = (b.peers.removePeer addr).lookup y := by
  obtain ⟨k, hk, haddr⟩ := (AuthorizeServer.serve_keysNamed reqs events hjoins
    (s := ⟨WSHandler.new db, []⟩) ⟨hdb, fun _ hx => absurd hx (List.not_mem_nil _)⟩).rosters x hx
    info hinfo
  have hframe := fun y => Agent.addPeerFromInfo_lookup_ne P lookupHost b hk psk now (y := y)
  refine ⟨k, _, hk, rfl, by rw [haddr, addressFromHex_toHex], hframe, fun y => ?_⟩
  rw [@Agent.handlePeerUpdate_remove P lookupHost _ ⟨info.address, "", [], ""⟩ _ haddr now,
    Vl1.PeerManager.removePeer, Vl1.PeerManager.removePeer]
  by_cases hy : y = addressFromPublicKey P k.bytes
  · rw [hy, AList.lookup_erase, AList.lookup_erase]
  · rw [AList.lookup_erase_ne hy, AList.lookup_erase_ne hy, hframe y hy]

/-- Nodes with keys 1 and 2 join network 7, on which both are authorized: the configuration
sent to the second lists the first under the hex of its key's address, where the second's
agent installs it, and where a `remove` update naming the entry finds it. -/
theorem second_member_roster_names_first :
    let P := Vl1.NoiseCipher.transparentPrimitives
    let join := fun k : Bytes32 => (⟨(addressFromPublicKey P k.bytes).toHex,
      hexEncodeToString k.bytes, ["7"], [":9993"], "linux", "0.1.0"⟩ : JoinMessage)
    let kA : Bytes32 := FixedBytes.ofList 32 [1]
    let kB : Bytes32 := FixedBytes.ofList 32 [2]
    let db : DB := ⟨[⟨7, 1400, "", "10.0.0.0/24"⟩], [],
      [⟨7, (join kA).nodeAddr, true, "10.0.0.1/24", "A"⟩, ⟨7, (join kB).nodeAddr, true, "10.0.0.2/24", "B"⟩]⟩
    let events : List ServerEvent := [.ws (.connect (join kA).nodeAddr ""),
      .ws (.message 0 (.join (join kA))), .ws (.connect (join kB).nodeAddr ""),
      .ws (.message 1 (.join (join kB)))]
    let info : PeerInfo := ⟨(join kA).nodeAddr, (join kA).publicKey, [":9993"], "A"⟩
    let x : Nat × ControlMessage := (1, .networkConfig ⟨"7", 1400, "", "10.0.0.2/24", [info]⟩)
    let b := Agent.start P (fun _ => none) ⟨default, 0, 0, [], ["7"]⟩ kB 9993 .controller 0
    x ∈ (AuthorizeServer.serve (fun _ => (7, ⟨"", false, "", ""⟩)) ⟨WSHandler.new db, []⟩ events).ws.outbox ∧
      ∃ (k : Bytes32) (addr : Address), info.publicKey = hexEncodeToString k.bytes ∧
        addr = addressFromPublicKey P k.bytes ∧ addressFromHex info.address = .ok addr ∧
        (∀ y, y ≠ addr →
          (b.addPeerFromInfo P (fun _ => none) info b.config.psk 0).peers.lookup y = b.peers.lookup y) ∧
        ∀ y, ((b.addPeerFromInfo P (fun _ => none) info b.config.psk 0).handlePeerUpdate P (fun _ => none)
          ⟨"remove", ⟨info.address, "", [], ""⟩⟩ 0).peers.lookup y = (b.peers.removePeer addr).lookup y := by
  intro P join kA kB db events info x b
  have hjoins : ∀ e ∈ events, e.JoinNamesKey P := by
    simp only [events, List.mem_cons, List.mem_singleton, List.not_mem_nil, or_false]
    rintro e (rfl | rfl | rfl | rfl)
    exacts [trivial, ⟨kA, rfl, rfl⟩, trivial, ⟨kB, rfl, rfl⟩]
  have hx : x ∈ (AuthorizeServer.serve (fun _ => (7, ⟨"", false, "", ""⟩)) ⟨WSHandler.new db, []⟩
      events).ws.outbox := by
    decide
  exact ⟨hx, roster_entry_names_its_peer P (fun _ => none) _
    (fun _ h => absurd h (List.not_mem_nil _)) hjoins hx (List.mem_singleton_self info) b _ 0⟩

end ZeroGo
