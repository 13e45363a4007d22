import ZeroGo.Controller.Rows

/-!
The identities in the controller's rosters. An agent joins with the hex of its public key and
the hex of the address that key hashes to, and `handleJoin` stores both in the node's row.
The roster of a `network_config` and the peer of an `add` update copy the two columns of one
row, the address through the member row that matched it. So on every run whose joins come
from agents, every roster entry the controller sends names, in its address, the node its key
belongs to.
-/

namespace ZeroGo

/-- The roster entries an agent installs from a message: those of a `network_config`, and the
peer of an `add` update. -/
def ControlMessage.roster : ControlMessage → List PeerInfo
  | .networkConfig msg => msg.peers
  | .peerUpdate u => if u.action = "add" then [u.peer] else []
  | .error _ _ => []

/-- `address` is the hex of the node address of the 32-byte key whose hex is `publicKey`. -/
def NamesKey (P : Primitives) (address publicKey : String) : Prop :=
  ∃ k : Bytes32, publicKey = hexEncodeToString k.bytes ∧
    address = (addressFromPublicKey P k.bytes).toHex

namespace Controller

variable (P : Primitives)

/-- A join, if the event is one, that names the key it carries. -/
def WSHandler.WSEvent.JoinNamesKey : WSHandler.WSEvent → Prop
  | .message _ (.join msg) => NamesKey P msg.nodeAddr msg.publicKey
  | _ => True

def ServerEvent.JoinNamesKey : ServerEvent → Prop
  | .ws e => e.JoinNamesKey P
  | _ => True

/-- Every node row names its key, and so does every roster entry sent. -/
structure WSHandler.KeysNamed (h : WSHandler) : Prop where
  nodes : ∀ n ∈ h.db.nodes, NamesKey P n.address n.publicKey
  rosters : ∀ x ∈ h.outbox, ∀ info ∈ x.2.roster, NamesKey P info.address info.publicKey

theorem DB.findNode_mem {db : DB} {address : String} {n : Node} (h : db.findNode address = some n) :
    n ∈ db.nodes ∧ n.address = address :=
  ⟨List.mem_of_find?_eq_some h, by simpa using List.find?_some h⟩

theorem DB.mem_upsertNode_nodes {db : DB} {node n : Node} (h : n ∈ (db.upsertNode node).nodes) :
    n ∈ db.nodes ∨ n = node := by
  unfold DB.upsertNode at h
  split at h
  · obtain ⟨n', hn', rfl⟩ := List.mem_map.mp h
    split
    · next haddr =>
        split
        exacts [.inl hn', .inr (by rw [beq_iff_eq.mp haddr])]
    · exact .inl hn'
  · simpa using h

theorem DB.assignMember_nodes (db : DB) (m : Member) : (db.assignMember m).nodes = db.nodes := by
  unfold DB.assignMember
  split <;> rfl

namespace WSHandler.KeysNamed

variable {P} {h : WSHandler}

theorem of_nodes (hk : h.KeysNamed P) {db : DB} (hdb : db.nodes = h.db.nodes) :
    WSHandler.KeysNamed P { h with db := db } :=
  ⟨fun n hn => hk.nodes n (hdb ▸ hn), hk.rosters⟩

/-- A roster entry takes its address from a member row and its key from the node row that
`findNode` matched to it, so the entry names its key as the row does. -/
theorem peerInfos (hn : ∀ n ∈ h.db.nodes, NamesKey P n.address n.publicKey)
    (networkID nodeAddr : String) :
    ∀ info ∈ h.peerInfos networkID nodeAddr, NamesKey P info.address info.publicKey := by
  intro info hinfo
  simp only [WSHandler.peerInfos, List.mem_filterMap, Option.map_eq_some'] at hinfo
  obtain ⟨m, -, n, hfind, rfl⟩ := hinfo
  obtain ⟨hmem, haddr⟩ := DB.findNode_mem hfind
  exact haddr ▸ hn n hmem

theorem send (hk : h.KeysNamed P) (conn : Nat) {m : ControlMessage}
    (hm : ∀ info ∈ m.roster, NamesKey P info.address info.publicKey) :
    (h.send conn m).KeysNamed P := by
  refine ⟨hk.nodes, fun x hx => ?_⟩
  rcases List.mem_append.mp hx with hx | hx
  · exact hk.rosters x hx
  · rw [List.mem_singleton.mp hx]
    exact hm

theorem configReply (hk : h.KeysNamed P) (conn : Nat) (networkID : String) (network : NetworkRow)
    (nodeAddr : String) (member : Member) :
    (h.configReply conn networkID network nodeAddr member).KeysNamed P := by
  unfold WSHandler.configReply
  split
  · exact hk.send conn fun _ h => absurd h (List.not_mem_nil _)
  · exact hk.send conn (peerInfos hk.nodes networkID nodeAddr)

theorem sendNetworkConfig (hk : h.KeysNamed P) (conn : Nat) (networkID : String) :
    (h.sendNetworkConfig conn networkID).KeysNamed P := by
  unfold WSHandler.sendNetworkConfig
  split
  · exact hk
  split
  · exact hk.send conn fun _ h => absurd h (List.not_mem_nil _)
  split
  · exact hk.configReply conn networkID _ _ _
  · apply configReply
    exact ⟨hk.nodes, hk.rosters⟩

theorem foldl_sendNetworkConfig (hk : h.KeysNamed P) (conn : Nat) (networkIDs : List String) :
    (networkIDs.foldl (fun h n => h.sendNetworkConfig conn n) h).KeysNamed P := by
  induction networkIDs generalizing h with
  | nil => exact hk
  | cons n ns ih => exact ih (hk.sendNetworkConfig conn n)

theorem handleJoin (hk : h.KeysNamed P) (conn : Nat) {msg : JoinMessage}
    (hj : NamesKey P msg.nodeAddr msg.publicKey) : (h.handleJoin conn msg).KeysNamed P := by
  unfold WSHandler.handleJoin
  apply foldl_sendNetworkConfig
  refine ⟨fun n hn => ?_, hk.rosters⟩
  rcases DB.mem_upsertNode_nodes hn with hn | rfl
  exacts [hk.nodes n hn, hj]

theorem step (hk : h.KeysNamed P) {e : WSEvent} (he : e.JoinNamesKey P) :
    (h.step e).KeysNamed P := by
  cases e with
  | connect nodeAddr publicKey => exact ⟨hk.nodes, hk.rosters⟩
  | message conn m =>
      simp only [WSHandler.step]
      split
      · cases m with
        | join msg => exact hk.handleJoin conn he
        | status => exact hk
        | leave msg =>
            simp only [WSHandler.handleMessage, WSHandler.handleLeave]
            split
            exacts [⟨hk.nodes, hk.rosters⟩, hk]
      · exact hk
  | exit conn =>
      simp only [WSHandler.step, WSHandler.exit]
      split
      · split <;> exact ⟨hk.nodes, hk.rosters⟩
      · exact hk

theorem broadcastPeerUpdate (hk : h.KeysNamed P) (networkID : UInt32) {action : String}
    {peer : PeerInfo} (hp : action = "add" → NamesKey P peer.address peer.publicKey) :
    (h.broadcastPeerUpdate networkID action peer).KeysNamed P := by
  refine ⟨by rw [broadcastPeerUpdate_db]; exact hk.nodes, fun x hx => ?_⟩
  rw [broadcastPeerUpdate_outbox] at hx
  rcases List.mem_append.mp hx with hx | hx
  · exact hk.rosters x hx
  · obtain ⟨e, -, rfl⟩ := List.mem_map.mp hx
    intro info hinfo
    simp only [ControlMessage.roster] at hinfo
    split at hinfo
    · exact List.mem_singleton.mp hinfo ▸ hp ‹_›
    · cases hinfo

theorem authorizeCommit (hk : h.KeysNamed P) (id : UInt32) (req : AuthorizeMemberRequest)
    (m : Member) : (h.authorizeCommit id req m).KeysNamed P := by
  have hk' := hk.of_nodes (DB.assignMember_nodes h.db m)
  unfold WSHandler.authorizeCommit
  dsimp only
  split
  · split
    · next node hnode =>
        refine broadcastPeerUpdate ?_ _ fun _ => hk'.nodes node (DB.findNode_mem hnode).1
        unfold WSHandler.sendNetworkConfigToAgent
        split
        exacts [hk'.sendNetworkConfig _ _, hk']
    · exact hk'
  · exact hk'

theorem removeMember (hk : h.KeysNamed P) (id : UInt32) (nodeAddr : String) :
    (h.removeMember id nodeAddr).KeysNamed P := by
  refine broadcastPeerUpdate ?_ id fun h => absurd h (by decide)
  exact ⟨hk.nodes, hk.rosters⟩

end WSHandler.KeysNamed

namespace AuthorizeServer

variable {P}

theorem write_keysNamed {α : Type} {s : AuthorizeServer} (hk : s.ws.KeysNamed P)
    {r : Except String (DB × α)} (hr : ∀ x, r = .ok x → x.1.nodes = s.ws.db.nodes) :
    (s.write r).ws.KeysNamed P := by
  unfold write
  split
  exacts [hk.of_nodes (hr _ rfl), hk]

theorem handle_keysNamed (reqs : Nat → UInt32 × AuthorizeMemberRequest) {s : AuthorizeServer}
    (hk : s.ws.KeysNamed P) {e : ServerEvent} (he : e.JoinNamesKey P) :
    (s.handle reqs e).ws.KeysNamed P := by
  cases e with
  | ws e => exact hk.step he
  | createNetwork req idBytes autoID pskBytes =>
      exact write_keysNamed hk fun _ h => (congrArg DB.nodes (DB.createNetwork_frame h) :)
  | updateNetwork id req =>
      exact write_keysNamed hk fun _ h => (congrArg DB.nodes (DB.updateNetwork_frame h) :)
  | deleteNetwork id => exact ⟨hk.nodes, hk.rosters⟩
  | authorize st =>
      cases st with
      | read r =>
          simp only [handle, step, AuthorizeStep.request]
          split <;> exact hk
      | commit r =>
          simp only [handle, step, AuthorizeStep.request]
          split
          exacts [hk.authorizeCommit _ _ _, hk]
  | updateMember id nodeAddr req =>
      exact write_keysNamed hk fun _ h => (congrArg DB.nodes (DB.updateMember_frame h) :)
  | removeMember id nodeAddr => exact hk.removeMember id nodeAddr

theorem serve_keysNamed (reqs : Nat → UInt32 × AuthorizeMemberRequest) :
    ∀ (events : List ServerEvent) {s : AuthorizeServer}, (∀ e ∈ events, e.JoinNamesKey P) →
      s.ws.KeysNamed P → (s.serve reqs events).ws.KeysNamed P
  | [], _, _, hk => hk
  | e :: events, _, he, hk =>
      serve_keysNamed reqs events (fun e' h' => he e' (List.mem_cons_of_mem _ h'))
        (handle_keysNamed reqs hk (he e (List.mem_cons_self _ _)))

end AuthorizeServer

end Controller

end ZeroGo
