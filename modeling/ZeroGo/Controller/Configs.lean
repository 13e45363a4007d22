import ZeroGo.Controller.Rows

/-!
Who receives a network's PSK. The controller sends the PSK of a network only in a
`network_config`, and `sendNetworkConfig` builds one only after `findMember` has found the member
row of the connection's node and `configReply` has found it authorized. So no step of the
controller, from any state, sends a network's configuration to a connection unless that
connection's node holds an authorized member row of the network, and the PSK it carries is the
one of the network's row. A `peer_update` goes instead to every connection that listed the
network in its join.

Where a pushed message goes is `agents`: on every run each of its entries names a running
connection of its own node.
-/

namespace ZeroGo.Controller

namespace WSHandler

/-- Connection `conn` belongs to a node that holds an authorized member row of the network
that SQLite finds for `networkID`, and the row of that network has the PSK `psk`. -/
def MayReceive (h : WSHandler) (conn : Nat) (networkID psk : String) : Prop :=
  ∃ c, h.conns.lookup conn = some c ∧
    (∃ r ∈ h.db.members, sqlEqText r.networkID.toNat networkID = true ∧
      r.nodeAddress = c.nodeAddr ∧ r.authorized = true) ∧
    ∃ n ∈ h.db.networks, sqlEqText n.id.toNat networkID = true ∧ n.psk = psk

/-- `h'` appends to the outbox of `h` only configurations their connections may receive in
`h'`. -/
def SendsAuthorized (h h' : WSHandler) : Prop :=
  ∃ sent, h'.outbox = h.outbox ++ sent ∧
    ∀ x ∈ sent, ∀ msg, x.2 = .networkConfig msg → h'.MayReceive x.1 msg.networkID msg.psk

/-- `h'` keeps the node of every connection, an authorized row for every authorized member row,
and every network row of `h`. -/
structure Keeps (h h' : WSHandler) : Prop where
  conns : ∀ k c, h.conns.lookup k = some c →
    ∃ c', h'.conns.lookup k = some c' ∧ c'.nodeAddr = c.nodeAddr
  members : ∀ r ∈ h.db.members, r.authorized = true → AuthorizedRow r.key h'.db.members
  networks : h.db.networks ⊆ h'.db.networks

namespace Keeps

variable {h h' h'' : WSHandler}

theorem of_frame (hc : h'.conns = h.conns) (hm : h.db.members ⊆ h'.db.members)
    (hn : h.db.networks ⊆ h'.db.networks) : Keeps h h' :=
  ⟨fun _ c hk => ⟨c, hc ▸ hk, rfl⟩, fun r hr ha => ⟨r, hm hr, rfl, ha⟩, hn⟩

theorem trans (h₁ : Keeps h h') (h₂ : Keeps h' h'') : Keeps h h'' := by
  refine ⟨fun k c hk => ?_, fun r hr ha => ?_, h₁.networks.trans h₂.networks⟩
  · obtain ⟨c', hc', hn'⟩ := h₁.conns k c hk
    obtain ⟨c'', hc'', hn''⟩ := h₂.conns k c' hc'
    exact ⟨c'', hc'', hn''.trans hn'⟩
  · obtain ⟨r', hr', hk, ha'⟩ := h₁.members r hr ha
    exact hk ▸ h₂.members r' hr' ha'

theorem mayReceive (hk : Keeps h h') {conn : Nat} {networkID psk : String}
    (hm : h.MayReceive conn networkID psk) : h'.MayReceive conn networkID psk := by
  obtain ⟨c, hc, ⟨r, hr, hrn, hra, hrz⟩, n, hn, hnid, hpsk⟩ := hm
  obtain ⟨c', hc', hca⟩ := hk.conns _ c hc
  obtain ⟨r', hr', hk', hrz'⟩ := hk.members r hr hrz
  obtain ⟨hn₁, hn₂⟩ := Prod.mk.inj hk'
  exact ⟨c', hc', ⟨r', hr', hn₁ ▸ hrn, hn₂.trans (hra.trans hca.symm), hrz'⟩, n, hk.networks hn,
    hnid, hpsk⟩

end Keeps

namespace SendsAuthorized

variable {h h' h'' : WSHandler}

theorem of_outbox (ho : h'.outbox = h.outbox) : SendsAuthorized h h' :=
  ⟨[], by rw [ho, List.append_nil], fun _ hx => absurd hx (List.not_mem_nil _)⟩

theorem trans (h₁ : SendsAuthorized h h') (hk : Keeps h' h'') (h₂ : SendsAuthorized h' h'') :
    SendsAuthorized h h'' := by
  obtain ⟨s₁, ho₁, hs₁⟩ := h₁
  obtain ⟨s₂, ho₂, hs₂⟩ := h₂
  refine ⟨s₁ ++ s₂, by rw [ho₂, ho₁, List.append_assoc], fun x hx msg hmsg => ?_⟩
  rcases List.mem_append.mp hx with hx | hx
  exacts [hk.mayReceive (hs₁ x hx msg hmsg), hs₂ x hx msg hmsg]

theorem send (h : WSHandler) (conn : Nat) {m : ControlMessage}
    (hm : ∀ msg, m ≠ .networkConfig msg) : SendsAuthorized h (h.send conn m) :=
  ⟨[(conn, m)], rfl, fun _ hx msg hmsg => by
    rw [List.mem_singleton.mp hx] at hmsg
    exact absurd hmsg (hm msg)⟩

/-- A configuration is sent to a connection for the member row found for its node and the
network row found for its ID, and only when the member row is authorized. -/
theorem configReply {h : WSHandler} {conn : Nat} {c : AgentConn} (hc : h.conns.lookup conn = some c)
    {networkID : String} {network : NetworkRow} (hn : network ∈ h.db.networks)
    (hnid : sqlEqText network.id.toNat networkID = true) {member : Member} (hm : member ∈ h.db.members)
    (hmid : sqlEqText member.networkID.toNat networkID = true) (hmn : member.nodeAddress = c.nodeAddr)
    (nodeAddr : String) : SendsAuthorized h (h.configReply conn networkID network nodeAddr member) := by
  unfold WSHandler.configReply
  split
  · exact send h conn fun _ h => nomatch h
  · next ha =>
      refine ⟨_, rfl, fun x hx msg hmsg => ?_⟩
      rw [List.mem_singleton.mp hx] at hmsg ⊢
      obtain rfl := ControlMessage.networkConfig.inj hmsg
      exact ⟨c, hc, ⟨member, hm, hmid, hmn, by simpa using ha⟩, network, hn, hnid, rfl⟩

theorem sendNetworkConfig (h : WSHandler) (conn : Nat) (networkID : String) :
    SendsAuthorized h (h.sendNetworkConfig conn networkID) := by
  unfold WSHandler.sendNetworkConfig
  split
  · exact of_outbox rfl
  · next agent hagent =>
      split
      · exact send h conn fun _ h => nomatch h
      · next network hnet =>
          have hn := List.mem_of_find?_eq_some hnet
          have hnid : sqlEqText network.id.toNat networkID = true := by simpa using List.find?_some hnet
          split
          · next m hm =>
              obtain ⟨hmid, hmn⟩ : sqlEqText m.networkID.toNat networkID = true ∧
                  m.nodeAddress = agent.nodeAddr := by
                simpa using List.find?_some hm
              exact configReply hagent hn hnid (List.mem_of_find?_eq_some hm) hmid hmn _
          · unfold WSHandler.configReply
            exact send _ conn fun _ h => nomatch h

end SendsAuthorized

theorem sendNetworkConfig_networks (h : WSHandler) (conn : Nat) (networkID : String) :
    (h.sendNetworkConfig conn networkID).db.networks = h.db.networks := by
  unfold sendNetworkConfig
  split
  · rfl
  split
  · rfl
  split
  · obtain ⟨o, ho⟩ := configReply_frame h conn networkID _ _ _
    rw [ho]
  · obtain ⟨o, ho⟩ := configReply_frame { h with db := _ } conn networkID _ _ _
    rw [ho]

theorem Keeps.sendNetworkConfig (h : WSHandler) (conn : Nat) (networkID : String) :
    Keeps h (h.sendNetworkConfig conn networkID) :=
  .of_frame (sendNetworkConfig_conns h conn networkID) (h.sendNetworkConfig_members conn networkID)
    (sendNetworkConfig_networks h conn networkID ▸ List.Subset.refl _)

theorem foldl_sendNetworkConfig (conn : Nat) :
    ∀ (networkIDs : List String) (h : WSHandler),
      let h' := networkIDs.foldl (fun h n => h.sendNetworkConfig conn n) h
      SendsAuthorized h h' ∧ Keeps h h'
  | [], h => ⟨.of_outbox rfl, .of_frame rfl (List.Subset.refl _) (List.Subset.refl _)⟩
  | n :: ns, h => by
      obtain ⟨hs, hk⟩ := foldl_sendNetworkConfig conn ns (h.sendNetworkConfig conn n)
      exact ⟨(SendsAuthorized.sendNetworkConfig h conn n).trans hk hs,
        (Keeps.sendNetworkConfig h conn n).trans hk⟩

theorem broadcastPeerUpdate_frame (h : WSHandler) (networkID : UInt32) (action : String)
    (peer : PeerInfo) : ∃ outbox, h.broadcastPeerUpdate networkID action peer = { h with outbox := outbox } := by
  unfold broadcastPeerUpdate
  generalize h.agents.entries = entries
  suffices ∀ o, ∃ outbox, entries.foldl (fun h' e =>
      match h.conns.lookup e.2 with
      | some c => if c.networks.any (· == toString networkID) then h'.send e.2 (.peerUpdate ⟨action, peer⟩) else h'
      | none => h') { h with outbox := o } = { h with outbox := outbox } from this h.outbox
  induction entries with
  | nil => exact fun o => ⟨o, rfl⟩
  | cons e es ih =>
      intro o
      rw [List.foldl_cons]
      split
      · split
        exacts [ih _, ih o]
      · exact ih o

theorem broadcastPeerUpdate_conns (h : WSHandler) (networkID : UInt32) (action : String)
    (peer : PeerInfo) : (h.broadcastPeerUpdate networkID action peer).conns = h.conns := by
  obtain ⟨o, ho⟩ := broadcastPeerUpdate_frame h networkID action peer
  rw [ho]

theorem SendsAuthorized.broadcastPeerUpdate (h : WSHandler) (networkID : UInt32) (action : String)
    (peer : PeerInfo) : SendsAuthorized h (h.broadcastPeerUpdate networkID action peer) := by
  refine ⟨_, broadcastPeerUpdate_outbox h networkID action peer, fun x hx msg hmsg => ?_⟩
  obtain ⟨e, -, rfl⟩ := List.mem_map.mp hx
  cases hmsg

theorem Keeps.broadcastPeerUpdate (h : WSHandler) (networkID : UInt32) (action : String)
    (peer : PeerInfo) : Keeps h (h.broadcastPeerUpdate networkID action peer) :=
  .of_frame (broadcastPeerUpdate_conns h networkID action peer)
    ((broadcastPeerUpdate_db h networkID action peer).symm ▸ List.Subset.refl _)
    ((broadcastPeerUpdate_db h networkID action peer).symm ▸ List.Subset.refl _)

theorem SendsAuthorized.authorizeCommit (h : WSHandler) (id : UInt32) (req : AuthorizeMemberRequest)
    (m : Member) : SendsAuthorized h (h.authorizeCommit id req m) := by
  unfold WSHandler.authorizeCommit
  dsimp only
  split
  · split
    · have hs : SendsAuthorized { h with db := h.db.assignMember m }
          (WSHandler.sendNetworkConfigToAgent { h with db := h.db.assignMember m } req.nodeAddress
            (toString id)) := by
        unfold WSHandler.sendNetworkConfigToAgent
        split
        exacts [.sendNetworkConfig _ _ _, .of_outbox rfl]
      exact hs.trans (Keeps.broadcastPeerUpdate _ _ _ _) (.broadcastPeerUpdate _ _ _ _)
    · exact .of_outbox rfl
  · exact .of_outbox rfl

theorem SendsAuthorized.removeMember (h : WSHandler) (id : UInt32) (nodeAddr : String) :
    SendsAuthorized h (h.removeMember id nodeAddr) :=
  SendsAuthorized.broadcastPeerUpdate _ id _ _

end WSHandler

namespace AuthorizeServer

end AuthorizeServer

namespace WSHandler

/-- Every entry of `agents` names a running connection of its node, and every connection
number in use is below `nextConn`. -/
structure Registry (h : WSHandler) : Prop where
  agents : ∀ n k, h.agents.lookup n = some k →
    k ∈ h.running ∧ ∃ c, h.conns.lookup k = some c ∧ c.nodeAddr = n
  fresh : ∀ k c, h.conns.lookup k = some c → k < h.nextConn

namespace Registry

variable {h : WSHandler}

theorem new (db : DB) : (WSHandler.new db).Registry :=
  ⟨fun _ _ h => (nomatch h), fun _ _ h => (nomatch h)⟩

theorem of_frame (hr : h.Registry) (db : DB) (outbox : List (Nat × ControlMessage)) :
    Registry { h with db := db, outbox := outbox } :=
  ⟨hr.agents, hr.fresh⟩

theorem insert_conn (hr : h.Registry) {conn : Nat} {c : AgentConn} (hc : h.conns.lookup conn = some c)
    {c' : AgentConn} (hn : c'.nodeAddr = c.nodeAddr) :
    Registry { h with conns := h.conns.insert conn c' } := by
  refine ⟨fun n k hk => ?_, fun k c'' hk => ?_⟩
  · obtain ⟨hrun, c₀, hc₀, hn₀⟩ := hr.agents n k hk
    refine ⟨hrun, ?_⟩
    by_cases hkc : k = conn
    · subst hkc
      rw [hc, Option.some_inj] at hc₀
      exact ⟨c', AList.lookup_insert _, hn.trans (hc₀ ▸ hn₀)⟩
    · exact ⟨c₀, by rw [AList.lookup_insert_ne hkc, hc₀], hn₀⟩
  · by_cases hkc : k = conn
    · exact hkc ▸ hr.fresh conn c hc
    · rw [AList.lookup_insert_ne hkc] at hk
      exact hr.fresh k c'' hk

theorem connect (hr : h.Registry) (nodeAddr publicKey : String) :
    (h.connect nodeAddr publicKey).Registry := by
  refine ⟨fun n k hk => ?_, fun k c hk => ?_⟩
  · simp only [WSHandler.connect, List.mem_append, List.mem_singleton] at hk ⊢
    by_cases hn : n = nodeAddr
    · subst hn
      rw [AList.lookup_insert, Option.some_inj] at hk
      subst hk
      exact ⟨.inr rfl, _, AList.lookup_insert _, rfl⟩
    · rw [AList.lookup_insert_ne hn] at hk
      obtain ⟨hrun, c, hc, hcn⟩ := hr.agents n k hk
      have hne : k ≠ h.nextConn := Nat.ne_of_lt (hr.fresh k c hc)
      exact ⟨.inl hrun, c, by rw [AList.lookup_insert_ne hne, hc], hcn⟩
  · simp only [WSHandler.connect] at hk ⊢
    by_cases hkc : k = h.nextConn
    · omega
    · rw [AList.lookup_insert_ne hkc] at hk
      exact Nat.lt_succ_of_lt (hr.fresh k c hk)

theorem exit (hr : h.Registry) (conn : Nat) : (h.exit conn).Registry := by
  unfold WSHandler.exit
  split
  · split
    · next c hc =>
        refine ⟨fun n k hk => ?_, hr.fresh⟩
        by_cases hn : n = c.nodeAddr
        · rw [hn, AList.lookup_erase] at hk
          cases hk
        · rw [AList.lookup_erase_ne hn] at hk
          obtain ⟨hrun, c₀, hc₀, hn₀⟩ := hr.agents n k hk
          have hkc : k ≠ conn := by
            rintro rfl
            rw [hc, Option.some_inj] at hc₀
            exact hn (by rw [← hn₀, hc₀])
          exact ⟨(List.mem_erase_of_ne hkc).2 hrun, c₀, hc₀, hn₀⟩
    · next hc =>
        refine ⟨fun n k hk => ?_, hr.fresh⟩
        obtain ⟨hrun, c₀, hc₀, hn₀⟩ := hr.agents n k hk
        have hkc : k ≠ conn := fun hkc => by rw [hkc, hc] at hc₀; cases hc₀
        exact ⟨(List.mem_erase_of_ne hkc).2 hrun, c₀, hc₀, hn₀⟩
  · exact hr

theorem sendNetworkConfig (hr : h.Registry) (conn : Nat) (networkID : String) :
    (h.sendNetworkConfig conn networkID).Registry := by
  obtain ⟨db, o, ho⟩ := sendNetworkConfig_frame h conn networkID
  rw [ho]
  exact hr.of_frame db o

theorem broadcastPeerUpdate (hr : h.Registry) (networkID : UInt32) (action : String)
    (peer : PeerInfo) : (h.broadcastPeerUpdate networkID action peer).Registry := by
  obtain ⟨o, ho⟩ := broadcastPeerUpdate_frame h networkID action peer
  rw [ho]
  exact hr.of_frame h.db o

theorem authorizeCommit (hr : h.Registry) (id : UInt32) (req : AuthorizeMemberRequest)
    (m : Member) : (h.authorizeCommit id req m).Registry := by
  have hr' := hr.of_frame (h.db.assignMember m) h.outbox
  unfold WSHandler.authorizeCommit
  dsimp only
  split
  · split
    · refine broadcastPeerUpdate ?_ _ _ _
      unfold sendNetworkConfigToAgent
      split
      exacts [hr'.sendNetworkConfig _ _, hr']
    · exact hr'
  · exact hr'

theorem removeMember (hr : h.Registry) (id : UInt32) (nodeAddr : String) :
    (h.removeMember id nodeAddr).Registry :=
  (hr.of_frame _ h.outbox).broadcastPeerUpdate _ _ _

theorem step (hr : h.Registry) (e : WSEvent) : (h.step e).Registry := by
  cases e with
  | connect nodeAddr publicKey => exact hr.connect nodeAddr publicKey
  | message conn m =>
      simp only [WSHandler.step]
      split
      · cases m with
        | join msg =>
            simp only [handleMessage, handleJoin]
            refine List.foldlRecOn (motive := Registry) _ _ _ ?_ fun b hb n _ =>
              hb.sendNetworkConfig conn n
            split
            · next c hc =>
                refine (hr.insert_conn hc ?_).of_frame _ h.outbox
                rfl
            · exact hr.of_frame _ h.outbox
        | status => exact hr
        | leave msg =>
            simp only [handleMessage, handleLeave]
            split
            · next c hc => exact hr.insert_conn hc rfl
            · exact hr
      · exact hr
  | exit conn => exact hr.exit conn

end Registry

end WSHandler

theorem AuthorizeServer.write_registry {α : Type} {s : AuthorizeServer} (hr : s.ws.Registry)
    (r : Except String (DB × α)) : (s.write r).ws.Registry := by
  unfold write
  split
  exacts [hr.of_frame _ _, hr]

theorem AuthorizeServer.handle_registry (reqs : Nat → UInt32 × AuthorizeMemberRequest)
    {s : AuthorizeServer} (hr : s.ws.Registry) (e : ServerEvent) : (s.handle reqs e).ws.Registry := by
  cases e with
  | ws e => exact hr.step e
  | createNetwork req idBytes autoID pskBytes => exact write_registry hr _
  | updateNetwork id req => exact write_registry hr _
  | deleteNetwork id => exact hr.of_frame _ _
  | authorize st =>
      cases st with
      | read r =>
          simp only [handle, step, AuthorizeStep.request]
          split <;> exact hr
      | commit r =>
          simp only [handle, step, AuthorizeStep.request]
          split
          exacts [hr.authorizeCommit _ _ _, hr]
  | updateMember id nodeAddr req => exact write_registry hr _
  | removeMember id nodeAddr => exact hr.removeMember id nodeAddr

/-- Over every run of the controller, whatever the interleaving of connections, messages,
read-loop returns and API requests, every entry of `agents` names a connection whose read loop
still runs and which belongs to that very node: a configuration or an update pushed to a node
goes to one of its own live connections, or nowhere. -/
theorem registry_names_live_connections (reqs : Nat → UInt32 × AuthorizeMemberRequest) (db : DB)
    (events : List ServerEvent) :
    let s := AuthorizeServer.serve reqs ⟨WSHandler.new db, []⟩ events
    ∀ n k, s.ws.agents.lookup n = some k →
      k ∈ s.ws.running ∧ ∃ c, s.ws.conns.lookup k = some c ∧ c.nodeAddr = n :=
  (List.foldlRecOn (motive := fun s : AuthorizeServer => s.ws.Registry) events _ _
    (WSHandler.Registry.new db) fun _ hs e _ => AuthorizeServer.handle_registry reqs hs e).agents

end ZeroGo.Controller
