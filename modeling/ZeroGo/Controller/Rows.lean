import ZeroGo.Controller.Api

/-!
The controller's database and outbox over whole runs: the agent endpoint's events, the network
handlers, `authorizeMember` requests read and committed in any interleaving, `updateMember` and
`removeMember`. Every write keeps a network's ID unique and a member row unique per network
and node, as the primary keys of `Network` and `Member` require, so no write the controller
makes fails on a key. Every network's PSK stays the hex form of 32 bytes, and every
`network_config` sent names its network by a text that SQLite reads as a network's ID and
carries such a PSK.
-/

namespace ZeroGo.Controller

def Member.key (m : Member) : UInt32 × String := (m.networkID, m.nodeAddress)

/-- A database whose primary keys are unique and whose PSKs are 32-byte keys in hex. -/
structure DB.Sound (db : DB) : Prop where
  networkIDs : (db.networks.map (·.id)).Nodup
  psk : ∀ n ∈ db.networks, ∃ k : Bytes32, n.psk = hexEncodeToString k.bytes
  memberKeys : (db.members.map Member.key).Nodup

/-- A `network_config` named by a text that SQLite reads as a network ID and carrying a 32-byte
PSK in hex; any other message. -/
def ConfigNamed : ControlMessage → Prop
  | .networkConfig msg => (∃ id : UInt32, sqlEqText id.toNat msg.networkID = true) ∧
      ∃ k : Bytes32, msg.psk = hexEncodeToString k.bytes
  | _ => True

/-- The agent endpoint with a sound database and only named configurations sent. -/
structure WSHandler.Sound (h : WSHandler) : Prop where
  db : h.db.Sound
  configs : ∀ x ∈ h.outbox, ConfigNamed x.2

/-! ### Writes to the member rows -/

theorem nodup_map_key_append {ms : List Member} (h : (ms.map Member.key).Nodup) {m : Member}
    (hm : ∀ r ∈ ms, r.key ≠ m.key) : ((ms ++ [m]).map Member.key).Nodup := by
  rw [List.map_append, List.map_singleton, List.nodup_append]
  refine ⟨h, List.nodup_singleton _, fun x hx hy => ?_⟩
  obtain ⟨r, hr, rfl⟩ := List.mem_map.mp hx
  exact hm r hr (List.mem_singleton.mp hy)

theorem map_key_map {ms : List Member} {f : Member → Member} (hf : ∀ m, (f m).key = m.key) :
    (ms.map f).map Member.key = ms.map Member.key := by
  rw [List.map_map]
  exact List.map_congr_left fun m _ => hf m

theorem sameRow_eq_true_iff {r m : Member} : r.sameRow m = true ↔ r.key = m.key := by
  simp [Member.sameRow, Member.key]

/-- What `createNetwork` writes: one row with the drawn PSK in hex, unless its ID is taken. -/
theorem DB.createNetwork_eq (db : DB) (req : CreateNetworkRequest) (idBytes : FixedBytes 4)
    (autoID : UInt32) (pskBytes : Bytes32) :
    ∃ network : NetworkRow, network.psk = hexEncodeToString pskBytes.bytes ∧
      db.createNetwork req idBytes autoID pskBytes =
        if db.networks.any (·.id == network.id) then .error "create network failed"
        else .ok ({ db with networks := db.networks ++ [network] }, network) :=
  ⟨⟨if UInt32.ofNat (uintBE idBytes.bytes) = 0 then autoID else UInt32.ofNat (uintBE idBytes.bytes),
    if req.mtu = 0 then 2800 else req.mtu, hexEncodeToString pskBytes.bytes, req.ipRange⟩, rfl, rfl⟩

namespace DB.Sound

variable {db : DB}

theorem of_members (hs : db.Sound) {ms : List Member} (hk : (ms.map Member.key).Nodup) :
    DB.Sound { db with members := ms } :=
  ⟨hs.networkIDs, hs.psk, hk⟩

theorem assignMember (hs : db.Sound) (m : Member) : (db.assignMember m).Sound := by
  unfold DB.assignMember
  split
  · refine hs.of_members ((map_key_map (f := fun r => if r.sameRow m = true then
      { r with authorized := r.authorized || m.authorized
               ipAddress := if m.ipAddress = "" then r.ipAddress else m.ipAddress
               name := if m.name = "" then r.name else m.name } else r)
      fun r => by dsimp only; split <;> rfl).symm ▸ hs.memberKeys)
  · next hany =>
      refine hs.of_members (nodup_map_key_append hs.memberKeys fun r hr hk => hany ?_)
      exact List.any_eq_true.mpr ⟨r, hr, sameRow_eq_true_iff.mpr hk⟩

theorem updateMember (hs : db.Sound) {id : UInt32} {nodeAddr : String}
    {req : AuthorizeMemberRequest} {r : DB × Member} (h : db.updateMember id nodeAddr req = .ok r) :
    r.1.Sound := by
  unfold DB.updateMember at h
  split at h
  · cases h
  · cases h
    exact hs.of_members ((map_key_map (f := fun m => if m.isRow id nodeAddr then req.updated m else m)
      fun m => by dsimp only; split <;> rfl).symm ▸ hs.memberKeys)

theorem upsertNode (hs : db.Sound) (node : Node) : (db.upsertNode node).Sound := by
  unfold DB.upsertNode
  split
  exacts [⟨hs.networkIDs, hs.psk, hs.memberKeys⟩, ⟨hs.networkIDs, hs.psk, hs.memberKeys⟩]

theorem filter_members (hs : db.Sound) (p : Member → Bool) :
    DB.Sound { db with members := db.members.filter p } :=
  hs.of_members (hs.memberKeys.sublist ((List.filter_sublist _).map _))

theorem createNetwork (hs : db.Sound) {req : CreateNetworkRequest} {idBytes : FixedBytes 4}
    {autoID : UInt32} {pskBytes : Bytes32} {r : DB × NetworkRow}
    (h : db.createNetwork req idBytes autoID pskBytes = .ok r) : r.1.Sound := by
  obtain ⟨network, hpsk, heq⟩ := db.createNetwork_eq req idBytes autoID pskBytes
  rw [heq] at h
  split at h
  · cases h
  · next hany =>
      cases h
      refine ⟨?_, fun n hn => ?_, hs.memberKeys⟩
      · rw [List.map_append, List.map_singleton, List.nodup_append]
        refine ⟨hs.networkIDs, List.nodup_singleton _, fun x hx hy => hany ?_⟩
        obtain ⟨n, hn, rfl⟩ := List.mem_map.mp hx
        exact List.any_eq_true.mpr ⟨n, hn, beq_iff_eq.mpr (List.mem_singleton.mp hy)⟩
      · rcases List.mem_append.mp hn with hn | hn
        · exact hs.psk n hn
        · exact ⟨pskBytes, by rw [List.mem_singleton.mp hn, hpsk]⟩

theorem updateNetwork (hs : db.Sound) {id : UInt32} {req : CreateNetworkRequest}
    {r : DB × NetworkRow} (h : db.updateNetwork id req = .ok r) : r.1.Sound := by
  unfold DB.updateNetwork at h
  split at h
  · cases h
  · cases h
    refine ⟨?_, fun n hn => ?_, hs.memberKeys⟩
    · rw [List.map_map]
      refine (List.map_congr_left fun n _ => ?_).symm ▸ hs.networkIDs
      simp only [Function.comp]
      split <;> rfl
    · obtain ⟨n₀, hn₀, rfl⟩ := List.mem_map.mp hn
      split <;> exact hs.psk n₀ hn₀

theorem deleteNetwork (hs : db.Sound) (id : UInt32) : (db.deleteNetwork id).Sound :=
  ⟨hs.networkIDs.sublist ((List.filter_sublist _).map _),
    fun n hn => hs.psk n (List.mem_filter.mp hn).1, hs.memberKeys⟩

end DB.Sound

/-! ### The agent endpoint and the API -/

namespace WSHandler.Sound

variable {h : WSHandler}

theorem of_db (hs : h.Sound) {db : DB} (hdb : db.Sound) : WSHandler.Sound { h with db := db } :=
  ⟨hdb, hs.configs⟩

theorem send (hs : h.Sound) (conn : Nat) {m : ControlMessage} (hm : ConfigNamed m) :
    (h.send conn m).Sound := by
  refine ⟨hs.db, fun x hx => ?_⟩
  rcases List.mem_append.mp hx with hx | hx
  · exact hs.configs x hx
  · rw [List.mem_singleton.mp hx]
    exact hm

theorem configReply (hs : h.Sound) (conn : Nat) {networkID : String} {network : NetworkRow}
    (hn : network ∈ h.db.networks) (hid : sqlEqText network.id.toNat networkID = true) (nodeAddr : String)
    (member : Member) : (h.configReply conn networkID network nodeAddr member).Sound := by
  unfold WSHandler.configReply
  split
  · exact hs.send conn trivial
  · exact hs.send conn ⟨⟨network.id, hid⟩, hs.db.psk network hn⟩

theorem sendNetworkConfig (hs : h.Sound) (conn : Nat) (networkID : String) :
    (h.sendNetworkConfig conn networkID).Sound := by
  unfold WSHandler.sendNetworkConfig
  split
  · exact hs
  · next agent _ =>
      split
      · exact hs.send conn trivial
      · next network hnet =>
          unfold DB.findNetwork at hnet
          have hn : network ∈ h.db.networks := List.mem_of_find?_eq_some hnet
          have hid : sqlEqText network.id.toNat networkID = true := by simpa using List.find?_some hnet
          split
          · exact hs.configReply conn hn hid _ _
          · next hnone =>
              refine configReply (hs.of_db (hs.db.of_members
                (nodup_map_key_append hs.db.memberKeys fun r hr hk => ?_))) conn hn hid _ _
              have hr' := List.find?_eq_none.mp hnone r hr
              simp only [Member.key, Prod.mk.injEq] at hk
              simp [hk.1, hk.2, hid] at hr'

theorem foldl_sendNetworkConfig (hs : h.Sound) (conn : Nat) (networkIDs : List String) :
    (networkIDs.foldl (fun h n => h.sendNetworkConfig conn n) h).Sound := by
  induction networkIDs generalizing h with
  | nil => exact hs
  | cons n ns ih => exact ih (hs.sendNetworkConfig conn n)

theorem step (hs : h.Sound) (e : WSEvent) : (h.step e).Sound := by
  cases e with
  | connect nodeAddr publicKey => exact ⟨hs.db, hs.configs⟩
  | message conn m =>
      simp only [WSHandler.step]
      split
      · cases m with
        | join msg =>
            simp only [WSHandler.handleMessage, WSHandler.handleJoin]
            refine foldl_sendNetworkConfig (WSHandler.Sound.mk ?_ ?_) conn msg.networks
            exacts [hs.db.upsertNode _, hs.configs]
        | status => exact hs
        | leave msg =>
            simp only [WSHandler.handleMessage, WSHandler.handleLeave]
            split
            exacts [⟨hs.db, hs.configs⟩, hs]
      · exact hs
  | exit conn =>
      simp only [WSHandler.step, WSHandler.exit]
      split
      · split <;> exact ⟨hs.db, hs.configs⟩
      · exact hs

theorem broadcastPeerUpdate (hs : h.Sound) (networkID : UInt32) (action : String)
    (peer : PeerInfo) : (h.broadcastPeerUpdate networkID action peer).Sound := by
  refine ⟨(h.broadcastPeerUpdate_db networkID action peer).symm ▸ hs.db, fun x hx => ?_⟩
  rw [broadcastPeerUpdate_outbox] at hx
  rcases List.mem_append.mp hx with hx | hx
  · exact hs.configs x hx
  · obtain ⟨e, -, rfl⟩ := List.mem_map.mp hx
    trivial

theorem authorizeCommit (hs : h.Sound) (id : UInt32) (req : AuthorizeMemberRequest) (m : Member) :
    (h.authorizeCommit id req m).Sound := by
  have hs' := hs.of_db (hs.db.assignMember m)
  unfold WSHandler.authorizeCommit
  dsimp only
  split
  · split
    · refine broadcastPeerUpdate ?_ _ _ _
      unfold WSHandler.sendNetworkConfigToAgent
      split
      exacts [hs'.sendNetworkConfig _ _, hs']
    · exact hs'
  · exact hs'

theorem removeMember (hs : h.Sound) (id : UInt32) (nodeAddr : String) :
    (h.removeMember id nodeAddr).Sound :=
  broadcastPeerUpdate (hs.of_db (hs.db.filter_members _)) _ _ _

end WSHandler.Sound

/-- What the controller serves: the agent endpoint's events, the network handlers, the read or
the commit of an `authorizeMember` request, `updateMember` and `removeMember`. -/
inductive ServerEvent where
  | ws (e : WSHandler.WSEvent)
  | createNetwork (req : CreateNetworkRequest) (idBytes : FixedBytes 4) (autoID : UInt32)
      (pskBytes : Bytes32)
  | updateNetwork (id : UInt32) (req : CreateNetworkRequest)
  | deleteNetwork (id : UInt32)
  | authorize (s : AuthorizeStep)
  | updateMember (id : UInt32) (nodeAddr : String) (req : AuthorizeMemberRequest)
  | removeMember (id : UInt32) (nodeAddr : String)

def AuthorizeStep.request : AuthorizeStep → Nat
  | .read r => r
  | .commit r => r

namespace AuthorizeServer

/-- A database write of a handler that fails without writing. -/
def write {α : Type} (s : AuthorizeServer) : Except String (DB × α) → AuthorizeServer
  | .ok (db, _) => { s with ws := { s.ws with db := db } }
  | .error _ => s

/-- One event, `reqs r` being the network ID and the body of `authorizeMember` request `r`. -/
def handle (reqs : Nat → UInt32 × AuthorizeMemberRequest) (s : AuthorizeServer) :
    ServerEvent → AuthorizeServer
  | .ws e => { s with ws := s.ws.step e }
  | .createNetwork req idBytes autoID pskBytes =>
      s.write (s.ws.db.createNetwork req idBytes autoID pskBytes)
  | .updateNetwork id req => s.write (s.ws.db.updateNetwork id req)
  | .deleteNetwork id => { s with ws := { s.ws with db := s.ws.db.deleteNetwork id } }
  | .authorize st => s.step (reqs st.request).1 (fun r => (reqs r).2) st
  | .updateMember id nodeAddr req => s.write (s.ws.db.updateMember id nodeAddr req)
  | .removeMember id nodeAddr => { s with ws := s.ws.removeMember id nodeAddr }

def serve (reqs : Nat → UInt32 × AuthorizeMemberRequest) (s : AuthorizeServer)
    (events : List ServerEvent) : AuthorizeServer :=
  events.foldl (handle reqs) s

end AuthorizeServer

/-- Whether an event may take a member's authorization away. -/
def ServerEvent.revokes : ServerEvent → Bool
  | .updateMember .. | .removeMember .. => true
  | _ => false

/-- An authorized row of `key` is among `ms`. -/
def AuthorizedRow (key : UInt32 × String) (ms : List Member) : Prop :=
  ∃ r ∈ ms, r.key = key ∧ r.authorized = true

theorem AuthorizedRow.mono {key : UInt32 × String} {ms ms' : List Member} (h : AuthorizedRow key ms)
    (hs : ms ⊆ ms') : AuthorizedRow key ms' :=
  let ⟨r, hr, hk, ha⟩ := h
  ⟨r, hs hr, hk, ha⟩

theorem AuthorizedRow.assignMember {key : UInt32 × String} {db : DB}
    (h : AuthorizedRow key db.members) (m : Member) : AuthorizedRow key (db.assignMember m).members := by
  obtain ⟨r, hr, hk, ha⟩ := h
  unfold DB.assignMember
  split
  · refine ⟨_, List.mem_map_of_mem _ hr, ?_, ?_⟩ <;> split
    exacts [hk, hk, by simp [ha], ha]
  · exact ⟨r, List.mem_append_left _ hr, hk, ha⟩

theorem DB.upsertNode_members (db : DB) (node : Node) : (db.upsertNode node).members = db.members := by
  unfold DB.upsertNode
  split <;> rfl

theorem WSHandler.foldl_sendNetworkConfig_members (conn : Nat) :
    ∀ (networkIDs : List String) (h : WSHandler),
      h.db.members ⊆ (networkIDs.foldl (fun h n => h.sendNetworkConfig conn n) h).db.members
  | [], _ => List.Subset.refl _
  | n :: ns, h => (h.sendNetworkConfig_members conn n).trans (foldl_sendNetworkConfig_members conn ns _)

theorem WSHandler.step_members (h : WSHandler) (e : WSHandler.WSEvent) :
    h.db.members ⊆ (h.step e).db.members := by
  cases e with
  | connect nodeAddr publicKey => exact List.Subset.refl _
  | message conn m =>
      simp only [WSHandler.step]
      split
      · cases m with
        | join msg =>
            simp only [WSHandler.handleMessage, WSHandler.handleJoin]
            refine List.Subset.trans ?_ (WSHandler.foldl_sendNetworkConfig_members conn msg.networks _)
            exact (DB.upsertNode_members _ _).symm ▸ List.Subset.refl _
        | status => exact List.Subset.refl _
        | leave msg =>
            simp only [WSHandler.handleMessage, WSHandler.handleLeave]
            split <;> exact List.Subset.refl _
      · exact List.Subset.refl _
  | exit conn =>
      simp only [WSHandler.step, WSHandler.exit]
      split
      · split <;> exact List.Subset.refl _
      · exact List.Subset.refl _

theorem DB.createNetwork_frame {db : DB} {req : CreateNetworkRequest} {idBytes : FixedBytes 4}
    {autoID : UInt32} {pskBytes : Bytes32} {r : DB × NetworkRow}
    (h : db.createNetwork req idBytes autoID pskBytes = .ok r) :
    r.1 = { db with networks := r.1.networks } := by
  obtain ⟨network, -, heq⟩ := db.createNetwork_eq req idBytes autoID pskBytes
  rw [heq] at h
  split at h
  · cases h
  · cases h; rfl

theorem DB.updateNetwork_frame {db : DB} {id : UInt32} {req : CreateNetworkRequest}
    {r : DB × NetworkRow} (h : db.updateNetwork id req = .ok r) :
    r.1 = { db with networks := r.1.networks } := by
  unfold DB.updateNetwork at h
  split at h
  · cases h
  · cases h; rfl

theorem DB.updateMember_frame {db : DB} {id : UInt32} {nodeAddr : String}
    {req : AuthorizeMemberRequest} {r : DB × Member} (h : db.updateMember id nodeAddr req = .ok r) :
    r.1 = { db with members := r.1.members } := by
  unfold DB.updateMember at h
  split at h
  · cases h
  · cases h; rfl

namespace AuthorizeServer

theorem write_members {α : Type} (s : AuthorizeServer) {r : Except String (DB × α)}
    (hr : ∀ x, r = .ok x → x.1.members = s.ws.db.members) :
    (s.write r).ws.db.members = s.ws.db.members := by
  unfold write
  split
  exacts [hr _ rfl, rfl]

theorem handle_authorizedRow (reqs : Nat → UInt32 × AuthorizeMemberRequest) {s : AuthorizeServer}
    {key : UInt32 × String} (h : AuthorizedRow key s.ws.db.members) {e : ServerEvent}
    (he : e.revokes = false) : AuthorizedRow key (s.handle reqs e).ws.db.members := by
  cases e with
  | ws e => exact h.mono (s.ws.step_members e)
  | createNetwork req idBytes autoID pskBytes =>
      exact (s.write_members fun _ h => (congrArg DB.members (DB.createNetwork_frame h) :)).symm ▸ h
  | updateNetwork id req =>
      exact (s.write_members fun _ h => (congrArg DB.members (DB.updateNetwork_frame h) :)).symm ▸ h
  | deleteNetwork id => exact h
  | authorize st =>
      cases st with
      | read r =>
          simp only [handle, step, AuthorizeStep.request]
          split <;> exact h
      | commit r =>
          simp only [handle, step, AuthorizeStep.request]
          split
          · exact (h.assignMember _).mono (s.ws.assignMember_subset_authorizeCommit _ _ _)
          · exact h
  | updateMember => cases he
  | removeMember => cases he

theorem serve_authorizedRow (reqs : Nat → UInt32 × AuthorizeMemberRequest) {key : UInt32 × String} :
    ∀ (events : List ServerEvent) {s : AuthorizeServer}, (∀ e ∈ events, e.revokes = false) →
      AuthorizedRow key s.ws.db.members → AuthorizedRow key (s.serve reqs events).ws.db.members
  | [], _, _, h => h
  | e :: events, _, hev, h =>
      serve_authorizedRow reqs events (fun e' he' => hev e' (List.mem_cons_of_mem _ he'))
        (handle_authorizedRow reqs h (hev e (List.mem_cons_self _ _)))

end AuthorizeServer

/-- No run of the controller revokes a member unless it runs `updateMember` or `removeMember`:
an authorized row stays authorized whatever else is served, every `authorizeMember` request
with `authorized` false included. `updateMember` with `authorized` false does revoke it. -/
theorem only_update_revokes (reqs : Nat → UInt32 × AuthorizeMemberRequest) (s : AuthorizeServer)
    {events : List ServerEvent} (hev : ∀ e ∈ events, e.revokes = false) {r : Member}
    (hr : r ∈ s.ws.db.members) (ha : r.authorized = true) {req : AuthorizeMemberRequest}
    (hf : req.authorized = false) :
    (∃ r' ∈ (s.serve reqs events).ws.db.members, r'.key = r.key ∧ r'.authorized = true) ∧
      ∃ res, s.ws.db.updateMember r.networkID r.nodeAddress req = .ok res ∧
        ∀ r' ∈ res.1.members, r'.key = r.key → r'.authorized = false := by
  refine ⟨AuthorizeServer.serve_authorizedRow reqs events hev ⟨r, hr, rfl, ha⟩, ?_⟩
  cases hfind : s.ws.db.members.find? (Member.isRow r.networkID r.nodeAddress) with
  | none => simpa [Member.isRow] using List.find?_eq_none.mp hfind r hr
  | some r₀ =>
      refine ⟨_, by simp only [DB.updateMember, hfind]; rfl, fun r' hr' hk => ?_⟩
      obtain ⟨r'', -, rfl⟩ := List.mem_map.mp hr'
      by_cases hrow : r''.isRow r.networkID r.nodeAddress = true
      · simp only [hrow, if_true]
        exact hf
      · simp only [hrow, Bool.false_eq_true, if_false] at hk
        simp [Member.isRow, Member.key] at hrow hk
        exact absurd hk.2 (hrow hk.1)

/-- Node `a` is authorized on network 7; a request authorizing it with `authorized` false,
read and committed, leaves it authorized, while `updateMember` with that body revokes it. -/
theorem authorize_false_keeps_member :
    let s : AuthorizeServer :=
      ⟨WSHandler.new ⟨[⟨7, 1400, "", "10.0.0.0/24"⟩], [], [⟨7, "a", true, "10.0.0.1/24", "A"⟩]⟩, []⟩
    let req : AuthorizeMemberRequest := ⟨"a", false, "", ""⟩
    (∃ r' ∈ (s.serve (fun _ => (7, req)) [.authorize (.read 0), .authorize (.commit 0)]).ws.db.members,
        r'.key = (7, "a") ∧ r'.authorized = true) ∧
      ∃ res, s.ws.db.updateMember 7 "a" req = .ok res ∧
        ∀ r' ∈ res.1.members, r'.key = (7, "a") → r'.authorized = false := by
  intro s req
  exact @only_update_revokes (fun _ => (7, req)) s [.authorize (.read 0), .authorize (.commit 0)]
    (by decide) _ (List.mem_singleton_self _) rfl req rfl

end ZeroGo.Controller
