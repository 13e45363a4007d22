import ZeroGo.Controller.Rows

/-!
The addresses of the member rows over whole runs of the controller. `authorizeMember` lets
`allocateIP` pick an address that no row of the network holds in the rows it reads, and writes
it with `FirstOrCreate`. When every request is served alone, its read followed at once by its
commit, no two nodes of a network ever hold the same address, whatever else the controller
serves, as long as no request and no `updateMember` names an address itself: the race between a
read and another request's write is the only way two nodes come to share one.
-/

namespace ZeroGo.Controller

/-- No two member rows of one network, for different nodes, hold the same address as
`allocateIP` reads it. -/
def AddressesDistinct (ms : List Member) : Prop :=
  ∀ r₁ ∈ ms, ∀ r₂ ∈ ms, r₁.networkID = r₂.networkID → r₁.nodeAddress ≠ r₂.nodeAddress →
    ∀ x, memberIPString r₁.ipAddress = some x → memberIPString r₂.ipAddress ≠ some x

/-- Every row of `ms'` holds no address, or is a row of `ms` with its network, node and
address. -/
def AddressesKept (ms ms' : List Member) : Prop :=
  ∀ r' ∈ ms', memberIPString r'.ipAddress = none ∨
    ∃ r ∈ ms, r.networkID = r'.networkID ∧ r.nodeAddress = r'.nodeAddress ∧
      r.ipAddress = r'.ipAddress

/-- The address of `m`, if it has one, is held by no row of its network. -/
def DB.Fresh (db : DB) (m : Member) : Prop :=
  ∀ x, memberIPString m.ipAddress = some x → x ∉ usedIPs db m.networkID

theorem memberIPString_empty : memberIPString "" = none := rfl

theorem mem_usedIPs {db : DB} {r : Member} (hr : r ∈ db.members) {x : String}
    (hx : memberIPString r.ipAddress = some x) : x ∈ usedIPs db r.networkID := by
  have hne : r.ipAddress ≠ "" := fun h => by rw [h, memberIPString_empty] at hx; cases hx
  exact List.mem_filterMap.mpr ⟨r, List.mem_filter.mpr ⟨hr, by simp [hne]⟩, hx⟩

namespace AddressesKept

variable {ms ms' ms'' : List Member}

theorem refl (ms : List Member) : AddressesKept ms ms :=
  fun r hr => .inr ⟨r, hr, rfl, rfl, rfl⟩

theorem trans (h₁ : AddressesKept ms ms') (h₂ : AddressesKept ms' ms'') : AddressesKept ms ms'' := by
  intro r'' hr''
  obtain h | ⟨r', hr', hn, ha, hi⟩ := h₂ r'' hr''
  · exact .inl h
  obtain h | ⟨r, hr, hn', ha', hi'⟩ := h₁ r' hr'
  · exact .inl (hi ▸ h)
  · exact .inr ⟨r, hr, hn'.trans hn, ha'.trans ha, hi'.trans hi⟩

theorem of_subset (h : ms' ⊆ ms) : AddressesKept ms ms' :=
  fun r hr => .inr ⟨r, h hr, rfl, rfl, rfl⟩

theorem append_unaddressed (ms : List Member) {m : Member} (hm : m.ipAddress = "") :
    AddressesKept ms (ms ++ [m]) := by
  intro r hr
  rcases List.mem_append.mp hr with hr | hr
  · exact .inr ⟨r, hr, rfl, rfl, rfl⟩
  · rw [List.mem_singleton.mp hr, hm]
    exact .inl memberIPString_empty

theorem map {f : Member → Member}
    (hf : ∀ r, (f r).networkID = r.networkID ∧ (f r).nodeAddress = r.nodeAddress ∧
      (f r).ipAddress = r.ipAddress) : AddressesKept ms (ms.map f) := by
  intro r' hr'
  obtain ⟨r, hr, rfl⟩ := List.mem_map.mp hr'
  obtain ⟨hn, ha, hi⟩ := hf r
  exact .inr ⟨r, hr, hn.symm, ha.symm, hi.symm⟩

end AddressesKept

theorem AddressesDistinct.kept {ms ms' : List Member} (h : AddressesDistinct ms)
    (hk : AddressesKept ms ms') : AddressesDistinct ms' := by
  intro r₁' h₁ r₂' h₂ hn ha x hx
  obtain h₁ | ⟨r₁, hr₁, hn₁, ha₁, hi₁⟩ := hk r₁' h₁
  · rw [h₁] at hx; cases hx
  obtain h₂ | ⟨r₂, hr₂, hn₂, ha₂, hi₂⟩ := hk r₂' h₂
  · rw [h₂]; exact fun h => nomatch h
  rw [← hi₁] at hx
  rw [← hi₂]
  exact h r₁ hr₁ r₂ hr₂ (by rw [hn₁, hn₂, hn]) (by rw [ha₁, ha₂]; exact ha) x hx

theorem DB.Fresh.ne {db : DB} {m : Member} (hm : db.Fresh m) {r : Member} (hr : r ∈ db.members)
    (hn : r.networkID = m.networkID) {x : String} (hx : memberIPString m.ipAddress = some x) :
    memberIPString r.ipAddress ≠ some x :=
  fun h => hm x hx (hn ▸ mem_usedIPs hr h)

/-- A write that keeps every row of `db` with its network, node and address, or gives the row of
`m`'s network and node the fresh address of `m`, keeps the addresses distinct. -/
theorem AddressesDistinct.write {db : DB} (h : AddressesDistinct db.members) {m : Member}
    (hm : db.Fresh m) {ms : List Member}
    (hk : ∀ r' ∈ ms, (∃ r ∈ db.members, r.networkID = r'.networkID ∧
        r.nodeAddress = r'.nodeAddress ∧ r.ipAddress = r'.ipAddress) ∨
      r'.networkID = m.networkID ∧ r'.nodeAddress = m.nodeAddress ∧ r'.ipAddress = m.ipAddress) :
    AddressesDistinct ms := by
  intro r₁' h₁ r₂' h₂ hn ha x hx
  rcases hk r₁' h₁ with ⟨r₁, hr₁, n₁, a₁, i₁⟩ | ⟨n₁, a₁, i₁⟩ <;>
    rcases hk r₂' h₂ with ⟨r₂, hr₂, n₂, a₂, i₂⟩ | ⟨n₂, a₂, i₂⟩
  · rw [← i₁] at hx
    rw [← i₂]
    exact h r₁ hr₁ r₂ hr₂ (by rw [n₁, n₂, hn]) (by rw [a₁, a₂]; exact ha) x hx
  · rw [i₂]
    exact fun hm' => hm.ne hr₁ (by rw [n₁, hn, n₂]) hm' (i₁ ▸ hx)
  · rw [← i₂]
    exact hm.ne hr₂ (by rw [n₂, ← hn, n₁]) (i₁ ▸ hx)
  · exact absurd (a₁.trans a₂.symm) ha

theorem AddressesDistinct.assignMember {db : DB} (h : AddressesDistinct db.members) {m : Member}
    (hm : db.Fresh m) : AddressesDistinct (db.assignMember m).members := by
  refine h.write hm fun r' hr' => ?_
  unfold DB.assignMember at hr'
  split at hr'
  · obtain ⟨r, hr, rfl⟩ := List.mem_map.mp hr'
    by_cases hs : r.sameRow m
    · obtain ⟨hn, ha⟩ : r.networkID = m.networkID ∧ r.nodeAddress = m.nodeAddress := by
        simpa [Member.sameRow] using hs
      simp only [hs, if_true]
      split
      · exact .inl ⟨r, hr, rfl, rfl, rfl⟩
      · exact .inr ⟨hn, ha, rfl⟩
    · simp only [hs, Bool.false_eq_true, if_false]
      exact .inl ⟨r, hr, rfl, rfl, rfl⟩
  · rcases List.mem_append.mp hr' with hr' | hr'
    · exact .inl ⟨r', hr', rfl, rfl, rfl⟩
    · exact .inr (List.mem_singleton.mp hr' ▸ ⟨rfl, rfl, rfl⟩)

theorem authorizeRead_fresh {db : DB} {id : UInt32} {req : AuthorizeMemberRequest}
    (hreq : req.ipAddress = "") {m : Member} (h : authorizeRead db id req = .ok m) : db.Fresh m := by
  cases ha : req.authorized
  · have hm : m.ipAddress = "" := by
      unfold authorizeRead at h
      split at h
      · cases h
      · simp only [ha, hreq, Bool.false_and, Bool.false_eq_true, if_false] at h
        obtain rfl := Except.ok.inj h
        rfl
    intro x hx
    rw [hm, memberIPString_empty] at hx
    cases hx
  · obtain ⟨hm, network, hn, hip⟩ := authorizeRead_allocated ha hreq h
    obtain ⟨host, ones, hh, ho, hfree, hs⟩ := allocateIP_ok hip
    intro x hx
    rw [hs, memberIPString_cidrString hh ho, Option.some_inj] at hx
    have hid : network.id = m.networkID := by
      rw [hm]
      simpa using List.find?_some hn
    exact hid ▸ hx ▸ hfree

namespace WSHandler

theorem sendNetworkConfig_kept (h : WSHandler) (conn : Nat) (networkID : String) :
    AddressesKept h.db.members (h.sendNetworkConfig conn networkID).db.members := by
  unfold sendNetworkConfig
  split
  · exact .refl _
  split
  · exact .refl _
  split
  · obtain ⟨o, ho⟩ := configReply_frame h conn networkID _ _ _
    rw [ho]
    exact .refl _
  · obtain ⟨o, ho⟩ := configReply_frame { h with db := _ } conn networkID _ _ _
    rw [ho]
    exact .append_unaddressed _ rfl

theorem foldl_sendNetworkConfig_kept (conn : Nat) :
    ∀ (networkIDs : List String) (h : WSHandler),
      AddressesKept h.db.members (networkIDs.foldl (fun h n => h.sendNetworkConfig conn n) h).db.members
  | [], _ => .refl _
  | n :: ns, h => (h.sendNetworkConfig_kept conn n).trans (foldl_sendNetworkConfig_kept conn ns _)

theorem step_kept (h : WSHandler) (e : WSEvent) : AddressesKept h.db.members (h.step e).db.members := by
  cases e with
  | connect nodeAddr publicKey => exact .refl _
  | message conn m =>
      simp only [step]
      split
      · cases m with
        | join msg =>
            simp only [handleMessage, handleJoin]
            refine AddressesKept.trans ?_ (foldl_sendNetworkConfig_kept conn msg.networks _)
            exact (DB.upsertNode_members _ _).symm ▸ .refl _
        | status => exact .refl _
        | leave msg =>
            simp only [handleMessage, handleLeave]
            split <;> exact .refl _
      · exact .refl _
  | exit conn =>
      simp only [step, exit]
      split
      · split <;> exact .refl _
      · exact .refl _

theorem authorizeCommit_kept (h : WSHandler) (id : UInt32) (req : AuthorizeMemberRequest)
    (m : Member) :
    AddressesKept (h.db.assignMember m).members (h.authorizeCommit id req m).db.members := by
  unfold authorizeCommit
  dsimp only
  split
  · split
    · rw [broadcastPeerUpdate_db]
      unfold sendNetworkConfigToAgent
      split
      exacts [sendNetworkConfig_kept _ _ _, .refl _]
    · exact .refl _
  · exact .refl _

theorem removeMember_kept (h : WSHandler) (id : UInt32) (nodeAddr : String) :
    AddressesKept h.db.members (h.removeMember id nodeAddr).db.members := by
  rw [removeMember, broadcastPeerUpdate_db]
  exact .of_subset (List.filter_sublist _).subset

end WSHandler

theorem DB.updateMember_kept {db : DB} {id : UInt32} {nodeAddr : String}
    {req : AuthorizeMemberRequest} (hreq : req.ipAddress = "") {r : DB × Member}
    (h : db.updateMember id nodeAddr req = .ok r) : AddressesKept db.members r.1.members := by
  unfold DB.updateMember at h
  split at h
  · cases h
  · obtain rfl := Except.ok.inj h
    refine .map fun m => ?_
    dsimp only
    split
    · simp [AuthorizeMemberRequest.updated, hreq]
    · exact ⟨rfl, rfl, rfl⟩

/-- Runs in which every `authorizeMember` request is served alone: its read is followed at once
by its commit. -/
inductive Serial : List ServerEvent → Prop
  | nil : Serial []
  | event {e : ServerEvent} {events : List ServerEvent} (he : ∀ st, e ≠ .authorize st)
      (h : Serial events) : Serial (e :: events)
  | request (r : Nat) {events : List ServerEvent} (h : Serial events) :
      Serial (.authorize (.read r) :: .authorize (.commit r) :: events)

namespace AuthorizeServer

theorem write_kept {α : Type} (s : AuthorizeServer) {r : Except String (DB × α)}
    (hr : ∀ x, r = .ok x → AddressesKept s.ws.db.members x.1.members) :
    (s.write r).pending = s.pending ∧ AddressesKept s.ws.db.members (s.write r).ws.db.members := by
  unfold write
  split
  exacts [⟨rfl, hr _ rfl⟩, ⟨rfl, .refl _⟩]

theorem handle_kept (reqs : Nat → UInt32 × AuthorizeMemberRequest) (s : AuthorizeServer)
    {e : ServerEvent} (he : ∀ st, e ≠ .authorize st)
    (hup : ∀ id nodeAddr req, e = .updateMember id nodeAddr req → req.ipAddress = "") :
    (s.handle reqs e).pending = s.pending ∧
      AddressesKept s.ws.db.members (s.handle reqs e).ws.db.members := by
  cases e with
  | ws e => exact ⟨rfl, s.ws.step_kept e⟩
  | createNetwork req idBytes autoID pskBytes =>
      exact s.write_kept fun _ h => (congrArg DB.members (DB.createNetwork_frame h)).symm ▸ .refl _
  | updateNetwork id req =>
      exact s.write_kept fun _ h => (congrArg DB.members (DB.updateNetwork_frame h)).symm ▸ .refl _
  | deleteNetwork id => exact ⟨rfl, .refl _⟩
  | authorize st => exact absurd rfl (he st)
  | updateMember id nodeAddr req => exact s.write_kept fun _ => DB.updateMember_kept (hup _ _ _ rfl)
  | removeMember id nodeAddr => exact ⟨rfl, s.ws.removeMember_kept id nodeAddr⟩

/-- A request served alone, from no request in flight, writes an address no other row of its
network holds, and leaves no request in flight. -/
theorem request_distinct (reqs : Nat → UInt32 × AuthorizeMemberRequest) {r : Nat}
    (hreq : (reqs r).2.ipAddress = "") {s : AuthorizeServer} (hp : s.pending = [])
    (h : AddressesDistinct s.ws.db.members) :
    let s' := (s.handle reqs (.authorize (.read r))).handle reqs (.authorize (.commit r))
    s'.pending = [] ∧ AddressesDistinct s'.ws.db.members := by
  simp only [handle, step, AuthorizeStep.request]
  cases hm : authorizeRead s.ws.db (reqs r).1 (reqs r).2 with
  | error e =>
      simp only [hp, List.lookup_nil]
      exact ⟨trivial, h⟩
  | ok m =>
      simp only [hp, List.nil_append, List.lookup_cons_self]
      exact ⟨by simp, (h.assignMember (authorizeRead_fresh hreq hm)).kept
        (s.ws.authorizeCommit_kept _ _ m)⟩

theorem serve_serial (reqs : Nat → UInt32 × AuthorizeMemberRequest)
    (hreqs : ∀ r, (reqs r).2.ipAddress = "") {events : List ServerEvent} (hser : Serial events)
    (hup : ∀ id nodeAddr req, ServerEvent.updateMember id nodeAddr req ∈ events → req.ipAddress = "")
    {s : AuthorizeServer} (hp : s.pending = []) (h : AddressesDistinct s.ws.db.members) :
    (s.serve reqs events).pending = [] ∧ AddressesDistinct (s.serve reqs events).ws.db.members := by
  induction hser generalizing s with
  | nil => exact ⟨hp, h⟩
  | event he _ ih =>
      obtain ⟨hp', hk⟩ := s.handle_kept reqs he fun _ _ _ he' =>
        hup _ _ _ (by rw [← he']; exact List.mem_cons_self _ _)
      exact ih (fun _ _ _ hm => hup _ _ _ (List.mem_cons_of_mem _ hm)) (hp'.trans hp) (h.kept hk)
  | request r _ ih =>
      obtain ⟨hp', h'⟩ := request_distinct reqs (hreqs r) hp h
      exact ih (fun _ _ _ hm => hup _ _ _ (List.mem_cons_of_mem _ (List.mem_cons_of_mem _ hm))) hp' h'

end AuthorizeServer

/-- Over every run of the controller in which each `authorizeMember` request is served alone,
from a database whose member rows hold distinct addresses in each network (an empty one, say):
whatever the agents, the network handlers, member updates and removals do in between, no two
nodes of one network ever hold the same address, provided no request and no `updateMember`
names an address itself. -/
theorem serial_authorizations_distinct_addresses (reqs : Nat → UInt32 × AuthorizeMemberRequest)
    (hreqs : ∀ r, (reqs r).2.ipAddress = "") {events : List ServerEvent} (hser : Serial events)
    (hup : ∀ id nodeAddr req, ServerEvent.updateMember id nodeAddr req ∈ events → req.ipAddress = "")
    {db : DB} (hdb : AddressesDistinct db.members) :
    AddressesDistinct (AuthorizeServer.serve reqs ⟨WSHandler.new db, []⟩ events).ws.db.members :=
  (AuthorizeServer.serve_serial reqs hreqs hser hup rfl hdb).2

/-- Network 7 is created and nodes `a` and `b` are authorized one after the other, neither
request naming an address: the two rows hold different addresses. -/
theorem two_serial_authorizations_distinct :
    let reqs : Nat → UInt32 × AuthorizeMemberRequest :=
      fun r => (7, ⟨if r = 0 then "a" else "b", true, "", ""⟩)
    let events : List ServerEvent :=
      [.createNetwork ⟨"10.0.0.0/24", 0⟩ (FixedBytes.ofList 4 [0, 0, 0, 7]) 1 (FixedBytes.ofList 32 [1]),
        .authorize (.read 0), .authorize (.commit 0), .authorize (.read 1), .authorize (.commit 1)]
    (∀ r, (reqs r).2.ipAddress = "") ∧ Serial events ∧
      AddressesDistinct (AuthorizeServer.serve reqs ⟨WSHandler.new ⟨[], [], []⟩, []⟩ events).ws.db.members := by
  intro reqs events
  have hser : Serial events := .event (fun _ h => nomatch h) (.request 0 (.request 1 .nil))
  exact ⟨fun _ => rfl, hser, serial_authorizations_distinct_addresses reqs (fun _ => rfl) hser
    (fun _ _ _ h => by simp [events] at h) fun _ h => absurd h (List.not_mem_nil _)⟩

end ZeroGo.Controller
