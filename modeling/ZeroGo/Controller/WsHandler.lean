import ZeroGo.Protocol
import ZeroGo.GoLib

/-!
The controller's agent endpoint of `controller/ws.go`. Each accepted WebSocket gets a
connection number and an `AgentConn`; `agents` maps a node address to the connection
registered last for it, and `running` holds the connections whose read loop has not
returned. A read loop may return at any time (the peer hangs up, or a newer connection
of the same node closed it), and its deferred cleanup deletes the node's entry from
`agents`. The database rows are the fields the handlers read. A query that compares an integer
column with the network ID string of a join compares as SQLite does: NUMERIC affinity reads the
string as a number, so `7`, `007`, `+7`, ` 7` and `7.0` all name network 7.
-/

namespace ZeroGo.Controller

/-! ### SQLite's reading of a text as a number -/

/-- `sqlite3Isspace`. -/
def isSqlSpace (c : Char) : Bool := c == ' ' || (9 ≤ c.toNat && c.toNat ≤ 13)

/-- A number as `sqlite3AtoF` reads it: `(-1)^negative · significand · 10^exponent`. -/
structure SqlNumber where
  negative : Bool
  significand : Nat
  exponent : Int

def sqlSign : List Char → Bool × List Char
  | '-' :: cs => (true, cs)
  | '+' :: cs => (false, cs)
  | cs => (false, cs)

/-- What follows the significand: an exponent `e` or `E`, an optional sign and at least one
digit, then blanks to the end; `none` when anything else is left. -/
def sqlExponent : List Char → Option Int
  | [] => some 0
  | c :: cs =>
      if c = 'e' ∨ c = 'E' then
        let (negative, cs) := sqlSign cs
        let (digits, rest) := cs.span Char.isDigit
        if digits = [] ∨ !rest.all isSqlSpace then none
        else some (if negative then -(digitsValue digits 0 : Int) else digitsValue digits 0)
      else if (c :: cs).all isSqlSpace then some 0 else none

/-- `sqlite3AtoF` on a whole text: blanks, an optional sign, digits with an optional fraction
and at least one digit in all, an optional exponent, blanks. `none` is a text that is no
number, which NUMERIC affinity leaves as text. -/
def sqlNumber (s : String) : Option SqlNumber :=
  let (negative, cs) := sqlSign (s.toList.dropWhile isSqlSpace)
  let (intDigits, cs) := cs.span Char.isDigit
  let (fracDigits, cs) := match cs with
    | '.' :: cs => cs.span Char.isDigit
    | cs => ([], cs)
  if intDigits ++ fracDigits = [] then none
  else (sqlExponent cs).map fun e =>
    ⟨negative, digitsValue (intDigits ++ fracDigits) 0, e - fracDigits.length⟩

/-- Whether a number is the integer `n`. -/
def SqlNumber.eqNat (x : SqlNumber) (n : Nat) : Bool :=
  (!x.negative || x.significand == 0) &&
    if 0 ≤ x.exponent then x.significand * 10 ^ x.exponent.toNat == n
    else x.significand == n * 10 ^ (-x.exponent).toNat

/-- `column = ?` for an integer column that holds `n` and a text parameter: NUMERIC affinity
turns a text that reads as a number into that number, which compares by value, and a text that
stays text never equals an integer. -/
def sqlEqText (n : Nat) (s : String) : Bool :=
  match sqlNumber s with
  | some x => x.eqNat n
  | none => false

/-- A `Network` row. -/
structure NetworkRow where
  id : UInt32
  mtu : Nat
  psk : String
  ipRange : String

structure Node where
  address : String
  publicKey : String

structure Member where
  networkID : UInt32
  nodeAddress : String
  authorized : Bool
  ipAddress : String
  name : String

structure DB where
  networks : List NetworkRow
  nodes : List Node
  members : List Member

structure AgentConn where
  nodeAddr : String
  publicKey : String
  endpoints : List String
  networks : List String

structure WSHandler where
  conns : GoMap Nat AgentConn
  agents : GoMap String Nat
  running : List Nat
  nextConn : Nat
  db : DB
  outbox : List (Nat × ControlMessage)

namespace DB

/-- `First(&network, "id = ?", networkID)`. -/
def findNetwork (db : DB) (networkID : String) : Option NetworkRow :=
  db.networks.find? fun n => sqlEqText n.id.toNat networkID

/-- `First(&member, "network_id = ? AND node_address = ?", networkID, nodeAddr)`. -/
def findMember (db : DB) (networkID nodeAddr : String) : Option Member :=
  db.members.find? fun m => sqlEqText m.networkID.toNat networkID && m.nodeAddress == nodeAddr

def findNode (db : DB) (address : String) : Option Node :=
  db.nodes.find? fun n => n.address == address

/-- `Where("address = ?").Assign(node).FirstOrCreate(&node)`: a row of that address takes the
node's fields that are not zero, so an empty key leaves the stored one; otherwise the node is
created. -/
def upsertNode (db : DB) (node : Node) : DB :=
  if db.nodes.any (·.address == node.address) then
    { db with nodes := db.nodes.map fun n =>
        if n.address == node.address then
          { n with publicKey := if node.publicKey = "" then n.publicKey else node.publicKey }
        else n }
  else { db with nodes := db.nodes ++ [node] }

end DB

namespace WSHandler

/-- `NewWSHandler` over a database. -/
def new (db : DB) : WSHandler := ⟨∅, ∅, [], 0, db, []⟩

def send (h : WSHandler) (conn : Nat) (m : ControlMessage) : WSHandler :=
  { h with outbox := h.outbox ++ [(conn, m)] }

/-- The endpoints `sendNetworkConfig` lists for a member: those of its registered
connection, none when it is offline. -/
def onlineEndpoints (h : WSHandler) (nodeAddr : String) : List String :=
  match h.agents.lookup nodeAddr >>= h.conns.lookup with
  | some c => c.endpoints
  | none => []

/-- The roster `sendNetworkConfig` gathers for `nodeAddr`: every other authorized member
of the network that has a node row. -/
def peerInfos (h : WSHandler) (networkID nodeAddr : String) : List PeerInfo :=
  (h.db.members.filter fun m =>
      sqlEqText m.networkID.toNat networkID && m.nodeAddress != nodeAddr && m.authorized).filterMap
    fun m => (h.db.findNode m.nodeAddress).map fun node =>
      ⟨m.nodeAddress, node.publicKey, h.onlineEndpoints m.nodeAddress, m.name⟩

/-- The end of `sendNetworkConfig` once the member row is known: an error for a member
that is not (yet) authorized, otherwise the full configuration with the roster. -/
def configReply (h : WSHandler) (conn : Nat) (networkID : String) (network : NetworkRow)
    (nodeAddr : String) (member : Member) : WSHandler :=
  if !member.authorized then h.send conn (.error 403 "not authorized for this network")
  else
    h.send conn (.networkConfig
      { networkID := networkID
        mtu := network.mtu
        psk := network.psk
        assignedIP := member.ipAddress
        peers := h.peerInfos networkID nodeAddr })

/-- `sendNetworkConfig`: an error for an unknown network; a pending member is created on
first contact. -/
def sendNetworkConfig (h : WSHandler) (conn : Nat) (networkID : String) : WSHandler :=
  match h.conns.lookup conn with
  | none => h
  | some agent =>
      match h.db.findNetwork networkID with
      | none => h.send conn (.error 404 "network not found")
      | some network =>
          match h.db.findMember networkID agent.nodeAddr with
          | some m => h.configReply conn networkID network agent.nodeAddr m
          | none =>
              let m : Member := ⟨network.id, agent.nodeAddr, false, "", ""⟩
              let h := { h with db := { h.db with members := h.db.members ++ [m] } }
              h.configReply conn networkID network agent.nodeAddr m

/-- `handleJoin`: record the connection's endpoints and networks, upsert the node row and
answer every requested network. -/
def handleJoin (h : WSHandler) (conn : Nat) (msg : JoinMessage) : WSHandler :=
  let conns := match h.conns.lookup conn with
    | some c => h.conns.insert conn { c with endpoints := msg.endpoints, networks := msg.networks }
    | none => h.conns
  let h := { h with conns := conns, db := h.db.upsertNode ⟨msg.nodeAddr, msg.publicKey⟩ }
  msg.networks.foldl (fun h netID => h.sendNetworkConfig conn netID) h

/-- `handleLeave`: drop the first occurrence of each listed network. -/
def handleLeave (h : WSHandler) (conn : Nat) (msg : LeaveMessage) : WSHandler :=
  match h.conns.lookup conn with
  | some c =>
      let c' := { c with networks := msg.networks.foldl (fun ns n => ns.erase n) c.networks }
      { h with conns := h.conns.insert conn c' }
  | none => h

def handleMessage (h : WSHandler) (conn : Nat) : AgentMessage → WSHandler
  | .join msg => h.handleJoin conn msg
  | .status => h
  | .leave msg => h.handleLeave conn msg

/-- `SendNetworkConfigToAgent`: only to an online node. -/
def sendNetworkConfigToAgent (h : WSHandler) (nodeAddr networkID : String) : WSHandler :=
  match h.agents.lookup nodeAddr with
  | some conn => h.sendNetworkConfig conn networkID
  | none => h

/-- `BroadcastPeerUpdate`: to every registered connection that listed the network. -/
def broadcastPeerUpdate (h : WSHandler) (networkID : UInt32) (action : String) (peer : PeerInfo) :
    WSHandler :=
  h.agents.entries.foldl (fun h' e =>
    match h.conns.lookup e.2 with
    | some c => if c.networks.any (· == toString networkID) then h'.send e.2 (.peerUpdate ⟨action, peer⟩) else h'
    | none => h') h

def getOnlineAgents (h : WSHandler) : List String := h.agents.keys

/-- `HandleAgentConnect` up to its read loop: a new connection replaces the node's entry
(the old connection is closed, its loop returns later). -/
def connect (h : WSHandler) (nodeAddr publicKey : String) : WSHandler :=
  { h with
    conns := h.conns.insert h.nextConn ⟨nodeAddr, publicKey, [], []⟩
    agents := h.agents.insert nodeAddr h.nextConn
    running := h.running ++ [h.nextConn]
    nextConn := h.nextConn + 1 }

/-- The return of a connection's read loop, with its deferred
`delete(h.agents, nodeAddr)`. -/
def exit (h : WSHandler) (conn : Nat) : WSHandler :=
  if conn ∈ h.running then
    match h.conns.lookup conn with
    | some c => { h with running := h.running.erase conn, agents := h.agents.erase c.nodeAddr }
    | none => { h with running := h.running.erase conn }
  else h

/-- What happens at the agent endpoint. -/
inductive WSEvent where
  | connect (nodeAddr publicKey : String)
  | message (conn : Nat) (m : AgentMessage)
  | exit (conn : Nat)

def step (h : WSHandler) : WSEvent → WSHandler
  | .connect nodeAddr publicKey => h.connect nodeAddr publicKey
  | .message conn m => if conn ∈ h.running then h.handleMessage conn m else h
  | .exit conn => h.exit conn

def run (h : WSHandler) (events : List WSEvent) : WSHandler := events.foldl step h

/-! ### Frames

`sendNetworkConfig`, and so `handleJoin` past its first update, touch only the database and
the outbox. -/

theorem configReply_frame (h : WSHandler) (conn : Nat) (networkID : String)
    (network : NetworkRow) (nodeAddr : String) (member : Member) :
    ∃ outbox,
      h.configReply conn networkID network nodeAddr member = { h with outbox := outbox } := by
  unfold configReply
  split <;> exact ⟨_, rfl⟩

theorem sendNetworkConfig_frame (h : WSHandler) (conn : Nat) (networkID : String) :
    ∃ db outbox, h.sendNetworkConfig conn networkID = { h with db := db, outbox := outbox } := by
  unfold sendNetworkConfig
  split
  · exact ⟨h.db, h.outbox, rfl⟩
  split
  · exact ⟨h.db, _, rfl⟩
  split
  · obtain ⟨o, ho⟩ := configReply_frame h conn networkID _ _ _
    exact ⟨h.db, o, ho⟩
  · obtain ⟨o, ho⟩ := configReply_frame { h with db := _ } conn networkID _ _ _
    exact ⟨_, o, ho⟩

@[simp] theorem sendNetworkConfig_conns (h : WSHandler) (conn : Nat) (networkID : String) :
    (h.sendNetworkConfig conn networkID).conns = h.conns := by
  obtain ⟨_, _, e⟩ := sendNetworkConfig_frame h conn networkID
  rw [e]

@[simp] theorem sendNetworkConfig_agents (h : WSHandler) (conn : Nat) (networkID : String) :
    (h.sendNetworkConfig conn networkID).agents = h.agents := by
  obtain ⟨_, _, e⟩ := sendNetworkConfig_frame h conn networkID
  rw [e]

@[simp] theorem sendNetworkConfig_running (h : WSHandler) (conn : Nat) (networkID : String) :
    (h.sendNetworkConfig conn networkID).running = h.running := by
  obtain ⟨_, _, e⟩ := sendNetworkConfig_frame h conn networkID
  rw [e]

theorem sendNetworkConfig_members (h : WSHandler) (conn : Nat) (networkID : String) :
    h.db.members ⊆ (h.sendNetworkConfig conn networkID).db.members := by
  unfold sendNetworkConfig
  split
  · exact List.Subset.refl _
  split
  · exact List.Subset.refl _
  split
  · obtain ⟨o, ho⟩ := configReply_frame h conn networkID _ _ _
    rw [ho]
    exact List.Subset.refl _
  · obtain ⟨o, ho⟩ := configReply_frame { h with db := _ } conn networkID _ _ _
    rw [ho]
    exact List.subset_append_left _ _

theorem sendNetworkConfigToAgent_members (h : WSHandler) (nodeAddr networkID : String) :
    h.db.members ⊆ (h.sendNetworkConfigToAgent nodeAddr networkID).db.members := by
  unfold sendNetworkConfigToAgent
  split
  · exact h.sendNetworkConfig_members _ _
  · exact List.Subset.refl _

@[simp] theorem broadcastPeerUpdate_db (h : WSHandler) (networkID : UInt32) (action : String)
    (peer : PeerInfo) : (h.broadcastPeerUpdate networkID action peer).db = h.db := by
  unfold broadcastPeerUpdate
  generalize h.agents.entries = entries
  generalize h.conns = conns
  induction entries generalizing h with
  | nil => rfl
  | cons e es ih =>
      rw [List.foldl_cons, ih]
      split
      · split <;> rfl
      · rfl

theorem broadcastPeerUpdate_outbox (h : WSHandler) (networkID : UInt32) (action : String)
    (peer : PeerInfo) :
    (h.broadcastPeerUpdate networkID action peer).outbox = h.outbox ++
      (h.agents.entries.filter fun e =>
        (h.conns.lookup e.2).any fun c => c.networks.any (· == toString networkID)).map
        fun e => (e.2, .peerUpdate ⟨action, peer⟩) := by
  unfold broadcastPeerUpdate
  generalize h.agents.entries = entries
  generalize h.conns = conns
  induction entries generalizing h with
  | nil => simp
  | cons e es ih =>
      rw [List.foldl_cons, ih]
      split
      · split <;> simp [send, *]
      · simp [*]

/-! ### The registry of online nodes

A connection's read loop deletes its node's entry when it returns, whichever connection
the entry names by then: after a node reconnects, the return of the superseded loop takes
the node offline although its newer connection still runs. -/

/-- The return of a read loop deletes its node's entry, whichever connection the entry
names, while every other loop keeps running. -/
theorem exit_drops_node_entry (h : WSHandler) (c₁ : Nat) {conn : AgentConn}
    (h₁ : c₁ ∈ h.running) (hc₁ : h.conns.lookup c₁ = some conn) :
    (h.exit c₁).agents.lookup conn.nodeAddr = none ∧
      ∀ c₂ ∈ h.running, c₂ ≠ c₁ → c₂ ∈ (h.exit c₁).running := by
  simp only [exit, h₁, if_true, hc₁, AList.lookup_erase]
  exact ⟨trivial, fun c₂ hrun hne => (List.mem_erase_of_ne hne).mpr hrun⟩

/-- A node connecting twice and the first loop returning leaves the node without an entry
while its second connection runs. -/
theorem reconnect_then_stale_exit :
    ((WSHandler.new ⟨[], [], []⟩).run [.connect "a" "k", .connect "a" "k", .exit 0]).agents.lookup "a"
        = none ∧
      1 ∈ ((WSHandler.new ⟨[], [], []⟩).run [.connect "a" "k", .connect "a" "k", .exit 0]).running :=
  let h := (WSHandler.new ⟨[], [], []⟩).run [.connect "a" "k", .connect "a" "k"]
  have hexit := exit_drops_node_entry h 0 (by decide) rfl
  ⟨hexit.1, hexit.2 1 (by decide) (by decide)⟩

/-! ### Port-only endpoints

Every agent advertises the single endpoint `":port"`. The controller stores what a join
advertises and copies it into the rosters of `network_config`, so every roster it sends
lists port-only endpoints only. -/

/-- Every endpoint recorded for a connection is port-only. -/
def EndpointsPortOnly (conns : GoMap Nat AgentConn) : Prop :=
  ∀ c conn, conns.lookup c = some conn → ∀ ep ∈ conn.endpoints, IsPortOnly ep

/-- A `network_config` whose roster lists port-only endpoints only; any other message. -/
def RosterPortOnly : ControlMessage → Prop
  | .networkConfig msg => ∀ info ∈ msg.peers, ∀ ep ∈ info.endpoints, IsPortOnly ep
  | _ => True

/-- A join, if the event is one, that advertises port-only endpoints only. -/
def WSEvent.JoinsPortOnly : WSEvent → Prop
  | .message _ (.join msg) => ∀ ep ∈ msg.endpoints, IsPortOnly ep
  | _ => True

structure PortOnly (h : WSHandler) : Prop where
  endpoints : EndpointsPortOnly h.conns
  rosters : ∀ x ∈ h.outbox, RosterPortOnly x.2

theorem EndpointsPortOnly.insert {conns : GoMap Nat AgentConn} (he : EndpointsPortOnly conns)
    (k : Nat) {conn : AgentConn} (hc : ∀ ep ∈ conn.endpoints, IsPortOnly ep) :
    EndpointsPortOnly (conns.insert k conn) := by
  intro c conn' hl
  by_cases hk : c = k
  · subst hk
    rw [AList.lookup_insert, Option.some_inj] at hl
    exact hl ▸ hc
  · rw [AList.lookup_insert_ne hk] at hl
    exact he c conn' hl

theorem EndpointsPortOnly.onlineEndpoints {h : WSHandler} (he : EndpointsPortOnly h.conns)
    (nodeAddr : String) : ∀ ep ∈ h.onlineEndpoints nodeAddr, IsPortOnly ep := by
  unfold WSHandler.onlineEndpoints
  split
  · next conn hc =>
      obtain ⟨c, -, hl⟩ := Option.bind_eq_some.mp hc
      exact he c conn hl
  · simp

theorem EndpointsPortOnly.peerInfos {h : WSHandler} (he : EndpointsPortOnly h.conns)
    (networkID nodeAddr : String) :
    ∀ info ∈ h.peerInfos networkID nodeAddr, ∀ ep ∈ info.endpoints, IsPortOnly ep := by
  intro info hinfo
  simp only [WSHandler.peerInfos, List.mem_filterMap, Option.map_eq_some'] at hinfo
  obtain ⟨m, -, -, -, rfl⟩ := hinfo
  exact he.onlineEndpoints m.nodeAddress

namespace PortOnly

variable {h : WSHandler}

theorem new (db : DB) : PortOnly (WSHandler.new db) :=
  ⟨fun _ _ hl => by simp [WSHandler.new] at hl, fun _ hx => by simp [WSHandler.new] at hx⟩

theorem send (hi : PortOnly h) (conn : Nat) {m : ControlMessage} (hm : RosterPortOnly m) :
    PortOnly (h.send conn m) := by
  refine ⟨hi.endpoints, fun x hx => ?_⟩
  rcases List.mem_append.mp hx with hx | hx
  · exact hi.rosters x hx
  · rw [List.mem_singleton.mp hx]
    exact hm

theorem configReply (hi : PortOnly h) (conn : Nat) (networkID : String) (network : NetworkRow)
    (nodeAddr : String) (member : Member) :
    PortOnly (h.configReply conn networkID network nodeAddr member) := by
  unfold WSHandler.configReply
  split
  · exact hi.send conn trivial
  · exact hi.send conn (hi.endpoints.peerInfos networkID nodeAddr)

theorem sendNetworkConfig (hi : PortOnly h) (conn : Nat) (networkID : String) :
    PortOnly (h.sendNetworkConfig conn networkID) := by
  unfold WSHandler.sendNetworkConfig
  split
  · exact hi
  split
  · exact hi.send conn trivial
  split
  · exact hi.configReply conn networkID _ _ _
  · apply PortOnly.configReply
    exact ⟨hi.endpoints, hi.rosters⟩

theorem foldl_sendNetworkConfig (hi : PortOnly h) (conn : Nat) (networkIDs : List String) :
    PortOnly (networkIDs.foldl (fun h n => h.sendNetworkConfig conn n) h) := by
  induction networkIDs generalizing h with
  | nil => exact hi
  | cons n ns ih => exact ih (hi.sendNetworkConfig conn n)

theorem handleJoin (hi : PortOnly h) (conn : Nat) {msg : JoinMessage}
    (hmsg : ∀ ep ∈ msg.endpoints, IsPortOnly ep) : PortOnly (h.handleJoin conn msg) := by
  unfold WSHandler.handleJoin
  apply foldl_sendNetworkConfig
  refine ⟨?_, hi.rosters⟩
  dsimp only
  split
  · exact hi.endpoints.insert conn hmsg
  · exact hi.endpoints

theorem handleLeave (hi : PortOnly h) (conn : Nat) (msg : LeaveMessage) :
    PortOnly (h.handleLeave conn msg) := by
  unfold WSHandler.handleLeave
  split
  · next c hc => exact ⟨hi.endpoints.insert conn (hi.endpoints conn c hc), hi.rosters⟩
  · exact hi

theorem step (hi : PortOnly h) {e : WSEvent} (he : e.JoinsPortOnly) : PortOnly (h.step e) := by
  cases e with
  | connect nodeAddr publicKey =>
      exact ⟨hi.endpoints.insert _ (by simp), hi.rosters⟩
  | message conn m =>
      simp only [WSHandler.step]
      split
      · cases m with
        | join msg => exact hi.handleJoin conn he
        | status => exact hi
        | leave msg => exact hi.handleLeave conn msg
      · exact hi
  | exit conn =>
      simp only [WSHandler.step, WSHandler.exit]
      split
      · split <;> exact ⟨hi.endpoints, hi.rosters⟩
      · exact hi

theorem run (hi : PortOnly h) {events : List WSEvent} (he : ∀ e ∈ events, e.JoinsPortOnly) :
    PortOnly (h.run events) := by
  induction events generalizing h with
  | nil => exact hi
  | cons e es ih =>
      exact ih (hi.step (he e (List.mem_cons_self _ _)))
        fun e' h' => he e' (List.mem_cons_of_mem _ h')

end PortOnly

end WSHandler

end ZeroGo.Controller
