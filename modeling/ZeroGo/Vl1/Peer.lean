import ZeroGo.Vl1.Cipher
import ZeroGo.GoLib

/-!
Peers and the peer table of `vl1/peer.go`. A `Peer` is owned by the table and updated
in place by the agent; here an update writes the modified record back under its
address. `GetPeerByEndpoint` returns the first peer, in the iteration order of the
table, whose endpoint matches.
-/

namespace ZeroGo.Vl1

inductive PeerState where
  | new
  | handshake
  | connected
  | dead
  deriving DecidableEq, Repr

/-- `KeepaliveInterval`, 15 s in nanoseconds. -/
def KeepaliveInterval : Int := 15 * 1000000000

/-- `PeerTimeout`, 60 s in nanoseconds. -/
def PeerTimeout : Int := 60 * 1000000000

structure Peer where
  address : Address
  publicKey : Bytes32
  state : PeerState
  endpoint : Option UDPAddr
  cipher : Option NoiseCipher
  lastSeen : Int
  lastSend : Int

namespace Peer

/-- `NewPeer`; its timestamps are Go's zero `time.Time`, read here as `0`. -/
def new (addr : Address) (pubKey : Bytes32) (endpoint : Option UDPAddr) : Peer :=
  ⟨addr, pubKey, .new, endpoint, none, 0, 0⟩

def setCipher (p : Peer) (c : NoiseCipher) (now : Int) : Peer :=
  { p with cipher := some c, state := .connected, lastSeen := now }

def isConnected (p : Peer) : Bool := p.state == .connected && p.cipher.isSome

def isAlive (p : Peer) (now : Int) : Bool := decide (now - p.lastSeen < PeerTimeout)

def touch (p : Peer) (now : Int) : Peer := { p with lastSeen := now }

def needsKeepalive (p : Peer) (now : Int) : Bool :=
  p.state == .connected && decide (KeepaliveInterval < now - p.lastSend)

/-- `Encrypt`: the peer with its cipher's send counter advanced, and the ciphertext. -/
def encrypt (P : Primitives) (p : Peer) (plaintext : List UInt8) : Except String (Peer × List UInt8) :=
  match p.cipher with
  | none => .error ("peer " ++ p.address.toHex ++ ": no cipher (not connected)")
  | some c =>
      let r := c.encrypt P plaintext
      .ok ({ p with cipher := some r.1 }, r.2)

/-- `Decrypt`: the peer with its cipher's receive mark updated, and the plaintext. -/
def decrypt (P : Primitives) (p : Peer) (data : List UInt8) : Except String (Peer × List UInt8) :=
  match p.cipher with
  | none => .error ("peer " ++ p.address.toHex ++ ": no cipher (not connected)")
  | some c =>
      match c.decrypt P data with
      | .ok r => .ok ({ p with cipher := some r.1 }, r.2)
      | .error e => .error e

@[simp] theorem setCipher_address (p : Peer) (c : NoiseCipher) (now : Int) :
    (p.setCipher c now).address = p.address := rfl
@[simp] theorem setCipher_publicKey (p : Peer) (c : NoiseCipher) (now : Int) :
    (p.setCipher c now).publicKey = p.publicKey := rfl
@[simp] theorem setCipher_endpoint (p : Peer) (c : NoiseCipher) (now : Int) :
    (p.setCipher c now).endpoint = p.endpoint := rfl
@[simp] theorem setCipher_cipher (p : Peer) (c : NoiseCipher) (now : Int) :
    (p.setCipher c now).cipher = some c := rfl
@[simp] theorem isConnected_setCipher (p : Peer) (c : NoiseCipher) (now : Int) :
    (p.setCipher c now).isConnected := rfl
@[simp] theorem touch_address (p : Peer) (now : Int) : (p.touch now).address = p.address := rfl
@[simp] theorem touch_publicKey (p : Peer) (now : Int) :
    (p.touch now).publicKey = p.publicKey := rfl
@[simp] theorem touch_endpoint (p : Peer) (now : Int) : (p.touch now).endpoint = p.endpoint := rfl
@[simp] theorem touch_cipher (p : Peer) (now : Int) : (p.touch now).cipher = p.cipher := rfl
@[simp] theorem isConnected_touch (p : Peer) (now : Int) :
    (p.touch now).isConnected = p.isConnected := rfl

theorem encrypt_ok {P : Primitives} {p p' : Peer} {m out : List UInt8}
    (h : p.encrypt P m = .ok (p', out)) :
    ∃ c, p.cipher = some c ∧ p' = { p with cipher := some (c.encrypt P m).1 } ∧
      out = (c.encrypt P m).2 := by
  unfold encrypt at h
  split at h
  · cases h
  · next c hc => cases h; exact ⟨c, hc, rfl, rfl⟩

theorem decrypt_ok {P : Primitives} {p p' : Peer} {data out : List UInt8}
    (h : p.decrypt P data = .ok (p', out)) :
    ∃ c c', p.cipher = some c ∧ c.decrypt P data = .ok (c', out) ∧
      p' = { p with cipher := some c' } := by
  unfold decrypt at h
  split at h
  · cases h
  · next c hc =>
      split at h
      · next r hr => cases h; exact ⟨c, r.1, hc, hr, rfl⟩
      · cases h

end Peer

/-- Whether a peer's endpoint is the UDP address a datagram came from, as
`GetPeerByEndpoint` compares them. -/
def Peer.atEndpoint (p : Peer) (addr : UDPAddr) : Bool :=
  match p.endpoint with
  | some e => ipEqual e.ip addr.ip && e.port == addr.port
  | none => false

/-- The `peers` map of a `PeerManager`. -/
abbrev PeerManager := GoMap Address Peer

namespace PeerManager

/-- `AddPeer`: refresh a known peer's endpoint (unless the new one is nil) or add a new
peer. -/
def addPeer (pm : PeerManager) (addr : Address) (pubKey : Bytes32) (endpoint : Option UDPAddr) :
    PeerManager :=
  match pm.lookup addr with
  | some p =>
      match endpoint with
      | some e => pm.insert addr { p with endpoint := some e }
      | none => pm
  | none => pm.insert addr (Peer.new addr pubKey endpoint)

def getPeer (pm : PeerManager) (addr : Address) : Option Peer := pm.lookup addr

/-- `GetPeerByEndpoint`: the first peer in iteration order at that endpoint. -/
def getPeerByEndpoint (pm : PeerManager) (addr : UDPAddr) : Option Peer :=
  (pm.entries.find? fun s => s.2.atEndpoint addr).map (·.2)

def removePeer (pm : PeerManager) (addr : Address) : PeerManager := pm.erase addr

/-- `ConnectedPeers`, in iteration order. -/
def connectedPeers (pm : PeerManager) : List Peer :=
  (pm.entries.map (·.2)).filter Peer.isConnected

/-- `AllPeers`, in iteration order. -/
def allPeers (pm : PeerManager) : List Peer := pm.entries.map (·.2)

/-- `CleanDead`: drop the peers that are dead and not alive; the number dropped. -/
def cleanDead (pm : PeerManager) (now : Int) : PeerManager × Nat :=
  let kept := pm.filter fun _ p => !(!p.isAlive now && p.state == .dead)
  (kept, pm.size - kept.size)

/-- Write back a modified record of the peer at `addr`, if there is one. -/
def modify (pm : PeerManager) (addr : Address) (f : Peer → Peer) : PeerManager :=
  match pm.lookup addr with
  | some p => pm.insert addr (f p)
  | none => pm

theorem lookup_modify (pm : PeerManager) (addr k : Address) (f : Peer → Peer) :
    (pm.modify addr f).lookup k = if k = addr then (pm.lookup addr).map f else pm.lookup k := by
  unfold modify
  split
  · next p hp =>
      by_cases hk : k = addr
      · subst hk; simp [AList.lookup_insert, hp]
      · simp [AList.lookup_insert_ne hk, hk]
  · next hp =>
      by_cases hk : k = addr
      · subst hk; simp [hp]
      · simp [hk]

theorem lookup_addPeer (pm : PeerManager) (addr k : Address) (pubKey : Bytes32)
    (endpoint : Option UDPAddr) :
    (pm.addPeer addr pubKey endpoint).lookup k =
      if k = addr then
        match pm.lookup addr with
        | some p => some { p with endpoint := endpoint.orElse fun _ => p.endpoint }
        | none => some (Peer.new addr pubKey endpoint)
      else pm.lookup k := by
  unfold addPeer
  by_cases hk : k = addr
  · subst hk
    split
    · next p hp => cases endpoint <;> simp [AList.lookup_insert, hp, Option.orElse]
    · next hp => simp [AList.lookup_insert, hp]
  · split
    · split <;> simp [AList.lookup_insert_ne hk, hk]
    · simp [AList.lookup_insert_ne hk, hk]

theorem getPeerByEndpoint_of_unique {pm : PeerManager} {src : UDPAddr} {k : Address} {p : Peer}
    (hk : pm.lookup k = some p) (hat : p.atEndpoint src = true)
    (huniq : ∀ k' p', pm.lookup k' = some p' → p'.atEndpoint src = true → k' = k) :
    pm.getPeerByEndpoint src = some p := by
  unfold getPeerByEndpoint
  cases h : pm.entries.find? (fun s => s.2.atEndpoint src) with
  | none =>
      have hnot := List.find?_eq_none.mp h ⟨k, p⟩ (AList.mem_lookup_iff.mp hk)
      simp [hat] at hnot
  | some s =>
      have hs : pm.lookup s.1 = some s.2 := AList.mem_lookup_iff.mpr (List.mem_of_find?_eq_some h)
      rw [huniq s.1 s.2 hs (by simpa using List.find?_some h), hk] at hs
      rw [Option.map_some', ← hs]

/-- No two distinct peers of the table have equal endpoints, as `GetPeerByEndpoint`
compares them. -/
def EndpointsDistinct (pm : PeerManager) : Prop :=
  ∀ s₁ ∈ pm.entries, ∀ s₂ ∈ pm.entries, s₁.1 ≠ s₂.1 → ∀ e ∈ s₁.2.endpoint, s₂.2.atEndpoint e = false

instance (pm : PeerManager) : Decidable (EndpointsDistinct pm) := by
  unfold EndpointsDistinct
  infer_instance

theorem exists_perm_cons {pm : PeerManager} {s : Sigma fun _ : Address => Peer}
    (hs : s ∈ pm.entries) : ∃ pm' : PeerManager, pm'.entries.Perm pm.entries ∧
      ∃ rest, pm'.entries = s :: rest := by
  obtain ⟨l₁, l₂, hl⟩ := List.append_of_mem hs
  have hperm : (s :: (l₁ ++ l₂)).Perm pm.entries := hl ▸ List.perm_middle.symm
  exact ⟨⟨s :: (l₁ ++ l₂), (List.perm_nodupKeys hperm).mpr pm.nodupKeys⟩, hperm, _, rfl⟩

/-- Over all iteration orders of a table, `GetPeerByEndpoint` can return exactly the peers
whose endpoint matches: its answer is fixed only for an endpoint at most one peer holds. -/
theorem getPeerByEndpoint_orders (pm : PeerManager) (src : UDPAddr) (p : Peer) :
    (∃ pm' : PeerManager, pm'.entries.Perm pm.entries ∧ pm'.getPeerByEndpoint src = some p) ↔
      ∃ k, pm.lookup k = some p ∧ p.atEndpoint src = true := by
  constructor
  · rintro ⟨pm', hperm, h⟩
    obtain ⟨s, hs, rfl⟩ := Option.map_eq_some'.mp h
    exact ⟨s.1, AList.mem_lookup_iff.mpr (hperm.subset (List.mem_of_find?_eq_some hs)),
      by simpa using List.find?_some hs⟩
  · rintro ⟨k, hk, hat⟩
    obtain ⟨pm', hperm, rest, hrest⟩ := exists_perm_cons (AList.mem_lookup_iff.mp hk)
    refine ⟨pm', hperm, ?_⟩
    rw [getPeerByEndpoint, hrest,
      List.find?_cons_of_pos (p := fun s : Sigma fun _ : Address => Peer => s.2.atEndpoint src)
        rest hat]
    rfl

end PeerManager

end ZeroGo.Vl1
