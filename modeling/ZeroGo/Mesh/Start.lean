import ZeroGo.Mesh
import ZeroGo.Agent.ControllerClient

/-!
The static mode of `Agent.Start` builds the mesh that the data-plane results assume. Each of
`n` agents is configured with one PSK and, as static peers, the hex public key and the address
of every other one; start-up adds each such peer at its endpoint and installs the cipher of
`DeriveKeysFromPSK`. The two sides of a pair order their keys alike and derive the same two
keys in swapped roles, so every agent holds every other one as a connected peer, sending
under the key that peer receives under: a `MeshMember`.
-/

namespace ZeroGo

open Vl1 Vl2

variable (P : Primitives) (lookupHost : String → Option (List UInt8))

section Start

variable {n : Nat} (pub : Fin n → Bytes32) (host : Fin n → String) (ep : Fin n → UDPAddr)
  (psk : Bytes32)

/-- The static-peer entry for member `k`: its public key in hex and its address. -/
def staticPeerOf (k : Fin n) : PeerEndpoint := ⟨hexEncodeToString (pub k).bytes, host k⟩

/-- Agent `j`'s record of member `k` after start-up at `now`: connected at `k`'s endpoint
with the fresh cipher of the PSK, and just greeted. -/
def startRecord (j k : Fin n) (now : Int) : Peer :=
  ⟨addressFromPublicKey P (pub k).bytes, pub k, .connected, some (ep k),
    some (NoiseCipher.new (deriveKeysFromPSK P psk (pub j) (pub k))), now, now⟩

/-- The table of agent `j` after it added the static peers `l`: exactly the start-up records
of the members whose entries `l` lists. -/
structure StartTable (j : Fin n) (now : Int) (l : List PeerEndpoint) (pm : PeerManager) : Prop where
  listed : ∀ x p, pm.lookup x = some p →
    ∃ k, staticPeerOf pub host k ∈ l ∧ x = addressFromPublicKey P (pub k).bytes ∧
      p = startRecord P pub ep psk j k now
  added : ∀ k, staticPeerOf pub host k ∈ l →
    pm.lookup (addressFromPublicKey P (pub k).bytes) = some (startRecord P pub ep psk j k now)

variable {pub host ep psk}

theorem lookup_addStaticPeer {a : Agent} {j : Fin n} (hpub : a.publicKey = pub j)
    (hpsk : a.config.psk = psk) {k : Fin n}
    (hres : resolveUDPAddr lookupHost (host k) = .ok (ep k)) {now : Int}
    (hpre : a.peers.lookup (addressFromPublicKey P (pub k).bytes) = none ∨
      a.peers.lookup (addressFromPublicKey P (pub k).bytes) = some (startRecord P pub ep psk j k now))
    (x : Address) :
    (Agent.addStaticPeer P lookupHost a (staticPeerOf pub host k) now).peers.lookup x =
      if x = addressFromPublicKey P (pub k).bytes then some (startRecord P pub ep psk j k now)
      else a.peers.lookup x := by
  have hq : ∃ q, (a.peers.addPeer (addressFromPublicKey P (pub k).bytes) (pub k)
      (some (ep k))).lookup (addressFromPublicKey P (pub k).bytes) = some q ∧
      q.address = addressFromPublicKey P (pub k).bytes ∧ q.publicKey = pub k ∧
      q.endpoint = some (ep k) := by
    rw [PeerManager.lookup_addPeer, if_pos rfl]
    rcases hpre with h | h <;> rw [h]
    exacts [⟨_, rfl, rfl, rfl, rfl⟩, ⟨_, rfl, rfl, rfl, rfl⟩]
  obtain ⟨q, hlq, hqa, hqk, hqe⟩ := hq
  have hstep : Agent.addStaticPeer P lookupHost a (staticPeerOf pub host k) now =
      Agent.initiateHandshake P (a.setPeers (a.peers.addPeer (addressFromPublicKey P (pub k).bytes)
        (pub k) (some (ep k)))) (addressFromPublicKey P (pub k).bytes) now := by
    simp only [Agent.addStaticPeer, staticPeerOf, hres, hexDecodeString_hexEncodeToString,
      FixedBytes.ofList_self]
  rw [hstep, Agent.initiateHandshake, Agent.setPeers_peers, hlq]
  dsimp only
  rw [Agent.sendHello_peers (p := q.setCipher _ now) (e := ep k)
    (by rw [Agent.setPeers_peers, PeerManager.lookup_modify, if_pos rfl, hlq]; rfl) hqe,
    Agent.setPeers_peers, PeerManager.lookup_modify, PeerManager.lookup_modify]
  split
  · next hx =>
      obtain ⟨qa, qk, qs, qe, qc, ql, qt⟩ := q
      cases hqa; cases hqk; cases hqe
      rw [if_pos rfl, hlq]
      simp only [Option.map_some', Agent.freshCipher, Agent.setPeers_config, hpsk,
        Agent.setPeers_publicKey, hpub, Peer.setCipher]
      rfl
  · next hx => rw [PeerManager.lookup_modify, if_neg hx, PeerManager.lookup_addPeer, if_neg hx]

section Injective

variable (hinj : Function.Injective fun k => addressFromPublicKey P (pub k).bytes)
include hinj

theorem staticPeerOf_inj {k k' : Fin n} (h : staticPeerOf pub host k = staticPeerOf pub host k') :
    k = k' := by
  have hk := congrArg (fun sp => hexDecodeString sp.publicKey) h
  simp only [staticPeerOf, hexDecodeString_hexEncodeToString, Option.some.injEq] at hk
  exact hinj (by simp only [hk])

theorem StartTable.addStaticPeer {j : Fin n} {now : Int} {l : List PeerEndpoint} {a : Agent}
    (ht : StartTable P pub host ep psk j now l a.peers) (hpub : a.publicKey = pub j)
    (hpsk : a.config.psk = psk) {k : Fin n}
    (hres : resolveUDPAddr lookupHost (host k) = .ok (ep k)) :
    StartTable P pub host ep psk j now (l ++ [staticPeerOf pub host k])
      (Agent.addStaticPeer P lookupHost a (staticPeerOf pub host k) now).peers := by
  have hpre : a.peers.lookup (addressFromPublicKey P (pub k).bytes) = none ∨
      a.peers.lookup (addressFromPublicKey P (pub k).bytes) = some (startRecord P pub ep psk j k now) := by
    cases h : a.peers.lookup (addressFromPublicKey P (pub k).bytes) with
    | none => exact .inl rfl
    | some p =>
        obtain ⟨k', -, hx, rfl⟩ := ht.listed _ p h
        obtain rfl := hinj hx
        exact .inr rfl
  have hl := lookup_addStaticPeer P lookupHost hpub hpsk hres hpre
  constructor
  · intro x p hp
    rw [hl] at hp
    split at hp
    · next hx => exact ⟨k, List.mem_append_right _ (List.mem_singleton_self _), hx,
        (Option.some_inj.mp hp).symm⟩
    · obtain ⟨k', hk', hx, rfl⟩ := ht.listed x p hp
      exact ⟨k', List.mem_append_left _ hk', hx, rfl⟩
  · intro k' hk'
    rw [hl]
    split
    · next hx => rw [hinj hx]
    · rcases List.mem_append.mp hk' with hk' | hk'
      · exact ht.added k' hk'
      · next hx => exact absurd (by rw [staticPeerOf_inj P hinj (List.mem_singleton.mp hk')]) hx

theorem StartTable.foldl (hres : ∀ k, resolveUDPAddr lookupHost (host k) = .ok (ep k))
    {j : Fin n} {now : Int} :
    ∀ (l₂ l₁ : List PeerEndpoint) (a : Agent), StartTable P pub host ep psk j now l₁ a.peers →
      a.publicKey = pub j → a.config.psk = psk → (∀ sp ∈ l₂, ∃ k, sp = staticPeerOf pub host k) →
      StartTable P pub host ep psk j now (l₁ ++ l₂)
        (l₂.foldl (fun a sp => Agent.addStaticPeer P lookupHost a sp now) a).peers
  | [], l₁, a, ht, _, _, _ => by simpa using ht
  | sp :: l₂, l₁, a, ht, hpub, hpsk, hl => by
      obtain ⟨k, rfl⟩ := hl sp (List.mem_cons_self _ _)
      obtain ⟨hc, hk, -, -⟩ := Agent.addStaticPeer_frame P lookupHost a (staticPeerOf pub host k) now
      have := StartTable.foldl hres l₂ _ _ (ht.addStaticPeer P lookupHost hinj hpub hpsk (hres k))
        (hk.trans hpub) (by rw [hc, hpsk]) fun sp h => hl sp (List.mem_cons_of_mem _ h)
      simpa using this

end Injective

/-- Agents started in static mode, each configured with one PSK and with the public key and
address of every other one as its static peers, form the full mesh: each holds every other
one as a connected peer at its endpoint, sending under the key of `DeriveKeysFromPSK` that the
other receives under, and its switch and ARP proxy start empty. -/
theorem start_forms_mesh (hinj : Function.Injective fun k => addressFromPublicKey P (pub k).bytes)
    (hres : ∀ k, resolveUDPAddr lookupHost (host k) = .ok (ep k)) (config : Fin n → Config)
    (hpsk : ∀ j, (config j).psk = psk)
    (hsp : ∀ j, ∀ sp ∈ (config j).staticPeers, ∃ k, k ≠ j ∧ sp = staticPeerOf pub host k)
    (hall : ∀ j k, k ≠ j → staticPeerOf pub host k ∈ (config j).staticPeers)
    (port : Fin n → Nat) (now : Int) (j : Fin n) :
    MeshMember (fun k => addressFromPublicKey P (pub k).bytes) ep
        (fun i k => (deriveKeysFromPSK P psk (pub i) (pub k)).1) j
        (Agent.start P lookupHost (config j) (pub j) (port j) .static now) ∧
      (Agent.start P lookupHost (config j) (pub j) (port j) .static now).network =
        some (Network.new (config j).networkID) := by
  let a₀ : Agent := ⟨config j, pub j, port j, ∅, some (Network.new (config j).networkID), true,
    [], [], [], []⟩
  have h₀ : StartTable P pub host ep psk j now [] a₀.peers :=
    ⟨fun x p h => by simp [a₀] at h, fun k h => absurd h (List.not_mem_nil _)⟩
  have ht := StartTable.foldl P lookupHost hinj hres (config j).staticPeers [] a₀ h₀ rfl (hpsk j)
    fun sp h => (hsp j sp h).imp fun _ hk => hk.2
  obtain ⟨-, -, htap, hnet, -⟩ := Agent.foldl_addStaticPeer_frame P lookupHost now (config j).staticPeers a₀
  refine ⟨⟨fun k hkj => ?_, fun s hs => ?_, htap⟩, hnet⟩
  · have hne : pub j ≠ pub k := fun h => hkj (hinj (by simp only [h])).symm
    refine ⟨_, ht.added k (hall j k hkj), rfl, rfl, rfl, _, rfl, rfl, ?_⟩
    rw [deriveKeysFromPSK_swap P psk hne]
    rfl
  · obtain ⟨k, hk, hx, -⟩ := ht.listed s.1 s.2 (AList.mem_lookup_iff.mpr hs)
    obtain ⟨k', hk'j, hk'⟩ := hsp j _ hk
    obtain rfl := staticPeerOf_inj P hinj hk'
    exact ⟨k, hk'j, hx⟩

end Start

/-- Two agents at `10.0.0.1:9993` and `10.0.0.2:9993`, each listing the other as its static
peer under one PSK, form the mesh once started. -/
theorem two_static_agents_form_mesh :
    let P := NoiseCipher.transparentPrimitives
    let pub : Fin 2 → Bytes32 := fun k => FixedBytes.ofList 32 [k.val.toUInt8 + 1]
    let host : Fin 2 → String := fun k => if k = 0 then "10.0.0.1:9993" else "10.0.0.2:9993"
    let ep : Fin 2 → UDPAddr := fun k => ⟨[10, 0, 0, k.val.toUInt8 + 1], 9993⟩
    let psk : Bytes32 := FixedBytes.ofList 32 [7]
    let config : Fin 2 → Config := fun j =>
      ⟨psk, 7, 0, [staticPeerOf pub host (if j = 0 then 1 else 0)], []⟩
    ∀ j, MeshMember (fun k => addressFromPublicKey P (pub k).bytes) ep
      (fun i k => (deriveKeysFromPSK P psk (pub i) (pub k)).1) j
      (Agent.start P (fun _ => none) (config j) (pub j) 9993 .static 0) := by
  intro P pub host ep psk config
  have hres : ∀ k, resolveUDPAddr (fun _ => none) (host k) = .ok (ep k) :=
    Fin.forall_fin_two.mpr ⟨rfl, rfl⟩
  exact (start_forms_mesh P (fun _ => none) (by decide) hres config
    (fun _ => rfl)
    (Fin.forall_fin_two.mpr ⟨fun _ h => ⟨1, by decide, List.mem_singleton.mp h⟩,
      fun _ h => ⟨0, by decide, List.mem_singleton.mp h⟩⟩)
    (Fin.forall_fin_two.mpr ⟨Fin.forall_fin_two.mpr ⟨fun h => absurd rfl h,
      fun _ => List.mem_singleton_self _⟩, Fin.forall_fin_two.mpr ⟨fun _ => List.mem_singleton_self _,
      fun h => absurd rfl h⟩⟩)
    (fun _ => 9993) 0 · |>.1)

end ZeroGo
