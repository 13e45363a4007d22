import ZeroGo.Vl2.Ethernet

/-!
The learning switch of `vl2/switch.go`. A call of `HandleLocalFrame` or
`HandleRemoteFrame` learns the frame's source MAC and then makes at most one call on
the `PeerSender` capability, which is returned here as data for the agent to carry
out; `HandleRemoteFrame` also returns the frame to inject into the tap, if any.
Clock readings (`time.Now()`) are explicit arguments.

The oldest-entry scan is shared with the ARP cache, which runs the same loop.
-/

namespace ZeroGo.Vl2

/-! ### The oldest-entry scan of `evictOldest` -/

section Evict

variable {K V : Type} (lastSeen : V → Int)

/-- One iteration of the scan: the first entry seen, or a strictly older one. -/
def oldestStep (acc : Option (Σ _ : K, V)) (e : Σ _ : K, V) : Option (Σ _ : K, V) :=
  match acc with
  | none => some e
  | some o => if lastSeen e.2 < lastSeen o.2 then some e else some o

theorem foldl_oldestStep_some (l : List (Σ _ : K, V)) (a : Σ _ : K, V) :
    ∃ r, l.foldl (oldestStep lastSeen) (some a) = some r ∧ (r = a ∨ r ∈ l) ∧
      lastSeen r.2 ≤ lastSeen a.2 ∧ ∀ e ∈ l, lastSeen r.2 ≤ lastSeen e.2 := by
  induction l generalizing a with
  | nil => exact ⟨a, rfl, .inl rfl, le_refl _, by simp⟩
  | cons e l ih =>
      by_cases hlt : lastSeen e.2 < lastSeen a.2
      · obtain ⟨r, hr, hmem, hle, hall⟩ := ih e
        refine ⟨r, by simp [oldestStep, hlt, hr], ?_, by omega, ?_⟩
        · rcases hmem with rfl | hm <;> simp_all
        · simp only [List.mem_cons, forall_eq_or_imp]; exact ⟨hle, hall⟩
      · obtain ⟨r, hr, hmem, hle, hall⟩ := ih a
        refine ⟨r, by simp [oldestStep, hlt, hr], ?_, hle, ?_⟩
        · rcases hmem with rfl | hm <;> simp_all
        · simp only [List.mem_cons, forall_eq_or_imp]; exact ⟨by omega, hall⟩

theorem foldl_oldestStep_of_ne_nil {l : List (Σ _ : K, V)} (hl : l ≠ []) :
    ∃ r, l.foldl (oldestStep lastSeen) none = some r ∧ r ∈ l ∧
      ∀ e ∈ l, lastSeen r.2 ≤ lastSeen e.2 := by
  obtain ⟨a, l, rfl⟩ := List.exists_cons_of_ne_nil hl
  obtain ⟨r, hr, hmem, hle, hall⟩ := foldl_oldestStep_some lastSeen l a
  refine ⟨r, hr, ?_, ?_⟩
  · rcases hmem with rfl | hm <;> simp_all
  · simp only [List.mem_cons, forall_eq_or_imp]; exact ⟨hle, hall⟩

variable [DecidableEq K]

/-- `evictOldest`: delete the entry the scan ends on, if the map is non-empty. -/
def evictOldest (m : GoMap K V) : GoMap K V :=
  match m.entries.foldl (oldestStep lastSeen) none with
  | none => m
  | some o => m.erase o.1

theorem size_evictOldest {m : GoMap K V} (h : 0 < m.size) :
    GoMap.size (evictOldest lastSeen m) + 1 = m.size := by
  have hne : m.entries ≠ [] := List.ne_nil_of_length_pos h
  obtain ⟨r, hr, hmem, -⟩ := foldl_oldestStep_of_ne_nil lastSeen hne
  simp only [evictOldest, hr]
  exact GoMap.size_erase_of_mem (AList.mem_keys.mpr (List.mem_keys_of_mem hmem))

theorem size_evictOldest_le (m : GoMap K V) : GoMap.size (evictOldest lastSeen m) ≤ m.size := by
  rcases Nat.eq_zero_or_pos m.size with h | h
  · unfold evictOldest
    split
    · exact le_refl _
    · simp_all [GoMap.size, List.length_eq_zero]
  · have := size_evictOldest lastSeen h; omega

theorem evictOldest_eq_erase {m : GoMap K V} (h : m.entries ≠ []) :
    ∃ o ∈ m.entries, (∀ e ∈ m.entries, lastSeen o.2 ≤ lastSeen e.2) ∧
      evictOldest lastSeen m = m.erase o.1 := by
  obtain ⟨r, hr, hmem, hle⟩ := foldl_oldestStep_of_ne_nil lastSeen h
  exact ⟨r, hmem, hle, by simp only [evictOldest, hr]⟩

theorem lookup_evictOldest (m : GoMap K V) (k : K) :
    (evictOldest lastSeen m).lookup k = m.lookup k ∨ (evictOldest lastSeen m).lookup k = none := by
  unfold evictOldest
  split
  · exact .inl rfl
  · next o _ =>
      by_cases hk : k = o.1
      · exact .inr (hk ▸ AList.lookup_erase _ _)
      · exact .inl (AList.lookup_erase_ne hk)

end Evict

/-! ### The MAC table -/

/-- `MACTableExpiry`, five minutes in nanoseconds. -/
def MACTableExpiry : Int := 5 * 60 * 1000000000

def MACTableMaxSize : Nat := 4096

/-- `MACEntry`: where a MAC was last seen. `peerAddr` is zero for a local entry. -/
structure MACEntry where
  peerAddr : Address
  lastSeen : Int
  isLocal : Bool
  deriving DecidableEq, Repr

abbrev MACTable := GoMap MACKey MACEntry

/-- A call the switch makes on its `PeerSender`. -/
inductive SendCall where
  | sendToPeer (peerAddr : Address) (networkID : UInt32) (frame : List UInt8)
  | broadcastToPeers (networkID : UInt32) (frame : List UInt8) (excludePeer : Address)
  deriving DecidableEq, Repr

structure Switch where
  networkID : UInt32
  macTable : MACTable

namespace Switch

/-- `NewSwitch`. -/
def new (networkID : UInt32) : Switch := ⟨networkID, ∅⟩

/-- `learn`: evict the oldest entry when the table is full, then overwrite the key. -/
def learn (t : MACTable) (mac : List UInt8) (peerAddr : Address) (isLocal : Bool)
    (now : Int) : MACTable :=
  let t := if MACTableMaxSize ≤ t.size then evictOldest MACEntry.lastSeen t else t
  t.insert (macToKey mac) ⟨peerAddr, now, isLocal⟩

/-- The forwarding decision of `HandleLocalFrame` on the table after learning. -/
def localCall (networkID : UInt32) (frame : List UInt8) (parsed : EthernetFrame)
    (t : MACTable) : Option SendCall :=
  if parsed.isBroadcast || parsed.isMulticast then
    some (.broadcastToPeers networkID frame Address.zero)
  else
    match t.lookup (macToKey parsed.dstMAC) with
    | some entry =>
        if !entry.isLocal then some (.sendToPeer entry.peerAddr networkID frame) else none
    | none => some (.broadcastToPeers networkID frame Address.zero)

/-- `HandleLocalFrame`: the updated switch and the one sender call it makes, if any. -/
def handleLocalFrame (sw : Switch) (frame : List UInt8) (now : Int) :
    Except String (Switch × Option SendCall) :=
  match parseEthernetFrame frame with
  | .error e => .error e
  | .ok parsed =>
      let t := learn sw.macTable parsed.srcMAC Address.zero true now
      .ok ({ sw with macTable := t }, localCall sw.networkID frame parsed t)

/-- The forwarding decision of `HandleRemoteFrame` on the table after learning: the
sender call and the frame to inject into the tap. -/
def remoteCall (networkID : UInt32) (peerAddr : Address) (frame : List UInt8)
    (parsed : EthernetFrame) (t : MACTable) : Option SendCall × Option (List UInt8) :=
  if parsed.isBroadcast || parsed.isMulticast then
    (some (.broadcastToPeers networkID frame peerAddr), some frame)
  else
    match t.lookup (macToKey parsed.dstMAC) with
    | some entry =>
        if entry.isLocal then (none, some frame)
        else (some (.sendToPeer entry.peerAddr networkID frame), none)
    | none => (some (.broadcastToPeers networkID frame peerAddr), some frame)

/-- `HandleRemoteFrame`: the updated switch, the sender call it makes, and the frame
to inject into the tap. -/
def handleRemoteFrame (sw : Switch) (peerAddr : Address) (frame : List UInt8) (now : Int) :
    Except String (Switch × Option SendCall × Option (List UInt8)) :=
  match parseEthernetFrame frame with
  | .error e => .error e
  | .ok parsed =>
      let t := learn sw.macTable parsed.srcMAC peerAddr false now
      .ok ({ sw with macTable := t }, remoteCall sw.networkID peerAddr frame parsed t)

def expired (now : Int) (v : MACEntry) : Bool :=
  decide (v.lastSeen < now - MACTableExpiry) && !v.isLocal

/-- `CleanExpired`: the swept switch and the number of entries removed. -/
def cleanExpired (sw : Switch) (now : Int) : Switch × Nat :=
  let t := sw.macTable.filter fun _ v => !expired now v
  ({ sw with macTable := t }, sw.macTable.size - t.size)

/-! ### Spec lemmas -/

theorem size_learn_le {t : MACTable} (ht : t.size ≤ MACTableMaxSize) (mac : List UInt8)
    (peerAddr : Address) (isLocal : Bool) (now : Int) :
    GoMap.size (learn t mac peerAddr isLocal now) ≤ MACTableMaxSize := by
  unfold learn
  dsimp only
  split
  · have := size_evictOldest MACEntry.lastSeen (m := t) (by unfold MACTableMaxSize at *; omega)
    have := GoMap.size_insert_le (macToKey mac) ⟨peerAddr, now, isLocal⟩
      (evictOldest MACEntry.lastSeen t)
    omega
  · have := GoMap.size_insert_le (macToKey mac) ⟨peerAddr, now, isLocal⟩ t
    omega

theorem learn_of_full {t : MACTable} (h : MACTableMaxSize ≤ t.size) (mac : List UInt8)
    (peerAddr : Address) (isLocal : Bool) (now : Int) :
    ∃ o ∈ t.entries, (∀ e ∈ t.entries, o.2.lastSeen ≤ e.2.lastSeen) ∧
      learn t mac peerAddr isLocal now =
        (t.erase o.1).insert (macToKey mac) ⟨peerAddr, now, isLocal⟩ := by
  have hne : t.entries ≠ [] :=
    List.ne_nil_of_length_pos (by unfold MACTableMaxSize GoMap.size at h; omega)
  obtain ⟨o, ho, hle, he⟩ := evictOldest_eq_erase MACEntry.lastSeen hne
  exact ⟨o, ho, hle, by simp only [learn, if_pos h, he]⟩

@[simp] theorem lookup_learn_self (t : MACTable) (mac : List UInt8) (peerAddr : Address)
    (isLocal : Bool) (now : Int) :
    (learn t mac peerAddr isLocal now).lookup (macToKey mac) = some ⟨peerAddr, now, isLocal⟩ :=
  AList.lookup_insert _

theorem lookup_learn_ne (t : MACTable) {mac : List UInt8} {k : MACKey} (hk : k ≠ macToKey mac)
    (peerAddr : Address) (isLocal : Bool) (now : Int) :
    (learn t mac peerAddr isLocal now).lookup k = t.lookup k ∨
      (learn t mac peerAddr isLocal now).lookup k = none := by
  simp only [learn, AList.lookup_insert_ne hk]
  split
  · exact lookup_evictOldest _ _ _
  · exact .inl rfl

theorem handleLocalFrame_ok {sw : Switch} {frame : List UInt8} {now : Int}
    {r : Switch × Option SendCall} (h : sw.handleLocalFrame frame now = .ok r) :
    ∃ parsed, parseEthernetFrame frame = .ok parsed ∧
      r.1 = { sw with macTable := learn sw.macTable parsed.srcMAC Address.zero true now } := by
  unfold handleLocalFrame at h
  split at h
  · cases h
  · next parsed hp => cases h; exact ⟨parsed, hp, rfl⟩

theorem handleRemoteFrame_ok {sw : Switch} {peerAddr : Address} {frame : List UInt8}
    {now : Int} {r : Switch × Option SendCall × Option (List UInt8)}
    (h : sw.handleRemoteFrame peerAddr frame now = .ok r) :
    ∃ parsed, parseEthernetFrame frame = .ok parsed ∧
      r.1 = { sw with macTable := learn sw.macTable parsed.srcMAC peerAddr false now } := by
  unfold handleRemoteFrame at h
  split at h
  · cases h
  · next parsed hp => cases h; exact ⟨parsed, hp, rfl⟩

/-! ### Flooding -/

/-- The switch floods a frame: a broadcast or multicast, or a unicast to a MAC the table
does not hold and that is not the frame's own source, so that learning the source leaves
the destination unknown. -/
def Floods (t : MACTable) (parsed : EthernetFrame) : Prop :=
  (parsed.isBroadcast || parsed.isMulticast) = true ∨
    (t.lookup (macToKey parsed.dstMAC) = none ∧ macToKey parsed.dstMAC ≠ macToKey parsed.srcMAC)

instance (t : MACTable) (parsed : EthernetFrame) : Decidable (Floods t parsed) := by
  unfold Floods
  infer_instance

theorem floods_learn {t : MACTable} {parsed : EthernetFrame} (h : Floods t parsed)
    (peerAddr : Address) (isLocal : Bool) (now : Int) :
    Floods (learn t parsed.srcMAC peerAddr isLocal now) parsed := by
  rcases h with h | ⟨hnone, hne⟩
  · exact .inl h
  · refine .inr ⟨?_, hne⟩
    rcases lookup_learn_ne t hne peerAddr isLocal now with h | h <;> rw [h]
    exact hnone

theorem handleLocalFrame_flood {sw : Switch} {frame : List UInt8} {parsed : EthernetFrame}
    (hp : parseEthernetFrame frame = .ok parsed) (hf : Floods sw.macTable parsed) (now : Int) :
    sw.handleLocalFrame frame now =
      .ok ({ sw with macTable := learn sw.macTable parsed.srcMAC Address.zero true now },
        some (.broadcastToPeers sw.networkID frame Address.zero)) := by
  have hf' := floods_learn hf Address.zero true now
  simp only [handleLocalFrame, hp, localCall]
  rcases hf' with h | ⟨hnone, -⟩
  · rw [if_pos h]
  · split
    · rfl
    · rw [hnone]

theorem handleRemoteFrame_flood {sw : Switch} {peerAddr : Address} {frame : List UInt8}
    {parsed : EthernetFrame} (hp : parseEthernetFrame frame = .ok parsed)
    (hf : Floods sw.macTable parsed) (now : Int) :
    sw.handleRemoteFrame peerAddr frame now =
      .ok ({ sw with macTable := learn sw.macTable parsed.srcMAC peerAddr false now },
        some (.broadcastToPeers sw.networkID frame peerAddr), some frame) := by
  have hf' := floods_learn hf peerAddr false now
  simp only [handleRemoteFrame, hp, remoteCall]
  rcases hf' with h | ⟨hnone, -⟩
  · rw [if_pos h]
  · split
    · rfl
    · rw [hnone]

theorem size_cleanExpired_le (sw : Switch) (now : Int) :
    (sw.cleanExpired now).1.macTable.size ≤ sw.macTable.size :=
  GoMap.size_filter_le _ _

theorem lookup_cleanExpired {sw : Switch} {now : Int} {k : MACKey} {v : MACEntry} :
    (sw.cleanExpired now).1.macTable.lookup k = some v ↔
      sw.macTable.lookup k = some v ∧ expired now v = false := by
  simp only [cleanExpired, GoMap.lookup_filter_iff, Bool.not_eq_true']

theorem cleanExpired_count (sw : Switch) (now : Int) :
    (sw.cleanExpired now).2 = sw.macTable.entries.countP fun e => expired now e.2 := by
  simp only [cleanExpired, GoMap.size_sub_size_filter, Bool.not_not]

/-! ### Runs -/

/-- One call on the switch by the agent's loops. -/
inductive SwitchOp where
  | localFrame (frame : List UInt8) (now : Int)
  | remoteFrame (peerAddr : Address) (frame : List UInt8) (now : Int)
  | cleanExpired (now : Int)

/-- The switch after one call; a frame that fails to parse changes nothing. -/
def apply (sw : Switch) : SwitchOp → Switch
  | .localFrame frame now =>
      match sw.handleLocalFrame frame now with
      | .ok r => r.1
      | .error _ => sw
  | .remoteFrame peerAddr frame now =>
      match sw.handleRemoteFrame peerAddr frame now with
      | .ok r => r.1
      | .error _ => sw
  | .cleanExpired now => (sw.cleanExpired now).1

def run (sw : Switch) (ops : List SwitchOp) : Switch := ops.foldl apply sw

/-- An invariant that every allowed call preserves holds after every run of allowed
calls. -/
theorem run_invariant (I : Switch → Prop) (allowed : SwitchOp → Prop)
    (hstep : ∀ sw op, allowed op → I sw → I (sw.apply op)) {sw : Switch}
    {ops : List SwitchOp} (hops : ∀ op ∈ ops, allowed op) (hsw : I sw) : I (sw.run ops) := by
  induction ops generalizing sw with
  | nil => exact hsw
  | cons op ops ih =>
      exact ih (fun o ho => hops o (List.mem_cons_of_mem _ ho))
        (hstep sw op (hops op (List.mem_cons_self _ _)) hsw)

theorem size_apply_le {sw : Switch} (hsw : sw.macTable.size ≤ MACTableMaxSize) (op : SwitchOp) :
    (sw.apply op).macTable.size ≤ MACTableMaxSize := by
  cases op with
  | localFrame frame now =>
      simp only [apply]
      split
      · next r h =>
          obtain ⟨parsed, -, hr⟩ := handleLocalFrame_ok h
          rw [hr]; exact size_learn_le hsw _ _ _ _
      · exact hsw
  | remoteFrame peerAddr frame now =>
      simp only [apply]
      split
      · next r h =>
          obtain ⟨parsed, -, hr⟩ := handleRemoteFrame_ok h
          rw [hr]; exact size_learn_le hsw _ _ _ _
      · exact hsw
  | cleanExpired now => exact (size_cleanExpired_le sw now).trans hsw

/-! ### Local entries -/

/-- A call that learns `k` from a remote peer: a remote frame whose source MAC has key
`k`. -/
def SwitchOp.learnsRemote (k : MACKey) : SwitchOp → Prop
  | .remoteFrame _ frame _ => macToKey ((frame.drop 6).take 6) = k
  | _ => False

/-- The table has no entry for `k`, or a local one. -/
def LocalOrAbsent (k : MACKey) (sw : Switch) : Prop :=
  ∀ e, sw.macTable.lookup k = some e → e.isLocal

theorem localOrAbsent_learn {k : MACKey} {t : MACTable} (ht : ∀ e, t.lookup k = some e → e.isLocal)
    (mac : List UInt8) (peerAddr : Address) (isLocal : Bool) (now : Int)
    (hk : k = macToKey mac → isLocal) :
    ∀ e, (learn t mac peerAddr isLocal now).lookup k = some e → e.isLocal := by
  intro e he
  by_cases hkm : k = macToKey mac
  · subst hkm
    rw [lookup_learn_self] at he
    cases he
    exact hk rfl
  · rcases lookup_learn_ne t hkm peerAddr isLocal now with h | h <;> rw [h] at he
    · exact ht e he
    · cases he

theorem localOrAbsent_apply {k : MACKey} {sw : Switch} (op : SwitchOp) (hop : ¬op.learnsRemote k)
    (h : LocalOrAbsent k sw) : LocalOrAbsent k (sw.apply op) := by
  cases op with
  | localFrame frame now =>
      simp only [apply]
      split
      · next r hr =>
          obtain ⟨parsed, -, hr⟩ := handleLocalFrame_ok hr
          rw [LocalOrAbsent, hr]
          exact localOrAbsent_learn h _ _ _ _ (fun _ => rfl)
      · exact h
  | remoteFrame peerAddr frame now =>
      simp only [apply]
      split
      · next r hr =>
          obtain ⟨parsed, hp, hr⟩ := handleRemoteFrame_ok hr
          have hsrc : parsed.srcMAC = (frame.drop 6).take 6 := by
            unfold parseEthernetFrame at hp; split at hp <;> cases hp; rfl
          rw [LocalOrAbsent, hr]
          refine localOrAbsent_learn h _ _ _ _ fun hk => absurd ?_ hop
          simp only [SwitchOp.learnsRemote, ← hsrc, hk]
      · exact h
  | cleanExpired now =>
      intro e he
      exact h e (GoMap.lookup_of_lookup_filter he).1

/-- A remote frame's source MAC is remapped to the sending peer whatever its entry was,
a local one included; short of such a frame, an entry that is local or absent stays
local or absent over every run. -/
theorem remote_learn_overrides_local :
    (∀ (sw : Switch) (peerAddr : Address) (frame : List UInt8) (now : Int),
      MinFrameSize ≤ frame.length →
      (sw.apply (.remoteFrame peerAddr frame now)).macTable.lookup
        (macToKey ((frame.drop 6).take 6)) = some ⟨peerAddr, now, false⟩) ∧
    (∀ (sw : Switch) (ops : List SwitchOp) (k : MACKey), LocalOrAbsent k sw →
      (∀ op ∈ ops, ¬op.learnsRemote k) → LocalOrAbsent k (sw.run ops)) := by
  refine ⟨fun sw peerAddr frame now hlen => ?_, fun sw ops k h hops =>
    run_invariant (LocalOrAbsent k) (fun op => ¬op.learnsRemote k)
      (fun _ op hop hsw => localOrAbsent_apply op hop hsw) hops h⟩
  obtain ⟨parsed, hp, hsrc, -⟩ := parseEthernetFrame_of_le hlen
  simp [apply, handleRemoteFrame, hp, hsrc]

/-- From a fresh switch, a broadcast read from the tap with source `02:00:00:00:00:01`
marks that MAC local; the same frame reflected by peer `01:00:00:00:00` remaps it. -/
theorem local_entry_turned_remote :
    ¬∀ (networkID : UInt32) (ops : List SwitchOp) (op : SwitchOp) (k : MACKey)
      (e e' : MACEntry),
      ((Switch.new networkID).run ops).macTable.lookup k = some e → e.isLocal →
      (((Switch.new networkID).run ops).apply op).macTable.lookup k = some e' → e'.isLocal := by
  intro h
  let frame : List UInt8 := [0xff, 0xff, 0xff, 0xff, 0xff, 0xff, 2, 0, 0, 0, 0, 1, 8, 0]
  have := h 0 [.localFrame frame 0] (.remoteFrame ⟨1, 0, 0, 0, 0⟩ frame 1)
    (macToKey ((frame.drop 6).take 6)) ⟨Address.zero, 0, true⟩ ⟨⟨1, 0, 0, 0, 0⟩, 1, false⟩
    (by decide) rfl (by decide)
  exact absurd this (by decide)

/-! ### Forwarding

Both handlers learn the source MAC first and look the destination up in the table so
learned. The cases below are stated on that table `t`: a frame from peer `P` whose
destination `t` maps to `remote(P)`, as when its source and destination are equal, is
forwarded back to `P`. -/

/-- What `HandleLocalFrame` does with a frame that parses: learn its source as local, then
flood a broadcast, multicast or unknown destination, unicast to a remote one, and drop a
local one. -/
structure LocalForwarding (sw : Switch) (frame : List UInt8) (now : Int)
    (parsed : EthernetFrame) (t : MACTable) : Prop where
  learned : t.lookup (macToKey parsed.srcMAC) = some ⟨Address.zero, now, true⟩
  floods : (parsed.isBroadcast || parsed.isMulticast) = true ∨
      t.lookup (macToKey parsed.dstMAC) = none →
    sw.handleLocalFrame frame now =
      .ok ({ sw with macTable := t }, some (.broadcastToPeers sw.networkID frame Address.zero))
  unicasts : ∀ q seen, (parsed.isBroadcast || parsed.isMulticast) = false →
    t.lookup (macToKey parsed.dstMAC) = some ⟨q, seen, false⟩ →
    sw.handleLocalFrame frame now =
      .ok ({ sw with macTable := t }, some (.sendToPeer q sw.networkID frame))
  drops : ∀ e, (parsed.isBroadcast || parsed.isMulticast) = false →
    t.lookup (macToKey parsed.dstMAC) = some e → e.isLocal = true →
    sw.handleLocalFrame frame now = .ok ({ sw with macTable := t }, none)

/-- What `HandleRemoteFrame` does with a frame from `peerAddr` that parses: learn its source
as `remote(peerAddr)`, then inject and flood (excluding the sender) a broadcast, multicast
or unknown destination, inject a local one, and forward to a remote one without injecting. -/
structure RemoteForwarding (sw : Switch) (peerAddr : Address) (frame : List UInt8) (now : Int)
    (parsed : EthernetFrame) (t : MACTable) : Prop where
  learned : t.lookup (macToKey parsed.srcMAC) = some ⟨peerAddr, now, false⟩
  floodsGroup : (parsed.isBroadcast || parsed.isMulticast) = true →
    sw.handleRemoteFrame peerAddr frame now = .ok ({ sw with macTable := t },
      some (.broadcastToPeers sw.networkID frame peerAddr), some frame)
  injectsLocal : ∀ e, (parsed.isBroadcast || parsed.isMulticast) = false →
    t.lookup (macToKey parsed.dstMAC) = some e → e.isLocal = true →
    sw.handleRemoteFrame peerAddr frame now = .ok ({ sw with macTable := t }, none, some frame)
  forwards : ∀ q seen, (parsed.isBroadcast || parsed.isMulticast) = false →
    t.lookup (macToKey parsed.dstMAC) = some ⟨q, seen, false⟩ →
    sw.handleRemoteFrame peerAddr frame now =
      .ok ({ sw with macTable := t }, some (.sendToPeer q sw.networkID frame), none)
  floodsUnknown : (parsed.isBroadcast || parsed.isMulticast) = false →
    t.lookup (macToKey parsed.dstMAC) = none →
    sw.handleRemoteFrame peerAddr frame now = .ok ({ sw with macTable := t },
      some (.broadcastToPeers sw.networkID frame peerAddr), some frame)

theorem localForwarding (sw : Switch) {frame : List UInt8} {parsed : EthernetFrame}
    (hp : parseEthernetFrame frame = .ok parsed) (now : Int) :
    LocalForwarding sw frame now parsed
      (learn sw.macTable parsed.srcMAC Address.zero true now) where
  learned := lookup_learn_self _ _ _ _ _
  floods h := by
    simp only [handleLocalFrame, hp, localCall]
    rcases h with h | h
    · rw [if_pos h]
    · split
      · rfl
      · rw [h]
  unicasts q seen hg h := by simp [handleLocalFrame, hp, localCall, hg, h]
  drops e hg h hl := by simp [handleLocalFrame, hp, localCall, hg, h, hl]

theorem remoteForwarding (sw : Switch) (peerAddr : Address) {frame : List UInt8}
    {parsed : EthernetFrame} (hp : parseEthernetFrame frame = .ok parsed) (now : Int) :
    RemoteForwarding sw peerAddr frame now parsed
      (learn sw.macTable parsed.srcMAC peerAddr false now) where
  learned := lookup_learn_self _ _ _ _ _
  floodsGroup hg := by simp [handleRemoteFrame, hp, remoteCall, hg]
  injectsLocal e hg h hl := by simp [handleRemoteFrame, hp, remoteCall, hg, h, hl]
  forwards q seen hg h := by simp [handleRemoteFrame, hp, remoteCall, hg, h]
  floodsUnknown hg h := by simp [handleRemoteFrame, hp, remoteCall, hg, h]

/-- Both handlers learn the source MAC of a frame of at least 14 bytes, and then forward on
the table so learned as `LocalForwarding` and `RemoteForwarding` spell out; a shorter frame
is an error and leaves the switch as it was. -/
theorem learn_then_forward (sw : Switch) (frame : List UInt8) (now : Int) :
    (frame.length < MinFrameSize →
      sw.handleLocalFrame frame now = .error "frame too short" ∧
        sw.apply (.localFrame frame now) = sw ∧
      ∀ peerAddr, sw.handleRemoteFrame peerAddr frame now = .error "frame too short" ∧
        sw.apply (.remoteFrame peerAddr frame now) = sw) ∧
    (MinFrameSize ≤ frame.length → ∃ parsed, parseEthernetFrame frame = .ok parsed ∧
      LocalForwarding sw frame now parsed (learn sw.macTable parsed.srcMAC Address.zero true now) ∧
      ∀ peerAddr, RemoteForwarding sw peerAddr frame now parsed
        (learn sw.macTable parsed.srcMAC peerAddr false now)) := by
  refine ⟨fun hlen => ?_, fun hlen => ?_⟩
  · have hp := parseEthernetFrame_short hlen
    simp [apply, handleLocalFrame, handleRemoteFrame, hp]
  · obtain ⟨parsed, hp, -⟩ := parseEthernetFrame_of_le hlen
    exact ⟨parsed, hp, localForwarding sw hp now,
      fun peerAddr => remoteForwarding sw peerAddr hp now⟩

/-- Every flood of `HandleRemoteFrame` excludes the peer the frame came from, but a unicast
frame whose source and destination MAC are equal is sent back to that peer: its source has
just been learned as `remote(P)` when the destination is looked up. -/
theorem remote_frame_sent_back (sw : Switch) (peerAddr : Address) (frame : List UInt8)
    (now : Int) :
    (∀ r n f x, sw.handleRemoteFrame peerAddr frame now = .ok r →
      r.2.1 = some (.broadcastToPeers n f x) → x = peerAddr) ∧
    ∀ parsed, parseEthernetFrame frame = .ok parsed → parsed.isMulticast = false →
      macToKey parsed.dstMAC = macToKey parsed.srcMAC →
      sw.handleRemoteFrame peerAddr frame now =
        .ok ({ sw with macTable := learn sw.macTable parsed.srcMAC peerAddr false now },
          some (.sendToPeer peerAddr sw.networkID frame), none) := by
  refine ⟨fun r n f x h hr => ?_, fun parsed hp hm hsd => ?_⟩
  · unfold handleRemoteFrame at h
    split at h
    · cases h
    · cases h
      simp only [remoteCall] at hr
      split at hr
      · cases hr; rfl
      · split at hr
        · split at hr <;> cases hr
        · cases hr; rfl
  · have hg : (parsed.isBroadcast || parsed.isMulticast) = false := by
      cases hb : parsed.isBroadcast
      · simpa using hm
      · exact absurd (EthernetFrame.isMulticast_of_isBroadcast hb) (by simp [hm])
    exact (remoteForwarding sw peerAddr hp now).forwards peerAddr now hg
      (by rw [hsd]; exact lookup_learn_self _ _ _ _ _)

/-- A frame from `02:00:00:00:00:01` to itself that reaches a new switch of network 7 from
peer `01:00:00:00:00` goes back to that peer. -/
theorem self_addressed_frame_returns :
    (Switch.new 7).handleRemoteFrame ⟨1, 0, 0, 0, 0⟩ [2, 0, 0, 0, 0, 1, 2, 0, 0, 0, 0, 1, 8, 0] 0 =
      .ok ({ Switch.new 7 with
          macTable := learn (Switch.new 7).macTable [2, 0, 0, 0, 0, 1] ⟨1, 0, 0, 0, 0⟩ false 0 },
        some (.sendToPeer ⟨1, 0, 0, 0, 0⟩ 7 [2, 0, 0, 0, 0, 1, 2, 0, 0, 0, 0, 1, 8, 0]), none) :=
  (remote_frame_sent_back (Switch.new 7) ⟨1, 0, 0, 0, 0⟩ _ 0).2
    ⟨[2, 0, 0, 0, 0, 1], [2, 0, 0, 0, 0, 1], 0x0800, [], [2, 0, 0, 0, 0, 1, 2, 0, 0, 0, 0, 1, 8, 0]⟩
    rfl (by decide) rfl

/-! ### The table caches the latest sightings

Each entry of the table is the latest sighting of its MAC among the calls made so far: the
peer (or the tap) that sent the last frame with that source MAC, at that frame's time.
Eviction and expiry only delete entries, so the switch never forwards on a sighting that a
later frame has superseded. -/

/-- The entry a call learns for the source MAC of its frame, if the frame parses. -/
def SwitchOp.sighting : SwitchOp → Option (MACKey × MACEntry)
  | .localFrame frame now =>
      match parseEthernetFrame frame with
      | .ok parsed => some (macToKey parsed.srcMAC, ⟨Address.zero, now, true⟩)
      | .error _ => none
  | .remoteFrame peerAddr frame now =>
      match parseEthernetFrame frame with
      | .ok parsed => some (macToKey parsed.srcMAC, ⟨peerAddr, now, false⟩)
      | .error _ => none
  | .cleanExpired _ => none

/-- The latest sighting of `k` once `op` follows a history whose latest is `acc`. -/
def sightingStep (k : MACKey) (acc : Option MACEntry) (op : SwitchOp) : Option MACEntry :=
  match op.sighting with
  | some s => if s.1 = k then some s.2 else acc
  | none => acc

/-- The latest sighting of `k` in a history of calls. -/
def lastSighting (k : MACKey) (ops : List SwitchOp) : Option MACEntry :=
  ops.foldl (sightingStep k) none

theorem lastSighting_concat (k : MACKey) (ops : List SwitchOp) (op : SwitchOp) :
    lastSighting k (ops ++ [op]) = sightingStep k (lastSighting k ops) op := by
  simp only [lastSighting, List.foldl_append, List.foldl_cons, List.foldl_nil]

/-- Every entry of the table is the latest sighting of its key in `ops`. -/
def Recent (ops : List SwitchOp) (sw : Switch) : Prop :=
  ∀ k e, sw.macTable.lookup k = some e → lastSighting k ops = some e

theorem apply_cases (sw : Switch) (op : SwitchOp) :
    (op.sighting = none ∧
      ∀ k e, (sw.apply op).macTable.lookup k = some e → sw.macTable.lookup k = some e) ∨
    ∃ mac peerAddr isLocal now,
      op.sighting = some (macToKey mac, ⟨peerAddr, now, isLocal⟩) ∧
      (sw.apply op).macTable = learn sw.macTable mac peerAddr isLocal now := by
  cases op with
  | localFrame frame now =>
      cases hp : parseEthernetFrame frame with
      | error _ => exact .inl ⟨by simp only [SwitchOp.sighting, hp],
          fun k e h => by simpa only [apply, handleLocalFrame, hp] using h⟩
      | ok parsed => exact .inr ⟨parsed.srcMAC, Address.zero, true, now,
          by simp only [SwitchOp.sighting, hp], by simp only [apply, handleLocalFrame, hp]⟩
  | remoteFrame peerAddr frame now =>
      cases hp : parseEthernetFrame frame with
      | error _ => exact .inl ⟨by simp only [SwitchOp.sighting, hp],
          fun k e h => by simpa only [apply, handleRemoteFrame, hp] using h⟩
      | ok parsed => exact .inr ⟨parsed.srcMAC, peerAddr, false, now,
          by simp only [SwitchOp.sighting, hp], by simp only [apply, handleRemoteFrame, hp]⟩
  | cleanExpired now => exact .inl ⟨rfl, fun k e h => (GoMap.lookup_of_lookup_filter h).1⟩

theorem recent_new (networkID : UInt32) : Recent [] (Switch.new networkID) := fun k e h => by
  simp only [Switch.new, AList.lookup_empty] at h
  cases h

theorem Recent.apply {ops : List SwitchOp} {sw : Switch} (h : Recent ops sw) (op : SwitchOp) :
    Recent (ops ++ [op]) (sw.apply op) := by
  intro k e he
  rw [lastSighting_concat]
  rcases apply_cases sw op with ⟨hs, hsub⟩ | ⟨mac, peerAddr, isLocal, now, hs, ht⟩
  · simp only [sightingStep, hs]
    exact h k e (hsub k e he)
  · rw [ht] at he
    simp only [sightingStep, hs]
    by_cases hk : macToKey mac = k
    · subst hk
      rw [lookup_learn_self] at he
      rw [if_pos rfl, he]
    · rw [if_neg hk]
      rcases lookup_learn_ne sw.macTable (Ne.symm hk) peerAddr isLocal now with h' | h' <;>
        rw [h'] at he
      exacts [h k e he, absurd he (by simp)]

theorem Recent.run {ops : List SwitchOp} {sw : Switch} (h : Recent ops sw) :
    ∀ ops' : List SwitchOp, Recent (ops ++ ops') (sw.run ops')
  | [] => by rw [List.append_nil]; exact h
  | op :: ops' => by
      rw [← List.singleton_append, ← List.append_assoc]
      exact (h.apply op).run ops'

theorem localCall_sendToPeer {networkID : UInt32} {frame : List UInt8} {parsed : EthernetFrame}
    {t : MACTable} {q : Address} {n : UInt32} {f : List UInt8}
    (h : localCall networkID frame parsed t = some (.sendToPeer q n f)) :
    ∃ seen, t.lookup (macToKey parsed.dstMAC) = some ⟨q, seen, false⟩ := by
  unfold localCall at h
  split at h
  · cases h
  · split at h
    · next entry he =>
        obtain ⟨p, seen, isLocal⟩ := entry
        split at h
        · next hl =>
            cases h
            simp only [Bool.not_eq_true'] at hl
            exact ⟨seen, hl ▸ he⟩
        · cases h
    · cases h

theorem remoteCall_sendToPeer {networkID : UInt32} {peerAddr : Address} {frame : List UInt8}
    {parsed : EthernetFrame} {t : MACTable} {q : Address} {n : UInt32} {f : List UInt8}
    (h : (remoteCall networkID peerAddr frame parsed t).1 = some (.sendToPeer q n f)) :
    ∃ seen, t.lookup (macToKey parsed.dstMAC) = some ⟨q, seen, false⟩ := by
  unfold remoteCall at h
  split at h
  · cases h
  · split at h
    · next entry he =>
        obtain ⟨p, seen, isLocal⟩ := entry
        split at h
        · cases h
        · next hl =>
            cases h
            simp only [Bool.not_eq_true] at hl
            exact ⟨seen, hl ▸ he⟩
    · cases h

/-- From a switch whose entries are latest sightings, a unicast of either handler goes to the
peer the destination MAC was last seen behind, this frame's own sighting included. -/
theorem Recent.unicast {ops : List SwitchOp} {sw : Switch} (h : Recent ops sw) :
    (∀ frame now r q n f, sw.handleLocalFrame frame now = .ok r →
      r.2 = some (.sendToPeer q n f) → ∃ parsed seen, parseEthernetFrame frame = .ok parsed ∧
        lastSighting (macToKey parsed.dstMAC) (ops ++ [.localFrame frame now]) =
          some ⟨q, seen, false⟩) ∧
    ∀ peerAddr frame now r q n f, sw.handleRemoteFrame peerAddr frame now = .ok r →
      r.2.1 = some (.sendToPeer q n f) → ∃ parsed seen, parseEthernetFrame frame = .ok parsed ∧
        lastSighting (macToKey parsed.dstMAC) (ops ++ [.remoteFrame peerAddr frame now]) =
          some ⟨q, seen, false⟩ := by
  refine ⟨fun frame now r q n f hr hq => ?_, fun peerAddr frame now r q n f hr hq => ?_⟩
  · cases hp : parseEthernetFrame frame with
    | error _ => simp only [handleLocalFrame, hp] at hr; cases hr
    | ok parsed =>
        simp only [handleLocalFrame, hp, Except.ok.injEq] at hr
        subst hr
        obtain ⟨seen, hs⟩ := localCall_sendToPeer hq
        refine ⟨parsed, seen, rfl, h.apply (.localFrame frame now) _ _ ?_⟩
        simpa only [Switch.apply, handleLocalFrame, hp] using hs
  · cases hp : parseEthernetFrame frame with
    | error _ => simp only [handleRemoteFrame, hp] at hr; cases hr
    | ok parsed =>
        simp only [handleRemoteFrame, hp, Except.ok.injEq] at hr
        subst hr
        obtain ⟨seen, hs⟩ := remoteCall_sendToPeer hq
        refine ⟨parsed, seen, rfl, h.apply (.remoteFrame peerAddr frame now) _ _ ?_⟩
        simpa only [Switch.apply, handleRemoteFrame, hp] using hs

/-- Over every run of calls from a new switch, each entry of the MAC table is the latest
sighting of its MAC, and a unicast of either handler goes to the peer behind which its
destination MAC was last seen. -/
theorem mac_table_holds_latest_sightings (networkID : UInt32) (ops : List SwitchOp) :
    let sw := (Switch.new networkID).run ops
    (∀ k e, sw.macTable.lookup k = some e → lastSighting k ops = some e) ∧
    (∀ frame now r q n f, sw.handleLocalFrame frame now = .ok r →
      r.2 = some (.sendToPeer q n f) → ∃ parsed seen, parseEthernetFrame frame = .ok parsed ∧
        lastSighting (macToKey parsed.dstMAC) (ops ++ [.localFrame frame now]) =
          some ⟨q, seen, false⟩) ∧
    ∀ peerAddr frame now r q n f, sw.handleRemoteFrame peerAddr frame now = .ok r →
      r.2.1 = some (.sendToPeer q n f) → ∃ parsed seen, parseEthernetFrame frame = .ok parsed ∧
        lastSighting (macToKey parsed.dstMAC) (ops ++ [.remoteFrame peerAddr frame now]) =
          some ⟨q, seen, false⟩ :=
  have h := (recent_new networkID).run ops
  ⟨h, h.unicast⟩

end Switch

end ZeroGo.Vl2
