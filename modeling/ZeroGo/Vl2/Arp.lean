import ZeroGo.Vl2.Switch

/-!
The ARP proxy of `vl2/arp.go` and the per-network bundle of `vl2/network.go`. The
cache learns every well-formed IPv4-over-Ethernet ARP frame's sender binding and
answers a request from the cache while the target's entry is fresh. Both tables of a
network stay within their size bounds over every run.
-/

namespace ZeroGo.Vl2

def ARPHeaderSize : Nat := 28
def ARPRequest : UInt16 := 1
def ARPReply : UInt16 := 2

/-- `ARPCacheExpiry`, five minutes in nanoseconds. -/
def ARPCacheExpiry : Int := 5 * 60 * 1000000000

def ARPCacheMaxSize : Nat := 1024

abbrev IPv4Key := FixedBytes 4

structure ARPEntry where
  mac : List UInt8
  lastSeen : Int
  deriving DecidableEq, Repr

abbrev ARPCache := GoMap IPv4Key ARPEntry

structure ARPProxy where
  cache : ARPCache

namespace ARPProxy

/-- `NewARPProxy`. -/
def new : ARPProxy := ⟨∅⟩

/-- `learn`: evict the oldest entry when the cache is full, then store a six-byte copy
of the MAC. -/
def learn (c : ARPCache) (ip : IPv4Key) (mac : List UInt8) (now : Int) : ARPCache :=
  let c := if ARPCacheMaxSize ≤ c.size then evictOldest ARPEntry.lastSeen c else c
  c.insert ip ⟨(FixedBytes.ofList 6 mac).bytes, now⟩

/-- `buildARPReply`: a 42-byte frame answering `senderIP`'s request for `targetIP`. -/
def buildARPReply (targetMAC senderMAC : List UInt8) (senderIP targetIP : IPv4Key) :
    List UInt8 :=
  let mac6 := fun m => (FixedBytes.ofList 6 m).bytes
  mac6 senderMAC ++ mac6 targetMAC ++ putUintBE 2 EtherTypeARP.toNat ++
    putUintBE 2 1 ++ putUintBE 2 0x0800 ++ [6, 4] ++ putUintBE 2 ARPReply.toNat ++
    mac6 targetMAC ++ targetIP.bytes ++ mac6 senderMAC ++ senderIP.bytes

/-- `HandleARP`: the proxy after the frame, and the reply to inject, if any. -/
def handleARP (a : ARPProxy) (frame : EthernetFrame) (now : Int) :
    ARPProxy × Option (List UInt8) :=
  let payload := frame.payload
  if payload.length < ARPHeaderSize then (a, none) else
  let htype := uintBE (payload.take 2)
  let ptype := uintBE ((payload.drop 2).take 2)
  let hlen := payload.getD 4 0
  let plen := payload.getD 5 0
  let oper := UInt16.ofNat (uintBE ((payload.drop 6).take 2))
  if htype ≠ 1 ∨ ptype ≠ 0x0800 ∨ hlen ≠ 6 ∨ plen ≠ 4 then (a, none) else
  let senderMAC := (payload.drop 8).take 6
  let senderIP := FixedBytes.ofList 4 ((payload.drop 14).take 4)
  let targetIP := FixedBytes.ofList 4 ((payload.drop 24).take 4)
  let c := learn a.cache senderIP senderMAC now
  if oper = ARPRequest then
    match c.lookup targetIP with
    | some entry =>
        if now - entry.lastSeen < ARPCacheExpiry then
          (⟨c⟩, some (buildARPReply entry.mac senderMAC senderIP targetIP))
        else (⟨c⟩, none)
    | none => (⟨c⟩, none)
  else if oper = ARPReply then (⟨learn c senderIP senderMAC now⟩, none)
  else (⟨c⟩, none)

/-- `CleanExpired`: the swept proxy and the number of entries removed. -/
def cleanExpired (a : ARPProxy) (now : Int) : ARPProxy × Nat :=
  let c := a.cache.filter fun _ v => !decide (v.lastSeen < now - ARPCacheExpiry)
  (⟨c⟩, a.cache.size - c.size)

theorem size_learn_le {c : ARPCache} (hc : c.size ≤ ARPCacheMaxSize) (ip : IPv4Key)
    (mac : List UInt8) (now : Int) : GoMap.size (learn c ip mac now) ≤ ARPCacheMaxSize := by
  unfold learn
  dsimp only
  split
  · have := size_evictOldest ARPEntry.lastSeen (m := c) (by unfold ARPCacheMaxSize at *; omega)
    have := GoMap.size_insert_le ip ⟨(FixedBytes.ofList 6 mac).bytes, now⟩
      (evictOldest ARPEntry.lastSeen c)
    omega
  · have := GoMap.size_insert_le ip ⟨(FixedBytes.ofList 6 mac).bytes, now⟩ c
    omega

theorem learn_of_full {c : ARPCache} (h : ARPCacheMaxSize ≤ c.size) (ip : IPv4Key)
    (mac : List UInt8) (now : Int) :
    ∃ o ∈ c.entries, (∀ e ∈ c.entries, o.2.lastSeen ≤ e.2.lastSeen) ∧
      learn c ip mac now = (c.erase o.1).insert ip ⟨(FixedBytes.ofList 6 mac).bytes, now⟩ := by
  have hne : c.entries ≠ [] :=
    List.ne_nil_of_length_pos (by unfold ARPCacheMaxSize GoMap.size at h; omega)
  obtain ⟨o, ho, hle, he⟩ := evictOldest_eq_erase ARPEntry.lastSeen hne
  exact ⟨o, ho, hle, by simp only [learn, if_pos h, he]⟩

theorem size_handleARP_le {a : ARPProxy} (ha : a.cache.size ≤ ARPCacheMaxSize)
    (frame : EthernetFrame) (now : Int) :
    (a.handleARP frame now).1.cache.size ≤ ARPCacheMaxSize := by
  unfold handleARP
  dsimp only
  split
  · exact ha
  split
  · exact ha
  have hc := size_learn_le ha (FixedBytes.ofList 4 ((frame.payload.drop 14).take 4))
    ((frame.payload.drop 8).take 6) now
  split
  · split
    · split <;> exact hc
    · exact hc
  · split
    · exact size_learn_le hc _ _ _
    · exact hc

theorem lookup_cleanExpired {a : ARPProxy} {now : Int} {ip : IPv4Key} {v : ARPEntry} :
    (a.cleanExpired now).1.cache.lookup ip = some v ↔
      a.cache.lookup ip = some v ∧ ¬v.lastSeen < now - ARPCacheExpiry := by
  simp only [cleanExpired, GoMap.lookup_filter_iff, Bool.not_eq_true', decide_eq_false_iff_not]

theorem cleanExpired_count (a : ARPProxy) (now : Int) :
    (a.cleanExpired now).2 = a.cache.entries.countP fun e => e.2.lastSeen < now - ARPCacheExpiry := by
  simp only [cleanExpired, GoMap.size_sub_size_filter, Bool.not_not]

@[simp] theorem lookup_learn_self (c : ARPCache) (ip : IPv4Key) (mac : List UInt8) (now : Int) :
    (learn c ip mac now).lookup ip = some ⟨(FixedBytes.ofList 6 mac).bytes, now⟩ :=
  AList.lookup_insert _

theorem lookup_learn_ne (c : ARPCache) {ip k : IPv4Key} (hk : k ≠ ip) (mac : List UInt8)
    (now : Int) : (learn c ip mac now).lookup k = c.lookup k ∨ (learn c ip mac now).lookup k = none := by
  simp only [learn, AList.lookup_insert_ne hk]
  split
  · exact lookup_evictOldest _ _ _
  · exact .inl rfl

theorem buildARPReply_eq (targetMAC senderMAC : List UInt8) (senderIP targetIP : IPv4Key) :
    buildARPReply targetMAC senderMAC senderIP targetIP =
      (FixedBytes.ofList 6 senderMAC).bytes ++ (FixedBytes.ofList 6 targetMAC).bytes ++
        [0x08, 0x06, 0, 1, 0x08, 0, 6, 4, 0, 2] ++ (FixedBytes.ofList 6 targetMAC).bytes ++
        targetIP.bytes ++ (FixedBytes.ofList 6 senderMAC).bytes ++ senderIP.bytes := by
  simp only [buildARPReply, List.append_assoc]
  rfl

theorem length_buildARPReply (targetMAC senderMAC : List UInt8) (senderIP targetIP : IPv4Key) :
    (buildARPReply targetMAC senderMAC senderIP targetIP).length =
      EthernetHeaderSize + ARPHeaderSize := by
  simp only [buildARPReply_eq, List.length_append, FixedBytes.length_eq, List.length_cons,
    List.length_nil]
  rfl

/-! ### `HandleARP` -/

/-- The checks `HandleARP` makes before it learns: at least 28 bytes of ARP for Ethernet
(`htype` 1) and IPv4 (`ptype` 0x0800), with address lengths 6 and 4. -/
def IsEthernetIPv4 (payload : List UInt8) : Prop :=
  ARPHeaderSize ≤ payload.length ∧ uintBE (payload.take 2) = 1 ∧
    uintBE ((payload.drop 2).take 2) = 0x0800 ∧ payload.getD 4 0 = 6 ∧ payload.getD 5 0 = 4

instance (payload : List UInt8) : Decidable (IsEthernetIPv4 payload) :=
  inferInstanceAs (Decidable (_ ∧ _))

/-- The fields `HandleARP` reads: operation, sender MAC, sender IP and target IP. -/
def oper (payload : List UInt8) : UInt16 := UInt16.ofNat (uintBE ((payload.drop 6).take 2))
def senderMAC (payload : List UInt8) : List UInt8 := (payload.drop 8).take 6
def senderIP (payload : List UInt8) : IPv4Key := FixedBytes.ofList 4 ((payload.drop 14).take 4)
def targetIP (payload : List UInt8) : IPv4Key := FixedBytes.ofList 4 ((payload.drop 24).take 4)
/-- The target hardware address, `payload[18:24]`, which `HandleARP` leaves unread. -/
def targetMAC (payload : List UInt8) : List UInt8 := (payload.drop 18).take 6

theorem handleARP_of_not {a : ARPProxy} {f : EthernetFrame} (h : ¬IsEthernetIPv4 f.payload)
    (now : Int) : a.handleARP f now = (a, none) := by
  unfold handleARP
  by_cases hlen : f.payload.length < ARPHeaderSize
  · rw [if_pos hlen]
  · rw [if_neg hlen, if_pos]
    unfold IsEthernetIPv4 at h
    have : ARPHeaderSize ≤ f.payload.length := by omega
    tauto

theorem handleARP_of_wf {a : ARPProxy} {f : EthernetFrame} (h : IsEthernetIPv4 f.payload)
    (now : Int) :
    let p := f.payload
    let c := learn a.cache (senderIP p) (senderMAC p) now
    a.handleARP f now =
      if oper p = ARPRequest then
        (⟨c⟩, (c.lookup (targetIP p)).bind fun e => if now - e.lastSeen < ARPCacheExpiry then
          some (buildARPReply e.mac (senderMAC p) (senderIP p) (targetIP p)) else none)
      else if oper p = ARPReply then (⟨learn c (senderIP p) (senderMAC p) now⟩, none)
      else (⟨c⟩, none) := by
  obtain ⟨hlen, h₁, h₂, h₃, h₄⟩ := h
  simp only [handleARP, oper, senderMAC, senderIP, targetIP, not_lt.2 hlen, h₁, h₂, h₃, h₄, ne_eq,
    not_true, or_false, if_false]
  split_ifs
  · rcases AList.lookup _ _ with _ | e
    · rfl
    · exact (apply_ite _ _ _ _).symm
  all_goals rfl

/-- The reply of `HandleARP`: only to a well-formed request, from the cache after learning the
sender, and only while the target's entry is fresh. -/
theorem handleARP_snd (a : ARPProxy) (f : EthernetFrame) (now : Int) :
    (a.handleARP f now).2 = if IsEthernetIPv4 f.payload ∧ oper f.payload = ARPRequest then
      ((learn a.cache (senderIP f.payload) (senderMAC f.payload) now).lookup (targetIP f.payload)).bind
        fun e => if now - e.lastSeen < ARPCacheExpiry then
          some (buildARPReply e.mac (senderMAC f.payload) (senderIP f.payload) (targetIP f.payload))
          else none
      else none := by
  by_cases hwf : IsEthernetIPv4 f.payload
  · rw [handleARP_of_wf hwf]
    by_cases hop : oper f.payload = ARPRequest
    · rw [if_pos hop, if_pos ⟨hwf, hop⟩]
    · rw [if_neg hop, if_neg (show ¬(IsEthernetIPv4 f.payload ∧ oper f.payload = ARPRequest) from
        fun h => hop h.2)]
      split <;> rfl
  · rw [handleARP_of_not hwf, if_neg fun h => hwf h.1]

theorem handleARP_cache (a : ARPProxy) (f : EthernetFrame) (now : Int) :
    (a.handleARP f now).1.cache = if IsEthernetIPv4 f.payload then
      (if oper f.payload = ARPReply then
        learn (learn a.cache (senderIP f.payload) (senderMAC f.payload) now) (senderIP f.payload)
          (senderMAC f.payload) now
      else learn a.cache (senderIP f.payload) (senderMAC f.payload) now) else a.cache := by
  by_cases hwf : IsEthernetIPv4 f.payload
  · rw [handleARP_of_wf hwf, if_pos hwf]
    by_cases hop : oper f.payload = ARPRequest
    · rw [if_pos hop, if_neg (hop ▸ by decide)]
    · rw [if_neg hop]
      split <;> rfl
  · rw [handleARP_of_not hwf, if_neg hwf]

/-- The proxy lets `f` through whatever the time: `f` is not a well-formed request, or it asks
for an IP other than its sender's that the cache holds no entry for. -/
def Passes (a : ARPProxy) (f : EthernetFrame) : Prop :=
  ¬(IsEthernetIPv4 f.payload ∧ oper f.payload = ARPRequest) ∨
    targetIP f.payload ≠ senderIP f.payload ∧ a.cache.lookup (targetIP f.payload) = none

instance (a : ARPProxy) (f : EthernetFrame) : Decidable (a.Passes f) :=
  inferInstanceAs (Decidable (_ ∨ _))

theorem lookup_learn_of_none {c : ARPCache} {ip k : IPv4Key} (hk : k ≠ ip) (hc : c.lookup k = none)
    (mac : List UInt8) (now : Int) : (learn c ip mac now).lookup k = none :=
  (lookup_learn_ne c hk mac now).elim (·.trans hc) id

/-- A frame the proxy lets through gets no reply, and the proxy still lets it through after
learning from it. -/
theorem Passes.handleARP {a : ARPProxy} {f : EthernetFrame} (h : a.Passes f) (now : Int) :
    (a.handleARP f now).2 = none ∧ (a.handleARP f now).1.Passes f := by
  by_cases hq : IsEthernetIPv4 f.payload ∧ oper f.payload = ARPRequest
  · obtain ⟨hne, hnone⟩ := h.resolve_left (not_not.mpr hq)
    have hl := lookup_learn_of_none hne hnone (senderMAC f.payload) now
    refine ⟨by rw [handleARP_snd, if_pos hq, hl]; rfl, .inr ⟨hne, ?_⟩⟩
    rw [handleARP_cache, if_pos hq.1, if_neg (hq.2 ▸ by decide), hl]
  · exact ⟨by rw [handleARP_snd, if_neg hq], .inl hq⟩

/-- A well-formed request whose sender and target IP agree (a gratuitous announcement) is
answered from the binding it has just taught the cache. -/
theorem handleARP_announcement {a : ARPProxy} {f : EthernetFrame} (hwf : IsEthernetIPv4 f.payload)
    (hop : oper f.payload = ARPRequest) (hs : senderIP f.payload = targetIP f.payload) (now : Int) :
    (a.handleARP f now).2 = some (buildARPReply (FixedBytes.ofList 6 (senderMAC f.payload)).bytes
      (senderMAC f.payload) (senderIP f.payload) (senderIP f.payload)) := by
  rw [handleARP_snd, if_pos ⟨hwf, hop⟩, ← hs, lookup_learn_self, Option.some_bind]
  exact if_pos (by simp only [Int.sub_self]; decide)

theorem size_learn_of_full {c : ARPCache} (hfull : ARPCacheMaxSize ≤ c.size) {ip : IPv4Key}
    (hip : ip ∉ c) (mac : List UInt8) (now : Int) : (learn c ip mac now).size = c.size := by
  obtain ⟨o, ho, -, h₁⟩ := learn_of_full hfull ip mac now
  rw [h₁, GoMap.size_insert, if_neg fun h => hip (AList.mem_erase.1 h).2,
    GoMap.size_erase_of_mem (AList.mem_keys.2 (List.mem_keys_of_mem ho))]

/-- On a full cache that lacks `ip` and whose entries are all older than `now`, a second
`learn` of the same binding deletes one more entry. -/
theorem size_learn_learn {c : ARPCache} (hfull : ARPCacheMaxSize ≤ c.size) {ip : IPv4Key}
    (hip : ip ∉ c) {now : Int} (hold : ∀ e ∈ c.entries, e.2.lastSeen < now) (mac : List UInt8) :
    (learn (learn c ip mac now) ip mac now).size + 1 = (learn c ip mac now).size := by
  obtain ⟨o, ho, -, h₁⟩ := learn_of_full hfull ip mac now
  have hs₁ := size_learn_of_full hfull hip mac now
  have hsize := GoMap.size_erase_of_mem (AList.mem_keys.2 (List.mem_keys_of_mem ho))
  -- an entry other than `ip`'s survives the first eviction
  obtain ⟨x, hx⟩ := List.exists_mem_of_length_pos
    (show 0 < (c.erase o.1).entries.length by
      change 0 < GoMap.size (c.erase o.1); unfold ARPCacheMaxSize at hfull; omega)
  have hxl : (c.erase o.1).lookup x.1 = some x.2 := AList.mem_lookup_iff.2 hx
  have hxo : x.1 ≠ o.1 := fun h => by rw [h, AList.lookup_erase] at hxl; cases hxl
  have hxc : c.lookup x.1 = some x.2 := by rwa [AList.lookup_erase_ne hxo] at hxl
  have hxip : x.1 ≠ ip := fun h => hip (h ▸ AList.lookup_isSome.1 (by rw [hxc]; rfl))
  have hx₁ : (learn c ip mac now).lookup x.1 = some x.2 := by
    rw [h₁, AList.lookup_insert_ne hxip, hxl]
  have hxold : x.2.lastSeen < now := hold x (AList.mem_lookup_iff.1 hxc)
  obtain ⟨o', ho', hle', h₂⟩ := learn_of_full (hs₁ ▸ hfull) ip mac now
  -- so the second eviction does not hit `ip`, whose entry is the newest
  have hne : o'.1 ≠ ip := fun h => by
    have hl : (learn c ip mac now).lookup o'.1 = some o'.2 := AList.mem_lookup_iff.2 ho'
    rw [h, lookup_learn_self, Option.some_inj] at hl
    have := hle' x (AList.mem_lookup_iff.1 hx₁)
    rw [← hl] at this
    exact absurd hxold (not_lt.2 this)
  have hip₁ : ip ∈ learn c ip mac now := AList.lookup_isSome.1 (by rw [lookup_learn_self]; rfl)
  rw [h₂, GoMap.size_insert, if_pos (AList.mem_erase.2 ⟨hne.symm, hip₁⟩)]
  exact GoMap.size_erase_of_mem (AList.mem_keys.2 (List.mem_keys_of_mem ho'))

/-- `HandleARP` answers exactly a well-formed request whose target is fresh in the cache after
the sender is learned, with the 42-byte reply from the cached MAC (copied into six bytes) to
the requester; the cache learns the sender once from a well-formed frame and a second time from
a reply, and on a full cache of older entries that second `learn` evicts one entry more. -/
theorem handleARP_answers_fresh_requests (a : ARPProxy) (f : EthernetFrame) (now : Int) :
    let p := f.payload
    let c := learn a.cache (senderIP p) (senderMAC p) now
    (∀ r, (a.handleARP f now).2 = some r ↔ IsEthernetIPv4 p ∧ oper p = ARPRequest ∧
      ∃ e, c.lookup (targetIP p) = some e ∧ now - e.lastSeen < ARPCacheExpiry ∧
        r = senderMAC p ++ (FixedBytes.ofList 6 e.mac).bytes ++
          [0x08, 0x06, 0x00, 0x01, 0x08, 0x00, 6, 4, 0x00, 0x02] ++ (FixedBytes.ofList 6 e.mac).bytes ++
          (targetIP p).bytes ++ senderMAC p ++ (senderIP p).bytes) ∧
    (∀ r, (a.handleARP f now).2 = some r → r.length = EthernetHeaderSize + ARPHeaderSize) ∧
    (a.handleARP f now).1.cache = (if IsEthernetIPv4 p then
      (if oper p = ARPReply then learn c (senderIP p) (senderMAC p) now else c) else a.cache) ∧
    (∀ (c₀ : ARPCache) (ip : IPv4Key) (mac : List UInt8) (t : Int), ARPCacheMaxSize ≤ c₀.size →
      ip ∉ c₀ → (∀ e ∈ c₀.entries, e.2.lastSeen < t) →
      (learn (learn c₀ ip mac t) ip mac t).size + 1 = (learn c₀ ip mac t).size) := by
  intro p c
  refine ⟨fun r => ?_, fun r hr => ?_, handleARP_cache a f now,
    fun _ _ mac _ h₁ h₂ h₃ => size_learn_learn h₁ h₂ h₃ mac⟩
  · rw [handleARP_snd]
    by_cases hq : IsEthernetIPv4 p ∧ oper p = ARPRequest
    · have hlen : (senderMAC p).length = 6 := by
        have := hq.1.1
        simp only [senderMAC, List.length_take, List.length_drop]
        unfold ARPHeaderSize at this
        omega
      have hs : (FixedBytes.ofList 6 (senderMAC p)).bytes = senderMAC p := FixedBytes.ofList_bytes hlen
      rw [if_pos hq, Option.bind_eq_some, and_iff_right hq.1, and_iff_right hq.2]
      simp only [Option.ite_none_right_eq_some, Option.some_inj, buildARPReply_eq, hs]
      exact exists_congr fun e => and_congr_right fun _ => and_congr_right fun _ => eq_comm
    · rw [if_neg hq]
      exact iff_of_false (by simp) fun h => hq ⟨h.1, h.2.1⟩
  · rw [handleARP_snd] at hr
    split_ifs at hr
    · obtain ⟨e, -, he⟩ := Option.bind_eq_some.1 hr
      split_ifs at he
      rw [← Option.some_inj.1 he]
      exact length_buildARPReply _ _ _ _

theorem length_senderMAC {p : List UInt8} (h : IsEthernetIPv4 p) : (senderMAC p).length = 6 := by
  have := h.1
  simp only [senderMAC, List.length_take, List.length_drop]
  unfold ARPHeaderSize at this
  omega

theorem parseEthernetFrame_buildARPReply (tMAC sMAC : List UInt8) (sIP tIP : IPv4Key) :
    ∃ g, parseEthernetFrame (buildARPReply tMAC sMAC sIP tIP) = .ok g ∧ g.isARP = true ∧
      IsEthernetIPv4 g.payload ∧ oper g.payload = ARPReply ∧
      g.dstMAC = (FixedBytes.ofList 6 sMAC).bytes ∧ g.srcMAC = (FixedBytes.ofList 6 tMAC).bytes ∧
      senderMAC g.payload = (FixedBytes.ofList 6 tMAC).bytes ∧ senderIP g.payload = tIP ∧
      targetMAC g.payload = (FixedBytes.ofList 6 sMAC).bytes ∧ targetIP g.payload = sIP := by
  obtain ⟨s0, s1, s2, s3, s4, s5, hs⟩ := FixedBytes.bytes_eq_six (FixedBytes.ofList 6 sMAC)
  obtain ⟨t0, t1, t2, t3, t4, t5, ht⟩ := FixedBytes.bytes_eq_six (FixedBytes.ofList 6 tMAC)
  obtain ⟨a0, a1, a2, a3, ha⟩ := FixedBytes.bytes_eq_four sIP
  obtain ⟨b0, b1, b2, b3, hb⟩ := FixedBytes.bytes_eq_four tIP
  rw [buildARPReply_eq, hs, ht, ha, hb]
  simp only [List.cons_append, List.nil_append]
  refine ⟨_, rfl, rfl, ⟨by simp [ARPHeaderSize, EthernetHeaderSize], rfl, rfl, rfl, rfl⟩, rfl, rfl,
    rfl, rfl, ?_, rfl, ?_⟩
  · show FixedBytes.ofList 4 [b0, b1, b2, b3] = tIP
    rw [← hb, FixedBytes.ofList_self]
  · show FixedBytes.ofList 4 [a0, a1, a2, a3] = sIP
    rw [← ha, FixedBytes.ofList_self]

/-- A reply of `HandleARP` answers the request it was built for: read back through
`ParseEthernetFrame` and the header checks of `HandleARP`, it is a well-formed ARP reply sent to
the requester's MAC from the MAC it reports, whose sender IP is the one asked for and whose
target is the requester, MAC and IP. -/
theorem handleARP_reply_answers_request (a : ARPProxy) (f : EthernetFrame) (now : Int)
    {r : List UInt8} (hr : (a.handleARP f now).2 = some r) :
    ∃ g, parseEthernetFrame r = .ok g ∧ g.isARP = true ∧ IsEthernetIPv4 g.payload ∧
      oper g.payload = ARPReply ∧ g.dstMAC = senderMAC f.payload ∧
      targetMAC g.payload = senderMAC f.payload ∧ senderMAC g.payload = g.srcMAC ∧
      senderIP g.payload = targetIP f.payload ∧ targetIP g.payload = senderIP f.payload := by
  rw [handleARP_snd] at hr
  split_ifs at hr with hq
  obtain ⟨e, -, he⟩ := Option.bind_eq_some.1 hr
  split_ifs at he
  obtain rfl := Option.some_inj.1 he
  obtain ⟨g, hg, harp, hwf, hop, hdst, hsrc, hsm, hsi, htm, hti⟩ :=
    parseEthernetFrame_buildARPReply e.mac (senderMAC f.payload) (senderIP f.payload) (targetIP f.payload)
  rw [FixedBytes.ofList_bytes (length_senderMAC hq.1)] at hdst htm
  exact ⟨g, hg, harp, hwf, hop, hdst, htm, hsm.trans hsrc.symm, hsi, hti⟩

/-- A gratuitous request from `10.0.0.1` at `02:00:00:00:00:01` to a fresh proxy is answered
with the binding it announces, addressed back to the announcer. -/
theorem announcement_reply_answers_announcer :
    let f : EthernetFrame := ⟨List.replicate 6 0xff, [2, 0, 0, 0, 0, 1], EtherTypeARP,
      [0, 1, 8, 0, 6, 4, 0, 1, 2, 0, 0, 0, 0, 1, 10, 0, 0, 1, 0, 0, 0, 0, 0, 0, 10, 0, 0, 1], []⟩
    let r : List UInt8 := [2, 0, 0, 0, 0, 1, 2, 0, 0, 0, 0, 1, 8, 6, 0, 1, 8, 0, 6, 4, 0, 2,
      2, 0, 0, 0, 0, 1, 10, 0, 0, 1, 2, 0, 0, 0, 0, 1, 10, 0, 0, 1]
    (ARPProxy.new.handleARP f 0).2 = some r ∧
      ∃ g, parseEthernetFrame r = .ok g ∧ g.isARP = true ∧ IsEthernetIPv4 g.payload ∧
        oper g.payload = ARPReply ∧ g.dstMAC = senderMAC f.payload ∧
        targetMAC g.payload = senderMAC f.payload ∧ senderMAC g.payload = g.srcMAC ∧
        senderIP g.payload = targetIP f.payload ∧ targetIP g.payload = senderIP f.payload := by
  intro f r
  have hr : (ARPProxy.new.handleARP f 0).2 = some r := by decide
  exact ⟨hr, handleARP_reply_answers_request _ _ _ hr⟩

def hostIP (i : Nat) : IPv4Key := FixedBytes.ofList 4 (putUintBE 4 (0x0a000000 + i))

theorem uintBE_hostIP {i : Nat} (hi : i < 1024) : uintBE (hostIP i).bytes = 0x0a000000 + i := by
  rw [hostIP, FixedBytes.ofList_bytes (length_putUintBE 4 _), uintBE_putUintBE,
    Nat.mod_eq_of_lt (by omega)]

/-- The bindings of host `i < 1024`: `hostIP i` at MAC `00:00:00:00:hi:lo`, last seen at time 0. -/
def hostBindings : List (Σ _ : IPv4Key, ARPEntry) :=
  (List.range 1024).map fun i => ⟨hostIP i, ⟨putUintBE 6 i, 0⟩⟩

theorem nodupKeys_hostBindings : hostBindings.NodupKeys := by
  unfold hostBindings List.NodupKeys List.keys
  rw [List.map_map]
  exact (List.nodup_range 1024).map_on fun i hi j hj h => by
    have h := congrArg (fun k : IPv4Key => uintBE k.bytes) h
    simp only [Function.comp_apply, uintBE_hostIP (List.mem_range.1 hi),
      uintBE_hostIP (List.mem_range.1 hj)] at h
    omega

def hostCache : ARPCache := ⟨hostBindings, nodupKeys_hostBindings⟩

theorem hostCache_entries : hostCache.entries = hostBindings := by rw [hostCache]

/-- An ARP reply from `10.1.0.0` at `02:00:00:00:00:01` to `10.0.0.1`. -/
def replyFrame : EthernetFrame := ⟨[], [], EtherTypeARP,
  [0, 1, 8, 0, 6, 4, 0, 2, 2, 0, 0, 0, 0, 1, 10, 1, 0, 0, 0, 0, 0, 0, 0, 0, 10, 0, 0, 1], []⟩

/-- The reply reaching a proxy whose cache is full of bindings older than it: the proxy learns
the sender twice and ends with 1023 entries, where one `learn` leaves 1024. -/
theorem reply_to_full_cache_evicts_twice :
    IsEthernetIPv4 replyFrame.payload ∧ oper replyFrame.payload = ARPReply ∧
      hostCache.size = ARPCacheMaxSize ∧
      (learn hostCache (senderIP replyFrame.payload) (senderMAC replyFrame.payload) 1).size =
        ARPCacheMaxSize ∧
      ((⟨hostCache⟩ : ARPProxy).handleARP replyFrame 1).1.cache.size + 1 = ARPCacheMaxSize := by
  have hwf : IsEthernetIPv4 replyFrame.payload := by decide
  have hop : oper replyFrame.payload = ARPReply := by decide
  have hsize : hostCache.size = ARPCacheMaxSize := by
    simp only [GoMap.size, hostCache_entries, hostBindings, List.length_map,
      List.length_range]; rfl
  have hip : senderIP replyFrame.payload ∉ hostCache := by
    intro h
    obtain ⟨v, hv⟩ := List.mem_keys.1 (AList.mem_keys.1 h)
    rw [hostCache_entries, hostBindings] at hv
    obtain ⟨i, hi, he⟩ := List.mem_map.1 hv
    have h := congrArg (fun x : Σ _ : IPv4Key, ARPEntry => uintBE x.1.bytes) he
    have : uintBE (senderIP replyFrame.payload).bytes = 0x0a010000 := by decide
    simp only [uintBE_hostIP (List.mem_range.1 hi), this] at h
    have := List.mem_range.1 hi
    omega
  have hold : ∀ e ∈ hostCache.entries, e.2.lastSeen < 1 := fun e he => by
    rw [hostCache_entries, hostBindings] at he
    obtain ⟨i, -, rfl⟩ := List.mem_map.1 he
    exact (by decide : (0 : Int) < 1)
  obtain ⟨-, -, hcache, hlearn⟩ := handleARP_answers_fresh_requests ⟨hostCache⟩ replyFrame 1
  have h₁ := hlearn hostCache _ (senderMAC replyFrame.payload) 1 (hsize ▸ le_refl _) hip hold
  have h₂ := (size_learn_of_full (hsize ▸ le_refl _) hip (senderMAC replyFrame.payload) 1).trans hsize
  -- the cache in the syntactic form of `h₁`, so that the kernel never evaluates a size
  have hc : ((⟨hostCache⟩ : ARPProxy).handleARP replyFrame 1).1.cache =
      learn (learn hostCache (senderIP replyFrame.payload) (senderMAC replyFrame.payload) 1)
        (senderIP replyFrame.payload) (senderMAC replyFrame.payload) 1 := by
    rw [hcache, if_pos hwf, if_pos hop]
  exact ⟨hwf, hop, hsize, h₂, by rw [hc, h₁, h₂]⟩

/-- One call on the proxy by the agent's loops. -/
inductive ARPOp where
  | handleARP (frame : EthernetFrame) (now : Int)
  | cleanExpired (now : Int)

def apply (a : ARPProxy) : ARPOp → ARPProxy
  | .handleARP frame now => (a.handleARP frame now).1
  | .cleanExpired now => (a.cleanExpired now).1

def run (a : ARPProxy) (ops : List ARPOp) : ARPProxy := ops.foldl apply a

theorem size_apply_le {a : ARPProxy} (ha : a.cache.size ≤ ARPCacheMaxSize) (op : ARPOp) :
    (a.apply op).cache.size ≤ ARPCacheMaxSize := by
  cases op with
  | handleARP frame now => exact size_handleARP_le ha frame now
  | cleanExpired now => exact (GoMap.size_filter_le _ _).trans ha

theorem size_run_le {a : ARPProxy} (ha : a.cache.size ≤ ARPCacheMaxSize) (ops : List ARPOp) :
    (a.run ops).cache.size ≤ ARPCacheMaxSize := by
  induction ops generalizing a with
  | nil => exact ha
  | cons op ops ih => exact ih (size_apply_le ha op)

end ARPProxy

theorem Switch.size_run_le {sw : Switch} (hsw : sw.macTable.size ≤ MACTableMaxSize)
    (ops : List Switch.SwitchOp) : (sw.run ops).macTable.size ≤ MACTableMaxSize :=
  Switch.run_invariant (fun sw => sw.macTable.size ≤ MACTableMaxSize) (fun _ => True)
    (fun _ op _ h => Switch.size_apply_le h op) (fun _ _ => trivial) hsw

/-- Both tables of a network stay within their bounds over every run that starts
within them, the empty tables of `NewSwitch` and `NewARPProxy` included. -/
theorem tables_within_bounds :
    (∀ (sw : Switch) (ops : List Switch.SwitchOp), sw.macTable.size ≤ MACTableMaxSize →
      (sw.run ops).macTable.size ≤ MACTableMaxSize) ∧
    (∀ (a : ARPProxy) (ops : List ARPProxy.ARPOp), a.cache.size ≤ ARPCacheMaxSize →
      (a.run ops).cache.size ≤ ARPCacheMaxSize) :=
  ⟨fun _ ops h => Switch.size_run_le h ops, fun _ ops h => ARPProxy.size_run_le h ops⟩

/-- On a full table, `learn` deletes an entry with the least `LastSeen`, local or not, and
does so also when the key it writes is already in the table; the ARP cache's `learn` runs
the same eviction. -/
theorem full_learn_evicts_oldest :
    (∀ (t : MACTable) (mac : List UInt8) (peerAddr : Address) (isLocal : Bool) (now : Int),
      MACTableMaxSize ≤ t.size →
      ∃ o ∈ t.entries, (∀ e ∈ t.entries, o.2.lastSeen ≤ e.2.lastSeen) ∧
        Switch.learn t mac peerAddr isLocal now =
          (t.erase o.1).insert (macToKey mac) ⟨peerAddr, now, isLocal⟩) ∧
    (∀ (c : ARPCache) (ip : IPv4Key) (mac : List UInt8) (now : Int), ARPCacheMaxSize ≤ c.size →
      ∃ o ∈ c.entries, (∀ e ∈ c.entries, o.2.lastSeen ≤ e.2.lastSeen) ∧
        ARPProxy.learn c ip mac now =
          (c.erase o.1).insert ip ⟨(FixedBytes.ofList 6 mac).bytes, now⟩) :=
  ⟨fun _ mac peerAddr isLocal now h => Switch.learn_of_full h mac peerAddr isLocal now,
    fun _ ip mac now h => ARPProxy.learn_of_full h ip mac now⟩

/-- The two sweeps of the maintenance loop. `Switch.CleanExpired` deletes exactly the
non-local entries last seen before `now - 5 min`, `ARPProxy.CleanExpired` exactly the
entries last seen before it; every other entry stays as it was, and each returns the number
of entries it deleted. -/
theorem cleanExpired_removes_expired (sw : Switch) (a : ARPProxy) (now : Int) :
    ((∀ k v, (sw.cleanExpired now).1.macTable.lookup k = some v ↔
        sw.macTable.lookup k = some v ∧ ¬(v.lastSeen < now - MACTableExpiry ∧ v.isLocal = false)) ∧
      (sw.cleanExpired now).2 =
        sw.macTable.entries.countP fun e => e.2.lastSeen < now - MACTableExpiry ∧ e.2.isLocal = false) ∧
    ((∀ ip v, (a.cleanExpired now).1.cache.lookup ip = some v ↔
        a.cache.lookup ip = some v ∧ ¬v.lastSeen < now - ARPCacheExpiry) ∧
      (a.cleanExpired now).2 = a.cache.entries.countP fun e => e.2.lastSeen < now - ARPCacheExpiry) := by
  refine ⟨⟨fun k v => ?_, ?_⟩, fun _ _ => ARPProxy.lookup_cleanExpired, ARPProxy.cleanExpired_count a now⟩
  · simp [Switch.lookup_cleanExpired, Switch.expired]
  · simp only [Switch.cleanExpired_count, Switch.expired, Bool.decide_and, Bool.decide_eq_false,
      decide_eq_true_eq]

def hostMAC (i : Nat) : List UInt8 := [2, 0, 0, 0, UInt8.ofNat (i / 256), UInt8.ofNat (i % 256)]

theorem macToKey_hostMAC_inj {i j : Nat} (hi : i < 4096) (hj : j < 4096)
    (h : macToKey (hostMAC i) = macToKey (hostMAC j)) : i = j := by
  have hb := congrArg FixedBytes.bytes h
  rw [macToKey, macToKey, FixedBytes.ofList_bytes (show (hostMAC i).length = 6 from rfl),
    FixedBytes.ofList_bytes (show (hostMAC j).length = 6 from rfl)] at hb
  simp only [hostMAC, List.cons.injEq] at hb
  have h₁ := congrArg UInt8.toNat hb.2.2.2.2.1
  have h₂ := congrArg UInt8.toNat hb.2.2.2.2.2.1
  simp only [uint8_toNat_ofNat] at h₁ h₂
  omega

def hostEntries (entry : Nat → MACEntry) : List (Σ _ : MACKey, MACEntry) :=
  (List.range 4096).map fun i => ⟨macToKey (hostMAC i), entry i⟩

theorem nodupKeys_hostEntries (entry : Nat → MACEntry) : (hostEntries entry).NodupKeys := by
  unfold hostEntries List.NodupKeys List.keys
  rw [List.map_map]
  exact (List.nodup_range 4096).map_on fun i hi j hj h =>
    macToKey_hostMAC_inj (List.mem_range.mp hi) (List.mem_range.mp hj) h

theorem mem_hostEntries {entry : Nat → MACEntry} {x : Σ _ : MACKey, MACEntry} :
    x ∈ hostEntries entry ↔ ∃ i < 4096, ⟨macToKey (hostMAC i), entry i⟩ = x := by
  simp only [hostEntries, List.mem_map, List.mem_range]

def hostTable (entry : Nat → MACEntry) : MACTable :=
  ⟨hostEntries entry, nodupKeys_hostEntries entry⟩

theorem hostTable_entries (entry : Nat → MACEntry) :
    (hostTable entry).entries = hostEntries entry := by
  rw [hostTable]

/-- Re-learning host 1's MAC, already in a full table of local entries where host `i` was
last seen at time `i`, evicts host 0's local entry. -/
theorem refresh_evicts_local_entry :
    let t := hostTable fun i => ⟨Address.zero, i, true⟩
    MACTableMaxSize ≤ t.size ∧ t.lookup (macToKey (hostMAC 1)) ≠ none ∧
      t.lookup (macToKey (hostMAC 0)) = some ⟨Address.zero, 0, true⟩ ∧
      (Switch.learn t (hostMAC 1) Address.zero true 4096).lookup (macToKey (hostMAC 0)) = none := by
  intro t
  have hsize : MACTableMaxSize ≤ t.size := by
    rw [GoMap.size, hostTable_entries, hostEntries, List.length_map, List.length_range]
    exact le_refl _
  have hmem : ∀ i < 4096, (⟨macToKey (hostMAC i), ⟨Address.zero, i, true⟩⟩ : Σ _ : MACKey, MACEntry)
      ∈ t.entries := fun i hi => by
    rw [hostTable_entries, mem_hostEntries]
    exact ⟨i, hi, rfl⟩
  obtain ⟨o, ho, hle, hlearn⟩ :=
    full_learn_evicts_oldest.1 t (hostMAC 1) Address.zero true 4096 hsize
  rw [hostTable_entries, mem_hostEntries] at ho
  obtain ⟨i, hi, rfl⟩ := ho
  have hi0 : i = 0 := by
    have := hle _ (hmem 0 (by decide))
    simp only at this
    omega
  subst hi0
  refine ⟨hsize, ?_, AList.mem_lookup_iff.mpr (hmem 0 (by decide)), ?_⟩
  · rw [AList.mem_lookup_iff.mpr (hmem 1 (by decide))]
    exact Option.some_ne_none _
  · rw [hlearn, AList.lookup_insert_ne (fun h => absurd (macToKey_hostMAC_inj (by decide)
      (by decide) h) (by decide)), AList.lookup_erase]

/-- `Network`: the switch and the ARP proxy of one virtual network. -/
structure Network where
  switch : Switch
  arp : ARPProxy

/-- `NewNetwork`. -/
def Network.new (networkID : UInt32) : Network := ⟨Switch.new networkID, ARPProxy.new⟩

end ZeroGo.Vl2
