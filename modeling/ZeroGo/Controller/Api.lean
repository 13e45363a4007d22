import ZeroGo.Controller.WsHandler

/-!
Member authorization of `controller/api.go`. `authorizeMember` reads the network and, for
an authorization without an address, lets `allocateIP` pick the first free host address of
the network's range; it then writes the member row with `FirstOrCreate` and notifies the
agents. Gin serves requests concurrently and nothing orders one request's read before
another's write: a request is its read and its commit, and an interleaving of requests is
any sequence of those steps. The network ID is taken as parsed from the path, and address
ranges are IPv4 CIDR blocks.
-/

namespace ZeroGo.Controller

structure AuthorizeMemberRequest where
  nodeAddress : String
  authorized : Bool
  ipAddress : String
  name : String
  deriving DecidableEq

/-- The fields of `protocol.CreateNetworkRequest` that the handlers write into the modelled
columns of a `Network` row. -/
structure CreateNetworkRequest where
  ipRange : String
  mtu : Nat
  deriving DecidableEq

/-! ### IPv4 addresses and ranges -/

/-- `IP.String` of an IPv4 address held as its 32-bit value. -/
def ipv4String (ip : Nat) : String :=
  ".".intercalate ((putUintBE 4 ip).map fun b => decimalString b.toNat)

/-- The prefix length of a CIDR block (`dtoi`): decimal digits, at most 32. -/
def parsePrefixLen (s : List Char) : Option Nat :=
  if s ≠ [] ∧ s.all Char.isDigit ∧ digitsValue s 0 ≤ 32 then some (digitsValue s 0) else none

/-- `net.ParseCIDR` of an IPv4 block: the address and the prefix length. -/
def parseCIDR (s : String) : Option (Nat × Nat) :=
  match s.toList.splitOn '/' with
  | [addr, len] =>
      match parseIPv4 (String.mk addr), parsePrefixLen len with
      | some ip, some ones => some (uintBE ip, ones)
      | _, _ => none
  | _ => none

/-- The address `allocateIP` reads from a member's `ip_address` (`ParseCIDR`, else
`ParseIP`), as its `String` keys the set of used addresses. -/
def memberIPString (s : String) : Option String :=
  match parseCIDR s with
  | some (ip, _) => some (ipv4String ip)
  | none => (parseIPv4 s).map fun bs => ipv4String (uintBE bs)

/-- The used addresses of a network: those of its members with a non-empty `ip_address`. -/
def usedIPs (db : DB) (networkID : UInt32) : List String :=
  (db.members.filter fun m => m.networkID == networkID && m.ipAddress != "").filterMap
    fun m => memberIPString m.ipAddress

/-- The loop of `allocateIP` over the block of `size` addresses at `base`: from `ip` on,
the first address of the block, not the block's last (the broadcast address), that is not
used. `inc` wraps at `2 ^ 32`. -/
def searchFree (used : List String) (base size : Nat) : Nat → Nat → Option Nat
  | 0, _ => none
  | fuel + 1, ip =>
      if ip / size ≠ base / size then none
      else if (ip + 1) % 2 ^ 32 / size ≠ base / size then none
      else if ipv4String ip ∈ used then searchFree used base size fuel ((ip + 1) % 2 ^ 32)
      else some ip

/-- `allocateIP`: the first free host address of the network's range, in CIDR notation. -/
def allocateIP (db : DB) (network : NetworkRow) : Except String String :=
  match parseCIDR network.ipRange with
  | none => .error ("invalid IP range: invalid CIDR address: " ++ network.ipRange)
  | some (ip, ones) =>
      let size := 2 ^ (32 - ones)
      let base := ip / size * size
      match searchFree (usedIPs db network.id) base size size ((base + 1) % 2 ^ 32) with
      | some host => .ok (ipv4String host ++ "/" ++ decimalString ones)
      | none => .error ("no available IPs in range " ++ network.ipRange)

/-! ### The address search of `allocateIP` -/

theorem parseIPv4_ipv4String (h : Nat) : parseIPv4 (ipv4String h) = some (putUintBE 4 h) :=
  parseIPv4_dotted (length_putUintBE 4 h)

theorem slash_not_mem_ipv4String (h : Nat) : '/' ∉ (ipv4String h).toList := by
  have hd (b : UInt8) : '/' ∉ (decimalString b.toNat).toList :=
    not_mem_decimalString (by decide) _
  unfold ipv4String
  generalize putUintBE 4 h = bs, length_putUintBE 4 h = hlen
  match bs, hlen with
  | [b0, b1, b2, b3], _ =>
    simp only [List.map, String.intercalate, String.intercalate.go, String.toList,
      String.data_append, List.mem_append, not_or]
    exact ⟨⟨⟨⟨⟨⟨hd b0, by decide⟩, hd b1⟩, by decide⟩, hd b2⟩, by decide⟩, hd b3⟩

theorem parseCIDR_cidrString {h ones : Nat} (hh : h < 2 ^ 32) (ho : ones ≤ 32) :
    parseCIDR (ipv4String h ++ "/" ++ decimalString ones) = some (h, ones) := by
  have hd : '/' ∉ (decimalString ones).toList := not_mem_decimalString (by decide) _
  have hsplit := List.splitOn_intercalate [(ipv4String h).toList, (decimalString ones).toList] '/'
    (by simp only [List.mem_cons, List.mem_nil_iff, or_false]
        rintro l (rfl | rfl) <;> first | exact slash_not_mem_ipv4String h | exact hd) (by simp)
  obtain ⟨hne, hdig, hv, -⟩ := decimalString_spec ones
  have hlen : parsePrefixLen (decimalString ones).toList = some ones := by
    rw [parsePrefixLen, if_pos ⟨hne, List.all_eq_true.2 hdig, by rw [hv]; exact ho⟩, hv]
  simp only [List.intercalate, List.intersperse, List.flatten, List.append_nil] at hsplit
  have hstr : (ipv4String h ++ "/" ++ decimalString ones).toList =
      (ipv4String h).toList ++ (['/'] ++ (decimalString ones).toList) := by
    simp [String.toList]
  have hmk : String.mk (ipv4String h).toList = ipv4String h := rfl
  rw [parseCIDR, hstr, hsplit]
  simp only [hmk, parseIPv4_ipv4String, hlen, uintBE_putUintBE,
    Nat.mod_eq_of_lt (show h < 256 ^ 4 by simpa using hh)]

theorem memberIPString_cidrString {h ones : Nat} (hh : h < 2 ^ 32) (ho : ones ≤ 32) :
    memberIPString (ipv4String h ++ "/" ++ decimalString ones) = some (ipv4String h) := by
  simp only [memberIPString, parseCIDR_cidrString hh ho]

theorem ipv4String_inj {a b : Nat} (ha : a < 2 ^ 32) (hb : b < 2 ^ 32)
    (h : ipv4String a = ipv4String b) : a = b := by
  have h' := congrArg parseIPv4 h
  rw [parseIPv4_ipv4String, parseIPv4_ipv4String, Option.some_inj] at h'
  have := congrArg uintBE h'
  rw [uintBE_putUintBE, uintBE_putUintBE] at this
  simp only [show (256 : Nat) ^ 4 = 2 ^ 32 by decide] at this
  rwa [Nat.mod_eq_of_lt ha, Nat.mod_eq_of_lt hb] at this

theorem parseIPv4_length {s : String} {bs : List UInt8} (h : parseIPv4 s = some bs) :
    bs.length = 4 := by
  unfold parseIPv4 at h
  dsimp only at h
  split at h
  · next hc => cases h; rw [List.length_map]; exact hc.1
  · cases h

theorem parseCIDR_bounds {s : String} {ip ones : Nat} (h : parseCIDR s = some (ip, ones)) :
    ip < 2 ^ 32 ∧ ones ≤ 32 := by
  unfold parseCIDR at h
  split at h
  · split at h
    · next bs n hbs hn =>
      cases h
      have hlt := uintBE_lt bs
      rw [parseIPv4_length hbs] at hlt
      unfold parsePrefixLen at hn
      split at hn
      · next hc => cases hn; exact ⟨by simpa using hlt, hc.2.2⟩
      · cases hn
    · cases h
  · cases h

theorem block_top {ip size : Nat} (hs : 0 < size) (hd : size ∣ 2 ^ 32) (hip : ip < 2 ^ 32) :
    ip / size * size + size ≤ 2 ^ 32 := by
  obtain ⟨Q, hQ⟩ := hd
  have h₁ : ip / size < Q := (Nat.div_lt_iff_lt_mul hs).2 (by rw [Nat.mul_comm, ← hQ]; exact hip)
  calc ip / size * size + size = (ip / size + 1) * size := (Nat.succ_mul _ _).symm
    _ ≤ Q * size := Nat.mul_le_mul_right _ h₁
    _ = 2 ^ 32 := by rw [hQ, Nat.mul_comm]

theorem cidrString_ne_empty (h ones : Nat) : ipv4String h ++ "/" ++ decimalString ones ≠ "" :=
  fun he => by
    have hlen := congrArg String.length he
    rw [String.length_append, String.length_append, show "/".length = 1 from rfl,
      show "".length = 0 from rfl] at hlen
    omega

section Search

variable {used : List String} {base size : Nat}

/-- The two block checks of one iteration of the loop of `allocateIP` at `ip`: `ip` is in the
block and is not its last address. -/
def InBlock (base size ip : Nat) : Prop :=
  ip / size = base / size ∧ (ip + 1) % 2 ^ 32 / size = base / size

theorem searchFree_skip {k ip : Nat} (hb : InBlock base size ip) (hu : ipv4String ip ∈ used) :
    searchFree used base size (k + 1) ip = searchFree used base size k ((ip + 1) % 2 ^ 32) := by
  simp only [searchFree, hb.1, hb.2, ne_eq, not_true, if_false, hu, if_true]

theorem searchFree_found {k ip : Nat} (hb : InBlock base size ip) (hu : ipv4String ip ∉ used) :
    searchFree used base size (k + 1) ip = some ip := by
  simp only [searchFree, hb.1, hb.2, ne_eq, not_true, if_false, hu]

theorem searchFree_leave {k ip : Nat} (hb : ¬InBlock base size ip) :
    searchFree used base size k ip = none := by
  cases k with
  | zero => rfl
  | succ k =>
    by_cases h₁ : ip / size = base / size
    · have h₂ : (ip + 1) % 2 ^ 32 / size ≠ base / size := fun h₂ => hb ⟨h₁, h₂⟩
      simp only [searchFree, h₁, ne_eq, not_true, if_false, h₂, not_false_eq_true, if_true]
    · simp only [searchFree, ne_eq, h₁, not_false_eq_true, if_true]

theorem searchFree_skip_run (k : Nat) : ∀ (j ip : Nat), ip < 2 ^ 32 → ip + j ≤ 2 ^ 32 →
    (∀ i < j, InBlock base size (ip + i) ∧ ipv4String (ip + i) ∈ used) →
    searchFree used base size (k + j) ip = searchFree used base size k ((ip + j) % 2 ^ 32)
  | 0, ip, hip, _, _ => by
    rw [Nat.add_zero, Nat.add_zero, Nat.mod_eq_of_lt hip]
  | j + 1, ip, _, hj, hall => by
    obtain ⟨hb, hu⟩ : InBlock base size ip ∧ ipv4String ip ∈ used := by
      simpa using hall 0 (by omega)
    rw [← Nat.add_assoc, searchFree_skip hb hu]
    rcases Nat.eq_zero_or_pos j with rfl | hj0
    · rfl
    · rw [Nat.mod_eq_of_lt (show ip + 1 < 2 ^ 32 by omega),
        searchFree_skip_run k j (ip + 1) (by omega) (by omega) fun i hi => by
          simpa only [Nat.add_assoc, Nat.add_comm 1] using hall (i + 1) (by omega),
        Nat.add_assoc, Nat.add_comm 1]

theorem div_eq_iff_block {p q s : Nat} (hs : 0 < s) : p / s = q ↔ q * s ≤ p ∧ p < q * s + s := by
  constructor
  · rintro rfl
    exact ⟨Nat.div_mul_le_self p s, Nat.lt_div_mul_add hs⟩
  · rintro ⟨h₁, h₂⟩
    exact Nat.div_eq_of_lt_le h₁ (by rw [Nat.succ_mul]; exact h₂)

theorem inBlock_iff {p : Nat} (hs : 0 < size) (hsz : size < 2 ^ 32) (hbase : size ∣ base)
    (htop : base + size ≤ 2 ^ 32) (hp : p < 2 ^ 32) :
    InBlock base size p ↔ base ≤ p ∧ p + 1 < base + size := by
  obtain ⟨q, rfl⟩ := hbase
  have hq : size * q / size = q := Nat.mul_div_cancel_left q hs
  rw [InBlock, hq, div_eq_iff_block hs, div_eq_iff_block hs, Nat.mul_comm q]
  rcases Nat.lt_or_ge (p + 1) (2 ^ 32) with h | h
  · rw [Nat.mod_eq_of_lt h]; omega
  · rw [show p + 1 = 2 ^ 32 by omega, Nat.mod_self]
    constructor
    · rintro ⟨⟨h₁, h₂⟩, h₃, -⟩
      have : size * q = 0 := by omega
      omega
    · intro h'; omega

end Search

theorem searchFree_block {used : List String} {ip ones : Nat} (hip : ip < 2 ^ 32) (h1 : 1 ≤ ones)
    (h32 : ones ≤ 32) :
    let size := 2 ^ (32 - ones)
    let base := ip / size * size
    (∀ h, base < h → h < base + size - 1 → ipv4String h ∉ used →
        (∀ h', base < h' → h' < h → ipv4String h' ∈ used) →
        searchFree used base size size ((base + 1) % 2 ^ 32) = some h) ∧
      ((∀ h, base < h → h < base + size - 1 → ipv4String h ∈ used) →
        searchFree used base size size ((base + 1) % 2 ^ 32) = none) := by
  intro size base
  have hs : 0 < size := Nat.two_pow_pos _
  have hsz : size < 2 ^ 32 := Nat.pow_lt_pow_right (by decide) (by omega)
  have htop : base + size ≤ 2 ^ 32 := block_top hs (Nat.pow_dvd_pow 2 (by omega)) hip
  have hin : ∀ p, p < 2 ^ 32 → (InBlock base size p ↔ base ≤ p ∧ p + 1 < base + size) :=
    fun p hp => inBlock_iff hs hsz (Nat.dvd_mul_left _ _) htop hp
  generalize base = b at *
  constructor
  · intro h hbh hht hfree hleast
    have hrun := @searchFree_skip_run used b size (size - (h - (b + 1))) (h - (b + 1)) (b + 1)
      (by omega) (by omega) fun i hi =>
        ⟨(hin _ (by omega)).2 ⟨by omega, by omega⟩, hleast _ (by omega) (by omega)⟩
    rw [show size - (h - (b + 1)) + (h - (b + 1)) = size by omega,
      show b + 1 + (h - (b + 1)) = h by omega, Nat.mod_eq_of_lt (show h < 2 ^ 32 by omega),
      show size - (h - (b + 1)) = size - (h - (b + 1)) - 1 + 1 by omega] at hrun
    rw [Nat.mod_eq_of_lt (show b + 1 < 2 ^ 32 by omega), hrun]
    exact searchFree_found ((hin h (by omega)).2 ⟨by omega, by omega⟩) hfree
  · intro hall
    rcases Nat.lt_or_ge size 2 with hs1 | hs2
    · exact searchFree_leave fun hb => by
        have := (hin _ (Nat.mod_lt _ (by decide))).1 hb
        omega
    · have hrun := @searchFree_skip_run used b size 2 (size - 2) (b + 1) (by omega) (by omega)
        fun i hi => ⟨(hin _ (by omega)).2 ⟨by omega, by omega⟩, hall _ (by omega) (by omega)⟩
      rw [show 2 + (size - 2) = size by omega, show b + 1 + (size - 2) = b + size - 1 by omega,
        Nat.mod_eq_of_lt (show b + size - 1 < 2 ^ 32 by omega)] at hrun
      rw [Nat.mod_eq_of_lt (show b + 1 < 2 ^ 32 by omega), hrun]
      exact searchFree_leave fun hb => by
        have := (hin _ (by omega)).1 hb
        omega

theorem inBlock_whole {p : Nat} (hp : p < 2 ^ 32) : InBlock 0 (2 ^ 32) p :=
  ⟨by rw [Nat.div_eq_of_lt hp, Nat.zero_div],
    by rw [Nat.div_eq_of_lt (Nat.mod_lt _ (by decide)), Nat.zero_div]⟩

/-- On the whole address space the loop never leaves: it steps from every address to the
next, wrapping from the last address to address 0, and returns the first unused address in the
order `1, 2, …, 2 ^ 32 - 1, 0`, the broadcast and the network address included. -/
theorem searchFree_whole {used : List String} :
    (∀ k p, p < 2 ^ 32 → ipv4String p ∈ used →
      searchFree used 0 (2 ^ 32) (k + 1) p = searchFree used 0 (2 ^ 32) k ((p + 1) % 2 ^ 32)) ∧
    ((∀ h, 0 < h → h < 2 ^ 32 - 1 → ipv4String h ∈ used) → ipv4String (2 ^ 32 - 1) ∉ used →
      searchFree used 0 (2 ^ 32) (2 ^ 32) 1 = some (2 ^ 32 - 1)) ∧
    ((∀ h, 0 < h → h < 2 ^ 32 → ipv4String h ∈ used) → ipv4String 0 ∉ used →
      searchFree used 0 (2 ^ 32) (2 ^ 32) 1 = some 0) := by
  refine ⟨fun k p hp hu => searchFree_skip (inBlock_whole hp) hu, fun hall hfree => ?_,
    fun hall hfree => ?_⟩
  · have hrun := @searchFree_skip_run used 0 (2 ^ 32) 2 (2 ^ 32 - 2) 1 (by decide) (by decide)
      fun i hi => ⟨inBlock_whole (by omega), hall _ (by omega) (by omega)⟩
    rw [show 2 + (2 ^ 32 - 2) = 2 ^ 32 by decide,
      show (1 + (2 ^ 32 - 2)) % 2 ^ 32 = 2 ^ 32 - 1 by decide] at hrun
    rw [hrun]
    exact searchFree_found (inBlock_whole (by decide)) hfree
  · have hrun := @searchFree_skip_run used 0 (2 ^ 32) 1 (2 ^ 32 - 1) 1 (by decide) (by decide)
      fun i hi => ⟨inBlock_whole (by omega), hall _ (by omega) (by omega)⟩
    rw [show 1 + (2 ^ 32 - 1) = 2 ^ 32 by decide, Nat.mod_self] at hrun
    rw [hrun]
    exact searchFree_found (inBlock_whole (by decide)) hfree

theorem searchFree_some {used : List String} {base size : Nat} :
    ∀ {k ip host : Nat}, searchFree used base size k ip = some host →
      ipv4String host ∉ used ∧ (host = ip ∨ host < 2 ^ 32)
  | 0, _, _, h => by cases h
  | k + 1, ip, host, h => by
    unfold searchFree at h
    split_ifs at h with h₁ h₂ h₃
    · exact ⟨(searchFree_some h).1, .inr ((searchFree_some h).2.elim
        (fun e => e ▸ Nat.mod_lt _ (by decide)) id)⟩
    · cases h; exact ⟨h₃, .inl rfl⟩

/-- What `allocateIP` returns is a host address that no member holds, as a block of at most
32 bits in CIDR notation. -/
theorem allocateIP_ok {db : DB} {network : NetworkRow} {s : String}
    (h : allocateIP db network = .ok s) :
    ∃ host ones, host < 2 ^ 32 ∧ ones ≤ 32 ∧ ipv4String host ∉ usedIPs db network.id ∧
      s = ipv4String host ++ "/" ++ decimalString ones := by
  unfold allocateIP at h
  split at h
  · cases h
  · next ip ones hc =>
    dsimp only at h
    split at h
    · next host hs =>
      cases h
      obtain ⟨hfree, hlt⟩ := searchFree_some hs
      exact ⟨host, ones, hlt.elim (fun e => e ▸ Nat.mod_lt _ (by decide)) id,
        (parseCIDR_bounds hc).2, hfree, rfl⟩
    · cases h

/-- `allocateIP` on an IPv4 range. With a prefix of at least one bit it returns the least free
address strictly between the network and the broadcast address, and its error exactly when there
is none. At `/0` it hands out the broadcast address and then the network address, and when every
address is used its loop steps on from each address to the next without end. -/
theorem allocateIP_smallest_free :
    (∀ (db : DB) (network : NetworkRow) (ip ones : Nat),
      parseCIDR network.ipRange = some (ip, ones) → 1 ≤ ones →
      let size := 2 ^ (32 - ones)
      let base := ip / size * size
      let used := usedIPs db network.id
      (∀ h, base < h → h < base + size - 1 → ipv4String h ∉ used →
          (∀ h', base < h' → h' < h → ipv4String h' ∈ used) →
          allocateIP db network = .ok (ipv4String h ++ "/" ++ decimalString ones)) ∧
        ((∀ h, base < h → h < base + size - 1 → ipv4String h ∈ used) →
          allocateIP db network = .error ("no available IPs in range " ++ network.ipRange))) ∧
    (∀ (db : DB) (network : NetworkRow) (ip : Nat), parseCIDR network.ipRange = some (ip, 0) →
      let used := usedIPs db network.id
      ((∀ h, 0 < h → h < 2 ^ 32 - 1 → ipv4String h ∈ used) → ipv4String (2 ^ 32 - 1) ∉ used →
          allocateIP db network = .ok (ipv4String (2 ^ 32 - 1) ++ "/" ++ decimalString 0)) ∧
        ((∀ h, 0 < h → h < 2 ^ 32 → ipv4String h ∈ used) → ipv4String 0 ∉ used →
          allocateIP db network = .ok (ipv4String 0 ++ "/" ++ decimalString 0)) ∧
        ((∀ h < 2 ^ 32, ipv4String h ∈ used) → ∀ k p, p < 2 ^ 32 →
          searchFree used 0 (2 ^ 32) (k + 1) p = searchFree used 0 (2 ^ 32) k ((p + 1) % 2 ^ 32))) := by
  refine ⟨fun db network ip ones hc h1 => ?_, fun db network ip hc => ?_⟩
  · obtain ⟨hip, h32⟩ := parseCIDR_bounds hc
    obtain ⟨hfound, hnone⟩ := @searchFree_block (usedIPs db network.id) ip ones hip h1 h32
    exact ⟨fun h a b c d => by simp only [allocateIP, hc, hfound h a b c d],
      fun hall => by simp only [allocateIP, hc, hnone hall]⟩
  · obtain ⟨hip, -⟩ := parseCIDR_bounds hc
    have hbase : ip / 2 ^ (32 - 0) * 2 ^ (32 - 0) = 0 := by
      rw [Nat.sub_zero, Nat.div_eq_of_lt hip, Nat.zero_mul]
    have h1 : (0 + 1) % 2 ^ 32 = 1 := rfl
    obtain ⟨hstep, hbc, hnet⟩ := @searchFree_whole (usedIPs db network.id)
    refine ⟨fun hall hfree => ?_, fun hall hfree => ?_, fun hall k p hp => hstep k p hp (hall p hp)⟩
    · simp only [allocateIP, hc, hbase, Nat.sub_zero, h1, hbc hall hfree]
    · simp only [allocateIP, hc, hbase, Nat.sub_zero, h1, hnet hall hfree]

/-- Network 7 over the whole address space `0.0.0.0/0`, whose members hold every address from
`0.0.0.1` to `255.255.255.254`. -/
def wholeSpaceDB : DB :=
  ⟨[⟨7, 1400, "", "0.0.0.0/0"⟩], [],
    (List.range' 1 (2 ^ 32 - 2)).map fun h =>
      ⟨7, ipv4String h, true, ipv4String h ++ "/" ++ decimalString 0, ""⟩⟩

theorem wholeSpaceDB_members : wholeSpaceDB.members = (List.range' 1 (2 ^ 32 - 2)).map fun h =>
    ⟨7, ipv4String h, true, ipv4String h ++ "/" ++ decimalString 0, ""⟩ := by
  rw [wholeSpaceDB]

/-- There `allocateIP` hands out the broadcast address `255.255.255.255`. -/
theorem whole_space_hands_out_broadcast :
    allocateIP wholeSpaceDB ⟨7, 1400, "", "0.0.0.0/0"⟩ = .ok "255.255.255.255/0" := by
  have hc : parseCIDR "0.0.0.0/0" = some (0, 0) := by decide
  have hmem : ∀ {s : String}, s ∈ usedIPs wholeSpaceDB 7 ↔
      ∃ h, 1 ≤ h ∧ h < 2 ^ 32 - 1 ∧ s = ipv4String h := by
    intro s
    simp only [usedIPs, List.mem_filterMap, List.mem_filter, wholeSpaceDB_members, List.mem_map,
      List.mem_range'_1]
    constructor
    · rintro ⟨_, ⟨⟨h, hr, rfl⟩, -⟩, hs⟩
      rw [memberIPString_cidrString (by omega) (by decide)] at hs
      exact ⟨h, hr.1, by omega, (Option.some_inj.1 hs).symm⟩
    · rintro ⟨h, h1, hlt, rfl⟩
      exact ⟨_, ⟨⟨h, ⟨h1, by omega⟩, rfl⟩, by simp [cidrString_ne_empty]⟩,
        memberIPString_cidrString (by omega) (by decide)⟩
  obtain ⟨hbc, -, -⟩ := allocateIP_smallest_free.2 wholeSpaceDB ⟨7, 1400, "", "0.0.0.0/0"⟩ 0 hc
  rw [hbc (fun h h0 hlt => hmem.2 ⟨h, h0, hlt, rfl⟩) fun hm => by
    obtain ⟨h, -, hlt, he⟩ := hmem.1 hm
    exact absurd (ipv4String_inj (by decide) (by omega) he) (by omega)]
  exact congrArg Except.ok (by decide)

/-! ### `authorizeMember` -/

/-- What `authorizeMember` decides from the database as it reads it: the member row it
will write, or its error response. -/
def authorizeRead (db : DB) (id : UInt32) (req : AuthorizeMemberRequest) :
    Except String Member :=
  match db.networks.find? (·.id == id) with
  | none => .error "network not found"
  | some network =>
      let ip : Except String String :=
        if req.authorized && req.ipAddress == "" then allocateIP db network else .ok req.ipAddress
      match ip with
      | .error e => .error ("IP allocation failed: " ++ e)
      | .ok ip => .ok ⟨id, req.nodeAddress, req.authorized, ip, req.name⟩

def Member.sameRow (r m : Member) : Bool := r.networkID == m.networkID && r.nodeAddress == m.nodeAddress

/-- `Where(network, node).Assign(m).FirstOrCreate`: an existing row takes the non-zero
fields of `m`, a missing row is created as `m`. -/
def DB.assignMember (db : DB) (m : Member) : DB :=
  if db.members.any (·.sameRow m) then
    { db with members := db.members.map fun r =>
        if r.sameRow m then
          { r with authorized := r.authorized || m.authorized
                   ipAddress := if m.ipAddress = "" then r.ipAddress else m.ipAddress
                   name := if m.name = "" then r.name else m.name }
        else r }
  else { db with members := db.members ++ [m] }

namespace WSHandler

/-- The rest of `authorizeMember` after its read: write the row, then, for an authorization
of a node the database knows, push the configuration to the node and announce it to the
network. -/
def authorizeCommit (h : WSHandler) (id : UInt32) (req : AuthorizeMemberRequest) (m : Member) :
    WSHandler :=
  let h := { h with db := h.db.assignMember m }
  if req.authorized then
    match h.db.findNode req.nodeAddress with
    | some node =>
        (h.sendNetworkConfigToAgent req.nodeAddress (toString id)).broadcastPeerUpdate id "add"
          ⟨node.address, node.publicKey, [], req.name⟩
    | none => h
  else h

end WSHandler

/-- A step of concurrently served `authorizeMember` requests: request `r` reads, or commits
what it read. -/
inductive AuthorizeStep where
  | read (r : Nat)
  | commit (r : Nat)

/-- The controller serving `authorizeMember` requests on one network: its state, and the
rows that requests have read and not yet written. -/
structure AuthorizeServer where
  ws : WSHandler
  pending : List (Nat × Member)

namespace AuthorizeServer

def step (id : UInt32) (reqs : Nat → AuthorizeMemberRequest) (s : AuthorizeServer) :
    AuthorizeStep → AuthorizeServer
  | .read r =>
      match authorizeRead s.ws.db id (reqs r) with
      | .ok m => { s with pending := s.pending ++ [(r, m)] }
      | .error _ => s
  | .commit r =>
      match s.pending.lookup r with
      | some m => ⟨s.ws.authorizeCommit id (reqs r) m, s.pending.filter (·.1 != r)⟩
      | none => s

def run (id : UInt32) (reqs : Nat → AuthorizeMemberRequest) (s : AuthorizeServer)
    (steps : List AuthorizeStep) : AuthorizeServer :=
  steps.foldl (step id reqs) s

end AuthorizeServer

/-! ### Reads, writes and the race between them -/

theorem allocateIP_ne_empty {db : DB} {network : NetworkRow} {ip : String}
    (h : allocateIP db network = .ok ip) : ip ≠ "" := by
  obtain ⟨host, ones, -, -, -, rfl⟩ := allocateIP_ok h
  exact cidrString_ne_empty host ones

theorem authorizeRead_allocated {db : DB} {id : UInt32} {req : AuthorizeMemberRequest}
    (ha : req.authorized = true) (he : req.ipAddress = "") {m : Member}
    (h : authorizeRead db id req = .ok m) :
    m = ⟨id, req.nodeAddress, true, m.ipAddress, req.name⟩ ∧
      ∃ network, db.networks.find? (·.id == id) = some network ∧
        allocateIP db network = .ok m.ipAddress := by
  unfold authorizeRead at h
  split at h
  · cases h
  · next network hn =>
      simp only [ha, he, beq_self_eq_true, Bool.and_self, if_true] at h
      split at h
      · cases h
      · next ip hip => cases h; exact ⟨rfl, network, hn, hip⟩

theorem authorizeRead_of_allocated (db : DB) (id : UInt32) {req : AuthorizeMemberRequest}
    (ha : req.authorized = true) (he : req.ipAddress = "") {network : NetworkRow} {ip : String}
    (hn : db.networks.find? (·.id == id) = some network) (hip : allocateIP db network = .ok ip) :
    authorizeRead db id req = .ok ⟨id, req.nodeAddress, true, ip, req.name⟩ := by
  simp only [authorizeRead, hn, ha, he, beq_self_eq_true, Bool.and_self, if_true, hip]

theorem mem_assignMember_of_sameRow_false {db : DB} {m r : Member} (hr : r ∈ db.members)
    (hne : r.sameRow m = false) : r ∈ (db.assignMember m).members := by
  unfold DB.assignMember
  split
  · exact List.mem_map.mpr ⟨r, hr, by rw [hne]; rfl⟩
  · exact List.mem_append_left _ hr

theorem exists_row_assignMember (db : DB) {m : Member} (hip : m.ipAddress ≠ "") :
    ∃ r ∈ (db.assignMember m).members, r.networkID = m.networkID ∧
      r.nodeAddress = m.nodeAddress ∧ r.ipAddress = m.ipAddress := by
  unfold DB.assignMember
  split
  · next hany =>
      obtain ⟨r, hr, hsame⟩ := List.any_eq_true.mp hany
      simp only [Member.sameRow, Bool.and_eq_true, beq_iff_eq] at hsame
      refine ⟨_, List.mem_map.mpr ⟨r, hr, rfl⟩, ?_⟩
      simp [Member.sameRow, hsame, hip]
  · exact ⟨m, List.mem_append_right _ (List.mem_singleton_self m), rfl, rfl, rfl⟩

theorem ipAddress_assignMember {db : DB} {m r : Member} (hm : m.ipAddress ≠ "")
    (hr : r ∈ (db.assignMember m).members) (hs : r.sameRow m = true) : r.ipAddress = m.ipAddress := by
  unfold DB.assignMember at hr
  split at hr
  · obtain ⟨r₀, -, rfl⟩ := List.mem_map.1 hr
    by_cases h₀ : r₀.sameRow m = true
    · simp only [h₀, if_true, hm, if_false]
    · simp only [h₀, Bool.false_eq_true, if_false] at hs ⊢
  · next hany =>
    rcases List.mem_append.1 hr with hr | hr
    · exact absurd (List.any_eq_true.2 ⟨r, hr, hs⟩) hany
    · rw [List.mem_singleton.1 hr]

namespace WSHandler

/-- `removeMember`: delete the member row, then announce the removal to the network. -/
def removeMember (h : WSHandler) (id : UInt32) (nodeAddr : String) : WSHandler :=
  let members := h.db.members.filter fun m => !(m.networkID == id && m.nodeAddress == nodeAddr)
  let h := { h with db := { h.db with members := members } }
  h.broadcastPeerUpdate id "remove" ⟨nodeAddr, "", [], ""⟩

theorem assignMember_subset_authorizeCommit (h : WSHandler) (id : UInt32)
    (req : AuthorizeMemberRequest) (m : Member) :
    (h.db.assignMember m).members ⊆ (h.authorizeCommit id req m).db.members := by
  unfold authorizeCommit
  dsimp only
  split
  · split
    · rw [broadcastPeerUpdate_db]
      exact sendNetworkConfigToAgent_members { h with db := h.db.assignMember m } _ _
    · exact List.Subset.refl _
  · exact List.Subset.refl _

end WSHandler

/-- Two requests authorizing different nodes of a network without an address, both read
before either writes: their rows end with the same address. -/
theorem interleaved_authorize_shares_ip (ws : WSHandler) (id : UInt32)
    (reqs : Nat → AuthorizeMemberRequest) (ha₀ : (reqs 0).authorized = true)
    (ha₁ : (reqs 1).authorized = true) (he₀ : (reqs 0).ipAddress = "")
    (he₁ : (reqs 1).ipAddress = "") (hne : (reqs 0).nodeAddress ≠ (reqs 1).nodeAddress)
    {m : Member} (hread : authorizeRead ws.db id (reqs 0) = .ok m) :
    let s := AuthorizeServer.run id reqs ⟨ws, []⟩ [.read 0, .read 1, .commit 0, .commit 1]
    m.ipAddress ≠ "" ∧ ∃ r₀ ∈ s.ws.db.members, ∃ r₁ ∈ s.ws.db.members,
      r₀.networkID = id ∧ r₀.nodeAddress = (reqs 0).nodeAddress ∧ r₀.ipAddress = m.ipAddress ∧
      r₁.networkID = id ∧ r₁.nodeAddress = (reqs 1).nodeAddress ∧ r₁.ipAddress = m.ipAddress := by
  intro s
  obtain ⟨hm, network, hn, halloc⟩ := authorizeRead_allocated ha₀ he₀ hread
  have hread₁ := authorizeRead_of_allocated ws.db id ha₁ he₁ hn halloc
  have hip := allocateIP_ne_empty halloc
  let m₁ : Member := ⟨id, (reqs 1).nodeAddress, true, m.ipAddress, (reqs 1).name⟩
  let ws₀ := ws.authorizeCommit id (reqs 0) m
  have hs : s.ws = ws₀.authorizeCommit id (reqs 1) m₁ := by
    simp only [s, AuthorizeServer.run, List.foldl, AuthorizeServer.step, hread, hread₁]
    rfl
  obtain ⟨r₀, hr₀, hid₀, hnode₀, hip₀⟩ := exists_row_assignMember ws.db hip
  obtain ⟨r₁, hr₁, hid₁, hnode₁, hip₁⟩ := exists_row_assignMember ws₀.db (m := m₁) hip
  rw [hm] at hid₀ hnode₀
  have hr₀' : r₀ ∈ (ws₀.db.assignMember m₁).members :=
    mem_assignMember_of_sameRow_false (ws.assignMember_subset_authorizeCommit id _ m hr₀)
      (by simp [Member.sameRow, hnode₀, hne])
  rw [hs]
  exact ⟨hip, r₀, ws₀.assignMember_subset_authorizeCommit id _ m₁ hr₀',
    r₁, ws₀.assignMember_subset_authorizeCommit id _ m₁ hr₁, hid₀, hnode₀, hip₀, hid₁, hnode₁, hip₁⟩

/-- Two authorizations on network 7 of `10.0.0.0/24`: served one after the other they get
`10.0.0.1/24` and `10.0.0.2/24`; interleaved, both rows get `10.0.0.1/24`. -/
theorem interleaved_authorize_two_nodes :
    let ws := WSHandler.new ⟨[⟨7, 1400, "", "10.0.0.0/24"⟩], [], []⟩
    let reqs : Nat → AuthorizeMemberRequest := fun r =>
      if r = 0 then ⟨"a", true, "", "A"⟩ else ⟨"b", true, "", "B"⟩
    let serve := AuthorizeServer.run 7 reqs ⟨ws, []⟩
    (serve [.read 0, .commit 0, .read 1, .commit 1]).ws.db.members.map (·.ipAddress) =
        ["10.0.0.1/24", "10.0.0.2/24"] ∧
      ∃ r₀ ∈ (serve [.read 0, .read 1, .commit 0, .commit 1]).ws.db.members,
        ∃ r₁ ∈ (serve [.read 0, .read 1, .commit 0, .commit 1]).ws.db.members,
          r₀.nodeAddress = "a" ∧ r₁.nodeAddress = "b" ∧ r₀.ipAddress = "10.0.0.1/24" ∧
            r₁.ipAddress = "10.0.0.1/24" := by
  intro ws reqs serve
  obtain ⟨-, r₀, h₀, r₁, h₁, -, hn₀, hip₀, -, hn₁, hip₁⟩ :=
    interleaved_authorize_shares_ip ws 7 reqs rfl rfl rfl rfl (by decide)
      (m := ⟨7, "a", true, "10.0.0.1/24", "A"⟩) rfl
  simp only [serve]
  exact ⟨by decide, r₀, h₀, r₁, h₁, hn₀, hn₁, hip₀, hip₁⟩

/-! ### Authorizing a member again -/

/-- Authorizing a node again without an address gives it an address that no row of the
network held, its own old one included: the write moves every row of the node to the new
address and keeps the other rows. -/
theorem reauthorize_moves_address (ws : WSHandler) (id : UInt32) (req : AuthorizeMemberRequest)
    (ha : req.authorized = true) (he : req.ipAddress = "") {r : Member} (hr : r ∈ ws.db.members)
    (hid : r.networkID = id) {m : Member}
    (hm : authorizeRead ws.db id req = .ok m) :
    m.ipAddress ≠ r.ipAddress ∧
      (∀ r' ∈ (ws.db.assignMember m).members, r'.networkID = id →
        r'.nodeAddress = req.nodeAddress → r'.ipAddress = m.ipAddress) ∧
      (∀ r' ∈ ws.db.members, r'.sameRow m = false → r' ∈ (ws.db.assignMember m).members) ∧
      ∃ r' ∈ (ws.authorizeCommit id req m).db.members, r'.networkID = id ∧
        r'.nodeAddress = req.nodeAddress ∧ r'.ipAddress = m.ipAddress := by
  obtain ⟨hmform, network, hn, halloc⟩ := authorizeRead_allocated ha he hm
  obtain ⟨host, ones, hhost, hones, hfree, hs⟩ := allocateIP_ok halloc
  have hnet : network.id = id := by simpa using List.find?_some hn
  have hne : m.ipAddress ≠ "" := allocateIP_ne_empty halloc
  refine ⟨fun heq => hfree ?_, fun r' hr' h₁ h₂ => ipAddress_assignMember hne hr' ?_,
    fun r' hr' h => mem_assignMember_of_sameRow_false hr' h, ?_⟩
  · simp only [usedIPs, List.mem_filterMap, List.mem_filter]
    refine ⟨r, ⟨hr, ?_⟩, ?_⟩
    · simp [hid, hnet, ← heq, hne]
    · rw [← heq, hs, memberIPString_cidrString hhost hones]
  · rw [hmform]; simp [Member.sameRow, h₁, h₂]
  · obtain ⟨r', hr', h₁, h₂, h₃⟩ := exists_row_assignMember ws.db hne
    rw [hmform] at h₁ h₂
    exact ⟨r', ws.assignMember_subset_authorizeCommit id req m hr', h₁, h₂, h₃⟩

/-- Node `a`, authorized on network 7 of `10.0.0.0/24` with `10.0.0.1/24`, is authorized
again without an address: its row moves to `10.0.0.2/24`. -/
theorem reauthorize_twice_moves_address :
    let ws := WSHandler.new ⟨[⟨7, 1400, "", "10.0.0.0/24"⟩], [], [⟨7, "a", true, "10.0.0.1/24", "A"⟩]⟩
    let req : AuthorizeMemberRequest := ⟨"a", true, "", "A"⟩
    let m : Member := ⟨7, "a", true, "10.0.0.2/24", "A"⟩
    authorizeRead ws.db 7 req = .ok m ∧ m.ipAddress ≠ "10.0.0.1/24" ∧
      (ws.authorizeCommit 7 req m).db.members.map (·.ipAddress) = ["10.0.0.2/24"] := by
  intro ws req m
  have hm : authorizeRead ws.db 7 req = .ok m := rfl
  exact ⟨hm, (reauthorize_moves_address ws 7 req rfl rfl (List.mem_singleton_self _) rfl hm).1,
    by decide⟩

/-! ### Peer updates

`BroadcastPeerUpdate` picks its recipients from the networks each connection listed in its
join, not from the member rows: a node whose membership is pending, or was just removed, gets
the roster changes of the network all the same. -/

/-- A peer update reaches every online node whose connection listed the network, whatever that
node's member rows are. -/
theorem peer_update_reaches_listed (h : WSHandler) (networkID : UInt32) (action : String)
    (peer : PeerInfo) {nodeAddr : String} {conn : Nat} {c : AgentConn}
    (ha : h.agents.lookup nodeAddr = some conn) (hc : h.conns.lookup conn = some c)
    (hn : toString networkID ∈ c.networks) :
    (conn, .peerUpdate ⟨action, peer⟩) ∈ (h.broadcastPeerUpdate networkID action peer).outbox := by
  rw [WSHandler.broadcastPeerUpdate_outbox]
  refine List.mem_append_right _ (List.mem_map.mpr ⟨⟨nodeAddr, conn⟩, ?_, rfl⟩)
  simp only [List.mem_filter, AList.mem_lookup_iff.mp ha, hc, Option.any_some, true_and]
  exact List.any_eq_true.mpr ⟨_, hn, beq_self_eq_true _⟩

/-- Node `b` joins network 7, on which only `a` is authorized, and stays pending; the
announcement of `a` reaches `b`, and so does the announcement of `b`'s own removal. -/
theorem pending_member_gets_peer_updates :
    let db : DB := ⟨[⟨7, 1400, "", "10.0.0.0/24"⟩], [], [⟨7, "a", true, "10.0.0.1", "A"⟩]⟩
    let h := (WSHandler.new db).run
      [.connect "b" "", .message 0 (.join ⟨"b", "", ["7"], [":9993"], "linux", "0.1.0"⟩)]
    let info : PeerInfo := ⟨"a", "", [], "A"⟩
    (h.db.findMember "7" "b").map (·.authorized) = some false ∧
      (0, .peerUpdate ⟨"add", info⟩) ∈ (h.broadcastPeerUpdate 7 "add" info).outbox ∧
      (h.removeMember 7 "b").db.findMember "7" "b" = none ∧
      (0, .peerUpdate ⟨"remove", ⟨"b", "", [], ""⟩⟩) ∈ (h.removeMember 7 "b").outbox := by
  intro db h info
  have ha : h.agents.lookup "b" = some 0 := by decide
  have hc : h.conns.lookup 0 = some ⟨"b", "", [":9993"], ["7"]⟩ := rfl
  exact ⟨by decide, peer_update_reaches_listed h 7 "add" info ha hc (by decide),
    Option.isNone_iff_eq_none.mp (by decide),
    peer_update_reaches_listed _ 7 "remove" _ (c := ⟨"b", "", [":9993"], ["7"]⟩) ha hc
      (by decide)⟩

/-! ### The other writes of the API

The network handlers and `updateMember` as they change the modelled rows. A request is taken
as bound from its JSON body; `autoID` is the ID the database gives a row whose drawn ID is
zero, which GORM treats as unset. -/

/-- `createNetwork`: a row with the ID drawn from four random bytes, the MTU defaulting to 2800
and the PSK the hex form of 32 random bytes; `Create` fails on an ID the table holds. -/
def DB.createNetwork (db : DB) (req : CreateNetworkRequest) (idBytes : FixedBytes 4)
    (autoID : UInt32) (pskBytes : Bytes32) : Except String (DB × NetworkRow) :=
  let networkID := UInt32.ofNat (uintBE idBytes.bytes)
  let network : NetworkRow :=
    ⟨if networkID = 0 then autoID else networkID, if req.mtu = 0 then 2800 else req.mtu,
      hexEncodeToString pskBytes.bytes, req.ipRange⟩
  if db.networks.any (·.id == network.id) then .error "create network failed"
  else .ok ({ db with networks := db.networks ++ [network] }, network)

/-- The updates map of `updateNetwork` applied to a row: the range when one is given and the
MTU when it is positive. -/
def CreateNetworkRequest.updated (req : CreateNetworkRequest) (n : NetworkRow) : NetworkRow :=
  { n with ipRange := if req.ipRange ≠ "" then req.ipRange else n.ipRange
           mtu := if 0 < req.mtu then req.mtu else n.mtu }

/-- `updateNetwork`: the updates written into the network's row, which the reply reads back. -/
def DB.updateNetwork (db : DB) (id : UInt32) (req : CreateNetworkRequest) :
    Except String (DB × NetworkRow) :=
  match db.networks.find? (·.id == id) with
  | none => .error "network not found"
  | some n =>
      .ok ({ db with networks := db.networks.map fun n => if n.id == id then req.updated n else n },
        req.updated n)

/-- `deleteNetwork`: the network's row goes; its member rows stay. -/
def DB.deleteNetwork (db : DB) (id : UInt32) : DB :=
  { db with networks := db.networks.filter (·.id != id) }

def Member.isRow (id : UInt32) (nodeAddr : String) (m : Member) : Bool :=
  m.networkID == id && m.nodeAddress == nodeAddr

/-- The updates map of `updateMember` applied to a row: `authorized` whatever its value, the
address and the name when they are non-empty. -/
def AuthorizeMemberRequest.updated (req : AuthorizeMemberRequest) (m : Member) : Member :=
  { m with authorized := req.authorized
           ipAddress := if req.ipAddress ≠ "" then req.ipAddress else m.ipAddress
           name := if req.name ≠ "" then req.name else m.name }

/-- `updateMember`: `Updates` with a map into the row of the network and node; a missing row
is a 404. The reply reads the row back. -/
def DB.updateMember (db : DB) (id : UInt32) (nodeAddr : String) (req : AuthorizeMemberRequest) :
    Except String (DB × Member) :=
  match db.members.find? (Member.isRow id nodeAddr) with
  | none => .error "member not found"
  | some r =>
      .ok ({ db with members := db.members.map fun m => if m.isRow id nodeAddr then req.updated m else m },
        req.updated r)

end ZeroGo.Controller
