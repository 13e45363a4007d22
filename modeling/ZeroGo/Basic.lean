import Mathlib.Algebra.Group.Nat.Basic
import Mathlib.Data.List.AList

/-!
Machine-level vocabulary shared by every package of the agent and the controller:
fixed-size byte arrays, the `encoding/binary` codecs, Go maps, the imported
cryptographic primitives and the node address of package `identity`.

A Go map is an association list whose keys are pairwise distinct; `range` over it
visits `entries` in list order, and results that Go leaves to the randomised
iteration order are stated for every order separately. The primitives are
uninterpreted: a theorem that needs an algebraic law of one of them (the AEAD
opens what it sealed, Diffie-Hellman commutes) takes that law as a hypothesis.
-/

namespace ZeroGo

/-- A Go `[n]byte` array. -/
structure FixedBytes (n : Nat) where
  bytes : List UInt8
  length_eq : bytes.length = n
  deriving DecidableEq

/-- The zero value of a `[n]byte`. -/
def FixedBytes.zero (n : Nat) : FixedBytes n := ⟨List.replicate n 0, List.length_replicate n 0⟩

instance (n : Nat) : Inhabited (FixedBytes n) := ⟨FixedBytes.zero n⟩

/-- `copy(dst[:], src)` into a zeroed `[n]byte`: the first `n` bytes, zero-padded. -/
def FixedBytes.ofList (n : Nat) (src : List UInt8) : FixedBytes n :=
  ⟨(src ++ List.replicate n 0).take n, by simp⟩

@[simp] theorem FixedBytes.ofList_bytes {n : Nat} {src : List UInt8} (h : src.length = n) :
    (FixedBytes.ofList n src).bytes = src := by
  simp [FixedBytes.ofList, ← h]

theorem FixedBytes.ofList_self {n : Nat} (b : FixedBytes n) : FixedBytes.ofList n b.bytes = b := by
  obtain ⟨s, hs⟩ := b
  simp only [FixedBytes.ofList, FixedBytes.mk.injEq]
  rw [List.take_append_of_le_length hs.ge, List.take_of_length_le hs.le]

theorem FixedBytes.bytes_eq_six (x : FixedBytes 6) : ∃ a b c d e f, x.bytes = [a, b, c, d, e, f] := by
  obtain ⟨_ | ⟨a, _ | ⟨b, _ | ⟨c, _ | ⟨d, _ | ⟨e, _ | ⟨f, _ | ⟨g, l⟩⟩⟩⟩⟩⟩⟩, h⟩ := x
  all_goals simp only [List.length_cons, List.length_nil] at h
  all_goals first | exact ⟨_, _, _, _, _, _, rfl⟩ | omega

theorem FixedBytes.bytes_eq_four (x : FixedBytes 4) : ∃ a b c d, x.bytes = [a, b, c, d] := by
  obtain ⟨_ | ⟨a, _ | ⟨b, _ | ⟨c, _ | ⟨d, _ | ⟨g, l⟩⟩⟩⟩⟩, h⟩ := x
  all_goals simp only [List.length_cons, List.length_nil] at h
  all_goals first | exact ⟨_, _, _, _, rfl⟩ | omega

/-- A `[32]byte`: public and private keys, PSKs and BLAKE2s digests. -/
abbrev Bytes32 := FixedBytes 32

/-! ### `encoding/binary` -/

theorem uint8_toNat_ofNat (n : Nat) : (UInt8.ofNat n).toNat = n % 256 := by
  simp [UInt8.ofNat, UInt8.toNat, BitVec.toNat_ofNat]

theorem uint16_toNat_ofNat (n : Nat) : (UInt16.ofNat n).toNat = n % 2 ^ 16 := by
  simp [UInt16.ofNat, UInt16.toNat, BitVec.toNat_ofNat]

theorem uint32_toNat_ofNat (n : Nat) : (UInt32.ofNat n).toNat = n % 2 ^ 32 := by
  simp [UInt32.ofNat, UInt32.toNat, BitVec.toNat_ofNat]

theorem uint64_toNat_ofNat (n : Nat) : (UInt64.ofNat n).toNat = n % 2 ^ 64 := by
  simp [UInt64.ofNat, UInt64.toNat, BitVec.toNat_ofNat]

theorem uint64_ofNat_toNat (x : UInt64) : UInt64.ofNat x.toNat = x :=
  UInt64.toNat.inj (by rw [uint64_toNat_ofNat]; exact Nat.mod_eq_of_lt x.toNat_lt_size)

theorem uint64_le_iff {a b : UInt64} : a ≤ b ↔ a.toNat ≤ b.toNat := Iff.rfl

theorem uint64_ofNat_add_one (n : Nat) : UInt64.ofNat n + 1 = UInt64.ofNat (n + 1) :=
  congrArg UInt64.mk (BitVec.ofNat_add_ofNat ..)

theorem uint64_ofNat_inj {i j : Nat} (hi : i < 2 ^ 64) (hj : j < 2 ^ 64)
    (h : UInt64.ofNat i = UInt64.ofNat j) : i = j := by
  have h := congrArg UInt64.toNat h
  rwa [uint64_toNat_ofNat, uint64_toNat_ofNat, Nat.mod_eq_of_lt hi, Nat.mod_eq_of_lt hj] at h

/-- `binary.LittleEndian.PutUintN` for `N = 8 * width`: least significant byte first. -/
def putUintLE : Nat → Nat → List UInt8
  | 0, _ => []
  | w + 1, x => UInt8.ofNat x :: putUintLE w (x / 256)

/-- `binary.LittleEndian.UintN` on a slice of exactly the width. -/
def uintLE : List UInt8 → Nat
  | [] => 0
  | b :: bs => b.toNat + 256 * uintLE bs

/-- `binary.BigEndian.PutUintN`: the same bytes, most significant first. -/
def putUintBE (w x : Nat) : List UInt8 := (putUintLE w x).reverse

/-- `binary.BigEndian.UintN`. -/
def uintBE (bs : List UInt8) : Nat := uintLE bs.reverse

@[simp] theorem length_putUintLE (w x : Nat) : (putUintLE w x).length = w := by
  induction w generalizing x <;> simp [putUintLE, *]

@[simp] theorem length_putUintBE (w x : Nat) : (putUintBE w x).length = w := by
  simp [putUintBE]

theorem uintLE_putUintLE (w x : Nat) : uintLE (putUintLE w x) = x % 256 ^ w := by
  induction w generalizing x with
  | zero => simp [putUintLE, uintLE, Nat.mod_one]
  | succ w ih =>
      simp only [putUintLE, uintLE, ih, uint8_toNat_ofNat, Nat.pow_succ', Nat.mod_mul]

theorem putUintLE_uintLE (bs : List UInt8) : putUintLE bs.length (uintLE bs) = bs := by
  induction bs with
  | nil => rfl
  | cons b bs ih =>
      have hb : b.toNat < 256 := b.toNat_lt_size
      have hdiv : (b.toNat + 256 * uintLE bs) / 256 = uintLE bs := by omega
      simp only [List.length_cons, putUintLE, uintLE, hdiv, ih, List.cons.injEq, and_true]
      exact UInt8.toNat.inj (by rw [uint8_toNat_ofNat]; omega)

theorem uintLE_lt (bs : List UInt8) : uintLE bs < 256 ^ bs.length := by
  induction bs with
  | nil => simp [uintLE]
  | cons b bs ih =>
      have hb : b.toNat < 256 := b.toNat_lt_size
      simp only [uintLE, List.length_cons, Nat.pow_succ']
      omega

theorem uintBE_putUintBE (w x : Nat) : uintBE (putUintBE w x) = x % 256 ^ w := by
  simp [uintBE, putUintBE, uintLE_putUintLE]

theorem putUintBE_uintBE (bs : List UInt8) : putUintBE bs.length (uintBE bs) = bs := by
  simpa [putUintBE, uintBE] using congrArg List.reverse (putUintLE_uintLE bs.reverse)

theorem uintBE_lt (bs : List UInt8) : uintBE bs < 256 ^ bs.length := by
  simpa [uintBE] using uintLE_lt bs.reverse

/-! Fixed-width words through their big-endian bytes. -/

theorem uint16_ofNat_uintBE_putUintBE (n : UInt16) :
    UInt16.ofNat (uintBE (putUintBE 2 n.toNat)) = n := by
  have hn : n.toNat < 2 ^ 16 := n.toNat_lt_size
  apply UInt16.toNat.inj
  rw [uint16_toNat_ofNat, uintBE_putUintBE]
  omega

theorem uint32_ofNat_uintBE_putUintBE (n : UInt32) :
    UInt32.ofNat (uintBE (putUintBE 4 n.toNat)) = n := by
  have hn : n.toNat < 2 ^ 32 := n.toNat_lt_size
  apply UInt32.toNat.inj
  rw [uint32_toNat_ofNat, uintBE_putUintBE]
  omega

theorem putUintBE_uint16_ofNat_uintBE {bs : List UInt8} (h : bs.length = 2) :
    putUintBE 2 (UInt16.ofNat (uintBE bs)).toNat = bs := by
  have hlt := uintBE_lt bs
  rw [h] at hlt
  rw [uint16_toNat_ofNat, Nat.mod_eq_of_lt (by omega), ← h, putUintBE_uintBE]

theorem putUintBE_uint32_ofNat_uintBE {bs : List UInt8} (h : bs.length = 4) :
    putUintBE 4 (UInt32.ofNat (uintBE bs)).toNat = bs := by
  have hlt := uintBE_lt bs
  rw [h] at hlt
  rw [uint32_toNat_ofNat, Nat.mod_eq_of_lt (by omega), ← h, putUintBE_uintBE]

/-! ### Go maps -/

/-- A Go `map[K]V`. -/
abbrev GoMap (K V : Type) [DecidableEq K] := AList (fun _ : K => V)

namespace GoMap

variable {K V : Type} [DecidableEq K]

/-- `len(m)`. -/
def size (m : GoMap K V) : Nat := m.entries.length

/-- The entries a `for k, v := range m { if !keep(k, v) { delete(m, k) } }` loop leaves. -/
def filter (keep : K → V → Bool) (m : GoMap K V) : GoMap K V :=
  ⟨m.entries.filter (fun s => keep s.1 s.2), m.nodupKeys.sublist (List.filter_sublist _)⟩

theorem size_erase_of_mem {k : K} {m : GoMap K V} (h : k ∈ m) :
    size (m.erase k) + 1 = m.size := by
  obtain ⟨v, hv⟩ := List.mem_keys.mp (AList.mem_keys.mp h)
  have hlen := List.length_eraseP_of_mem (p := fun s : Sigma (fun _ : K => V) => decide (k = s.1))
    hv (by simp)
  have hpos : 0 < m.entries.length := List.length_pos_of_mem hv
  change (List.kerase k m.entries).length + 1 = m.entries.length
  rw [List.kerase, hlen]
  omega

theorem size_erase_of_not_mem {k : K} {m : GoMap K V} (h : k ∉ m) :
    size (m.erase k) = m.size := by
  change (List.kerase k m.entries).length = m.entries.length
  rw [List.kerase_of_not_mem_keys (AList.mem_keys.not.mp h)]

theorem size_insert (k : K) (v : V) (m : GoMap K V) :
    size (m.insert k v) = if k ∈ m then m.size else m.size + 1 := by
  have hins : size (m.insert k v) = size (m.erase k) + 1 := by
    simp only [size, AList.insert_entries, List.length_cons]; rfl
  split
  · next h => rw [hins, size_erase_of_mem h]
  · next h => rw [hins, size_erase_of_not_mem h]

theorem size_insert_le (k : K) (v : V) (m : GoMap K V) :
    size (m.insert k v) ≤ m.size + 1 := by
  rw [size_insert]; split <;> omega

theorem size_filter_le (keep : K → V → Bool) (m : GoMap K V) :
    size (m.filter keep) ≤ m.size :=
  List.length_filter_le _ _

theorem lookup_filter_iff {keep : K → V → Bool} {m : GoMap K V} {k : K} {v : V} :
    (m.filter keep).lookup k = some v ↔ m.lookup k = some v ∧ keep k v = true := by
  simp only [← Option.mem_def, AList.mem_lookup_iff]
  exact List.mem_filter

theorem lookup_of_lookup_filter {keep : K → V → Bool} {m : GoMap K V} {k : K} {v : V}
    (h : (m.filter keep).lookup k = some v) : m.lookup k = some v ∧ keep k v :=
  lookup_filter_iff.1 h

theorem size_sub_size_filter (keep : K → V → Bool) (m : GoMap K V) :
    m.size - (m.filter keep).size = m.entries.countP fun s => !keep s.1 s.2 := by
  have h := List.length_eq_countP_add_countP (fun s : Sigma (fun _ : K => V) => keep s.1 s.2)
    m.entries
  simp only [Bool.not_eq_true, Bool.decide_eq_false] at h
  simp only [size, filter, ← List.countP_eq_length_filter]
  omega

end GoMap

/-! ### Cryptographic primitives -/

/-- The primitives the Go code imports from `golang.org/x/crypto`, as uninterpreted
functions of their inputs. -/
structure Primitives where
  /-- `blake2s.New256(key)` fed with `data`; the empty key is the unkeyed `Sum256`. -/
  blake2s : List UInt8 → List UInt8 → Bytes32
  /-- `chacha20poly1305.New(key).Seal(nil, nonce, plaintext, additionalData)`. -/
  aeadSeal : Bytes32 → List UInt8 → List UInt8 → List UInt8 → List UInt8
  /-- `Open`; `none` is an authentication failure. -/
  aeadOpen : Bytes32 → List UInt8 → List UInt8 → List UInt8 → Option (List UInt8)
  /-- `curve25519.X25519(scalar, point)`. -/
  x25519 : Bytes32 → Bytes32 → Bytes32

instance : Inhabited Primitives :=
  ⟨⟨fun _ _ => default, fun _ _ m _ => m, fun _ _ c _ => some c, fun _ _ => default⟩⟩

/-! ### Package `identity` -/

/-- A 40-bit node address, `identity.Address` (`[5]byte`). -/
structure Address where
  b0 : UInt8
  b1 : UInt8
  b2 : UInt8
  b3 : UInt8
  b4 : UInt8
  deriving DecidableEq, Repr

namespace Address

/-- `identity.Address{}`: the switch's "local" marker and the exclude-nobody argument. -/
def zero : Address := ⟨0, 0, 0, 0, 0⟩

end Address

/-- `AddressFromPublicKey`: the first five bytes of `BLAKE2s(pubKey)`, the first forced
non-zero. -/
def addressFromPublicKey (P : Primitives) (pubKey : List UInt8) : Address :=
  let hash := (P.blake2s [] pubKey).bytes
  ⟨if hash.getD 0 0 = 0 then 1 else hash.getD 0 0,
    hash.getD 1 0, hash.getD 2 0, hash.getD 3 0, hash.getD 4 0⟩

theorem addressFromPublicKey_b0_ne_zero (P : Primitives) (pubKey : List UInt8) :
    (addressFromPublicKey P pubKey).b0 ≠ 0 := by
  simp only [addressFromPublicKey]
  split <;> simp_all

theorem addressFromPublicKey_ne_zero (P : Primitives) (pubKey : List UInt8) :
    addressFromPublicKey P pubKey ≠ Address.zero := fun h =>
  addressFromPublicKey_b0_ne_zero P pubKey (by rw [h]; rfl)

end ZeroGo
