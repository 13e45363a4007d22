import ZeroGo.Basic

/-!
The transport cipher of `vl1/noise.go` as the running agent uses it: the directional
keys `DeriveKeysFromPSK` computes from the network PSK and the two static public keys,
and `NoiseCipher`, whose `Encrypt` prefixes each ciphertext with its 64-bit send
counter and whose `Decrypt` keeps a receive high-water mark.
-/

namespace ZeroGo.Vl1

variable (P : Primitives)

/-- The bytes of an ASCII string literal, as `[]byte("...")` gives them. -/
def asciiBytes (s : String) : List UInt8 := s.toList.map fun c => c.toNat.toUInt8

/-- `hmacBlake2s`: BLAKE2s keyed with `key` when it fits the 32-byte key size, keyed with
the key's hash otherwise. -/
def hmacBlake2s (key data : List UInt8) : Bytes32 :=
  if key.length ≤ 32 then P.blake2s key data
  else P.blake2s (P.blake2s [] key).bytes data

/-- The byte-wise comparison loop of `DeriveKeysFromPSK`: whether `a` sorts strictly
before `b`. -/
def pubKeyLess : List UInt8 → List UInt8 → Bool
  | a :: as, b :: bs => if a < b then true else if b < a then false else pubKeyLess as bs
  | _, _ => false

/-- `DeriveKeysFromPSK`: `(sendKey, recvKey)` for the side holding `localPub`. -/
def deriveKeysFromPSK (psk localPub remotePub : Bytes32) : Bytes32 × Bytes32 :=
  let localIsSmaller := pubKeyLess localPub.bytes remotePub.bytes
  let master := P.blake2s [] (psk.bytes ++
    if localIsSmaller then localPub.bytes ++ remotePub.bytes
    else remotePub.bytes ++ localPub.bytes)
  let k1 := hmacBlake2s P master.bytes (asciiBytes "zerogo-psk-key-1")
  let k2 := hmacBlake2s P master.bytes (asciiBytes "zerogo-psk-key-2")
  if localIsSmaller then (k1, k2) else (k2, k1)

theorem uint8_eq_of_not_lt {a b : UInt8} (h₁ : ¬a < b) (h₂ : ¬b < a) : a = b := by
  rw [UInt8.lt_def, BitVec.lt_def] at h₁ h₂
  exact UInt8.toNat.inj (by change a.toBitVec.toNat = b.toBitVec.toNat; omega)

theorem pubKeyLess_swap : ∀ {as bs : List UInt8}, as.length = bs.length → as ≠ bs →
    pubKeyLess bs as = !pubKeyLess as bs
  | [], [], _, hne => absurd rfl hne
  | [], _ :: _, hlen, _ | _ :: _, [], hlen, _ => by simp at hlen
  | a :: as, b :: bs, hlen, hne => by
      simp only [pubKeyLess]
      by_cases hab : a < b
      · simp [hab, UInt8.lt_asymm hab]
      · by_cases hba : b < a
        · simp [hab, hba]
        · obtain rfl := uint8_eq_of_not_lt hab hba
          simp only [hab, if_false]
          exact pubKeyLess_swap (by simpa using hlen) fun h => hne (h ▸ rfl)

/-- Two sides with distinct public keys order them the same way, so each derives the other's
keys swapped. -/
theorem deriveKeysFromPSK_swap (psk : Bytes32) {pa pb : Bytes32} (hne : pa ≠ pb) :
    deriveKeysFromPSK P psk pa pb = (deriveKeysFromPSK P psk pb pa).swap := by
  have hless := pubKeyLess_swap (pa.length_eq.trans pb.length_eq.symm) fun h => hne (by
    cases pa; cases pb; simp only at h; subst h; rfl)
  simp only [deriveKeysFromPSK, hless]
  cases pubKeyLess pa.bytes pb.bytes <;> rfl

/-- `NoiseTagSize`, the Poly1305 tag length. -/
def NoiseTagSize : Nat := 16

/-- `NoiseCipher`; the counters are Go `uint64`s. -/
structure NoiseCipher where
  sendKey : Bytes32
  recvKey : Bytes32
  sendNonce : UInt64
  recvNonce : UInt64
  deriving DecidableEq

namespace NoiseCipher

/-- `NewNoiseCipher`: both counters start at zero. -/
def new (keys : Bytes32 × Bytes32) : NoiseCipher := ⟨keys.1, keys.2, 0, 0⟩

/-- The 12-byte ChaCha20-Poly1305 nonce of a counter: four zero bytes, then the counter
little-endian. -/
def nonceOf (counter : UInt64) : List UInt8 := List.replicate 4 0 ++ putUintLE 8 counter.toNat

/-- `Encrypt`: the cipher with its send counter advanced (`sendNonce.Add(1) - 1`, which
wraps), and the counter followed by the sealed plaintext. -/
def encrypt (c : NoiseCipher) (plaintext : List UInt8) : NoiseCipher × List UInt8 :=
  let counter := c.sendNonce
  ({ c with sendNonce := counter + 1 },
    putUintLE 8 counter.toNat ++ P.aeadSeal c.sendKey (nonceOf counter) plaintext [])

/-- `Decrypt`: the cipher with its receive mark updated, and the plaintext. -/
def decrypt (c : NoiseCipher) (data : List UInt8) : Except String (NoiseCipher × List UInt8) :=
  if data.length < 8 + NoiseTagSize then .error "ciphertext too short" else
  let counter := UInt64.ofNat (uintLE (data.take 8))
  match P.aeadOpen c.recvKey (nonceOf counter) (data.drop 8) [] with
  | none => .error "decrypt failed"
  | some plaintext =>
      .ok ({ c with recvNonce := if c.recvNonce ≤ counter then counter + 1 else c.recvNonce },
        plaintext)

@[simp] theorem new_sendNonce (keys : Bytes32 × Bytes32) : (new keys).sendNonce = 0 := rfl
@[simp] theorem new_sendKey (keys : Bytes32 × Bytes32) : (new keys).sendKey = keys.1 := rfl
@[simp] theorem encrypt_sendKey (c : NoiseCipher) (m : List UInt8) :
    (encrypt P c m).1.sendKey = c.sendKey := rfl
@[simp] theorem encrypt_recvKey (c : NoiseCipher) (m : List UInt8) :
    (encrypt P c m).1.recvKey = c.recvKey := rfl
@[simp] theorem encrypt_sendNonce (c : NoiseCipher) (m : List UInt8) :
    (encrypt P c m).1.sendNonce = c.sendNonce + 1 := rfl

theorem decrypt_ok {c c' : NoiseCipher} {data m : List UInt8}
    (h : decrypt P c data = .ok (c', m)) :
    let counter := UInt64.ofNat (uintLE (data.take 8))
    P.aeadOpen c.recvKey (nonceOf counter) (data.drop 8) [] = some m ∧
      c' = { c with recvNonce := if c.recvNonce ≤ counter then counter + 1 else c.recvNonce } := by
  unfold decrypt at h
  split at h
  · cases h
  · dsimp only at h
    split at h
    · cases h
    · next hopen => cases h; exact ⟨hopen, rfl⟩

theorem decrypt_keys {c c' : NoiseCipher} {data plaintext : List UInt8}
    (h : decrypt P c data = .ok (c', plaintext)) :
    c'.sendKey = c.sendKey ∧ c'.recvKey = c.recvKey ∧ c'.sendNonce = c.sendNonce := by
  obtain ⟨-, rfl⟩ := decrypt_ok P h
  exact ⟨rfl, rfl, rfl⟩

/-- The receive mark after a successful `Decrypt` of counter `n`, as a number: the larger of
the old mark and `n + 1`, except at `n = 2^64 - 1`, where the `uint64` sum `n + 1` is 0. -/
theorem decrypt_recvNonce {c c' : NoiseCipher} {data m : List UInt8}
    (h : decrypt P c data = .ok (c', m)) :
    c'.recvNonce.toNat = if uintLE (data.take 8) < 2 ^ 64 - 1
      then max c.recvNonce.toNat (uintLE (data.take 8) + 1) else 0 := by
  obtain ⟨-, rfl⟩ := decrypt_ok P h
  have hn : uintLE (data.take 8) < 2 ^ 64 :=
    (uintLE_lt _).trans_le (Nat.pow_le_pow_right (by decide) (List.length_take_le _ _))
  have hr : c.recvNonce.toNat < 2 ^ 64 := c.recvNonce.toNat_lt_size
  simp only [uint64_ofNat_add_one, apply_ite UInt64.toNat, uint64_le_iff, uint64_toNat_ofNat,
    Nat.mod_eq_of_lt hn]
  split <;> split <;> omega

/-- What the transport needs of the AEAD: it opens what it sealed under the same key,
nonce and additional data, and a seal is the plaintext followed by the tag. -/
structure AeadCorrect : Prop where
  open_seal : ∀ k n m ad, P.aeadOpen k n (P.aeadSeal k n m ad) ad = some m
  length_seal : ∀ k n m ad, (P.aeadSeal k n m ad).length = m.length + NoiseTagSize

/-- A receiver whose receive key is the sender's send key decrypts what the sender
encrypted, and keeps its keys and send counter. -/
theorem decrypt_encrypt {P : Primitives} (hP : AeadCorrect P) (c d : NoiseCipher) (m : List UInt8)
    (hk : d.recvKey = c.sendKey) :
    ∃ d', decrypt P d (encrypt P c m).2 = .ok (d', m) ∧ d'.sendKey = d.sendKey ∧
      d'.recvKey = d.recvKey ∧ d'.sendNonce = d.sendNonce := by
  have hlen : (putUintLE 8 c.sendNonce.toNat).length = 8 := length_putUintLE 8 _
  have hctr : UInt64.ofNat (uintLE (putUintLE 8 c.sendNonce.toNat)) = c.sendNonce := by
    have hlt : c.sendNonce.toNat < 256 ^ 8 := c.sendNonce.toNat_lt_size
    rw [uintLE_putUintLE, Nat.mod_eq_of_lt hlt]
    exact uint64_ofNat_toNat _
  have hnot : ¬ (encrypt P c m).2.length < 8 + NoiseTagSize := by
    simp only [encrypt, List.length_append, hlen, hP.length_seal]
    omega
  unfold decrypt
  rw [if_neg hnot]
  simp only [encrypt, List.take_left' hlen, List.drop_left' hlen, hctr, hk, hP.open_seal]
  exact ⟨_, rfl, rfl, rfl, rfl⟩

/-- A sequence of `Encrypt` calls: the cipher after them and the ciphertexts in order. -/
def encryptAll (c : NoiseCipher) : List (List UInt8) → NoiseCipher × List (List UInt8)
  | [] => (c, [])
  | m :: ms =>
      let r := encrypt P c m
      let s := encryptAll r.1 ms
      (s.1, r.2 :: s.2)

/-- A sequence of `Decrypt` calls, up to the first error: the cipher after them and the
plaintexts in order. -/
def decryptAll (d : NoiseCipher) : List (List UInt8) →
    Except String (NoiseCipher × List (List UInt8))
  | [] => .ok (d, [])
  | x :: xs =>
      match decrypt P d x with
      | .error e => .error e
      | .ok (d', m) =>
          match decryptAll d' xs with
          | .error e => .error e
          | .ok (d'', ms) => .ok (d'', m :: ms)

theorem encryptAll_sealed (c : NoiseCipher) : ∀ (ms : List (List UInt8)),
    ∀ x ∈ ms.zip (encryptAll P c ms).2,
      ∃ c' : NoiseCipher, c'.sendKey = c.sendKey ∧ x.2 = (encrypt P c' x.1).2
  | [] => by simp [encryptAll]
  | m :: ms => by
      intro x hx
      simp only [encryptAll, List.zip_cons_cons, List.mem_cons] at hx
      rcases hx with rfl | hx
      · exact ⟨c, rfl, rfl⟩
      · obtain ⟨c', hk, hx⟩ := encryptAll_sealed (encrypt P c m).1 ms x hx
        exact ⟨c', hk.trans (encrypt_sendKey P c m), hx⟩

/-- Ciphertexts sealed under a receiver's receive key decrypt in any order and any number of
times, whatever the receive mark. -/
theorem decryptAll_sealed {P : Primitives} (hP : AeadCorrect P) {key : Bytes32} :
    ∀ (ds : List (List UInt8 × List UInt8)) (d : NoiseCipher), d.recvKey = key →
      (∀ x ∈ ds, ∃ c : NoiseCipher, c.sendKey = key ∧ x.2 = (encrypt P c x.1).2) →
      ∃ d', decryptAll P d (ds.map Prod.snd) = .ok (d', ds.map Prod.fst)
  | [], d, _, _ => ⟨d, rfl⟩
  | x :: ds, d, hd, hds => by
      obtain ⟨c, hc, hx⟩ := hds x (List.mem_cons_self _ _)
      obtain ⟨d₁, h₁, -, hk₁, -⟩ := decrypt_encrypt hP c d x.1 (hd.trans hc.symm)
      obtain ⟨d', h'⟩ := decryptAll_sealed hP ds d₁ (hk₁.trans hd) fun y hy =>
        hds y (List.mem_cons_of_mem _ hy)
      exact ⟨d', by simp only [List.map_cons, decryptAll, hx, h₁, h']⟩

/-- Every stream of deliveries of `c`'s ciphertexts to `d`, in any order and with any
repetition, decrypts to the plaintexts `c` encrypted. -/
def DecryptsStream (c d : NoiseCipher) : Prop :=
  ∀ (ms : List (List UInt8)) (ds : List (List UInt8 × List UInt8)),
    (∀ x ∈ ds, x ∈ ms.zip (encryptAll P c ms).2) →
    ∃ d', decryptAll P d (ds.map Prod.snd) = .ok (d', ds.map Prod.fst)

theorem decryptsStream_of_keys {P : Primitives} (hP : AeadCorrect P) {c d : NoiseCipher}
    (hk : d.recvKey = c.sendKey) : DecryptsStream P c d := fun ms ds hds =>
  decryptAll_sealed hP ds d hk fun x hx => encryptAll_sealed P c ms x (hds x hx)

theorem decryptAll_cons_ok {d d' : NoiseCipher} {x : List UInt8} {xs ms : List (List UInt8)}
    (h : decryptAll P d (x :: xs) = .ok (d', ms)) :
    ∃ d₁ m ms₁, decrypt P d x = .ok (d₁, m) ∧ decryptAll P d₁ xs = .ok (d', ms₁) := by
  simp only [decryptAll] at h
  split at h
  · cases h
  · next d₁ m _ =>
    split at h
    · cases h
    · next ms₁ h₁ => cases h; exact ⟨d₁, m, ms₁, ‹_›, h₁⟩

/-- Over a run of successful `Decrypt` calls whose counters all stay below `2^64 - 1`, the
receive mark is the running maximum of the start mark and each counter plus one. -/
theorem decryptAll_recvNonce : ∀ (xs : List (List UInt8)) {d d' : NoiseCipher}
    {ms : List (List UInt8)}, decryptAll P d xs = .ok (d', ms) →
    (∀ x ∈ xs, uintLE (x.take 8) < 2 ^ 64 - 1) →
    d'.recvNonce.toNat = xs.foldl (fun r x => max r (uintLE (x.take 8) + 1)) d.recvNonce.toNat
  | [], _, _, _, h, _ => by cases h; rfl
  | x :: xs, d, d', ms, h, hx => by
    obtain ⟨d₁, m, ms₁, h₁, h'⟩ := decryptAll_cons_ok P h
    have hd₁ := decrypt_recvNonce P h₁
    rw [if_pos (hx x (List.mem_cons_self _ _))] at hd₁
    rw [decryptAll_recvNonce xs h' fun y hy => hx y (List.mem_cons_of_mem _ hy), hd₁,
      List.foldl_cons]

/-- A computable instance of the primitives for runs on concrete inputs: BLAKE2s keeps the
first 32 bytes of key and data, the AEAD appends a zero tag, and X25519 multiplies the first
bytes of scalar and point, so that it commutes as Diffie-Hellman does. -/
def transparentPrimitives : Primitives :=
  ⟨fun k d => FixedBytes.ofList 32 (k ++ d), fun _ _ m _ => m ++ List.replicate NoiseTagSize 0,
    fun _ _ c _ => some (c.take (c.length - NoiseTagSize)),
    fun s p => FixedBytes.ofList 32 [s.bytes.getD 0 0 * p.bytes.getD 0 0]⟩

theorem transparentPrimitives_correct : AeadCorrect transparentPrimitives :=
  ⟨fun _ _ _ _ => by simp [transparentPrimitives], fun _ _ _ _ => by simp [transparentPrimitives]⟩

/-- The receive mark of `Decrypt` is a high-water mark only below the top counter: a
successful call with counter `n` leaves `max(mark, n + 1)` for `n < 2^64 - 1` and 0 for
`n = 2^64 - 1`, and a run of calls whose counters stay below the top leaves the running
maximum. -/
theorem recvNonce_after_decrypts :
    (∀ (c c' : NoiseCipher) (data m : List UInt8), decrypt P c data = .ok (c', m) →
      c'.recvNonce.toNat = if uintLE (data.take 8) < 2 ^ 64 - 1
        then max c.recvNonce.toNat (uintLE (data.take 8) + 1) else 0) ∧
    (∀ (d d' : NoiseCipher) (xs ms : List (List UInt8)), decryptAll P d xs = .ok (d', ms) →
      (∀ x ∈ xs, uintLE (x.take 8) < 2 ^ 64 - 1) →
      d'.recvNonce.toNat = xs.foldl (fun r x => max r (uintLE (x.take 8) + 1)) d.recvNonce.toNat) :=
  ⟨fun _ _ _ _ h => decrypt_recvNonce P h, fun _ _ xs _ h hx => decryptAll_recvNonce P xs h hx⟩

/-- A cipher whose mark is 5 accepts an authentic ciphertext with counter `2^64 - 1`, and its
mark falls to 0. -/
theorem max_counter_resets_recvNonce :
    let data := List.replicate 8 (0xff : UInt8) ++ List.replicate NoiseTagSize 0
    uintLE (data.take 8) = 2 ^ 64 - 1 ∧
      ∃ c', decrypt transparentPrimitives ⟨default, default, 0, 5⟩ data = .ok (c', []) ∧
        c'.recvNonce.toNat = 0 := by
  have hc : uintLE ((List.replicate 8 (0xff : UInt8) ++ List.replicate NoiseTagSize 0).take 8) =
      2 ^ 64 - 1 := by decide
  have h : decrypt transparentPrimitives ⟨default, default, 0, 5⟩
      (List.replicate 8 0xff ++ List.replicate NoiseTagSize 0) = .ok (⟨default, default, 0, 0⟩, []) :=
    rfl
  refine ⟨hc, _, h, ?_⟩
  rw [(recvNonce_after_decrypts transparentPrimitives).1 _ _ _ _ h, hc, if_neg (lt_irrefl _)]

end NoiseCipher

/-- Two peers with distinct public keys and one PSK derive directional keys that match, and
the ciphers `NewNoiseCipher` makes of them decrypt each other's ciphertext streams, whatever
the delivery order and however often a ciphertext is delivered. -/
theorem psk_ciphers_pair {P : Primitives} (hP : NoiseCipher.AeadCorrect P) (psk : Bytes32)
    {pa pb : Bytes32} (hne : pa ≠ pb) :
    deriveKeysFromPSK P psk pa pb = (deriveKeysFromPSK P psk pb pa).swap ∧
      NoiseCipher.DecryptsStream P (.new (deriveKeysFromPSK P psk pa pb))
        (.new (deriveKeysFromPSK P psk pb pa)) ∧
      NoiseCipher.DecryptsStream P (.new (deriveKeysFromPSK P psk pb pa))
        (.new (deriveKeysFromPSK P psk pa pb)) := by
  have h := deriveKeysFromPSK_swap P psk hne
  refine ⟨h, NoiseCipher.decryptsStream_of_keys hP ?_, NoiseCipher.decryptsStream_of_keys hP ?_⟩
  · change (deriveKeysFromPSK P psk pb pa).2 = (deriveKeysFromPSK P psk pa pb).1
    rw [h]
    rfl
  · change (deriveKeysFromPSK P psk pa pb).2 = (deriveKeysFromPSK P psk pb pa).1
    rw [h]
    rfl

/-- Keys `01 00 … 00` and `02 00 … 00` under the zero PSK. -/
theorem psk_ciphers_pair_keys :
    (FixedBytes.ofList 32 [1] : Bytes32) ≠ FixedBytes.ofList 32 [2] ∧
      deriveKeysFromPSK NoiseCipher.transparentPrimitives default (FixedBytes.ofList 32 [1])
          (FixedBytes.ofList 32 [2]) =
        (deriveKeysFromPSK NoiseCipher.transparentPrimitives default (FixedBytes.ofList 32 [2])
          (FixedBytes.ofList 32 [1])).swap :=
  ⟨by decide,
    (psk_ciphers_pair NoiseCipher.transparentPrimitives_correct default (by decide)).1⟩

end ZeroGo.Vl1
