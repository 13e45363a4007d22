import Mathlib.Data.UInt
import Mathlib.Data.Nat.Bitwise
import ZeroGo.Vl1.Cipher

/-!
The Noise IK handshake of `vl1/peer.go` (`NoiseHandshake`), which the running agent does not
call: the initiator's `CreateInitiation` and `ConsumeResponse`, the responder's
`ConsumeInitiation` and `CreateResponse`, and the transcript operations they share. The bytes
`rand.Read` draws (an ephemeral scalar, a timestamp) are inputs. Each `encryptAndHash` is
recorded, with its key, nonce and plaintext, in a log that no code reads.

Both parties hash and key the same transcript (`Agree`), so the responder accepts every
initiation and the two chaining keys stay equal to the end; but `CreateResponse` emits
`1 + 32 + 16 + 16` bytes where `ConsumeResponse` wants `HandshakeResponseSize`, and the
timestamp and the empty response payload are sealed under one key and the zero nonce.

The consume methods update the receiver as they go (`InPlace`), and a failed call keeps those
updates: a message that differs from an accepted one only in its MAC is rejected, and leaves
the receiver as the accepted message would.
-/

namespace ZeroGo

theorem FixedBytes.copyOver_length {n : Nat} (dst : FixedBytes n) (src : List UInt8) :
    (src.take n ++ dst.bytes.drop src.length).length = n := by
  simp only [List.length_append, List.length_take, List.length_drop, dst.length_eq]
  omega

/-- `copy(dst[:], src)` into an array that already holds `dst`: the first bytes come from
`src`, the others stay. -/
def FixedBytes.copyOver {n : Nat} (dst : FixedBytes n) (src : List UInt8) : FixedBytes n :=
  ⟨src.take n ++ dst.bytes.drop src.length, dst.copyOver_length src⟩

theorem FixedBytes.copyOver_self {n : Nat} (dst src : FixedBytes n) :
    dst.copyOver src.bytes = src := by
  obtain ⟨s, hs⟩ := src
  simp only [FixedBytes.copyOver, FixedBytes.mk.injEq]
  rw [List.take_of_length_le hs.le, List.drop_of_length_le (by rw [dst.length_eq, hs]),
    List.append_nil]

end ZeroGo

namespace ZeroGo.Vl1

variable (P : Primitives)

/-- `HandshakeInitiationSize`: type, ephemeral, sealed static key, sealed timestamp, MAC. -/
def HandshakeInitiationSize : Nat := 1 + 32 + 48 + 28 + 16

/-- `HandshakeResponseSize`: type, ephemeral, "empty_enc", MAC. -/
def HandshakeResponseSize : Nat := 1 + 32 + 48 + 16

def handshakeMsgInit : UInt8 := 1

def handshakeMsgResponse : UInt8 := 2

/-- `NoiseNonceSize`, the ChaCha20-Poly1305 nonce length. -/
def NoiseNonceSize : Nat := 12

def NoiseProtocolName : List UInt8 := asciiBytes "Noise_IKpsk2_25519_ChaChaPoly_BLAKE2s"

def NoisePrologue : List UInt8 := asciiBytes "zerogo-vl1-v1"

def ErrInvalidHandshake : String := "invalid handshake message"

def ErrDecryptFailed : String := "decrypt failed"

/-- The error `curve25519.X25519` returns when the shared point is all zeros. -/
def ErrLowOrderPoint : String := "crypto/ecdh: bad X25519 remote ECDH input: low order point"

/-- `curve25519.Basepoint`. -/
def basepoint : Bytes32 := FixedBytes.ofList 32 [9]

/-- `curve25519.X25519`, which refuses an all-zero result. -/
def X25519 (scalar point : Bytes32) : Except String Bytes32 :=
  let out := P.x25519 scalar point
  if out = FixedBytes.zero 32 then .error ErrLowOrderPoint else .ok out

/-- X25519 as commutative Diffie–Hellman: two scalars reach one shared point from the base
point in either order. -/
def DHCommutes : Prop :=
  ∀ a b : Bytes32, P.x25519 a (P.x25519 b basepoint) = P.x25519 b (P.x25519 a basepoint)

theorem ofList_singleton_getD (v : UInt8) : (FixedBytes.ofList 32 [v]).bytes.getD 0 0 = v := rfl

theorem transparentPrimitives_dhCommutes : DHCommutes NoiseCipher.transparentPrimitives := by
  intro a b
  show FixedBytes.ofList 32 [_ * (FixedBytes.ofList 32 [_]).bytes.getD 0 0] =
    FixedBytes.ofList 32 [_ * (FixedBytes.ofList 32 [_]).bytes.getD 0 0]
  rw [ofList_singleton_getD, ofList_singleton_getD, mul_left_comm]

/-- `constantTimeEqual`: equal lengths, and the OR of the byte-wise XORs is zero. -/
def constantTimeEqual (a b : List UInt8) : Bool :=
  a.length == b.length && (List.zipWith (· ^^^ ·) a b).foldl (· ||| ·) 0 == 0

theorem lor_eq_zero {m n : Nat} : m ||| n = 0 ↔ m = 0 ∧ n = 0 := by
  refine ⟨fun h => ?_, fun ⟨hm, hn⟩ => by rw [hm, hn]; rfl⟩
  have hb (i : Nat) : m.testBit i = false ∧ n.testBit i = false := by
    simpa [Nat.testBit_lor] using congrArg (Nat.testBit · i) h
  exact ⟨Nat.eq_of_testBit_eq fun i => by simp [(hb i).1],
    Nat.eq_of_testBit_eq fun i => by simp [(hb i).2]⟩

theorem uint8_or_eq_zero {x y : UInt8} : x ||| y = 0 ↔ x = 0 ∧ y = 0 := by
  have h : (x ||| y).toNat = x.toNat ||| y.toNat := BitVec.toNat_or _ _
  refine ⟨fun hxy => ?_, fun ⟨hx, hy⟩ => by rw [hx, hy]; rfl⟩
  rw [hxy] at h
  have h0 := lor_eq_zero.1 h.symm
  exact ⟨UInt8.toNat.inj h0.1, UInt8.toNat.inj h0.2⟩

theorem uint8_xor_eq_zero {x y : UInt8} : x ^^^ y = 0 ↔ x = y := by
  have h : (x ^^^ y).toNat = x.toNat ^^^ y.toNat := BitVec.toNat_xor _ _
  refine ⟨fun hxy => UInt8.toNat.inj (Nat.xor_eq_zero.1 ?_), fun hxy => ?_⟩
  · rw [← h, hxy]; rfl
  · exact UInt8.toNat.inj (by rw [h, hxy, Nat.xor_self]; rfl)

theorem foldl_or_zipWith_xor_eq_zero (acc : UInt8) {a b : List UInt8}
    (hlen : a.length = b.length) :
    (List.zipWith (· ^^^ ·) a b).foldl (· ||| ·) acc = 0 ↔ acc = 0 ∧ a = b := by
  induction a generalizing acc b with
  | nil => cases b <;> simp_all
  | cons x xs ih =>
    cases b with
    | nil => simp at hlen
    | cons y ys =>
      simp only [List.zipWith_cons_cons, List.foldl_cons, ih _ (Nat.succ.inj hlen),
        uint8_or_eq_zero, uint8_xor_eq_zero, List.cons.injEq, and_assoc]

theorem constantTimeEqual_iff_eq {a b : List UInt8} : constantTimeEqual a b = true ↔ a = b := by
  rw [constantTimeEqual, Bool.and_eq_true, beq_iff_eq, beq_iff_eq]
  by_cases hlen : a.length = b.length
  · rw [foldl_or_zipWith_xor_eq_zero 0 hlen]
    exact ⟨fun h => h.2.2, fun h => ⟨hlen, rfl, h⟩⟩
  · exact ⟨fun h => absurd h.1 hlen, fun h => absurd (congrArg List.length h) hlen⟩

theorem constantTimeEqual_self (a : List UInt8) : constantTimeEqual a a = true :=
  constantTimeEqual_iff_eq.2 rfl

/-- `constantTimeEqual` holds exactly of two slices of one length that agree at every
index. -/
theorem constantTimeEqual_iff (a b : List UInt8) :
    constantTimeEqual a b = true ↔
      a.length = b.length ∧ ∀ (i : Nat) (h₁ : i < a.length) (h₂ : i < b.length), a[i] = b[i] := by
  rw [constantTimeEqual_iff_eq]
  exact ⟨fun h => h ▸ ⟨rfl, fun _ _ _ => rfl⟩, fun ⟨hlen, h⟩ => List.ext_getElem hlen h⟩

/-- `NoiseHandshake`, with the log of what `encryptAndHash` sealed. -/
structure NoiseHandshake where
  localStatic : Bytes32
  localStaticPub : Bytes32
  remoteStaticPub : Bytes32
  localEphemeral : Bytes32
  localEphemeralPub : Bytes32
  psk : Bytes32
  chainingKey : Bytes32
  hash : Bytes32
  sendKey : Bytes32
  recvKey : Bytes32
  /-- Every seal of `encryptAndHash`: key, nonce and plaintext. -/
  seals : List (Bytes32 × List UInt8 × List UInt8)

namespace NoiseHandshake

/-- The nonce of every handshake seal: twelve zero bytes. -/
def zeroNonce : List UInt8 := List.replicate NoiseNonceSize 0

@[simps] def mixHash (hs : NoiseHandshake) (data : List UInt8) : NoiseHandshake :=
  { hs with hash := P.blake2s [] (hs.hash.bytes ++ data) }

@[simps] def mixKey (hs : NoiseHandshake) (input : List UInt8) : NoiseHandshake :=
  let temp := hmacBlake2s P hs.chainingKey.bytes input
  { hs with chainingKey := hmacBlake2s P temp.bytes [0x01] }

def mixKeyAndHash (hs : NoiseHandshake) (input : List UInt8) : NoiseHandshake :=
  let temp := hmacBlake2s P hs.chainingKey.bytes input
  let ck := hmacBlake2s P temp.bytes [0x01]
  let tempH := hmacBlake2s P temp.bytes (ck.bytes ++ [0x02])
  mixHash P { hs with chainingKey := ck } tempH.bytes

/-- `encryptAndHash`: the state and the ciphertext. -/
def encryptAndHash (hs : NoiseHandshake) (plaintext : List UInt8) :
    NoiseHandshake × List UInt8 :=
  let key := hmacBlake2s P hs.chainingKey.bytes [0x03]
  let ciphertext := P.aeadSeal key zeroNonce plaintext hs.hash.bytes
  (mixHash P { hs with seals := hs.seals ++ [(key, zeroNonce, plaintext)] } ciphertext,
    ciphertext)

@[simp] theorem encryptAndHash_fst (hs : NoiseHandshake) (m : List UInt8) :
    (encryptAndHash P hs m).1 = mixHash P { hs with seals := hs.seals ++
      [(hmacBlake2s P hs.chainingKey.bytes [0x03], zeroNonce, m)] } (encryptAndHash P hs m).2 :=
  rfl

theorem encryptAndHash_length {P : Primitives} (hP : NoiseCipher.AeadCorrect P)
    (hs : NoiseHandshake) (m : List UInt8) :
    (encryptAndHash P hs m).2.length = m.length + NoiseTagSize :=
  hP.length_seal _ _ _ _

/-- `decryptAndHash`: the state and the plaintext. -/
def decryptAndHash (hs : NoiseHandshake) (ciphertext : List UInt8) :
    Except String (NoiseHandshake × List UInt8) :=
  let key := hmacBlake2s P hs.chainingKey.bytes [0x03]
  match P.aeadOpen key zeroNonce ciphertext hs.hash.bytes with
  | none => .error ErrDecryptFailed
  | some plaintext => .ok (mixHash P hs ciphertext, plaintext)

/-- The scalar `generateEphemeral` makes of the random bytes:
`e[0] &= 248; e[31] &= 127; e[31] |= 64`. -/
def clamp (e : Bytes32) : Bytes32 :=
  ⟨(e.bytes.set 0 (e.bytes.getD 0 0 &&& 248)).set 31 ((e.bytes.getD 31 0 &&& 127) ||| 64),
    by simp only [List.length_set, e.length_eq]⟩

/-- `generateEphemeral`, given the 32 bytes `rand.Read` draws. -/
def generateEphemeral (hs : NoiseHandshake) (rnd : Bytes32) : Except String NoiseHandshake := do
  let pub ← X25519 P (clamp rnd) basepoint
  pure { hs with localEphemeral := clamp rnd, localEphemeralPub := pub }

def computeMAC (hs : NoiseHandshake) (data : List UInt8) : List UInt8 :=
  (hmacBlake2s P hs.hash.bytes data).bytes.take 16

theorem computeMAC_length (hs : NoiseHandshake) (data : List UInt8) :
    (computeMAC P hs data).length = 16 := by
  simp [computeMAC, FixedBytes.length_eq]

def deriveTransportKeys (hs : NoiseHandshake) (isInitiator : Bool) : NoiseHandshake :=
  let temp := hmacBlake2s P hs.chainingKey.bytes []
  let k1 := hmacBlake2s P temp.bytes [0x01]
  let k2 := hmacBlake2s P temp.bytes (k1.bytes ++ [0x02])
  if isInitiator then { hs with sendKey := k1, recvKey := k2 }
  else { hs with sendKey := k2, recvKey := k1 }

/-- `TransportKeys`: `(sendKey, recvKey)`. -/
def transportKeys (hs : NoiseHandshake) : Bytes32 × Bytes32 := (hs.sendKey, hs.recvKey)

/-- `initialize`. -/
def init (hs : NoiseHandshake) : NoiseHandshake :=
  let h := P.blake2s [] NoiseProtocolName
  mixHash P { hs with hash := h, chainingKey := h } NoisePrologue

/-- `NewNoiseHandshake`. -/
def new (localPriv localPub remoteStaticPub psk : Bytes32) : NoiseHandshake :=
  init P ⟨localPriv, localPub, remoteStaticPub, default, default, psk, default, default,
    default, default, []⟩

/-- `CreateInitiation`, given the ephemeral's random bytes and the timestamp: the message and
the state. -/
def createInitiation (hs : NoiseHandshake) (rnd : Bytes32) (timestamp : FixedBytes 12) :
    Except String (List UInt8 × NoiseHandshake) := do
  let hs := mixHash P hs hs.remoteStaticPub.bytes
  let hs ← generateEphemeral P hs rnd
  let msg := [handshakeMsgInit] ++ hs.localEphemeralPub.bytes
  let hs := mixHash P hs hs.localEphemeralPub.bytes
  let es ← (X25519 P hs.localEphemeral hs.remoteStaticPub).mapError ("DH(e, rs): " ++ ·)
  let hs := mixKey P hs es.bytes
  let (hs, encrypted) := encryptAndHash P hs hs.localStaticPub.bytes
  let msg := msg ++ encrypted
  let ss ← (X25519 P hs.localStatic hs.remoteStaticPub).mapError ("DH(s, rs): " ++ ·)
  let hs := mixKey P hs ss.bytes
  let hs := mixKeyAndHash P hs hs.psk.bytes
  let (hs, encrypted) := encryptAndHash P hs timestamp.bytes
  let msg := msg ++ encrypted
  pure (msg ++ computeMAC P hs msg, hs)

/-- `ConsumeInitiation`; the fields start at bytes 1, 33, 81 and 109. -/
def consumeInitiation (hs : NoiseHandshake) (msg : List UInt8) :
    Except String NoiseHandshake := do
  if msg.length < HandshakeInitiationSize then throw ErrInvalidHandshake
  if msg.getD 0 0 ≠ handshakeMsgInit then throw ErrInvalidHandshake
  let hs := mixHash P hs hs.localStaticPub.bytes
  let remoteEphemeral := FixedBytes.ofList 32 ((msg.drop 1).take 32)
  let hs := mixHash P hs remoteEphemeral.bytes
  let es ← (X25519 P hs.localStatic remoteEphemeral).mapError ("DH(s, re): " ++ ·)
  let hs := mixKey P hs es.bytes
  let (hs, decrypted) ← (decryptAndHash P hs ((msg.drop 33).take 48)).mapError
    ("decrypt remote static: " ++ ·)
  let hs := { hs with remoteStaticPub := hs.remoteStaticPub.copyOver decrypted }
  let ss ← (X25519 P hs.localStatic hs.remoteStaticPub).mapError ("DH(s, rs): " ++ ·)
  let hs := mixKey P hs ss.bytes
  let hs := mixKeyAndHash P hs hs.psk.bytes
  let (hs, _) ← (decryptAndHash P hs ((msg.drop 81).take 28)).mapError
    ("decrypt timestamp: " ++ ·)
  if !constantTimeEqual (computeMAC P hs (msg.take 109)) ((msg.drop 109).take 16) then
    throw ErrInvalidHandshake
  pure hs

/-- `CreateResponse`, given the ephemeral's random bytes: the message and the state, whose
transport keys are derived. -/
def createResponse (hs : NoiseHandshake) (rnd : Bytes32) :
    Except String (List UInt8 × NoiseHandshake) := do
  let hs ← generateEphemeral P hs rnd
  let msg := [handshakeMsgResponse] ++ hs.localEphemeralPub.bytes
  let hs := mixHash P hs hs.localEphemeralPub.bytes
  let (hs, encrypted) := encryptAndHash P hs []
  let msg := msg ++ encrypted
  pure (msg ++ computeMAC P hs msg, deriveTransportKeys P hs false)

/-- `ConsumeResponse`; the fields start at bytes 1, 33 and 49. -/
def consumeResponse (hs : NoiseHandshake) (msg : List UInt8) :
    Except String NoiseHandshake := do
  if msg.length < HandshakeResponseSize then throw ErrInvalidHandshake
  if msg.getD 0 0 ≠ handshakeMsgResponse then throw ErrInvalidHandshake
  let remoteEphemeral := FixedBytes.ofList 32 ((msg.drop 1).take 32)
  let hs := mixHash P hs remoteEphemeral.bytes
  let (hs, _) ← (decryptAndHash P hs ((msg.drop 33).take 16)).mapError
    ("decrypt response: " ++ ·)
  if !constantTimeEqual (computeMAC P hs (msg.take 49)) ((msg.drop 49).take 16) then
    throw ErrInvalidHandshake
  pure (deriveTransportKeys P hs true)

/-! ### The receiver after a call

`ConsumeInitiation` and `ConsumeResponse` are methods of `*NoiseHandshake`: they update the
receiver as they go and return only an error, so the receiver keeps every update made before
the step that fails. -/

namespace InPlace

/-- `ConsumeInitiation` on the receiver `hs`: the receiver after the call, and what the call
returns. -/
def consumeInitiation (hs : NoiseHandshake) (msg : List UInt8) :
    NoiseHandshake × Except String Unit :=
  if msg.length < HandshakeInitiationSize then (hs, .error ErrInvalidHandshake)
  else if msg.getD 0 0 ≠ handshakeMsgInit then (hs, .error ErrInvalidHandshake)
  else
    let hs := mixHash P hs hs.localStaticPub.bytes
    let remoteEphemeral := FixedBytes.ofList 32 ((msg.drop 1).take 32)
    let hs := mixHash P hs remoteEphemeral.bytes
    match X25519 P hs.localStatic remoteEphemeral with
    | .error e => (hs, .error ("DH(s, re): " ++ e))
    | .ok es =>
      let hs := mixKey P hs es.bytes
      match decryptAndHash P hs ((msg.drop 33).take 48) with
      | .error e => (hs, .error ("decrypt remote static: " ++ e))
      | .ok (hs, decrypted) =>
        let hs := { hs with remoteStaticPub := hs.remoteStaticPub.copyOver decrypted }
        match X25519 P hs.localStatic hs.remoteStaticPub with
        | .error e => (hs, .error ("DH(s, rs): " ++ e))
        | .ok ss =>
          let hs := mixKey P hs ss.bytes
          let hs := mixKeyAndHash P hs hs.psk.bytes
          match decryptAndHash P hs ((msg.drop 81).take 28) with
          | .error e => (hs, .error ("decrypt timestamp: " ++ e))
          | .ok (hs, _) =>
            if !constantTimeEqual (computeMAC P hs (msg.take 109)) ((msg.drop 109).take 16) then
              (hs, .error ErrInvalidHandshake)
            else (hs, .ok ())

/-- `ConsumeResponse` on the receiver `hs`: the receiver after the call, and what the call
returns. -/
def consumeResponse (hs : NoiseHandshake) (msg : List UInt8) :
    NoiseHandshake × Except String Unit :=
  if msg.length < HandshakeResponseSize then (hs, .error ErrInvalidHandshake)
  else if msg.getD 0 0 ≠ handshakeMsgResponse then (hs, .error ErrInvalidHandshake)
  else
    let remoteEphemeral := FixedBytes.ofList 32 ((msg.drop 1).take 32)
    let hs := mixHash P hs remoteEphemeral.bytes
    match decryptAndHash P hs ((msg.drop 33).take 16) with
    | .error e => (hs, .error ("decrypt response: " ++ e))
    | .ok (hs, _) =>
      if !constantTimeEqual (computeMAC P hs (msg.take 49)) ((msg.drop 49).take 16) then
        (hs, .error ErrInvalidHandshake)
      else (deriveTransportKeys P hs true, .ok ())

end InPlace

/-! ### The transcript both sides keep -/

/-- Two states hold one transcript: the same chaining key and the same hash. -/
structure Agree (a b : NoiseHandshake) : Prop where
  chainingKey : a.chainingKey = b.chainingKey
  hash : a.hash = b.hash

namespace Agree

variable {a b : NoiseHandshake}

theorem mixHash (h : Agree a b) (data : List UInt8) :
    Agree (NoiseHandshake.mixHash P a data) (NoiseHandshake.mixHash P b data) :=
  ⟨h.chainingKey, by simp only [NoiseHandshake.mixHash, h.hash]⟩

theorem mixKey (h : Agree a b) (input : List UInt8) :
    Agree (NoiseHandshake.mixKey P a input) (NoiseHandshake.mixKey P b input) :=
  ⟨by simp only [NoiseHandshake.mixKey, h.chainingKey], h.hash⟩

theorem mixKeyAndHash (h : Agree a b) (input : List UInt8) :
    Agree (NoiseHandshake.mixKeyAndHash P a input) (NoiseHandshake.mixKeyAndHash P b input) :=
  ⟨by simp only [NoiseHandshake.mixKeyAndHash, NoiseHandshake.mixHash, h.chainingKey],
    by simp only [NoiseHandshake.mixKeyAndHash, NoiseHandshake.mixHash, h.chainingKey, h.hash]⟩

theorem decryptAndHash_encryptAndHash {P : Primitives} (hP : NoiseCipher.AeadCorrect P)
    (h : Agree a b) (m : List UInt8) :
    NoiseHandshake.decryptAndHash P b (NoiseHandshake.encryptAndHash P a m).2 =
        .ok (NoiseHandshake.mixHash P b (NoiseHandshake.encryptAndHash P a m).2, m) ∧
      Agree (NoiseHandshake.encryptAndHash P a m).1
        (NoiseHandshake.mixHash P b (NoiseHandshake.encryptAndHash P a m).2) := by
  refine ⟨?_, ⟨h.chainingKey, ?_⟩⟩ <;>
    simp only [NoiseHandshake.decryptAndHash, NoiseHandshake.encryptAndHash,
      NoiseHandshake.mixHash, h.chainingKey, h.hash, hP.open_seal]

end Agree

/-! ### One handshake run -/

variable {P}

theorem createInitiation_ok (i : NoiseHandshake) (rnd : Bytes32) (ts : FixedBytes 12)
    (he : P.x25519 (clamp rnd) basepoint ≠ FixedBytes.zero 32)
    (hes : P.x25519 (clamp rnd) i.remoteStaticPub ≠ FixedBytes.zero 32)
    (hss : P.x25519 i.localStatic i.remoteStaticPub ≠ FixedBytes.zero 32) :
    let epub := P.x25519 (clamp rnd) basepoint
    let i₃ := mixHash P { mixHash P i i.remoteStaticPub.bytes with
      localEphemeral := clamp rnd, localEphemeralPub := epub } epub.bytes
    let e₁ := encryptAndHash P (mixKey P i₃ (P.x25519 (clamp rnd) i.remoteStaticPub).bytes)
      i.localStaticPub.bytes
    let e₂ := encryptAndHash P (mixKeyAndHash P
      (mixKey P e₁.1 (P.x25519 i.localStatic i.remoteStaticPub).bytes) i.psk.bytes) ts.bytes
    let msg := [handshakeMsgInit] ++ epub.bytes ++ e₁.2 ++ e₂.2
    createInitiation P i rnd ts = .ok (msg ++ computeMAC P e₂.1 msg, e₂.1) := by
  simp only [createInitiation, generateEphemeral, X25519, if_neg he, mixHash_remoteStaticPub,
    mixHash_localEphemeral, mixKey_localStaticPub, mixHash_localStaticPub, encryptAndHash_fst,
    mixHash_localStatic, mixKey_localStatic, mixHash_remoteStaticPub, mixKey_remoteStaticPub,
    mixKey_psk, mixHash_psk, if_neg hes, if_neg hss, Except.mapError, bind, Except.bind, pure,
    Except.pure]

theorem initiation_slices {e c₁ c₂ mac : List UInt8} (he : e.length = 32) (h₁ : c₁.length = 48)
    (h₂ : c₂.length = 28) (hm : mac.length = 16) :
    let msg := [handshakeMsgInit] ++ e ++ c₁ ++ c₂ ++ mac
    msg.length = HandshakeInitiationSize ∧ msg.getD 0 0 = handshakeMsgInit ∧
      (msg.drop 1).take 32 = e ∧ (msg.drop 33).take 48 = c₁ ∧ (msg.drop 81).take 28 = c₂ ∧
      msg.take 109 = [handshakeMsgInit] ++ e ++ c₁ ++ c₂ ∧ (msg.drop 109).take 16 = mac := by
  simp [HandshakeInitiationSize, List.drop_append_eq_append_drop, List.take_append_eq_append_take,
    he, h₁, h₂, hm, List.take_of_length_le, List.drop_eq_nil_of_le]

/-- The responder accepts what the initiator sends, when each knows the other's static key as
`X25519` of its private key and both hold one PSK; both then keep one transcript, and the
initiator has sealed the timestamp under the key of its final chaining key. -/
theorem consumeInitiation_createInitiation (hP : NoiseCipher.AeadCorrect P) (hDH : DHCommutes P)
    {i r : NoiseHandshake} (hir : Agree i r) (hrs : i.remoteStaticPub = r.localStaticPub)
    (hi : i.localStaticPub = P.x25519 i.localStatic basepoint)
    (hr : r.localStaticPub = P.x25519 r.localStatic basepoint) (hpsk : i.psk = r.psk)
    (rnd : Bytes32) (ts : FixedBytes 12)
    (he : P.x25519 (clamp rnd) basepoint ≠ FixedBytes.zero 32)
    (hes : P.x25519 (clamp rnd) i.remoteStaticPub ≠ FixedBytes.zero 32)
    (hss : P.x25519 i.localStatic i.remoteStaticPub ≠ FixedBytes.zero 32) :
    ∃ msg i' r', createInitiation P i rnd ts = .ok (msg, i') ∧
      consumeInitiation P r msg = .ok r' ∧ Agree i' r' ∧
      (hmacBlake2s P i'.chainingKey.bytes [0x03], zeroNonce, ts.bytes) ∈ i'.seals := by
  set epub := P.x25519 (clamp rnd) basepoint
  set es := P.x25519 (clamp rnd) i.remoteStaticPub
  set ss := P.x25519 i.localStatic i.remoteStaticPub
  set i₃ := mixHash P { mixHash P i i.remoteStaticPub.bytes with
      localEphemeral := clamp rnd, localEphemeralPub := epub } epub.bytes
  set e₁ := encryptAndHash P (mixKey P i₃ es.bytes) i.localStaticPub.bytes
  set e₂ := encryptAndHash P (mixKeyAndHash P (mixKey P e₁.1 ss.bytes) i.psk.bytes) ts.bytes
  -- the responder computes the same Diffie–Hellman values
  have hes' : P.x25519 r.localStatic epub = es := by rw [hDH, ← hr, ← hrs]
  have hss' : P.x25519 r.localStatic i.localStaticPub = ss := by rw [hi, hDH, ← hr, ← hrs]
  -- and keeps the initiator's transcript
  have a₃ : Agree i₃ (mixHash P (mixHash P r r.localStaticPub.bytes) epub.bytes) :=
    ⟨by simp [i₃, hir.chainingKey], by simp [i₃, hir.hash, hrs]⟩
  set r₃ := mixHash P (mixHash P r r.localStaticPub.bytes) epub.bytes
  set r₅ := mixHash P (mixKey P r₃ es.bytes) e₁.2
  have hd₁ : decryptAndHash P (mixKey P r₃ es.bytes) e₁.2 = .ok (r₅, i.localStaticPub.bytes) :=
    ((a₃.mixKey P es.bytes).decryptAndHash_encryptAndHash hP _).1
  have a₅ : Agree e₁.1 r₅ := ((a₃.mixKey P es.bytes).decryptAndHash_encryptAndHash hP _).2
  have hl₁ : e₁.2.length = 48 := by
    simp only [e₁, encryptAndHash_length hP, FixedBytes.length_eq]; rfl
  have hl₂ : e₂.2.length = 28 := by
    simp only [e₂, encryptAndHash_length hP, FixedBytes.length_eq]; rfl
  obtain ⟨hlen, h0, he₁, hc₁, hc₂, hpre, hmac⟩ := initiation_slices epub.length_eq hl₁ hl₂
    (computeMAC_length P e₂.1 ([handshakeMsgInit] ++ epub.bytes ++ e₁.2 ++ e₂.2))
  have a₆ : Agree (mixKey P e₁.1 ss.bytes)
      (mixKey P { r₅ with remoteStaticPub := i.localStaticPub } ss.bytes) :=
    ⟨(a₅.mixKey P ss.bytes).chainingKey, (a₅.mixKey P ss.bytes).hash⟩
  set r₆ := mixKey P { r₅ with remoteStaticPub := i.localStaticPub } ss.bytes
  set r₈ := mixHash P (mixKeyAndHash P r₆ i.psk.bytes) e₂.2
  have hd₂ : decryptAndHash P (mixKeyAndHash P r₆ r₅.psk.bytes) e₂.2 = .ok (r₈, ts.bytes) := by
    have h : decryptAndHash P (mixKeyAndHash P r₆ i.psk.bytes) e₂.2 = .ok (r₈, ts.bytes) :=
      ((a₆.mixKeyAndHash P i.psk.bytes).decryptAndHash_encryptAndHash hP _).1
    rwa [hpsk] at h
  have a₈ : Agree e₂.1 r₈ :=
    ((a₆.mixKeyAndHash P i.psk.bytes).decryptAndHash_encryptAndHash hP _).2
  set msg := [handshakeMsgInit] ++ epub.bytes ++ e₁.2 ++ e₂.2
  refine ⟨msg ++ computeMAC P e₂.1 msg, e₂.1, _, createInitiation_ok i rnd ts he hes hss, ?_,
    a₈, ?_⟩
  · have hmac' : computeMAC P e₂.1 msg = computeMAC P r₈ msg := by
      unfold computeMAC
      rw [a₈.hash]
    have hss₂ : P.x25519 r₅.localStatic i.localStaticPub = ss := hss'
    rw [consumeInitiation, hlen, h0, he₁, hc₁, hc₂, hpre, hmac]
    simp only [lt_self_iff_false,
      ne_eq, not_true_eq_false, ite_false, FixedBytes.ofList_self, X25519, mixHash_localStatic,
      hes', if_neg hes, Except.mapError, bind, Except.bind, pure, Except.pure, hd₁,
      FixedBytes.copyOver_self, hss₂, if_neg hss, mixKey_psk, hd₂, hmac',
      constantTimeEqual_self, Bool.not_true, Bool.false_eq_true]
  · simp [e₂]

theorem createResponse_ok (hs : NoiseHandshake) (rnd : Bytes32)
    (he : P.x25519 (clamp rnd) basepoint ≠ FixedBytes.zero 32) :
    let epub := P.x25519 (clamp rnd) basepoint
    let e := encryptAndHash P (mixHash P { hs with
      localEphemeral := clamp rnd, localEphemeralPub := epub } epub.bytes) []
    let msg := [handshakeMsgResponse] ++ epub.bytes ++ e.2
    createResponse P hs rnd =
      .ok (msg ++ computeMAC P e.1 msg, deriveTransportKeys P e.1 false) := by
  simp only [createResponse, generateEphemeral, X25519, if_neg he, bind, Except.bind, pure,
    Except.pure]

theorem transportKeys_deriveTransportKeys {a b : NoiseHandshake}
    (h : a.chainingKey = b.chainingKey) :
    (deriveTransportKeys P a true).transportKeys =
      (deriveTransportKeys P b false).transportKeys.swap := by
  simp only [deriveTransportKeys, transportKeys, h, if_true, Bool.false_eq_true, if_false,
    Prod.swap_prod_mk]

/-- A response `CreateResponse` emits: 65 bytes, sealed (the empty payload) under the key of
the chaining key it was given, and keyed from that chaining key. -/
theorem createResponse_spec (hP : NoiseCipher.AeadCorrect P) (hs : NoiseHandshake)
    (rnd : Bytes32) (he : P.x25519 (clamp rnd) basepoint ≠ FixedBytes.zero 32) :
    ∃ msg hs', createResponse P hs rnd = .ok (msg, hs') ∧ msg.length = 1 + 32 + 16 + 16 ∧
      hs'.transportKeys = (deriveTransportKeys P hs false).transportKeys ∧
      (hmacBlake2s P hs.chainingKey.bytes [0x03], zeroNonce, []) ∈ hs'.seals := by
  refine ⟨_, _, createResponse_ok hs rnd he, ?_, ?_, ?_⟩
  · simp [encryptAndHash_length hP, computeMAC_length, FixedBytes.length_eq, NoiseTagSize]
  · simp [deriveTransportKeys, transportKeys]
  · simp [deriveTransportKeys]

theorem consumeResponse_short (hs : NoiseHandshake) {msg : List UInt8}
    (h : msg.length < HandshakeResponseSize) :
    consumeResponse P hs msg = .error ErrInvalidHandshake := by
  simp only [consumeResponse, h, if_true]
  rfl

/-! ### The handshake between two peers -/

/-- For all static key pairs, PSK and random draws whose Diffie–Hellman values pass X25519's
all-zero check, the responder accepts the initiation and both sides keep one chaining key,
from which the initiator would derive the responder's transport keys swapped. But the response
`CreateResponse` emits is 65 bytes, shorter than `HandshakeResponseSize`, and
`ConsumeResponse` rejects it. -/
theorem handshake_response_rejected (hP : NoiseCipher.AeadCorrect P) (hDH : DHCommutes P)
    (sI sR psk rs₀ eI eR : Bytes32) (ts : FixedBytes 12)
    (he : P.x25519 (clamp eI) basepoint ≠ FixedBytes.zero 32)
    (hes : P.x25519 (clamp eI) (P.x25519 sR basepoint) ≠ FixedBytes.zero 32)
    (hss : P.x25519 sI (P.x25519 sR basepoint) ≠ FixedBytes.zero 32)
    (hre : P.x25519 (clamp eR) basepoint ≠ FixedBytes.zero 32) :
    ∃ msg₁ i₁ r₁ msg₂ r₂,
      createInitiation P (new P sI (P.x25519 sI basepoint) (P.x25519 sR basepoint) psk) eI ts =
        .ok (msg₁, i₁) ∧
      consumeInitiation P (new P sR (P.x25519 sR basepoint) rs₀ psk) msg₁ = .ok r₁ ∧
      createResponse P r₁ eR = .ok (msg₂, r₂) ∧ msg₂.length < HandshakeResponseSize ∧
      consumeResponse P i₁ msg₂ = .error ErrInvalidHandshake ∧
      (deriveTransportKeys P i₁ true).transportKeys = (r₂.recvKey, r₂.sendKey) := by
  obtain ⟨msg₁, i₁, r₁, hc, hcons, a, -⟩ := consumeInitiation_createInitiation hP hDH
    (i := new P sI (P.x25519 sI basepoint) (P.x25519 sR basepoint) psk)
    (r := new P sR (P.x25519 sR basepoint) rs₀ psk) ⟨rfl, rfl⟩ rfl rfl rfl rfl eI ts he hes hss
  obtain ⟨msg₂, r₂, hresp, hlen, hkeys, -⟩ := createResponse_spec hP r₁ eR hre
  have hshort : msg₂.length < HandshakeResponseSize := by rw [hlen]; decide
  refine ⟨msg₁, i₁, r₁, msg₂, r₂, hc, hcons, hresp, hshort, consumeResponse_short i₁ hshort, ?_⟩
  rw [transportKeys_deriveTransportKeys a.chainingKey, ← hkeys]
  rfl

/-- Two peers with the transparent primitives: the run stops at `ConsumeResponse`. -/
theorem transparent_response_rejected :
    let P := NoiseCipher.transparentPrimitives
    let sI := FixedBytes.ofList 32 [2]
    let sR := FixedBytes.ofList 32 [1]
    ∃ msg₁ i₁ r₁ msg₂ r₂,
      createInitiation P (new P sI (P.x25519 sI basepoint) (P.x25519 sR basepoint) default)
        (FixedBytes.ofList 32 [8]) default = .ok (msg₁, i₁) ∧
      consumeInitiation P (new P sR (P.x25519 sR basepoint) default default) msg₁ = .ok r₁ ∧
      createResponse P r₁ (FixedBytes.ofList 32 [16]) = .ok (msg₂, r₂) ∧
      msg₂.length < HandshakeResponseSize ∧
      consumeResponse P i₁ msg₂ = .error ErrInvalidHandshake ∧
      (deriveTransportKeys P i₁ true).transportKeys = (r₂.recvKey, r₂.sendKey) :=
  handshake_response_rejected NoiseCipher.transparentPrimitives_correct
    transparentPrimitives_dhCommutes (FixedBytes.ofList 32 [2]) (FixedBytes.ofList 32 [1]) default
    default (FixedBytes.ofList 32 [8]) (FixedBytes.ofList 32 [16]) default
    (by decide) (by decide) (by decide) (by decide)

/-- In every such run the initiator's timestamp and the responder's empty payload are sealed
under one key with the zero nonce: no `mixKey` comes between the two seals. -/
theorem handshake_seals_share_key (hP : NoiseCipher.AeadCorrect P) (hDH : DHCommutes P)
    (sI sR psk rs₀ eI eR : Bytes32) (ts : FixedBytes 12)
    (he : P.x25519 (clamp eI) basepoint ≠ FixedBytes.zero 32)
    (hes : P.x25519 (clamp eI) (P.x25519 sR basepoint) ≠ FixedBytes.zero 32)
    (hss : P.x25519 sI (P.x25519 sR basepoint) ≠ FixedBytes.zero 32)
    (hre : P.x25519 (clamp eR) basepoint ≠ FixedBytes.zero 32) :
    ∃ msg₁ i₁ r₁ msg₂ r₂ key,
      createInitiation P (new P sI (P.x25519 sI basepoint) (P.x25519 sR basepoint) psk) eI ts =
        .ok (msg₁, i₁) ∧
      consumeInitiation P (new P sR (P.x25519 sR basepoint) rs₀ psk) msg₁ = .ok r₁ ∧
      createResponse P r₁ eR = .ok (msg₂, r₂) ∧
      (key, zeroNonce, ts.bytes) ∈ i₁.seals ∧ (key, zeroNonce, []) ∈ r₂.seals := by
  obtain ⟨msg₁, i₁, r₁, hc, hcons, a, hsealI⟩ := consumeInitiation_createInitiation hP hDH
    (i := new P sI (P.x25519 sI basepoint) (P.x25519 sR basepoint) psk)
    (r := new P sR (P.x25519 sR basepoint) rs₀ psk) ⟨rfl, rfl⟩ rfl rfl rfl rfl eI ts he hes hss
  obtain ⟨msg₂, r₂, hresp, -, -, hsealR⟩ := createResponse_spec hP r₁ eR hre
  rw [← a.chainingKey] at hsealR
  exact ⟨msg₁, i₁, r₁, msg₂, r₂, _, hc, hcons, hresp, hsealI, hsealR⟩

/-- Two peers with the transparent primitives seal a 12-byte timestamp and the empty payload
under one key and nonce. -/
theorem transparent_seals_share_key :
    let P := NoiseCipher.transparentPrimitives
    let sI := FixedBytes.ofList 32 [2]
    let sR := FixedBytes.ofList 32 [1]
    ∃ msg₁ i₁ r₁ msg₂ r₂ key,
      createInitiation P (new P sI (P.x25519 sI basepoint) (P.x25519 sR basepoint) default)
        (FixedBytes.ofList 32 [8]) default = .ok (msg₁, i₁) ∧
      consumeInitiation P (new P sR (P.x25519 sR basepoint) default default) msg₁ = .ok r₁ ∧
      createResponse P r₁ (FixedBytes.ofList 32 [16]) = .ok (msg₂, r₂) ∧
      (key, zeroNonce, (default : FixedBytes 12).bytes) ∈ i₁.seals ∧
      (key, zeroNonce, []) ∈ r₂.seals :=
  handshake_seals_share_key NoiseCipher.transparentPrimitives_correct
    transparentPrimitives_dhCommutes (FixedBytes.ofList 32 [2]) (FixedBytes.ofList 32 [1]) default
    default (FixedBytes.ofList 32 [8]) (FixedBytes.ofList 32 [16]) default
    (by decide) (by decide) (by decide) (by decide)

/-! ### Failed calls -/

theorem mapError_bind {ε ε' α β : Type} (f : ε → ε') (x : Except ε α) (g : α → Except ε' β) :
    x.mapError f >>= g = match x with
      | .error e => .error (f e)
      | .ok a => g a := by
  cases x <;> rfl

theorem consumeInitiation_eq (hs : NoiseHandshake) (msg : List UInt8) :
    consumeInitiation P hs msg =
      (InPlace.consumeInitiation P hs msg).2.map fun _ => (InPlace.consumeInitiation P hs msg).1 := by
  unfold consumeInitiation InPlace.consumeInitiation
  by_cases h₁ : msg.length < HandshakeInitiationSize
  · simp only [h₁, if_true]; rfl
  by_cases h₂ : msg.getD 0 0 = handshakeMsgInit
  · simp only [h₁, h₂, ne_eq, not_true_eq_false, if_false, mapError_bind, pure_bind]
    -- the two calls split on the same results, one step after the other
    repeat' (split <;> rename_i h <;> simp only [h])
    all_goals rfl
  · simp only [h₁, h₂, ne_eq, not_false_eq_true, if_true, if_false]; rfl

theorem consumeResponse_eq (hs : NoiseHandshake) (msg : List UInt8) :
    consumeResponse P hs msg =
      (InPlace.consumeResponse P hs msg).2.map fun _ => (InPlace.consumeResponse P hs msg).1 := by
  unfold consumeResponse InPlace.consumeResponse
  by_cases h₁ : msg.length < HandshakeResponseSize
  · simp only [h₁, if_true]; rfl
  by_cases h₂ : msg.getD 0 0 = handshakeMsgResponse
  · simp only [h₁, h₂, ne_eq, not_true_eq_false, if_false, mapError_bind, pure_bind]
    -- the two calls split on the same results, one step after the other
    repeat' (split <;> rename_i h <;> simp only [h])
    all_goals rfl
  · simp only [h₁, h₂, ne_eq, not_false_eq_true, if_true, if_false]; rfl

theorem take_drop_eq_of_take_eq {l l' : List UInt8} {n a b : Nat} (h : l'.take n = l.take n)
    (hab : a + b ≤ n) : (l'.drop a).take b = (l.drop a).take b := by
  have key (l : List UInt8) : (l.drop a).take b = ((l.take n).drop a).take b := by
    rw [List.drop_take, List.take_take, Nat.min_eq_left (by omega)]
  rw [key l', key l, h]

theorem getD_zero_eq_of_take_eq {l l' : List UInt8} {n : Nat} (h : l'.take n = l.take n)
    (hn : 0 < n) : l'.getD 0 0 = l.getD 0 0 := by
  have key (l : List UInt8) : l.getD 0 0 = ((l.drop 0).take 1).getD 0 0 := by cases l <;> rfl
  rw [key l', key l, take_drop_eq_of_take_eq h (by omega)]

theorem decryptAndHash_ok {hs hs' : NoiseHandshake} {c m : List UInt8}
    (h : decryptAndHash P hs c = .ok (hs', m)) : hs' = mixHash P hs c := by
  unfold decryptAndHash at h
  dsimp only at h
  split at h
  · cases h
  · cases h; rfl

theorem deriveTransportKeys_restore (hs : NoiseHandshake) (isInitiator : Bool) :
    { deriveTransportKeys P hs isInitiator with sendKey := hs.sendKey, recvKey := hs.recvKey } =
      hs := by
  cases isInitiator <;> rfl

namespace InPlace

theorem eq_of_map_eq_ok {r : NoiseHandshake × Except String Unit} {hs' : NoiseHandshake}
    (h : r.2.map (fun _ => r.1) = .ok hs') : r = (hs', .ok ()) := by
  rcases r with ⟨s, e | ⟨⟩⟩
  · cases h
  · cases h; rfl

theorem macCheck_eq {α : Type} (a b : α) {hs : NoiseHandshake} {data mac mac' : List UInt8}
    (hm : ¬(!constantTimeEqual (computeMAC P hs data) mac) = true) :
    (if (!constantTimeEqual (computeMAC P hs data) mac') = true then a else b) =
      if mac' = mac then b else a := by
  simp only [Bool.not_eq_true', Bool.not_eq_false, constantTimeEqual_iff_eq] at hm
  by_cases h : mac' = mac
  · simp [hm, h, constantTimeEqual_self]
  · have hne : constantTimeEqual mac mac' = false :=
      Bool.eq_false_iff.2 fun e => h (constantTimeEqual_iff_eq.1 e).symm
    simp [hm, h, hne]

/-- A message that agrees with an accepted one on the bytes before the MAC takes the call
through the same steps to the same receiver, and is accepted exactly when its MAC is the
accepted one's. -/
theorem consumeInitiation_mac {hs hs' : NoiseHandshake} {msg msg' : List UInt8}
    (h : consumeInitiation P hs msg = (hs', .ok ())) (hlen : HandshakeInitiationSize ≤ msg'.length)
    (hpre : msg'.take 109 = msg.take 109) :
    consumeInitiation P hs msg' = (hs', if (msg'.drop 109).take 16 = (msg.drop 109).take 16
      then .ok () else .error ErrInvalidHandshake) := by
  unfold consumeInitiation at h ⊢
  rw [take_drop_eq_of_take_eq hpre (by decide : 1 + 32 ≤ 109),
    take_drop_eq_of_take_eq hpre (by decide : 33 + 48 ≤ 109),
    take_drop_eq_of_take_eq hpre (by decide : 81 + 28 ≤ 109), hpre,
    getD_zero_eq_of_take_eq hpre (by decide), if_neg (Nat.not_lt.2 hlen)]
  split_ifs at h with g₁ g₂
  · cases h
  · cases h
  rw [if_neg g₂]
  dsimp only at h ⊢
  -- every step before the MAC check succeeded on `msg`, hence on `msg'`
  iterate 4 split at h <;> try cases h
  split_ifs at h with hm
  · cases h
  cases h
  rw [macCheck_eq _ _ hm]
  split <;> rfl

theorem consumeResponse_mac {hs hs' : NoiseHandshake} {msg msg' : List UInt8}
    (h : consumeResponse P hs msg = (hs', .ok ())) (hlen : HandshakeResponseSize ≤ msg'.length)
    (hpre : msg'.take 49 = msg.take 49) :
    consumeResponse P hs msg' = if (msg'.drop 49).take 16 = (msg.drop 49).take 16
      then (hs', .ok ())
      else ({ hs' with sendKey := hs.sendKey, recvKey := hs.recvKey }, .error ErrInvalidHandshake) := by
  unfold consumeResponse at h ⊢
  rw [take_drop_eq_of_take_eq hpre (by decide : 1 + 32 ≤ 49),
    take_drop_eq_of_take_eq hpre (by decide : 33 + 16 ≤ 49), hpre,
    getD_zero_eq_of_take_eq hpre (by decide), if_neg (Nat.not_lt.2 hlen)]
  split_ifs at h with g₁ g₂
  · cases h
  · cases h
  rw [if_neg g₂]
  dsimp only at h ⊢
  split at h
  · cases h
  next r t hd =>
  split_ifs at h with hm
  · cases h
  cases h
  have hr := decryptAndHash_ok hd
  rw [macCheck_eq _ _ hm, show hs.sendKey = r.sendKey by rw [hr]; rfl,
    show hs.recvKey = r.recvKey by rw [hr]; rfl, deriveTransportKeys_restore]

end InPlace

/-- A failed call is not rolled back. A message that differs from an accepted one only in its
MAC fails, and leaves the receiver exactly as the accepted message would: transcript hash,
chaining key and remote static key all advanced; only the transport keys of `ConsumeResponse`
are not derived. -/
theorem failed_consume_keeps_updates :
    (∀ (hs hs' : NoiseHandshake) (msg msg' : List UInt8), consumeInitiation P hs msg = .ok hs' →
      HandshakeInitiationSize ≤ msg'.length → msg'.take 109 = msg.take 109 →
      (msg'.drop 109).take 16 ≠ (msg.drop 109).take 16 →
      InPlace.consumeInitiation P hs msg' = (hs', .error ErrInvalidHandshake)) ∧
    (∀ (hs hs' : NoiseHandshake) (msg msg' : List UInt8), consumeResponse P hs msg = .ok hs' →
      HandshakeResponseSize ≤ msg'.length → msg'.take 49 = msg.take 49 →
      (msg'.drop 49).take 16 ≠ (msg.drop 49).take 16 →
      InPlace.consumeResponse P hs msg' =
        ({ hs' with sendKey := hs.sendKey, recvKey := hs.recvKey }, .error ErrInvalidHandshake)) := by
  refine ⟨fun hs hs' msg msg' h hlen hpre hmac => ?_, fun hs hs' msg msg' h hlen hpre hmac => ?_⟩
  · rw [consumeInitiation_eq] at h
    rw [InPlace.consumeInitiation_mac (InPlace.eq_of_map_eq_ok h) hlen hpre, if_neg hmac]
  · rw [consumeResponse_eq] at h
    rw [InPlace.consumeResponse_mac (InPlace.eq_of_map_eq_ok h) hlen hpre, if_neg hmac]

theorem InPlace.eq_ok_of_toBool {e : Except String Unit} (h : e.toBool = true) : e = .ok () := by
  rcases e with _ | ⟨⟩
  · cases h
  · rfl

/-- A responder of the transparent primitives: static key 1, no remote static key yet, zero
PSK. -/
def transparentResponder : NoiseHandshake :=
  new NoiseCipher.transparentPrimitives (FixedBytes.ofList 32 [1])
    (NoiseCipher.transparentPrimitives.x25519 (FixedBytes.ofList 32 [1]) basepoint) default default

/-- An initiation to `transparentResponder` without its MAC: ephemeral key 5, the sealed static
key 7 and the sealed zero timestamp. -/
def initiationBody : List UInt8 :=
  [handshakeMsgInit, 5] ++ List.replicate 31 0 ++ [7] ++ List.replicate 75 0

set_option maxRecDepth 1000 in
/-- The responder accepts the initiation with its MAC. The same bytes with a zero MAC are
rejected, yet leave the responder exactly as the accepted initiation does, holding the
initiator's static key. -/
theorem forged_initiation_keeps_remote_static :
    consumeInitiation NoiseCipher.transparentPrimitives transparentResponder
        (initiationBody ++ NoiseProtocolName.take 16) =
      .ok (InPlace.consumeInitiation NoiseCipher.transparentPrimitives transparentResponder
        (initiationBody ++ NoiseProtocolName.take 16)).1 ∧
    InPlace.consumeInitiation NoiseCipher.transparentPrimitives transparentResponder
        (initiationBody ++ List.replicate 16 0) =
      ((InPlace.consumeInitiation NoiseCipher.transparentPrimitives transparentResponder
        (initiationBody ++ NoiseProtocolName.take 16)).1, .error ErrInvalidHandshake) ∧
    (InPlace.consumeInitiation NoiseCipher.transparentPrimitives transparentResponder
        (initiationBody ++ NoiseProtocolName.take 16)).1.remoteStaticPub ≠
      transparentResponder.remoteStaticPub := by
  refine (fun hok => ⟨hok, failed_consume_keeps_updates.1 _ _ _ _ hok (by decide) (by decide)
    (by decide), by decide⟩) ?_
  rw [consumeInitiation_eq, InPlace.eq_ok_of_toBool (e := (InPlace.consumeInitiation
    NoiseCipher.transparentPrimitives transparentResponder
    (initiationBody ++ NoiseProtocolName.take 16)).2) (by decide)]
  rfl

end NoiseHandshake

end ZeroGo.Vl1
