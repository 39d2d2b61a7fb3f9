import Semp.JsValue
import Semp.Base64

/-! The cryptographic libraries are parameters; the code on top of them (hybrid KEM,
AEAD dispatch, key schedule, signatures) is modelled.  What the code relies on the
libraries for is stated as laws, which a sample instance satisfies. -/
namespace Semp

/-- A 32-byte hash value. -/
abbrev Digest := {b : Bytes // b.length = 32}

structure KeyPair where
  publicKey : Bytes
  secretKey : Bytes
  deriving DecidableEq, Repr

structure Encapsulated where
  ciphertext : Bytes
  sharedSecret : Bytes
  deriving DecidableEq, Repr

/-- The functions of the cryptographic libraries. -/
structure Crypto where
  sha256 : Bytes → Digest
  hmacSha256 : Bytes → Bytes → Digest
  /-- `extract(sha512, ikm, salt)`, salt first. -/
  hkdfExtract : Bytes → Bytes → Bytes
  hkdfExpand : Bytes → Bytes → ℕ → Bytes
  x25519GetPublicKey : Bytes → Js Bytes
  x25519GetSharedSecret : Bytes → Bytes → Js Bytes
  mlKemKeygen : Bytes → Js KeyPair
  mlKemEncapsulate : Bytes → Bytes → Js Encapsulated
  mlKemDecapsulate : Bytes → Bytes → Js Bytes
  /-- Key, nonce, associated data and text. -/
  chachaEncrypt : Bytes → Bytes → Bytes → Bytes → Js Bytes
  chachaDecrypt : Bytes → Bytes → Bytes → Bytes → Js Bytes
  xchachaEncrypt : Bytes → Bytes → Bytes → Bytes → Js Bytes
  xchachaDecrypt : Bytes → Bytes → Bytes → Bytes → Js Bytes
  ed25519GetPublicKey : Bytes → Js Bytes
  /-- Message and seed. -/
  ed25519Sign : Bytes → Bytes → Js Bytes
  /-- Signature, message and public key. -/
  ed25519Verify : Bytes → Bytes → Bytes → Js Bool

def natText (n : ℕ) : JsString := NumberText.toText (.ofNat n)

def utf8 (s : JsString) : Bytes := Utf8.textEncode s

def hexByte (b : UInt8) : JsString :=
  [JsonText.hexDigit (b.toNat/16),JsonText.hexDigit (b.toNat%16)]

def hex (b : Bytes) : JsString := b.flatMap hexByte

def kyber768PublicKeySize : ℕ := 1184
def kyber768PrivateKeySize : ℕ := 2400
def kyber768CiphertextSize : ℕ := 1088
def kyber768SharedKeySize : ℕ := 32
def x25519Size : ℕ := 32
def hybridPublicKeySize : ℕ := kyber768PublicKeySize+x25519Size
def hybridPrivateKeySize : ℕ := kyber768PrivateKeySize+x25519Size
def hybridCiphertextSize : ℕ := kyber768CiphertextSize+x25519Size
def hybridSharedSecretSize : ℕ := kyber768SharedKeySize+x25519Size

inductive Suite
  | x25519
  | pq
  deriving DecidableEq, Repr

def Suite.name : Suite → JsString
  | x25519 => js "x25519-chacha20-poly1305"
  | pq => js "pq-kyber768-x25519"

inductive AEADAlgorithm
  | chacha20poly1305
  | xchacha20poly1305
  deriving DecidableEq, Repr

/-- `{ kyberEncapsRandomnessM, ephemeralX25519Priv }` -/
structure HybridRandomness where
  kyberEncapsRandomnessM : Bytes
  ephemeralX25519Priv : Bytes
  deriving DecidableEq, Repr

/-- The session keys of one handshake. -/
structure SessionKeys where
  encC2S : Bytes
  encS2C : Bytes
  macC2S : Bytes
  macS2C : Bytes
  envMAC : Bytes
  resumption : Option Bytes
  deriving DecidableEq, Repr

def sizeError {α : Type} (what : String) (got want : ℕ) : Js α :=
  raise (js what++js " "++natText got++js " bytes, want "++natText want)

section
variable (C : Crypto)

def x25519Agree (secretKey publicKey : Bytes) : Js Bytes :=
  C.x25519GetSharedSecret secretKey publicKey

def x25519PublicKey (secretKey : Bytes) : Js Bytes := C.x25519GetPublicKey secretKey

/-- `hybridGenerateKeyPair` with its entropy as arguments. -/
def hybridGenerateKeyPair (xPriv seed : Bytes) : Js KeyPair := do
  let xPub ← x25519PublicKey C xPriv
  let kyber ← C.mlKemKeygen seed
  .ok ⟨kyber.publicKey++xPub,kyber.secretKey++xPriv⟩

/-- The common body of both hybrid encapsulations. -/
def hybridEncapsulateBody (remotePub : Bytes) (rand : HybridRandomness) : Js Encapsulated := do
  let kyberRemote := remotePub.take kyber768PublicKeySize
  let xRemote := remotePub.drop kyber768PublicKeySize
  let xEphPub ← x25519PublicKey C rand.ephemeralX25519Priv
  let xSS ← x25519Agree C rand.ephemeralX25519Priv xRemote
  let kyber ← C.mlKemEncapsulate kyberRemote rand.kyberEncapsRandomnessM
  .ok ⟨kyber.ciphertext++xEphPub,kyber.sharedSecret++xSS⟩

/-- `hybridEncapsulate` with its entropy as an argument. -/
def hybridEncapsulate (remotePub : Bytes) (rand : HybridRandomness) : Js Encapsulated :=
  if remotePub.length ≠ hybridPublicKeySize then
    sizeError "hybrid Encapsulate: remote pub" remotePub.length hybridPublicKeySize
  else hybridEncapsulateBody C remotePub rand

def hybridEncapsulateWithRandomness (remotePub : Bytes) (rand : HybridRandomness) :
    Js Encapsulated :=
  if remotePub.length ≠ hybridPublicKeySize then
    sizeError "hybrid EncapsulateWithRandomness: remote pub" remotePub.length hybridPublicKeySize
  else if rand.kyberEncapsRandomnessM.length ≠ 32 then
    sizeError "hybrid EncapsulateWithRandomness: kyberEncapsRandomnessM"
      rand.kyberEncapsRandomnessM.length 32
  else if rand.ephemeralX25519Priv.length ≠ x25519Size then
    sizeError "hybrid EncapsulateWithRandomness: ephemeralX25519Priv"
      rand.ephemeralX25519Priv.length x25519Size
  else hybridEncapsulateBody C remotePub rand

def hybridDecapsulate (ciphertext localPriv : Bytes) : Js Bytes :=
  if ciphertext.length ≠ hybridCiphertextSize then
    sizeError "hybrid Decapsulate: ciphertext" ciphertext.length hybridCiphertextSize
  else if localPriv.length ≠ hybridPrivateKeySize then
    sizeError "hybrid Decapsulate: priv" localPriv.length hybridPrivateKeySize
  else do
    let kyberSS ← C.mlKemDecapsulate (ciphertext.take kyber768CiphertextSize)
      (localPriv.take kyber768PrivateKeySize)
    let xSS ← x25519Agree C (localPriv.drop kyber768PrivateKeySize)
      (ciphertext.drop kyber768CiphertextSize)
    .ok (kyberSS++xSS)

def nonceError {α : Type} (algorithm : String) (want got : ℕ) : Js α :=
  raise (js algorithm++js " nonce must be "++natText want++js " bytes, got "++natText got)

def aeadSeal (algorithm : AEADAlgorithm) (key nonce plaintext aad : Bytes) : Js Bytes :=
  match algorithm with
  | .chacha20poly1305 =>
    if nonce.length ≠ 12 then nonceError "chacha20-poly1305" 12 nonce.length
    else C.chachaEncrypt key nonce aad plaintext
  | .xchacha20poly1305 =>
    if nonce.length ≠ 24 then nonceError "xchacha20-poly1305" 24 nonce.length
    else C.xchachaEncrypt key nonce aad plaintext

def aeadOpen (algorithm : AEADAlgorithm) (key nonce ciphertext aad : Bytes) : Js Bytes :=
  match algorithm with
  | .chacha20poly1305 =>
    if nonce.length ≠ 12 then nonceError "chacha20-poly1305" 12 nonce.length
    else C.chachaDecrypt key nonce aad ciphertext
  | .xchacha20poly1305 =>
    if nonce.length ≠ 24 then nonceError "xchacha20-poly1305" 24 nonce.length
    else C.xchachaDecrypt key nonce aad ciphertext

def computeMAC (key message : Bytes) : Bytes := (C.hmacSha256 key message).val

def infoSessionEncC2S : JsString := js "SEMP-v1-session-enc-c2s"
def infoSessionEncS2C : JsString := js "SEMP-v1-session-enc-s2c"
def infoSessionMACC2S : JsString := js "SEMP-v1-session-mac-c2s"
def infoSessionMACS2C : JsString := js "SEMP-v1-session-mac-s2c"
def infoSessionEnvMAC : JsString := js "SEMP-v1-session-env-mac"
def infoSessionResumption : JsString := js "SEMP-v1-session-resumption"
def sessionKeyLength : ℕ := 32

def deriveSessionKeys (sharedSecret clientNonce serverNonce : Bytes) : SessionKeys :=
  let prk := C.hkdfExtract (clientNonce++serverNonce) sharedSecret
  { encC2S := C.hkdfExpand prk (utf8 infoSessionEncC2S) sessionKeyLength
    encS2C := C.hkdfExpand prk (utf8 infoSessionEncS2C) sessionKeyLength
    macC2S := C.hkdfExpand prk (utf8 infoSessionMACC2S) sessionKeyLength
    macS2C := C.hkdfExpand prk (utf8 infoSessionMACS2C) sessionKeyLength
    envMAC := C.hkdfExpand prk (utf8 infoSessionEnvMAC) sessionKeyLength
    resumption := none }

def deriveSessionKeysWithResumption (sharedSecret clientNonce serverNonce : Bytes) :
    SessionKeys :=
  let prk := C.hkdfExtract (clientNonce++serverNonce) sharedSecret
  { encC2S := C.hkdfExpand prk (utf8 infoSessionEncC2S) sessionKeyLength
    encS2C := C.hkdfExpand prk (utf8 infoSessionEncS2C) sessionKeyLength
    macC2S := C.hkdfExpand prk (utf8 infoSessionMACC2S) sessionKeyLength
    macS2C := C.hkdfExpand prk (utf8 infoSessionMACS2C) sessionKeyLength
    envMAC := C.hkdfExpand prk (utf8 infoSessionEnvMAC) sessionKeyLength
    resumption := some (C.hkdfExpand prk (utf8 infoSessionResumption) sessionKeyLength) }

def deriveResumedSessionKeys (ephemeralSharedSecret kResumption clientNonce serverNonce : Bytes) :
    SessionKeys :=
  let prk := C.hkdfExtract (clientNonce++serverNonce) (ephemeralSharedSecret++kResumption)
  { encC2S := C.hkdfExpand prk (utf8 infoSessionEncC2S) sessionKeyLength
    encS2C := C.hkdfExpand prk (utf8 infoSessionEncS2C) sessionKeyLength
    macC2S := C.hkdfExpand prk (utf8 infoSessionMACC2S) sessionKeyLength
    macS2C := C.hkdfExpand prk (utf8 infoSessionMACS2C) sessionKeyLength
    envMAC := C.hkdfExpand prk (utf8 infoSessionEnvMAC) sessionKeyLength
    resumption := none }

def deriveRekeyKeys (sharedSecret rekeyNonce responderNonce : Bytes) : SessionKeys :=
  deriveSessionKeys C sharedSecret rekeyNonce responderNonce

def expectSeed (seed : Bytes) : Js Unit :=
  if seed.length ≠ 32 then
    raise (js "keys: seed length "++natText seed.length++js ", want "++natText 32)
  else .ok ()

def publicKeyFromSeed (seed : Bytes) : Js Bytes := do
  expectSeed seed
  C.ed25519GetPublicKey seed

def sign (seed message : Bytes) : Js Bytes := do
  expectSeed seed
  C.ed25519Sign message seed

/-- Never throws: a library error is a rejection. -/
def verify (publicKey signature message : Bytes) : Bool :=
  if publicKey.length ≠ 32 ∨ signature.length ≠ 64 then false
  else
    match C.ed25519Verify signature message publicKey with
    | .ok b => b
    | .error _ => false

def fingerprint (publicKey : Bytes) : Js JsString :=
  if publicKey.length = 0 then raise (js "keys: publicKey is empty")
  else .ok (hex (C.sha256 publicKey).val)

def hexSha256 (bytes : Bytes) : JsString := hex (C.sha256 bytes).val

end

/-- A pass over both arrays without an early exit. -/
def constantTimeEqual (a b : Bytes) : Bool :=
  if a.length ≠ b.length then false
  else (List.zipWith (fun x y => x ^^^ y) a b).foldl (fun diff x => diff ||| x) 0 == 0

/-- X25519: public keys are 32 bytes, agreement commutes, sizes are checked. -/
structure DhLaws (C : Crypto) : Prop where
  publicKey_ok : ∀ sk, sk.length = 32 → ∃ pk, C.x25519GetPublicKey sk = .ok pk
  publicKey_length : ∀ sk pk, C.x25519GetPublicKey sk = .ok pk → sk.length = 32 ∧ pk.length = 32
  agree_length : ∀ sk pk s, C.x25519GetSharedSecret sk pk = .ok s →
    sk.length = 32 ∧ pk.length = 32 ∧ s.length = 32
  agree_comm : ∀ a b pa pb, C.x25519GetPublicKey a = .ok pa → C.x25519GetPublicKey b = .ok pb →
    ∃ s, C.x25519GetSharedSecret a pb = .ok s ∧ C.x25519GetSharedSecret b pa = .ok s

/-- ML-KEM-768: sizes, and decapsulation of an honest ciphertext. -/
structure KemLaws (C : Crypto) : Prop where
  keygen_ok : ∀ seed, seed.length = 64 → ∃ kp, C.mlKemKeygen seed = .ok kp
  keygen_length : ∀ seed kp, C.mlKemKeygen seed = .ok kp →
    kp.publicKey.length = 1184 ∧ kp.secretKey.length = 2400
  decapsulate_encapsulate : ∀ seed kp m, C.mlKemKeygen seed = .ok kp → m.length = 32 →
    ∃ e, C.mlKemEncapsulate kp.publicKey m = .ok e ∧ e.ciphertext.length = 1088 ∧
      e.sharedSecret.length = 32 ∧ C.mlKemDecapsulate e.ciphertext kp.secretKey = .ok e.sharedSecret
  encapsulate_length : ∀ pk m e, C.mlKemEncapsulate pk m = .ok e → m.length = 32

/-- ChaCha20-Poly1305: the key is 32 bytes, the tag 16, opening undoes sealing. -/
structure AeadLaws (C : Crypto) : Prop where
  key_length : ∀ key nonce aad text ct, C.chachaEncrypt key nonce aad text = .ok ct →
    key.length = 32
  decrypt_encrypt : ∀ key nonce aad text, key.length = 32 → nonce.length = 12 →
    ∃ ct, C.chachaEncrypt key nonce aad text = .ok ct ∧ ct.length = text.length+16 ∧
      C.chachaDecrypt key nonce aad ct = .ok text

/-- Ed25519: a signature of the seed verifies under its public key. -/
structure SignLaws (C : Crypto) : Prop where
  publicKey_ok : ∀ seed, seed.length = 32 →
    ∃ pk, C.ed25519GetPublicKey seed = .ok pk ∧ pk.length = 32
  verify_sign : ∀ seed pk message, C.ed25519GetPublicKey seed = .ok pk →
    ∃ sig, C.ed25519Sign message seed = .ok sig ∧ sig.length = 64 ∧
      C.ed25519Verify sig message pk = .ok true

/-- HKDF returns as many bytes as asked for. -/
structure KdfLaws (C : Crypto) : Prop where
  expand_length : ∀ prk info n, (C.hkdfExpand prk info n).length = n

structure Laws (C : Crypto) : Prop where
  dh : DhLaws C
  kem : KemLaws C
  aead : AeadLaws C
  sig : SignLaws C
  kdf : KdfLaws C

theorem foldl_or_eq_zero {xs : Bytes} {d : UInt8} :
    xs.foldl (fun diff x => diff ||| x) d = 0 ↔ d = 0 ∧ ∀ x ∈ xs, x = 0 := by
  induction xs generalizing d with
  | nil => simp
  | cons x xs ih => rw [List.foldl_cons,ih,UInt8.or_eq_zero_iff,List.forall_mem_cons,and_assoc]

theorem zipWith_xor_eq_zero {a b : Bytes} (h : a.length = b.length) :
    (∀ x ∈ List.zipWith (fun x y => x ^^^ y) a b, x = 0) ↔ a = b := by
  induction a generalizing b with
  | nil =>
    obtain rfl := List.length_eq_zero_iff.mp h.symm
    simp
  | cons x a ih =>
    cases b with
    | nil => simp at h
    | cons y b =>
      rw [List.zipWith_cons_cons,List.forall_mem_cons,UInt8.xor_eq_zero_iff,
        ih (Nat.succ.inj h),List.cons.injEq]

@[simp] theorem constantTimeEqual_iff {a b : Bytes} : constantTimeEqual a b = true ↔ a = b := by
  unfold constantTimeEqual
  split_ifs with h
  · simp only [false_iff]
    exact fun hab => h (congrArg List.length hab)
  · rw [beq_iff_eq,foldl_or_eq_zero,zipWith_xor_eq_zero (not_not.mp h)]
    simp

theorem length_hex (b : Bytes) : (hex b).length = 2*b.length := by
  induction b with
  | nil => rfl
  | cons x b ih =>
    rw [hex,List.flatMap_cons,List.length_append,← hex,ih,hexByte]
    simp only [List.length_cons,List.length_nil]
    omega

theorem expectSeed_eq_ok {seed : Bytes} {u : Unit} :
    expectSeed seed = .ok u ↔ seed.length = 32 := by
  unfold expectSeed
  split_ifs with h <;> simp_all

theorem sign_eq_ok {C : Crypto} {seed message sig : Bytes} : sign C seed message = .ok sig ↔
    seed.length = 32 ∧ C.ed25519Sign message seed = .ok sig := by
  rw [sign,bind_eq_ok]
  simp only [exists_const,expectSeed_eq_ok]

theorem publicKeyFromSeed_eq_ok {C : Crypto} {seed pk : Bytes} :
    publicKeyFromSeed C seed = .ok pk ↔
      seed.length = 32 ∧ C.ed25519GetPublicKey seed = .ok pk := by
  rw [publicKeyFromSeed,bind_eq_ok]
  simp only [exists_const,expectSeed_eq_ok]

theorem sign_ok {C : Crypto} (laws : SignLaws C) {seed : Bytes} (h : seed.length = 32)
    (message : Bytes) : ∃ sig, sign C seed message = .ok sig := by
  obtain ⟨pk,hpk,-⟩ := laws.publicKey_ok seed h
  obtain ⟨sig,hsig,-⟩ := laws.verify_sign seed pk message hpk
  exact ⟨sig,sign_eq_ok.mpr ⟨h,hsig⟩⟩

theorem sign_length {C : Crypto} (laws : SignLaws C) {seed message sig : Bytes}
    (h : sign C seed message = .ok sig) : sig.length = 64 := by
  obtain ⟨hseed,hsig⟩ := sign_eq_ok.mp h
  obtain ⟨pk,hpk,-⟩ := laws.publicKey_ok seed hseed
  obtain ⟨sig',hsig',hlen,-⟩ := laws.verify_sign seed pk message hpk
  obtain rfl : sig = sig' := Except.ok.inj (hsig.symm.trans hsig')
  exact hlen

/-- The text of a signature is not empty. -/
theorem encode_sign_ne_nil {C : Crypto} (laws : SignLaws C) {seed message sig : Bytes}
    (h : sign C seed message = .ok sig) : Base64.encode sig ≠ [] := by
  intro hnil
  have hlen := sign_length laws h
  rw [Base64.encode_eq_nil.mp hnil] at hlen
  cases hlen

/-- What a seed signed verifies under its public key. -/
theorem verify_sign {C : Crypto} (laws : SignLaws C) {seed pk message sig : Bytes}
    (hpk : publicKeyFromSeed C seed = .ok pk) (hsig : sign C seed message = .ok sig) :
    verify C pk sig message = true := by
  obtain ⟨hseed,hpk⟩ := publicKeyFromSeed_eq_ok.mp hpk
  obtain ⟨-,hsig⟩ := sign_eq_ok.mp hsig
  obtain ⟨pk',hpk',hlen⟩ := laws.publicKey_ok seed hseed
  obtain rfl : pk = pk' := Except.ok.inj (hpk.symm.trans hpk')
  obtain ⟨sig',hsig',hslen,hv⟩ := laws.verify_sign seed pk message hpk
  obtain rfl : sig = sig' := Except.ok.inj (hsig.symm.trans hsig')
  rw [verify,if_neg (by omega),hv]

/-! A sample instance with the sizes of the real libraries.  It is no cryptography:
it shows that the laws can hold together and lets the model run. -/
namespace Sample

def fit (n : ℕ) (b : Bytes) : Bytes := (b++List.replicate n 0).take n

def filled (b : UInt8) : Digest := ⟨List.replicate 32 b,List.length_replicate⟩

/-- The last 32 base-256 digits of a rolling sum. -/
def digest (b : Bytes) : Digest :=
  let n := b.foldl (fun n x => (n*257+x.toNat+1)%256^32) 0
  ⟨(List.range 32).map fun i => UInt8.ofNat (n/256^i),by simp⟩

def tag (key nonce aad text : Bytes) : Bytes :=
  (digest (key++nonce++aad++text)).val.take 16

def sealText (nonceLength : ℕ) (key nonce aad text : Bytes) : Js Bytes :=
  if key.length = 32 ∧ nonce.length = nonceLength then .ok (text++tag key nonce aad text)
  else raise (js "invalid key or nonce")

def openText (nonceLength : ℕ) (key nonce aad text : Bytes) : Js Bytes :=
  let plain := text.take (text.length-16)
  if key.length = 32 ∧ nonce.length = nonceLength ∧
      text.drop (text.length-16) = tag key nonce aad plain then .ok plain
  else raise (js "invalid tag")

def agree (a b : Bytes) : Bytes := List.zipWith (fun x y => x ^^^ y) a b

def crypto : Crypto where
  sha256 := digest
  hmacSha256 := fun key message => digest (key++message)
  hkdfExtract := fun salt ikm => (digest (salt++ikm)).val
  hkdfExpand := fun prk info n => fit n (digest (prk++info)).val
  x25519GetPublicKey := fun sk => if sk.length = 32 then .ok sk else raise (js "invalid key")
  x25519GetSharedSecret := fun sk pk =>
    if sk.length = 32 ∧ pk.length = 32 then .ok (agree sk pk) else raise (js "invalid key")
  mlKemKeygen := fun seed =>
    if seed.length = 64 then .ok ⟨fit 1184 seed,fit 2400 seed⟩ else raise (js "invalid seed")
  mlKemEncapsulate := fun pk m =>
    if pk.length = 1184 ∧ m.length = 32 then .ok ⟨fit 1088 m,m⟩ else raise (js "invalid key")
  mlKemDecapsulate := fun ct sk =>
    if ct.length = 1088 ∧ sk.length = 2400 then .ok (ct.take 32) else raise (js "invalid key")
  chachaEncrypt := sealText 12
  chachaDecrypt := openText 12
  xchachaEncrypt := sealText 24
  xchachaDecrypt := openText 24
  ed25519GetPublicKey := fun seed =>
    if seed.length = 32 then .ok seed else raise (js "invalid key")
  ed25519Sign := fun message seed => .ok (fit 64 (digest (seed++message)).val)
  ed25519Verify := fun sig message pk => .ok (sig == fit 64 (digest (pk++message)).val)

@[simp] theorem fit_length (n : ℕ) (b : Bytes) : (fit n b).length = n := by
  simp [fit]

theorem take_fit {n : ℕ} {b : Bytes} (h : b.length ≤ n) : (fit n b).take b.length = b := by
  rw [fit,List.take_take,Nat.min_eq_left h,List.take_left]

theorem agree_comm (a b : Bytes) : agree a b = agree b a := by
  rw [agree,agree,List.zipWith_comm]
  simp only [UInt8.xor_comm]

theorem open_seal {nonceLength : ℕ} {key nonce : Bytes} (aad text : Bytes)
    (hk : key.length = 32) (hn : nonce.length = nonceLength) :
    ∃ ct, sealText nonceLength key nonce aad text = .ok ct ∧ ct.length = text.length+16 ∧
      openText nonceLength key nonce aad ct = .ok text := by
  have ht : (tag key nonce aad text).length = 16 := by
    rw [tag,List.length_take,(digest _).property]
    rfl
  have hlen : (text++tag key nonce aad text).length-16 = text.length := by
    rw [List.length_append]
    omega
  refine ⟨text++tag key nonce aad text,by rw [sealText,if_pos ⟨hk,hn⟩],by simp [ht],?_⟩
  simp only [openText]
  rw [hlen,List.take_left,List.drop_left,if_pos ⟨hk,hn,rfl⟩]

theorem laws : Laws crypto where
  dh := {
    publicKey_ok := fun sk h => ⟨sk,by simp [crypto,h]⟩
    publicKey_length := fun sk pk h => by
      simp only [crypto] at h
      split_ifs at h with hl
      · obtain rfl : sk = pk := by simpa using h
        exact ⟨hl,hl⟩
      · simp [raise] at h
    agree_length := fun sk pk s h => by
      simp only [crypto] at h
      split_ifs at h with hl
      · obtain rfl : agree sk pk = s := by simpa using h
        exact ⟨hl.1,hl.2,by simp [agree,hl]⟩
      · simp [raise] at h
    agree_comm := fun a b pa pb ha hb => by
      simp only [crypto] at ha hb
      split_ifs at ha with hla
      · split_ifs at hb with hlb
        · obtain rfl : a = pa := by simpa using ha
          obtain rfl : b = pb := by simpa using hb
          exact ⟨agree a b,by simp [crypto,hla,hlb],by simp [crypto,hla,hlb,agree_comm b a]⟩
        · simp [raise] at hb
      · simp [raise] at ha }
  kem := {
    keygen_ok := fun seed h => ⟨_,by simp [crypto,h]; rfl⟩
    keygen_length := fun seed kp h => by
      simp only [crypto] at h
      split_ifs at h with hl
      · obtain rfl : (⟨fit 1184 seed,fit 2400 seed⟩ : KeyPair) = kp := by simpa using h
        simp
      · simp [raise] at h
    decapsulate_encapsulate := fun seed kp m h hm => by
      simp only [crypto] at h
      split_ifs at h with hl
      · obtain rfl : (⟨fit 1184 seed,fit 2400 seed⟩ : KeyPair) = kp := by simpa using h
        have ht : (fit 1088 m).take 32 = m := by
          rw [← hm]
          exact take_fit (by omega)
        exact ⟨⟨fit 1088 m,m⟩,by simp [crypto,hm],by simp,hm,by simp [crypto,ht]⟩
      · simp [raise] at h
    encapsulate_length := fun pk m e h => by
      simp only [crypto] at h
      split_ifs at h with hl
      · exact hl.2
      · simp [raise] at h }
  aead := {
    key_length := fun key nonce aad text ct h => by
      simp only [crypto,sealText] at h
      split_ifs at h with hl
      · exact hl.1
      · simp [raise] at h
    decrypt_encrypt := fun key nonce aad text hk hn => open_seal aad text hk hn }
  sig := {
    publicKey_ok := fun seed h => ⟨seed,by simp [crypto,h],h⟩
    verify_sign := fun seed pk message h => by
      simp only [crypto] at h
      split_ifs at h with hl
      · obtain rfl : seed = pk := by simpa using h
        exact ⟨_,rfl,by simp,by simp [crypto]⟩
      · simp [raise] at h }
  kdf := { expand_length := fun prk info n => by simp [crypto] }

end Sample
end Semp
