import Semp.Crypto

/-! The key wrap of the seal: encapsulation to a recipient, a wrap key derived from
the shared secret, and an AEAD seal under a zero nonce.  Every AEAD seal is recorded
with its key and nonce.  Unwrapping with the recipient's private key undoes it. -/
namespace Semp

/-- The key and the nonce of an AEAD seal. -/
structure SealCall where
  key : Bytes
  nonce : Bytes
  deriving DecidableEq, Repr

/-- Computations that add the AEAD seals they make to a history. -/
abbrev Sealing := StateT (List SealCall) Js

theorem sealing_bind_eq_ok {α β : Type} {x : Sealing α} {f : α → Sealing β}
    {calls calls' : List SealCall} {b : β} : (x >>= f) calls = .ok (b,calls') ↔
      ∃ a mid, x calls = .ok (a,mid) ∧ f a mid = .ok (b,calls') := by
  change (x calls >>= fun r => f r.1 r.2) = _ ↔ _
  rw [bind_eq_ok,Prod.exists]

theorem sealing_lift_eq_ok {α : Type} {x : Js α} {calls calls' : List SealCall} {a : α} :
    (liftM x : Sealing α) calls = .ok (a,calls') ↔ x = .ok a ∧ calls' = calls := by
  change (x >>= fun a => .ok (a,calls)) = _ ↔ _
  rw [bind_eq_ok]
  simp only [Except.ok.injEq,Prod.mk.injEq]
  constructor
  · rintro ⟨a',hx,rfl,rfl⟩
    exact ⟨hx,rfl⟩
  · rintro ⟨hx,rfl⟩
    exact ⟨a,hx,rfl,rfl⟩

namespace Seal

def wrapInfo : JsString := js "SEMP-v1-wrap"

/-- The field for ML-KEM is optional; the baseline suite ignores it. -/
structure WrapRandomness where
  ephemeralX25519Priv : Bytes
  kyberEncapsRandomnessM : Option Bytes
  deriving DecidableEq, Repr

def zeroNonce : Bytes := List.replicate 12 0

section Code
variable (C : Crypto)

/-- `aeadSeal`, recorded. -/
def recordedSeal (algorithm : AEADAlgorithm) (key nonce plaintext aad : Bytes) :
    Sealing Bytes := fun calls => do
  let ct ← aeadSeal C algorithm key nonce plaintext aad
  .ok (ct,calls++[⟨key,nonce⟩])

def encapsulate (suite : Suite) (recipientPublicKey : Bytes) (randomness : WrapRandomness) :
    Js Encapsulated :=
  match suite with
  | .x25519 =>
    if recipientPublicKey.length ≠ x25519Size then
      raise (js "seal: x25519 recipient pub must be "++natText x25519Size++js " bytes")
    else do
      let ephPub ← x25519PublicKey C randomness.ephemeralX25519Priv
      let shared ← x25519Agree C randomness.ephemeralX25519Priv recipientPublicKey
      .ok ⟨ephPub,shared⟩
  | .pq =>
    match randomness.kyberEncapsRandomnessM with
    | none => raise (js "seal: PQ wrap requires kyberEncapsRandomnessM")
    | some m => do
      let kyber ← C.mlKemEncapsulate (recipientPublicKey.take kyber768PublicKeySize) m
      let xEphPub ← x25519PublicKey C randomness.ephemeralX25519Priv
      let xSS ← x25519Agree C randomness.ephemeralX25519Priv
        (recipientPublicKey.drop kyber768PublicKeySize)
      .ok ⟨kyber.ciphertext++xEphPub,kyber.sharedSecret++xSS⟩

def decapsulate (suite : Suite) (kemCT recipientPrivateKey : Bytes) : Js Bytes :=
  match suite with
  | .x25519 =>
    if kemCT.length ≠ 32 then
      raise (js "seal: x25519 kemCT must be 32 bytes, got "++natText kemCT.length)
    else x25519Agree C recipientPrivateKey kemCT
  | .pq => hybridDecapsulate C kemCT recipientPrivateKey

/-- HKDF with the salt `kemCT || recipientPublicKey`. -/
def wrapKey (kemCT recipientPublicKey sharedSecret : Bytes) : Bytes :=
  let prk := C.hkdfExtract (kemCT++recipientPublicKey) sharedSecret
  C.hkdfExpand prk (utf8 wrapInfo) 32

def wrapWithRandomness (suite : Suite) (recipientPublicKey symmetricKey : Bytes)
    (randomness : WrapRandomness) : Sealing JsString := do
  let e ← encapsulate C suite recipientPublicKey randomness
  let aeadCT ← recordedSeal C .chacha20poly1305
    (wrapKey C e.ciphertext recipientPublicKey e.sharedSecret) zeroNonce symmetricKey
    recipientPublicKey
  return Base64.encode (e.ciphertext++aeadCT)

/-- `wrap` with its entropy as arguments. -/
def wrap (suite : Suite) (recipientPublicKey symmetricKey ephPriv kyberM : Bytes) :
    Sealing JsString :=
  match suite with
  | .x25519 => wrapWithRandomness C suite recipientPublicKey symmetricKey ⟨ephPriv,none⟩
  | .pq => wrapWithRandomness C suite recipientPublicKey symmetricKey ⟨ephPriv,some kyberM⟩

def unwrap (suite : Suite) (recipientPrivateKey recipientPublicKey : Bytes)
    (wrappedB64 : JsString) : Js Bytes :=
  if recipientPrivateKey.length = 0 then raise (js "seal: empty recipient private key")
  else if recipientPublicKey.length = 0 then raise (js "seal: empty recipient public key")
  else
    let raw := Base64.decode wrappedB64
    let aeadCTLen := 32+16
    if raw.length < aeadCTLen then raise (js "seal: wrapped key truncated")
    else do
      let kemCT := raw.take (raw.length-aeadCTLen)
      let aeadCT := raw.drop (raw.length-aeadCTLen)
      let sharedSecret ← decapsulate C suite kemCT recipientPrivateKey
      aeadOpen C .chacha20poly1305 (wrapKey C kemCT recipientPublicKey sharedSecret) zeroNonce
        aeadCT recipientPublicKey

/-- The two halves of a recipient's key pair. -/
def KeysMatch (suite : Suite) (privateKey publicKey : Bytes) : Prop :=
  match suite with
  | .x25519 => x25519PublicKey C privateKey = .ok publicKey
  | .pq => ∃ xPriv seed, hybridGenerateKeyPair C xPriv seed = .ok ⟨publicKey,privateKey⟩

end Code

variable {C : Crypto}

theorem recordedSeal_eq_ok {key nonce text aad ct : Bytes} {calls calls' : List SealCall} :
    recordedSeal C .chacha20poly1305 key nonce text aad calls = .ok (ct,calls') ↔
      nonce.length = 12 ∧ C.chachaEncrypt key nonce aad text = .ok ct ∧
        calls' = calls++[⟨key,nonce⟩] := by
  unfold recordedSeal
  rw [bind_eq_ok]
  simp only [aeadSeal,Except.ok.injEq,Prod.mk.injEq]
  constructor
  · rintro ⟨ct',h,rfl,rfl⟩
    split_ifs at h with hn
    · simp [nonceError] at h
    · exact ⟨not_not.mp hn,h,rfl⟩
  · rintro ⟨hn,h,rfl⟩
    exact ⟨ct,by rw [if_neg (not_not.mpr hn),h],rfl,rfl⟩

/-- What was sealed opens under the same key, nonce and associated data. -/
theorem aeadOpen_recordedSeal (laws : AeadLaws C) {key nonce text aad ct : Bytes}
    {calls calls' : List SealCall}
    (h : recordedSeal C .chacha20poly1305 key nonce text aad calls = .ok (ct,calls')) :
    ct.length = text.length+16 ∧ aeadOpen C .chacha20poly1305 key nonce ct aad = .ok text := by
  obtain ⟨hn,henc,-⟩ := recordedSeal_eq_ok.mp h
  obtain ⟨ct',henc',hlen,hdec⟩ := laws.decrypt_encrypt key nonce aad text
    (laws.key_length _ _ _ _ _ henc) hn
  obtain rfl : ct = ct' := Except.ok.inj (henc.symm.trans henc')
  exact ⟨hlen,by rw [aeadOpen,if_neg (not_not.mpr hn),hdec]⟩

theorem recordedSeal_ok (laws : AeadLaws C) {key nonce : Bytes} (hk : key.length = 32)
    (hn : nonce.length = 12) (text aad : Bytes) (calls : List SealCall) :
    ∃ r, recordedSeal C .chacha20poly1305 key nonce text aad calls = .ok r := by
  obtain ⟨ct,henc,-⟩ := laws.decrypt_encrypt key nonce aad text hk hn
  exact ⟨(ct,calls++[⟨key,nonce⟩]),recordedSeal_eq_ok.mpr ⟨hn,henc,rfl⟩⟩

theorem hybridGenerateKeyPair_eq_ok (laws : Laws C) {xPriv seed : Bytes} {kp : KeyPair}
    (h : hybridGenerateKeyPair C xPriv seed = .ok kp) : ∃ xPub kyber,
      C.x25519GetPublicKey xPriv = .ok xPub ∧ C.mlKemKeygen seed = .ok kyber ∧
      kp.publicKey = kyber.publicKey++xPub ∧ kp.secretKey = kyber.secretKey++xPriv ∧
      xPriv.length = 32 ∧ xPub.length = 32 ∧ kyber.publicKey.length = 1184 ∧
      kyber.secretKey.length = 2400 := by
  obtain ⟨xPub,hx,h⟩ := bind_eq_ok.mp h
  obtain ⟨kyber,hk,h⟩ := bind_eq_ok.mp h
  obtain rfl := Except.ok.inj h
  obtain ⟨h1,h2⟩ := laws.dh.publicKey_length _ _ hx
  obtain ⟨h3,h4⟩ := laws.kem.keygen_length _ _ hk
  exact ⟨xPub,kyber,hx,hk,rfl,rfl,h1,h2,h3,h4⟩

theorem KeysMatch.nonempty (laws : Laws C) {suite : Suite} {sk pk : Bytes}
    (h : KeysMatch C suite sk pk) : sk.length ≠ 0 ∧ pk.length ≠ 0 := by
  cases suite with
  | x25519 =>
    obtain ⟨h1,h2⟩ := laws.dh.publicKey_length _ _ h
    omega
  | pq =>
    obtain ⟨xPriv,seed,hgen⟩ := h
    obtain ⟨xPub,kyber,-,-,hpk,hsk,h1,h2,-,-⟩ := hybridGenerateKeyPair_eq_ok laws hgen
    simp only at hpk hsk
    rw [hpk,hsk,List.length_append,List.length_append]
    omega

/-- The matching private key decapsulates the shared secret. -/
theorem decapsulate_encapsulate (laws : Laws C) {suite : Suite} {sk pk : Bytes}
    {w : WrapRandomness} {e : Encapsulated} (hkeys : KeysMatch C suite sk pk)
    (he : encapsulate C suite pk w = .ok e) :
    decapsulate C suite e.ciphertext sk = .ok e.sharedSecret := by
  cases suite with
  | x25519 =>
    simp only [encapsulate] at he
    split_ifs at he with hl
    · simp at he
    · obtain ⟨ephPub,hpub,he⟩ := bind_eq_ok.mp he
      obtain ⟨shared,hshared,he⟩ := bind_eq_ok.mp he
      obtain rfl := Except.ok.inj he
      obtain ⟨s,hs,hs'⟩ := laws.dh.agree_comm _ _ _ _ hpub hkeys
      obtain rfl : shared = s := Except.ok.inj (hshared.symm.trans hs)
      have hlen := (laws.dh.publicKey_length _ _ hpub).2
      simp only [decapsulate,if_neg (not_not.mpr hlen)]
      exact hs'
  | pq =>
    obtain ⟨xPriv,seed,hgen⟩ := hkeys
    obtain ⟨xPub,kyber,hx,hk,hpk,hsk,h1,h2,h3,h4⟩ := hybridGenerateKeyPair_eq_ok laws hgen
    simp only at hpk hsk
    subst hpk hsk
    simp only [encapsulate] at he
    split at he
    · simp at he
    · next m hm =>
      have htake : (kyber.publicKey++xPub).take kyber768PublicKeySize = kyber.publicKey := by
        rw [kyber768PublicKeySize,← h3,List.take_left]
      have hdrop : (kyber.publicKey++xPub).drop kyber768PublicKeySize = xPub := by
        rw [kyber768PublicKeySize,← h3,List.drop_left]
      rw [htake,hdrop] at he
      obtain ⟨ky,hky,he⟩ := bind_eq_ok.mp he
      obtain ⟨ephPub,hpub,he⟩ := bind_eq_ok.mp he
      obtain ⟨xSS,hxSS,he⟩ := bind_eq_ok.mp he
      obtain rfl := Except.ok.inj he
      obtain ⟨ky',hky',hct,hss,hdec⟩ := laws.kem.decapsulate_encapsulate seed kyber m hk
        (laws.kem.encapsulate_length _ _ _ hky)
      obtain rfl : ky = ky' := Except.ok.inj (hky.symm.trans hky')
      obtain ⟨s,hs,hs'⟩ := laws.dh.agree_comm _ _ _ _ hpub hx
      obtain rfl : xSS = s := Except.ok.inj (hxSS.symm.trans hs)
      have hlen := (laws.dh.publicKey_length _ _ hpub).2
      simp only [decapsulate,hybridDecapsulate]
      rw [if_neg (by simp [hct,hlen,hybridCiphertextSize,kyber768CiphertextSize,x25519Size]),
        if_neg (by simp [h4,h1,hybridPrivateKeySize,kyber768PrivateKeySize,x25519Size]),
        kyber768CiphertextSize,kyber768PrivateKeySize,← hct,← h4,List.take_left,List.take_left,
        List.drop_left,List.drop_left,hdec,ok_bind,x25519Agree,hs',ok_bind]

theorem encapsulate_ok (laws : Laws C) {suite : Suite} {sk pk : Bytes} {w : WrapRandomness}
    (hkeys : KeysMatch C suite sk pk) (heph : w.ephemeralX25519Priv.length = 32)
    (hm : suite = .pq → ∃ m, w.kyberEncapsRandomnessM = some m ∧ m.length = 32) :
    ∃ e, encapsulate C suite pk w = .ok e := by
  obtain ⟨ephPub,hpub⟩ := laws.dh.publicKey_ok _ heph
  cases suite with
  | x25519 =>
    have hx : C.x25519GetPublicKey sk = .ok pk := hkeys
    obtain ⟨s,hs,-⟩ := laws.dh.agree_comm _ _ _ _ hpub hx
    have hlen := (laws.dh.publicKey_length _ _ hx).2
    refine ⟨⟨ephPub,s⟩,?_⟩
    simp only [encapsulate,if_neg (not_not.mpr (show pk.length = x25519Size from hlen)),
      x25519PublicKey,x25519Agree,hpub,hs,ok_bind]
  | pq =>
    obtain ⟨xPriv,seed,hgen⟩ := hkeys
    obtain ⟨xPub,kyber,hx,hk,hpk,-,-,-,h3,-⟩ := hybridGenerateKeyPair_eq_ok laws hgen
    obtain ⟨m,hsome,hlen⟩ := hm rfl
    obtain ⟨ky,hky,-⟩ := laws.kem.decapsulate_encapsulate seed kyber m hk hlen
    obtain ⟨s,hs,-⟩ := laws.dh.agree_comm _ _ _ _ hpub hx
    simp only at hpk
    subst hpk
    refine ⟨⟨ky.ciphertext++ephPub,ky.sharedSecret++s⟩,?_⟩
    simp only [encapsulate,hsome,kyber768PublicKeySize,← h3,List.take_left,List.drop_left,hky,
      x25519PublicKey,x25519Agree,hpub,hs,ok_bind]

theorem wrapWithRandomness_eq_ok {suite : Suite} {pk key : Bytes} {w : WrapRandomness}
    {calls calls' : List SealCall} {wrapped : JsString} :
    wrapWithRandomness C suite pk key w calls = .ok (wrapped,calls') ↔
      ∃ e ct, encapsulate C suite pk w = .ok e ∧
        recordedSeal C .chacha20poly1305 (wrapKey C e.ciphertext pk e.sharedSecret) zeroNonce key pk
          calls = .ok (ct,calls') ∧ wrapped = Base64.encode (e.ciphertext++ct) := by
  unfold wrapWithRandomness
  simp only [sealing_bind_eq_ok,sealing_lift_eq_ok]
  constructor
  · rintro ⟨e,mid,⟨he,rfl⟩,ct,mid',hct,h⟩
    obtain ⟨rfl,rfl⟩ := Prod.mk.inj (Except.ok.inj h)
    exact ⟨e,ct,he,hct,rfl⟩
  · rintro ⟨e,ct,he,hct,rfl⟩
    exact ⟨e,calls,⟨he,rfl⟩,ct,calls',hct,rfl⟩

/-- Unwrapping undoes wrapping. -/
theorem unwrap_wrapWithRandomness (laws : Laws C) {suite : Suite} {sk pk key : Bytes}
    {w : WrapRandomness} {calls calls' : List SealCall} {wrapped : JsString}
    (hkeys : KeysMatch C suite sk pk) (hkey : key.length = 32)
    (h : wrapWithRandomness C suite pk key w calls = .ok (wrapped,calls')) :
    unwrap C suite sk pk wrapped = .ok key := by
  obtain ⟨e,ct,he,hct,rfl⟩ := wrapWithRandomness_eq_ok.mp h
  obtain ⟨hlen,hopen⟩ := aeadOpen_recordedSeal laws.aead hct
  obtain ⟨hsk,hpk⟩ := KeysMatch.nonempty laws hkeys
  have hraw : (e.ciphertext++ct).length-(32+16) = e.ciphertext.length := by
    rw [List.length_append]
    omega
  rw [unwrap,if_neg hsk,if_neg hpk]
  simp only [Base64.decode_encode]
  rw [if_neg (by rw [List.length_append]; omega),hraw,List.take_left,List.drop_left,
    decapsulate_encapsulate laws hkeys he,ok_bind,hopen]

theorem wrapWithRandomness_ok (laws : Laws C) {suite : Suite} {sk pk : Bytes} {w : WrapRandomness}
    (hkeys : KeysMatch C suite sk pk) (heph : w.ephemeralX25519Priv.length = 32)
    (hm : suite = .pq → ∃ m, w.kyberEncapsRandomnessM = some m ∧ m.length = 32) (key : Bytes)
    (calls : List SealCall) :
    ∃ r, wrapWithRandomness C suite pk key w calls = .ok r := by
  obtain ⟨e,he⟩ := encapsulate_ok laws hkeys heph hm
  obtain ⟨⟨ct,calls'⟩,hct⟩ := recordedSeal_ok laws.aead
    (laws.kdf.expand_length (C.hkdfExtract (e.ciphertext++pk) e.sharedSecret) (utf8 wrapInfo) 32)
    (show zeroNonce.length = 12 from rfl) key pk calls
  exact ⟨_,wrapWithRandomness_eq_ok.mpr ⟨e,ct,he,hct,rfl⟩⟩

end Seal
end Semp
