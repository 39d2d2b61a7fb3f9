import Semp.HandshakeServer
import Semp.PolicyState
import Semp.JsSlice

/-! Large attachments: a file sealed under a key that is derived from the enclosure's key and the
id of the attachment, with the entry that describes it as associated data. -/
namespace Semp
namespace LargeAttachment

abbrev Digest512 := {b : Bytes // b.length = 64}

/-- What a parsed URL is asked for. -/
structure Url where
  protocol : JsString
  hostname : JsString

/-- The HMAC of SHA-512 and `new URL(raw)`. -/
structure Platform where
  hmacSha512 : Bytes → Bytes → Digest512
  parseUrl : JsString → Js Url

/-- A typed array is never longer. -/
abbrev Uint8Array := {b : Bytes // b.length < 2^53}

def hkdfInfoPrefix : JsString := js "semp-attachment:"
def hashAlgorithmSHA256 : JsString := js "sha256"
def colon : UInt16 := 58
def slash : UInt16 := 47
def backslash : UInt16 := 92

structure Item where
  id : JsString
  filename : JsString
  mime_type : JsString
  plaintext_size : Number
  url : JsString
  aead_algorithm : JsString
  aead_nonce : JsString
  ciphertext_hash : JsString
  extensions : Option JsonValue

def Item.members (item : Item) : Members :=
  [(js "id",.str item.id),(js "filename",.str item.filename),(js "mime_type",.str item.mime_type),
    (js "plaintext_size",.num item.plaintext_size),(js "url",.str item.url),
    (js "aead_algorithm",.str item.aead_algorithm),(js "aead_nonce",.str item.aead_nonce),
    (js "ciphertext_hash",.str item.ciphertext_hash)]++
  match item.extensions with
  | none => []
  | some v => [(js "extensions",v.val)]

/-- `Number.parseInt(s,16)`; `none` is `NaN`. -/
def parseInt16 (s : JsString) : Option ℤ :=
  let s := s.dropWhile isSpace
  let neg := s.head? = some 45
  let s := if s.head? = some 43 ∨ s.head? = some 45 then s.drop 1 else s
  let s := if s.take 2 = js "0x" ∨ s.take 2 = js "0X" then s.drop 2 else s
  let ds := s.takeWhile fun u => (JsonText.hexValue u).isSome
  let n := ds.foldl (fun n u => n*16+(JsonText.hexValue u).getD 0) 0
  if ds = [] then none else if neg then some (-n) else some n

/-- A store into a typed array reduces modulo 256. -/
def toUint8 (n : ℤ) : UInt8 := UInt8.ofNat (n%256).toNat

def hexToBytes : JsString → Js Bytes
  | [] => .ok []
  | [_] => raise (js "hex: odd length")
  | a::b::hex =>
    -- The length is looked at before any digit.
    if hex.length%2 ≠ 0 then raise (js "hex: odd length")
    else
      match parseInt16 [a,b] with
      | none => raise (js "hex: invalid character")
      | some byte => do
        let rest ← hexToBytes hex
        .ok (toUint8 byte::rest)

/-- One round of the expansion: the last block, and what is written so far. -/
def expandRound (hmac512 : Bytes → Bytes → Digest512) (prk info : Bytes) (length : ℕ)
    (s : Bytes × Bytes) (i : ℕ) : Bytes × Bytes :=
  let t := (hmac512 prk (s.1++info++[UInt8.ofNat i])).val
  (t,s.2++t.take (min 64 (length-s.2.length)))

def hkdfExpandSHA512 (hmac512 : Bytes → Bytes → Digest512) (prk info : Bytes) (length : ℕ) :
    Js Bytes :=
  let n := (length+63)/64
  if n > 255 then raise (js "largeattachment: HKDF-Expand requested length too large")
  else .ok ((List.range' 1 n).foldl (expandRound hmac512 prk info length) ([],[])).2

/-- `s.split(".")` -/
def splitParts (s : JsString) : List JsString := SignedDoc.splitDots s

def looksLikeIPv6 (host : JsString) : Bool := host.contains colon

def octet (p : JsString) : Bool :=
  p ≠ [] && p.all NumberText.isDigit &&
    decide (p.foldl (fun n u => n*10+(u.toNat-48)) 0 ≤ 255)

def looksLikeIPv4 (host : JsString) : Bool :=
  let parts := splitParts host
  parts.length = 4 && parts.all octet

/-- `s.replace(/:$/,"")` -/
def dropColon (s : JsString) : JsString := if s.getLast? = some colon then s.dropLast else s

section Code
variable (C : Crypto) (P : Platform) (rt : Runtime)

def deriveAttachmentKey (kEnclosure : Bytes) (attachmentId : JsString) (outputLen : ℕ) :
    Js Bytes :=
  if kEnclosure.length = 0 then raise (js "largeattachment: empty K_enclosure")
  else if attachmentId = [] then raise (js "largeattachment: empty attachment_id")
  else if outputLen = 0 then
    raise (js "largeattachment: invalid output length "++natText outputLen)
  else hkdfExpandSHA512 P.hmacSha512 kEnclosure (utf8 (hkdfInfoPrefix++attachmentId)) outputLen

/-- The entry without what is not known before sealing. -/
def additionalData (item : Item) : Js Bytes :=
  let clone := {item with ciphertext_hash := [],aead_nonce := [],extensions := none}
  Canonical.marshal (.obj clone.members)

def ciphertextHash (ciphertext : Bytes) : JsString :=
  hashAlgorithmSHA256++js ":"++hex (C.sha256 ciphertext).val

def verifyCiphertextHash (item : Item) (ciphertext : Bytes) : Bool :=
  if item.ciphertext_hash = [] then false
  else
    match cutAt colon item.ciphertext_hash with
    | none => false
    | some (algo,hex) =>
      if algo ≠ hashAlgorithmSHA256 then false
      else
        match hexToBytes hex with
        | .error _ => false
        | .ok want => constantTimeEqual want (C.sha256 ciphertext).val

def validateUrl (raw : JsString) : Js Unit :=
  if raw = [] then raise (js "largeattachment: empty url")
  else
    match P.parseUrl raw with
    | .error err => raise (js "largeattachment: parse url: "++Handshake.thrownText rt err)
    | .ok u =>
      if u.protocol ≠ js "https:" then
        raise (js "largeattachment: url scheme "++
          JsonText.stringify (.str (dropColon u.protocol))++js ", want https")
      else if u.hostname = [] then raise (js "largeattachment: url has no host")
      else if looksLikeIPv6 u.hostname then .ok ()
      else if looksLikeIPv4 u.hostname then
        raise (js "largeattachment: url host "++JsonText.stringify (.str u.hostname)++
          js " is a bare IPv4 literal; FQDN required")
      else if !u.hostname.contains SignedDoc.dot then
        raise (js "largeattachment: url host "++JsonText.stringify (.str u.hostname)++
          js " is not a fully qualified domain name")
      else .ok ()

/-- The strings of an entry are strings by its type. -/
def validateItem (item : Item) : Js Unit :=
  if item.id = [] then raise (js "largeattachment: item missing id")
  else if item.filename = [] then raise (js "largeattachment: item missing filename")
  else if slash ∈ item.filename ∨ backslash ∈ item.filename then
    raise (js "largeattachment: filename "++JsonText.stringify (.str item.filename)++
      js " contains path separator")
  else if item.mime_type = [] then raise (js "largeattachment: item missing mime_type")
  else if !item.plaintext_size.isInteger || item.plaintext_size.lt (.ofNat 0) then
    raise (js "largeattachment: plaintext_size "++NumberText.toText item.plaintext_size++
      js " MUST be >= 0")
  else do
    validateUrl P rt item.url
    if item.ciphertext_hash = [] then raise (js "largeattachment: item missing ciphertext_hash")
    else if item.aead_algorithm = [] then
      raise (js "largeattachment: item missing aead_algorithm")
    else if item.aead_nonce = [] then raise (js "largeattachment: item missing aead_nonce")
    else .ok ()

end Code

def aeadAlgorithmFor : Suite → AEADAlgorithm
  | .x25519 => .chacha20poly1305
  | .pq => .xchacha20poly1305

def algorithmName : AEADAlgorithm → JsString
  | .chacha20poly1305 => js "chacha20-poly1305"
  | .xchacha20poly1305 => js "xchacha20-poly1305"

def nonceLengthFor (algo : AEADAlgorithm) : ℕ := if algo = .chacha20poly1305 then 12 else 24

def ulidAlphabet : JsString := js "0123456789ABCDEFGHJKMNPQRSTVWXYZ"

/-- The last thirteen base-32 digits of a word. -/
def ulidDigits (word : ℕ) : JsString :=
  ((List.range 13).map fun i => ulidAlphabet.getD (word/32^i%32) 48).reverse

def bigEndian (bytes : Bytes) : ℕ := bytes.foldl (fun n b => n*256+b.toNat) 0

/-- `newULID` at a time, with ten random bytes. -/
def newULID (ms : ℤ) (random : Bytes) : JsString :=
  let bits := ([40,32,24,16,8,0].map fun shift => toUint8 (ms/2^shift))++random
  ulidDigits (bigEndian (bits.take 8))++ulidDigits (bigEndian ((bits.drop 8).take 8))

structure EncryptAttachmentInput where
  suite : Suite
  kEnclosure : Bytes
  plaintext : Uint8Array
  filename : JsString
  mimeType : JsString
  url : JsString
  id : Option JsString
  aeadNonce : Option Bytes
  extensions : Option JsonValue

/-- What is drawn when the caller gives no id and no nonce. -/
structure Entropy where
  ms : ℤ
  ulid : Bytes
  nonce : Bytes

structure EncryptAttachmentResult where
  item : Item
  ciphertext : Bytes

section Code
variable (C : Crypto) (P : Platform) (rt : Runtime)

/-- The nonce of the caller, if it has the right length, or a fresh one. -/
def chooseNonce (algo : AEADAlgorithm) (given : Option Bytes) (fresh : Bytes) : Js Bytes :=
  match given with
  | none => .ok fresh
  | some nonce =>
    if nonce.length ≠ nonceLengthFor algo then
      raise (js "largeattachment: nonce length "++natText nonce.length++js ", want "++
        natText (nonceLengthFor algo)++js " for "++algorithmName algo)
    else .ok nonce

def encryptAttachment (entropy : Entropy) (input : EncryptAttachmentInput) :
    Js EncryptAttachmentResult :=
  if input.kEnclosure.length = 0 then raise (js "largeattachment: empty K_enclosure")
  else if input.filename = [] ∨ input.mimeType = [] ∨ input.url = [] then
    raise (js "largeattachment: filename, mimeType, and url are required")
  else do
    validateUrl P rt input.url
    let algo := aeadAlgorithmFor input.suite
    let id := input.id.getD (newULID entropy.ms entropy.ulid)
    let nonce ← chooseNonce algo input.aeadNonce entropy.nonce
    let kAttachment ← deriveAttachmentKey P input.kEnclosure id 32
    let item : Item := {
      id := id
      filename := input.filename
      mime_type := input.mimeType
      plaintext_size := .ofNat input.plaintext.val.length
      url := input.url
      aead_algorithm := algorithmName algo
      aead_nonce := Base64.encode nonce
      ciphertext_hash := []
      extensions := none }
    let aad ← additionalData item
    let ciphertext ← aeadSeal C algo kAttachment nonce input.plaintext.val aad
    let item := {item with ciphertext_hash := ciphertextHash C ciphertext}
    .ok ⟨{item with extensions := input.extensions},ciphertext⟩

def decryptAttachment (suite : Suite) (kEnclosure : Bytes) (item : Item) (ciphertext : Bytes) :
    Js Bytes :=
  if kEnclosure.length = 0 then raise (js "largeattachment: empty K_enclosure")
  else do
    validateItem P rt item
    let expectedAlgo := aeadAlgorithmFor suite
    if item.aead_algorithm ≠ algorithmName expectedAlgo then
      raise (js "largeattachment: item aead_algorithm "++
        JsonText.stringify (.str item.aead_algorithm)++js " does not match suite "++
        JsonText.stringify (.str suite.name)++js " (expected "++algorithmName expectedAlgo++js ")")
    else if !verifyCiphertextHash C item ciphertext then
      -- `CiphertextHashMismatchError`
      raise (js "largeattachment: ciphertext hash mismatch")
    else
      let nonce := Base64.decode item.aead_nonce
      if nonce.length ≠ nonceLengthFor expectedAlgo then
        raise (js "largeattachment: aead_nonce length "++natText nonce.length++js ", want "++
          natText (nonceLengthFor expectedAlgo)++js " for "++algorithmName expectedAlgo)
      else do
        let kAttachment ← deriveAttachmentKey P kEnclosure item.id 32
        let aad ← additionalData item
        aeadOpen C expectedAlgo kAttachment nonce ciphertext aad

end Code
/-- XChaCha20-Poly1305, as ChaCha20-Poly1305 with a nonce of 24 bytes. -/
structure XAeadLaws (C : Crypto) : Prop where
  key_length : ∀ key nonce aad text ct, C.xchachaEncrypt key nonce aad text = .ok ct →
    key.length = 32
  decrypt_encrypt : ∀ key nonce aad text, key.length = 32 → nonce.length = 24 →
    ∃ ct, C.xchachaEncrypt key nonce aad text = .ok ct ∧
      C.xchachaDecrypt key nonce aad ct = .ok text

section Hash
variable {C : Crypto}

theorem parseInt16_digits : ∀ a < 16, ∀ b < 16,
    parseInt16 [JsonText.hexDigit a,JsonText.hexDigit b] = some (16*a+b : ℕ) := by
  decide +kernel

theorem hexToBytes_hex (b : Bytes) : hexToBytes (hex b) = .ok b := by
  induction b with
  | nil => rfl
  | cons x b ih =>
    have hx : x.toNat/16 < 16 := by
      have := x.toNat_lt
      omega
    have hbyte : toUint8 (16*(x.toNat/16)+x.toNat%16 : ℕ) = x := by
      rw [Nat.div_add_mod,toUint8]
      have := x.toNat_lt
      rw [Int.emod_eq_of_lt (by omega) (by omega)]
      exact UInt8.ofNat_toNat
    rw [hex,List.flatMap_cons,← hex]
    change hexToBytes (JsonText.hexDigit (x.toNat/16)::JsonText.hexDigit (x.toNat%16)::hex b) = _
    rw [hexToBytes,if_neg (by rw [length_hex]; omega),
      parseInt16_digits _ hx _ (Nat.mod_lt _ (by norm_num)),ih]
    change Except.ok (toUint8 _::b) = _
    rw [hbyte]

/-- The hash of a ciphertext is the one that is looked for. -/
theorem verifyCiphertextHash_self {item : Item} {ciphertext : Bytes}
    (h : item.ciphertext_hash = ciphertextHash C ciphertext) :
    verifyCiphertextHash C item ciphertext = true := by
  have hcut : cutAt colon item.ciphertext_hash =
      some (hashAlgorithmSHA256,hex (C.sha256 ciphertext).val) :=
    cutAt_eq_some.mpr ⟨by rw [h,ciphertextHash,List.append_assoc]; rfl,by decide⟩
  rw [verifyCiphertextHash,if_neg (by rw [h]; exact nofun),hcut]
  simp only
  rw [if_neg (not_not.mpr rfl),hexToBytes_hex]
  exact constantTimeEqual_iff.mpr rfl

end Hash
section RoundTrip
variable {C : Crypto} {P : Platform} {rt : Runtime}

theorem aeadOpen_aeadSeal (laws : AeadLaws C) (xlaws : XAeadLaws C) {algo : AEADAlgorithm}
    {key nonce text aad ct : Bytes} (h : aeadSeal C algo key nonce text aad = .ok ct) :
    nonce.length = nonceLengthFor algo ∧ aeadOpen C algo key nonce ct aad = .ok text := by
  cases algo with
  | chacha20poly1305 =>
    rw [aeadSeal] at h
    split_ifs at h with hn
    · cases h
    have hn := not_not.mp hn
    obtain ⟨ct',hct,-,hopen⟩ :=
      laws.decrypt_encrypt key nonce aad text (laws.key_length _ _ _ _ _ h) hn
    obtain rfl := Except.ok.inj (h.symm.trans hct)
    exact ⟨hn,by rw [aeadOpen,if_neg (not_not.mpr hn),hopen]⟩
  | xchacha20poly1305 =>
    rw [aeadSeal] at h
    split_ifs at h with hn
    · cases h
    have hn := not_not.mp hn
    obtain ⟨ct',hct,hopen⟩ :=
      xlaws.decrypt_encrypt key nonce aad text (xlaws.key_length _ _ _ _ _ h) hn
    obtain rfl := Except.ok.inj (h.symm.trans hct)
    exact ⟨hn,by rw [aeadOpen,if_neg (not_not.mpr hn),hopen]⟩

theorem aeadSeal_ok (laws : AeadLaws C) (xlaws : XAeadLaws C) {algo : AEADAlgorithm}
    {key nonce : Bytes} (hk : key.length = 32) (hn : nonce.length = nonceLengthFor algo)
    (text aad : Bytes) : ∃ ct, aeadSeal C algo key nonce text aad = .ok ct := by
  cases algo with
  | chacha20poly1305 =>
    have hn : nonce.length = 12 := hn
    obtain ⟨ct,hct,-⟩ := laws.decrypt_encrypt key nonce aad text hk hn
    exact ⟨ct,by rw [aeadSeal,if_neg (not_not.mpr hn),hct]⟩
  | xchacha20poly1305 =>
    have hn : nonce.length = 24 := hn
    obtain ⟨ct,hct,-⟩ := xlaws.decrypt_encrypt key nonce aad text hk hn
    exact ⟨ct,by rw [aeadSeal,if_neg (not_not.mpr hn),hct]⟩

/-- What was accepted and what was made of it. -/
structure Encrypted (C : Crypto) (P : Platform) (rt : Runtime) (input : EncryptAttachmentInput)
    (r : EncryptAttachmentResult) : Prop where
  kEnclosure : input.kEnclosure.length ≠ 0
  filename : r.item.filename = input.filename ∧ input.filename ≠ []
  mime_type : r.item.mime_type ≠ []
  plaintext_size : r.item.plaintext_size = .ofNat input.plaintext.val.length
  url : validateUrl P rt r.item.url = .ok ()
  algorithm : r.item.aead_algorithm = algorithmName (aeadAlgorithmFor input.suite)
  hash : r.item.ciphertext_hash = ciphertextHash C r.ciphertext
  sealed : ∃ key nonce aad, deriveAttachmentKey P input.kEnclosure r.item.id 32 = .ok key ∧
    r.item.aead_nonce = Base64.encode nonce ∧ additionalData r.item = .ok aad ∧
    aeadSeal C (aeadAlgorithmFor input.suite) key nonce input.plaintext.val aad = .ok r.ciphertext

theorem encryptAttachment_eq_ok {entropy : Entropy} {input : EncryptAttachmentInput}
    {r : EncryptAttachmentResult} (h : encryptAttachment C P rt entropy input = .ok r) :
    Encrypted C P rt input r := by
  unfold encryptAttachment at h
  split_ifs at h with hkey htexts
  · cases h
  · cases h
  rw [not_or,not_or] at htexts
  obtain ⟨u,hurl,h⟩ := Semp.bind_eq_ok.mp h
  obtain ⟨nonce,-,h⟩ := Semp.bind_eq_ok.mp h
  obtain ⟨key,hderived,h⟩ := Semp.bind_eq_ok.mp h
  obtain ⟨aad,haad,h⟩ := Semp.bind_eq_ok.mp h
  obtain ⟨ct,hct,h⟩ := Semp.bind_eq_ok.mp h
  obtain rfl := Except.ok.inj h
  exact {
    kEnclosure := hkey
    filename := ⟨rfl,htexts.1⟩
    mime_type := htexts.2.1
    plaintext_size := rfl
    url := hurl
    algorithm := rfl
    hash := rfl
    sealed := ⟨key,nonce,aad,hderived,rfl,haad,hct⟩ }

theorem deriveAttachmentKey_id {kEnclosure key : Bytes} {id : JsString} {n : ℕ}
    (h : deriveAttachmentKey P kEnclosure id n = .ok key) : id ≠ [] := by
  rintro rfl
  rw [deriveAttachmentKey] at h
  by_cases hk : kEnclosure.length = 0
  · rw [if_pos hk] at h
    cases h
  · rw [if_neg hk,if_pos rfl] at h
    cases h

/-- The entry of an attachment passes unless its name has a path separator. -/
theorem Encrypted.validateItem_eq {input : EncryptAttachmentInput} {r : EncryptAttachmentResult}
    (h : Encrypted C P rt input r) (hsep : ¬(slash ∈ input.filename ∨ backslash ∈ input.filename)) :
    validateItem P rt r.item = .ok () := by
  obtain ⟨key,nonce,aad,hkey,hnonce,-,hct⟩ := h.sealed
  have hsize : (!r.item.plaintext_size.isInteger || r.item.plaintext_size.lt (.ofNat 0)) =
      false := by
    rw [h.plaintext_size,Number.isInteger_ofNat input.plaintext.2,
      Number.lt_ofNat input.plaintext.2 (by norm_num)]
    simp
  have hlength : nonce ≠ [] := by
    rintro rfl
    cases hsuite : input.suite <;> simp [hsuite,aeadAlgorithmFor,aeadSeal,nonceError] at hct
  have halg : algorithmName (aeadAlgorithmFor input.suite) ≠ [] := by
    cases input.suite <;> exact List.cons_ne_nil _ _
  have hhash : ciphertextHash C r.ciphertext ≠ [] := List.cons_ne_nil _ _
  rw [validateItem,if_neg (deriveAttachmentKey_id hkey),h.filename.1,if_neg h.filename.2,
    if_neg hsep,if_neg h.mime_type,if_neg (by rw [hsize]; exact Bool.false_ne_true),h.url,ok_bind,h.hash,
    if_neg hhash,h.algorithm,if_neg halg,hnonce,if_neg (by rwa [Base64.encode_eq_nil])]

/-- What encryption accepts decryption opens, unless the name of the file has a path separator:
only decryption refuses those. -/
theorem decrypt_encrypt_iff (laws : AeadLaws C) (xlaws : XAeadLaws C) {entropy : Entropy}
    {input : EncryptAttachmentInput} {r : EncryptAttachmentResult}
    (h : encryptAttachment C P rt entropy input = .ok r) :
    decryptAttachment C P rt input.suite input.kEnclosure r.item r.ciphertext =
        .ok input.plaintext.val ↔
      slash ∉ input.filename ∧ backslash ∉ input.filename := by
  have hr := encryptAttachment_eq_ok h
  rw [decryptAttachment,if_neg hr.kEnclosure,← not_or]
  by_cases hsep : slash ∈ input.filename ∨ backslash ∈ input.filename
  · refine iff_of_false (fun hok => ?_) (not_not.mpr hsep)
    obtain ⟨u,hu,-⟩ := Semp.bind_eq_ok.mp hok
    obtain ⟨key,nonce,aad,hkey,-,-,-⟩ := hr.sealed
    rw [validateItem,if_neg (deriveAttachmentKey_id hkey),hr.filename.1,if_neg hr.filename.2,
      if_pos hsep] at hu
    cases hu
  · refine iff_of_true ?_ hsep
    obtain ⟨key,nonce,aad,hkey,hnonce,haad,hct⟩ := hr.sealed
    obtain ⟨hn,hopen⟩ := aeadOpen_aeadSeal laws xlaws hct
    rw [hr.validateItem_eq hsep,ok_bind,if_neg (not_not.mpr hr.algorithm),
      verifyCiphertextHash_self hr.hash,if_neg (by decide),hnonce]
    simp only [Base64.decode_encode]
    rw [if_neg (not_not.mpr hn),hkey,ok_bind,haad,ok_bind,hopen]

/-- The key of an attachment has 32 bytes. -/
theorem deriveAttachmentKey_ok {kEnclosure : Bytes} {id : JsString} (hk : kEnclosure.length ≠ 0)
    (hid : id ≠ []) : ∃ key, deriveAttachmentKey P kEnclosure id 32 = .ok key ∧ key.length = 32 := by
  rw [deriveAttachmentKey,if_neg hk,if_neg hid,if_neg (by decide)]
  refine ⟨_,rfl,?_⟩
  change ([]++(P.hmacSha512 _ _).val.take 32 : Bytes).length = 32
  rw [List.nil_append,List.length_take,(P.hmacSha512 _ _).2]
  rfl

theorem wf_members (item : Item) : (Json.obj item.members).WF := by
  obtain ⟨id,filename,mime,size,url,algo,nonce,hash,extensions⟩ := item
  cases extensions with
  | none =>
    exact Json.wf_obj.mpr ⟨by simp only [Item.members,keys,List.map,List.append_nil]; decide,
      by simp [Item.members,Json.WF]⟩
  | some v =>
    refine Json.wf_obj.mpr ⟨by
      simp only [Item.members,keys,List.map,List.cons_append,List.nil_append]; decide,?_⟩
    simp [Item.members,Json.WF,v.2]

/-- What encryption accepts. -/
theorem encryptAttachment_ok (laws : AeadLaws C) (xlaws : XAeadLaws C) (entropy : Entropy)
    {input : EncryptAttachmentInput} {id : JsString} {nonce : Bytes}
    (hk : input.kEnclosure.length ≠ 0) (hfilename : input.filename ≠ [])
    (hmime : input.mimeType ≠ []) (hne : input.url ≠ []) (hurl : validateUrl P rt input.url = .ok ())
    (hid : input.id = some id) (hidne : id ≠ []) (hnonce : input.aeadNonce = some nonce)
    (hlength : nonce.length = nonceLengthFor (aeadAlgorithmFor input.suite)) :
    ∃ r, encryptAttachment C P rt entropy input = .ok r ∧ r.item.filename = input.filename := by
  obtain ⟨key,hkey,hkeylength⟩ := deriveAttachmentKey_ok (P := P) hk hidne
  have hchosen : chooseNonce (aeadAlgorithmFor input.suite) (some nonce) entropy.nonce =
      .ok nonce := if_neg (not_not.mpr hlength)
  rw [encryptAttachment,if_neg hk,if_neg (by simp [hfilename,hmime,hne]),hurl,ok_bind,hid,hnonce]
  dsimp only
  rw [hchosen,ok_bind,Option.getD_some,hkey,ok_bind]
  simp only [additionalData,Canonical.marshal_eq (wf_members _),ok_bind]
  obtain ⟨ct,hct⟩ := aeadSeal_ok laws xlaws hkeylength hlength input.plaintext.val _
  rw [hct]
  exact ⟨_,rfl,rfl⟩

/-- The sample platform: every text is a URL of one host. -/
def samplePlatform : Platform where
  hmacSha512 key message :=
    ⟨(Sample.crypto.hmacSha256 key message).val++(Sample.crypto.hmacSha256 message key).val,by
      rw [List.length_append,(Sample.crypto.hmacSha256 key message).2,
        (Sample.crypto.hmacSha256 message key).2]⟩
  parseUrl _ := .ok ⟨js "https:",js "files.example.com"⟩

theorem sample_xlaws : XAeadLaws Sample.crypto where
  key_length key nonce aad text ct h := by
    change Sample.sealText 24 key nonce aad text = _ at h
    rw [Sample.sealText] at h
    split_ifs at h with hk
    · exact hk.1
    · cases h
  decrypt_encrypt key nonce aad text hk hn := by
    obtain ⟨ct,hct,-,hopen⟩ := Sample.open_seal aad text hk hn
    exact ⟨ct,hct,hopen⟩

def sampleAttachment (filename : JsString) : EncryptAttachmentInput where
  suite := .pq
  kEnclosure := List.replicate 32 1
  plaintext := ⟨[1,2,3],by norm_num⟩
  filename := filename
  mimeType := js "text/plain"
  url := js "https://files.example.com/1"
  id := some (js "a")
  aeadNonce := some (List.replicate 24 0)
  extensions := none

theorem sampleAttachment_ok {filename : JsString} (h : filename ≠ []) :
    ∃ r, encryptAttachment Sample.crypto samplePlatform Sample.runtime ⟨0,[],[]⟩
      (sampleAttachment filename) = .ok r ∧ r.item.filename = filename :=
  encryptAttachment_ok Sample.laws.aead sample_xlaws ⟨0,[],[]⟩
    (show (List.replicate 32 (1 : UInt8)).length ≠ 0 by decide) h
    (show js "text/plain" ≠ [] by decide) (show js "https://files.example.com/1" ≠ [] by decide)
    rfl rfl (show js "a" ≠ [] by decide) rfl rfl

theorem decrypt_encrypt_iff_sample : ∃ r,
    encryptAttachment Sample.crypto samplePlatform Sample.runtime ⟨0,[],[]⟩
      (sampleAttachment (js "a.txt")) = .ok r ∧
    decryptAttachment Sample.crypto samplePlatform Sample.runtime .pq (List.replicate 32 1) r.item
      r.ciphertext = .ok [1,2,3] := by
  obtain ⟨r,hr,-⟩ := sampleAttachment_ok (show js "a.txt" ≠ [] by decide)
  exact ⟨r,hr,(decrypt_encrypt_iff Sample.laws.aead sample_xlaws hr).mpr
    ⟨show slash ∉ js "a.txt" by decide,show backslash ∉ js "a.txt" by decide⟩⟩

/-- A file with a path for a name is encrypted and cannot be decrypted. -/
theorem not_decrypted : ∃ r,
    encryptAttachment Sample.crypto samplePlatform Sample.runtime ⟨0,[],[]⟩
      (sampleAttachment (js "a/b")) = .ok r ∧
    decryptAttachment Sample.crypto samplePlatform Sample.runtime .pq (List.replicate 32 1) r.item
      r.ciphertext ≠ .ok [1,2,3] := by
  obtain ⟨r,hr,hname⟩ := sampleAttachment_ok (show js "a/b" ≠ [] by decide)
  refine ⟨r,hr,fun hok => ?_⟩
  rw [decryptAttachment,if_neg (by decide)] at hok
  obtain ⟨u,hu,-⟩ := Semp.bind_eq_ok.mp hok
  obtain ⟨key,nonce,aad,hkey,-⟩ := (encryptAttachment_eq_ok hr).sealed
  rw [validateItem,if_neg (deriveAttachmentKey_id hkey),hname,if_neg (by decide),
    if_pos (by decide)] at hu
  cases hu

end RoundTrip
end LargeAttachment
end Semp
