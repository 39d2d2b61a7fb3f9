import Semp.KeyRevocation
import Semp.Shamir

/-! The records of a recovery: the bundle and the manifest, signed by the user, and the shares,
each signed by the device that holds it.  What was signed is what is verified. -/
namespace Semp
namespace Recovery
open SignedDoc TransparencyLog DeviceRecords Successor KeyRevocation Shamir

def bundleType : JsString := js "SEMP_BACKUP_BUNDLE"
def recoverySetManifestType : JsString := js "SEMP_RECOVERY_SET_MANIFEST"
def recoveryShareRecordType : JsString := js "SEMP_RECOVERY_SHARE"
def bundlePayloadAEAD : JsString := js "xchacha20-poly1305"
def kdfAlgorithmArgon2id : JsString := js "argon2id"
def minKDFMemoryKB : ℕ := 65536
def minKDFIterations : ℕ := 2
def minKDFParallelism : ℕ := 1
def minKDFSaltBytes : ℕ := 16
def deviceSignatureKey : JsString := js "device_signature"

def requireText (v : Option Json) (message : JsString) : Js JsString :=
  match v with
  | some (.str (u::s)) => .ok (u::s)
  | _ => raise message

/-- An integer that is not `bad`; the message has its text. -/
def requireInteger (v : Option Json) (bad : Number → Bool) (message : JsString → JsString) :
    Js Number :=
  let refuse : Js Number := do
    let text ← templateText v
    raise (message text)
  match v with
  | some (.num x) => if !x.isInteger || bad x then refuse else .ok x
  | _ => refuse

/-- `!opts.skipSignatureCheck && signature.value === ""` -/
def requireSigned (signature : Option Json) (skipSignatureCheck : Bool) (message : JsString) :
    Js Unit :=
  if skipSignatureCheck then .ok ()
  else do
    let value ← getProp signature valueKey
    if isStr value [] then raise message else .ok ()

/-- A parameter of the derivation of the key. -/
def requireFloor (kdf : Option Json) (field : String) (low : ℕ) : Js Unit := do
  let v ← getProp kdf (js field)
  let _ ← requireInteger v (fun x => x.lt (.ofNat low)) fun text =>
    js "recovery: bundle kdf."++js field++js " "++text++js " below minimum "++natText low
  .ok ()

def requireKDF (kdf : Option Json) : Js Unit :=
  if strictEq kdf none || strictEq kdf (some .null) then raise (js "recovery: bundle missing kdf")
  else do
    let algorithm ← getProp kdf algorithmKey
    if !isStr algorithm kdfAlgorithmArgon2id then
      raise (js "recovery: bundle kdf.algorithm "++stringifyText algorithm++js ", want argon2id")
    else do
      let salt ← getProp kdf (js "salt")
      let salt ← requireText salt (js "recovery: bundle kdf.salt missing")
      if (Base64.decode salt).length < minKDFSaltBytes then
        raise (js "recovery: bundle kdf.salt "++natText (Base64.decode salt).length++
          js " bytes below minimum "++natText minKDFSaltBytes)
      else do
        requireFloor kdf "memory_kb" minKDFMemoryKB
        requireFloor kdf "iterations" minKDFIterations
        requireFloor kdf "parallelism" minKDFParallelism

def bundleTexts : List JsString :=
  [js "version",js "user_id",js "bundle_id",js "created_at",js "payload_algorithm",
    js "payload_nonce",js "encrypted_payload"]

def requireCreatedAt (host : Host) (v : Option Json) : Js Unit :=
  match v with
  | some (.str s) =>
    if (host.dateParse s).isNaN then raise (js "recovery: bundle created_at is not ISO 8601")
    else .ok ()
  | _ => raise (js "recovery: bundle created_at is not ISO 8601")

def validateBundle (host : Host) (b : Members) (skipSignatureCheck : Bool) : Js Unit :=
  if !isStr (lookup b (js "type")) bundleType then
    raise (js "recovery: bundle type "++stringifyText (lookup b (js "type"))++
      js ", want SEMP_BACKUP_BUNDLE")
  else do
    requireTexts (js "recovery: bundle") (some (.obj b)) bundleTexts
    requireCreatedAt host (lookup b (js "created_at"))
    if !isStr (lookup b (js "payload_algorithm")) bundlePayloadAEAD then
      raise (js "recovery: bundle payload_algorithm "++
        stringifyText (lookup b (js "payload_algorithm"))++js ", want xchacha20-poly1305")
    else do
      requireKDF (lookup b (js "kdf"))
      let publicKey ← optionalProp (lookup b (js "recovery_verify_pk")) (js "public_key")
      let _ ← requireText publicKey (js "recovery: bundle recovery_verify_pk.public_key missing")
      let algorithm ← optionalProp (lookup b (js "recovery_verify_pk")) algorithmKey
      let _ ← requireText algorithm (js "recovery: bundle recovery_verify_pk.algorithm missing")
      let supersedes := lookup b (js "supersedes")
      if !strictEq supersedes (some .null) && !isText supersedes then
        raise (js "recovery: bundle supersedes must be a non-empty string or null")
      else do
        let signature := lookup b signatureKey
        let algorithm ← optionalProp signature algorithmKey
        requireString algorithm (js "recovery: bundle signature.algorithm missing")
        let keyId ← optionalProp signature keyIdKey
        requireString keyId (js "recovery: bundle signature.key_id missing")
        let value ← optionalProp signature valueKey
        requireString value (js "recovery: bundle signature.value must be a string")
        requireSigned signature skipSignatureCheck (js "recovery: bundle is unsigned")

/-- An entry of the manifest after those with `seen`; gives its index and its device. -/
def checkContributor (total : Number) (i : ℕ) (seen : List (Number×JsString)) (c : Json) :
    Js (Number×JsString) := do
  let site := js "recovery: manifest contributors["++natText i++js "]"
  let index ← getProp (some c) (js "share_index")
  let x ← requireInteger index (fun x => x.lt (.ofNat 1) || total.lt x) fun text =>
    site++js " share_index "++text++js " out of [1, "++NumberText.toText total++js "]"
  if seen.any (fun s => x.eq s.1) then
    raise (js "recovery: manifest share_index "++NumberText.toText x++js " appears more than once")
  else do
    let device ← getProp (some c) (js "device_id")
    let device ← requireText device (site++js " missing device_id")
    if seen.any (fun s => device == s.2) then
      raise (js "recovery: manifest device_id "++JsonText.stringify (.str device)++
        js " appears more than once")
    else do
      let pubkey ← getProp (some c) (js "device_identity_pubkey")
      let publicKey ← optionalProp pubkey (js "public_key")
      let _ ← requireText publicKey (site++js " missing device_identity_pubkey.public_key")
      let algorithm ← optionalProp pubkey algorithmKey
      let _ ← requireText algorithm (site++js " missing device_identity_pubkey.algorithm")
      .ok (x,device)

def checkContributors (total : Number) :
    ℕ → List (Number×JsString) → List Json → Js Unit
  | _,_,[] => .ok ()
  | i,seen,c::cs => do
    let s ← checkContributor total i seen c
    checkContributors total (i+1) (s::seen) cs

/-- `m.contributors?.length ?? 0` -/
def lengthText (v : Option Json) : Js JsString :=
  match v with
  | some (.arr vs) => .ok (natText vs.length)
  | some (.str s) => .ok (natText s.length)
  | some (.obj ms) => templateText (some (orElse (lookup ms (js "length")) (.num (.ofNat 0))))
  | _ => .ok (js "0")

def requireContributors (total : Number) (v : Option Json) : Js (List Json) :=
  let refuse : Js (List Json) := do
    let text ← lengthText v
    raise (js "recovery: manifest contributors length "++text++js " MUST equal total_shares "++
      NumberText.toText total)
  match v with
  | some (.arr cs) => if (Number.ofNat cs.length).eq total then .ok cs else refuse
  | _ => refuse

def validateManifest (m : Members) (skipSignatureCheck : Bool) : Js Unit :=
  if !isStr (lookup m (js "type")) recoverySetManifestType then
    raise (js "recovery: manifest type "++stringifyText (lookup m (js "type"))++
      js ", want SEMP_RECOVERY_SET_MANIFEST")
  else do
    let _ ← requireText (lookup m (js "bundle_id")) (js "recovery: manifest missing bundle_id")
    let threshold ← requireInteger (lookup m (js "threshold")) (fun x => x.lt (.ofNat 1))
      fun text => js "recovery: manifest threshold "++text++js " MUST be >= 1"
    let total ← requireInteger (lookup m (js "total_shares")) (fun x => x.lt threshold)
      fun text => js "recovery: manifest total_shares "++text++js " MUST be >= threshold "++
        NumberText.toText threshold
    let contributors ← requireContributors total (lookup m (js "contributors"))
    let _ ← requireText (lookup m (js "issued_at")) (js "recovery: manifest missing issued_at")
    checkContributors total 0 [] contributors
    requireSigned (lookup m signatureKey) skipSignatureCheck
      (js "recovery: manifest is unsigned")

/-- The threshold and the number of shares go together, and with the index. -/
def consistent (index : Number) (threshold total : Option Json) : Bool :=
  match threshold,total with
  | some (.num t),some (.num n) =>
    t.isInteger && !t.lt (.ofNat 1) && n.isInteger && !n.lt t && !n.lt index
  | _,_ => false

def validateShareRecord (s : Members) (skipSignatureCheck : Bool) : Js Unit :=
  if !isStr (lookup s (js "type")) recoveryShareRecordType then
    raise (js "recovery: share type "++stringifyText (lookup s (js "type"))++
      js ", want SEMP_RECOVERY_SHARE")
  else do
    let _ ← requireText (lookup s (js "bundle_id")) (js "recovery: share record missing bundle_id")
    let index ← requireInteger (lookup s (js "share_index")) (fun x => x.lt (.ofNat 1))
      fun text => js "recovery: share record share_index "++text++js " MUST be >= 1"
    if !consistent index (lookup s (js "threshold")) (lookup s (js "total_shares")) then do
      let threshold ← templateText (lookup s (js "threshold"))
      let total ← templateText (lookup s (js "total_shares"))
      raise (js "recovery: share record (threshold="++threshold++js ", total_shares="++total++
        js ", share_index="++NumberText.toText index++js ") is inconsistent")
    else do
      let _ ← requireText (lookup s (js "device_id"))
        (js "recovery: share record missing device_id")
      let _ ← requireText (lookup s (js "share_value"))
        (js "recovery: share record missing share_value")
      let _ ← requireText (lookup s (js "issued_at"))
        (js "recovery: share record missing issued_at")
      requireSigned (lookup s deviceSignatureKey) skipSignatureCheck
        (js "recovery: share record is unsigned")

/-- What one of the records differs in from another. -/
structure RecoverySpec where
  kind : RecordKind
  field : JsString
  /-- What is thrown without a key id. -/
  noKeyId : JsString
  validate : Members → Bool → Js Unit
  blanking : kind.blanking = .path (field++js ".value")

def bundleSpec (host : Host) : RecoverySpec where
  kind := .recoveryBundle
  field := signatureKey
  noKeyId := js "recovery: empty identity key_id"
  validate := validateBundle host
  blanking := rfl

def manifestSpec : RecoverySpec where
  kind := .recoveryManifest
  field := signatureKey
  noKeyId := js "recovery: empty identity key_id"
  validate := validateManifest
  blanking := rfl

def shareSpec : RecoverySpec where
  kind := .recoveryShare
  field := deviceSignatureKey
  noKeyId := js "recovery: empty device key_id"
  validate := validateShareRecord
  blanking := rfl

section Code
variable (C : Crypto) (host : Host)

/-- The record with its signature, and the signature. -/
def RecoverySpec.sign (spec : RecoverySpec) (record : Members) (priv : Bytes) (keyId : JsString) :
    Js (Members×JsString) :=
  if keyId = [] then raise spec.noKeyId
  else do
    spec.validate record true
    let record ← setField spec.field algorithmKey signatureAlgorithmEd25519 record
    let record ← setField spec.field keyIdKey keyId record
    let record ← setField spec.field valueKey [] record
    let r ← signSignedDoc C ⟨record,priv,spec.field++js ".value",spec.kind.domain⟩
    let signature ← getProp (some (.obj r.signedJSON)) spec.field
    match ← getProp signature valueKey with
    | some (.str value) =>
      let record ← setField spec.field valueKey value record
      .ok (record,r.signatureB64)
    | _ => raiseType

def RecoverySpec.verify (spec : RecoverySpec) (record : Members) (pub : Bytes) : Js Bool := do
  spec.validate record false
  let value ← getProp (lookup record spec.field) valueKey
  if isStr value [] then .ok false
  else do
    let r ← verifySignedDoc C ⟨record,pub,spec.field++js ".value",spec.kind.domain⟩
    .ok r.ok

def signBundle (b : Members) (identityPriv : Bytes) (identityKeyId : JsString) :
    Js (Members×JsString) := (bundleSpec host).sign C b identityPriv identityKeyId

def verifyBundle (b : Members) (identityPub : Bytes) : Js Bool :=
  (bundleSpec host).verify C b identityPub

def signManifest (m : Members) (identityPriv : Bytes) (identityKeyId : JsString) :
    Js (Members×JsString) := manifestSpec.sign C m identityPriv identityKeyId

def verifyManifest (m : Members) (identityPub : Bytes) : Js Bool :=
  manifestSpec.verify C m identityPub

def signShareRecord (s : Members) (devicePriv : Bytes) (deviceKeyId : JsString) :
    Js (Members×JsString) := shareSpec.sign C s devicePriv deviceKeyId

def verifyShareRecord (s : Members) (devicePub : Bytes) : Js Bool :=
  shareSpec.verify C s devicePub

end Code

def matchContributor (s : Members) : List Json → Js Bool
  | [] => .ok false
  | c::cs => do
    let index ← getProp (some c) (js "share_index")
    if !strictEq index (lookup s (js "share_index")) then matchContributor s cs
    else do
      let device ← getProp (some c) (js "device_id")
      .ok (strictEq device (lookup s (js "device_id")))

def checkShareMatchesManifest (s m : Members) : Js Bool :=
  if !strictEq (lookup s (js "bundle_id")) (lookup m (js "bundle_id")) then .ok false
  else if !strictEq (lookup s (js "threshold")) (lookup m (js "threshold")) then .ok false
  else if !strictEq (lookup s (js "total_shares")) (lookup m (js "total_shares")) then .ok false
  else
    match lookup m (js "contributors") with
    | none => raiseType
    | some v => do
      let contributors ← iterate v
      matchContributor s contributors

structure DeviceLookup where
  algorithm : JsString
  publicKey : JsString
  found : Bool

structure DirectoryView where
  userId : JsString
  findDevice : JsString → DeviceLookup

inductive CrossCheckReason
  | user_mismatch
  | device_missing
  | pubkey_mismatch
  | algorithm_mismatch
  deriving DecidableEq

structure ManifestCrossCheckError where
  reason : CrossCheckReason
  shareIndex : Number
  deviceId : JsString
  message : JsString

/-- An entry of a manifest. -/
structure RecoveryContributor where
  share_index : Number
  device_id : JsString
  algorithm : JsString
  public_key : JsString

def readContributor (c : Json) : Js RecoveryContributor := do
  let index ← getProp (some c) (js "share_index")
  let device ← getProp (some c) (js "device_id")
  let pubkey ← getProp (some c) (js "device_identity_pubkey")
  let algorithm ← getProp pubkey algorithmKey
  let publicKey ← getProp pubkey (js "public_key")
  match index,device,algorithm,publicKey with
  | some (.num x),some (.str d),some (.str a),some (.str p) => .ok ⟨x,d,a,p⟩
  | _,_,_,_ => raiseType

def crossCheckContributor (directory : DirectoryView) (c : RecoveryContributor) :
    Option ManifestCrossCheckError :=
  let found := directory.findDevice c.device_id
  let site := js "recovery: manifest contributor share_index="++NumberText.toText c.share_index
  if !found.found then
    some ⟨.device_missing,c.share_index,c.device_id,site++js " device_id="++
      JsonText.stringify (.str c.device_id)++js " is not in the directory"⟩
  else if found.algorithm ≠ c.algorithm then
    some ⟨.algorithm_mismatch,c.share_index,c.device_id,site++js " algorithm "++
      JsonText.stringify (.str c.algorithm)++js " does not match directory "++
      JsonText.stringify (.str found.algorithm)⟩
  else if found.publicKey ≠ c.public_key then
    some ⟨.pubkey_mismatch,c.share_index,c.device_id,site++
      js " public_key does not match directory entry"⟩
  else none

def crossCheckContributors (directory : DirectoryView) :
    List Json → Js (Option ManifestCrossCheckError)
  | [] => .ok none
  | c::cs => do
    let c ← readContributor c
    match crossCheckContributor directory c with
    | some err => .ok (some err)
    | none => crossCheckContributors directory cs

/-- The error that is thrown, if one is. -/
def crossCheckManifestContributors (m : Members) (directory : DirectoryView)
    (manifestUserId : JsString) : Js (Option ManifestCrossCheckError) :=
  if directory.userId ≠ manifestUserId then
    .ok (some ⟨.user_mismatch,.ofNat 0,[],js "recovery: manifest user "++
      JsonText.stringify (.str manifestUserId)++js " does not match directory user "++
      JsonText.stringify (.str directory.userId)⟩)
  else
    match lookup m (js "contributors") with
    | none => raiseType
    | some v => do
      let contributors ← iterate v
      crossCheckContributors directory contributors

section Validation
variable {v : Option Json} {message : JsString}

theorem requireText_eq_ok {s : JsString} :
    requireText v message = .ok s ↔ v = some (.str s) ∧ s ≠ [] := by
  unfold requireText
  split
  next u t =>
    rw [Except.ok.injEq,Option.some.injEq,Json.str.injEq,iff_self_and]
    rintro rfl
    exact List.cons_ne_nil u t
  next h =>
    simp only [raise_ne_ok,false_iff]
    rintro ⟨hv,hne⟩
    obtain ⟨u,t,rfl⟩ := List.exists_cons_of_ne_nil hne
    exact h u t hv

theorem bind_raise_ne_ok {α β : Type} {f : Js α} {g : α → JsString} {b : β} :
    (f >>= fun a => raise (g a)) ≠ .ok b := by
  intro h
  obtain ⟨a,-,h⟩ := bind_eq_ok.mp h
  cases h

theorem requireInteger_eq_ok {bad : Number → Bool} {text : JsString → JsString} {x : Number} :
    requireInteger v bad text = .ok x ↔ v = some (.num x) ∧ x.isInteger = true ∧ bad x = false := by
  unfold requireInteger
  split
  next y =>
    by_cases h : (!y.isInteger || bad y) = true
    · rw [if_pos h]
      refine iff_of_false bind_raise_ne_ok ?_
      rintro ⟨hy,hint,hbad⟩
      obtain rfl := Json.num.inj (Option.some.inj hy)
      simp [hint,hbad] at h
    · rw [if_neg h]
      simp only [Bool.or_eq_true,Bool.not_eq_true',not_or,Bool.not_eq_false,
        Bool.not_eq_true] at h
      constructor
      · intro heq
        obtain rfl := Except.ok.inj heq
        exact ⟨rfl,h.1,h.2⟩
      · rintro ⟨hy,-,-⟩
        obtain rfl := Json.num.inj (Option.some.inj hy)
        rfl
  next h => exact iff_of_false bind_raise_ne_ok fun hx => h x hx.1

/-- What the validation wants of an entry by itself. -/
structure RecoveryContributor.Valid (total : Number) (own : RecoveryContributor) : Prop where
  integer : own.share_index.isInteger = true
  one_le : own.share_index.lt (.ofNat 1) = false
  le_total : total.lt own.share_index = false
  device_id : own.device_id ≠ []
  public_key : own.public_key ≠ []
  algorithm : own.algorithm ≠ []

/-- Two entries are of two shares and two devices. -/
def RecoveryContributor.Differs (own other : RecoveryContributor) : Prop :=
  own.share_index.eq other.share_index = false ∧ own.device_id ≠ other.device_id

theorem getProp_eq_some {k : JsString} {w : Json} (h : getProp v k = .ok (some w)) :
    ∃ ms, v = some (.obj ms) ∧ lookup ms k = some w := by
  cases v with
  | none => cases h
  | some v =>
    cases v with
    | obj ms => exact ⟨ms,rfl,Except.ok.inj h⟩
    | _ => cases h

theorem checkContributor_ok {total : Number} {i : ℕ} {seen : List (Number×JsString)} {c : Json}
    {s : Number×JsString} (h : checkContributor total i seen c = .ok s) :
    ∃ own, readContributor c = .ok own ∧ own.Valid total ∧ s = (own.share_index,own.device_id) ∧
      ∀ t ∈ seen, own.share_index.eq t.1 = false ∧ own.device_id ≠ t.2 := by
  obtain ⟨index,hindex,h⟩ := bind_eq_ok.mp h
  obtain ⟨x,hx,h⟩ := bind_eq_ok.mp h
  by_cases hseen : (seen.any fun s => x.eq s.1) = true
  · rw [if_pos hseen] at h
    cases h
  rw [if_neg hseen] at h
  obtain ⟨device,hdevice,h⟩ := bind_eq_ok.mp h
  obtain ⟨d,hd,h⟩ := bind_eq_ok.mp h
  by_cases hseen' : (seen.any fun s => d == s.2) = true
  · rw [if_pos hseen'] at h
    cases h
  rw [if_neg hseen'] at h
  obtain ⟨pubkey,hpubkey,h⟩ := bind_eq_ok.mp h
  obtain ⟨publicKey,hpublicKey,h⟩ := bind_eq_ok.mp h
  obtain ⟨p,hp,h⟩ := bind_eq_ok.mp h
  obtain ⟨algorithm,halgorithm,h⟩ := bind_eq_ok.mp h
  obtain ⟨a,ha,hend⟩ := bind_eq_ok.mp h
  obtain ⟨rfl,hint,hbounds⟩ := requireInteger_eq_ok.mp hx
  obtain ⟨rfl,hdne⟩ := requireText_eq_ok.mp hd
  obtain ⟨rfl,hpne⟩ := requireText_eq_ok.mp hp
  obtain ⟨rfl,hane⟩ := requireText_eq_ok.mp ha
  obtain ⟨ms,rfl,hp⟩ := optionalProp_eq_str.mp hpublicKey
  obtain ⟨ms',hms',ha⟩ := optionalProp_eq_str.mp halgorithm
  obtain rfl := Json.obj.inj (Option.some.inj hms')
  rw [Bool.or_eq_false_iff] at hbounds
  refine ⟨⟨x,d,a,p⟩,?_,⟨hint,hbounds.1,hbounds.2,hdne,hpne,hane⟩,(Except.ok.inj hend).symm,?_⟩
  · rw [readContributor,hindex,ok_bind,hdevice,ok_bind,hpubkey,ok_bind,getProp_obj,ok_bind,ha,
      getProp_obj,ok_bind,hp]
  · intro t ht
    rw [Bool.not_eq_true] at hseen hseen'
    exact ⟨by simpa using List.any_eq_false.mp hseen t ht,
      by simpa using List.any_eq_false.mp hseen' t ht⟩

/-- The entries can be read, and each of them is of a share and a device of its own. -/
theorem checkContributors_ok {total : Number} {i : ℕ} {seen : List (Number×JsString)}
    {cs : List Json} (h : checkContributors total i seen cs = .ok ()) :
    ∃ owns, List.Forall₂ (fun c own => readContributor c = .ok own) cs owns ∧
      (∀ own ∈ owns, own.Valid total ∧
        ∀ t ∈ seen, own.share_index.eq t.1 = false ∧ own.device_id ≠ t.2) ∧
      owns.Pairwise fun own other => other.Differs own := by
  induction cs generalizing i seen with
  | nil => exact ⟨[],.nil,by simp,.nil⟩
  | cons c cs ih =>
    obtain ⟨s,hs,h⟩ := bind_eq_ok.mp h
    obtain ⟨own,hown,hvalid,rfl,hseen⟩ := checkContributor_ok hs
    obtain ⟨owns,howns,hall,hpairwise⟩ := ih h
    refine ⟨own::owns,.cons hown howns,?_,List.pairwise_cons.mpr ⟨?_,hpairwise⟩⟩
    · refine List.forall_mem_cons.mpr ⟨⟨hvalid,hseen⟩,fun other hother => ?_⟩
      exact ⟨(hall other hother).1,
        fun t ht => (hall other hother).2 t (List.mem_cons_of_mem _ ht)⟩
    · exact fun other hother => (hall other hother).2 _ List.mem_cons_self

/-- A manifest that is accepted has as many entries as shares, each of a share and a device of
its own. -/
structure HasContributors (m : Members) (owns : List RecoveryContributor) : Prop where
  read : ∃ cs, lookup m (js "contributors") = some (.arr cs) ∧
    List.Forall₂ (fun c own => readContributor c = .ok own) cs owns
  total : ∃ total, lookup m (js "total_shares") = some (.num total) ∧
    (Number.ofNat owns.length).eq total = true ∧ ∀ own ∈ owns, own.Valid total
  differ : owns.Pairwise fun own other => other.Differs own

theorem validateManifest_ok {m : Members} {skip : Bool} (h : validateManifest m skip = .ok ()) :
    ∃ owns, HasContributors m owns := by
  rw [validateManifest] at h
  by_cases htype : isStr (lookup m (js "type")) recoverySetManifestType = true
  swap
  · rw [Bool.eq_false_iff.mpr htype,Bool.not_false,if_pos rfl] at h
    cases h
  rw [htype,Bool.not_true,if_neg Bool.false_ne_true] at h
  obtain ⟨bundleId,-,h⟩ := bind_eq_ok.mp h
  obtain ⟨threshold,-,h⟩ := bind_eq_ok.mp h
  obtain ⟨total,htotal,h⟩ := bind_eq_ok.mp h
  obtain ⟨cs,hcs,h⟩ := bind_eq_ok.mp h
  obtain ⟨issuedAt,-,h⟩ := bind_eq_ok.mp h
  obtain ⟨u,hcheck,-⟩ := bind_eq_ok.mp h
  obtain ⟨htotal,-,-⟩ := requireInteger_eq_ok.mp htotal
  obtain ⟨owns,hread,hall,hdiffer⟩ := checkContributors_ok hcheck
  unfold requireContributors at hcs
  split at hcs
  next ds hds =>
    by_cases hlen : (Number.ofNat ds.length).eq total = true
    swap
    · rw [if_neg hlen] at hcs
      exact absurd hcs bind_raise_ne_ok
    rw [if_pos hlen] at hcs
    obtain rfl := Except.ok.inj hcs
    rw [hread.length_eq] at hlen
    exact ⟨owns,⟨ds,hds,hread⟩,⟨total,htotal,hlen,fun own hown => (hall own hown).1⟩,hdiffer⟩
  next => exact absurd hcs bind_raise_ne_ok

end Validation

section Matching
variable {s m : Members} {cs : List Json} {owns : List RecoveryContributor}
  {directory : DirectoryView} {userId : JsString}

theorem readContributor_eq_ok {c : Json} {own : RecoveryContributor}
    (h : readContributor c = .ok own) :
    getProp (some c) (js "share_index") = .ok (some (.num own.share_index)) ∧
      getProp (some c) (js "device_id") = .ok (some (.str own.device_id)) := by
  obtain ⟨index,hindex,h⟩ := bind_eq_ok.mp h
  obtain ⟨device,hdevice,h⟩ := bind_eq_ok.mp h
  obtain ⟨pubkey,-,h⟩ := bind_eq_ok.mp h
  obtain ⟨algorithm,-,h⟩ := bind_eq_ok.mp h
  obtain ⟨publicKey,-,h⟩ := bind_eq_ok.mp h
  split at h
  next =>
    obtain rfl := Except.ok.inj h
    exact ⟨hindex,hdevice⟩
  next => cases h

/-- The entry that the record of a share is compared with. -/
def RecoveryContributor.Holds (own : RecoveryContributor) (s : Members) : Prop :=
  strictEq (some (.num own.share_index)) (lookup s (js "share_index")) = true ∧
    lookup s (js "device_id") = some (.str own.device_id)

theorem strictEq_text {v : Option Json} {t : JsString}
    (h : strictEq (some (.str t)) v = true) : v = some (.str t) := by
  unfold strictEq at h
  split at h
  all_goals simp_all

theorem matchContributor_true
    (hread : List.Forall₂ (fun c own => readContributor c = .ok own) cs owns)
    (h : matchContributor s cs = .ok true) : ∃ own ∈ owns, own.Holds s := by
  induction hread with
  | nil => cases h
  | cons hown _ ih =>
    obtain ⟨hindex,hdevice⟩ := readContributor_eq_ok hown
    rw [matchContributor,hindex,ok_bind] at h
    split_ifs at h with hne
    · obtain ⟨other,hother,hholds⟩ := ih h
      exact ⟨other,List.mem_cons_of_mem _ hother,hholds⟩
    · rw [hdevice,ok_bind] at h
      have heq := Except.ok.inj h
      rw [Bool.not_eq_true,Bool.not_eq_false'] at hne
      exact ⟨_,List.mem_cons_self,hne,strictEq_text heq⟩

theorem checkShareMatchesManifest_true (hm : HasContributors m owns)
    (h : checkShareMatchesManifest s m = .ok true) :
    strictEq (lookup s (js "bundle_id")) (lookup m (js "bundle_id")) = true ∧
      ∃ own ∈ owns, own.Holds s := by
  obtain ⟨cs,hcs,hread⟩ := hm.read
  rw [checkShareMatchesManifest,hcs] at h
  split_ifs at h with hbundle hthreshold htotal
  · cases h
  · cases h
  · cases h
  · rw [Bool.not_eq_true,Bool.not_eq_false'] at hbundle
    exact ⟨hbundle,matchContributor_true hread h⟩

theorem crossCheckContributor_none {own : RecoveryContributor}
    (h : crossCheckContributor directory own = none) :
    (directory.findDevice own.device_id).found = true ∧
      (directory.findDevice own.device_id).publicKey = own.public_key := by
  unfold crossCheckContributor at h
  dsimp only at h
  split_ifs at h with hfound halgorithm hkey
  exact ⟨by simpa using hfound,not_not.mp hkey⟩

/-- Where nothing is thrown, the directory has the device of each entry under its key. -/
theorem crossCheck_none (hm : HasContributors m owns)
    (h : crossCheckManifestContributors m directory userId = .ok none) :
    directory.userId = userId ∧ ∀ own ∈ owns, (directory.findDevice own.device_id).found = true ∧
      (directory.findDevice own.device_id).publicKey = own.public_key := by
  obtain ⟨cs,hcs,hread⟩ := hm.read
  rw [crossCheckManifestContributors,hcs] at h
  by_cases huser : directory.userId = userId
  swap
  · rw [if_pos huser] at h
    cases h
  rw [if_neg (not_not.mpr huser)] at h
  refine ⟨huser,?_⟩
  have hloop : crossCheckContributors directory cs = .ok none := h
  clear h hcs hm
  induction hread with
  | nil => simp
  | cons hown _ ih =>
    rw [crossCheckContributors,hown,ok_bind] at hloop
    split at hloop
    next => cases hloop
    next hcheck =>
      exact List.forall_mem_cons.mpr ⟨crossCheckContributor_none hcheck,ih hloop⟩

end Matching

section Signing
variable {C : Crypto} {spec : RecoverySpec} {record : Members} {pub : Bytes}

/-- A record verifies by a signature over the bytes that are signed of it. -/
theorem RecoverySpec.verify_true (hwf : (Json.obj record).WF)
    (h : spec.verify C record pub = .ok true) : spec.validate record false = .ok () ∧
      ∃ bytes sig, spec.kind.signingBytes record = .ok bytes ∧
        Semp.verify C pub sig bytes = true := by
  obtain ⟨u,hvalid,h⟩ := bind_eq_ok.mp h
  obtain ⟨value,-,h⟩ := bind_eq_ok.mp h
  split_ifs at h
  · cases h
  obtain ⟨r,hr,h⟩ := bind_eq_ok.mp h
  obtain ⟨-,hinput,sig,hsig⟩ := verifySignedDoc_signingInput hwf hr
  refine ⟨hvalid,_,sig,?_,hsig.symm.trans (Except.ok.inj h)⟩
  rw [RecordKind.signingBytes,spec.blanking]
  exact hinput

/-- Whatever was signed over the bytes of a record is such a record, and says the same. -/
theorem record_of_bytes {kind : RecordKind} {bytes : Bytes} {x : Signed}
    (hkind : ∀ k : RecordKind, kind.domain = k.domain → k = kind) (hwf : (Json.obj record).WF)
    (hx : x.WF) (hbytes : kind.signingBytes record = .ok bytes) (hxb : x.bytes = .ok bytes) :
    ∃ own, x = .record kind own ∧ ∀ key ∉ kind.blanking.fields,
      (lookup record key).map Json.norm = (lookup own key).map Json.norm := by
  cases x with
  | record k own =>
    obtain ⟨hdomain,-,hsame⟩ := record_agrees hwf hx hbytes hxb
    obtain rfl := hkind k hdomain
    exact ⟨own,rfl,fun key hkey => hsame key hkey hkey⟩
  | authorization a =>
    refine absurd ?_ (zero_notMem_signingBytes hwf hbytes)
    rw [← Except.ok.inj hxb]
    simp [DeviceAuthorization.authorizationCanonicalBytes]
  | identity p => exact absurd (Except.ok.inj hxb).symm (signingBytes_ne_identity hwf hbytes p)

theorem domain_recovery {kind : RecordKind}
    (h : kind ∈ [RecordKind.recoveryBundle,.recoveryManifest,.recoveryShare]) (k : RecordKind)
    (hk : kind.domain = k.domain) : k = kind := by
  simp only [List.mem_cons,List.not_mem_nil,or_false] at h
  rcases h with rfl | rfl | rfl
  all_goals
    cases k with
    | recoveryBundle => first | rfl | exact absurd hk (by decide)
    | recoveryManifest => first | rfl | exact absurd hk (by decide)
    | recoveryShare => first | rfl | exact absurd hk (by decide)
    | migrationRecord field => exact absurd hk (by cases field <;> decide)
    | _ => exact absurd hk (by decide)

theorem norm_lookup_str {own : Members} {key s : JsString}
    (h : (lookup record key).map Json.norm = (lookup own key).map Json.norm)
    (hs : lookup own key = some (.str s)) : lookup record key = some (.str s) := by
  rw [hs,Option.map_some,Json.norm_str,Option.map_eq_some_iff] at h
  obtain ⟨v,hv,hnorm⟩ := h
  rw [hv,Json.norm_eq_str.mp hnorm]

theorem norm_lookup_obj {own ms : Members} {key : JsString}
    (h : (lookup record key).map Json.norm = (lookup own key).map Json.norm)
    (hs : lookup own key = some (.obj ms)) :
    ∃ ns, lookup record key = some (.obj ns) ∧ (Json.obj ns).norm = (Json.obj ms).norm := by
  rw [hs,Option.map_some,Option.map_eq_some_iff] at h
  obtain ⟨v,hv,hnorm⟩ := h
  obtain ⟨ns,rfl⟩ := Json.norm_eq_obj hnorm
  exact ⟨ns,hv,hnorm⟩

end Signing

end Recovery
end Semp
