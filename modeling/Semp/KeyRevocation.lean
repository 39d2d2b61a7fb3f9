import Semp.SuccessorPasses

/-! Records that are signed in place: a key id and a blank value are written into the signature
block, the record is signed, and the value is filled in.  The revocation of a device and the
publication of revoked keys are two of them. -/
namespace Semp
namespace KeyRevocation
open SignedDoc TransparencyLog DeviceRecords Successor

def signatureKey : JsString := js "signature"

/-- What one kind of record differs in from another. -/
structure RecordSpec where
  domain : JsString
  /-- What is thrown without a key id. -/
  noKeyId : JsString
  subject : JsString
  /-- What is validated beside the signature block. -/
  fields : Members → Js Unit
  fields_assign : ∀ record v, fields (assign record signatureKey v) = fields record

def requireSignatureOf (subject : JsString) (signature : Option Json)
    (skipSignatureCheck : Bool) : Js Unit := do
  match ← optionalProp signature valueKey with
  | some (.str value) =>
    if !skipSignatureCheck && value = [] then raise (subject++js " is unsigned") else .ok ()
  | _ => raise (subject++js " signature.value must be a string")

def RecordSpec.validate (spec : RecordSpec) (record : Members) (skipSignatureCheck : Bool) :
    Js Unit := do
  spec.fields record
  requireSignatureOf spec.subject (lookup record signatureKey) skipSignatureCheck

/-- The record with its signature, and the signature. -/
def RecordSpec.sign (spec : RecordSpec) (C : Crypto) (record : Members) (priv : Bytes)
    (keyId : JsString) : Js (Members × JsString) :=
  if keyId = [] then raise spec.noKeyId
  else do
    spec.validate record true
    let record ← setField signatureKey algorithmKey signatureAlgorithmEd25519 record
    let record ← setField signatureKey keyIdKey keyId record
    let record ← setField signatureKey valueKey [] record
    let r ← signSignedDoc C ⟨record,priv,signaturePath,spec.domain⟩
    let signature ← getProp (some (.obj r.signedJSON)) signatureKey
    match ← getProp signature valueKey with
    | some (.str value) =>
      let record ← setField signatureKey valueKey value record
      .ok (record,r.signatureB64)
    | _ => raiseType

def RecordSpec.verify (spec : RecordSpec) (C : Crypto) (record : Members) (pub : Bytes) :
    Js Bool := do
  spec.validate record false
  let value ← getProp (lookup record signatureKey) valueKey
  if isStr value [] then .ok false
  else do
    let r ← verifySignedDoc C ⟨record,pub,signaturePath,spec.domain⟩
    .ok r.ok

def requireRevokedAt (host : Host) (site : JsString) (v : Option Json) : Js Unit :=
  match v with
  | some (.str s) =>
    if (host.dateParse s).isNaN then raise (site++js " revoked_at is not ISO 8601") else .ok ()
  | _ => raise (site++js " revoked_at is not ISO 8601")

def requireReason (reasons : List JsString) (site : JsString) (v : Option Json) : Js JsString :=
  match v with
  | some (.str reason) =>
    if reason ∈ reasons then .ok reason
    else raise (site++js " reason "++stringifyText (some (.str reason))++js " is invalid")
  | v => raise (site++js " reason "++stringifyText v++js " is invalid")

def requireReplacement (reason : JsString) (replacement : Option Json) : Js Unit :=
  if reason = js "superseded" then
    if strictEq replacement (some .null) || isStr replacement [] then
      raise (js "keys: device revocation reason=superseded requires replacement_device_id")
    else .ok ()
  else if !strictEq replacement (some .null) then
    raise (js "keys: device revocation reason="++reason++js " forbids replacement_device_id")
  else .ok ()

def requireTypeOf (subject type : JsString) (v : Option Json) : Js Unit :=
  if !isStr v type then raise (subject++js " type "++stringifyText v++js ", want "++type)
  else .ok ()

def deviceRevocationType : JsString := js "SEMP_DEVICE_REVOCATION"
def deviceRevocationSubject : JsString := js "keys: device revocation"

def deviceRevocationReasons : List JsString :=
  [js "key_compromise",js "lost",js "retired",js "superseded"]

def deviceRevocationTexts : List JsString :=
  [js "version",js "user_id",js "device_id",js "revoked_at",js "revoked_by_device_id"]

def deviceRevocationFields (host : Host) (rev : Members) : Js Unit := do
  requireTypeOf deviceRevocationSubject deviceRevocationType (lookup rev (js "type"))
  requireTexts deviceRevocationSubject (some (.obj rev)) deviceRevocationTexts
  requireRevokedAt host deviceRevocationSubject (lookup rev (js "revoked_at"))
  let reason ← requireReason deviceRevocationReasons deviceRevocationSubject
    (lookup rev (js "reason"))
  requireReplacement reason (lookup rev (js "replacement_device_id"))

def revocationPublicationType : JsString := js "SEMP_KEY_REVOCATION"
def revocationVersion : JsString := js "1.0.0"
def revocationPublicationSubject : JsString := js "keys: revocation publication"

def revocationReasons : List JsString :=
  [js "key_compromise",js "superseded",js "cessation_of_operation",js "temporary_hold"]

def validateRevokedKeys (host : Host) : ℕ → List Json → Js Unit
  | _,[] => .ok ()
  | i,e::es => do
    let site := js "keys: revoked_keys["++natText i++js "]"
    requireTexts site (some e) [js "key_id"]
    let reason ← getProp (some e) (js "reason")
    let _ ← requireReason revocationReasons site reason
    requireTexts site (some e) [js "revoked_at"]
    let revokedAt ← getProp (some e) (js "revoked_at")
    requireRevokedAt host site revokedAt
    validateRevokedKeys host (i+1) es

def revocationPublicationFields (host : Host) (pub : Members) : Js Unit := do
  requireTypeOf revocationPublicationSubject revocationPublicationType (lookup pub (js "type"))
  requireTexts revocationPublicationSubject (some (.obj pub)) [js "version"]
  match lookup pub (js "revoked_keys") with
  | some (.arr es) => validateRevokedKeys host 0 es
  | _ => raise (revocationPublicationSubject++js " revoked_keys must be an array")

/-- An assignment to a field that is not asked for changes nothing. -/
theorem requireTexts_assign {subject k : JsString} {ms : Members} (v : Json)
    {fs : List JsString} (hk : k ∉ fs) :
    requireTexts subject (some (.obj (assign ms k v))) fs =
      requireTexts subject (some (.obj ms)) fs := by
  induction fs with
  | nil => rfl
  | cons f fs ih =>
    rw [List.mem_cons,not_or] at hk
    rw [requireTexts,requireTexts,getProp_obj,getProp_obj,lookup_assign_ne _ (Ne.symm hk.1),
      ih hk.2]

def deviceRevocation (host : Host) : RecordSpec where
  domain := RecordKind.deviceRevocation.domain
  noKeyId := js "keys: empty identity key_id"
  subject := deviceRevocationSubject
  fields := deviceRevocationFields host
  fields_assign record v := by
    simp only [deviceRevocationFields,requireTexts_assign v (show signatureKey ∉
      deviceRevocationTexts by decide)]
    repeat rw [lookup_assign_ne _ (by decide)]

def revocationPublication (host : Host) : RecordSpec where
  domain := RecordKind.revocation.domain
  noKeyId := js "keys: empty signing key_id"
  subject := revocationPublicationSubject
  fields := revocationPublicationFields host
  fields_assign record v := by
    simp only [revocationPublicationFields,requireTexts_assign v (show signatureKey ∉
      [js "version"] by decide)]
    repeat rw [lookup_assign_ne _ (by decide)]

section Code
variable (C : Crypto) (host : Host)

def validateDeviceRevocation (rev : Members) (skipSignatureCheck : Bool) : Js Unit :=
  (deviceRevocation host).validate rev skipSignatureCheck

def signDeviceRevocation (rev : Members) (identityPriv : Bytes) (identityKeyId : JsString) :
    Js (Members × JsString) := (deviceRevocation host).sign C rev identityPriv identityKeyId

def verifyDeviceRevocation (rev : Members) (identityPub : Bytes) : Js Bool :=
  (deviceRevocation host).verify C rev identityPub

def validateRevocationPublication (pub : Members) (skipSignatureCheck : Bool) : Js Unit :=
  (revocationPublication host).validate pub skipSignatureCheck

def signRevocationPublication (pub : Members) (signingPriv : Bytes) (signingKeyId : JsString) :
    Js (Members × JsString) := (revocationPublication host).sign C pub signingPriv signingKeyId

def verifyRevocationPublication (pub : Members) (publisherPub : Bytes) : Js Bool :=
  (revocationPublication host).verify C pub publisherPub

end Code

section Signing
variable {C : Crypto} {spec : RecordSpec} {record : Members} {priv pk : Bytes} {keyId : JsString}

theorem requireSignatureOf_eq_ok {subject : JsString} {signature : Option Json} {skip : Bool} :
    requireSignatureOf subject signature skip = .ok () ↔
      ∃ ms value, signature = some (.obj ms) ∧ lookup ms valueKey = some (.str value) ∧
        (skip = true ∨ value ≠ []) := by
  unfold requireSignatureOf
  rw [Semp.bind_eq_ok]
  constructor
  · rintro ⟨v,hv,h⟩
    split at h
    next value =>
      obtain ⟨ms,hms,hvalue⟩ := optionalProp_eq_str.mp hv
      refine ⟨ms,value,hms,hvalue,?_⟩
      split_ifs at h with hblank
      · cases h
      · cases skip with
        | true => exact .inl rfl
        | false => exact .inr (by simpa using hblank)
    · cases h
  · rintro ⟨ms,value,hms,hvalue,hskip⟩
    refine ⟨_,optionalProp_eq_str.mpr ⟨ms,hms,hvalue⟩,?_⟩
    obtain rfl | hne := hskip
    · rfl
    · simp [hne]

theorem setField_obj {field key s : JsString} {ms : Members}
    (h : lookup record field = some (.obj ms)) :
    setField field key s record = .ok (assign record field (.obj (assign ms key (.str s)))) := by
  rw [setField,h]
  rfl

/-- A record with a signature block like the one that is signed. -/
def blanked (record ms : Members) (keyId value : JsString) : Members :=
  assign record signatureKey (.obj (assign (assign (assign ms algorithmKey
    (.str signatureAlgorithmEd25519)) keyIdKey (.str keyId)) valueKey (.str value)))

theorem wf_blanked {ms : Members} (hwf : (Json.obj record).WF)
    (hms : lookup record signatureKey = some (.obj ms)) (keyId value : JsString) :
    (Json.obj (blanked record ms keyId value)).WF :=
  Json.wf_assign hwf (Json.wf_assign (Json.wf_assign (Json.wf_assign (Json.wf_of_lookup hwf hms)
    (Json.wf_str _) _) (Json.wf_str _) _) (Json.wf_str _) _) _

theorem splitDots_signaturePath : splitDots signaturePath = [signatureKey,valueKey] := by decide

theorem lookup_blanked (record ms : Members) (keyId value : JsString) :
    lookup (blanked record ms keyId value) signatureKey = some (.obj (assign (assign (assign ms
      algorithmKey (.str signatureAlgorithmEd25519)) keyIdKey (.str keyId)) valueKey
        (.str value))) := lookup_assign_self ..

/-- Writing a signature into a clone clones the record with the signature. -/
theorem setPath_cloned {n : Members} (h : lookup record signatureKey = some (.obj n))
    (value : JsString) : setPath (cloned record) signaturePath value =
      .ok (cloned (assign record signatureKey (.obj (assign n valueKey (.str value))))) := by
  rw [setPath,splitDots_signaturePath]
  refine (setParts_cons (by simp)).mpr ⟨_,_,lookup_cloned_obj h,rfl,?_⟩
  rw [cloned,cloned,map_assign,Json.reparse,Json.reparseMembers_eq,map_assign]
  rfl

theorem norm_cloned (m : Members) : (Json.obj (cloned m)).norm = (Json.obj m).norm := by
  have hnorm := Json.norm_reparse (Json.obj m)
  rwa [Json.reparse,Json.reparseMembers_eq] at hnorm

/-- When a record is signed, and what is made of it. -/
theorem RecordSpec.sign_eq_ok (hwf : (Json.obj record).WF) {p : Members × JsString}
    (h : spec.sign C record priv keyId = .ok p) : keyId ≠ [] ∧ spec.fields record = .ok () ∧
      ∃ ms r, lookup record signatureKey = some (.obj ms) ∧
        signSignedDoc C ⟨blanked record ms keyId [],priv,signaturePath,spec.domain⟩ = .ok r ∧
        r.signedJSON = cloned p.1 ∧ p.1 = blanked record ms keyId r.signatureB64 := by
  unfold RecordSpec.sign at h
  split_ifs at h with hid
  · cases h
  obtain ⟨u,hvalid,h⟩ := Semp.bind_eq_ok.mp h
  obtain ⟨u',hfields,hsignature⟩ := Semp.bind_eq_ok.mp hvalid
  obtain ⟨ms,value,hms,-,-⟩ := requireSignatureOf_eq_ok.mp hsignature
  rw [setField_obj hms,ok_bind,setField_obj (lookup_assign_self ..),ok_bind,assign_assign,
    setField_obj (lookup_assign_self ..),ok_bind,assign_assign] at h
  change (signSignedDoc C ⟨blanked record ms keyId [],priv,signaturePath,spec.domain⟩ >>= _) = _
    at h
  obtain ⟨r,hr,h⟩ := Semp.bind_eq_ok.mp h
  obtain ⟨-,-,-,-,-,-,hsigned⟩ := signSignedDoc_eq_ok hr (wf_blanked hwf hms _ _)
  have hset := (setPath_cloned (lookup_assign_self ..) r.signatureB64).symm.trans hsigned
  rw [assign_assign,assign_assign] at hset
  have hsigned : r.signedJSON = cloned (blanked record ms keyId r.signatureB64) :=
    (Except.ok.inj hset).symm
  rw [hsigned,getProp_obj,ok_bind,lookup_cloned_obj (lookup_blanked ..),getProp_obj,ok_bind,
    lookup_cloned_str (lookup_assign_self ..)] at h
  simp only at h
  rw [setField_obj (lookup_assign_self ..),ok_bind,assign_assign,assign_assign] at h
  obtain rfl := Except.ok.inj h
  exact ⟨hid,hfields,ms,r,hms,hr,hsigned,rfl⟩

/-- A signed record verifies, and says what it said. -/
theorem RecordSpec.sign_spec (laws : SignLaws C) (hwf : (Json.obj record).WF)
    {p : Members × JsString} (h : spec.sign C record priv keyId = .ok p)
    (hpk : publicKeyFromSeed C priv = .ok pk) :
    spec.verify C p.1 pk = .ok true ∧ (Json.obj p.1).WF ∧
      ∀ f, f ≠ signatureKey → lookup p.1 f = lookup record f := by
  obtain ⟨hid,hfields,ms,r,hms,hr,hsigned,hp⟩ := sign_eq_ok hwf h
  have hwfp : (Json.obj p.1).WF := by
    rw [hp]
    exact wf_blanked hwf hms _ _
  have hwfb := wf_blanked hwf hms keyId []
  obtain ⟨-,sig,-,-,hsig,hb64,-⟩ := signSignedDoc_eq_ok hr hwfb
  have hne : r.signatureB64 ≠ [] := hb64 ▸ encode_sign_ne_nil laws hsig
  have hlookup : ∃ n, lookup p.1 signatureKey = some (.obj n) ∧
      lookup n valueKey = some (.str r.signatureB64) := by
    rw [hp]
    exact ⟨_,lookup_blanked ..,lookup_assign_self ..⟩
  obtain ⟨n,hn,hvalue⟩ := hlookup
  refine ⟨?_,hwfp,fun f hf => by rw [hp,blanked,lookup_assign_ne _ hf]⟩
  have hverify := verifySignedDoc_signSignedDoc laws hr hwfb
    (by rw [splitDots_signaturePath]; decide) hpk
  have hverify := verifySignedDoc_congr hwfp (wf_clone hwfp) (norm_cloned p.1).symm
    (hsigned ▸ hverify)
  have hvalid : spec.validate p.1 false = .ok () := by
    have hfieldsp : spec.fields p.1 = .ok () := by rw [hp,blanked,spec.fields_assign,hfields]
    rw [RecordSpec.validate,hfieldsp,ok_bind]
    exact requireSignatureOf_eq_ok.mpr ⟨n,_,hn,hvalue,.inr hne⟩
  rw [RecordSpec.verify,hvalid,ok_bind,hn,getProp_obj,ok_bind,hvalue,if_neg (by simpa [isStr]),
    hverify]
  rfl

/-- When a record can be signed. -/
theorem RecordSpec.sign_ok (laws : SignLaws C) (hwf : (Json.obj record).WF) (hid : keyId ≠ [])
    (hpriv : priv.length = 32) (hfields : spec.fields record = .ok ()) {ms : Members}
    {value : JsString} (hms : lookup record signatureKey = some (.obj ms))
    (hvalue : lookup ms valueKey = some (.str value)) :
    ∃ p, spec.sign C record priv keyId = .ok p := by
  have hvalid : spec.validate record true = .ok () := by
    rw [RecordSpec.validate,hfields,ok_bind]
    exact requireSignatureOf_eq_ok.mpr ⟨ms,value,hms,hvalue,.inl rfl⟩
  have hset := setPath_cloned (lookup_blanked record ms keyId [])
  obtain ⟨r,hr⟩ := signSignedDoc_ok laws (s := ⟨blanked record ms keyId [],priv,signaturePath,
    spec.domain⟩) (wf_blanked hwf hms _ _) hpriv (hset [])
  obtain ⟨-,-,-,-,-,-,hsigned⟩ := signSignedDoc_eq_ok hr (wf_blanked hwf hms _ _)
  have hsigned := Except.ok.inj ((hset r.signatureB64).symm.trans hsigned)
  unfold RecordSpec.sign
  rw [if_neg hid,hvalid,ok_bind,setField_obj hms,ok_bind,setField_obj (lookup_assign_self ..),
    ok_bind,assign_assign,setField_obj (lookup_assign_self ..),ok_bind,assign_assign]
  change ∃ p, (signSignedDoc C ⟨blanked record ms keyId [],priv,signaturePath,spec.domain⟩ >>= _) =
    _
  rw [hr,ok_bind,← hsigned,getProp_obj,ok_bind,lookup_cloned_obj (lookup_assign_self ..),
    getProp_obj,ok_bind,lookup_cloned_str (lookup_assign_self ..)]
  simp only
  rw [setField_obj (lookup_assign_self ..),ok_bind]
  exact ⟨_,rfl⟩

end Signing
end KeyRevocation
end Semp
