import Semp.TransparencyLog
import Semp.JsDynamic

/-! The device directory record: the devices of a user under a revision number, signed
with the user's identity key. -/
namespace Semp
namespace DeviceRecords

open TransparencyLog (isText signaturePath signatureBlock signatureAlgorithmEd25519)

def deviceDirectoryType : JsString := js "SEMP_DEVICE_DIRECTORY"
def deviceRecordVersion : JsString := js "1.0.0"
def deviceDirectoryPrefix : JsString := js "SEMP-DEVICE-DIRECTORY:"

/-- A role is checked at run time only. -/
structure DeviceDirectoryEntry where
  device_id : JsString
  device_public_key : JsString
  device_identity_pubkey_algorithm : JsString
  role : JsString
  certificate_id : Option JsString
  enrolled_at : JsString
  device_name : JsString
  device_type : JsString
  deriving DecidableEq, Repr

structure KeysSignature where
  algorithm : JsString
  key_id : JsString
  value : JsString
  deriving DecidableEq, Repr

/-- The record without its two constant members, the type and the version. -/
structure DeviceDirectory where
  user_id : JsString
  revision : ℕ
  issued_at : JsString
  devices : List DeviceDirectoryEntry
  signature : KeysSignature
  deriving DecidableEq, Repr

def nullable : Option JsString → Json
  | none => .null
  | some s => .str s

def DeviceDirectoryEntry.members (d : DeviceDirectoryEntry) : Members :=
  [(js "device_id",.str d.device_id),(js "device_public_key",.str d.device_public_key),
    (js "device_identity_pubkey_algorithm",.str d.device_identity_pubkey_algorithm),
    (js "role",.str d.role),(js "certificate_id",nullable d.certificate_id),
    (js "enrolled_at",.str d.enrolled_at),(js "device_name",.str d.device_name),
    (js "device_type",.str d.device_type)]

def DeviceDirectory.members (dir : DeviceDirectory) : Members :=
  [(js "type",.str deviceDirectoryType),(js "version",.str deviceRecordVersion),
    (js "user_id",.str dir.user_id),(js "revision",.num (.ofNat dir.revision)),
    (js "issued_at",.str dir.issued_at),
    (js "devices",.arr (dir.devices.map fun d => .obj d.members)),
    (js "signature",signatureBlock dir.signature.algorithm dir.signature.key_id
      dir.signature.value)]

/-- The directory as a consumer gets it. -/
def DeviceDirectory.toJson (dir : DeviceDirectory) : Json := .obj dir.members

/-- `v?.[k]` -/
def optionalProp (v : Option Json) (k : JsString) : Js (Option Json) :=
  match v with
  | none | some .null => .ok none
  | some v => getProp (some v) k

/-- Each of the fields must be a string that is not empty. -/
def requireTexts (subject : JsString) (v : Option Json) : List JsString → Js Unit
  | [] => .ok ()
  | f::fs => do
    let x ← getProp v f
    if !isText x then raise (subject++js " missing "++f)
    else requireTexts subject v fs

def entryTexts : List JsString :=
  [js "device_id",js "device_public_key",js "device_identity_pubkey_algorithm",
    js "enrolled_at",js "device_name",js "device_type"]

/-- An item of the list of devices; gives its id. -/
def validateEntry (i : ℕ) (seenIds : List (Option Json)) (d : Json) : Js (Option Json) := do
  let site := js "keys: device directory devices["++natText i++js "]"
  requireTexts site (some d) entryTexts
  let id ← getProp (some d) (js "device_id")
  if seenIds.any (strictEq id) then
    raise (js "keys: device directory device_id "++stringifyText id++js " appears more than once")
  let role ← getProp (some d) (js "role")
  if !isStr role (js "full_access") && !isStr role (js "delegated") then
    raise (site++js " role "++stringifyText role++js " is invalid")
  let certificate ← getProp (some d) (js "certificate_id")
  if isStr role (js "full_access") && !strictEq certificate (some .null) then
    raise (site++js " role=full_access requires certificate_id=null")
  if isStr role (js "delegated") && (strictEq certificate (some .null) || isStr certificate []) then
    raise (site++js " role=delegated requires non-empty certificate_id")
  .ok id

def validateEntries : ℕ → List (Option Json) → List Json → Js Unit
  | _,_,[] => .ok ()
  | i,seenIds,d::ds => do
    let id ← validateEntry i seenIds d
    validateEntries (i+1) (id::seenIds) ds

def requireType (type : Option Json) : Js Unit :=
  if !isStr type deviceDirectoryType then
    raise (js "keys: device directory type "++stringifyText type++js ", want "++
      deviceDirectoryType)
  else .ok ()

def requireRevision (revision : Option Json) : Js Unit :=
  match revision with
  | some (.num x) =>
    if !x.isInteger || x.lt (.ofNat 0) then
      raise (js "keys: device directory revision "++NumberText.toText x++js " MUST be >= 0")
    else .ok ()
  | v => do
    let text ← templateText v
    raise (js "keys: device directory revision "++text++js " MUST be >= 0")

section Code
variable (C : Crypto) (host : Host)

def requireIsoDate (v : Option Json) : Js Unit :=
  match v with
  | some (.str s) =>
    if (host.dateParse s).isNaN then
      raise (js "keys: device directory issued_at is not ISO 8601")
    else .ok ()
  | _ => raise (js "keys: device directory issued_at is not ISO 8601")

def validateDevices (devices : Option Json) : Js Unit :=
  match devices with
  | some (.arr ds) => validateEntries 0 [] ds
  | _ => raise (js "keys: device directory devices must be an array")

def requireSignatureValue (signature : Option Json) (skipSignatureCheck : Bool) : Js Unit := do
  match ← optionalProp signature (js "value") with
  | some (.str value) =>
    if !skipSignatureCheck && value = [] then raise (js "keys: device directory is unsigned")
    else .ok ()
  | _ => raise (js "keys: device directory signature.value must be a string")

def validateDeviceDirectory (dir : Option Json) (skipSignatureCheck : Bool) : Js Unit := do
  let type ← getProp dir (js "type")
  requireType type
  requireTexts (js "keys: device directory") dir [js "version",js "user_id",js "issued_at"]
  let revision ← getProp dir (js "revision")
  requireRevision revision
  let issuedAt ← getProp dir (js "issued_at")
  requireIsoDate host issuedAt
  let devices ← getProp dir (js "devices")
  validateDevices devices
  let signature ← getProp dir (js "signature")
  requireSignatureValue signature skipSignatureCheck

/-- The source writes the signature into the record it is given; here it is in the record
that is returned. -/
def signDeviceDirectory (dir : DeviceDirectory) (identityPriv : Bytes)
    (identityKeyId : JsString) : Js DeviceDirectory := do
  if identityKeyId = [] then raise (js "keys: empty identity key_id")
  validateDeviceDirectory host (some dir.toJson) true
  let dir := {dir with signature := ⟨signatureAlgorithmEd25519,identityKeyId,[]⟩}
  let r ← SignedDoc.signSignedDoc C
    ⟨dir.members,identityPriv,signaturePath,deviceDirectoryPrefix⟩
  .ok {dir with signature := {dir.signature with value := r.signatureB64}}

def verifyDeviceDirectory (dir : Option Json) (identityPub : Bytes) : Js Bool := do
  validateDeviceDirectory host dir false
  let signature ← getProp dir (js "signature")
  let value ← getProp signature (js "value")
  if isStr value [] then .ok false
  else
    match dir with
    | some (.obj ms) => do
      let r ← SignedDoc.verifySignedDoc C ⟨ms,identityPub,signaturePath,deviceDirectoryPrefix⟩
      .ok r.ok
    | _ => raiseType

end Code

@[simp] theorem isText_str {s : JsString} : isText (some (.str s)) = true ↔ s ≠ [] := by
  cases s <;> simp [isText]

theorem requireTexts_eq_ok {subject : JsString} {ms : Members} {fs : List JsString} :
    requireTexts subject (some (.obj ms)) fs = .ok () ↔
      ∀ f ∈ fs, isText (lookup ms f) = true := by
  induction fs with
  | nil => simp [requireTexts]
  | cons f fs ih =>
    rw [requireTexts,getProp_obj,ok_bind,List.forall_mem_cons]
    cases isText (lookup ms f) with
    | false => simp
    | true => simpa using ih

/-- What the validation wants of an entry by itself. -/
structure DeviceDirectoryEntry.Valid (d : DeviceDirectoryEntry) : Prop where
  device_id : d.device_id ≠ []
  device_public_key : d.device_public_key ≠ []
  device_identity_pubkey_algorithm : d.device_identity_pubkey_algorithm ≠ []
  enrolled_at : d.enrolled_at ≠ []
  device_name : d.device_name ≠ []
  device_type : d.device_type ≠ []
  role : d.role = js "full_access" ∧ d.certificate_id = none ∨
    d.role = js "delegated" ∧ d.certificate_id ≠ none ∧ d.certificate_id ≠ some []

theorem requireTexts_entry {d : DeviceDirectoryEntry} {subject : JsString} :
    requireTexts subject (some (.obj d.members)) entryTexts = .ok () ↔
      d.device_id ≠ [] ∧ d.device_public_key ≠ [] ∧ d.device_identity_pubkey_algorithm ≠ [] ∧
        d.enrolled_at ≠ [] ∧ d.device_name ≠ [] ∧ d.device_type ≠ [] := by
  rw [requireTexts_eq_ok]
  simp only [entryTexts,List.forall_mem_cons,List.not_mem_nil,false_implies,implies_true,and_true]
  exact and_congr isText_str (and_congr isText_str (and_congr isText_str
    (and_congr isText_str (and_congr isText_str isText_str))))

theorem validateEntry_eq_ok {i : ℕ} {ids : List JsString} {d : DeviceDirectoryEntry}
    {id : Option Json} :
    validateEntry i (ids.map fun s => some (.str s)) (.obj d.members) = .ok id ↔
      d.Valid ∧ d.device_id ∉ ids ∧ id = some (.str d.device_id) := by
  have hid : lookup d.members (js "device_id") = some (.str d.device_id) := rfl
  have hrole : lookup d.members (js "role") = some (.str d.role) := rfl
  have hcert : lookup d.members (js "certificate_id") = some (nullable d.certificate_id) := rfl
  have hseen : ((ids.map fun s => some (Json.str s)).any (strictEq (some (.str d.device_id)))) =
      decide (d.device_id ∈ ids) := by
    rw [Bool.eq_iff_iff]
    simp [strictEq]
  have hne : js "full_access" ≠ js "delegated" := by decide
  rw [validateEntry]
  cases ht : requireTexts (js "keys: device directory devices["++natText i++js "]")
      (some (.obj d.members)) entryTexts with
  | error e =>
    have hno : ¬d.Valid := fun h => by
      rw [requireTexts_entry.mpr ⟨h.device_id,h.device_public_key,
        h.device_identity_pubkey_algorithm,h.enrolled_at,h.device_name,h.device_type⟩] at ht
      cases ht
    simp [hno]
  | ok u =>
    obtain ⟨h₁,h₂,h₃,h₄,h₅,h₆⟩ := requireTexts_entry.mp ht
    have hvalid : d.Valid ↔ d.role = js "full_access" ∧ d.certificate_id = none ∨
        d.role = js "delegated" ∧ d.certificate_id ≠ none ∧ d.certificate_id ≠ some [] :=
      ⟨fun h => h.role,fun h => ⟨h₁,h₂,h₃,h₄,h₅,h₆,h⟩⟩
    simp only [ok_bind,getProp_obj,hid,hrole,hcert,hseen,hvalid]
    by_cases hmem : d.device_id ∈ ids
    · simp [hmem]
    · by_cases hfull : d.role = js "full_access"
      · have hdel : d.role ≠ js "delegated" := fun h => hne (hfull.symm.trans h)
        cases hc : d.certificate_id with
        | none =>
          simp only [hmem,hfull,isStr,strictEq,nullable,hne]
          simpa [hne] using eq_comm
        | some c => simp [hmem,hfull,isStr,strictEq,nullable,hne]
      · by_cases hdel : d.role = js "delegated"
        · cases hc : d.certificate_id with
          | none => simp [hmem,hdel,isStr,strictEq,nullable,hne.symm]
          | some c =>
            by_cases hcn : c = []
            · simp [hmem,hdel,isStr,strictEq,nullable,hne.symm,hcn]
            · simp only [hmem,hdel,isStr,strictEq,nullable,hne.symm]
              simpa [hcn,hne.symm] using eq_comm
        · simp [hmem,hfull,hdel,isStr]

theorem validateEntries_eq_ok (i : ℕ) (ids : List JsString) (ds : List DeviceDirectoryEntry) :
    validateEntries i (ids.map fun s => some (.str s)) (ds.map fun d => .obj d.members) = .ok () ↔
      (∀ d ∈ ds, d.Valid ∧ d.device_id ∉ ids) ∧ (ds.map (·.device_id)).Nodup := by
  induction ds generalizing i ids with
  | nil => simp [validateEntries]
  | cons d ds ih =>
    rw [List.map_cons,validateEntries,bind_eq_ok]
    constructor
    · rintro ⟨id,hd,hds⟩
      obtain ⟨hvalid,hid,rfl⟩ := validateEntry_eq_ok.mp hd
      obtain ⟨hall,hnodup⟩ := (ih (i+1) (d.device_id::ids)).mp hds
      refine ⟨?_,?_⟩
      · rintro e (_ | ⟨_,he⟩)
        · exact ⟨hvalid,hid⟩
        · exact ⟨(hall e he).1,fun h => (hall e he).2 (List.mem_cons_of_mem _ h)⟩
      · refine List.nodup_cons.mpr ⟨fun h => ?_,hnodup⟩
        obtain ⟨e,he,heq⟩ := List.mem_map.mp h
        exact (hall e he).2 (heq ▸ List.mem_cons_self)
    · rintro ⟨hall,hnodup⟩
      obtain ⟨hnotin,hnodup⟩ := List.nodup_cons.mp hnodup
      refine ⟨_,validateEntry_eq_ok.mpr ⟨(hall d List.mem_cons_self).1,
        (hall d List.mem_cons_self).2,rfl⟩,(ih (i+1) (d.device_id::ids)).mpr ⟨?_,hnodup⟩⟩
      intro e he
      refine ⟨(hall e (List.mem_cons_of_mem _ he)).1,?_⟩
      intro h
      obtain h | h := List.mem_cons.mp h
      · exact hnotin (List.mem_map.mpr ⟨e,he,h⟩)
      · exact (hall e (List.mem_cons_of_mem _ he)).2 h

/-- A count passes the check: `2^53` is the largest one that adding one to a number reaches. -/
theorem requireRevision_ofNat {n : ℕ} (h : n ≤ 2^53) :
    requireRevision (some (.num (.ofNat n))) = .ok () := by
  have hcheck : (Number.ofNat n).isInteger = true ∧ (Number.ofNat n).lt (.ofNat 0) = false := by
    obtain h | rfl := Nat.lt_or_eq_of_le h
    · refine ⟨Number.isInteger_ofNat h,?_⟩
      rw [Number.lt_ofNat h (by norm_num)]
      simp
    · decide +kernel
  rw [requireRevision,hcheck.1,hcheck.2]
  rfl

/-- What the validation wants of a directory. -/
structure DeviceDirectory.Valid (host : Host) (dir : DeviceDirectory) : Prop where
  user_id : dir.user_id ≠ []
  issued_at : dir.issued_at ≠ []
  date : (host.dateParse dir.issued_at).isNaN = false
  devices : ∀ d ∈ dir.devices, d.Valid
  nodup : (dir.devices.map (·.device_id)).Nodup

theorem validateDevices_eq_ok {dir : DeviceDirectory} :
    validateDevices (lookup dir.members (js "devices")) = .ok () ↔
      (∀ d ∈ dir.devices, d.Valid) ∧ (dir.devices.map (·.device_id)).Nodup := by
  have h := validateEntries_eq_ok 0 [] dir.devices
  simp only [List.map_nil,List.not_mem_nil,not_false_eq_true,and_true] at h
  exact h

theorem validateDeviceDirectory_eq_ok {host : Host} {dir : DeviceDirectory}
    (hr : dir.revision ≤ 2^53) :
    validateDeviceDirectory host (some dir.toJson) true = .ok () ↔ dir.Valid host := by
  have htexts : requireTexts (js "keys: device directory") (some (.obj dir.members))
      [js "version",js "user_id",js "issued_at"] = .ok () ↔
      dir.user_id ≠ [] ∧ dir.issued_at ≠ [] := by
    rw [requireTexts_eq_ok]
    simp only [List.forall_mem_cons,List.not_mem_nil,false_implies,implies_true,and_true]
    exact (and_iff_right rfl).trans (and_congr isText_str isText_str)
  have hdate : requireIsoDate host (lookup dir.members (js "issued_at")) = .ok () ↔
      (host.dateParse dir.issued_at).isNaN = false := by
    change (if (host.dateParse dir.issued_at).isNaN then _ else _) = _ ↔ _
    cases (host.dateParse dir.issued_at).isNaN <;> simp
  have hrev : requireRevision (lookup dir.members (js "revision")) = .ok () :=
    requireRevision_ofNat hr
  have hsig : requireSignatureValue (lookup dir.members (js "signature")) true = .ok () := rfl
  have htype : requireType (lookup dir.members (js "type")) = .ok () := rfl
  rw [validateDeviceDirectory,DeviceDirectory.toJson]
  simp only [getProp_obj,ok_bind,htype,hrev,bind_eq_ok]
  constructor
  · rintro ⟨_,ht,_,hd,_,hv,-⟩
    obtain ⟨hu,hi⟩ := htexts.mp ht
    obtain ⟨hdev,hnodup⟩ := validateDevices_eq_ok.mp hv
    exact ⟨hu,hi,hdate.mp hd,hdev,hnodup⟩
  · intro h
    exact ⟨(),htexts.mpr ⟨h.user_id,h.issued_at⟩,(),hdate.mpr h.date,(),
      validateDevices_eq_ok.mpr ⟨h.devices,h.nodup⟩,hsig⟩

/-- What a consumer may use of a directory that passed. -/
theorem of_validateDeviceDirectory {host : Host} {dir : Option Json} {skip : Bool}
    (h : validateDeviceDirectory host dir skip = .ok ()) :
    ∃ ms userId revision, dir = some (.obj ms) ∧ lookup ms (js "user_id") = some (.str userId) ∧
      lookup ms (js "revision") = some (.num revision) ∧ revision.isInteger = true ∧
        revision.lt (.ofNat 0) = false ∧ ∃ ds, lookup ms (js "devices") = some (.arr ds) := by
  obtain ⟨type,ht,h⟩ := bind_eq_ok.mp h
  obtain ⟨_,hty,h⟩ := bind_eq_ok.mp h
  have htype : type ≠ none := by
    rintro rfl
    cases hty
  obtain ⟨ms,rfl⟩ : ∃ ms, dir = some (.obj ms) := by
    rcases dir with _ | (_ | _ | _ | _ | _ | ms)
    all_goals first
      | exact ⟨ms,rfl⟩
      | exact absurd (Except.ok.inj ht).symm htype
      | cases ht
  obtain ⟨_,htexts,h⟩ := bind_eq_ok.mp h
  obtain ⟨revision,hrevision,h⟩ := bind_eq_ok.mp h
  obtain ⟨_,hint,h⟩ := bind_eq_ok.mp h
  obtain ⟨_,-,h⟩ := bind_eq_ok.mp h
  obtain ⟨_,-,h⟩ := bind_eq_ok.mp h
  obtain ⟨devices,hdevices,h⟩ := bind_eq_ok.mp h
  obtain ⟨_,hdev,-⟩ := bind_eq_ok.mp h
  have huser := requireTexts_eq_ok.mp htexts (js "user_id") (by simp)
  obtain ⟨userId,huserId⟩ : ∃ userId, lookup ms (js "user_id") = some (.str userId) := by
    unfold isText at huser
    split at huser
    · exact ⟨_,by assumption⟩
    · cases huser
  obtain ⟨x,rfl,hx⟩ : ∃ x, revision = some (.num x) ∧
      ¬(!x.isInteger || x.lt (.ofNat 0)) = true := by
    unfold requireRevision at hint
    split at hint
    · split_ifs at hint with hx
      · cases hint
      · exact ⟨_,rfl,hx⟩
    · obtain ⟨_,-,hint⟩ := bind_eq_ok.mp hint
      cases hint
  obtain ⟨ds,rfl⟩ : ∃ ds, devices = some (.arr ds) := by
    unfold validateDevices at hdev
    split at hdev
    · exact ⟨_,rfl⟩
    · cases hdev
  simp only [Bool.or_eq_true,Bool.not_eq_true',not_or,Bool.not_eq_false,Bool.not_eq_true] at hx
  exact ⟨ms,userId,x,rfl,huserId,Except.ok.inj hrevision,hx.1,hx.2,ds,Except.ok.inj hdevices⟩

/-- A directory that verifies carries a signature over its own canonical bytes. -/
theorem of_verifyDeviceDirectory {C : Crypto} {host : Host} {dir : Option Json} {pub : Bytes}
    (h : verifyDeviceDirectory C host dir pub = .ok true) : ∃ ms bytes, dir = some (.obj ms) ∧
      SignedDoc.verifySignedDoc C ⟨ms,pub,signaturePath,deviceDirectoryPrefix⟩ =
        .ok ⟨true,bytes⟩ := by
  obtain ⟨_,-,h⟩ := bind_eq_ok.mp h
  obtain ⟨signature,-,h⟩ := bind_eq_ok.mp h
  obtain ⟨value,-,h⟩ := bind_eq_ok.mp h
  split_ifs at h
  · cases h
  · split at h
    · obtain ⟨⟨ok,bytes⟩,hr,h⟩ := bind_eq_ok.mp h
      obtain rfl : ok = true := Except.ok.inj h
      exact ⟨_,bytes,rfl,hr⟩
    · cases h

theorem DeviceDirectoryEntry.members_wf (d : DeviceDirectoryEntry) : (Json.obj d.members).WF := by
  refine Json.wf_obj.mpr ⟨by simp only [members,keys,List.map]; decide,?_⟩
  have hcert : (nullable d.certificate_id).WF := by cases d.certificate_id <;> trivial
  simp [members,Json.WF,hcert]

theorem DeviceDirectory.toJson_wf (dir : DeviceDirectory) : dir.toJson.WF := by
  refine Json.wf_obj.mpr ⟨by simp only [members,keys,List.map]; decide,?_⟩
  have hdevices : (Json.arr (dir.devices.map fun d => .obj d.members)).WF := by
    refine Json.wf_arr.mpr fun v hv => ?_
    obtain ⟨d,-,rfl⟩ := List.mem_map.mp hv
    exact d.members_wf
  have hsig := TransparencyLog.signatureBlock_wf dir.signature.algorithm dir.signature.key_id
    dir.signature.value
  intro m hm
  simp only [members,List.mem_cons,List.not_mem_nil,or_false] at hm
  rcases hm with rfl | rfl | rfl | rfl | rfl | rfl | rfl <;> trivial

section Signing
variable {C : Crypto} {host : Host} {dir : DeviceDirectory} {seed : Bytes} {keyId : JsString}

theorem signDeviceDirectory_eq_ok {dir' : DeviceDirectory}
    (h : signDeviceDirectory C host dir seed keyId = .ok dir') :
    keyId ≠ [] ∧ validateDeviceDirectory host (some dir.toJson) true = .ok () ∧
      seed.length = 32 ∧ ∃ value, dir' = {dir with signature :=
        ⟨signatureAlgorithmEd25519,keyId,value⟩} := by
  unfold signDeviceDirectory at h
  by_cases hk : keyId = []
  · simp [hk] at h
  · rw [if_neg hk] at h
    obtain ⟨_,hv,h⟩ := bind_eq_ok.mp h
    obtain ⟨r,hr,h⟩ := bind_eq_ok.mp h
    obtain ⟨clone,-,hr⟩ := bind_eq_ok.mp hr
    obtain ⟨blank,-,hr⟩ := bind_eq_ok.mp hr
    obtain ⟨bytes,-,hr⟩ := bind_eq_ok.mp hr
    obtain ⟨sig,hsig,-⟩ := bind_eq_ok.mp hr
    exact ⟨hk,hv,(sign_eq_ok.mp hsig).1,_,(Except.ok.inj h).symm⟩

theorem signDeviceDirectory_ok (laws : SignLaws C) (hk : keyId ≠ [])
    (hv : validateDeviceDirectory host (some dir.toJson) true = .ok ()) (hseed : seed.length = 32) :
    ∃ dir', signDeviceDirectory C host dir seed keyId = .ok dir' := by
  have hpath : SignedDoc.splitDots signaturePath = [js "signature",js "value"] := by decide
  let unsigned := {dir with signature := ⟨signatureAlgorithmEd25519,keyId,[]⟩}
  have hblank : ∃ blank, SignedDoc.setPath (unsigned.members.map fun m => (m.1,m.2.reparse))
      signaturePath [] = .ok blank := by
    have hsig : lookup (unsigned.members.map fun m => (m.1,m.2.reparse)) (js "signature") =
        some (signatureBlock signatureAlgorithmEd25519 keyId []).reparse := by
      rw [lookup_map Json.reparse]
      rfl
    rw [SignedDoc.setPath,hpath]
    exact ⟨_,(SignedDoc.setParts_cons (by simp)).mpr ⟨_,_,hsig,rfl,rfl⟩⟩
  obtain ⟨blank,hblank⟩ := hblank
  obtain ⟨r,hr⟩ := SignedDoc.signSignedDoc_ok laws (s := ⟨unsigned.members,seed,signaturePath,
    deviceDirectoryPrefix⟩) unsigned.toJson_wf hseed hblank
  exact ⟨_,by simp only [signDeviceDirectory,if_neg hk,hv,ok_bind]; rw [hr]; rfl⟩

end Signing

end DeviceRecords
end Semp
