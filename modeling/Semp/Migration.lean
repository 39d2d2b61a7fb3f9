import Semp.SigningKinds
import Semp.IsoDate

/-! Migration records.  Three parties sign one document in turn, in cooperative mode a
fourth; each signature is made over the document with its own value and those after it
blank. -/
namespace Semp
namespace Migration
open Handshake SignedDoc
open TransparencyLog (isText signatureBlock signatureAlgorithmEd25519)
open DeviceRecords (requireTexts optionalProp nullable)

def migrationRecordType : JsString := js "SEMP_MIGRATION"
def migrationRecordVersion : JsString := js "1.0.0"

inductive MigrationMode
  | cooperative
  | unilateral
  deriving DecidableEq, Repr

def MigrationMode.name : MigrationMode → JsString
  | cooperative => js "cooperative"
  | unilateral => js "unilateral"

def minNoticeWindowMs : ℤ := 30*24*60*60*1000
def maxNoticeWindowMs : ℤ := 730*24*60*60*1000

def isCooperative (r : Members) : Bool := isStr (lookup r (js "mode")) (js "cooperative")

/-- `typeof v === "string"` -/
def isString : Option Json → Bool
  | some (.str _) => true
  | _ => false

/-- The slots of the three signatures that every record has. -/
def commonFields : List SigField :=
  [.oldIdentitySignature,.newIdentitySignature,.newDomainSignature]

def prepareSignatures (r : Members) (oldIdentityKeyId newIdentityKeyId newDomainKeyId : JsString)
    (oldDomainKeyId : Option JsString) : Js Members :=
  let slot := fun keyId => signatureBlock signatureAlgorithmEd25519 keyId []
  let r := assign r SigField.oldIdentitySignature.name (slot oldIdentityKeyId)
  let r := assign r SigField.newIdentitySignature.name (slot newIdentityKeyId)
  let r := assign r SigField.newDomainSignature.name (slot newDomainKeyId)
  if isCooperative r then
    match oldDomainKeyId with
    | none | some [] => raise (js "migration: cooperative mode requires oldDomainKeyId")
    | some keyId => .ok (assign r SigField.oldDomainSignature.name (slot keyId))
  else .ok (assign r SigField.oldDomainSignature.name .null)

/-- `r[field].value === ""`, for one of the fields. -/
def someUnsigned (r : Members) : List SigField → Js Bool
  | [] => .ok false
  | field::fields => do
    let value ← getProp (lookup r field.name) (js "value")
    if isStr value [] then .ok true else someUnsigned r fields

section Sign
variable (C : Crypto)

/-- `signSlot`, with the record it was given after the call. -/
def signSlot (r : Members) (field : SigField) (priv : Bytes) (expectedKeyId : JsString) :
    Js Members := do
  let slot := lookup r field.name
  require (strictEq slot (some .null) = false)
    (js "migration: "++field.name++js " slot is null (call prepareSignatures)")
  let algorithm ← getProp slot (js "algorithm")
  let keyId ← getProp slot (js "key_id")
  require (isStr algorithm [] = false ∧ isStr keyId [] = false)
    (js "migration: "++field.name++
      js " requires algorithm + key_id pre-populated (call prepareSignatures)")
  require (isStr keyId expectedKeyId = true)
    (js "migration: "++field.name++js ".key_id "++stringifyText keyId++
      js " does not match passed "++stringifyText (some (.str expectedKeyId)))
  let signingInput ← (RecordKind.migrationRecord field).signingBytes r
  let sig ← sign C priv signingInput
  match slot with
  | none => raiseType
  | some slot => do
    let slot ← setProp slot (js "value") (.str (Base64.encode sig))
    .ok (assign r field.name slot)

def signOldIdentity (r : Members) (oldIdentityPriv : Bytes) (oldIdentityKeyId : JsString) :
    Js Members := signSlot C r .oldIdentitySignature oldIdentityPriv oldIdentityKeyId

def signNewIdentity (r : Members) (newIdentityPriv : Bytes) (newIdentityKeyId : JsString) :
    Js Members := do
  let unsigned ← someUnsigned r [.oldIdentitySignature]
  require (unsigned = false) (js "migration: signOldIdentity MUST run before signNewIdentity")
  signSlot C r .newIdentitySignature newIdentityPriv newIdentityKeyId

def signNewDomain (r : Members) (newDomainPriv : Bytes) (newDomainKeyId : JsString) :
    Js Members := do
  let unsigned ← someUnsigned r [.oldIdentitySignature,.newIdentitySignature]
  require (unsigned = false)
    (js "migration: signNewDomain requires old_identity and new_identity signatures")
  signSlot C r .newDomainSignature newDomainPriv newDomainKeyId

def signOldDomain (r : Members) (oldDomainPriv : Bytes) (oldDomainKeyId : JsString) :
    Js Members := do
  require (isCooperative r = true)
    (js "migration: signOldDomain only valid for mode=cooperative (got "++
      stringifyText (lookup r (js "mode"))++js ")")
  require (strictEq (lookup r SigField.oldDomainSignature.name) (some .null) = false)
    (js "migration: prepareSignatures MUST run before signOldDomain (cooperative mode)")
  let unsigned ← someUnsigned r commonFields
  require (unsigned = false) (js "migration: signOldDomain requires all three prior signatures")
  signSlot C r .oldDomainSignature oldDomainPriv oldDomainKeyId

/-- Keys and ids are strings; a window that is missing, `null` or empty is `none`. -/
structure ComposeMigrationInput where
  mode : MigrationMode
  recordId : JsString
  migratedAt : JsString
  noticeWindowUntil : Option JsString
  oldAddress : JsString
  newAddress : JsString
  oldIdentityKeyId : JsString
  oldIdentitySeed : Bytes
  newIdentityKeyId : JsString
  newIdentityPublicKey : JsString
  newIdentitySeed : Bytes
  newDomainKeyId : JsString
  newDomainSeed : Bytes
  oldDomainKeyId : Option JsString
  oldDomainSeed : Option Bytes
  extensions : Option Members

/-- The record before its signatures are prepared. -/
def unsignedRecord (recordId oldAddress newAddress oldIdentityKeyId newIdentityKeyId
    newIdentityPublicKey migratedAt : JsString) (noticeWindowUntil : Option JsString)
    (mode : MigrationMode) : Members :=
  [(js "type",.str migrationRecordType),(js "version",.str migrationRecordVersion),
    (js "record_id",.str recordId),(js "old_address",.str oldAddress),
    (js "new_address",.str newAddress),(js "old_identity_key_id",.str oldIdentityKeyId),
    (js "new_identity_key_id",.str newIdentityKeyId),
    (js "new_identity_public_key",.str newIdentityPublicKey),(js "migrated_at",.str migratedAt),
    (js "notice_window_until",nullable noticeWindowUntil),(js "mode",.str mode.name),
    (SigField.oldIdentitySignature.name,signatureBlock [] [] []),
    (SigField.newIdentitySignature.name,signatureBlock [] [] []),
    (SigField.newDomainSignature.name,signatureBlock [] [] []),
    (SigField.oldDomainSignature.name,.null)]

def ComposeMigrationInput.unsigned (input : ComposeMigrationInput) : Members :=
  let r := unsignedRecord input.recordId input.oldAddress input.newAddress
    input.oldIdentityKeyId input.newIdentityKeyId input.newIdentityPublicKey input.migratedAt
    (if input.noticeWindowUntil = some [] then none else input.noticeWindowUntil) input.mode
  match input.extensions with
  | none => r
  | some extensions => assign r (js "extensions") (.obj extensions)

def composeMigrationRecord (input : ComposeMigrationInput) : Js Members := do
  let r ← prepareSignatures input.unsigned input.oldIdentityKeyId input.newIdentityKeyId
    input.newDomainKeyId input.oldDomainKeyId
  let r ← signOldIdentity C r input.oldIdentitySeed input.oldIdentityKeyId
  let r ← signNewIdentity C r input.newIdentitySeed input.newIdentityKeyId
  let r ← signNewDomain C r input.newDomainSeed input.newDomainKeyId
  match input.mode with
  | .unilateral => .ok r
  | .cooperative =>
    match input.oldDomainSeed, input.oldDomainKeyId with
    | some seed, some (u::s) => signOldDomain C r seed (u::s)
    | _, _ => raise (js "migration: cooperative mode requires oldDomainSeed + oldDomainKeyId")

end Sign

section Validate
variable (other : JsString → JsDate)

def requireWindow (migratedMs : ℤ) (noticeWindowUntil : Option Json) : Js Unit :=
  match noticeWindowUntil with
  | some (.str (u::s)) =>
    match JsDate.parseText other (u::s) with
    | none => raise (js "migration: notice_window_until is not ISO 8601")
    | some untilMs =>
      let window := untilMs-migratedMs
      do
        require (minNoticeWindowMs ≤ window)
          (js "migration: cooperative notice window "++NumberText.toText (.ofInt window)++
            js " below minimum "++NumberText.toText (.ofInt minNoticeWindowMs))
        require (window ≤ maxNoticeWindowMs)
          (js "migration: cooperative notice window "++NumberText.toText (.ofInt window)++
            js " exceeds maximum "++NumberText.toText (.ofInt maxNoticeWindowMs))
  | _ => raise (js "migration: cooperative mode MUST set notice_window_until")

/-- The checks of one slot. -/
def requireSlot (r : Members) (field : SigField) : Js Unit := do
  let sig := lookup r field.name
  let algorithm ← optionalProp sig (js "algorithm")
  require (isText algorithm = true) (js "migration: "++field.name++js ".algorithm missing")
  let keyId ← optionalProp sig (js "key_id")
  require (isText keyId = true) (js "migration: "++field.name++js ".key_id missing")
  let value ← optionalProp sig (js "value")
  require (isString value = true) (js "migration: "++field.name++js ".value must be a string")

def requireSlots (r : Members) : List SigField → Js Unit
  | [] => .ok ()
  | field::fields => do
    requireSlot r field
    requireSlots r fields

/-- `old_domain_signature` is there in cooperative mode, and is `null` otherwise. -/
def requireOldDomain (r : Members) : Js Unit :=
  let slot := lookup r SigField.oldDomainSignature.name
  if isCooperative r then
    do
      require (strictEq slot (some .null) = false)
        (js "migration: cooperative record requires old_domain_signature")
      let value ← getProp slot (js "value")
      require (isString value = true)
        (js "migration: old_domain_signature.value must be a string")
  else
    require (strictEq slot (some .null) = true)
      (js "migration: unilateral record MUST NOT carry old_domain_signature")

def recordTexts : List JsString :=
  [js "version",js "record_id",js "old_address",js "new_address",js "old_identity_key_id",
    js "new_identity_key_id",js "new_identity_public_key",js "migrated_at"]

/-- `Date.parse(r.migrated_at)` -/
def migratedMs (r : Members) : JsDate :=
  match lookup r (js "migrated_at") with
  | some (.str s) => JsDate.parseText other s
  | _ => none

def validateMigrationRecord (r : Members) : Js Unit := do
  let type := lookup r (js "type")
  require (isStr type migrationRecordType = true)
    (js "migration: type "++stringifyText type++js ", want "++migrationRecordType)
  requireTexts (js "migration:") (some (.obj r)) recordTexts
  let migrated ← need (migratedMs other r) (js "migration: migrated_at is not ISO 8601")
  let mode := lookup r (js "mode")
  require (isStr mode (js "cooperative") = true ∨ isStr mode (js "unilateral") = true)
    (js "migration: mode "++stringifyText mode++js " is invalid")
  if isCooperative r then requireWindow other migrated (lookup r (js "notice_window_until"))
  requireSlots r commonFields
  requireOldDomain r

end Validate

section Verify
variable (C : Crypto) (rt : Runtime) (other : JsString → JsDate)

def verifySlot (r : Members) (field : SigField) (pub : Bytes) : Js Bool := do
  let slot := lookup r field.name
  if strictEq slot (some .null) then .ok false
  else do
    let value ← getProp slot (js "value")
    if isStr value [] then .ok false
    else
      match base64Decode rt value with
      | .error _ => .ok false
      | .ok sig => do
        let signingInput ← (RecordKind.migrationRecord field).signingBytes r
        .ok (verify C pub sig signingInput)

/-- The pass is an index into the slots. -/
def verifyMigrationPass (r : Members) (passIdx : Number) (pub : Bytes) : Js Bool :=
  if !passIdx.isInteger || passIdx.lt (.ofNat 0) || !passIdx.lt (.ofNat signatureFields.length) then
    .ok false
  else
    match signatureFields[passIdx.toRat.num.toNat]? with
    | none => .ok false
    | some field => verifySlot C rt r field pub

/-- `verifySlot` for one slot after the other, up to the first that fails. -/
def verifySlots (r : Members) : List (SigField × Bytes) → Js Bool
  | [] => .ok true
  | (field,pub)::passes => do
    if ← verifySlot C rt r field pub then verifySlots r passes else .ok false

def verifyMigrationRecord (r : Members) (oldIdentityPub newIdentityPub newDomainPub : Bytes)
    (oldDomainPub : Option Bytes) : Js Bool := do
  validateMigrationRecord other r
  if ← verifySlots C rt r [(.oldIdentitySignature,oldIdentityPub),
      (.newIdentitySignature,newIdentityPub),(.newDomainSignature,newDomainPub)] then
    let slot := lookup r SigField.oldDomainSignature.name
    if isCooperative r then
      if strictEq slot (some .null) then .ok false
      else
        match oldDomainPub with
        | none | some [] => .ok false
        | some pub => verifySlot C rt r .oldDomainSignature pub
    else .ok (strictEq slot (some .null))
  else .ok false

end Verify

end Migration
end Semp
