import Semp.MigrationChain
import Semp.Lockout
import Semp.Method

/-! Submission of a migration record by the new provider and its acceptance by the old one,
which locks the old local part, countersigns the record and stores it. -/
namespace Semp
namespace Migration
open Handshake
open Lockout (InMemoryLockoutRegistry)
open TransparencyLog (isText signatureBlock signatureAlgorithmEd25519)
open DeviceRecords (requireTexts_eq_ok)

def ulidAlphabet : JsString := js "0123456789ABCDEFGHJKMNPQRSTVWXYZ"

/-- The last `n` digits of a number in base 32. -/
def ulidDigits : ℕ → ℕ → JsString
  | 0, _ => []
  | n+1, u => ulidDigits n (u/32)++(ulidAlphabet[u%32]?).toList

/-- `nowMs` is the clock, `random` what the random source gives for ten bytes. -/
def newRecordID (nowMs : ℕ) (random : Bytes) : JsString :=
  let time := (List.range 6).map fun i => nowMs/256^(5-i)%256
  let bits := time++(List.range 10).map fun i => ((random[i]?).map UInt8.toNat).getD 0
  let number := fun bytes : List ℕ => bytes.foldl (fun u b => u*256+b) 0
  ulidDigits 13 (number (bits.take 8))++ulidDigits 13 (number (bits.drop 8))

structure BuildSubmissionInput where
  oldAddress : JsString
  newAddress : JsString
  oldIdentityKeyId : JsString
  newIdentityKeyId : JsString
  newIdentityPublicKey : JsString
  oldIdentityPriv : Bytes
  newIdentityPriv : Bytes
  newDomainKeyId : JsString
  newDomainPriv : Bytes
  oldDomainKeyId : Option JsString
  mode : MigrationMode
  noticeWindowMs : Option Number
  migratedAt : JsString
  recordId : Option JsString

/-- `input.noticeWindowMs ?? 0` -/
def BuildSubmissionInput.windowMs (input : BuildSubmissionInput) : Number :=
  input.noticeWindowMs.getD (.ofNat 0)

section Build
variable (C : Crypto) (other : JsString → JsDate)

/-- The end of the notice window, cut to the second. -/
def noticeUntil (input : BuildSubmissionInput) : Js (Option JsString) :=
  match input.mode with
  | .unilateral => .ok none
  | .cooperative => do
    require (input.windowMs.lt (.ofInt minNoticeWindowMs) = false)
      (js "migration: notice window "++NumberText.toText input.windowMs++js " below minimum "++
        NumberText.toText (.ofInt minNoticeWindowMs))
    require ((Number.ofInt maxNoticeWindowMs).lt input.windowMs = false)
      (js "migration: notice window "++NumberText.toText input.windowMs++js " exceeds maximum "++
        NumberText.toText (.ofInt maxNoticeWindowMs))
    require (input.oldDomainKeyId ≠ none ∧ input.oldDomainKeyId ≠ some [])
      (js "migration: cooperative mode requires oldDomainKeyId (looked up from the old "++
        js "provider's discovery configuration)")
    let migrated ← need (JsDate.parseText other input.migratedAt)
      (js "migration: migrated_at is not ISO 8601")
    let text ← (JsDate.plus (some migrated) input.windowMs).toISOString
    .ok (some (IsoDate.cutMillis text))

def buildSubmission (nowMs : ℕ) (random : Bytes) (input : BuildSubmissionInput) : Js Members := do
  require (input.oldAddress ≠ [] ∧ input.newAddress ≠ [])
    (js "migration: old_address and new_address are required")
  require (input.oldIdentityKeyId ≠ [] ∧ input.newIdentityKeyId ≠ [])
    (js "migration: old_identity_key_id and new_identity_key_id are required")
  require (input.newIdentityPublicKey ≠ []) (js "migration: new_identity_public_key is required")
  require (input.newDomainKeyId ≠ []) (js "migration: new_domain_key_id is required")
  require (input.migratedAt ≠ []) (js "migration: migrated_at is required")
  let noticeText ← noticeUntil other input
  let recordId := input.recordId.getD (newRecordID nowMs random)
  let r ← prepareSignatures (unsignedRecord recordId input.oldAddress input.newAddress
    input.oldIdentityKeyId input.newIdentityKeyId input.newIdentityPublicKey input.migratedAt
    noticeText input.mode) input.oldIdentityKeyId input.newIdentityKeyId input.newDomainKeyId
    input.oldDomainKeyId
  let r ← signOldIdentity C r input.oldIdentityPriv input.oldIdentityKeyId
  let r ← signNewIdentity C r input.newIdentityPriv input.newIdentityKeyId
  signNewDomain C r input.newDomainPriv input.newDomainKeyId

end Build

/-- What is submitted is not part of it: the record is the caller's object, which a call
may change. -/
structure AcceptSubmissionInput where
  oldIdentityPub : Bytes
  newDomainPub : Bytes
  oldDomainPriv : Bytes
  oldDomainKeyId : JsString
  now : JsDate
  oldIdentityCreated : Option JsDate
  clockSkewMs : Option Number
  noticePolicy : Option (Members → Js Unit)

/-- What a call may change: the submitted record, and the registry and the store where the
provider has them. -/
structure Provider (S : Type) where
  record : Members
  lockout : Option InMemoryLockoutRegistry
  store : Option S

section Accept
variable (C : Crypto) (rt : Runtime) (lower : JsString → JsString) (other : JsString → JsDate)

def checkMigratedAtBound (r : Members) (oldKeyCreated : Option JsDate) (now : JsDate)
    (clockSkewMs : Option Number) : Js Unit := do
  let migrated ← need (migratedMs other r) (js "migration: migrated_at is not ISO 8601")
  let text ← templateText (lookup r (js "migrated_at"))
  match oldKeyCreated with
  | some created =>
    if JsDate.lt (some migrated) created then do
      let createdText ← created.toISOString
      raise (js "migration: migrated_at "++text++js " precedes old identity key created "++
        createdText)
  | none => .ok ()
  let clockSkewMs := clockSkewMs.getD (.ofNat (5*60*1000))
  require ((now.getTime.add clockSkewMs).lt (JsDate.getTime (some migrated)) = false)
    (js "migration: migrated_at "++text++js " is in the future beyond clock-skew tolerance")

/-- What is checked before anything is changed, up to the notice policy. -/
def checkSubmission (a : AcceptSubmissionInput) (r : Members) : Js Unit := do
  require (isCooperative r = true)
    (js "migration: acceptSubmission only valid for mode=cooperative (got "++
      stringifyText (lookup r (js "mode"))++js ")")
  validateMigrationRecord other r
  let newIdentityPub ← base64Decode rt (lookup r (js "new_identity_public_key"))
  let verified ← verifyMigrationPass C rt r (.ofNat 0) a.oldIdentityPub
  require (verified = true) (js "migration: old_identity_signature verification failed")
  let verified ← verifyMigrationPass C rt r (.ofNat 1) newIdentityPub
  require (verified = true) (js "migration: new_identity_signature verification failed")
  let verified ← verifyMigrationPass C rt r (.ofNat 2) a.newDomainPub
  require (verified = true) (js "migration: new_domain_signature verification failed")
  checkMigratedAtBound other r a.oldIdentityCreated a.now a.clockSkewMs
  match a.noticePolicy with
  | none => .ok ()
  | some noticePolicy => noticePolicy r

def atUnit : UInt16 := 64

/-- What is before the first `@`, if there is one. -/
def localpartOf (address : JsString) : JsString :=
  if atUnit ∈ address then address.takeWhile (· ≠ atUnit) else address

/-- The lockout of a record that has been checked. -/
def reserveLockout (r : Members) (l : InMemoryLockoutRegistry) : Js InMemoryLockoutRegistry :=
  match lookup r (js "notice_window_until"),lookup r (js "old_address"),
    lookup r (js "record_id") with
  | some (.str noticeUntil),some (.str oldAddress),some (.str recordId) =>
    match JsDate.parseText other noticeUntil with
    | none => .ok l
    | some untilMs =>
      l.reserve lower (localpartOf oldAddress) (JsDate.ofTime untilMs) recordId
  | _,_,_ => .ok l

variable {S : Type} (putRecord : S → Members → Js S)

/-- `input.lockout?.reserve(..)` -/
def lock : Method Thrown (Provider S) Unit := do
  let p ← get
  match p.lockout with
  | none => pure ()
  | some l => do
    let l ← liftM (reserveLockout lower other p.record l)
    modify fun p => { p with lockout := some l }

def countersign (a : AcceptSubmissionInput) : Method Thrown (Provider S) Unit := do
  let p ← get
  let r ← liftM (signOldDomain C p.record a.oldDomainPriv a.oldDomainKeyId)
  modify fun p => { p with record := r }

/-- `input.store?.putRecord(..)` -/
def publish : Method Thrown (Provider S) Members := do
  let p ← get
  match p.store with
  | none => pure p.record
  | some s => do
    let s ← liftM (putRecord s p.record)
    modify fun p => { p with store := some s }
    pure p.record

def acceptSubmission (a : AcceptSubmissionInput) : Method Thrown (Provider S) Members := do
  let p ← get
  liftM (checkSubmission C rt other a p.record)
  lock lower other
  countersign C a
  publish putRecord

end Accept

end Migration
end Semp
