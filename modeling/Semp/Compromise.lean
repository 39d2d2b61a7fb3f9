import Semp.KeyRevocation
import Semp.DirectoryState

/-! The rotation of an identity key after a device was compromised: one bundle of a revoked
device, a successor record that the two device-side keys have signed, and the revocation of the
prior key.  Verification looks at each of the three by itself. -/
namespace Semp
namespace Compromise
open TransparencyLog TransparencyLog.Log DeviceRecords Successor KeyRevocation

/-- `none` stands for `undefined` and for `null`. -/
structure CompromiseRotation where
  device_revocation : Option Members
  successor : Option Members
  new_identity_public_key : Bytes
  new_identity_key_id : JsString
  new_encryption_public_key : Bytes
  new_encryption_key_id : JsString
  prior_identity_revocation : Option Members

structure CompromiseRotationInput where
  userId : JsString
  compromisedDeviceId : JsString
  revokingDeviceId : JsString
  priorIdentitySeed : Bytes
  priorIdentityKeyId : JsString
  newIdentitySeed : Bytes
  newIdentityPublicKey : Bytes
  newIdentityKeyId : JsString
  newEncryptionPublicKey : Bytes
  newEncryptionKeyId : JsString
  recoverySeed : Bytes
  recoveryKeyId : JsString
  now : Option Number

def keyCompromise : JsString := js "key_compromise"

namespace CompromiseRotationInput
variable (input : CompromiseRotationInput) (isoNow : JsString)

/-- The device revocation before it is signed. -/
def device : Members :=
  [(js "type",.str deviceRevocationType),(js "version",.str deviceRecordVersion),
    (js "user_id",.str input.userId),(js "device_id",.str input.compromisedDeviceId),
    (js "reason",.str keyCompromise),(js "revoked_at",.str isoNow),
    (js "revoked_by_device_id",.str input.revokingDeviceId),
    (js "replacement_device_id",.null),(signatureKey,signatureBlock [] [] [])]

/-- The successor record before it is prepared. -/
def successor : Members :=
  [(js "type",.str successorRecordType),(js "version",.str recordVersion),
    (js "user_id",.str input.userId),(js "prior_key_id",.str input.priorIdentityKeyId),
    (js "new_key_id",.str input.newIdentityKeyId),
    (js "new_public_key",.str (Base64.encode input.newIdentityPublicKey)),
    (js "recovered_at",.str isoNow),(Slot.recovery.field,signatureBlock [] [] []),
    (Slot.newKey.field,signatureBlock [] [] []),(Slot.domain.field,signatureBlock [] [] [])]

def priorEntry : Members :=
  [(js "key_id",.str input.priorIdentityKeyId),(js "address",.str input.userId),
    (js "reason",.str keyCompromise),(js "revoked_at",.str isoNow),
    (js "replacement_key_id",.str input.newIdentityKeyId)]

/-- The revocation of the prior key before it is signed. -/
def prior : Members :=
  [(js "type",.str revocationPublicationType),(js "version",.str revocationVersion),
    (js "revoked_keys",.arr [.obj (input.priorEntry isoNow)]),
    (signatureKey,signatureBlock [] [] [])]

end CompromiseRotationInput

section Code
variable (C : Crypto) (host : Host) (rt : Runtime)

/-- `clock` is what `new Date()` gives. -/
def buildCompromiseRotation (clock : Number) (input : CompromiseRotationInput) :
    Js CompromiseRotation :=
  if input.userId = [] then raise (js "keys: rotation input missing user_id")
  else if input.compromisedDeviceId = [] then
    raise (js "keys: rotation input missing compromised_device_id")
  else if input.revokingDeviceId = [] then
    raise (js "keys: rotation input missing revoking_device_id")
  else if input.priorIdentitySeed.length = 0 ∨ input.priorIdentityKeyId = [] then
    raise (js "keys: rotation input missing prior identity key")
  else if input.newIdentitySeed.length = 0 ∨ input.newIdentityPublicKey.length = 0 ∨
      input.newIdentityKeyId = [] then
    raise (js "keys: rotation input missing new identity key")
  else if input.newEncryptionPublicKey.length = 0 ∨ input.newEncryptionKeyId = [] then
    raise (js "keys: rotation input missing new encryption key")
  else if input.recoverySeed.length = 0 ∨ input.recoveryKeyId = [] then
    raise (js "keys: rotation input missing recovery signing key")
  else if input.priorIdentityKeyId = input.newIdentityKeyId then
    raise (js "keys: prior and new identity fingerprints must differ")
  else do
    let iso ← host.toISOString (input.now.getD clock)
    let isoNow := isoSecond iso
    let dev ← signDeviceRevocation C host (input.device isoNow) input.priorIdentitySeed
      input.priorIdentityKeyId
    -- The key id of the domain's block is left empty for the home server.
    let suc ← prepareSuccessorSignatures (input.successor isoNow) input.recoveryKeyId
      input.newIdentityKeyId []
    let suc ← signSuccessorRecovery C host suc input.recoverySeed input.recoveryKeyId
    let suc ← signSuccessorNewKey C host suc.1 input.newIdentitySeed input.newIdentityKeyId
    let prior ← signRevocationPublication C host (input.prior isoNow) input.priorIdentitySeed
      input.priorIdentityKeyId
    .ok {
      device_revocation := some dev.1
      successor := some suc.1
      new_identity_public_key := input.newIdentityPublicKey
      new_identity_key_id := input.newIdentityKeyId
      new_encryption_public_key := input.newEncryptionPublicKey
      new_encryption_key_id := input.newEncryptionKeyId
      prior_identity_revocation := some prior.1 }

def present (part : Option Members) (name : JsString) : Js Members :=
  match part with
  | none => raise (js "keys: rotation bundle missing "++name)
  | some m => .ok m

/-- The entry of the revocation that is checked against the bundle. -/
def checkEntry (newIdentityKeyId : JsString) (revokedKeys : Option Json) : Js Unit :=
  match revokedKeys with
  | some (.arr [entry]) => do
    let reason ← getProp (some entry) (js "reason")
    if !isStr reason keyCompromise then
      raise (js "keys: prior identity revocation entry reason "++stringifyText reason++
        js ", want key_compromise")
    else do
      let replacement ← getProp (some entry) (js "replacement_key_id")
      if !isStr replacement newIdentityKeyId then
        raise (js "keys: prior identity revocation replacement "++stringifyText replacement++
          js " does not match cascade new_identity_key_id "++
            stringifyText (some (.str newIdentityKeyId)))
      else .ok ()
  | some (.arr es) =>
    raise (js "keys: prior identity revocation MUST contain exactly one entry, got "++
      natText es.length)
  | _ => raiseType

def verifyCompromiseRotation (c : CompromiseRotation) (priorIdentityPub recoveryVerifyPub : Bytes) :
    Js Unit := do
  let dev ← present c.device_revocation (js "device_revocation")
  let suc ← present c.successor (js "successor record")
  let prior ← present c.prior_identity_revocation (js "prior_identity_revocation")
  if !isStr (lookup dev (js "reason")) keyCompromise then
    raise (js "keys: rotation device revocation reason "++
      stringifyText (lookup dev (js "reason"))++js ", want key_compromise")
  else do
    let devOk ← verifyDeviceRevocation C host dev priorIdentityPub
    if !devOk then raise (js "keys: device revocation signature did not verify")
    else
      match base64Decode rt (lookup suc (js "new_public_key")) with
      | .error err =>
        raise (js "keys: decode successor new_public_key: "++Handshake.thrownText rt err)
      | .ok newPub => do
        let sucOk ← verifySuccessorTwoSignatures C host suc recoveryVerifyPub newPub
        if !sucOk then raise (js "keys: successor record two-signature verify failed")
        else do
          let priorOk ← verifyRevocationPublication C host prior priorIdentityPub
          if !priorOk then
            raise (js "keys: prior identity revocation signature did not verify")
          else checkEntry c.new_identity_key_id (lookup prior (js "revoked_keys"))

end Code

section Verification
variable {C : Crypto} {host : Host} {rt : Runtime} {c : CompromiseRotation}
variable {priorIdentityPub recoveryVerifyPub : Bytes}

/-- What is asked of the device revocation. -/
def DevicePart (C : Crypto) (host : Host) (priorIdentityPub : Bytes) (dev : Members) : Prop :=
  lookup dev (js "reason") = some (.str keyCompromise) ∧
    verifyDeviceRevocation C host dev priorIdentityPub = .ok true

/-- What is asked of the successor record. -/
def SuccessorPart (C : Crypto) (host : Host) (rt : Runtime) (recoveryVerifyPub : Bytes)
    (suc : Members) : Prop :=
  ∃ newPub, base64Decode rt (lookup suc (js "new_public_key")) = .ok newPub ∧
    verifySuccessorTwoSignatures C host suc recoveryVerifyPub newPub = .ok true

/-- What is asked of the revocation of the prior key. -/
def PriorPart (C : Crypto) (host : Host) (priorIdentityPub : Bytes)
    (newIdentityKeyId : JsString) (prior : Members) : Prop :=
  verifyRevocationPublication C host prior priorIdentityPub = .ok true ∧
    ∃ entry, lookup prior (js "revoked_keys") = some (.arr [.obj entry]) ∧
      lookup entry (js "reason") = some (.str keyCompromise) ∧
      lookup entry (js "replacement_key_id") = some (.str newIdentityKeyId)

theorem present_eq_ok {part : Option Members} {name : JsString} {m : Members} :
    present part name = .ok m ↔ part = some m := by
  cases part <;> simp [present,raise]

theorem checkEntry_eq_ok {keyId : JsString} {revokedKeys : Option Json} :
    checkEntry keyId revokedKeys = .ok () ↔
      ∃ entry, revokedKeys = some (.arr [.obj entry]) ∧
        lookup entry (js "reason") = some (.str keyCompromise) ∧
        lookup entry (js "replacement_key_id") = some (.str keyId) := by
  constructor
  · intro h
    unfold checkEntry at h
    split at h
    next entry =>
      obtain ⟨reason,hreason,h⟩ := Semp.bind_eq_ok.mp h
      split_ifs at h with hr
      · cases h
      obtain ⟨replacement,hreplacement,h⟩ := Semp.bind_eq_ok.mp h
      split_ifs at h with hk
      · cases h
      simp only [Bool.not_eq_true',Bool.not_eq_false] at hr hk
      obtain rfl := isStr_iff.mp hr
      obtain rfl := isStr_iff.mp hk
      obtain ⟨e,rfl⟩ : ∃ e, entry = .obj e := by
        cases entry with
        | obj e => exact ⟨e,rfl⟩
        | null => cases hreason
        | bool b => cases hreason
        | num x => cases hreason
        | str s => cases hreason
        | arr vs => cases hreason
      exact ⟨e,rfl,Except.ok.inj hreason,Except.ok.inj hreplacement⟩
    · cases h
    · cases h
  · rintro ⟨e,rfl,hreason,hreplacement⟩
    simp only [checkEntry,getProp_obj,ok_bind,hreason,hreplacement,isStr,beq_self_eq_true,
      Bool.not_true,Bool.false_eq_true,if_false]

/-- The three parts are verified each by itself; only the key id of the bundle is compared with
one of them. -/
theorem verify_eq_ok :
    verifyCompromiseRotation C host rt c priorIdentityPub recoveryVerifyPub = .ok () ↔
      ∃ dev suc prior, c.device_revocation = some dev ∧ c.successor = some suc ∧
        c.prior_identity_revocation = some prior ∧ DevicePart C host priorIdentityPub dev ∧
        SuccessorPart C host rt recoveryVerifyPub suc ∧
        PriorPart C host priorIdentityPub c.new_identity_key_id prior := by
  unfold verifyCompromiseRotation
  constructor
  · intro h
    obtain ⟨dev,hdev,h⟩ := Semp.bind_eq_ok.mp h
    obtain ⟨suc,hsuc,h⟩ := Semp.bind_eq_ok.mp h
    obtain ⟨prior,hprior,h⟩ := Semp.bind_eq_ok.mp h
    split_ifs at h with hreason
    · cases h
    obtain ⟨devOk,hdevOk,h⟩ := Semp.bind_eq_ok.mp h
    split_ifs at h with hd
    · cases h
    split at h
    · cases h
    next newPub hnew =>
      obtain ⟨sucOk,hsucOk,h⟩ := Semp.bind_eq_ok.mp h
      split_ifs at h with hs
      · cases h
      obtain ⟨priorOk,hpriorOk,h⟩ := Semp.bind_eq_ok.mp h
      split_ifs at h with hp
      · cases h
      simp only [Bool.not_eq_true',Bool.not_eq_false] at hreason hd hs hp
      subst hd hs hp
      exact ⟨dev,suc,prior,present_eq_ok.mp hdev,present_eq_ok.mp hsuc,present_eq_ok.mp hprior,
        ⟨isStr_iff.mp hreason,hdevOk⟩,⟨newPub,hnew,hsucOk⟩,hpriorOk,checkEntry_eq_ok.mp h⟩
  · rintro ⟨dev,suc,prior,hdev,hsuc,hprior,⟨hreason,hdevOk⟩,⟨newPub,hnew,hsucOk⟩,hpriorOk,hentry⟩
    rw [present_eq_ok.mpr hdev,ok_bind,present_eq_ok.mpr hsuc,ok_bind,present_eq_ok.mpr hprior,
      ok_bind,isStr_iff.mpr hreason,if_neg (by simp),hdevOk,ok_bind,if_neg (by simp),hnew]
    simp only
    rw [hsucOk,ok_bind,if_neg (by simp),hpriorOk,ok_bind,if_neg (by simp)]
    exact checkEntry_eq_ok.mpr hentry

end Verification

section Built
variable {C : Crypto} {host : Host} {rt : Runtime} {clock : Number}
variable {input : CompromiseRotationInput} {c : CompromiseRotation}

theorem wf_signatureBlock : (signatureBlock [] [] []).WF := signatureBlock_wf [] [] []

theorem wf_device (isoNow : JsString) : (Json.obj (input.device isoNow)).WF :=
  Json.wf_obj.mpr ⟨by simp only [CompromiseRotationInput.device,keys,List.map]; decide,
    by simp [CompromiseRotationInput.device,Json.WF,wf_signatureBlock]⟩

theorem wf_successor (isoNow : JsString) : (Json.obj (input.successor isoNow)).WF :=
  Json.wf_obj.mpr ⟨by simp only [CompromiseRotationInput.successor,keys,List.map]; decide,
    by simp [CompromiseRotationInput.successor,Json.WF,wf_signatureBlock]⟩

theorem wf_priorEntry (isoNow : JsString) : (Json.obj (input.priorEntry isoNow)).WF :=
  Json.wf_obj.mpr ⟨by simp only [CompromiseRotationInput.priorEntry,keys,List.map]; decide,
    by simp [CompromiseRotationInput.priorEntry,Json.WF]⟩

theorem wf_prior (isoNow : JsString) : (Json.obj (input.prior isoNow)).WF := by
  have hentries : (Json.arr [.obj (input.priorEntry isoNow)]).WF :=
    Json.wf_arr.mpr (List.forall_mem_singleton.mpr (wf_priorEntry isoNow))
  refine Json.wf_obj.mpr ⟨by simp only [CompromiseRotationInput.prior,keys,List.map]; decide,?_⟩
  simp only [CompromiseRotationInput.prior,List.forall_mem_cons,List.not_mem_nil,false_imp_iff,
    implies_true,and_true]
  exact ⟨Json.wf_str _,Json.wf_str _,hentries,wf_signatureBlock⟩

theorem ite_raise_eq_ok {α : Type} {p : Prop} [Decidable p] {message : JsString} {f : Js α} {a : α} :
    (if p then raise message else f) = .ok a ↔ ¬p ∧ f = .ok a := by
  split_ifs with hp <;> simp [hp,raise]

/-- The steps of a build that returns. -/
theorem build_eq_ok (h : buildCompromiseRotation C host clock input = .ok c) :
    ∃ isoNow dev r sucRecovery suc prior,
      signDeviceRevocation C host (input.device isoNow) input.priorIdentitySeed
        input.priorIdentityKeyId = .ok dev ∧
      prepareSuccessorSignatures (input.successor isoNow) input.recoveryKeyId
        input.newIdentityKeyId [] = .ok r ∧
      signSuccessorRecovery C host r input.recoverySeed input.recoveryKeyId = .ok sucRecovery ∧
      signSuccessorNewKey C host sucRecovery.1 input.newIdentitySeed input.newIdentityKeyId =
        .ok suc ∧
      signRevocationPublication C host (input.prior isoNow) input.priorIdentitySeed
        input.priorIdentityKeyId = .ok prior ∧
      c = ⟨some dev.1,some suc.1,input.newIdentityPublicKey,input.newIdentityKeyId,
        input.newEncryptionPublicKey,input.newEncryptionKeyId,some prior.1⟩ := by
  unfold buildCompromiseRotation at h
  simp only [ite_raise_eq_ok] at h
  obtain ⟨-,-,-,-,-,-,-,-,h⟩ := h
  obtain ⟨iso,-,h⟩ := Semp.bind_eq_ok.mp h
  obtain ⟨dev,hdev,h⟩ := Semp.bind_eq_ok.mp h
  obtain ⟨r,hr,h⟩ := Semp.bind_eq_ok.mp h
  obtain ⟨sucRecovery,hrecovery,h⟩ := Semp.bind_eq_ok.mp h
  obtain ⟨suc,hsuc,h⟩ := Semp.bind_eq_ok.mp h
  obtain ⟨prior,hprior,h⟩ := Semp.bind_eq_ok.mp h
  exact ⟨_,dev,r,sucRecovery,suc,prior,hdev,hr,hrecovery,hsuc,hprior,(Except.ok.inj h).symm⟩

/-- The successor record of a bundle as it was built: both device-side signatures, over an input
that has an empty key id where the domain's will have to be. -/
structure HalfSigned (C : Crypto) (host : Host) (input : CompromiseRotationInput)
    (suc : Members) : Prop where
  wf : (Json.obj suc).WF
  well : Well host suc
  recovery : text suc .recovery valueKey ≠ []
  domainKeyId : text suc .domain keyIdKey = []
  domainValue : text suc .domain valueKey = []
  verified : ∀ p, publicKeyFromSeed C input.recoverySeed = .ok p →
    publicKeyFromSeed C input.newIdentitySeed = .ok input.newIdentityPublicKey →
      verifySuccessorTwoSignatures C host suc p input.newIdentityPublicKey = .ok true
  fields : ∀ f, (∀ slot : Slot, f ≠ slot.field) →
    ∀ isoNow, f ≠ js "recovered_at" → lookup suc f = lookup (input.successor isoNow) f

theorem lookup_successor {f isoNow isoNow' : JsString} (hf : f ≠ js "recovered_at") :
    lookup (input.successor isoNow) f = lookup (input.successor isoNow') f := by
  simp only [CompromiseRotationInput.successor,lookup,if_neg hf.symm]

theorem halfSigned (laws : SignLaws C) {isoNow : JsString} {r : Members}
    {sucRecovery suc : Members × JsString}
    (hr : prepareSuccessorSignatures (input.successor isoNow) input.recoveryKeyId
      input.newIdentityKeyId [] = .ok r)
    (hrecovery : signSuccessorRecovery C host r input.recoverySeed input.recoveryKeyId =
      .ok sucRecovery)
    (hsuc : signSuccessorNewKey C host sucRecovery.1 input.newIdentitySeed
      input.newIdentityKeyId = .ok suc) : HalfSigned C host input suc.1 := by
  have wr := wf_prepared (wf_successor isoNow) hr
  obtain ⟨-,-,hw,-,-,sig,hsig,rfl⟩ := (signOneOfThree_eq_ok wr).mp hrecovery
  have hw₁ := hw.set .recovery valueKey (Base64.encode sig)
  have wr₁ := wf_setText hw wr .recovery valueKey (Base64.encode sig)
  obtain ⟨-,-,-,-,-,sig',hsig',rfl⟩ := (signOneOfThree_eq_ok wr₁).mp hsuc
  rw [inputOf_setText hw wr] at hsig'
  have hprepared := prepareSuccessorSignatures_eq_ok hr hw.hasObjects
  have hdomain {key : JsString} : text (setText (setText r .recovery valueKey (Base64.encode sig))
      .newKey valueKey (Base64.encode sig')) .domain key = text r .domain key := by
    rw [text_setText_ne (.inl (by decide)),text_setText_ne (.inl (by decide))]
  have hfirst : text (setText (setText r .recovery valueKey (Base64.encode sig)) .newKey valueKey
      (Base64.encode sig')) .recovery valueKey = Base64.encode sig := by
    rw [text_setText_ne (.inl (by decide)),text_setText_self]
  have hblock : text r .domain keyIdKey = [] ∧ text r .domain valueKey = [] := by
    rw [hprepared]
    exact text_setSlot.2
  refine {
    wf := wf_setText hw₁ wr₁ _ _ _
    well := hw₁.set _ _ _
    recovery := by
      rw [hfirst]
      exact encode_sign_ne_nil laws hsig
    domainKeyId := hdomain.trans hblock.1
    domainValue := hdomain.trans hblock.2
    verified := fun p hp hq => ?_
    fields := fun f hf isoNow' hdate => ?_ }
  · refine (verifySuccessorTwoSignatures_eq_ok (wf_setText hw₁ wr₁ _ _ _)).mpr
      ⟨hw₁.set _ _ _,?_,?_,hdomain.trans hblock.2,?_,?_⟩
    · rw [hfirst]
      exact encode_sign_ne_nil laws hsig
    · rw [text_setText_self]
      exact encode_sign_ne_nil laws hsig'
    · rw [hfirst,Base64.decode_encode,inputOf_setText hw₁ wr₁,inputOf_setText hw wr]
      exact verify_sign laws hp hsig
    · rw [text_setText_self,Base64.decode_encode,inputOf_setText hw₁ wr₁,inputOf_setText hw wr]
      exact verify_sign laws hq hsig'
  · rw [lookup_setText_ne (hf _),lookup_setText_ne (hf _),lookup_prepared hr hw.hasObjects hf,
      lookup_successor hdate]

/-- What is in a bundle that was built with matching keys. -/
theorem built (rt : Runtime) (laws : SignLaws C)
    (h : buildCompromiseRotation C host clock input = .ok c)
    {priorIdentityPub recoveryVerifyPub : Bytes}
    (hprior : publicKeyFromSeed C input.priorIdentitySeed = .ok priorIdentityPub)
    (hnew : publicKeyFromSeed C input.newIdentitySeed = .ok input.newIdentityPublicKey)
    (hrecovery : publicKeyFromSeed C input.recoverySeed = .ok recoveryVerifyPub) :
    ∃ dev suc prior isoNow, c = ⟨some dev,some suc,input.newIdentityPublicKey,
        input.newIdentityKeyId,input.newEncryptionPublicKey,input.newEncryptionKeyId,
        some prior⟩ ∧
      DevicePart C host priorIdentityPub dev ∧
      SuccessorPart C host rt recoveryVerifyPub suc ∧
      PriorPart C host priorIdentityPub input.newIdentityKeyId prior ∧
      lookup dev (js "user_id") = some (.str input.userId) ∧
      HalfSigned C host input suc ∧
      lookup prior (js "revoked_keys") = some (.arr [.obj (input.priorEntry isoNow)]) := by
  obtain ⟨isoNow,dev,r,sucRecovery,suc,prior,hdev,hr,hrec,hsuc,hrevoke,rfl⟩ := build_eq_ok h
  obtain ⟨hdevOk,-,hdevFields⟩ := RecordSpec.sign_spec laws (wf_device isoNow) hdev hprior
  obtain ⟨hpriorOk,-,hpriorFields⟩ := RecordSpec.sign_spec laws (wf_prior isoNow) hrevoke hprior
  have hhalf := halfSigned laws hr hrec hsuc
  have hkeys : lookup prior.1 (js "revoked_keys") =
      some (.arr [.obj (input.priorEntry isoNow)]) := by
    rw [hpriorFields _ (by decide)]
    rfl
  have hpub : lookup suc.1 (js "new_public_key") =
      some (.str (Base64.encode input.newIdentityPublicKey)) := by
    rw [hhalf.fields _ (fun slot => by cases slot <;> decide) isoNow (by decide)]
    rfl
  refine ⟨dev.1,suc.1,prior.1,isoNow,rfl,⟨?_,hdevOk⟩,⟨input.newIdentityPublicKey,?_,
    hhalf.verified _ hrecovery hnew⟩,⟨hpriorOk,_,hkeys,rfl,rfl⟩,?_,hhalf,hkeys⟩
  · rw [hdevFields _ (by decide)]
    rfl
  · rw [hpub,base64Decode_str,Base64.decode_encode]
  · rw [hdevFields _ (by decide)]
    rfl

/-- The input of a build that returns, if there is a date to stamp it with. -/
structure CompromiseRotationInput.Complete (input : CompromiseRotationInput) : Prop where
  userId : input.userId ≠ []
  compromisedDeviceId : input.compromisedDeviceId ≠ []
  revokingDeviceId : input.revokingDeviceId ≠ []
  priorIdentitySeed : input.priorIdentitySeed.length = 32
  priorIdentityKeyId : input.priorIdentityKeyId ≠ []
  newIdentitySeed : input.newIdentitySeed.length = 32
  newIdentityPublicKey : input.newIdentityPublicKey ≠ []
  newIdentityKeyId : input.newIdentityKeyId ≠ []
  newEncryptionPublicKey : input.newEncryptionPublicKey ≠ []
  newEncryptionKeyId : input.newEncryptionKeyId ≠ []
  recoverySeed : input.recoverySeed.length = 32
  recoveryKeyId : input.recoveryKeyId ≠ []
  ne : input.priorIdentityKeyId ≠ input.newIdentityKeyId

/-- The time can be written, and the text read back. -/
def Stamps (host : Host) (now : Number) (isoNow : JsString) : Prop :=
  ∃ iso, host.toISOString now = .ok iso ∧ isoNow = isoSecond iso ∧ isoNow ≠ [] ∧
    (host.dateParse isoNow).isNaN = false

theorem device_fields (h : input.Complete) {now : Number} {isoNow : JsString}
    (hdate : Stamps host now isoNow) :
    (deviceRevocation host).fields (input.device isoNow) = .ok () := by
  obtain ⟨iso,-,-,hne,hnan⟩ := hdate
  have htexts : requireTexts deviceRevocationSubject (some (.obj (input.device isoNow)))
      deviceRevocationTexts = .ok () := by
    refine requireTexts_eq_ok.mpr ?_
    simp only [deviceRevocationTexts,List.forall_mem_cons,List.not_mem_nil,false_imp_iff,
      implies_true,and_true]
    exact ⟨rfl,isText_str.mpr h.userId,isText_str.mpr h.compromisedDeviceId,isText_str.mpr hne,
      isText_str.mpr h.revokingDeviceId⟩
  change deviceRevocationFields host (input.device isoNow) = .ok ()
  have hdateOk : requireRevokedAt host deviceRevocationSubject (some (.str isoNow)) = .ok () := by
    rw [requireRevokedAt,if_neg (by simp [hnan])]
  rw [deviceRevocationFields,htexts]
  change (requireRevokedAt host deviceRevocationSubject (some (.str isoNow)) >>= _) = _
  rw [hdateOk]
  rfl

theorem prior_fields (h : input.Complete) {now : Number} {isoNow : JsString}
    (hdate : Stamps host now isoNow) :
    (revocationPublication host).fields (input.prior isoNow) = .ok () := by
  obtain ⟨iso,-,-,hne,hnan⟩ := hdate
  have htext {subject f s : JsString} (hf : lookup (input.priorEntry isoNow) f = some (.str s))
      (hs : s ≠ []) :
      requireTexts subject (some (.obj (input.priorEntry isoNow))) [f] = .ok () := by
    refine requireTexts_eq_ok.mpr (List.forall_mem_singleton.mpr ?_)
    rw [hf]
    exact isText_str.mpr hs
  have hentries : validateRevokedKeys host 0 [.obj (input.priorEntry isoNow)] = .ok () := by
    have hdateOk (site : JsString) : requireRevokedAt host site (some (.str isoNow)) = .ok () := by
      rw [requireRevokedAt,if_neg (by simp [hnan])]
    rw [validateRevokedKeys,htext (f := js "key_id") rfl h.priorIdentityKeyId,
      htext (f := js "revoked_at") rfl hne]
    change (requireRevokedAt host _ (some (.str isoNow)) >>= _) = _
    rw [hdateOk]
    rfl
  change revocationPublicationFields host (input.prior isoNow) = .ok ()
  rw [revocationPublicationFields]
  exact hentries

/-- The successor record when it is prepared. -/
def CompromiseRotationInput.prepared (input : CompromiseRotationInput) (isoNow : JsString) :
    Members :=
  setSlot (setSlot (setSlot (input.successor isoNow) .recovery input.recoveryKeyId) .newKey
    input.newIdentityKeyId) .domain []

/-- The key ids the record is prepared with. -/
def CompromiseRotationInput.slotIds (input : CompromiseRotationInput) : Slot → JsString
  | .recovery => input.recoveryKeyId
  | .newKey => input.newIdentityKeyId
  | .domain => []

theorem prepared_eq (input : CompromiseRotationInput) (isoNow : JsString) :
    prepareSuccessorSignatures (input.successor isoNow) (input.slotIds .recovery)
      (input.slotIds .newKey) (input.slotIds .domain) = .ok (input.prepared isoNow) := rfl

theorem well_successor (h : input.Complete) {now : Number} {isoNow : JsString}
    (hdate : Stamps host now isoNow) : Well host (input.successor isoNow) where
  type := rfl
  texts := by
    obtain ⟨iso,-,-,hne,-⟩ := hdate
    simp only [textFields,List.forall_mem_cons,List.not_mem_nil,false_imp_iff,implies_true,
      and_true]
    refine ⟨isText_str.mpr h.userId,isText_str.mpr h.priorIdentityKeyId,
      isText_str.mpr h.newIdentityKeyId,isText_str.mpr ?_,isText_str.mpr hne⟩
    rw [Ne,Base64.encode_eq_nil]
    exact h.newIdentityPublicKey
  date := by
    obtain ⟨iso,-,-,-,hnan⟩ := hdate
    exact ⟨isoNow,rfl,hnan⟩
  blocks slot := by
    refine ⟨[(algorithmKey,.str []),(keyIdKey,.str []),(valueKey,.str [])],?_,?_⟩
    · cases slot <;> rfl
    · simp only [List.forall_mem_cons,List.not_mem_nil,false_imp_iff,implies_true,and_true]
      exact ⟨⟨_,rfl⟩,⟨_,rfl⟩,_,rfl⟩

theorem well_prepared (h : input.Complete) {now : Number} {isoNow : JsString}
    (hdate : Stamps host now isoNow) : Well host (input.prepared isoNow) := by
  have hset {r : Members} (hr : Well host r) (slot : Slot) (keyId : JsString) :
      Well host (setSlot r slot keyId) := ((hr.set _ _ _).set _ _ _).set _ _ _
  exact hset (hset (hset (well_successor h hdate) _ _) _ _) _ _

/-- With complete input and a date a bundle is built. -/
theorem build_ok (laws : SignLaws C) (h : input.Complete) {isoNow : JsString}
    (hdate : Stamps host (input.now.getD clock) isoNow) :
    ∃ c, buildCompromiseRotation C host clock input = .ok c := by
  have hw := well_prepared h hdate
  have wr := wf_prepared (wf_successor isoNow) (prepared_eq input isoNow)
  have htext := prepareSuccessorSignatures_text (prepared_eq input isoNow) hw.hasObjects
  have halg (slot : Slot) : text (input.prepared isoNow) slot algorithmKey ≠ [] := by
    rw [(htext slot).1]
    decide
  obtain ⟨dev,hdev⟩ := RecordSpec.sign_ok laws (wf_device isoNow) h.priorIdentityKeyId
    h.priorIdentitySeed (device_fields h hdate) rfl rfl
  obtain ⟨prior,hprior⟩ := RecordSpec.sign_ok laws (wf_prior isoNow) h.priorIdentityKeyId
    h.priorIdentitySeed (prior_fields h hdate) rfl rfl
  obtain ⟨sig,hsig⟩ := sign_ok laws h.recoverySeed (inputOf (input.prepared isoNow))
  have hrecovery := (signOneOfThree_eq_ok wr).mpr ⟨by rw [h.recoverySeed]; decide,
    h.recoveryKeyId,hw,halg .recovery,(htext .recovery).2.1,sig,hsig,rfl⟩
  have hw₁ := hw.set .recovery valueKey (Base64.encode sig)
  have wr₁ := wf_setText hw wr .recovery valueKey (Base64.encode sig)
  obtain ⟨sig',hsig'⟩ := sign_ok laws h.newIdentitySeed
    (inputOf (setText (input.prepared isoNow) .recovery valueKey (Base64.encode sig)))
  have hkept {key : JsString} : text (setText (input.prepared isoNow) .recovery valueKey
      (Base64.encode sig)) .newKey key = text (input.prepared isoNow) .newKey key :=
    text_setText_ne (.inl (by decide))
  have hnewKey := (signOneOfThree_eq_ok wr₁).mpr ⟨by rw [h.newIdentitySeed]; decide,
    h.newIdentityKeyId,hw₁,by rw [hkept]; exact halg .newKey,
    hkept.trans (htext .newKey).2.1,sig',hsig',rfl⟩
  obtain ⟨iso,hiso,rfl,-,-⟩ := hdate
  unfold buildCompromiseRotation
  simp only [ite_raise_eq_ok]
  refine ⟨⟨some dev.1,some (setText (setText (input.prepared (isoSecond iso)) .recovery valueKey
    (Base64.encode sig)) .newKey valueKey (Base64.encode sig')),input.newIdentityPublicKey,
    input.newIdentityKeyId,input.newEncryptionPublicKey,input.newEncryptionKeyId,some prior.1⟩,
    h.userId,h.compromisedDeviceId,h.revokingDeviceId,?_,?_,?_,?_,h.ne,?_⟩
  · simp [h.priorIdentitySeed,h.priorIdentityKeyId]
  · simp [h.newIdentitySeed,h.newIdentityKeyId,h.newIdentityPublicKey]
  · simp [h.newEncryptionPublicKey,h.newEncryptionKeyId]
  · simp [h.recoverySeed,h.recoveryKeyId]
  · rw [hiso,ok_bind]
    rw [signDeviceRevocation,hdev,ok_bind]
    change (prepareSuccessorSignatures (input.successor (isoSecond iso)) (input.slotIds .recovery)
      (input.slotIds .newKey) (input.slotIds .domain) >>= _) = _
    rw [prepared_eq,ok_bind,signSuccessorRecovery,hrecovery,ok_bind,signSuccessorNewKey,hnewKey,
      ok_bind,signRevocationPublication,hprior,ok_bind]

/-- A rotation of a user with a tag of their own. -/
def rotationOf (priorIdentitySeed recoverySeed newIdentitySeed newIdentityPublicKey : Bytes)
    (now : Number) (tag : JsString) : CompromiseRotationInput where
  userId := js "user-"++tag
  compromisedDeviceId := js "lost"
  revokingDeviceId := js "kept"
  priorIdentitySeed := priorIdentitySeed
  priorIdentityKeyId := js "prior-"++tag
  newIdentitySeed := newIdentitySeed
  newIdentityPublicKey := newIdentityPublicKey
  newIdentityKeyId := js "new-"++tag
  newEncryptionPublicKey := [0]
  newEncryptionKeyId := js "encryption"
  recoverySeed := recoverySeed
  recoveryKeyId := js "recovery"
  now := some now

theorem complete_rotationOf {p q n pk : Bytes} (hp : p.length = 32) (hq : q.length = 32)
    (hn : n.length = 32) (hpk : pk ≠ []) (now : Number) (tag : JsString) :
    (rotationOf p q n pk now tag).Complete where
  userId := nofun
  compromisedDeviceId := nofun
  revokingDeviceId := nofun
  priorIdentitySeed := hp
  priorIdentityKeyId := nofun
  newIdentitySeed := hn
  newIdentityPublicKey := hpk
  newIdentityKeyId := nofun
  newEncryptionPublicKey := nofun
  newEncryptionKeyId := nofun
  recoverySeed := hq
  recoveryKeyId := nofun
  ne := by
    intro h
    have hhead := congrArg List.head? h
    exact absurd hhead (show some 112 ≠ some 110 by decide)

theorem stamps_sample (now : Number) : Stamps sampleHost now sampleTime :=
  ⟨js "1970-01-01T00:00:00.000Z",rfl,by decide,by decide,rfl⟩

def sampleInput : CompromiseRotationInput :=
  rotationOf (List.replicate 32 1) (List.replicate 32 2) (List.replicate 32 3)
    (List.replicate 32 3) (.zero false) (js "a")

theorem sampleInput_built : ∃ c, buildCompromiseRotation Sample.crypto sampleHost (.zero false)
    sampleInput = .ok c :=
  build_ok Sample.laws.sig (complete_rotationOf (by decide) (by decide) (by decide) (by decide) _ _)
    (stamps_sample _)

theorem sample_key (b : UInt8) :
    publicKeyFromSeed Sample.crypto (List.replicate 32 b) = .ok (List.replicate 32 b) :=
  publicKeyFromSeed_eq_ok.mpr ⟨List.length_replicate ..,rfl⟩

end Built
end Compromise
end Semp
