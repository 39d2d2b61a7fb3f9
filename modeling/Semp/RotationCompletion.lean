import Semp.Compromise

/-! What a home server can do with the successor record of a rotation.  The device-side
signatures cover the empty key id of the domain's block; the domain's signature needs a key id
there, and preparing the record for one takes the device-side signatures out. -/
namespace Semp
namespace Compromise
open TransparencyLog TransparencyLog.Log DeviceRecords Successor KeyRevocation

/-- The operations on a successor record. -/
inductive Op
  | prepare (recoveryKeyId newKeyId domainKeyId : JsString)
  | signRecovery (recoveryPriv : Bytes) (recoveryKeyId : JsString)
  | signNewKey (newIdentityPriv : Bytes) (newKeyId : JsString)
  | signDomain (domainPriv : Bytes) (domainKeyId : JsString)

def Op.apply (C : Crypto) (host : Host) : Op → Members → Js Members
  | prepare recoveryKeyId newKeyId domainKeyId,r =>
    prepareSuccessorSignatures r recoveryKeyId newKeyId domainKeyId
  | signRecovery priv keyId,r => (signSuccessorRecovery C host r priv keyId).map Prod.fst
  | signNewKey priv keyId,r => (signSuccessorNewKey C host r priv keyId).map Prod.fst
  | signDomain priv keyId,r => (signSuccessorDomain C host r priv keyId).map Prod.fst

/-- The passes that a device makes. -/
def Op.deviceSide : Op → Prop
  | signRecovery _ _ => True
  | signNewKey _ _ => True
  | _ => False

/-- The values of the device-side signatures. -/
def deviceValues (r : Members) : JsString × JsString :=
  (text r .recovery valueKey,text r .newKey valueKey)

/-- A sequence of operations in which no device-side signature is made anew. -/
def ServerRun (C : Crypto) (host : Host) : List Op → Members → Members → Prop
  | [],r,final => r = final
  | op::ops,r,final => ∃ r', op.apply C host r = .ok r' ∧
      (op.deviceSide → deviceValues r' = deviceValues r) ∧ ServerRun C host ops r' final

section Steps
variable {C : Crypto} {host : Host} {r m : Members} {slot other : Slot} {key s : JsString}

theorem setField_other (h : setField slot.field key s r = .ok m) (hne : other ≠ slot) :
    block m other = block r other := by
  have hfield : other.field ≠ slot.field := fun heq => hne (Slot.field_injective heq)
  unfold setField at h
  split at h
  · cases h
  · obtain ⟨sig,-,h⟩ := Semp.bind_eq_ok.mp h
    obtain rfl := Except.ok.inj h
    rw [block,lookup_assign_ne _ hfield,block]

theorem text_setField_self (h : setField slot.field key [] r = .ok m) : text m slot key = [] := by
  unfold setField at h
  split at h
  · cases h
  next sig hsig =>
    cases sig with
    | obj ms =>
      obtain rfl := Except.ok.inj h
      rw [text,block,lookup_assign_self]
      simp only
      rw [lookup_assign_self]
    | arr vs =>
      obtain rfl := Except.ok.inj h
      rw [text,block,lookup_assign_self]
      rfl
    | null => cases h
    | bool b => cases h
    | num x => cases h
    | str t => cases h

/-- The preparation takes the device-side signatures out. -/
theorem text_prepared {a b c : JsString} (h : prepareSuccessorSignatures r a b c = .ok m) :
    text m .recovery valueKey = [] := by
  have hother {keyId : JsString} {r m : Members} {slot : Slot} (h : prepareSlot slot keyId r = .ok m)
      (hne : .recovery ≠ slot) : block m .recovery = block r .recovery := by
    obtain ⟨r₁,h₁,h⟩ := Semp.bind_eq_ok.mp h
    obtain ⟨r₂,h₂,h₃⟩ := Semp.bind_eq_ok.mp h
    rw [setField_other h₃ hne,setField_other h₂ hne,setField_other h₁ hne]
  obtain ⟨r₁,h₁,h⟩ := Semp.bind_eq_ok.mp h
  obtain ⟨r₂,h₂,h₃⟩ := Semp.bind_eq_ok.mp h
  obtain ⟨r₃,-,h₁⟩ := Semp.bind_eq_ok.mp h₁
  obtain ⟨r₄,-,h₁⟩ := Semp.bind_eq_ok.mp h₁
  rw [text,hother h₃ (by decide),hother h₂ (by decide),← text]
  exact text_setField_self h₁

/-- What holds along a run: the record is as it was built, or a device-side signature is gone. -/
structure Stuck (values : JsString × JsString) (r : Members) : Prop where
  wf : (Json.obj r).WF
  stuck : deviceValues r = values ∧ text r .domain keyIdKey = [] ∧ text r .domain valueKey = [] ∨
    text r .recovery valueKey = []

theorem pass_eq_ok (hr : (Json.obj r).WF) {priv : Bytes} {keyId : JsString}
    (h : (signOneOfThree C host r slot priv keyId).map Prod.fst = .ok m) :
    keyId ≠ [] ∧ Well host r ∧ text r slot keyIdKey = keyId ∧
      ∃ sig, sign C priv (inputOf r) = .ok sig ∧
        m = setText r slot valueKey (Base64.encode sig) := by
  cases hp : signOneOfThree C host r slot priv keyId with
  | error e =>
    rw [hp] at h
    cases h
  | ok p =>
    rw [hp] at h
    obtain rfl := Except.ok.inj h
    obtain ⟨-,hid,hw,-,hown,sig,hsig,rfl⟩ := (signOneOfThree_eq_ok hr).mp hp
    exact ⟨hid,hw,hown,sig,hsig,rfl⟩

/-- A device-side pass that leaves both values as they are. -/
theorem Stuck.devicePass {values : JsString × JsString} (h : Stuck values r) (hslot : slot ≠ .domain)
    {priv : Bytes} {keyId : JsString}
    (hop : (signOneOfThree C host r slot priv keyId).map Prod.fst = .ok m)
    (hkept : deviceValues m = deviceValues r) : Stuck values m := by
  obtain ⟨-,hw,-,sig,hsig,rfl⟩ := pass_eq_ok h.wf hop
  refine ⟨wf_setText hw h.wf _ _ _,?_⟩
  obtain ⟨hvalues,hid,hvalue⟩ | hgone := h.stuck
  · refine .inl ⟨hkept.trans hvalues,?_,?_⟩
    · rw [text_setText_ne (.inl hslot.symm),hid]
    · rw [text_setText_ne (.inl hslot.symm),hvalue]
  · exact .inr ((congrArg Prod.fst hkept).trans hgone)

/-- One operation: the domain's pass needs a key id that only the preparation puts in. -/
theorem Stuck.step {values : JsString × JsString} (h : Stuck values r) {op : Op}
    (hop : op.apply C host r = .ok m) (hkept : op.deviceSide → deviceValues m = deviceValues r) :
    Stuck values m := by
  cases op with
  | prepare a b c => exact ⟨wf_prepared h.wf hop,.inr (text_prepared hop)⟩
  | signRecovery priv keyId => exact h.devicePass (by decide) hop (hkept trivial)
  | signNewKey priv keyId => exact h.devicePass (by decide) hop (hkept trivial)
  | signDomain priv keyId =>
    obtain ⟨hid,hw,hown,sig,hsig,rfl⟩ := pass_eq_ok h.wf hop
    refine ⟨wf_setText hw h.wf _ _ _,.inr ?_⟩
    obtain ⟨-,hblank,-⟩ | hgone := h.stuck
    · exact absurd (hown.symm.trans hblank) hid
    · rw [text_setText_ne (.inl (by decide)),hgone]

theorem Stuck.run {values : JsString × JsString} (h : Stuck values r) {ops : List Op}
    {final : Members} (hrun : ServerRun C host ops r final) : Stuck values final := by
  induction ops generalizing r with
  | nil =>
    obtain rfl := hrun
    exact h
  | cons op ops ih =>
    obtain ⟨m,hop,hkept,hrun⟩ := hrun
    exact ih (h.step hop hkept) hrun

end Steps
section Completion
variable {C : Crypto} {host : Host} {rt : Runtime} {clock : Number}
variable {input : CompromiseRotationInput} {c : CompromiseRotation} {suc : Members}

/-- No run from a record as it was built ends in one that is complete and has its device-side
signatures. -/
theorem HalfSigned.not_completed (h : HalfSigned C host input suc) {ops : List Op}
    {final : Members} (hrun : ServerRun C host ops suc final)
    (hkept : deviceValues final = deviceValues suc) (recoveryVerifyPub newKeyPub domainPub : Bytes) :
    verifySuccessorRecord C host final recoveryVerifyPub newKeyPub domainPub ≠ .ok true := by
  have hstuck : Stuck (deviceValues suc) final :=
    Stuck.run ⟨h.wf,.inl ⟨rfl,h.domainKeyId,h.domainValue⟩⟩ hrun
  intro haccepted
  obtain ⟨-,hvalues⟩ := (@verifySuccessorRecord_eq_ok C host _
    (Slot.pick recoveryVerifyPub newKeyPub domainPub) hstuck.wf).mp haccepted
  obtain ⟨-,-,hdomain⟩ | hgone := hstuck.stuck
  · exact (hvalues .domain).1 hdomain
  · exact h.recovery ((congrArg Prod.fst hkept).symm.trans hgone)

/-- A record with a key id for the domain is signed over other bytes. -/
theorem HalfSigned.signingBytes_ne (h : HalfSigned C host input suc) {r : Members}
    (hr : (Json.obj r).WF) (hvalid : validateSuccessorRecord host r true = .ok ())
    (hid : text r .domain keyIdKey ≠ []) :
    RecordKind.successorRecord.signingBytes r ≠ RecordKind.successorRecord.signingBytes suc := by
  have hw := (validate_eq_ok.mp hvalid).1
  rw [signingBytes_eq hw hr,signingBytes_eq h.well h.wf,Ne,Except.ok.injEq,
    inputOf_eq_iff hw h.well hr h.wf]
  intro hagree
  have hkey := hagree.blocks .domain keyIdKey (by decide)
  rw [hw.lookup_text .domain (by simp),h.well.lookup_text .domain (by simp),h.domainKeyId] at hkey
  exact hid (Json.str.inj (Option.some.inj hkey))

/-- Every bundle that is built with matching keys is accepted, and none can be completed: under
no keys is a record accepted to which a server comes that leaves the device-side signatures as
they are.  A record with a key id for the domain is not what the devices signed. -/
theorem rotation_not_completable (laws : SignLaws C)
    (hbuild : buildCompromiseRotation C host clock input = .ok c)
    {priorIdentityPub recoveryVerifyPub : Bytes}
    (hprior : publicKeyFromSeed C input.priorIdentitySeed = .ok priorIdentityPub)
    (hnew : publicKeyFromSeed C input.newIdentitySeed = .ok input.newIdentityPublicKey)
    (hrecovery : publicKeyFromSeed C input.recoverySeed = .ok recoveryVerifyPub) :
    verifyCompromiseRotation C host rt c priorIdentityPub recoveryVerifyPub = .ok () ∧
    ∃ suc, c.successor = some suc ∧
      (∀ ops final, ServerRun C host ops suc final → deviceValues final = deviceValues suc →
        ∀ p q domainPub, verifySuccessorRecord C host final p q domainPub ≠ .ok true) ∧
      ∀ r, (Json.obj r).WF → validateSuccessorRecord host r true = .ok () →
        text r .domain keyIdKey ≠ [] →
        RecordKind.successorRecord.signingBytes r ≠
          RecordKind.successorRecord.signingBytes suc := by
  obtain ⟨dev,suc,prior,-,rfl,hdev,hsuc,hpart,-,hhalf,-⟩ :=
    built rt laws hbuild hprior hnew hrecovery
  exact ⟨verify_eq_ok.mpr ⟨dev,suc,prior,rfl,rfl,rfl,hdev,hsuc,hpart⟩,suc,rfl,
    fun ops final hrun hkept => hhalf.not_completed hrun hkept,
    fun r hr hvalid hid => hhalf.signingBytes_ne hr hvalid hid⟩

theorem rotation_not_completable_sample :
    ∃ c, buildCompromiseRotation Sample.crypto sampleHost (.zero false) sampleInput = .ok c ∧
      verifyCompromiseRotation Sample.crypto sampleHost Sample.runtime c (List.replicate 32 1)
        (List.replicate 32 2) = .ok () := by
  obtain ⟨c,hc⟩ := sampleInput_built
  exact ⟨c,hc,(rotation_not_completable Sample.laws.sig hc (sample_key 1) (sample_key 3)
    (sample_key 2)).1⟩

/-- The rotation of the sample is not completed for any domain. -/
theorem completion_fails : ¬∀ (C : Crypto) (host : Host) (rt : Runtime) (clock : Number)
    (input : CompromiseRotationInput) (c : CompromiseRotation) (p q : Bytes), SignLaws C →
    buildCompromiseRotation C host clock input = .ok c →
    publicKeyFromSeed C input.priorIdentitySeed = .ok p →
    publicKeyFromSeed C input.newIdentitySeed = .ok input.newIdentityPublicKey →
    publicKeyFromSeed C input.recoverySeed = .ok q →
    verifyCompromiseRotation C host rt c p q = .ok () ∧
    ∀ domainSeed domainPub domainKeyId, publicKeyFromSeed C domainSeed = .ok domainPub →
      domainKeyId ≠ [] → ∃ suc ops final, c.successor = some suc ∧ ServerRun C host ops suc final ∧
        deviceValues final = deviceValues suc ∧ text final .domain keyIdKey = domainKeyId ∧
        verifySuccessorRecord C host final q input.newIdentityPublicKey domainPub = .ok true := by
  intro hclaim
  obtain ⟨c,hc⟩ := sampleInput_built
  obtain ⟨dev,suc,prior,-,rfl,-,-,-,-,hhalf,-⟩ := built Sample.runtime Sample.laws.sig hc
    (sample_key 1) (sample_key 3) (sample_key 2)
  obtain ⟨-,hcomplete⟩ := hclaim Sample.crypto sampleHost Sample.runtime (.zero false) sampleInput _
    _ _ Sample.laws.sig hc (sample_key 1) (sample_key 3) (sample_key 2)
  obtain ⟨suc',ops,final,hsuc,hrun,hkept,-,haccepted⟩ :=
    hcomplete _ _ (js "domain") (sample_key 4) (by decide)
  obtain rfl := Option.some.inj hsuc
  exact hhalf.not_completed hrun hkept _ _ _ haccepted

end Completion
end Compromise
end Semp
