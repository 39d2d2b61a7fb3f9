import Semp.SigningInput
import Semp.IdentityForms
import Semp.DeviceRecords
import Semp.Envelope

/-! Everything that is signed: the records signed over canonical JSON, most of them behind a
prefix of their own, and two byte strings that are put together by hand.  Prefix, form and
the document without its signatures can be read back from the bytes. -/
namespace Semp
open SignedDoc

/-- The signature slots of a migration record. -/
inductive SigField
  | oldIdentitySignature
  | newIdentitySignature
  | newDomainSignature
  | oldDomainSignature
deriving DecidableEq

def SigField.name : SigField → JsString
  | oldIdentitySignature => js "old_identity_signature"
  | newIdentitySignature => js "new_identity_signature"
  | newDomainSignature => js "new_domain_signature"
  | oldDomainSignature => js "old_domain_signature"

/-- The slots in the order they are signed. -/
def signatureFields : List SigField :=
  [.oldIdentitySignature,.newIdentitySignature,.newDomainSignature,.oldDomainSignature]

inductive RecordKind
  | accountClosure
  | userPolicy
  | deliveryReceipt
  | statusMessage
  | syncMessage
  | discoveryResponse
  | reputationReferences
  | enclosureSender
  | forwarderAttestation
  | transparencySTH
  | handshakeMessage
  | revocation
  | deviceCertificate
  | deviceRegistration
  | deviceRevocation
  | deviceDirectory
  | recoveryManifest
  | recoveryShare
  | recoveryBundle
  | successorRecord
  | migrationRecord (field : SigField)
  | envelope
  | observation
  | trustObservations
  | disclosureAuthorization
deriving DecidableEq

/-- `sig.value = ""` for the member `field` of a clone; `missing` is what happens without
such a member. -/
def blankValue (missing : Js Members) (field : JsString) (clone : Members) : Js Members :=
  match lookup clone field with
  | none => missing
  | some sig => do
    let sig ← setProp sig (js "value") (.str [])
    .ok (assign clone field sig)

/-- `canonicalRecordBytes` before the text is made. -/
def reputationView (clone : Members) : Js Members :=
  blankValue (raise (js "reputation: object has no signature block")) (js "signature") clone

/-- `canonicalSuccessorBytesElidingThreeSignatures` before the text is made. -/
def successorView (clone : Members) : Js Members := do
  let clone ← blankValue raiseType (js "recovery_signature") clone
  let clone ← blankValue raiseType (js "new_key_signature") clone
  blankValue raiseType (js "domain_signature") clone

def blankSlot (view : Members) (field : SigField) : Members :=
  match lookup view field.name with
  | some (.obj slot) => assign view field.name (.obj (assign slot (js "value") (.str [])))
  | _ => view

/-- The slot that is signed and those that are signed after it are blank. -/
def blankFromIndex (view : Members) (fromIndex : ℕ) : Members :=
  (signatureFields.drop fromIndex).foldl blankSlot view

/-- Which places of a record are blank while it is signed. -/
inductive Blanking
  | path (signaturePath : JsString)
  | successor
  | migration (field : SigField)
  | envelope
  | reputation

namespace RecordKind

/-- The prefix; the reputation records have none. -/
def domain : RecordKind → JsString
  | accountClosure => js "SEMP-ACCOUNT-CLOSURE:"
  | userPolicy => js "SEMP-USER-POLICY:"
  | deliveryReceipt => js "SEMP-DELIVERY-RECEIPT:"
  | statusMessage => js "SEMP-STATUS:"
  | syncMessage => js "SEMP-BLOCK:"
  | discoveryResponse => js "SEMP-DISCOVERY:"
  | reputationReferences => js "SEMP-REPUTATION-REFERENCES:"
  | enclosureSender => js "SEMP-ENCLOSURE-SENDER:"
  | forwarderAttestation => js "SEMP-FORWARDER-ATTESTATION:"
  | transparencySTH => TransparencyLog.transparencySTHPrefix
  | handshakeMessage => Handshake.handshakePrefix
  | revocation => js "SEMP-REVOCATION:"
  | deviceCertificate => js "SEMP-DEVICE-AUTHORIZE:"
  | deviceRegistration => js "SEMP-DEVICE-REGISTER:"
  | deviceRevocation => js "SEMP-DEVICE-REVOCATION:"
  | deviceDirectory => DeviceRecords.deviceDirectoryPrefix
  | recoveryManifest => js "SEMP-RECOVERY-MANIFEST:"
  | recoveryShare => js "SEMP-RECOVERY-SHARE:"
  | recoveryBundle => js "SEMP-RECOVERY-BUNDLE:"
  | successorRecord => js "SEMP-SUCCESSOR-RECORD:"
  | migrationRecord _ => js "SEMP-MIGRATION-RECORD:"
  | envelope => Envelope.envelopePrefix
  | observation => []
  | trustObservations => []
  | disclosureAuthorization => []

def blanking : RecordKind → Blanking
  | enclosureSender => .path (js "sender_signature.value")
  | forwarderAttestation => .path (js "forwarder_attestation.value")
  | handshakeMessage => .path (js "server_signature")
  | recoveryShare => .path (js "device_signature.value")
  | successorRecord => .successor
  | migrationRecord field => .migration field
  | envelope => .envelope
  | observation => .reputation
  | trustObservations => .reputation
  | disclosureAuthorization => .reputation
  | _ => .path (js "signature.value")

end RecordKind

/-- The bytes to sign of a record whose clone is blanked by `blank`. -/
def marshalView (domain : JsString) (blank : Members → Js Members) (m : Members) : Js Bytes := do
  let clone ← deepCloneJSON m
  let view ← blank clone
  let canonical ← Canonical.marshal (.obj view)
  .ok (utf8 domain++canonical)

/-- What is signed of a record. -/
def RecordKind.signingBytes (kind : RecordKind) (m : Members) : Js Bytes :=
  match kind.blanking with
  | .path signaturePath => signingInput kind.domain signaturePath m
  | .successor => marshalView kind.domain successorView m
  | .migration field => marshalView kind.domain
      (fun view => .ok (blankFromIndex view (signatureFields.idxOf field))) m
  | .envelope => do
    let canonical ← Envelope.canonicalEnvelopeFor (.obj m)
    .ok (utf8 kind.domain++canonical)
  | .reputation => marshalView kind.domain reputationView m

/-- What one device signs to let another one in. -/
structure DeviceAuthorization where
  deviceId : JsString
  devicePublicKey : JsString
  enrolledAt : JsString
  enrollNonce : Bytes
deriving DecidableEq

def DeviceAuthorization.authorizationCanonicalBytes (a : DeviceAuthorization) : Bytes :=
  utf8 a.deviceId++[0]++utf8 a.devicePublicKey++[0]++utf8 a.enrolledAt++[0]++a.enrollNonce

def deviceAuthorizeRecordPrefix : JsString := js "SEMP-DEVICE-AUTHORIZE:"

/-- Anything a key of the repository signs. -/
inductive Signed
  | record (kind : RecordKind) (doc : Members)
  | authorization (a : DeviceAuthorization)
  | identity (form : IdentityForm)

def Signed.bytes : Signed → Js Bytes
  | record kind doc => kind.signingBytes doc
  | authorization a => .ok (utf8 deviceAuthorizeRecordPrefix++a.authorizationCanonicalBytes)
  | identity form => .ok form.input

/-- The clone of a record with its signatures blanked. -/
def Blanking.blank : Blanking → Members → Js Members
  | path signaturePath,clone => setPath clone signaturePath []
  | successor,clone => successorView clone
  | migration field,clone => .ok (blankFromIndex clone (signatureFields.idxOf field))
  | envelope,clone =>
    match Envelope.envelopeElider (.obj clone) with
    | .obj view => .ok view
    | _ => raiseType
  | reputation,clone => reputationView clone

/-- The members that hold the signatures. -/
def Blanking.fields : Blanking → List JsString
  | path signaturePath => (splitDots signaturePath).take 1
  | successor => [js "recovery_signature",js "new_key_signature",js "domain_signature"]
  | migration _ => signatureFields.map SigField.name
  | envelope => [js "seal"]
  | reputation => [js "signature"]

/-- `v` is `c` but for some of the members `fields`. -/
structure Edit (fields : List JsString) (c v : Members) : Prop where
  wf : (Json.obj c).WF → (Json.obj v).WF
  same : ∀ key, key ∉ fields → lookup v key = lookup c key

section Views
variable {fields : List JsString} {field : JsString} {c v w m : Members}

theorem Edit.refl (fields : List JsString) (c : Members) : Edit fields c c := ⟨id,fun _ _ => rfl⟩

theorem Edit.trans (h : Edit fields c v) (h' : Edit fields v w) : Edit fields c w :=
  ⟨h'.wf ∘ h.wf,fun key hkey => (h'.same key hkey).trans (h.same key hkey)⟩

theorem Edit.assign {x : Json} (hfield : field ∈ fields) (hx : (Json.obj c).WF → x.WF) :
    Edit fields c (assign c field x) :=
  ⟨fun hc => Json.wf_assign hc (hx hc) field,
    fun _ hkey => lookup_assign_ne _ fun h => hkey (h ▸ hfield)⟩

theorem blankValue_edit {missing : Js Members} (hfield : field ∈ fields)
    (hmissing : ∀ v, missing ≠ .ok v) (h : blankValue missing field c = .ok v) :
    Edit fields c v := by
  unfold blankValue at h
  split at h
  · exact absurd h (hmissing v)
  · next sig hsig =>
    obtain ⟨x,hx,h⟩ := Semp.bind_eq_ok.mp h
    obtain rfl := Except.ok.inj h
    refine Edit.assign hfield fun hc => ?_
    have hsig := Json.wf_of_lookup hc hsig
    cases sig with
    | obj ms =>
      obtain rfl := Except.ok.inj hx
      exact Json.wf_assign hsig (Json.wf_str []) _
    | arr vs =>
      obtain rfl := Except.ok.inj hx
      exact hsig
    | _ => cases hx

theorem blankSlot_edit (field : SigField) :
    Edit (signatureFields.map SigField.name) c (blankSlot c field) := by
  have hfield : field.name ∈ signatureFields.map SigField.name :=
    List.mem_map_of_mem (by cases field <;> decide)
  unfold blankSlot
  split
  · next slot hslot =>
    exact Edit.assign hfield fun hc =>
      Json.wf_assign (Json.wf_of_lookup hc hslot) (Json.wf_str []) _
  · exact Edit.refl _ c

theorem blankFromIndex_edit (c : Members) (fromIndex : ℕ) :
    Edit (signatureFields.map SigField.name) c (blankFromIndex c fromIndex) := by
  unfold blankFromIndex
  induction signatureFields.drop fromIndex generalizing c with
  | nil => exact Edit.refl _ c
  | cons field fields ih => exact (blankSlot_edit field).trans (ih _)

theorem wf_blank (h : (Json.obj m).WF) (k : JsString) : (Json.obj (Envelope.blank k m)).WF := by
  unfold Envelope.blank
  split_ifs
  · exact Json.wf_assign h (Json.wf_str []) k
  · exact h

theorem envelope_edit (clone : Members) :
    ∃ view, Envelope.envelopeElider (.obj clone) = .obj view ∧ Edit [js "seal"] clone view := by
  unfold Envelope.envelopeElider
  split
  · next ms heq =>
    obtain rfl := Json.obj.inj heq
    split
    · next block hblock =>
      refine ⟨_,rfl,Edit.assign (by simp) fun hc => ?_⟩
      have hwf := Json.wf_of_lookup hc hblock
      exact wf_blank (wf_blank hwf _) _
    · exact ⟨_,rfl,Edit.refl _ _⟩
  · next h => exact absurd rfl (h clone)

/-- Blanking touches the members of the signatures only. -/
theorem Blanking.blank_edit {b : Blanking} (h : b.blank c = .ok v) : Edit b.fields c v := by
  cases b with
  | path p =>
    have hset : setParts p [] (splitDots p) c = .ok v := h
    refine ⟨setParts_wf hset,fun key hkey => ?_⟩
    rw [fields] at hkey
    cases hparts : splitDots p with
    | nil =>
      rw [hparts] at hset
      cases hset
    | cons part parts =>
      rw [hparts] at hset hkey
      exact lookup_setParts hset (by simpa using hkey)
  | successor =>
    obtain ⟨v₁,h₁,h⟩ := Semp.bind_eq_ok.mp h
    obtain ⟨v₂,h₂,h₃⟩ := Semp.bind_eq_ok.mp h
    have hmissing (v : Members) : (raiseType : Js Members) ≠ .ok v := nofun
    exact ((blankValue_edit (by simp [fields]) hmissing h₁).trans
      (blankValue_edit (by simp [fields]) hmissing h₂)).trans
      (blankValue_edit (by simp [fields]) hmissing h₃)
  | migration field =>
    obtain rfl := Except.ok.inj h
    exact blankFromIndex_edit c _
  | envelope =>
    obtain ⟨view,hview,hedit⟩ := envelope_edit c
    rw [blank,hview] at h
    exact Except.ok.inj h ▸ hedit
  | reputation =>
    exact blankValue_edit (by simp [fields]) (fun v hv => by cases hv) h

/-- An envelope is blanked on a clone, and not cloned again. -/
theorem reparse_envelopeElider (hc : (Json.obj c).reparse = .obj c) :
    (Envelope.envelopeElider (.obj c)).reparse = Envelope.envelopeElider (.obj c) := by
  have hobj (ns : Members) : (Json.obj ns).reparse = .obj (ns.map fun m => (m.1,m.2.reparse)) := by
    rw [Json.reparse,Json.reparseMembers_eq]
  have hassign {ms : Members} {k : JsString} {v : Json} (hm : (Json.obj ms).reparse = .obj ms)
      (hv : v.reparse = v) : (Json.obj (assign ms k v)).reparse = .obj (assign ms k v) := by
    rw [hobj] at hm ⊢
    rw [map_assign,Json.obj.inj hm,hv]
  have hblank {ms : Members} {k : JsString} (hm : (Json.obj ms).reparse = .obj ms) :
      (Json.obj (Envelope.blank k ms)).reparse = .obj (Envelope.blank k ms) := by
    unfold Envelope.blank
    split_ifs
    · exact hassign hm (Json.reparse_str [])
    · exact hm
  unfold Envelope.envelopeElider
  split
  · next ms heq =>
    obtain rfl := Json.obj.inj heq
    split
    · next block hblock =>
      refine hassign hc (hblank (hblank ?_))
      have hl := lookup_map Json.reparse c (js "seal")
      rw [Json.obj.inj ((hobj c).symm.trans hc),hblock] at hl
      exact (Option.some.inj hl).symm
    · exact hc
  · next h => exact absurd rfl (h c)

/-- The bytes are the prefix before the canonical form of the blanked clone. -/
theorem RecordKind.signingBytes_eq (kind : RecordKind) (hm : (Json.obj m).WF) :
    kind.signingBytes m = (do
      let view ← kind.blanking.blank (m.map fun e => (e.1,e.2.reparse))
      .ok (utf8 kind.domain++Canonical.canonicalBytes (.obj view))) := by
  have hclone := wf_clone hm
  have hview (blank : Members → Js Members) (hwf : ∀ v, blank (m.map fun e => (e.1,e.2.reparse)) =
      .ok v → (Json.obj v).WF) : marshalView kind.domain blank m = (do
        let view ← blank (m.map fun e => (e.1,e.2.reparse))
        .ok (utf8 kind.domain++Canonical.canonicalBytes (.obj view))) := by
    rw [marshalView,deepCloneJSON_eq hm,ok_bind]
    cases hb : blank (m.map fun e => (e.1,e.2.reparse)) with
    | error e => rfl
    | ok v => rw [ok_bind,ok_bind,Canonical.marshal_eq (hwf v hb),ok_bind]
  unfold signingBytes
  cases hb : kind.blanking with
  | path p =>
    exact hview (fun clone => setPath clone p [])
      fun v hv => (Blanking.blank_edit (b := .path p) hv).wf hclone
  | successor =>
    exact hview successorView fun v hv => (Blanking.blank_edit (b := .successor) hv).wf hclone
  | migration field =>
    exact hview (fun clone => .ok (blankFromIndex clone (signatureFields.idxOf field)))
      fun v hv => (Blanking.blank_edit (b := .migration field) hv).wf hclone
  | reputation =>
    exact hview reputationView fun v hv => (Blanking.blank_edit (b := .reputation) hv).wf hclone
  | envelope =>
    have hreparse := Json.reparse_reparse (Json.obj m)
    have hobj : (Json.obj m).reparse = .obj (m.map fun e => (e.1,e.2.reparse)) := by
      rw [Json.reparse,Json.reparseMembers_eq]
    rw [hobj] at hreparse
    obtain ⟨view,hview,-⟩ := envelope_edit (m.map fun e => (e.1,e.2.reparse))
    have hbytes : Envelope.envelopeBytes (.obj m) = Canonical.canonicalBytes (.obj view) := by
      have hsame := reparse_envelopeElider hreparse
      rw [hview] at hsame
      rw [Envelope.envelopeBytes,hobj,hview,Canonical.canonicalBytes,Canonical.canonicalText,
        Json.norm,hsame]
    have hblank : Blanking.envelope.blank (m.map fun e => (e.1,e.2.reparse)) = .ok view := by
      rw [Blanking.blank,hview]
    rw [hblank,ok_bind,← hbytes]
    dsimp only
    rw [Envelope.canonicalEnvelopeFor_eq hm,ok_bind]

end Views

/-- Where the first `c` stands the bytes can be cut. -/
theorem append_cons_inj {α : Type} {c : α} {x y r s : List α} (hx : c ∉ x) (hy : c ∉ y)
    (h : x++c::r = y++c::s) : x = y ∧ r = s := by
  induction x generalizing y with
  | nil =>
    cases y with
    | nil => exact ⟨rfl,(List.cons.inj h).2⟩
    | cons b y => exact absurd ((List.cons.inj h).1 ▸ List.mem_cons_self) hy
  | cons a x ih =>
    cases y with
    | nil => exact absurd ((List.cons.inj h).1 ▸ List.mem_cons_self) hx
    | cons b y =>
      obtain ⟨rfl,htail⟩ := List.cons.inj h
      obtain ⟨rfl,rfl⟩ := ih (fun hc => hx (List.mem_cons_of_mem _ hc))
        (fun hc => hy (List.mem_cons_of_mem _ hc)) htail
      exact ⟨rfl,rfl⟩

section Separation

/-- A prefix has no brace, no NUL, and is not the start of the one for identities. -/
theorem RecordKind.domain_spec (kind : RecordKind) :
    Utf8.isWellFormed kind.domain ∧ (123 : UInt8) ∉ utf8 kind.domain ∧
      (0 : UInt8) ∉ utf8 kind.domain ∧
      ¬utf8 Handshake.identityPrefix <+: utf8 kind.domain := by
  cases kind with
  | migrationRecord field => cases field <;> decide +kernel
  | _ => decide +kernel

theorem zero_notMem_canonicalBytes (v : Json) : (0 : UInt8) ∉ Canonical.canonicalBytes v :=
  fun h => Utf8.textEncode_ne_zero (JsonText.stringify_ne_zero v.norm) 0 h rfl

/-- No string of the authorization has a NUL, which is what the separator relies on. -/
def DeviceAuthorization.NulFree (a : DeviceAuthorization) : Prop :=
  ∀ s ∈ [a.deviceId,a.devicePublicKey,a.enrolledAt], ∀ u ∈ s, u ≠ 0

/-- What two signed things of the same bytes have in common. -/
def Signed.Agrees : Signed → Signed → Prop
  | record k m,record l n => k.domain = l.domain ∧
      (∃ v w, k.blanking.blank (m.map fun e => (e.1,e.2.reparse)) = .ok v ∧
        l.blanking.blank (n.map fun e => (e.1,e.2.reparse)) = .ok w ∧
        (Json.obj v).norm = (Json.obj w).norm) ∧
      ∀ key, key ∉ k.blanking.fields → key ∉ l.blanking.fields →
        (lookup m key).map Json.norm = (lookup n key).map Json.norm
  | authorization a,authorization b => a.NulFree → b.NulFree →
      utf8 a.deviceId = utf8 b.deviceId ∧ utf8 a.devicePublicKey = utf8 b.devicePublicKey ∧
        utf8 a.enrolledAt = utf8 b.enrolledAt ∧ a.enrollNonce = b.enrollNonce
  | identity p,identity q => p.body = q.body
  | _,_ => False

/-- A document is a value that `JSON.parse` gives. -/
def Signed.WF : Signed → Prop
  | record _ m => (Json.obj m).WF
  | _ => True

variable {x y : Signed} {k l : RecordKind} {m n : Members} {bytes : Bytes}

theorem RecordKind.signingBytes_ok (hm : (Json.obj m).WF) (h : k.signingBytes m = .ok bytes) :
    ∃ v rest, k.blanking.blank (m.map fun e => (e.1,e.2.reparse)) = .ok v ∧ (Json.obj v).WF ∧
      bytes = utf8 k.domain++Canonical.canonicalBytes (.obj v) ∧
      Canonical.canonicalBytes (.obj v) = 123::rest := by
  rw [signingBytes_eq k hm] at h
  obtain ⟨v,hv,h⟩ := Semp.bind_eq_ok.mp h
  obtain ⟨rest,hrest⟩ := Canonical.canonicalBytes_obj v
  exact ⟨v,rest,hv,(Blanking.blank_edit hv).wf (wf_clone hm),(Except.ok.inj h).symm,hrest⟩

theorem record_agrees (hm : (Json.obj m).WF) (hn : (Json.obj n).WF)
    (hx : k.signingBytes m = .ok bytes) (hy : l.signingBytes n = .ok bytes) :
    (Signed.record k m).Agrees (.record l n) := by
  obtain ⟨v,rest,hv,hwf,rfl,hrest⟩ := RecordKind.signingBytes_ok hm hx
  obtain ⟨w,rest',hw,hwf',heq,hrest'⟩ := RecordKind.signingBytes_ok hn hy
  rw [hrest,hrest'] at heq
  obtain ⟨hdomain,rfl⟩ := append_cons_inj k.domain_spec.2.1 l.domain_spec.2.1 heq
  have hnorm := (Canonical.canonicalBytes_inj hwf hwf').mp (hrest.trans hrest'.symm)
  refine ⟨Utf8.textEncode_injOn k.domain_spec.1 l.domain_spec.1 hdomain,⟨v,w,hv,hw,hnorm⟩,
    fun key hk hl => ?_⟩
  have hkey := (Json.norm_obj_eq_iff hwf hwf').mp hnorm key
  rwa [(Blanking.blank_edit hv).same key hk,(Blanking.blank_edit hw).same key hl,
    lookup_clone_norm,lookup_clone_norm] at hkey

theorem zero_notMem_signingBytes (hm : (Json.obj m).WF) (h : k.signingBytes m = .ok bytes) :
    (0 : UInt8) ∉ bytes := by
  obtain ⟨v,-,-,-,rfl,-⟩ := RecordKind.signingBytes_ok hm h
  exact fun hmem => (List.mem_append.mp hmem).elim k.domain_spec.2.2.1
    (zero_notMem_canonicalBytes _)

theorem signingBytes_ne_identity (hm : (Json.obj m).WF) (h : k.signingBytes m = .ok bytes)
    (p : IdentityForm) : bytes ≠ p.input := by
  obtain ⟨v,rest,-,-,rfl,hrest⟩ := RecordKind.signingBytes_ok hm h
  intro heq
  refine k.domain_spec.2.2.2 ?_
  rw [hrest,IdentityForm.input] at heq
  rcases List.append_eq_append_iff.mp heq with ⟨z,hz,hz'⟩ | ⟨z,hz,-⟩
  · cases z with
    | nil => exact ⟨[],by rw [hz,List.append_nil,List.append_nil]⟩
    | cons b z =>
      obtain ⟨rfl,-⟩ := List.cons.inj hz'
      exact absurd (hz ▸ List.mem_append_right _ List.mem_cons_self : (123 : UInt8) ∈
        utf8 Handshake.identityPrefix) (by decide)
  · exact ⟨z,hz.symm⟩

theorem authorization_ne_identity (a : DeviceAuthorization) (p : IdentityForm) :
    utf8 deviceAuthorizeRecordPrefix++a.authorizationCanonicalBytes ≠ p.input := by
  intro h
  have hlen : (utf8 Handshake.identityPrefix).length ≤ (utf8 deviceAuthorizeRecordPrefix).length :=
    by decide
  have htake := congrArg (List.take (utf8 Handshake.identityPrefix).length) h
  rw [IdentityForm.input,List.take_append_of_le_length hlen,List.take_left] at htake
  exact absurd htake (by decide)

theorem authorization_agrees {a b : DeviceAuthorization}
    (h : a.authorizationCanonicalBytes = b.authorizationCanonicalBytes) (ha : a.NulFree)
    (hb : b.NulFree) :
    utf8 a.deviceId = utf8 b.deviceId ∧ utf8 a.devicePublicKey = utf8 b.devicePublicKey ∧
      utf8 a.enrolledAt = utf8 b.enrolledAt ∧ a.enrollNonce = b.enrollNonce := by
  have hzero {s : JsString} (hs : ∀ u ∈ s, u ≠ 0) : (0 : UInt8) ∉ utf8 s :=
    fun hmem => Utf8.textEncode_ne_zero hs 0 hmem rfl
  simp only [DeviceAuthorization.authorizationCanonicalBytes,List.append_assoc,
    List.singleton_append] at h
  obtain ⟨hid,h⟩ := append_cons_inj (hzero (ha _ (by simp))) (hzero (hb _ (by simp))) h
  obtain ⟨hkey,h⟩ := append_cons_inj (hzero (ha _ (by simp))) (hzero (hb _ (by simp))) h
  obtain ⟨hat,hnonce⟩ := append_cons_inj (hzero (ha _ (by simp))) (hzero (hb _ (by simp))) h
  exact ⟨hid,hkey,hat,hnonce⟩

/-- Whatever is signed over the same bytes agrees: the prefix and the form, the documents but
for their signatures, and the parts of an authorization. -/
theorem signed_agrees (hx : x.WF) (hy : y.WF) (hbx : x.bytes = .ok bytes)
    (hby : y.bytes = .ok bytes) : x.Agrees y := by
  cases x with
  | record k m =>
    cases y with
    | record l n => exact record_agrees hx hy hbx hby
    | authorization b =>
      refine zero_notMem_signingBytes hx hbx ?_
      rw [← Except.ok.inj hby]
      simp [DeviceAuthorization.authorizationCanonicalBytes]
    | identity q => exact signingBytes_ne_identity hx hbx q (Except.ok.inj hby).symm
  | authorization a =>
    cases y with
    | record l n =>
      refine zero_notMem_signingBytes hy hby ?_
      rw [← Except.ok.inj hbx]
      simp [DeviceAuthorization.authorizationCanonicalBytes]
    | authorization b =>
      have h := (Except.ok.inj hbx).trans (Except.ok.inj hby).symm
      exact authorization_agrees (List.append_cancel_left h)
    | identity q =>
      exact authorization_ne_identity a q ((Except.ok.inj hbx).trans (Except.ok.inj hby).symm)
  | identity p =>
    cases y with
    | record l n => exact signingBytes_ne_identity hy hby p (Except.ok.inj hbx).symm
    | authorization b =>
      exact authorization_ne_identity b p ((Except.ok.inj hby).trans (Except.ok.inj hbx).symm)
    | identity q =>
      have h := (Except.ok.inj hbx).trans (Except.ok.inj hby).symm
      exact IdentityForm.input_inj.mp h

/-- A record with only the signature in another state. -/
def closureRecord (value : JsString) : Members :=
  [(js "type",.str (js "SEMP_ACCOUNT_CLOSURE")),
    (js "signature",.obj [(js "key_id",.str (js "k1")),(js "value",.str value)])]

theorem signed_agrees_sample :
    (Signed.record .accountClosure (closureRecord [])).Agrees
      (.record .accountClosure (closureRecord (js "c2ln"))) := by
  have hwf (value : JsString) : (Json.obj (closureRecord value)).WF := by
    simp [closureRecord,Json.wf_obj,keys,js]
  have hbytes (value : JsString) :
      (Signed.record .accountClosure (closureRecord value)).bytes = .ok
        (utf8 RecordKind.accountClosure.domain++
          Canonical.canonicalBytes (.obj (closureRecord []))) := by
    rw [Signed.bytes,RecordKind.signingBytes_eq _ (hwf value)]
    rfl
  exact signed_agrees (hwf []) (hwf (js "c2ln")) (hbytes []) (hbytes (js "c2ln"))

/-- The kinds of what is signed. -/
inductive SignedKind
  | record (kind : RecordKind)
  | authorization
  | identity
deriving DecidableEq

def Signed.kind : Signed → SignedKind
  | record kind _ => .record kind
  | authorization _ => .authorization
  | identity _ => .identity

/-- An answer with the observations of a server that has the members of a disclosure
authorization, too. -/
def observationsAnswer : Members :=
  [(js "type",.str (js "SEMP_TRUST_OBSERVATIONS")),(js "version",.str (js "1.0.0")),
    (js "observer",.str (js "a.example")),(js "subject",.str (js "b.example")),
    (js "observations",.arr []),(js "timestamp",.str (js "2026-01-01T00:00:00Z")),
    (js "user",.str (js "alice@a.example")),
    (js "authorized_at",.str (js "2026-01-01T00:00:00Z")),(js "scope",.str (js "brief_only")),
    (js "signature",.obj [(js "algorithm",.str (js "ed25519")),(js "key_id",.str (js "k1")),
      (js "value",.str [])])]

/-- Without a prefix a record is signed as a record of another kind. -/
theorem kinds_not_separated : ¬∀ (x y : Signed) (bytes : Bytes), x.WF → y.WF →
    x.bytes = .ok bytes → y.bytes = .ok bytes → x.kind = y.kind := by
  intro h
  have hwf : (Json.obj observationsAnswer).WF := by
    simp [observationsAnswer,Json.wf_obj,Json.wf_arr,keys,js]
  have hbytes : RecordKind.trustObservations.signingBytes observationsAnswer = .ok
      (utf8 []++Canonical.canonicalBytes (.obj observationsAnswer)) := by
    rw [RecordKind.signingBytes_eq _ hwf]
    rfl
  have hkind := h (.record .trustObservations observationsAnswer)
    (.record .disclosureAuthorization observationsAnswer) _ hwf hwf hbytes hbytes
  exact absurd hkind (by decide)

end Separation

/-- The federation handshake signs its messages over the bytes of a handshake message. -/
theorem signServerMessage_eq (C : Crypto) (msg : Members) (seed : Bytes) :
    Federation.signServerMessage C msg seed = (do
      let input ← RecordKind.handshakeMessage.signingBytes msg
      let sig ← sign C seed input
      .ok (Base64.encode sig)) := by
  have hsplit : splitDots (js "server_signature") = [js "server_signature"] := by decide
  rw [Federation.signServerMessage,RecordKind.signingBytes,RecordKind.blanking]
  dsimp only
  rw [signingInput]
  cases deepCloneJSON msg with
  | error e => rfl
  | ok clone =>
    have hset : setPath clone (js "server_signature") [] =
        .ok (assign clone (js "server_signature") (.str [])) := by
      rw [setPath,hsplit,setParts]
    rw [ok_bind,ok_bind,hset,ok_bind]
    cases Canonical.marshal (.obj (assign clone (js "server_signature") (.str []))) with
    | error e => rfl
    | ok canonical => rfl

end Semp
