import Semp.SigningKinds
import Semp.PolicyState

/-! Forwarded enclosures.  The original enclosure is signed, the block around it is signed with
that signature in place, and the new enclosure is signed with both in place. -/
namespace Semp
namespace Forwarding
open SignedDoc TransparencyLog

/-- What is missing is `undefined`. -/
structure InnerEnclosurePlaintext where
  subject : JsString
  content_type : JsString
  body : JsonValue
  attachments : Option JsonValue
  extensions : Option JsonValue
  forwarded_from : Option JsonValue

structure OuterEnclosurePlaintext where
  subject : JsString
  content_type : JsString
  body : JsonValue
  attachments : Option JsonValue
  extensions : Option JsonValue

structure OriginalEnvelopeRef where
  original_seal : JsonValue
  original_postmark : JsonValue
  original_sender_address : JsString

structure ComposeForwardedInput where
  innerSenderSeed : Bytes
  innerSenderKeyId : JsString
  innerEnclosurePlaintext : InnerEnclosurePlaintext
  forwarderSeed : Bytes
  forwarderKeyId : JsString
  outerEnclosurePlaintext : OuterEnclosurePlaintext
  originalEnvelope : OriginalEnvelopeRef
  receivedAt : JsString

def senderSignature : JsString := js "sender_signature"
def senderPath : JsString := js "sender_signature.value"
def forwarderAttestation : JsString := js "forwarder_attestation"
def attestationPath : JsString := js "forwarder_attestation.value"
def forwardedFrom : JsString := js "forwarded_from"
def originalEnclosure : JsString := js "original_enclosure_plaintext"
def enclosurePrefix : JsString := RecordKind.enclosureSender.domain
def attestationPrefix : JsString := RecordKind.forwarderAttestation.domain

/-- `v ?? fallback` -/
def given (v : Option JsonValue) (fallback : Json) : Json := orElse (v.map Subtype.val) fallback

/-- An enclosure before its sender signs it. -/
def enclosurePreSign (subject contentType : JsString) (body attachments forwarded extensions : Json)
    (keyId : JsString) : Members :=
  [(js "subject",.str subject),(js "content_type",.str contentType),(js "body",body),
    (js "attachments",attachments),(forwardedFrom,forwarded),(js "extensions",extensions),
    (senderSignature,signatureBlock signatureAlgorithmEd25519 keyId [])]

def innerPreSign (input : ComposeForwardedInput) : Members :=
  let inner := input.innerEnclosurePlaintext
  enclosurePreSign inner.subject inner.content_type inner.body (given inner.attachments (.arr []))
    (given inner.forwarded_from .null) (given inner.extensions (.obj [])) input.innerSenderKeyId

def forwardedFromPreSign (input : ComposeForwardedInput) (innerSigned : Members) : Members :=
  [(originalEnclosure,.obj innerSigned),
    (js "original_seal",input.originalEnvelope.original_seal),
    (js "original_postmark",input.originalEnvelope.original_postmark),
    (js "original_sender_address",.str input.originalEnvelope.original_sender_address),
    (js "received_at",.str input.receivedAt),
    (forwarderAttestation,signatureBlock signatureAlgorithmEd25519 input.forwarderKeyId [])]

def outerPreSign (input : ComposeForwardedInput) (fromSigned : Members) : Members :=
  let outer := input.outerEnclosurePlaintext
  enclosurePreSign outer.subject outer.content_type outer.body (given outer.attachments (.arr []))
    (.obj fromSigned) (given outer.extensions (.obj [])) input.forwarderKeyId

/-- The key id must be the fingerprint of the key of the seed. -/
def checkKeyId (C : Crypto) (seed : Bytes) (name keyId : JsString) : Js Unit := do
  let pub ← publicKeyFromSeed C seed
  let actual ← fingerprint C pub
  if actual ≠ keyId then
    raise (js "composeForwarded: "++name++js " "++keyId++js " does not match seed-derived "++actual)
  else .ok ()

def composeForwarded (C : Crypto) (input : ComposeForwardedInput) : Js Members := do
  let innerSigned ← signSignedDoc C
    ⟨innerPreSign input,input.innerSenderSeed,senderPath,enclosurePrefix⟩
  checkKeyId C input.innerSenderSeed (js "innerSenderKeyId") input.innerSenderKeyId
  let fromSigned ← signSignedDoc C ⟨forwardedFromPreSign input innerSigned.signedJSON,
    input.forwarderSeed,attestationPath,attestationPrefix⟩
  checkKeyId C input.forwarderSeed (js "forwarderKeyId") input.forwarderKeyId
  let outerSigned ← signSignedDoc C ⟨outerPreSign input fromSigned.signedJSON,
    input.forwarderSeed,senderPath,enclosurePrefix⟩
  .ok outerSigned.signedJSON

section Forms
variable {m : Members}

theorem wf_given (v : Option JsonValue) {fallback : Json} (h : fallback.WF) :
    (given v fallback).WF := by
  obtain _ | ⟨v,hv⟩ := v
  · exact h
  · cases v with
    | null => exact h
    | bool b => exact hv
    | num x => exact hv
    | str s => exact hv
    | arr vs => exact hv
    | obj ms => exact hv

theorem wf_enclosurePreSign {subject contentType keyId : JsString}
    {body attachments forwarded extensions : Json} (hbody : body.WF) (hattachments : attachments.WF)
    (hforwarded : forwarded.WF) (hextensions : extensions.WF) :
    (Json.obj (enclosurePreSign subject contentType body attachments forwarded extensions
      keyId)).WF := by
  refine Json.wf_obj.mpr ⟨by simp only [enclosurePreSign,keys,List.map]; decide,?_⟩
  simp only [enclosurePreSign,List.forall_mem_cons,List.not_mem_nil,false_imp_iff,implies_true,
    and_true]
  exact ⟨Json.wf_str _,Json.wf_str _,hbody,hattachments,hforwarded,hextensions,
    signatureBlock_wf _ _ _⟩

theorem wf_noItems : (Json.arr []).WF := Json.wf_arr.mpr nofun

theorem wf_innerPreSign (input : ComposeForwardedInput) : (Json.obj (innerPreSign input)).WF :=
  wf_enclosurePreSign input.innerEnclosurePlaintext.body.2 (wf_given _ wf_noItems)
    (wf_given _ trivial) (wf_given _ Json.wf_empty)

theorem wf_forwardedFromPreSign (input : ComposeForwardedInput) (hm : (Json.obj m).WF) :
    (Json.obj (forwardedFromPreSign input m)).WF := by
  refine Json.wf_obj.mpr ⟨by simp only [forwardedFromPreSign,keys,List.map]; decide,?_⟩
  simp only [forwardedFromPreSign,List.forall_mem_cons,List.not_mem_nil,false_imp_iff,
    implies_true,and_true]
  exact ⟨hm,input.originalEnvelope.original_seal.2,input.originalEnvelope.original_postmark.2,
    Json.wf_str _,Json.wf_str _,signatureBlock_wf _ _ _⟩

theorem wf_outerPreSign (input : ComposeForwardedInput) (hm : (Json.obj m).WF) :
    (Json.obj (outerPreSign input m)).WF :=
  wf_enclosurePreSign input.outerEnclosurePlaintext.body.2 (wf_given _ wf_noItems) hm
    (wf_given _ Json.wf_empty)

end Forms

/-- The signature at the path of the document verifies. -/
def Verifies (C : Crypto) (pk : Bytes) (path domain : JsString) (m : Members) : Prop :=
  ∃ bytes, verifySignedDoc C ⟨m,pk,path,domain⟩ = .ok ⟨true,bytes⟩

/-- The layers below a forwarded enclosure. -/
structure Layers (outer forwarded inner : Members) : Prop where
  attested : lookup outer forwardedFrom = some (.obj forwarded)
  original : lookup forwarded originalEnclosure = some (.obj inner)

section Layer
variable {C : Crypto} {pk seed : Bytes} {path domain k : JsString} {m n : Members}

/-- What can be signed at a path of two segments has an object there. -/
theorem reaches_of_signingInput (hm : (Json.obj m).WF) (hsplit : splitDots path = [k,js "value"])
    (hk : k ≠ []) {bytes : Bytes} (h : signingInput domain path m = .ok bytes) :
    Reaches (splitDots path) m := by
  rw [signingInput,deepCloneJSON_eq hm,ok_bind] at h
  obtain ⟨blank,hblank,-⟩ := Semp.bind_eq_ok.mp h
  rw [setPath,hsplit] at hblank
  obtain ⟨next,-,hnext,-,-⟩ := (setParts_cons (by simp)).mp hblank
  obtain ⟨next',hnext',-⟩ := lookup_clone_obj.mp hnext
  rw [hsplit]
  exact ⟨hk,next',hnext',by decide,fun h => absurd h (by decide)⟩

/-- Where one of two documents verifies, they have one signing input exactly when they agree
outside the path. -/
theorem Verifies.signingInput_eq_iff (h : Verifies C pk path domain m) (hm : (Json.obj m).WF)
    (hn : (Json.obj n).WF) (hsplit : splitDots path = [k,js "value"]) (hk : k ≠ []) :
    signingInput domain path n = signingInput domain path m ↔
      AgreeOutside [k,js "value"] m n := by
  obtain ⟨bytes,hbytes⟩ := h
  obtain ⟨hpm,hinput,-⟩ := verifySignedDoc_signingInput hm hbytes
  rw [eq_comm,← hsplit]
  by_cases hpn : Reaches (splitDots path) n
  · exact SignedDoc.signingInput_eq_iff domain hm hn hpm hpn
  · refine iff_of_false (fun h => hpn ?_) fun h => hpn ?_
    · exact reaches_of_signingInput hn hsplit hk (h.symm.trans hinput)
    · rw [hsplit] at h ⊢
      obtain ⟨-,-,next,-,hnext,-⟩ := h
      exact ⟨hk,next,hnext,by decide,fun h => absurd h (by decide)⟩

/-- One layer that is signed: what else is in the document stays, and the signature verifies in
every document of that normal form. -/
theorem signed_layer (laws : SignLaws C) (hpk : publicKeyFromSeed C seed = .ok pk)
    (hm : (Json.obj m).WF) (hsplit : splitDots path = [k,js "value"]) (hk : k ≠ []) {b : Members}
    (hb : lookup m k = some (.obj b)) (domain : JsString) :
    ∃ r, signSignedDoc C ⟨m,seed,path,domain⟩ = .ok r ∧ (Json.obj r.signedJSON).WF ∧
      (∀ f, f ≠ k → (lookup r.signedJSON f).map Json.norm = (lookup m f).map Json.norm) ∧
      ∀ received, (Json.obj received).WF →
        (Json.obj received).norm = (Json.obj r.signedJSON).norm →
          Verifies C pk path domain received := by
  have hp : Reaches (splitDots path) m := by
    rw [hsplit]
    exact ⟨hk,b,hb,by decide,fun h => absurd h (by decide)⟩
  obtain ⟨blank,hblank,-,-⟩ := signingInput_eq domain hm hp
  obtain ⟨r,hr⟩ := signSignedDoc_ok laws (s := ⟨m,seed,path,domain⟩) hm
    (publicKeyFromSeed_eq_ok.mp hpk).1 hblank
  obtain ⟨-,-,-,-,-,-,hsigned⟩ := signSignedDoc_eq_ok hr hm
  have hwf := setParts_wf hsigned (wf_clone hm)
  have hverify := verifySignedDoc_signSignedDoc laws hr hm hp.segments hpk
  refine ⟨r,hr,hwf,fun f hf => ?_,fun received hreceived hnorm =>
    ⟨_,verifySignedDoc_congr hreceived hwf hnorm hverify⟩⟩
  rw [setPath,hsplit] at hsigned
  rw [lookup_setParts hsigned hf,lookup_clone_norm]

/-- A member that is an object in one of two documents of one normal form. -/
theorem exists_member (hm : (Json.obj m).WF) (hn : (Json.obj n).WF)
    (h : (Json.obj m).norm = (Json.obj n).norm) {f : JsString} {o : Members}
    (ho : lookup n f = some (.obj o)) :
    ∃ o', lookup m f = some (.obj o') ∧ (Json.obj o').WF ∧
      (Json.obj o').norm = (Json.obj o).norm := by
  have hf := (Json.norm_obj_eq_iff hm hn).mp h f
  rw [ho,Option.map_some,Option.map_eq_some_iff] at hf
  obtain ⟨v,hv,hnorm⟩ := hf
  obtain ⟨o',rfl⟩ := Json.norm_eq_obj hnorm
  exact ⟨o',hv,Json.wf_of_lookup hm hv,hnorm⟩

theorem norm_member_eq {m' : Members} {f : JsString} {o o' : Members}
    (ho : lookup m f = some (.obj o)) (ho' : lookup m' f = some (.obj o')) (hf : f ≠ k)
    (h : AgreeOutside [k,js "value"] m m') : (Json.obj o).norm = (Json.obj o').norm := by
  have hnorm := h.1 f hf
  rw [ho,ho'] at hnorm
  exact Option.some.inj hnorm

end Layer
section Compose
variable {C : Crypto} {input : ComposeForwardedInput} {innerPub forwarderPub : Bytes}

theorem checkKeyId_ok {seed pub : Bytes} {name keyId : JsString}
    (hpub : publicKeyFromSeed C seed = .ok pub) (hid : fingerprint C pub = .ok keyId) :
    checkKeyId C seed name keyId = .ok () := by
  rw [checkKeyId,hpub,ok_bind,hid,ok_bind,if_neg (not_not.mpr rfl)]

theorem splitDots_senderPath : splitDots senderPath = [senderSignature,js "value"] := by decide

theorem splitDots_attestationPath :
    splitDots attestationPath = [forwarderAttestation,js "value"] := by decide

/-- All three signatures of a forwarded enclosure verify, as it is and after it was serialized and
parsed.  A document has the bytes of the attestation or of the outer signature only if it agrees
outside the value of that signature, so that no layer below is other than it was; and its own
bytes are what its signature is verified over. -/
theorem composeForwarded_layers (laws : SignLaws C)
    (hinner : publicKeyFromSeed C input.innerSenderSeed = .ok innerPub)
    (hforwarder : publicKeyFromSeed C input.forwarderSeed = .ok forwarderPub)
    (hinnerId : fingerprint C innerPub = .ok input.innerSenderKeyId)
    (hforwarderId : fingerprint C forwarderPub = .ok input.forwarderKeyId) :
    ∃ enclosure forwarded inner, composeForwarded C input = .ok enclosure ∧
      (Json.obj enclosure).WF ∧ Layers enclosure forwarded inner ∧
      (∀ received, (Json.obj received).WF →
        (Json.obj received).norm = (Json.obj enclosure).norm →
          ∃ forwarded inner, Layers received forwarded inner ∧
            Verifies C innerPub senderPath enclosurePrefix inner ∧
            Verifies C forwarderPub attestationPath attestationPrefix forwarded ∧
            Verifies C forwarderPub senderPath enclosurePrefix received) ∧
      (∀ altered, (Json.obj altered).WF →
        (signingInput attestationPrefix attestationPath altered =
            signingInput attestationPrefix attestationPath forwarded ↔
          AgreeOutside [forwarderAttestation,js "value"] forwarded altered)) ∧
      (∀ altered, (Json.obj altered).WF →
        (signingInput enclosurePrefix senderPath altered =
            signingInput enclosurePrefix senderPath enclosure ↔
          AgreeOutside [senderSignature,js "value"] enclosure altered)) ∧
      (∀ altered forwarded' inner', (Json.obj altered).WF → Layers altered forwarded' inner' →
        ((Json.obj inner).norm ≠ (Json.obj inner').norm →
          signingInput attestationPrefix attestationPath forwarded' ≠
              signingInput attestationPrefix attestationPath forwarded ∧
            signingInput enclosurePrefix senderPath altered ≠
              signingInput enclosurePrefix senderPath enclosure) ∧
        ((Json.obj forwarded).norm ≠ (Json.obj forwarded').norm →
          signingInput enclosurePrefix senderPath altered ≠
            signingInput enclosurePrefix senderPath enclosure)) ∧
      ∀ m pk path domain bytes, (Json.obj m).WF →
        verifySignedDoc C ⟨m,pk,path,domain⟩ = .ok ⟨true,bytes⟩ →
          signingInput domain path m = .ok (utf8 domain++bytes) ∧
            ∃ sig, C.ed25519Verify sig (utf8 domain++bytes) pk = .ok true := by
  -- The three layers as they are signed.
  obtain ⟨r₁,hr₁,hwf₁,-,hverify₁⟩ := signed_layer laws hinner (wf_innerPreSign input)
    splitDots_senderPath (by decide) rfl enclosurePrefix
  obtain ⟨r₂,hr₂,hwf₂,hkept₂,hverify₂⟩ := signed_layer laws hforwarder
    (wf_forwardedFromPreSign input hwf₁) splitDots_attestationPath (by decide) rfl
    attestationPrefix
  obtain ⟨r₃,hr₃,hwf₃,hkept₃,hverify₃⟩ := signed_layer laws hforwarder
    (wf_outerPreSign input hwf₂) splitDots_senderPath (by decide) rfl enclosurePrefix
  have hcompose : composeForwarded C input = .ok r₃.signedJSON := by
    rw [composeForwarded,hr₁,ok_bind,checkKeyId_ok hinner hinnerId,ok_bind,hr₂,ok_bind,
      checkKeyId_ok hforwarder hforwarderId,ok_bind,hr₃,ok_bind]
  -- Where the layers are in a document of the enclosure's normal form.
  have hlayers (received : Members) (hwf : (Json.obj received).WF)
      (hnorm : (Json.obj received).norm = (Json.obj r₃.signedJSON).norm) :
      ∃ forwarded inner, Layers received forwarded inner ∧
        ((Json.obj forwarded).WF ∧ (Json.obj forwarded).norm = (Json.obj r₂.signedJSON).norm) ∧
        (Json.obj inner).WF ∧ (Json.obj inner).norm = (Json.obj r₁.signedJSON).norm := by
    obtain ⟨v,hv,hvnorm⟩ := Option.map_eq_some_iff.mp (hkept₃ forwardedFrom (by decide))
    obtain ⟨fwd,rfl⟩ := Json.norm_eq_obj hvnorm
    obtain ⟨forwarded,hforwarded,hwff,hfnorm⟩ := exists_member hwf hwf₃ hnorm hv
    have hfnorm := hfnorm.trans hvnorm
    obtain ⟨w,hw,hwnorm⟩ := Option.map_eq_some_iff.mp (hkept₂ originalEnclosure (by decide))
    obtain ⟨orig,rfl⟩ := Json.norm_eq_obj hwnorm
    obtain ⟨inner,hinner,hwfi,hinorm⟩ := exists_member hwff hwf₂ hfnorm hw
    exact ⟨forwarded,inner,⟨hforwarded,hinner⟩,⟨hwff,hfnorm⟩,hwfi,hinorm.trans hwnorm⟩
  obtain ⟨forwarded,inner,hown,⟨hwff,hfnorm⟩,hwfi,hinorm⟩ := hlayers r₃.signedJSON hwf₃ rfl
  have hattested (altered : Members) (ha : (Json.obj altered).WF) :=
    (hverify₂ forwarded hwff hfnorm).signingInput_eq_iff hwff ha splitDots_attestationPath
      (by decide)
  have houter (altered : Members) (ha : (Json.obj altered).WF) :=
    (hverify₃ r₃.signedJSON hwf₃ rfl).signingInput_eq_iff hwf₃ ha splitDots_senderPath (by decide)
  refine ⟨r₃.signedJSON,forwarded,inner,hcompose,hwf₃,hown,fun received hwf hnorm => ?_,hattested,
    houter,fun altered forwarded' inner' ha hl => ?_,fun m pk path domain bytes hm h => ?_⟩
  · obtain ⟨fwd,orig,hl,⟨hwffwd,hfwd⟩,hwforig,horig⟩ := hlayers received hwf hnorm
    exact ⟨fwd,orig,hl,hverify₁ orig hwforig horig,hverify₂ fwd hwffwd hfwd,
      hverify₃ received hwf hnorm⟩
  · have hwff' := Json.wf_of_lookup ha hl.attested
    have hsame (h : signingInput enclosurePrefix senderPath altered =
        signingInput enclosurePrefix senderPath r₃.signedJSON) :
        (Json.obj forwarded).norm = (Json.obj forwarded').norm :=
      norm_member_eq hown.attested hl.attested (by decide) ((houter altered ha).mp h)
    refine ⟨fun hne => ⟨fun h => hne ?_,fun h => hne ?_⟩,fun hne h => hne (hsame h)⟩
    · exact norm_member_eq hown.original hl.original (by decide) ((hattested _ hwff').mp h)
    · have hnorm := (Json.norm_obj_eq_iff hwff hwff').mp (hsame h) originalEnclosure
      rw [hown.original,hl.original] at hnorm
      exact Option.some.inj hnorm
  · obtain ⟨-,hinput,sig,hsig⟩ := verifySignedDoc_signingInput hm h
    exact ⟨hinput,sig,verify_true hsig.symm⟩

def sampleBody : JsonValue :=
  ⟨.obj [(js "text/plain",.str (js "hello"))],Json.wf_obj.mpr ⟨by decide,by simp [Json.WF]⟩⟩

def sampleKey (b : UInt8) : Bytes := List.replicate 32 b

def sampleInput : ComposeForwardedInput where
  innerSenderSeed := sampleKey 1
  innerSenderKeyId := hexSha256 Sample.crypto (sampleKey 1)
  innerEnclosurePlaintext := ⟨js "hi",js "text/plain",sampleBody,none,none,none⟩
  forwarderSeed := sampleKey 2
  forwarderKeyId := hexSha256 Sample.crypto (sampleKey 2)
  outerEnclosurePlaintext := ⟨js "fwd",js "text/plain",sampleBody,none,none⟩
  originalEnvelope := ⟨sampleBody,sampleBody,js "alice@a.example"⟩
  receivedAt := js "2026-01-01T00:00:00Z"

theorem composeForwarded_layers_sample :
    ∃ enclosure forwarded inner, composeForwarded Sample.crypto sampleInput = .ok enclosure ∧
      Layers enclosure forwarded inner ∧
      Verifies Sample.crypto (sampleKey 2) senderPath enclosurePrefix enclosure := by
  have hkey (b : UInt8) : publicKeyFromSeed Sample.crypto (sampleKey b) = .ok (sampleKey b) :=
    publicKeyFromSeed_eq_ok.mpr ⟨List.length_replicate ..,rfl⟩
  have hid (b : UInt8) : fingerprint Sample.crypto (sampleKey b) =
      .ok (hexSha256 Sample.crypto (sampleKey b)) :=
    if_neg (by rw [sampleKey,List.length_replicate]; decide)
  obtain ⟨enclosure,forwarded,inner,hcompose,hwf,hlayers,hverify,-⟩ := composeForwarded_layers
    (show SignLaws Sample.crypto from Sample.laws.sig)
    (show publicKeyFromSeed Sample.crypto sampleInput.innerSenderSeed = _ from hkey 1) (hkey 2)
    (hid 1) (hid 2)
  obtain ⟨-,-,-,-,-,houter⟩ := hverify enclosure hwf rfl
  exact ⟨enclosure,forwarded,inner,hcompose,hlayers,houter⟩

end Compose
end Forwarding
end Semp
