import Semp.HandshakeRun

/-! The messages of the federation handshake between two servers, and the signature of a
server over a message.  Both classes of the handshake sign and check messages this way. -/
namespace Semp
namespace Federation
open Handshake

inductive DomainProofMethod
  | dnsTxt
  | certificate
  | wellKnown
  | testTrust
  deriving DecidableEq, Repr

def DomainProofMethod.name : DomainProofMethod → JsString
  | dnsTxt => js "dns-txt"
  | certificate => js "certificate"
  | wellKnown => js "well-known"
  | testTrust => js "test-trust"

structure DomainProof where
  method : DomainProofMethod
  data : JsString
  deriving DecidableEq, Repr

def DomainProof.members (p : DomainProof) : Members :=
  [(js "method",.str p.method.name),(js "data",.str p.data)]

inductive UserDiscovery
  | allowed
  | denied
  deriving DecidableEq, Repr

def UserDiscovery.name : UserDiscovery → JsString
  | allowed => js "allowed"
  | denied => js "denied"

structure FederationPolicy where
  messageRetention : JsString
  userDiscovery : UserDiscovery
  relayAllowed : Bool
  deriving DecidableEq, Repr

def FederationPolicy.members (p : FederationPolicy) : Members :=
  [(js "message_retention",.str p.messageRetention),
    (js "user_discovery",.str p.userDiscovery.name),(js "relay_allowed",.bool p.relayAllowed)]

structure FederationProof where
  keyId : JsString
  signature : JsString
  deriving DecidableEq, Repr

def FederationProof.members (p : FederationProof) : Members :=
  [(js "key_id",.str p.keyId),(js "signature",.str p.signature)]

/-- The acceptance of a policy; a reason is a refusal. -/
def acceptance : Option JsString → Members
  | none => [(js "accepted",.bool true),(js "policy_acknowledged",.bool true)]
  | some reason => [(js "accepted",.bool false),(js "policy_acknowledged",.bool false),
      (js "reason",.str reason)]

/-- The members every message ends with, before it is signed. -/
def trailer : List (JsString × Option Json) :=
  [(js "server_signature",some (.str [])),(js "extensions",some (.obj []))]

structure ServerInit where
  nonce : JsString
  serverId : JsString
  serverDomain : JsString
  serverEphemeralKey : KeyRef
  serverIdentityProof : FederationProof
  domainProof : DomainProof
  capabilities : Capabilities

def ServerInit.fields (i : ServerInit) : List (JsString × Option Json) :=
  header "init" "server"++
    ([(js "nonce",some (.str i.nonce)),(js "server_id",some (.str i.serverId)),
      (js "server_domain",some (.str i.serverDomain)),
      (js "server_ephemeral_key",some (.obj i.serverEphemeralKey.members)),
      (js "server_identity_proof",some (.obj i.serverIdentityProof.members)),
      (js "domain_proof",some (.obj i.domainProof.members)),
      (js "capabilities",some (.obj i.capabilities.members))]++trailer)

def ServerInit.members (i : ServerInit) : Members := definedMembers i.fields

/-- The `domain_verification_result` of a proof that was verified. -/
def verifiedResult (method : Option Json) : Members :=
  definedMembers [(js "status",some (.str (js "verified"))),(js "method",method)]

structure FederationResponse where
  sessionId : JsString
  clientNonce : Option Json
  serverNonce : JsString
  serverId : JsString
  serverDomain : JsString
  serverEphemeralKey : KeyRef
  serverIdentityProof : FederationProof
  /-- The method in the `domain_verification_result`. -/
  method : Option Json
  negotiated : Negotiated
  federationPolicy : FederationPolicy

def FederationResponse.fields (r : FederationResponse) : List (JsString × Option Json) :=
  header "response" "server"++
    ([(js "session_id",some (.str r.sessionId)),(js "client_nonce",r.clientNonce),
      (js "server_nonce",some (.str r.serverNonce)),(js "server_id",some (.str r.serverId)),
      (js "server_domain",some (.str r.serverDomain)),
      (js "server_ephemeral_key",some (.obj r.serverEphemeralKey.members)),
      (js "server_identity_proof",some (.obj r.serverIdentityProof.members)),
      (js "domain_verification_result",some (.obj (verifiedResult r.method))),
      (js "negotiated",some (.obj r.negotiated.members)),
      (js "federation_policy",some (.obj r.federationPolicy.members))]++trailer)

def FederationResponse.members (r : FederationResponse) : Members := definedMembers r.fields

structure FederationConfirm where
  sessionId : Option Json
  confirmationHash : JsString
  /-- Why the policy is refused. -/
  reason : Option JsString

def FederationConfirm.fields (c : FederationConfirm) : List (JsString × Option Json) :=
  header "confirm" "server"++
    ([(js "session_id",c.sessionId),(js "confirmation_hash",some (.str c.confirmationHash)),
      (js "federation_acceptance",some (.obj (acceptance c.reason)))]++trailer)

def FederationConfirm.members (c : FederationConfirm) : Members := definedMembers c.fields

structure FederationAccepted where
  sessionId : JsString
  sessionTTL : Number
  resumptionTicket : Option ResumptionTicket

def FederationAccepted.fields (a : FederationAccepted) : List (JsString × Option Json) :=
  header "accepted" "server"++
    ([(js "session_id",some (.str a.sessionId)),(js "status",some (.str (js "accepted"))),
      (js "session_ttl",some (.num a.sessionTTL)),
      (js "resumption_ticket",a.resumptionTicket.map fun t => .obj t.members)]++trailer)

def FederationAccepted.members (a : FederationAccepted) : Members := definedMembers a.fields

structure FederationResume where
  nonce : JsString
  serverId : JsString
  serverDomain : JsString
  peerConfigurationRevision : Option Number
  resumptionTicket : JsString
  clientEphemeralKey : KeyRef

def FederationResume.fields (r : FederationResume) : List (JsString × Option Json) :=
  header "resume" "server"++
    [(js "nonce",some (.str r.nonce)),(js "server_id",some (.str r.serverId)),
      (js "server_domain",some (.str r.serverDomain)),
      (js "peer_configuration_revision",r.peerConfigurationRevision.map .num),
      (js "resumption_ticket",some (.str r.resumptionTicket)),
      (js "client_ephemeral_key",some (.obj r.clientEphemeralKey.members)),
      (js "transport",some (.str (js "websocket"))),(js "extensions",some (.obj []))]

def FederationResume.members (r : FederationResume) : Members := definedMembers r.fields

/-- What a server signs of a message: its canonical bytes without the signature. -/
def signedPart (ms : Members) : Bytes :=
  Canonical.canonicalBytes (.obj (assign ms (js "server_signature") (.str [])))

section Code
variable (C : Crypto) (rt : Runtime)

def signServerMessage (msg : Members) (seed : Bytes) : Js JsString := do
  let clone ← SignedDoc.deepCloneJSON msg
  let canonical ← Canonical.marshal (.obj (assign clone (js "server_signature") (.str [])))
  let sig ← sign C seed (utf8 handshakePrefix++canonical)
  .ok (Base64.encode sig)

/-- The message with its signature, on the wire. -/
def sendSigned (msg : Members) (seed : Bytes) : Js Bytes := do
  let signature ← signServerMessage C msg seed
  Canonical.marshal (.obj (assign msg (js "server_signature") (.str signature)))

def verifyServerMessage (msg : Json) (signatureB64 : Option Json) (domainPub : Bytes) :
    Js Bool :=
  if isStr signatureB64 [] then .ok false
  else do
    let clone ← parseJson (JsonText.stringify msg)
    let clone ← setProp clone (js "server_signature") (.str [])
    let canonical ← Canonical.marshal clone
    let sig ← base64Decode rt signatureB64
    .ok (verify C domainPub sig (utf8 handshakePrefix++canonical))

/-- The check of the outer signature of a message. -/
def checkServerMessage (msg : Json) (domainPub : Bytes) (message : JsString) : Js Unit := do
  let signature ← getProp (some msg) (js "server_signature")
  let ok ← verifyServerMessage C rt msg signature domainPub
  require (ok = true) message

/-- The check of the inner identity proof over `signed`. -/
def checkIdentityProof (msg : Json) (domainPub signed : Bytes) (message : JsString) : Js Unit := do
  let proof ← getProp (some msg) (js "server_identity_proof")
  let signature ← getProp proof (js "signature")
  let innerSig ← base64Decode rt signature
  require (verify C domainPub innerSig (utf8 identityPrefix++signed) = true) message

/-- The ephemeral key of a peer's message, decoded. -/
def serverEphemeralKey (m : Json) : Js Bytes := do
  let ephKey ← getProp (some m) (js "server_ephemeral_key")
  let key ← getProp ephKey (js "key")
  base64Decode rt key

/-- The refusal of a message of another type, step or party. -/
def checkTypeStepParty (m : Json) (step : String) (message : JsString) : Js Unit := do
  let type ← getProp (some m) (js "type")
  let found ← getProp (some m) (js "step")
  let party ← getProp (some m) (js "party")
  require (isStr type messageType ∧ isStr found (js step) ∧ isStr party (js "server")) message

end Code

/-- The first of the own suites that is offered. -/
def pickSuite (offered : Option Json) : List JsString → Js (Option JsString)
  | [] => .ok none
  | s::supported => do
    let found ← includes offered s
    if found then .ok (some s) else pickSuite offered supported

/-- A message of this step, as `checkTypeStepParty` wants it. -/
structure IsStep (ms : Members) (step : String) : Prop where
  type : lookup ms (js "type") = some (.str messageType)
  step : lookup ms (js "step") = some (.str (js step))
  party : lookup ms (js "party") = some (.str (js "server"))

theorem checkTypeStepParty_eq_ok {m : Json} {step : String} {message : JsString} {u : Unit} :
    checkTypeStepParty m step message = .ok u ↔ ∃ ms, m = .obj ms ∧ IsStep ms step := by
  unfold checkTypeStepParty
  simp only [bind_eq_ok,require_eq_ok,isStr_iff]
  constructor
  · rintro ⟨_,ht,_,hs,_,hp,rfl,rfl,rfl⟩
    obtain ⟨ms,rfl,htype⟩ := getProp_eq_str.mp ht
    exact ⟨ms,rfl,htype,Except.ok.inj hs,Except.ok.inj hp⟩
  · rintro ⟨ms,rfl,h⟩
    exact ⟨_,rfl,_,rfl,_,rfl,h.type,h.step,h.party⟩

theorem callback_run_eq_ok {α : Type} {x : Callback α} {a : α} : x.run = .ok a ↔ x = .ok a := by
  cases x <;> simp [Callback.run]

theorem pickSuite_strs (offered supported : List JsString) :
    pickSuite (some (strs offered)) supported =
      .ok (supported.find? fun s => decide (s ∈ offered)) := by
  induction supported with
  | nil => rfl
  | cons s supported ih =>
    rw [pickSuite,strs,includes_strs,ok_bind,List.find?_cons]
    by_cases h : s ∈ offered
    · simp [h]
    · simpa [h,strs] using ih

section Wf

theorem FederationProof.wf (p : FederationProof) : (Json.obj p.members).WF :=
  Json.wf_of_keys [js "key_id",js "signature"] rfl (by decide) (by simp [members])

theorem DomainProof.wf (p : DomainProof) : (Json.obj p.members).WF :=
  Json.wf_of_keys [js "method",js "data"] rfl (by decide) (by simp [members])

theorem FederationPolicy.wf (p : FederationPolicy) : (Json.obj p.members).WF :=
  Json.wf_of_keys [js "message_retention",js "user_discovery",js "relay_allowed"] rfl (by decide)
    (by simp [members])

theorem acceptance_wf (reason : Option JsString) : (Json.obj (acceptance reason)).WF := by
  cases reason with
  | none =>
    exact Json.wf_of_keys [js "accepted",js "policy_acknowledged"] rfl (by decide)
      (by simp [acceptance])
  | some reason =>
    exact Json.wf_of_keys [js "accepted",js "policy_acknowledged",js "reason"] rfl (by decide)
      (by simp [acceptance])

theorem verifiedResult_wf {method : Option Json} (h : ∀ v ∈ method, v.WF) :
    (Json.obj (verifiedResult method)).WF :=
  wf_literal [js "status",js "method"] rfl (by decide) (by simpa using h)

theorem lookup_literal {ms : List (JsString × Option Json)} (ks : List JsString)
    (hk : keys ms = ks) (hn : ks.Nodup) (k : JsString) :
    lookup (definedMembers ms) k = (lookup ms k).join := lookup_definedMembers (hk ▸ hn) k

def ServerInit.names : List JsString :=
  [js "type",js "step",js "party",js "version",js "nonce",js "server_id",
    js "server_domain",js "server_ephemeral_key",js "server_identity_proof",js "domain_proof",
    js "capabilities",js "server_signature",js "extensions"]

def FederationResponse.names : List JsString :=
  [js "type",js "step",js "party",js "version",js "session_id",js "client_nonce",
    js "server_nonce",js "server_id",js "server_domain",js "server_ephemeral_key",
    js "server_identity_proof",js "domain_verification_result",js "negotiated",
    js "federation_policy",js "server_signature",js "extensions"]

def FederationConfirm.names : List JsString :=
  [js "type",js "step",js "party",js "version",js "session_id",js "confirmation_hash",
    js "federation_acceptance",js "server_signature",js "extensions"]

def FederationAccepted.names : List JsString :=
  [js "type",js "step",js "party",js "version",js "session_id",js "status",
    js "session_ttl",js "resumption_ticket",js "server_signature",js "extensions"]

def FederationResume.names : List JsString :=
  [js "type",js "step",js "party",js "version",js "nonce",js "server_id",
    js "server_domain",js "peer_configuration_revision",js "resumption_ticket",
    js "client_ephemeral_key",js "transport",js "extensions"]

theorem ServerInit.lookup_members (i : ServerInit) (k : JsString) :
    lookup i.members k = (lookup i.fields k).join := lookup_literal names rfl (by decide) k

theorem FederationResponse.lookup_members (r : FederationResponse) (k : JsString) :
    lookup r.members k = (lookup r.fields k).join := lookup_literal names rfl (by decide) k

theorem FederationConfirm.lookup_members (c : FederationConfirm) (k : JsString) :
    lookup c.members k = (lookup c.fields k).join := lookup_literal names rfl (by decide) k

theorem FederationAccepted.lookup_members (a : FederationAccepted) (k : JsString) :
    lookup a.members k = (lookup a.fields k).join := lookup_literal names rfl (by decide) k

theorem FederationResume.lookup_members (r : FederationResume) (k : JsString) :
    lookup r.members k = (lookup r.fields k).join := lookup_literal names rfl (by decide) k

theorem ServerInit.wf (i : ServerInit) : (Json.obj i.members).WF :=
  wf_literal names rfl (by decide) (by
    simp [fields,header,trailer,KeyRef.wf,FederationProof.wf,DomainProof.wf,Capabilities.wf,
      Json.wf_empty])

theorem FederationResponse.wf {r : FederationResponse} (hn : ∀ v ∈ r.clientNonce, v.WF)
    (hm : ∀ v ∈ r.method, v.WF) : (Json.obj r.members).WF :=
  wf_literal names rfl (by decide) (by
    simp [fields,header,trailer,KeyRef.wf,FederationProof.wf,verifiedResult_wf hm,Negotiated.wf,
      FederationPolicy.wf,Json.wf_empty]
    simpa using hn)

theorem FederationConfirm.wf {c : FederationConfirm} (h : ∀ v ∈ c.sessionId, v.WF) :
    (Json.obj c.members).WF :=
  wf_literal names rfl (by decide) (by
    simp [fields,header,trailer,acceptance_wf,Json.wf_empty]
    simpa using h)

theorem FederationAccepted.wf (a : FederationAccepted) : (Json.obj a.members).WF :=
  wf_literal names rfl (by decide) (by
    simp only [fields,header,trailer]
    simp [ResumptionTicket.wf,Json.wf_empty])

theorem FederationResume.wf (r : FederationResume) : (Json.obj r.members).WF :=
  wf_literal names rfl (by decide) (by
    simp [fields,header,KeyRef.wf,Json.wf_empty])

end Wf

section Signed
variable {C : Crypto} {rt : Runtime} {msg ms ns : Members} {seed pk bytes : Bytes}

/-- The message with its signature. -/
def signedWith (msg : Members) (sig : Bytes) : Members :=
  assign msg (js "server_signature") (.str (Base64.encode sig))

/-- The message carries a signature that verifies under the key. -/
def SignedBy (C : Crypto) (rt : Runtime) (pk : Bytes) (ms : Members) : Prop :=
  verifyServerMessage C rt (.obj ms) (lookup ms (js "server_signature")) pk = .ok true

theorem signedWith_wf (h : (Json.obj msg).WF) (sig : Bytes) : (Json.obj (signedWith msg sig)).WF :=
  Json.wf_assign h (Json.wf_str _) _

/-- The signature is no part of what is signed. -/
theorem signedPart_signedWith (msg : Members) (sig : Bytes) :
    signedPart (signedWith msg sig) = signedPart msg := by
  rw [signedPart,signedWith,assign_assign,signedPart]

theorem blanked_wf (h : (Json.obj ms).WF) :
    (Json.obj (assign ms (js "server_signature") (.str []))).WF :=
  Json.wf_assign h (Json.wf_str []) _

theorem signedPart_congr (hms : (Json.obj ms).WF) (hns : (Json.obj ns).WF)
    (h : (Json.obj ms).norm = (Json.obj ns).norm) : signedPart ms = signedPart ns :=
  (Canonical.canonicalBytes_inj (blanked_wf hms) (blanked_wf hns)).mpr
    (Json.norm_assign hms hns h (Json.wf_str []) (Json.wf_str []) rfl _)

theorem signedPart_reparsed (h : (Json.obj ms).WF) :
    Canonical.canonicalBytes (.obj (assign (reparsed ms) (js "server_signature") (.str []))) =
      signedPart ms :=
  signedPart_congr (reparsed_wf h) h (by rw [← reparse_obj,Json.norm_reparse])

theorem signServerMessage_eq_ok (h : (Json.obj msg).WF) {s : JsString} :
    signServerMessage C msg seed = .ok s ↔
      ∃ sig, sign C seed (utf8 handshakePrefix++signedPart msg) = .ok sig ∧
        s = Base64.encode sig := by
  rw [signServerMessage,SignedDoc.deepCloneJSON_eq h,ok_bind]
  change (Canonical.marshal (.obj (assign (reparsed msg) _ _)) >>= _) = _ ↔ _
  rw [Canonical.marshal_eq (blanked_wf (reparsed_wf h)),ok_bind,signedPart_reparsed h,bind_eq_ok]
  simp only [Except.ok.injEq,eq_comm (b := s)]

theorem sendSigned_eq_ok (h : (Json.obj msg).WF) : sendSigned C msg seed = .ok bytes ↔
    ∃ sig, sign C seed (utf8 handshakePrefix++signedPart msg) = .ok sig ∧
      bytes = Canonical.canonicalBytes (.obj (signedWith msg sig)) := by
  rw [sendSigned,bind_eq_ok]
  constructor
  · rintro ⟨s,hs,hb⟩
    obtain ⟨sig,hsig,rfl⟩ := (signServerMessage_eq_ok h).mp hs
    rw [← signedWith,Canonical.marshal_eq (signedWith_wf h sig)] at hb
    exact ⟨sig,hsig,(Except.ok.inj hb).symm⟩
  · rintro ⟨sig,hsig,rfl⟩
    exact ⟨_,(signServerMessage_eq_ok h).mpr ⟨sig,hsig,rfl⟩,
      Canonical.marshal_eq (signedWith_wf h sig)⟩

theorem sendSigned_ok (laws : SignLaws C) (h : (Json.obj msg).WF) (hseed : seed.length = 32) :
    ∃ sig, sign C seed (utf8 handshakePrefix++signedPart msg) = .ok sig ∧
      sendSigned C msg seed = .ok (Canonical.canonicalBytes (.obj (signedWith msg sig))) := by
  obtain ⟨sig,hsig⟩ := sign_ok laws hseed (utf8 handshakePrefix++signedPart msg)
  exact ⟨sig,hsig,(sendSigned_eq_ok h).mpr ⟨sig,hsig,rfl⟩⟩

theorem verifyServerMessage_eq_ok (h : (Json.obj ms).WF) {v : Option Json} :
    verifyServerMessage C rt (.obj ms) v pk = .ok true ↔ v ≠ some (.str []) ∧
      ∃ sig, base64Decode rt v = .ok sig ∧
        verify C pk sig (utf8 handshakePrefix++signedPart ms) = true := by
  unfold verifyServerMessage
  split_ifs with hv
  · simp [isStr_iff.mp hv]
  · rw [parseJson_stringify h,ok_bind,reparse_obj,setProp_obj,ok_bind,
      Canonical.marshal_eq (blanked_wf (reparsed_wf h)),ok_bind,signedPart_reparsed h,bind_eq_ok]
    rw [isStr_iff] at hv
    simp only [Except.ok.injEq,ne_eq,hv,not_false_eq_true,true_and]

theorem checkServerMessage_eq_ok {message : JsString} {u : Unit} :
    checkServerMessage C rt (.obj ms) pk message = .ok u ↔ SignedBy C rt pk ms := by
  rw [checkServerMessage,getProp_obj,ok_bind,bind_eq_ok,SignedBy]
  simp only [require_eq_ok,exists_eq_right]

/-- A signature that decodes and verifies is no empty text. -/
theorem signedBy_of_verify (hwf : (Json.obj ms).WF)
    (h : ∃ sig, base64Decode rt (lookup ms (js "server_signature")) = .ok sig ∧
      verify C pk sig (utf8 handshakePrefix++signedPart ms) = true) : SignedBy C rt pk ms := by
  refine (verifyServerMessage_eq_ok hwf).mpr ⟨fun hempty => ?_,h⟩
  obtain ⟨sig,hsig,hverify⟩ := h
  rw [hempty,base64Decode_str] at hsig
  obtain rfl := Except.ok.inj hsig
  rw [verify,if_pos (.inr (by decide))] at hverify
  cases hverify

/-- What a server signed and sent arrives with a good signature. -/
theorem signedBy_received (laws : SignLaws C) (hwf : (Json.obj msg).WF)
    (hpk : publicKeyFromSeed C seed = .ok pk) {sig : Bytes}
    (hsig : sign C seed (utf8 handshakePrefix++signedPart msg) = .ok sig)
    (hr : Received (signedWith msg sig) ms) : SignedBy C rt pk ms := by
  have hlookup : lookup ms (js "server_signature") = some (.str (Base64.encode sig)) :=
    hr.str (signedWith_wf hwf sig) (lookup_assign_self ..)
  refine (verifyServerMessage_eq_ok hr.wf).mpr ⟨?_,sig,?_,?_⟩
  · rw [hlookup,ne_eq,Option.some.injEq,Json.str.injEq]
    exact encode_sign_ne_nil laws hsig
  · rw [hlookup,base64Decode_str,Base64.decode_encode]
  · rw [signedPart_congr hr.wf (signedWith_wf hwf sig) hr.norm,signedPart_signedWith]
    exact verify_sign laws hpk hsig

/-- The message says what `msg` says, whatever its signature. -/
structure Says (msg ms : Members) : Prop where
  wf : (Json.obj ms).WF
  signed : signedPart ms = signedPart msg

theorem says_received {sig : Bytes} (hwf : (Json.obj msg).WF)
    (hr : Received (signedWith msg sig) ms) : Says msg ms :=
  ⟨hr.wf,(signedPart_congr hr.wf (signedWith_wf hwf sig) hr.norm).trans
    (signedPart_signedWith msg sig)⟩

namespace Says

theorem received (h : Says msg ms) (hwf : (Json.obj msg).WF) :
    Received (assign msg (js "server_signature") (.str []))
      (assign ms (js "server_signature") (.str [])) :=
  ⟨blanked_wf h.wf,(Canonical.canonicalBytes_inj (blanked_wf h.wf) (blanked_wf hwf)).mp h.signed⟩

/-- The strings beside the signature are the same. -/
theorem str (h : Says msg ms) (hwf : (Json.obj msg).WF) {k s : JsString}
    (hk : k ≠ js "server_signature") :
    lookup ms k = some (.str s) ↔ lookup msg k = some (.str s) := by
  have hr := h.received hwf
  have hstr := Json.lookup_str_of_norm hr.wf (blanked_wf hwf) hr.norm (k := k) (s := s)
  rwa [lookup_assign_ne _ hk,lookup_assign_ne _ hk] at hstr

theorem obj (h : Says msg ms) (hwf : (Json.obj msg).WF) {k : JsString} {sub : Members}
    (hk : k ≠ js "server_signature") (hp : lookup msg k = some (.obj sub)) :
    ∃ sub', lookup ms k = some (.obj sub') ∧ Received sub sub' := by
  obtain ⟨sub',hsub,hr⟩ := (h.received hwf).obj (blanked_wf hwf) (k := k)
    (by rw [lookup_assign_ne _ hk,hp])
  rw [lookup_assign_ne _ hk] at hsub
  exact ⟨sub',hsub,hr⟩

/-- A number arrives as something that can be compared. -/
theorem comparable (h : Says msg ms) (hwf : (Json.obj msg).WF) {k : JsString} {x : Number}
    (hk : k ≠ js "server_signature") (hp : lookup msg k = some (.num x)) :
    ∃ positive, gtZero (lookup ms k) = .ok positive := by
  have hr := h.received hwf
  have he := (Json.norm_obj_eq_iff hr.wf (blanked_wf hwf)).mp hr.norm k
  rw [lookup_assign_ne _ hk,lookup_assign_ne _ hk,hp,Option.map_some,
    Option.map_eq_some_iff] at he
  obtain ⟨v,hv,hnorm⟩ := he
  rw [hv]
  obtain rfl | ⟨y,rfl⟩ := Json.norm_eq_num hnorm
  · exact ⟨_,rfl⟩
  · exact ⟨_,rfl⟩

/-- A message of another step says something else. -/
theorem isStep (h : Says msg ms) (hwf : (Json.obj msg).WF) {step : String} :
    IsStep ms step ↔ IsStep msg step := by
  have hk (k : String) (hk : js k ≠ js "server_signature") (s : JsString) :=
    h.str hwf (k := js k) (s := s) hk
  constructor
  · intro hs
    exact ⟨(hk "type" (by decide) _).mp hs.type,(hk "step" (by decide) _).mp hs.step,
      (hk "party" (by decide) _).mp hs.party⟩
  · intro hs
    exact ⟨(hk "type" (by decide) _).mpr hs.type,(hk "step" (by decide) _).mpr hs.step,
      (hk "party" (by decide) _).mpr hs.party⟩

theorem ephemeralKey (h : Says msg ms) (hwf : (Json.obj msg).WF) {r : KeyRef}
    (hp : lookup msg (js "server_ephemeral_key") = some (.obj r.members)) :
    serverEphemeralKey rt (.obj ms) = .ok (Base64.decode r.key) := by
  obtain ⟨sub,hsub,hr⟩ := h.obj hwf (by decide) hp
  have hkey := hr.str r.wf (k := js "key") (s := r.key) rfl
  rw [serverEphemeralKey,getProp_obj,hsub,ok_bind,getProp_obj,hkey,ok_bind,base64Decode_str]

theorem identityProof (h : Says msg ms) (hwf : (Json.obj msg).WF) {p : FederationProof}
    {signed : Bytes} {message : JsString}
    (hp : lookup msg (js "server_identity_proof") = some (.obj p.members))
    (hv : verify C pk (Base64.decode p.signature) (utf8 identityPrefix++signed) = true) :
    checkIdentityProof C rt (.obj ms) pk signed message = .ok () := by
  obtain ⟨sub,hsub,hr⟩ := h.obj hwf (by decide) hp
  have hsig := hr.str p.wf (k := js "signature") (s := p.signature) rfl
  rw [checkIdentityProof,getProp_obj,hsub,ok_bind,getProp_obj,hsig,ok_bind,base64Decode_str,ok_bind,
    require_of hv]

end Says

theorem ServerInit.isStep (i : ServerInit) : IsStep i.members "init" :=
  ⟨(i.lookup_members _).trans rfl,(i.lookup_members _).trans rfl,(i.lookup_members _).trans rfl⟩

theorem FederationResponse.isStep (r : FederationResponse) : IsStep r.members "response" :=
  ⟨(r.lookup_members _).trans rfl,(r.lookup_members _).trans rfl,(r.lookup_members _).trans rfl⟩

theorem FederationConfirm.isStep (c : FederationConfirm) : IsStep c.members "confirm" :=
  ⟨(c.lookup_members _).trans rfl,(c.lookup_members _).trans rfl,(c.lookup_members _).trans rfl⟩

theorem FederationAccepted.isStep (a : FederationAccepted) : IsStep a.members "accepted" :=
  ⟨(a.lookup_members _).trans rfl,(a.lookup_members _).trans rfl,(a.lookup_members _).trans rfl⟩

end Signed

end Federation
end Semp
