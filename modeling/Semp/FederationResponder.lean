import Semp.Federation

/-! The responder of the federation handshake: `onInit`, `onConfirm`, `session` and
`erase` on the fields of the class. -/
namespace Semp

structure FederationResponderConfig where
  suite : JsString
  capabilities : Handshake.Capabilities
  localDomain : JsString
  localServerID : JsString
  localDomainSeed : Bytes
  peerDomainPubLookup : Option Json → Callback Bytes
  verifier : Option (Option Json → Option Json → Option Json → Callback Unit)
  policy : Federation.FederationPolicy
  sessionTTL : Option Number
  responderEphemeralPriv : Option Bytes
  responderHybridRandomness : Option HybridRandomness
  responderNonce : Option Bytes

structure FederationResponderSession where
  sessionId : JsString
  sessionTTL : Number
  keys : SessionKeys
  peerDomain : Option Json

/-- The fields of the class; `none` is `null`, and `undefined` in a field a peer filled. -/
structure FederationResponder where
  cfg : FederationResponderConfig
  suite : Suite
  localDomainKeyId : JsString
  sessionTTL : Number
  sessionId : JsString
  peerDomain : Option Json
  peerNonce : Option Bytes
  serverNonce : Option Bytes
  respEphPriv : Option Bytes
  initCanonical : Option Bytes
  respCanonical : Option Bytes
  sessionKeys : Option SessionKeys
  finalSession : Option FederationResponderSession

namespace FederationResponder
open Handshake Federation

/-- What the responder takes from an INIT. -/
structure PeerInit where
  message : Json
  serverDomain : Option Json
  nonce : Option Json
  method : Option Json
  clientEphPub : Bytes
  clientNonce : Bytes
  negotiated : JsString

section Code
variable (C : Crypto) (rt : Runtime)

def new (cfg : FederationResponderConfig) : Js FederationResponder := do
  let suite ← need (Suite.ofName cfg.suite)
    (js "handshake: federation responder unknown suite "++JsonText.quote cfg.suite)
  require (cfg.localDomain ≠ []) (js "handshake: federation responder empty localDomain")
  require (cfg.localDomainSeed.length ≠ 0)
    (js "handshake: federation responder empty localDomainSeed")
  let localDomainPub ← publicKeyFromSeed C cfg.localDomainSeed
  let localDomainKeyId ← fingerprint C localDomainPub
  .ok {
    cfg := cfg
    suite := suite
    localDomainKeyId := localDomainKeyId
    sessionTTL := cfg.sessionTTL.getD (.ofNat 3600)
    sessionId := []
    peerDomain := some (.str [])
    peerNonce := none
    serverNonce := none
    respEphPriv := none
    initCanonical := none
    respCanonical := none
    sessionKeys := none
    finalSession := none }

/-- The verifier's verdict on the domain proof; without a verifier all proofs are good. -/
def verifyDomainProof (cfg : FederationResponderConfig) (domain proof nonce : Option Json) :
    Js Unit :=
  match cfg.verifier with
  | none => .ok ()
  | some verify =>
    match verify domain proof nonce with
    | .ok () => .ok ()
    | .error detail =>
      raise (js "handshake: federation domain proof verification failed: "++detail)

/-- `onInit` up to the negotiated suite. -/
def takeInit (s : FederationResponder) (data : Bytes) : Js PeerInit := do
  require (s.initCanonical = none) (js "handshake: federation responder onInit called twice")
  let m ← parseJson (Utf8.textDecode data)
  checkTypeStepParty m "init" (js "handshake: federation init type/step/party mismatch")
  let serverDomain ← getProp (some m) (js "server_domain")
  require (isStr serverDomain [] = false) (js "handshake: empty initiator server_domain")
  let peerDomainPub ← (s.cfg.peerDomainPubLookup serverDomain).run
  checkServerMessage C rt m peerDomainPub
    (js "handshake: federation init server_signature did not verify")
  let clientEphPub ← serverEphemeralKey rt m
  let nonce ← getProp (some m) (js "nonce")
  let clientNonce ← base64Decode rt nonce
  checkIdentityProof C rt m peerDomainPub (clientEphPub++clientNonce)
    (js "handshake: federation init inner identity_signature did not verify")
  let proof ← getProp (some m) (js "domain_proof")
  let method ← getProp proof (js "method")
  verifyDomainProof s.cfg serverDomain proof nonce
  let capabilities ← getProp (some m) (js "capabilities")
  let offered ← getProp capabilities (js "encryption_algorithms")
  let picked ← pickSuite offered s.cfg.capabilities.encryptionAlgorithms
  let negotiated ← need picked (js "handshake: federation no mutually supported suite")
  require (negotiated = s.cfg.suite) (js "handshake: federation negotiated suite "++negotiated++
    js " != responder suite "++s.cfg.suite)
  .ok ⟨m,serverDomain,nonce,method,clientEphPub,clientNonce,negotiated⟩

/-- The responder's ephemeral key as the suite puts it on the wire, and the shared secret. -/
def responderShare (entropy : ServerEntropy) (clientEphPub : Bytes) :
    Method Thrown FederationResponder (Bytes × Bytes) := do
  let s ← get
  match s.suite with
  | .pq => do
    require (s.cfg.responderEphemeralPriv = none) (js ("handshake: federation responder PQ "++
      "ephemeral pinning not supported (use responderHybridRandomness)"))
    let enc ← encapsulateTo C s.cfg.responderHybridRandomness entropy.hybrid clientEphPub
    return (enc.ciphertext,enc.sharedSecret)
  | .x25519 => do
    let ephPriv := s.cfg.responderEphemeralPriv.getD entropy.ephemeralPriv
    modify fun s => {s with respEphPriv := some ephPriv}
    let ephPub ← x25519PublicKey C ephPriv
    let shared ← x25519Agree C ephPriv clientEphPub
    return (ephPub,shared)

/-- The RESPONSE, before it is signed. -/
def responseMessage (s : FederationResponder) (a : PeerInit) (sessionId : JsString)
    (serverNonce respEphPub : Bytes) (respEphKeyId : JsString) (proofSig : Bytes) :
    FederationResponse where
  sessionId := sessionId
  clientNonce := a.nonce
  serverNonce := Base64.encode serverNonce
  serverId := s.cfg.localServerID
  serverDomain := s.cfg.localDomain
  serverEphemeralKey := ⟨s.cfg.suite,Base64.encode respEphPub,respEphKeyId⟩
  serverIdentityProof := ⟨s.localDomainKeyId,Base64.encode proofSig⟩
  method := a.method
  negotiated := ⟨a.negotiated,[]⟩
  federationPolicy := s.cfg.policy

/-- The RESPONSE on the wire. -/
def composeResponse (s : FederationResponder) (a : PeerInit) (sessionId : JsString)
    (serverNonce respEphPub : Bytes) (respEphKeyId : JsString) : Js Bytes := do
  let proofSig ← sign C s.cfg.localDomainSeed
    (utf8 identityPrefix++(respEphPub++serverNonce++a.clientNonce))
  sendSigned C
    (responseMessage s a sessionId serverNonce respEphPub respEphKeyId proofSig).members
    s.cfg.localDomainSeed

/-- `onInit` once the INIT passed the checks, up to the RESPONSE. -/
def respond (entropy : ServerEntropy) (a : PeerInit) : Method Thrown FederationResponder Bytes := do
  let s ← get
  let share ← responderShare C entropy a.clientEphPub
  let respEphKeyId ← fingerprint C share.1
  let serverNonce := s.cfg.responderNonce.getD entropy.nonce
  modify fun s => {s with
    serverNonce := some serverNonce
    sessionId := entropy.sessionId
    sessionKeys := some (deriveSessionKeysWithResumption C share.2 a.clientNonce serverNonce)}
  composeResponse C s a entropy.sessionId serverNonce share.1 respEphKeyId

def onInit (entropy : ServerEntropy) (data : Bytes) :
    Method Thrown FederationResponder Bytes := do
  let s ← get
  let a ← takeInit C rt s data
  let bytes ← respond C entropy a
  modify fun s => {s with
    peerDomain := a.serverDomain
    peerNonce := some a.clientNonce
    initCanonical := some data
    respCanonical := some bytes}
  return bytes

/-- The refusal of a policy that the initiator did not accept. -/
def expectAccepted (m : Json) : Js Unit := do
  let acceptance ← getProp (some m) (js "federation_acceptance")
  let accepted ← getProp acceptance (js "accepted")
  if truthy accepted then .ok ()
  else do
    let reason ← getProp acceptance (js "reason")
    let text ← templateText (some (orElse reason (.str [])))
    raise (js "handshake: federation initiator rejected our policy: "++text)

/-- The checks of `onConfirm`, with the session keys of the handshake. -/
def takeConfirm (s : FederationResponder) (data : Bytes) : Js SessionKeys := do
  let initCanonical ← need s.initCanonical
    (js "handshake: federation onConfirm before onInit")
  let respCanonical ← need s.respCanonical
    (js "handshake: federation onConfirm before onInit")
  let keys ← need s.sessionKeys (js "handshake: federation onConfirm before onInit")
  let m ← parseJson (Utf8.textDecode data)
  checkTypeStepParty m "confirm" (js "handshake: federation confirm type/step/party mismatch")
  let sessionId ← getProp (some m) (js "session_id")
  require (isStr sessionId s.sessionId) (js "handshake: federation confirm session_id mismatch")
  let peerDomainPub ← (s.cfg.peerDomainPubLookup s.peerDomain).run
  checkServerMessage C rt m peerDomainPub
    (js "handshake: federation confirm server_signature did not verify")
  let gotHash ← base64Decode rt (← getProp (some m) (js "confirmation_hash"))
  require (constantTimeEqual gotHash (confirmationHash C initCanonical respCanonical))
    (js "handshake: federation confirmation hash mismatch")
  expectAccepted m
  .ok keys

/-- `opts.issueResumptionTicket?.(keys)` -/
def issueTicket (issueResumptionTicket : Option (SessionKeys → Callback ResumptionTicket))
    (keys : SessionKeys) : Js (Option ResumptionTicket) :=
  match issueResumptionTicket with
  | none => .ok none
  | some issue => do
    let ticket ← (issue keys).run
    .ok (some ticket)

/-- `onConfirm` from the ticket to the ACCEPTED. -/
def composeAccepted (s : FederationResponder)
    (issueResumptionTicket : Option (SessionKeys → Callback ResumptionTicket))
    (keys : SessionKeys) : Js Bytes := do
  let ticket ← issueTicket issueResumptionTicket keys
  sendSigned C (FederationAccepted.mk s.sessionId s.sessionTTL ticket).members
    s.cfg.localDomainSeed

def onConfirm (issueResumptionTicket : Option (SessionKeys → Callback ResumptionTicket))
    (data : Bytes) : Method Thrown FederationResponder Bytes := do
  let s ← get
  let keys ← takeConfirm C rt s data
  let bytes ← composeAccepted C s issueResumptionTicket keys
  modify fun s => {s with
    finalSession := some ⟨s.sessionId,s.sessionTTL,keys,s.peerDomain⟩
    respEphPriv := none}
  return bytes

def session : Method Thrown FederationResponder FederationResponderSession := do
  let s ← get
  need s.finalSession (js "handshake: federation responder session not yet established")

def erase : Method Thrown FederationResponder Unit :=
  modify fun s => {s with
    respEphPriv := none, peerNonce := none, serverNonce := none, sessionKeys := none}

end Code

section Specs
variable {C : Crypto} {rt : Runtime} {s s' : FederationResponder} {data bytes : Bytes}

/-- The INIT passes the checks of `onInit`, with these contents. -/
structure InitOk (C : Crypto) (rt : Runtime) (cfg : FederationResponderConfig) (ms : Members)
    (peerDomainPub : Bytes) (a : PeerInit) : Prop where
  message : a.message = .obj ms
  step : IsStep ms "init"
  domain : a.serverDomain = lookup ms (js "server_domain")
  named : isStr a.serverDomain [] = false
  resolved : cfg.peerDomainPubLookup a.serverDomain = .ok peerDomainPub
  signed : SignedBy C rt peerDomainPub ms
  ephemeral : serverEphemeralKey rt (.obj ms) = .ok a.clientEphPub
  nonce : a.nonce = lookup ms (js "nonce")
  clientNonce : base64Decode rt a.nonce = .ok a.clientNonce
  proof : checkIdentityProof C rt (.obj ms) peerDomainPub (a.clientEphPub++a.clientNonce)
    (js "handshake: federation init inner identity_signature did not verify") = .ok ()
  method : getProp (lookup ms (js "domain_proof")) (js "method") = .ok a.method
  verified : verifyDomainProof cfg a.serverDomain (lookup ms (js "domain_proof")) a.nonce = .ok ()
  picked : ∃ offered,
    getProp (lookup ms (js "capabilities")) (js "encryption_algorithms") = .ok offered ∧
    pickSuite offered cfg.capabilities.encryptionAlgorithms = .ok (some a.negotiated)
  negotiated : a.negotiated = cfg.suite

theorem takeInit_eq_ok {a : PeerInit} : takeInit C rt s data = .ok a ↔
    s.initCanonical = none ∧ ∃ ms pub, parseJson (Utf8.textDecode data) = .ok (.obj ms) ∧
      InitOk C rt s.cfg ms pub a := by
  unfold takeInit
  simp only [bind_eq_ok,need_eq_ok,require_eq_ok,checkTypeStepParty_eq_ok,callback_run_eq_ok]
  constructor
  · rintro ⟨-,hnone,m,hparse,-,⟨ms,rfl,hstep⟩,_,hdomain,-,hnamed,pub,hpub,_,hsigned,clientEphPub,
      hkey,_,hnonce,clientNonce,hcn,_,hproof,_,hdp,method,hmethod,_,hverified,_,hcap,offered,
      hoffered,picked,hpicked,negotiated,rfl,-,rfl,h⟩
    obtain rfl := Except.ok.inj h
    rw [getProp_obj,Except.ok.injEq] at hdomain hnonce hdp hcap
    subst hdomain hnonce hdp hcap
    exact ⟨hnone,ms,pub,hparse,rfl,hstep,rfl,hnamed,hpub,checkServerMessage_eq_ok.mp hsigned,hkey,
      rfl,hcn,hproof,hmethod,hverified,⟨offered,hoffered,hpicked⟩,rfl⟩
  · rintro ⟨hnone,ms,pub,hparse,h⟩
    obtain ⟨offered,hoffered,hpicked⟩ := h.picked
    refine ⟨(),hnone,_,hparse,(),⟨ms,rfl,h.step⟩,_,h.domain ▸ rfl,(),h.named,pub,h.resolved,(),
      checkServerMessage_eq_ok.mpr h.signed,_,h.ephemeral,_,h.nonce ▸ rfl,_,h.clientNonce,(),
      h.proof,_,rfl,_,h.method,(),h.verified,_,rfl,offered,hoffered,_,hpicked,_,rfl,(),
      h.negotiated,?_⟩
    rw [← h.message]

/-- The share of a responder, without its fields. -/
def shareFor (C : Crypto) (cfg : FederationResponderConfig) (suite : Suite)
    (entropy : ServerEntropy) (clientEphPub : Bytes) : Js (Bytes × Bytes) :=
  match suite with
  | .pq => do
    require (cfg.responderEphemeralPriv = none) (js ("handshake: federation responder PQ "++
      "ephemeral pinning not supported (use responderHybridRandomness)"))
    let enc ← encapsulateTo C cfg.responderHybridRandomness entropy.hybrid clientEphPub
    .ok (enc.ciphertext,enc.sharedSecret)
  | .x25519 => do
    let ephPub ← x25519PublicKey C (cfg.responderEphemeralPriv.getD entropy.ephemeralPriv)
    let shared ← x25519Agree C (cfg.responderEphemeralPriv.getD entropy.ephemeralPriv) clientEphPub
    .ok (ephPub,shared)

open Method

/-- The fields of `s` that an unanswered INIT leaves alone. -/
structure Unanswered (s s' : FederationResponder) : Prop where
  cfg : s'.cfg = s.cfg
  suite : s'.suite = s.suite
  initCanonical : s'.initCanonical = s.initCanonical
  respCanonical : s'.respCanonical = s.respCanonical
  finalSession : s'.finalSession = s.finalSession

theorem responderShare_ok {entropy : ServerEntropy} {pub : Bytes} {share : Bytes × Bytes} :
    (∃ s', (responderShare C entropy pub).call s = (.ok share,s')) ↔
      shareFor C s.cfg s.suite entropy pub = .ok share := by
  rw [responderShare,shareFor.eq_def]
  simp only [get_bind]
  cases s.suite with
  | pq =>
    simp only [lift_bind_eq_ok,bind_eq_ok,call_pure,Prod.mk.injEq]
    constructor
    · rintro ⟨_,u,hu,enc,henc,he,rfl⟩
      exact ⟨u,hu,enc,henc,he⟩
    · rintro ⟨u,hu,enc,henc,he⟩
      exact ⟨s,u,hu,enc,henc,he,rfl⟩
  | x25519 =>
    simp only [modify_bind,lift_bind_eq_ok,bind_eq_ok,call_pure,Prod.mk.injEq]
    constructor
    · rintro ⟨_,pub,hpub,shared,hshared,he,-⟩
      exact ⟨pub,hpub,shared,hshared,he⟩
    · rintro ⟨pub,hpub,shared,hshared,he⟩
      exact ⟨_,pub,hpub,shared,hshared,he,rfl⟩

theorem responderShare_keeps (entropy : ServerEntropy) (pub : Bytes) :
    Keeps (Unanswered s) (responderShare C entropy pub) := by
  refine .bind .get fun t => ?_
  cases t.suite with
  | pq => exact .bind (.lift _) fun _ => .bind (.lift _) fun _ => .pure _
  | x25519 =>
    exact .bind (.modify fun _ h => ⟨h.cfg,h.suite,h.initCanonical,h.respCanonical,
      h.finalSession⟩) fun _ => .bind (.lift _) fun _ => .bind (.lift _) fun _ => .pure _

theorem respond_keeps (entropy : ServerEntropy) (a : PeerInit) :
    Keeps (Unanswered s) (respond C entropy a) :=
  .bind .get fun _ => .bind (responderShare_keeps entropy _) fun _ => .bind (.lift _) fun _ =>
    .bind (.modify fun _ h => ⟨h.cfg,h.suite,h.initCanonical,h.respCanonical,h.finalSession⟩)
      fun _ => .lift _

/-- What a responder sends to an INIT, and holds for it. -/
structure Response (C : Crypto) (s : FederationResponder) (entropy : ServerEntropy)
    (a : PeerInit) (respEphPub shared : Bytes) (bytes : Bytes) : Prop where
  share : shareFor C s.cfg s.suite entropy a.clientEphPub = .ok (respEphPub,shared)
  sent : ∃ keyId, fingerprint C respEphPub = .ok keyId ∧
    composeResponse C s a entropy.sessionId (s.cfg.responderNonce.getD entropy.nonce) respEphPub
      keyId = .ok bytes

/-- The fields after an INIT was answered. -/
structure Answered (C : Crypto) (s s' : FederationResponder) (entropy : ServerEntropy)
    (data : Bytes) (a : PeerInit) (shared bytes : Bytes) : Prop where
  cfg : s'.cfg = s.cfg
  suite : s'.suite = s.suite
  sessionId : s'.sessionId = entropy.sessionId
  sessionKeys : s'.sessionKeys = some (deriveSessionKeysWithResumption C shared a.clientNonce
    (s.cfg.responderNonce.getD entropy.nonce))
  peerDomain : s'.peerDomain = a.serverDomain
  initCanonical : s'.initCanonical = some data
  respCanonical : s'.respCanonical = some bytes
  finalSession : s'.finalSession = s.finalSession

theorem respond_ok {entropy : ServerEntropy} {a : PeerInit}
    (h : (respond C entropy a).call s = (.ok bytes,s')) :
    ∃ respEphPub shared, Response C s entropy a respEphPub shared bytes ∧
      s'.sessionId = entropy.sessionId ∧
      s'.sessionKeys = some (deriveSessionKeysWithResumption C shared a.clientNonce
        (s.cfg.responderNonce.getD entropy.nonce)) := by
  rw [respond,get_bind] at h
  obtain ⟨⟨respEphPub,shared⟩,mid,hshare,h⟩ := Method.bind_eq_ok.mp h
  obtain ⟨keyId,hkeyId,h⟩ := lift_bind_eq_ok.mp h
  rw [modify_bind,lift_eq_ok] at h
  obtain ⟨hsent,rfl⟩ := h
  exact ⟨respEphPub,shared,⟨responderShare_ok.mp ⟨mid,hshare⟩,keyId,hkeyId,hsent⟩,rfl,rfl⟩

/-- What `onInit` accepts, returns and leaves in the fields. -/
theorem onInit_ok {entropy : ServerEntropy}
    (h : (onInit C rt entropy data).call s = (.ok bytes,s')) :
    ∃ a respEphPub shared, takeInit C rt s data = .ok a ∧
      Response C s entropy a respEphPub shared bytes ∧
      Answered C s s' entropy data a shared bytes := by
  rw [onInit,get_bind] at h
  obtain ⟨a,ha,h⟩ := lift_bind_eq_ok.mp h
  obtain ⟨_,mid,hrespond,h⟩ := Method.bind_eq_ok.mp h
  rw [modify_bind,call_pure,Prod.mk.injEq,Except.ok.injEq] at h
  obtain ⟨rfl,rfl⟩ := h
  obtain ⟨respEphPub,shared,hresp,hsid,hkeys⟩ := respond_ok hrespond
  have hmid : Unanswered s mid := by
    have hkept := respond_keeps (C := C) (s := s) entropy a s ⟨rfl,rfl,rfl,rfl,rfl⟩
    rwa [hrespond] at hkept
  exact ⟨a,respEphPub,shared,ha,hresp,hmid.cfg,hmid.suite,hsid,hkeys,rfl,rfl,rfl,
    hmid.finalSession⟩

theorem onInit_error {entropy : ServerEntropy} {e : Thrown}
    (h : (onInit C rt entropy data).call s = (.error e,s')) : Unanswered s s' := by
  rw [onInit,get_bind,call_bind,call_lift] at h
  cases ha : takeInit C rt s data with
  | error e' =>
    rw [ha] at h
    obtain rfl := (Prod.mk.inj h).2
    exact ⟨rfl,rfl,rfl,rfl,rfl⟩
  | ok a =>
    rw [ha] at h
    dsimp only at h
    rw [call_bind] at h
    have hkept := respond_keeps (C := C) (s := s) entropy a s ⟨rfl,rfl,rfl,rfl,rfl⟩
    rcases hr : (respond C entropy a).call s with ⟨_ | b,mid⟩
    · rw [hr] at h hkept
      obtain rfl := (Prod.mk.inj h).2
      exact hkept
    · rw [hr] at h
      dsimp only at h
      rw [modify_bind,call_pure] at h
      cases (Prod.mk.inj h).1

/-- The CONFIRM passes the checks of `onConfirm`. -/
structure ConfirmOk (C : Crypto) (rt : Runtime) (s : FederationResponder) (ms : Members)
    (peerDomainPub init resp : Bytes) : Prop where
  initCanonical : s.initCanonical = some init
  respCanonical : s.respCanonical = some resp
  step : IsStep ms "confirm"
  sameSession : lookup ms (js "session_id") = some (.str s.sessionId)
  resolved : s.cfg.peerDomainPubLookup s.peerDomain = .ok peerDomainPub
  signed : SignedBy C rt peerDomainPub ms
  hash : base64Decode rt (lookup ms (js "confirmation_hash")) =
    .ok (confirmationHash C init resp)
  accepted : expectAccepted (.obj ms) = .ok ()

theorem takeConfirm_eq_ok {keys : SessionKeys} : takeConfirm C rt s data = .ok keys ↔
    ∃ ms pub i r, s.sessionKeys = some keys ∧ parseJson (Utf8.textDecode data) = .ok (.obj ms) ∧
      ConfirmOk C rt s ms pub i r := by
  unfold takeConfirm
  simp only [bind_eq_ok,need_eq_ok,require_eq_ok,checkTypeStepParty_eq_ok,callback_run_eq_ok,
    isStr_iff,constantTimeEqual_iff]
  constructor
  · rintro ⟨i,hi,r,hr,keys',hkeys,m,hparse,-,⟨ms,rfl,hstep⟩,_,hsid,-,rfl,pub,hpub,_,hsigned,_,
      hhash,_,hgot,-,rfl,_,hacc,h⟩
    obtain rfl := Except.ok.inj h
    rw [getProp_obj,Except.ok.injEq] at hsid hhash
    subst hhash
    exact ⟨ms,pub,i,r,hkeys,hparse,hi,hr,hstep,hsid,hpub,checkServerMessage_eq_ok.mp hsigned,hgot,
      hacc⟩
  · rintro ⟨ms,pub,i,r,hkeys,hparse,h⟩
    exact ⟨i,h.initCanonical,r,h.respCanonical,keys,hkeys,_,hparse,(),⟨ms,rfl,h.step⟩,_,
      h.sameSession ▸ rfl,(),rfl,pub,h.resolved,(),checkServerMessage_eq_ok.mpr h.signed,_,rfl,_,
      h.hash,(),rfl,(),h.accepted,rfl⟩

/-- The fields once a CONFIRM was accepted. -/
def granted (s : FederationResponder) (keys : SessionKeys) : FederationResponder :=
  {s with
    finalSession := some ⟨s.sessionId,s.sessionTTL,keys,s.peerDomain⟩
    respEphPriv := none}

/-- What `onConfirm` accepts, returns and leaves in the fields. -/
theorem onConfirm_eq_ok {issue : Option (SessionKeys → Callback ResumptionTicket)} :
    (onConfirm C rt issue data).call s = (.ok bytes,s') ↔
      ∃ keys, takeConfirm C rt s data = .ok keys ∧ composeAccepted C s issue keys = .ok bytes ∧
        s' = granted s keys := by
  rw [onConfirm,get_bind]
  simp only [lift_bind_eq_ok,modify_bind,call_pure,Prod.mk.injEq,Except.ok.injEq]
  constructor
  · rintro ⟨keys,hkeys,_,hbytes,rfl,rfl⟩
    exact ⟨keys,hkeys,hbytes,rfl⟩
  · rintro ⟨keys,hkeys,hbytes,rfl⟩
    exact ⟨keys,hkeys,_,hbytes,rfl,rfl⟩

/-- A CONFIRM that is not accepted leaves the fields as they are. -/
theorem onConfirm_error {issue : Option (SessionKeys → Callback ResumptionTicket)} {e : Thrown}
    (h : (onConfirm C rt issue data).call s = (.error e,s')) : s' = s := by
  rw [onConfirm,get_bind,call_bind,call_lift] at h
  cases hk : takeConfirm C rt s data with
  | error e' =>
    rw [hk] at h
    exact (Prod.mk.inj h).2.symm
  | ok keys =>
    rw [hk] at h
    dsimp only at h
    rw [call_bind,call_lift] at h
    cases hb : composeAccepted C s issue keys with
    | error e' =>
      rw [hb] at h
      exact (Prod.mk.inj h).2.symm
    | ok b =>
      rw [hb] at h
      dsimp only at h
      rw [modify_bind,call_pure] at h
      cases (Prod.mk.inj h).1

theorem session_eq_ok {r : FederationResponderSession} :
    session.call s = (.ok r,s') ↔ s.finalSession = some r ∧ s' = s := by
  rw [session,get_bind,lift_eq_ok,need_eq_ok]

end Specs

end FederationResponder
end Semp
