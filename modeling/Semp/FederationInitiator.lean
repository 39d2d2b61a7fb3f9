import Semp.Federation

/-! The initiator of the federation handshake: `init`, `onResponse`, `onAccepted`,
`session`, the resumption calls and `erase` on the fields of the class. -/
namespace Semp

structure FederationInitiatorConfig where
  suite : JsString
  capabilities : Handshake.Capabilities
  localDomain : JsString
  localServerID : JsString
  localDomainSeed : Bytes
  peerDomainPubLookup : JsString → Callback Bytes
  peerDomain : JsString
  domainProof : Federation.DomainProof
  policyAcceptor : Option (Option Json → Callback (Option JsString))
  initiatorEphemeralPriv : Option Bytes
  initiatorNonce : Option Bytes

/-- What `randomBytes` and the hybrid key generation draw for one call. -/
structure InitiatorEntropy where
  ephemeralPriv : Bytes
  kyberSeed : Bytes
  nonce : Bytes
  deriving DecidableEq, Repr

structure FederationInitiatorSession where
  sessionId : Option Json
  sessionTTL : Option Json
  keys : SessionKeys
  peerDomain : JsString
  resumptionTicket : Option Json
  extensions : Option Json

/-- The fields of the class; `none` is `null`, and `undefined` in a field a peer filled. -/
structure FederationInitiator where
  cfg : FederationInitiatorConfig
  suite : Suite
  localDomainKeyId : JsString
  nonce : Option Bytes
  ephPriv : Option Bytes
  ephPub : Option Bytes
  initCanonical : Option Bytes
  respCanonical : Option Bytes
  sessionId : Option Json
  sessionKeys : Option SessionKeys
  finalSession : Option FederationInitiatorSession
  resumptionSecret : Option Bytes
  resumeNonce : Option Bytes

namespace FederationInitiator
open Handshake Federation

/-- What the initiator takes from a RESPONSE. -/
structure PeerResponse where
  initCanonical : Bytes
  nonce : Bytes
  message : Json
  serverNonce : Bytes
  shared : Bytes

/-- What a resuming initiator takes from an ACCEPTED. -/
structure ResumeAnswer where
  resumptionSecret : Bytes
  resumeNonce : Bytes
  message : Json
  serverNonce : Bytes
  ephShared : Bytes

section Code
variable (C : Crypto) (rt : Runtime)

def new (cfg : FederationInitiatorConfig) : Js FederationInitiator := do
  let suite ← need (Suite.ofName cfg.suite)
    (js "handshake: federation initiator unknown suite "++JsonText.quote cfg.suite)
  require (cfg.localDomain ≠ []) (js "handshake: federation initiator empty localDomain")
  require (cfg.localServerID ≠ []) (js "handshake: federation initiator empty localServerID")
  require (cfg.localDomainSeed.length ≠ 0)
    (js "handshake: federation initiator empty localDomainSeed")
  require (cfg.peerDomain ≠ []) (js "handshake: federation initiator empty peerDomain")
  let localDomainPub ← publicKeyFromSeed C cfg.localDomainSeed
  let localDomainKeyId ← fingerprint C localDomainPub
  .ok {
    cfg := cfg
    suite := suite
    localDomainKeyId := localDomainKeyId
    nonce := cfg.initiatorNonce
    ephPriv := cfg.initiatorEphemeralPriv
    ephPub := none
    initCanonical := none
    respCanonical := none
    sessionId := some (.str [])
    sessionKeys := none
    finalSession := none
    resumptionSecret := none
    resumeNonce := none }

/-- The ephemeral key pair of `init`: generated, or a pinned private key's. -/
def generateEphemeral (entropy : InitiatorEntropy) : Method Thrown FederationInitiator Bytes := do
  let c ← get
  match c.suite with
  | .pq => do
    require (c.cfg.initiatorEphemeralPriv = none)
      (js "handshake: federation initiator PQ ephemeral pinning not supported")
    let kp ← hybridGenerateKeyPair C entropy.ephemeralPriv entropy.kyberSeed
    modify fun c => {c with ephPriv := some kp.secretKey, ephPub := some kp.publicKey}
    return kp.publicKey
  | .x25519 => do
    let ephPriv := c.ephPriv.getD entropy.ephemeralPriv
    modify fun c => {c with ephPriv := some ephPriv}
    let ephPub ← x25519PublicKey C ephPriv
    modify fun c => {c with ephPub := some ephPub}
    return ephPub

/-- The INIT, before it is signed. -/
def initMessage (c : FederationInitiator) (ephPub nonce : Bytes) (ephKeyId : JsString)
    (innerSig : Bytes) : ServerInit where
  nonce := Base64.encode nonce
  serverId := c.cfg.localServerID
  serverDomain := c.cfg.localDomain
  serverEphemeralKey := ⟨c.suite.name,Base64.encode ephPub,ephKeyId⟩
  serverIdentityProof := ⟨c.localDomainKeyId,Base64.encode innerSig⟩
  domainProof := c.cfg.domainProof
  capabilities := c.cfg.capabilities

/-- The INIT on the wire. -/
def composeInit (c : FederationInitiator) (ephPub nonce : Bytes) : Js Bytes := do
  let ephKeyId ← fingerprint C ephPub
  let innerSig ← sign C c.cfg.localDomainSeed (utf8 identityPrefix++(ephPub++nonce))
  sendSigned C (initMessage c ephPub nonce ephKeyId innerSig).members c.cfg.localDomainSeed

/-- `init` up to the bytes of the INIT. -/
def prepare (entropy : InitiatorEntropy) : Method Thrown FederationInitiator Bytes := do
  let c ← get
  let ephPub ← generateEphemeral C entropy
  let nonce := c.nonce.getD entropy.nonce
  modify fun c => {c with nonce := some nonce}
  composeInit C c ephPub nonce

def init (entropy : InitiatorEntropy) : Method Thrown FederationInitiator Bytes := do
  let c ← get
  require (c.initCanonical = none) (js "handshake: federation initiator init already called")
  let bytes ← prepare C entropy
  modify fun c => {c with initCanonical := some bytes}
  return bytes

/-- The peer has to have verified the own domain proof. -/
def expectVerified (m : Json) : Js Unit := do
  let result ← getProp (some m) (js "domain_verification_result")
  let status ← getProp result (js "status")
  if isStr status (js "verified") then .ok ()
  else do
    let detail ← getProp result (js "detail")
    let text ← templateText (some (orElse detail (.str [])))
    raise (js "handshake: peer rejected our domain proof: "++text)

/-- `onResponse` up to the shared secret. -/
def takeResponse (c : FederationInitiator) (data : Bytes) : Js PeerResponse := do
  let initCanonical ← need c.initCanonical (js "handshake: onResponse before init")
  let ephPriv ← need c.ephPriv (js "handshake: federation initiator state missing")
  let nonce ← need c.nonce (js "handshake: federation initiator state missing")
  let m ← parseJson (Utf8.textDecode data)
  refuseRejected m
  checkTypeStepParty m "response" (js "handshake: federation response type/step/party mismatch")
  let domain ← getProp (some m) (js "server_domain")
  require (isStr domain c.cfg.peerDomain) (js "handshake: response server_domain "++
    stringifyText domain++js " != configured peer "++JsonText.quote c.cfg.peerDomain)
  let clientNonce ← getProp (some m) (js "client_nonce")
  require (isStr clientNonce (Base64.encode nonce))
    (js "handshake: federation response client_nonce mismatch")
  expectVerified m
  let peerDomainPub ← (c.cfg.peerDomainPubLookup c.cfg.peerDomain).run
  checkServerMessage C rt m peerDomainPub
    (js "handshake: federation response server_signature did not verify")
  let serverEphPub ← serverEphemeralKey rt m
  let serverNonce ← base64Decode rt (← getProp (some m) (js "server_nonce"))
  checkIdentityProof C rt m peerDomainPub (serverEphPub++serverNonce++nonce)
    (js "handshake: peer inner identity_signature did not verify")
  checkEphemeralSize c.suite (c.ephPub.getD [])
    (js "handshake: federation PQ ephemeral pub size mismatch (have "++
      natText (c.ephPub.getD []).length++js ", want "++natText hybridPublicKeySize++js ")")
  let shared ← clientShared C c.suite ephPriv serverEphPub
  .ok ⟨initCanonical,nonce,m,serverNonce,shared⟩

def PeerResponse.keys (a : PeerResponse) : SessionKeys :=
  deriveSessionKeysWithResumption C a.shared a.nonce a.serverNonce

/-- What the acceptor says of a policy; by default every policy is accepted. -/
def consult (cfg : FederationInitiatorConfig) (policy : Option Json) : Js (Option JsString) :=
  match cfg.policyAcceptor with
  | none => .ok none
  | some acceptor => (acceptor policy).run

/-- `onResponse` from the policy to the CONFIRM: the session id it names, and its bytes. -/
def composeConfirm (cfg : FederationInitiatorConfig) (m : Json) (ch : Bytes) :
    Js (Option Json × Bytes) := do
  let policy ← getProp (some m) (js "federation_policy")
  let reason ← consult cfg policy
  let sessionId ← getProp (some m) (js "session_id")
  let bytes ← sendSigned C (FederationConfirm.mk sessionId (Base64.encode ch) reason).members
    cfg.localDomainSeed
  .ok (sessionId,bytes)

def onResponse (data : Bytes) : Method Thrown FederationInitiator Bytes := do
  let c ← get
  let a ← takeResponse C rt c data
  modify fun c => {c with sessionKeys := some (a.keys C), ephPriv := none}
  let respCanonical ← Canonical.marshal a.message
  modify fun c => {c with respCanonical := some respCanonical}
  let confirm ← composeConfirm C c.cfg a.message (confirmationHash C a.initCanonical respCanonical)
  modify fun c => {c with sessionId := confirm.1}
  return confirm.2

/-- `acc.session_ttl > 0 ? acc.session_ttl : 3600` -/
def acceptedTTL (m : Json) : Js (Option Json) := do
  let ttl ← getProp (some m) (js "session_ttl")
  let positive ← gtZero ttl
  .ok (if positive then ttl else some (.num (.ofNat 3600)))

/-- The session an ACCEPTED announces. -/
def sessionOf (c : FederationInitiator) (keys : SessionKeys) (m : Json) :
    Js FederationInitiatorSession := do
  let ttl ← acceptedTTL m
  let sessionId ← getProp (some m) (js "session_id")
  let ticket ← getProp (some m) (js "resumption_ticket")
  let extensions ← getProp (some m) (js "extensions")
  .ok ⟨sessionId,ttl,keys,c.cfg.peerDomain,ticket,extensions⟩

/-- The checks of `onAccepted`, and the session they lead to. -/
def takeAccepted (c : FederationInitiator) (data : Bytes) : Js FederationInitiatorSession := do
  let keys ← need c.sessionKeys (js "handshake: onAccepted before onResponse")
  let m ← parseJson (Utf8.textDecode data)
  refuseRejected m
  checkTypeStepParty m "accepted" (js "handshake: federation accepted type/step/party mismatch")
  let sessionId ← getProp (some m) (js "session_id")
  require (strictEq sessionId c.sessionId) (js "handshake: federation accepted session_id mismatch")
  let peerDomainPub ← (c.cfg.peerDomainPubLookup c.cfg.peerDomain).run
  checkServerMessage C rt m peerDomainPub
    (js "handshake: federation accepted server_signature did not verify")
  sessionOf c keys m

def onAccepted (data : Bytes) : Method Thrown FederationInitiator Unit := do
  let c ← get
  let session ← takeAccepted C rt c data
  modify fun c => {c with finalSession := some session}

def session : Method Thrown FederationInitiator FederationInitiatorSession := do
  let c ← get
  need c.finalSession (js "handshake: federation session not yet established")

def loadResumptionSecret (secret : Bytes) : Method Thrown FederationInitiator Unit := do
  require (secret.length ≠ 0) (js "handshake: empty resumption secret")
  modify fun c => {c with resumptionSecret := some secret}

/-- The RESUME of an initiator. -/
def resumeMessage (c : FederationInitiator) (ticket : Bytes) (revision : Number)
    (resumeNonce ephPub : Bytes) (ephKeyId : JsString) : FederationResume where
  nonce := Base64.encode resumeNonce
  serverId := c.cfg.localServerID
  serverDomain := c.cfg.localDomain
  peerConfigurationRevision := if Number.lt (.zero false) revision then some revision else none
  resumptionTicket := Base64.encode ticket
  clientEphemeralKey := ⟨c.suite.name,Base64.encode ephPub,ephKeyId⟩

def resume (entropy : InitiatorEntropy) (ticket : Bytes) (peerConfigurationRevision : Number) :
    Method Thrown FederationInitiator Bytes := do
  let c ← get
  require (c.resumptionSecret ≠ none) (js "handshake: resume before loadResumptionSecret")
  require (ticket.length ≠ 0) (js "handshake: empty federation resumption ticket")
  let resumeNonce := c.resumeNonce.getD entropy.nonce
  let ephPriv := c.ephPriv.getD entropy.ephemeralPriv
  modify fun c => {c with resumeNonce := some resumeNonce, ephPriv := some ephPriv}
  let ephPub ← x25519PublicKey C ephPriv
  modify fun c => {c with ephPub := some ephPub}
  let ephKeyId ← fingerprint C ephPub
  Canonical.marshal (.obj
    (resumeMessage c ticket peerConfigurationRevision resumeNonce ephPub ephKeyId).members)

/-- `onResumeAccepted` up to the shared secret. -/
def takeResumeAccepted (c : FederationInitiator) (data : Bytes) : Js ResumeAnswer := do
  let resumptionSecret ← need c.resumptionSecret
    (js "handshake: onResumeAccepted before resume")
  let resumeNonce ← need c.resumeNonce (js "handshake: onResumeAccepted before resume")
  let ephPriv ← need c.ephPriv (js "handshake: federation resume ephemeral missing")
  let m ← parseJson (Utf8.textDecode data)
  refuseRejected m
  checkTypeStepParty m "accepted"
    (js "handshake: resumed federation accepted type/step/party mismatch")
  let ephKey ← getProp (some m) (js "server_ephemeral_key")
  let nonce ← getProp (some m) (js "server_nonce")
  let ticket ← getProp (some m) (js "resumption_ticket")
  require (ephKey.isSome ∧ nonce.isSome ∧ ticket.isSome)
    (js ("handshake: resumed federation accepted missing "++
      "server_ephemeral_key / server_nonce / resumption_ticket"))
  let peerDomainPub ← (c.cfg.peerDomainPubLookup c.cfg.peerDomain).run
  checkServerMessage C rt m peerDomainPub
    (js "handshake: resumed federation accepted server_signature did not verify")
  let serverNonce ← base64Decode rt nonce
  let serverEphPub ← serverEphemeralKey rt m
  let ephShared ← x25519Agree C ephPriv serverEphPub
  .ok ⟨resumptionSecret,resumeNonce,m,serverNonce,ephShared⟩

/-- `K_resumption` comes first in the input keying material. -/
def ResumeAnswer.keys (a : ResumeAnswer) : SessionKeys :=
  deriveSessionKeysWithResumption C (a.resumptionSecret++a.ephShared) a.resumeNonce a.serverNonce

def onResumeAccepted (data : Bytes) :
    Method Thrown FederationInitiator (FederationInitiatorSession × Bytes) := do
  let c ← get
  let a ← takeResumeAccepted C rt c data
  modify fun c => {c with ephPriv := none, resumptionSecret := none}
  let session ← sessionOf c (a.keys C) a.message
  modify fun c => {c with finalSession := some session}
  let value ← getProp session.resumptionTicket (js "value")
  let newTicket ← base64Decode rt value
  return (session,newTicket)

def erase : Method Thrown FederationInitiator Unit :=
  modify fun c => {c with
    ephPriv := none, nonce := none, resumptionSecret := none, sessionKeys := none}

end Code

section Specs
open Method
variable {C : Crypto} {rt : Runtime} {c c' : FederationInitiator} {data : Bytes}

/-- The RESPONSE passes the checks of `onResponse`, with this answer. -/
structure ResponseOk (C : Crypto) (rt : Runtime) (c : FederationInitiator) (ms : Members)
    (peerDomainPub ephPriv serverEphPub : Bytes) (a : PeerResponse) : Prop where
  initCanonical : c.initCanonical = some a.initCanonical
  priv : c.ephPriv = some ephPriv
  nonce : c.nonce = some a.nonce
  message : a.message = .obj ms
  step : IsStep ms "response"
  domain : lookup ms (js "server_domain") = some (.str c.cfg.peerDomain)
  echo : lookup ms (js "client_nonce") = some (.str (Base64.encode a.nonce))
  verified : getProp (lookup ms (js "domain_verification_result")) (js "status") =
    .ok (some (.str (js "verified")))
  resolved : c.cfg.peerDomainPubLookup c.cfg.peerDomain = .ok peerDomainPub
  signed : SignedBy C rt peerDomainPub ms
  ephemeral : serverEphemeralKey rt (.obj ms) = .ok serverEphPub
  serverNonce : base64Decode rt (lookup ms (js "server_nonce")) = .ok a.serverNonce
  proof : checkIdentityProof C rt (.obj ms) peerDomainPub (serverEphPub++a.serverNonce++a.nonce)
    (js "handshake: peer inner identity_signature did not verify") = .ok ()
  size : c.suite = .pq → (c.ephPub.getD []).length = hybridPublicKeySize
  shared : clientShared C c.suite ephPriv serverEphPub = .ok a.shared

theorem expectVerified_eq_ok {m : Json} {u : Unit} : expectVerified m = .ok u ↔
    ∃ result, getProp (some m) (js "domain_verification_result") = .ok result ∧
      getProp result (js "status") = .ok (some (.str (js "verified"))) := by
  unfold expectVerified
  simp only [bind_eq_ok]
  constructor
  · rintro ⟨result,hr,status,hs,h⟩
    split_ifs at h with hv
    · rw [isStr_iff.mp hv] at hs
      exact ⟨result,hr,hs⟩
    · simp [bind_eq_ok] at h
  · rintro ⟨result,hr,hs⟩
    exact ⟨result,hr,_,hs,by rw [if_pos (by simp [isStr])]⟩

theorem takeResponse_eq_ok {a : PeerResponse} : takeResponse C rt c data = .ok a ↔
    ∃ ms pub ephPriv serverEphPub, parseJson (Utf8.textDecode data) = .ok (.obj ms) ∧
      ResponseOk C rt c ms pub ephPriv serverEphPub a := by
  unfold takeResponse
  simp only [bind_eq_ok,need_eq_ok,require_eq_ok,checkTypeStepParty_eq_ok,expectVerified_eq_ok,
    callback_run_eq_ok,checkEphemeralSize,isStr_iff]
  constructor
  · rintro ⟨initCanonical,hinit,ephPriv,heph,nonce,hnonce,m,hparse,-,-,-,⟨ms,rfl,hstep⟩,
      _,hdomain,-,rfl,_,hecho,-,rfl,-,⟨_,hresult,hstatus⟩,pub,hpub,_,hsigned,serverEphPub,hkey,
      _,hsn,serverNonce,hnon,_,hproof,_,hsize,shared,hshared,h⟩
    obtain rfl := Except.ok.inj h
    rw [getProp_obj,Except.ok.injEq] at hdomain hecho hresult hsn
    subst hresult hsn
    exact ⟨ms,pub,ephPriv,serverEphPub,hparse,hinit,heph,hnonce,rfl,hstep,hdomain,hecho,hstatus,
      hpub,checkServerMessage_eq_ok.mp hsigned,hkey,hnon,hproof,hsize,hshared⟩
  · rintro ⟨ms,pub,ephPriv,serverEphPub,hparse,h⟩
    refine ⟨_,h.initCanonical,_,h.priv,_,h.nonce,_,hparse,(),
      refuseRejected_obj "response" h.step.step (by decide),(),⟨ms,rfl,h.step⟩,_,h.domain ▸ rfl,
      (),rfl,_,h.echo ▸ rfl,(),rfl,(),⟨_,rfl,h.verified⟩,pub,h.resolved,(),
      checkServerMessage_eq_ok.mpr h.signed,_,h.ephemeral,_,rfl,_,h.serverNonce,(),h.proof,(),
      h.size,_,h.shared,?_⟩
    rw [← h.message]

/-- The fields once the keys of a RESPONSE are derived. -/
def keyed (C : Crypto) (c : FederationInitiator) (a : PeerResponse) : FederationInitiator :=
  {c with
    sessionKeys := some (a.keys C)
    ephPriv := none
    respCanonical := some (Canonical.canonicalBytes a.message)}

/-- The CONFIRM an initiator answers with, or the error of its acceptor. -/
def confirmFor (C : Crypto) (c : FederationInitiator) (a : PeerResponse) :
    Js (Option Json × Bytes) :=
  composeConfirm C c.cfg a.message
    (confirmationHash C a.initCanonical (Canonical.canonicalBytes a.message))

/-- The key pair of an INIT: generated, or a pinned private key's. -/
def Generated (C : Crypto) (c : FederationInitiator) (entropy : InitiatorEntropy)
    (ephPriv ephPub : Bytes) : Prop :=
  match c.suite with
  | .pq => c.cfg.initiatorEphemeralPriv = none ∧
    hybridGenerateKeyPair C entropy.ephemeralPriv entropy.kyberSeed = .ok ⟨ephPub,ephPriv⟩
  | .x25519 => ephPriv = c.ephPriv.getD entropy.ephemeralPriv ∧ x25519PublicKey C ephPriv = .ok ephPub

theorem Generated.keysMatch {entropy : InitiatorEntropy} {ephPriv ephPub : Bytes}
    (h : Generated C c entropy ephPriv ephPub) : Seal.KeysMatch C c.suite ephPriv ephPub := by
  unfold Generated at h
  cases hs : c.suite with
  | x25519 =>
    rw [hs] at h
    exact h.2
  | pq =>
    rw [hs] at h
    exact ⟨_,_,h.2⟩

theorem generateEphemeral_eq_ok {entropy : InitiatorEntropy} {ephPub : Bytes} :
    (generateEphemeral C entropy).call c = (.ok ephPub,c') ↔
      ∃ ephPriv, Generated C c entropy ephPriv ephPub ∧
        c' = {c with ephPriv := some ephPriv, ephPub := some ephPub} := by
  rw [generateEphemeral,get_bind]
  unfold Generated
  cases hs : c.suite with
  | pq =>
    simp only [lift_bind_eq_ok,modify_bind,call_pure,require_eq_ok,Prod.mk.injEq,Except.ok.injEq]
    constructor
    · rintro ⟨-,hp,kp,hkp,rfl,rfl⟩
      exact ⟨kp.secretKey,⟨hp,hkp⟩,by rw [← hs]⟩
    · rintro ⟨ephPriv,⟨hp,hkp⟩,rfl⟩
      exact ⟨(),hp,_,hkp,rfl,by rw [← hs]⟩
  | x25519 =>
    simp only [lift_bind_eq_ok,modify_bind,call_pure,Prod.mk.injEq,Except.ok.injEq]
    constructor
    · rintro ⟨pub,hpub,rfl,rfl⟩
      exact ⟨_,⟨rfl,hpub⟩,by rw [← hs]⟩
    · rintro ⟨ephPriv,⟨rfl,hpub⟩,rfl⟩
      exact ⟨_,hpub,rfl,by rw [← hs]⟩

/-- The fields once the INIT is out. -/
def offering (c : FederationInitiator) (nonce ephPriv ephPub bytes : Bytes) :
    FederationInitiator :=
  {c with
    nonce := some nonce
    ephPriv := some ephPriv
    ephPub := some ephPub
    initCanonical := some bytes}

theorem prepare_eq_ok {entropy : InitiatorEntropy} {bytes : Bytes} :
    (prepare C entropy).call c = (.ok bytes,c') ↔
      ∃ ephPriv ephPub, Generated C c entropy ephPriv ephPub ∧
        composeInit C c ephPub (c.nonce.getD entropy.nonce) = .ok bytes ∧
        c' = {c with
          nonce := some (c.nonce.getD entropy.nonce)
          ephPriv := some ephPriv
          ephPub := some ephPub} := by
  rw [prepare,get_bind,Method.bind_eq_ok]
  simp only [generateEphemeral_eq_ok,modify_bind,lift_eq_ok]
  constructor
  · rintro ⟨pub,_,⟨priv,hgen,rfl⟩,hb,rfl⟩
    exact ⟨priv,pub,hgen,hb,rfl⟩
  · rintro ⟨priv,pub,hgen,hb,rfl⟩
    exact ⟨pub,_,⟨priv,hgen,rfl⟩,hb,rfl⟩

/-- What `init` returns and leaves in the fields. -/
theorem init_eq_ok {entropy : InitiatorEntropy} {bytes : Bytes} :
    (init C entropy).call c = (.ok bytes,c') ↔ c.initCanonical = none ∧
      ∃ ephPriv ephPub, Generated C c entropy ephPriv ephPub ∧
        composeInit C c ephPub (c.nonce.getD entropy.nonce) = .ok bytes ∧
        c' = offering c (c.nonce.getD entropy.nonce) ephPriv ephPub bytes := by
  rw [init,get_bind,lift_bind_eq_ok]
  simp only [require_eq_ok]
  constructor
  · rintro ⟨-,hn,h⟩
    obtain ⟨b,mid,hprep,h⟩ := Method.bind_eq_ok.mp h
    obtain ⟨priv,pub,hgen,hb,rfl⟩ := prepare_eq_ok.mp hprep
    rw [modify_bind,call_pure,Prod.mk.injEq,Except.ok.injEq] at h
    obtain ⟨rfl,rfl⟩ := h
    exact ⟨hn,priv,pub,hgen,hb,rfl⟩
  · rintro ⟨hn,priv,pub,hgen,hb,rfl⟩
    refine ⟨(),hn,Method.bind_eq_ok.mpr ⟨bytes,_,prepare_eq_ok.mpr ⟨priv,pub,hgen,hb,rfl⟩,?_⟩⟩
    rw [modify_bind,call_pure]
    rfl

theorem new_eq_ok {cfg : FederationInitiatorConfig} : new C cfg = .ok c ↔
    ∃ suite pub keyId, Suite.ofName cfg.suite = some suite ∧ cfg.localDomain ≠ [] ∧
      cfg.localServerID ≠ [] ∧ cfg.localDomainSeed.length ≠ 0 ∧ cfg.peerDomain ≠ [] ∧
      publicKeyFromSeed C cfg.localDomainSeed = .ok pub ∧ fingerprint C pub = .ok keyId ∧ c = {
        cfg := cfg
        suite := suite
        localDomainKeyId := keyId
        nonce := cfg.initiatorNonce
        ephPriv := cfg.initiatorEphemeralPriv
        ephPub := none
        initCanonical := none
        respCanonical := none
        sessionId := some (.str [])
        sessionKeys := none
        finalSession := none
        resumptionSecret := none
        resumeNonce := none } := by
  unfold new
  simp only [bind_eq_ok,need_eq_ok,require_eq_ok,exists_const,Except.ok.injEq,eq_comm (b := c)]
  constructor
  · rintro ⟨suite,hs,h1,h2,h3,h4,pub,hpub,keyId,hk,h⟩
    exact ⟨suite,pub,keyId,hs,h1,h2,h3,h4,hpub,hk,h⟩
  · rintro ⟨suite,pub,keyId,hs,h1,h2,h3,h4,hpub,hk,h⟩
    exact ⟨suite,hs,h1,h2,h3,h4,pub,hpub,keyId,hk,h⟩

theorem onResponse_of_error {e : Thrown} (h : takeResponse C rt c data = .error e) :
    (onResponse C rt data).call c = (.error e,c) := by
  rw [onResponse,get_bind,call_bind,h,call_lift]

/-- A RESPONSE that passes the checks leaves the keys in the fields, whether the policy is
accepted, refused or never judged. -/
theorem onResponse_of_ok {a : PeerResponse} (h : takeResponse C rt c data = .ok a) :
    (onResponse C rt data).call c = match confirmFor C c a with
      | .ok confirm => (.ok confirm.2,{keyed C c a with sessionId := confirm.1})
      | .error e => (.error e,keyed C c a) := by
  obtain ⟨ms,pub,ephPriv,serverEphPub,hparse,hok⟩ := takeResponse_eq_ok.mp h
  have hwf : a.message.WF := by
    rw [hok.message]
    exact JsonText.parse_wf (parseJson_eq_ok.mp hparse)
  rw [onResponse,get_bind,call_bind,h,call_lift]
  simp only [modify_bind]
  rw [Canonical.marshal_eq hwf,call_bind,call_lift]
  simp only [modify_bind]
  rw [call_bind]
  rw [call_lift,confirmFor]
  cases composeConfirm C c.cfg a.message _ <;> rfl

theorem onAccepted_call : (onAccepted C rt data).call c = match takeAccepted C rt c data with
      | .ok session => (.ok (),{c with finalSession := some session})
      | .error e => (.error e,c) := by
  rw [onAccepted,get_bind,call_bind,call_lift]
  cases takeAccepted C rt c data <;> rfl

theorem session_eq_ok {r : FederationInitiatorSession} :
    session.call c = (.ok r,c') ↔ c.finalSession = some r ∧ c' = c := by
  rw [session,get_bind,lift_eq_ok,need_eq_ok]

/-- The session an ACCEPTED with these members announces. -/
def announced (c : FederationInitiator) (keys : SessionKeys) (ms : Members) (positive : Bool) :
    FederationInitiatorSession where
  sessionId := lookup ms (js "session_id")
  sessionTTL := if positive then lookup ms (js "session_ttl") else some (.num (.ofNat 3600))
  keys := keys
  peerDomain := c.cfg.peerDomain
  resumptionTicket := lookup ms (js "resumption_ticket")
  extensions := lookup ms (js "extensions")

theorem sessionOf_obj_eq_ok {keys : SessionKeys} {ms : Members} {r : FederationInitiatorSession} :
    sessionOf c keys (.obj ms) = .ok r ↔
      ∃ positive, gtZero (lookup ms (js "session_ttl")) = .ok positive ∧
        r = announced c keys ms positive := by
  simp only [sessionOf,acceptedTTL,getProp_obj,ok_bind,bind_eq_ok,Except.ok.injEq]
  constructor
  · rintro ⟨_,⟨positive,hp,rfl⟩,rfl⟩
    exact ⟨positive,hp,rfl⟩
  · rintro ⟨positive,hp,rfl⟩
    exact ⟨_,⟨positive,hp,rfl⟩,rfl⟩

/-- The ACCEPTED passes the checks of `onAccepted`. -/
structure AcceptedOk (C : Crypto) (rt : Runtime) (c : FederationInitiator) (ms : Members)
    (peerDomainPub : Bytes) (positive : Bool) : Prop where
  step : IsStep ms "accepted"
  sameSession : strictEq (lookup ms (js "session_id")) c.sessionId = true
  resolved : c.cfg.peerDomainPubLookup c.cfg.peerDomain = .ok peerDomainPub
  signed : SignedBy C rt peerDomainPub ms
  ttl : gtZero (lookup ms (js "session_ttl")) = .ok positive

theorem takeAccepted_eq_ok {r : FederationInitiatorSession} :
    takeAccepted C rt c data = .ok r ↔ ∃ keys ms pub positive, c.sessionKeys = some keys ∧
      parseJson (Utf8.textDecode data) = .ok (.obj ms) ∧ AcceptedOk C rt c ms pub positive ∧
      r = announced c keys ms positive := by
  unfold takeAccepted
  simp only [bind_eq_ok,need_eq_ok,require_eq_ok,checkTypeStepParty_eq_ok,callback_run_eq_ok]
  constructor
  · rintro ⟨keys,hkeys,m,hparse,-,-,-,⟨ms,rfl,hstep⟩,_,hsid,-,hsame,pub,hpub,_,hsigned,h⟩
    rw [getProp_obj,Except.ok.injEq] at hsid
    subst hsid
    obtain ⟨positive,hp,rfl⟩ := sessionOf_obj_eq_ok.mp h
    exact ⟨keys,ms,pub,positive,hkeys,hparse,
      ⟨hstep,hsame,hpub,checkServerMessage_eq_ok.mp hsigned,hp⟩,rfl⟩
  · rintro ⟨keys,ms,pub,positive,hkeys,hparse,h,rfl⟩
    exact ⟨keys,hkeys,_,hparse,(),refuseRejected_obj "accepted" h.step.step (by decide),(),
      ⟨ms,rfl,h.step⟩,_,rfl,(),h.sameSession,pub,h.resolved,(),
      checkServerMessage_eq_ok.mpr h.signed,sessionOf_obj_eq_ok.mpr ⟨positive,h.ttl,rfl⟩⟩

/-- The ACCEPTED passes the checks of `onResumeAccepted`, with this answer. -/
structure ResumeAcceptedOk (C : Crypto) (rt : Runtime) (c : FederationInitiator) (ms : Members)
    (peerDomainPub ephPriv serverEphPub : Bytes) (a : ResumeAnswer) : Prop where
  secret : c.resumptionSecret = some a.resumptionSecret
  nonce : c.resumeNonce = some a.resumeNonce
  priv : c.ephPriv = some ephPriv
  message : a.message = .obj ms
  step : IsStep ms "accepted"
  ephemeralKey : (lookup ms (js "server_ephemeral_key")).isSome
  nonceThere : (lookup ms (js "server_nonce")).isSome
  ticket : (lookup ms (js "resumption_ticket")).isSome
  resolved : c.cfg.peerDomainPubLookup c.cfg.peerDomain = .ok peerDomainPub
  signed : SignedBy C rt peerDomainPub ms
  serverNonce : base64Decode rt (lookup ms (js "server_nonce")) = .ok a.serverNonce
  ephemeral : serverEphemeralKey rt (.obj ms) = .ok serverEphPub
  shared : x25519Agree C ephPriv serverEphPub = .ok a.ephShared

theorem takeResumeAccepted_eq_ok {a : ResumeAnswer} :
    takeResumeAccepted C rt c data = .ok a ↔ ∃ ms pub ephPriv serverEphPub,
      parseJson (Utf8.textDecode data) = .ok (.obj ms) ∧
      ResumeAcceptedOk C rt c ms pub ephPriv serverEphPub a := by
  unfold takeResumeAccepted
  simp only [bind_eq_ok,need_eq_ok,require_eq_ok,checkTypeStepParty_eq_ok,callback_run_eq_ok]
  constructor
  · rintro ⟨secret,hsecret,nonce,hnonce,ephPriv,hpriv,m,hparse,-,-,-,⟨ms,rfl,hstep⟩,_,hkey,_,hsn,_,
      hticket,-,⟨hk,hn,ht⟩,pub,hpub,_,hsigned,serverNonce,hnon,serverEphPub,heph,shared,hshared,h⟩
    obtain rfl := Except.ok.inj h
    rw [getProp_obj,Except.ok.injEq] at hkey hsn hticket
    subst hkey hsn hticket
    exact ⟨ms,pub,ephPriv,serverEphPub,hparse,hsecret,hnonce,hpriv,rfl,hstep,hk,hn,ht,hpub,
      checkServerMessage_eq_ok.mp hsigned,hnon,heph,hshared⟩
  · rintro ⟨ms,pub,ephPriv,serverEphPub,hparse,h⟩
    refine ⟨_,h.secret,_,h.nonce,_,h.priv,_,hparse,(),
      refuseRejected_obj "accepted" h.step.step (by decide),(),⟨ms,rfl,h.step⟩,_,rfl,_,rfl,_,rfl,(),
      ⟨h.ephemeralKey,h.nonceThere,h.ticket⟩,pub,h.resolved,(),checkServerMessage_eq_ok.mpr h.signed,
      _,h.serverNonce,_,h.ephemeral,_,h.shared,?_⟩
    rw [← h.message]

/-- What `resume` returns and leaves in the fields. -/
theorem resume_eq_ok {entropy : InitiatorEntropy} {ticket req : Bytes} {revision : Number} :
    (resume C entropy ticket revision).call c = (.ok req,c') ↔
      c.resumptionSecret ≠ none ∧ ticket.length ≠ 0 ∧ ∃ ephPub keyId,
        x25519PublicKey C (c.ephPriv.getD entropy.ephemeralPriv) = .ok ephPub ∧
        fingerprint C ephPub = .ok keyId ∧
        req = Canonical.canonicalBytes (.obj (resumeMessage c ticket revision
          (c.resumeNonce.getD entropy.nonce) ephPub keyId).members) ∧
        c' = {c with
          resumeNonce := some (c.resumeNonce.getD entropy.nonce)
          ephPriv := some (c.ephPriv.getD entropy.ephemeralPriv)
          ephPub := some ephPub} := by
  rw [resume,get_bind]
  simp only [lift_bind_eq_ok,modify_bind,lift_eq_ok,require_eq_ok,
    Canonical.marshal_eq (FederationResume.wf _),Except.ok.injEq,exists_const]
  constructor
  · rintro ⟨hsecret,hticket,ephPub,hpub,keyId,hkeyId,rfl,rfl⟩
    exact ⟨hsecret,hticket,ephPub,keyId,hpub,hkeyId,rfl,rfl⟩
  · rintro ⟨hsecret,hticket,ephPub,keyId,hpub,hkeyId,rfl,rfl⟩
    exact ⟨hsecret,hticket,ephPub,hpub,keyId,hkeyId,rfl,rfl⟩

/-- Once the time to live of an ACCEPTED can be compared, the session is stored, whatever
follows. -/
theorem onResumeAccepted_finalSession {v : FederationInitiatorSession} :
    ((onResumeAccepted C rt data).call c).2.finalSession = some v ↔
      (∃ a, takeResumeAccepted C rt c data = .ok a ∧ sessionOf c (a.keys C) a.message = .ok v) ∨
      c.finalSession = some v ∧ ∀ a, takeResumeAccepted C rt c data = .ok a →
        ∀ r, sessionOf c (a.keys C) a.message ≠ .ok r := by
  rw [onResumeAccepted,get_bind,call_bind,call_lift]
  cases ha : takeResumeAccepted C rt c data with
  | error e => simp
  | ok a =>
    simp only [modify_bind]
    rw [call_bind,call_lift]
    cases hs : sessionOf c (a.keys C) a.message with
    | error e => simp [hs]
    | ok r =>
      simp only [modify_bind]
      have hframe : ((do
          let value ← getProp r.resumptionTicket (js "value")
          let newTicket ← base64Decode rt value
          pure (r,newTicket) : Method Thrown FederationInitiator _).call
          {c with ephPriv := none, resumptionSecret := none, finalSession := some r}).2 =
          {c with ephPriv := none, resumptionSecret := none, finalSession := some r} := by
        rw [call_bind,call_lift]
        cases getProp r.resumptionTicket (js "value") with
        | error e => rfl
        | ok value =>
          dsimp only
          rw [call_bind,call_lift]
          cases base64Decode rt value <;> rfl
      rw [hframe]
      simp [hs]

/-- An ACCEPTED that passes the checks, with a ticket to read, gives a session. -/
theorem onResumeAccepted_ok {a : ResumeAnswer} {ms ticket : Members} {positive : Bool}
    {value : JsString} (ha : takeResumeAccepted C rt c data = .ok a) (hm : a.message = .obj ms)
    (httl : gtZero (lookup ms (js "session_ttl")) = .ok positive)
    (hticket : lookup ms (js "resumption_ticket") = some (.obj ticket))
    (hvalue : lookup ticket (js "value") = some (.str value)) :
    (onResumeAccepted C rt data).call c =
      (.ok (announced c (a.keys C) ms positive,Base64.decode value),{c with
        ephPriv := none
        resumptionSecret := none
        finalSession := some (announced c (a.keys C) ms positive)}) := by
  have hsession : sessionOf c (a.keys C) a.message = .ok (announced c (a.keys C) ms positive) := by
    rw [hm]
    exact sessionOf_obj_eq_ok.mpr ⟨positive,httl,rfl⟩
  have hv : getProp (announced c (a.keys C) ms positive).resumptionTicket (js "value") =
      .ok (some (.str value)) := by
    rw [announced,hticket,getProp_obj,hvalue]
  rw [onResumeAccepted,get_bind]
  refine lift_bind_eq_ok.mpr ⟨a,ha,?_⟩
  rw [modify_bind]
  refine lift_bind_eq_ok.mpr ⟨_,hsession,?_⟩
  rw [modify_bind]
  refine lift_bind_eq_ok.mpr ⟨_,hv,?_⟩
  exact lift_bind_eq_ok.mpr ⟨_,base64Decode_str ..,rfl⟩

/-- The keys of a session that the call returns are those of the answer it took. -/
theorem keys_of_onResumeAccepted {r : FederationInitiatorSession × Bytes}
    (h : (onResumeAccepted C rt data).call c = (.ok r,c')) :
    ∃ a, takeResumeAccepted C rt c data = .ok a ∧ r.1.keys = a.keys C := by
  rw [onResumeAccepted,get_bind] at h
  obtain ⟨a,ha,h⟩ := lift_bind_eq_ok.mp h
  rw [modify_bind] at h
  obtain ⟨session,hsession,h⟩ := lift_bind_eq_ok.mp h
  rw [modify_bind] at h
  obtain ⟨value,-,h⟩ := lift_bind_eq_ok.mp h
  obtain ⟨newTicket,-,h⟩ := lift_bind_eq_ok.mp h
  obtain rfl := Except.ok.inj (Prod.mk.inj h).1
  obtain ⟨ms,_,_,_,-,hok⟩ := takeResumeAccepted_eq_ok.mp ha
  rw [hok.message] at hsession
  obtain ⟨positive,-,rfl⟩ := sessionOf_obj_eq_ok.mp hsession
  exact ⟨a,ha,rfl⟩

/-- The calls of the class. -/
inductive InitiatorCall
  | init (entropy : InitiatorEntropy)
  | onResponse (data : Bytes)
  | onAccepted (data : Bytes)
  | session
  | loadResumptionSecret (secret : Bytes)
  | resume (entropy : InitiatorEntropy) (ticket : Bytes) (peerConfigurationRevision : Number)
  | onResumeAccepted (data : Bytes)
  | erase

/-- What a call returns. -/
inductive Returned
  | nothing
  | message (bytes : Bytes)
  | session (session : FederationInitiatorSession)
  | resumed (session : FederationInitiatorSession) (newTicket : Bytes)

variable (C rt) in
def perform : InitiatorCall → Method Thrown FederationInitiator Returned
  | .init entropy => .message <$> init C entropy
  | .onResponse data => .message <$> onResponse C rt data
  | .onAccepted data => (fun _ => .nothing) <$> onAccepted C rt data
  | .session => .session <$> session
  | .loadResumptionSecret secret => (fun _ => .nothing) <$> loadResumptionSecret secret
  | .resume entropy ticket revision => .message <$> resume C entropy ticket revision
  | .onResumeAccepted data => (fun r => .resumed r.1 r.2) <$> onResumeAccepted C rt data
  | .erase => (fun _ => .nothing) <$> erase

/-- The message establishes a session when it reaches the initiator in this state. -/
def Admits (C : Crypto) (rt : Runtime) (c : FederationInitiator) : InitiatorCall → Prop
  | .onAccepted data => c.sessionKeys ≠ none ∧ ∃ ms pub positive,
      parseJson (Utf8.textDecode data) = .ok (.obj ms) ∧ AcceptedOk C rt c ms pub positive
  | .onResumeAccepted data => ∃ ms pub ephPriv serverEphPub a positive,
      parseJson (Utf8.textDecode data) = .ok (.obj ms) ∧
      ResumeAcceptedOk C rt c ms pub ephPriv serverEphPub a ∧
      gtZero (lookup ms (js "session_ttl")) = .ok positive
  | _ => False

section Frame
variable {v : Option FederationInitiatorSession}

theorem generateEphemeral_keeps (entropy : InitiatorEntropy) :
    Keeps (fun c : FederationInitiator => c.finalSession = v) (generateEphemeral C entropy) := by
  refine .bind .get fun c => ?_
  cases c.suite with
  | pq =>
    exact .bind (.lift _) fun _ => .bind (.lift _) fun _ => .bind (.modify fun _ h => h) fun _ =>
      .pure _
  | x25519 =>
    exact .bind (.modify fun _ h => h) fun _ => .bind (.lift _) fun _ =>
      .bind (.modify fun _ h => h) fun _ => .pure _

theorem prepare_keeps (entropy : InitiatorEntropy) :
    Keeps (fun c : FederationInitiator => c.finalSession = v) (prepare C entropy) :=
  .bind .get fun _ => .bind (generateEphemeral_keeps entropy) fun _ =>
    .bind (.modify fun _ h => h) fun _ => .lift _

theorem init_keeps (entropy : InitiatorEntropy) :
    Keeps (fun c : FederationInitiator => c.finalSession = v) (init C entropy) :=
  .bind .get fun _ => .bind (.lift _) fun _ => .bind (prepare_keeps entropy) fun _ =>
    .bind (.modify fun _ h => h) fun _ => .pure _

theorem onResponse_keeps (data : Bytes) :
    Keeps (fun c : FederationInitiator => c.finalSession = v) (onResponse C rt data) :=
  .bind .get fun _ => .bind (.lift _) fun _ => .bind (.modify fun _ h => h) fun _ =>
    .bind (.lift _) fun _ => .bind (.modify fun _ h => h) fun _ => .bind (.lift _) fun _ =>
      .bind (.modify fun _ h => h) fun _ => .pure _

theorem resume_keeps (entropy : InitiatorEntropy) (ticket : Bytes) (revision : Number) :
    Keeps (fun c : FederationInitiator => c.finalSession = v) (resume C entropy ticket revision) :=
  .bind .get fun _ => .bind (.lift _) fun _ => .bind (.lift _) fun _ =>
    .bind (.modify fun _ h => h) fun _ => .bind (.lift _) fun _ => .bind (.modify fun _ h => h)
      fun _ => .bind (.lift _) fun _ => .lift _

end Frame

/-- One call leaves the initiator without a session exactly when it had none and was not
given an ACCEPTED that passes the checks. -/
theorem perform_finalSession (call : InitiatorCall) :
    ((perform C rt call).call c).2.finalSession = none ↔
      c.finalSession = none ∧ ¬Admits C rt c call := by
  have hkept {x : Method Thrown FederationInitiator Returned}
      (hx : Keeps (fun s => s.finalSession = c.finalSession) x) :
      (x.call c).2.finalSession = none ↔ c.finalSession = none ∧ ¬False := by
    rw [hx c rfl,not_false_eq_true,and_true]
  cases call with
  | init entropy => exact hkept (.map _ (init_keeps entropy))
  | onResponse data => exact hkept (.map _ (onResponse_keeps data))
  | session => exact hkept (.map _ (.bind .get fun _ => .lift _))
  | loadResumptionSecret secret =>
    exact hkept (.map _ (.bind (.lift _) fun _ => .modify fun _ h => h))
  | resume entropy ticket revision => exact hkept (.map _ (resume_keeps entropy ticket revision))
  | erase => exact hkept (.map _ (.modify fun _ h => h))
  | onAccepted data =>
    have hadmits : Admits C rt c (.onAccepted data) ↔ ∃ r, takeAccepted C rt c data = .ok r := by
      simp only [Admits,takeAccepted_eq_ok]
      constructor
      · rintro ⟨hkeys,ms,pub,positive,hparse,h⟩
        obtain ⟨keys,hkeys⟩ := Option.ne_none_iff_exists'.mp hkeys
        exact ⟨_,keys,ms,pub,positive,hkeys,hparse,h,rfl⟩
      · rintro ⟨_,keys,ms,pub,positive,hkeys,hparse,h,-⟩
        exact ⟨by simp [hkeys],ms,pub,positive,hparse,h⟩
    rw [hadmits,perform,call_map,onAccepted_call]
    cases takeAccepted C rt c data <;> simp
  | onResumeAccepted data =>
    have hadmits : Admits C rt c (.onResumeAccepted data) ↔ ∃ a r,
        takeResumeAccepted C rt c data = .ok a ∧ sessionOf c (a.keys C) a.message = .ok r := by
      simp only [Admits,takeResumeAccepted_eq_ok]
      constructor
      · rintro ⟨ms,pub,ephPriv,serverEphPub,a,positive,hparse,h,hp⟩
        exact ⟨a,_,⟨ms,pub,ephPriv,serverEphPub,hparse,h⟩,by
          rw [h.message]
          exact sessionOf_obj_eq_ok.mpr ⟨positive,hp,rfl⟩⟩
      · rintro ⟨a,r,⟨ms,pub,ephPriv,serverEphPub,hparse,h⟩,hs⟩
        rw [h.message] at hs
        obtain ⟨positive,hp,-⟩ := sessionOf_obj_eq_ok.mp hs
        exact ⟨ms,pub,ephPriv,serverEphPub,a,positive,hparse,h,hp⟩
    rw [hadmits,perform,call_map,Option.eq_none_iff_forall_not_mem]
    simp only [Option.mem_def,onResumeAccepted_finalSession]
    constructor
    · intro h
      refine ⟨Option.eq_none_iff_forall_not_mem.mpr fun r hr => h r (.inr ⟨hr,fun a ha r' hr' =>
        h r' (.inl ⟨a,ha,hr'⟩)⟩),?_⟩
      rintro ⟨a,r,ha,hr⟩
      exact h r (.inl ⟨a,ha,hr⟩)
    · rintro ⟨hnone,hno⟩ r (⟨a,ha,hr⟩ | ⟨hr,-⟩)
      · exact hno ⟨a,r,ha,hr⟩
      · rw [hnone] at hr
        cases hr

/-- The policy of the RESPONSE is judged, and refused. -/
def Refuses (C : Crypto) (rt : Runtime) (c : FederationInitiator) (data : Bytes) : Prop :=
  ∃ a policy reason, takeResponse C rt c data = .ok a ∧
    getProp (some a.message) (js "federation_policy") = .ok policy ∧
    consult c.cfg policy = .ok (some reason)

/-- `session()` returns a session. -/
def Established (c : FederationInitiator) : Prop := ∃ r, session.call c = (.ok r,c)

theorem not_established_iff : ¬Established c ↔ c.finalSession = none := by
  simp only [Established,session_eq_ok,and_true,Option.eq_none_iff_forall_not_mem,not_exists,
    Option.mem_def]

/-- Once the policy was refused, no later call establishes a session, exactly when there
was no session before and no ACCEPTED that passes the checks is fed afterwards: the refusal
itself is only in the CONFIRM, no field remembers it. -/
theorem refusal_final_iff {cfg : FederationInitiatorConfig} (_hnew : new C cfg = .ok c)
    (before : List InitiatorCall) (data : Bytes) (after : List InitiatorCall)
    (_hrefuses : Refuses C rt (run (perform C rt) before c).2 data) :
    let refused := (run (perform C rt) (before++[.onResponse data]) c).2
    (∀ later, later <+: after → ¬Established (run (perform C rt) later refused).2) ↔
      ¬Established (run (perform C rt) before c).2 ∧
      ∀ later call, later++[call] <+: after →
        ¬Admits C rt (run (perform C rt) later refused).2 call := by
  intro refused
  have hrefused : refused.finalSession = none ↔
      ¬Established (run (perform C rt) before c).2 := by
    rw [not_established_iff]
    simp only [refused,run_concat,perform_finalSession,Admits,not_false_eq_true,and_true]
  rw [← hrefused]
  simp only [not_established_iff]
  constructor
  · intro h
    refine ⟨h [] (List.nil_prefix ..),fun later call hp => ?_⟩
    have hcall := h _ hp
    rw [run_concat,perform_finalSession] at hcall
    exact hcall.2
  · rintro ⟨hnone,hno⟩ later hp
    induction later using List.reverseRecOn with
    | nil => exact hnone
    | append_singleton later call ih =>
      rw [run_concat,perform_finalSession]
      exact ⟨ih ((List.prefix_append later [call]).trans hp),hno later call hp⟩

end Specs

end FederationInitiator
end Semp
