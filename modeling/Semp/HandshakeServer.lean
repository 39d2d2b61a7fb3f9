import Semp.HandshakeClient

/-! The message-driven handshake server: `onInit`, `onConfirm`, `session`,
`clientIdentity` and `erase` on the fields of the class.  A callback of the caller
returns, or throws an error with a message. -/
namespace Semp

/-- `IdentityProofVerdict` -/
structure IdentityProofVerdict where
  ok : Bool
  reasonCode : Option JsString
  reason : Option JsString
  deriving DecidableEq, Repr

abbrev Callback (α : Type) := Except JsString α

def Callback.run {α : Type} : Callback α → Js α
  | .ok a => .ok a
  | .error message => raise message

/-- `ServerConfig`, and `HandshakeServerConfig`.  What the client's identity callbacks are
given is what the messages hold, of any type. -/
structure ServerConfig where
  serverDomainSigningSeed : Bytes
  domain : JsString
  supportedSuites : List Suite
  identityProofSignature : Handshake.KeyRef → Option Json → JsString → Callback JsString
  verifyIdentityProof :
    Option (Option Json → SessionKeys → Option Json → Callback IdentityProofVerdict)
  lookupClientIdentityKey : Option (Option Json → Option Json → Callback Bytes)
  permissions : List JsString
  sessionTTL : Number
  resumptionTicket : Option (SessionKeys → Callback Handshake.ResumptionTicket)
  serverEphemeralPriv : Option Bytes
  serverHybridRandomness : Option HybridRandomness
  serverNonce : Option Bytes
  acceptedExtensions : Option Handshake.JsObject

/-- The session id and the random bytes that one handshake draws on the server's side. -/
structure ServerEntropy where
  sessionId : JsString
  nonce : Bytes
  ephemeralPriv : Bytes
  hybrid : HybridRandomness
  deriving DecidableEq, Repr

structure HandshakeServerSession where
  sessionId : JsString
  sessionTTL : Number
  permissions : List JsString
  keys : SessionKeys
  serverIdentityProofKeyId : JsString
  serverIdentityProofSignature : JsString
  extensions : Members
  resumptionTicket : Option Handshake.ResumptionTicket
  clientIdentity : Json
  clientLongTermKeyId : Json

/-- The fields of the class; `none` is `null`, and `undefined` in a field a peer filled. -/
structure HandshakeServer where
  cfg : ServerConfig
  sessionId : JsString
  serverEphPriv : Option Bytes
  serverNonce : Option Bytes
  initCanonical : Option Bytes
  respCanonical : Option Bytes
  sessionKeys : Option SessionKeys
  serverIdProof : Option Handshake.ServerIdentityProof
  finalSession : Option HandshakeServerSession
  clientIdentityValue : Option Json
  clientLongTermKeyIdValue : Option Json

namespace Handshake

/-- The first supported suite that is offered. -/
def pickSuite (offered : Option Json) : List Suite → Js (Option Suite)
  | [] => .ok none
  | s::supported => do
    let found ← includes offered s.name
    if found then .ok (some s) else pickSuite offered supported

/-- `err instanceof Error ? err.message : String(err)` -/
def thrownText (rt : Runtime) : Thrown → JsString
  | .error message => message
  | .engine kind => rt.errorMessage kind
  | .handshakeRejected _ code reason =>
    js "handshake rejected: "++(templateText code).toOption.getD []++
      (reasonText reason).toOption.getD []
  | .handshakeServerRejection code reason _ =>
    js "handshake server rejected: "++code++(reason.map fun r => js " ("++r++js ")").getD []

/-- What an identity signature is over. -/
def identitySigned (sessionId : JsString) (confirmationHash : Bytes) : Bytes :=
  utf8 identityPrefix++(utf8 sessionId++confirmationHash)

/-- A hybrid encapsulation with pinned randomness, or with what was drawn. -/
def encapsulateTo (C : Crypto) (pinned : Option HybridRandomness) (fresh : HybridRandomness)
    (clientEphPub : Bytes) : Js Encapsulated :=
  match pinned with
  | some randomness => hybridEncapsulateWithRandomness C clientEphPub randomness
  | none => hybridEncapsulate C clientEphPub fresh

/-- The encapsulation of the hybrid branch, with pinned randomness or drawn. -/
def serverEncapsulate (C : Crypto) (cfg : ServerConfig) (entropy : ServerEntropy)
    (clientEphPub : Bytes) : Js Encapsulated :=
  match cfg.serverHybridRandomness with
  | some randomness => hybridEncapsulateWithRandomness C clientEphPub randomness
  | none => hybridEncapsulate C clientEphPub entropy.hybrid

/-- The `server_identity_proof` of a RESPONSE. -/
def serverIdentityProofOf (C : Crypto) (cfg : ServerConfig) (serverEphemeralKey : KeyRef)
    (clientNonce : Option Json) (serverNonce : JsString) : Js ServerIdentityProof := do
  let pub ← publicKeyFromSeed C cfg.serverDomainSigningSeed
  let keyId ← fingerprint C pub
  let signature ← (cfg.identityProofSignature serverEphemeralKey clientNonce serverNonce).run
  .ok ⟨cfg.domain,keyId,signature⟩

/-- The RESPONSE of a server to an INIT. -/
def serverResponse (C : Crypto) (cfg : ServerConfig) (sessionId : JsString)
    (clientNonce : Option Json) (serverNonce : JsString) (suite : Suite)
    (serverEphemeralKey : KeyRef) (proof : ServerIdentityProof) : Js Members :=
  buildResponse C ⟨sessionId,clientNonce,serverNonce,serverEphemeralKey,proof,⟨suite.name,[]⟩,
    cfg.serverDomainSigningSeed,none⟩

/-- The ACCEPTED of a server. -/
def serverAccepted (C : Crypto) (cfg : ServerConfig) (sessionId : JsString)
    (ticket : Option ResumptionTicket) : Js Members :=
  buildAccepted C ⟨sessionId,cfg.sessionTTL,cfg.permissions,ticket,cfg.serverDomainSigningSeed,
    cfg.acceptedExtensions⟩

end Handshake

namespace HandshakeServer
open Handshake

section Code
variable (C : Crypto) (rt : Runtime)

def new (cfg : ServerConfig) : Js HandshakeServer := do
  require (cfg.supportedSuites.length ≠ 0) (js "handshake: server has no supported suites")
  require (cfg.serverDomainSigningSeed.length ≠ 0)
    (js "handshake: empty server domain signing seed")
  require (cfg.domain ≠ []) (js "handshake: empty server domain")
  .ok {
    cfg := cfg
    sessionId := []
    serverEphPriv := none
    serverNonce := none
    initCanonical := none
    respCanonical := none
    sessionKeys := none
    serverIdProof := none
    finalSession := none
    clientIdentityValue := none
    clientLongTermKeyIdValue := none }

def buildRejectedSigned (sessionId reasonCode : JsString) (reason : Option JsString)
    (serverDomainSigningSeed : Bytes) : Js Bytes := do
  let rej ← buildRejected C ⟨sessionId,reasonCode,reason,serverDomainSigningSeed,none⟩
  Canonical.marshal (.obj rej)

/-- A signed REJECTED with `reason` in it, thrown with the reason `shown`. -/
def reject {α : Type} (seed : Bytes) (sessionId reasonCode : JsString)
    (reason shown : Option JsString) : Js α := do
  let rej ← buildRejectedSigned C sessionId reasonCode reason seed
  .error (.handshakeServerRejection reasonCode shown rej)

/-- The rejection of an identity proof. -/
def rejectAuth {α : Type} (seed : Bytes) (sessionId reason : JsString) : Js α :=
  reject C seed sessionId (js "auth_failed") (some reason) (some reason)

/-- The refusal of a message of another type or step. -/
def checkTypeStep (m : Json) (step : String) : Js Unit := do
  let type ← getProp (some m) (js "type")
  let found ← getProp (some m) (js "step")
  require (isStr type messageType ∧ isStr found (js step))
    (js "handshake: "++js step++js " type/step mismatch")

/-- The server's ephemeral key as the suite puts it on the wire, and the shared secret. -/
def serverShare (entropy : ServerEntropy) (suite : Suite) (clientEphPub : Bytes) :
    Method Thrown HandshakeServer (Bytes × Bytes) := do
  let s ← get
  match suite with
  | .pq => do
    let enc ← serverEncapsulate C s.cfg entropy clientEphPub
    return (enc.ciphertext,enc.sharedSecret)
  | .x25519 => do
    let ephPriv := s.cfg.serverEphemeralPriv.getD entropy.ephemeralPriv
    modify fun s => {s with serverEphPriv := some ephPriv}
    let ephPub ← x25519PublicKey C ephPriv
    let shared ← x25519Agree C ephPriv clientEphPub
    return (ephPub,shared)

/-- The part of `onInit` after the suite is negotiated. -/
def respond (entropy : ServerEntropy) (m : Json) (suite : Suite) :
    Method Thrown HandshakeServer Bytes := do
  let s ← get
  let clientKey ← getProp (some m) (js "client_ephemeral_key")
  let key ← getProp clientKey (js "key")
  let clientEphPub ← base64Decode rt key
  let initNonce ← getProp (some m) (js "nonce")
  let clientNonce ← base64Decode rt initNonce
  let serverNonce := s.cfg.serverNonce.getD entropy.nonce
  modify fun s => {s with serverNonce := some serverNonce}
  let share ← serverShare C entropy suite clientEphPub
  let serverEphKeyId ← ephemeralKeyId C suite share.1
  modify fun s => {s with
    sessionKeys := some (deriveSessionKeysWithResumption C share.2 clientNonce serverNonce)}
  let ephKey : KeyRef := ⟨suite.name,Base64.encode share.1,serverEphKeyId⟩
  let proof ← serverIdentityProofOf C s.cfg ephKey initNonce (Base64.encode serverNonce)
  modify fun s => {s with serverIdProof := some proof}
  let resp ← serverResponse C s.cfg s.sessionId initNonce (Base64.encode serverNonce) suite ephKey
    proof
  let respCanonical ← Canonical.marshal (.obj resp)
  modify fun s => {s with respCanonical := some respCanonical}
  return respCanonical

def onInit (entropy : ServerEntropy) (data : Bytes) : Method Thrown HandshakeServer Bytes := do
  let s ← get
  require (s.initCanonical = none) (js "handshake: onInit called twice")
  let m ← parseJson (Utf8.textDecode data)
  checkTypeStep m "init"
  modify fun s => {s with initCanonical := some data, sessionId := entropy.sessionId}
  let capabilities ← getProp (some m) (js "capabilities")
  let offered ← getProp capabilities (js "encryption_algorithms")
  let negotiated ← pickSuite offered s.cfg.supportedSuites
  match negotiated with
  | none =>
    reject C s.cfg.serverDomainSigningSeed entropy.sessionId (js "version_unsupported") none none
  | some suite => respond C rt entropy m suite

/-- The decrypted block; what goes wrong is rejected. -/
def openBlock (seed : Bytes) (sessionId : JsString) (encC2S : Bytes)
    (identityProof : Option Json) : Js Json :=
  tryCatch (openIdentityProof C rt ⟨identityProof,encC2S,sessionId⟩) fun err =>
    rejectAuth C seed sessionId (thrownText rt err)

/-- The client's long-term key, asked for with what the block says. -/
def lookUpKey (lookup : Option Json → Option Json → Callback Bytes) (block : Json) : Js Bytes := do
  let identity ← getProp (some block) (js "client_identity")
  let keyId ← getProp (some block) (js "client_long_term_key_id")
  (lookup identity keyId).run

/-- The inner signature, under the key that the caller looks up. -/
def verifyBlock (lookup : Option Json → Option Json → Callback Bytes) (seed : Bytes)
    (sessionId : JsString) (wantHash : Bytes) (block : Json) : Js Unit := do
  let clientPub ← tryCatch (lookUpKey lookup block) fun err =>
    rejectAuth C seed sessionId (thrownText rt err)
  let signature ← getProp (some block) (js "identity_signature")
  let sig ← base64Decode rt signature
  if verify C clientPub sig (identitySigned sessionId wantHash) then .ok ()
  else rejectAuth C seed sessionId (js "identity_signature did not verify")

/-- The verdict of the caller on the proof. -/
def judgeProof (cfg : ServerConfig) (sessionId : JsString) (identityProof : Option Json)
    (keys : SessionKeys) (block : Option Json) : Js Unit :=
  match cfg.verifyIdentityProof with
  | none => .ok ()
  | some verifyIdentityProof => do
    let verdict ← (verifyIdentityProof identityProof keys block).run
    if verdict.ok then .ok ()
    else
      reject C cfg.serverDomainSigningSeed sessionId
        (verdict.reasonCode.getD (js "auth_failed")) verdict.reason verdict.reason

/-- `cfg.resumptionTicket?.(keys)` -/
def issueTicket (cfg : ServerConfig) (keys : SessionKeys) : Js (Option ResumptionTicket) :=
  match cfg.resumptionTicket with
  | none => .ok none
  | some resumptionTicket => do
    let ticket ← (resumptionTicket keys).run
    .ok (some ticket)

/-- The identity proof of a CONFIRM, opened and verified unless it is empty; the identity
it proves is written to the fields. -/
def proveIdentity (wantHash : Bytes) (keys : SessionKeys) (identityProof : Option Json) :
    Method Thrown HandshakeServer (Option Json) := do
  let s ← get
  if isStr identityProof [] then return none
  else do
    let block ← openBlock C rt s.cfg.serverDomainSigningSeed s.sessionId keys.encC2S identityProof
    match s.cfg.lookupClientIdentityKey with
    | none => pure ()
    | some lookup => verifyBlock C rt lookup s.cfg.serverDomainSigningSeed s.sessionId wantHash block
    let identity ← getProp (some block) (js "client_identity")
    modify fun s => {s with clientIdentityValue := identity}
    let keyId ← getProp (some block) (js "client_long_term_key_id")
    modify fun s => {s with clientLongTermKeyIdValue := keyId}
    return some block

def onConfirm (data : Bytes) : Method Thrown HandshakeServer Bytes := do
  let s ← get
  let initCanonical ← need s.initCanonical (js "handshake: onConfirm before onInit")
  let respCanonical ← need s.respCanonical (js "handshake: onConfirm before onInit")
  let sessionKeys ← need s.sessionKeys (js "handshake: onConfirm before onInit")
  let serverIdProof ← need s.serverIdProof (js "handshake: onConfirm before onInit")
  let m ← parseJson (Utf8.textDecode data)
  checkTypeStep m "confirm"
  let wantHash := confirmationHash C initCanonical respCanonical
  let hash ← getProp (some m) (js "confirmation_hash")
  let gotHash ← base64Decode rt hash
  if constantTimeEqual gotHash wantHash then do
    let identityProof ← getProp (some m) (js "identity_proof")
    let block ← proveIdentity C rt wantHash sessionKeys identityProof
    judgeProof C s.cfg s.sessionId identityProof sessionKeys block
    let ticket ← issueTicket s.cfg sessionKeys
    let accepted ← serverAccepted C s.cfg s.sessionId ticket
    modify fun s => {s with
      finalSession := some {
        sessionId := s.sessionId
        sessionTTL := s.cfg.sessionTTL
        permissions := s.cfg.permissions
        keys := sessionKeys
        serverIdentityProofKeyId := serverIdProof.keyId
        serverIdentityProofSignature := serverIdProof.signature
        extensions := extensionsOrEmpty s.cfg.acceptedExtensions
        resumptionTicket := ticket
        clientIdentity := orElse s.clientIdentityValue (.str [])
        clientLongTermKeyId := orElse s.clientLongTermKeyIdValue (.str []) }
      serverEphPriv := none}
    Canonical.marshal (.obj accepted)
  else
    reject C s.cfg.serverDomainSigningSeed s.sessionId (js "handshake_invalid") none
      (some (js "confirmation hash mismatch"))

def session : Method Thrown HandshakeServer HandshakeServerSession := do
  let s ← get
  need s.finalSession
    (js "handshake: server session not yet established (call onConfirm first)")

def clientIdentity (s : HandshakeServer) : Json := orElse s.clientIdentityValue (.str [])

def clientLongTermKeyId (s : HandshakeServer) : Json := orElse s.clientLongTermKeyIdValue (.str [])

def erase : Method Thrown HandshakeServer Unit :=
  modify fun s => {s with serverEphPriv := none, sessionKeys := none}

end Code

/-! What the calls do, as computations without fields. -/

/-- What a server takes from an INIT and answers. -/
structure InitAnswer where
  sessionId : JsString
  suite : Suite
  clientEphPub : Bytes
  clientNonce : Bytes
  serverNonce : Bytes
  serverEphPub : Bytes
  shared : Bytes
  proof : ServerIdentityProof
  resp : Bytes

/-- What a CONFIRM proved: the block of its identity proof, unless the proof is empty. -/
structure Confirmed where
  identityProof : Option Json
  block : Option Json

section Answers
variable (C : Crypto) (rt : Runtime)

def InitAnswer.keys (a : InitAnswer) : SessionKeys :=
  deriveSessionKeysWithResumption C a.shared a.clientNonce a.serverNonce

def shareOf (cfg : ServerConfig) (entropy : ServerEntropy) (suite : Suite) (clientEphPub : Bytes) :
    Js (Bytes × Bytes) :=
  match suite with
  | .pq => do
    let enc ← serverEncapsulate C cfg entropy clientEphPub
    .ok (enc.ciphertext,enc.sharedSecret)
  | .x25519 => do
    let ephPriv := cfg.serverEphemeralPriv.getD entropy.ephemeralPriv
    let ephPub ← x25519PublicKey C ephPriv
    let shared ← x25519Agree C ephPriv clientEphPub
    .ok (ephPub,shared)

/-- The answer with a suite. -/
def answerWith (cfg : ServerConfig) (entropy : ServerEntropy) (m : Json) (suite : Suite) :
    Js InitAnswer := do
  let clientKey ← getProp (some m) (js "client_ephemeral_key")
  let key ← getProp clientKey (js "key")
  let clientEphPub ← base64Decode rt key
  let initNonce ← getProp (some m) (js "nonce")
  let clientNonce ← base64Decode rt initNonce
  let serverNonce := cfg.serverNonce.getD entropy.nonce
  let share ← shareOf C cfg entropy suite clientEphPub
  let serverEphKeyId ← ephemeralKeyId C suite share.1
  let ephKey : KeyRef := ⟨suite.name,Base64.encode share.1,serverEphKeyId⟩
  let proof ← serverIdentityProofOf C cfg ephKey initNonce (Base64.encode serverNonce)
  let resp ← serverResponse C cfg entropy.sessionId initNonce (Base64.encode serverNonce) suite
    ephKey proof
  let bytes ← Canonical.marshal (.obj resp)
  .ok ⟨entropy.sessionId,suite,clientEphPub,clientNonce,serverNonce,share.1,share.2,proof,bytes⟩

def answerInit (cfg : ServerConfig) (entropy : ServerEntropy) (data : Bytes) : Js InitAnswer := do
  let m ← parseJson (Utf8.textDecode data)
  checkTypeStep m "init"
  let capabilities ← getProp (some m) (js "capabilities")
  let offered ← getProp capabilities (js "encryption_algorithms")
  let negotiated ← pickSuite offered cfg.supportedSuites
  match negotiated with
  | none =>
    reject C cfg.serverDomainSigningSeed entropy.sessionId (js "version_unsupported") none none
  | some suite => answerWith C rt cfg entropy m suite

def openProof (cfg : ServerConfig) (sessionId : JsString) (wantHash : Bytes) (keys : SessionKeys)
    (identityProof : Option Json) : Js (Option Json) :=
  if isStr identityProof [] then .ok none
  else do
    let block ← openBlock C rt cfg.serverDomainSigningSeed sessionId keys.encC2S identityProof
    match cfg.lookupClientIdentityKey with
    | none => .ok (some block)
    | some lookup => do
      verifyBlock C rt lookup cfg.serverDomainSigningSeed sessionId wantHash block
      .ok (some block)

/-- The checks of a CONFIRM up to the identity. -/
def openConfirm (cfg : ServerConfig) (sessionId : JsString) (wantHash : Bytes)
    (keys : SessionKeys) (data : Bytes) : Js Confirmed := do
  let m ← parseJson (Utf8.textDecode data)
  checkTypeStep m "confirm"
  let hash ← getProp (some m) (js "confirmation_hash")
  let gotHash ← base64Decode rt hash
  if constantTimeEqual gotHash wantHash then do
    let identityProof ← getProp (some m) (js "identity_proof")
    let block ← openProof C rt cfg sessionId wantHash keys identityProof
    .ok ⟨identityProof,block⟩
  else
    reject C cfg.serverDomainSigningSeed sessionId (js "handshake_invalid") none
      (some (js "confirmation hash mismatch"))

/-- The identity and the key id that a block names. -/
def namedBy (block : Json) : Js (Option Json × Option Json) := do
  let identity ← getProp (some block) (js "client_identity")
  let keyId ← getProp (some block) (js "client_long_term_key_id")
  .ok (identity,keyId)

/-- The fields once a CONFIRM proved its identity. -/
def identified (s : HandshakeServer) : Option Json → Js HandshakeServer
  | none => .ok s
  | some block => do
    let named ← namedBy block
    .ok {s with clientIdentityValue := named.1, clientLongTermKeyIdValue := named.2}

/-- The block of an identity proof, and the fields once it proved its identity. -/
def proven (s : HandshakeServer) (wantHash : Bytes) (keys : SessionKeys)
    (identityProof : Option Json) : Js (Option Json × HandshakeServer) := do
  let block ← openProof C rt s.cfg s.sessionId wantHash keys identityProof
  let s' ← identified s block
  .ok (block,s')

/-- The ticket and the ACCEPTED, once the caller's policy let the proof pass. -/
def grant (cfg : ServerConfig) (sessionId : JsString) (keys : SessionKeys) (c : Confirmed) :
    Js (Option ResumptionTicket × Bytes) := do
  judgeProof C cfg sessionId c.identityProof keys c.block
  let ticket ← issueTicket cfg keys
  let accepted ← serverAccepted C cfg sessionId ticket
  let bytes ← Canonical.marshal (.obj accepted)
  .ok (ticket,bytes)

end Answers

/-- The fields after an INIT was answered. -/
structure Answered (C : Crypto) (s : HandshakeServer) (data : Bytes) (a : InitAnswer)
    (s' : HandshakeServer) : Prop where
  cfg : s'.cfg = s.cfg
  sessionId : s'.sessionId = a.sessionId
  initCanonical : s'.initCanonical = some data
  respCanonical : s'.respCanonical = some a.resp
  sessionKeys : s'.sessionKeys = some (a.keys C)
  serverIdProof : s'.serverIdProof = some a.proof
  finalSession : s'.finalSession = s.finalSession
  clientIdentityValue : s'.clientIdentityValue = s.clientIdentityValue
  clientLongTermKeyIdValue : s'.clientLongTermKeyIdValue = s.clientLongTermKeyIdValue

/-- A call that answered nothing: it can have stored an INIT, and no RESPONSE. -/
structure Unanswered (s s' : HandshakeServer) : Prop where
  cfg : s'.cfg = s.cfg
  respCanonical : s'.respCanonical = s.respCanonical
  finalSession : s'.finalSession = s.finalSession
  clientIdentityValue : s'.clientIdentityValue = s.clientIdentityValue
  clientLongTermKeyIdValue : s'.clientLongTermKeyIdValue = s.clientLongTermKeyIdValue

/-- The session of an accepted CONFIRM. -/
def sessionOf (s : HandshakeServer) (keys : SessionKeys) (proof : ServerIdentityProof)
    (ticket : Option ResumptionTicket) : HandshakeServerSession where
  sessionId := s.sessionId
  sessionTTL := s.cfg.sessionTTL
  permissions := s.cfg.permissions
  keys := keys
  serverIdentityProofKeyId := proof.keyId
  serverIdentityProofSignature := proof.signature
  extensions := extensionsOrEmpty s.cfg.acceptedExtensions
  resumptionTicket := ticket
  clientIdentity := s.clientIdentity
  clientLongTermKeyId := s.clientLongTermKeyId

/-- The fields a CONFIRM is checked against. -/
structure Ready (s : HandshakeServer) (init resp : Bytes) (keys : SessionKeys)
    (proof : ServerIdentityProof) : Prop where
  initCanonical : s.initCanonical = some init
  respCanonical : s.respCanonical = some resp
  sessionKeys : s.sessionKeys = some keys
  serverIdProof : s.serverIdProof = some proof

/-- The fields after an accepted CONFIRM. -/
def accepted (s : HandshakeServer) (keys : SessionKeys) (proof : ServerIdentityProof)
    (ticket : Option ResumptionTicket) : HandshakeServer :=
  {s with finalSession := some (s.sessionOf keys proof ticket), serverEphPriv := none}

section Specs
open Method
variable {C : Crypto} {rt : Runtime}

theorem serverShare_follows {s : HandshakeServer} (entropy : ServerEntropy) (suite : Suite)
    (clientEphPub : Bytes) {Q : HandshakeServer → Prop}
    (hQ : ∀ priv, Q s ∧ Q {s with serverEphPriv := some priv}) :
    Follows (serverShare C entropy suite clientEphPub) s (shareOf C s.cfg entropy suite clientEphPub)
      (fun share share' s' => share' = share ∧ Q s') (fun e e' s' => e' = e ∧ Q s') := by
  unfold serverShare shareOf
  refine .get ?_
  cases suite with
  | pq => exact .same (fun enc _ => .pure ⟨rfl,(hQ []).1⟩) fun e _ => ⟨rfl,(hQ []).1⟩
  | x25519 =>
    refine .modify (.same (fun pub _ => ?_) fun e _ => ⟨rfl,(hQ _).2⟩)
    exact .same (fun shared _ => .pure ⟨rfl,(hQ _).2⟩) fun e _ => ⟨rfl,(hQ _).2⟩

/-- A rejection throws, whatever result was expected. -/
theorem reject_error (seed : Bytes) (sessionId code : JsString) (reason shown : Option JsString) :
    ∃ e, ∀ {α : Type}, (reject C seed sessionId code reason shown : Js α) = .error e := by
  unfold reject
  cases buildRejectedSigned C sessionId code reason seed with
  | ok rej => exact ⟨_,rfl⟩
  | error e => exact ⟨e,rfl⟩

theorem respond_follows {s : HandshakeServer} {data : Bytes} (hs : s.initCanonical = some data)
    {entropy : ServerEntropy} (he : s.sessionId = entropy.sessionId) (m : Json) (suite : Suite) :
    Follows (respond C rt entropy m suite) s (answerWith C rt s.cfg entropy m suite)
      (fun a bytes s' => bytes = a.resp ∧ Answered C s data a s')
      (fun e e' s' => e' = e ∧ Unanswered s s') := by
  have hrefl : Unanswered s s := ⟨rfl,rfl,rfl,rfl,rfl⟩
  unfold respond answerWith
  apply Follows.get
  dsimp only
  rw [← he]
  refine Follows.same ?_ fun e _ => ⟨rfl,hrefl⟩
  intro clientKey _
  refine Follows.same ?_ fun e _ => ⟨rfl,hrefl⟩
  intro key _
  refine Follows.same ?_ fun e _ => ⟨rfl,hrefl⟩
  intro clientEphPub _
  refine Follows.same ?_ fun e _ => ⟨rfl,hrefl⟩
  intro initNonce _
  refine Follows.same ?_ fun e _ => ⟨rfl,hrefl⟩
  intro clientNonce _
  apply Follows.modify
  have hshare := serverShare_follows (C := C) entropy suite clientEphPub
    (s := {s with serverNonce := some (s.cfg.serverNonce.getD entropy.nonce)})
    (Q := fun s' => ∃ p, s' = {s with
      serverNonce := some (s.cfg.serverNonce.getD entropy.nonce), serverEphPriv := p})
    fun priv => ⟨⟨s.serverEphPriv,rfl⟩,some priv,rfl⟩
  have hfail {p n : Option Bytes} {k : Option SessionKeys} {d : Option ServerIdentityProof} :
      Unanswered s {s with
        serverEphPriv := p
        serverNonce := n
        sessionKeys := k
        serverIdProof := d} := ⟨rfl,rfl,rfl,rfl,rfl⟩
  refine Follows.bind (hshare.imp (fun _ _ _ h => h) ?_) ?_
  · rintro e e' s' ⟨rfl,p,rfl⟩
    exact ⟨rfl,hfail⟩
  rintro share _ _ - ⟨rfl,p,rfl⟩
  refine Follows.same ?_ fun e _ => ⟨rfl,hfail⟩
  intro keyId _
  apply Follows.modify
  refine Follows.same ?_ fun e _ => ⟨rfl,hfail⟩
  intro proof _
  apply Follows.modify
  refine Follows.same ?_ fun e _ => ⟨rfl,hfail⟩
  intro resp _
  refine Follows.same ?_ fun e _ => ⟨rfl,hfail⟩
  intro bytes _
  apply Follows.modify
  exact Follows.pure ⟨rfl,rfl,rfl,hs,rfl,rfl,rfl,rfl,rfl,rfl⟩

variable (C rt) in
theorem onInit_follows {s : HandshakeServer} (hs : s.initCanonical = none)
    (entropy : ServerEntropy) (data : Bytes) :
    Follows (onInit C rt entropy data) s (answerInit C rt s.cfg entropy data)
      (fun a bytes s' => bytes = a.resp ∧ Answered C s data a s')
      (fun e e' s' => e' = e ∧ Unanswered s s') := by
  have hrefl : Unanswered s s := ⟨rfl,rfl,rfl,rfl,rfl⟩
  unfold onInit answerInit
  apply Follows.get
  rw [require_of hs]
  apply Follows.skip
  refine Follows.same ?_ fun e _ => ⟨rfl,hrefl⟩
  intro m _
  refine Follows.same ?_ fun e _ => ⟨rfl,hrefl⟩
  intro _ _
  apply Follows.modify
  have hstored : Unanswered s {s with initCanonical := some data, sessionId := entropy.sessionId} :=
    ⟨rfl,rfl,rfl,rfl,rfl⟩
  refine Follows.same ?_ fun e _ => ⟨rfl,hstored⟩
  intro capabilities _
  refine Follows.same ?_ fun e _ => ⟨rfl,hstored⟩
  intro offered _
  refine Follows.same ?_ fun e _ => ⟨rfl,hstored⟩
  intro negotiated _
  cases negotiated with
  | none =>
    obtain ⟨e,he⟩ := reject_error (C := C) s.cfg.serverDomainSigningSeed entropy.sessionId
      (js "version_unsupported") none none
    exact Follows.tail (fun _ h => absurd (he.symm.trans h) nofun)
      fun e' h => ⟨e,he,(Except.error.inj (he.symm.trans h)),hstored⟩
  | some suite =>
    refine (respond_follows (s := {s with
      initCanonical := some data, sessionId := entropy.sessionId}) rfl rfl m suite).imp ?_ ?_
    · rintro a bytes s' ⟨rfl,h⟩
      exact ⟨rfl,h.cfg,h.sessionId,h.initCanonical,h.respCanonical,h.sessionKeys,h.serverIdProof,
        h.finalSession,h.clientIdentityValue,h.clientLongTermKeyIdValue⟩
    · rintro e e' s' ⟨rfl,h⟩
      exact ⟨rfl,h.cfg,h.respCanonical,h.finalSession,h.clientIdentityValue,
        h.clientLongTermKeyIdValue⟩

theorem getProp_error {v : Option Json} {k l : JsString} {e : Thrown} (h : getProp v k = .error e) :
    getProp v l = .error e := by
  unfold getProp at h ⊢
  split at h
  · exact h
  · exact h
  · cases h
  · cases h

theorem proveIdentity_follows (s : HandshakeServer) (wantHash : Bytes) (keys : SessionKeys)
    (identityProof : Option Json) :
    Follows (proveIdentity C rt wantHash keys identityProof) s
      (proven C rt s wantHash keys identityProof)
      (fun r block s' => block = r.1 ∧ s' = r.2) (fun e e' s' => e' = e ∧ s' = s) := by
  unfold proveIdentity proven openProof
  apply Follows.get
  by_cases hempty : isStr identityProof [] = true
  · rw [if_pos hempty,if_pos hempty]
    exact Follows.pure ⟨rfl,rfl⟩
  rw [if_neg hempty,if_neg hempty,bind_assoc]
  refine Follows.same ?_ fun e _ => ⟨rfl,rfl⟩
  intro block _
  have hname (block : Json) : Follows (do
        let identity ← getProp (some block) (js "client_identity")
        modify fun s => {s with clientIdentityValue := identity}
        let keyId ← getProp (some block) (js "client_long_term_key_id")
        modify fun s => {s with clientLongTermKeyIdValue := keyId}
        return some block : Method Thrown HandshakeServer (Option Json)) s
      (do
        let s' ← identified s (some block)
        .ok (some block,s'))
      (fun r block s' => block = r.1 ∧ s' = r.2) (fun e e' s' => e' = e ∧ s' = s) := by
    unfold identified namedBy
    simp only [bind_assoc]
    refine Follows.same ?_ fun e _ => ⟨rfl,rfl⟩
    intro identity hid
    apply Follows.modify
    refine Follows.same ?_ fun e he => ?_
    · intro keyId _
      apply Follows.modify
      exact Follows.pure ⟨rfl,rfl⟩
    · rw [getProp_error he] at hid
      cases hid
  cases s.cfg.lookupClientIdentityKey with
  | none => exact Follows.skip (hname block)
  | some lookup =>
    dsimp only
    rw [bind_assoc]
    exact Follows.same (fun _ _ => hname block) fun e _ => ⟨rfl,rfl⟩

/-- A signed ACCEPTED can be marshalled. -/
theorem serverAccepted_marshal {cfg : ServerConfig} {sessionId : JsString}
    {ticket : Option ResumptionTicket} {ms : Members}
    (h : serverAccepted C cfg sessionId ticket = .ok ms) :
    Canonical.marshal (.obj ms) = .ok (Canonical.canonicalBytes (.obj ms)) :=
  Canonical.marshal_eq (signMessage_wf (acceptedPreSign_wf _) h)

variable (C rt) in
/-- `onConfirm`, whose errors tell whether the identity was written. -/
theorem onConfirm_follows {s : HandshakeServer} {init resp : Bytes} {keys : SessionKeys}
    {proof : ServerIdentityProof} (hs : Ready s init resp keys proof) (data : Bytes) :
    Follows (onConfirm C rt data) s
      (do
        let c ← openConfirm C rt s.cfg s.sessionId (confirmationHash C init resp) keys data
        let s₁ ← identified s c.block
        let g ← grant C s.cfg s.sessionId keys c
        .ok (g.2,s₁.accepted keys proof g.1))
      (fun r bytes s' => bytes = r.1 ∧ s' = r.2)
      (fun e e' s' => e' = e ∧ (s' = s ∧ (openConfirm C rt s.cfg s.sessionId
          (confirmationHash C init resp) keys data >>= fun c => identified s c.block) = .error e ∨
        ∃ c, openConfirm C rt s.cfg s.sessionId (confirmationHash C init resp) keys data = .ok c ∧
          identified s c.block = .ok s' ∧ grant C s.cfg s.sessionId keys c = .error e)) := by
  -- a variable, so that no rewriting of the checks reaches into it
  generalize hF : (fun (e e' : Thrown) (s' : HandshakeServer) => e' = e ∧ (s' = s ∧
    (openConfirm C rt s.cfg s.sessionId (confirmationHash C init resp) keys data >>=
      fun c => identified s c.block) = .error e ∨ ∃ c,
    openConfirm C rt s.cfg s.sessionId (confirmationHash C init resp) keys data = .ok c ∧
      identified s c.block = .ok s' ∧ grant C s.cfg s.sessionId keys c = .error e)) = fail
  have hstay (e : Thrown) (he : (openConfirm C rt s.cfg s.sessionId (confirmationHash C init resp)
      keys data >>= fun c => identified s c.block) = .error e) : fail e e s := by
    rw [← hF]
    exact ⟨rfl,.inl ⟨rfl,he⟩⟩
  have hlate (e : Thrown) {c : Confirmed} {s' : HandshakeServer} (hopen : openConfirm C rt s.cfg
      s.sessionId (confirmationHash C init resp) keys data = .ok c)
      (hs' : identified s c.block = .ok s') (he : grant C s.cfg s.sessionId keys c = .error e) :
      fail e e s' := by
    rw [← hF]
    exact ⟨rfl,.inr ⟨c,hopen,hs',he⟩⟩
  unfold onConfirm
  apply Follows.get
  simp only [hs.initCanonical,hs.respCanonical,hs.sessionKeys,hs.serverIdProof,need]
  iterate 4 apply Follows.skip
  rw [openConfirm]
  simp only [bind_assoc]
  refine Follows.same ?_ fun e he => hstay e (by rw [openConfirm,he,error_bind,error_bind])
  intro m hm
  refine Follows.same ?_ fun e he => hstay e (by
    rw [openConfirm,hm,ok_bind,he,error_bind,error_bind])
  intro _ hc
  refine Follows.same ?_ fun e he => hstay e (by
    rw [openConfirm,hm,ok_bind,hc,ok_bind,he,error_bind,error_bind])
  intro hash hhash
  refine Follows.same ?_ fun e he => hstay e (by
    rw [openConfirm,hm,ok_bind,hc,ok_bind,hhash,ok_bind,he,error_bind,error_bind])
  intro got hgot
  have hsofar : openConfirm C rt s.cfg s.sessionId (confirmationHash C init resp) keys data =
      if constantTimeEqual got (confirmationHash C init resp) then do
        let p ← getProp (some m) (js "identity_proof")
        let block ← openProof C rt s.cfg s.sessionId (confirmationHash C init resp) keys p
        .ok ⟨p,block⟩
      else reject C s.cfg.serverDomainSigningSeed s.sessionId (js "handshake_invalid") none
        (some (js "confirmation hash mismatch")) := by
    rw [openConfirm,hm,ok_bind,hc,ok_bind,hhash,ok_bind,hgot,ok_bind]
  by_cases heq : constantTimeEqual got (confirmationHash C init resp) = true
  · rw [if_pos heq] at hsofar
    rw [if_pos heq,if_pos heq,bind_assoc]
    refine Follows.same ?_ fun e he => hstay e (by rw [hsofar,he,error_bind,error_bind])
    intro p hp
    rw [hp,ok_bind] at hsofar
    have hy : (do
          let block ← openProof C rt s.cfg s.sessionId (confirmationHash C init resp) keys p
          let c ← (.ok ⟨p,block⟩ : Js Confirmed)
          let s₁ ← identified s c.block
          let g ← grant C s.cfg s.sessionId keys c
          .ok (g.2,s₁.accepted keys proof g.1) : Js (Bytes × HandshakeServer)) =
        proven C rt s (confirmationHash C init resp) keys p >>= fun r =>
          grant C s.cfg s.sessionId keys ⟨p,r.1⟩ >>= fun g =>
            .ok (g.2,r.2.accepted keys proof g.1) := by
      simp only [proven,bind_assoc,ok_bind]
    rw [bind_assoc,hy]
    refine Follows.bind (m := fun r block s' => block = r.1 ∧ s' = r.2) ⟨?_,?_⟩ ?_
    · exact fun r hr => (proveIdentity_follows s _ keys p).ok r hr
    · intro e he
      obtain ⟨e',s',hcall,rfl,rfl⟩ := (proveIdentity_follows s _ keys p).error e he
      refine ⟨_,_,hcall,hstay _ ?_⟩
      rw [proven] at he
      rw [hsofar,bind_assoc]
      simp only [ok_bind]
      cases hb : openProof C rt s'.cfg s'.sessionId (confirmationHash C init resp) keys p with
      | error e'' =>
        rw [hb,error_bind] at he
        rw [error_bind,Except.error.inj he]
      | ok block =>
        rw [hb,ok_bind] at he
        rw [ok_bind]
        cases hid : identified s' block with
        | error e'' =>
          rw [hid,error_bind] at he
          rw [Except.error.inj he]
        | ok s'' =>
          rw [hid,ok_bind] at he
          cases he
    rintro ⟨_,s₁⟩ block _ hr ⟨rfl,rfl⟩
    obtain ⟨block',hblock,hr⟩ := bind_eq_ok.mp hr
    obtain ⟨s',hs',hr⟩ := bind_eq_ok.mp hr
    obtain ⟨rfl,rfl⟩ := Prod.mk.inj (Except.ok.inj hr)
    rw [hblock,ok_bind] at hsofar
    dsimp only
    rw [grant]
    simp only [bind_assoc]
    refine Follows.same ?_ fun e he => hlate e hsofar hs' (by rw [grant,he,error_bind])
    intro _ hj
    refine Follows.same ?_ fun e he => hlate e hsofar hs' (by rw [grant,hj,ok_bind,he,error_bind])
    intro ticket ht
    refine Follows.same ?_ fun e he => hlate e hsofar hs' (by
      rw [grant,hj,ok_bind,ht,ok_bind,he,error_bind])
    intro ms hms
    apply Follows.modify
    rw [serverAccepted_marshal hms]
    exact Follows.tail (fun r hr => ⟨_,rfl,by rw [← Except.ok.inj hr]; exact ⟨rfl,rfl⟩⟩)
      fun _ he => by cases he
  · rw [if_neg heq] at hsofar
    rw [if_neg heq,if_neg heq]
    obtain ⟨e,he⟩ := reject_error (C := C) s.cfg.serverDomainSigningSeed s.sessionId
      (js "handshake_invalid") none (some (js "confirmation hash mismatch"))
    rw [he] at hsofar
    rw [he,he,error_bind]
    refine Follows.tail (fun b h => ?_) fun e' h => ⟨e,rfl,?_⟩
    · injection h
    · rw [← Except.error.inj h]
      exact hstay e (by rw [hsofar,error_bind])

/-- A call of `onInit` that returned. -/
theorem onInit_ok {s s' : HandshakeServer} {entropy : ServerEntropy} {data bytes : Bytes}
    (h : (onInit C rt entropy data).call s = (.ok bytes,s')) : s.initCanonical = none ∧
      ∃ a, answerInit C rt s.cfg entropy data = .ok a ∧ bytes = a.resp ∧ Answered C s data a s' := by
  have hnone : s.initCanonical = none := by
    rw [onInit,get_bind,lift_bind_eq_ok] at h
    obtain ⟨_,hr,-⟩ := h
    exact require_eq_ok.mp hr
  have hf := onInit_follows C rt hnone entropy data
  refine ⟨hnone,?_⟩
  cases hy : answerInit C rt s.cfg entropy data with
  | ok a =>
    obtain ⟨bytes',s'',hc,hpost⟩ := hf.ok a hy
    obtain ⟨hb,rfl⟩ := Prod.mk.inj (h.symm.trans hc)
    obtain rfl := Except.ok.inj hb
    exact ⟨a,rfl,hpost⟩
  | error e =>
    obtain ⟨e',s'',hc,-⟩ := hf.error e hy
    exact absurd (congrArg Prod.fst (h.symm.trans hc)) (by simp)

/-- A call of `onInit` that threw. -/
theorem onInit_error {s s' : HandshakeServer} {entropy : ServerEntropy} {data : Bytes} {e : Thrown}
    (h : (onInit C rt entropy data).call s = (.error e,s')) :
    s' = s ∨ s.initCanonical = none ∧ Unanswered s s' := by
  by_cases hnone : s.initCanonical = none
  · have hf := onInit_follows C rt hnone entropy data
    cases hy : answerInit C rt s.cfg entropy data with
    | ok a =>
      obtain ⟨bytes,s'',hc,-⟩ := hf.ok a hy
      exact absurd (congrArg Prod.fst (h.symm.trans hc)) (by simp)
    | error e' =>
      obtain ⟨e'',s'',hc,-,hpost⟩ := hf.error e' hy
      obtain ⟨-,rfl⟩ := Prod.mk.inj (h.symm.trans hc)
      exact .inr ⟨hnone,hpost⟩
  · rw [onInit,get_bind,require,if_neg hnone,call_bind] at h
    obtain ⟨-,rfl⟩ := Prod.mk.inj h
    exact .inl rfl

variable (C rt) in
/-- Before a RESPONSE is out, `onConfirm` throws and changes nothing. -/
theorem onConfirm_notReady {s : HandshakeServer}
    (hs : ∀ init resp keys proof, ¬Ready s init resp keys proof) (data : Bytes) :
    ∃ e, (onConfirm C rt data).call s = (.error e,s) := by
  rw [onConfirm,get_bind]
  cases hi : s.initCanonical with
  | none => exact ⟨_,by rw [need,call_bind]; rfl⟩
  | some init =>
  cases hr : s.respCanonical with
  | none => exact ⟨_,by rw [need,need,call_bind]; rfl⟩
  | some resp =>
  cases hk : s.sessionKeys with
  | none => exact ⟨_,by rw [need,need,need,call_bind]; rfl⟩
  | some keys =>
  cases hp : s.serverIdProof with
  | none => exact ⟨_,by rw [need,need,need,need,call_bind]; rfl⟩
  | some proof => exact absurd ⟨hi,hr,hk,hp⟩ (hs init resp keys proof)

/-- A call of `onConfirm` that returned. -/
theorem onConfirm_ok {s s' : HandshakeServer} {data bytes : Bytes}
    (h : (onConfirm C rt data).call s = (.ok bytes,s')) :
    ∃ init resp keys proof c s₁ ticket, Ready s init resp keys proof ∧
      openConfirm C rt s.cfg s.sessionId (confirmationHash C init resp) keys data = .ok c ∧
      identified s c.block = .ok s₁ ∧
      grant C s.cfg s.sessionId keys c = .ok (ticket,bytes) ∧
      s' = s₁.accepted keys proof ticket := by
  by_cases hs : ∃ init resp keys proof, Ready s init resp keys proof
  · obtain ⟨init,resp,keys,proof,hs⟩ := hs
    have hf := onConfirm_follows C rt hs data
    generalize hy : (openConfirm C rt s.cfg s.sessionId (confirmationHash C init resp) keys data >>=
      fun c => identified s c.block >>= fun s₁ => grant C s.cfg s.sessionId keys c >>= fun g =>
        (.ok (g.2,s₁.accepted keys proof g.1) : Js (Bytes × HandshakeServer))) = y at hf
    cases y with
    | ok r =>
      obtain ⟨bytes',s'',hc,rfl,rfl⟩ := hf.ok r rfl
      obtain ⟨hb,rfl⟩ := Prod.mk.inj (h.symm.trans hc)
      obtain rfl := Except.ok.inj hb
      obtain ⟨c,hopen,hy⟩ := bind_eq_ok.mp hy
      obtain ⟨s₁,hs₁,hy⟩ := bind_eq_ok.mp hy
      obtain ⟨g,hg,hy⟩ := bind_eq_ok.mp hy
      obtain rfl := Except.ok.inj hy
      exact ⟨init,resp,keys,proof,c,s₁,g.1,hs,hopen,hs₁,hg,rfl⟩
    | error e =>
      obtain ⟨e',s'',hc,-⟩ := hf.error e rfl
      exact absurd (congrArg Prod.fst (h.symm.trans hc)) (by simp)
  · obtain ⟨e,he⟩ := onConfirm_notReady C rt
      (fun i r k p hr => hs ⟨i,r,k,p,hr⟩) data
    exact absurd (congrArg Prod.fst (h.symm.trans he)) (by simp)

/-- A call of `onConfirm` that threw: what it can have written is the identity that the
proof proved, when the caller's policy or the ACCEPTED failed after it. -/
theorem onConfirm_error {s s' : HandshakeServer} {data : Bytes} {e : Thrown}
    (h : (onConfirm C rt data).call s = (.error e,s')) : s' = s ∨
      ∃ init resp keys proof c, Ready s init resp keys proof ∧
        openConfirm C rt s.cfg s.sessionId (confirmationHash C init resp) keys data = .ok c ∧
        identified s c.block = .ok s' ∧ grant C s.cfg s.sessionId keys c = .error e := by
  by_cases hs : ∃ init resp keys proof, Ready s init resp keys proof
  · obtain ⟨init,resp,keys,proof,hs⟩ := hs
    have hf := onConfirm_follows C rt hs data
    generalize (openConfirm C rt s.cfg s.sessionId (confirmationHash C init resp) keys data >>=
      fun c => identified s c.block >>= fun s₁ => grant C s.cfg s.sessionId keys c >>= fun g =>
        (.ok (g.2,s₁.accepted keys proof g.1) : Js (Bytes × HandshakeServer))) = y at hf
    cases y with
    | ok r =>
      obtain ⟨bytes,s'',hc,-⟩ := hf.ok r rfl
      exact absurd (congrArg Prod.fst (h.symm.trans hc)) (by simp)
    | error e' =>
      obtain ⟨e'',s'',hc,rfl,hpost⟩ := hf.error e' rfl
      obtain ⟨he,rfl⟩ := Prod.mk.inj (h.symm.trans hc)
      obtain rfl := Except.error.inj he
      rcases hpost with ⟨rfl,-⟩ | ⟨c,hopen,hid,hgrant⟩
      · exact .inl rfl
      · exact .inr ⟨init,resp,keys,proof,c,hs,hopen,hid,hgrant⟩
  · obtain ⟨e',he⟩ := onConfirm_notReady C rt
      (fun i r k p hr => hs ⟨i,r,k,p,hr⟩) data
    obtain ⟨-,rfl⟩ := Prod.mk.inj (h.symm.trans he)
    exact .inl rfl

/-- Proving an identity writes the two fields of the identity only. -/
theorem identified_frame {s s' : HandshakeServer} {block : Option Json}
    (h : identified s block = .ok s') : ∃ identity keyId,
      s' = {s with clientIdentityValue := identity, clientLongTermKeyIdValue := keyId} := by
  cases block with
  | none =>
    obtain rfl := Except.ok.inj h
    exact ⟨_,_,rfl⟩
  | some b =>
    obtain ⟨named,-,h⟩ := bind_eq_ok.mp h
    obtain rfl := Except.ok.inj h
    exact ⟨_,_,rfl⟩

theorem checkTypeStep_eq_ok {m : Json} {step : String} {u : Unit} :
    checkTypeStep m step = .ok u ↔ ∃ ms, m = .obj ms ∧
      lookup ms (js "type") = some (.str messageType) ∧
      lookup ms (js "step") = some (.str (js step)) := by
  unfold checkTypeStep
  simp only [bind_eq_ok,require_eq_ok,isStr_iff]
  constructor
  · rintro ⟨_,htype,_,hstep,rfl,rfl⟩
    obtain ⟨ms,rfl,ht⟩ := getProp_eq_str.mp htype
    exact ⟨ms,rfl,ht,Except.ok.inj hstep⟩
  · rintro ⟨ms,rfl,ht,hs⟩
    exact ⟨_,rfl,_,rfl,ht,hs⟩

theorem reject_ne_ok {α : Type} {seed : Bytes} {sessionId code : JsString}
    {reason shown : Option JsString} {a : α} : reject C seed sessionId code reason shown ≠ .ok a := by
  obtain ⟨e,he⟩ := reject_error (C := C) seed sessionId code reason shown
  rw [he]
  simp

/-- Nothing is caught that was returned, and a rejection is no result. -/
theorem tryCatch_eq_ok {α : Type} {x : Js α} {handle : Thrown → Js α} {a : α}
    (h : ∀ e, handle e ≠ .ok a) : tryCatch x handle = .ok a ↔ x = .ok a := by
  cases x with
  | ok b => exact Iff.rfl
  | error e => exact iff_of_false (h e) (by simp)

theorem openBlock_eq_ok {seed encC2S : Bytes} {sessionId : JsString} {p : Option Json}
    {block : Json} : openBlock C rt seed sessionId encC2S p = .ok block ↔
      openIdentityProof C rt ⟨p,encC2S,sessionId⟩ = .ok block :=
  tryCatch_eq_ok fun _ => reject_ne_ok

/-- The block carries a signature under the key that the caller looks up for it. -/
structure SignedBlock (C : Crypto) (rt : Runtime)
    (lookup : Option Json → Option Json → Callback Bytes) (sessionId : JsString)
    (wantHash : Bytes) (block : Json) : Prop where
  signed : ∃ clientPub signature sig, lookUpKey lookup block = .ok clientPub ∧
    getProp (some block) (js "identity_signature") = .ok signature ∧
    base64Decode rt signature = .ok sig ∧
    verify C clientPub sig (identitySigned sessionId wantHash) = true

theorem verifyBlock_eq_ok {lookup : Option Json → Option Json → Callback Bytes} {seed : Bytes}
    {sessionId : JsString} {wantHash : Bytes} {block : Json} {u : Unit} :
    verifyBlock C rt lookup seed sessionId wantHash block = .ok u ↔
      SignedBlock C rt lookup sessionId wantHash block := by
  have hlook {pub : Bytes} : (tryCatch (lookUpKey lookup block) fun err =>
      rejectAuth C seed sessionId (thrownText rt err)) = .ok pub ↔ lookUpKey lookup block = .ok pub :=
    tryCatch_eq_ok fun _ => reject_ne_ok
  unfold verifyBlock
  simp only [bind_eq_ok,hlook]
  constructor
  · rintro ⟨clientPub,hpub,signature,hsig,sig,hdec,h⟩
    split_ifs at h with hv
    · exact ⟨clientPub,signature,sig,hpub,hsig,hdec,hv⟩
    · exact absurd h reject_ne_ok
  · rintro ⟨clientPub,signature,sig,hpub,hsig,hdec,hv⟩
    exact ⟨clientPub,hpub,signature,hsig,sig,hdec,if_pos hv⟩

/-- What the identity proof of a CONFIRM shows. -/
inductive ProofOk (C : Crypto) (rt : Runtime) (cfg : ServerConfig) (sessionId : JsString)
    (wantHash : Bytes) (keys : SessionKeys) : Option Json → Option Json → Prop
  | empty : ProofOk C rt cfg sessionId wantHash keys (some (.str [])) none
  | opened {p : Option Json} {block : Json} (nonempty : p ≠ some (.str []))
    (opens : openIdentityProof C rt ⟨p,keys.encC2S,sessionId⟩ = .ok block)
    (signed : ∀ lookup, cfg.lookupClientIdentityKey = some lookup →
      SignedBlock C rt lookup sessionId wantHash block) :
    ProofOk C rt cfg sessionId wantHash keys p (some block)

theorem openProof_eq_ok {cfg : ServerConfig} {sessionId : JsString} {wantHash : Bytes}
    {keys : SessionKeys} {p block : Option Json} :
    openProof C rt cfg sessionId wantHash keys p = .ok block ↔
      ProofOk C rt cfg sessionId wantHash keys p block := by
  unfold openProof
  constructor
  · intro h
    split_ifs at h with hempty
    · obtain rfl := Except.ok.inj h
      rw [isStr_iff.mp hempty]
      exact .empty
    · have hne : p ≠ some (.str []) := fun hp => hempty (isStr_iff.mpr hp)
      obtain ⟨b,hb,h⟩ := bind_eq_ok.mp h
      rw [openBlock_eq_ok] at hb
      cases hl : cfg.lookupClientIdentityKey with
      | none =>
        rw [hl] at h
        obtain rfl := Except.ok.inj h
        exact .opened hne hb (by simp [hl])
      | some lookup =>
        rw [hl] at h
        obtain ⟨_,hv,h⟩ := bind_eq_ok.mp h
        obtain rfl := Except.ok.inj h
        refine .opened hne hb fun lookup' hl' => ?_
        obtain rfl : lookup = lookup' := Option.some.inj (hl.symm.trans hl')
        exact verifyBlock_eq_ok.mp hv
  · intro h
    cases h with
    | empty => exact if_pos (isStr_iff.mpr rfl)
    | opened hne hb hs =>
      rw [if_neg (fun h => hne (isStr_iff.mp h)),openBlock_eq_ok.mpr hb,ok_bind]
      cases hl : cfg.lookupClientIdentityKey with
      | none => rfl
      | some lookup =>
        dsimp only
        rw [verifyBlock_eq_ok (u := ()).mpr (hs lookup hl),ok_bind]

/-- The CONFIRM passes the checks up to the identity. -/
structure ConfirmOk (C : Crypto) (rt : Runtime) (cfg : ServerConfig) (sessionId : JsString)
    (wantHash : Bytes) (keys : SessionKeys) (ms : Members) (c : Confirmed) : Prop where
  type : lookup ms (js "type") = some (.str messageType)
  step : lookup ms (js "step") = some (.str (js "confirm"))
  hash : base64Decode rt (lookup ms (js "confirmation_hash")) = .ok wantHash
  identityProof : c.identityProof = lookup ms (js "identity_proof")
  proof : ProofOk C rt cfg sessionId wantHash keys c.identityProof c.block

theorem openConfirm_eq_ok {cfg : ServerConfig} {sessionId : JsString} {wantHash data : Bytes}
    {keys : SessionKeys} {c : Confirmed} :
    openConfirm C rt cfg sessionId wantHash keys data = .ok c ↔
      ∃ ms, parseJson (Utf8.textDecode data) = .ok (.obj ms) ∧
        ConfirmOk C rt cfg sessionId wantHash keys ms c := by
  unfold openConfirm
  simp only [bind_eq_ok,checkTypeStep_eq_ok]
  constructor
  · rintro ⟨m,hparse,_,⟨ms,rfl,htype,hstep⟩,hash,hhash,got,hgot,h⟩
    rw [getProp_obj,Except.ok.injEq] at hhash
    subst hhash
    split_ifs at h with heq
    · obtain rfl := constantTimeEqual_iff.mp heq
      obtain ⟨p,hp,h⟩ := bind_eq_ok.mp h
      rw [getProp_obj,Except.ok.injEq] at hp
      subst hp
      obtain ⟨block,hb,h⟩ := bind_eq_ok.mp h
      obtain rfl := Except.ok.inj h
      exact ⟨ms,hparse,htype,hstep,hgot,rfl,openProof_eq_ok.mp hb⟩
    · exact absurd h reject_ne_ok
  · rintro ⟨ms,hparse,htype,hstep,hhash,hp,hb⟩
    refine ⟨_,hparse,(),⟨ms,rfl,htype,hstep⟩,_,rfl,_,hhash,?_⟩
    rw [if_pos (constantTimeEqual_iff.mpr rfl),getProp_obj,ok_bind,← hp,openProof_eq_ok.mpr hb,
      ok_bind]

/-- The INIT passes the checks of the server, with this answer. -/
structure InitOk (C : Crypto) (rt : Runtime) (cfg : ServerConfig) (entropy : ServerEntropy)
    (ms : Members) (a : InitAnswer) : Prop where
  type : lookup ms (js "type") = some (.str messageType)
  step : lookup ms (js "step") = some (.str (js "init"))
  negotiated : ∃ offered, getProp (lookup ms (js "capabilities")) (js "encryption_algorithms") =
    .ok offered ∧ pickSuite offered cfg.supportedSuites = .ok (some a.suite)
  clientKey : ∃ key, getProp (lookup ms (js "client_ephemeral_key")) (js "key") = .ok key ∧
    base64Decode rt key = .ok a.clientEphPub
  clientNonce : base64Decode rt (lookup ms (js "nonce")) = .ok a.clientNonce
  serverNonce : a.serverNonce = cfg.serverNonce.getD entropy.nonce
  share : shareOf C cfg entropy a.suite a.clientEphPub = .ok (a.serverEphPub,a.shared)
  sessionId : a.sessionId = entropy.sessionId
  sent : ∃ keyId signed, ephemeralKeyId C a.suite a.serverEphPub = .ok keyId ∧
    serverIdentityProofOf C cfg ⟨a.suite.name,Base64.encode a.serverEphPub,keyId⟩
      (lookup ms (js "nonce")) (Base64.encode a.serverNonce) = .ok a.proof ∧
    serverResponse C cfg a.sessionId (lookup ms (js "nonce")) (Base64.encode a.serverNonce) a.suite
      ⟨a.suite.name,Base64.encode a.serverEphPub,keyId⟩ a.proof = .ok signed ∧
    a.resp = Canonical.canonicalBytes (.obj signed)

/-- The RESPONSE to an INIT that parsed is an object that can be marshalled. -/
theorem serverResponse_marshal {cfg : ServerConfig} {sessionId serverNonce : JsString}
    {ms : Members} (hwf : (Json.obj ms).WF) {k : JsString} {suite : Suite} {key : KeyRef}
    {proof : ServerIdentityProof} {signed : Members}
    (h : serverResponse C cfg sessionId (lookup ms k) serverNonce suite key proof = .ok signed) :
    Canonical.marshal (.obj signed) = .ok (Canonical.canonicalBytes (.obj signed)) :=
  Canonical.marshal_eq (signMessage_wf
    (responsePreSign_wf fun _ hv => Json.wf_of_lookup hwf hv) h)

theorem answerInit_eq_ok {cfg : ServerConfig} {entropy : ServerEntropy} {data : Bytes}
    {a : InitAnswer} : answerInit C rt cfg entropy data = .ok a ↔
      ∃ ms, parseJson (Utf8.textDecode data) = .ok (.obj ms) ∧ InitOk C rt cfg entropy ms a := by
  unfold answerInit answerWith
  simp only [bind_eq_ok,checkTypeStep_eq_ok]
  constructor
  · rintro ⟨m,hparse,_,⟨ms,rfl,htype,hstep⟩,caps,hcaps,offered,hoffered,negotiated,hneg,h⟩
    have hwf : (Json.obj ms).WF := JsonText.parse_wf (parseJson_eq_ok.mp hparse)
    cases negotiated with
    | none => exact absurd h reject_ne_ok
    | some suite =>
      obtain ⟨ck,hck,h⟩ := bind_eq_ok.mp h
      obtain ⟨key,hkey,h⟩ := bind_eq_ok.mp h
      obtain ⟨pub,hpub,h⟩ := bind_eq_ok.mp h
      obtain ⟨n,hn,h⟩ := bind_eq_ok.mp h
      obtain ⟨cn,hcn,h⟩ := bind_eq_ok.mp h
      obtain ⟨share,hshare,h⟩ := bind_eq_ok.mp h
      obtain ⟨keyId,hkeyId,h⟩ := bind_eq_ok.mp h
      obtain ⟨proof,hproof,h⟩ := bind_eq_ok.mp h
      obtain ⟨signed,hsigned,h⟩ := bind_eq_ok.mp h
      obtain ⟨bytes,hbytes,h⟩ := bind_eq_ok.mp h
      obtain rfl := Except.ok.inj h
      rw [getProp_obj,Except.ok.injEq] at hcaps hck hn
      subst hcaps hck hn
      rw [serverResponse_marshal hwf hsigned,Except.ok.injEq] at hbytes
      exact ⟨ms,hparse,htype,hstep,⟨offered,hoffered,hneg⟩,⟨key,hkey,hpub⟩,hcn,rfl,hshare,rfl,
        keyId,signed,hkeyId,hproof,hsigned,hbytes.symm⟩
  · rintro ⟨ms,hparse,h⟩
    have hwf : (Json.obj ms).WF := JsonText.parse_wf (parseJson_eq_ok.mp hparse)
    obtain ⟨offered,hoffered,hneg⟩ := h.negotiated
    obtain ⟨key,hkey,hpub⟩ := h.clientKey
    obtain ⟨keyId,signed,hkeyId,hproof,hsigned,hresp⟩ := h.sent
    refine ⟨_,hparse,(),⟨ms,rfl,h.type,h.step⟩,_,rfl,offered,hoffered,_,hneg,?_⟩
    dsimp only
    rw [getProp_obj,ok_bind,hkey,ok_bind,hpub,ok_bind,getProp_obj,ok_bind,h.clientNonce,ok_bind,
      h.share,ok_bind,hkeyId,ok_bind,← h.serverNonce,hproof,ok_bind,← h.sessionId,hsigned,ok_bind,
      serverResponse_marshal hwf hsigned,ok_bind,← hresp]

end Specs

end HandshakeServer
end Semp
