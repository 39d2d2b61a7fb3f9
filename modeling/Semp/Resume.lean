import Semp.Federation
import Semp.ClientDriver

/-! Resuming a session in one round trip.  The client names the ticket of a session it had, and
both sides derive new keys from fresh ephemeral keys and the secret they kept of that session. -/
namespace Semp
namespace Resume
open Handshake Method

/-- The wire message of step=resume, which is not signed. -/
structure ResumeRequest where
  nonce : JsString
  resumptionTicket : JsString
  clientEphemeralKey : KeyRef
  transport : JsString
  extensions : Option JsObject

def ResumeRequest.fields (r : ResumeRequest) : List (JsString × Option Json) :=
  header "resume" "client"++
    [(js "nonce",some (.str r.nonce)),(js "resumption_ticket",some (.str r.resumptionTicket)),
      (js "client_ephemeral_key",some (.obj r.clientEphemeralKey.members)),
      (js "transport",some (.str r.transport)),extensionsMember r.extensions]

def ResumeRequest.members (r : ResumeRequest) : Members := definedMembers r.fields

/-- The wire message of step=accepted, before it is signed. -/
structure ResumeAccepted where
  sessionId : JsString
  sessionTTL : Number
  serverNonce : JsString
  serverEphemeralKey : KeyRef
  resumptionTicket : ResumptionTicket
  extensions : Option JsObject

def ResumeAccepted.fields (a : ResumeAccepted) : List (JsString × Option Json) :=
  header "accepted" "server"++
    [(js "session_id",some (.str a.sessionId)),(js "session_ttl",some (.num a.sessionTTL)),
      (js "server_nonce",some (.str a.serverNonce)),
      (js "server_ephemeral_key",some (.obj a.serverEphemeralKey.members)),
      (js "resumption_ticket",some (.obj a.resumptionTicket.members)),
      (js "server_signature",some (.str [])),extensionsMember a.extensions]

def ResumeAccepted.members (a : ResumeAccepted) : Members := definedMembers a.fields

structure ResumeClientConfig where
  serverDomainPub : Bytes
  transport : JsString
  kResumption : Bytes
  resumptionTicket : JsString
  clientEphemeralPriv : Option Bytes
  clientNonce : Option Bytes
  extensions : Option JsObject

/-- What `randomBytes` draws for one call. -/
structure ResumeEntropy where
  ephemeralPriv : Bytes
  nonce : Bytes

/-- What `resumeClient` holds while it waits for the answer. -/
structure PendingResume where
  ephPriv : Bytes
  clientNonce : Bytes

/-- Outcome of a ticket lookup performed by the server. -/
inductive TicketLookupResult
  | found (kResumption : Bytes) (permissions : List JsString)
  | refused (reasonCode : JsString) (reason : Option JsString)

/-- The ticket and the session id are what the caller's generators returned. -/
structure ResumeServerConfig where
  serverDomainSigningSeed : Bytes
  lookupTicket : Option Json → Callback TicketLookupResult
  newTicket : ResumptionTicket
  newSessionId : JsString
  sessionTTL : Number
  acceptedExtensions : Option JsObject
  serverEphemeralPriv : Option Bytes
  serverNonce : Option Bytes

/-- The reference to an ephemeral key of a resumption. -/
def keyRef (ephPub : Bytes) (keyId : JsString) : KeyRef :=
  ⟨Suite.x25519.name,Base64.encode ephPub,keyId⟩

/-- The session of a client that an ACCEPTED announces. -/
def resumedConfig (keys : SessionKeys) (sessionId sessionTTL ticket extensions : Option Json) :
    SessionConfig where
  role := .client
  sessionId := sessionId
  sessionTTL := sessionTTL
  permissions := some (.arr [])
  keys := keys
  resumptionTicket := ticket
  serverIdentityProofKeyId := none
  serverIdentityProofSignature := none
  extensions := extensions

section Code
variable (C : Crypto) (rt : Runtime)

/-- `resumeClient` up to the `receive`. -/
def startResume (config : ResumeClientConfig) (entropy : ResumeEntropy) :
    Method Thrown Transport PendingResume := do
  let ephPriv := config.clientEphemeralPriv.getD entropy.ephemeralPriv
  let ephPub ← x25519PublicKey C ephPriv
  let clientNonce := config.clientNonce.getD entropy.nonce
  let keyId ← fingerprint C ephPub
  let req ← Canonical.marshal (.obj (ResumeRequest.mk (Base64.encode clientNonce)
    config.resumptionTicket (keyRef ephPub keyId) config.transport config.extensions).members)
  Transport.send req
  return ⟨ephPriv,clientNonce⟩

/-- `new HandshakeRejectedError(r.session_id ?? "", r.reason_code ?? "auth_failed", r.reason)`,
thrown. -/
def throwRefused {α : Type} (m : Json) : Js α := do
  let sessionId ← getProp (some m) (js "session_id")
  let reasonCode ← getProp (some m) (js "reason_code")
  let reason ← getProp (some m) (js "reason")
  let code := some (orElse reasonCode (.str (js "auth_failed")))
  let _ ← templateText code
  let _ ← reasonText reason
  .error (.handshakeRejected (some (orElse sessionId (.str []))) code reason)

/-- `respMsg.step`, which has to be "accepted". -/
def expectAccepted (m : Json) : Js Unit := do
  let step ← getProp (some m) (js "step")
  if isStr step (js "rejected") then throwRefused m
  else if isStr step (js "accepted") then .ok ()
  else do
    let got ← templateText (orQuestionMark step)
    raise (js "resume: expected step=accepted, got "++got)

def verifyAcceptedSignature (accepted : Json) (serverDomainPub : Bytes) : Js Unit := do
  let sig ← base64Decode rt (← getProp (some accepted) (js "server_signature"))
  let canonical ← Canonical.marshal
    (.obj (assign (spread (some accepted)) (js "server_signature") (.str [])))
  require (verify C serverDomainPub sig (utf8 handshakePrefix++canonical) = true)
    (js "resume: server_signature did not verify under server domain pub")

/-- `resumeClient` from the frame that `receive` gave on, up to the new session. -/
def takeAccepted (config : ResumeClientConfig) (pending : PendingResume)
    (respBytes : Option Bytes) : Js SessionConfig := do
  let bytes ← need respBytes (js "resume: connection closed waiting for response")
  let m ← parseJson (Utf8.textDecode bytes)
  expectAccepted m
  verifyAcceptedSignature C rt m config.serverDomainPub
  let serverEphPub ← Federation.serverEphemeralKey rt m
  let serverNonce ← base64Decode rt (← getProp (some m) (js "server_nonce"))
  let ephSharedSecret ← x25519Agree C pending.ephPriv serverEphPub
  let keys := deriveResumedSessionKeys C ephSharedSecret config.kResumption pending.clientNonce
    serverNonce
  let sessionId ← getProp (some m) (js "session_id")
  let sessionTTL ← getProp (some m) (js "session_ttl")
  let ticket ← getProp (some m) (js "resumption_ticket")
  let extensions ← getProp (some m) (js "extensions")
  .ok (resumedConfig keys sessionId sessionTTL ticket extensions)

def resumeClientInner (config : ResumeClientConfig) (entropy : ResumeEntropy) :
    Method Thrown Transport Session := do
  let pending ← startResume C config entropy
  let respBytes ← Transport.receive
  let session ← takeAccepted C rt config pending respBytes
  Session.new session

def resumeClient (config : ResumeClientConfig) (entropy : ResumeEntropy) :
    Method Thrown Transport Session :=
  Transport.closeOnError (resumeClientInner C rt config entropy)

/-- A transport that is gone does not change the outcome. -/
def sendRejected (reasonCode : JsString) (reason : Option JsString) (seed : Bytes) :
    Method Thrown Transport Unit := do
  let signed ← signMessage C (rejectedPreSign ⟨[],reasonCode,reason,seed,none⟩) seed
  let body : Method Thrown Transport Unit := do
    let bytes ← Canonical.marshal (.obj signed)
    Transport.send bytes
  tryCatch body fun _ => return ()

/-- The ephemeral key of a request, decoded. -/
def clientEphemeralKey (req : Json) : Js Bytes := do
  let key ← getProp (some req) (js "client_ephemeral_key")
  base64Decode rt (← getProp key (js "key"))

/-- What the server computes of a request whose ticket is good. -/
structure Accepted where
  message : ResumeAccepted
  keys : SessionKeys

def acceptRequest (config : ResumeServerConfig) (entropy : ResumeEntropy) (kResumption : Bytes)
    (req : Json) : Js Accepted := do
  let ephPriv := config.serverEphemeralPriv.getD entropy.ephemeralPriv
  let ephPub ← x25519PublicKey C ephPriv
  let serverNonce := config.serverNonce.getD entropy.nonce
  let clientEphPub ← clientEphemeralKey rt req
  let clientNonce ← base64Decode rt (← getProp (some req) (js "nonce"))
  let ephSharedSecret ← x25519Agree C ephPriv clientEphPub
  let keyId ← fingerprint C ephPub
  .ok ⟨⟨config.newSessionId,config.sessionTTL,Base64.encode serverNonce,keyRef ephPub keyId,
      config.newTicket,config.acceptedExtensions⟩,
    deriveResumedSessionKeys C ephSharedSecret kResumption clientNonce serverNonce⟩

/-- The session of the server. -/
def serverConfig (config : ResumeServerConfig) (keys : SessionKeys) (permissions : List JsString)
    (keyId : JsString) : SessionConfig where
  role := .server
  sessionId := some (.str config.newSessionId)
  sessionTTL := some (.num config.sessionTTL)
  permissions := some (strs permissions)
  keys := keys
  resumptionTicket := some (.obj config.newTicket.members)
  serverIdentityProofKeyId := some (.str keyId)
  serverIdentityProofSignature := none
  extensions := some (.obj (extensionsOrEmpty config.acceptedExtensions))

def expectRequest (req : Json) : Js Unit := do
  let type ← getProp (some req) (js "type")
  let step ← getProp (some req) (js "step")
  if isStr type messageType && isStr step (js "resume") then .ok ()
  else do
    let got ← templateText step
    raise (js "resume: expected step=resume, got "++got)

/-- `resumeServer` from the frame that `receive` gave on. -/
def answerResume (config : ResumeServerConfig) (entropy : ResumeEntropy)
    (reqBytes : Option Bytes) : Method Thrown Transport Session := do
  let bytes ← need reqBytes (js "resume: connection closed waiting for request")
  let req ← parseJson (Utf8.textDecode bytes)
  expectRequest req
  let ticket ← getProp (some req) (js "resumption_ticket")
  match ← (config.lookupTicket ticket).run with
  | .refused reasonCode reason => do
    sendRejected C reasonCode reason config.serverDomainSigningSeed
    liftM (raise (js "resume: ticket invalid: "++reasonCode) : Js Session)
  | .found kResumption permissions => do
    let accepted ← acceptRequest C rt config entropy kResumption req
    let signed ← signMessage C accepted.message.members config.serverDomainSigningSeed
    let reply ← Canonical.marshal (.obj signed)
    Transport.send reply
    let pub ← publicKeyFromSeed C config.serverDomainSigningSeed
    let keyId ← fingerprint C pub
    Session.new (serverConfig config accepted.keys permissions keyId)

def resumeServerInner (config : ResumeServerConfig) (entropy : ResumeEntropy) :
    Method Thrown Transport Session := do
  let reqBytes ← Transport.receive
  answerResume C rt config entropy reqBytes

def resumeServer (config : ResumeServerConfig) (entropy : ResumeEntropy) :
    Method Thrown Transport Session :=
  Transport.closeOnError (resumeServerInner C rt config entropy)

end Code
end Resume
end Semp
