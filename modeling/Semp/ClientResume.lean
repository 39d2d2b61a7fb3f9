import Semp.HandshakeClient

/-! The resumption calls of the message-driven client.  Its RESUME names a ticket and a nonce, and
carries no ephemeral key: the new keys come from the retained secret alone. -/
namespace Semp

/-- The fields of the class, with the two that only the resumption calls use. -/
structure ResumingClient extends HandshakeClient where
  resumptionSecret : Option Bytes
  resumeNonce : Option Bytes

namespace ResumingClient
open Handshake

/-- The wire message of step=resume. -/
structure ClientResume where
  ticket : JsString
  clientNonce : JsString
  capabilities : Capabilities

def ClientResume.fields (r : ClientResume) : List (JsString × Option Json) :=
  header "resume" "client"++
    [(js "ticket",some (.str r.ticket)),(js "client_nonce",some (.str r.clientNonce)),
      (js "capabilities",some (.obj r.capabilities.members)),(js "extensions",some (.obj []))]

def ClientResume.members (r : ClientResume) : Members := definedMembers r.fields

/-- What the client takes from an ACCEPTED. -/
structure ResumeAnswer where
  resumptionSecret : Bytes
  resumeNonce : Bytes
  message : Json
  serverNonce : Bytes

section Code
variable (C : Crypto)

def new (cfg : ClientConfig) : Js ResumingClient := do
  let c ← HandshakeClient.new cfg
  .ok ⟨c,none,none⟩

def loadResumptionSecret (secret : Bytes) : Method Thrown ResumingClient Unit := do
  require (secret.length ≠ 0) (js "handshake: empty resumption secret")
  modify fun c => {c with resumptionSecret := some secret}

/-- `resume`, with what `randomBytes` draws. -/
def resume (entropy : Bytes) (ticket : JsString) : Method Thrown ResumingClient Bytes := do
  let c ← get
  require (c.resumptionSecret ≠ none) (js "handshake: resume before loadResumptionSecret")
  require (ticket ≠ []) (js "handshake: empty resumption ticket")
  let resumeNonce := c.resumeNonce.getD entropy
  modify fun c => {c with resumeNonce := some resumeNonce}
  Canonical.marshal (.obj
    (ClientResume.mk ticket (Base64.encode resumeNonce) c.capabilities).members)

/-- `typeof acc.server_nonce !== "string" || acc.server_nonce === ""` is refused. -/
def takeServerNonce (m : Json) : Js Bytes := do
  match ← getProp (some m) (js "server_nonce") with
  | some (.str (u::s)) => .ok (Base64.decode (u::s))
  | _ => raise (js "handshake: resume accepted missing server_nonce")

/-- `onResumeAccepted` up to the nonce of the server. -/
def takeResumeAccepted (c : ResumingClient) (data : Bytes) : Js ResumeAnswer := do
  let resumptionSecret ← need c.resumptionSecret
    (js "handshake: onResumeAccepted before resume")
  let resumeNonce ← need c.resumeNonce (js "handshake: onResumeAccepted before resume")
  let m ← parseJson (Utf8.textDecode data)
  refuseRejected m
  let type ← getProp (some m) (js "type")
  let step ← getProp (some m) (js "step")
  require (isStr type messageType ∧ isStr step (js "accepted"))
    (js "handshake: resume accepted type/step mismatch")
  verifyServerSignature C m (js "server_signature") c.serverDomainPub
  let serverNonce ← takeServerNonce m
  .ok ⟨resumptionSecret,resumeNonce,m,serverNonce⟩

/-- The input keying material is `concat(this.resumptionSecret, new Uint8Array())`. -/
def ResumeAnswer.keys (a : ResumeAnswer) : SessionKeys :=
  deriveSessionKeysWithResumption C (a.resumptionSecret++[]) a.resumeNonce a.serverNonce

/-- The session an ACCEPTED announces. -/
def sessionOf (keys : SessionKeys) (m : Json) : Js ClientSession := do
  let ttl ← getProp (some m) (js "session_ttl")
  let positive ← gtZero ttl
  let sessionId ← getProp (some m) (js "session_id")
  let permissions ← getProp (some m) (js "permissions")
  let extensions ← getProp (some m) (js "extensions")
  let ticket ← getProp (some m) (js "resumption_ticket")
  .ok {
    sessionId := sessionId
    sessionTTL := if positive then ttl else some (.num (.ofNat 300))
    permissions := permissions
    keys := keys
    serverIdentityProofKeyId := some (.str [])
    serverIdentityProofSignature := some (.str [])
    extensions := extensions
    resumptionTicket := ticket }

/-- `acc.resumption_ticket?.value` -/
def ticketValue : Option Json → Js (Option Json)
  | none | some .null => .ok none
  | some ticket => getProp (some ticket) (js "value")

def onResumeAccepted (data : Bytes) :
    Method Thrown ResumingClient (ClientSession × Option Json) := do
  let c ← get
  let a ← takeResumeAccepted C c data
  modify fun c => {c with resumptionSecret := none}
  let session ← sessionOf (a.keys C) a.message
  modify fun c => {c with finalSession := some session}
  let newTicket ← ticketValue session.resumptionTicket
  return (session,newTicket)

end Code

section Specs
open Method
variable {C : Crypto} {c c' : ResumingClient} {entropy req data : Bytes} {ticket : JsString}

def ClientResume.names : List JsString :=
  [js "type",js "step",js "party",js "version",js "ticket",js "client_nonce",js "capabilities",
    js "extensions"]

theorem ClientResume.lookup_members (r : ClientResume) (k : JsString) :
    lookup r.members k = (lookup r.fields k).join :=
  lookup_definedMembers (show (keys r.fields).Nodup from (by decide : names.Nodup)) k

theorem ClientResume.wf (r : ClientResume) : (Json.obj r.members).WF :=
  wf_literal names rfl (by decide) (by simp [fields,header,Capabilities.wf,Json.wf_empty])

/-- A call that returns wrote a request with its nonce, and keeps the secret. -/
theorem resume_eq_ok : (resume entropy ticket).call c = (.ok req,c') ↔
    c.resumptionSecret ≠ none ∧ ticket ≠ [] ∧
      c' = {c with resumeNonce := some (c.resumeNonce.getD entropy)} ∧
      req = Canonical.canonicalBytes (.obj (ClientResume.mk ticket
        (Base64.encode (c.resumeNonce.getD entropy)) c.capabilities).members) := by
  rw [resume,get_bind]
  simp only [lift_bind_eq_ok,require_eq_ok,exists_const,modify_bind,lift_eq_ok,
    Canonical.marshal_eq (ClientResume.wf _),Except.ok.injEq]
  constructor
  · rintro ⟨hsecret,hticket,rfl,rfl⟩
    exact ⟨hsecret,hticket,rfl,rfl⟩
  · rintro ⟨hsecret,hticket,rfl,rfl⟩
    exact ⟨hsecret,hticket,rfl,rfl⟩

/-- Nothing in the request is under the name of an ephemeral key. -/
theorem no_ephemeral_key (r : ClientResume) :
    lookup r.members (js "client_ephemeral_key") = none := by
  rw [ClientResume.lookup_members]
  rfl

end Specs
end ResumingClient
end Semp
