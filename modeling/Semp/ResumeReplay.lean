import Semp.RekeyRun
import Semp.ResumeRun

/-! Answers of a server that reach a resuming client, its own or those of other runs.  Nothing in
an answer names the request it was composed for, so a replayed one is taken. -/
namespace Semp
namespace Resume
open Handshake Method Federation
variable {C : Crypto} {rt : Runtime}

section Client
variable {client : ResumeClientConfig} {entropy : ResumeEntropy} {t t' : Transport} {s : Session}

theorem resumeClient_eq_ok : (resumeClient C rt client entropy).call t = (.ok s,t') ↔
    ∃ p mid f rest session, (startResume C client entropy).call t = (.ok p,mid) ∧
      mid.inbox = f::rest ∧ takeAccepted C rt client p (some f) = .ok session ∧
      Session.new session = .ok s ∧ t' = {mid with inbox := rest} := by
  rw [resumeClient,Transport.closeOnError_eq_ok,resumeClientInner]
  simp only [Method.bind_eq_ok,Transport.call_receive,lift_eq_ok,Prod.mk.injEq,Except.ok.injEq]
  constructor
  · rintro ⟨p,mid,hstart,_,_,⟨rfl,rfl⟩,session,_,⟨htake,rfl⟩,hnew,rfl⟩
    cases hi : mid.inbox with
    | nil =>
      rw [hi,takeAccepted] at htake
      obtain ⟨_,hneed,-⟩ := Semp.bind_eq_ok.mp htake
      cases hneed
    | cons f rest =>
      rw [hi] at htake
      exact ⟨p,mid,f,rest,session,hstart,hi,htake,hnew,rfl⟩
  · rintro ⟨p,mid,f,rest,session,hstart,hi,htake,hnew,rfl⟩
    refine ⟨p,mid,hstart,_,_,⟨rfl,rfl⟩,session,_,⟨?_,rfl⟩,hnew,?_⟩
    · rw [hi]
      exact htake
    · rw [hi]
      rfl

/-- The session that is made of an ACCEPTED. -/
theorem new_resumed (keys : SessionKeys) (sessionId sessionTTL ticket extensions : Option Json) :
    ∃ s, Session.new (resumedConfig keys sessionId sessionTTL ticket extensions) = .ok s :=
  ⟨_,rfl⟩

/-- A call with a good ephemeral key sends its request. -/
theorem startResume_ok (laws : DhLaws C) (hopen : t.closed = false)
    (hpriv : (client.clientEphemeralPriv.getD entropy.ephemeralPriv).length = 32) :
    ∃ pub req, Started C client ⟨client.clientEphemeralPriv.getD entropy.ephemeralPriv,
        client.clientNonce.getD entropy.nonce⟩ pub req ∧
      (startResume C client entropy).call t =
        (.ok ⟨client.clientEphemeralPriv.getD entropy.ephemeralPriv,
          client.clientNonce.getD entropy.nonce⟩,{t with sent := t.sent++[req]}) := by
  obtain ⟨pub,keyId,hpub,hkeyId⟩ := Rekey.ephemeral_ok laws hpriv
  exact ⟨pub,_,⟨hpub,keyId,rfl⟩,startResume_eq_ok.mpr ⟨hopen,rfl,pub,keyId,hpub,hkeyId,rfl⟩⟩

end Client

/-- A request that a server answered in some run. -/
structure Served where
  config : ResumeServerConfig
  entropy : ResumeEntropy
  request : Bytes
  reply : Bytes
  session : Session

/-- The server that signs with the seed answered so. -/
structure Served.By (C : Crypto) (rt : Runtime) (seed : Bytes) (x : Served) : Prop where
  seed : x.config.serverDomainSigningSeed = seed
  answered : ∃ t, (answerResume C rt x.config x.entropy (some x.request)).call t =
    (.ok x.session,{t with sent := t.sent++[x.reply]})

section Served
variable {seed : Bytes} {x : Served}

theorem Served.By.answer (h : x.By C rt seed) :
    ∃ ms k a, Answered C rt x.config x.entropy x.request ms k a x.reply x.session := by
  obtain ⟨t,ht⟩ := h.answered
  obtain ⟨ms,k,a,reply,ha,hsent⟩ := answered_of_answer ht
  have hreply : t.sent++[x.reply] = t.sent++[reply] := congrArg Transport.sent hsent
  rw [List.append_right_inj,List.singleton_inj] at hreply
  exact ⟨ms,k,a,hreply ▸ ha⟩

/-- A server answers a request of which it can read the ticket, the nonce and the key. -/
theorem served_of_read (laws : Laws C) (config : ResumeServerConfig) (entropy : ResumeEntropy)
    {req priv pub nonce k : Bytes} {ms : Members} {permissions : List JsString}
    (hparse : parseJson (Utf8.textDecode req) = .ok (.obj ms))
    (htype : lookup ms (js "type") = some (.str messageType))
    (hstep : lookup ms (js "step") = some (.str (js "resume")))
    (hlookup : config.lookupTicket (lookup ms (js "resumption_ticket")) =
      .ok (.found k permissions))
    (hpub : clientEphemeralKey rt (.obj ms) = .ok pub)
    (hnonce : base64Decode rt (lookup ms (js "nonce")) = .ok nonce)
    (hclient : x25519PublicKey C priv = .ok pub)
    (hseed : config.serverDomainSigningSeed.length = 32)
    (hpriv : (config.serverEphemeralPriv.getD entropy.ephemeralPriv).length = 32) :
    ∃ reply s, Served.By C rt config.serverDomainSigningSeed ⟨config,entropy,req,reply,s⟩ := by
  obtain ⟨ephPub,ephKeyId,heph,hephKeyId⟩ := Rekey.ephemeral_ok laws.dh hpriv
  obtain ⟨shared,hshared,-⟩ := laws.dh.agree_comm _ _ _ _ heph hclient
  have ha := acceptRequest_eq_ok (k := k).mpr
    ⟨ephPub,pub,nonce,shared,ephKeyId,heph,hpub,hnonce,hshared,hephKeyId,rfl⟩
  obtain ⟨signed,hsigned⟩ := signMessage_ok laws.sig (ResumeAccepted.wf ⟨config.newSessionId,
    config.sessionTTL,Base64.encode (config.serverNonce.getD entropy.nonce),
    keyRef ephPub ephKeyId,config.newTicket,config.acceptedExtensions⟩) hseed
  have hmarshal := Canonical.marshal_eq (signMessage_wf (ResumeAccepted.wf _) hsigned)
  obtain ⟨pk,hpk,hlen⟩ := laws.sig.publicKey_ok _ hseed
  have hfingerprint : fingerprint C pk = .ok (hex (C.sha256 pk).val) := by
    rw [fingerprint,if_neg (by omega)]
  obtain ⟨s,hs⟩ : ∃ s, Session.new (serverConfig config (deriveResumedSessionKeys C shared k
      nonce (config.serverNonce.getD entropy.nonce)) permissions
      (hex (C.sha256 pk).val)) = .ok s := ⟨_,rfl⟩
  refine ⟨Canonical.canonicalBytes (.obj signed),s,rfl,⟨[],[],false⟩,?_⟩
  rw [answerResume]
  refine lift_bind_eq_ok.mpr ⟨req,rfl,lift_bind_eq_ok.mpr ⟨_,hparse,?_⟩⟩
  refine lift_bind_eq_ok.mpr ⟨(),expectRequest_eq_ok.mpr ⟨ms,rfl,htype,hstep⟩,?_⟩
  refine lift_bind_eq_ok.mpr ⟨_,rfl,lift_bind_eq_ok.mpr ⟨.found k permissions,?_,?_⟩⟩
  · exact callback_run_eq_ok.mpr hlookup
  refine lift_bind_eq_ok.mpr ⟨_,ha,lift_bind_eq_ok.mpr ⟨signed,hsigned,?_⟩⟩
  refine lift_bind_eq_ok.mpr ⟨_,hmarshal,Method.bind_eq_ok.mpr ⟨(),_,
    Transport.send_eq_ok.mpr ⟨rfl,rfl⟩,?_⟩⟩
  refine lift_bind_eq_ok.mpr ⟨pk,publicKeyFromSeed_eq_ok.mpr ⟨hseed,hpk⟩,?_⟩
  exact lift_bind_eq_ok.mpr ⟨_,hfingerprint,lift_eq_ok.mpr ⟨hs,rfl⟩⟩

/-- A server that knows the ticket answers an honest request. -/
theorem served_of_started (laws : Laws C) {client : ResumeClientConfig} {p : PendingResume}
    {pub req : Bytes} (hstart : Started C client p pub req) (rt : Runtime)
    (config : ResumeServerConfig) (entropy : ResumeEntropy) {k : Bytes}
    {permissions : List JsString}
    (hlookup : config.lookupTicket (some (.str client.resumptionTicket)) =
      .ok (.found k permissions))
    (hseed : config.serverDomainSigningSeed.length = 32)
    (hpriv : (config.serverEphemeralPriv.getD entropy.ephemeralPriv).length = 32) :
    ∃ reply s, Served.By C rt config.serverDomainSigningSeed ⟨config,entropy,req,reply,s⟩ := by
  obtain ⟨keyId,hreq⟩ := hstart.request
  obtain ⟨ms,hparse,hr⟩ := received (ResumeRequest.wf ⟨Base64.encode p.clientNonce,
    client.resumptionTicket,keyRef pub keyId,client.transport,client.extensions⟩)
  rw [← hreq] at hparse
  have htype := hr.str (ResumeRequest.wf _) (k := js "type") (s := messageType)
    (by rw [ResumeRequest.lookup_members]; rfl)
  have hstep := hr.str (ResumeRequest.wf _) (k := js "step") (s := js "resume")
    (by rw [ResumeRequest.lookup_members]; rfl)
  obtain ⟨hticket,hpub,hnonce⟩ := hstart.read rt hparse
  exact served_of_read laws config entropy hparse htype hstep (hticket ▸ hlookup) hpub hnonce
    hstart.ephemeral hseed hpriv

end Served

section Replay
variable {seed : Bytes} {client : ResumeClientConfig} {entropy : ResumeEntropy}

/-- A session is returned only when the server answered this very request, and it holds the same
keys as the server. -/
def FreshOnly (C : Crypto) (rt : Runtime) (client : ResumeClientConfig) (entropy : ResumeEntropy)
    (served : List Served) (frames : List Bytes) : Prop :=
  ∀ s t, (resumeClient C rt client entropy).call ⟨frames,[],false⟩ = (.ok s,t) →
    ∃ x ∈ served, t.sent = [x.request] ∧ x.session.keys = s.keys

/-- The session comes from an ACCEPTED that verifies under the key of the server. -/
def FromSigned (C : Crypto) (rt : Runtime) (client : ResumeClientConfig) (frames : List Bytes) :
    Prop :=
  ∃ f rest ms, frames = f::rest ∧ parseJson (Utf8.textDecode f) = .ok (.obj ms) ∧
    lookup ms (js "step") = some (.str (js "accepted")) ∧
    ∃ sig, base64Decode rt (lookup ms (js "server_signature")) = .ok sig ∧
      verify C client.serverDomainPub sig (utf8 handshakePrefix++signedPart ms) = true

/-- The call returns a session whose keys come from what this run drew, its secret, and what the
server drew for the answer; they are the keys of the server when the answer is to the request of
this run and the server knows the ticket by the same secret. -/
def Takes (C : Crypto) (rt : Runtime) (client : ResumeClientConfig) (entropy : ResumeEntropy)
    (x : Served) (rest : List Bytes) : Prop :=
  ∃ s req serverPub shared, (resumeClient C rt client entropy).call ⟨x.reply::rest,[],false⟩ =
      (.ok s,⟨rest,[req],false⟩) ∧
    x25519PublicKey C (x.config.serverEphemeralPriv.getD x.entropy.ephemeralPriv) =
      .ok serverPub ∧
    x25519Agree C (client.clientEphemeralPriv.getD entropy.ephemeralPriv) serverPub =
      .ok shared ∧
    s.keys = some (deriveResumedSessionKeys C shared client.kResumption
      (client.clientNonce.getD entropy.nonce) (x.config.serverNonce.getD x.entropy.nonce)) ∧
    (x.request = req → (∃ permissions, x.config.lookupTicket
        (some (.str client.resumptionTicket)) = .ok (.found client.kResumption permissions)) →
      s.keys = x.session.keys)

theorem Served.By.taken (laws : Laws C)
    (hpk : publicKeyFromSeed C seed = .ok client.serverDomainPub)
    (hpriv : (client.clientEphemeralPriv.getD entropy.ephemeralPriv).length = 32) {x : Served}
    (hx : x.By C rt seed) (rest : List Bytes) : Takes C rt client entropy x rest := by
  obtain ⟨pub,req,hstart,hsent⟩ :=
    startResume_ok (t := ⟨x.reply::rest,[],false⟩) laws.dh rfl hpriv
  obtain ⟨ms,k,a,ha⟩ := hx.answer
  rw [← hx.seed] at hpk
  obtain ⟨serverPub,shared,session,hserver,hshared,htake,hkeys,hown⟩ :=
    ha.taken laws hpk hstart.ephemeral
  obtain ⟨s,hnew⟩ : ∃ s, Session.new session = .ok s := by
    obtain ⟨_,_,_,_,-,-,rfl⟩ := takeAccepted_eq_ok.mp htake
    exact new_resumed ..
  have hs := (new_session hnew).1
  refine ⟨s,req,serverPub,shared,resumeClient_eq_ok.mpr ⟨_,_,x.reply,rest,session,hsent,rfl,htake,
    hnew,rfl⟩,hserver,hshared,by rw [hs,hkeys],?_⟩
  rintro hreq ⟨permissions,hlookup⟩
  obtain ⟨hticket,hpub,hnonce⟩ := hstart.read rt (hreq ▸ ha.parsed)
  obtain ⟨permissions',hfound⟩ := ha.ticket
  rw [hticket,hlookup] at hfound
  obtain ⟨rfl,-⟩ := TicketLookupResult.found.inj (Except.ok.inj hfound)
  rw [hs,ha.keys,hown hpub hnonce rfl]

/-- A resuming client returns a session only from an ACCEPTED that the server's key verifies, and
it takes every answer that the server signed, whichever request it was composed for. -/
theorem resumeClient_takes (laws : Laws C)
    (hpk : publicKeyFromSeed C seed = .ok client.serverDomainPub)
    (hpriv : (client.clientEphemeralPriv.getD entropy.ephemeralPriv).length = 32) :
    (∀ frames s t, (resumeClient C rt client entropy).call ⟨frames,[],false⟩ = (.ok s,t) →
      FromSigned C rt client frames) ∧
    ∀ x : Served, x.By C rt seed → ∀ rest, Takes C rt client entropy x rest := by
  refine ⟨fun frames s t h => ?_,fun x hx rest => hx.taken laws hpk hpriv rest⟩
  obtain ⟨p,mid,f,rest,session,hstart,hinbox,htake,-,-⟩ := resumeClient_eq_ok.mp h
  obtain ⟨-,-,_,_,-,-,rfl⟩ := startResume_eq_ok.mp hstart
  obtain ⟨ms,_,_,_,hparse,hok,-⟩ := takeAccepted_eq_ok.mp htake
  exact ⟨f,rest,ms,hinbox,hparse,hok.step,hok.signed⟩

/-- An answer to a request with another nonce is taken all the same. -/
theorem replayed (laws : Laws C)
    (hpk : publicKeyFromSeed C seed = .ok client.serverDomainPub)
    (hpriv : (client.clientEphemeralPriv.getD entropy.ephemeralPriv).length = 32) {x : Served}
    (hx : x.By C rt seed) {first : ResumeClientConfig} {p : PendingResume} {pub : Bytes}
    (hfirst : Started C first p pub x.request)
    (hnonce : p.clientNonce ≠ client.clientNonce.getD entropy.nonce) :
    ¬ FreshOnly C rt client entropy [x] [x.reply] := by
  intro hfresh
  obtain ⟨pub',req,hstart,hsent⟩ := startResume_ok (t := ⟨[x.reply],[],false⟩) laws.dh rfl hpriv
  have htaken : Takes C rt client entropy x [] := hx.taken laws hpk hpriv []
  obtain ⟨s,req',_,_,hcall,-⟩ := htaken
  obtain ⟨p',mid,_,_,_,hstart',-,-,-,ht⟩ := resumeClient_eq_ok.mp hcall
  obtain rfl : mid = _ := (Prod.mk.inj (hstart'.symm.trans hsent)).2
  obtain rfl : req' = req := List.singleton_inj.mp (congrArg Transport.sent ht)
  obtain ⟨y,hy,hyreq,-⟩ := hfresh s _ hcall
  obtain rfl := List.mem_singleton.mp hy
  -- The two requests would be one, but they name different nonces.
  obtain rfl : req' = y.request := List.singleton_inj.mp hyreq
  obtain ⟨ms,_,_,ha⟩ := hx.answer
  obtain ⟨-,-,hn⟩ := hfirst.read rt ha.parsed
  obtain ⟨-,-,hn'⟩ := hstart.read rt ha.parsed
  exact hnonce (Except.ok.inj (hn.symm.trans hn'))

end Replay

/-! Two resumptions with one ticket, which differ in the nonce of the client. -/
def sampleSeed : Bytes := List.replicate 32 7

def sampleClient (nonce : UInt8) : ResumeClientConfig where
  serverDomainPub := sampleSeed
  transport := js "websocket"
  kResumption := List.replicate 32 3
  resumptionTicket := js "ticket"
  clientEphemeralPriv := some (List.replicate 32 5)
  clientNonce := some (List.replicate 32 nonce)
  extensions := none

def sampleServer : ResumeServerConfig where
  serverDomainSigningSeed := sampleSeed
  lookupTicket := fun ticket =>
    if isStr ticket (js "ticket") then .ok (.found (List.replicate 32 3) [])
    else .ok (.refused (js "ticket_unknown") none)
  newTicket := ⟨js "ticket-2",js "2030-01-01T00:00:00Z"⟩
  newSessionId := js "session-2"
  sessionTTL := .ofNat 3600
  acceptedExtensions := none
  serverEphemeralPriv := some (List.replicate 32 6)
  serverNonce := some (List.replicate 32 8)

def sampleEntropy : ResumeEntropy := ⟨[],[]⟩

theorem sample_pub : publicKeyFromSeed Sample.crypto sampleSeed = .ok sampleSeed := rfl

theorem sample_priv (nonce : UInt8) : ((sampleClient nonce).clientEphemeralPriv.getD
    sampleEntropy.ephemeralPriv).length = 32 := rfl

theorem sample_lookup : sampleServer.lookupTicket (some (.str (js "ticket"))) =
    .ok (.found (List.replicate 32 3) []) := rfl

/-- The first resumption, and its answer. -/
theorem sampleServed : ∃ x : Served, x.By Sample.crypto Sample.runtime sampleSeed ∧
    ∃ pub, Started Sample.crypto (sampleClient 1)
      ⟨List.replicate 32 5,List.replicate 32 1⟩ pub x.request := by
  obtain ⟨pub,req,hstart,-⟩ := startResume_ok (t := ⟨[],[],false⟩) Sample.laws.dh rfl
    (sample_priv 1)
  obtain ⟨reply,s,hx⟩ := served_of_started Sample.laws hstart Sample.runtime sampleServer
    sampleEntropy sample_lookup rfl rfl
  exact ⟨_,hx,pub,hstart⟩

theorem resumeClient_takes_sample : ∃ x : Served,
    x.By Sample.crypto Sample.runtime sampleSeed ∧
    Takes Sample.crypto Sample.runtime (sampleClient 2) sampleEntropy x [] := by
  obtain ⟨x,hx,-⟩ := sampleServed
  exact ⟨x,hx,(resumeClient_takes Sample.laws sample_pub (sample_priv 2)).2 x hx []⟩

/-- The answer to the first request is taken in the second resumption. -/
theorem not_freshOnly : ¬ ∀ (C : Crypto) (rt : Runtime) (seed : Bytes)
    (client : ResumeClientConfig) (entropy : ResumeEntropy) (served : List Served)
    (frames : List Bytes), publicKeyFromSeed C seed = .ok client.serverDomainPub →
      (∀ x ∈ served, x.By C rt seed) → (∀ f ∈ frames, f ∈ served.map Served.reply) →
      FreshOnly C rt client entropy served frames := by
  intro hall
  obtain ⟨x,hx,pub,hfirst⟩ := sampleServed
  refine replayed Sample.laws sample_pub (sample_priv 2) hx hfirst (by decide)
    (hall _ _ _ (sampleClient 2) _ [x] [x.reply] sample_pub ?_ ?_)
  · intro y hy
    rw [List.mem_singleton.mp hy]
    exact hx
  · intro f hf
    rw [List.mem_singleton.mp hf]
    exact List.mem_singleton_self _

end Resume
end Semp
