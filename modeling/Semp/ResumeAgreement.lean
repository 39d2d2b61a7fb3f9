import Semp.ResumeReplay
import Semp.ClientResume
import Semp.FederationInitiator

/-! The three initiators that resume a session, each against the same server.  They write their
requests by hand and order the input of the key derivation by hand. -/
namespace Semp

/-- The five keys that both sides of a session use. -/
def SessionKeys.shared (k : SessionKeys) : List Bytes :=
  [k.encC2S,k.encS2C,k.macC2S,k.macS2C,k.envMAC]

/-- The five keys of one input keying material under one salt. -/
def expanded (C : Crypto) (ikm salt : Bytes) : List Bytes :=
  [infoSessionEncC2S,infoSessionEncS2C,infoSessionMACC2S,infoSessionMACS2C,
    infoSessionEnvMAC].map fun info =>
      C.hkdfExpand (C.hkdfExtract salt ikm) (utf8 info) sessionKeyLength

section Keys
variable {C : Crypto} (ikm shared k clientNonce serverNonce : Bytes)

theorem shared_deriveResumed :
    (deriveResumedSessionKeys C shared k clientNonce serverNonce).shared =
      expanded C (shared++k) (clientNonce++serverNonce) := rfl

theorem shared_deriveWithResumption :
    (deriveSessionKeysWithResumption C ikm clientNonce serverNonce).shared =
      expanded C ikm (clientNonce++serverNonce) := rfl

end Keys

/-- HKDF tells the two inputs apart under the salt. -/
def Apart (C : Crypto) (salt ikm ikm' : Bytes) : Prop :=
  expanded C ikm salt = expanded C ikm' salt → ikm = ikm'

namespace Resume
open Handshake Method Federation
variable {C : Crypto} {rt : Runtime}

/-- A caller that resumes, once its request is out: the fields it waits with, and the ticket. -/
inductive Initiator
  | resumeClient (config : ResumeClientConfig) (pending : PendingResume)
  | handshakeClient (c : ResumingClient) (ticket : JsString)
  | federationInitiator (c : FederationInitiator) (ticket : Bytes)

namespace Initiator

/-- The bytes that its call sent or returned. -/
def Sent (C : Crypto) (req : Bytes) : Initiator → Prop
  | resumeClient config pending => ∃ entropy t, (startResume C config entropy).call t =
      (.ok pending,{t with sent := t.sent++[req]})
  | handshakeClient c ticket => ∃ entropy before,
      (ResumingClient.resume entropy ticket).call before = (.ok req,c)
  | federationInitiator c ticket => ∃ entropy revision before,
      (FederationInitiator.resume C entropy ticket revision).call before = (.ok req,c)

/-- The secret of the earlier session. -/
def kResumption : Initiator → Option Bytes
  | resumeClient config _ => some config.kResumption
  | handshakeClient c _ => c.resumptionSecret
  | federationInitiator c _ => c.resumptionSecret

/-- The ticket as it travels. -/
def ticket : Initiator → JsString
  | resumeClient config _ => config.resumptionTicket
  | handshakeClient _ ticket => ticket
  | federationInitiator _ ticket => Base64.encode ticket

def nonce : Initiator → Option Bytes
  | resumeClient _ pending => some pending.clientNonce
  | handshakeClient c _ => c.resumeNonce
  | federationInitiator c _ => c.resumeNonce

/-- The private half of the ephemeral key of the request; `HandshakeClient` has none. -/
def ephPriv : Initiator → Option Bytes
  | resumeClient _ pending => some pending.ephPriv
  | handshakeClient .. => none
  | federationInitiator c _ => c.ephPriv

/-- The key under which it checks the answer. -/
def Trusts (pk : Bytes) : Initiator → Prop
  | resumeClient config _ => config.serverDomainPub = pk
  | handshakeClient c _ => c.serverDomainPub = pk
  | federationInitiator c _ => c.cfg.peerDomainPubLookup c.cfg.peerDomain = .ok pk

/-- The answer gives the initiator a session with these keys. -/
def Completes (C : Crypto) (rt : Runtime) (reply : Bytes) (own : SessionKeys) : Initiator → Prop
  | resumeClient config pending => ∃ session,
      takeAccepted C rt config pending (some reply) = .ok session ∧ session.keys = own
  | handshakeClient c _ => ∃ r c',
      (ResumingClient.onResumeAccepted C reply).call c = (.ok r,c') ∧ r.1.keys = own
  | federationInitiator c _ => ∃ r c',
      (FederationInitiator.onResumeAccepted C rt reply).call c = (.ok r,c') ∧ r.1.keys = own

/-- The initiator feeds what the server feeds. -/
def Alike (shared k : Bytes) : Initiator → Prop
  | resumeClient .. => True
  | handshakeClient .. => False
  | federationInitiator .. => k++shared = shared++k

end Initiator

/-- A request reaches a server that knows the ticket by the same secret. -/
structure Exchange (C : Crypto) (i : Initiator) (config : ResumeServerConfig)
    (entropy : ResumeEntropy) (req k nonce shared : Bytes) : Prop where
  sent : i.Sent C req
  secret : i.kResumption = some k
  nonce : i.nonce = some nonce
  known : ∃ permissions,
    config.lookupTicket (some (.str i.ticket)) = .ok (.found k permissions)
  trusts : ∃ pk, publicKeyFromSeed C config.serverDomainSigningSeed = .ok pk ∧ i.Trusts pk
  serverPriv : (config.serverEphemeralPriv.getD entropy.ephemeralPriv).length = 32
  shared : ∀ priv ∈ i.ephPriv, ∀ serverPub,
    x25519PublicKey C (config.serverEphemeralPriv.getD entropy.ephemeralPriv) = .ok serverPub →
      x25519Agree C priv serverPub = .ok shared

/-- The server reads what the initiator wrote, and when the initiator completes on the answer
of the server, both hold the same keys. -/
structure Agrees (C : Crypto) (rt : Runtime) (i : Initiator) (config : ResumeServerConfig)
    (entropy : ResumeEntropy) (req nonce : Bytes) : Prop where
  wire : ∃ ms pub, parseJson (Utf8.textDecode req) = .ok (.obj ms) ∧
    lookup ms (js "resumption_ticket") = some (.str i.ticket) ∧
    clientEphemeralKey rt (.obj ms) = .ok pub ∧
    base64Decode rt (lookup ms (js "nonce")) = .ok nonce
  taken : ∀ reply s, Served.By C rt config.serverDomainSigningSeed
      ⟨config,entropy,req,reply,s⟩ → ∃ own, i.Completes C rt reply own
  keys : ∀ reply s, Served.By C rt config.serverDomainSigningSeed
      ⟨config,entropy,req,reply,s⟩ → ∀ own, i.Completes C rt reply own →
    ∃ keys, s.keys = some keys ∧ own.shared = keys.shared

section Server
variable {config : ResumeServerConfig} {entropy : ResumeEntropy}
  {req reply k pub nonce serverPub shared : Bytes} {ms : Members} {s : Session}
  {permissions : List JsString}

/-- The keys of the server, from what it reads of the request. -/
theorem keys_of_read
    (h : Served.By C rt config.serverDomainSigningSeed ⟨config,entropy,req,reply,s⟩)
    (hparse : parseJson (Utf8.textDecode req) = .ok (.obj ms))
    (hlookup : config.lookupTicket (lookup ms (js "resumption_ticket")) =
      .ok (.found k permissions))
    (hpub : clientEphemeralKey rt (.obj ms) = .ok pub)
    (hnonce : base64Decode rt (lookup ms (js "nonce")) = .ok nonce)
    (hshared : x25519Agree C (config.serverEphemeralPriv.getD entropy.ephemeralPriv) pub =
      .ok shared) :
    s.keys = some (deriveResumedSessionKeys C shared k nonce
      (config.serverNonce.getD entropy.nonce)) := by
  obtain ⟨ms',k',a,ha⟩ := h.answer
  obtain rfl : ms = ms' := Json.obj.inj (Except.ok.inj (hparse.symm.trans ha.parsed))
  obtain ⟨_,hfound⟩ := ha.ticket
  obtain ⟨rfl,-⟩ := TicketLookupResult.found.inj (Except.ok.inj (hlookup.symm.trans hfound))
  obtain ⟨_,pub',nonce',shared',keyId,-,hpub',hnonce',hshared',-,hkeys⟩ :=
    acceptRequest_eq_ok.mp ha.accepted
  obtain rfl := Except.ok.inj (hpub.symm.trans hpub')
  obtain rfl := Except.ok.inj (hnonce.symm.trans hnonce')
  obtain rfl := Except.ok.inj (hshared.symm.trans hshared')
  rw [ha.keys,hkeys]

end Server

section Requests
variable {req : Bytes} {ms : Members}

/-- The server finds no ephemeral key in the request of a message-driven client. -/
theorem handshakeClient_unread {entropy : Bytes} {ticket : JsString} {before c : ResumingClient}
    (h : (ResumingClient.resume entropy ticket).call before = (.ok req,c))
    (hparse : parseJson (Utf8.textDecode req) = .ok (.obj ms)) (rt : Runtime) (pub : Bytes) :
    clientEphemeralKey rt (.obj ms) ≠ .ok pub := by
  obtain ⟨-,-,-,rfl⟩ := ResumingClient.resume_eq_ok.mp h
  have hwf := ResumingClient.ClientResume.wf
    ⟨ticket,Base64.encode (before.resumeNonce.getD entropy),before.capabilities⟩
  obtain ⟨ms',hparse',hr⟩ := received hwf
  obtain rfl : ms = ms' := Json.obj.inj (Except.ok.inj (hparse.symm.trans hparse'))
  have hnone := hr.none hwf (ResumingClient.no_ephemeral_key _)
  rw [clientEphemeralKey,getProp_obj,hnone,ok_bind]
  intro h
  cases h

/-- So it never answers one. -/
theorem handshakeClient_unanswered {entropy : Bytes} {ticket : JsString}
    {before c : ResumingClient}
    (h : (ResumingClient.resume entropy ticket).call before = (.ok req,c))
    (config : ResumeServerConfig) (serverEntropy : ResumeEntropy) (t t' : Transport)
    (s : Session) :
    (answerResume C rt config serverEntropy (some req)).call t ≠ (.ok s,t') := by
  intro hanswer
  obtain ⟨ms,k,a,reply,ha,-⟩ := answered_of_answer hanswer
  obtain ⟨_,pub,_,_,_,-,hpub,-⟩ := acceptRequest_eq_ok.mp ha.accepted
  exact handshakeClient_unread h ha.parsed rt pub hpub

/-- The server reads from the request of another server what that server meant. -/
theorem federationInitiator_read (c : FederationInitiator) (ticket : Bytes) (revision : Number)
    (nonce pub : Bytes) (keyId : JsString) (rt : Runtime) :
    ∃ ms, parseJson (Utf8.textDecode (Canonical.canonicalBytes (.obj (c.resumeMessage ticket
        revision nonce pub keyId).members))) = .ok (.obj ms) ∧
      lookup ms (js "type") = some (.str messageType) ∧
      lookup ms (js "step") = some (.str (js "resume")) ∧
      lookup ms (js "resumption_ticket") = some (.str (Base64.encode ticket)) ∧
      clientEphemeralKey rt (.obj ms) = .ok pub ∧
      base64Decode rt (lookup ms (js "nonce")) = .ok nonce := by
  have hwf := FederationResume.wf (c.resumeMessage ticket revision nonce pub keyId)
  obtain ⟨ms,hparse,hr⟩ := received hwf
  have str {k s : JsString} := hr.str hwf (k := k) (s := s)
  obtain ⟨key,hkey,hr'⟩ := hr.obj hwf (k := js "client_ephemeral_key")
    (by rw [FederationResume.lookup_members]; rfl)
  have hpub := hr'.str (KeyRef.wf _) (k := js "key") (s := Base64.encode pub) rfl
  refine ⟨ms,hparse,str (by rw [FederationResume.lookup_members]; rfl),
    str (by rw [FederationResume.lookup_members]; rfl),
    str (by rw [FederationResume.lookup_members]; rfl),?_,?_⟩
  · rw [clientEphemeralKey,getProp_obj,hkey,ok_bind,getProp_obj,hpub,ok_bind,base64Decode_str,
      Base64.decode_encode]
  · rw [str (s := Base64.encode nonce) (by rw [FederationResume.lookup_members]; rfl),
      base64Decode_str,Base64.decode_encode]

end Requests

section Answers
variable {config : ResumeServerConfig} {entropy : ResumeEntropy} {reply shared : Bytes}
  {s : Session}

/-- An initiator of another server takes every answer that the server signed, with the retained
secret in front of the ephemeral one. -/
theorem federationInitiator_takes (laws : Laws C) {req : Bytes}
    (h : Served.By C rt config.serverDomainSigningSeed ⟨config,entropy,req,reply,s⟩)
    {c : FederationInitiator} {pk k nonce priv : Bytes}
    (hpk : publicKeyFromSeed C config.serverDomainSigningSeed = .ok pk)
    (htrust : c.cfg.peerDomainPubLookup c.cfg.peerDomain = .ok pk)
    (hk : c.resumptionSecret = some k) (hn : c.resumeNonce = some nonce)
    (hpriv : c.ephPriv = some priv)
    (hshared : ∀ serverPub,
      x25519PublicKey C (config.serverEphemeralPriv.getD entropy.ephemeralPriv) = .ok serverPub →
        x25519Agree C priv serverPub = .ok shared) :
    ∃ r c', (FederationInitiator.onResumeAccepted C rt reply).call c = (.ok r,c') ∧
      r.1.keys = deriveSessionKeysWithResumption C (k++shared) nonce
        (config.serverNonce.getD entropy.nonce) := by
  obtain ⟨ms,k',a,ha⟩ := h.answer
  obtain ⟨serverPub,ms',hserver,hparse,hread,hverify,heph,hnonce⟩ := ha.read laws hpk
  obtain ⟨_,_,_,_,keyId,-,-,-,-,-,hmessage⟩ := acceptRequest_eq_ok.mp ha.accepted
  have hwf := ResumeAccepted.wf a.message
  have hlookup (k : JsString) := ResumeAccepted.lookup_members a.message k
  have hstep : IsStep a.message.members "accepted" :=
    ⟨(hlookup _).trans rfl,(hlookup _).trans rfl,(hlookup _).trans rfl⟩
  obtain ⟨ticket,hticket,hr⟩ := hread.obj hwf (k := js "resumption_ticket") (by decide)
    ((hlookup _).trans rfl)
  have hvalue := hr.str (ResumptionTicket.wf _) (k := js "value")
    (s := a.message.resumptionTicket.value) rfl
  obtain ⟨key,hkey,-⟩ := hread.obj hwf (k := js "server_ephemeral_key") (by decide)
    ((hlookup _).trans rfl)
  obtain ⟨positive,hpositive⟩ := hread.comparable hwf (k := js "session_ttl") (by decide)
    ((hlookup _).trans rfl)
  have hok : FederationInitiator.ResumeAcceptedOk C rt c ms' pk priv serverPub
      ⟨k,nonce,.obj ms',config.serverNonce.getD entropy.nonce,shared⟩ := {
    secret := hk
    nonce := hn
    priv := hpriv
    message := rfl
    step := (hread.isStep hwf).mpr hstep
    ephemeralKey := by rw [hkey]; rfl
    nonceThere := by rw [hnonce]; rfl
    ticket := by rw [hticket]; rfl
    resolved := htrust
    signed := signedBy_of_verify hread.wf hverify
    serverNonce := by rw [hnonce,base64Decode_str,Base64.decode_encode]
    ephemeral := heph
    shared := hshared serverPub hserver }
  have htake := FederationInitiator.takeResumeAccepted_eq_ok.mpr
    ⟨ms',pk,priv,serverPub,hparse,hok⟩
  exact ⟨_,_,FederationInitiator.onResumeAccepted_ok htake rfl hpositive hticket hvalue,rfl⟩

end Answers

section Agreement
variable {i : Initiator} {config : ResumeServerConfig} {entropy : ResumeEntropy}
  {req k nonce shared : Bytes}

/-- The server agrees on the same ephemeral secret. -/
theorem Exchange.agreed (laws : Laws C) (h : Exchange C i config entropy req k nonce shared)
    {priv pub : Bytes} (hpriv : i.ephPriv = some priv) (hpub : x25519PublicKey C priv = .ok pub) :
    x25519Agree C (config.serverEphemeralPriv.getD entropy.ephemeralPriv) pub = .ok shared := by
  obtain ⟨serverPub,hserver⟩ := laws.dh.publicKey_ok _ h.serverPriv
  obtain ⟨s,hs,hs'⟩ := laws.dh.agree_comm _ _ _ _ hserver hpub
  obtain rfl := Except.ok.inj ((h.shared priv hpriv serverPub hserver).symm.trans hs')
  exact hs

theorem resumeClient_agrees (laws : Laws C) {client : ResumeClientConfig} {p : PendingResume}
    (h : Exchange C (.resumeClient client p) config entropy req k nonce shared) :
    Agrees C rt (.resumeClient client p) config entropy req nonce := by
  obtain ⟨_,t,hsent⟩ := h.sent
  obtain ⟨-,-,pub,keyId,hpub,-,ht⟩ := startResume_eq_ok.mp hsent
  have hreq : t.sent++[req] = t.sent++[_] := congrArg Transport.sent ht
  rw [List.append_right_inj,List.singleton_inj] at hreq
  obtain rfl : client.kResumption = k := Option.some.inj h.secret
  obtain rfl : p.clientNonce = nonce := Option.some.inj h.nonce
  obtain ⟨pk,hpk,rfl⟩ := h.trusts
  obtain ⟨permissions,hknown⟩ := h.known
  have hstart : Started C client p pub req := ⟨hpub,keyId,hreq⟩
  obtain ⟨ms,hparse,-⟩ := received (ResumeRequest.wf ⟨Base64.encode p.clientNonce,
    client.resumptionTicket,keyRef pub keyId,client.transport,client.extensions⟩)
  rw [← hreq] at hparse
  obtain ⟨hticket,heph,hnonce⟩ := hstart.read rt hparse
  have hagreed := h.agreed laws rfl hpub
  have htaken {reply : Bytes} {s : Session}
      (hs : Served.By C rt config.serverDomainSigningSeed ⟨config,entropy,req,reply,s⟩) :
      ∃ session, takeAccepted C rt client p (some reply) = .ok session ∧
        s.keys = some session.keys := by
    obtain ⟨_,_,_,ha⟩ := hs.answer
    obtain ⟨serverPub,shared',session,hserver,hshared',htake,hkeys,-⟩ := ha.taken laws hpk hpub
    obtain rfl := Except.ok.inj ((h.shared _ rfl serverPub hserver).symm.trans hshared')
    exact ⟨session,htake,by
      rw [keys_of_read hs hparse (by rw [hticket]; exact hknown) heph hnonce hagreed,hkeys]⟩
  refine ⟨⟨ms,pub,hparse,hticket,heph,hnonce⟩,fun reply s hs => ?_,fun reply s hs own hown => ?_⟩
  · obtain ⟨session,htake,-⟩ := htaken hs
    exact ⟨_,session,htake,rfl⟩
  · obtain ⟨session,htake,hkeys⟩ := htaken hs
    obtain ⟨session',htake',rfl⟩ := hown
    obtain rfl := Except.ok.inj (htake.symm.trans htake')
    exact ⟨_,hkeys,rfl⟩

theorem not_handshakeClient_agrees {c : ResumingClient} {ticket : JsString}
    (h : Exchange C (.handshakeClient c ticket) config entropy req k nonce shared) :
    ¬ Agrees C rt (.handshakeClient c ticket) config entropy req nonce := by
  rintro ⟨⟨ms,pub,hparse,-,heph,-⟩,-,-⟩
  obtain ⟨_,_,hsent⟩ := h.sent
  exact handshakeClient_unread hsent hparse rt pub heph

theorem federationInitiator_agrees_iff (laws : Laws C) {c : FederationInitiator} {ticket : Bytes}
    (h : Exchange C (.federationInitiator c ticket) config entropy req k nonce shared)
    (hapart : Apart C (nonce++config.serverNonce.getD entropy.nonce) (k++shared) (shared++k)) :
    Agrees C rt (.federationInitiator c ticket) config entropy req nonce ↔
      k++shared = shared++k := by
  obtain ⟨_,revision,before,hsent⟩ := h.sent
  obtain ⟨-,-,pub,keyId,hpub,-,hreq,rfl⟩ := FederationInitiator.resume_eq_ok.mp hsent
  obtain ⟨pk,hpk,htrust⟩ := h.trusts
  obtain ⟨permissions,hknown⟩ := h.known
  obtain ⟨ms,hparse,htype,hstep,hticket,heph,hnonce⟩ :=
    federationInitiator_read before ticket revision _ pub keyId rt
  rw [← hreq] at hparse
  have hagreed := h.agreed laws rfl hpub
  obtain rfl := Option.some.inj h.nonce
  have hserver {reply : Bytes} {s : Session} (hs : Served.By C rt config.serverDomainSigningSeed
      ⟨config,entropy,req,reply,s⟩) :=
    keys_of_read hs hparse (by rw [hticket]; exact hknown) heph hnonce hagreed
  have htaken {reply : Bytes} {s : Session} (hs : Served.By C rt config.serverDomainSigningSeed
      ⟨config,entropy,req,reply,s⟩) :=
    federationInitiator_takes laws hs hpk htrust h.secret h.nonce rfl (h.shared _ rfl)
  constructor
  · intro hagrees
    obtain ⟨hseed,-⟩ := publicKeyFromSeed_eq_ok.mp hpk
    obtain ⟨reply,s,hs⟩ := served_of_read laws config entropy hparse htype hstep
      (by rw [hticket]; exact hknown) heph hnonce hpub hseed h.serverPriv
    obtain ⟨r,c',hcall,hkeys⟩ := htaken hs
    obtain ⟨keys,hs',hsame⟩ := hagrees.keys reply s hs _ ⟨r,c',hcall,rfl⟩
    rw [hserver hs,Option.some.injEq] at hs'
    rw [hkeys,← hs',shared_deriveWithResumption,shared_deriveResumed] at hsame
    exact hapart hsame
  · intro horder
    refine ⟨⟨ms,pub,hparse,hticket,heph,hnonce⟩,fun reply s hs => ?_,
      fun reply s hs own hown => ?_⟩
    · obtain ⟨r,c',hcall,-⟩ := htaken hs
      exact ⟨_,r,c',hcall,rfl⟩
    · obtain ⟨r,c',hcall,hkeys⟩ := htaken hs
      obtain ⟨r',c'',hcall',rfl⟩ := hown
      obtain rfl := Except.ok.inj (Prod.mk.inj (hcall.symm.trans hcall')).1
      exact ⟨_,hserver hs,by
        rw [hkeys,shared_deriveWithResumption,shared_deriveResumed,horder]⟩

/-- The initiator and the server agree exactly when the initiator feeds what the server feeds. -/
theorem resumption_agrees_iff (laws : Laws C)
    (h : Exchange C i config entropy req k nonce shared)
    (hapart : Apart C (nonce++config.serverNonce.getD entropy.nonce) (k++shared) (shared++k)) :
    Agrees C rt i config entropy req nonce ↔ i.Alike shared k := by
  cases i with
  | resumeClient client p => exact iff_of_true (resumeClient_agrees laws h) trivial
  | handshakeClient c ticket => exact iff_of_false (not_handshakeClient_agrees h) id
  | federationInitiator c ticket => exact federationInitiator_agrees_iff laws h hapart

end Agreement

/-! A server that resumes a federation session with another one. -/
def sampleFederation : FederationInitiatorConfig where
  suite := Suite.x25519.name
  capabilities := ⟨[],[]⟩
  localDomain := js "a"
  localServerID := js "a"
  localDomainSeed := sampleSeed
  peerDomainPubLookup := fun _ => .ok sampleSeed
  peerDomain := js "b"
  domainProof := ⟨.testTrust,[]⟩
  policyAcceptor := none
  initiatorEphemeralPriv := none
  initiatorNonce := none

/-- The initiator as it is made of that configuration, once it was given the secret. -/
def sampleInitiator : FederationInitiator where
  cfg := sampleFederation
  suite := .x25519
  localDomainKeyId := hex (Sample.crypto.sha256 sampleSeed).val
  nonce := none
  ephPriv := none
  ephPub := none
  initCanonical := none
  respCanonical := none
  sessionId := some (.str [])
  sessionKeys := none
  finalSession := none
  resumptionSecret := some (List.replicate 32 3)
  resumeNonce := none

def sampleDrawn : InitiatorEntropy := ⟨List.replicate 32 4,[],List.replicate 32 1⟩

def sampleResponder : ResumeServerConfig :=
  {sampleServer with lookupTicket := fun _ => .ok (.found (List.replicate 32 3) [])}

theorem sampleExchange : ∃ c req, Exchange Sample.crypto (.federationInitiator c [1])
    sampleResponder sampleEntropy req (List.replicate 32 3) (List.replicate 32 1)
    (List.replicate 32 2) := by
  refine ⟨_,_,⟨sampleDrawn,.zero false,sampleInitiator,FederationInitiator.resume_eq_ok.mpr
    ⟨nofun,by decide,List.replicate 32 4,_,rfl,rfl,rfl,rfl⟩⟩,rfl,rfl,⟨[],rfl⟩,
    ⟨sampleSeed,rfl,rfl⟩,rfl,?_⟩
  rintro _ ⟨rfl⟩ serverPub hserver
  obtain rfl : List.replicate 32 6 = serverPub := Except.ok.inj hserver
  rfl

theorem sample_apart : Apart Sample.crypto
    (List.replicate 32 1++sampleResponder.serverNonce.getD sampleEntropy.nonce)
    (List.replicate 32 3++List.replicate 32 2) (List.replicate 32 2++List.replicate 32 3) :=
  fun h => absurd h (by decide +kernel)

theorem resumption_agrees_sample : ∃ c req,
    Exchange Sample.crypto (.federationInitiator c [1]) sampleResponder sampleEntropy req
      (List.replicate 32 3) (List.replicate 32 1) (List.replicate 32 2) ∧
    (Agrees Sample.crypto Sample.runtime (.federationInitiator c [1]) sampleResponder
        sampleEntropy req (List.replicate 32 1) ↔
      (Initiator.federationInitiator c [1]).Alike (List.replicate 32 2)
        (List.replicate 32 3)) := by
  obtain ⟨c,req,h⟩ := sampleExchange
  exact ⟨c,req,h,resumption_agrees_iff Sample.laws h sample_apart⟩

/-- That server and its peer resume to different keys. -/
theorem not_resumption_agrees : ¬ ∀ (C : Crypto) (rt : Runtime) (i : Initiator)
    (config : ResumeServerConfig) (entropy : ResumeEntropy) (req k nonce shared : Bytes),
      Laws C → Exchange C i config entropy req k nonce shared →
        Agrees C rt i config entropy req nonce := by
  intro hall
  obtain ⟨c,req,h⟩ := sampleExchange
  have hagrees := hall _ Sample.runtime _ _ _ _ _ _ _ Sample.laws h
  have horder := (federationInitiator_agrees_iff Sample.laws h sample_apart).mp hagrees
  exact absurd horder (by decide)

end Resume
end Semp
