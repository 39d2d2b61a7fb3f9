import Semp.Resume

/-! What the calls of a resumption do, and which answers a resuming client takes: those the
server signed, in whichever run it signed them. -/
namespace Semp
namespace Resume
open Handshake Method Federation
variable {C : Crypto} {rt : Runtime}

section Wire

def ResumeRequest.names : List JsString :=
  [js "type",js "step",js "party",js "version",js "nonce",js "resumption_ticket",
    js "client_ephemeral_key",js "transport",js "extensions"]

def ResumeAccepted.names : List JsString :=
  [js "type",js "step",js "party",js "version",js "session_id",js "session_ttl",js "server_nonce",
    js "server_ephemeral_key",js "resumption_ticket",js "server_signature",js "extensions"]

theorem ResumeRequest.lookup_members (r : ResumeRequest) (k : JsString) :
    lookup r.members k = (lookup r.fields k).join := lookup_literal names rfl (by decide) k

theorem ResumeAccepted.lookup_members (a : ResumeAccepted) (k : JsString) :
    lookup a.members k = (lookup a.fields k).join := lookup_literal names rfl (by decide) k

theorem ResumeRequest.wf (r : ResumeRequest) : (Json.obj r.members).WF :=
  wf_literal names rfl (by decide) (by
    simp [fields,header,KeyRef.wf,extensionsMember,wf_extensions])

theorem ResumeAccepted.wf (a : ResumeAccepted) : (Json.obj a.members).WF :=
  wf_literal names rfl (by decide) (by
    simp [fields,header,KeyRef.wf,ResumptionTicket.wf,extensionsMember,wf_extensions])

end Wire

/-- The fields of a new session that come from its configuration. -/
theorem new_session {config : SessionConfig} {s : Session} (h : Session.new config = .ok s) :
    s.keys = some config.keys ∧ s.sessionId = config.sessionId ∧
      s.resumptionTicket = config.resumptionTicket := by
  obtain ⟨_,-,h⟩ := Semp.bind_eq_ok.mp h
  obtain rfl := Except.ok.inj h
  exact ⟨rfl,rfl,rfl⟩

section Client
variable {config : ResumeClientConfig} {entropy : ResumeEntropy} {p : PendingResume}
  {t t' : Transport} {f : Bytes} {ms : Members}

/-- A waiting call, and the frame of its request. -/
structure Started (C : Crypto) (config : ResumeClientConfig) (p : PendingResume)
    (pub f : Bytes) : Prop where
  ephemeral : x25519PublicKey C p.ephPriv = .ok pub
  request : ∃ keyId, f = Canonical.canonicalBytes (.obj (ResumeRequest.mk
    (Base64.encode p.clientNonce) config.resumptionTicket (keyRef pub keyId) config.transport
    config.extensions).members)

theorem startResume_eq_ok : (startResume C config entropy).call t = (.ok p,t') ↔
    t.closed = false ∧ p = ⟨config.clientEphemeralPriv.getD entropy.ephemeralPriv,
      config.clientNonce.getD entropy.nonce⟩ ∧
    ∃ pub keyId, x25519PublicKey C p.ephPriv = .ok pub ∧ fingerprint C pub = .ok keyId ∧
      t' = {t with sent := t.sent++[Canonical.canonicalBytes (.obj (ResumeRequest.mk
        (Base64.encode p.clientNonce) config.resumptionTicket (keyRef pub keyId) config.transport
        config.extensions).members)]} := by
  rw [startResume]
  simp only [lift_bind_eq_ok,Canonical.marshal_eq (ResumeRequest.wf _),Except.ok.injEq,
    exists_eq_left']
  simp only [Method.bind_eq_ok,Transport.send_eq_ok,call_pure,Prod.mk.injEq,Except.ok.injEq]
  constructor
  · rintro ⟨pub,hpub,keyId,hkeyId,_,_,⟨hopen,rfl⟩,rfl,rfl⟩
    exact ⟨hopen,rfl,pub,keyId,hpub,hkeyId,rfl⟩
  · rintro ⟨hopen,rfl,pub,keyId,hpub,hkeyId,rfl⟩
    exact ⟨pub,hpub,keyId,hkeyId,(),_,⟨hopen,rfl⟩,rfl,rfl⟩

theorem expectAccepted_eq_ok {m : Json} {u : Unit} : expectAccepted m = .ok u ↔
    ∃ ms, m = .obj ms ∧ lookup ms (js "step") = some (.str (js "accepted")) := by
  rw [expectAccepted]
  constructor
  · intro h
    obtain ⟨step,hstep,h⟩ := Semp.bind_eq_ok.mp h
    split_ifs at h with hr ha
    · simp [throwRefused,Semp.bind_eq_ok] at h
    · rw [isStr_iff] at ha
      subst ha
      exact getProp_eq_str.mp hstep
    · obtain ⟨_,-,h⟩ := Semp.bind_eq_ok.mp h
      exact absurd h (raise_ne_ok _ _)
  · rintro ⟨ms,rfl,hstep⟩
    rw [getProp_obj,hstep,ok_bind,if_neg (by decide),if_pos (isStr_iff.mpr rfl)]

/-- The ACCEPTED passes the checks of `resumeClient`, and what is decoded of it. -/
structure AcceptedOk (C : Crypto) (rt : Runtime) (serverDomainPub : Bytes) (p : PendingResume)
    (ms : Members) (serverEphPub serverNonce shared : Bytes) : Prop where
  step : lookup ms (js "step") = some (.str (js "accepted"))
  signed : ∃ sig, base64Decode rt (lookup ms (js "server_signature")) = .ok sig ∧
    verify C serverDomainPub sig (utf8 handshakePrefix++signedPart ms) = true
  ephemeral : serverEphemeralKey rt (.obj ms) = .ok serverEphPub
  nonce : base64Decode rt (lookup ms (js "server_nonce")) = .ok serverNonce
  shared : x25519Agree C p.ephPriv serverEphPub = .ok shared

theorem verifyAcceptedSignature_eq_ok (hwf : (Json.obj ms).WF) {pub : Bytes} {u : Unit} :
    verifyAcceptedSignature C rt (.obj ms) pub = .ok u ↔
      ∃ sig, base64Decode rt (lookup ms (js "server_signature")) = .ok sig ∧
        verify C pub sig (utf8 handshakePrefix++signedPart ms) = true := by
  rw [verifyAcceptedSignature,getProp_obj,ok_bind,Semp.bind_eq_ok]
  refine exists_congr fun sig => and_congr_right fun _ => ?_
  rw [show spread (some (.obj ms)) = ms from rfl,Canonical.marshal_eq (blanked_wf hwf),ok_bind,
    require_eq_ok]
  rfl

theorem takeAccepted_eq_ok {session : SessionConfig} :
    takeAccepted C rt config p (some f) = .ok session ↔
      ∃ ms serverEphPub serverNonce shared, parseJson (Utf8.textDecode f) = .ok (.obj ms) ∧
        AcceptedOk C rt config.serverDomainPub p ms serverEphPub serverNonce shared ∧
        session = resumedConfig
          (deriveResumedSessionKeys C shared config.kResumption p.clientNonce serverNonce)
          (lookup ms (js "session_id")) (lookup ms (js "session_ttl"))
          (lookup ms (js "resumption_ticket")) (lookup ms (js "extensions")) := by
  rw [takeAccepted]
  simp only [Semp.bind_eq_ok,need_eq_ok,Option.some.injEq,exists_eq_left',expectAccepted_eq_ok]
  constructor
  · rintro ⟨m,hparse,_,⟨ms,rfl,hstep⟩,_,hsigned,serverEphPub,heph,_,hn,serverNonce,hnonce,shared,
      hshared,_,hid,_,httl,_,hticket,_,hext,h⟩
    rw [getProp_obj,Except.ok.injEq] at hn hid httl hticket hext
    subst hn hid httl hticket hext
    have hwf : (Json.obj ms).WF := JsonText.parse_wf (parseJson_eq_ok.mp hparse)
    exact ⟨ms,serverEphPub,serverNonce,shared,hparse,
      ⟨hstep,(verifyAcceptedSignature_eq_ok hwf).mp hsigned,heph,hnonce,hshared⟩,
      (Except.ok.inj h).symm⟩
  · rintro ⟨ms,serverEphPub,serverNonce,shared,hparse,h,rfl⟩
    have hwf : (Json.obj ms).WF := JsonText.parse_wf (parseJson_eq_ok.mp hparse)
    exact ⟨_,hparse,(),⟨ms,rfl,h.step⟩,(),(verifyAcceptedSignature_eq_ok hwf).mpr h.signed,
      serverEphPub,h.ephemeral,_,rfl,serverNonce,h.nonce,shared,h.shared,_,rfl,_,rfl,_,rfl,_,rfl,
      rfl⟩

end Client

section Server
variable {config : ResumeServerConfig} {entropy : ResumeEntropy} {t t' : Transport} {f : Bytes}
  {ms : Members} {k : Bytes} {s : Session}

theorem acceptRequest_eq_ok {a : Accepted} :
    acceptRequest C rt config entropy k (.obj ms) = .ok a ↔
      ∃ ephPub clientEphPub clientNonce shared keyId,
        x25519PublicKey C (config.serverEphemeralPriv.getD entropy.ephemeralPriv) = .ok ephPub ∧
        clientEphemeralKey rt (.obj ms) = .ok clientEphPub ∧
        base64Decode rt (lookup ms (js "nonce")) = .ok clientNonce ∧
        x25519Agree C (config.serverEphemeralPriv.getD entropy.ephemeralPriv) clientEphPub =
          .ok shared ∧
        fingerprint C ephPub = .ok keyId ∧
        a = ⟨⟨config.newSessionId,config.sessionTTL,
            Base64.encode (config.serverNonce.getD entropy.nonce),keyRef ephPub keyId,
            config.newTicket,config.acceptedExtensions⟩,
          deriveResumedSessionKeys C shared k clientNonce
            (config.serverNonce.getD entropy.nonce)⟩ := by
  rw [acceptRequest]
  simp only [Semp.bind_eq_ok,getProp_obj,ok_bind,Except.ok.injEq,exists_and_left,
    eq_comm (b := a)]

theorem expectRequest_eq_ok {m : Json} {u : Unit} : expectRequest m = .ok u ↔ ∃ ms, m = .obj ms ∧
    lookup ms (js "type") = some (.str messageType) ∧
    lookup ms (js "step") = some (.str (js "resume")) := by
  rw [expectRequest]
  constructor
  · intro h
    obtain ⟨type,htype,h⟩ := Semp.bind_eq_ok.mp h
    obtain ⟨step,hstep,h⟩ := Semp.bind_eq_ok.mp h
    split_ifs at h with hs
    · rw [Bool.and_eq_true,isStr_iff,isStr_iff] at hs
      obtain ⟨rfl,rfl⟩ := hs
      obtain ⟨ms,rfl,ht⟩ := getProp_eq_str.mp htype
      exact ⟨ms,rfl,ht,Except.ok.inj hstep⟩
    · obtain ⟨_,-,h⟩ := Semp.bind_eq_ok.mp h
      exact absurd h (raise_ne_ok _ _)
  · rintro ⟨ms,rfl,ht,hs⟩
    rw [getProp_obj,getProp_obj,ht,hs,ok_bind,ok_bind,if_pos (by simp)]

/-- What the server read of a request, what it answered, and the session it has of it. -/
structure Answered (C : Crypto) (rt : Runtime) (config : ResumeServerConfig)
    (entropy : ResumeEntropy) (req : Bytes) (ms : Members) (k : Bytes) (a : Accepted)
    (reply : Bytes) (s : Session) : Prop where
  parsed : parseJson (Utf8.textDecode req) = .ok (.obj ms)
  type : lookup ms (js "type") = some (.str messageType)
  step : lookup ms (js "step") = some (.str (js "resume"))
  ticket : ∃ permissions,
    config.lookupTicket (lookup ms (js "resumption_ticket")) = .ok (.found k permissions)
  accepted : acceptRequest C rt config entropy k (.obj ms) = .ok a
  reply : ∃ signed, signMessage C a.message.members config.serverDomainSigningSeed = .ok signed ∧
    reply = Canonical.canonicalBytes (.obj signed)
  keys : s.keys = some a.keys
  issued : s.resumptionTicket = some (.obj config.newTicket.members)

/-- A call that returns answered its request. -/
theorem answered_of_answer (h : (answerResume C rt config entropy (some f)).call t = (.ok s,t')) :
    ∃ ms k a reply, Answered C rt config entropy f ms k a reply s ∧
      t' = {t with sent := t.sent++[reply]} := by
  rw [answerResume] at h
  simp only [lift_bind_eq_ok,need_eq_ok,Option.some.injEq,exists_eq_left',
    expectRequest_eq_ok] at h
  obtain ⟨_,hparse,_,⟨ms,rfl,htype,hstep⟩,ticket,hticket,result,hlookup,h⟩ := h
  rw [getProp_obj,Except.ok.injEq] at hticket
  subst hticket
  cases result with
  | refused reasonCode reason =>
    obtain ⟨_,_,-,h⟩ := Method.bind_eq_ok.mp h
    exact absurd (lift_eq_ok.mp h).1 (raise_ne_ok _ _)
  | found k permissions =>
    simp only [lift_bind_eq_ok] at h
    obtain ⟨a,ha,signed,hsigned,reply,hreply,h⟩ := h
    obtain ⟨_,_,hsend,h⟩ := Method.bind_eq_ok.mp h
    simp only [lift_bind_eq_ok,lift_eq_ok] at h
    obtain ⟨pub,-,keyId,-,hsession,rfl⟩ := h
    obtain ⟨-,rfl⟩ := Transport.send_eq_ok.mp hsend
    rw [Canonical.marshal_eq (signMessage_wf (ResumeAccepted.wf _) hsigned)] at hreply
    exact ⟨ms,k,a,reply,⟨hparse,htype,hstep,⟨permissions,callback_run_eq_ok.mp hlookup⟩,ha,
      ⟨signed,hsigned,(Except.ok.inj hreply).symm⟩,(new_session hsession).1,
      (new_session hsession).2.2⟩,rfl⟩

end Server

/-! The two sides of one resumption. -/

/-- What a server signed says what it composed, and verifies under the key of the server. -/
theorem says_signed (laws : SignLaws C) (rt : Runtime) {pre signed ms : Members} {seed pk : Bytes}
    (hwf : (Json.obj pre).WF) (hpk : publicKeyFromSeed C seed = .ok pk)
    (h : signMessage C pre seed = .ok signed) (hr : Received signed ms) :
    Says pre ms ∧ ∃ sig, base64Decode rt (lookup ms (js "server_signature")) = .ok sig ∧
      verify C pk sig (utf8 handshakePrefix++signedPart ms) = true := by
  have hswf := signMessage_wf hwf h
  obtain ⟨sig,hsig,rfl⟩ := signMessage_eq_ok hwf h
  have hsame : signedPart ms = signedPart pre := by
    rw [signedPart_congr hr.wf hswf hr.norm]
    exact (signedPart_signedWith (reparsed pre) sig).trans (signedPart_reparsed hwf)
  have hlookup : lookup ms (js "server_signature") = some (.str (Base64.encode sig)) :=
    hr.str hswf (lookup_assign_self ..)
  refine ⟨⟨hr.wf,hsame⟩,sig,by rw [hlookup,base64Decode_str,Base64.decode_encode],?_⟩
  rw [hsame,← signedPart_reparsed hwf]
  exact verify_sign laws hpk hsig

section Exchange
variable {client : ResumeClientConfig} {config : ResumeServerConfig} {entropy : ResumeEntropy}
  {p : PendingResume} {pub req reply k : Bytes} {ms : Members} {a : Accepted} {s : Session}

/-- The server reads from a request what the client meant. -/
theorem Started.read (h : Started C client p pub req) (rt : Runtime)
    (hparse : parseJson (Utf8.textDecode req) = .ok (.obj ms)) :
    lookup ms (js "resumption_ticket") = some (.str client.resumptionTicket) ∧
      clientEphemeralKey rt (.obj ms) = .ok pub ∧
      base64Decode rt (lookup ms (js "nonce")) = .ok p.clientNonce := by
  obtain ⟨keyId,hreq⟩ := h.request
  obtain rfl := hreq.symm
  obtain ⟨ms',hparse',hr⟩ := received (ResumeRequest.wf ⟨Base64.encode p.clientNonce,
    client.resumptionTicket,keyRef pub keyId,client.transport,client.extensions⟩)
  obtain rfl : ms = ms' := Json.obj.inj (Except.ok.inj (hparse.symm.trans hparse'))
  have str {l s : JsString} := hr.str (ResumeRequest.wf _) (k := l) (s := s)
  obtain ⟨key,hkey,hr'⟩ := hr.obj (ResumeRequest.wf _) (k := js "client_ephemeral_key")
    (by rw [ResumeRequest.lookup_members]; rfl)
  have hpub := hr'.str (KeyRef.wf _) (k := js "key") (s := Base64.encode pub) rfl
  refine ⟨str (by rw [ResumeRequest.lookup_members]; rfl),?_,?_⟩
  · rw [clientEphemeralKey,getProp_obj,hkey,ok_bind,getProp_obj,hpub,ok_bind,base64Decode_str,
      Base64.decode_encode]
  · rw [str (s := Base64.encode p.clientNonce) (by rw [ResumeRequest.lookup_members]; rfl),
      base64Decode_str,Base64.decode_encode]

/-- What arrives of an answer: the message that the server composed and signed, with its
ephemeral key and its nonce. -/
theorem Answered.read (laws : Laws C) (h : Answered C rt config entropy req ms k a reply s)
    {pk : Bytes} (hpk : publicKeyFromSeed C config.serverDomainSigningSeed = .ok pk) :
    ∃ serverPub ms',
      x25519PublicKey C (config.serverEphemeralPriv.getD entropy.ephemeralPriv) = .ok serverPub ∧
      parseJson (Utf8.textDecode reply) = .ok (.obj ms') ∧ Says a.message.members ms' ∧
      (∃ sig, base64Decode rt (lookup ms' (js "server_signature")) = .ok sig ∧
        verify C pk sig (utf8 handshakePrefix++signedPart ms') = true) ∧
      serverEphemeralKey rt (.obj ms') = .ok serverPub ∧
      lookup ms' (js "server_nonce") =
        some (.str (Base64.encode (config.serverNonce.getD entropy.nonce))) := by
  obtain ⟨signed,hsigned,rfl⟩ := h.reply
  obtain ⟨serverPub,_,_,_,keyId,hserver,-,-,-,-,rfl⟩ := acceptRequest_eq_ok.mp h.accepted
  have hwf := ResumeAccepted.wf ⟨config.newSessionId,config.sessionTTL,
    Base64.encode (config.serverNonce.getD entropy.nonce),keyRef serverPub keyId,config.newTicket,
    config.acceptedExtensions⟩
  obtain ⟨ms',hparse,hr⟩ := received (signMessage_wf hwf hsigned)
  obtain ⟨hstated,hverify⟩ := says_signed laws.sig rt hwf hpk hsigned hr
  have heph : serverEphemeralKey rt (.obj ms') = .ok (Base64.decode (keyRef serverPub keyId).key) :=
    hstated.ephemeralKey hwf (by rw [ResumeAccepted.lookup_members]; rfl)
  rw [show (keyRef serverPub keyId).key = Base64.encode serverPub from rfl,
    Base64.decode_encode] at heph
  exact ⟨serverPub,ms',hserver,hparse,hstated,hverify,heph,
    (hstated.str hwf (by decide)).mpr (by rw [ResumeAccepted.lookup_members]; rfl)⟩

/-- Every ACCEPTED that the server signed is taken, by whichever call waits; the keys are the
server's when it was composed for the request of that call. -/
theorem Answered.taken (laws : Laws C) (h : Answered C rt config entropy req ms k a reply s)
    (hpk : publicKeyFromSeed C config.serverDomainSigningSeed = .ok client.serverDomainPub)
    (hp : x25519PublicKey C p.ephPriv = .ok pub) :
    ∃ serverPub shared session,
      x25519PublicKey C (config.serverEphemeralPriv.getD entropy.ephemeralPriv) = .ok serverPub ∧
      x25519Agree C p.ephPriv serverPub = .ok shared ∧
      takeAccepted C rt client p (some reply) = .ok session ∧
      session.keys = deriveResumedSessionKeys C shared client.kResumption p.clientNonce
        (config.serverNonce.getD entropy.nonce) ∧
      (clientEphemeralKey rt (.obj ms) = .ok pub →
        base64Decode rt (lookup ms (js "nonce")) = .ok p.clientNonce → k = client.kResumption →
        session.keys = a.keys) := by
  obtain ⟨serverPub,ms',hserver,hparse,hstated,hverify,heph,hnonce'⟩ := h.read laws hpk
  obtain ⟨serverPub',clientPub,nonce,shared,keyId,hserver',hclient,hnonce,hshared,-,rfl⟩ :=
    acceptRequest_eq_ok.mp h.accepted
  obtain rfl := Except.ok.inj (hserver'.symm.trans hserver)
  obtain ⟨s₁,hs₁,hs₂⟩ := laws.dh.agree_comm _ _ _ _ hserver hp
  have hok : AcceptedOk C rt client.serverDomainPub p ms' serverPub'
      (config.serverNonce.getD entropy.nonce) s₁ := {
    step := (hstated.str (ResumeAccepted.wf _) (by decide)).mpr (by
      rw [ResumeAccepted.lookup_members]; rfl)
    signed := hverify
    ephemeral := heph
    nonce := by rw [hnonce',base64Decode_str,Base64.decode_encode]
    shared := hs₂ }
  refine ⟨serverPub',s₁,_,hserver,hs₂,
    takeAccepted_eq_ok.mpr ⟨ms',serverPub',_,s₁,hparse,hok,rfl⟩,rfl,?_⟩
  intro hown hn hk
  obtain rfl := Except.ok.inj (hclient.symm.trans hown)
  obtain rfl := Except.ok.inj (hnonce.symm.trans hn)
  obtain rfl := Except.ok.inj (hshared.symm.trans hs₁)
  rw [hk]
  rfl

end Exchange
end Resume
end Semp
