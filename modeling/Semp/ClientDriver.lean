import Semp.HandshakeClient
import Semp.Session

/-! The loop driver of the client, and how it compares with the message-driven client on
one RESPONSE and one ACCEPTED. -/
namespace Semp
namespace Handshake

section Code
variable (C : Crypto) (rt : Runtime)

def receiveOrThrow (expected : String) : Method Thrown Transport Bytes := do
  let msg ← Transport.receive
  need msg (js "handshake: connection closed waiting for "++js expected)

def parseHandshakeMessage (bytes : Bytes) : Js Json := do
  let obj ← parseJson (Utf8.textDecode bytes)
  let type ← getProp (some obj) (js "type")
  if isStr type messageType then do
    match ← getProp (some obj) (js "step") with
    | some (.str _) => .ok obj
    | _ => raise (js "handshake: missing step field")
  else do
    let text ← templateText (orQuestionMark type)
    raise (js "handshake: expected type=SEMP_HANDSHAKE, got \""++text++js "\"")

/-- The check of the step, after a rejection is ruled out. -/
def expectStep (m : Json) (step : String) : Js Unit := do
  let found ← getProp (some m) (js "step")
  if isStr found (js step) then .ok ()
  else do
    let text ← templateText found
    raise (js "handshake: expected step=\""++js step++js "\", got \""++text++js "\"")

/-- The ephemeral key pair of the driver; a pinned key is ignored in the hybrid suite. -/
def driverEphemeral (suite : Suite) (pinned : Option Bytes) (entropy : ClientEntropy) :
    Js KeyPair :=
  match suite with
  | .pq => hybridGenerateKeyPair C entropy.ephemeralPriv entropy.kyberSeed
  | .x25519 => do
    let ephPriv := pinned.getD entropy.ephemeralPriv
    let ephPub ← x25519PublicKey C ephPriv
    .ok ⟨ephPub,ephPriv⟩

def runClientInner (config : ClientConfig) (suite : Suite) (entropy : ClientEntropy) :
    Method Thrown Transport ClientSession := do
  let eph ← driverEphemeral C suite config.clientEphemeralPriv entropy
  let clientNonce := config.clientNonce.getD entropy.nonce
  let ephKeyId ← ephemeralKeyId C suite eph.publicKey
  let initCanonical ← Canonical.marshal (.obj (clientInit suite clientNonce eph.publicKey ephKeyId
    config.transport config.capabilities))
  Transport.send initCanonical
  let respBytes ← receiveOrThrow "response"
  let resp ← parseHandshakeMessage respBytes
  refuseRejected resp
  expectStep resp "response"
  verifyServerSignature C resp (js "server_signature") config.serverDomainPub
  let serverNonce ← base64Decode rt (← getProp (some resp) (js "server_nonce"))
  let ephKey ← getProp (← getProp (some resp) (js "server_ephemeral_key")) (js "key")
  let serverEphPub ← base64Decode rt ephKey
  checkEphemeralSize suite eph.publicKey
    (js "handshake: PQ ephemeral pub "++natText eph.publicKey.length++js " bytes, want "++
      natText hybridPublicKeySize)
  let sharedSecret ← clientShared C suite eph.secretKey serverEphPub
  let keys := deriveSessionKeysWithResumption C sharedSecret clientNonce serverNonce
  let respCanonical ← Canonical.marshal resp
  let confirmHashBytes := confirmationHash C initCanonical respCanonical
  let sessionId ← getProp (some resp) (js "session_id")
  let identityProofB64 ← clientIdentityProof C config.identity sessionId confirmHashBytes
    keys.encC2S entropy.proofNonce
  let confirm ← Canonical.marshal
    (.obj (buildConfirm ⟨sessionId,Base64.encode confirmHashBytes,identityProofB64,none⟩))
  Transport.send confirm
  let acceptedBytes ← receiveOrThrow "accepted"
  let accepted ← parseHandshakeMessage acceptedBytes
  refuseRejected accepted
  expectStep accepted "accepted"
  verifyServerSignature C accepted (js "server_signature") config.serverDomainPub
  let sessionId ← getProp (some accepted) (js "session_id")
  let sessionTTL ← getProp (some accepted) (js "session_ttl")
  let permissions ← getProp (some accepted) (js "permissions")
  let proof ← getProp (some resp) (js "server_identity_proof")
  let keyId ← getProp proof (js "key_id")
  let signature ← getProp proof (js "signature")
  let extensions ← getProp (some accepted) (js "extensions")
  let ticket ← getProp (some accepted) (js "resumption_ticket")
  return {
    sessionId := sessionId
    sessionTTL := sessionTTL
    permissions := permissions
    keys := keys
    serverIdentityProofKeyId := keyId
    serverIdentityProofSignature := signature
    extensions := extensions
    resumptionTicket := ticket }

/-- The session the driver makes of its result. -/
def clientSessionConfig (result : ClientSession) : SessionConfig where
  role := .client
  sessionId := result.sessionId
  sessionTTL := result.sessionTTL
  permissions := result.permissions
  keys := result.keys
  resumptionTicket := result.resumptionTicket
  serverIdentityProofKeyId := result.serverIdentityProofKeyId
  serverIdentityProofSignature := result.serverIdentityProofSignature
  extensions := result.extensions

def runClient (config : ClientConfig) (entropy : ClientEntropy) :
    Method Thrown Transport Session := do
  let suite ← need (Suite.ofName config.suite)
    (js "handshake: unsupported suite "++JsonText.quote config.suite)
  Transport.closeOnError do
    let result ← runClientInner C rt config suite entropy
    Session.new (clientSessionConfig result)

/-- The message-driven client, fed one RESPONSE and one ACCEPTED. -/
def messageDriven (config : ClientConfig) (entropy : ClientEntropy) (resp acc : Bytes) :
    Js ClientSession := do
  let c ← HandshakeClient.new config
  let calls : Method Thrown HandshakeClient ClientSession := do
    let _ ← HandshakeClient.init C entropy
    let _ ← HandshakeClient.onResponse C rt entropy resp
    HandshakeClient.onAccepted C acc
    HandshakeClient.session
  (calls.call c).1

/-- The loop driver on a transport that delivers one RESPONSE and one ACCEPTED. -/
def loopDriven (config : ClientConfig) (entropy : ClientEntropy) (resp acc : Bytes) : Js Session :=
  ((runClient C rt config entropy).call ⟨[resp,acc],[],false⟩).1

/-- The RESPONSE a driver accepts with answer `a`, and the ACCEPTED. -/
structure BothOk (o : Offer) (resp acc : Bytes) (ms ms' : Members) (a : Answer) : Prop where
  parseResponse : parseJson (Utf8.textDecode resp) = .ok (.obj ms)
  response : ResponseOk C rt o ms a
  parseAccepted : parseJson (Utf8.textDecode acc) = .ok (.obj ms')
  accepted : AcceptedOk C o.serverDomainPub ms'

end Code

section Checks
variable {C : Crypto} {rt : Runtime}

theorem parseHandshakeMessage_eq_ok {bytes : Bytes} {m : Json} :
    parseHandshakeMessage bytes = .ok m ↔ ∃ ms step, m = .obj ms ∧
      parseJson (Utf8.textDecode bytes) = .ok (.obj ms) ∧
      lookup ms (js "type") = some (.str messageType) ∧ lookup ms (js "step") = some (.str step) := by
  unfold parseHandshakeMessage
  constructor
  · intro h
    obtain ⟨obj,hparse,h⟩ := bind_eq_ok.mp h
    obtain ⟨type,htype,h⟩ := bind_eq_ok.mp h
    split_ifs at h with hs
    · rw [isStr_iff] at hs
      subst hs
      obtain ⟨ms,rfl,ht⟩ := getProp_eq_str.mp htype
      obtain ⟨found,hfound,h⟩ := bind_eq_ok.mp h
      split at h
      · obtain rfl := Except.ok.inj h
        exact ⟨ms,_,rfl,hparse,ht,Except.ok.inj hfound⟩
      · simp at h
    · simp [bind_eq_ok] at h
  · rintro ⟨ms,step,rfl,hparse,ht,hs⟩
    rw [hparse,ok_bind,getProp_obj,ht,ok_bind,if_pos (by simp),getProp_obj,hs,ok_bind]

theorem expectStep_eq_ok {ms : Members} {step : String} {u : Unit} :
    expectStep (.obj ms) step = .ok u ↔ lookup ms (js "step") = some (.str (js step)) := by
  unfold expectStep
  rw [getProp_obj,ok_bind]
  split_ifs with h
  · simpa using h
  · simpa [bind_eq_ok] using h

theorem receiveOrThrow_eq_ok {expected : String} {t t' : Transport} {bytes : Bytes} :
    (receiveOrThrow expected).call t = (.ok bytes,t') ↔
      ∃ rest, t.inbox = bytes::rest ∧ t' = {t with inbox := rest} := by
  rw [receiveOrThrow,Method.bind_eq_ok]
  simp only [Transport.call_receive,Method.lift_eq_ok,need_eq_ok,Prod.mk.injEq,Except.ok.injEq]
  constructor
  · rintro ⟨_,_,⟨rfl,rfl⟩,h,rfl⟩
    cases hi : t.inbox with
    | nil => simp [hi] at h
    | cons b rest =>
      rw [hi] at h
      exact ⟨rest,by rw [Option.some.inj h],rfl⟩
  · rintro ⟨rest,h,rfl⟩
    exact ⟨_,_,⟨rfl,rfl⟩,by rw [h]; rfl,by rw [h]; rfl⟩

/-- Both clients generate one key pair when no hybrid key is pinned. -/
theorem driverEphemeral_eq_ok {suite : Suite} {pinned : Option Bytes} {entropy : ClientEntropy}
    {ephPriv ephPub : Bytes} (h : Ephemeral C suite pinned entropy ephPriv ephPub) :
    driverEphemeral C suite pinned entropy = .ok ⟨ephPub,ephPriv⟩ := by
  cases suite with
  | pq => exact h.2
  | x25519 =>
    obtain ⟨rfl,hpub⟩ := h
    rw [driverEphemeral,hpub,ok_bind]

/-- A RESPONSE has one answer. -/
theorem ResponseOk.unique {o : Offer} {ms : Members} {a b : Answer} (ha : ResponseOk C rt o ms a)
    (hb : ResponseOk C rt o ms b) : a = b := by
  obtain ⟨-,-,-,⟨key,hkey,hpub⟩,hnonce,-,hshared,hsid,⟨proof,hproof,hconfirm⟩,hkeyId,hsig⟩ := ha
  obtain ⟨-,-,-,⟨key',hkey',hpub'⟩,hnonce',-,hshared',hsid',⟨proof',hproof',hconfirm'⟩,hkeyId',
    hsig'⟩ := hb
  cases a with
  | mk pub nonce shared sid keyId sig confirm =>
  cases b with
  | mk pub' nonce' shared' sid' keyId' sig' confirm' =>
  simp only [Answer.keys] at *
  obtain rfl := Except.ok.inj (hkey.symm.trans hkey')
  obtain rfl := Except.ok.inj (hpub.symm.trans hpub')
  obtain rfl := Except.ok.inj (hnonce.symm.trans hnonce')
  obtain rfl := Except.ok.inj (hshared.symm.trans hshared')
  obtain rfl := Except.ok.inj (hkeyId.symm.trans hkeyId')
  obtain rfl := Except.ok.inj (hsig.symm.trans hsig')
  obtain rfl := hsid.trans hsid'.symm
  obtain rfl := Except.ok.inj (hproof.symm.trans hproof')
  obtain rfl := hconfirm.trans hconfirm'.symm
  rfl

theorem fst_eq_ok {σ α : Type} {x : Except Thrown α × σ} {a : α} :
    x.1 = .ok a ↔ ∃ s, x = (.ok a,s) := by
  obtain ⟨r,s⟩ := x
  simp

section Started
open HandshakeClient
variable {cfg : ClientConfig} {entropy : ClientEntropy} {suite : Suite}
  {ephPriv ephPub bytes : Bytes} {ephKeyId : JsString} {resp acc : Bytes}

/-- The driver sends the same INIT and then takes what passes the common checks. -/
theorem runClientInner_eq_ok (h : Started C cfg entropy suite ephPriv ephPub ephKeyId bytes)
    {t t' : Transport} {r : ClientSession} (ht : t.closed = false) :
    let o := offerOf cfg suite entropy ephPriv ephPub bytes
    (runClientInner C rt cfg suite entropy).call t = (.ok r,t') ↔
      ∃ resp acc rest ms ms' a, t.inbox = resp::acc::rest ∧ BothOk C rt o resp acc ms ms' a ∧
        r = acceptedSession ms' (a.keys C o) (lookup ms' (js "session_ttl")) a.keyId a.signature ∧
        t' = {t with inbox := rest, sent := t.sent++[bytes]++[a.confirm]} := by
  intro o
  rw [runClientInner]
  simp only [driverEphemeral_eq_ok h.ephemeral,h.keyId,Canonical.marshal_eq (clientInit_wf ..),
    ← h.sent,Method.lift_bind_eq_ok,Except.ok.injEq,exists_eq_left',
    Method.bind_eq_ok (x := Transport.send _),Method.bind_eq_ok (x := receiveOrThrow _),
    Transport.send_eq_ok,receiveOrThrow_eq_ok,parseHandshakeMessage_eq_ok,checkEphemeralSize,
    require_eq_ok,Method.call_pure,Prod.mk.injEq]
  constructor
  · rintro ⟨_,_,⟨_,rfl⟩,resp,_,⟨rest,hinbox,rfl⟩,_,⟨ms,step,rfl,hparse,htype,_⟩,_,_,_,hstep,_,hsig,
      sn,hsn,sNonce,hsNonce,eph,heph,key,hkey,pub,hpub,_,hsize,shared,hshared,h⟩
    obtain ⟨rc,hrc,sid,hsid,proof,hproof,confirm,hconfirm,_,_,⟨_,rfl⟩,acc,_,⟨rest',hinbox',rfl⟩,_,
      ⟨ms',step',rfl,hparse',htype',_⟩,_,_,_,hstep',_,hsig',h⟩ := h
    obtain ⟨sid',hsid',ttl,httl,perms,hperms,idp,hidp,keyId,hkeyId,sign,hsign,ext,hext,ticket,
      hticket,rfl,rfl⟩ := h
    have hwf : (Json.obj ms).WF := JsonText.parse_wf (parseJson_eq_ok.mp hparse)
    rw [getProp_obj,Except.ok.injEq] at hsn heph hsid hidp hsid' httl hperms hext hticket
    subst hsn heph hsid hidp hsid' httl hperms hext hticket
    rw [Canonical.marshal_eq hwf,Except.ok.injEq] at hrc
    subst hrc
    rw [Canonical.marshal_eq (buildConfirm_wf_of hwf),Except.ok.injEq] at hconfirm
    simp only at hinbox'
    refine ⟨resp,acc,rest',ms,ms',⟨pub,sNonce,shared,lookup ms (js "session_id"),keyId,sign,confirm⟩,
      by rw [hinbox,hinbox'],⟨hparse,⟨htype,expectStep_eq_ok.mp hstep,hsig,⟨key,hkey,hpub⟩,hsNonce,
        hsize,hshared,rfl,⟨proof,hproof,hconfirm.symm⟩,hkeyId,hsign⟩,hparse',
        ⟨htype',expectStep_eq_ok.mp hstep',hsig'⟩⟩,rfl,rfl⟩
  · rintro ⟨resp,acc,rest,ms,ms',a,hinbox,⟨hparse,hr,hparse',ha⟩,rfl,rfl⟩
    have hwf : (Json.obj ms).WF := JsonText.parse_wf (parseJson_eq_ok.mp hparse)
    obtain ⟨key,hkey,hpub⟩ := hr.ephemeral
    obtain ⟨proof,hproof,hconfirm⟩ := hr.confirm
    rw [hr.sessionId] at hproof hconfirm
    refine ⟨(),_,⟨ht,rfl⟩,resp,_,⟨acc::rest,hinbox,rfl⟩,_,
      ⟨ms,_,rfl,hparse,hr.type,hr.step⟩,(),refuseRejected_obj "response" hr.step (by decide),(),
      expectStep_eq_ok.mpr hr.step,(),hr.signed,_,rfl,_,hr.serverNonce,_,rfl,key,hkey,_,hpub,(),
      hr.size,_,hr.shared,_,Canonical.marshal_eq hwf,_,rfl,proof,hproof,a.confirm,?_,(),_,
      ⟨ht,rfl⟩,acc,_,⟨rest,rfl,rfl⟩,_,⟨ms',_,rfl,hparse',ha.type,ha.step⟩,(),
      refuseRejected_obj "accepted" ha.step (by decide),(),expectStep_eq_ok.mpr ha.step,(),ha.signed,
      _,rfl,_,rfl,_,rfl,_,rfl,_,hr.keyId,_,hr.signature,_,rfl,_,rfl,rfl,rfl⟩
    exact (Canonical.marshal_eq (buildConfirm_wf_of hwf)).trans (congrArg Except.ok hconfirm.symm)

/-- The driver completes exactly on what passes the common checks and has permissions
that can be iterated. -/
theorem loopDriven_eq_ok (h : Started C cfg entropy suite ephPriv ephPub ephKeyId bytes)
    {s : Session} : let o := offerOf cfg suite entropy ephPriv ephPub bytes
    loopDriven C rt cfg entropy resp acc = .ok s ↔
      ∃ ms ms' a, BothOk C rt o resp acc ms ms' a ∧
        Session.new (clientSessionConfig (acceptedSession ms' (a.keys C o)
          (lookup ms' (js "session_ttl")) a.keyId a.signature)) = .ok s := by
  intro o
  have hinner {r : ClientSession} {t' : Transport} :=
    @runClientInner_eq_ok C rt cfg entropy suite ephPriv ephPub bytes ephKeyId h
      ⟨[resp,acc],[],false⟩ t' r rfl
  rw [loopDriven,fst_eq_ok,runClient,h.known]
  simp only [need,Method.lift_bind_eq_ok,Transport.closeOnError_eq_ok,
    Method.bind_eq_ok (x := runClientInner _ _ _ _ _),hinner,Method.lift_eq_ok,Except.ok.injEq,
    exists_eq_left',List.cons.injEq]
  constructor
  · rintro ⟨_,_,_,⟨_,_,_,ms,ms',a,⟨rfl,rfl,-⟩,hboth,rfl,-⟩,hnew,-⟩
    exact ⟨ms,ms',a,hboth,hnew⟩
  · rintro ⟨ms,ms',a,hboth,hnew⟩
    exact ⟨_,_,_,⟨_,_,_,ms,ms',a,⟨rfl,rfl,rfl⟩,hboth,rfl,rfl⟩,hnew,rfl⟩

/-- The message-driven client completes exactly on what passes the common checks, repeats
its nonce and the session id, and has a TTL that can be compared. -/
theorem messageDriven_eq_ok {c c' : HandshakeClient} (hnew : HandshakeClient.new cfg = .ok c)
    (hinit : (HandshakeClient.init C entropy).call c = (.ok bytes,c')) {o : Offer}
    (ho : Offers c' o) (he : o.proofNonce = entropy.proofNonce) {r : ClientSession} :
    messageDriven C rt cfg entropy resp acc = .ok r ↔
      ∃ ms ms' a positive, BothOk C rt o resp acc ms ms' a ∧ Echoes o ms ∧
        strictEq (lookup ms' (js "session_id")) a.sessionId = true ∧
        gtZero (lookup ms' (js "session_ttl")) = .ok positive ∧
        r = acceptedSession ms' (a.keys C o) (ttlOf positive ms') a.keyId a.signature := by
  rw [messageDriven,hnew,ok_bind,fst_eq_ok,Method.bind_of_ok hinit]
  simp only [Method.bind_eq_ok,onResponse_eq_ok ho he,onAccepted_eq_ok,session_eq_ok]
  constructor
  · rintro ⟨_,_,_,⟨ms,a,hparse,hecho,hr,rfl,rfl⟩,-,_,⟨keys,ms',positive,hkeys,hparse',
      ha,heq,hpos,rfl⟩,hr',-⟩
    obtain rfl : a.keys C o = keys := Option.some.inj hkeys
    rw [show (afterResponse C c' o a).serverDomainPub = o.serverDomainPub from ho.serverDomainPub]
      at ha
    exact ⟨ms,ms',a,positive,⟨hparse,hr,hparse',ha⟩,hecho,heq,hpos,(Option.some.inj hr').symm⟩
  · rintro ⟨ms,ms',a,positive,⟨hparse,hr,hparse',ha⟩,hecho,heq,hpos,rfl⟩
    refine ⟨_,_,_,⟨ms,a,hparse,hecho,hr,rfl,rfl⟩,(),_,⟨_,ms',positive,rfl,hparse',?_,
      heq,hpos,rfl⟩,rfl,rfl⟩
    rwa [show (afterResponse C c' o a).serverDomainPub = o.serverDomainPub from ho.serverDomainPub]

end Started

end Checks

/-- Both clients complete or none does, and then with one session id, TTL and key set. -/
def Agree (x : Js ClientSession) (y : Js Session) : Prop :=
  ((∃ r, x = .ok r) ↔ ∃ s, y = .ok s) ∧ ∀ r s, x = .ok r → y = .ok s →
    r.sessionId = s.sessionId ∧ r.sessionTTL = s.sessionTTL ∧ s.keys = some r.keys

/-- The RESPONSE answers this INIT, and the ACCEPTED this RESPONSE. -/
def Bound (o : Offer) (ms ms' : Members) : Prop :=
  HandshakeClient.Echoes o ms ∧
    strictEq (lookup ms' (js "session_id")) (lookup ms (js "session_id")) = true

def Comparable (ms' : Members) : Prop := ∃ b, gtZero (lookup ms' (js "session_ttl")) = .ok b

def Positive (ms' : Members) : Prop := gtZero (lookup ms' (js "session_ttl")) = .ok true

def Iterable (ms' : Members) : Prop := ∃ vs, newSet (lookup ms' (js "permissions")) = .ok vs

/-- When the checks that only one of the clients makes do not tell them apart: all of
them pass, or one fails on each side. -/
def Concur (C : Crypto) (rt : Runtime) (o : Offer) (resp acc : Bytes) : Prop :=
  ∀ ms ms' a, BothOk C rt o resp acc ms ms' a →
    (Bound o ms ms' ∧ Positive ms' ∧ Iterable ms') ∨
      (¬(Bound o ms ms' ∧ Comparable ms') ∧ ¬Iterable ms')

section Agreement
variable {C : Crypto} {rt : Runtime}

theorem BothOk.unique {o : Offer} {resp acc : Bytes} {ms₁ ms₂ ms₁' ms₂' : Members} {a₁ a₂ : Answer}
    (h₁ : BothOk C rt o resp acc ms₁ ms₁' a₁) (h₂ : BothOk C rt o resp acc ms₂ ms₂' a₂) :
    ms₁ = ms₂ ∧ ms₁' = ms₂' ∧ a₁ = a₂ := by
  obtain rfl : ms₁ = ms₂ := Json.obj.inj
    (Except.ok.inj (h₁.parseResponse.symm.trans h₂.parseResponse))
  obtain rfl : ms₁' = ms₂' := Json.obj.inj
    (Except.ok.inj (h₁.parseAccepted.symm.trans h₂.parseAccepted))
  exact ⟨rfl,rfl,h₁.response.unique h₂.response⟩

theorem session_new_ok {result : ClientSession} {s : Session}
    (h : Session.new (clientSessionConfig result) = .ok s) :
    (∃ vs, newSet result.permissions = .ok vs) ∧ s.sessionId = result.sessionId ∧
      s.sessionTTL = result.sessionTTL ∧ s.keys = some result.keys := by
  obtain ⟨vs,hvs,h⟩ := bind_eq_ok.mp h
  obtain rfl := Except.ok.inj h
  exact ⟨⟨vs,hvs⟩,rfl,rfl,rfl⟩

theorem session_new_of_iterable {r : ClientSession} {vs : List Json}
    (h : newSet r.permissions = .ok vs) :
    ∃ s, Session.new (clientSessionConfig r) = .ok s := by
  rw [Session.new,show (clientSessionConfig r).permissions = r.permissions from rfl,h,
    ok_bind]
  exact ⟨_,rfl⟩

/-- 300 is positive, so the TTL the message-driven client falls back to is never the one
the driver keeps. -/
theorem gtZero_300 : gtZero (some (.num (.ofNat 300))) = .ok true := by
  change Except.ok ((Number.zero false).lt (Number.ofNat 300)) = _
  have hzero : (Number.zero false).toRat = 0 := Binary64.value_zero
  rw [Number.lt_fin rfl (Number.isFinite_ofNat (by decide)),hzero,
    Number.toRat_ofNat (by decide)]
  simp

/-- On one RESPONSE and one ACCEPTED the clients agree exactly when the checks that only
one of them makes do not matter. -/
theorem clients_agree_iff {cfg : ClientConfig} {entropy : ClientEntropy} {c c' : HandshakeClient}
    {bytes : Bytes} (hnew : HandshakeClient.new cfg = .ok c)
    (hinit : (HandshakeClient.init C entropy).call c = (.ok bytes,c')) (resp acc : Bytes) :
    Agree (messageDriven C rt cfg entropy resp acc) (loopDriven C rt cfg entropy resp acc) ↔
      Concur C rt (c'.offer entropy) resp acc := by
  obtain ⟨suite,ephPriv,ephPub,ephKeyId,hs,ho⟩ := HandshakeClient.new_init hnew hinit
  rw [ho.offer rfl]
  have hm {r : ClientSession} := @messageDriven_eq_ok C rt cfg entropy bytes resp acc c c' hnew hinit
    _ ho rfl r
  have hl {s : Session} := @loopDriven_eq_ok C rt cfg entropy suite ephPriv ephPub bytes ephKeyId resp
    acc hs s
  set o := HandshakeClient.offerOf cfg suite entropy ephPriv ephPub bytes
  constructor
  · rintro ⟨hiff,hsame⟩ ms ms' a hboth
    have hsid := hboth.response.sessionId
    by_cases hit : Iterable ms'
    · obtain ⟨vs,hvs⟩ := hit
      obtain ⟨s,hs⟩ := session_new_of_iterable (r := HandshakeClient.acceptedSession ms' (a.keys C o)
        (lookup ms' (js "session_ttl")) a.keyId a.signature) hvs
      have hy := hl.mpr ⟨ms,ms',a,hboth,hs⟩
      obtain ⟨r,hx⟩ := hiff.mpr ⟨s,hy⟩
      obtain ⟨ms₂,ms₂',a₂,positive,hboth₂,hecho,heq,hpos,rfl⟩ := hm.mp hx
      obtain ⟨rfl,rfl,rfl⟩ := hboth.unique hboth₂
      rw [hsid] at heq
      obtain ⟨-,httl,-⟩ := hsame _ _ hx hy
      rw [(session_new_ok hs).2.2.1] at httl
      refine .inl ⟨⟨hecho,heq⟩,?_,vs,hvs⟩
      cases positive with
      | true => exact hpos
      | false =>
        have h300 : some (Json.num (.ofNat 300)) = lookup ms' (js "session_ttl") := httl
        rw [Positive,← h300,gtZero_300]
    · refine .inr ⟨?_,hit⟩
      rintro ⟨⟨hecho,heq⟩,positive,hpos⟩
      rw [← hsid] at heq
      obtain ⟨s,hy⟩ := hiff.mp ⟨_,hm.mpr ⟨ms,ms',a,positive,hboth,hecho,heq,hpos,rfl⟩⟩
      obtain ⟨ms₂,ms₂',a₂,hboth₂,hs⟩ := hl.mp hy
      obtain ⟨rfl,rfl,rfl⟩ := hboth.unique hboth₂
      exact hit (session_new_ok hs).1
  · intro hc
    constructor
    · constructor
      · rintro ⟨r,hx⟩
        obtain ⟨ms,ms',a,positive,hboth,hecho,heq,hpos,rfl⟩ := hm.mp hx
        rw [hboth.response.sessionId] at heq
        rcases hc ms ms' a hboth with ⟨-,-,vs,hvs⟩ | ⟨hno,-⟩
        · obtain ⟨s,hs⟩ := session_new_of_iterable (r := HandshakeClient.acceptedSession ms'
            (a.keys C o) (lookup ms' (js "session_ttl")) a.keyId a.signature) hvs
          exact ⟨s,hl.mpr ⟨ms,ms',a,hboth,hs⟩⟩
        · exact absurd ⟨⟨hecho,heq⟩,positive,hpos⟩ hno
      · rintro ⟨s,hy⟩
        obtain ⟨ms,ms',a,hboth,hs⟩ := hl.mp hy
        rcases hc ms ms' a hboth with ⟨⟨hecho,heq⟩,hpos,-⟩ | ⟨-,hno⟩
        · rw [← hboth.response.sessionId] at heq
          exact ⟨_,hm.mpr ⟨ms,ms',a,true,hboth,hecho,heq,hpos,rfl⟩⟩
        · exact absurd (session_new_ok hs).1 hno
    · intro r s hx hy
      obtain ⟨ms,ms',a,positive,hboth,hecho,heq,hpos,rfl⟩ := hm.mp hx
      obtain ⟨ms₂,ms₂',a₂,hboth₂,hs⟩ := hl.mp hy
      obtain ⟨rfl,rfl,rfl⟩ := hboth.unique hboth₂
      obtain ⟨hit,hsid,httl,hkeys⟩ := session_new_ok hs
      refine ⟨hsid.symm,?_,hkeys⟩
      rcases hc ms ms' a hboth with ⟨-,hpos',-⟩ | ⟨-,hno⟩
      · obtain rfl : positive = true := Except.ok.inj (hpos.symm.trans hpos')
        exact httl.symm
      · exact absurd hit hno

variable (rt) in
/-- What an honest server signed passes the common checks. -/
theorem bothOk_signed (laws : Laws C) {o : Offer} {i : BuildResponseInput}
    {a : BuildAcceptedInput} {signed signed' : Members}
    (hn : ∀ v ∈ i.clientNonce, v.WF) (h : buildResponse C i = .ok signed)
    (h' : buildAccepted C a = .ok signed')
    (hpk : publicKeyFromSeed C i.serverDomainSigningSeed = .ok o.serverDomainPub)
    (hpk' : publicKeyFromSeed C a.serverDomainSigningSeed = .ok o.serverDomainPub)
    {serverEphPub serverNonce shared : Bytes}
    (hkey : i.serverEphemeralKey.key = Base64.encode serverEphPub)
    (hnonce : i.serverNonce = Base64.encode serverNonce)
    (hsize : o.suite = .pq → o.ephPub.length = hybridPublicKeySize)
    (hshared : clientShared C o.suite o.ephPriv serverEphPub = .ok shared)
    (hid : IdentitySizes o.identity o.proofNonce) :
    ∃ ms ms' a, BothOk C rt o (Canonical.canonicalBytes (.obj signed))
        (Canonical.canonicalBytes (.obj signed')) ms ms' a ∧ Received signed ms ∧ Iterable ms' := by
  obtain ⟨ms,hparse,hr⟩ := received (signMessage_wf (responsePreSign_wf hn) h)
  obtain ⟨ms',hparse',hr'⟩ := received (signMessage_wf (acceptedPreSign_wf a) h')
  obtain ⟨a,ha,-⟩ := responseOk_signed laws rt hn h hr hpk hkey hnonce hsize hshared hid
  obtain ⟨hacc,-,-,vs,hvs⟩ := acceptedOk_signed laws h' hr' hpk'
  exact ⟨ms,ms',a,⟨hparse,ha,hparse',hacc⟩,hr,_,by rw [hvs]; rfl⟩

end Agreement

/-! A RESPONSE to another INIT, recorded and delivered to a new client. -/
section Replay

def replayConfig : ClientConfig where
  suite := Suite.x25519.name
  capabilities := defaultClientCapabilities
  transport := js "ws"
  serverDomainPub := List.replicate 32 1
  clientEphemeralPriv := none
  clientNonce := none
  identity := none

def replayEntropy : ClientEntropy where
  ephemeralPriv := List.replicate 32 2
  kyberSeed := []
  nonce := List.replicate 32 3
  proofNonce := List.replicate 12 4

def replayedResponse : BuildResponseInput where
  sessionId := js "session"
  clientNonce := some (.str (Base64.encode (List.replicate 32 9)))
  serverNonce := Base64.encode (List.replicate 32 5)
  serverEphemeralKey := ⟨Suite.x25519.name,Base64.encode (List.replicate 32 6),js "key"⟩
  serverIdentityProof := ⟨js "example.com",js "domain",[]⟩
  negotiated := ⟨Suite.x25519.name,[]⟩
  serverDomainSigningSeed := List.replicate 32 1
  extensions := none

def replayedAccepted : BuildAcceptedInput where
  sessionId := js "session"
  sessionTTL := .ofNat 300
  permissions := []
  resumptionTicket := none
  serverDomainSigningSeed := List.replicate 32 1
  extensions := none

/-- The bytes a server sends for a message it signed. -/
def wire (signed : Js Members) : Bytes :=
  match signed with
  | .ok ms => Canonical.canonicalBytes (.obj ms)
  | .error _ => []

theorem replay_started : ∃ c c' bytes, HandshakeClient.new replayConfig = .ok c ∧
    (HandshakeClient.init Sample.crypto replayEntropy).call c = (.ok bytes,c') := by
  refine ⟨_,_,_,HandshakeClient.new_eq_ok.mpr ⟨.x25519,by decide,by decide,by decide,rfl⟩,
    HandshakeClient.init_eq_ok.mpr ⟨rfl,List.replicate 32 2,List.replicate 32 2,
      hex (Sample.crypto.sha256 (List.replicate 32 2)).val,⟨rfl,rfl⟩,rfl,rfl,rfl⟩⟩

/-- The driver takes another run's RESPONSE, and the message-driven client refuses it. -/
theorem replay_diverges (rt : Runtime) {c c' : HandshakeClient} {bytes : Bytes}
    (hnew : HandshakeClient.new replayConfig = .ok c)
    (hinit : (HandshakeClient.init Sample.crypto replayEntropy).call c = (.ok bytes,c')) :
    let resp := wire (buildResponse Sample.crypto replayedResponse)
    let acc := wire (buildAccepted Sample.crypto replayedAccepted)
    (∃ s, loopDriven Sample.crypto rt replayConfig replayEntropy resp acc = .ok s) ∧
      ¬∃ r, messageDriven Sample.crypto rt replayConfig replayEntropy resp acc = .ok r := by
  intro resp acc
  obtain ⟨suite,ephPriv,ephPub,ephKeyId,hs,ho⟩ := HandshakeClient.new_init hnew hinit
  obtain rfl : suite = .x25519 := Option.some.inj (hs.known.symm.trans (by decide))
  obtain ⟨hpriv,hpub⟩ := hs.ephemeral
  have hseed : (List.replicate 32 1 : Bytes).length = 32 := by decide
  obtain ⟨signed,hsigned⟩ := signMessage_ok Sample.laws.sig
    (responsePreSign_wf (i := replayedResponse) (by simp [replayedResponse])) hseed
  obtain ⟨signed',hsigned'⟩ := signMessage_ok Sample.laws.sig
    (acceptedPreSign_wf replayedAccepted) hseed
  have hresp : resp = Canonical.canonicalBytes (.obj signed) := by
    change wire (signMessage _ _ (List.replicate 32 1)) = _
    rw [hsigned,wire]
  have hacc : acc = Canonical.canonicalBytes (.obj signed') := by
    change wire (signMessage _ _ (List.replicate 32 1)) = _
    rw [hsigned',wire]
  set o := HandshakeClient.offerOf replayConfig .x25519 replayEntropy ephPriv ephPub bytes
  have hpk : publicKeyFromSeed Sample.crypto (List.replicate 32 1) = .ok (List.replicate 32 1) :=
    publicKeyFromSeed_eq_ok.mpr ⟨by decide,rfl⟩
  have hshared : clientShared Sample.crypto o.suite o.ephPriv (List.replicate 32 6) =
      .ok (Sample.agree (List.replicate 32 2) (List.replicate 32 6)) := by
    change clientShared Sample.crypto .x25519 ephPriv _ = _
    rw [hpriv]
    rfl
  obtain ⟨ms,ms',a,hboth,hr,vs,hvs⟩ := bothOk_signed rt Sample.laws (o := o)
    (i := replayedResponse) (a := replayedAccepted) (by simp [replayedResponse])
    hsigned hsigned' hpk hpk rfl rfl nofun hshared nofun
  rw [← hresp,← hacc] at hboth
  constructor
  · obtain ⟨s,hs'⟩ := session_new_of_iterable (r := HandshakeClient.acceptedSession ms'
      (a.keys Sample.crypto o) (lookup ms' (js "session_ttl")) a.keyId a.signature) hvs
    exact ⟨s,(loopDriven_eq_ok hs).mpr ⟨ms,ms',a,hboth,hs'⟩⟩
  · rintro ⟨r,hx⟩
    obtain ⟨ms₂,ms₂',a₂,positive,hboth₂,hecho,-⟩ := (messageDriven_eq_ok hnew hinit ho rfl).mp hx
    obtain ⟨rfl,-,-⟩ := hboth.unique hboth₂
    have hsent := signed_str (responsePreSign_wf (i := replayedResponse)
      (by simp [replayedResponse])) hsigned hr (k := js "client_nonce") (by decide)
      (lookup_responsePreSign_clientNonce replayedResponse)
    have hnonce : List.replicate 32 (9 : UInt8) = List.replicate 32 3 :=
      Base64.encode_injective (Json.str.inj (Option.some.inj (hsent.symm.trans hecho)))
    exact absurd hnonce (by decide)

theorem clients_disagree : (∃ c c' bytes, HandshakeClient.new replayConfig = .ok c ∧
      (HandshakeClient.init Sample.crypto replayEntropy).call c = (.ok bytes,c')) ∧
    ¬Agree (messageDriven Sample.crypto Sample.runtime replayConfig replayEntropy
        (wire (buildResponse Sample.crypto replayedResponse))
        (wire (buildAccepted Sample.crypto replayedAccepted)))
      (loopDriven Sample.crypto Sample.runtime replayConfig replayEntropy
        (wire (buildResponse Sample.crypto replayedResponse))
        (wire (buildAccepted Sample.crypto replayedAccepted))) := by
  refine ⟨replay_started,fun hagree => ?_⟩
  obtain ⟨c,c',bytes,hnew,hinit⟩ := replay_started
  obtain ⟨hloop,hmessage⟩ := replay_diverges Sample.runtime hnew hinit
  exact hmessage (hagree.1.mpr hloop)

theorem clients_agree_iff_replay : ∃ c c' bytes, HandshakeClient.new replayConfig = .ok c ∧
    (HandshakeClient.init Sample.crypto replayEntropy).call c = (.ok bytes,c') ∧
    (Agree (messageDriven Sample.crypto Sample.runtime replayConfig replayEntropy [] [])
        (loopDriven Sample.crypto Sample.runtime replayConfig replayEntropy [] []) ↔
      Concur Sample.crypto Sample.runtime (c'.offer replayEntropy) [] []) := by
  obtain ⟨c,c',bytes,hnew,hinit⟩ := replay_started
  exact ⟨c,c',bytes,hnew,hinit,clients_agree_iff hnew hinit [] []⟩

end Replay

end Handshake
end Semp
