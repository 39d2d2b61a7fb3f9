import Semp.FederationInitiator
import Semp.FederationResponder
import Semp.Tasks

/-! The calls of one responder, interleaved.  `onInit` waits for the verdict on the domain
proof after its guard and before it writes a field; any other call may run meanwhile. -/
namespace Semp
namespace FederationResponder
open Handshake Federation Method

/-- What a call of `onInit` keeps while it waits. -/
structure PendingInit where
  data : Bytes
  message : Json
  serverDomain : Option Json
  nonce : Option Json
  proof : Option Json
  method : Option Json
  clientEphPub : Bytes
  clientNonce : Bytes

/-- What the surroundings give a call: the verdict, and what is drawn. -/
structure Surroundings where
  verdict : Callback Unit
  entropy : ServerEntropy

inductive Invocation
  | onInit (data : Bytes)
  | onConfirm (issueResumptionTicket : Option (SessionKeys → Callback ResumptionTicket))
      (data : Bytes)
  | erase

section Code
variable (C : Crypto) (rt : Runtime)

/-- `onInit` behind its guard, up to the `await`. -/
def checkInit (cfg : FederationResponderConfig) (data : Bytes) : Js PendingInit := do
  let m ← parseJson (Utf8.textDecode data)
  checkTypeStepParty m "init" (js "handshake: federation init type/step/party mismatch")
  let serverDomain ← getProp (some m) (js "server_domain")
  require (isStr serverDomain [] = false) (js "handshake: empty initiator server_domain")
  let peerDomainPub ← (cfg.peerDomainPubLookup serverDomain).run
  checkServerMessage C rt m peerDomainPub
    (js "handshake: federation init server_signature did not verify")
  let clientEphPub ← serverEphemeralKey rt m
  let nonce ← getProp (some m) (js "nonce")
  let clientNonce ← base64Decode rt nonce
  checkIdentityProof C rt m peerDomainPub (clientEphPub++clientNonce)
    (js "handshake: federation init inner identity_signature did not verify")
  let proof ← getProp (some m) (js "domain_proof")
  let method ← getProp proof (js "method")
  .ok ⟨data,m,serverDomain,nonce,proof,method,clientEphPub,clientNonce⟩

/-- `onInit` up to the `await`. -/
def beginInit (s : FederationResponder) (data : Bytes) : Js PendingInit := do
  require (s.initCanonical = none) (js "handshake: federation responder onInit called twice")
  checkInit C rt s.cfg data

def expectProven (verdict : Callback Unit) : Js Unit :=
  match verdict with
  | .ok () => .ok ()
  | .error detail =>
    raise (js "handshake: federation domain proof verification failed: "++detail)

/-- `onInit` from the verdict to the negotiated suite. -/
def negotiate (cfg : FederationResponderConfig) (t : PendingInit) (verdict : Callback Unit) :
    Js PeerInit := do
  expectProven verdict
  let capabilities ← getProp (some t.message) (js "capabilities")
  let offered ← getProp capabilities (js "encryption_algorithms")
  let picked ← pickSuite offered cfg.capabilities.encryptionAlgorithms
  let negotiated ← need picked (js "handshake: federation no mutually supported suite")
  require (negotiated = cfg.suite) (js "handshake: federation negotiated suite "++negotiated++
    js " != responder suite "++cfg.suite)
  .ok ⟨t.message,t.serverDomain,t.nonce,t.method,t.clientEphPub,t.clientNonce,negotiated⟩

/-- `onInit` from the verdict to its end. -/
def finishInit (t : PendingInit) (e : Surroundings) : Method Thrown FederationResponder Bytes := do
  let s ← get
  let a ← negotiate s.cfg t e.verdict
  let bytes ← respond C e.entropy a
  modify fun s => {s with
    peerDomain := a.serverDomain
    peerNonce := some a.clientNonce
    initCanonical := some t.data
    respCanonical := some bytes}
  return bytes

abbrev Outcome := Tasks.Stage PendingInit (Js Bytes)

/-- A call from its start to its first `await`. -/
def start (c : Invocation) (s : FederationResponder) : Outcome × FederationResponder :=
  match c with
  | .onInit data =>
    match beginInit C rt s data with
    | .ok t => (.awaiting t,s)
    | .error e => (.done (.error e),s)
  | .onConfirm issueResumptionTicket data =>
    let r := (onConfirm C rt issueResumptionTicket data).call s
    (.done r.1,r.2)
  | .erase => (.done (.ok []),(erase.call s).2)

def resume (t : PendingInit) (e : Surroundings) (s : FederationResponder) :
    Outcome × FederationResponder :=
  let r := (finishInit C t e).call s
  (.done r.1,r.2)

def object : Tasks.Object FederationResponder Invocation PendingInit Surroundings (Js Bytes) where
  start c _ s := start C rt c s
  resume t e s := resume C t e s

end Code

abbrev World := Tasks.World FederationResponder Invocation PendingInit (Js Bytes)

/-- Call `i` is an `onInit` that returned a RESPONSE. -/
def Succeeded (w : World) (i : ℕ) (data bytes : Bytes) : Prop :=
  w.calls[i]? = some ⟨.onInit data,.done (.ok bytes)⟩

/-- No call goes on to answer its INIT after another one was answered. -/
def Orderly (w : World) : Tasks.Act Invocation Surroundings → Prop
  | .start _ _ => True
  | .resume i e => w.fields.initCanonical = none ∨
      ∀ c t, w.calls[i]? = some ⟨c,.awaiting t⟩ →
        ∃ err, negotiate w.fields.cfg t e.verdict = .error err

section Split
variable {C : Crypto} {rt : Runtime} {s : FederationResponder} {data : Bytes}

/-- What the configured verifier says. -/
def verdictOf (cfg : FederationResponderConfig) (t : PendingInit) : Callback Unit :=
  match cfg.verifier with
  | none => .ok ()
  | some verify => verify t.serverDomain t.proof t.nonce

theorem checkInit_data {cfg : FederationResponderConfig} {t : PendingInit}
    (h : checkInit C rt cfg data = .ok t) : t.data = data := by
  simp only [checkInit,Semp.bind_eq_ok] at h
  obtain ⟨_,-,_,-,_,-,_,-,_,-,_,-,_,-,_,-,_,-,_,-,_,-,_,-,h⟩ := h
  exact (congrArg PendingInit.data (Except.ok.inj h)).symm

theorem beginInit_eq_ok {t : PendingInit} : beginInit C rt s data = .ok t ↔
    s.initCanonical = none ∧ checkInit C rt s.cfg data = .ok t := by
  rw [beginInit,Semp.bind_eq_ok]
  constructor
  · rintro ⟨_,hguard,h⟩
    exact ⟨require_eq_ok.mp hguard,h⟩
  · rintro ⟨hguard,h⟩
    exact ⟨(),require_eq_ok.mpr hguard,h⟩

/-- The checks of `onInit` are those of its two parts. -/
theorem takeInit_eq : takeInit C rt s data = (do
    let t ← beginInit C rt s data
    negotiate s.cfg t (verdictOf s.cfg t)) := by
  have hverify (cfg : FederationResponderConfig) (t : PendingInit) :
      expectProven (verdictOf cfg t) = verifyDomainProof cfg t.serverDomain t.proof t.nonce := by
    unfold verifyDomainProof verdictOf
    cases cfg.verifier <;> rfl
  simp only [takeInit,beginInit,checkInit,negotiate,hverify,bind_assoc,ok_bind]

/-- Not interrupted, the two parts are the method. -/
theorem onInit_eq (entropy : ServerEntropy) :
    (onInit C rt entropy data).call s = match beginInit C rt s data with
      | .ok t => (finishInit C t ⟨verdictOf s.cfg t,entropy⟩).call s
      | .error e => (.error e,s) := by
  rw [onInit,get_bind,takeInit_eq]
  cases hbegin : beginInit C rt s data with
  | error e => rfl
  | ok t =>
    have hdata := checkInit_data (beginInit_eq_ok.mp hbegin).2
    dsimp only
    rw [ok_bind,finishInit,get_bind,hdata]

/-- What passed the checks with some verdict. -/
theorem initOk_of_check (s : FederationResponder) {cfg : FederationResponderConfig}
    {t : PendingInit} {a : PeerInit} {verdict : Callback Unit}
    (hcheck : checkInit C rt cfg data = .ok t)
    (hn : negotiate cfg t verdict = .ok a) :
    ∃ ms pub, parseJson (Utf8.textDecode data) = .ok (.obj ms) ∧
      InitOk C rt {cfg with verifier := some fun _ _ _ => verdict} ms pub a := by
  let u : FederationResponder :=
    {s with cfg := {cfg with verifier := some fun _ _ _ => verdict}, initCanonical := none}
  have hbegin : beginInit C rt u data = .ok t := beginInit_eq_ok.mpr ⟨rfl,hcheck⟩
  have htake : takeInit C rt u data = .ok a := by
    rw [takeInit_eq,hbegin,ok_bind]
    exact hn
  exact (takeInit_eq_ok.mp htake).2

end Split

section Parts
variable {C : Crypto} {rt : Runtime} {s₀ s s' : FederationResponder} {t : PendingInit}
  {e : Surroundings} {data bytes : Bytes}

/-- The fields that no method writes. -/
structure Same (s s' : FederationResponder) : Prop where
  cfg : s'.cfg = s.cfg
  suite : s'.suite = s.suite
  keyId : s'.localDomainKeyId = s.localDomainKeyId

theorem Same.trans {s'' : FederationResponder} (h : Same s s') (h' : Same s' s'') :
    Same s s'' :=
  ⟨h'.cfg.trans h.cfg,h'.suite.trans h.suite,h'.keyId.trans h.keyId⟩

/-- The RESPONSE is that of the configuration. -/
theorem Response.congr {entropy : ServerEntropy} {a : PeerInit} {respEphPub shared : Bytes}
    (h : Response C s entropy a respEphPub shared bytes) (hs : Same s s') :
    Response C s' entropy a respEphPub shared bytes := by
  obtain ⟨hshare,keyId,hkeyId,hsent⟩ := h
  refine ⟨by rw [hs.cfg,hs.suite]; exact hshare,keyId,hkeyId,?_⟩
  simp only [← hsent,composeResponse,responseMessage,hs.cfg,hs.keyId]

/-- The fields of an INIT that was answered with `bytes`; `erase` and `onConfirm` take the
secrets away again. -/
structure Ours (C : Crypto) (s₀ s : FederationResponder) (entropy : ServerEntropy)
    (a : PeerInit) (respEphPub shared data bytes : Bytes) : Prop where
  response : Response C s₀ entropy a respEphPub shared bytes
  initCanonical : s.initCanonical = some data
  respCanonical : s.respCanonical = some bytes
  sessionId : s.sessionId = entropy.sessionId
  peerDomain : s.peerDomain = a.serverDomain
  peerNonce : ∀ n ∈ s.peerNonce, n = a.clientNonce
  serverNonce : ∀ n ∈ s.serverNonce, n = s₀.cfg.responderNonce.getD entropy.nonce
  respEphPriv : ∀ k ∈ s.respEphPriv, s₀.suite = .x25519 ∧
    k = s₀.cfg.responderEphemeralPriv.getD entropy.ephemeralPriv
  sessionKeys : ∀ k ∈ s.sessionKeys, k = deriveSessionKeysWithResumption C shared a.clientNonce
    (s₀.cfg.responderNonce.getD entropy.nonce)
  finalSession : ∀ f ∈ s.finalSession, f.sessionId = entropy.sessionId ∧
    f.peerDomain = a.serverDomain ∧ f.keys = deriveSessionKeysWithResumption C shared
      a.clientNonce (s₀.cfg.responderNonce.getD entropy.nonce)

/-- The fields are all of the one run that took `data` and sent `bytes`. -/
def Belongs (C : Crypto) (rt : Runtime) (s₀ s : FederationResponder) (data bytes : Bytes) :
    Prop :=
  ∃ t verdict a entropy respEphPub shared, checkInit C rt s₀.cfg data = .ok t ∧
    negotiate s₀.cfg t verdict = .ok a ∧ Ours C s₀ s entropy a respEphPub shared data bytes

/-- The fields of a responder that has answered no INIT. -/
structure Open (s₀ s : FederationResponder) : Prop where
  same : Same s₀ s
  initCanonical : s.initCanonical = none
  finalSession : s.finalSession = none
  respEphPriv : s₀.suite = .pq → s.respEphPriv = none

theorem responderShare_open (entropy : ServerEntropy) (pub : Bytes) :
    Keeps (Open s₀) (responderShare C entropy pub) := by
  intro s h
  rw [responderShare,get_bind]
  cases hsuite : s.suite with
  | pq => exact Keeps.bind (.lift _) (fun _ => .bind (.lift _) fun _ => .pure _) s h
  | x25519 =>
    dsimp only
    rw [modify_bind]
    refine Keeps.bind (.lift _) (fun _ => .bind (.lift _) fun _ => .pure _) _
      ⟨h.same.trans ⟨rfl,rfl,rfl⟩,h.initCanonical,h.finalSession,fun hpq => ?_⟩
    rw [h.same.suite,hpq] at hsuite
    cases hsuite

theorem respond_open (entropy : ServerEntropy) (a : PeerInit) :
    Keeps (Open s₀) (respond C entropy a) := by
  refine .bind .get fun t => .bind (responderShare_open entropy _) fun _ => .bind (.lift _)
    fun _ => .bind (.modify fun s h => ?_) fun _ => .lift _
  exact ⟨h.same.trans ⟨rfl,rfl,rfl⟩,h.initCanonical,h.finalSession,h.respEphPriv⟩

/-- A call that throws answers nothing. -/
theorem finishInit_open_of_error {err : Thrown} (h : (finishInit C t e).call s = (.error err,s'))
    (hs : Open s₀ s) : Open s₀ s' := by
  rw [finishInit,get_bind,call_bind,call_lift] at h
  cases ha : negotiate s.cfg t e.verdict with
  | error err' =>
    rw [ha] at h
    exact (Prod.mk.inj h).2 ▸ hs
  | ok a =>
    rw [ha] at h
    dsimp only at h
    rw [call_bind] at h
    have hkept := respond_open (C := C) e.entropy a s hs
    rcases hr : (respond C e.entropy a).call s with ⟨_ | b,mid⟩
    · rw [hr] at h hkept
      exact (Prod.mk.inj h).2 ▸ hkept
    · rw [hr] at h
      dsimp only at h
      rw [modify_bind,call_pure] at h
      cases (Prod.mk.inj h).1

/-- A call that does not come to answer leaves the fields alone. -/
theorem finishInit_of_refused {err : Thrown} (h : negotiate s.cfg t e.verdict = .error err) :
    (finishInit C t e).call s = (.error err,s) := by
  rw [finishInit,get_bind,call_bind,call_lift,h]

theorem responderShare_writes {entropy : ServerEntropy} {pub : Bytes} {share : Bytes × Bytes}
    (h : (responderShare C entropy pub).call s = (.ok share,s')) :
    shareFor C s.cfg s.suite entropy pub = .ok share ∧ Same s s' ∧
      s'.finalSession = s.finalSession ∧
      (s.suite = .pq → s'.respEphPriv = s.respEphPriv) ∧
      (s.suite = .x25519 → s'.respEphPriv =
        some (s.cfg.responderEphemeralPriv.getD entropy.ephemeralPriv)) := by
  refine ⟨responderShare_ok.mp ⟨s',h⟩,?_⟩
  rw [responderShare,get_bind] at h
  cases hsuite : s.suite with
  | pq =>
    rw [hsuite] at h
    simp only [lift_bind_eq_ok,call_pure,Prod.mk.injEq] at h
    obtain ⟨_,-,_,-,-,rfl⟩ := h
    exact ⟨⟨rfl,rfl,rfl⟩,rfl,fun _ => rfl,fun hx => by cases hx⟩
  | x25519 =>
    rw [hsuite] at h
    simp only [modify_bind,lift_bind_eq_ok,call_pure,Prod.mk.injEq] at h
    obtain ⟨_,-,_,-,-,rfl⟩ := h
    exact ⟨⟨rfl,hsuite.symm ▸ rfl,rfl⟩,rfl,fun hpq => (by cases hpq),fun _ => rfl⟩

/-- What a call that answers leaves in the fields is its own. -/
theorem finishInit_ours (h : (finishInit C t e).call s = (.ok bytes,s')) (hs : Open s₀ s) :
    ∃ a respEphPub shared, negotiate s₀.cfg t e.verdict = .ok a ∧ Same s₀ s' ∧
      Ours C s₀ s' e.entropy a respEphPub shared t.data bytes := by
  rw [finishInit,get_bind] at h
  obtain ⟨a,ha,h⟩ := lift_bind_eq_ok.mp h
  obtain ⟨sent,mid,hrespond,h⟩ := Method.bind_eq_ok.mp h
  rw [modify_bind,call_pure,Prod.mk.injEq,Except.ok.injEq] at h
  obtain ⟨rfl,rfl⟩ := h
  rw [respond,get_bind] at hrespond
  obtain ⟨⟨respEphPub,shared⟩,mid',hshare,hrest⟩ := Method.bind_eq_ok.mp hrespond
  obtain ⟨keyId,hkeyId,hrest⟩ := lift_bind_eq_ok.mp hrest
  rw [modify_bind,lift_eq_ok] at hrest
  obtain ⟨hsent,rfl⟩ := hrest
  obtain ⟨hfor,hsame,hfinal,hpq,hx⟩ := responderShare_writes hshare
  have hback : Same s s₀ := ⟨hs.same.cfg.symm,hs.same.suite.symm,hs.same.keyId.symm⟩
  have hresponse : Response C s e.entropy a respEphPub shared sent := ⟨hfor,keyId,hkeyId,hsent⟩
  refine ⟨a,respEphPub,shared,by rw [← hs.same.cfg]; exact ha,hs.same.trans
    ⟨hsame.cfg,hsame.suite,hsame.keyId⟩,hresponse.congr hback,rfl,rfl,rfl,rfl,?_,?_,?_,?_,?_⟩
  · rintro n ⟨rfl⟩
    rfl
  · rintro n ⟨rfl⟩
    rw [hs.same.cfg]
  · intro k hk
    cases hsuite : s₀.suite with
    | pq =>
      rw [hpq (hs.same.suite.trans hsuite),hs.respEphPriv hsuite] at hk
      cases hk
    | x25519 =>
      rw [hx (hs.same.suite.trans hsuite),hs.same.cfg] at hk
      exact ⟨rfl,(Option.some.inj hk).symm⟩
  · rintro k ⟨rfl⟩
    rw [hs.same.cfg]
  · intro f hf
    rw [hfinal,hs.finalSession] at hf
    cases hf

theorem respond_of_response {entropy : ServerEntropy} {a : PeerInit} {respEphPub shared : Bytes}
    (h : Response C s entropy a respEphPub shared bytes) :
    ∃ u, (respond C entropy a).call s = (.ok bytes,u) := by
  obtain ⟨hshare,keyId,hkeyId,hsent⟩ := h
  obtain ⟨mid,hmid⟩ := responderShare_ok.mpr hshare
  rw [respond,get_bind,bind_of_ok hmid]
  dsimp only
  rw [hkeyId]
  exact ⟨_,by rw [bind_of_ok (call_lift ..),modify_bind,call_lift,hsent]⟩

/-- Nothing that others wrote into the fields keeps a waiting call from answering. -/
theorem finishInit_answers {a : PeerInit} {respEphPub shared : Bytes} (hs : Same s s')
    (hn : negotiate s.cfg t e.verdict = .ok a)
    (hr : Response C s e.entropy a respEphPub shared bytes) :
    ∃ u, (finishInit C t e).call s' = (.ok bytes,u) := by
  obtain ⟨u,hu⟩ := respond_of_response (hr.congr hs)
  rw [finishInit,get_bind,hs.cfg,hn,bind_of_ok (call_lift ..),bind_of_ok hu,modify_bind]
  exact ⟨_,rfl⟩

end Parts

section Calls
variable {C : Crypto} {rt : Runtime} {s₀ s : FederationResponder}
  {issue : Option (SessionKeys → Callback ResumptionTicket)} {data bytes : Bytes}

theorem onConfirm_open (h : Open s₀ s) : ((onConfirm C rt issue data).call s).2 = s := by
  rcases hc : (onConfirm C rt issue data).call s with ⟨err | b,s'⟩
  · exact onConfirm_error hc
  · obtain ⟨keys,hkeys,-,-⟩ := onConfirm_eq_ok.mp hc
    obtain ⟨ms,pub,i,r,-,-,hok⟩ := takeConfirm_eq_ok.mp hkeys
    have := hok.initCanonical
    rw [h.initCanonical] at this
    cases this

/-- The session of a CONFIRM that is accepted is of the run, too. -/
theorem onConfirm_belongs (hs : Same s₀ s) (h : Belongs C rt s₀ s data bytes) (confirm : Bytes) :
    Same s₀ ((onConfirm C rt issue confirm).call s).2 ∧
      Belongs C rt s₀ ((onConfirm C rt issue confirm).call s).2 data bytes := by
  rcases hc : (onConfirm C rt issue confirm).call s with ⟨err | b,s'⟩
  · obtain rfl := onConfirm_error hc
    exact ⟨hs,h⟩
  · obtain ⟨keys,hkeys,-,rfl⟩ := onConfirm_eq_ok.mp hc
    obtain ⟨ms,pub,i,r,hheld,-,-⟩ := takeConfirm_eq_ok.mp hkeys
    obtain ⟨t,verdict,a,entropy,respEphPub,shared,hcheck,hnegotiate,ho⟩ := h
    refine ⟨hs.trans ⟨rfl,rfl,rfl⟩,t,verdict,a,entropy,respEphPub,shared,hcheck,hnegotiate,
      ho.response,ho.initCanonical,ho.respCanonical,ho.sessionId,ho.peerDomain,ho.peerNonce,
      ho.serverNonce,nofun,ho.sessionKeys,?_⟩
    rintro f ⟨rfl⟩
    exact ⟨ho.sessionId,ho.peerDomain,ho.sessionKeys keys hheld⟩

theorem erase_open (h : Open s₀ s) : Open s₀ (erase.call s).2 :=
  ⟨h.same.trans ⟨rfl,rfl,rfl⟩,h.initCanonical,h.finalSession,fun _ => rfl⟩

theorem erase_belongs (hs : Same s₀ s) (h : Belongs C rt s₀ s data bytes) :
    Same s₀ (erase.call s).2 ∧ Belongs C rt s₀ (erase.call s).2 data bytes := by
  obtain ⟨t,verdict,a,entropy,respEphPub,shared,hcheck,hnegotiate,ho⟩ := h
  exact ⟨hs.trans ⟨rfl,rfl,rfl⟩,t,verdict,a,entropy,respEphPub,shared,hcheck,hnegotiate,
    ho.response,ho.initCanonical,ho.respCanonical,ho.sessionId,ho.peerDomain,nofun,nofun,nofun,
    nofun,ho.finalSession⟩

end Calls

section Runs
variable {C : Crypto} {rt : Runtime} {s₀ : FederationResponder} {w w' : World}
  {r : Outcome × FederationResponder} {c : Invocation} {i j : ℕ} {data bytes : Bytes}

theorem succeeded_started : Succeeded (w.started c r) j data bytes ↔ Succeeded w j data bytes ∨
    j = w.calls.length ∧ c = .onInit data ∧ r.1 = .done (.ok bytes) := by
  unfold Succeeded Tasks.World.started
  dsimp only
  rw [List.getElem?_append]
  split
  · next hlt => simp [Nat.ne_of_lt hlt]
  · next hge =>
    have hnone : w.calls[j]? = none := List.getElem?_eq_none (by omega)
    by_cases hj : j = w.calls.length
    · simp [hj]
    · rw [List.getElem?_singleton,if_neg (by omega),hnone]
      simp [hj]

theorem succeeded_resumed {t : PendingInit} (hi : w.calls[i]? = some ⟨c,.awaiting t⟩) :
    Succeeded (w.resumed i c r) j data bytes ↔ Succeeded w j data bytes ∨
      j = i ∧ c = .onInit data ∧ r.1 = .done (.ok bytes) := by
  obtain ⟨hlt,-⟩ := List.getElem?_eq_some_iff.mp hi
  unfold Succeeded Tasks.World.resumed
  dsimp only
  by_cases hj : j = i
  · subst hj
    rw [List.getElem?_set_self hlt,hi]
    simp
  · rw [List.getElem?_set_ne (Ne.symm hj)]
    simp [hj]

/-- What an orderly run keeps: the waiting calls passed the checks, and the fields are those
of the one call that succeeded, if any did. -/
structure Kept (C : Crypto) (rt : Runtime) (s₀ : FederationResponder) (w : World) : Prop where
  waiting : Tasks.Every
    (fun c t => ∃ data, c = .onInit data ∧ checkInit C rt s₀.cfg data = .ok t) w
  outcome : Open s₀ w.fields ∧ (∀ i data bytes, ¬Succeeded w i data bytes) ∨
    ∃ i data bytes, Succeeded w i data bytes ∧
      (∀ j data' bytes', Succeeded w j data' bytes' → j = i) ∧
      Same s₀ w.fields ∧ Belongs C rt s₀ w.fields data bytes

theorem Kept.same (h : Kept C rt s₀ w) : Same s₀ w.fields := by
  rcases h.outcome with ⟨hopen,-⟩ | ⟨_,_,_,-,-,hsame,-⟩
  · exact hopen.same
  · exact hsame

/-- A step after which the same calls have succeeded. -/
theorem Kept.of_same_calls (h : Kept C rt s₀ w) (hwaiting : Tasks.Every
      (fun c t => ∃ data, c = .onInit data ∧ checkInit C rt s₀.cfg data = .ok t) w')
    (hcalls : ∀ j data bytes, Succeeded w' j data bytes ↔ Succeeded w j data bytes)
    (hopen : Open s₀ w.fields → Open s₀ w'.fields)
    (hbelongs : ∀ data bytes, Same s₀ w.fields → Belongs C rt s₀ w.fields data bytes →
      Same s₀ w'.fields ∧ Belongs C rt s₀ w'.fields data bytes) : Kept C rt s₀ w' := by
  refine ⟨hwaiting,?_⟩
  simp only [hcalls]
  rcases h.outcome with ⟨ho,hno⟩ | ⟨i,data,bytes,hi,huniq,hsame,hb⟩
  · exact .inl ⟨hopen ho,hno⟩
  · exact .inr ⟨i,data,bytes,hi,huniq,hbelongs _ _ hsame hb⟩

theorem kept_start (h : Kept C rt s₀ w) (c : Invocation) :
    Kept C rt s₀ (w.started c (start C rt c w.fields)) := by
  cases c with
  | onInit data =>
    rw [start]
    cases hbegin : beginInit C rt w.fields data with
    | ok t =>
      have hcheck := (beginInit_eq_ok.mp hbegin).2
      rw [h.same.cfg] at hcheck
      exact h.of_same_calls (h.waiting.started _ ⟨data,rfl,hcheck⟩)
        (fun j d b => by rw [succeeded_started]; simp) id fun _ _ hs hb => ⟨hs,hb⟩
    | error e =>
      exact h.of_same_calls (h.waiting.started _ trivial)
        (fun j d b => by rw [succeeded_started]; simp) id fun _ _ hs hb => ⟨hs,hb⟩
  | onConfirm issue data =>
    have hfields : (w.started (.onConfirm issue data)
        (start C rt (.onConfirm issue data) w.fields)).fields =
          ((onConfirm C rt issue data).call w.fields).2 := rfl
    refine h.of_same_calls (h.waiting.started _ trivial)
      (fun j d b => by rw [succeeded_started]; simp) (fun ho => ?_) fun d b hs hb => ?_
    · rw [hfields,onConfirm_open ho]
      exact ho
    · rw [hfields]
      exact onConfirm_belongs hs hb data
  | erase =>
    have hfields : (w.started .erase (start C rt .erase w.fields)).fields =
      (erase.call w.fields).2 := rfl
    refine h.of_same_calls (h.waiting.started _ trivial)
      (fun j d b => by rw [succeeded_started]; simp) (fun ho => ?_) fun d b hs hb => ?_
    · rw [hfields]
      exact erase_open ho
    · rw [hfields]
      exact erase_belongs hs hb

theorem kept_resume (h : Kept C rt s₀ w) {t : PendingInit} {e : Surroundings}
    (hi : w.calls[i]? = some ⟨c,.awaiting t⟩) (hok : Orderly w (.resume i e)) :
    Kept C rt s₀ (w.resumed i c (resume C t e w.fields)) := by
  obtain ⟨data,rfl,hcheck⟩ := h.waiting i c t hi
  have hwaiting := h.waiting.resumed i (.onInit data) (r := resume C t e w.fields) trivial
  cases hn : negotiate w.fields.cfg t e.verdict with
  | error err =>
    have hsame : resume C t e w.fields = (.done (.error err),w.fields) := by
      rw [resume,finishInit_of_refused hn]
    rw [hsame] at hwaiting ⊢
    exact h.of_same_calls hwaiting (fun j d b => by rw [succeeded_resumed hi]; simp) id
      fun _ _ hs hb => ⟨hs,hb⟩
  | ok a =>
    have hnone : w.fields.initCanonical = none := by
      rcases hok with hnone | hrefused
      · exact hnone
      · obtain ⟨err,herr⟩ := hrefused _ t hi
        rw [hn] at herr
        cases herr
    rcases h.outcome with ⟨hopen,hno⟩ | ⟨_,_,_,-,-,-,_,_,_,_,_,_,-,-,ho⟩
    · rcases hcall : (finishInit C t e).call w.fields with ⟨err | bytes,s'⟩
      · have hres : resume C t e w.fields = (.done (.error err),s') := by rw [resume,hcall]
        rw [hres] at hwaiting ⊢
        refine ⟨hwaiting,.inl ⟨finishInit_open_of_error hcall hopen,fun j d b => ?_⟩⟩
        rw [succeeded_resumed hi]
        simp [hno]
      · have hres : resume C t e w.fields = (.done (.ok bytes),s') := by rw [resume,hcall]
        obtain ⟨a,respEphPub,shared,hn,hsame,ho⟩ := finishInit_ours hcall hopen
        rw [checkInit_data hcheck] at ho
        rw [hres] at hwaiting ⊢
        refine ⟨hwaiting,.inr ⟨i,data,bytes,(succeeded_resumed hi).mpr (.inr ⟨rfl,rfl,rfl⟩),
          fun j d b hj => ?_,hsame,t,e.verdict,a,e.entropy,respEphPub,shared,hcheck,hn,ho⟩⟩
        rcases (succeeded_resumed hi).mp hj with hj | ⟨rfl,-⟩
        · exact (hno j d b hj).elim
        · rfl
    · rw [ho.initCanonical] at hnone
      cases hnone

theorem kept_step {a : Tasks.Act Invocation Surroundings} (h : Kept C rt s₀ w)
    (hok : Orderly w a) (hs : Tasks.step (object C rt) w a = some w') : Kept C rt s₀ w' := by
  cases a with
  | start c v =>
    obtain rfl := Option.some.inj hs
    exact kept_start h c
  | resume i e =>
    obtain ⟨c,t,hi,rfl⟩ := Tasks.step_resume.mp hs
    exact kept_resume h hi hok

theorem open_new {cfg : FederationResponderConfig} (h : new C cfg = .ok s₀) : Open s₀ s₀ := by
  simp only [new,Semp.bind_eq_ok] at h
  obtain ⟨_,-,_,-,_,-,_,-,_,-,h⟩ := h
  obtain rfl := Except.ok.inj h
  exact ⟨⟨rfl,rfl,rfl⟩,rfl,rfl,fun _ => rfl⟩

/-- In a run where no call goes on to answer after another was answered, one call at most
succeeds, the fields are those of its INIT and of its RESPONSE, and so is what a CONFIRM is
accepted with. -/
theorem one_answer {cfg : FederationResponderConfig} (hnew : new C cfg = .ok s₀)
    (h : Tasks.Reached (object C rt) Orderly ⟨s₀,[]⟩ w) :
    (∀ i j data data' bytes bytes', Succeeded w i data bytes → Succeeded w j data' bytes' →
      i = j) ∧
    (∀ i data bytes, Succeeded w i data bytes → Belongs C rt s₀ w.fields data bytes) ∧
    ∀ confirm keys, takeConfirm C rt w.fields confirm = .ok keys →
      w.fields.sessionKeys = some keys ∧ ∃ i data bytes, Succeeded w i data bytes := by
  have hkept : Kept C rt s₀ w := by
    refine h.inv ⟨?_,.inl ⟨open_new hnew,?_⟩⟩ fun u a u' hu hok hs => kept_step hu hok hs
    · intro i c t hi
      cases hi
    · intro i data bytes hi
      cases hi
  rcases hkept.outcome with ⟨hopen,hno⟩ | ⟨i,data,bytes,hi,huniq,-,hb⟩
  · refine ⟨fun i j d d' b b' hi => (hno i d b hi).elim,fun i d b hi => (hno i d b hi).elim,
      fun confirm keys hconfirm => ?_⟩
    obtain ⟨ms,pub,init,resp,-,-,hok⟩ := takeConfirm_eq_ok.mp hconfirm
    have := hok.initCanonical
    rw [hopen.initCanonical] at this
    cases this
  · refine ⟨fun j k d d' b b' hj hk => (huniq j d b hj).trans (huniq k d' b' hk).symm,
      fun j d b hj => ?_,fun confirm keys hconfirm => ?_⟩
    · obtain rfl := huniq j d b hj
      obtain ⟨⟨rfl⟩,⟨⟨rfl⟩⟩⟩ : (Invocation.onInit data = .onInit d) ∧
          ((.done (.ok bytes) : Outcome) = .done (.ok b)) := by
        simpa using hi.symm.trans hj
      exact hb
    · obtain ⟨ms,pub,init,resp,hkeys,-,-⟩ := takeConfirm_eq_ok.mp hconfirm
      exact ⟨hkeys,i,data,bytes,hi⟩

/-- Two calls with an INIT that can be answered both answer it when the second one starts
before the first one has its verdict. -/
theorem two_answers {cfg : FederationResponderConfig} {t : PendingInit} {e : Surroundings}
    {u : FederationResponder} (hnew : new C cfg = .ok s₀)
    (hbegin : beginInit C rt s₀ data = .ok t)
    (hfinish : (finishInit C t e).call s₀ = (.ok bytes,u)) :
    ∃ w, Tasks.Reached (object C rt) (fun _ _ => True) ⟨s₀,[]⟩ w ∧ Succeeded w 0 data bytes ∧
      Succeeded w 1 data bytes := by
  obtain ⟨a,respEphPub,shared,hn,hsame,ho⟩ := finishInit_ours hfinish (open_new hnew)
  obtain ⟨u',hfinish'⟩ := finishInit_answers hsame hn ho.response
  have hstart : start C rt (.onInit data) s₀ = (.awaiting t,s₀) := by rw [start,hbegin]
  have hresume : resume C t e s₀ = (.done (.ok bytes),u) := by rw [resume,hfinish]
  have hresume' : resume C t e u = (.done (.ok bytes),u') := by rw [resume,hfinish']
  have hrun : Tasks.run (object C rt) ⟨s₀,[]⟩ [.start (.onInit data) e,.start (.onInit data) e,
      .resume 0 e,.resume 1 e] = some ⟨u',[⟨.onInit data,.done (.ok bytes)⟩,
        ⟨.onInit data,.done (.ok bytes)⟩]⟩ := by
    simp [Tasks.run,Tasks.step,Tasks.World.started,Tasks.World.resumed,object,hstart,hresume,
      hresume']
  exact ⟨_,Tasks.reached_of_run hrun fun _ _ _ => trivial,rfl,rfl⟩

end Runs

section Samples

def sampleCapabilities : Capabilities := ⟨[js "x25519-chacha20-poly1305"],[]⟩

def sampleInitiator : FederationInitiatorConfig where
  suite := js "x25519-chacha20-poly1305"
  capabilities := sampleCapabilities
  localDomain := js "a"
  localServerID := js "a"
  localDomainSeed := List.replicate 32 7
  peerDomainPubLookup := fun _ => .ok (List.replicate 32 7)
  peerDomain := js "b"
  domainProof := ⟨.dnsTxt,js "p"⟩
  policyAcceptor := none
  initiatorEphemeralPriv := none
  initiatorNonce := none

/-- The INIT of that initiator. -/
def sampleInit : Js Bytes := do
  let c ← FederationInitiator.new Sample.crypto sampleInitiator
  ((FederationInitiator.init Sample.crypto
    ⟨List.replicate 32 1,[],List.replicate 32 2⟩).call c).1

def sampleConfig : FederationResponderConfig where
  suite := js "x25519-chacha20-poly1305"
  capabilities := sampleCapabilities
  localDomain := js "b"
  localServerID := js "b"
  localDomainSeed := List.replicate 32 7
  peerDomainPubLookup := fun _ => .ok (List.replicate 32 7)
  verifier := none
  policy := ⟨js "7d",.denied,true⟩
  sessionTTL := none
  responderEphemeralPriv := none
  responderHybridRandomness := none
  responderNonce := none

def sampleSurroundings : Surroundings :=
  ⟨.ok (),js "s",List.replicate 32 3,List.replicate 32 4,[],[]⟩

/-- A new responder, the INIT, and what a call keeps and sends for it. -/
def sampleAnswer : Js (FederationResponder × Bytes × PendingInit × Bytes) := do
  let s ← new Sample.crypto sampleConfig
  let data ← sampleInit
  let t ← beginInit Sample.crypto Sample.runtime s data
  let bytes ← ((finishInit Sample.crypto t sampleSurroundings).call s).1
  .ok (s,data,t,bytes)

theorem sampleAnswer_ok : ∃ s₀ data t bytes u, new Sample.crypto sampleConfig = .ok s₀ ∧
    beginInit Sample.crypto Sample.runtime s₀ data = .ok t ∧
    (finishInit Sample.crypto t sampleSurroundings).call s₀ = (.ok bytes,u) := by
  have hok : sampleAnswer.toBool = true := by decide +kernel
  cases hs : sampleAnswer with
  | error err =>
    rw [hs] at hok
    cases hok
  | ok r =>
    obtain ⟨s₀,hnew,hs⟩ := Semp.bind_eq_ok.mp hs
    obtain ⟨data,-,hs⟩ := Semp.bind_eq_ok.mp hs
    obtain ⟨t,hbegin,hs⟩ := Semp.bind_eq_ok.mp hs
    obtain ⟨bytes,hbytes,-⟩ := Semp.bind_eq_ok.mp hs
    exact ⟨s₀,data,t,bytes,_,hnew,hbegin,Prod.ext hbytes rfl⟩

/-- Not every order of the calls leaves one success. -/
theorem not_one_answer : ¬∀ (C : Crypto) (rt : Runtime) (cfg : FederationResponderConfig)
    (s₀ : FederationResponder) (w : World), new C cfg = .ok s₀ →
      Tasks.Reached (object C rt) (fun _ _ => True) ⟨s₀,[]⟩ w →
        ∀ i j data data' bytes bytes', Succeeded w i data bytes → Succeeded w j data' bytes' →
          i = j := by
  intro h
  obtain ⟨s₀,data,t,bytes,u,hnew,hbegin,hfinish⟩ := sampleAnswer_ok
  obtain ⟨w,hreached,h0,h1⟩ := two_answers hnew hbegin hfinish
  have := h _ _ _ s₀ w hnew hreached 0 1 data data bytes bytes h0 h1
  cases this

theorem one_answer_sample : ∃ s₀ w data bytes, new Sample.crypto sampleConfig = .ok s₀ ∧
    Succeeded w 0 data bytes ∧
    (∀ i j data data' bytes bytes', Succeeded w i data bytes → Succeeded w j data' bytes' →
      i = j) ∧
    (∀ i data bytes, Succeeded w i data bytes →
      Belongs Sample.crypto Sample.runtime s₀ w.fields data bytes) ∧
    ∀ confirm keys, takeConfirm Sample.crypto Sample.runtime w.fields confirm = .ok keys →
      w.fields.sessionKeys = some keys ∧ ∃ i data bytes, Succeeded w i data bytes := by
  obtain ⟨s₀,data,t,bytes,u,hnew,hbegin,hfinish⟩ := sampleAnswer_ok
  have hstart : start Sample.crypto Sample.runtime (.onInit data) s₀ = (.awaiting t,s₀) := by
    rw [start,hbegin]
  have hresume : resume Sample.crypto t sampleSurroundings s₀ = (.done (.ok bytes),u) := by
    rw [resume,hfinish]
  let w₁ : World := ⟨s₀,[⟨.onInit data,.awaiting t⟩]⟩
  let w₂ : World := ⟨u,[⟨.onInit data,.done (.ok bytes)⟩]⟩
  have h₁ : Tasks.step (object Sample.crypto Sample.runtime) ⟨s₀,[]⟩
      (.start (.onInit data) sampleSurroundings) = some w₁ := by
    simp [Tasks.step,Tasks.World.started,object,hstart,w₁]
  have h₂ : Tasks.step (object Sample.crypto Sample.runtime) w₁ (.resume 0 sampleSurroundings) =
      some w₂ := by
    simp [Tasks.step,Tasks.World.resumed,object,hresume,w₁,w₂]
  have horderly : Orderly w₁ (.resume 0 sampleSurroundings) :=
    Or.inl (open_new hnew).initCanonical
  have hreached : Tasks.Reached (object Sample.crypto Sample.runtime) Orderly ⟨s₀,[]⟩ w₂ :=
    (Tasks.Reached.refl.tail trivial h₁).tail horderly h₂
  exact ⟨s₀,w₂,data,bytes,hnew,rfl,one_answer hnew hreached⟩

end Samples

end FederationResponder
end Semp
