import Semp.FederationSaid
import Semp.ResponderRun

/-! The exchange of INIT, RESPONSE, CONFIRM and ACCEPTED between two servers that keep to the
federation handshake: each message arrives as it was sent, and the two end with one session. -/
namespace Semp

namespace FederationResponder
open Handshake Federation

theorem new_eq_ok {C : Crypto} {cfg : FederationResponderConfig} {s : FederationResponder} :
    new C cfg = .ok s ↔ ∃ suite pub keyId, Suite.ofName cfg.suite = some suite ∧
      cfg.localDomain ≠ [] ∧ cfg.localDomainSeed.length ≠ 0 ∧
      publicKeyFromSeed C cfg.localDomainSeed = .ok pub ∧ fingerprint C pub = .ok keyId ∧ s = {
        cfg := cfg
        suite := suite
        localDomainKeyId := keyId
        sessionTTL := cfg.sessionTTL.getD (.ofNat 3600)
        sessionId := []
        peerDomain := some (.str [])
        peerNonce := none
        serverNonce := none
        respEphPriv := none
        initCanonical := none
        respCanonical := none
        sessionKeys := none
        finalSession := none } := by
  unfold new
  simp only [bind_eq_ok,need_eq_ok,require_eq_ok,exists_const,Except.ok.injEq,eq_comm (b := s)]
  constructor
  · rintro ⟨suite,hs,h1,h2,pub,hpub,keyId,hk,h⟩
    exact ⟨suite,pub,keyId,hs,h1,h2,hpub,hk,h⟩
  · rintro ⟨suite,pub,keyId,hs,h1,h2,hpub,hk,h⟩
    exact ⟨suite,hs,h1,h2,pub,hpub,keyId,hk,h⟩

/-- An INIT that passes the checks, with a share and a RESPONSE for it, is answered. -/
theorem onInit_of_ok {C : Crypto} {rt : Runtime} {s : FederationResponder}
    {entropy : ServerEntropy} {data bytes respEphPub shared : Bytes} {a : PeerInit}
    (ha : takeInit C rt s data = .ok a) (hr : Response C s entropy a respEphPub shared bytes) :
    ∃ s', (onInit C rt entropy data).call s = (.ok bytes,s') := by
  obtain ⟨mid,hshare⟩ := responderShare_ok.mpr hr.share
  obtain ⟨keyId,hkeyId,hsent⟩ := hr.sent
  obtain ⟨mid',hrespond⟩ : ∃ mid', (respond C entropy a).call s = (.ok bytes,mid') := by
    rw [respond,Method.get_bind,Method.bind_of_ok hshare,Method.call_bind,Method.call_lift,hkeyId]
    dsimp only
    rw [Method.modify_bind,Method.call_lift,hsent]
    exact ⟨_,rfl⟩
  rw [onInit,Method.get_bind,Method.call_bind,Method.call_lift,ha]
  dsimp only
  rw [Method.bind_of_ok hrespond,Method.modify_bind]
  exact ⟨_,rfl⟩

end FederationResponder

namespace Federation
open Handshake Method

section Code
variable (C : Crypto) (rt : Runtime)

/-- INIT, RESPONSE, CONFIRM and ACCEPTED between two servers, unchanged and in order. -/
def exchange (icfg : FederationInitiatorConfig) (ientropy : InitiatorEntropy)
    (rcfg : FederationResponderConfig) (rentropy : ServerEntropy)
    (issueResumptionTicket : Option (SessionKeys → Callback ResumptionTicket)) :
    Js (FederationInitiatorSession × FederationResponderSession) := do
  let i ← FederationInitiator.new C icfg
  let r ← FederationResponder.new C rcfg
  let init ← (FederationInitiator.init C ientropy).proceed i
  let response ← (FederationResponder.onInit C rt rentropy init.1).proceed r
  let confirm ← (FederationInitiator.onResponse C rt response.1).proceed init.2
  let accepted ←
    (FederationResponder.onConfirm C rt issueResumptionTicket confirm.1).proceed response.2
  let done ← (FederationInitiator.onAccepted C rt accepted.1).proceed confirm.2
  let initiator ← FederationInitiator.session.proceed done.2
  let responder ← FederationResponder.session.proceed accepted.2
  .ok (initiator.1,responder.1)

end Code

/-- Both sides hold one session: the same id and keys, and each has the domain of the other. -/
structure Agree (icfg : FederationInitiatorConfig) (rcfg : FederationResponderConfig)
    (i : FederationInitiatorSession) (r : FederationResponderSession) : Prop where
  sessionId : i.sessionId = some (.str r.sessionId)
  keys : i.keys = r.keys
  responder : i.peerDomain = rcfg.localDomain
  initiator : r.peerDomain = some (.str icfg.localDomain)

/-- Two servers that may meet: each resolves the domain key of the other, both are configured
with the suite the responder picks, what they draw has the right sizes, and their callbacks
accept. -/
structure Endpoints (C : Crypto) (icfg : FederationInitiatorConfig) (ientropy : InitiatorEntropy)
    (rcfg : FederationResponderConfig) (rentropy : ServerEntropy)
    (issueResumptionTicket : Option (SessionKeys → Callback ResumptionTicket)) (suite : Suite) :
    Prop where
  known : Suite.ofName icfg.suite = some suite
  same : rcfg.suite = icfg.suite
  picked : rcfg.capabilities.encryptionAlgorithms.find?
    (fun s => decide (s ∈ icfg.capabilities.encryptionAlgorithms)) = some rcfg.suite
  initiatorDomain : icfg.localDomain ≠ []
  initiatorServer : icfg.localServerID ≠ []
  responderDomain : rcfg.localDomain ≠ []
  peer : icfg.peerDomain = rcfg.localDomain
  initiatorKey : ∃ pk, publicKeyFromSeed C icfg.localDomainSeed = .ok pk ∧
    rcfg.peerDomainPubLookup (some (.str icfg.localDomain)) = .ok pk
  responderKey : ∃ pk, publicKeyFromSeed C rcfg.localDomainSeed = .ok pk ∧
    icfg.peerDomainPubLookup rcfg.localDomain = .ok pk
  initiatorPriv : (icfg.initiatorEphemeralPriv.getD ientropy.ephemeralPriv).length = 32
  kyberSeed : ientropy.kyberSeed.length = 64
  unpinned : suite = .pq → icfg.initiatorEphemeralPriv = none
  share : ShareSizes rcfg rentropy suite
  verifies : ∀ verify ∈ rcfg.verifier, ∀ proof nonce,
    verify (some (.str icfg.localDomain)) proof nonce = .ok ()
  accepts : ∀ acceptor ∈ icfg.policyAcceptor, ∀ policy, acceptor policy = .ok none
  issues : ∀ issue ∈ issueResumptionTicket, ∀ keys, ∃ ticket, issue keys = .ok ticket

section Exchange
variable {C : Crypto} {rt : Runtime} {icfg : FederationInitiatorConfig}
  {ientropy : InitiatorEntropy} {rcfg : FederationResponderConfig} {rentropy : ServerEntropy}
  {issue : Option (SessionKeys → Callback ResumptionTicket)} {suite : Suite}
  {c : FederationInitiator} {s : FederationResponder} {ephPriv ephPub nonce init : Bytes}

/-- A public key and its id. -/
theorem fingerprint_ok {b : Bytes} (h : b.length ≠ 0) : ∃ keyId, fingerprint C b = .ok keyId :=
  ⟨_,by rw [fingerprint,if_neg h]⟩

variable (rt) in
/-- The INIT passes the checks of the responder, which reads in it what it says. -/
theorem Endpoints.takes (laws : Laws C)
    (h : Endpoints C icfg ientropy rcfg rentropy issue suite) (hc : c.cfg = icfg)
    (hinit : FederationInitiator.composeInit C c ephPub nonce = .ok init) (hs : s.cfg = rcfg)
    (hnone : s.initCanonical = none) : ∃ a, FederationResponder.takeInit C rt s init = .ok a ∧
      a.serverDomain = some (.str icfg.localDomain) ∧ a.nonce = some (.str (Base64.encode nonce)) ∧
      a.clientNonce = nonce ∧ a.clientEphPub = ephPub ∧ ∀ v ∈ a.method, v.WF := by
  obtain ⟨pk,hpk,hresolved⟩ := h.initiatorKey
  obtain ⟨msg,hwf,hsent,hsaid⟩ := init_sent laws.sig hinit
  obtain ⟨ms,hparse,hmeans,-,hsigned⟩ := sent_read laws.sig hwf hsent
  have hm := hsaid ms hmeans
  rw [hc] at hsigned hm
  obtain ⟨sub,hsub⟩ := hm.domainProof
  refine ⟨⟨.obj ms,some (.str icfg.localDomain),some (.str (Base64.encode nonce)),
    lookup sub (js "method"),ephPub,nonce,rcfg.suite⟩,?_,rfl,rfl,rfl,rfl,?_⟩
  · refine FederationResponder.takeInit_eq_ok.mpr ⟨hnone,ms,pk,hparse,?_⟩
    rw [hs]
    exact {
      message := rfl
      step := hm.step
      domain := hm.domain.symm
      named := by simpa [isStr] using h.initiatorDomain
      resolved := hresolved
      signed := hsigned rt pk hpk
      ephemeral := hm.ephemeral rt
      nonce := hm.nonce.symm
      clientNonce := by rw [base64Decode_str,Base64.decode_encode]
      proof := hm.proof rt pk _ hpk
      method := by rw [hsub,getProp_obj]
      verified := by
        unfold FederationResponder.verifyDomainProof
        cases hv : rcfg.verifier with
        | none => rfl
        | some verify =>
          dsimp only
          rw [h.verifies verify hv]
      picked := ⟨_,hm.offered,by rw [pickSuite_strs,h.picked]⟩
      negotiated := rfl }
  · intro v hv
    exact Json.wf_of_lookup (Json.wf_of_lookup hmeans.wf hsub) hv

variable (rt) in
/-- The RESPONSE goes out, and the two sides share a secret. -/
theorem Endpoints.answers (laws : Laws C)
    (h : Endpoints C icfg ientropy rcfg rentropy issue suite) (hc : c.cfg = icfg)
    (hkeys : Seal.KeysMatch C suite ephPriv ephPub)
    (hinit : FederationInitiator.composeInit C c ephPub nonce = .ok init) (hs : s.cfg = rcfg)
    (hsuite : s.suite = suite) (hnone : s.initCanonical = none) :
    ∃ s' a respEphPub shared keyId response,
      (FederationResponder.onInit C rt rentropy init).call s = (.ok response,s') ∧
      FederationResponder.Answered C s s' rentropy init a shared response ∧
      FederationResponder.composeResponse C s a rentropy.sessionId
        (rcfg.responderNonce.getD rentropy.nonce) respEphPub keyId = .ok response ∧
      clientShared C suite ephPriv respEphPub = .ok shared ∧
      a.serverDomain = some (.str icfg.localDomain) ∧ a.nonce = some (.str (Base64.encode nonce)) ∧
      a.clientNonce = nonce ∧ ∀ v ∈ a.method, v.WF := by
  obtain ⟨a,ha,hdomain,hn,hcn,heph,hm⟩ := h.takes rt laws hc hinit hs hnone
  obtain ⟨share,hshare,hlen⟩ := shareFor_ok laws hkeys h.share
  obtain ⟨keyId,hkeyId⟩ := fingerprint_ok (C := C) hlen
  obtain ⟨pk,hpk,-⟩ := h.responderKey
  have hseed := (publicKeyFromSeed_eq_ok.mp hpk).1
  rw [← hs] at hseed
  have hnwf : ∀ v ∈ a.nonce, v.WF := by
    rw [hn]
    rintro v ⟨rfl⟩
    exact Json.wf_str _
  obtain ⟨response,hsent⟩ := composeResponse_ok rentropy.sessionId keyId
    (s.cfg.responderNonce.getD rentropy.nonce) share.1 laws.sig hseed hnwf hm
  have hresponse : FederationResponder.Response C s rentropy a share.1 share.2 response :=
    ⟨by rw [hs,hsuite,heph]; exact hshare,keyId,hkeyId,hsent⟩
  obtain ⟨s',hcall⟩ := FederationResponder.onInit_of_ok ha hresponse
  obtain ⟨a',_,_,ha',hresponse',hanswered⟩ := FederationResponder.onInit_ok hcall
  obtain rfl : a' = a := Except.ok.inj (ha'.symm.trans ha)
  have hsame := Except.ok.inj (hresponse'.share.symm.trans hresponse.share)
  obtain ⟨rfl,rfl⟩ := Prod.mk.inj hsame
  rw [hs] at hsent
  exact ⟨s',a',share.1,share.2,keyId,response,hcall,hanswered,hsent,
    shareFor_opens laws hkeys hshare,hdomain,hn,hcn,hm⟩

theorem Endpoints.consents (h : Endpoints C icfg ientropy rcfg rentropy issue suite)
    (policy : Option Json) : FederationInitiator.consult icfg policy = .ok none := by
  unfold FederationInitiator.consult
  cases ha : icfg.policyAcceptor with
  | none => rfl
  | some acceptor =>
    dsimp only
    rw [h.accepts acceptor ha]
    rfl

variable (rt) in
/-- The CONFIRM passes the checks of the responder, and the ACCEPTED goes out. -/
theorem Endpoints.grants (laws : Laws C)
    (h : Endpoints C icfg ientropy rcfg rentropy issue suite) {ms : Members} {sessionId : JsString}
    {init response confirm : Bytes} {keys : SessionKeys} (hwf : (Json.obj ms).WF)
    (hbytes : Canonical.canonicalBytes (.obj ms) = response)
    (hsid : lookup ms (js "session_id") = some (.str sessionId))
    (hsent : FederationInitiator.composeConfirm C icfg (.obj ms)
      (confirmationHash C init (Canonical.canonicalBytes (.obj ms))) =
      .ok (some (.str sessionId),confirm))
    (hs : s.cfg = rcfg) (hsession : s.sessionId = sessionId)
    (hpeer : s.peerDomain = some (.str icfg.localDomain)) (hi : s.initCanonical = some init)
    (hr : s.respCanonical = some response) (hkeys : s.sessionKeys = some keys) :
    ∃ accepted, (FederationResponder.onConfirm C rt issue confirm).call s =
        (.ok accepted,FederationResponder.granted s keys) ∧
      FederationResponder.composeAccepted C s issue keys = .ok accepted := by
  obtain ⟨pk,hpk,hresolved⟩ := h.initiatorKey
  obtain ⟨-,msg,reason,hmsg,hsigned,hreason,hsaid⟩ := confirm_sent hwf hsent
  obtain ⟨ns,hparse,hmeans,-,hverifies⟩ := sent_read laws.sig hmsg hsigned
  have hm := hsaid ns hmeans
  obtain rfl : none = reason := Except.ok.inj ((h.consents _).symm.trans hreason)
  have htake : FederationResponder.takeConfirm C rt s confirm = .ok keys :=
    FederationResponder.takeConfirm_eq_ok.mpr ⟨ns,pk,init,response,hkeys,hparse,{
      initCanonical := hi
      respCanonical := hr
      step := hm.step
      sameSession := by
        rw [hsession]
        exact hm.session _ hsid
      resolved := by
        rw [hs,hpeer]
        exact hresolved
      signed := hverifies rt pk hpk
      hash := by rw [hm.hash,base64Decode_str,Base64.decode_encode,hbytes]
      accepted := hm.accepted rfl }⟩
  obtain ⟨ticket,hticket⟩ : ∃ ticket, FederationResponder.issueTicket issue keys = .ok ticket := by
    unfold FederationResponder.issueTicket
    cases hissue : issue with
    | none => exact ⟨none,rfl⟩
    | some f =>
      obtain ⟨ticket,ht⟩ := h.issues f hissue keys
      exact ⟨some ticket,by dsimp only; rw [ht]; rfl⟩
  obtain ⟨rpk,hrpk,-⟩ := h.responderKey
  obtain ⟨accepted,haccepted⟩ : ∃ bytes, FederationResponder.composeAccepted C s issue keys =
      .ok bytes := by
    obtain ⟨_,-,hsent'⟩ := sendSigned_ok laws.sig
      (FederationAccepted.wf ⟨s.sessionId,s.sessionTTL,ticket⟩) (publicKeyFromSeed_eq_ok.mp hrpk).1
    rw [FederationResponder.composeAccepted,hticket,ok_bind,hs]
    exact ⟨_,hsent'⟩
  exact ⟨accepted,FederationResponder.onConfirm_eq_ok.mpr ⟨keys,htake,haccepted,rfl⟩,haccepted⟩

end Exchange

section Samples

def pairInitiator : FederationInitiatorConfig :=
  {FederationResponder.sampleInitiator with
    peerDomainPubLookup := fun _ => .ok (List.replicate 32 8)
    initiatorNonce := some (List.replicate 32 2)}

def pairResponder : FederationResponderConfig :=
  {FederationResponder.sampleConfig with localDomainSeed := List.replicate 32 8}

def pairEntropy (b : UInt8) : InitiatorEntropy :=
  ⟨List.replicate 32 b,List.replicate 64 0,List.replicate 32 0⟩

def pairServerEntropy : ServerEntropy :=
  ⟨js "s",List.replicate 32 3,List.replicate 32 4,List.replicate 32 5,List.replicate 32 6⟩

end Samples

end Federation
end Semp
