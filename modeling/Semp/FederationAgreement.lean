import Semp.FederationExchange
import Semp.FederationTrace
import Mathlib.Logic.Function.Basic

/-! Many parties of the federation handshake, and a network that may reorder, drop, replay and
replace what they send: any party is given any message at any time.  The keys and the names of two
sides that end with one session id agree. -/
namespace Semp
namespace Federation
open Handshake

/-- The configurations of the parties. -/
structure Setup (I R : Type) where
  initiator : I → FederationInitiatorConfig
  responder : R → FederationResponderConfig

/-- The parties in a run. -/
structure Network (I R : Type) where
  initiators : I → FederationInitiator.World
  responders : R → FederationResponder.World

section Code
variable {I R : Type} (C : Crypto) (rt : Runtime)

/-- The public key that verifies what the party signs. -/
def Setup.key (S : Setup I R) : I ⊕ R → Js Bytes
  | .inl i => publicKeyFromSeed C (S.initiator i).localDomainSeed
  | .inr j => publicKeyFromSeed C (S.responder j).localDomainSeed

/-- No party was called. -/
def Network.Opens (S : Setup I R) (net : Network I R) : Prop :=
  (∀ i, ∃ c, FederationInitiator.new C (S.initiator i) = .ok c ∧ net.initiators i = ⟨c,[]⟩) ∧
  ∀ j, ∃ s, FederationResponder.new C (S.responder j) = .ok s ∧ net.responders j = ⟨s,[]⟩

/-- One party starts a call, or goes on with one. -/
inductive Network.Step [DecidableEq I] [DecidableEq R] : Network I R → Network I R → Prop
  | initiator {net : Network I R} {i : I}
      {act : Tasks.Act FederationInitiator.Invocation InitiatorEntropy}
      {w : FederationInitiator.World}
      (h : Tasks.step (FederationInitiator.object C rt) (net.initiators i) act = some w) :
      Step net {net with initiators := Function.update net.initiators i w}
  | responder {net : Network I R} {j : R}
      {act : Tasks.Act FederationResponder.Invocation FederationResponder.Surroundings}
      {w : FederationResponder.World}
      (h : Tasks.step (FederationResponder.object C rt) (net.responders j) act = some w) :
      Step net {net with responders := Function.update net.responders j w}

/-- The networks of the runs of these parties. -/
inductive Network.Reached [DecidableEq I] [DecidableEq R] (S : Setup I R) : Network I R → Prop
  | opens {net : Network I R} (h : net.Opens C S) : Reached S net
  | step {net net' : Network I R} (h : Reached S net) (hs : Network.Step C rt net net') :
      Reached S net'

end Code

section Messages
variable {I R : Type}

/-- Call `k` of the party sent this message. -/
def Network.Sent (net : Network I R) (p : I ⊕ R) (k : ℕ) (ms : Members) : Prop :=
  ∃ bytes, parseJson (Utf8.textDecode bytes) = .ok (.obj ms) ∧ match p with
    | .inl i => ∃ c, Tasks.Ended (net.initiators i).calls k c (.ok bytes)
    | .inr j => ∃ c, Tasks.Ended (net.responders j).calls k c (.ok bytes)

/-- Some party was given this message. -/
def Network.Delivered (net : Network I R) (data : Bytes) : Prop :=
  (∃ i, ∃ call ∈ (net.initiators i).calls, call.args.message = some data) ∨
  ∃ j, ∃ call ∈ (net.responders j).calls, call.args.message = some data

/-- No signature is forged: where one that verifies under the key of a party is delivered, a
party with that key signed the same message. -/
def Network.Unforged (C : Crypto) (rt : Runtime) (S : Setup I R) (net : Network I R) : Prop :=
  ∀ data ms p pk, net.Delivered data → parseJson (Utf8.textDecode data) = .ok (.obj ms) →
    S.key C p = .ok pk → SignedBy C rt pk ms →
      ∃ q k ms', S.key C q = .ok pk ∧ net.Sent q k ms' ∧ signedPart ms = signedPart ms'

/-- No two calls send messages of this step with the same member. -/
def Network.Distinct (net : Network I R) (step : String) (field : JsString) : Prop :=
  ∀ p q k l ms ns v, net.Sent p k ms → net.Sent q l ns → IsStep ms step → IsStep ns step →
    lookup ms field = some v → lookup ns field = some v → p = q ∧ k = l

/-- The key belongs to one of the parties. -/
def Setup.Honest (C : Crypto) (S : Setup I R) (key : Callback Bytes) : Prop :=
  ∀ pk, key = .ok pk → ∃ p, S.key C p = .ok pk

section Signed
variable {C : Crypto} {rt : Runtime} {S : Setup I R} {net : Network I R}

theorem wf_of_parse {data : Bytes} {ms : Members}
    (h : parseJson (Utf8.textDecode data) = .ok (.obj ms)) : (Json.obj ms).WF :=
  JsonText.parse_wf (parseJson_eq_ok.mp h)

/-- The message of a call that has ended with these bytes. -/
theorem Network.Sent.initiator {i : I} {k : ℕ} {c : FederationInitiator.Invocation} {bytes : Bytes}
    {ms ns : Members} (h : net.Sent (.inl i) k ms)
    (hended : Tasks.Ended (net.initiators i).calls k c (.ok bytes))
    (hparse : parseJson (Utf8.textDecode bytes) = .ok (.obj ns)) : ms = ns := by
  obtain ⟨b,hb,d,hd⟩ := h
  obtain ⟨-,he⟩ := hd.unique hended
  obtain rfl := Except.ok.inj he
  exact Json.obj.inj (Except.ok.inj (hb.symm.trans hparse))

theorem Network.Sent.responder {j : R} {k : ℕ} {c : FederationResponder.Invocation} {bytes : Bytes}
    {ms ns : Members} (h : net.Sent (.inr j) k ms)
    (hended : Tasks.Ended (net.responders j).calls k c (.ok bytes))
    (hparse : parseJson (Utf8.textDecode bytes) = .ok (.obj ns)) : ms = ns := by
  obtain ⟨b,hb,d,hd⟩ := h
  obtain ⟨-,he⟩ := hd.unique hended
  obtain rfl := Except.ok.inj he
  exact Json.obj.inj (Except.ok.inj (hb.symm.trans hparse))

/-- A delivered message of this step, with the signature of an honest key and a string that no two
messages of the step share, says what the call that sent this string signed. -/
theorem signed_of_distinct {step : String} {field v : JsString} {data : Bytes}
    {pk : Bytes} {ms ns : Members} {p : I ⊕ R} {k : ℕ} (hforge : net.Unforged C rt S)
    (hdistinct : net.Distinct step field) (hfield : field ≠ js "server_signature")
    (hdelivered : net.Delivered data) (hparse : parseJson (Utf8.textDecode data) = .ok (.obj ms))
    (hhonest : ∃ q, S.key C q = .ok pk) (hsigned : SignedBy C rt pk ms) (hstep : IsStep ms step)
    (hv : lookup ms field = some (.str v)) (hsent : net.Sent p k ns) (hstep' : IsStep ns step)
    (hv' : lookup ns field = some (.str v)) :
    ∃ ns', net.Sent p k ns' ∧ signedPart ms = signedPart ns' := by
  obtain ⟨q,hq⟩ := hhonest
  obtain ⟨q',l,ns',-,hsent',he⟩ := hforge data ms q pk hdelivered hparse hq hsigned
  have hwf : (Json.obj ns').WF := by
    obtain ⟨bytes,hb,-⟩ := hsent'
    exact wf_of_parse hb
  have hmeans : Says ns' ms := ⟨wf_of_parse hparse,he⟩
  obtain ⟨rfl,rfl⟩ := hdistinct q' p l k ns' ns (.str v) hsent' hsent
    ((hmeans.isStep hwf).mp hstep) hstep' ((hmeans.str hwf hfield).mp hv) hv'
  exact ⟨ns',hsent',he⟩

end Signed

end Messages

section Runs
variable {I R : Type} [DecidableEq I] [DecidableEq R] {C : Crypto} {rt : Runtime} {S : Setup I R}
  {net : Network I R}

/-- A run of the network is a run of each party. -/
theorem Network.Reached.initiator (h : net.Reached C rt S) (i : I) :
    ∃ c, FederationInitiator.new C (S.initiator i) = .ok c ∧
      Tasks.Reached (FederationInitiator.object C rt) (fun _ _ => True) ⟨c,[]⟩
        (net.initiators i) := by
  induction h with
  | opens h =>
    obtain ⟨c,hc,hw⟩ := h.1 i
    exact ⟨c,hc,by rw [hw]; exact .refl⟩
  | step _ hs ih =>
    obtain ⟨c,hc,hr⟩ := ih
    refine ⟨c,hc,?_⟩
    cases hs with
    | @initiator k act w h =>
      dsimp only
      by_cases hi : i = k
      · subst hi
        rw [Function.update_self]
        exact hr.tail trivial h
      · rw [Function.update_of_ne hi]
        exact hr
    | responder h => exact hr

theorem Network.Reached.responder (h : net.Reached C rt S) (j : R) :
    ∃ s, FederationResponder.new C (S.responder j) = .ok s ∧
      Tasks.Reached (FederationResponder.object C rt) (fun _ _ => True) ⟨s,[]⟩
        (net.responders j) := by
  induction h with
  | opens h =>
    obtain ⟨s,hs,hw⟩ := h.2 j
    exact ⟨s,hs,by rw [hw]; exact .refl⟩
  | step _ hs ih =>
    obtain ⟨s,hs',hr⟩ := ih
    refine ⟨s,hs',?_⟩
    cases hs with
    | initiator h => exact hr
    | @responder k act w h =>
      dsimp only
      by_cases hj : j = k
      · subst hj
        rw [Function.update_self]
        exact hr.tail trivial h
      · rw [Function.update_of_ne hj]
        exact hr

/-- An initiator and a responder with one session id hold the same keys, and each has the domain
of the other. -/
theorem agree_of_session (laws : Laws C) (h : net.Reached C rt S) (hforge : net.Unforged C rt S)
    (hnonces : net.Distinct "init" (js "nonce"))
    (hids : net.Distinct "response" (js "session_id")) {i : I} {j : R}
    {f : FederationInitiatorSession} {g : FederationResponderSession}
    (hf : (net.initiators i).fields.finalSession = some f)
    (hg : (net.responders j).fields.finalSession = some g)
    (hid : f.sessionId = some (.str g.sessionId)) (hne : g.sessionId ≠ [])
    (hi : S.Honest C ((S.initiator i).peerDomainPubLookup f.peerDomain))
    (hj : S.Honest C ((S.responder j).peerDomainPubLookup g.peerDomain)) :
    Agree (S.initiator i) (S.responder j) f g := by
  obtain ⟨c₀,hnewc,hrunc⟩ := h.initiator i
  obtain ⟨s₀,hnews,hruns⟩ := h.responder j
  obtain ⟨⟨k,ephPriv,ephPub,c,data,ms,pub,respEphPub,a,htook,hkeys,hnamed⟩,hpeer⟩ :=
    (FederationInitiator.kept_run hnewc hrunc).final f hf
  obtain ⟨l,init,response,t,verdict,b,entropy,respEphPub',shared,hended,hreplied,hsid,hpeer',
    hkeys'⟩ := (FederationResponder.traced_run laws.sig hnews hruns).final g hg
  obtain hcfg : c₀.cfg = S.initiator i := by
    obtain ⟨_,_,_,-,-,-,-,-,-,-,rfl⟩ := FederationInitiator.new_eq_ok.mp hnewc
    rfl
  obtain hcfg' : s₀.cfg = S.responder j := by
    obtain ⟨_,_,_,-,-,-,-,-,rfl⟩ := FederationResponder.new_eq_ok.mp hnews
    rfl
  have hr := htook.ok
  -- The RESPONSE that the initiator took is the one the responder holds the keys of.
  obtain ⟨ns,hns,hresponse⟩ := hreplied.said laws.sig
  have hown := hresponse ns (wf_of_parse hns) rfl
  have hsession : lookup ms (js "session_id") = some (.str entropy.sessionId) :=
    hsid ▸ hnamed _ hne hid
  obtain ⟨ns',hsent',he⟩ := signed_of_distinct hforge hids (by decide)
    (.inl ⟨i,htook.delivered⟩) htook.parsed
    (hi pub (by rw [hpeer,← hcfg,← htook.cfg]; exact hr.resolved)) hr.signed hr.step hsession
    (p := .inr j) (k := l) ⟨response,hns,_,hended⟩ hown.step hown.session
  obtain rfl := hsent'.responder hended hns
  have hsaid := hresponse ms (wf_of_parse htook.parsed) he
  -- The INIT that the responder took is the initiator's, for the RESPONSE names its nonce.
  obtain ⟨ms₁,pub₁,hparse₁,hok₁⟩ :=
    FederationResponder.initOk_of_check s₀ hreplied.checked hreplied.negotiated
  obtain ⟨ns₁,hns₁,hinit⟩ := htook.offered.said laws.sig
  have hown₁ := hinit ns₁ (wf_of_parse hns₁) rfl
  have hnonce : b.nonce = some (.str (Base64.encode a.nonce)) := (hsaid.echo _).mp hr.echo
  obtain ⟨ns₁',hsent₁',he₁⟩ := signed_of_distinct hforge hnonces (by decide)
    (.inr ⟨j,_,List.mem_of_getElem? hended,rfl⟩) hparse₁
    (hj pub₁ (by rw [hpeer',← hcfg']; exact hok₁.resolved)) hok₁.signed hok₁.step
    (hok₁.nonce.symm.trans hnonce) (p := .inl i) (k := k)
    ⟨a.initCanonical,hns₁,_,htook.offered.ended⟩ hown₁.step hown₁.nonce
  obtain rfl := hsent₁'.initiator htook.offered.ended hns₁
  have hsaid₁ := hinit ms₁ (wf_of_parse hparse₁) he₁
  -- So the two derive their keys from the same secret and the same nonces.
  have heph : b.clientEphPub = ephPub :=
    Except.ok.inj (hok₁.ephemeral.symm.trans (hsaid₁.ephemeral rt))
  have hcn : b.clientNonce = a.nonce := by
    have hdecoded := hok₁.clientNonce
    rw [hnonce,base64Decode_str,Base64.decode_encode] at hdecoded
    exact (Except.ok.inj hdecoded).symm
  have hsn : a.serverNonce = s₀.cfg.responderNonce.getD entropy.nonce := by
    have hdecoded := hr.serverNonce
    rw [hsaid.nonce,base64Decode_str,Base64.decode_encode] at hdecoded
    exact (Except.ok.inj hdecoded).symm
  have hshared : shared = a.shared := by
    have hopens := shareFor_opens laws (heph ▸ htook.keysMatch) hreplied.response.share
    have htaken := hr.shared
    rw [htook.suite,Except.ok.inj (hr.ephemeral.symm.trans (hsaid.ephemeral rt))] at htaken
    exact Except.ok.inj (hopens.symm.trans htaken)
  refine ⟨hid,?_,?_,?_⟩
  · rw [hkeys,hkeys',FederationInitiator.PeerResponse.keys,hcn,hsn,hshared]
  · rw [hpeer,← hcfg',← htook.cfg]
    exact Json.str.inj (Option.some.inj (hr.domain.symm.trans hsaid.domain))
  · rw [hpeer',← hcfg,hok₁.domain]
    exact hsaid₁.domain

/-- An initiator is called. -/
theorem Network.Reached.called (h : net.Reached C rt S) {i : I} {c c' : FederationInitiator}
    {cs : FederationInitiator.Calls} (hi : net.initiators i = ⟨c,cs⟩)
    {d : FederationInitiator.Invocation} (entropy : InitiatorEntropy) {r : Js Bytes}
    (hcall : (FederationInitiator.invoke C rt d entropy).call c = (r,c')) :
    ∃ net' : Network I R, net'.Reached C rt S ∧ net'.initiators i = ⟨c',cs++[⟨d,.done r⟩]⟩ ∧
      (∀ k, k ≠ i → net'.initiators k = net.initiators k) ∧ net'.responders = net.responders := by
  have hstep : Tasks.step (FederationInitiator.object C rt) (net.initiators i) (.start d entropy) =
      some ⟨c',cs++[⟨d,.done r⟩]⟩ := by
    rw [hi]
    simp only [Tasks.step,Tasks.World.started,FederationInitiator.object,hcall]
  exact ⟨_,h.step (.initiator hstep),Function.update_self ..,
    fun k hk => Function.update_of_ne hk ..,rfl⟩

/-- A responder answers its first INIT, and no other call runs meanwhile. -/
theorem Network.Reached.answered (h : net.Reached C rt S) {j : R} {s s' : FederationResponder}
    (hj : net.responders j = ⟨s,[]⟩) {entropy : ServerEntropy} {data bytes : Bytes}
    (hcall : (FederationResponder.onInit C rt entropy data).call s = (.ok bytes,s')) :
    ∃ net' : Network I R, net'.Reached C rt S ∧ net'.responders j = ⟨s',[⟨.onInit data,.done (.ok bytes)⟩]⟩ ∧
      net'.initiators = net.initiators := by
  rw [FederationResponder.onInit_eq] at hcall
  cases hbegin : FederationResponder.beginInit C rt s data with
  | error e =>
    rw [hbegin] at hcall
    cases (Prod.mk.inj hcall).1
  | ok t =>
    rw [hbegin] at hcall
    dsimp only at hcall
    have hstart : Tasks.step (FederationResponder.object C rt) (net.responders j)
        (.start (.onInit data) ⟨.ok (),entropy⟩) = some ⟨s,[⟨.onInit data,.awaiting t⟩]⟩ := by
      rw [hj]
      simp only [Tasks.step,Tasks.World.started,FederationResponder.object,FederationResponder.start,
        hbegin]
      rfl
    have hmid := h.step (.responder hstart)
    have hresume : Tasks.step (FederationResponder.object C rt)
        (Function.update net.responders j ⟨s,[⟨.onInit data,.awaiting t⟩]⟩ j)
        (.resume 0 ⟨FederationResponder.verdictOf s.cfg t,entropy⟩) =
        some ⟨s',[⟨.onInit data,.done (.ok bytes)⟩]⟩ := by
      rw [Function.update_self]
      refine Tasks.step_resume.mpr ⟨.onInit data,t,rfl,?_⟩
      simp only [Tasks.World.resumed,FederationResponder.object,FederationResponder.resume,hcall]
      rfl
    exact ⟨_,hmid.step (.responder hresume),Function.update_self ..,rfl⟩

/-- A responder takes a CONFIRM. -/
theorem Network.Reached.confirmed (h : net.Reached C rt S) {j : R} {s s' : FederationResponder}
    {cs : FederationResponder.Calls} (hj : net.responders j = ⟨s,cs⟩) {data : Bytes}
    {issue : Option (SessionKeys → Callback ResumptionTicket)} {r : Js Bytes}
    (hcall : (FederationResponder.onConfirm C rt issue data).call s = (r,s')) :
    ∃ net' : Network I R, net'.Reached C rt S ∧
      net'.responders j = ⟨s',cs++[⟨.onConfirm issue data,.done r⟩]⟩ ∧
      net'.initiators = net.initiators := by
  have hstep : Tasks.step (FederationResponder.object C rt) (net.responders j)
      (.start (.onConfirm issue data) ⟨.ok (),[],[],[],[],[]⟩) =
      some ⟨s',cs++[⟨.onConfirm issue data,.done r⟩]⟩ := by
    rw [hj]
    simp only [Tasks.step,Tasks.World.started,FederationResponder.object,FederationResponder.start,
      hcall]
  exact ⟨_,h.step (.responder hstep),Function.update_self ..,rfl⟩

end Runs

section Steps
variable {C : Crypto} {rt : Runtime} {bytes data : Bytes} {ms : Members}

theorem init_isStep (laws : SignLaws C) {c c' : FederationInitiator} {entropy : InitiatorEntropy}
    (h : (FederationInitiator.init C entropy).call c = (.ok bytes,c'))
    (hparse : parseJson (Utf8.textDecode bytes) = .ok (.obj ms)) : IsStep ms "init" := by
  obtain ⟨-,_,_,-,hcomposed,-⟩ := FederationInitiator.init_eq_ok.mp h
  obtain ⟨msg,hwf,hsent,hsaid⟩ := init_sent laws hcomposed
  obtain ⟨ns,hns,hmeans,-,-⟩ := sent_read laws hwf hsent
  obtain rfl := Json.obj.inj (Except.ok.inj (hns.symm.trans hparse))
  exact (hsaid ns hmeans).step

theorem onResponse_isStep (laws : SignLaws C) {c c' : FederationInitiator}
    (h : (FederationInitiator.onResponse C rt data).call c = (.ok bytes,c'))
    (hparse : parseJson (Utf8.textDecode bytes) = .ok (.obj ms)) : IsStep ms "confirm" := by
  cases ha : FederationInitiator.takeResponse C rt c data with
  | error e =>
    rw [FederationInitiator.onResponse_of_error ha] at h
    cases (Prod.mk.inj h).1
  | ok a =>
    obtain ⟨ns,_,_,_,hp,hok⟩ := FederationInitiator.takeResponse_eq_ok.mp ha
    rw [FederationInitiator.onResponse_of_ok ha] at h
    cases hc : FederationInitiator.confirmFor C c a with
    | error e =>
      rw [hc] at h
      cases (Prod.mk.inj h).1
    | ok confirm =>
      rw [hc] at h
      obtain rfl := Except.ok.inj (Prod.mk.inj h).1
      rw [FederationInitiator.confirmFor,hok.message] at hc
      obtain ⟨-,msg,_,hwf,hsent,-,hsaid⟩ := confirm_sent (wf_of_parse hp) hc
      obtain ⟨ns',hns,hmeans,-,-⟩ := sent_read laws hwf hsent
      obtain rfl := Json.obj.inj (Except.ok.inj (hns.symm.trans hparse))
      exact (hsaid ns' hmeans).step

theorem onInit_isStep (laws : SignLaws C) {s s' : FederationResponder} {entropy : ServerEntropy}
    (h : (FederationResponder.onInit C rt entropy data).call s = (.ok bytes,s'))
    (hparse : parseJson (Utf8.textDecode bytes) = .ok (.obj ms)) : IsStep ms "response" := by
  rw [FederationResponder.onInit_eq] at h
  cases hbegin : FederationResponder.beginInit C rt s data with
  | error e =>
    rw [hbegin] at h
    cases (Prod.mk.inj h).1
  | ok t =>
    rw [hbegin] at h
    obtain ⟨a,respEphPub,shared,hn,hresponse,-⟩ := FederationResponder.finishInit_ok h
    have hreplied : FederationResponder.Replied C rt s data bytes t _ a entropy respEphPub shared :=
      ⟨(FederationResponder.beginInit_eq_ok.mp hbegin).2,hn,hresponse⟩
    obtain ⟨ns,hns,hsaid⟩ := hreplied.said laws
    obtain rfl := Json.obj.inj (Except.ok.inj (hns.symm.trans hparse))
    exact (hsaid ns (wf_of_parse hns) rfl).step

theorem onConfirm_isStep (laws : SignLaws C) {s s' : FederationResponder}
    {issue : Option (SessionKeys → Callback ResumptionTicket)}
    (h : (FederationResponder.onConfirm C rt issue data).call s = (.ok bytes,s'))
    (hparse : parseJson (Utf8.textDecode bytes) = .ok (.obj ms)) : IsStep ms "accepted" := by
  obtain ⟨keys,-,hcomposed,-⟩ := FederationResponder.onConfirm_eq_ok.mp h
  obtain ⟨msg,hwf,hsent,hsaid⟩ := accepted_sent hcomposed
  obtain ⟨ns,hns,hmeans,-,-⟩ := sent_read laws hwf hsent
  obtain rfl := Json.obj.inj (Except.ok.inj (hns.symm.trans hparse))
  exact (hsaid ns hmeans).step

/-- A message has one step. -/
theorem IsStep.unique {step step' : String} (h : IsStep ms step) (h' : IsStep ms step') :
    js step = js step' := Json.str.inj (Option.some.inj (h.step.symm.trans h'.step))

end Steps

section Samples

/-- The message has no good signature under the key. -/
def expectUnsigned (pk data : Bytes) : Js Unit := do
  let m ← parseJson (Utf8.textDecode data)
  let signature ← getProp (some m) (js "server_signature")
  let ok ← verifyServerMessage Sample.crypto Sample.runtime m signature pk
  require (ok = false) (js "signed")

/-- What the parties of a replay hold and send: one initiator goes through the handshake, and
another one with the same nonce is given what the responder sent to the first. -/
structure Replay where
  initiator : FederationInitiator
  offered : FederationInitiator
  confirmed : FederationInitiator
  finished : FederationInitiator
  other : FederationInitiator
  keyed : FederationInitiator
  fooled : FederationInitiator
  responder : FederationResponder
  answered : FederationResponder
  granted : FederationResponder
  init : Bytes
  response : Bytes
  confirm : Bytes
  accepted : Bytes
  otherInit : Bytes
  otherConfirm : Bytes
  session : FederationInitiatorSession
  fooledSession : FederationInitiatorSession
  responderSession : FederationResponderSession

def sampleReplay : Js Replay := do
  let c ← FederationInitiator.new Sample.crypto pairInitiator
  let s ← FederationResponder.new Sample.crypto pairResponder
  let init ← (FederationInitiator.init Sample.crypto (pairEntropy 1)).proceed c
  let response ← (FederationResponder.onInit Sample.crypto Sample.runtime pairServerEntropy
    init.1).proceed s
  let confirm ← (FederationInitiator.onResponse Sample.crypto Sample.runtime
    response.1).proceed init.2
  let accepted ← (FederationResponder.onConfirm Sample.crypto Sample.runtime none
    confirm.1).proceed response.2
  let finished ← (FederationInitiator.onAccepted Sample.crypto Sample.runtime
    accepted.1).proceed confirm.2
  let other ← (FederationInitiator.init Sample.crypto (pairEntropy 9)).proceed c
  let keyed ← (FederationInitiator.onResponse Sample.crypto Sample.runtime
    response.1).proceed other.2
  let fooled ← (FederationInitiator.onAccepted Sample.crypto Sample.runtime
    accepted.1).proceed keyed.2
  let f ← FederationInitiator.session.proceed finished.2
  let f' ← FederationInitiator.session.proceed fooled.2
  let g ← FederationResponder.session.proceed accepted.2
  let _ ← expectUnsigned (List.replicate 32 8) init.1
  let _ ← expectUnsigned (List.replicate 32 7) response.1
  let _ ← expectUnsigned (List.replicate 32 8) confirm.1
  let _ ← expectUnsigned (List.replicate 32 7) accepted.1
  require (isStr f.1.sessionId g.1.sessionId ∧ isStr f'.1.sessionId g.1.sessionId ∧
    g.1.sessionId ≠ [] ∧ f'.1.keys ≠ g.1.keys) (js "not fooled")
  .ok ⟨c,init.2,confirm.2,finished.2,other.2,keyed.2,fooled.2,s,response.2,accepted.2,init.1,
    response.1,confirm.1,accepted.1,other.1,keyed.1,f.1,f'.1,g.1⟩

theorem expectUnsigned_eq_ok {pk data : Bytes} {u : Unit} (h : expectUnsigned pk data = .ok u)
    {ms : Members} (hparse : parseJson (Utf8.textDecode data) = .ok (.obj ms)) :
    ¬SignedBy Sample.crypto Sample.runtime pk ms := by
  rw [expectUnsigned,hparse,ok_bind,getProp_obj,ok_bind] at h
  obtain ⟨ok,hok,h⟩ := bind_eq_ok.mp h
  rw [require_eq_ok] at h
  intro hs
  obtain rfl : ok = true := Except.ok.inj (hok.symm.trans hs)
  cases h

/-- What the run of the sample says. -/
structure Replayed (x : Replay) : Prop where
  initiator : FederationInitiator.new Sample.crypto pairInitiator = .ok x.initiator
  responder : FederationResponder.new Sample.crypto pairResponder = .ok x.responder
  init : (FederationInitiator.init Sample.crypto (pairEntropy 1)).call x.initiator =
    (.ok x.init,x.offered)
  response : (FederationResponder.onInit Sample.crypto Sample.runtime pairServerEntropy
    x.init).call x.responder = (.ok x.response,x.answered)
  confirm : (FederationInitiator.onResponse Sample.crypto Sample.runtime x.response).call x.offered =
    (.ok x.confirm,x.confirmed)
  accepted : (FederationResponder.onConfirm Sample.crypto Sample.runtime none
    x.confirm).call x.answered = (.ok x.accepted,x.granted)
  finished : (FederationInitiator.onAccepted Sample.crypto Sample.runtime
    x.accepted).call x.confirmed = (.ok (),x.finished)
  otherInit : (FederationInitiator.init Sample.crypto (pairEntropy 9)).call x.initiator =
    (.ok x.otherInit,x.other)
  otherConfirm : (FederationInitiator.onResponse Sample.crypto Sample.runtime
    x.response).call x.other = (.ok x.otherConfirm,x.keyed)
  fooled : (FederationInitiator.onAccepted Sample.crypto Sample.runtime x.accepted).call x.keyed =
    (.ok (),x.fooled)
  session : x.finished.finalSession = some x.session
  fooledSession : x.fooled.finalSession = some x.fooledSession
  responderSession : x.granted.finalSession = some x.responderSession
  unsigned : ∀ ms,
    (∀ data, data = x.init ∨ data = x.confirm →
      parseJson (Utf8.textDecode data) = .ok (.obj ms) →
      ¬SignedBy Sample.crypto Sample.runtime (List.replicate 32 8) ms) ∧
    ∀ data, data = x.response ∨ data = x.accepted →
      parseJson (Utf8.textDecode data) = .ok (.obj ms) →
      ¬SignedBy Sample.crypto Sample.runtime (List.replicate 32 7) ms
  sameId : x.session.sessionId = some (.str x.responderSession.sessionId)
  fooledId : x.fooledSession.sessionId = some (.str x.responderSession.sessionId)
  named : x.responderSession.sessionId ≠ []
  otherKeys : x.fooledSession.keys ≠ x.responderSession.keys

theorem sampleReplay_ok : ∃ x, Replayed x := by
  have hok : sampleReplay.toBool = true := by decide +kernel
  cases hs : sampleReplay with
  | error err =>
    rw [hs] at hok
    cases hok
  | ok x =>
    obtain ⟨c,hnew,hs⟩ := bind_eq_ok.mp hs
    obtain ⟨s,hnews,hs⟩ := bind_eq_ok.mp hs
    obtain ⟨⟨init,offered⟩,hinit,hs⟩ := bind_eq_ok.mp hs
    obtain ⟨⟨response,answered⟩,hresponse,hs⟩ := bind_eq_ok.mp hs
    obtain ⟨⟨confirm,confirmed⟩,hconfirm,hs⟩ := bind_eq_ok.mp hs
    obtain ⟨⟨accepted,granted⟩,haccepted,hs⟩ := bind_eq_ok.mp hs
    obtain ⟨⟨_,finished⟩,hfinished,hs⟩ := bind_eq_ok.mp hs
    obtain ⟨⟨otherInit,other⟩,hother,hs⟩ := bind_eq_ok.mp hs
    obtain ⟨⟨otherConfirm,keyed⟩,hkeyed,hs⟩ := bind_eq_ok.mp hs
    obtain ⟨⟨_,fooled⟩,hfooled,hs⟩ := bind_eq_ok.mp hs
    obtain ⟨⟨f,_⟩,hf,hs⟩ := bind_eq_ok.mp hs
    obtain ⟨⟨f',_⟩,hf',hs⟩ := bind_eq_ok.mp hs
    obtain ⟨⟨g,_⟩,hg,hs⟩ := bind_eq_ok.mp hs
    rw [Method.proceed_eq_ok] at hinit hresponse hconfirm haccepted hfinished hother
    rw [Method.proceed_eq_ok] at hkeyed hfooled hf hf' hg
    obtain ⟨_,h₁,hs⟩ := bind_eq_ok.mp hs
    obtain ⟨_,h₂,hs⟩ := bind_eq_ok.mp hs
    obtain ⟨_,h₃,hs⟩ := bind_eq_ok.mp hs
    obtain ⟨_,h₄,hs⟩ := bind_eq_ok.mp hs
    obtain ⟨_,hrequire,hs⟩ := bind_eq_ok.mp hs
    obtain ⟨hsame,hfooledId,hnamed,hkeys⟩ := require_eq_ok.mp hrequire
    refine ⟨x,?_⟩
    obtain rfl := Except.ok.inj hs
    exact {
      initiator := hnew
      responder := hnews
      init := hinit
      response := hresponse
      confirm := hconfirm
      accepted := haccepted
      finished := hfinished
      otherInit := hother
      otherConfirm := hkeyed
      fooled := hfooled
      session := (FederationInitiator.session_eq_ok.mp hf).1
      fooledSession := (FederationInitiator.session_eq_ok.mp hf').1
      responderSession := (FederationResponder.session_eq_ok.mp hg).1
      unsigned := by
        refine fun ms => ⟨?_,?_⟩
        · rintro data (rfl | rfl) hparse
          · exact expectUnsigned_eq_ok h₁ hparse
          · exact expectUnsigned_eq_ok h₃ hparse
        · rintro data (rfl | rfl) hparse
          · exact expectUnsigned_eq_ok h₂ hparse
          · exact expectUnsigned_eq_ok h₄ hparse
      sameId := isStr_iff.mp hsame
      fooledId := isStr_iff.mp hfooledId
      named := hnamed
      otherKeys := hkeys }

def pairSetup : Setup Bool Unit := ⟨fun _ => pairInitiator,fun _ => pairResponder⟩

namespace Replay
variable (x : Replay)

/-- The calls of the initiator that the responder answers. -/
def first : FederationInitiator.Calls :=
  [⟨.init,.done (.ok x.init)⟩,⟨.onResponse x.response,.done (.ok x.confirm)⟩,
    ⟨.onAccepted x.accepted,.done (.ok [])⟩]

/-- The calls of the initiator that is given the messages of the first. -/
def second : FederationInitiator.Calls :=
  [⟨.init,.done (.ok x.otherInit)⟩,⟨.onResponse x.response,.done (.ok x.otherConfirm)⟩,
    ⟨.onAccepted x.accepted,.done (.ok [])⟩]

def answers : FederationResponder.Calls :=
  [⟨.onInit x.init,.done (.ok x.response)⟩,⟨.onConfirm none x.confirm,.done (.ok x.accepted)⟩]

end Replay

/-- The network after the handshake, and perhaps after the replay. -/
structure Relayed (x : Replay) (net : Network Bool Unit) : Prop where
  reached : net.Reached Sample.crypto Sample.runtime pairSetup
  first : net.initiators false = ⟨x.finished,x.first⟩
  second : (net.initiators true).calls = [] ∨ (net.initiators true).calls = x.second
  responder : net.responders () = ⟨x.granted,x.answers⟩

section Played
variable {x : Replay} {net : Network Bool Unit}

theorem Replayed.played (h : Replayed x) :
    ∃ net, Relayed x net ∧ net.initiators true = ⟨x.initiator,[]⟩ := by
  have h₀ : (⟨fun _ => ⟨x.initiator,[]⟩,fun _ => ⟨x.responder,[]⟩⟩ : Network Bool Unit).Reached
      Sample.crypto Sample.runtime pairSetup :=
    .opens ⟨fun _ => ⟨_,h.initiator,rfl⟩,fun _ => ⟨_,h.responder,rfl⟩⟩
  obtain ⟨n₁,h₁,hi₁,ho₁,hr₁⟩ := h₀.called (i := false) (d := .init) rfl _ h.init
  obtain ⟨n₂,h₂,hr₂,hi₂⟩ := h₁.answered (j := ()) (by rw [hr₁]) h.response
  obtain ⟨n₃,h₃,hi₃,ho₃,hr₃⟩ := h₂.called (i := false) (d := .onResponse x.response)
    (by rw [hi₂]; exact hi₁) (pairEntropy 1) h.confirm
  obtain ⟨n₄,h₄,hr₄,hi₄⟩ := h₃.confirmed (j := ()) (by rw [hr₃]; exact hr₂) h.accepted
  have hfinished : (FederationInitiator.invoke Sample.crypto Sample.runtime
      (.onAccepted x.accepted) (pairEntropy 1)).call x.confirmed = (.ok [],x.finished) := by
    rw [FederationInitiator.invoke,Method.call_map,h.finished]
    rfl
  obtain ⟨n₅,h₅,hi₅,ho₅,hr₅⟩ := h₄.called (i := false) (by rw [hi₄]; exact hi₃) _ hfinished
  have hother : n₅.initiators true = ⟨x.initiator,[]⟩ := by
    rw [ho₅ true (by decide),hi₄,ho₃ true (by decide),hi₂,ho₁ true (by decide)]
  exact ⟨n₅,⟨h₅,hi₅,.inl (by rw [hother]),by rw [hr₅]; exact hr₄⟩,hother⟩

theorem Replayed.replayed (h : Replayed x) :
    ∃ net, Relayed x net ∧ net.initiators true = ⟨x.fooled,x.second⟩ := by
  obtain ⟨n₀,h₀,hother⟩ := h.played
  obtain ⟨n₁,h₁,hi₁,ho₁,hr₁⟩ := h₀.reached.called (d := .init) hother _ h.otherInit
  obtain ⟨n₂,h₂,hi₂,ho₂,hr₂⟩ := h₁.called (d := .onResponse x.response)
    hi₁ (pairEntropy 9) h.otherConfirm
  have hfooled : (FederationInitiator.invoke Sample.crypto Sample.runtime
      (.onAccepted x.accepted) (pairEntropy 9)).call x.keyed = (.ok [],x.fooled) := by
    rw [FederationInitiator.invoke,Method.call_map,h.fooled]
    rfl
  obtain ⟨n₃,h₃,hi₃,ho₃,hr₃⟩ := h₂.called hi₂ _ hfooled
  refine ⟨n₃,⟨h₃,?_,.inr (by rw [hi₃]; rfl),?_⟩,hi₃⟩
  · rw [ho₃ false (by decide),ho₂ false (by decide),ho₁ false (by decide)]
    exact h₀.first
  · rw [hr₃,hr₂,hr₁]
    exact h₀.responder

theorem not_parse_nil {ms : Members} : parseJson (Utf8.textDecode []) ≠ .ok (.obj ms) := by
  have hnone : (parseJson (Utf8.textDecode [])).toBool = false := by decide +kernel
  intro h
  rw [h] at hnone
  cases hnone

/-- The messages of the network, by their steps. -/
theorem Relayed.steps (hx : Replayed x) (h : Relayed x net) {p : Bool ⊕ Unit} {k : ℕ} {ms : Members}
    (hsent : net.Sent p k ms) : IsStep ms "confirm" ∨ IsStep ms "accepted" ∨
      (p = .inr () ∧ k = 0 ∧ IsStep ms "response") ∨
      (IsStep ms "init" ∧ k = 0 ∧ (p = .inl false ∨
        p = .inl true ∧ (net.initiators true).calls = x.second)) := by
  have laws := Sample.laws.sig
  obtain ⟨bytes,hparse,hended⟩ := hsent
  rcases p with (_ | _) | _
  · obtain ⟨c,hended⟩ := hended
    rw [h.first] at hended
    rcases k with _ | _ | _ | k
    · obtain ⟨rfl,rfl⟩ : c = .init ∧ bytes = x.init := by
        simpa [Tasks.Ended,Replay.first,eq_comm] using hended
      exact .inr (.inr (.inr ⟨init_isStep laws hx.init hparse,rfl,.inl rfl⟩))
    · obtain ⟨rfl,rfl⟩ : c = .onResponse x.response ∧ bytes = x.confirm := by
        simpa [Tasks.Ended,Replay.first,eq_comm] using hended
      exact .inl (onResponse_isStep laws hx.confirm hparse)
    · obtain ⟨rfl,rfl⟩ : c = .onAccepted x.accepted ∧ bytes = [] := by
        simpa [Tasks.Ended,Replay.first,eq_comm] using hended
      exact absurd hparse not_parse_nil
    · simp [Tasks.Ended,Replay.first] at hended
  · obtain ⟨c,hended⟩ := hended
    rcases h.second with hnil | hsecond
    · rw [hnil] at hended
      simp [Tasks.Ended] at hended
    · rw [hsecond] at hended
      rcases k with _ | _ | _ | k
      · obtain ⟨rfl,rfl⟩ : c = .init ∧ bytes = x.otherInit := by
          simpa [Tasks.Ended,Replay.second,eq_comm] using hended
        exact .inr (.inr (.inr ⟨init_isStep laws hx.otherInit hparse,rfl,.inr ⟨rfl,hsecond⟩⟩))
      · obtain ⟨rfl,rfl⟩ : c = .onResponse x.response ∧ bytes = x.otherConfirm := by
          simpa [Tasks.Ended,Replay.second,eq_comm] using hended
        exact .inl (onResponse_isStep laws hx.otherConfirm hparse)
      · obtain ⟨rfl,rfl⟩ : c = .onAccepted x.accepted ∧ bytes = [] := by
          simpa [Tasks.Ended,Replay.second,eq_comm] using hended
        exact absurd hparse not_parse_nil
      · simp [Tasks.Ended,Replay.second] at hended
  · obtain ⟨c,hended⟩ := hended
    rw [h.responder] at hended
    rcases k with _ | _ | k
    · obtain ⟨rfl,rfl⟩ : c = .onInit x.init ∧ bytes = x.response := by
        simpa [Tasks.Ended,Replay.answers,eq_comm] using hended
      exact .inr (.inr (.inl ⟨rfl,rfl,onInit_isStep laws hx.response hparse⟩))
    · obtain ⟨rfl,rfl⟩ : c = .onConfirm none x.confirm ∧ bytes = x.accepted := by
        simpa [Tasks.Ended,Replay.answers,eq_comm] using hended
      exact .inr (.inl (onConfirm_isStep laws hx.accepted hparse))
    · simp [Tasks.Ended,Replay.answers] at hended

theorem Relayed.delivered (h : Relayed x net) {data : Bytes} (hd : net.Delivered data) :
    (data = x.init ∨ data = x.confirm) ∨ data = x.response ∨ data = x.accepted := by
  rcases hd with ⟨_ | _,call,hcall,hdata⟩ | ⟨_,call,hcall,hdata⟩
  · rw [h.first] at hcall
    simp only [Replay.first,List.mem_cons,List.not_mem_nil,or_false] at hcall
    rcases hcall with rfl | rfl | rfl
    · cases hdata
    · exact .inr (.inl (Option.some.inj hdata).symm)
    · exact .inr (.inr (Option.some.inj hdata).symm)
  · rcases h.second with hnil | hsecond
    · rw [hnil] at hcall
      cases hcall
    · rw [hsecond] at hcall
      simp only [Replay.second,List.mem_cons,List.not_mem_nil,or_false] at hcall
      rcases hcall with rfl | rfl | rfl
      · cases hdata
      · exact .inr (.inl (Option.some.inj hdata).symm)
      · exact .inr (.inr (Option.some.inj hdata).symm)
  · rw [h.responder] at hcall
    simp only [Replay.answers,List.mem_cons,List.not_mem_nil,or_false] at hcall
    rcases hcall with rfl | rfl
    · exact .inl (.inl (Option.some.inj hdata).symm)
    · exact .inl (.inr (Option.some.inj hdata).symm)

/-- All that is delivered was sent, and verifies under the key of its sender only. -/
theorem Relayed.unforged (hx : Replayed x) (h : Relayed x net) :
    net.Unforged Sample.crypto Sample.runtime pairSetup := by
  intro data ms p pk hdelivered hparse hpk hsigned
  have hinitiator : pairSetup.key Sample.crypto (.inl false) = .ok (List.replicate 32 7) := rfl
  have hresponder : pairSetup.key Sample.crypto (.inr ()) = .ok (List.replicate 32 8) := rfl
  rcases h.delivered hdelivered with hdata | hdata
  · have hown : pk = List.replicate 32 7 := by
      rcases p with i | j
      · exact (Except.ok.inj hpk).symm
      · obtain rfl := Except.ok.inj hpk
        exact absurd hsigned ((hx.unsigned ms).1 data hdata hparse)
    subst hown
    rcases hdata with rfl | rfl
    · exact ⟨.inl false,0,ms,hinitiator,⟨_,hparse,.init,by rw [h.first]; rfl⟩,rfl⟩
    · exact ⟨.inl false,1,ms,hinitiator,⟨_,hparse,.onResponse x.response,by rw [h.first]; rfl⟩,rfl⟩
  · have hown : pk = List.replicate 32 8 := by
      rcases p with i | j
      · obtain rfl := Except.ok.inj hpk
        exact absurd hsigned ((hx.unsigned ms).2 data hdata hparse)
      · exact (Except.ok.inj hpk).symm
    subst hown
    rcases hdata with rfl | rfl
    · exact ⟨.inr (),0,ms,hresponder,⟨_,hparse,.onInit x.init,by rw [h.responder]; rfl⟩,rfl⟩
    · exact ⟨.inr (),1,ms,hresponder,⟨_,hparse,.onConfirm none x.confirm,by
        rw [h.responder]; rfl⟩,rfl⟩

theorem Relayed.distinctIds (hx : Replayed x) (h : Relayed x net) :
    net.Distinct "response" (js "session_id") := by
  have hone {p : Bool ⊕ Unit} {k : ℕ} {ms : Members} (hsent : net.Sent p k ms)
      (hstep : IsStep ms "response") : p = .inr () ∧ k = 0 := by
    rcases h.steps hx hsent with hs | hs | ⟨hp,hk,-⟩ | ⟨hs,-⟩
    · exact absurd (hstep.unique hs) (by decide)
    · exact absurd (hstep.unique hs) (by decide)
    · exact ⟨hp,hk⟩
    · exact absurd (hstep.unique hs) (by decide)
  intro p q k l ms ns v hp hq hsp hsq _ _
  obtain ⟨rfl,rfl⟩ := hone hp hsp
  obtain ⟨rfl,rfl⟩ := hone hq hsq
  exact ⟨rfl,rfl⟩

theorem Relayed.distinctNonces (hx : Replayed x) (h : Relayed x net)
    (hnil : (net.initiators true).calls = []) : net.Distinct "init" (js "nonce") := by
  have hone {p : Bool ⊕ Unit} {k : ℕ} {ms : Members} (hsent : net.Sent p k ms)
      (hstep : IsStep ms "init") : p = .inl false ∧ k = 0 := by
    rcases h.steps hx hsent with hs | hs | ⟨-,-,hs⟩ | ⟨-,hk,hp | ⟨-,hp⟩⟩
    · exact absurd (hstep.unique hs) (by decide)
    · exact absurd (hstep.unique hs) (by decide)
    · exact absurd (hstep.unique hs) (by decide)
    · exact ⟨hp,hk⟩
    · rw [hnil] at hp
      cases hp
  intro p q k l ms ns v hp hq hsp hsq _ _
  obtain ⟨rfl,rfl⟩ := hone hp hsp
  obtain ⟨rfl,rfl⟩ := hone hq hsq
  exact ⟨rfl,rfl⟩

theorem pairSetup_honest (i : Bool) (j : Unit) (d : JsString) (e : Option Json) :
    pairSetup.Honest Sample.crypto ((pairSetup.initiator i).peerDomainPubLookup d) ∧
      pairSetup.Honest Sample.crypto ((pairSetup.responder j).peerDomainPubLookup e) :=
  ⟨fun pk hpk => ⟨.inr (),by obtain rfl := Except.ok.inj hpk; rfl⟩,
    fun pk hpk => ⟨.inl false,by obtain rfl := Except.ok.inj hpk; rfl⟩⟩

end Played

/-- An honest exchange in a network where each nonce is used once. -/
theorem agree_of_session_sample : ∃ (net : Network Bool Unit) (f : FederationInitiatorSession)
    (g : FederationResponderSession), net.Reached Sample.crypto Sample.runtime pairSetup ∧
      (net.initiators false).fields.finalSession = some f ∧
      (net.responders ()).fields.finalSession = some g ∧
      Agree pairInitiator pairResponder f g := by
  obtain ⟨x,hx⟩ := sampleReplay_ok
  obtain ⟨net,h,hother⟩ := hx.played
  have hf : (net.initiators false).fields.finalSession = some x.session := by
    rw [h.first]
    exact hx.session
  have hg : (net.responders ()).fields.finalSession = some x.responderSession := by
    rw [h.responder]
    exact hx.responderSession
  obtain ⟨hi,hj⟩ := pairSetup_honest false () x.session.peerDomain x.responderSession.peerDomain
  exact ⟨net,x.session,x.responderSession,h.reached,hf,hg,agree_of_session Sample.laws h.reached
    (h.unforged hx) (h.distinctNonces hx (by rw [hother])) (h.distinctIds hx) hf hg hx.sameId
    hx.named hi hj⟩

/-- Where two initiators pin one nonce, a replay gives the second one the session of the first,
under other keys. -/
theorem not_agree_of_repeated_nonce : ¬∀ (C : Crypto) (rt : Runtime) (I R : Type)
    (_ : DecidableEq I) (_ : DecidableEq R) (S : Setup I R) (net : Network I R), Laws C →
      net.Reached C rt S → net.Unforged C rt S → net.Distinct "response" (js "session_id") →
      ∀ i j f g, (net.initiators i).fields.finalSession = some f →
        (net.responders j).fields.finalSession = some g →
        f.sessionId = some (.str g.sessionId) → g.sessionId ≠ [] →
        S.Honest C ((S.initiator i).peerDomainPubLookup f.peerDomain) →
        S.Honest C ((S.responder j).peerDomainPubLookup g.peerDomain) →
        Agree (S.initiator i) (S.responder j) f g := by
  intro hall
  obtain ⟨x,hx⟩ := sampleReplay_ok
  obtain ⟨net,h,hother⟩ := hx.replayed
  have hf : (net.initiators true).fields.finalSession = some x.fooledSession := by
    rw [hother]
    exact hx.fooledSession
  have hg : (net.responders ()).fields.finalSession = some x.responderSession := by
    rw [h.responder]
    exact hx.responderSession
  obtain ⟨hi,hj⟩ :=
    pairSetup_honest true () x.fooledSession.peerDomain x.responderSession.peerDomain
  exact hx.otherKeys (hall Sample.crypto Sample.runtime Bool Unit inferInstance inferInstance
    pairSetup net Sample.laws h.reached (h.unforged hx) (h.distinctIds hx) true () _ _ hf hg
    hx.fooledId hx.named hi hj).keys

end Samples

end Federation
end Semp
