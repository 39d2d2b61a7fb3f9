import Semp.FederationSaid
import Semp.ResponderRun

/-! One party in a run, on any messages: what it sends, and where the keys and the names of its
session come from. -/
namespace Semp

namespace Tasks
variable {σ κ τ ρ : Type} {w : World σ κ τ ρ} {i j : ℕ} {c d : κ} {r : ρ}

/-- Call `i` ended with `r`. -/
def Ended (cs : List (Call κ τ ρ)) (i : ℕ) (c : κ) (r : ρ) : Prop := cs[i]? = some ⟨c,.done r⟩

theorem Ended.unique {cs : List (Call κ τ ρ)} {r' : ρ} (h : Ended cs i c r) (h' : Ended cs i d r') :
    c = d ∧ r = r' := by
  have he := h.symm.trans h'
  simpa using he

theorem ended_started {s : Stage τ ρ × σ} : Ended (w.started d s).calls i c r ↔ Ended w.calls i c r ∨
    i = w.calls.length ∧ d = c ∧ s.1 = .done r := by
  unfold Ended World.started
  dsimp only
  rw [List.getElem?_append]
  split
  · next hlt => simp [Nat.ne_of_lt hlt]
  · next hge =>
    have hnone : w.calls[i]? = none := List.getElem?_eq_none (by omega)
    by_cases hi : i = w.calls.length
    · simp [hi]
    · rw [List.getElem?_singleton,if_neg (by omega),hnone]
      simp [hi]

/-- A call that has ended is not resumed. -/
theorem ended_resumed {t : τ} {s : Stage τ ρ × σ} (hj : w.calls[j]? = some ⟨d,.awaiting t⟩) :
    Ended (w.resumed j d s).calls i c r ↔ Ended w.calls i c r ∨ i = j ∧ d = c ∧ s.1 = .done r := by
  obtain ⟨hlt,-⟩ := List.getElem?_eq_some_iff.mp hj
  unfold Ended World.resumed
  dsimp only
  by_cases hi : i = j
  · subst hi
    rw [List.getElem?_set_self hlt,hj]
    simp
  · rw [List.getElem?_set_ne (Ne.symm hi)]
    simp [hi]

end Tasks

theorem strictEq_str_left {v : Option Json} {s : JsString} :
    strictEq (some (.str s)) v = true ↔ v = some (.str s) := by
  rcases v with _ | v
  · simp [strictEq]
  · cases v with
    | str t => simpa [strictEq] using eq_comm
    | _ => simp [strictEq]

namespace FederationInitiator
open Handshake Federation Method

/-- The calls of the handshake; resuming is another one. -/
inductive Invocation
  | init
  | onResponse (data : Bytes)
  | onAccepted (data : Bytes)
  | erase

/-- The message a call is given. -/
def Invocation.message : Invocation → Option Bytes
  | .init => none
  | .onResponse data => some data
  | .onAccepted data => some data
  | .erase => none

section Code
variable (C : Crypto) (rt : Runtime)

def invoke (c : Invocation) (entropy : InitiatorEntropy) :
    Method Thrown FederationInitiator Bytes :=
  match c with
  | .init => init C entropy
  | .onResponse data => onResponse C rt data
  | .onAccepted data => (fun _ => []) <$> onAccepted C rt data
  | .erase => (fun _ => []) <$> erase

/-- No call of the initiator waits. -/
def object : Tasks.Object FederationInitiator Invocation Empty InitiatorEntropy (Js Bytes) where
  start c entropy s :=
    let r := (invoke C rt c entropy).call s
    (.done r.1,r.2)
  resume t _ _ := t.elim

end Code

abbrev Calls := List (Tasks.Call Invocation Empty (Js Bytes))

abbrev World := Tasks.World FederationInitiator Invocation Empty (Js Bytes)

section Runs
variable {C : Crypto} {rt : Runtime} {c₀ c : FederationInitiator} {w : World}
  {cs : Calls}

/-- Call `k` sent the INIT with this key and this nonce. -/
structure Offered (C : Crypto) (cfg : FederationInitiatorConfig) (cs : Calls) (k : ℕ)
    (ephPub nonce bytes : Bytes) : Prop where
  ended : Tasks.Ended cs k .init (.ok bytes)
  composed : ∃ c, c.cfg = cfg ∧ composeInit C c ephPub nonce = .ok bytes

/-- A RESPONSE to an own INIT was delivered, and passed the checks. -/
structure Took (C : Crypto) (rt : Runtime) (c₀ : FederationInitiator) (cs : Calls) (k : ℕ)
    (ephPriv ephPub : Bytes) (c : FederationInitiator) (data : Bytes) (ms : Members)
    (peerDomainPub respEphPub : Bytes) (a : PeerResponse) : Prop where
  cfg : c.cfg = c₀.cfg
  suite : c.suite = c₀.suite
  offered : Offered C c₀.cfg cs k ephPub a.nonce a.initCanonical
  keysMatch : Seal.KeysMatch C c₀.suite ephPriv ephPub
  delivered : ∃ call ∈ cs, call.args.message = some data
  parsed : parseJson (Utf8.textDecode data) = .ok (.obj ms)
  ok : ResponseOk C rt c ms peerDomainPub ephPriv respEphPub a

/-- The keys are those of a RESPONSE that was taken, and a session id, unless it is empty, is the
one it names. -/
def Keyed (C : Crypto) (rt : Runtime) (c₀ : FederationInitiator) (cs : Calls) (keys : SessionKeys)
    (sessionId : Option Json) : Prop :=
  ∃ k ephPriv ephPub c data ms peerDomainPub respEphPub a,
    Took C rt c₀ cs k ephPriv ephPub c data ms peerDomainPub respEphPub a ∧ keys = a.keys C ∧
    ∀ s, s ≠ [] → sessionId = some (.str s) → lookup ms (js "session_id") = some (.str s)

/-- What a run of an initiator keeps. -/
structure Kept (C : Crypto) (rt : Runtime) (c₀ : FederationInitiator) (w : World) : Prop where
  cfg : w.fields.cfg = c₀.cfg
  suite : w.fields.suite = c₀.suite
  offered : ∀ bytes ∈ w.fields.initCanonical, ∃ k ephPub nonce,
    Offered C c₀.cfg w.calls k ephPub nonce bytes ∧ (∀ n ∈ w.fields.nonce, n = nonce) ∧
    ∀ p ∈ w.fields.ephPriv, Seal.KeysMatch C c₀.suite p ephPub
  unnamed : w.fields.initCanonical = none ∨ w.fields.ephPriv ≠ none →
    w.fields.sessionId = some (.str [])
  keyed : ∀ keys ∈ w.fields.sessionKeys, Keyed C rt c₀ w.calls keys w.fields.sessionId
  final : ∀ f ∈ w.fields.finalSession, Keyed C rt c₀ w.calls f.keys f.sessionId ∧
    f.peerDomain = c₀.cfg.peerDomain

theorem Offered.mono {cfg : FederationInitiatorConfig} {k : ℕ} {ephPub nonce bytes : Bytes}
    (h : Offered C cfg cs k ephPub nonce bytes) (call : Tasks.Call Invocation Empty (Js Bytes)) :
    Offered C cfg (cs++[call]) k ephPub nonce bytes := by
  obtain ⟨hended,hcomposed⟩ := h
  refine ⟨?_,hcomposed⟩
  obtain ⟨hlt,-⟩ := List.getElem?_eq_some_iff.mp hended
  rw [Tasks.Ended,List.getElem?_append_left hlt]
  exact hended

/-- What the INIT on the wire says, and any message that is signed like it. -/
theorem Offered.said (laws : SignLaws C) {cfg : FederationInitiatorConfig} {k : ℕ}
    {ephPub nonce bytes : Bytes} (h : Offered C cfg cs k ephPub nonce bytes) :
    ∃ ns, parseJson (Utf8.textDecode bytes) = .ok (.obj ns) ∧ ∀ ms, (Json.obj ms).WF →
      signedPart ms = signedPart ns → InitSaid C cfg ephPub nonce ms := by
  obtain ⟨-,c,rfl,hcomposed⟩ := h
  obtain ⟨msg,hwf,hsent,hsaid⟩ := init_sent laws hcomposed
  obtain ⟨ns,hparse,hmeans,-,-⟩ := sent_read laws hwf hsent
  exact ⟨ns,hparse,fun ms hms he => hsaid ms ⟨hms,he.trans hmeans.signed⟩⟩

theorem Keyed.mono {keys : SessionKeys} {sessionId : Option Json}
    (h : Keyed C rt c₀ cs keys sessionId) (call : Tasks.Call Invocation Empty (Js Bytes)) :
    Keyed C rt c₀ (cs++[call]) keys sessionId := by
  obtain ⟨k,ephPriv,ephPub,c,data,ms,pub,respEphPub,a,ht,hkeys,hid⟩ := h
  obtain ⟨own,hown,hdata⟩ := ht.delivered
  exact ⟨k,ephPriv,ephPub,c,data,ms,pub,respEphPub,a,⟨ht.cfg,ht.suite,ht.offered.mono call,
    ht.keysMatch,⟨own,List.mem_append_left _ hown,hdata⟩,ht.parsed,ht.ok⟩,hkeys,hid⟩

/-- A call that gives the party no INIT, no keys and no session. -/
theorem Kept.frame (h : Kept C rt c₀ w) {d : Invocation} {r : Js Bytes} {s' : FederationInitiator}
    (hcfg : s'.cfg = w.fields.cfg) (hsuite : s'.suite = w.fields.suite)
    (hinit : s'.initCanonical = w.fields.initCanonical) (hid : s'.sessionId = w.fields.sessionId)
    (hkeys : ∀ k ∈ s'.sessionKeys, k ∈ w.fields.sessionKeys)
    (hfinal : s'.finalSession = w.fields.finalSession) (hsecrets : w.fields.initCanonical = none ∨
      (∀ n ∈ s'.nonce, n ∈ w.fields.nonce) ∧ ∀ p ∈ s'.ephPriv, p ∈ w.fields.ephPriv) :
    Kept C rt c₀ (w.started d (.done r,s')) where
  cfg := hcfg.trans h.cfg
  suite := hsuite.trans h.suite
  offered bytes hb := by
    change bytes ∈ s'.initCanonical at hb
    rw [hinit] at hb
    obtain ⟨k,ephPub,nonce,ho,hn,hp⟩ := h.offered bytes hb
    rcases hsecrets with hnone | ⟨hn',hp'⟩
    · rw [hnone] at hb
      cases hb
    · exact ⟨k,ephPub,nonce,ho.mono _,fun n hmem => hn n (hn' n hmem),
        fun p hmem => hp p (hp' p hmem)⟩
  unnamed hopen := by
    refine hid.trans (h.unnamed ?_)
    rcases hopen with hnone | hpriv
    · exact .inl (hinit.symm.trans hnone)
    · rcases hsecrets with hnone | ⟨-,hp'⟩
      · exact .inl hnone
      · obtain ⟨p,hp⟩ := Option.ne_none_iff_exists'.mp hpriv
        exact .inr (Option.ne_none_iff_exists'.mpr ⟨p,hp' p hp⟩)
  keyed keys hk := by
    have hold := (h.keyed keys (hkeys keys hk)).mono ⟨d,.done r⟩
    rwa [← hid] at hold
  final f hf := by
    change f ∈ s'.finalSession at hf
    rw [hfinal] at hf
    exact ⟨(h.final f hf).1.mono _,(h.final f hf).2⟩

/-- What an `init` that throws leaves alone. -/
structure Quiet (c c' : FederationInitiator) : Prop where
  cfg : c'.cfg = c.cfg
  suite : c'.suite = c.suite
  initCanonical : c'.initCanonical = c.initCanonical
  sessionId : c'.sessionId = c.sessionId
  sessionKeys : c'.sessionKeys = c.sessionKeys
  finalSession : c'.finalSession = c.finalSession

theorem generateEphemeral_quiet (entropy : InitiatorEntropy) :
    Keeps (Quiet c) (generateEphemeral C entropy) := by
  refine .bind .get fun d => ?_
  cases d.suite with
  | pq =>
    exact .bind (.lift _) fun _ => .bind (.lift _) fun _ => .bind (.modify fun _ h =>
      ⟨h.cfg,h.suite,h.initCanonical,h.sessionId,h.sessionKeys,h.finalSession⟩) fun _ => .pure _
  | x25519 =>
    exact .bind (.modify fun _ h =>
      ⟨h.cfg,h.suite,h.initCanonical,h.sessionId,h.sessionKeys,h.finalSession⟩) fun _ =>
      .bind (.lift _) fun _ => .bind (.modify fun _ h =>
        ⟨h.cfg,h.suite,h.initCanonical,h.sessionId,h.sessionKeys,h.finalSession⟩) fun _ => .pure _

theorem prepare_quiet (entropy : InitiatorEntropy) : Keeps (Quiet c) (prepare C entropy) :=
  .bind .get fun _ => .bind (generateEphemeral_quiet entropy) fun _ => .bind (.modify fun _ h =>
    ⟨h.cfg,h.suite,h.initCanonical,h.sessionId,h.sessionKeys,h.finalSession⟩) fun _ => .lift _

theorem init_error {entropy : InitiatorEntropy} {e : Thrown} {c' : FederationInitiator}
    (h : (init C entropy).call c = (.error e,c')) :
    c' = c ∨ c.initCanonical = none ∧ Quiet c c' := by
  rw [init,get_bind,call_bind,call_lift] at h
  by_cases hnone : c.initCanonical = none
  · rw [require_of hnone] at h
    dsimp only at h
    rw [call_bind] at h
    have hkept := prepare_quiet (C := C) entropy c (c := c) ⟨rfl,rfl,rfl,rfl,rfl,rfl⟩
    rcases hp : (prepare C entropy).call c with ⟨_ | b,mid⟩
    · rw [hp] at h hkept
      obtain rfl := (Prod.mk.inj h).2
      exact .inr ⟨hnone,hkept⟩
    · rw [hp] at h
      dsimp only at h
      rw [modify_bind,call_pure] at h
      cases (Prod.mk.inj h).1
  · rw [require,if_neg hnone] at h
    exact .inl (Prod.mk.inj h).2.symm

theorem kept_new {cfg : FederationInitiatorConfig} (h : new C cfg = .ok c₀) :
    Kept C rt c₀ ⟨c₀,[]⟩ := by
  obtain ⟨_,_,_,-,-,-,-,-,-,-,rfl⟩ := new_eq_ok.mp h
  refine ⟨rfl,rfl,?_,fun _ => rfl,?_,?_⟩
  all_goals
    intro x hx
    cases hx

theorem Kept.init (h : Kept C rt c₀ w) (entropy : InitiatorEntropy) :
    Kept C rt c₀ (w.started .init ((object C rt).start .init entropy w.fields)) := by
  change Kept C rt c₀ (w.started .init (.done ((FederationInitiator.init C entropy).call w.fields).1,
    ((FederationInitiator.init C entropy).call w.fields).2))
  rcases hc : (FederationInitiator.init C entropy).call w.fields with ⟨e | bytes,s'⟩
  · dsimp only
    rcases init_error hc with rfl | ⟨hnone,hq⟩
    · exact h.frame rfl rfl rfl rfl (fun _ hk => hk) rfl (.inr ⟨fun _ hn => hn,fun _ hp => hp⟩)
    · exact h.frame hq.cfg hq.suite hq.initCanonical hq.sessionId
        (fun _ hk => hq.sessionKeys ▸ hk) hq.finalSession (.inl hnone)
  · dsimp only
    obtain ⟨hnone,ephPriv,ephPub,hgen,hcomposed,rfl⟩ := init_eq_ok.mp hc
    exact {
      cfg := h.cfg
      suite := h.suite
      offered := by
        rintro b ⟨rfl⟩
        refine ⟨w.calls.length,ephPub,_,⟨Tasks.ended_started.mpr (.inr ⟨rfl,rfl,rfl⟩),w.fields,h.cfg,
          hcomposed⟩,?_,?_⟩
        · rintro n ⟨rfl⟩
          rfl
        · rintro p ⟨rfl⟩
          rw [← h.suite]
          exact hgen.keysMatch
      unnamed := fun _ => h.unnamed (.inl hnone)
      keyed := fun keys hk => (h.keyed keys hk).mono _
      final := fun f hf => ⟨(h.final f hf).1.mono _,(h.final f hf).2⟩ }

/-- The keys of a RESPONSE that was taken are kept, under the id it names or under none. -/
theorem Kept.took (h : Kept C rt c₀ w) {data : Bytes} {a : PeerResponse}
    (ha : takeResponse C rt w.fields data = .ok a) {r : Js Bytes} {s' : FederationInitiator}
    (hs' : s' = FederationInitiator.keyed C w.fields a ∨ ∃ ms, a.message = .obj ms ∧
      s' = {FederationInitiator.keyed C w.fields a with sessionId := lookup ms (js "session_id")}) :
    Kept C rt c₀ (w.started (.onResponse data) (.done r,s')) := by
  obtain ⟨ms,pub,ephPriv,respEphPub,hparse,hok⟩ := takeResponse_eq_ok.mp ha
  obtain ⟨k,ephPub,nonce,ho,hn,hp⟩ := h.offered _ hok.initCanonical
  obtain rfl := hn _ hok.nonce
  have hnamed : w.fields.sessionId = some (.str []) :=
    h.unnamed (.inr (by rw [hok.priv]; exact Option.some_ne_none _))
  have htook : Took C rt c₀ (w.calls++[⟨.onResponse data,.done r⟩]) k ephPriv ephPub w.fields data
      ms pub respEphPub a :=
    ⟨h.cfg,h.suite,ho.mono _,hp _ hok.priv,⟨⟨.onResponse data,.done r⟩,
      List.mem_append_right _ List.mem_cons_self,rfl⟩,hparse,hok⟩
  obtain ⟨hcfg,hsuite,hinit,hnonce,hpriv,hkeys,hfinal,hid⟩ : s'.cfg = w.fields.cfg ∧
      s'.suite = w.fields.suite ∧ s'.initCanonical = w.fields.initCanonical ∧
      s'.nonce = w.fields.nonce ∧ s'.ephPriv = none ∧ s'.sessionKeys = some (a.keys C) ∧
      s'.finalSession = w.fields.finalSession ∧
      (s'.sessionId = some (.str []) ∨ s'.sessionId = lookup ms (js "session_id")) := by
    rcases hs' with rfl | ⟨ms',hm,rfl⟩
    · exact ⟨rfl,rfl,rfl,rfl,rfl,rfl,rfl,.inl hnamed⟩
    · obtain rfl : ms' = ms := Json.obj.inj (hm.symm.trans hok.message)
      exact ⟨rfl,rfl,rfl,rfl,rfl,rfl,rfl,.inr rfl⟩
  exact {
    cfg := hcfg.trans h.cfg
    suite := hsuite.trans h.suite
    offered := fun b hb => by
      change b ∈ s'.initCanonical at hb
      rw [hinit] at hb
      obtain ⟨k',ephPub',nonce',ho',hn',-⟩ := h.offered b hb
      refine ⟨k',ephPub',nonce',ho'.mono _,fun n hmem => hn' n (hnonce ▸ hmem),fun p hmem => ?_⟩
      change p ∈ s'.ephPriv at hmem
      rw [hpriv] at hmem
      cases hmem
    unnamed := fun hopen => by
      change s'.initCanonical = none ∨ s'.ephPriv ≠ none at hopen
      rw [hinit,hok.initCanonical,hpriv] at hopen
      rcases hopen with hopen | hopen
      · cases hopen
      · exact absurd rfl hopen
    keyed := fun keys hk => by
      change keys ∈ s'.sessionKeys at hk
      rw [hkeys] at hk
      obtain rfl := Option.some.inj hk
      refine ⟨k,ephPriv,ephPub,w.fields,data,ms,pub,respEphPub,a,htook,rfl,fun s hs he => ?_⟩
      change s'.sessionId = _ at he
      rcases hid with hid | hid
      · rw [hid] at he
        exact absurd (Json.str.inj (Option.some.inj he)).symm hs
      · exact hid.symm.trans he
    final := fun f hf => by
      change f ∈ s'.finalSession at hf
      rw [hfinal] at hf
      exact ⟨(h.final f hf).1.mono _,(h.final f hf).2⟩ }

theorem Kept.onResponse (h : Kept C rt c₀ w) (data : Bytes) (entropy : InitiatorEntropy) :
    Kept C rt c₀ (w.started (.onResponse data)
      ((object C rt).start (.onResponse data) entropy w.fields)) := by
  change Kept C rt c₀ (w.started (.onResponse data)
    (.done ((FederationInitiator.onResponse C rt data).call w.fields).1,
      ((FederationInitiator.onResponse C rt data).call w.fields).2))
  cases ha : takeResponse C rt w.fields data with
  | error e =>
    rw [onResponse_of_error ha]
    exact h.frame rfl rfl rfl rfl (fun _ hk => hk) rfl
      (.inr ⟨fun _ hn => hn,fun _ hp => hp⟩)
  | ok a =>
    rw [onResponse_of_ok ha]
    cases hconfirm : confirmFor C w.fields a with
    | error e => exact h.took ha (.inl rfl)
    | ok confirm =>
      obtain ⟨ms,_,_,_,hparse,hok⟩ := takeResponse_eq_ok.mp ha
      have hwf : (Json.obj ms).WF := JsonText.parse_wf (parseJson_eq_ok.mp hparse)
      rw [confirmFor,hok.message,h.cfg] at hconfirm
      obtain ⟨sessionId,bytes⟩ := confirm
      obtain ⟨hid,-⟩ := confirm_sent hwf hconfirm
      dsimp only at hid
      subst hid
      exact h.took ha (.inr ⟨ms,hok.message,rfl⟩)

theorem Kept.onAccepted (h : Kept C rt c₀ w) (data : Bytes) (entropy : InitiatorEntropy) :
    Kept C rt c₀ (w.started (.onAccepted data)
      ((object C rt).start (.onAccepted data) entropy w.fields)) := by
  have hcall : (object C rt).start (.onAccepted data) entropy w.fields =
      (.done (((FederationInitiator.onAccepted C rt data).call w.fields).1.map fun _ => []),
        ((FederationInitiator.onAccepted C rt data).call w.fields).2) := by
    simp only [object,invoke,call_map]
  rw [hcall,onAccepted_call]
  cases ha : takeAccepted C rt w.fields data with
  | error e =>
    exact h.frame rfl rfl rfl rfl (fun _ hk => hk) rfl
      (.inr ⟨fun _ hn => hn,fun _ hp => hp⟩)
  | ok f =>
    have hframe : Kept C rt c₀ (w.started (.onAccepted data) (.done (.ok []),w.fields)) :=
      h.frame rfl rfl rfl rfl (fun _ hk => hk) rfl (.inr ⟨fun _ hn => hn,fun _ hp => hp⟩)
    obtain ⟨keys,ms,pub,positive,hkeys,-,hok,rfl⟩ := takeAccepted_eq_ok.mp ha
    refine ⟨hframe.cfg,hframe.suite,hframe.offered,hframe.unnamed,hframe.keyed,?_⟩
    rintro f ⟨rfl⟩
    obtain ⟨k,ephPriv,ephPub,c,d,ms',pub',respEphPub,a,htook,hk,hid⟩ := hframe.keyed keys hkeys
    refine ⟨⟨k,ephPriv,ephPub,c,d,ms',pub',respEphPub,a,htook,hk,fun s hs he => hid s hs ?_⟩,?_⟩
    · have hsame := hok.sameSession
      rw [show lookup ms (js "session_id") = some (.str s) from he,strictEq_str_left] at hsame
      exact hsame
    · exact congrArg FederationInitiatorConfig.peerDomain h.cfg

theorem Kept.erase (h : Kept C rt c₀ w) (entropy : InitiatorEntropy) :
    Kept C rt c₀ (w.started .erase ((object C rt).start .erase entropy w.fields)) := by
  have hcall : (object C rt).start .erase entropy w.fields = (.done (.ok []),{w.fields with
      ephPriv := none, nonce := none, resumptionSecret := none, sessionKeys := none}) := rfl
  rw [hcall]
  exact h.frame rfl rfl rfl rfl (fun _ hk => (by cases hk))
    rfl (.inr ⟨fun _ hn => (by cases hn),fun _ hp => (by cases hp)⟩)

theorem kept_run {cfg : FederationInitiatorConfig} (hnew : new C cfg = .ok c₀)
    (h : Tasks.Reached (object C rt) (fun _ _ => True) ⟨c₀,[]⟩ w) : Kept C rt c₀ w := by
  refine h.inv (kept_new hnew) fun u a u' hu _ hs => ?_
  cases a with
  | start c entropy =>
    obtain rfl := Option.some.inj hs
    cases c with
    | init => exact hu.init entropy
    | onResponse data => exact hu.onResponse data entropy
    | onAccepted data => exact hu.onAccepted data entropy
    | erase => exact hu.erase entropy
  | resume i entropy =>
    obtain ⟨_,t,-,-⟩ := Tasks.step_resume.mp hs
    exact t.elim

end Runs

end FederationInitiator

namespace FederationResponder
open Handshake Federation Method

abbrev Calls := List (Tasks.Call Invocation PendingInit (Js Bytes))

/-- The message a call is given. -/
def Invocation.message : Invocation → Option Bytes
  | .onInit data => some data
  | .onConfirm _ data => some data
  | .erase => none

section Runs
variable {C : Crypto} {rt : Runtime} {s₀ s s' : FederationResponder} {w : World}
  {cs : Calls} {t : PendingInit} {e : Surroundings} {bytes : Bytes}

/-- The INIT passed the checks, and the RESPONSE to it went out. -/
structure Replied (C : Crypto) (rt : Runtime) (s₀ : FederationResponder) (data bytes : Bytes)
    (t : PendingInit) (verdict : Callback Unit) (a : PeerInit) (entropy : ServerEntropy)
    (respEphPub shared : Bytes) : Prop where
  checked : checkInit C rt s₀.cfg data = .ok t
  negotiated : negotiate s₀.cfg t verdict = .ok a
  response : Response C s₀ entropy a respEphPub shared bytes

/-- The session id, the name of the peer and the keys are those of one RESPONSE that went out. -/
def Keyed (C : Crypto) (rt : Runtime) (s₀ : FederationResponder) (cs : Calls)
    (sessionId : JsString) (peerDomain : Option Json) (keys : SessionKeys) : Prop :=
  ∃ k data bytes t verdict a entropy respEphPub shared,
    Tasks.Ended cs k (.onInit data) (.ok bytes) ∧
    Replied C rt s₀ data bytes t verdict a entropy respEphPub shared ∧
    sessionId = entropy.sessionId ∧ peerDomain = a.serverDomain ∧
    keys = deriveSessionKeysWithResumption C shared a.clientNonce
      (s₀.cfg.responderNonce.getD entropy.nonce)

/-- What a run of a responder keeps, whichever calls wait meanwhile. -/
structure Traced (C : Crypto) (rt : Runtime) (s₀ : FederationResponder) (w : World) : Prop where
  same : Same s₀ w.fields
  waiting : Tasks.Every
    (fun c t => ∃ data, c = .onInit data ∧ checkInit C rt s₀.cfg data = .ok t) w
  keyed : w.fields.initCanonical ≠ none → ∀ keys ∈ w.fields.sessionKeys,
    Keyed C rt s₀ w.calls w.fields.sessionId w.fields.peerDomain keys
  final : ∀ f ∈ w.fields.finalSession, Keyed C rt s₀ w.calls f.sessionId f.peerDomain f.keys

/-- The calls that have ended stay as they are. -/
def Grows (cs cs' : Calls) : Prop :=
  ∀ k c r, Tasks.Ended cs k c r → Tasks.Ended cs' k c r

theorem Keyed.mono {sessionId : JsString} {peerDomain : Option Json} {keys : SessionKeys}
    {cs' : Calls} (h : Keyed C rt s₀ cs sessionId peerDomain keys) (hg : Grows cs cs') :
    Keyed C rt s₀ cs' sessionId peerDomain keys := by
  obtain ⟨k,data,bytes,t,verdict,a,entropy,respEphPub,shared,he,hr,hid,hpeer,hkeys⟩ := h
  exact ⟨k,data,bytes,t,verdict,a,entropy,respEphPub,shared,hg k _ _ he,hr,hid,hpeer,hkeys⟩

theorem wf_of_getProp {v r : Option Json} {k : JsString} (h : getProp v k = .ok r)
    (hv : ∀ x ∈ v, x.WF) : ∀ x ∈ r, x.WF := by
  intro x hx
  unfold getProp at h
  split at h
  · cases h
  · cases h
  · obtain rfl := Except.ok.inj h
    exact Json.wf_of_lookup (hv _ rfl) hx
  · obtain rfl := Except.ok.inj h
    cases hx

/-- The parts of the INIT are well formed. -/
theorem wf_of_check (s : FederationResponder) {data : Bytes} {cfg : FederationResponderConfig}
    {verdict : Callback Unit} {a : PeerInit} (hcheck : checkInit C rt cfg data = .ok t)
    (hn : negotiate cfg t verdict = .ok a) : (∀ v ∈ a.nonce, v.WF) ∧ ∀ v ∈ a.method, v.WF := by
  obtain ⟨ms,pub,hparse,hok⟩ := initOk_of_check s hcheck hn
  have hwf : (Json.obj ms).WF := JsonText.parse_wf (parseJson_eq_ok.mp hparse)
  refine ⟨fun v hv => ?_,wf_of_getProp hok.method fun v hv => Json.wf_of_lookup hwf hv⟩
  rw [hok.nonce] at hv
  exact Json.wf_of_lookup hwf hv

/-- What the RESPONSE on the wire says, and any message that is signed like it. -/
theorem Replied.said (laws : SignLaws C) {data : Bytes} {verdict : Callback Unit} {a : PeerInit}
    {entropy : ServerEntropy} {respEphPub shared : Bytes}
    (h : Replied C rt s₀ data bytes t verdict a entropy respEphPub shared) :
    ∃ ns, parseJson (Utf8.textDecode bytes) = .ok (.obj ns) ∧ ∀ ms, (Json.obj ms).WF →
      signedPart ms = signedPart ns → ResponseSaid C s₀.cfg a entropy.sessionId
        (s₀.cfg.responderNonce.getD entropy.nonce) respEphPub ms := by
  obtain ⟨hn,hm⟩ := wf_of_check s₀ h.checked h.negotiated
  obtain ⟨keyId,-,hcomposed⟩ := h.response.sent
  obtain ⟨msg,hwf,hsent,hsaid⟩ := response_sent laws hn hm hcomposed
  obtain ⟨ns,hparse,hmeans,-,-⟩ := sent_read laws hwf hsent
  exact ⟨ns,hparse,fun ms hms he => hsaid ms ⟨hms,he.trans hmeans.signed⟩⟩

/-- What an INIT that is not answered leaves alone, when the RESPONSE can be signed. -/
structure Quiet (s s' : FederationResponder) : Prop where
  same : Same s s'
  initCanonical : s'.initCanonical = s.initCanonical
  sessionId : s'.sessionId = s.sessionId
  peerDomain : s'.peerDomain = s.peerDomain
  sessionKeys : s'.sessionKeys = s.sessionKeys
  finalSession : s'.finalSession = s.finalSession

theorem Quiet.refl : Quiet s s := ⟨⟨rfl,rfl,rfl⟩,rfl,rfl,rfl,rfl,rfl⟩

theorem responderShare_quiet (entropy : ServerEntropy) (pub : Bytes) :
    Keeps (Quiet s) (responderShare C entropy pub) := by
  refine .bind .get fun u => ?_
  cases u.suite with
  | pq => exact .bind (.lift _) fun _ => .bind (.lift _) fun _ => .pure _
  | x25519 =>
    exact .bind (.modify fun _ h => ⟨h.same.trans ⟨rfl,rfl,rfl⟩,h.initCanonical,h.sessionId,
      h.peerDomain,h.sessionKeys,h.finalSession⟩) fun _ => .bind (.lift _) fun _ =>
      .bind (.lift _) fun _ => .pure _

/-- A `respond` that throws does so before it writes the session. -/
theorem respond_error (laws : SignLaws C) (hseed : s.cfg.localDomainSeed.length = 32)
    {entropy : ServerEntropy} {a : PeerInit} (hn : ∀ v ∈ a.nonce, v.WF) (hm : ∀ v ∈ a.method, v.WF)
    {err : Thrown} (h : (respond C entropy a).call s = (.error err,s')) : Quiet s s' := by
  rw [respond,get_bind,call_bind] at h
  have hkept := responderShare_quiet (C := C) entropy a.clientEphPub s (s := s) .refl
  rcases hr : (responderShare C entropy a.clientEphPub).call s with ⟨_ | share,mid⟩
  · rw [hr] at h hkept
    exact (Prod.mk.inj h).2 ▸ hkept
  · rw [hr] at h hkept
    dsimp only at h
    rw [call_bind,call_lift] at h
    cases hf : fingerprint C share.1 with
    | error e' =>
      rw [hf] at h
      exact (Prod.mk.inj h).2 ▸ hkept
    | ok keyId =>
      rw [hf] at h
      dsimp only at h
      rw [modify_bind,call_lift] at h
      obtain ⟨b,hb⟩ := composeResponse_ok entropy.sessionId keyId
        (s.cfg.responderNonce.getD entropy.nonce) share.1 laws hseed hn hm
      rw [hb] at h
      cases (Prod.mk.inj h).1

theorem respond_same (entropy : ServerEntropy) (a : PeerInit) :
    Keeps (fun u => Same s u ∧ u.finalSession = s.finalSession) (respond C entropy a) := by
  refine .bind .get fun _ => .bind (fun u hu => ?_) fun _ => .bind (.lift _) fun _ =>
    .bind (.modify fun u hu => ⟨hu.1.trans ⟨rfl,rfl,rfl⟩,hu.2⟩) fun _ => .lift _
  have hq := responderShare_quiet (C := C) (s := u) entropy a.clientEphPub u .refl
  exact ⟨hu.1.trans hq.same,hq.finalSession.trans hu.2⟩

/-- What an answered INIT writes. -/
theorem finishInit_ok (h : (finishInit C t e).call s = (.ok bytes,s')) :
    ∃ a respEphPub shared, negotiate s.cfg t e.verdict = .ok a ∧
      Response C s e.entropy a respEphPub shared bytes ∧ Same s s' ∧
      s'.sessionId = e.entropy.sessionId ∧ s'.peerDomain = a.serverDomain ∧
      s'.sessionKeys = some (deriveSessionKeysWithResumption C shared a.clientNonce
        (s.cfg.responderNonce.getD e.entropy.nonce)) ∧ s'.finalSession = s.finalSession := by
  rw [finishInit,get_bind] at h
  obtain ⟨a,ha,h⟩ := lift_bind_eq_ok.mp h
  obtain ⟨sent,mid,hrespond,h⟩ := Method.bind_eq_ok.mp h
  rw [modify_bind,call_pure,Prod.mk.injEq,Except.ok.injEq] at h
  obtain ⟨rfl,rfl⟩ := h
  obtain ⟨respEphPub,shared,hresp,hid,hkeys⟩ := respond_ok hrespond
  have hsame := respond_same (C := C) e.entropy a s (s := s) ⟨⟨rfl,rfl,rfl⟩,rfl⟩
  rw [hrespond] at hsame
  exact ⟨a,respEphPub,shared,ha,hresp,hsame.1.trans ⟨rfl,rfl,rfl⟩,hid,rfl,hkeys,hsame.2⟩

/-- A waiting call that throws. -/
theorem finishInit_error (laws : SignLaws C) (hseed : s.cfg.localDomainSeed.length = 32)
    {data : Bytes} (hcheck : checkInit C rt s.cfg data = .ok t) {err : Thrown}
    (h : (finishInit C t e).call s = (.error err,s')) : Quiet s s' := by
  rw [finishInit,get_bind,call_bind,call_lift] at h
  cases ha : negotiate s.cfg t e.verdict with
  | error err' =>
    rw [ha] at h
    exact (Prod.mk.inj h).2 ▸ .refl
  | ok a =>
    rw [ha] at h
    dsimp only at h
    rw [call_bind] at h
    obtain ⟨hn,hm⟩ := wf_of_check s hcheck ha
    rcases hr : (respond C e.entropy a).call s with ⟨err' | b,mid⟩
    · rw [hr] at h
      exact (Prod.mk.inj h).2 ▸ respond_error laws hseed hn hm hr
    · rw [hr] at h
      dsimp only at h
      rw [modify_bind,call_pure] at h
      cases (Prod.mk.inj h).1

theorem traced_new {cfg : FederationResponderConfig} (h : new C cfg = .ok s₀) :
    Traced C rt s₀ ⟨s₀,[]⟩ := by
  have hopen := open_new h
  refine ⟨⟨rfl,rfl,rfl⟩,?_,fun hno => absurd hopen.initCanonical hno,?_⟩
  · intro i c t hi
    cases hi
  · intro f hf
    rw [hopen.finalSession] at hf
    cases hf

/-- A step that answers no INIT and finishes no session. -/
theorem Traced.frame (h : Traced C rt s₀ w) {w' : World} (hwaiting : Tasks.Every
      (fun c t => ∃ data, c = .onInit data ∧ checkInit C rt s₀.cfg data = .ok t) w')
    (hg : Grows w.calls w'.calls) (hsame : Same w.fields w'.fields)
    (hinit : w'.fields.initCanonical = w.fields.initCanonical)
    (hid : w'.fields.sessionId = w.fields.sessionId)
    (hpeer : w'.fields.peerDomain = w.fields.peerDomain)
    (hkeys : ∀ k ∈ w'.fields.sessionKeys, k ∈ w.fields.sessionKeys)
    (hfinal : w'.fields.finalSession = w.fields.finalSession) : Traced C rt s₀ w' where
  same := h.same.trans hsame
  waiting := hwaiting
  keyed hne keys hk := by
    rw [hid,hpeer]
    exact (h.keyed (hinit ▸ hne) keys (hkeys keys hk)).mono hg
  final f hf := (h.final f (hfinal ▸ hf)).mono hg

theorem grows_started {c : Invocation} {r : Outcome × FederationResponder} :
    Grows w.calls (w.started c r).calls :=
  fun _ _ _ he => Tasks.ended_started.mpr (.inl he)

theorem Traced.start (h : Traced C rt s₀ w) (c : Invocation) :
    Traced C rt s₀ (w.started c (FederationResponder.start C rt c w.fields)) := by
  cases c with
  | onInit data =>
    rw [FederationResponder.start]
    cases hbegin : beginInit C rt w.fields data with
    | ok t =>
      have hcheck := (beginInit_eq_ok.mp hbegin).2
      rw [h.same.cfg] at hcheck
      exact h.frame (h.waiting.started _ ⟨data,rfl,hcheck⟩) grows_started ⟨rfl,rfl,rfl⟩ rfl rfl rfl
        (fun _ hk => hk) rfl
    | error err =>
      exact h.frame (h.waiting.started _ trivial) grows_started ⟨rfl,rfl,rfl⟩ rfl rfl rfl
        (fun _ hk => hk) rfl
  | onConfirm issue data =>
    rw [FederationResponder.start]
    rcases hc : (onConfirm C rt issue data).call w.fields with ⟨err | bytes,s'⟩
    · obtain rfl := onConfirm_error hc
      exact h.frame (h.waiting.started _ trivial) grows_started ⟨rfl,rfl,rfl⟩ rfl rfl rfl
        (fun _ hk => hk) rfl
    · obtain ⟨keys,htake,-,rfl⟩ := onConfirm_eq_ok.mp hc
      obtain ⟨ms,pub,i,r,hheld,-,hok⟩ := takeConfirm_eq_ok.mp htake
      have hframe : Traced C rt s₀ (w.started (.onConfirm issue data) (.done (.ok bytes),w.fields)) :=
        h.frame (h.waiting.started _ trivial) grows_started ⟨rfl,rfl,rfl⟩ rfl rfl rfl
          (fun _ hk => hk) rfl
      refine ⟨hframe.same.trans ⟨rfl,rfl,rfl⟩,hframe.waiting,hframe.keyed,?_⟩
      rintro f ⟨rfl⟩
      exact hframe.keyed (by
        change w.fields.initCanonical ≠ none
        rw [hok.initCanonical]
        exact Option.some_ne_none _) keys hheld
  | erase =>
    exact h.frame (h.waiting.started _ trivial) grows_started ⟨rfl,rfl,rfl⟩ rfl rfl rfl
      (fun _ hk => (by cases hk)) rfl

theorem Traced.resume (h : Traced C rt s₀ w) (laws : SignLaws C)
    (hseed : s₀.cfg.localDomainSeed.length = 32) {i : ℕ} {c : Invocation} {t : PendingInit}
    (e : Surroundings) (hi : w.calls[i]? = some ⟨c,.awaiting t⟩) :
    Traced C rt s₀ (w.resumed i c (FederationResponder.resume C t e w.fields)) := by
  obtain ⟨data,rfl,hcheck⟩ := h.waiting i c t hi
  have hg {r : Outcome × FederationResponder} :
      Grows w.calls (w.resumed i (.onInit data) r).calls :=
    fun _ _ _ he => (Tasks.ended_resumed hi).mpr (.inl he)
  rw [FederationResponder.resume]
  rcases hcall : (finishInit C t e).call w.fields with ⟨err | bytes,s'⟩
  · have hq := finishInit_error laws (by rw [h.same.cfg]; exact hseed)
      (by rw [h.same.cfg]; exact hcheck) hcall
    exact h.frame (h.waiting.resumed _ _ trivial) hg hq.same hq.initCanonical hq.sessionId
      hq.peerDomain (fun _ hk => hq.sessionKeys ▸ hk) hq.finalSession
  · obtain ⟨a,respEphPub,shared,hn,hresp,hsame,hid,hpeer,hkeys,hfinal⟩ := finishInit_ok hcall
    have hback : Same w.fields s₀ := ⟨h.same.cfg.symm,h.same.suite.symm,h.same.keyId.symm⟩
    rw [h.same.cfg] at hn hkeys
    have hreplied : Replied C rt s₀ data bytes t e.verdict a e.entropy respEphPub shared :=
      ⟨hcheck,hn,hresp.congr hback⟩
    refine ⟨h.same.trans hsame,h.waiting.resumed _ _ trivial,fun _ keys hk => ?_,
      fun f hf => ?_⟩
    · change keys ∈ s'.sessionKeys at hk
      rw [hkeys] at hk
      exact ⟨i,data,bytes,t,e.verdict,a,e.entropy,respEphPub,shared,
        (Tasks.ended_resumed hi).mpr (.inr ⟨rfl,rfl,rfl⟩),hreplied,hid,hpeer,
        (Option.some.inj hk).symm⟩
    · exact (h.final f (hfinal ▸ hf)).mono hg

theorem traced_run (laws : SignLaws C) {cfg : FederationResponderConfig} (hnew : new C cfg = .ok s₀)
    (h : Tasks.Reached (object C rt) (fun _ _ => True) ⟨s₀,[]⟩ w) : Traced C rt s₀ w := by
  have hseed : s₀.cfg.localDomainSeed.length = 32 := by
    simp only [new,Semp.bind_eq_ok] at hnew
    obtain ⟨_,-,_,-,_,-,_,hpub,_,-,hs⟩ := hnew
    obtain rfl := Except.ok.inj hs
    exact (publicKeyFromSeed_eq_ok.mp hpub).1
  refine h.inv (traced_new hnew) fun u a u' hu _ hs => ?_
  cases a with
  | start c e =>
    obtain rfl := Option.some.inj hs
    exact hu.start c
  | resume i e =>
    obtain ⟨c,t,hi,rfl⟩ := Tasks.step_resume.mp hs
    exact hu.resume laws hseed e hi

end Runs

end FederationResponder
end Semp
