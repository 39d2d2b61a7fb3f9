import Semp.Forwarder

/-! What the forwarder puts on the wire: the envelope of its caller, signed again for the
session. -/
namespace Semp
namespace Forwarder
open Handshake Envelope

/-- What the type of an envelope says. -/
structure Typed (env : Members) : Prop where
  wf : (Json.obj env).WF
  postmark : ∃ ms, lookup env (js "postmark") = some (.obj ms)
  sealed : ∃ ms, lookup env (js "seal") = some (.obj ms)

/-- The members are those of `ms`, but for these keys. -/
def AgreeBut (ks : List JsString) (ms ms' : Members) : Prop :=
  ∀ k, k ∉ ks → lookup ms' k = lookup ms k

/-- The envelopes differ in `session_id`, `signature` and `session_mac` only. -/
structure Resigned (env env' : Members) : Prop where
  other : AgreeBut [js "postmark",js "seal"] env env'
  postmark : ∃ ms ms', lookup env (js "postmark") = some (.obj ms) ∧
    lookup env' (js "postmark") = some (.obj ms') ∧ AgreeBut [js "session_id"] ms ms'
  sealed : ∃ ms ms', lookup env (js "seal") = some (.obj ms) ∧
    lookup env' (js "seal") = some (.obj ms') ∧
      AgreeBut [js "signature",js "session_mac"] ms ms'

section Verification
variable (C : Crypto) (rt : Runtime)

/-- A proof of the seal as bytes, unless it is absent, empty or not readable. -/
def sealProof (env : Json) (k : JsString) : Js (Option Bytes) := do
  match ← getProp (some env) (js "seal") with
  | none | some .null => .ok none
  | some block => do
    let v ← getProp (some block) k
    if v.isNone || isStr v [] then .ok none
    else
      match base64Decode rt v with
      | .error _ => .ok none
      | .ok bytes => .ok (some bytes)

/-- `verifySealSignature` of an envelope that was read from the wire -/
def verifySealSignature (env : Json) (senderDomainPub : Bytes) : Js Bool := do
  match ← sealProof rt env (js "signature") with
  | none => .ok false
  | some sig => do
    let canonical ← canonicalEnvelopeFor env
    .ok (verify C senderDomainPub sig (utf8 envelopePrefix++canonical))

/-- `verifySessionMAC` of an envelope that was read from the wire -/
def verifySessionMAC (env : Json) (kEnvMAC : Bytes) : Js Bool := do
  match ← sealProof rt env (js "session_mac") with
  | none => .ok false
  | some want => do
    let canonical ← canonicalEnvelopeFor env
    .ok (constantTimeEqual want (computeMAC C kEnvMAC canonical))

end Verification

section Members
variable {ks : List JsString} {ms ms' ms'' env env' env'' block : Members} {field k : JsString}

theorem AgreeBut.refl (ks : List JsString) (ms : Members) : AgreeBut ks ms ms := fun _ _ => rfl

theorem AgreeBut.trans (h : AgreeBut ks ms ms') (h' : AgreeBut ks ms' ms'') :
    AgreeBut ks ms ms'' := fun k hk => (h' k hk).trans (h k hk)

theorem agreeBut_assign (ms : Members) (v : Json) (hk : k ∈ ks) : AgreeBut ks ms (assign ms k v) := by
  intro l hl
  exact lookup_assign_ne v fun heq => hl (heq ▸ hk)

theorem agreeBut_putMember (ms : Members) (v : Option Json) (hk : k ∈ ks) :
    AgreeBut ks ms (putMember ms k v) := by
  cases v with
  | some v => exact agreeBut_assign ms v hk
  | none =>
    intro l hl
    exact lookup_filter_ne ms fun heq => hl (heq ▸ hk)

theorem putMember_wf (h : (Json.obj ms).WF) {v : Option Json} (hv : ∀ x, v = some x → x.WF)
    (k : JsString) : (Json.obj (putMember ms k v)).WF := by
  cases v with
  | some v => exact Json.wf_assign h (hv v rfl) k
  | none => exact Json.wf_filter h _

theorem Resigned.refl (h : Typed env) : Resigned env env where
  other := .refl _ _
  postmark := by
    obtain ⟨ms,hms⟩ := h.postmark
    exact ⟨ms,ms,hms,hms,.refl _ _⟩
  sealed := by
    obtain ⟨ms,hms⟩ := h.sealed
    exact ⟨ms,ms,hms,hms,.refl _ _⟩

theorem Resigned.trans (h : Resigned env env') (h' : Resigned env' env'') :
    Resigned env env'' where
  other := h.other.trans h'.other
  postmark := by
    obtain ⟨ms,ms',hms,hms',ha⟩ := h.postmark
    obtain ⟨ms₁,ms'',hms₁,hms'',ha'⟩ := h'.postmark
    obtain rfl := Json.obj.inj (Option.some.inj (hms'.symm.trans hms₁))
    exact ⟨ms,ms'',hms,hms'',ha.trans ha'⟩
  sealed := by
    obtain ⟨ms,ms',hms,hms',ha⟩ := h.sealed
    obtain ⟨ms₁,ms'',hms₁,hms'',ha'⟩ := h'.sealed
    obtain rfl := Json.obj.inj (Option.some.inj (hms'.symm.trans hms₁))
    exact ⟨ms,ms'',hms,hms'',ha.trans ha'⟩

theorem Resigned.typed (h : Resigned env env') (hw : (Json.obj env').WF) : Typed env' where
  wf := hw
  postmark := by
    obtain ⟨-,ms',-,hms',-⟩ := h.postmark
    exact ⟨ms',hms'⟩
  sealed := by
    obtain ⟨-,ms',-,hms',-⟩ := h.sealed
    exact ⟨ms',hms'⟩

/-- The seal has these two proofs. -/
def Sealed (env : Members) (signature mac : JsString) : Prop :=
  ∃ block, lookup env (js "seal") = some (.obj block) ∧
    lookup block (js "signature") = some (.str signature) ∧
      lookup block (js "session_mac") = some (.str mac)

/-- Setting the session of the postmark. -/
theorem assignIn_postmark (h : Typed env) {sid : Option Json} (hsid : ∀ x, sid = some x → x.WF) :
    ∃ env', assignIn env (js "postmark") (js "session_id") sid = .ok env' ∧ Typed env' ∧
      Resigned env env' := by
  obtain ⟨ms,hms⟩ := h.postmark
  have hne : js "seal" ≠ js "postmark" := by decide
  refine ⟨assign env (js "postmark") (.obj (putMember ms (js "session_id") sid)),?_,?_,?_⟩
  · rw [assignIn,hms]
  · exact ⟨Json.wf_assign h.wf (putMember_wf (Json.wf_of_lookup h.wf hms) hsid _) _,
      ⟨_,lookup_assign_self ..⟩,by rw [lookup_assign_ne _ hne]; exact h.sealed⟩
  · refine ⟨agreeBut_assign env _ (by simp),⟨ms,_,hms,lookup_assign_self ..,?_⟩,?_⟩
    · exact agreeBut_putMember ms sid (by simp)
    · rw [lookup_assign_ne _ hne]
      exact (Resigned.refl h).sealed

/-- Setting a proof of the seal. -/
theorem assignIn_seal (h : Typed env) (hk : k ∈ [js "signature",js "session_mac"])
    (hblock : lookup env (js "seal") = some (.obj block)) (s : JsString) :
    ∃ env', assignIn env (js "seal") k (some (.str s)) = .ok env' ∧ Typed env' ∧
      Resigned env env' ∧ lookup env' (js "seal") = some (.obj (assign block k (.str s))) ∧
        AgreeBut [js "seal"] env env' := by
  have hne : js "postmark" ≠ js "seal" := by decide
  have hb := Json.wf_of_lookup h.wf hblock
  refine ⟨assign env (js "seal") (.obj (assign block k (.str s))),?_,?_,?_,
    lookup_assign_self ..,agreeBut_assign env _ (by simp)⟩
  · rw [assignIn,hblock]
    rfl
  · exact ⟨Json.wf_assign h.wf (Json.wf_assign hb (Json.wf_str s) _) _,
      by rw [lookup_assign_ne _ hne]; exact h.postmark,⟨_,lookup_assign_self ..⟩⟩
  · refine ⟨agreeBut_assign env _ (by simp),?_,block,_,hblock,lookup_assign_self ..,
      agreeBut_assign block _ hk⟩
    rw [lookup_assign_ne _ hne]
    exact (Resigned.refl h).postmark

end Members

section Signing
variable {C : Crypto} {rt : Runtime} {cfg : ForwarderConfig} {session : FederationInitiatorSession}
  {env : Members}

/-- The envelope carries the proofs of its canonical bytes for the session. -/
def Proved (C : Crypto) (cfg : ForwarderConfig) (session : FederationInitiatorSession)
    (env : Members) : Prop :=
  ∃ sig, sign C cfg.localDomainSeed (utf8 envelopePrefix++envelopeBytes (.obj env)) = .ok sig ∧
    Sealed env (Base64.encode sig)
      (Base64.encode (computeMAC C session.keys.envMAC (envelopeBytes (.obj env))))

variable (cfg) in
theorem resign_spec (h : Typed env) (hsid : ∀ x, session.sessionId = some x → x.WF) :
    Typed ((resign C cfg session).call env).2 ∧ Resigned env ((resign C cfg session).call env).2 ∧
      (∀ wire, ((resign C cfg session).call env).1 = .ok wire →
        wire = encodeEnvelope ((resign C cfg session).call env).2 ∧
          Proved C cfg session ((resign C cfg session).call env).2) ∧
      ∀ e, ((resign C cfg session).call env).1 = .error e →
        ∃ message, sign C cfg.localDomainSeed message = .error e := by
  obtain ⟨env₁,h₁,t₁,r₁⟩ := assignIn_postmark h hsid
  obtain ⟨block,hblock⟩ := t₁.sealed
  obtain ⟨env₂,h₂,t₂,r₂,hb₂,-⟩ := assignIn_seal t₁ (k := js "signature") (by simp) hblock []
  obtain ⟨env₃,h₃,t₃,r₃,hb₃,-⟩ := assignIn_seal t₂ (k := js "session_mac") (by simp) hb₂ []
  have hcanonical := canonicalEnvelopeFor_eq t₃.wf
  have hblank : Resigned env env₃ := (r₁.trans r₂).trans r₃
  cases hsign : sign C cfg.localDomainSeed (utf8 envelopePrefix++envelopeBytes (.obj env₃)) with
  | error e =>
    have hcall : (resign C cfg session).call env = (.error e,env₃) := by
      simp [resign,Method.call_bind,h₁,h₂,h₃,hcanonical,hsign]
    rw [hcall]
    exact ⟨t₃,hblank,fun wire hw => (by cases hw),fun e' he => ⟨_,Except.error.inj he ▸ hsign⟩⟩
  | ok sig =>
    obtain ⟨env₄,h₄,t₄,r₄,hb₄,a₄⟩ :=
      assignIn_seal t₃ (k := js "signature") (by simp) hb₃ (Base64.encode sig)
    obtain ⟨env₅,h₅,t₅,r₅,hb₅,a₅⟩ := assignIn_seal t₄ (k := js "session_mac") (by simp) hb₄
      (Base64.encode (computeMAC C session.keys.envMAC (envelopeBytes (.obj env₃))))
    have hcall : (resign C cfg session).call env = (.ok (encodeEnvelope env₅),env₅) := by
      simp [resign,Method.call_bind,h₁,h₂,h₃,hcanonical,hsign,h₄,h₅,Except.map]
    have hne : js "signature" ≠ js "session_mac" := by decide
    -- what was signed is what the receiver computes of the signed envelope
    have hbytes : envelopeBytes (.obj env₅) = envelopeBytes (.obj env₃) := by
      refine envelopeBytes_congr t₅.wf t₃.wf hb₅ hb₃ (fun k hk => (a₄.trans a₅) k (by simpa using hk))
        ?_ ?_
      · intro k hsig hmac
        rw [lookup_assign_ne _ hmac,lookup_assign_ne _ hsig]
      · intro k
        by_cases hmac : k = js "session_mac"
        · subst hmac
          rw [lookup_assign_self,lookup_assign_self]
          rfl
        by_cases hsig : k = js "signature"
        · subst hsig
          rw [lookup_assign_ne _ hne,lookup_assign_self,lookup_assign_ne _ hne,lookup_assign_self]
          rfl
        · rw [lookup_assign_ne _ hmac,lookup_assign_ne _ hsig]
    rw [hcall]
    refine ⟨t₅,(hblank.trans r₄).trans r₅,fun wire hw => ⟨(Except.ok.inj hw).symm,sig,?_,?_⟩,
      fun e he => by cases he⟩
    · rw [hbytes]
      exact hsign
    · rw [hbytes]
      refine ⟨_,hb₅,?_,lookup_assign_self ..⟩
      rw [lookup_assign_ne _ hne,lookup_assign_self]

theorem sealProof_eq {block : Members} {k s : JsString}
    (hblock : lookup env (js "seal") = some (.obj block)) (hk : lookup block k = some (.str s))
    (hne : s ≠ []) : sealProof rt (.obj env) k = .ok (some (Base64.decode s)) := by
  obtain ⟨u,us,rfl⟩ := List.exists_cons_of_ne_nil hne
  rw [sealProof,getProp_obj,ok_bind,hblock]
  dsimp only
  rw [getProp_obj,ok_bind,hk]
  rfl

/-- The receiver accepts the proofs of an envelope that was signed for its session. -/
theorem proved_verifies (laws : SignLaws C) {pub : Bytes} (hw : (Json.obj env).WF)
    (h : Proved C cfg session env) (hpub : publicKeyFromSeed C cfg.localDomainSeed = .ok pub) :
    verifySealSignature C rt (Json.obj env).reparse pub = .ok true ∧
      verifySessionMAC C rt (Json.obj env).reparse session.keys.envMAC = .ok true := by
  obtain ⟨sig,hsign,block,hblock,hsig,hmac⟩ := h
  have hw' : (Json.obj env).reparse.WF := by
    rw [reparse_obj]
    exact reparsed_wf hw
  have hcanonical : canonicalEnvelopeFor (Json.obj env).reparse =
      .ok (envelopeBytes (.obj env)) := by
    rw [canonicalEnvelopeFor_eq hw',envelopeBytes_reparse]
  have hseal : lookup (reparsed env) (js "seal") = some (.obj (reparsed block)) := by
    rw [reparsed,lookup_map,hblock,Option.map_some,reparse_obj]
  have hproof {k s : JsString} (hk : lookup block k = some (.str s)) :
      lookup (reparsed block) k = some (.str s) := by
    rw [reparsed,lookup_map,hk]
    rfl
  constructor
  · have hne : Base64.encode sig ≠ [] := encode_sign_ne_nil laws hsign
    rw [verifySealSignature,hcanonical,reparse_obj,sealProof_eq hseal (hproof hsig) hne,
      Base64.decode_encode]
    exact congrArg Except.ok (verify_sign laws hpub hsign)
  · have hne : Base64.encode (computeMAC C session.keys.envMAC (envelopeBytes (.obj env))) ≠ [] := by
      intro hnil
      have hlen : (computeMAC C session.keys.envMAC (envelopeBytes (.obj env))).length = 32 :=
        (C.hmacSha256 _ _).property
      rw [Base64.encode_eq_nil.mp hnil] at hlen
      cases hlen
    rw [verifySessionMAC,hcanonical,reparse_obj,sealProof_eq hseal (hproof hmac) hne,
      Base64.decode_encode]
    exact congrArg Except.ok (constantTimeEqual_iff.mpr rfl)

end Signing

/-- The bytes are the caller's envelope, signed for this session: it differs in `session_id`,
`signature` and `session_mac` only, and what the peer reads verifies. -/
def SentFor (C : Crypto) (rt : Runtime) (cfg : ForwarderConfig) (envelopes : ℕ → Members)
    (log : List Event) (s i : ℕ) (wire : Bytes) : Prop :=
  ∃ d session openedAt env received, .opened d s session openedAt ∈ log ∧
    wire = encodeEnvelope env ∧ Resigned (envelopes i) env ∧
    parseJson (Utf8.textDecode wire) = .ok received ∧
    ∀ pub, publicKeyFromSeed C cfg.localDomainSeed = .ok pub →
      verifySealSignature C rt received pub = .ok true ∧
        verifySessionMAC C rt received session.keys.envMAC = .ok true

/-- The envelopes are those of the callers but for their proofs, and were sent with good ones. -/
structure Signs (C : Crypto) (rt : Runtime) (cfg : ForwarderConfig) (envelopes : ℕ → Members)
    (f : Fields) : Prop where
  typed : ∀ i, Typed (f.envelopes i)
  resigned : ∀ i, Resigned (envelopes i) (f.envelopes i)
  opened : ∀ (s : ℕ) (c : CachedSession), f.opened[s]? = some c →
    ∃ d now, .opened d s c.session now ∈ f.log
  wf : ∀ d s session now, .opened d s session now ∈ f.log →
    ∀ x, session.sessionId = some x → x.WF
  signed : ∀ s n i wire now, .sent s n (.envelope i) wire now ∈ f.log →
    SentFor C rt cfg envelopes f.log s i wire

section Signing
variable {C : Crypto} {rt : Runtime} {cfg : ForwarderConfig} {envelopes : ℕ → Members}
  {f f' : Fields} {v : Env} {w : World}

theorem SentFor.mono {log log' : List Event} {s i : ℕ} {wire : Bytes}
    (h : SentFor C rt cfg envelopes log s i wire) (hp : log <+: log') :
    SentFor C rt cfg envelopes log' s i wire := by
  obtain ⟨d,session,openedAt,env,received,hopened,hrest⟩ := h
  exact ⟨d,session,openedAt,env,received,hp.subset hopened,hrest⟩

theorem Signs.record (h : Signs C rt cfg envelopes f) (e : Event)
    (hwf : ∀ d s session now, e = .opened d s session now →
      ∀ x, session.sessionId = some x → x.WF)
    (hsent : ∀ s n i wire now, e = .sent s n (.envelope i) wire now →
      SentFor C rt cfg envelopes f.log s i wire) : Signs C rt cfg envelopes (f.record e) where
  typed := h.typed
  resigned := h.resigned
  opened s c hc := by
    obtain ⟨d,now,hopened⟩ := h.opened s c hc
    exact ⟨d,now,List.mem_append_left _ hopened⟩
  wf d s session now hmem := by
    obtain hmem | hmem := List.mem_append.mp hmem
    · exact h.wf d s session now hmem
    · exact hwf d s session now (List.mem_singleton.mp hmem).symm
  signed s n i wire now hmem := by
    obtain hmem | hmem := List.mem_append.mp hmem
    · exact (h.signed s n i wire now hmem).mono (List.prefix_append _ _)
    · exact (hsent s n i wire now (List.mem_singleton.mp hmem).symm).mono (List.prefix_append _ _)

theorem Signs.setLocked (h : Signs C rt cfg envelopes f) (s : ℕ) (b : Bool) :
    Signs C rt cfg envelopes (f.setLocked s b) where
  typed := h.typed
  resigned := h.resigned
  opened k c hc := by
    rw [Fields.setLocked,List.getElem?_modify] at hc
    obtain ⟨c',hc',rfl⟩ := Option.map_eq_some_iff.mp hc
    obtain ⟨d,now,hopened⟩ := h.opened k c' hc'
    refine ⟨d,now,?_⟩
    split_ifs <;> exact hopened
  wf := h.wf
  signed := h.signed

theorem Signs.cache (h : Signs C rt cfg envelopes f) (d : JsString) (t : ℕ)
    {session : FederationInitiatorSession} (now : ℤ)
    (hwf : ∀ x, session.sessionId = some x → x.WF) :
    Signs C rt cfg envelopes (f.cache d t session now) where
  typed := h.typed
  resigned := h.resigned
  opened s c hc := by
    rw [Fields.cache,List.getElem?_append] at hc
    split_ifs at hc with hlt
    · obtain ⟨d',now',hopened⟩ := h.opened s c hc
      exact ⟨d',now',List.mem_append_left _ hopened⟩
    · rw [List.getElem?_singleton] at hc
      split_ifs at hc with hs
      obtain rfl := Option.some.inj hc
      obtain rfl : s = f.opened.length := by omega
      exact ⟨d,now,List.mem_append_right _ (List.mem_singleton_self _)⟩
  wf d' s session' now' hmem := by
    obtain hmem | hmem := List.mem_append.mp hmem
    · exact h.wf d' s session' now' hmem
    · cases List.mem_singleton.mp hmem
      exact hwf
  signed s n i wire now' hmem := by
    obtain hmem | hmem := List.mem_append.mp hmem
    · exact (h.signed s n i wire now' hmem).mono (List.prefix_append _ _)
    · cases List.mem_singleton.mp hmem

theorem Signs.wireFor (h : Signs C rt cfg envelopes f) {s : ℕ} {c : CachedSession}
    (hc : f.opened[s]? = some c) (request : Request) :
    Signs C rt cfg envelopes (wireFor C cfg f c.session request).2 := by
  cases request with
  | keys request => exact h
  | envelope i =>
    obtain ⟨d,now,hopened⟩ := h.opened s c hc
    obtain ⟨htyped,hresigned,-⟩ :=
      resign_spec (C := C) cfg (h.typed i) (h.wf d s c.session now hopened)
    refine ⟨fun k => ?_,fun k => ?_,h.opened,h.wf,h.signed⟩
    · change Typed (Function.update f.envelopes i _ k)
      by_cases hk : k = i
      · subst hk
        rw [Function.update_self]
        exact htyped
      · rw [Function.update_of_ne hk]
        exact h.typed k
    · change Resigned _ (Function.update f.envelopes i _ k)
      by_cases hk : k = i
      · subst hk
        rw [Function.update_self]
        exact (h.resigned k).trans hresigned
      · rw [Function.update_of_ne hk]
        exact h.resigned k

theorem sentFor_wireFor (laws : SignLaws C) (h : Signs C rt cfg envelopes f) {s i : ℕ}
    {c : CachedSession} (hc : f.opened[s]? = some c) {wire : Bytes}
    (hw : (Forwarder.wireFor C cfg f c.session (.envelope i)).1 = .ok wire) :
    SentFor C rt cfg envelopes f.log s i wire := by
  obtain ⟨d,now,hopened⟩ := h.opened s c hc
  obtain ⟨htyped,hresigned,hok,-⟩ :=
    resign_spec (C := C) cfg (h.typed i) (h.wf d s c.session now hopened)
  obtain ⟨rfl,hproved⟩ := hok wire hw
  refine ⟨d,c.session,now,_,_,hopened,rfl,(h.resigned i).trans hresigned,?_,
    fun pub hpub => proved_verifies laws htyped.wf hproved hpub⟩
  rw [encodeEnvelope,JsonText.textDecode_stringify,parseJson_stringify htyped.wf]

theorem takeAccepted_wf {i : FederationInitiator} {data : Bytes} {session : FederationInitiatorSession}
    (h : FederationInitiator.takeAccepted C rt i data = .ok session) :
    ∀ x, session.sessionId = some x → x.WF := by
  obtain ⟨keys,ms,pub,positive,-,hparse,-,rfl⟩ := FederationInitiator.takeAccepted_eq_ok.mp h
  have hw : (Json.obj ms).WF := JsonText.parse_wf (parseJson_eq_ok.mp hparse)
  intro x hx
  exact Json.wf_of_lookup hw hx

theorem signs_start (h : Signs C rt cfg envelopes f) (c : Call) :
    Signs C rt cfg envelopes (start v f c).2 := by
  refine start_cases (P := fun _ r => Signs C rt cfg envelopes r.2) c ?_ ?_ ?_ ?_
  · intro job s _
    exact h.record _ (by simp) (by simp)
  all_goals
    intros
    exact ⟨h.typed,h.resigned,h.opened,h.wf,h.signed⟩

theorem signs_resume (laws : SignLaws C) (h : Signs C rt cfg envelopes f) (t : Waiting) :
    Signs C rt cfg envelopes (resume C rt cfg v f t).2 := by
  refine resume_cases (P := fun _ r => Signs C rt cfg envelopes r.2) t ?connects ?refuses ?opens
    ?settles ?joins ?rejects ?waits ?unsigned ?sends ?unsent ?carries ?loses ?rejectsAnswer
    ?answers ?drops ?closes
  case opens =>
    intro job p t i acceptedBytes session _ hsession
    exact h.cache _ t _ (takeAccepted_wf hsession)
  case unsigned =>
    intro t job s c e _ hc _ _
    exact h.wireFor hc job.request
  case sends =>
    intro t job s c wire _ hc _ hw
    have hsigned : Signs C rt cfg envelopes
        ((wireFor C cfg f c.session job.request).2.setLocked s true) :=
      (h.wireFor hc job.request).setLocked s true
    have hcounted : Signs C rt cfg envelopes
        { (wireFor C cfg f c.session job.request).2.setLocked s true with
          requests := (wireFor C cfg f c.session job.request).2.requests+1 } :=
      ⟨hsigned.typed,hsigned.resigned,hsigned.opened,hsigned.wf,hsigned.signed⟩
    refine hcounted.record _ (by simp) fun s' n i wire' now heq => ?_
    obtain ⟨rfl,-,hrequest,rfl,-⟩ := Event.sent.inj heq
    rw [hrequest] at hw
    have hfor := sentFor_wireFor laws h hc hw
    have hlog : (wireFor C cfg f c.session job.request).2.log = f.log := wireFor_log _ _
    rw [← hlog] at hfor
    exact hfor
  case unsent =>
    intro job s n e _
    exact (h.record _ (by simp) (by simp)).setLocked s false
  case carries =>
    intro job s n _
    exact h.record _ (by simp) (by simp)
  case loses =>
    intro job s n e
    exact (h.record _ (by simp) (by simp)).setLocked s false
  case rejectsAnswer =>
    intro job s n respBytes e _ _
    exact (h.record _ (by simp) (by simp)).setLocked s false
  case answers =>
    intro job s n respBytes ms _ _
    exact (h.record _ (by simp) (by simp)).setLocked s false
  case drops =>
    intro job s e
    change Signs C rt cfg envelopes (f.dropSession job.peerDomain s)
    rw [Fields.dropSession]
    split
    · exact h
    next g _ =>
      have hdeleted : Signs C rt cfg envelopes
          { f with sessions := f.sessions.delete job.peerDomain } :=
        ⟨h.typed,h.resigned,h.opened,h.wf,h.signed⟩
      exact hdeleted.record _ (by simp) (by simp)
  all_goals
    intros
    exact ⟨h.typed,h.resigned,h.opened,h.wf,h.signed⟩

end Signing

end Forwarder
end Semp
