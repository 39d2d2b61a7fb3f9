import Semp.ServerDriver
import Semp.ResumeReplay

/-! The ticket of a session and the secret that goes with it.  A handshake derives both; a rekey
keeps the ticket and drops the secret, and a resumption issues a ticket and derives no secret. -/
namespace Semp
namespace Resume
open Handshake Method
variable {C : Crypto} {rt : Runtime}

/-- A session that a full handshake gave. -/
inductive Established (C : Crypto) (rt : Runtime) (s : Session) : Prop
  | client {config : ClientConfig} {entropy : ClientEntropy} {t t' : Transport}
      (h : (runClient C rt config entropy).call t = (.ok s,t'))
  | server {config : ServerConfig} {entropy : ServerEntropy} {t t' : Transport}
      (h : (runServer C rt config entropy).call t = (.ok s,t'))

/-- The session before and after a rekey, at the end that started it and at the other. -/
inductive Rekeyed (C : Crypto) (rt : Runtime) : Session → Session → Prop
  | client {pending : Rekey.PendingRekey} {respBytes : Option Bytes} {c c' : Connection}
      {id : Option Json} (h : (Rekey.finishRekey C rt pending respBytes).call c = (.ok id,c')) :
      Rekeyed C rt c.session c'.session
  | server {options : Rekey.RekeyServerOptions} {entropy : Rekey.RekeyEntropy}
      {newSessionId id : JsString} {initBytes : Option Bytes} {c c' : Connection}
      (h : (Rekey.answerRekey C rt options entropy newSessionId initBytes).call c = (.ok id,c')) :
      Rekeyed C rt c.session c'.session

/-- A session that a resumption gave. -/
inductive Resumed (C : Crypto) (rt : Runtime) (s : Session) : Prop
  | client {config : ResumeClientConfig} {pending : PendingResume} {respBytes : Option Bytes}
      {session : SessionConfig} (h : takeAccepted C rt config pending respBytes = .ok session)
      (hs : Session.new session = .ok s)
  | server {config : ResumeServerConfig} {entropy : ResumeEntropy} {reqBytes : Option Bytes}
      {t t' : Transport} (h : (answerResume C rt config entropy reqBytes).call t = (.ok s,t'))

/-- A session with the number of its rekeys and resumptions since the handshake, and the secret
that was derived when its ticket was issued. -/
inductive Lineage (C : Crypto) (rt : Runtime) : ℕ → Session → Option Bytes → Prop
  | established {s : Session} {keys : SessionKeys} (h : Established C rt s)
      (hkeys : s.keys = some keys) : Lineage C rt 0 s keys.resumption
  | rekeyed {n : ℕ} {s s' : Session} {k : Option Bytes} (h : Lineage C rt n s k)
      (hs : Rekeyed C rt s s') : Lineage C rt (n+1) s' k
  | resumed {n : ℕ} {s s' : Session} {k : Option Bytes} {keys : SessionKeys}
      (h : Lineage C rt n s k) (hs : Resumed C rt s') (hkeys : s'.keys = some keys) :
      Lineage C rt (n+1) s' keys.resumption

/-- While the session holds a ticket its keys have a resumption secret, the one that was derived
when the ticket was issued. -/
def KeepsSecret (s : Session) (k : Option Bytes) : Prop :=
  s.resumptionTicket ≠ none → ∃ keys secret, s.keys = some keys ∧
    keys.resumption = some secret ∧ k = some secret

section Keys

theorem runClientInner_keys {config : ClientConfig} {suite : Suite} {entropy : ClientEntropy}
    {t t' : Transport} {r : ClientSession}
    (h : (runClientInner C rt config suite entropy).call t = (.ok r,t')) :
    ∃ shared cn sn, r.keys = deriveSessionKeysWithResumption C shared cn sn := by
  rw [runClientInner] at h
  -- One step for each call up to the result.
  iterate 34 obtain ⟨_,_,-,h⟩ := Method.bind_eq_ok.mp h
  rw [call_pure,Prod.mk.injEq,Except.ok.injEq] at h
  obtain ⟨rfl,-⟩ := h
  exact ⟨_,_,_,rfl⟩

theorem refuse_ne_ok {α : Type} {sessionId reasonCode : JsString} {seed : Bytes}
    {reason : Option JsString} {message : JsString} {t t' : Transport} {a : α} :
    (refuse C sessionId reasonCode seed reason message).call t ≠ (.ok a,t') := by
  intro h
  obtain ⟨_,_,-,h⟩ := Method.bind_eq_ok.mp h
  rw [call_throw] at h
  cases h

theorem runServerRespond_keys {config : ServerConfig} {entropy : ServerEntropy}
    {t t' : Transport} {r : Responding}
    (h : (runServerRespond C rt config entropy).call t = (.ok r,t')) :
    ∃ shared cn sn, r.keys = deriveSessionKeysWithResumption C shared cn sn := by
  rw [runServerRespond] at h
  iterate 4 obtain ⟨_,_,-,h⟩ := Method.bind_eq_ok.mp h
  obtain ⟨suite,_,-,h⟩ := Method.bind_eq_ok.mp h
  cases suite with
  | none => exact absurd h refuse_ne_ok
  | some suite =>
    simp only [runServerWith] at h
    iterate 11 obtain ⟨_,_,-,h⟩ := Method.bind_eq_ok.mp h
    rw [call_pure,Prod.mk.injEq,Except.ok.injEq] at h
    obtain ⟨rfl,-⟩ := h
    exact ⟨_,_,_,rfl⟩

theorem runServerConfirm_keys {config : ServerConfig} {r : Responding} {t t' : Transport}
    {s : Session} (h : (runServerConfirm C rt config r).call t = (.ok s,t')) :
    s.keys = some r.keys := by
  rw [runServerConfirm] at h
  iterate 5 obtain ⟨_,_,-,h⟩ := Method.bind_eq_ok.mp h
  split_ifs at h
  · iterate 7 obtain ⟨_,_,-,h⟩ := Method.bind_eq_ok.mp h
    exact (new_session (lift_eq_ok.mp h).1).1
  · exact absurd h refuse_ne_ok

/-- A handshake derives a resumption secret with the keys. -/
theorem Established.keys {s : Session} (h : Established C rt s) :
    ∃ shared cn sn, s.keys = some (deriveSessionKeysWithResumption C shared cn sn) := by
  cases h with
  | client h =>
    obtain ⟨suite,_,-,h⟩ := Method.bind_eq_ok.mp h
    obtain ⟨r,_,hr,hs⟩ := Method.bind_eq_ok.mp (Transport.closeOnError_eq_ok.mp h)
    obtain ⟨shared,cn,sn,hkeys⟩ := runClientInner_keys hr
    refine ⟨shared,cn,sn,?_⟩
    rw [(new_session (lift_eq_ok.mp hs).1).1,clientSessionConfig,hkeys]
  | server h =>
    obtain ⟨r,_,hr,hs⟩ := Method.bind_eq_ok.mp (Transport.closeOnError_eq_ok.mp h)
    obtain ⟨shared,cn,sn,hkeys⟩ := runServerRespond_keys hr
    exact ⟨shared,cn,sn,by rw [runServerConfirm_keys hs,hkeys]⟩

theorem applyRekey_keys {apply : RekeyApply} {c c' : Connection} {u : Unit}
    (h : (Connection.applyRekey apply).call c = (.ok u,c')) :
    c'.session.keys = some apply.newKeys := by
  rw [Connection.applyRekey,get_bind,lift_bind_eq_ok] at h
  obtain ⟨s,hs,h⟩ := h
  rw [call_modify,Prod.mk.injEq] at h
  obtain ⟨-,rfl⟩ := h
  obtain ⟨_,-,hs⟩ := Semp.bind_eq_ok.mp hs
  obtain ⟨_,-,hs⟩ := Semp.bind_eq_ok.mp hs
  obtain rfl := Except.ok.inj hs
  rfl

/-- A rekey derives no resumption secret. -/
theorem Rekeyed.keys {s s' : Session} (h : Rekeyed C rt s s') :
    ∃ keys, s'.keys = some keys ∧ keys.resumption = none := by
  cases h with
  | client h =>
    rw [Rekey.finishRekey,get_bind] at h
    simp only [lift_bind_eq_ok] at h
    obtain ⟨_,-,_,-,_,-,apply,happly,h⟩ := h
    obtain ⟨_,_,hc,h⟩ := Method.bind_eq_ok.mp h
    rw [call_pure,Prod.mk.injEq] at h
    obtain ⟨-,rfl⟩ := h
    refine ⟨_,applyRekey_keys hc,?_⟩
    rw [Rekey.acceptedKeys] at happly
    iterate 5 obtain ⟨_,-,happly⟩ := Semp.bind_eq_ok.mp happly
    obtain rfl := Except.ok.inj happly
    rfl
  | server h =>
    rw [Rekey.answerRekey,get_bind] at h
    simp only [lift_bind_eq_ok] at h
    obtain ⟨_,-,_,-,answer,hanswer,_,-,_,-,h⟩ := h
    obtain ⟨_,_,-,h⟩ := Method.bind_eq_ok.mp h
    obtain ⟨_,_,hc,h⟩ := Method.bind_eq_ok.mp h
    rw [call_pure,Prod.mk.injEq] at h
    obtain ⟨-,rfl⟩ := h
    refine ⟨_,applyRekey_keys hc,?_⟩
    rw [Rekey.answerInit] at hanswer
    obtain ⟨_,-,hanswer⟩ := Semp.bind_eq_ok.mp hanswer
    split_ifs at hanswer
    · iterate 6 obtain ⟨_,-,hanswer⟩ := Semp.bind_eq_ok.mp hanswer
      obtain rfl := Except.ok.inj hanswer
      rfl
    · obtain ⟨_,-,hanswer⟩ := Semp.bind_eq_ok.mp hanswer
      exact absurd hanswer (raise_ne_ok _ _)

/-- A resumption derives no secret either. -/
theorem Resumed.keys {s : Session} (h : Resumed C rt s) :
    ∃ keys, s.keys = some keys ∧ keys.resumption = none := by
  cases h with
  | @client config pending respBytes session h hs =>
    cases respBytes with
    | none =>
      obtain ⟨_,hneed,-⟩ := Semp.bind_eq_ok.mp h
      cases hneed
    | some f =>
      obtain ⟨_,_,_,_,-,-,rfl⟩ := takeAccepted_eq_ok.mp h
      exact ⟨_,(new_session hs).1,rfl⟩
  | @server config entropy reqBytes t t' h =>
    cases reqBytes with
    | none =>
      obtain ⟨_,hneed,-⟩ := lift_bind_eq_ok.mp h
      cases hneed
    | some f =>
      obtain ⟨ms,k,a,reply,ha,-⟩ := answered_of_answer h
      obtain ⟨_,_,_,_,_,-,-,-,-,-,rfl⟩ := acceptRequest_eq_ok.mp ha.accepted
      exact ⟨_,ha.keys,rfl⟩

end Keys

section Lineage
variable {n : ℕ} {s : Session} {k : Option Bytes}

/-- After a rekey or a resumption the keys have no secret. -/
theorem Lineage.spent (h : Lineage C rt (n+1) s k) :
    ∃ keys, s.keys = some keys ∧ keys.resumption = none := by
  cases h with
  | rekeyed _ hs => exact hs.keys
  | resumed _ hs _ => exact hs.keys

/-- The ticket of a session goes with its secret exactly until the first rekey or resumption,
or when there is no ticket. -/
theorem keepsSecret_iff (h : Lineage C rt n s k) :
    KeepsSecret s k ↔ n = 0 ∨ s.resumptionTicket = none := by
  cases n with
  | zero =>
    cases h with
    | established hs hkeys =>
      obtain ⟨shared,cn,sn,hderived⟩ := hs.keys
      obtain rfl := Option.some.inj (hkeys.symm.trans hderived)
      exact ⟨fun _ => .inl rfl,fun _ _ => ⟨_,_,hderived,rfl,rfl⟩⟩
  | succ n =>
    obtain ⟨keys,hkeys,hnone⟩ := h.spent
    constructor
    · intro hkeeps
      by_contra hticket
      obtain ⟨keys',_,hkeys',hsome,-⟩ := hkeeps fun ht => hticket (.inr ht)
      obtain rfl := Option.some.inj (hkeys.symm.trans hkeys')
      rw [hnone] at hsome
      cases hsome
    · rintro (hn | hticket) hne
      · cases hn
      · exact absurd hticket hne

end Lineage

section Resuming
variable {seed : Bytes} {client : ResumeClientConfig} {entropy : ResumeEntropy} {s : Session}
  {k : Option Bytes}

/-- While the secret is kept, a client that resumes with it and a server that knows the ticket by
the secret it was issued with derive the same keys. -/
theorem KeepsSecret.resumes (h : KeepsSecret s k) (hticket : s.resumptionTicket ≠ none)
    (laws : Laws C) (hpk : publicKeyFromSeed C seed = .ok client.serverDomainPub)
    (hpriv : (client.clientEphemeralPriv.getD entropy.ephemeralPriv).length = 32)
    (hclient : ∀ keys, s.keys = some keys → keys.resumption = some client.kResumption) {x : Served}
    (hx : x.By C rt seed) (hserver : ∀ secret, k = some secret → ∃ permissions,
      x.config.lookupTicket (some (.str client.resumptionTicket)) =
        .ok (.found secret permissions)) :
    ∃ s' req, (resumeClient C rt client entropy).call ⟨[x.reply],[],false⟩ =
      (.ok s',⟨[],[req],false⟩) ∧ (x.request = req → s'.keys = x.session.keys) := by
  obtain ⟨keys,secret,hkeys,hsecret,rfl⟩ := h hticket
  obtain rfl : client.kResumption = secret :=
    Option.some.inj ((hclient keys hkeys).symm.trans hsecret)
  obtain ⟨s',req,_,_,hcall,-,-,-,hown⟩ := hx.taken laws hpk hpriv []
  exact ⟨s',req,hcall,fun hreq => hown hreq (hserver _ rfl)⟩

end Resuming

/-! A session of a handshake, and the session of the server after a resumption. -/
theorem sample_established : ∃ s, Established Sample.crypto Sample.runtime s := by
  obtain ⟨c,c',bytes,hnew,hinit⟩ := replay_started
  obtain ⟨⟨s,hs⟩,-⟩ := replay_diverges Sample.runtime hnew hinit
  obtain ⟨t,ht⟩ := fst_eq_ok.mp hs
  exact ⟨s,.client ht⟩

theorem sample_lineage : ∃ s k, Lineage Sample.crypto Sample.runtime 1 s k ∧
    s.resumptionTicket ≠ none := by
  obtain ⟨s,hs⟩ := sample_established
  obtain ⟨_,_,_,hkeys⟩ := hs.keys
  obtain ⟨x,hx,-⟩ := sampleServed
  obtain ⟨t,ht⟩ := hx.answered
  obtain ⟨_,_,_,ha⟩ := hx.answer
  exact ⟨x.session,_,.resumed (.established hs hkeys) (.server ht) ha.keys,by simp [ha.issued]⟩

theorem keepsSecret_iff_sample : ∃ s k, Lineage Sample.crypto Sample.runtime 1 s k ∧
    (KeepsSecret s k ↔ 1 = 0 ∨ s.resumptionTicket = none) := by
  obtain ⟨s,k,h,-⟩ := sample_lineage
  exact ⟨s,k,h,keepsSecret_iff h⟩

/-- A resumed session holds a ticket that no secret goes with. -/
theorem not_keepsSecret : ¬ ∀ (C : Crypto) (rt : Runtime) (n : ℕ) (s : Session)
    (k : Option Bytes), Lineage C rt n s k → KeepsSecret s k := by
  intro hall
  obtain ⟨s,k,h,hticket⟩ := sample_lineage
  obtain ⟨keys,hkeys,hnone⟩ := h.spent
  obtain ⟨keys',_,hkeys',hsome,-⟩ := hall _ _ _ s k h hticket
  obtain rfl := Option.some.inj (hkeys.symm.trans hkeys')
  rw [hnone] at hsome
  cases hsome

end Resume
end Semp
