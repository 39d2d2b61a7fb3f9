import Semp.Rekey

/-! What the calls of a rekey do: how sealed frames are read back, and one lemma for what
each of the calls can do. -/
namespace Semp
open Handshake Method

/-- An id and keys that a session has at one time. -/
structure Epoch where
  id : JsString
  keys : SessionKeys

/-- The session is live with the id and the keys. -/
structure Session.Holds (s : Session) (e : Epoch) : Prop where
  id : s.sessionId = some (.str e.id)
  keys : s.keys = some e.keys

namespace Rekey
variable {C : Crypto} {rt : Runtime}

section Members

theorem SealedRekey.wf (d : Direction) (id nonce ct : JsString) :
    (Json.obj (SealedRekey.mk d (some (.str id)) nonce ct).members).WF :=
  wf_literal [js "type",js "sealed",js "direction",js "version",js "session_id",js "nonce",
    js "ciphertext"] rfl (by decide) (by simp)

section Wrapper
variable (d : Direction) (id nonce ct : JsString)

@[simp] theorem SealedRekey.lookup_type :
    lookup (SealedRekey.mk d (some (.str id)) nonce ct).members (js "type") =
      some (.str rekeyType) := rfl

@[simp] theorem SealedRekey.lookup_sealed :
    lookup (SealedRekey.mk d (some (.str id)) nonce ct).members (js "sealed") =
      some (.bool true) := rfl

@[simp] theorem SealedRekey.lookup_direction :
    lookup (SealedRekey.mk d (some (.str id)) nonce ct).members (js "direction") =
      some (.str d.name) := rfl

@[simp] theorem SealedRekey.lookup_sessionId :
    lookup (SealedRekey.mk d (some (.str id)) nonce ct).members (js "session_id") =
      some (.str id) := rfl

@[simp] theorem SealedRekey.lookup_nonce :
    lookup (SealedRekey.mk d (some (.str id)) nonce ct).members (js "nonce") =
      some (.str nonce) := rfl

@[simp] theorem SealedRekey.lookup_ciphertext :
    lookup (SealedRekey.mk d (some (.str id)) nonce ct).members (js "ciphertext") =
      some (.str ct) := rfl

end Wrapper

theorem RekeyInit.wf {i : RekeyInit} (h : ∀ v ∈ i.sessionId, v.WF) :
    (Json.obj i.members).WF :=
  wf_literal [js "type",js "step",js "version",js "session_id",js "new_ephemeral_key",
    js "rekey_nonce"] rfl (by decide) (by simpa [KeyRef.wf] using h)

theorem RekeyAccepted.wf {a : RekeyAccepted} (h : ∀ v ∈ a.sessionId, v.WF)
    (hn : ∀ v ∈ a.rekeyNonce, v.WF) : (Json.obj a.members).WF :=
  wf_literal [js "type",js "step",js "version",js "session_id",js "new_session_id",
    js "new_ephemeral_key",js "rekey_nonce",js "responder_nonce"] rfl (by decide) (by
      simpa [KeyRef.wf] using ⟨h,hn⟩)

theorem RekeyRejected.wf {r : RekeyRejected} (h : ∀ v ∈ r.sessionId, v.WF) :
    (Json.obj r.members).WF :=
  wf_literal [js "type",js "step",js "version",js "session_id",js "reason_code",js "reason"] rfl
    (by decide) (by simpa using h)

end Members

/-- A frame that seals a body under the keys of an epoch. -/
structure Seals (C : Crypto) (e : Epoch) (d : Direction) (body : Members) (f : Bytes) : Prop where
  wf : (Json.obj body).WF
  sealed : ∃ nonce ct, nonce.length = 12 ∧
    C.chachaEncrypt (pickRekeyKeys e.keys d).1 nonce
      (rekeyAAD d (utf8 e.id) (pickRekeyKeys e.keys d).2)
      (Canonical.canonicalBytes (.obj body)) = .ok ct ∧
    f = (SealedRekey.mk d (some (.str e.id)) (Base64.encode nonce) (Base64.encode ct)).frame

section Frames
variable {s : Session} {e e' : Epoch} {d d' : Direction} {body : Members} {f : Bytes}

theorem sealRekeyMessage_eq_ok (h : s.Holds e) {text nonce : Bytes} {m : SealedRekey} :
    sealRekeyMessage C s d text nonce = .ok m ↔ nonce.length = 12 ∧ ∃ ct,
      C.chachaEncrypt (pickRekeyKeys e.keys d).1 nonce
        (rekeyAAD d (utf8 e.id) (pickRekeyKeys e.keys d).2) text = .ok ct ∧
      m = ⟨d,some (.str e.id),Base64.encode nonce,Base64.encode ct⟩ := by
  have hkeys : s.liveKeys = .ok e.keys := by rw [Session.liveKeys,h.keys]; rfl
  rw [sealRekeyMessage,hkeys,ok_bind,h.id]
  simp only [bind_eq_ok,require_eq_ok,exists_const,encodeText_str,Except.ok.injEq,
    exists_eq_left']
  refine and_congr_right fun hn => exists_congr fun ct => ?_
  rw [aeadSeal_chacha hn,eq_comm (a := m)]
  rfl

/-- The frame of a body that was sealed for the session. -/
theorem seals_of_seal (h : s.Holds e) (hwf : (Json.obj body).WF) {nonce : Bytes} {m : SealedRekey}
    (hm : sealRekeyMessage C s d (Canonical.canonicalBytes (.obj body)) nonce = .ok m) :
    Seals C e d body m.frame := by
  obtain ⟨hn,ct,hct,rfl⟩ := (sealRekeyMessage_eq_ok h).mp hm
  exact ⟨hwf,nonce,ct,hn,hct,rfl⟩

/-- A frame is read as what was written. -/
theorem SealedRekey.read (d : Direction) (id nonce ct : JsString) :
    parseJson (Utf8.textDecode (SealedRekey.mk d (some (.str id)) nonce ct).frame) =
      .ok (.obj (SealedRekey.mk d (some (.str id)) nonce ct).members) := by
  rw [SealedRekey.frame,utf8,JsonText.textDecode_stringify,
    parseJson_stringify (SealedRekey.wf d id nonce ct)]
  cases d <;> rfl

/-- The keys and the associated data under which the wrapper of a frame is opened. -/
theorem openRekeyMessage_eq (h : s.Holds e) (d : Direction) (nonce ct : Bytes)
    (hn : nonce.length = 12) :
    openRekeyMessage C rt s (.obj
        (SealedRekey.mk d (some (.str e.id)) (Base64.encode nonce) (Base64.encode ct)).members) =
      C.chachaDecrypt (pickRekeyKeys e.keys d).1 nonce
        (rekeyAAD d (utf8 e.id) (pickRekeyKeys e.keys d).2) ct := by
  have hkeys : s.liveKeys = .ok e.keys := by rw [Session.liveKeys,h.keys]; rfl
  rw [openRekeyMessage]
  simp only [getProp_obj,SealedRekey.lookup_type,SealedRekey.lookup_sealed,
    SealedRekey.lookup_sessionId,SealedRekey.lookup_direction,SealedRekey.lookup_nonce,
    SealedRekey.lookup_ciphertext,ok_bind,h.id,directionOf_name,hkeys,base64Decode_str,
    Base64.decode_encode,encodeText_str]
  rw [if_pos (isStr_iff.mpr rfl),require_of (show truthy (some (.bool true)) = true from rfl),
    ok_bind,if_pos (strictEq_str.mpr rfl),aeadOpen_chacha hn]
  rfl

/-- What was sealed is opened to the same bytes. -/
theorem Seals.opens (rt : Runtime) (laws : AeadLaws C) (h : Seals C e d body f) (hs : s.Holds e) :
    ∃ nonce ct, f = (SealedRekey.mk d (some (.str e.id)) (Base64.encode nonce)
        (Base64.encode ct)).frame ∧
      openRekeyMessage C rt s (.obj (SealedRekey.mk d (some (.str e.id)) (Base64.encode nonce)
        (Base64.encode ct)).members) = .ok (Canonical.canonicalBytes (.obj body)) := by
  obtain ⟨nonce,ct,hn,hct,rfl⟩ := h.sealed
  obtain ⟨ct',hct',-,hopen⟩ := laws.decrypt_encrypt _ _ _ _ (laws.key_length _ _ _ _ _ hct) hn
  obtain rfl : ct = ct' := Except.ok.inj (hct.symm.trans hct')
  exact ⟨nonce,ct,rfl,(openRekeyMessage_eq hs d nonce ct hn).trans hopen⟩

/-- What a session reads from the frame it was sealed for. -/
theorem Seals.read (rt : Runtime) (laws : AeadLaws C) (h : Seals C e d body f) (hs : s.Holds e)
    (kind : String) :
    ∃ ms, readBody C rt s f d kind = .ok (.obj ms) ∧ Received body ms := by
  obtain ⟨nonce,ct,rfl,hopen⟩ := h.opens rt laws hs
  obtain ⟨ms,hparse,hr⟩ := received h.wf
  refine ⟨ms,?_,hr⟩
  rw [readBody,SealedRekey.read]
  simp only [getProp_obj,SealedRekey.lookup_type,SealedRekey.lookup_direction,ok_bind]
  rw [if_pos (isStr_iff.mpr rfl),if_pos (isStr_iff.mpr rfl),hopen,ok_bind,hparse]

/-- Only a wrapper that names the id the session has is opened. -/
theorem openRekeyMessage_id (hs : s.sessionId = some (.str e.id)) {id nonce ct : JsString}
    {t : Bytes} (h : openRekeyMessage C rt s
      (.obj (SealedRekey.mk d (some (.str id)) nonce ct).members) = .ok t) : e.id = id := by
  rw [openRekeyMessage] at h
  simp only [getProp_obj,SealedRekey.lookup_type,SealedRekey.lookup_sealed,
    SealedRekey.lookup_sessionId,ok_bind,hs] at h
  rw [if_pos (isStr_iff.mpr rfl),require_of (show truthy (some (.bool true)) = true from rfl),
    ok_bind] at h
  split_ifs at h with he
  · have hid : id = e.id := by simpa using strictEq_str.mp he
    exact hid.symm
  · simp [templateText,toStringText] at h

/-- A frame is read in its own direction, by a session of the id it names. -/
theorem SealedRekey.of_read (hs : s.sessionId = some (.str e.id)) {id nonce ct : JsString}
    {kind : String} {b : Json} (hb : readBody C rt s
      (SealedRekey.mk d (some (.str id)) nonce ct).frame d' kind = .ok b) :
    d' = d ∧ e.id = id := by
  rw [readBody,SealedRekey.read] at hb
  simp only [getProp_obj,SealedRekey.lookup_type,SealedRekey.lookup_direction,ok_bind] at hb
  rw [if_pos (isStr_iff.mpr rfl)] at hb
  split_ifs at hb with hd
  · obtain ⟨plain,hopen,-⟩ := bind_eq_ok.mp hb
    have hname : d.name = d'.name := by simpa using isStr_iff.mp hd
    exact ⟨(Direction.name_injective hname).symm,openRekeyMessage_id hs hopen⟩
  · simp [templateText,toStringText] at hb

/-- A frame that is read was sealed in that direction and under the id the session has. -/
theorem Seals.of_read (h : Seals C e d body f) (hs : s.sessionId = some (.str e'.id))
    {kind : String} {b : Json} (hb : readBody C rt s f d' kind = .ok b) :
    d' = d ∧ e'.id = e.id := by
  obtain ⟨nonce,ct,-,-,rfl⟩ := h.sealed
  exact SealedRekey.of_read hs hb

end Frames
end Rekey

namespace Connection
variable {c c' : Connection}

/-- One more frame sent. -/
def put (c : Connection) (f : Bytes) : Connection :=
  {c with transport := {c.transport with sent := c.transport.sent++[f]}}

@[simp] theorem put_session (c : Connection) (f : Bytes) : (c.put f).session = c.session := rfl

@[simp] theorem put_sent (c : Connection) (f : Bytes) :
    (c.put f).transport.sent = c.transport.sent++[f] := rfl

@[simp] theorem put_last (c : Connection) (f : Bytes) :
    (c.put f).transport.sent.getLastD [] = f := by
  simp

/-- Neither the session nor its transport was closed. -/
structure Open (c : Connection) : Prop where
  session : c.session.closed = false
  transport : c.transport.closed = false

theorem Open.put (h : c.Open) (f : Bytes) : (c.put f).Open := ⟨h.session,h.transport⟩

theorem send_of (h : c.Open) (message : Bytes) :
    (send message).call c = (.ok (),c.put message) := by
  rw [send,get_bind,require_of h.session,bind_of_ok (call_lift _ _),transportCall,get_bind]
  dsimp only
  have hsend : (Transport.send message).call c.transport =
      (.ok (),{c.transport with sent := c.transport.sent++[message]}) :=
    Transport.send_eq_ok.mpr ⟨h.transport,rfl⟩
  rw [hsend,modify_bind,call_lift]
  rfl

theorem send_eq_ok {message : Bytes} {u : Unit} :
    (send message).call c = (.ok u,c') ↔ c.Open ∧ c' = c.put message := by
  constructor
  · intro h
    rw [send,get_bind,lift_bind_eq_ok] at h
    obtain ⟨_,hs,h⟩ := h
    rw [transportCall,get_bind] at h
    dsimp only at h
    rw [modify_bind,lift_eq_ok] at h
    have hsend : (Transport.send message).call c.transport =
        (.ok u,((Transport.send message).call c.transport).2) := Prod.ext h.1 rfl
    obtain ⟨ht,hsent⟩ := Transport.send_eq_ok.mp hsend
    refine ⟨⟨require_eq_ok.mp hs,ht⟩,?_⟩
    rw [h.2,hsent]
    rfl
  · rintro ⟨h,rfl⟩
    exact send_of h message

theorem send_atomic (message : Bytes) : Atomic (send message) c := by
  refine .get (.lift fun _ hs => ?_)
  intro err c' h
  rw [transportCall,get_bind] at h
  dsimp only at h
  rw [modify_bind,call_lift] at h
  obtain ⟨hthrown,rfl⟩ := Prod.mk.inj h
  have ht : ((Transport.send message).call c.transport).2 = c.transport := by
    refine (show Atomic (Transport.send message) c.transport from
      .get (.lift fun _ _ => ?_)) err _ (Prod.ext hthrown rfl)
    exact fun _ _ h => nomatch h
  rw [ht]

end Connection

namespace Rekey
variable {C : Crypto} {rt : Runtime} {c c' : Connection} {e : Epoch}

@[simp] theorem Role.other_other (r : Role) : r.other.other = r := by cases r <;> rfl

theorem Role.other_direction (r : Role) : r.other.direction = r.direction.other := by
  cases r <;> rfl

/-- A call of `rekeyClient` that throws before it waits leaves all as it was. -/
theorem startRekey_atomic (options : RekeyClientOptions) (entropy : RekeyEntropy) :
    Atomic (startRekey C options entropy) c :=
  .get (.lift fun _ _ => .lift fun _ _ => .lift fun _ _ => .lift fun _ _ =>
    .bind (Connection.send_atomic _) fun _ _ _ => ⟨_,_,rfl⟩)

/-- A call of `rekeyClient` that waits, and the frame of its init. -/
structure Started (C : Crypto) (e : Epoch) (d : Direction) (p : PendingRekey) (pub f : Bytes) :
    Prop where
  ephemeral : x25519PublicKey C p.ephPriv = .ok pub
  oppositeDir : p.oppositeDir = d.other
  init : ∃ keyId, Seals C e d (RekeyInit.members ⟨some (.str e.id),keyRef pub keyId,
    Base64.encode p.rekeyNonce⟩) f

theorem startRekey_eq_ok (h : c.session.Holds e) {options : RekeyClientOptions}
    {entropy : RekeyEntropy} {p : PendingRekey} :
    (startRekey C options entropy).call c = (.ok p,c') ↔ c.Open ∧
      p = ⟨options.ephemeralPriv.getD entropy.ephemeralPriv,
        options.rekeyNonce.getD entropy.nonce,c.session.role.direction.other⟩ ∧
      ∃ pub keyId m, x25519PublicKey C p.ephPriv = .ok pub ∧ fingerprint C pub = .ok keyId ∧
        sealRekeyMessage C c.session c.session.role.direction (Canonical.canonicalBytes (.obj
          (RekeyInit.members ⟨some (.str e.id),keyRef pub keyId,Base64.encode p.rekeyNonce⟩)))
          entropy.aeadNonce = .ok m ∧ c' = c.put m.frame := by
  have hwf (pub : Bytes) (keyId : JsString) (nonce : Bytes) : (Json.obj (RekeyInit.members
      ⟨some (.str e.id),keyRef pub keyId,Base64.encode nonce⟩)).WF := RekeyInit.wf (by simp)
  rw [startRekey,get_bind]
  dsimp only
  simp only [lift_bind_eq_ok,h.id,Canonical.marshal_eq (hwf _ _ _),Except.ok.injEq,
    exists_eq_left']
  simp only [Method.bind_eq_ok,Connection.send_eq_ok,call_pure,Prod.mk.injEq,Except.ok.injEq]
  constructor
  · rintro ⟨pub,hpub,keyId,hkeyId,m,hm,_,_,⟨hopen,rfl⟩,rfl,rfl⟩
    exact ⟨hopen,rfl,pub,keyId,m,hpub,hkeyId,hm,rfl⟩
  · rintro ⟨hopen,rfl,pub,keyId,m,hpub,hkeyId,hm,rfl⟩
    exact ⟨pub,hpub,keyId,hkeyId,m,hm,(),_,⟨hopen,rfl⟩,rfl,rfl⟩

/-- The waiting call of a start that went through. -/
theorem started_of_start (h : c.session.Holds e) {options : RekeyClientOptions}
    {entropy : RekeyEntropy} {p : PendingRekey}
    (hc : (startRekey C options entropy).call c = (.ok p,c')) :
    ∃ pub f, c' = c.put f ∧ Started C e c.session.role.direction p pub f := by
  obtain ⟨-,rfl,pub,keyId,m,hpub,-,hm,rfl⟩ := (startRekey_eq_ok h).mp hc
  exact ⟨pub,m.frame,rfl,hpub,rfl,keyId,seals_of_seal h (RekeyInit.wf (by simp)) hm⟩

end Rekey

/-- The session after a rekey: the keys it had are zeroed. -/
def Session.rekeyed (s : Session) (e : Epoch) (apply : RekeyApply) : Session :=
  {s with
    keys := some apply.newKeys
    sessionId := apply.newSessionId
    retired := s.retired++[e.keys.zeroed]}

theorem Session.applyRekey_eq_ok {s s' : Session} {e : Epoch} (h : s.Holds e)
    {apply : RekeyApply} :
    s.applyRekey apply = .ok s' ↔ s.closed = false ∧ s' = s.rekeyed e apply := by
  rw [Session.applyRekey,h.keys]
  simp only [need,ok_bind,Semp.bind_eq_ok,require_eq_ok,exists_const,Except.ok.injEq,
    eq_comm (b := s')]
  rfl

namespace Connection
variable {c c' : Connection} {e : Epoch} {apply : RekeyApply}

theorem applyRekey_eq_ok (h : c.session.Holds e) {u : Unit} :
    (applyRekey apply).call c = (.ok u,c') ↔
      c.session.closed = false ∧ c' = {c with session := c.session.rekeyed e apply} := by
  rw [applyRekey,get_bind,lift_bind_eq_ok]
  simp only [Session.applyRekey_eq_ok h,call_modify,Prod.mk.injEq,true_and]
  constructor
  · rintro ⟨s,⟨hclosed,rfl⟩,rfl⟩
    exact ⟨hclosed,rfl⟩
  · rintro ⟨hclosed,rfl⟩
    exact ⟨_,⟨hclosed,rfl⟩,rfl⟩

theorem applyRekey_atomic : Atomic (applyRekey apply) c :=
  .get (.lift fun _ _ _ _ h => nomatch h)

/-- The connection after a rekey from one epoch to the next. -/
def moved (c : Connection) (e e' : Epoch) : Connection :=
  {c with session := c.session.rekeyed e ⟨some (.str e'.id),e'.keys⟩}

section Moved
variable (c : Connection) (e e' : Epoch)

theorem moved_holds : (c.moved e e').session.Holds e' := ⟨rfl,rfl⟩

@[simp] theorem moved_role : (c.moved e e').session.role = c.session.role := rfl

@[simp] theorem moved_closed : (c.moved e e').session.closed = c.session.closed := rfl

@[simp] theorem moved_retired :
    (c.moved e e').session.retired = c.session.retired++[e.keys.zeroed] := rfl

@[simp] theorem moved_transport : (c.moved e e').transport = c.transport := rfl

end Moved

end Connection

namespace Rekey
variable {C : Crypto} {rt : Runtime} {c c' : Connection} {e : Epoch}

theorem finishRekey_atomic (p : PendingRekey) (respBytes : Option Bytes) :
    Atomic (finishRekey C rt p respBytes) c :=
  .get (.lift fun _ _ => .lift fun _ _ => .lift fun _ _ => .lift fun _ _ =>
    .bind Connection.applyRekey_atomic fun _ _ _ => ⟨_,_,rfl⟩)

theorem finishRekey_eq_ok (h : c.session.Holds e) {p : PendingRekey} {respBytes : Option Bytes}
    {id : Option Json} : (finishRekey C rt p respBytes).call c = (.ok id,c') ↔
      ∃ f body apply, respBytes = some f ∧
        readBody C rt c.session f p.oppositeDir "response" = .ok body ∧
        expectAccepted body = .ok () ∧ acceptedKeys C rt p body = .ok apply ∧
        c.session.closed = false ∧ id = apply.newSessionId ∧
        c' = {c with session := c.session.rekeyed e apply} := by
  rw [finishRekey,get_bind]
  simp only [lift_bind_eq_ok,need_eq_ok]
  simp only [Method.bind_eq_ok,Connection.applyRekey_eq_ok h,call_pure,Prod.mk.injEq,
    Except.ok.injEq]
  constructor
  · rintro ⟨f,rfl,body,hbody,_,hexp,apply,happly,_,_,⟨hclosed,rfl⟩,rfl,rfl⟩
    exact ⟨f,body,apply,rfl,hbody,hexp,happly,hclosed,rfl,rfl⟩
  · rintro ⟨f,body,apply,rfl,hbody,hexp,happly,hclosed,rfl,rfl⟩
    exact ⟨f,rfl,body,hbody,(),hexp,apply,happly,(),_,⟨hclosed,rfl⟩,rfl,rfl⟩

section Bodies
variable {id newId keyId : JsString} {pub nonce responderNonce : Bytes} {ms : Members}
  {rekeyNonce : Option Json}

theorem ephemeralOf_received {body : Members} (hwf : (Json.obj body).WF) (hr : Received body ms)
    (h : lookup body (js "new_ephemeral_key") = some (.obj (keyRef pub keyId).members)) :
    ephemeralOf rt (.obj ms) = .ok pub := by
  obtain ⟨key,hkey,hr'⟩ := hr.obj hwf h
  rw [ephemeralOf,getProp_obj,hkey,ok_bind,getProp_obj,
    hr'.str (KeyRef.wf _) (k := js "key") (s := Base64.encode pub) rfl,ok_bind,base64Decode_str,
    Base64.decode_encode]

/-- What a responder reads from an init. -/
theorem init_received (rt : Runtime) (hr : Received (RekeyInit.members
      ⟨some (.str id),keyRef pub keyId,Base64.encode nonce⟩) ms) :
    lookup ms (js "step") = some (.str (js "rekey-init")) ∧
      ephemeralOf rt (.obj ms) = .ok pub ∧
      lookup ms (js "rekey_nonce") = some (.str (Base64.encode nonce)) := by
  have hwf : (Json.obj (RekeyInit.members
      ⟨some (.str id),keyRef pub keyId,Base64.encode nonce⟩)).WF := RekeyInit.wf (by simp)
  have hkey : lookup (RekeyInit.members ⟨some (.str id),keyRef pub keyId,Base64.encode nonce⟩)
      (js "new_ephemeral_key") = some (.obj (keyRef pub keyId).members) := rfl
  exact ⟨hr.str hwf rfl,ephemeralOf_received hwf hr hkey,hr.str hwf rfl⟩

/-- What the initiator reads from an acceptance. -/
theorem accepted_received (rt : Runtime) (hn : ∀ v ∈ rekeyNonce, v.WF)
    (hr : Received (RekeyAccepted.members
      ⟨some (.str id),newId,keyRef pub keyId,rekeyNonce,Base64.encode responderNonce⟩) ms) :
    lookup ms (js "step") = some (.str (js "rekey-accepted")) ∧
      ephemeralOf rt (.obj ms) = .ok pub ∧
      lookup ms (js "responder_nonce") = some (.str (Base64.encode responderNonce)) ∧
      lookup ms (js "new_session_id") = some (.str newId) := by
  have hwf : (Json.obj (RekeyAccepted.members ⟨some (.str id),newId,keyRef pub keyId,rekeyNonce,
      Base64.encode responderNonce⟩)).WF := RekeyAccepted.wf (by simp) hn
  have hkey : lookup (RekeyAccepted.members ⟨some (.str id),newId,keyRef pub keyId,rekeyNonce,
      Base64.encode responderNonce⟩) (js "new_ephemeral_key") =
        some (.obj (keyRef pub keyId).members) := rfl
  refine ⟨hr.str hwf rfl,ephemeralOf_received hwf hr hkey,?_,hr.str hwf rfl⟩
  cases rekeyNonce <;> exact hr.str hwf rfl

end Bodies

/-- The responder, with an ephemeral key and a nonce of its own, answered an init of the
epoch `e` that names `pub` and `nonce` by the frame `f`, and went on to `e'`. -/
structure Answered (C : Crypto) (e : Epoch) (d : Direction) (pub nonce ephPriv responderNonce f :
    Bytes) (e' : Epoch) : Prop where
  derived : ∃ shared, x25519Agree C ephPriv pub = .ok shared ∧
    e'.keys = deriveRekeyKeys C shared nonce responderNonce
  reply : ∃ ephPub keyId, x25519PublicKey C ephPriv = .ok ephPub ∧
    Seals C e d.other (RekeyAccepted.members ⟨some (.str e.id),e'.id,keyRef ephPub keyId,
      some (.str (Base64.encode nonce)),Base64.encode responderNonce⟩) f

theorem answerRekey_atomic (h : c.session.Holds e) (options : RekeyServerOptions)
    (entropy : RekeyEntropy) (newSessionId : JsString) (initBytes : Option Bytes) :
    Atomic (answerRekey C rt options entropy newSessionId initBytes) c := by
  refine .get (.lift fun _ _ => .lift fun _ _ => .lift fun a _ => .lift fun _ _ => .lift fun m _ =>
    .bind (Connection.send_atomic _) fun _ mid hsend => ?_)
  obtain ⟨hopen,rfl⟩ := Connection.send_eq_ok.mp hsend
  have happly : (Connection.applyRekey a.apply).call (c.put m.frame) =
      (.ok (),{c.put m.frame with session := c.session.rekeyed e a.apply}) :=
    (Connection.applyRekey_eq_ok (c := c.put m.frame) h).mpr ⟨hopen.session,rfl⟩
  exact ⟨_,_,bind_of_ok happly _⟩

theorem answerRekey_eq_ok (h : c.session.Holds e) {options : RekeyServerOptions}
    {entropy : RekeyEntropy} {newSessionId id : JsString} {initBytes : Option Bytes} :
    (answerRekey C rt options entropy newSessionId initBytes).call c = (.ok id,c') ↔
      c.Open ∧ id = newSessionId ∧ ∃ i body a text m, initBytes = some i ∧
        readBody C rt c.session i c.session.role.other.direction "init" = .ok body ∧
        answerInit C rt c.session options entropy newSessionId body = .ok a ∧
        Canonical.marshal (.obj a.accepted.members) = .ok text ∧
        sealRekeyMessage C c.session c.session.role.other.direction.other text
          entropy.aeadNonce = .ok m ∧
        c' = {c.put m.frame with session := c.session.rekeyed e a.apply} := by
  have hput (f : Bytes) : (c.put f).session.Holds e := h
  rw [answerRekey,get_bind]
  simp only [lift_bind_eq_ok,need_eq_ok]
  simp only [Method.bind_eq_ok,Connection.send_eq_ok,call_pure,Prod.mk.injEq,Except.ok.injEq]
  constructor
  · rintro ⟨i,rfl,body,hbody,a,ha,text,htext,m,hm,_,_,⟨hopen,rfl⟩,_,_,happly,rfl,rfl⟩
    obtain ⟨-,rfl⟩ := (Connection.applyRekey_eq_ok (hput m.frame)).mp happly
    exact ⟨hopen,rfl,i,body,a,text,m,rfl,hbody,ha,htext,hm,rfl⟩
  · rintro ⟨hopen,rfl,i,body,a,text,m,rfl,hbody,ha,htext,hm,rfl⟩
    exact ⟨i,rfl,body,hbody,a,ha,text,htext,m,hm,(),_,⟨hopen,rfl⟩,(),_,
      (Connection.applyRekey_eq_ok (hput m.frame)).mpr ⟨hopen.session,rfl⟩,rfl,rfl⟩

theorem answerInit_eq_ok {session : Session} {options : RekeyServerOptions}
    {entropy : RekeyEntropy} {newSessionId : JsString} {ms : Members} {a : Answer} :
    answerInit C rt session options entropy newSessionId (.obj ms) = .ok a ↔
      isStr (lookup ms (js "step")) (js "rekey-init") = true ∧
      ∃ ephPub initiatorPub rekeyNonce shared keyId,
        x25519PublicKey C (options.ephemeralPriv.getD entropy.ephemeralPriv) = .ok ephPub ∧
        ephemeralOf rt (.obj ms) = .ok initiatorPub ∧
        base64Decode rt (lookup ms (js "rekey_nonce")) = .ok rekeyNonce ∧
        x25519Agree C (options.ephemeralPriv.getD entropy.ephemeralPriv) initiatorPub =
          .ok shared ∧
        fingerprint C ephPub = .ok keyId ∧
        a = ⟨⟨session.sessionId,newSessionId,keyRef ephPub keyId,lookup ms (js "rekey_nonce"),
            Base64.encode (options.responderNonce.getD entropy.nonce)⟩,
          ⟨some (.str newSessionId),deriveRekeyKeys C shared rekeyNonce
            (options.responderNonce.getD entropy.nonce)⟩⟩ := by
  rw [answerInit,getProp_obj,ok_bind]
  split_ifs with hstep
  · simp only [Semp.bind_eq_ok,getProp_obj,ok_bind,Except.ok.injEq,exists_and_left,hstep,
      true_and,eq_comm (b := a)]
  · constructor
    · intro h
      obtain ⟨_,-,h⟩ := Semp.bind_eq_ok.mp h
      exact absurd h (raise_ne_ok _ _)
    · exact fun h => absurd h.1 hstep

/-- What a responder does with an init that was sealed for its session. -/
theorem answered_of_answer (laws : AeadLaws C) (h : c.session.Holds e)
    {options : RekeyServerOptions} {entropy : RekeyEntropy} {newSessionId id keyId : JsString}
    {pub nonce i : Bytes} (hi : Seals C e c.session.role.other.direction (RekeyInit.members
      ⟨some (.str e.id),keyRef pub keyId,Base64.encode nonce⟩) i)
    (hc : (answerRekey C rt options entropy newSessionId (some i)).call c = (.ok id,c')) :
    ∃ ephPriv responderNonce f e', e'.id = newSessionId ∧
      Answered C e c.session.role.other.direction pub nonce ephPriv responderNonce f e' ∧
      c' = (c.put f).moved e e' := by
  obtain ⟨-,-,_,body,a,text,m,hsome,hbody,ha,htext,hm,rfl⟩ := (answerRekey_eq_ok h).mp hc
  obtain rfl := Option.some.inj hsome
  obtain ⟨ms,hread,hr⟩ := hi.read rt laws h "init"
  obtain rfl := Except.ok.inj (hread.symm.trans hbody)
  obtain ⟨-,heph,hnonce⟩ := init_received rt hr
  obtain ⟨-,ephPub,ipub,rn,shared,keyId',hpub,hipub,hrn,hshared,-,rfl⟩ := answerInit_eq_ok.mp ha
  obtain rfl := Except.ok.inj (hipub.symm.trans heph)
  rw [hnonce,base64Decode_str,Base64.decode_encode,Except.ok.injEq] at hrn
  subst hrn
  simp only [hnonce,h.id] at htext
  have hwf : (Json.obj (RekeyAccepted.members ⟨some (.str e.id),newSessionId,keyRef ephPub keyId',
      some (.str (Base64.encode nonce)),Base64.encode
        (options.responderNonce.getD entropy.nonce)⟩)).WF := RekeyAccepted.wf (by simp) (by simp)
  rw [Canonical.marshal_eq hwf,Except.ok.injEq] at htext
  subst htext
  exact ⟨_,_,m.frame,⟨newSessionId,_⟩,rfl,⟨⟨shared,hshared,rfl⟩,ephPub,keyId',hpub,
    seals_of_seal h hwf hm⟩,rfl⟩

/-- A frame is sealed in one direction and under one id. -/
theorem Seals.same {e' : Epoch} {d d' : Direction} {body body' : Members} {f : Bytes}
    (h : Seals C e d body f) (h' : Seals C e' d' body' f) : d = d' ∧ e.id = e'.id := by
  obtain ⟨nonce,ct,-,-,rfl⟩ := h.sealed
  obtain ⟨nonce',ct',-,-,hf⟩ := h'.sealed
  have hread := SealedRekey.read d e.id (Base64.encode nonce) (Base64.encode ct)
  rw [hf,SealedRekey.read,Except.ok.injEq,Json.obj.injEq] at hread
  have hdir := congrArg (lookup · (js "direction")) hread
  have hid := congrArg (lookup · (js "session_id")) hread
  simp only [SealedRekey.lookup_direction,SealedRekey.lookup_sessionId,Option.some.injEq,
    Json.str.injEq] at hdir hid
  exact ⟨Direction.name_injective hdir.symm,hid.symm⟩

/-- A fresh end of a session in this epoch. -/
def fresh (e : Epoch) (role : Role) : Connection where
  session := ⟨role,some (.str e.id),none,[],none,none,none,[],some e.keys,false,[]⟩
  transport := ⟨[],[],false⟩

theorem fresh_holds (e : Epoch) (role : Role) : (fresh e role).session.Holds e := ⟨rfl,rfl⟩

theorem fresh_open (e : Epoch) (role : Role) : (fresh e role).Open := ⟨rfl,rfl⟩

/-- A frame carries one init. -/
theorem Seals.init_inj (laws : AeadLaws C) {d d' : Direction} {keyId keyId' : JsString}
    {pub pub' nonce nonce' i : Bytes}
    (h : Seals C e d (RekeyInit.members
      ⟨some (.str e.id),keyRef pub keyId,Base64.encode nonce⟩) i)
    (h' : Seals C e d' (RekeyInit.members
      ⟨some (.str e.id),keyRef pub' keyId',Base64.encode nonce'⟩) i) :
    pub = pub' ∧ nonce = nonce' := by
  obtain ⟨rfl,-⟩ := h.same h'
  have hs := fresh_holds e .client
  obtain ⟨ms,hread,hr⟩ := h.read Sample.runtime laws hs "init"
  obtain ⟨ms',hread',hr'⟩ := h'.read Sample.runtime laws hs "init"
  obtain rfl := Json.obj.inj (Except.ok.inj (hread.symm.trans hread'))
  obtain ⟨-,heph,hnonce⟩ := init_received Sample.runtime hr
  obtain ⟨-,heph',hnonce'⟩ := init_received Sample.runtime hr'
  refine ⟨Except.ok.inj (heph.symm.trans heph'),?_⟩
  rw [hnonce,Option.some.injEq,Json.str.injEq] at hnonce'
  exact Base64.encode_injective hnonce'

variable (rt) in
/-- A waiting call that is handed an acceptance derives its keys from its own ephemeral key
and nonce, whatever nonce the acceptance names. -/
theorem finishRekey_accepted (laws : AeadLaws C) (h : c.session.Holds e) {d : Direction}
    {newId keyId : JsString} {ephPub responderNonce f : Bytes} {rekeyNonce : Option Json}
    (hn : ∀ v ∈ rekeyNonce, v.WF) (hf : Seals C e d (RekeyAccepted.members
      ⟨some (.str e.id),newId,keyRef ephPub keyId,rekeyNonce,Base64.encode responderNonce⟩) f)
    {p : PendingRekey} (hp : p.oppositeDir = d) {id : Option Json} :
    (finishRekey C rt p (some f)).call c = (.ok id,c') ↔ c.session.closed = false ∧
      id = some (.str newId) ∧ ∃ shared, x25519Agree C p.ephPriv ephPub = .ok shared ∧
        c' = c.moved e ⟨newId,deriveRekeyKeys C shared p.rekeyNonce responderNonce⟩ := by
  obtain ⟨ms,hread,hr⟩ := hf.read rt laws h "response"
  obtain ⟨hstep,heph,hrn,hid⟩ := accepted_received rt hn hr
  have hexp : expectAccepted (.obj ms) = .ok () := by
    rw [expectAccepted,getProp_obj,hstep,ok_bind]
    rfl
  have hkeys {apply : RekeyApply} : acceptedKeys C rt p (.obj ms) = .ok apply ↔ ∃ shared,
      x25519Agree C p.ephPriv ephPub = .ok shared ∧
        apply = ⟨some (.str newId),deriveRekeyKeys C shared p.rekeyNonce responderNonce⟩ := by
    rw [acceptedKeys,heph,ok_bind]
    simp only [Semp.bind_eq_ok,getProp_obj,hrn,hid,ok_bind,base64Decode_str,Base64.decode_encode,
      Except.ok.injEq,eq_comm (b := apply)]
  rw [finishRekey_eq_ok h]
  constructor
  · rintro ⟨_,body,apply,hsome,hbody,-,happly,hclosed,rfl,rfl⟩
    obtain rfl := Option.some.inj hsome
    rw [hp,hread] at hbody
    obtain rfl := Except.ok.inj hbody
    obtain ⟨shared,hshared,rfl⟩ := hkeys.mp happly
    exact ⟨hclosed,rfl,shared,hshared,rfl⟩
  · rintro ⟨hclosed,rfl,shared,hshared,rfl⟩
    exact ⟨f,_,_,rfl,hp ▸ hread,hexp,hkeys.mpr ⟨shared,hshared,rfl⟩,hclosed,rfl,rfl⟩

variable (rt) in
/-- The own reply of a waiting call leads to the keys of the responder. -/
theorem Answered.finish (laws : Laws C) (h : c.session.Holds e) (hclosed : c.session.closed = false)
    {d : Direction} {p : PendingRekey} {pub ephPriv responderNonce i f : Bytes} {e' : Epoch}
    (hp : Started C e d p pub i)
    (hf : Answered C e d pub p.rekeyNonce ephPriv responderNonce f e') :
    (finishRekey C rt p (some f)).call c = (.ok (some (.str e'.id)),c.moved e e') := by
  obtain ⟨shared,hshared,hkeys⟩ := hf.derived
  obtain ⟨ephPub,keyId,hpub,hseal⟩ := hf.reply
  obtain ⟨s,hs,hs'⟩ := laws.dh.agree_comm _ _ _ _ hpub hp.ephemeral
  obtain rfl : s = shared := Except.ok.inj (hs.symm.trans hshared)
  refine (finishRekey_accepted rt laws.aead h (by simp) hseal hp.oppositeDir).mpr
    ⟨hclosed,rfl,s,hs',?_⟩
  rw [← hkeys]

/-- The session goes on only with a frame that was sealed for its id, to the initiator. -/
theorem finishRekey_sealed (h : c.session.Holds e) {e' : Epoch} {d : Direction} {body : Members}
    {f : Bytes} (hf : Seals C e' d body f) {p : PendingRekey} {id : Option Json}
    (hc : (finishRekey C rt p (some f)).call c = (.ok id,c')) :
    p.oppositeDir = d ∧ e.id = e'.id := by
  obtain ⟨_,_,_,hsome,hread,-⟩ := (finishRekey_eq_ok h).mp hc
  obtain rfl := Option.some.inj hsome
  exact hf.of_read h.id hread

theorem answerRekey_sealed (h : c.session.Holds e) {e' : Epoch} {d : Direction} {body : Members}
    {i : Bytes} (hi : Seals C e' d body i) {options : RekeyServerOptions} {entropy : RekeyEntropy}
    {newSessionId id : JsString}
    (hc : (answerRekey C rt options entropy newSessionId (some i)).call c = (.ok id,c')) :
    c.session.role.other.direction = d ∧ e.id = e'.id := by
  obtain ⟨-,-,_,_,_,_,_,hsome,hread,-⟩ := (answerRekey_eq_ok h).mp hc
  obtain rfl := Option.some.inj hsome
  exact hi.of_read h.id hread

theorem expectAccepted_rejected {ms : Members}
    (h : lookup ms (js "step") = some (.str (js "rekey-rejected"))) :
    expectAccepted (.obj ms) ≠ .ok () := by
  intro hok
  rw [expectAccepted,getProp_obj,h,ok_bind,if_pos (isStr_iff.mpr rfl),getProp_obj,ok_bind] at hok
  obtain ⟨_,-,hok⟩ := Semp.bind_eq_ok.mp hok
  rw [getProp_obj,ok_bind] at hok
  split at hok
  · exact raise_ne_ok _ _ hok
  · obtain ⟨_,-,hok⟩ := Semp.bind_eq_ok.mp hok
    exact raise_ne_ok _ _ hok

/-- A rejection changes no keys. -/
theorem finishRekey_rejected (laws : AeadLaws C) (h : c.session.Holds e) {d : Direction}
    {code : JsString} {reason : Option JsString} {f : Bytes} (hf : Seals C e d
      (RekeyRejected.members ⟨some (.str e.id),code,reason⟩) f) {p : PendingRekey}
    {id : Option Json} : (finishRekey C rt p (some f)).call c ≠ (.ok id,c') := by
  intro hc
  obtain ⟨rfl,-⟩ := finishRekey_sealed h hf hc
  obtain ⟨_,body,_,hsome,hread,hexp,-⟩ := (finishRekey_eq_ok h).mp hc
  obtain rfl := Option.some.inj hsome
  obtain ⟨ms,hms,hr⟩ := hf.read rt laws h "response"
  obtain rfl := Except.ok.inj (hms.symm.trans hread)
  refine expectAccepted_rejected ?_ hexp
  cases reason <;> exact hr.str hf.wf rfl

theorem rejectRekey_atomic (entropy : RekeyEntropy) (code : JsString) (reason : Option JsString) :
    Atomic (rejectRekey C entropy code reason) c :=
  .get (.lift fun _ _ => .lift fun _ _ => Connection.send_atomic _)

theorem rejected_of_reject (h : c.session.Holds e) {entropy : RekeyEntropy} {code : JsString}
    {reason : Option JsString} {u : Unit}
    (hc : (rejectRekey C entropy code reason).call c = (.ok u,c')) :
    ∃ f, c' = c.put f ∧ Seals C e c.session.role.direction
      (RekeyRejected.members ⟨some (.str e.id),code,reason⟩) f := by
  have hwf : (Json.obj (RekeyRejected.members ⟨some (.str e.id),code,reason⟩)).WF :=
    RekeyRejected.wf (by simp)
  rw [rejectRekey,get_bind,h.id,Canonical.marshal_eq hwf] at hc
  simp only [lift_bind_eq_ok,Except.ok.injEq,exists_eq_left'] at hc
  obtain ⟨m,hm,hsend⟩ := hc
  obtain ⟨-,rfl⟩ := Connection.send_eq_ok.mp hsend
  exact ⟨m.frame,rfl,seals_of_seal h hwf hm⟩

section Honest

/-- The keys that seal are as long as the cipher takes them. -/
structure Sized (e : Epoch) : Prop where
  encC2S : e.keys.encC2S.length = 32
  encS2C : e.keys.encS2C.length = 32

theorem Sized.pick (h : Sized e) (d : Direction) : (pickRekeyKeys e.keys d).1.length = 32 := by
  cases d
  · exact h.encC2S
  · exact h.encS2C

theorem sized_derived (laws : KdfLaws C) (id : JsString) (shared a b : Bytes) :
    Sized ⟨id,deriveRekeyKeys C shared a b⟩ := ⟨laws.expand_length ..,laws.expand_length ..⟩

/-- What was pinned, and else drawn, has the sizes the libraries ask for. -/
structure Drawn (pinned : Option Bytes) (entropy : RekeyEntropy) : Prop where
  ephemeralPriv : (pinned.getD entropy.ephemeralPriv).length = 32
  aeadNonce : entropy.aeadNonce.length = 12

theorem sealRekeyMessage_ok (laws : AeadLaws C) {s : Session} (h : s.Holds e) (hsize : Sized e)
    (d : Direction) (text : Bytes) {nonce : Bytes} (hn : nonce.length = 12) :
    ∃ m, sealRekeyMessage C s d text nonce = .ok m := by
  obtain ⟨ct,hct,-⟩ := laws.decrypt_encrypt (pickRekeyKeys e.keys d).1 nonce
    (rekeyAAD d (utf8 e.id) (pickRekeyKeys e.keys d).2) text (hsize.pick d) hn
  exact ⟨_,(sealRekeyMessage_eq_ok h).mpr ⟨hn,ct,hct,rfl⟩⟩

theorem ephemeral_ok (laws : DhLaws C) {priv : Bytes} (h : priv.length = 32) :
    ∃ pub keyId, x25519PublicKey C priv = .ok pub ∧ fingerprint C pub = .ok keyId := by
  obtain ⟨pub,hpub⟩ := laws.publicKey_ok priv h
  have hlen := (laws.publicKey_length priv pub hpub).2
  refine ⟨pub,hex (C.sha256 pub).val,hpub,?_⟩
  rw [fingerprint,if_neg (by omega)]

/-- An honest call of `rekeyClient` sends its init. -/
theorem startRekey_ok (laws : Laws C) (h : c.session.Holds e) (hopen : c.Open) (hsize : Sized e)
    {options : RekeyClientOptions} {entropy : RekeyEntropy}
    (hdrawn : Drawn options.ephemeralPriv entropy) :
    ∃ p pub f, (startRekey C options entropy).call c = (.ok p,c.put f) ∧
      p.ephPriv = options.ephemeralPriv.getD entropy.ephemeralPriv ∧
      p.rekeyNonce = options.rekeyNonce.getD entropy.nonce ∧
      Started C e c.session.role.direction p pub f := by
  obtain ⟨pub,keyId,hpub,hkeyId⟩ := ephemeral_ok laws.dh hdrawn.ephemeralPriv
  obtain ⟨m,hm⟩ := sealRekeyMessage_ok laws.aead h hsize c.session.role.direction
    (Canonical.canonicalBytes (.obj (RekeyInit.members ⟨some (.str e.id),keyRef pub keyId,
      Base64.encode (options.rekeyNonce.getD entropy.nonce)⟩))) hdrawn.aeadNonce
  exact ⟨_,pub,m.frame,(startRekey_eq_ok h).mpr ⟨hopen,rfl,pub,keyId,m,hpub,hkeyId,hm,rfl⟩,rfl,rfl,
    hpub,rfl,keyId,seals_of_seal h (RekeyInit.wf (by simp)) hm⟩

variable (rt) in
/-- An honest responder answers the init of its session. -/
theorem answerRekey_ok (laws : Laws C) (h : c.session.Holds e) (hopen : c.Open) (hsize : Sized e)
    {options : RekeyServerOptions} {entropy : RekeyEntropy} (newSessionId : JsString)
    (hdrawn : Drawn options.ephemeralPriv entropy) {p : PendingRekey} {pub i : Bytes}
    (hi : Started C e c.session.role.other.direction p pub i) :
    ∃ f e', e'.id = newSessionId ∧ Sized e' ∧
      Answered C e c.session.role.other.direction pub p.rekeyNonce
        (options.ephemeralPriv.getD entropy.ephemeralPriv)
        (options.responderNonce.getD entropy.nonce) f e' ∧
      (answerRekey C rt options entropy newSessionId (some i)).call c =
        (.ok newSessionId,(c.put f).moved e e') := by
  obtain ⟨keyId,hseal⟩ := hi.init
  obtain ⟨ms,hread,hr⟩ := hseal.read rt laws.aead h "init"
  obtain ⟨hstep,heph,hnonce⟩ := init_received rt hr
  obtain ⟨ephPub,keyId',hpub,hkeyId⟩ := ephemeral_ok laws.dh hdrawn.ephemeralPriv
  obtain ⟨shared,hshared,-⟩ := laws.dh.agree_comm _ _ _ _ hpub hi.ephemeral
  have ha : answerInit C rt c.session options entropy newSessionId (.obj ms) =
      .ok ⟨⟨c.session.sessionId,newSessionId,keyRef ephPub keyId',lookup ms (js "rekey_nonce"),
          Base64.encode (options.responderNonce.getD entropy.nonce)⟩,
        ⟨some (.str newSessionId),deriveRekeyKeys C shared p.rekeyNonce
          (options.responderNonce.getD entropy.nonce)⟩⟩ :=
    answerInit_eq_ok.mpr ⟨isStr_iff.mpr hstep,ephPub,pub,p.rekeyNonce,shared,keyId',hpub,heph,
      by rw [hnonce,base64Decode_str,Base64.decode_encode],hshared,hkeyId,rfl⟩
  rw [hnonce,h.id] at ha
  have hwf : (Json.obj (RekeyAccepted.members ⟨some (.str e.id),newSessionId,keyRef ephPub keyId',
      some (.str (Base64.encode p.rekeyNonce)),Base64.encode
        (options.responderNonce.getD entropy.nonce)⟩)).WF := RekeyAccepted.wf (by simp) (by simp)
  obtain ⟨m,hm⟩ := sealRekeyMessage_ok laws.aead h hsize c.session.role.other.direction.other
    (Canonical.canonicalBytes (.obj (RekeyAccepted.members ⟨some (.str e.id),newSessionId,
      keyRef ephPub keyId',some (.str (Base64.encode p.rekeyNonce)),
      Base64.encode (options.responderNonce.getD entropy.nonce)⟩))) hdrawn.aeadNonce
  exact ⟨m.frame,⟨newSessionId,_⟩,rfl,sized_derived laws.kdf ..,
    ⟨⟨shared,hshared,rfl⟩,ephPub,keyId',hpub,seals_of_seal h hwf hm⟩,
    (answerRekey_eq_ok h).mpr ⟨hopen,rfl,i,_,_,_,m,rfl,hread,ha,Canonical.marshal_eq hwf,hm,rfl⟩⟩

end Honest

end Rekey
end Semp
