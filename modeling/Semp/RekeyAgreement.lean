import Semp.RekeyRun

/-! Runs of rekeys between the two ends of a session: calls that are retried, frames that are
late, repeated or lost, and the exchanges of two honest ends in order. -/
namespace Semp
namespace Rekey
open Handshake Method

/-- A call of `rekeyClient`, the frame of its init, and whether it still waits. -/
structure Call where
  pending : PendingRekey
  init : Bytes
  waits : Bool

/-- What stays of a call when it ends. -/
def Call.sent (c : Call) : PendingRekey × Bytes := (c.pending,c.init)

theorem map_sent_set {calls : List Call} {k : ℕ} {call : Call} (h : calls[k]? = some call) :
    (calls.set k {call with waits := false}).map Call.sent = calls.map Call.sent := by
  rw [List.map_set]
  refine List.ext_getElem? fun n => ?_
  rw [List.getElem?_set]
  split_ifs with hk hn
  · subst hk
    rw [List.getElem?_map,h]
    rfl
  · subst hk
    rw [List.getElem?_eq_none (by simpa using hn)]
  · rfl

/-- Both ends of one session, and what happened so far. -/
structure World where
  initiator : Connection
  responder : Connection
  calls : List Call
  /-- The inits that were answered, each with the frame of its reply. -/
  answers : List (Bytes × Bytes)
  rejections : List Bytes
  /-- The replies from which keys were installed, each with the init of the call. -/
  installs : List (Bytes × Bytes)
  /-- The ids that the session had. -/
  ids : List JsString

inductive Act
  | start (options : RekeyClientOptions) (entropy : RekeyEntropy)
  | finish (k : ℕ) (respBytes : Option Bytes)
  | answer (options : RekeyServerOptions) (entropy : RekeyEntropy) (newSessionId : JsString)
      (initBytes : Option Bytes)
  | reject (entropy : RekeyEntropy) (reasonCode : JsString) (reason : Option JsString)

namespace World

def begin (initiator responder : Connection) (id : JsString) : World where
  initiator := initiator
  responder := responder
  calls := []
  answers := []
  rejections := []
  installs := []
  ids := [id]

section Code
variable (C : Crypto) (rt : Runtime)

def start (w : World) (options : RekeyClientOptions) (entropy : RekeyEntropy) : World :=
  match (startRekey C options entropy).call w.initiator with
  | (.ok p,c) =>
    {w with initiator := c, calls := w.calls++[⟨p,c.transport.sent.getLastD [],true⟩]}
  | (.error _,c) => {w with initiator := c}

/-- The `receive` of a call that waits gives a frame, or the end of the connection. -/
def finish (w : World) (k : ℕ) (respBytes : Option Bytes) : World :=
  match w.calls[k]? with
  | none => w
  | some call =>
    if call.waits then
      let calls := w.calls.set k {call with waits := false}
      match (finishRekey C rt call.pending respBytes).call w.initiator with
      | (.ok _,c) =>
        {w with
          initiator := c
          calls := calls
          installs := w.installs++[(call.init,respBytes.getD [])]}
      | (.error _,c) => {w with initiator := c, calls := calls}
    else w

def answer (w : World) (options : RekeyServerOptions) (entropy : RekeyEntropy)
    (newSessionId : JsString) (initBytes : Option Bytes) : World :=
  match (answerRekey C rt options entropy newSessionId initBytes).call w.responder with
  | (.ok _,c) =>
    {w with
      responder := c
      answers := w.answers++[(initBytes.getD [],c.transport.sent.getLastD [])]
      ids := w.ids++[newSessionId]}
  | (.error _,c) => {w with responder := c}

def reject (w : World) (entropy : RekeyEntropy) (reasonCode : JsString)
    (reason : Option JsString) : World :=
  match (rejectRekey C entropy reasonCode reason).call w.responder with
  | (.ok _,c) =>
    {w with responder := c, rejections := w.rejections++[c.transport.sent.getLastD []]}
  | (.error _,c) => {w with responder := c}

def act (w : World) : Act → World
  | .start options entropy => w.start C options entropy
  | .finish k respBytes => w.finish C rt k respBytes
  | .answer options entropy newSessionId initBytes =>
    w.answer C rt options entropy newSessionId initBytes
  | .reject entropy reasonCode reason => w.reject C entropy reasonCode reason

end Code

/-- Frames are delivered late, repeatedly or not at all, but none is made up; a new session
id is new. -/
def Delivers (w : World) : Act → Prop
  | .start .. | .reject .. => True
  | .finish _ respBytes =>
    ∀ f ∈ respBytes, f ∈ w.answers.map Prod.snd ∨ f ∈ w.rejections
  | .answer _ _ newSessionId initBytes =>
    (∀ i ∈ initBytes, i ∈ w.calls.map Call.init) ∧ newSessionId ∉ w.ids

/-- No call is handed the reply to another call's init, unless that reply was installed
before. -/
def Own (w : World) : Act → Prop
  | .finish k (some f) => ∀ call, w.calls[k]? = some call → ∀ x ∈ w.answers, x.2 = f →
      x.1 = call.init ∨ x ∈ w.installs
  | _ => True

/-- Keys are installed only from the reply to the call's own init; when every reply was
installed, both ends hold the same id and the same keys. -/
structure Agrees (w : World) : Prop where
  own : ∀ x ∈ w.installs, x ∈ w.answers
  same : w.installs = w.answers → ∃ e, w.initiator.session.Holds e ∧ w.responder.session.Holds e

/-- The runs whose steps all meet the condition. -/
inductive Run (C : Crypto) (rt : Runtime) (P : World → Act → Prop) (w₀ : World) : World → Prop
  | nil : Run C rt P w₀ w₀
  | step {w : World} {a : Act} : Run C rt P w₀ w → w.Delivers a → P w a →
      Run C rt P w₀ (w.act C rt a)

end World

/-- Two live ends of one session. -/
structure Paired (a b : Connection) (e : Epoch) : Prop where
  initiator : a.session.Holds e
  responder : b.session.Holds e
  role : b.session.role = a.session.role.other

/-- An epoch in which the responder answered an init, with the init and the reply. -/
abbrev Past := Epoch × Bytes × Bytes

namespace World

/-- The last init that was answered, and the epoch it led to, when the reply is not yet
installed. -/
structure Behind (C : Crypto) (d : Direction) (e : Epoch) (i f : Bytes) (e' : Epoch) : Prop where
  answered : ∃ pub nonce keyId ephPriv responderNonce,
    Seals C e d (RekeyInit.members ⟨some (.str e.id),keyRef pub keyId,Base64.encode nonce⟩) i ∧
    Answered C e d pub nonce ephPriv responderNonce f e'

/-- The epoch is one of the past, or `e`. -/
def Had (past : List Past) (e e₁ : Epoch) : Prop := e₁ = e ∨ ∃ x ∈ past, x.1 = e₁

/-- The initiator holds the epoch `e` and the responder `e'`, which is the same or the next,
and every frame belongs to an epoch they had. -/
structure Inv (C : Crypto) (w : World) (past : List Past) (e e' : Epoch) : Prop where
  initiator : w.initiator.session.Holds e
  responder : w.responder.session.Holds e'
  role : w.responder.session.role = w.initiator.session.role.other
  answers : w.answers = past.map Prod.snd
  nodup : (past.map (·.1.id)++[e'.id]).Nodup
  ids : ∀ id ∈ past.map (·.1.id)++[e'.id], id ∈ w.ids
  sync : (e = e' ∧ w.installs = w.answers) ∨ ∃ before i f, past = before++[(e,i,f)] ∧
    w.answers = w.installs++[(i,f)] ∧ Behind C w.initiator.session.role.direction e i f e'
  calls : ∀ x ∈ w.calls.map Call.sent, ∃ e₁ pub,
    Started C e₁ w.initiator.session.role.direction x.1 pub x.2 ∧ Had past e e₁
  replies : ∀ x ∈ past, ∃ body, Seals C x.1 w.initiator.session.role.direction.other body x.2.2
  rejections : ∀ f ∈ w.rejections, ∃ e₁ code reason, Had past e' e₁ ∧
    Seals C e₁ w.initiator.session.role.direction.other
      (RekeyRejected.members ⟨some (.str e₁.id),code,reason⟩) f

section Steps
variable {C : Crypto} {rt : Runtime} {w : World} {past : List Past} {e e' : Epoch}

theorem Inv.begin {a b : Connection} (h : Paired a b e) :
    Inv C (World.begin a b e.id) [] e e where
  initiator := h.initiator
  responder := h.responder
  role := h.role
  answers := rfl
  nodup := List.nodup_singleton _
  ids := by simp [World.begin]
  sync := .inl ⟨rfl,rfl⟩
  calls := nofun
  replies := nofun
  rejections := nofun

/-- The id of an epoch that is past is not the one the responder has. -/
theorem Inv.id_ne (h : Inv C w past e e') {x : Past} (hx : x ∈ past) : x.1.id ≠ e'.id :=
  fun hid => (List.nodup_append.mp h.nodup).2.2 _ (List.mem_map_of_mem hx) _
    (List.mem_singleton_self _) hid

/-- One id, one epoch. -/
theorem Inv.past_inj (h : Inv C w past e e') {x y : Past} (hx : x ∈ past) (hy : y ∈ past)
    (hid : x.1.id = y.1.id) : x = y :=
  List.inj_on_of_nodup_map (List.nodup_append.mp h.nodup).1 hx hy hid

/-- What the initiator holds is past, or what the responder holds. -/
theorem Inv.known (h : Inv C w past e e') : Had past e' e := by
  obtain ⟨rfl,-⟩ | ⟨_,i,f,rfl,-⟩ := h.sync
  · exact .inl rfl
  · exact .inr ⟨(e,i,f),by simp,rfl⟩

theorem Inv.had (h : Inv C w past e e') {e₁ : Epoch} (h₁ : Had past e e₁) : Had past e' e₁ := by
  obtain rfl | hx := h₁
  · exact h.known
  · exact .inr hx

/-- The epochs of the responder are told apart by their ids. -/
theorem Inv.inj (h : Inv C w past e e') {e₁ e₂ : Epoch} (h₁ : Had past e' e₁)
    (h₂ : Had past e' e₂) (hid : e₁.id = e₂.id) : e₁ = e₂ := by
  obtain rfl | ⟨x,hx,rfl⟩ := h₁ <;> obtain rfl | ⟨y,hy,rfl⟩ := h₂
  · rfl
  · exact absurd hid.symm (h.id_ne hy)
  · exact absurd hid (h.id_ne hx)
  · rw [h.past_inj hx hy hid]

/-- The responder answers nothing while the initiator is behind. -/
theorem Inv.level (h : Inv C w past e e') (h₁ : Had past e e') : e = e' := by
  obtain rfl | ⟨x,hx,hxe⟩ := h₁
  · rfl
  · exact absurd (congrArg Epoch.id hxe) (h.id_ne hx)

theorem Inv.start (h : Inv C w past e e') (options : RekeyClientOptions)
    (entropy : RekeyEntropy) : Inv C (w.start C options entropy) past e e' := by
  rw [World.start]
  rcases hc : (startRekey C options entropy).call w.initiator with ⟨_ | p,c⟩
  · obtain rfl : c = w.initiator := startRekey_atomic options entropy _ _ hc
    exact h
  · obtain ⟨pub,f,rfl,hp⟩ := started_of_start h.initiator hc
    refine {h with calls := fun x hx => ?_}
    simp only [Connection.put_last,List.map_append,List.map_cons,List.map_nil,List.mem_append,
      List.mem_singleton] at hx
    obtain hx | rfl := hx
    · exact h.calls x hx
    · exact ⟨e,pub,hp,.inl rfl⟩

/-- A call that ends. -/
theorem Inv.over (h : Inv C w past e e') {k : ℕ} {call : Call} (hk : w.calls[k]? = some call) :
    Inv C {w with calls := w.calls.set k {call with waits := false}} past e e' :=
  {h with calls := fun x hx => h.calls x (map_sent_set hk ▸ hx)}

/-- A frame that the initiator takes is the reply that it is behind with. -/
theorem Inv.taken (laws : AeadLaws C) (h : Inv C w past e e') {p : PendingRekey} {f : Bytes}
    (hf : f ∈ w.answers.map Prod.snd ∨ f ∈ w.rejections) {id : Option Json} {c : Connection}
    (hc : (finishRekey C rt p (some f)).call w.initiator = (.ok id,c)) :
    ∃ before i, past = before++[(e,i,f)] ∧ w.answers = w.installs++[(i,f)] ∧
      Behind C w.initiator.session.role.direction e i f e' := by
  have hpast : ∃ i, (e,i,f) ∈ past := by
    obtain hf | hf := hf
    · rw [h.answers,List.map_map] at hf
      obtain ⟨⟨e₁,i,f⟩,hx,rfl⟩ := List.mem_map.mp hf
      obtain ⟨body,hseal⟩ := h.replies _ hx
      obtain ⟨-,hid⟩ := finishRekey_sealed h.initiator hseal hc
      obtain rfl := h.inj h.known (.inr ⟨_,hx,rfl⟩) hid
      exact ⟨i,hx⟩
    · obtain ⟨e₁,code,reason,hhad,hseal⟩ := h.rejections f hf
      obtain ⟨-,hid⟩ := finishRekey_sealed h.initiator hseal hc
      obtain rfl := h.inj h.known hhad hid
      exact absurd hc (finishRekey_rejected laws h.initiator hseal)
  obtain ⟨i,hi⟩ := hpast
  obtain ⟨rfl,-⟩ | ⟨before,i₂,f₂,rfl,hans,hbehind⟩ := h.sync
  · exact absurd rfl (h.id_ne hi)
  · have hx := h.past_inj hi (by simp : (e,i₂,f₂) ∈ before++[(e,i₂,f₂)]) rfl
    simp only [Prod.mk.injEq,true_and] at hx
    obtain ⟨rfl,rfl⟩ := hx
    exact ⟨before,i,rfl,hans,hbehind⟩

/-- That reply was not installed before. -/
theorem Inv.not_installed (h : Inv C w past e e') {before : List Past} {i f : Bytes}
    (hpast : past = before++[(e,i,f)]) (hans : w.answers = w.installs++[(i,f)]) :
    (i,f) ∉ w.installs := by
  intro hmem
  have hinst : w.installs = before.map Prod.snd := by
    have hboth := hans.symm.trans h.answers
    rw [hpast,List.map_append] at hboth
    exact List.append_cancel_right hboth
  rw [hinst] at hmem
  obtain ⟨x,hx,hxi⟩ := List.mem_map.mp hmem
  obtain ⟨body,hseal⟩ := h.replies x (by simp [hpast,hx])
  obtain ⟨body',hseal'⟩ := h.replies (e,i,f) (by simp [hpast])
  rw [hxi] at hseal
  have hid := (hseal.same hseal').2
  have hnodup := (List.nodup_append.mp h.nodup).1
  rw [hpast,List.map_append,List.nodup_append] at hnodup
  exact hnodup.2.2 _ (List.mem_map_of_mem hx) _ (by simp) hid

/-- The own reply of a call leads to what the responder holds. -/
theorem Inv.reaches (laws : Laws C) (h : Inv C w past e e') {call : Call} {f : Bytes}
    (hcall : call ∈ w.calls)
    (hb : Behind C w.initiator.session.role.direction e call.init f e') {id : Option Json}
    {c : Connection} (hc : (finishRekey C rt call.pending (some f)).call w.initiator = (.ok id,c)) :
    c = w.initiator.moved e e' := by
  obtain ⟨e₁,pub₁,hstart,hhad⟩ := h.calls call.sent (List.mem_map_of_mem hcall)
  obtain ⟨pub,nonce,keyId,ephPriv,responderNonce,hinit,hans⟩ := hb.answered
  obtain ⟨keyId₁,hinit₁⟩ := hstart.init
  obtain rfl := h.inj (h.had hhad) h.known (hinit₁.same hinit).2
  obtain ⟨rfl,rfl⟩ := hinit₁.init_inj laws.aead hinit
  obtain ⟨_,_,_,-,-,-,-,hclosed,-⟩ := (finishRekey_eq_ok h.initiator).mp hc
  exact (Prod.mk.inj (hc.symm.trans (hans.finish rt laws h.initiator hclosed hstart))).2

theorem Inv.finish (laws : Laws C) (h : Inv C w past e e') {k : ℕ} {respBytes : Option Bytes}
    (hd : w.Delivers (.finish k respBytes)) (ho : w.Own (.finish k respBytes)) :
    ∃ e₁, Inv C (w.finish C rt k respBytes) past e₁ e' := by
  rw [World.finish]
  rcases hk : w.calls[k]? with _ | call
  · exact ⟨e,h⟩
  dsimp only
  split_ifs
  · rcases hc : (finishRekey C rt call.pending respBytes).call w.initiator with ⟨_ | id,c⟩
    · obtain rfl : c = w.initiator := finishRekey_atomic _ _ _ _ hc
      exact ⟨e,h.over hk⟩
    · obtain ⟨f,_,_,rfl,-⟩ := (finishRekey_eq_ok h.initiator).mp hc
      obtain ⟨before,i,hpast,hans,hb⟩ := h.taken laws.aead (hd f rfl) hc
      obtain rfl : i = call.init :=
        (ho call hk (i,f) (by simp [hans]) rfl).resolve_right (h.not_installed hpast hans)
      obtain rfl := h.reaches laws (List.mem_of_getElem? hk) hb hc
      exact ⟨e',{h.over hk with
        initiator := w.initiator.moved_holds e e'
        sync := .inl ⟨rfl,hans.symm⟩
        calls := fun x hx => by
          obtain ⟨e₁,pub,hstart,hhad⟩ := (h.over hk).calls x hx
          refine ⟨e₁,pub,hstart,?_⟩
          obtain rfl | hx := hhad
          · exact .inr ⟨(e₁,call.init,f),by simp [hpast],rfl⟩
          · exact .inr hx}⟩
  · exact ⟨e,h⟩

theorem Inv.answer (laws : AeadLaws C) (h : Inv C w past e e') {options : RekeyServerOptions}
    {entropy : RekeyEntropy} {newSessionId : JsString} {initBytes : Option Bytes}
    (hd : w.Delivers (.answer options entropy newSessionId initBytes)) :
    ∃ past₁ e₁, Inv C (w.answer C rt options entropy newSessionId initBytes) past₁ e e₁ := by
  rw [World.answer]
  rcases hc : (answerRekey C rt options entropy newSessionId initBytes).call w.responder with
    ⟨_ | id,c⟩
  · obtain rfl : c = w.responder := answerRekey_atomic h.responder _ _ _ _ _ _ hc
    exact ⟨past,e',h⟩
  · obtain ⟨-,-,i,_,_,_,_,rfl,-⟩ := (answerRekey_eq_ok h.responder).mp hc
    obtain ⟨call,hcall,rfl⟩ := List.mem_map.mp (hd.1 i rfl)
    obtain ⟨e₁,pub,hstart,hhad⟩ := h.calls call.sent (List.mem_map_of_mem hcall)
    obtain ⟨keyId,hseal⟩ := hstart.init
    obtain ⟨-,hid⟩ := answerRekey_sealed h.responder hseal hc
    obtain rfl := h.inj (.inl rfl) (h.had hhad) hid
    obtain rfl := h.level hhad
    have hdir : w.responder.session.role.other.direction =
        w.initiator.session.role.direction := by rw [h.role,Role.other_other]
    obtain ⟨ephPriv,responderNonce,f,e₂,rfl,hans,rfl⟩ :=
      answered_of_answer laws h.responder (hdir ▸ hseal) hc
    rw [hdir] at hans
    have hlast : ((w.responder.put f).moved e e₂).transport.sent.getLastD [] = f :=
      Connection.put_last _ f
    have hsync : w.installs = w.answers := by
      obtain ⟨-,hi⟩ | ⟨before,i,f,rfl,-⟩ := h.sync
      · exact hi
      · exact absurd rfl (h.id_ne (x := (e,i,f)) (by simp))
    dsimp only
    rw [hlast]
    refine ⟨past++[(e,call.init,f)],e₂,{
      initiator := h.initiator
      responder := Connection.moved_holds ..
      role := h.role
      answers := by simp [h.answers]
      nodup := ?_
      ids := ?_
      sync := .inr ⟨past,call.init,f,rfl,by simp [hsync],
        ⟨_,_,keyId,ephPriv,responderNonce,hseal,hans⟩⟩
      calls := ?_
      replies := ?_
      rejections := ?_ }⟩
    · rw [List.map_append,List.nodup_append]
      refine ⟨h.nodup,List.nodup_singleton _,?_⟩
      rintro id hid _ hnew rfl
      rw [List.mem_singleton] at hnew
      exact hd.2 (hnew ▸ h.ids id hid)
    · intro id hid
      rw [List.map_append,List.mem_append] at hid
      obtain hid | hid := hid
      · exact List.mem_append_left _ (h.ids id hid)
      · exact List.mem_append_right _ hid
    · intro x hx
      obtain ⟨e₁,pub₁,hstarted,rfl | ⟨y,hy,rfl⟩⟩ := h.calls x hx
      · exact ⟨e₁,pub₁,hstarted,.inl rfl⟩
      · exact ⟨y.1,pub₁,hstarted,.inr ⟨y,by simp [hy],rfl⟩⟩
    · intro x hx
      obtain hx | hx := List.mem_append.mp hx
      · exact h.replies x hx
      · obtain rfl := List.mem_singleton.mp hx
        obtain ⟨_,_,-,hreply⟩ := hans.reply
        exact ⟨_,hreply⟩
    · intro f' hf'
      obtain ⟨e₁,code,reason,rfl | ⟨y,hy,rfl⟩,hrej⟩ := h.rejections f' hf'
      · exact ⟨e₁,code,reason,.inr ⟨(e₁,call.init,f),by simp,rfl⟩,hrej⟩
      · exact ⟨y.1,code,reason,.inr ⟨y,by simp [hy],rfl⟩,hrej⟩

theorem Inv.reject (h : Inv C w past e e') (entropy : RekeyEntropy) (reasonCode : JsString)
    (reason : Option JsString) : Inv C (w.reject C entropy reasonCode reason) past e e' := by
  unfold World.reject
  rcases hc : (rejectRekey C entropy reasonCode reason).call w.responder with ⟨_ | u,c⟩
  · obtain rfl : c = w.responder := rejectRekey_atomic _ _ _ _ _ hc
    exact h
  · obtain ⟨f,rfl,hf⟩ := rejected_of_reject h.responder hc
    rw [h.role,Role.other_direction] at hf
    refine {h with rejections := fun f' hf' => ?_}
    simp only [Connection.put_last,List.mem_append,List.mem_singleton] at hf'
    obtain hf' | rfl := hf'
    · exact h.rejections f' hf'
    · exact ⟨e',reasonCode,reason,.inl rfl,hf⟩

theorem Inv.act (laws : Laws C) (h : Inv C w past e e') {a : Act} (hd : w.Delivers a)
    (ho : w.Own a) : ∃ past₁ e₁ e₁', Inv C (w.act C rt a) past₁ e₁ e₁' := by
  cases a with
  | start options entropy => exact ⟨past,e,e',h.start options entropy⟩
  | finish k respBytes =>
    obtain ⟨e₁,h₁⟩ := h.finish laws hd ho
    exact ⟨past,e₁,e',h₁⟩
  | answer options entropy newSessionId initBytes =>
    obtain ⟨past₁,e₁,h₁⟩ := h.answer laws.aead hd
    exact ⟨past₁,e,e₁,h₁⟩
  | reject entropy reasonCode reason => exact ⟨past,e,e',h.reject entropy reasonCode reason⟩

theorem Inv.run (laws : Laws C) (h : Inv C w past e e') {w' : World} (hr : Run C rt Own w w') :
    ∃ past₁ e₁ e₁', Inv C w' past₁ e₁ e₁' := by
  induction hr with
  | nil => exact ⟨past,e,e',h⟩
  | step _ hd ho ih =>
    obtain ⟨_,_,_,h⟩ := ih
    exact h.act laws hd ho

theorem Inv.agrees (h : Inv C w past e e') : w.Agrees := by
  obtain ⟨rfl,hinst⟩ | ⟨before,i,f,-,hans,-⟩ := h.sync
  · exact ⟨fun x hx => hinst ▸ hx,fun _ => ⟨e,h.initiator,h.responder⟩⟩
  · refine ⟨fun x hx => by simp [hans,hx],fun hinst => ?_⟩
    rw [hans] at hinst
    simp at hinst

end Steps

section Calls
variable {C : Crypto} {rt : Runtime} {P : World → Act → Prop} {w₀ w : World} {c : Connection}
  {p : PendingRekey}

theorem Run.started (hr : Run C rt P w₀ w) {options : RekeyClientOptions} {entropy : RekeyEntropy}
    {f : Bytes} (hc : (startRekey C options entropy).call w.initiator = (.ok p,c.put f))
    (hp : P w (.start options entropy)) :
    Run C rt P w₀ {w with initiator := c.put f, calls := w.calls++[⟨p,f,true⟩]} := by
  have h := hr.step (a := .start options entropy) trivial hp
  rw [World.act,World.start,hc] at h
  dsimp only at h
  rwa [Connection.put_last] at h

theorem Run.answered (hr : Run C rt P w₀ w) {options : RekeyServerOptions} {entropy : RekeyEntropy}
    {newSessionId id : JsString} {i f : Bytes} {e e' : Epoch}
    (hc : (answerRekey C rt options entropy newSessionId (some i)).call w.responder =
      (.ok id,(c.put f).moved e e'))
    (hd : w.Delivers (.answer options entropy newSessionId (some i)))
    (hp : P w (.answer options entropy newSessionId (some i))) :
    Run C rt P w₀ {w with
      responder := (c.put f).moved e e'
      answers := w.answers++[(i,f)]
      ids := w.ids++[newSessionId]} := by
  have h := hr.step hd hp
  have hlast : ((c.put f).moved e e').transport.sent.getLastD [] = f := c.put_last f
  rw [World.act,World.answer,hc] at h
  dsimp only at h
  rwa [hlast] at h

theorem Run.finished (hr : Run C rt P w₀ w) {k : ℕ} {init f : Bytes} {id : Option Json}
    (hk : w.calls[k]? = some ⟨p,init,true⟩)
    (hc : (finishRekey C rt p (some f)).call w.initiator = (.ok id,c))
    (hd : w.Delivers (.finish k (some f))) (hp : P w (.finish k (some f))) :
    Run C rt P w₀ {w with
      initiator := c
      calls := w.calls.set k ⟨p,init,false⟩
      installs := w.installs++[(init,f)]} := by
  have h := hr.step hd hp
  rw [World.act,World.finish,hk] at h
  dsimp only at h
  rwa [if_pos rfl,hc] at h

end Calls

end World

section Agreement
variable {C : Crypto} {rt : Runtime} {a b : Connection} {e : Epoch}

/-- In every run in which no call is handed the reply to another call, keys are installed
only from the own reply, and both ends agree. -/
theorem agrees_of_own (laws : Laws C) (h : Paired a b e) {w : World}
    (hr : World.Run C rt World.Own (World.begin a b e.id) w) : w.Agrees := by
  obtain ⟨_,_,_,hinv⟩ := (World.Inv.begin h).run laws hr
  exact hinv.agrees

variable (rt) in
/-- An exchange is such a run. -/
theorem exists_exchange (laws : Laws C) (h : Paired a b e) (ha : a.Open) (hb : b.Open)
    (hsize : Sized e) (client : RekeyClientOptions) (server : RekeyServerOptions)
    (newSessionId : JsString) {clientEntropy serverEntropy : RekeyEntropy}
    (hclient : Drawn client.ephemeralPriv clientEntropy)
    (hserver : Drawn server.ephemeralPriv serverEntropy) (hnew : newSessionId ≠ e.id) :
    ∃ w x, World.Run C rt World.Own (World.begin a b e.id) w ∧ w.installs = [x] ∧
      w.answers = [x] := by
  obtain ⟨p,pub,i,hstart,-,-,hs⟩ := startRekey_ok laws h.initiator ha hsize hclient
  have hdir : b.session.role.other.direction = a.session.role.direction := by
    rw [h.role,Role.other_other]
  obtain ⟨f,e',-,-,hans,hanswer⟩ := answerRekey_ok rt laws h.responder hb hsize
    newSessionId hserver (hdir ▸ hs)
  have hfinish := (hdir ▸ hans).finish (c := a.put i) rt laws h.initiator ha.session hs
  have h₀ : World.Run C rt World.Own (World.begin a b e.id) (World.begin a b e.id) := .nil
  have h₁ := h₀.started hstart trivial
  have h₂ := h₁.answered hanswer ⟨by simp [World.begin],by simpa [World.begin] using hnew⟩ trivial
  have h₃ := h₂.finished (k := 0) rfl hfinish (by simp [World.Delivers,World.begin])
    (by simp [World.Own,World.begin])
  exact ⟨_,(i,f),h₃,rfl,rfl⟩

variable (rt) in
/-- A call that is handed the reply to the call before it installs keys from it. -/
theorem late_reply_installed (laws : Laws C) (h : Paired a b e) (ha : a.Open) (hb : b.Open)
    (hsize : Sized e) (first second : RekeyClientOptions) (server : RekeyServerOptions)
    (newSessionId : JsString) {entropy₁ entropy₂ serverEntropy : RekeyEntropy} (hfirst : Drawn first.ephemeralPriv entropy₁)
    (hsecond : Drawn second.ephemeralPriv entropy₂)
    (hserver : Drawn server.ephemeralPriv serverEntropy)
    (hnonce : first.rekeyNonce.getD entropy₁.nonce ≠ second.rekeyNonce.getD entropy₂.nonce)
    (hnew : newSessionId ≠ e.id) :
    ∃ w, World.Run C rt (fun _ _ => True) (World.begin a b e.id) w ∧ ¬ w.Agrees := by
  obtain ⟨p₁,pub₁,i₁,hstart₁,-,hn₁,hs₁⟩ := startRekey_ok laws h.initiator ha hsize hfirst
  obtain ⟨p₂,pub₂,i₂,hstart₂,-,hn₂,hs₂⟩ :=
    startRekey_ok (c := a.put i₁) laws h.initiator (ha.put i₁) hsize hsecond
  have hdir : b.session.role.other.direction = a.session.role.direction := by
    rw [h.role,Role.other_other]
  obtain ⟨f,e',-,-,hans,hanswer⟩ := answerRekey_ok rt laws h.responder hb hsize
    newSessionId hserver (hdir ▸ hs₁)
  rw [hdir] at hans
  obtain ⟨ephPub,keyId,hpub,hreply⟩ := hans.reply
  obtain ⟨shared,-,hshared⟩ := laws.dh.agree_comm _ _ _ _ hpub hs₂.ephemeral
  have hfinish := (finishRekey_accepted (c := (a.put i₁).put i₂) rt laws.aead h.initiator
    (by simp) hreply hs₂.oppositeDir).mpr ⟨ha.session,rfl,shared,hshared,rfl⟩
  have h₀ : World.Run C rt (fun _ _ => True) (World.begin a b e.id) (World.begin a b e.id) := .nil
  have h₁ := h₀.started hstart₁ trivial
  have h₂ := h₁.answered hanswer ⟨by simp [World.begin],by simpa [World.begin] using hnew⟩ trivial
  have h₃ := h₂.started hstart₂ trivial
  have h₄ := h₃.finished (k := 1) rfl hfinish (by simp [World.Delivers,World.begin]) trivial
  refine ⟨_,h₄,fun hagrees => hnonce ?_⟩
  -- The reply answers the first init, and the two inits are told apart by their nonces.
  have hmem := hagrees.own (i₂,f) (by simp [World.begin])
  simp only [World.begin,List.nil_append,List.mem_singleton,Prod.mk.injEq,and_true] at hmem
  obtain ⟨_,hseal₁⟩ := hs₁.init
  obtain ⟨_,hseal₂⟩ := hs₂.init
  rw [hmem] at hseal₂
  rw [← hn₁,← hn₂]
  exact (hseal₁.init_inj laws.aead hseal₂).2

end Agreement

/-! A sample session, and what its ends draw. -/
def sampleEpoch : Epoch where
  id := js "session-1"
  keys := ⟨List.replicate 32 1,List.replicate 32 2,List.replicate 32 3,List.replicate 32 4,
    List.replicate 32 5,none⟩

def sampleEntropy (nonce : UInt8) : RekeyEntropy :=
  ⟨List.replicate 32 7,List.replicate 32 nonce,List.replicate 12 9⟩

theorem sample_paired :
    Paired (fresh sampleEpoch .client) (fresh sampleEpoch .server) sampleEpoch where
  initiator := fresh_holds ..
  responder := fresh_holds ..
  role := rfl

theorem sample_sized : Sized sampleEpoch := ⟨rfl,rfl⟩

theorem sample_drawn (nonce : UInt8) : Drawn none (sampleEntropy nonce) := ⟨rfl,rfl⟩

theorem agrees_of_own_sample : ∃ w : World, w.installs ≠ [] ∧ w.Agrees := by
  obtain ⟨w,x,hr,hinst,-⟩ := exists_exchange Sample.runtime Sample.laws sample_paired
    (fresh_open ..) (fresh_open ..) sample_sized ⟨none,none⟩ ⟨none,none⟩ (js "session-2")
    (sample_drawn 1) (sample_drawn 2) (by decide)
  exact ⟨w,by simp [hinst],agrees_of_own Sample.laws sample_paired hr⟩

/-- The reply to a call that was given up is taken for the reply to the next. -/
theorem not_agrees : ¬ ∀ (a b : Connection) (e : Epoch), Paired a b e → ∀ w,
    World.Run Sample.crypto Sample.runtime (fun _ _ => True) (World.begin a b e.id) w →
      w.Agrees := by
  intro h
  obtain ⟨w,hr,hnot⟩ := late_reply_installed Sample.runtime Sample.laws sample_paired
    (fresh_open ..) (fresh_open ..) sample_sized ⟨none,none⟩ ⟨none,none⟩ ⟨none,none⟩
    (js "session-2") (sample_drawn 1) (sample_drawn 2) (sample_drawn 3) (by decide) (by decide)
  exact hnot (h _ _ _ sample_paired w hr)

end Rekey
end Semp
