import Semp.MemoryTransport

/-! The WebSocket transport: the events of the connection and the calls of its owner, in any
order.  A connection that has failed or closed fires no message event any more. -/
namespace Semp
namespace WsTransport
open Method Mailbox
open MemoryTransport (NoMessage)
open Utf8 (textEncode)

structure WSTransport where
  /-- The private `buffer` and `waiters`, with the promises that `receive` has made. -/
  box : Mailbox Bytes NoMessage
  closed : Bool
  closeError : Option JsString
  /-- The text frames and the closes that were asked of the connection. -/
  frames : List JsString
  closings : List (Option (ℕ × JsString))
  /-- The promises of `close` that wait for the close event. -/
  closers : ℕ

def new : WSTransport := ⟨.empty,false,none,[],[],0⟩

def failAll (t : WSTransport) (err : JsString) : WSTransport :=
  {t with closeError := some err, closed := true, box := t.box.dismiss (.error err)}

def binaryFrame : JsString :=
  js "transport/ws: binary frame received; SEMP messages MUST be text"

def connectionError : JsString := js "transport/ws: connection error"

/-- The message event; a binary frame has no text. -/
def onMessage (t : WSTransport) : Option JsString → WSTransport
  | none =>
    let t := failAll t binaryFrame
    {t with closings := t.closings++[some (1003,js "binary frame disallowed")]}
  | some data => {t with box := t.box.give (textEncode data)}

def onClose (t : WSTransport) : WSTransport :=
  {t with closed := true, box := t.box.dismiss .null, closers := 0}

def onError (t : WSTransport) : WSTransport := failAll t connectionError

def send (message : Bytes) : Method JsString WSTransport Unit := do
  let t ← get
  if t.closed then throw (t.closeError.getD (js "transport/ws: closed"))
  set {t with frames := t.frames++[Utf8.textDecode message]}

def verdict : Option JsString → NoMessage
  | some err => .error err
  | none => .null

def receive (t : WSTransport) : WSTransport :=
  {t with box := t.box.ask (if t.closed then some (verdict t.closeError) else none)}

def close (t : WSTransport) (code : Option (ℕ × JsString)) : WSTransport :=
  if t.closed then t
  else {t with closers := t.closers+1, closings := t.closings++[code]}

inductive Event
  | message (data : Option JsString)
  | closed
  | failed
  | send (message : Bytes)
  | receive
  | close (code : Option (ℕ × JsString))
  deriving DecidableEq, Repr

def handle (t : WSTransport) : Event → WSTransport
  | .message data => onMessage t data
  | .closed => onClose t
  | .failed => onError t
  | .send message => ((send message).call t).2
  | .receive => receive t
  | .close code => close t code

def after (events : List Event) : WSTransport := events.foldl handle new

/-- The events after which the transport is closed, with what they leave as its error. -/
def stop? : Event → Option (Option JsString)
  | .message none => some (some binaryFrame)
  | .closed => some none
  | .failed => some (some connectionError)
  | _ => none

def stopped (events : List Event) : Bool := events.any fun e => (stop? e).isSome

def untilStop (events : List Event) : List Event := events.takeWhile fun e => (stop? e).isNone

def sinceStop (events : List Event) : List Event := events.dropWhile fun e => (stop? e).isNone

def text? : Event → Option Bytes
  | .message (some data) => some (textEncode data)
  | _ => none

/-- What arrived, in the order of its arrival. -/
def texts (events : List Event) : List Bytes := events.filterMap text?

def asked (events : List Event) : ℕ := events.count .receive

/-- The last error. -/
def lastError (error : Option JsString) (e : Event) : Option JsString :=
  ((stop? e).bind id).orElse fun _ => error

/-- What receives are told for which nothing is left, once the transport is closed. -/
def toldFrom (error : Option JsString) : List Event → List NoMessage
  | [] => []
  | e::es => (if e = .receive then [verdict error] else [])++toldFrom (lastError error e) es

/-- What each receive is told if there is no message for it: when it was made before the end,
what the end was. -/
def told (events : List Event) : List NoMessage :=
  match sinceStop events with
  | [] => []
  | stop::after =>
    List.replicate (asked (untilStop events)) (verdict (lastError none stop))++
      toldFrom (lastError none stop) after

/-- What the receives are answered, the first one first.  Those that are not answered wait. -/
def answers (events : List Event) : List (Bytes ⊕ NoMessage) :=
  ((texts events).take (asked events)).map .inl++((told events).drop (texts events).length).map .inr

def frame? : Event → Option JsString
  | .send message => some (Utf8.textDecode message)
  | _ => none

/-- What was put on the wire. -/
def sent (events : List Event) : List JsString := (untilStop events).filterMap frame?

/-- No message event follows the end of the connection. -/
def Quiet (events : List Event) : Prop := texts (sinceStop events) = []

instance (events : List Event) : Decidable (Quiet events) :=
  inferInstanceAs (Decidable (_ = _))

section Events
variable {es : List Event} {e : Event}

theorem stopped_concat : stopped (es++[e]) = (stopped es || (stop? e).isSome) := by
  rw [stopped,List.any_append,List.any_cons,List.any_nil,Bool.or_false,stopped]

theorem isNone_of_open (h : stopped es = false) : ∀ e ∈ es, (stop? e).isNone = true := by
  intro e he
  rw [stopped,List.any_eq_false] at h
  have hne := h e he
  rwa [Bool.not_eq_true,Option.isSome_eq_false_iff] at hne

theorem untilStop_of_open (h : stopped es = false) : untilStop es = es :=
  List.takeWhile_eq_self_iff.mpr (isNone_of_open h)

theorem sinceStop_of_open (h : stopped es = false) : sinceStop es = [] :=
  List.dropWhile_eq_nil_iff.mpr (isNone_of_open h)

theorem sinceStop_ne_nil (h : stopped es = true) : sinceStop es ≠ [] := by
  intro hnil
  rw [sinceStop,List.dropWhile_eq_nil_iff] at hnil
  obtain ⟨e,he,hs⟩ := List.any_eq_true.mp h
  have hn := hnil e he
  rw [Option.isNone_iff_eq_none] at hn
  rw [hn] at hs
  cases hs

theorem untilStop_concat (h : stopped es = true) : untilStop (es++[e]) = untilStop es := by
  rw [untilStop,List.takeWhile_append,if_neg,untilStop]
  intro hlen
  have hall := List.takeWhile_eq_self_iff.mp ((List.takeWhile_prefix _).eq_of_length hlen)
  exact sinceStop_ne_nil h (List.dropWhile_eq_nil_iff.mpr hall)

theorem sinceStop_concat (h : stopped es = true) : sinceStop (es++[e]) = sinceStop es++[e] := by
  rw [sinceStop,List.dropWhile_append,if_neg,sinceStop]
  rw [List.isEmpty_iff]
  exact sinceStop_ne_nil h

theorem untilStop_stop (h : stopped es = false) (he : (stop? e).isSome = true) :
    untilStop (es++[e]) = es := by
  have hnone : (stop? e).isNone = false := by
    rw [← Option.not_isSome,he]
    rfl
  rw [untilStop,List.takeWhile_append_of_pos (isNone_of_open h),List.takeWhile_cons,hnone]
  exact List.append_nil es

theorem sinceStop_stop (h : stopped es = false) (he : (stop? e).isSome = true) :
    sinceStop (es++[e]) = [e] := by
  have hnone : (stop? e).isNone = false := by
    rw [← Option.not_isSome,he]
    rfl
  rw [sinceStop,List.dropWhile_append_of_pos (isNone_of_open h),List.dropWhile_cons,hnone]
  rfl

theorem texts_concat : texts (es++[e]) = texts es++(text? e).toList := by
  rw [texts,List.filterMap_append,texts]
  cases he : text? e with
  | none => rw [List.filterMap_cons_none he]; rfl
  | some v => rw [List.filterMap_cons_some he]; rfl

theorem asked_concat : asked (es++[e]) = asked es+if e = .receive then 1 else 0 := by
  rw [asked,List.count_append,List.count_singleton,asked]
  simp

theorem text?_of_stop (he : (stop? e).isSome = true) : text? e = none := by
  obtain (_ | _) | _ | _ | _ | _ | _ := e <;> first | rfl | cases he

theorem quiet_concat (h : Quiet (es++[e])) :
    Quiet es ∧ (stopped es = true → text? e = none) := by
  cases hs : stopped es with
  | false =>
    refine ⟨?_,fun hx => by cases hx⟩
    rw [Quiet,sinceStop_of_open hs]
    rfl
  | true =>
    rw [Quiet,sinceStop_concat hs,texts_concat,List.append_eq_nil_iff] at h
    exact ⟨h.1,fun _ => Option.toList_eq_nil_iff.mp h.2⟩

theorem toldFrom_concat (error : Option JsString) (es : List Event) (e : Event) :
    toldFrom error (es++[e]) =
      toldFrom error es++if e = .receive then [verdict (es.foldl lastError error)] else [] := by
  induction es generalizing error with
  | nil => exact List.append_nil _
  | cons d es ih =>
    rw [List.cons_append,toldFrom,ih,toldFrom,List.append_assoc]
    rfl

theorem lastError_of_open (h : (stop? e).isNone = true) (error : Option JsString) :
    lastError error e = error := by
  rw [lastError,Option.isNone_iff_eq_none.mp h]
  rfl

theorem foldl_of_open {es : List Event} (h : ∀ e ∈ es, (stop? e).isNone = true)
    (error : Option JsString) : es.foldl lastError error = error := by
  induction es with
  | nil => rfl
  | cons e es ih =>
    rw [List.foldl_cons,lastError_of_open (h e List.mem_cons_self)]
    exact ih fun d hd => h d (List.mem_cons_of_mem e hd)

theorem told_concat (h : stopped es = true) : told (es++[e]) =
    told es++if e = .receive then [verdict (es.foldl lastError none)] else [] := by
  obtain ⟨stop,rest,hs⟩ := List.exists_cons_of_ne_nil (sinceStop_ne_nil h)
  have hfold : es.foldl lastError none = rest.foldl lastError (lastError none stop) := by
    have happ : untilStop es++sinceStop es = es := List.takeWhile_append_dropWhile
    have hu : (untilStop es).foldl lastError none = none :=
      foldl_of_open (fun _ hd => List.mem_takeWhile_imp (p := fun e => (stop? e).isNone) hd) none
    rw [← congrArg (List.foldl lastError none) happ,List.foldl_append,hs,hu,List.foldl_cons]
  simp only [told,sinceStop_concat h,hs,List.cons_append,untilStop_concat h,toldFrom_concat,hfold,
    List.append_assoc]

theorem told_stop (h : stopped es = false) (he : (stop? e).isSome = true) :
    told (es++[e]) = List.replicate (asked es) (verdict (lastError none e)) := by
  simp only [told,sinceStop_stop h he,untilStop_stop h he,toldFrom,List.append_nil]

theorem sent_concat : sent (es++[e]) =
    if stopped es then sent es else sent es++(frame? e).toList := by
  split_ifs with h
  · rw [sent,untilStop_concat h,sent]
  · rw [Bool.not_eq_true] at h
    cases he : (stop? e).isSome with
    | true =>
      have hf : frame? e = none := by
        obtain (_ | _) | _ | _ | _ | _ | _ := e <;> first | rfl | cases he
      rw [sent,untilStop_stop h he,sent,untilStop_of_open h,hf]
      exact (List.append_nil _).symm
    | false =>
      have hopen : stopped (es++[e]) = false := by rw [stopped_concat,h,he]; rfl
      rw [sent,untilStop_of_open hopen,sent,untilStop_of_open h,List.filterMap_append]
      cases hf : frame? e with
      | none => rw [List.filterMap_cons_none hf]; rfl
      | some v => rw [List.filterMap_cons_some hf]; rfl

end Events

/-- The transport is what the events say. -/
structure Tells (es : List Event) (t : WSTransport) : Prop where
  closed : t.closed = stopped es
  closeError : t.closeError = es.foldl lastError none
  frames : t.frames = sent es
  flows : stopped es = false → t.box = .flow (texts es) (asked es)
  answered : stopped es = true →
    t.box = .served (texts es) (told es) ∧ (told es).length = asked es

namespace Tells
variable {es : List Event} {t : WSTransport} {e : Event}

theorem new : Tells [] new where
  closed := rfl
  closeError := rfl
  frames := rfl
  flows _ := rfl
  answered h := by cases h

/-- An event that ends the connection, or says so again. -/
theorem stop (h : Tells es t) {error : Option JsString} (he : stop? e = some error)
    (t' : WSTransport) (hbox : t'.box = t.box.dismiss (verdict (lastError none e)))
    (hc : t'.closed = true) (herr : t'.closeError = lastError t.closeError e)
    (hf : t'.frames = t.frames) : Tells (es++[e]) t' := by
  have hsome : (stop? e).isSome = true := by rw [he]; rfl
  have hframe : frame? e = none := by
    obtain (_ | _) | _ | _ | _ | _ | _ := e <;> first | rfl | cases hsome
  have hne : e ≠ .receive := by
    rintro rfl
    cases hsome
  have htext : texts (es++[e]) = texts es := by
    rw [texts_concat,text?_of_stop hsome]
    exact List.append_nil _
  have hasked : asked (es++[e]) = asked es := by rw [asked_concat,if_neg hne,Nat.add_zero]
  constructor
  · rw [hc,stopped_concat,hsome,Bool.or_true]
  · rw [herr,h.closeError,List.foldl_concat]
  · rw [hf,h.frames,sent_concat,hframe]
    split_ifs
    · rfl
    · exact (List.append_nil _).symm
  · intro hx
    rw [stopped_concat,hsome,Bool.or_true] at hx
    cases hx
  · intro
    rw [htext,hasked,hbox]
    cases hs : stopped es with
    | false =>
      rw [h.flows hs,dismiss_flow,told_stop hs hsome]
      exact ⟨rfl,List.length_replicate⟩
    | true =>
      rw [(h.answered hs).1,dismiss_served,told_concat hs,if_neg hne,List.append_nil]
      exact ⟨rfl,(h.answered hs).2⟩

/-- An event that is about neither the messages nor the end. -/
theorem quiet (h : Tells es t) (hs : stop? e = none) (ht : text? e = none) (hr : e ≠ .receive)
    {t' : WSTransport} (hbox : t'.box = t.box) (hc : t'.closed = t.closed)
    (herr : t'.closeError = t.closeError) (hf : t'.frames = sent (es++[e])) :
    Tells (es++[e]) t' := by
  have hstop : stopped (es++[e]) = stopped es := by
    rw [stopped_concat,hs]
    exact Bool.or_false _
  have htext : texts (es++[e]) = texts es := by
    rw [texts_concat,ht]
    exact List.append_nil _
  have hasked : asked (es++[e]) = asked es := by rw [asked_concat,if_neg hr,Nat.add_zero]
  constructor
  · rw [hc,h.closed,hstop]
  · rw [herr,h.closeError,List.foldl_concat,lastError_of_open (by rw [hs]; rfl)]
  · exact hf
  · rw [hstop,htext,hasked,hbox]
    exact h.flows
  · rw [hstop,htext,hasked,hbox]
    intro hx
    rw [told_concat hx,if_neg hr,List.append_nil]
    exact h.answered hx

theorem message (h : Tells es t) (hs : stopped es = false) (data : JsString) :
    Tells (es++[.message (some data)]) (onMessage t (some data)) where
  closed := by
    rw [stopped_concat,hs]
    exact h.closed.trans hs
  closeError := by
    rw [List.foldl_concat]
    exact h.closeError
  frames := by
    rw [sent_concat,hs]
    exact h.frames.trans (List.append_nil _).symm
  flows _ := by
    rw [texts_concat,asked_concat,if_neg (by simp)]
    change t.box.give _ = _
    rw [h.flows hs]
    exact give_flow
  answered hx := by
    rw [stopped_concat,hs] at hx
    cases hx

theorem receive (h : Tells es t) : Tells (es++[.receive]) (receive t) where
  closed := by
    rw [stopped_concat]
    exact h.closed.trans (Bool.or_false _).symm
  closeError := by
    rw [List.foldl_concat]
    exact h.closeError
  frames := by
    rw [sent_concat]
    split_ifs
    · exact h.frames
    · exact h.frames.trans (List.append_nil _).symm
  flows hx := by
    rw [stopped_concat,Bool.or_eq_false_iff] at hx
    have htext : texts (es++[.receive]) = texts es := texts_concat.trans (List.append_nil _)
    rw [htext,asked_concat,if_pos rfl]
    change t.box.ask _ = _
    rw [h.closed,hx.1,h.flows hx.1]
    exact ask_flow
  answered hx := by
    have hs : stopped es = true := by
      rw [stopped_concat,Bool.or_eq_true] at hx
      exact hx.resolve_right (by decide)
    obtain ⟨hbox,hlen⟩ := h.answered hs
    have htext : texts (es++[.receive]) = texts es := texts_concat.trans (List.append_nil _)
    rw [htext,asked_concat,if_pos rfl,told_concat hs,if_pos rfl,← h.closeError]
    refine ⟨?_,by rw [List.length_append,hlen]; rfl⟩
    change t.box.ask _ = _
    rw [h.closed,hs,if_pos rfl,hbox,ask_served]

theorem send (h : Tells es t) (m : Bytes) :
    ((send m).call t).1 = (if stopped es then
        .error ((es.foldl lastError none).getD (js "transport/ws: closed")) else .ok ()) ∧
      Tells (es++[.send m]) ((send m).call t).2 := by
  have hsent : sent (es++[.send m]) = _ := sent_concat
  rw [WsTransport.send,get_bind,h.closed]
  cases hs : stopped es with
  | true =>
    rw [← h.closeError]
    refine ⟨rfl,h.quiet rfl rfl (by simp) rfl rfl rfl ?_⟩
    rw [hsent,hs,if_pos rfl]
    exact h.frames
  | false =>
    refine ⟨rfl,h.quiet rfl rfl (by simp) rfl (h.closed.trans hs).symm rfl ?_⟩
    rw [hsent,hs,if_neg Bool.false_ne_true]
    exact congrArg (·++_) h.frames

theorem close (h : Tells es t) (code : Option (ℕ × JsString)) :
    Tells (es++[.close code]) (close t code) := by
  have hsent : t.frames = sent (es++[.close code]) := by
    rw [sent_concat,h.frames]
    split_ifs
    · rfl
    · exact (List.append_nil _).symm
  rw [WsTransport.close]
  split_ifs
  · exact h.quiet rfl rfl (by simp) rfl rfl rfl hsent
  · exact h.quiet rfl rfl (by simp) rfl rfl rfl hsent

theorem handle (h : Tells es t) (hq : Quiet (es++[e])) : Tells (es++[e]) (handle t e) := by
  cases e with
  | message data =>
    cases data with
    | none => exact h.stop rfl _ rfl rfl rfl rfl
    | some data =>
      cases hs : stopped es with
      | false => exact h.message hs data
      | true => cases (quiet_concat hq).2 hs
  | closed => exact h.stop rfl _ rfl rfl rfl rfl
  | failed => exact h.stop rfl _ rfl rfl rfl rfl
  | send m => exact (h.send m).2
  | receive => exact h.receive
  | close code => exact h.close code

end Tells

end WsTransport
end Semp
