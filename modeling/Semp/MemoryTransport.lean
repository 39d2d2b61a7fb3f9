import Mathlib.Data.List.TakeWhile
import Semp.JsText
import Semp.Mailbox
import Semp.Method

/-! The in-process transport: two ends and a queue in each direction.  What an end receives is
told by what the other sent and by which of them closed first, and not by how their calls come
in turn. -/
namespace Semp
namespace MemoryTransport
open Method Mailbox

/-- How a promise of a message is settled where no message comes. -/
inductive NoMessage
  | null
  | error (message : JsString)
  deriving DecidableEq, Repr

structure Queue (α : Type) where
  /-- The private `items` and `waiters`, with the promises that `shift` has made. -/
  box : Mailbox α NoMessage
  writerClosed : Bool
  readerClosed : Bool

namespace Queue
variable {α : Type}

def new : Queue α := ⟨.empty,false,false⟩

def push (q : Queue α) (v : α) : Except JsString (Queue α) :=
  if q.writerClosed then .error (js "memory transport: push after writer close")
  else .ok {q with box := q.box.give v}

def afterClose : NoMessage := .error (js "memory transport: receive after reader close")

def shift (q : Queue α) : Queue α :=
  if q.readerClosed then {q with box := q.box.reply (.inr afterClose)}
  else {q with box := q.box.ask (if q.writerClosed then some .null else none)}

def closeWriter (q : Queue α) : Queue α :=
  {q with
    writerClosed := true
    box := if q.box.items.length = 0 then q.box.dismiss .null else q.box}

def receiverClosed : NoMessage := .error (js "memory transport: receiver closed")

def closeReader (q : Queue α) : Queue α :=
  {q with readerClosed := true, box := q.box.dismiss receiverClosed}

end Queue

inductive End
  | a
  | b
  deriving DecidableEq, Repr

def End.other : End → End
  | .a => .b
  | .b => .a

@[simp] theorem End.other_other (e : End) : e.other.other = e := by cases e <;> rfl

theorem End.other_ne (e : End) : e.other ≠ e := by cases e <;> decide

theorem End.eq_or (e f : End) : f = e ∨ f = e.other := by
  cases e <;> cases f <;> decide

/-- The two endpoints.  The inbox of one is the outbox of the other. -/
structure Pair where
  outbox : End → Queue Bytes
  closed : End → Bool

namespace Pair

def setOutbox (p : Pair) (e : End) (q : Queue Bytes) : Pair :=
  {p with outbox := Function.update p.outbox e q}

def setInbox (p : Pair) (e : End) (q : Queue Bytes) : Pair := p.setOutbox e.other q

def inbox (p : Pair) (e : End) : Queue Bytes := p.outbox e.other

@[simp] theorem inbox_setOutbox (p : Pair) (e f : End) (q : Queue Bytes) :
    (p.setOutbox e q).inbox f = if f = e.other then q else p.inbox f := by
  rw [inbox,setOutbox]
  dsimp only
  rw [Function.update_apply]
  congr 1
  exact propext ⟨fun h => by rw [← h,End.other_other],fun h => by rw [h,End.other_other]⟩

@[simp] theorem inbox_setInbox (p : Pair) (e f : End) (q : Queue Bytes) :
    (p.setInbox e q).inbox f = if f = e then q else p.inbox f := by
  rw [setInbox,inbox_setOutbox,End.other_other]

end Pair

def newPair : Pair := ⟨fun _ => .new,fun _ => false⟩

def send (e : End) (message : Bytes) : Method JsString Pair Unit := do
  let p ← get
  if p.closed e then throw (js "memory transport: send after close")
  let outbox ← liftM ((p.outbox e).push message)
  set (p.setOutbox e outbox)

/-- The promise that is returned is the last one of the inbox. -/
def receive (e : End) : Method JsString Pair Unit :=
  modify fun p => p.setInbox e (p.inbox e).shift

def close (e : End) : Method JsString Pair Unit :=
  modify fun p =>
    if p.closed e then p
    else
      let p := {p with closed := Function.update p.closed e true}
      let p := p.setOutbox e (p.outbox e).closeWriter
      p.setInbox e (p.inbox e).closeReader

inductive Call
  | send (message : Bytes)
  | receive
  | close
  deriving DecidableEq, Repr

def perform : End × Call → Method JsString Pair Unit
  | (e,.send message) => send e message
  | (e,.receive) => receive e
  | (e,.close) => close e

/-- The two ends after these calls, some of which may have been rejected. -/
def after (calls : List (End × Call)) : Pair :=
  calls.foldl (fun p c => ((perform c).call p).2) newPair

/-- Whether this end was closed. -/
def closes (e : End) (calls : List (End × Call)) : Bool := decide ((e,.close) ∈ calls)

/-- The calls before this end was closed. -/
def untilClose (e : End) (calls : List (End × Call)) : List (End × Call) :=
  calls.takeWhile (· ≠ (e,.close))

def message? (e : End) : End × Call → Option Bytes
  | (f,.send message) => if f = e then some message else none
  | _ => none

/-- What this end sent before it was closed. -/
def sent (e : End) (calls : List (End × Call)) : List Bytes :=
  (untilClose e calls).filterMap (message? e)

def asked (e : End) (calls : List (End × Call)) : ℕ := calls.count (e,.receive)

/-- What the receives of an end are answered, the first one first.  Those that are not
answered wait. -/
def answers (e : End) (calls : List (End × Call)) : List (Bytes ⊕ NoMessage) :=
  let before := untilClose e calls
  let heard := sent e.other before
  let short := asked e before-heard.length
  (heard.take (asked e before)).map .inl++
    (if closes e.other before then List.replicate short (.inr .null)
      else if closes e calls then List.replicate short (.inr Queue.receiverClosed)
      else [])++
    List.replicate (asked e calls-asked e before) (.inr Queue.afterClose)

section Calls
variable {calls : List (End × Call)} {c : End × Call} {e : End}

theorem closes_concat : closes e (calls++[c]) = (closes e calls || decide (c = (e,.close))) := by
  simp [closes,Bool.decide_or,eq_comm]

theorem untilClose_eq_self : untilClose e calls = calls ↔ closes e calls = false := by
  rw [untilClose,List.takeWhile_eq_self_iff,closes,decide_eq_false_iff_not]
  constructor
  · intro h hmem
    exact of_decide_eq_true (h _ hmem) rfl
  · rintro h c hc
    exact decide_eq_true (fun hx => h (hx ▸ hc))

theorem untilClose_eq (h : closes e calls = false) : untilClose e calls = calls :=
  untilClose_eq_self.mpr h

theorem untilClose_concat (h : closes e calls = true) :
    untilClose e (calls++[c]) = untilClose e calls := by
  rw [untilClose,untilClose,List.takeWhile_append,if_neg]
  intro hlen
  have heq : untilClose e calls = calls := (List.takeWhile_prefix _).eq_of_length hlen
  rw [untilClose_eq_self,h] at heq
  cases heq

theorem untilClose_concat_of_open (h : closes e calls = false) :
    untilClose e (calls++[c]) = if c = (e,.close) then calls else calls++[c] := by
  split_ifs with hc
  · have heq := untilClose_eq h
    rw [untilClose] at heq ⊢
    rw [List.takeWhile_append,heq,if_pos rfl,hc]
    simp
  · refine untilClose_eq ?_
    rw [closes_concat,h,decide_eq_false hc]
    rfl

theorem sent_concat : sent e (calls++[c]) =
    if closes e calls then sent e calls else sent e calls++(message? e c).toList := by
  split_ifs with h
  · rw [sent,untilClose_concat h,sent]
  · rw [Bool.not_eq_true] at h
    rw [sent,sent,untilClose_concat_of_open h,untilClose_eq h]
    split_ifs with hc
    · rw [hc]
      exact (List.append_nil _).symm
    · rw [List.filterMap_append]
      rcases hm : message? e c with _ | m
      · rw [List.filterMap_cons_none hm]
        rfl
      · rw [List.filterMap_cons_some hm]
        rfl

theorem asked_concat : asked e (calls++[c]) =
    asked e calls+if c = (e,.receive) then 1 else 0 := by
  rw [asked,List.count_append,List.count_singleton]
  simp [asked]

end Calls

theorem answers_of_open {e : End} {calls : List (End × Call)} (h : closes e calls = false) :
    answers e calls = ((sent e.other calls).take (asked e calls)).map .inl++
      if closes e.other calls then
        List.replicate (asked e calls-(sent e.other calls).length) (.inr .null)
      else [] := by
  simp only [answers,untilClose_eq h,h,Nat.sub_self,List.replicate_zero,List.append_nil]
  rfl

theorem asked_untilClose_le (e : End) (calls : List (End × Call)) :
    asked e (untilClose e calls) ≤ asked e calls :=
  (List.takeWhile_sublist _).count_le _

section Closed
variable {calls : List (End × Call)} {c : End × Call} {e : End} (h : closes e calls = true)
include h

theorem length_answers : (answers e calls).length = asked e calls := by
  have hle := asked_untilClose_le e calls
  simp only [answers,h,if_true,List.length_append,List.length_map,List.length_take,
    List.length_replicate,apply_ite List.length,ite_self]
  omega

theorem answers_concat : answers e (calls++[c]) =
    answers e calls++if c = (e,.receive) then [.inr Queue.afterClose] else [] := by
  have hle := asked_untilClose_le e calls
  have hclosed : closes e (calls++[c]) = true := by
    rw [closes_concat,h,Bool.true_or]
  simp only [answers,untilClose_concat h,hclosed,h,asked_concat]
  by_cases hc : c = (e,.receive)
  · rw [if_pos hc,if_pos hc,Nat.sub_add_comm hle,List.replicate_succ',← List.append_assoc]
  · rw [if_neg hc,if_neg hc,Nat.add_zero,List.append_nil]

end Closed

/-- The queue into this end is what the calls say. -/
structure Tells (e : End) (calls : List (End × Call)) (q : Queue Bytes) : Prop where
  writerClosed : q.writerClosed = closes e.other calls
  readerClosed : q.readerClosed = closes e calls
  flows : closes e calls = false → q.box =
    if closes e.other calls then .served (sent e.other calls) (.replicate (asked e calls) .null)
    else .flow (sent e.other calls) (asked e calls)
  answered : closes e calls = true →
    ∃ items, q.box = .holding (answers e calls) items (asked e calls)

namespace Tells
variable {e : End} {calls : List (End × Call)} {c : End × Call} {q : Queue Bytes}

theorem new (e : End) : Tells e [] .new where
  writerClosed := rfl
  readerClosed := rfl
  flows _ := rfl
  answered h := by cases h

/-- A call that has nothing to do with what this end hears. -/
theorem quiet (h : Tells e calls q) (hr : c ≠ (e,.receive))
    (hs : closes e.other calls = false → message? e.other c = none)
    (hc : ∀ f, c = (f,.close) → closes f calls = true) : Tells e (calls++[c]) q := by
  have hcloses : ∀ f, closes f (calls++[c]) = closes f calls := by
    intro f
    rw [closes_concat]
    by_cases hf : c = (f,.close)
    · rw [hc f hf,Bool.true_or]
    · rw [decide_eq_false hf,Bool.or_false]
  have hasked : asked e (calls++[c]) = asked e calls := by
    rw [asked_concat,if_neg hr,Nat.add_zero]
  have hsent : sent e.other (calls++[c]) = sent e.other calls := by
    rw [sent_concat]
    split_ifs with hx
    · rfl
    · rw [hs (Bool.not_eq_true _ ▸ hx)]
      exact List.append_nil _
  constructor
  · rw [hcloses,h.writerClosed]
  · rw [hcloses,h.readerClosed]
  · rw [hcloses,hcloses,hasked,hsent]
    exact h.flows
  · rw [hcloses,hasked]
    intro hx
    rw [answers_concat hx,if_neg hr,List.append_nil]
    exact h.answered hx

theorem push (h : Tells e calls q) (hw : closes e.other calls = false) (m : Bytes) :
    ∃ q', q.push m = .ok q' ∧ Tells e (calls++[(e.other,.send m)]) q' := by
  have hopen : q.writerClosed = false := by rw [h.writerClosed,hw]
  have hcloses : ∀ f, closes f (calls++[(e.other,.send m)]) = closes f calls := by
    intro f
    rw [closes_concat]
    simp
  have hasked : asked e (calls++[(e.other,.send m)]) = asked e calls := by
    rw [asked_concat,if_neg (by simp),Nat.add_zero]
  have hsent : sent e.other (calls++[(e.other,.send m)]) = sent e.other calls++[m] := by
    rw [sent_concat,hw]
    simp [message?]
  refine ⟨{q with box := q.box.give m},?_,?_⟩
  · rw [Queue.push,hopen]
    rfl
  constructor
  · rw [hcloses,← h.writerClosed]
  · rw [hcloses,← h.readerClosed]
  · rw [hcloses,hcloses,hasked,hsent,hw]
    intro hx
    have hbox := h.flows hx
    rw [hw] at hbox
    dsimp only
    rw [hbox]
    exact give_flow
  · rw [hcloses,hasked]
    intro hx
    obtain ⟨items,hbox⟩ := h.answered hx
    rw [answers_concat hx,if_neg (by simp),List.append_nil]
    refine ⟨items++[m],?_⟩
    dsimp only
    rw [hbox]
    exact give_idle (length_answers hx)

theorem shift (h : Tells e calls q) : Tells e (calls++[(e,.receive)]) q.shift := by
  have hcloses : ∀ f, closes f (calls++[(e,.receive)]) = closes f calls := by
    intro f
    rw [closes_concat]
    simp
  have hasked : asked e (calls++[(e,.receive)]) = asked e calls+1 := by
    rw [asked_concat,if_pos rfl]
  have hsent : sent e.other (calls++[(e,.receive)]) = sent e.other calls := by
    rw [sent_concat]
    split_ifs
    · rfl
    · exact List.append_nil _
  rw [Queue.shift]
  constructor
  · rw [hcloses,← h.writerClosed]
    split <;> rfl
  · rw [hcloses,← h.readerClosed]
    split <;> rfl
  · rw [hcloses,hcloses,hasked,hsent]
    intro hx
    have hopen : ¬q.readerClosed = true := by rw [h.readerClosed,hx]; exact Bool.false_ne_true
    rw [if_neg hopen,h.flows hx,h.writerClosed]
    split
    · rw [ask_served,List.replicate_succ']
    · exact ask_flow
  · rw [hcloses,hasked]
    intro hx
    obtain ⟨items,hbox⟩ := h.answered hx
    rw [answers_concat hx,if_pos rfl,if_pos (h.readerClosed.trans hx),hbox]
    exact ⟨items,reply_idle (length_answers hx) _⟩

theorem closeWriter (h : Tells e calls q) (hw : closes e.other calls = false) :
    Tells e (calls++[(e.other,.close)]) q.closeWriter := by
  have hcloses : closes e (calls++[(e.other,.close)]) = closes e calls := by
    rw [closes_concat]
    simp [e.other_ne]
  have hother : closes e.other (calls++[(e.other,.close)]) = true := by
    rw [closes_concat]
    simp
  have hasked : asked e (calls++[(e.other,.close)]) = asked e calls := by
    rw [asked_concat,if_neg (by simp),Nat.add_zero]
  have hsent : sent e.other (calls++[(e.other,.close)]) = sent e.other calls := by
    rw [sent_concat,hw]
    exact List.append_nil _
  constructor
  · rw [hother]
    rfl
  · rw [hcloses,← h.readerClosed]
    rfl
  · rw [hcloses,hother,hasked,hsent,if_pos rfl]
    intro hx
    have hbox := h.flows hx
    rw [hw] at hbox
    rw [Queue.closeWriter]
    dsimp only
    rw [hbox,if_neg Bool.false_ne_true]
    split_ifs with hitems
    · exact dismiss_flow
    · exact flow_of_items hitems _
  · rw [hcloses,hasked]
    intro hx
    obtain ⟨items,hbox⟩ := h.answered hx
    rw [answers_concat hx,if_neg (by simp),List.append_nil,Queue.closeWriter]
    dsimp only
    rw [hbox]
    refine ⟨items,?_⟩
    split_ifs
    · rw [dismiss_holding (length_answers hx).le,length_answers hx,Nat.sub_self,
        List.replicate_zero,List.append_nil]
    · rfl

theorem closeReader (h : Tells e calls q) (hr : closes e calls = false) :
    Tells e (calls++[(e,.close)]) q.closeReader := by
  have hcloses : closes e (calls++[(e,.close)]) = true := by
    rw [closes_concat]
    simp
  have hother : closes e.other (calls++[(e,.close)]) = closes e.other calls := by
    rw [closes_concat]
    simp [e.other_ne.symm]
  have hasked : asked e (calls++[(e,.close)]) = asked e calls := by
    rw [asked_concat,if_neg (by simp),Nat.add_zero]
  have huntil : untilClose e (calls++[(e,.close)]) = calls := by
    rw [untilClose_concat_of_open hr,if_pos rfl]
  constructor
  · rw [hother,← h.writerClosed]
    rfl
  · rw [hcloses]
    rfl
  · rw [hcloses]
    intro hx
    cases hx
  · intro
    refine ⟨(sent e.other calls).drop (asked e calls),?_⟩
    rw [hasked,Queue.closeReader]
    dsimp only
    rw [h.flows hr]
    simp only [answers,huntil,hcloses,hasked,Nat.sub_self,List.replicate_zero,List.append_nil]
    split_ifs
    · rw [dismiss_served,served,List.length_replicate,List.drop_replicate,List.map_replicate]
    · rw [dismiss_flow,served,List.length_replicate,List.drop_replicate,List.map_replicate]

end Tells

/-- Both ends are what the calls say. -/
structure Told (calls : List (End × Call)) (p : Pair) : Prop where
  inbox : ∀ e, Tells e calls (p.inbox e)
  closed : ∀ e, p.closed e = closes e calls

namespace Told
variable {calls : List (End × Call)} {p : Pair}

theorem closed_concat (h : Told calls p) {c : End × Call} (hc : ∀ f, c ≠ (f,.close)) (e : End) :
    p.closed e = closes e (calls++[c]) := by
  rw [closes_concat,decide_eq_false (hc e),Bool.or_false,h.closed]

theorem send (h : Told calls p) (e : End) (m : Bytes) :
    ((send e m).call p).1 =
        (if closes e calls then .error (js "memory transport: send after close") else .ok ()) ∧
      Told (calls++[(e,.send m)]) ((send e m).call p).2 := by
  have hclosed := h.closed_concat (c := (e,.send m)) (by simp)
  have hquiet : ∀ f, f ≠ e.other ∨ closes e calls = true →
      Tells f (calls++[(e,.send m)]) (p.inbox f) := by
    intro f hf
    refine (h.inbox f).quiet (by simp) (fun hw => ?_) (by simp)
    obtain hf | hf := hf
    · have hne : e ≠ f.other := fun he => hf (by rw [he,End.other_other])
      exact if_neg hne
    · rw [message?,if_neg]
      rintro rfl
      rw [hw] at hf
      cases hf
  rw [MemoryTransport.send,get_bind,h.closed e]
  cases hw : closes e calls with
  | true => exact ⟨rfl,fun f => hquiet f (.inr hw),hclosed⟩
  | false =>
    have hin := h.inbox e.other
    obtain ⟨q,hq,ht⟩ := hin.push (by rwa [End.other_other]) m
    rw [Pair.inbox,End.other_other] at hq
    rw [End.other_other] at ht
    simp only [Bool.false_eq_true,if_false]
    rw [bind_of_ok (show _ = (Except.ok q,p) by rw [call_lift,hq]),call_set]
    refine ⟨rfl,fun f => ?_,hclosed⟩
    dsimp only
    rw [Pair.inbox_setOutbox]
    split_ifs with hf
    · rwa [hf]
    · exact hquiet f (.inl hf)

theorem receive (h : Told calls p) (e : End) :
    Told (calls++[(e,.receive)]) ((receive e).call p).2 := by
  refine ⟨fun f => ?_,h.closed_concat (by simp)⟩
  rw [MemoryTransport.receive,call_modify]
  dsimp only
  rw [Pair.inbox_setInbox]
  split_ifs with hf
  · rw [hf]
    exact (h.inbox e).shift
  · exact (h.inbox f).quiet (by simp [Ne.symm hf]) (fun _ => rfl) (by simp)

theorem close (h : Told calls p) (e : End) : Told (calls++[(e,.close)]) ((close e).call p).2 := by
  rw [MemoryTransport.close,call_modify]
  dsimp only
  cases hw : closes e calls with
  | true =>
    rw [h.closed e,hw,if_pos rfl]
    refine ⟨fun f => (h.inbox f).quiet (by simp) (fun _ => rfl) ?_,fun f => ?_⟩
    · rintro f hf
      cases hf
      exact hw
    · rw [closes_concat,h.closed]
      by_cases hf : (e,Call.close) = (f,.close)
      · cases hf
        rw [hw,Bool.true_or]
      · rw [decide_eq_false hf,Bool.or_false]
  | false =>
    rw [h.closed e,hw,if_neg Bool.false_ne_true]
    refine ⟨fun f => ?_,fun f => ?_⟩
    · rw [Pair.inbox_setInbox,Pair.inbox_setOutbox]
      obtain rfl | rfl := End.eq_or e f
      · rw [if_pos rfl,if_neg f.other_ne.symm]
        exact (h.inbox f).closeReader hw
      · rw [if_neg e.other_ne,Pair.inbox_setOutbox,if_pos rfl]
        have hin := (h.inbox e.other).closeWriter (by rwa [End.other_other])
        rwa [Pair.inbox,End.other_other] at hin
    · change Function.update p.closed e true f = _
      rw [closes_concat]
      obtain rfl | hf := eq_or_ne f e
      · rw [Function.update_self]
        simp
      · rw [Function.update_of_ne hf,h.closed,decide_eq_false (by simp [hf.symm]),Bool.or_false]

theorem perform (h : Told calls p) (c : End × Call) :
    Told (calls++[c]) ((perform c).call p).2 := by
  obtain ⟨e,_ | _ | _⟩ := c
  · exact (h.send e _).2
  · exact h.receive e
  · exact h.close e

end Told

theorem told_after (calls : List (End × Call)) : Told calls (after calls) := by
  induction calls using List.reverseRecOn with
  | nil => exact ⟨Tells.new,fun _ => rfl⟩
  | append_singleton calls c ih =>
    rw [after,List.foldl_concat]
    exact ih.perform c

/-- In whatever order the two ends were called, every receive is answered at most once and
what the calls say, the oldest one first, and a send is taken unless its end was closed. -/
theorem delivers (calls : List (End × Call)) (e : End) :
    ((after calls).inbox e).box.settled = (answers e calls).zipIdx ∧
    ((after calls).inbox e).box.waiters =
      List.range' (answers e calls).length (asked e calls-(answers e calls).length) ∧
    ∀ message, ((send e message).call (after calls)).1 =
      if closes e calls then .error (js "memory transport: send after close") else .ok () := by
  have h := told_after calls
  have hbox : ∃ items, ((after calls).inbox e).box =
      .holding (answers e calls) items (asked e calls) := by
    cases hc : closes e calls with
    | true => exact (h.inbox e).answered hc
    | false =>
      refine ⟨(sent e.other calls).drop (asked e calls),?_⟩
      rw [(h.inbox e).flows hc,answers_of_open hc]
      split_ifs
      · rw [served,List.length_replicate,List.drop_replicate,List.map_replicate]
      · rw [List.append_nil]
        rfl
  obtain ⟨items,hbox⟩ := hbox
  refine ⟨by rw [hbox]; rfl,by rw [hbox]; rfl,fun m => (h.send e m).1⟩

example : answers .b [(.b,.receive),(.a,.send [7]),(.a,.close),(.b,.receive)] =
    [.inl [7],.inr .null] := by decide

end MemoryTransport
end Semp
