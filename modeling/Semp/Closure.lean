import Semp.JsMap
import Semp.IsoDate
import Semp.Handshake
import Semp.DeviceRecords
import Semp.Tasks

/-! Account closure: the records, the store, and the driver that takes requests and
cancellations and finalizes what is due.  Every `await` of the driver is a point where
another call may go on. -/
namespace Semp
namespace Closure
open Handshake
open DeviceRecords (optionalProp)
open TransparencyLog (isText)
open Tasks

def recordType : JsString := js "SEMP_ACCOUNT_CLOSURE"

def minGracePeriodSeconds : ℕ := 7*24*60*60
def maxGracePeriodSeconds : ℕ := 90*24*60*60
def minRetentionMs : ℕ := 180*24*60*60*1000

/-- `typeof v === "string"` -/
def isString : Option Json → Bool
  | some (.str _) => true
  | _ => false

def isRequest (r : Members) : Bool := isStr (lookup r (js "step")) (js "request")

/-- `r.user_id`, of a record that is valid. -/
def userId (r : Members) : JsString :=
  match lookup r (js "user_id") with
  | some (.str s) => s
  | _ => []

/-- `r.grace_period_seconds`, of a record that is valid. -/
def gracePeriodSeconds (r : Members) : Number :=
  match lookup r (js "grace_period_seconds") with
  | some (.num x) => x
  | _ => .nan

structure FinalizeResult where
  user_id : JsString
  finalized_at : JsDate
  deriving DecidableEq, Repr

section Records
variable (other : JsString → JsDate)

/-- `Date.parse(r.requested_at)` -/
def requestedAt (r : Members) : JsDate :=
  match lookup r (js "requested_at") with
  | some (.str s) => JsDate.parseText other s
  | _ => none

/-- The bounds of the grace period of a request. -/
def requireGracePeriod (grace : Option Json) : Js Unit :=
  match grace with
  | some (.num x) => do
    require (x.isInteger = true) (js "closure: grace_period_seconds must be an integer")
    require (x.lt (.ofNat minGracePeriodSeconds) = false)
      (js "closure: grace_period_seconds "++NumberText.toText x++js " below minimum "++
        natText minGracePeriodSeconds++js " (7 days)")
    require ((Number.ofNat maxGracePeriodSeconds).lt x = false)
      (js "closure: grace_period_seconds "++NumberText.toText x++js " exceeds maximum "++
        natText maxGracePeriodSeconds++js " (90 days)")
  | _ => raise (js "closure: grace_period_seconds must be an integer")

def validateClosureRecord (r : Members) (skipSignatureCheck : Bool) : Js Unit := do
  let type := lookup r (js "type")
  require (isStr type recordType = true)
    (js "closure: type "++stringifyText type++js ", want "++recordType)
  let step := lookup r (js "step")
  require (isRequest r = true ∨ isStr step (js "cancel") = true)
    (js "closure: step "++stringifyText step++js " is not request or cancel")
  require (isText (lookup r (js "version")) = true) (js "closure: missing version")
  require (isText (lookup r (js "user_id")) = true) (js "closure: missing user_id")
  require (isText (lookup r (js "requested_at")) = true) (js "closure: missing requested_at")
  require ((requestedAt other r).isSome) (js "closure: requested_at is not ISO 8601")
  require (isText (lookup r (js "issued_by")) = true) (js "closure: missing issued_by")
  if isRequest r then requireGracePeriod (lookup r (js "grace_period_seconds"))
  let signature := lookup r (js "signature")
  let algorithm ← optionalProp signature (js "algorithm")
  require (isString algorithm = true) (js "closure: missing signature.algorithm")
  let keyId ← optionalProp signature (js "key_id")
  require (isString keyId = true) (js "closure: missing signature.key_id")
  let value ← optionalProp signature (js "value")
  require (isString value = true) (js "closure: signature.value must be a string")
  require (skipSignatureCheck = true ∨ isStr value [] = false) (js "closure: record is unsigned")

def finalizationAt (r : Members) : Js JsDate := do
  let ts ← need (requestedAt other r) (js "closure: requested_at is not ISO 8601")
  .ok (JsDate.plus (some ts) ((gracePeriodSeconds r).mul (.ofNat 1000)))

/-- `now.getTime() >= finalizationAt(r).getTime()` -/
def reached (r : Members) (now : JsDate) : Js Bool := do
  let d ← finalizationAt other r
  .ok (JsDate.le d now)

def isFinalizable (r : Members) (now : JsDate) : Js Bool :=
  if isRequest r then reached other r now else .ok false

end Records

/-- A pending request; the store keeps the record, the number tells one closure of a user
from a later one. -/
structure Pending where
  number : ℕ
  record : Members

/-- A closure: its user and its number. -/
abbrev Ref := JsString × ℕ

inductive Event
  | accepted (id : Ref) (now : JsDate) (record : Members)
  | canceled (id : Ref)
  | finalized (id : Ref) (now : JsDate)
  | pruned (gone : List (JsString × JsDate)) (now : JsDate)

/-- The store, with the number of the requests that were accepted and what happened. -/
structure Fields where
  pending : JsMap Pending
  finalized : JsMap JsDate
  opened : ℕ
  log : List Event

inductive SubmitResult
  | accepted
  | already_pending
  | not_pending
  /-- The reason is the message of the error. -/
  | invalid (err : Thrown)

inductive Returned
  | submitted (r : SubmitResult)
  | ticked (out : List FinalizeResult)
  | pruned (removed : ℕ)

inductive Call
  | submit (record : Members)
  | tick
  | prune (retainForMs : Number)

/-- What a call keeps over an `await`. -/
inductive Waiting
  /-- after `putPending`, or after the `deletePending` of a cancellation -/
  | answer (r : SubmitResult)
  /-- after `getPending` -/
  | cancel (userId : JsString) (existing : Option Pending)
  /-- before the next of the due records -/
  | sweep (now : JsDate) (rest : List (JsString × Pending)) (out : List FinalizeResult)
  /-- after `putFinalized` -/
  | remove (now : JsDate) (r : JsString × Pending) (rest : List (JsString × Pending))
    (out : List FinalizeResult)

abbrev Result := Stage Waiting (Js Returned)

abbrev World := Tasks.World Fields Call Waiting (Js Returned)

namespace Fields

def initial : Fields := ⟨.empty,.empty,0,[]⟩

/-- The record of a user without one becomes pending. -/
def accept (f : Fields) (now : JsDate) (r : Members) : Fields :=
  { f with
    pending := f.pending.set (userId r) ⟨f.opened,r⟩
    opened := f.opened+1
    log := f.log++[.accepted (userId r,f.opened) now r] }

/-- `putPending` -/
def putPending (f : Fields) (now : JsDate) (r : Members) : Js (SubmitResult × Fields) :=
  if userId r = [] then raise (js "closure: store put_pending missing user_id")
  else if f.pending.has (userId r) then .ok (.already_pending,f)
  else .ok (.accepted,f.accept now r)

def finalize (f : Fields) (r : JsString × Pending) (finalizedAt : JsDate) : Fields :=
  { f with
    finalized := f.finalized.set r.1 finalizedAt
    log := f.log++[.finalized (r.1,r.2.number) finalizedAt] }

/-- `putFinalized` of a closure -/
def putFinalized (f : Fields) (r : JsString × Pending) (finalizedAt : JsDate) : Js Fields :=
  if r.1 = [] then raise (js "closure: store put_finalized missing user_id")
  else if finalizedAt = none then raise (js "closure: store put_finalized invalid timestamp")
  else .ok (f.finalize r finalizedAt)

def deletePending (f : Fields) (user : JsString) : Fields :=
  { f with pending := f.pending.delete user }

/-- `deletePending` for a cancellation that found a closure -/
def cancel (f : Fields) (user : JsString) (existing : Pending) : Fields :=
  { f with pending := f.pending.delete user, log := f.log++[.canceled (user,existing.number)] }

/-- `now.getTime() - Math.max(retainForMs, MinRetentionMs)`, where NaN stays NaN. -/
def cutoff (retainForMs : Number) (now : JsDate) : Number :=
  now.getTime.sub (if retainForMs.lt (.ofNat minRetentionMs) then .ofNat minRetentionMs
    else retainForMs)

def evicts (retainForMs : Number) (now finalizedAt : JsDate) : Bool :=
  finalizedAt.getTime.lt (cutoff retainForMs now)

/-- `pruneFinalized` -/
def pruneFinalized (f : Fields) (retainForMs : Number) (now : JsDate) : ℕ × Fields :=
  let gone := f.finalized.entries.filter fun e => evicts retainForMs now e.2
  (gone.length,{ f with
    finalized := f.finalized.sweep (evicts retainForMs now)
    log := f.log++[.pruned gone now] })

end Fields

section Driver
variable (other : JsString → JsDate)

/-- The records that are due, in the order of the map. -/
def dueEntries (now : JsDate) : List (JsString × Pending) → Js (List (JsString × Pending))
  | [] => .ok []
  | e::es => do
    let due ← reached other e.2.record now
    let rest ← dueEntries now es
    .ok (if due then e::rest else rest)

/-- `duePending`, sorted by `user_id` -/
def duePending (f : Fields) (now : JsDate) : Js (List (JsString × Pending)) := do
  let due ← dueEntries other now f.pending.entries
  .ok (sortMembers due)

/-- The loop of `tick` up to its next `await`. -/
def sweepNext (now : JsDate) (out : List FinalizeResult) (f : Fields) :
    List (JsString × Pending) → Result × Fields
  | [] => (.done (.ok (.ticked out)),f)
  | r::rest =>
    match isFinalizable other r.2.record now with
    | .error e => (.done (.error e),f)
    | .ok false => sweepNext now out f rest
    | .ok true =>
      match f.putFinalized r now with
      | .error e => (.done (.error e),f)
      | .ok f' => (.awaiting (.remove now r rest out),f')

/-- A call up to its first `await`; `now` is the clock. -/
def start (now : JsDate) (f : Fields) : Call → Result × Fields
  | .submit record =>
    match validateClosureRecord other record false with
    | .error e => (.done (.ok (.submitted (.invalid e))),f)
    | .ok () =>
      if isRequest record then
        match f.putPending now record with
        | .error e => (.done (.error e),f)
        | .ok (r,f') => (.awaiting (.answer r),f')
      else (.awaiting (.cancel (userId record) (f.pending.get (userId record))),f)
  | .tick =>
    match duePending other f now with
    | .error e => (.done (.error e),f)
    | .ok due => (.awaiting (.sweep now due []),f)
  | .prune retainForMs =>
    let r := f.pruneFinalized retainForMs now
    (.done (.ok (.pruned r.1)),r.2)

def resume (f : Fields) : Waiting → Result × Fields
  | .answer r => (.done (.ok (.submitted r)),f)
  | .cancel _ none => (.done (.ok (.submitted .not_pending)),f)
  | .cancel user (some existing) => (.awaiting (.answer .accepted),f.cancel user existing)
  | .sweep now rest out => sweepNext other now out f rest
  | .remove now r rest out =>
    (.awaiting (.sweep now rest (out++[⟨r.1,now⟩])),f.deletePending r.1)

def driver : Object Fields Call Waiting JsDate (Js Returned) where
  start c now f := start other now f c
  resume t _ f := resume other f t

end Driver

def World.initial : World := ⟨.initial,[]⟩

section Steps
variable {other : JsString → JsDate} {f f' : Fields} {now : JsDate}

theorem putFinalized_eq_ok {r : JsString × Pending} (h : f.putFinalized r now = .ok f') :
    now.isSome ∧ f' = f.finalize r now := by
  rw [Fields.putFinalized] at h
  split_ifs at h with hid hnow
  · cases h
  · cases h
  · exact ⟨Option.isSome_iff_ne_none.mpr hnow,(Except.ok.inj h).symm⟩

theorem of_mem_dueEntries {es due : List (JsString × Pending)}
    (h : dueEntries other now es = .ok due) {e : JsString × Pending} (he : e ∈ due) : e ∈ es := by
  induction es generalizing due with
  | nil =>
    obtain rfl := Except.ok.inj h
    cases he
  | cons e' es ih =>
    obtain ⟨d,-,h⟩ := bind_eq_ok.mp h
    obtain ⟨rest,hrest,h⟩ := bind_eq_ok.mp h
    obtain rfl := Except.ok.inj h
    cases d with
    | false => exact List.mem_cons_of_mem _ (ih hrest he)
    | true =>
      obtain rfl | he := List.mem_cons.mp he
      · exact List.mem_cons_self
      · exact List.mem_cons_of_mem _ (ih hrest he)

/-- What a tick lists is pending. -/
theorem of_mem_duePending {due : List (JsString × Pending)}
    (h : duePending other f now = .ok due) {e : JsString × Pending} (he : e ∈ due) :
    f.pending.get e.1 = some e.2 := by
  obtain ⟨es,hes,h⟩ := bind_eq_ok.mp h
  obtain rfl := Except.ok.inj h
  exact JsMap.get_eq_some.mpr (of_mem_dueEntries hes (mem_sortMembers.mp he))

/-- A tick goes on to a record of its list that it finalizes, or ends. -/
theorem sweepNext_cases {rest : List (JsString × Pending)} {out : List FinalizeResult} :
    (∃ r, sweepNext other now out f rest = (.done r,f)) ∨
    ∃ r post, r::post <:+ rest ∧ isFinalizable other r.2.record now = .ok true ∧ now.isSome ∧
      sweepNext other now out f rest = (.awaiting (.remove now r post out),f.finalize r now) := by
  induction rest with
  | nil => exact .inl ⟨_,rfl⟩
  | cons r rest ih =>
    rw [sweepNext]
    split
    · exact .inl ⟨_,rfl⟩
    · obtain ⟨r',h⟩ | ⟨r',post,hpost,h⟩ := ih
      · exact .inl ⟨r',h⟩
      · exact .inr ⟨r',post,hpost.trans (List.suffix_cons r rest),h⟩
    next hfin =>
      split
      · exact .inl ⟨_,rfl⟩
      next hput =>
        obtain ⟨hnow,rfl⟩ := putFinalized_eq_ok hput
        exact .inr ⟨r,rest,List.suffix_rfl,hfin,hnow,rfl⟩

/-- What a call does up to its first `await`. -/
theorem start_cases {C : Call → Result × Fields → Prop} (c : Call)
    (ended : ∀ c r, C c (.done r,f))
    (accept : ∀ r, validateClosureRecord other r false = .ok () → isRequest r = true →
      f.pending.get (userId r) = none →
      C (.submit r) (.awaiting (.answer .accepted),f.accept now r))
    (refuse : ∀ r, validateClosureRecord other r false = .ok () → isRequest r = true →
      f.pending.has (userId r) = true →
      C (.submit r) (.awaiting (.answer .already_pending),f))
    (find : ∀ r, validateClosureRecord other r false = .ok () → isRequest r = false →
      C (.submit r) (.awaiting (.cancel (userId r) (f.pending.get (userId r))),f))
    (list : ∀ due, duePending other f now = .ok due →
      C .tick (.awaiting (.sweep now due []),f))
    (prune : ∀ x, C (.prune x) (.done (.ok (.pruned (f.pruneFinalized x now).1)),
      (f.pruneFinalized x now).2)) : C c (start other now f c) := by
  cases c with
  | submit r =>
    rw [start]
    split
    · exact ended _ _
    next hvalid =>
      split_ifs with hreq
      · rw [Fields.putPending]
        split_ifs with hid hhas
        · exact ended _ _
        · exact refuse r hvalid hreq hhas
        · exact accept r hvalid hreq (JsMap.has_eq_false.mp (Bool.eq_false_of_not_eq_true hhas))
      · exact find r hvalid (Bool.eq_false_of_not_eq_true hreq)
  | tick =>
    rw [start]
    split
    · exact ended _ _
    next due hdue => exact list due hdue
  | prune x => exact prune x

/-- What a call that waited does up to its next `await`. -/
theorem resume_cases {C : Waiting → Result × Fields → Prop} (t : Waiting)
    (ended : ∀ t r, (∀ now r rest out, t ≠ .remove now r rest out) → C t (.done r,f))
    (cancel : ∀ user existing, C (.cancel user (some existing))
      (.awaiting (.answer .accepted),f.cancel user existing))
    (finalize : ∀ now rest out r post, r::post <:+ rest →
      isFinalizable other r.2.record now = .ok true → now.isSome →
      C (.sweep now rest out) (.awaiting (.remove now r post out),f.finalize r now))
    (delete : ∀ now r rest out, C (.remove now r rest out)
      (.awaiting (.sweep now rest (out++[⟨r.1,now⟩])),f.deletePending r.1)) :
    C t (resume other f t) := by
  cases t with
  | answer r => exact ended _ _ (by simp)
  | cancel user existing =>
    cases existing with
    | none => exact ended _ _ (by simp)
    | some existing => exact cancel user existing
  | sweep now rest out =>
    rw [resume]
    obtain ⟨r,h⟩ | ⟨r,post,hpost,hfin,hnow,h⟩ := sweepNext_cases
    · exact h ▸ ended _ _ (by simp)
    · exact h ▸ finalize now rest out r post hpost hfin hnow
  | remove now r rest out => exact delete now r rest out

end Steps

end Closure
end Semp
