import Semp.JsDate

/-! The queue records of the sending side, the event that reports how one ended, and the
in-memory store.  The store's map has the key of each record as its key, so its entries
carry that, and that no key occurs twice. -/
namespace Semp

inductive QueueRecordState
  | queued
  | delivered
  | rejected
  | expired
  | canceled
  deriving DecidableEq, Repr

def isTerminalState (s : QueueRecordState) : Bool := s != .queued

/-- The name of a state in the source. -/
def QueueRecordState.text : QueueRecordState → JsString
  | .queued => js "queued"
  | .delivered => js "delivered"
  | .rejected => js "rejected"
  | .expired => js "expired"
  | .canceled => js "canceled"

inductive AttemptStatus
  | delivered
  | rejected
  | silent
  deriving DecidableEq, Repr

/-- Times are the seconds that the texts of the source name. -/
structure QueueState where
  envelope_id : JsString
  recipient : JsString
  state : QueueRecordState
  attempts : ℕ
  last_attempt_at : Option ℤ
  last_outcome : Option AttemptStatus
  last_reason_code : Option JsString
  next_attempt_at : Option ℤ
  deadline : ℤ
  terminal_at : Option ℤ
  deriving DecidableEq, Repr

def setTerminal (q : QueueState) (state : QueueRecordState) (now : JsDate) : Js QueueState :=
  if !isTerminalState state then .ok q
  else if isTerminalState q.state then .ok q
  else do
    let terminal_at ← JsDate.isoSecond now
    return { q with state := state, next_attempt_at := none, terminal_at := some terminal_at }

structure SubmissionEvent where
  envelope_id : JsString
  recipient : JsString
  status : AttemptStatus
  reason_code : Option JsString
  reason : Option JsString
  /-- `none` is the wall clock, which the default `nowFn` reads. -/
  timestamp : Option ℤ
  deriving DecidableEq, Repr

def newSubmissionEvent (envelopeId recipient : JsString) (status : AttemptStatus)
    (reason_code reason : Option JsString) (nowFn : Option ℤ) : Js SubmissionEvent := do
  if envelopeId = [] then raise (js "delivery: empty envelope_id")
  if recipient = [] then raise (js "delivery: empty recipient")
  return ⟨envelopeId,recipient,status,reason_code,reason,nowFn⟩

/-- `Array.prototype.sort`: the order of elements that the comparator does not order
consistently is the engine's. -/
structure Engine where
  sort : (QueueState → QueueState → ℤ) → List QueueState → List QueueState
  perm : ∀ cmp l, (sort cmp l).Perm l

def keyOf (envelopeId recipient : JsString) : JsString := envelopeId++0::recipient

def QueueState.key (q : QueueState) : JsString := keyOf q.envelope_id q.recipient

/-- A `Map` in insertion order. -/
structure InMemorySchedulerStore where
  records : List (JsString × QueueState)
  keyed : ∀ m ∈ records, m.1 = m.2.key
  nodup : (keys records).Nodup

namespace InMemorySchedulerStore

variable (st : InMemorySchedulerStore)

def empty : InMemorySchedulerStore := ⟨[],by simp,List.nodup_nil⟩

def find (k : JsString) : Option QueueState := lookup st.records k

theorem mem_assign {ms : List (JsString × QueueState)} {k : JsString} {q : QueueState}
    {m : JsString × QueueState} (h : m ∈ assign ms k q) : m = (k,q) ∨ m ∈ ms := by
  induction ms with
  | nil => exact .inl (by simpa [assign] using h)
  | cons a ms ih =>
    unfold assign at h
    split at h
    · rcases List.mem_cons.mp h with h | h
      · exact .inl h
      · exact .inr (List.mem_cons_of_mem _ h)
    · rcases List.mem_cons.mp h with rfl | h
      · exact .inr List.mem_cons_self
      · exact (ih h).imp_right (List.mem_cons_of_mem _)

def put (q : QueueState) : InMemorySchedulerStore where
  records := assign st.records q.key q
  keyed m hm := (mem_assign hm).elim (fun h => by rw [h]) (st.keyed m)
  nodup := nodup_keys_assign st.nodup _ _

def get (envelopeId recipient : JsString) : Option QueueState := st.find (keyOf envelopeId recipient)

/-- Earlier `next_attempt_at` first, then the smaller envelope id. -/
def compareDue (a b : QueueState) : ℤ :=
  let at_ := a.next_attempt_at.elim 0 (·*1000)
  let bt := b.next_attempt_at.elim 0 (·*1000)
  if at_ ≠ bt then at_-bt
  else if keyLe a.envelope_id b.envelope_id && a.envelope_id != b.envelope_id then -1 else 1

def isDue (now : JsDate) (q : QueueState) : Bool :=
  !isTerminalState q.state && q.next_attempt_at.any fun s => (JsDate.parse s).le now

def dueRecords (eng : Engine) (now : JsDate) : List QueueState :=
  eng.sort compareDue ((st.records.map Prod.snd).filter (isDue now))

@[simp] theorem find_put (q : QueueState) (k : JsString) :
    (st.put q).find k = if q.key = k then some q else st.find k := by
  split
  next h => exact h ▸ lookup_assign_self _ _ _
  next h => exact lookup_assign_ne _ (Ne.symm h)

@[simp] theorem find_empty (k : JsString) : empty.find k = none := rfl

theorem find_eq_some {k : JsString} {q : QueueState} :
    st.find k = some q ↔ (k,q) ∈ st.records := lookup_eq_some st.nodup

theorem key_of_find {k : JsString} {q : QueueState} (h : st.find k = some q) : q.key = k :=
  (st.keyed _ (mem_of_lookup h)).symm

theorem mem_values {q : QueueState} : q ∈ st.records.map Prod.snd ↔ st.find q.key = some q := by
  rw [find_eq_some,List.mem_map]
  constructor
  · rintro ⟨m,hm,rfl⟩
    rw [← st.keyed m hm]
    exact hm
  · exact fun h => ⟨_,h,rfl⟩

/-- What is due are the stored records that are due. -/
theorem mem_dueRecords {eng : Engine} {now : JsDate} {q : QueueState} :
    q ∈ st.dueRecords eng now ↔ st.find q.key = some q ∧ isDue now q = true := by
  rw [dueRecords,(eng.perm _ _).mem_iff,List.mem_filter,mem_values]

theorem now_of_mem_due {eng : Engine} {now : JsDate} {q : QueueState}
    (h : q ∈ st.dueRecords eng now) : now ≠ none := by
  rintro rfl
  have hdue := ((st.mem_dueRecords).mp h).2
  unfold isDue at hdue
  cases q.next_attempt_at <;> simp [JsDate.le,JsDate.parse] at hdue

theorem values_key : (st.records.map Prod.snd).map QueueState.key = keys st.records := by
  rw [List.map_map]
  exact List.map_congr_left fun m hm => (st.keyed m hm).symm

theorem nodup_dueRecords (eng : Engine) (now : JsDate) :
    ((st.dueRecords eng now).map QueueState.key).Nodup := by
  rw [dueRecords,((eng.perm _ _).map _).nodup_iff]
  have hsub := (List.filter_sublist (p := isDue now) (l := st.records.map Prod.snd)).map
    QueueState.key
  rw [values_key] at hsub
  exact st.nodup.sublist hsub

end InMemorySchedulerStore

theorem setTerminal_eq_ok {q q' : QueueState} {state : QueueRecordState} {now : JsDate}
    (hs : isTerminalState state = true) (hq : isTerminalState q.state = false) :
    setTerminal q state now = .ok q' ↔ ∃ t, now = some t ∧
      q' = { q with state := state, next_attempt_at := none, terminal_at := some (t/1000) } := by
  cases now <;> simp [setTerminal,hs,hq,JsDate.isoSecond,bind,Except.bind,pure,Except.pure,eq_comm]

theorem setTerminal_invalid {q : QueueState} {state : QueueRecordState}
    (hs : isTerminalState state = true) (hq : isTerminalState q.state = false) :
    setTerminal q state none = .error (.engine .rangeError) := by
  rw [setTerminal,hs,hq]
  rfl

/-- An event is about the record it was made for. -/
theorem newSubmissionEvent_eq_ok {envelopeId recipient : JsString} {status : AttemptStatus}
    {reason_code reason : Option JsString} {nowFn : Option ℤ} {ev : SubmissionEvent} :
    newSubmissionEvent envelopeId recipient status reason_code reason nowFn = .ok ev ↔
      envelopeId ≠ [] ∧ recipient ≠ [] ∧
        ev = ⟨envelopeId,recipient,status,reason_code,reason,nowFn⟩ := by
  unfold newSubmissionEvent raise
  by_cases he : envelopeId = [] <;> by_cases hr : recipient = [] <;>
    simp [he,hr,bind,Except.bind,pure,Except.pure,eq_comm]

end Semp
