import Semp.DeliveryQueue
import Semp.Method
import Semp.Retry
import Semp.Tasks

/-! The delivery scheduler over the in-memory store.  Its methods await the store and the
network, so a call is cut at each `await`: what it does up to the next one is one step, and
the local variables it keeps across it are a `Pending`. -/
namespace Semp
open Tasks

structure AttemptResult where
  status : AttemptStatus
  reasonCode : Option JsString
  reason : Option JsString
  deriving DecidableEq, Repr

structure CancelResult where
  recipient : JsString
  state : QueueRecordState
  reason : Option JsString
  deriving DecidableEq, Repr

structure SchedulerConfig where
  retry : Option RetryConfig
  maxRetryHorizonMs : Option Number
  /-- Whether an `eventSink` was given. -/
  eventSink : Bool

structure Scheduler where
  engine : Engine
  retry : EffectiveRetryConfig
  horizonMs : Number
  eventSink : Bool

namespace Scheduler

def new (engine : Engine) (cfg : SchedulerConfig) : Scheduler where
  engine := engine
  retry := Retry.sanitizeRetry (cfg.retry.getD ⟨none,none,none,none⟩)
  horizonMs := cfg.maxRetryHorizonMs.getD (.ofNat (72*3600000))
  eventSink := cfg.eventSink

/-- What happened so far; the source keeps no such record. -/
inductive Entry
  /-- `deliver` was started for a record, in a tick that read this time. -/
  | deliver (now : JsDate) (q : QueueState)
  /-- The sink was called. -/
  | event (ev : SubmissionEvent)
  deriving DecidableEq, Repr

structure Fields where
  store : InMemorySchedulerStore
  tickInFlight : Bool
  log : List Entry

def Fields.initial : Fields := ⟨.empty,false,[]⟩

def Fields.put (f : Fields) (q : QueueState) : Fields := { f with store := f.store.put q }

def Fields.note (f : Fields) (e : Entry) : Fields := { f with log := f.log++[e] }

/-- What a step reads from outside: the clock, the delivery that came back, the random bits
and the sink. -/
structure Env where
  now : JsDate
  attempt : Js AttemptResult
  entropy : UInt32
  sink : SubmissionEvent → Js Unit

inductive Call
  | enqueue (envelopeId recipient : JsString) (postmarkExpires : JsDate)
  | tick
  | cancel (envelopeId recipient : JsString)
  | cancelEnvelope (envelopeId : JsString)
  deriving DecidableEq, Repr

inductive Returned
  | enqueued
  | ticked (advanced : ℕ) (firstError : Option Thrown)
  | canceled (r : CancelResult)
  | canceledAll (out : List CancelResult)

/-- The local variables of `tick` between two records. -/
structure TickLocals where
  now : JsDate
  due : List QueueState
  advanced : ℕ
  firstError : Option Thrown

inductive Pending
  /-- `await this.store.get` in `enqueue` -/
  | enqueueRead (envelopeId recipient : JsString) (postmarkExpires now : JsDate)
    (existing : Option QueueState)
  /-- `await this.store.put` in `enqueue` -/
  | enqueueWritten
  /-- `await this.store.dueRecords` in `tick` -/
  | tickRead (l : TickLocals)
  /-- `await this.deliver` in `runAttempt` -/
  | delivering (l : TickLocals) (q : QueueState)
  /-- `await this.runAttempt` in `tick`: the record it updated, or what it threw. -/
  | attempted (l : TickLocals) (res : Js QueueState)
  /-- `await this.store.put` in `tick` -/
  | tickWritten (l : TickLocals)
  /-- `await this.store.get` in `cancel` -/
  | cancelRead (envelopeId recipient : JsString) (now : JsDate) (q : Option QueueState)
  /-- `await this.store.put` in `cancel` -/
  | cancelWritten (recipient : JsString) (q : QueueState)
  /-- `await this.store.dueRecords` in `cancelEnvelope` -/
  | cancelAllRead (envelopeId : JsString) (now : JsDate) (all : List QueueState)
  /-- `await this.store.put` in `cancelEnvelope` -/
  | cancelAllWritten (now : JsDate) (q : QueueState) (rest : List QueueState)
    (out : List CancelResult)

abbrev Result := Stage Pending (Js Returned)

/-- How a step that may throw ends. -/
def settle (x : Method Thrown Fields Result) (f : Fields) : Result × Fields :=
  match x.call f with
  | (.ok s,f') => (s,f')
  | (.error e,f') => (.done (.error e),f')

section Methods
variable (s : Scheduler) (env : Env)

def emit (q : QueueState) (reason : Option JsString) : Method Thrown Fields Unit := do
  if s.eventSink then
    let status := if q.state = .delivered then AttemptStatus.delivered else .rejected
    let reason := reason.filter (· ≠ [])
    -- The reason code is passed as `reasonCode`, a name that the event does not read.
    let ev ← newSubmissionEvent q.envelope_id q.recipient status none reason q.terminal_at
    modify (Fields.note · (.event ev))
    env.sink ev

def transitionTerminal (q : QueueState) (state : QueueRecordState) (now : JsDate)
    (reason : Option JsString) : Method Thrown Fields QueueState := do
  if isTerminalState q.state then return q
  let q ← setTerminal q state now
  emit s env q reason
  return q

def transitionExpired (q : QueueState) (now : JsDate) : Method Thrown Fields QueueState :=
  transitionTerminal s env q .expired now none

/-- The record an attempt leaves before its outcome is judged. -/
def attempt (q : QueueState) (last_attempt_at : ℤ) (res : AttemptResult) : QueueState :=
  { q with
    attempts := q.attempts+1
    last_attempt_at := some last_attempt_at
    last_outcome := some res.status
    last_reason_code := res.reasonCode.filter (· ≠ []) }

def nextTime (now : JsDate) (q : QueueState) : JsDate :=
  match Retry.nextAttemptAt s.retry.toConfig now (q.attempts-1)
      (Retry.defaultRandFloat env.entropy) with
  | .ok next => next
  | .error _ => now.plus (.ofNat 1000)

/-- `runAttempt` after `deliver` returned. -/
def judge (now : JsDate) (q : QueueState) (res : AttemptResult) :
    Method Thrown Fields QueueState := do
  let last_attempt_at ← JsDate.isoSecond now
  let q := attempt q last_attempt_at res
  if res.status = .delivered then
    return ← transitionTerminal s env q .delivered now res.reason
  if res.status = .rejected && !Retry.isRecoverableReason (res.reasonCode.getD []) then
    return ← transitionTerminal s env q .rejected now res.reason
  let next := nextTime s env now q
  if (JsDate.parse q.deadline).lt next then
    return ← transitionExpired s env q now
  let next_attempt_at ← JsDate.isoSecond next
  return { q with next_attempt_at := some next_attempt_at }

def runAttempt (now : JsDate) (q : QueueState) : Method Thrown Fields QueueState := do
  let res ← env.attempt
  judge s env now q res

/-- The loop of `tick` from the next record on. -/
def processDue (now : JsDate) (advanced : ℕ) :
    List QueueState → Option Thrown → Fields → Result × Fields
  | [], firstError, f =>
    (.done (.ok (.ticked advanced firstError)),{ f with tickInFlight := false })
  | q::due, firstError, f =>
    if isTerminalState q.state then processDue now advanced due firstError f
    else if (JsDate.parse q.deadline).le now then
      match (transitionExpired s env q now).call f with
      | (.ok q,f') => (.awaiting (.tickWritten ⟨now,due,advanced,firstError⟩),f'.put q)
      | (.error e,f') => processDue now advanced due (firstError.or (some e)) f'
    else
      (.awaiting (.delivering ⟨now,due,advanced,firstError⟩ q),f.note (.deliver now q))

def TickLocals.next (l : TickLocals) (f : Fields) : Result × Fields :=
  processDue s env l.now l.advanced l.due l.firstError f

def newRecord (envelopeId recipient : JsString) (postmarkExpires now : JsDate) : Js QueueState := do
  let deadline := Retry.effectiveDeadline (some postmarkExpires) now (some s.horizonMs)
  let next_attempt_at ← JsDate.isoSecond now
  let deadline ← JsDate.isoSecond deadline
  return ⟨envelopeId,recipient,.queued,0,none,none,none,some next_attempt_at,deadline,none⟩

/-- `enqueue` after it read the store. -/
def insert (envelopeId recipient : JsString) (postmarkExpires now : JsDate)
    (existing : Option QueueState) : Method Thrown Fields Result := do
  if existing.isSome then
    raise (js "delivery: queue record already exists for ("++envelopeId++js ", "++recipient
      ++js ")")
  let q ← s.newRecord envelopeId recipient postmarkExpires now
  modify (Fields.put · q)
  return .awaiting .enqueueWritten

def alreadyTerminal (q : QueueState) : CancelResult where
  recipient := q.recipient
  state := q.state
  reason := some (js "already "++q.state.text++js "; cancellation is a no-op per §2.7.4")

/-- `cancel` after it read the store. -/
def cancelStored (envelopeId recipient : JsString) (now : JsDate) :
    Option QueueState → Method Thrown Fields Result
  | none => raise (js "delivery: no queue record for envelope_id="++JsonText.quote envelopeId
      ++js " recipient="++JsonText.quote recipient)
  | some q => do
    if isTerminalState q.state then
      return .done (.ok (.canceled { alreadyTerminal q with recipient := recipient }))
    let q ← setTerminal q .canceled now
    modify (Fields.put · q)
    return .awaiting (.cancelWritten recipient q)

/-- The loop of `cancelEnvelope` from the next record on. -/
def cancelMatches (now : JsDate) :
    List QueueState → List CancelResult → Method Thrown Fields Result
  | [], out => return .done (.ok (.canceledAll out))
  | q::rest, out => do
    if isTerminalState q.state then
      return ← cancelMatches now rest (out++[alreadyTerminal q])
    let q ← setTerminal q .canceled now
    modify (Fields.put · q)
    return .awaiting (.cancelAllWritten now q rest out)

/-- A call up to its first `await`. -/
def start : Call → Fields → Result × Fields
  | .enqueue envelopeId recipient postmarkExpires => settle do
    if envelopeId = [] then raise (js "delivery: enqueue empty envelope_id")
    if recipient = [] then raise (js "delivery: enqueue empty recipient")
    let f ← get
    return .awaiting (.enqueueRead envelopeId recipient postmarkExpires env.now
      (f.store.get envelopeId recipient))
  | .tick => settle do
    let f ← get
    if f.tickInFlight then raise (js "delivery: scheduler tick already in progress")
    modify fun f => { f with tickInFlight := true }
    return .awaiting (.tickRead ⟨env.now,f.store.dueRecords s.engine env.now,0,none⟩)
  | .cancel envelopeId recipient => settle do
    let f ← get
    return .awaiting (.cancelRead envelopeId recipient env.now (f.store.get envelopeId recipient))
  | .cancelEnvelope envelopeId => settle do
    if envelopeId = [] then raise (js "delivery: cancelEnvelope empty envelope_id")
    let f ← get
    return .awaiting (.cancelAllRead envelopeId env.now
      (f.store.dueRecords s.engine (env.now.plus (s.horizonMs.mul (.ofNat 2)))))

/-- A call from one `await` to the next. -/
def resume : Pending → Fields → Result × Fields
  | .enqueueRead envelopeId recipient postmarkExpires now existing =>
    settle (s.insert envelopeId recipient postmarkExpires now existing)
  | .enqueueWritten => settle (return .done (.ok .enqueued))
  | .tickRead l => l.next s env
  | .delivering l q => fun f =>
    let r := (runAttempt s env l.now q).call f
    (.awaiting (.attempted l r.1),r.2)
  | .attempted l (.ok q) => fun f => (.awaiting (.tickWritten l),f.put q)
  | .attempted l (.error e) =>
    { l with firstError := l.firstError.or (some e) }.next s env
  | .tickWritten l => { l with advanced := l.advanced+1 }.next s env
  | .cancelRead envelopeId recipient now q => settle (cancelStored envelopeId recipient now q)
  | .cancelWritten recipient q => settle do
    emit s env q (some (js "client-initiated cancellation"))
    return .done (.ok (.canceled ⟨recipient,.canceled,none⟩))
  | .cancelAllRead envelopeId now all => settle
    (cancelMatches now (all.filter (·.envelope_id = envelopeId)) [])
  | .cancelAllWritten now q rest out => settle do
    emit s env q (some (js "client-initiated whole-envelope cancellation"))
    cancelMatches now rest (out++[⟨q.recipient,.canceled,none⟩])

end Methods

/-- The scheduler as an object whose calls interleave. -/
def calls (s : Scheduler) : Object Fields Call Pending Env (Js Returned) where
  start c env := s.start env c
  resume p env := s.resume env p

abbrev World := Tasks.World Fields Call Pending (Js Returned)

abbrev Act := Tasks.Act Call Env

def World.initial : World := ⟨.initial,[]⟩

end Scheduler
end Semp
