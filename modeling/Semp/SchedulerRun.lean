import Semp.Scheduler

/-! What one step of the scheduler can do, and what every state of every interleaving of its
calls keeps: at most one tick runs, and what a call holds are copies of stored records, at
most one of each. -/
namespace Semp
namespace Scheduler
open Tasks Method

/-- What `enqueue` checks of the names of a record. -/
def Named (q : QueueState) : Prop := q.envelope_id ≠ [] ∧ q.recipient ≠ []

/-- The event that reports the end of a record. -/
def report (s : Scheduler) (q : QueueState) (reason : Option JsString) : Option SubmissionEvent :=
  if s.eventSink then
    some ⟨q.envelope_id,q.recipient,if q.state = .delivered then .delivered else .rejected,none,
      reason.filter (· ≠ []),q.terminal_at⟩
  else none

def Env.heard (env : Env) (ev : Option SubmissionEvent) : Js Unit := ev.elim (.ok ()) env.sink

def Fields.tell (f : Fields) (ev : Option SubmissionEvent) : Fields :=
  ev.elim f fun ev => f.note (.event ev)

/-- A record as `setTerminal` leaves it at time `t`. -/
def ended (q : QueueState) (state : QueueRecordState) (t : ℤ) : QueueState :=
  { q with state := state, next_attempt_at := none, terminal_at := some (t/1000) }

/-- What becomes of a record after an attempt: it ends, or it waits for its next attempt. -/
inductive Verdict
  | ends (state : QueueRecordState) (reason : Option JsString)
  | waits (next : JsDate)

/-- How an attempt at time `t` that came back with `res` is judged. -/
def verdict (s : Scheduler) (env : Env) (t : ℤ) (q : QueueState) (res : AttemptResult) : Verdict :=
  if res.status = .delivered then .ends .delivered res.reason
  else if res.status = .rejected && !Retry.isRecoverableReason (res.reasonCode.getD []) then
    .ends .rejected res.reason
  else if (JsDate.parse q.deadline).lt (nextTime s env (some t) (attempt q (t/1000) res)) then
    .ends .expired none
  else .waits (nextTime s env (some t) (attempt q (t/1000) res))

section Records
variable (q : QueueState) (state : QueueRecordState) (t : ℤ) (res : AttemptResult)

@[simp] theorem ended_key : (ended q state t).key = q.key := rfl

@[simp] theorem ended_state : (ended q state t).state = state := rfl

@[simp] theorem named_ended : Named (ended q state t) ↔ Named q := Iff.rfl

@[simp] theorem attempt_key : (attempt q t res).key = q.key := rfl

@[simp] theorem attempt_state : (attempt q t res).state = q.state := rfl

@[simp] theorem named_attempt : Named (attempt q t res) ↔ Named q := Iff.rfl

end Records

section Fields
variable (f : Fields) (ev : Option SubmissionEvent) (e : Entry) (q : QueueState)

@[simp] theorem note_store : (f.note e).store = f.store := rfl

@[simp] theorem note_tickInFlight : (f.note e).tickInFlight = f.tickInFlight := rfl

@[simp] theorem note_log : (f.note e).log = f.log++[e] := rfl

@[simp] theorem put_store : (f.put q).store = f.store.put q := rfl

@[simp] theorem put_tickInFlight : (f.put q).tickInFlight = f.tickInFlight := rfl

@[simp] theorem put_log : (f.put q).log = f.log := rfl

@[simp] theorem tell_store : (f.tell ev).store = f.store := by cases ev <;> rfl

@[simp] theorem tell_tickInFlight : (f.tell ev).tickInFlight = f.tickInFlight := by
  cases ev <;> rfl

@[simp] theorem tell_log : (f.tell ev).log = f.log++ev.toList.map .event := by
  cases ev <;> simp [Fields.tell]

end Fields

@[simp] theorem settle_pure (r : Result) (f : Fields) :
    settle (pure r : Method Thrown Fields Result) f = (r,f) := rfl

section Steps
variable {s : Scheduler} {env : Env} {f : Fields} {q : QueueState}

theorem emit_call (hq : Named q) (reason : Option JsString) :
    (emit s env q reason).call f = (env.heard (s.report q reason),f.tell (s.report q reason)) := by
  unfold emit report
  by_cases hs : s.eventSink = true
  · simp only [hs,if_true]
    rw [newSubmissionEvent_eq_ok.mpr ⟨hq.1,hq.2,rfl⟩,call_bind,call_lift]
    dsimp only
    rw [modify_bind,call_lift]
    rfl
  · simp only [hs,Bool.false_eq_true,if_false]
    rfl

theorem transitionTerminal_call (hq : Named q) (hn : isTerminalState q.state = false)
    {state : QueueRecordState} (hs : isTerminalState state = true) (t : ℤ)
    (reason : Option JsString) :
    (transitionTerminal s env q state (some t) reason).call f =
      ((env.heard (s.report (ended q state t) reason)).map fun _ => ended q state t,
        f.tell (s.report (ended q state t) reason)) := by
  have hset : setTerminal q state (some t) = .ok (ended q state t) :=
    (setTerminal_eq_ok hs hn).mpr ⟨t,rfl,rfl⟩
  unfold transitionTerminal
  simp only [hn,Bool.false_eq_true,if_false]
  rw [hset,call_bind,call_lift]
  dsimp only
  rw [call_bind,emit_call ((named_ended q state t).mpr hq)]
  cases env.heard (s.report (ended q state t) reason) <;> rfl

/-- The loop of `tick`: records that are skipped or whose event is refused, and then the end,
a record that expires or a delivery. -/
theorem processDue_cases {now : JsDate} {advanced : ℕ} {C : Result × Fields → Prop}
    {P : List QueueState → Fields → Prop}
    (hskip : ∀ q due f, P (q::due) f → isTerminalState q.state = true → P due f)
    (hthrow : ∀ q due f t ev, P (q::due) f → isTerminalState q.state = false → now = some t →
      q.deadline*1000 ≤ t → s.report (ended q .expired t) none = some ev →
      env.sink ev ≠ .ok () → P due (f.note (.event ev)))
    (hdone : ∀ firstError f, P [] f →
      C (.done (.ok (.ticked advanced firstError)),{ f with tickInFlight := false }))
    (hexpire : ∀ q due f t firstError, P (q::due) f → isTerminalState q.state = false →
      now = some t → q.deadline*1000 ≤ t →
      env.heard (s.report (ended q .expired t) none) = .ok () →
      C (.awaiting (.tickWritten ⟨now,due,advanced,firstError⟩),
        (f.tell (s.report (ended q .expired t) none)).put (ended q .expired t)))
    (hdeliver : ∀ q due f firstError, P (q::due) f → isTerminalState q.state = false →
      (JsDate.parse q.deadline).le now = false →
      C (.awaiting (.delivering ⟨now,due,advanced,firstError⟩ q),f.note (.deliver now q)))
    (due : List QueueState) (hdue : ∀ q ∈ due, Named q) (firstError : Option Thrown) (f : Fields)
    (hP : P due f) : C (processDue s env now advanced due firstError f) := by
  induction due generalizing firstError f with
  | nil => exact hdone firstError f hP
  | cons q due ih =>
    have hrest : ∀ q ∈ due, Named q := fun q hq => hdue q (List.mem_cons_of_mem _ hq)
    unfold processDue
    by_cases hterm : isTerminalState q.state = true
    · rw [if_pos hterm]
      exact ih hrest firstError f (hskip q due f hP hterm)
    have hn : isTerminalState q.state = false := by simpa using hterm
    rw [if_neg hterm]
    by_cases hd : (JsDate.parse q.deadline).le now = true
    · rw [if_pos hd]
      obtain ⟨u,t,hu,rfl,hle⟩ := JsDate.le_eq_true.mp hd
      obtain rfl := Option.some.inj hu
      rw [transitionExpired,transitionTerminal_call (hdue q List.mem_cons_self) hn rfl]
      cases hh : env.heard (s.report (ended q .expired t) none) with
      | ok u => exact hexpire q due f t firstError hP hn rfl hle hh
      | error e =>
        cases hr : s.report (ended q .expired t) none with
        | none =>
          rw [hr] at hh
          cases hh
        | some ev =>
          rw [hr] at hh
          have hne : env.sink ev ≠ .ok () := by
            intro hok
            change env.sink ev = .error e at hh
            rw [hok] at hh
            cases hh
          exact ih hrest _ _ (hthrow q due f t ev hP hn rfl hle hr hne)
    · rw [if_neg hd]
      exact hdeliver q due f firstError hP hn (by simpa using hd)

theorem terminal_of_verdict {t : ℤ} {res : AttemptResult} {state : QueueRecordState} {reason : Option JsString}
    (h : verdict s env t q res = .ends state reason) : isTerminalState state = true := by
  unfold verdict at h
  split_ifs at h <;> (obtain ⟨rfl,-⟩ := Verdict.ends.inj h; rfl)

/-- A record that waits on was not delivered, and not past its deadline. -/
theorem waits_of_verdict {t : ℤ} {res : AttemptResult} {next : JsDate}
    (h : verdict s env t q res = .waits next) :
    res.status ≠ .delivered ∧ ∀ u, next = some u → u/1000 ≤ q.deadline := by
  unfold verdict at h
  split_ifs at h with hdel hrej hpast
  obtain rfl := Verdict.waits.inj h
  refine ⟨hdel,?_⟩
  intro u hu
  have hle : u ≤ q.deadline*1000 := by
    by_contra hlt
    exact hpast (JsDate.lt_eq_true.mpr ⟨_,u,rfl,hu,by omega⟩)
  omega

theorem judge_call (hq : Named q) (hn : isTerminalState q.state = false) (t : ℤ)
    (res : AttemptResult) (f : Fields) :
    (judge s env (some t) q res).call f = match verdict s env t q res with
      | .ends state reason =>
        ((env.heard (s.report (ended (attempt q (t/1000) res) state t) reason)).map
          fun _ => ended (attempt q (t/1000) res) state t,
          f.tell (s.report (ended (attempt q (t/1000) res) state t) reason))
      | .waits next => ((JsDate.isoSecond next).map
          fun n => { attempt q (t/1000) res with next_attempt_at := some n },f) := by
  have hq' := (named_attempt q (t/1000) res).mpr hq
  unfold judge verdict
  rw [call_bind,call_lift]
  simp only [JsDate.isoSecond]
  by_cases hdel : res.status = .delivered
  · simp only [hdel,if_true]
    exact transitionTerminal_call hq' hn rfl t res.reason
  simp only [hdel,if_false]
  by_cases hrej : (decide (res.status = .rejected) &&
      !Retry.isRecoverableReason (res.reasonCode.getD [])) = true
  · simp only [hrej,if_true]
    exact transitionTerminal_call hq' hn rfl t res.reason
  simp only [hrej,Bool.false_eq_true,if_false]
  by_cases hpast : (JsDate.parse q.deadline).lt
      (nextTime s env (some t) (attempt q (t/1000) res)) = true
  · have hpast' : (JsDate.parse (attempt q (t/1000) res).deadline).lt
        (nextTime s env (some t) (attempt q (t/1000) res)) = true := hpast
    simp only [hpast,hpast',if_true]
    exact transitionTerminal_call hq' hn rfl t none
  · have hpast' : ¬ (JsDate.parse (attempt q (t/1000) res).deadline).lt
        (nextTime s env (some t) (attempt q (t/1000) res)) = true := hpast
    simp only [hpast,hpast',Bool.false_eq_true,if_false]
    rw [call_bind,call_lift]
    cases nextTime s env (some t) (attempt q (t/1000) res) <;> rfl

/-- What an attempt can leave: the record ended and was reported, or it waits on, or an error
without either. -/
theorem judge_cases {now : JsDate} (hq : Named q) (hn : isTerminalState q.state = false)
    (res : AttemptResult) {C : Js QueueState × Fields → Prop}
    (hended : ∀ t last state reason, now = some t → isTerminalState state = true →
      (res.status = .delivered → state = .delivered) →
      C ((env.heard (s.report (ended (attempt q last res) state t) reason)).map
          fun _ => ended (attempt q last res) state t,
        f.tell (s.report (ended (attempt q last res) state t) reason)))
    (hwaits : ∀ last next, res.status ≠ .delivered → next ≤ q.deadline →
      C (.ok { attempt q last res with next_attempt_at := some next },f))
    (hfails : ∀ e, (now = none ∨ res.status ≠ .delivered) → C (.error e,f)) :
    C ((judge s env now q res).call f) := by
  cases now with
  | none => exact hfails _ (.inl rfl)
  | some t =>
    rw [judge_call hq hn]
    cases hv : verdict s env t q res with
    | ends state reason =>
      refine hended t _ _ _ rfl (terminal_of_verdict hv) ?_
      intro hdel
      rw [verdict,if_pos hdel] at hv
      exact (Verdict.ends.inj hv).1.symm
    | waits next =>
      obtain ⟨hdel,hle⟩ := waits_of_verdict hv
      cases next with
      | none => exact hfails _ (.inr hdel)
      | some u => exact hwaits _ _ hdel (hle u rfl)

theorem runAttempt_call {now : JsDate} : (runAttempt s env now q).call f =
    match env.attempt with
    | .ok res => (judge s env now q res).call f
    | .error e => (.error e,f) := by
  unfold runAttempt
  rw [call_bind,call_lift]
  cases env.attempt <;> rfl

theorem newRecord_eq_ok {envelopeId recipient : JsString} {postmarkExpires now : JsDate} :
    s.newRecord envelopeId recipient postmarkExpires now = .ok q ↔ ∃ t u, now = some t ∧
      Retry.effectiveDeadline (some postmarkExpires) now (some s.horizonMs) = some u ∧
      q = ⟨envelopeId,recipient,.queued,0,none,none,none,some (t/1000),u/1000,none⟩ := by
  unfold newRecord
  cases hd : Retry.effectiveDeadline (some postmarkExpires) now (some s.horizonMs) <;>
    cases now <;>
    simp [JsDate.isoSecond,bind,Except.bind,pure,Except.pure,eq_comm]

theorem insert_cases {envelopeId recipient : JsString} {postmarkExpires now : JsDate}
    {existing : Option QueueState} {C : Result × Fields → Prop}
    (hrefused : ∀ e, C (.done (.error e),f))
    (hwrites : ∀ q, existing = none →
      s.newRecord envelopeId recipient postmarkExpires now = .ok q →
      C (.awaiting .enqueueWritten,f.put q)) :
    C (settle (s.insert envelopeId recipient postmarkExpires now existing) f) := by
  unfold settle insert
  cases existing with
  | some old => exact hrefused _
  | none =>
    simp only [Option.isSome_none,Bool.false_eq_true,if_false]
    rw [call_bind,call_lift]
    cases hq : s.newRecord envelopeId recipient postmarkExpires now with
    | error e => exact hrefused _
    | ok q => exact hwrites q rfl hq

theorem cancelStored_cases {envelopeId recipient : JsString} {now : JsDate}
    {stored : Option QueueState} {C : Result × Fields → Prop}
    (hends : ∀ r, r ≠ .ok .enqueued → C (.done r,f))
    (hwrites : ∀ q t, stored = some q → isTerminalState q.state = false → now = some t →
      C (.awaiting (.cancelWritten recipient (ended q .canceled t)),
        f.put (ended q .canceled t))) :
    C (settle (cancelStored envelopeId recipient now stored) f) := by
  unfold settle
  cases stored with
  | none => exact hends _ (by simp)
  | some q =>
    unfold cancelStored
    by_cases hterm : isTerminalState q.state = true
    · simp only [hterm,if_true]
      exact hends _ (by simp)
    have hn : isTerminalState q.state = false := by simpa using hterm
    simp only [hterm,Bool.false_eq_true,if_false]
    rw [call_bind,call_lift]
    cases now with
    | none =>
      rw [setTerminal_invalid rfl hn]
      exact hends _ (by simp)
    | some t =>
      rw [(setTerminal_eq_ok rfl hn).mpr ⟨t,rfl,rfl⟩]
      exact hwrites q t rfl hn rfl

/-- The first copy that is not terminal is the one that is canceled next. -/
theorem cancelMatches_cases {now : JsDate} {C : Result × Fields → Prop}
    (hends : ∀ r, r ≠ .ok .enqueued → C (.done r,f)) (rest : List QueueState)
    (hwrites : ∀ pre q post out t, rest = pre++q::post →
      (∀ p ∈ pre, isTerminalState p.state = true) → isTerminalState q.state = false →
      now = some t → C (.awaiting (.cancelAllWritten now (ended q .canceled t) post out),
        f.put (ended q .canceled t))) (out : List CancelResult) :
    C (settle (cancelMatches now rest out) f) := by
  induction rest generalizing out with
  | nil => exact hends _ (by simp)
  | cons q rest ih =>
    unfold cancelMatches
    by_cases hterm : isTerminalState q.state = true
    · simp only [hterm,if_true]
      apply ih
      intro pre p post out t hrest hpre
      apply hwrites (q::pre) p post out t
      · rw [hrest]
        rfl
      · intro x hx
        rcases List.mem_cons.mp hx with rfl | hx
        · exact hterm
        · exact hpre x hx
    have hn : isTerminalState q.state = false := by simpa using hterm
    simp only [hterm,Bool.false_eq_true,if_false]
    unfold settle
    rw [call_bind,call_lift]
    cases now with
    | none =>
      rw [setTerminal_invalid rfl hn]
      exact hends _ (by simp)
    | some t =>
      rw [(setTerminal_eq_ok rfl hn).mpr ⟨t,rfl,rfl⟩]
      exact hwrites [] q rest out t rfl (by simp) hn rfl

theorem start_cases {c : Call} {C : Result × Fields → Prop}
    (hrefused : ∀ e, C (.done (.error e),f))
    (henqueue : ∀ envelopeId recipient postmarkExpires,
      c = .enqueue envelopeId recipient postmarkExpires → envelopeId ≠ [] → recipient ≠ [] →
      C (.awaiting (.enqueueRead envelopeId recipient postmarkExpires env.now
        (f.store.find (keyOf envelopeId recipient))),f))
    (htick : c = .tick → f.tickInFlight = false →
      C (.awaiting (.tickRead ⟨env.now,f.store.dueRecords s.engine env.now,0,none⟩),
        { f with tickInFlight := true }))
    (hcancel : ∀ envelopeId recipient, c = .cancel envelopeId recipient →
      C (.awaiting (.cancelRead envelopeId recipient env.now
        (f.store.find (keyOf envelopeId recipient))),f))
    (hcancelAll : ∀ envelopeId, c = .cancelEnvelope envelopeId →
      C (.awaiting (.cancelAllRead envelopeId env.now
        (f.store.dueRecords s.engine (env.now.plus (s.horizonMs.mul (.ofNat 2))))),f)) :
    C (start s env c f) := by
  cases c with
  | enqueue envelopeId recipient postmarkExpires =>
    unfold start settle
    by_cases he : envelopeId = []
    · simp only [he,if_true]
      exact hrefused _
    by_cases hr : recipient = []
    · simp only [he,hr,if_true,if_false]
      exact hrefused _
    simp only [he,hr,if_false]
    exact henqueue _ _ _ rfl he hr
  | tick =>
    unfold start settle
    dsimp only
    rw [get_bind]
    by_cases hf : f.tickInFlight = true
    · simp only [hf,if_true]
      exact hrefused _
    have hfree : f.tickInFlight = false := by simpa using hf
    simp only [hf,Bool.false_eq_true,if_false]
    exact htick rfl hfree
  | cancel envelopeId recipient => exact hcancel _ _ rfl
  | cancelEnvelope envelopeId =>
    unfold start settle
    by_cases he : envelopeId = []
    · simp only [he,if_true]
      exact hrefused _
    simp only [he,if_false]
    exact hcancelAll _ rfl

/-- The event of a cancellation is sent after the record is stored. -/
theorem emit_cases (hq : Named q) (reason : Option JsString) {g : Unit → Method Thrown Fields Result}
    {C : Result × Fields → Prop} (hrefused : ∀ e, C (.done (.error e),f.tell (s.report q reason)))
    (hsent : C (settle (g ()) (f.tell (s.report q reason)))) :
    C (settle (emit s env q reason >>= g) f) := by
  have hcall : (emit s env q reason).call f =
      (env.heard (s.report q reason),f.tell (s.report q reason)) := emit_call hq reason
  unfold settle
  rw [call_bind,hcall]
  cases env.heard (s.report q reason) with
  | ok u => exact hsent
  | error e => exact hrefused e

/-- Up to its first `await` a call writes neither the store nor an event. -/
theorem start_fields (s : Scheduler) (env : Env) (c : Call) (f : Fields) :
    (start s env c f).2.store = f.store ∧ (start s env c f).2.log = f.log := by
  apply start_cases (C := fun r => r.2.store = f.store ∧ r.2.log = f.log)
  case hrefused => exact fun _ => ⟨rfl,rfl⟩
  case henqueue => exact fun _ _ _ _ _ _ => ⟨rfl,rfl⟩
  case htick => exact fun _ _ => ⟨rfl,rfl⟩
  case hcancel => exact fun _ _ _ => ⟨rfl,rfl⟩
  case hcancelAll => exact fun _ _ => ⟨rfl,rfl⟩

end Steps

/-- The copies of stored records that a waiting call may still use. -/
def Pending.copies : Pending → List QueueState
  | .enqueueRead .. | .enqueueWritten => []
  | .tickRead l | .tickWritten l | .attempted l (.error _) => l.due
  | .delivering l q | .attempted l (.ok q) => q::l.due
  | .cancelRead _ _ _ q => q.toList
  | .cancelWritten _ q => [q]
  | .cancelAllRead _ _ all => all
  | .cancelAllWritten _ q rest _ => q::rest

/-- One for a tick. -/
def Pending.ticking : Pending → ℕ
  | .tickRead _ | .tickWritten _ | .attempted .. | .delivering .. => 1
  | _ => 0

def Fields.running (f : Fields) : ℕ := if f.tickInFlight then 1 else 0

/-- What a call has checked of what it goes on with. -/
def Checked (c : Call) : Pending → Prop
  | .enqueueRead envelopeId recipient postmarkExpires _ _ =>
    c = .enqueue envelopeId recipient postmarkExpires ∧ envelopeId ≠ [] ∧ recipient ≠ []
  | .enqueueWritten => ∃ envelopeId recipient postmarkExpires,
    c = .enqueue envelopeId recipient postmarkExpires
  | .tickRead l | .tickWritten l | .attempted l _ => l.due ≠ [] → l.now ≠ none
  | .delivering l q => isTerminalState q.state = false ∧ l.now ≠ none
  | _ => True

/-- The copies are of named, stored records, at most one of each. -/
structure Kept (st : InMemorySchedulerStore) (p : Pending) : Prop where
  named : ∀ q ∈ p.copies, Named q
  stored : ∀ q ∈ p.copies, st.find q.key ≠ none
  nodup : (p.copies.map QueueState.key).Nodup

structure Sound (w : World) : Prop where
  named : ∀ k q, w.fields.store.find k = some q → Named q
  kept : Every (fun _ p => Kept w.fields.store p) w
  checked : Every Checked w
  latch : total Pending.ticking w = w.fields.running

/-- What a step does to the fields: nothing is removed, and what is written is named. -/
structure Grows (f f' : Fields) : Prop where
  named : ∀ k q, f'.store.find k = some q → f.store.find k = some q ∨ Named q
  stored : ∀ k, f.store.find k ≠ none → f'.store.find k ≠ none

section Growing
variable {f f' f'' : Fields} {q : QueueState}

theorem Grows.of_store (h : f'.store = f.store) : Grows f f' where
  named _ _ hq := .inl (h ▸ hq)
  stored _ hk := h ▸ hk

theorem Grows.put (h : Grows f f') (hq : Named q) : Grows f (f'.put q) where
  named k x hx := by
    rw [put_store,InMemorySchedulerStore.find_put] at hx
    split at hx
    · obtain rfl := Option.some.inj hx
      exact .inr hq
    · exact h.named k x hx
  stored k hk := by
    rw [put_store,InMemorySchedulerStore.find_put]
    split
    · simp
    · exact h.stored k hk

theorem Kept.grow {p : Pending} (h : Kept f.store p) (hg : Grows f f') : Kept f'.store p where
  named := h.named
  stored q hq := hg.stored _ (h.stored q hq)
  nodup := h.nodup

/-- A call that holds fewer copies. -/
theorem Kept.of_sublist {p p' : Pending} {st : InMemorySchedulerStore} (h : Kept st p)
    (hs : p'.copies.Sublist p.copies) : Kept st p' where
  named q hq := h.named q (hs.subset hq)
  stored q hq := h.stored q (hs.subset hq)
  nodup := h.nodup.sublist (hs.map _)

/-- The same copies by key, one of them updated. -/
theorem Kept.of_keys {p p' : Pending} {st : InMemorySchedulerStore} (h : Kept st p)
    (hk : (p'.copies.map QueueState.key).Sublist (p.copies.map QueueState.key))
    (hn : ∀ q ∈ p'.copies, Named q) : Kept st p' where
  named := hn
  stored q hq := by
    obtain ⟨x,hx,he⟩ := List.mem_map.mp (hk.subset (List.mem_map_of_mem hq))
    exact he ▸ h.stored x hx
  nodup := h.nodup.sublist hk

variable {w : World} {c : Call} {r : Result × Fields}

theorem Sound.started (h : Sound w) (c : Call) (hg : Grows w.fields r.2)
    (hk : r.1.All (Kept r.2.store)) (hc : r.1.All (Checked c))
    (hl : r.2.running = w.fields.running+weight Pending.ticking r.1) : Sound (w.started c r) where
  named k q hq := (hg.named k q hq).elim (h.named k q) id
  kept := Every.started (h.kept.mono fun _ p hp => hp.grow hg) c hk
  checked := h.checked.started c hc
  latch := by
    rw [total_started,h.latch]
    exact hl.symm

theorem Sound.resumed (h : Sound w) {i : ℕ} {p : Pending}
    (hi : w.calls[i]? = some ⟨c,.awaiting p⟩) (hg : Grows w.fields r.2)
    (hk : r.1.All (Kept r.2.store)) (hc : r.1.All (Checked c))
    (hl : r.2.running+p.ticking = w.fields.running+weight Pending.ticking r.1) :
    Sound (w.resumed i c r) where
  named k q hq := (hg.named k q hq).elim (h.named k q) id
  kept := Every.resumed (h.kept.mono fun _ p hp => hp.grow hg) i c hk
  checked := h.checked.resumed i c hc
  latch := by
    have ht := total_resumed Pending.ticking r hi
    have := h.latch
    change _ = r.2.running
    omega

/-- A call that ends without a word leaves everything as it was. -/
theorem Sound.over (h : Sound w) {i : ℕ} {p : Pending} {f : Fields}
    (hi : w.calls[i]? = some ⟨c,.awaiting p⟩) (hp : p.ticking = 0) (hs : f.store = w.fields.store)
    (hf : f.tickInFlight = w.fields.tickInFlight) (x : Js Returned) :
    Sound (w.resumed i c (.done x,f)) := by
  refine h.resumed hi (.of_store hs) (all_done _ _) (all_done _ _) ?_
  simp [Fields.running,hf,hp]

end Growing

section Sound
variable {s : Scheduler} {w w' : World}

theorem Sound.initial : Sound World.initial where
  named _ _ h := by cases h
  kept i c t h := by simp [World.initial] at h
  checked i c t h := by simp [World.initial] at h
  latch := rfl

theorem Sound.due_kept (h : Sound w) {p : Pending} {eng : Engine} {now : JsDate}
    (hp : p.copies = w.fields.store.dueRecords eng now) : Kept w.fields.store p where
  named q hq := by
    rw [hp] at hq
    exact h.named _ q ((w.fields.store.mem_dueRecords).mp hq).1
  stored q hq := by
    rw [hp] at hq
    rw [((w.fields.store.mem_dueRecords).mp hq).1]
    simp
  nodup := hp ▸ w.fields.store.nodup_dueRecords _ _

theorem Sound.found_kept (h : Sound w) {p : Pending} {k : JsString}
    (hp : p.copies = (w.fields.store.find k).toList) : Kept w.fields.store p where
  named q hq := by
    rw [hp,Option.mem_toList] at hq
    exact h.named _ q hq
  stored q hq := by
    rw [hp,Option.mem_toList] at hq
    rw [w.fields.store.key_of_find hq,hq]
    simp
  nodup := by
    rw [hp]
    cases w.fields.store.find k <;> simp

theorem sound_started (h : Sound w) (c : Call) (env : Env) :
    Sound (w.started c (start s env c w.fields)) := by
  apply start_cases (C := fun r => Sound (w.started c r))
  case hrefused =>
    intro e
    exact h.started c (.of_store rfl) (all_done _ _) (all_done _ _) rfl
  case henqueue =>
    intro envelopeId recipient postmarkExpires hc he hr
    exact h.started c (.of_store rfl) ⟨by simp [Pending.copies],by simp [Pending.copies],
      by simp [Pending.copies]⟩ ⟨hc,he,hr⟩ rfl
  case htick =>
    intro _ hfree
    refine h.started c (.of_store rfl) (h.due_kept rfl) ?_ ?_
    · intro hne
      obtain ⟨q,hq⟩ := List.exists_mem_of_ne_nil _ hne
      exact w.fields.store.now_of_mem_due hq
    · simp [Fields.running,hfree,Pending.ticking]
  case hcancel =>
    intro envelopeId recipient _
    exact h.started c (.of_store rfl) (h.found_kept rfl) trivial rfl
  case hcancelAll =>
    intro envelopeId _
    exact h.started c (.of_store rfl) (h.due_kept rfl) trivial rfl

theorem Sound.running_of_tick (h : Sound w) {i : ℕ} {c : Call} {p : Pending}
    (hi : w.calls[i]? = some ⟨c,.awaiting p⟩) (hp : p.ticking = 1) : w.fields.running = 1 := by
  have hle := le_total Pending.ticking hi
  have hlatch := h.latch
  unfold Fields.running at hlatch ⊢
  split at hlatch
  next ht => rw [if_pos ht]
  next ht => omega

/-- A tick goes on with the rest of its records. -/
theorem sound_next (h : Sound w) {i : ℕ} {c : Call} {p : Pending}
    (hi : w.calls[i]? = some ⟨c,.awaiting p⟩) (hp : p.ticking = 1) (env : Env) {l : TickLocals}
    (hl : l.due.Sublist p.copies) (hnow : l.due ≠ [] → l.now ≠ none) :
    Sound (w.resumed i c (l.next s env w.fields)) := by
  have hk := h.kept i c p hi
  have hrun := h.running_of_tick hi hp
  have hdue : ∀ q ∈ l.due, Named q := fun q hq => hk.named q (hl.subset hq)
  refine processDue_cases (C := fun r => Sound (w.resumed i c r))
    (P := fun due f => f.store = w.fields.store ∧ f.tickInFlight = w.fields.tickInFlight ∧
      due.Sublist l.due) ?_ ?_ ?_ ?_ ?_ l.due hdue l.firstError w.fields ⟨rfl,rfl,.refl _⟩
  · rintro q due f ⟨hs,hf,hsub⟩ _
    exact ⟨hs,hf,(List.sublist_cons_self q due).trans hsub⟩
  · rintro q due f t ev ⟨hs,hf,hsub⟩ - - - - -
    exact ⟨hs,hf,(List.sublist_cons_self q due).trans hsub⟩
  · rintro firstError f ⟨hs,hf,-⟩
    refine h.resumed hi (.of_store hs) (all_done _ _) (all_done _ _) ?_
    rw [hp,hrun]
    rfl
  · rintro q due f t firstError ⟨hs,hf,hsub⟩ hn ht - -
    have hq : Named q := hdue q (hsub.subset List.mem_cons_self)
    have hgrow : Grows w.fields ((f.tell (s.report (ended q .expired t) none)).put
        (ended q .expired t)) := Grows.put (.of_store (by simp [hs])) hq
    refine h.resumed hi hgrow (Kept.grow (hk.of_sublist ?_) hgrow) (fun _ => by simp [ht]) ?_
    · exact ((List.sublist_cons_self q due).trans hsub).trans hl
    · rw [hp]
      simp [Fields.running,hf,Pending.ticking]
  · rintro q due f firstError ⟨hs,hf,hsub⟩ hn hd
    have hne : l.due ≠ [] := List.ne_nil_of_mem (hsub.subset List.mem_cons_self)
    refine h.resumed hi (.of_store hs) (Kept.grow (hk.of_sublist ?_) (.of_store hs))
      ⟨hn,hnow hne⟩ ?_
    · exact hsub.trans hl
    · rw [hp]
      simp [Fields.running,hf,Pending.ticking]

/-- A tick goes on with the record its delivery was for. -/
theorem sound_judged (h : Sound w) {i : ℕ} {c : Call} {l : TickLocals} {q : QueueState}
    (hi : w.calls[i]? = some ⟨c,.awaiting (.delivering l q)⟩) {res : Js QueueState}
    {f : Fields} (hs : f.store = w.fields.store) (hf : f.tickInFlight = w.fields.tickInFlight)
    (hres : ∀ q', res = .ok q' → Named q' ∧ q'.key = q.key) :
    Sound (w.resumed i c (.awaiting (.attempted l res),f)) := by
  have hk := h.kept i c _ hi
  have hnow : l.now ≠ none := (h.checked i c _ hi).2
  refine h.resumed hi (.of_store hs) (Kept.grow ?_ (.of_store hs)) (fun _ => hnow) ?_
  · cases res with
    | error e => exact hk.of_sublist (List.sublist_cons_self q l.due)
    | ok q' =>
      obtain ⟨hq',hkey⟩ := hres q' rfl
      refine hk.of_keys ?_ ?_
      · simp [Pending.copies,hkey]
      · intro x hx
        rcases List.mem_cons.mp hx with rfl | hx
        · exact hq'
        · exact hk.named x (List.mem_cons_of_mem _ hx)
  · simp [Fields.running,hf,Pending.ticking]

theorem sound_canceled (h : Sound w) {i : ℕ} {c : Call} {p : Pending}
    (hi : w.calls[i]? = some ⟨c,.awaiting p⟩) (hp : p.ticking = 0) {f : Fields}
    (hs : f.store = w.fields.store) (hf : f.tickInFlight = w.fields.tickInFlight)
    {now : JsDate} {rest : List QueueState} (hrest : rest.Sublist p.copies)
    (out : List CancelResult) :
    Sound (w.resumed i c (settle (cancelMatches now rest out) f)) := by
  have hk := h.kept i c p hi
  apply cancelMatches_cases (C := fun r => Sound (w.resumed i c r))
  · intro r _
    exact h.over hi hp hs hf r
  · rintro pre q post out t rfl - hn -
    have hsub : (q::post).Sublist p.copies := (List.sublist_append_right pre _).trans hrest
    have hq : Named q := hk.named q (hsub.subset List.mem_cons_self)
    have hg : Grows w.fields (f.put (ended q .canceled t)) := Grows.put (.of_store hs) hq
    refine h.resumed hi hg (Kept.grow (hk.of_keys ?_ ?_) hg) trivial ?_
    · exact (hsub.map QueueState.key)
    · intro x hx
      rcases List.mem_cons.mp hx with rfl | hx
      · exact hq
      · exact hk.named x (hsub.subset (List.mem_cons_of_mem _ hx))
    · rw [hp]
      simp [Fields.running,hf,Pending.ticking]

theorem sound_resumed (h : Sound w) {i : ℕ} {c : Call} {p : Pending}
    (hi : w.calls[i]? = some ⟨c,.awaiting p⟩) (env : Env) :
    Sound (w.resumed i c (resume s env p w.fields)) := by
  have hk := h.kept i c p hi
  cases p with
  | enqueueRead envelopeId recipient postmarkExpires now existing =>
    apply insert_cases (C := fun r => Sound (w.resumed i c r))
    · intro e
      exact h.over hi rfl rfl rfl _
    · intro q _ hq
      obtain ⟨t,u,-,-,rfl⟩ := newRecord_eq_ok.mp hq
      obtain ⟨hc,hn⟩ := h.checked i c _ hi
      refine h.resumed hi (Grows.put (.of_store rfl) hn) ?_ ⟨_,_,_,hc⟩ rfl
      exact ⟨by simp [Pending.copies],by simp [Pending.copies],by simp [Pending.copies]⟩
  | enqueueWritten => exact h.over hi rfl rfl rfl _
  | tickRead l => exact sound_next h hi rfl env (.refl _) (h.checked i c _ hi)
  | tickWritten l => exact sound_next h hi rfl env (.refl _) (h.checked i c _ hi)
  | delivering l q =>
    have hq : Named q := hk.named q List.mem_cons_self
    change Sound (w.resumed i c (.awaiting (.attempted l ((runAttempt s env l.now q).call
      w.fields).1),((runAttempt s env l.now q).call w.fields).2))
    rw [runAttempt_call]
    cases env.attempt with
    | error e => exact sound_judged h hi rfl rfl (by simp)
    | ok res =>
      refine judge_cases (f := w.fields) hq (h.checked i c _ hi).1 res
        (C := fun r => Sound (w.resumed i c (.awaiting (.attempted l r.1),r.2))) ?_ ?_ ?_
      · intro t last state reason _ _ _
        apply sound_judged h hi (by simp) (by simp)
        intro q' hq'
        dsimp only at hq'
        generalize env.heard (s.report (ended (attempt q last res) state t) reason) = x at hq'
        cases x with
        | ok u =>
          obtain rfl := Except.ok.inj hq'
          exact ⟨hq,rfl⟩
        | error e => cases hq'
      · rintro last next - -
        apply sound_judged h hi (by simp) (by simp)
        intro q' hq'
        obtain rfl := Except.ok.inj hq'
        exact ⟨hq,rfl⟩
      · intro e _
        exact sound_judged h hi rfl rfl (by simp)
  | attempted l res =>
    cases res with
    | ok q =>
      have hg : Grows w.fields (w.fields.put q) :=
        Grows.put (.of_store rfl) (hk.named q List.mem_cons_self)
      refine h.resumed hi hg (Kept.grow (hk.of_sublist ?_) hg) (h.checked i c _ hi) rfl
      exact List.sublist_cons_self q l.due
    | error e => exact sound_next h hi rfl env (.refl _) (h.checked i c _ hi)
  | cancelRead envelopeId recipient now q =>
    apply cancelStored_cases (C := fun r => Sound (w.resumed i c r))
    · intro r _
      exact h.over hi rfl rfl rfl _
    · rintro q t rfl hn rfl
      have hq : Named q := hk.named q (by simp [Pending.copies])
      have hg : Grows w.fields (w.fields.put (ended q .canceled t)) :=
        Grows.put (.of_store rfl) hq
      refine h.resumed hi hg (Kept.grow (hk.of_keys (.refl _) ?_) hg) trivial rfl
      simpa [Pending.copies] using hq
  | cancelWritten recipient q =>
    apply emit_cases (C := fun r => Sound (w.resumed i c r)) (hk.named q List.mem_cons_self)
    · intro e
      exact h.over hi rfl (by simp) (by simp) _
    · exact h.over hi rfl (by simp) (by simp) _
  | cancelAllRead envelopeId now all =>
    exact sound_canceled h hi rfl rfl rfl List.filter_sublist []
  | cancelAllWritten now q rest out =>
    apply emit_cases (C := fun r => Sound (w.resumed i c r)) (hk.named q List.mem_cons_self)
    · intro e
      exact h.over hi rfl (by simp) (by simp) _
    · exact sound_canceled h hi rfl (by simp) (by simp) (List.sublist_cons_self q rest) _

theorem sound_step {a : Act} (h : Sound w) (hs : step s.calls w a = some w') : Sound w' :=
  step_cases (C := fun _ w' => Sound w') hs (fun c env => sound_started h c env)
    fun _ env _ _ hi => sound_resumed h hi env

theorem sound_of_reached {ok : World → Act → Prop} (h : Reached s.calls ok World.initial w) :
    Sound w :=
  h.inv Sound.initial fun _ _ _ hu _ hs => sound_step hu hs

end Sound

end Scheduler
end Semp
