import Semp.DateOrder
import Semp.JsMap
import Semp.SchedulerDeadline

/-! The cancellation of a whole envelope.  It looks for the records in what is due at a
cut-off that is computed from the configured horizon as it is, while deadlines and next
attempts are computed from the horizon after it is clamped. -/
namespace Semp

/-- `delete` of the in-memory store. -/
def InMemorySchedulerStore.delete (st : InMemorySchedulerStore) (envelopeId recipient : JsString) :
    InMemorySchedulerStore where
  records := st.records.filter (·.1 ≠ keyOf envelopeId recipient)
  keyed m hm := st.keyed m (List.mem_filter.mp hm).1
  nodup := JsMap.nodup_filter st.nodup _

theorem InMemorySchedulerStore.find_of_delete {st : InMemorySchedulerStore}
    {envelopeId recipient k : JsString} {q : QueueState}
    (h : (st.delete envelopeId recipient).find k = some q) : st.find k = some q := by
  rw [find_eq_some] at h ⊢
  exact (List.mem_filter.mp h).1

namespace Scheduler
open Tasks Method

/-- The runs whose clock does not go back, with its last reading.  Calls may overlap, and records
may go, as `pruneTerminal` removes those that have ended. -/
inductive Clocked (s : Scheduler) : ℤ → World → Prop
  | initial (t : ℤ) : Clocked s t World.initial
  | start {t t' : ℤ} {w : World} {env : Env} (h : Clocked s t w) (c : Call) (ht : t ≤ t')
    (hnow : env.now = some t') (htime : |t'| ≤ JsDate.maxTime) :
    Clocked s t' (w.started c (start s env c w.fields))
  | resume {t : ℤ} {w w' : World} {i : ℕ} {env : Env} (h : Clocked s t w)
    (hs : step s.calls w (.resume i env) = some w') : Clocked s t w'
  | delete {t : ℤ} {w : World} (h : Clocked s t w) (envelopeId recipient : JsString) :
    Clocked s t { w with fields :=
      { w.fields with store := w.fields.store.delete envelopeId recipient } }

/-- What a record of a run keeps: its deadline is within the horizon of an earlier time, and it
waits for a time that is over or is not after the deadline. -/
structure Dated (s : Scheduler) (t : ℤ) (q : QueueState) : Prop where
  named : Named q
  deadline : ∃ a d, a ≤ t ∧ |a| ≤ JsDate.maxTime ∧
    Retry.effectiveDeadline none (some a) (some s.horizonMs) = some d ∧ q.deadline*1000 ≤ d
  next : isOpen q = true → ∃ n, q.next_attempt_at = some n ∧ (n*1000 ≤ t ∨ n ≤ q.deadline)

/-- What a waiting call of a run has checked. -/
def Ready (t : ℤ) : Pending → Prop
  | .enqueueRead envelopeId recipient _ now _ => envelopeId ≠ [] ∧ recipient ≠ [] ∧
    ∃ a, now = some a ∧ a ≤ t ∧ |a| ≤ JsDate.maxTime
  | .delivering _ q => isTerminalState q.state = false
  | _ => True

structure Holding (s : Scheduler) (t : ℤ) (p : Pending) : Prop where
  dated : ∀ q ∈ p.copies, Dated s t q
  ready : Ready t p

/-- What a step leaves. -/
structure Left (s : Scheduler) (t : ℤ) (r : Result × Fields) : Prop where
  dated : ∀ k q, r.2.store.find k = some q → Dated s t q
  holding : r.1.All (Holding s t)

structure Records (s : Scheduler) (t : ℤ) (w : World) : Prop where
  dated : ∀ k q, w.fields.store.find k = some q → Dated s t q
  holding : Every (fun _ => Holding s t) w

section Runs
variable {s : Scheduler} {t t' : ℤ} {w w' : World} {env : Env} {q : QueueState} {f f' : Fields}

theorem Dated.mono (h : Dated s t q) (ht : t ≤ t') : Dated s t' q where
  named := h.named
  deadline := by
    obtain ⟨a,d,ha,hrest⟩ := h.deadline
    exact ⟨a,d,ha.trans ht,hrest⟩
  next ho := by
    obtain ⟨n,hn,hle⟩ := h.next ho
    exact ⟨n,hn,hle.imp_left (·.trans ht)⟩

theorem Holding.mono {p : Pending} (h : Holding s t p) (ht : t ≤ t') : Holding s t' p where
  dated q hq := (h.dated q hq).mono ht
  ready := by
    have hr := h.ready
    cases p with
    | enqueueRead envelopeId recipient postmarkExpires now existing =>
      obtain ⟨he,hn,a,ha,hle,hmax⟩ := hr
      exact ⟨he,hn,a,ha,hle.trans ht,hmax⟩
    | _ => exact hr

theorem Dated.ended (h : Dated s t q) {state : QueueRecordState}
    (hs : isTerminalState state = true) (u : ℤ) : Dated s t (ended q state u) where
  named := h.named
  deadline := h.deadline
  next ho := by
    rw [ended_not_open hs] at ho
    cases ho

theorem Dated.attempt (h : Dated s t q) (last : ℤ) (res : AttemptResult) :
    Dated s t (attempt q last res) := ⟨h.named,h.deadline,h.next⟩

theorem Dated.scheduled (h : Dated s t q) {n : ℤ} (hn : n ≤ q.deadline) :
    Dated s t { q with next_attempt_at := some n } where
  named := h.named
  deadline := h.deadline
  next _ := ⟨n,rfl,.inr hn⟩

/-- The deadline of a record is not after the one of its horizon. -/
theorem effectiveDeadline_le {expires a : JsDate} {horizonMs : Option Number} {u : ℤ}
    (h : Retry.effectiveDeadline (some expires) a horizonMs = some u) :
    ∃ d, Retry.effectiveDeadline none a horizonMs = some d ∧ u ≤ d := by
  change (if expires.lt (Retry.effectiveDeadline none a horizonMs) then expires
    else Retry.effectiveDeadline none a horizonMs) = some u at h
  split_ifs at h with hlt
  · obtain ⟨v,d,hv,hd,hle⟩ := JsDate.lt_eq_true.mp hlt
    obtain rfl : v = u := Option.some.inj (hv.symm.trans h)
    exact ⟨d,hd,hle.le⟩
  · exact ⟨u,h,le_refl u⟩

/-- A step writes a record or none. -/
theorem Left.put (h : ∀ k q, f.store.find k = some q → Dated s t q) (hs : f'.store = f.store)
    (hq : Dated s t q) {stage : Result} (hp : stage.All (Holding s t)) :
    Left s t (stage,f'.put q) where
  dated k x hx := by
    change (f'.store.put q).find k = some x at hx
    rw [InMemorySchedulerStore.find_put] at hx
    split at hx
    · obtain rfl := Option.some.inj hx
      exact hq
    · exact h k x (hs ▸ hx)
  holding := hp

theorem Left.keep (h : ∀ k q, f.store.find k = some q → Dated s t q) (hs : f'.store = f.store)
    {stage : Result} (hp : stage.All (Holding s t)) : Left s t (stage,f') where
  dated k x hx := h k x (hs ▸ hx)
  holding := hp

theorem left_next (h : ∀ k q, f.store.find k = some q → Dated s t q) {l : TickLocals}
    (hl : ∀ q ∈ l.due, Dated s t q) : Left s t (l.next s env f) := by
  refine processDue_cases (C := Left s t)
    (P := fun due f' => f'.store = f.store ∧ ∀ q ∈ due, Dated s t q) ?_ ?_ ?_ ?_ ?_
    l.due (fun q hq => (hl q hq).named) l.firstError f ⟨rfl,hl⟩
  · rintro q due f' ⟨hs,hdue⟩ -
    exact ⟨hs,fun x hx => hdue x (List.mem_cons_of_mem _ hx)⟩
  · rintro q due f' u ev ⟨hs,hdue⟩ - - - - -
    exact ⟨hs,fun x hx => hdue x (List.mem_cons_of_mem _ hx)⟩
  · rintro firstError f' ⟨hs,-⟩
    refine .keep h ?_ (all_done _ _)
    exact hs
  · rintro q due f' u firstError ⟨hs,hdue⟩ - - - -
    refine .put h (by simpa using hs) ((hdue q List.mem_cons_self).ended rfl u) ⟨?_,trivial⟩
    exact fun x hx => hdue x (List.mem_cons_of_mem _ hx)
  · rintro q due f' firstError ⟨hs,hdue⟩ hn -
    refine .keep h (by simpa using hs) ?_
    exact ⟨hdue,hn⟩

theorem left_matches (h : ∀ k q, f.store.find k = some q → Dated s t q) (hs : f'.store = f.store)
    {now : JsDate} {rest : List QueueState} (hr : ∀ q ∈ rest, Dated s t q)
    (out : List CancelResult) : Left s t (settle (cancelMatches now rest out) f') := by
  apply cancelMatches_cases (C := Left s t)
  · exact fun r _ => .keep h hs (all_done _ _)
  · rintro pre q post out u rfl - - -
    have hq : Dated s t (ended q .canceled u) := (hr q (by simp)).ended rfl u
    refine .put h hs hq ⟨?_,trivial⟩
    intro x hx
    rcases List.mem_cons.mp hx with rfl | hx
    · exact hq
    · exact hr x (by simp [hx])

theorem left_judged (h : ∀ k q, f.store.find k = some q → Dated s t q) {l : TickLocals}
    (hq : Dated s t q) (hn : isTerminalState q.state = false) (hl : ∀ x ∈ l.due, Dated s t x) :
    Left s t (resume s env (.delivering l q) f) := by
  have hok {x : QueueState} (hx : Dated s t x) : Holding s t (.attempted l (.ok x)) := by
    refine ⟨?_,trivial⟩
    intro y hy
    rcases List.mem_cons.mp hy with rfl | hy
    · exact hx
    · exact hl y hy
  have herror (e : Thrown) : Holding s t (.attempted l (.error e)) := ⟨hl,trivial⟩
  change Left s t (.awaiting (.attempted l ((runAttempt s env l.now q).call f).1),
    ((runAttempt s env l.now q).call f).2)
  rw [runAttempt_call]
  cases env.attempt with
  | error e => exact .keep h rfl (herror e)
  | ok res =>
    refine judge_cases (C := fun r => Left s t (.awaiting (.attempted l r.1),r.2)) hq.named hn res
      ?_ ?_ ?_
    · intro u last state reason _ hstate _
      refine .keep h (by simp) ?_
      cases env.heard (s.report (ended (Scheduler.attempt q last res) state u) reason) with
      | ok v => exact hok ((hq.attempt last res).ended hstate u)
      | error e => exact herror e
    · exact fun last next _ hle => .keep h rfl (hok ((hq.attempt last res).scheduled hle))
    · exact fun e _ => .keep h rfl (herror e)

theorem left_resumed (h : ∀ k q, f.store.find k = some q → Dated s t q) {p : Pending}
    (hp : Holding s t p) (env : Env) : Left s t (resume s env p f) := by
  obtain ⟨hcopies,hready⟩ := hp
  cases p with
  | enqueueRead envelopeId recipient postmarkExpires now existing =>
    obtain ⟨he,hr,a,rfl,ha,hmax⟩ := hready
    apply insert_cases (C := Left s t)
    · exact fun e => .keep h rfl (all_done _ _)
    · intro q _ hq
      obtain ⟨b,u,hb,hu,rfl⟩ := newRecord_eq_ok.mp hq
      obtain rfl : a = b := Option.some.inj hb
      obtain ⟨d,hd,hle⟩ := effectiveDeadline_le hu
      refine .put h rfl ⟨⟨he,hr⟩,⟨a,d,ha,hmax,hd,(JsDate.second_le u).trans hle⟩,?_⟩
        ⟨by simp [Pending.copies],trivial⟩
      exact fun _ => ⟨_,rfl,.inl ((JsDate.second_le a).trans ha)⟩
  | enqueueWritten => exact .keep h rfl (all_done _ _)
  | tickRead l => exact left_next h hcopies
  | tickWritten l => exact left_next h hcopies
  | delivering l q =>
    exact left_judged h (hcopies q List.mem_cons_self) hready
      fun x hx => hcopies x (List.mem_cons_of_mem _ hx)
  | attempted l res =>
    cases res with
    | ok q =>
      refine .put h rfl (hcopies q List.mem_cons_self) ⟨?_,trivial⟩
      exact fun x hx => hcopies x (List.mem_cons_of_mem _ hx)
    | error e => exact left_next h hcopies
  | cancelRead envelopeId recipient now q =>
    apply cancelStored_cases (C := Left s t)
    · exact fun r _ => .keep h rfl (all_done _ _)
    · rintro q u rfl - -
      have hq : Dated s t (ended q .canceled u) :=
        (hcopies q (by simp [Pending.copies])).ended rfl u
      exact .put h rfl hq ⟨by simpa [Pending.copies] using hq,trivial⟩
  | cancelWritten recipient q =>
    apply emit_cases (C := Left s t) (hcopies q List.mem_cons_self).named
    · exact fun e => .keep h (by simp) (all_done _ _)
    · exact .keep h (by simp) (all_done _ _)
  | cancelAllRead envelopeId now all =>
    exact left_matches h rfl (fun q hq => hcopies q (List.mem_filter.mp hq).1) []
  | cancelAllWritten now q rest out =>
    apply emit_cases (C := Left s t) (hcopies q List.mem_cons_self).named
    · exact fun e => .keep h (by simp) (all_done _ _)
    · exact left_matches h (by simp) (fun x hx => hcopies x (List.mem_cons_of_mem _ hx)) _

theorem left_started (h : ∀ k q, f.store.find k = some q → Dated s t q) {c : Call}
    (hnow : env.now = some t) (htime : |t| ≤ JsDate.maxTime) : Left s t (start s env c f) := by
  have hdue (now : JsDate) : ∀ q ∈ f.store.dueRecords s.engine now, Dated s t q :=
    fun q hq => h _ q ((f.store.mem_dueRecords).mp hq).1
  have hfind (k : JsString) : ∀ q ∈ (f.store.find k).toList, Dated s t q :=
    fun q hq => h k q (Option.mem_toList.mp hq)
  apply start_cases (C := Left s t)
  case hrefused => exact fun e => .keep h rfl (all_done _ _)
  case henqueue =>
    intro envelopeId recipient postmarkExpires _ he hr
    exact .keep h rfl ⟨by simp [Pending.copies],he,hr,t,hnow,le_refl t,htime⟩
  case htick =>
    intro _ _
    refine .keep h ?_ ?_
    · rfl
    · exact ⟨hdue _,trivial⟩
  case hcancel => exact fun _ _ _ => .keep h rfl ⟨hfind _,trivial⟩
  case hcancelAll => exact fun _ _ => .keep h rfl ⟨hdue _,trivial⟩

theorem records_of_clocked (h : Clocked s t w) : Records s t w := by
  induction h with
  | initial t =>
    constructor
    · exact fun k q hq => by cases hq
    · exact fun i c p hi => by simp [World.initial] at hi
  | start _ c ht hnow htime ih =>
    have hl := left_started (fun k q hq => (ih.dated k q hq).mono ht) (c := c) hnow htime
    exact ⟨hl.dated,(ih.holding.mono fun _ p hp => hp.mono ht).started c hl.holding⟩
  | @resume t w w' i env _ hs ih =>
    obtain ⟨c,p,hi,rfl⟩ := step_resume.mp hs
    have hl := left_resumed ih.dated (ih.holding i c p hi) env
    exact ⟨hl.dated,ih.holding.resumed _ c hl.holding⟩
  | delete _ envelopeId recipient ih =>
    exact ⟨fun k q hq => ih.dated k q (InMemorySchedulerStore.find_of_delete hq),ih.holding⟩

end Runs

/-- The call runs on, and no other one. -/
def Alone (i : ℕ) (_ : World) (a : Act) : Prop := ∃ env, a = .resume i env

/-- A `cancelEnvelope` that starts at a time and runs alone, if it resolves: the records of the
envelope that waited are canceled, and those of other envelopes are as they were. -/
def CancelsAll (s : Scheduler) (w : World) (now : JsDate) (envelopeId : JsString) : Prop :=
  ∀ env, env.now = now → ∀ w' r, Reached s.calls (Alone w.calls.length)
    (w.started (.cancelEnvelope envelopeId) (start s env (.cancelEnvelope envelopeId) w.fields))
    w' → w'.calls[w.calls.length]? = some ⟨.cancelEnvelope envelopeId,.done (.ok r)⟩ →
    (∀ k q, w.fields.store.find k = some q → q.envelope_id = envelopeId →
      isTerminalState q.state = false → ∃ q', w'.fields.store.find k = some q' ∧
        q'.state = .canceled) ∧
    ∀ k q, q.envelope_id ≠ envelopeId →
      (w'.fields.store.find k = some q ↔ w.fields.store.find k = some q)

/-- The records of the envelope that wait are due at twice the horizon from now. -/
def InReach (s : Scheduler) (w : World) (now : JsDate) (envelopeId : JsString) : Prop :=
  ∀ k q, w.fields.store.find k = some q → q.envelope_id = envelopeId →
    isTerminalState q.state = false → ∃ n c, q.next_attempt_at = some n ∧
      now.plus (s.horizonMs.mul (.ofNat 2)) = some c ∧ n*1000 ≤ c

/-- A horizon for which the cut-off is behind every next attempt: it is positive and twice the
horizon from now is a date, or it is a NaN, which lets no record in. -/
def Ample (s : Scheduler) (now : JsDate) : Prop :=
  s.horizonMs.isNaN = true ∨ (Number.zero false).lt s.horizonMs = true ∧
    (now.plus (s.horizonMs.mul (.ofNat 2))).isSome

section Sweep
variable {s : Scheduler} {t t' : ℤ} {w w' : World} {env : Env} {q : QueueState} {f : Fields}
  {envelopeId : JsString} {st st' : InMemorySchedulerStore} {found rest : List QueueState}
  {now : JsDate}

/-- How far a sweep over what it found has come. -/
structure Swept (st : InMemorySchedulerStore) (found rest : List QueueState)
    (st' : InMemorySchedulerStore) : Prop where
  done : ∀ x ∈ found, x ∈ rest ∨ ∃ q, st'.find x.key = some q ∧ q.state = .canceled
  same : ∀ k, st'.find k = st.find k ∨ ∃ x ∈ found, x.key = k ∧
    ∃ q, st'.find k = some q ∧ q.envelope_id = x.envelope_id
  sub : ∀ x ∈ rest, x ∈ found

theorem Swept.start : Swept st found found st :=
  ⟨fun _ hx => .inl hx,fun _ => .inl rfl,fun _ hx => hx⟩

/-- The next record is canceled. -/
theorem Swept.put (h : Swept st found (q::rest) st') (u : ℤ) :
    Swept st found rest (st'.put (ended q .canceled u)) where
  done x hx := by
    by_cases hk : q.key = x.key
    · exact .inr ⟨_,find_put_self hk,rfl⟩
    · have hne : (ended q .canceled u).key ≠ x.key := hk
      rw [find_put_ne hne]
      refine (h.done x hx).imp_left ?_
      intro hmem
      rcases List.mem_cons.mp hmem with rfl | hmem
      · exact absurd rfl hk
      · exact hmem
  same k := by
    by_cases hk : q.key = k
    · exact .inr ⟨q,h.sub q List.mem_cons_self,hk,_,find_put_self hk,rfl⟩
    · have hne : (ended q .canceled u).key ≠ k := hk
      rw [find_put_ne hne]
      exact h.same k
  sub x hx := h.sub x (List.mem_cons_of_mem _ hx)

/-- What the sweep goes through: stored records of the envelope that wait. -/
structure Found (st : InMemorySchedulerStore) (envelopeId : JsString) (found : List QueueState) :
    Prop where
  stored : ∀ x ∈ found, st.find x.key = some x
  named : ∀ x ∈ found, Named x
  waits : ∀ x ∈ found, isTerminalState x.state = false
  envelope : ∀ x ∈ found, x.envelope_id = envelopeId

/-- The stages of the call, with the store. -/
def Sweeps (st : InMemorySchedulerStore) (envelopeId : JsString) (found : List QueueState) :
    Result → InMemorySchedulerStore → Prop
  | .awaiting (.cancelAllRead e _ all), st' => st' = st ∧ all.filter (·.envelope_id = e) = found
  | .awaiting (.cancelAllWritten _ q rest _), st' => Swept st found rest st' ∧ Named q
  | .awaiting _, _ => False
  | .done (.ok _), st' => Swept st found [] st'
  | .done (.error _), _ => True

theorem sweeps_matches (hf : Found st envelopeId found) (h : Swept st found rest f.store)
    (now : JsDate) (out : List CancelResult) :
    Sweeps st envelopeId found (settle (cancelMatches now rest out) f).1
      (settle (cancelMatches now rest out) f).2.store := by
  cases rest with
  | nil => exact h
  | cons q rest =>
    have hq := h.sub q List.mem_cons_self
    have hn := hf.waits q hq
    unfold cancelMatches settle
    simp only [hn,Bool.false_eq_true,if_false]
    rw [call_bind,call_lift]
    cases now with
    | none =>
      rw [setTerminal_invalid rfl hn]
      trivial
    | some u =>
      rw [(setTerminal_eq_ok rfl hn).mpr ⟨u,rfl,rfl⟩]
      exact ⟨h.put u,hf.named q hq⟩

theorem sweeps_resumed (hf : Found st envelopeId found) {p : Pending}
    (h : Sweeps st envelopeId found (.awaiting p) f.store) (env : Env) :
    Sweeps st envelopeId found (resume s env p f).1 (resume s env p f).2.store := by
  cases p with
  | cancelAllRead e now all =>
    obtain ⟨hst,hall⟩ := h
    refine sweeps_matches hf ?_ now []
    rw [hall,hst]
    exact .start
  | cancelAllWritten now q rest out =>
    apply emit_cases (C := fun r => Sweeps st envelopeId found r.1 r.2.store) h.2
    · exact fun e => trivial
    · exact sweeps_matches hf (by simpa using h.1) now _
  | _ => exact h.elim

theorem calls_resumed {i : ℕ} {x : Tasks.Call Call Pending (Js Returned)}
    (hi : w.calls[i]? = some x) (c : Call) (r : Result × Fields) :
    (w.resumed i c r).calls[i]? = some ⟨c,r.1⟩ :=
  List.getElem?_set_self (List.getElem?_eq_some_iff.mp hi).1

theorem sweeps_of_reached (hf : Found st envelopeId found) {i : ℕ} {c : Call}
    (h : Reached s.calls (Alone i) w w') {stage : Result} (hi : w.calls[i]? = some ⟨c,stage⟩)
    (hs : Sweeps st envelopeId found stage w.fields.store) :
    ∃ stage', w'.calls[i]? = some ⟨c,stage'⟩ ∧ Sweeps st envelopeId found stage' w'.fields.store := by
  refine h.inv (I := fun u => ∃ x, u.calls[i]? = some ⟨c,x⟩ ∧
    Sweeps st envelopeId found x u.fields.store) ⟨stage,hi,hs⟩ ?_
  rintro u a u' ⟨x,hx,hsweeps⟩ ⟨env,rfl⟩ hstep
  obtain ⟨c',p,hp,rfl⟩ := step_resume.mp hstep
  obtain ⟨rfl,rfl⟩ : c = c' ∧ x = .awaiting p := by simpa [hx] using hp
  refine ⟨_,?_,sweeps_resumed hf hsweeps env⟩
  exact calls_resumed hp _ _

/-- What the call goes through. -/
def targets (s : Scheduler) (st : InMemorySchedulerStore) (now : JsDate) (envelopeId : JsString) :
    List QueueState :=
  (st.dueRecords s.engine (now.plus (s.horizonMs.mul (.ofNat 2)))).filter
    (·.envelope_id = envelopeId)

theorem mem_targets : q ∈ targets s st now envelopeId ↔ st.find q.key = some q ∧
    InMemorySchedulerStore.isDue (now.plus (s.horizonMs.mul (.ofNat 2))) q = true ∧
    q.envelope_id = envelopeId := by
  rw [targets,List.mem_filter,st.mem_dueRecords,decide_eq_true_eq,and_assoc]

theorem found_targets (hst : ∀ k q, st.find k = some q → Dated s t q) :
    Found st envelopeId (targets s st now envelopeId) where
  stored x hx := (mem_targets.mp hx).1
  named x hx := (hst _ x (mem_targets.mp hx).1).named
  waits x hx := by
    have hdue := (mem_targets.mp hx).2.1
    unfold InMemorySchedulerStore.isDue at hdue
    rw [Bool.and_eq_true] at hdue
    simpa using hdue.1
  envelope x hx := (mem_targets.mp hx).2.2

theorem start_cancelEnvelope (hne : envelopeId ≠ []) (f : Fields) :
    start s env (.cancelEnvelope envelopeId) f = (.awaiting (.cancelAllRead envelopeId env.now
      (f.store.dueRecords s.engine (env.now.plus (s.horizonMs.mul (.ofNat 2))))),f) := by
  unfold start settle
  simp only [hne,if_false]
  rfl

/-- An environment whose sink does not throw. -/
def calm : Env := ⟨none,.ok ⟨.silent,none,none⟩,0,fun _ => .ok ()⟩

theorem settle_emit_calm (hq : Named q) (reason : Option JsString)
    (g : Unit → Method Thrown Fields Result) :
    settle (emit s calm q reason >>= g) f = settle (g ()) (f.tell (s.report q reason)) := by
  have hheard : calm.heard (s.report q reason) = .ok () := by
    cases s.report q reason <;> rfl
  have hcall : (emit s calm q reason).call f =
      (calm.heard (s.report q reason),f.tell (s.report q reason)) := emit_call hq reason
  unfold settle
  rw [call_bind,hcall,hheard]

theorem settle_matches_cons (hn : isTerminalState q.state = false) (u : ℤ)
    (out : List CancelResult) : settle (cancelMatches (some u) (q::rest) out) f =
      (.awaiting (.cancelAllWritten (some u) (ended q .canceled u) rest out),
        f.put (ended q .canceled u)) := by
  unfold cancelMatches settle
  simp only [hn,Bool.false_eq_true,if_false]
  rw [call_bind,call_lift,(setTerminal_eq_ok rfl hn).mpr ⟨u,rfl,rfl⟩]
  rfl

theorem reached_resumed {i : ℕ} {c : Call} {p : Pending} {r : Result × Fields}
    (hi : w.calls[i]? = some ⟨c,.awaiting p⟩) (hr : resume s env p w.fields = r) :
    Reached s.calls (Alone i) w (w.resumed i c r) := by
  subst hr
  exact Reached.refl.tail ⟨env,rfl⟩ (step_resume.mpr ⟨c,p,hi,rfl⟩)

/-- If the sink does not throw, the call goes through all that it found and resolves. -/
theorem finishes_matches (hf : Found st envelopeId found) {i : ℕ} {c : Call} {p : Pending} {u : ℤ}
    {out : List CancelResult} (hsub : ∀ x ∈ rest, x ∈ found)
    (hi : w.calls[i]? = some ⟨c,.awaiting p⟩)
    (hp : resume s calm p w.fields = settle (cancelMatches (some u) rest out) f) :
    ∃ w' r, Reached s.calls (Alone i) w w' ∧ w'.calls[i]? = some ⟨c,.done (.ok r)⟩ := by
  induction rest generalizing w p f out with
  | nil =>
    exact ⟨_,.canceledAll out,reached_resumed hi hp,calls_resumed hi c _⟩
  | cons q rest ih =>
    have hq := hsub q List.mem_cons_self
    have hnamed : Named (ended q .canceled u) := hf.named q hq
    rw [settle_matches_cons (hf.waits q hq)] at hp
    have hnext : resume s calm (.cancelAllWritten (some u) (ended q .canceled u) rest out)
        (f.put (ended q .canceled u)) = _ := settle_emit_calm hnamed _ _
    obtain ⟨w',r,hreached,hdone⟩ := ih (w := w.resumed i c
      (.awaiting (.cancelAllWritten (some u) (ended q .canceled u) rest out),
        f.put (ended q .canceled u)))
      (fun x hx => hsub x (List.mem_cons_of_mem _ hx)) (calls_resumed hi c _) hnext
    exact ⟨w',r,(reached_resumed hi hp).trans hreached,hdone⟩

theorem sweeps_started (hst : ∀ k q, w.fields.store.find k = some q → Dated s t q)
    (envelopeId : JsString) : Sweeps w.fields.store envelopeId
      (targets s w.fields.store env.now envelopeId)
      (start s env (.cancelEnvelope envelopeId) w.fields).1
      (start s env (.cancelEnvelope envelopeId) w.fields).2.store := by
  by_cases hne : envelopeId = []
  · subst hne
    trivial
  · rw [start_cancelEnvelope hne]
    exact ⟨rfl,rfl⟩

theorem swept_of_resolved (hst : ∀ k q, w.fields.store.find k = some q → Dated s t q)
    {r : Returned} (h : Reached s.calls (Alone w.calls.length)
      (w.started (.cancelEnvelope envelopeId) (start s env (.cancelEnvelope envelopeId) w.fields))
      w') (hr : w'.calls[w.calls.length]? = some ⟨.cancelEnvelope envelopeId,.done (.ok r)⟩) :
    Swept w.fields.store (targets s w.fields.store env.now envelopeId) [] w'.fields.store := by
  obtain ⟨stage,hstage,hs⟩ := sweeps_of_reached (found_targets hst) h
    (List.getElem?_concat_length ..) (sweeps_started hst envelopeId)
  obtain rfl : Stage.done (.ok r) = stage := by simpa [hr] using hstage
  exact hs

theorem isDue_iff : InMemorySchedulerStore.isDue now q = true ↔ isTerminalState q.state = false ∧
    ∃ n c, q.next_attempt_at = some n ∧ now = some c ∧ n*1000 ≤ c := by
  unfold InMemorySchedulerStore.isDue
  rw [Bool.and_eq_true,Bool.not_eq_true',Option.any_eq_true]
  refine and_congr_right fun _ => ?_
  constructor
  · rintro ⟨n,hn,hle⟩
    obtain ⟨u,c,hu,hc,huc⟩ := JsDate.le_eq_true.mp hle
    obtain rfl := Option.some.inj hu
    exact ⟨n,c,hn,hc,huc⟩
  · rintro ⟨n,c,hn,rfl,hle⟩
    exact ⟨n,hn,JsDate.le_eq_true.mpr ⟨_,c,rfl,rfl,hle⟩⟩

theorem cancelsAll_of_inReach (hw : Records s t w) (h : InReach s w now envelopeId) :
    CancelsAll s w now envelopeId := by
  rintro env rfl w' r hreached hr
  have hswept := swept_of_resolved hw.dated hreached hr
  constructor
  · intro k q hq he hn
    have hkey : q.key = k := w.fields.store.key_of_find hq
    have hmem : q ∈ targets s w.fields.store env.now envelopeId := by
      refine mem_targets.mpr ⟨hkey ▸ hq,isDue_iff.mpr ⟨hn,h k q hq he hn⟩,he⟩
    have hdone := (hswept.done q hmem).resolve_left (List.not_mem_nil)
    rwa [hkey] at hdone
  · intro k q he
    rcases hswept.same k with heq | ⟨x,hx,hkey,y,hy,hex⟩
    · rw [heq]
    · obtain ⟨hfind,-,hxe⟩ := mem_targets.mp hx
      rw [hkey] at hfind
      rw [hy,hfind]
      constructor
      · rintro ⟨⟩
        exact absurd (hex.trans hxe) he
      · rintro ⟨⟩
        exact absurd hxe he

/-- What the call does not find stays as it is, and some run of it resolves. -/
theorem inReach_of_cancelsAll (hw : Records s t w) {u : ℤ}
    (h : CancelsAll s w (some u) envelopeId) : InReach s w (some u) envelopeId := by
  intro k q hq he hn
  have hne : envelopeId ≠ [] := he ▸ (hw.dated k q hq).named.1
  obtain ⟨env,hnow⟩ : ∃ env : Env, env.now = some u := ⟨{ calm with now := some u },rfl⟩
  have hstart : start s env (.cancelEnvelope envelopeId) w.fields = _ :=
    start_cancelEnvelope hne w.fields
  rw [hnow] at hstart
  have hi : (w.started (.cancelEnvelope envelopeId) (start s env (.cancelEnvelope envelopeId)
    w.fields)).calls[w.calls.length]? = _ := List.getElem?_concat_length ..
  have hfound : Found w.fields.store envelopeId (targets s w.fields.store (some u) envelopeId) :=
    found_targets hw.dated
  have hresume : resume s calm (.cancelAllRead envelopeId (some u) (w.fields.store.dueRecords
      s.engine ((JsDate.plus (some u) (s.horizonMs.mul (.ofNat 2))))))
      (w.started (.cancelEnvelope envelopeId) (.awaiting (.cancelAllRead envelopeId (some u)
        (w.fields.store.dueRecords s.engine (JsDate.plus (some u) (s.horizonMs.mul (.ofNat 2))))),
          w.fields)).fields = settle (cancelMatches (some u) (targets s w.fields.store (some u) envelopeId) [])
        w.fields := rfl
  obtain ⟨w',r,hreached,hr⟩ := finishes_matches hfound (fun x hx => hx) (hstart ▸ hi) hresume
  rw [← hstart] at hreached
  have hswept := swept_of_resolved hw.dated hreached hr
  rw [hnow] at hswept
  obtain ⟨q',hq',hcanceled⟩ := (h env hnow w' r hreached hr).1 k q hq he hn
  rcases hswept.same k with heq | ⟨x,hx,hkey,-⟩
  · rw [heq,hq] at hq'
    obtain rfl := Option.some.inj hq'
    rw [hcanceled] at hn
    cases hn
  · obtain ⟨hfind,hdue,-⟩ := mem_targets.mp hx
    rw [hkey,hq] at hfind
    obtain rfl := Option.some.inj hfind
    exact (isDue_iff.mp hdue).2

/-- A deadline is within the horizon, if that is positive. -/
theorem effectiveDeadline_pos {horizonMs : Number} (hpos : (Number.zero false).lt horizonMs = true)
    (hfin : horizonMs.isFinite) (now : JsDate) :
    ∃ h, Retry.effectiveDeadline none now (some horizonMs) = now.plus h ∧
      h.toRat ≤ horizonMs.toRat := by
  have hle : horizonMs.le (.zero false) = false := by
    rw [← Bool.not_eq_true]
    intro hle
    rw [Number.not_lt_of_le hle] at hpos
    cases hpos
  unfold Retry.effectiveDeadline
  simp only [Option.getD_some,hle,Bool.false_eq_true,if_false]
  refine ⟨_,rfl,?_⟩
  split_ifs with hcap
  · have hcapfin : Retry.MaxRetryHorizonCapMs.isFinite := Number.isFinite_ofNat (by norm_num)
    rw [Number.lt_fin hcapfin hfin,decide_eq_true_eq] at hcap
    exact hcap.le
  · exact le_refl _

theorem effectiveDeadline_nan (now : JsDate) :
    Retry.effectiveDeadline none now (some .nan) = none := by
  have hle : Number.nan.le (.zero false) = false := rfl
  have hlt (x : Number) : x.lt .nan = false := by cases x <;> rfl
  have hadd (x : Number) : x.add .nan = .nan := by cases x <;> rfl
  unfold Retry.effectiveDeadline
  simp only [Option.getD_some,hle,hlt,Bool.false_eq_true,if_false]
  rw [JsDate.plus,hadd]
  rfl

/-- The cut-off of an ample horizon is behind every next attempt of a run. -/
theorem inReach_of_ample (hw : Records s t w) (ht : t ≤ t') (htime : |t'| ≤ JsDate.maxTime)
    (h : Ample s (some t')) : InReach s w (some t') envelopeId := by
  intro k q hq _ hn
  have hdated := hw.dated k q hq
  obtain ⟨n,hnext,hle⟩ := hdated.next (isOpen_iff.mpr hn)
  obtain ⟨a,d,ha,hmax,hd,hdeadline⟩ := hdated.deadline
  rcases h with hnan | ⟨hpos,hsome⟩
  · cases hs : s.horizonMs with
    | nan =>
      rw [hs] at hd
      cases (effectiveDeadline_nan (some a)).symm.trans hd
    | _ =>
      rw [hs] at hnan
      cases hnan
  obtain ⟨c,hc⟩ := Option.isSome_iff_exists.mp hsome
  have hfin := (JsDate.plus_eq_some htime hc).1
  obtain ⟨hfinite,hdouble⟩ := Number.toRat_le_double hpos hfin
  obtain ⟨h,hplus,hh⟩ := effectiveDeadline_pos hpos hfinite (some a)
  refine ⟨n,c,hnext,hc,?_⟩
  have hdc : d ≤ c := JsDate.plus_mono hmax htime (ha.trans ht) (hh.trans hdouble)
    (hplus.symm.trans hd) hc
  have htc : t'+0 ≤ c := by
    refine JsDate.le_plus htime ?_ ?_ hc
    · simp only [JsDate.maxTime,abs_le] at htime
      omega
    · have hzero : (Number.zero false).toRat = 0 := Binary64.value_zero
      rw [Number.lt_fin rfl hfinite,decide_eq_true_eq,hzero] at hpos
      push_cast
      linarith
  omega

/-- A `cancelEnvelope` is complete just when the records that wait are due at its cut-off, and
they are if the horizon is ample. -/
theorem cancelEnvelope_complete_iff (s : Scheduler) {t t' : ℤ} {w : World} (h : Clocked s t w)
    (ht : t ≤ t') (htime : |t'| ≤ JsDate.maxTime) (envelopeId : JsString) :
    (CancelsAll s w (some t') envelopeId ↔ InReach s w (some t') envelopeId) ∧
      (Ample s (some t') → CancelsAll s w (some t') envelopeId) := by
  have hw := records_of_clocked h
  refine ⟨⟨inReach_of_cancelsAll hw,cancelsAll_of_inReach hw⟩,?_⟩
  exact fun ha => cancelsAll_of_inReach hw (inReach_of_ample hw ht htime ha)

/-- The rest of the calls of a run. -/
theorem Clocked.resumes (h : Clocked s t w)
    (hr : Reached s.calls (fun _ a => ∃ i env, a = .resume i env) w w') : Clocked s t w' := by
  refine hr.inv h ?_
  rintro u a u' hu ⟨i,env,rfl⟩ hs
  exact hu.resume hs

end Sweep

namespace Sample

theorem stored_clocked : Clocked scheduler 0 stored := by
  have hfirst : Clocked scheduler 0 first :=
    .start (.initial 0) enqueue (Int.le_refl 0) rfl (by decide)
  refine hfirst.resumes (reached_get rest_runs ?_)
  intro u a ha
  obtain rfl : a = .resume 0 (env 0) := by simpa [rest] using ha
  exact ⟨_,_,rfl⟩

/-- A scheduler that is to retry without end. -/
def endless : Scheduler := .new engine ⟨none,some (.inf false),true⟩

def accepted : World := World.initial.started enqueue (endless.start (env 0) enqueue .initial)

theorem accepted_runs : (run endless.calls accepted rest).isSome := by decide +kernel

def waiting : World := (run endless.calls accepted rest).get accepted_runs

theorem waiting_clocked : Clocked endless 0 waiting := by
  have hfirst : Clocked endless 0 accepted :=
    .start (.initial 0) enqueue (Int.le_refl 0) rfl (by decide)
  refine hfirst.resumes (reached_get accepted_runs ?_)
  intro u a ha
  obtain rfl : a = .resume 0 (env 0) := by simpa [rest] using ha
  exact ⟨_,_,rfl⟩

theorem waiting_idle : Idle waiting := idle_of_all (by decide +kernel)

/-- The date of the cut-off is invalid, and a record is stored that is not terminal. -/
theorem waiting_evaluated : JsDate.plus (some 0) (endless.horizonMs.mul (.ofNat 2)) = none ∧
    (waiting.fields.store.find key).any
      (fun q => q.envelope_id = js "e" ∧ isTerminalState q.state = false) = true := by
  decide +kernel

end Sample

theorem cancelEnvelope_complete_sample : (Sample.stored.fields.store.find Sample.key).isSome ∧
    CancelsAll Sample.scheduler Sample.stored (some 1000) (js "e") :=
  ⟨by decide +kernel,(cancelEnvelope_complete_iff Sample.scheduler Sample.stored_clocked
    (by decide) (by decide) (js "e")).2 (.inr ⟨by decide +kernel,by decide +kernel⟩)⟩

/-- Twice an endless horizon is no date, and nothing is due at it. -/
theorem cancelEnvelope_misses : ¬ ∀ (s : Scheduler) (t t' : ℤ) (w : World), Clocked s t w →
    Idle w → t ≤ t' → |t'| ≤ JsDate.maxTime → ∀ envelopeId,
      CancelsAll s w (some t') envelopeId := by
  intro h
  have hall := h Sample.endless 0 0 Sample.waiting Sample.waiting_clocked Sample.waiting_idle
    (Int.le_refl 0) (by decide) (js "e")
  obtain ⟨q,hq,hany⟩ := (Option.any_eq_true _ _).mp Sample.waiting_evaluated.2
  rw [decide_eq_true_eq] at hany
  obtain ⟨n,c,-,hc,-⟩ := inReach_of_cancelsAll (records_of_clocked Sample.waiting_clocked) hall
    Sample.key q hq hany.1 hany.2
  rw [Sample.waiting_evaluated.1] at hc
  cases hc

end Scheduler
end Semp
