import Semp.SchedulerRun

/-! What the scheduler keeps over whole runs.  Its steps act on copies of records that were
read before an `await`, so each law holds of the runs in which no other call changes the
record in between. -/
namespace Semp
namespace Scheduler
open Tasks Method

section Enqueue

/-- The clock reading and the deadline that follows from it are valid dates. -/
def datesValid (s : Scheduler) (postmarkExpires now : JsDate) : Bool :=
  now.isSome && (Retry.effectiveDeadline (some postmarkExpires) now (some s.horizonMs)).isSome

theorem datesValid_of_newRecord {s : Scheduler} {envelopeId recipient : JsString}
    {postmarkExpires now : JsDate} {q : QueueState}
    (h : s.newRecord envelopeId recipient postmarkExpires now = .ok q) :
    s.datesValid postmarkExpires now = true := by
  obtain ⟨t,u,rfl,hu,-⟩ := newRecord_eq_ok.mp h
  simp [datesValid,hu]

/-- One for an `enqueue` that found no record of the key and will write one. -/
def inserting (s : Scheduler) (k : JsString) : Pending → ℕ
  | .enqueueRead envelopeId recipient postmarkExpires now none =>
    if keyOf envelopeId recipient = k ∧ s.datesValid postmarkExpires now then 1 else 0
  | _ => 0

/-- One for an `enqueue` of the key that has written its record. -/
def written (k : JsString) : Tasks.Call Call Pending (Js Returned) → ℕ
  | ⟨.enqueue envelopeId recipient _,.awaiting .enqueueWritten⟩
  | ⟨.enqueue envelopeId recipient _,.done (.ok .enqueued)⟩ =>
    if keyOf envelopeId recipient = k then 1 else 0
  | _ => 0

/-- An `enqueue` whose dates are valid starts when no other one of its key is between its
check and its write. -/
def EnqueueAlone (s : Scheduler) (w : World) : Act → Prop
  | .start (.enqueue envelopeId recipient postmarkExpires) env =>
    s.datesValid postmarkExpires env.now →
      Every (fun _ p => inserting s (keyOf envelopeId recipient) p = 0) w
  | _ => True

/-- The same keys have records. -/
def SameKeys (st st' : InMemorySchedulerStore) : Prop := ∀ k, st'.find k = none ↔ st.find k = none

theorem SameKeys.of_eq {st st' : InMemorySchedulerStore} (h : st' = st) : SameKeys st st' :=
  fun _ => h ▸ Iff.rfl

theorem SameKeys.put {st st' : InMemorySchedulerStore} (h : st' = st) {q : QueueState}
    (hq : st.find q.key ≠ none) : SameKeys st (st'.put q) := by
  intro k
  rw [h,InMemorySchedulerStore.find_put]
  split
  next hk =>
    subst hk
    simpa using hq
  next => exact Iff.rfl

variable {s : Scheduler} {w w' : World} {i : ℕ} {c : Call} {k : JsString}

/-- Not a stage of a call that has still to write its record or has written it. -/
def Apart : Result → Prop
  | .awaiting (.enqueueRead ..) | .awaiting .enqueueWritten | .done (.ok .enqueued) => False
  | _ => True

theorem apart_done {x : Js Returned} (hx : x ≠ .ok .enqueued) : Apart (.done x) := by
  unfold Apart
  split <;> simp_all

/-- What a step does that is not the write of an `enqueue`. -/
structure Bystands (f : Fields) (p : Pending) (r : Result × Fields) : Prop where
  keys : SameKeys f.store r.2.store
  apart : p = .enqueueWritten ∧ r.1 = .done (.ok .enqueued) ∨ Apart r.1

theorem Bystands.of_eq {f : Fields} {p : Pending} {r : Result × Fields} (hs : r.2.store = f.store)
    (hr : Apart r.1) : Bystands f p r := ⟨.of_eq hs,.inr hr⟩

/-- Only the write of an `enqueue` gives a key its first record. -/
theorem bystands_of_not_inserting (h : Sound w) {p : Pending}
    (hi : w.calls[i]? = some ⟨c,.awaiting p⟩) (env : Env) (hp : ∀ k, inserting s k p = 0) :
    Bystands w.fields p (resume s env p w.fields) := by
  have hk := h.kept i c p hi
  have hnext (l : TickLocals) (hl : l.due = p.copies) :
      Bystands w.fields p (l.next s env w.fields) := by
    refine processDue_cases (C := Bystands w.fields p)
      (P := fun due f => f.store = w.fields.store ∧ ∀ q ∈ due, q ∈ p.copies)
      ?_ ?_ ?_ ?_ ?_ l.due (hl ▸ hk.named) l.firstError w.fields ⟨rfl,fun q hq => hl ▸ hq⟩
    · rintro q due f ⟨hs,hsub⟩ _
      exact ⟨hs,fun x hx => hsub x (List.mem_cons_of_mem _ hx)⟩
    · rintro q due f t ev ⟨hs,hsub⟩ - - - - -
      exact ⟨hs,fun x hx => hsub x (List.mem_cons_of_mem _ hx)⟩
    · rintro firstError f ⟨hs,-⟩
      exact .of_eq hs trivial
    · rintro q due f t firstError ⟨hs,hsub⟩ - - - -
      exact ⟨.put (by simpa using hs) (hk.stored q (hsub q List.mem_cons_self)),.inr trivial⟩
    · rintro q due f firstError ⟨hs,-⟩ - -
      exact .of_eq hs trivial
  have hmatches (f : Fields) (now : JsDate) (rest : List QueueState) (out : List CancelResult)
      (hf : f.store = w.fields.store) (hrest : ∀ q ∈ rest, q ∈ p.copies) :
      Bystands w.fields p (settle (cancelMatches now rest out) f) := by
    apply cancelMatches_cases (C := Bystands w.fields p)
    · exact fun r hr => .of_eq hf (apart_done hr)
    · rintro pre q post out t rfl - - -
      exact ⟨.put hf (hk.stored q (hrest q (by simp))),.inr trivial⟩
  cases p with
  | enqueueRead envelopeId recipient postmarkExpires now existing =>
    apply insert_cases (C := Bystands w.fields _)
    · exact fun e => .of_eq rfl trivial
    · rintro q rfl hq
      have := hp (keyOf envelopeId recipient)
      simp [inserting,datesValid_of_newRecord hq] at this
  | enqueueWritten => exact ⟨.of_eq rfl,.inl ⟨rfl,rfl⟩⟩
  | tickRead l => exact hnext l rfl
  | tickWritten l => exact hnext _ rfl
  | delivering l q =>
    change Bystands w.fields _ (.awaiting (.attempted l ((runAttempt s env l.now q).call
      w.fields).1),((runAttempt s env l.now q).call w.fields).2)
    rw [runAttempt_call]
    cases env.attempt with
    | error e => exact .of_eq rfl trivial
    | ok res =>
      refine judge_cases (hk.named q List.mem_cons_self) (h.checked i c _ hi).1 res
        (C := fun r => Bystands w.fields _ (.awaiting (.attempted l r.1),r.2)) ?_ ?_ ?_
      · exact fun _ _ _ _ _ _ _ => .of_eq (by simp) trivial
      · exact fun _ _ _ _ => .of_eq rfl trivial
      · exact fun _ _ => .of_eq rfl trivial
  | attempted l res =>
    cases res with
    | ok q => exact ⟨.put rfl (hk.stored q List.mem_cons_self),.inr trivial⟩
    | error e => exact hnext _ rfl
  | cancelRead envelopeId recipient now q =>
    apply cancelStored_cases (C := Bystands w.fields _)
    · exact fun r hr => .of_eq rfl (apart_done hr)
    · rintro q t rfl - -
      exact ⟨.put rfl (hk.stored q (by simp [Pending.copies])),.inr trivial⟩
  | cancelWritten recipient q =>
    apply emit_cases (C := Bystands w.fields _) (hk.named q List.mem_cons_self)
    · exact fun e => .of_eq (by simp) trivial
    · exact .of_eq (by simp) trivial
  | cancelAllRead envelopeId now all =>
    exact hmatches _ _ _ _ rfl fun q hq => (List.mem_filter.mp hq).1
  | cancelAllWritten now q rest out =>
    apply emit_cases (C := Bystands w.fields _) (hk.named q List.mem_cons_self)
    · exact fun e => .of_eq (by simp) trivial
    · exact hmatches _ _ _ _ (by simp) fun x hx => List.mem_cons_of_mem _ hx

theorem written_of_apart {r : Result} (hr : Apart r) : written k ⟨c,r⟩ = 0 := by
  unfold written
  split
  next heq =>
    obtain ⟨-,rfl⟩ := Tasks.Call.mk.inj heq
    exact hr.elim
  next heq =>
    obtain ⟨-,rfl⟩ := Tasks.Call.mk.inj heq
    exact hr.elim
  next => rfl

theorem written_of_waiting {p : Pending} (hp : p ≠ .enqueueWritten) :
    written k ⟨c,.awaiting p⟩ = 0 := by
  unfold written
  split
  next heq =>
    obtain ⟨-,h⟩ := Tasks.Call.mk.inj heq
    exact absurd (Stage.awaiting.inj h) hp
  next heq =>
    obtain ⟨-,h⟩ := Tasks.Call.mk.inj heq
    cases h
  next => rfl

theorem written_enqueued : written k ⟨c,.done (.ok .enqueued)⟩ =
    written k ⟨c,.awaiting .enqueueWritten⟩ := by
  cases c <;> rfl

theorem inserting_of_apart {r : Result} (hr : Apart r) : weight (inserting s k) r = 0 := by
  cases r with
  | done x => rfl
  | awaiting p =>
    cases p with
    | enqueueRead => exact absurd hr id
    | _ => rfl

/-- How far the calls of `enqueue` for a key have come. -/
structure Enqueues (s : Scheduler) (k : JsString) (w : World) : Prop where
  absent : w.fields.store.find k = none → tally (written k) w = 0
  stored : w.fields.store.find k ≠ none → total (inserting s k) w = 0
  inserts : total (inserting s k) w ≤ 1
  writes : tally (written k) w ≤ 1

theorem Enqueues.kept (h : Enqueues s k w)
    (hk : w'.fields.store.find k = none ↔ w.fields.store.find k = none)
    (ht : tally (written k) w' = tally (written k) w)
    (hi : total (inserting s k) w' ≤ total (inserting s k) w) : Enqueues s k w' where
  absent hn := ht ▸ h.absent (hk.mp hn)
  stored hs := Nat.le_zero.mp (h.stored (fun hn => hs (hk.mpr hn)) ▸ hi)
  inserts := hi.trans h.inserts
  writes := ht ▸ h.writes

theorem Enqueues.started (h : Enqueues s k w) {r : Result × Fields}
    (hs : r.2.store = w.fields.store) (hr : Apart r.1) : Enqueues s k (w.started c r) := by
  refine h.kept ?_ ?_ ?_
  · change r.2.store.find k = none ↔ _
    rw [hs]
  · rw [tally_started,written_of_apart hr,add_zero]
  · rw [total_started,inserting_of_apart hr,add_zero]

theorem enqueues_started (h : Enqueues s k w) {env : Env}
    (hok : EnqueueAlone s w (.start c env)) :
    Enqueues s k (w.started c (start s env c w.fields)) := by
  apply start_cases (C := fun r => Enqueues s k (w.started c r))
  case hrefused => exact fun e => h.started rfl trivial
  case htick => exact fun _ _ => h.started rfl trivial
  case hcancel => exact fun _ _ _ => h.started rfl trivial
  case hcancelAll => exact fun _ _ => h.started rfl trivial
  case henqueue =>
    rintro envelopeId recipient postmarkExpires rfl - -
    let p : Pending := .enqueueRead envelopeId recipient postmarkExpires env.now
      (w.fields.store.find (keyOf envelopeId recipient))
    change Enqueues s k (w.started _ (.awaiting p,w.fields))
    have hw : tally (written k) (w.started (.enqueue envelopeId recipient postmarkExpires)
        (.awaiting p,w.fields)) = tally (written k) w := tally_started _ _ _
    by_cases hp : inserting s k p = 0
    · refine h.kept ?_ hw ?_
      · exact Iff.rfl
      · rw [total_started,weight_awaiting,hp,add_zero]
    -- The call will write: it found nothing, its dates are valid and no other one is as far.
    cases hfound : w.fields.store.find (keyOf envelopeId recipient) with
    | some q => simp [p,inserting,hfound] at hp
    | none =>
      simp only [p,hfound,inserting,ite_eq_right_iff,Nat.add_one_ne_zero,imp_false,not_not] at hp
      obtain ⟨rfl,hvalid⟩ := hp
      have hzero : total (inserting s (keyOf envelopeId recipient)) w = 0 :=
        (total_eq_zero _).mpr (hok hvalid)
      have hone : inserting s (keyOf envelopeId recipient) p = 1 := by
        simp [p,inserting,hfound,hvalid]
      constructor
      · intro _
        exact hw.trans (h.absent hfound)
      · intro hs
        exact absurd hfound hs
      · rw [total_started,hzero,weight_awaiting,hone]
      · exact hw.trans_le h.writes

theorem Enqueues.resumed (h : Enqueues s k w) {p : Pending}
    (hi : w.calls[i]? = some ⟨c,.awaiting p⟩) {r : Result × Fields}
    (hk : SameKeys w.fields.store r.2.store)
    (hw : written k ⟨c,r.1⟩ = written k ⟨c,.awaiting p⟩) (hn : weight (inserting s k) r.1 = 0) :
    Enqueues s k (w.resumed i c r) := by
  have ht := tally_resumed (written k) r hi
  have hins := total_resumed (inserting s k) r hi
  refine h.kept ?_ (by omega) (by omega)
  exact hk k

theorem enqueues_inserted (h : Enqueues s k w) (hw : Sound w)
    {envelopeId recipient : JsString} {postmarkExpires now : JsDate}
    (hi : w.calls[i]? = some ⟨c,.awaiting
      (.enqueueRead envelopeId recipient postmarkExpires now none)⟩) {q : QueueState}
    (hq : s.newRecord envelopeId recipient postmarkExpires now = .ok q) :
    Enqueues s k (w.resumed i c (.awaiting .enqueueWritten,w.fields.put q)) := by
  obtain ⟨hc,-,-⟩ := hw.checked i c _ hi
  have hkey : q.key = keyOf envelopeId recipient := by
    obtain ⟨t,u,-,-,rfl⟩ := newRecord_eq_ok.mp hq
    rfl
  obtain ⟨r,hr⟩ : ∃ r : Result × Fields, r = (.awaiting .enqueueWritten,w.fields.put q) := ⟨_,rfl⟩
  rw [← hr]
  have hrest : weight (inserting s k) r.1 = 0 := by
    rw [hr]
    rfl
  have ht := tally_resumed (written k) r hi
  have hn := total_resumed (inserting s k) r hi
  have hle := le_total (inserting s k) hi
  rw [written_of_waiting (by simp)] at ht
  by_cases hk : keyOf envelopeId recipient = k
  · have hone : inserting s k (.enqueueRead envelopeId recipient postmarkExpires now none) = 1 := by
      simp [inserting,hk,datesValid_of_newRecord hq]
    have hwritten : written k ⟨c,r.1⟩ = 1 := by
      rw [hc,hr]
      exact if_pos hk
    have habsent : w.fields.store.find k = none := by
      by_contra hs
      have := h.stored hs
      omega
    have hnone := h.absent habsent
    have hinserts := h.inserts
    have hfound : (w.resumed i c r).fields.store.find k = some q := by
      rw [hr]
      change (w.fields.store.put q).find k = _
      rw [InMemorySchedulerStore.find_put,if_pos (hkey.trans hk)]
    constructor
    · intro hnone
      rw [hfound] at hnone
      cases hnone
    · intro _
      omega
    · omega
    · omega
  · refine h.kept ?_ ?_ ?_
    · rw [hr]
      change (w.fields.store.put q).find k = none ↔ _
      rw [InMemorySchedulerStore.find_put,if_neg (hkey ▸ hk)]
    · have hzero : written k ⟨c,r.1⟩ = 0 := by
        rw [hc,hr]
        exact if_neg hk
      omega
    · omega

theorem enqueues_resumed (h : Enqueues s k w) (hw : Sound w) {p : Pending}
    (hi : w.calls[i]? = some ⟨c,.awaiting p⟩) (env : Env) :
    Enqueues s k (w.resumed i c (resume s env p w.fields)) := by
  by_cases hp : ∀ k, inserting s k p = 0
  · have hb := bystands_of_not_inserting hw hi env hp
    by_cases hpw : p = .enqueueWritten
    · subst hpw
      exact h.resumed hi hb.keys written_enqueued rfl
    · have hr : Apart (resume s env p w.fields).1 := hb.apart.resolve_left fun h => hpw h.1
      exact h.resumed hi hb.keys ((written_of_apart hr).trans (written_of_waiting hpw).symm)
        (inserting_of_apart hr)
  · cases p with
    | enqueueRead envelopeId recipient postmarkExpires now existing =>
      apply insert_cases (C := fun r => Enqueues s k (w.resumed i c r))
      · intro e
        have hr : Apart (.done (.error e)) := trivial
        refine h.resumed hi ?_ ((written_of_apart hr).trans (written_of_waiting ?_).symm) rfl
        · exact .of_eq rfl
        · simp
      · rintro q rfl hq
        exact enqueues_inserted h hw hi hq
    | _ => exact absurd (fun _ => rfl) hp

theorem enqueues_of_reached (h : Reached s.calls (EnqueueAlone s) World.initial w) (k : JsString) :
    Enqueues s k w := by
  have hboth : Sound w ∧ Enqueues s k w := by
    apply h.inv
    · exact ⟨.initial,fun _ => rfl,fun _ => rfl,Nat.zero_le _,Nat.zero_le _⟩
    · rintro u a u' ⟨hs,he⟩ hok hstep
      refine ⟨sound_step hs hstep,?_⟩
      revert hok
      refine step_cases (C := fun a u' => EnqueueAlone s u a → Enqueues s k u') hstep ?_ ?_
      · exact fun c env hok => enqueues_started he hok
      · exact fun i env c p hi _ => enqueues_resumed he hs hi env
  exact hboth.2

/-- Whether a call is an `enqueue` for the key that returned. -/
def succeeded (k : JsString) : Tasks.Call Call Pending (Js Returned) → Bool
  | ⟨.enqueue envelopeId recipient _,.done (.ok .enqueued)⟩ => keyOf envelopeId recipient = k
  | _ => false

def Succeeded (w : World) (k : JsString) (i : ℕ) : Prop := (w.calls[i]?).any (succeeded k) = true

instance (w : World) (k : JsString) (i : ℕ) : Decidable (Succeeded w k i) :=
  inferInstanceAs (Decidable (_ = true))

/-- At most one `enqueue` of a key has returned, and an `enqueue` that goes on to its write
leaves every record that is stored as it is. -/
structure EnqueuedOnce (s : Scheduler) (w : World) : Prop where
  once : ∀ k i j, Succeeded w k i → Succeeded w k j → i = j
  keeps : ∀ i c envelopeId recipient postmarkExpires now existing env w', w.calls[i]? =
      some ⟨c,.awaiting (.enqueueRead envelopeId recipient postmarkExpires now existing)⟩ →
    step s.calls w (.resume i env) = some w' →
    ∀ k q, w.fields.store.find k = some q → w'.fields.store.find k = some q

theorem written_of_succeeded {x : Tasks.Call Call Pending (Js Returned)}
    (h : succeeded k x = true) : 1 ≤ written k x := by
  unfold succeeded at h
  split at h
  · exact (if_pos (by simpa using h)).ge
  · cases h

theorem Enqueues.once (h : Enqueues s k w) {i j : ℕ} (hi : Succeeded w k i)
    (hj : Succeeded w k j) : i = j := by
  obtain ⟨x,hx,hsx⟩ := (Option.any_eq_true _ _).mp hi
  obtain ⟨y,hy,hsy⟩ := (Option.any_eq_true _ _).mp hj
  exact index_unique h.writes hx hy (written_of_succeeded hsx) (written_of_succeeded hsy)

/-- In every run whose calls of `enqueue` start alone, no record is replaced by an `enqueue`
and at most one of a key returns. -/
theorem enqueuedOnce_of_alone (h : Reached s.calls (EnqueueAlone s) World.initial w) :
    EnqueuedOnce s w where
  once k i j hi hj := (enqueues_of_reached h k).once hi hj
  keeps := by
    intro i c e r x now existing env w' hi hstep k q hq
    obtain ⟨c',p,hi',rfl⟩ := step_resume.mp hstep
    obtain ⟨rfl,rfl⟩ : c = c' ∧ Pending.enqueueRead e r x now existing = p := by
      simpa [hi] using hi'
    apply insert_cases (C := fun res => (w.resumed i c res).fields.store.find k = some q)
    · exact fun _ => hq
    · rintro q' rfl hq'
      have hkey : q'.key = keyOf e r := by
        obtain ⟨t,u,-,-,rfl⟩ := newRecord_eq_ok.mp hq'
        rfl
      have hne : q'.key ≠ k := by
        rintro rfl
        have hle := le_total (inserting s q'.key) hi
        have hzero := (enqueues_of_reached h q'.key).stored (by simp [hq])
        have hone : inserting s q'.key (.enqueueRead e r x now none) = 1 := by
          simp [inserting,hkey,datesValid_of_newRecord hq']
        omega
      change (w.fields.store.put q').find k = some q
      rw [InMemorySchedulerStore.find_put,if_neg hne]
      exact hq

namespace Sample

def engine : Engine := ⟨fun _ l => l,fun _ l => .refl l⟩

def scheduler : Scheduler := .new engine ⟨none,none,true⟩

/-- A clock reading and a delivery that succeeds, with a sink that returns. -/
def env (now : ℤ) : Env := ⟨some now,.ok ⟨.delivered,none,none⟩,0,fun _ => .ok ()⟩

def key : JsString := keyOf (js "e") (js "r")

def enqueue : Call := .enqueue (js "e") (js "r") (some 100000)

/-- Both calls find no record before either writes one. -/
def enqueueTwice : List Act :=
  [.start enqueue (env 0),.start enqueue (env 0),.resume 0 (env 0),.resume 1 (env 0),
    .resume 0 (env 0),.resume 1 (env 0)]

theorem enqueueTwice_runs : (run scheduler.calls World.initial enqueueTwice).isSome := by
  decide +kernel

def rest : List Act := [.resume 0 (env 0),.resume 0 (env 0)]

def first : World := World.initial.started enqueue (scheduler.start (env 0) enqueue .initial)

theorem rest_runs : (run scheduler.calls first rest).isSome := by decide +kernel

end Sample

/-- Calls of `enqueue` and `tick` only. -/
def Submits : Act → Prop
  | .start (.enqueue ..) _ | .start .tick _ | .resume .. => True
  | _ => False

theorem not_enqueuedOnce : ¬ ∀ w, Reached Sample.scheduler.calls (fun _ a => Submits a)
    World.initial w → EnqueuedOnce Sample.scheduler w := by
  intro h
  have hreach : Reached Sample.scheduler.calls (fun _ a => Submits a) World.initial _ :=
    reached_get Sample.enqueueTwice_runs (by simp [Sample.enqueueTwice,Sample.enqueue,Submits])
  have := (h _ hreach).once Sample.key 0 1 (by decide +kernel) (by decide +kernel)
  cases this

theorem enqueuedOnce_sample : ∃ w, Succeeded w Sample.key 0 ∧ EnqueuedOnce Sample.scheduler w := by
  have hfirst : Reached Sample.scheduler.calls (EnqueueAlone Sample.scheduler) World.initial
      Sample.first := by
    refine Reached.refl.tail (a := .start Sample.enqueue (Sample.env 0)) ?_ rfl
    intro _ i c t hi
    simp [World.initial] at hi
  refine ⟨_,?_,enqueuedOnce_of_alone (hfirst.trans (reached_get Sample.rest_runs ?_))⟩
  · decide +kernel
  · simp [Sample.rest,EnqueueAlone]

end Enqueue

section Delivery

/-- The record of the key is terminal. -/
def Settled (k : JsString) (f : Fields) : Prop :=
  ∃ q, f.store.find k = some q ∧ isTerminalState q.state = true

/-- How often `deliver` was started for the key. -/
def deliveries (k : JsString) (log : List Entry) : ℕ :=
  (log.filter fun | .deliver _ q => q.key = k | .event _ => false).length

/-- A tick that may still deliver a copy of the record, or write one back that is not terminal. -/
def Comes (k : JsString) : Pending → Prop
  | .tickRead l | .tickWritten l | .attempted l (.error _) => ∃ q ∈ l.due, q.key = k
  | .delivering l q => ∃ x ∈ q::l.due, x.key = k
  | .attempted l (.ok q) =>
    q.key = k ∧ isTerminalState q.state = false ∨ ∃ x ∈ l.due, x.key = k
  | _ => False

/-- The sink takes the event of a delivery that succeeded. -/
def SinkTakes (s : Scheduler) (w : World) : Act → Prop
  | .start .. => True
  | .resume i env => ∀ c l q res, w.calls[i]? = some ⟨c,.awaiting (.delivering l q)⟩ →
    env.attempt = .ok res → res.status = .delivered → s.eventSink = true →
    ∀ ev, keyOf ev.envelope_id ev.recipient = q.key → env.sink ev = .ok ()

variable {s : Scheduler} {w w' : World} {i n : ℕ} {c : Call} {k : JsString}

theorem deliveries_append (log : List Entry) (e : Entry) :
    deliveries k (log++[e]) = deliveries k log+deliveries k [e] := by
  simp [deliveries]

theorem deliveries_tell (f : Fields) (ev : Option SubmissionEvent) :
    deliveries k (f.tell ev).log = deliveries k f.log := by
  rw [tell_log]
  cases ev <;> simp [deliveries]

theorem settled_put (f : Fields) (q : QueueState) (h : Settled k f)
    (hq : q.key = k → isTerminalState q.state = true) : Settled k (f.put q) := by
  obtain ⟨x,hx,hterm⟩ := h
  by_cases hk : q.key = k
  · exact ⟨q,by rw [put_store,InMemorySchedulerStore.find_put,if_pos hk],hq hk⟩
  · exact ⟨x,by rw [put_store,InMemorySchedulerStore.find_put,if_neg hk,hx],hterm⟩

/-- What a step leaves of a record that it neither delivers nor makes anew. -/
structure Leaves (k : JsString) (f : Fields) (r : Result × Fields) : Prop where
  settled : Settled k f → Settled k r.2
  comes : r.1.All fun p => ¬Comes k p
  log : deliveries k r.2.log = deliveries k f.log

theorem Leaves.of_store {f : Fields} {r : Result × Fields} (hs : r.2.store = f.store)
    (hr : r.1.All fun p => ¬Comes k p) (hl : deliveries k r.2.log = deliveries k f.log) :
    Leaves k f r where
  settled := by
    rintro ⟨q,hq,hterm⟩
    exact ⟨q,hs ▸ hq,hterm⟩
  comes := hr
  log := hl

theorem Leaves.of_put {f f' : Fields} {q : QueueState} {stage : Result}
    (hs : f'.store = f.store) (hq : q.key = k → isTerminalState q.state = true)
    (hr : stage.All fun p => ¬Comes k p) (hl : deliveries k f'.log = deliveries k f.log) :
    Leaves k f (stage,f'.put q) where
  settled := by
    rintro ⟨x,hx,hterm⟩
    exact settled_put f' q ⟨x,hs ▸ hx,hterm⟩ hq
  comes := hr
  log := hl

theorem leaves_next {f : Fields} {l : TickLocals} (hn : ∀ q ∈ l.due, Named q)
    (hl : ∀ q ∈ l.due, q.key ≠ k) (env : Env) : Leaves k f (l.next s env f) := by
  refine processDue_cases (C := Leaves k f)
    (P := fun due f' => f'.store = f.store ∧ deliveries k f'.log = deliveries k f.log ∧
      ∀ q ∈ due, q.key ≠ k) ?_ ?_ ?_ ?_ ?_ l.due hn l.firstError f ⟨rfl,rfl,hl⟩
  · rintro q due f' ⟨hs,hd,hk⟩ _
    exact ⟨hs,hd,fun x hx => hk x (List.mem_cons_of_mem _ hx)⟩
  · rintro q due f' t ev ⟨hs,hd,hk⟩ - - - - -
    refine ⟨hs,?_,fun x hx => hk x (List.mem_cons_of_mem _ hx)⟩
    exact (deliveries_tell f' (some ev)).trans hd
  · rintro firstError f' ⟨hs,hd,-⟩
    exact .of_store hs (all_done _ _) hd
  · rintro q due f' t firstError ⟨hs,hd,hk⟩ - - - -
    refine .of_put (by simpa using hs) (fun h => absurd h (hk q List.mem_cons_self)) ?_
      ((deliveries_tell f' _).trans hd)
    rintro ⟨x,hx,hkey⟩
    exact hk x (List.mem_cons_of_mem _ hx) hkey
  · rintro q due f' firstError ⟨hs,hd,hk⟩ - -
    refine .of_store hs ?_ ?_
    · rintro ⟨x,hx,hkey⟩
      exact hk x hx hkey
    · rw [note_log,deliveries_append,hd]
      simp [deliveries,hk q List.mem_cons_self]

theorem leaves_matches {f f' : Fields} (hs : f'.store = f.store)
    (hd : deliveries k f'.log = deliveries k f.log) (now : JsDate) (rest : List QueueState)
    (out : List CancelResult) : Leaves k f (settle (cancelMatches now rest out) f') := by
  apply cancelMatches_cases (C := Leaves k f)
  · exact fun r _ => .of_store hs (all_done _ _) hd
  · exact fun pre q post out t _ _ _ _ => .of_put hs (fun _ => rfl) id hd

/-- A step of a call that holds no copy it could deliver. -/
theorem leaves_resumed (h : Sound w) {p : Pending} (hi : w.calls[i]? = some ⟨c,.awaiting p⟩)
    (env : Env) (hp : ¬Comes k p) (hk : inserting s k p = 0) :
    Leaves k w.fields (resume s env p w.fields) := by
  have hkept := h.kept i c p hi
  cases p with
  | enqueueRead envelopeId recipient postmarkExpires now existing =>
    apply insert_cases (C := Leaves k w.fields)
    · exact fun e => .of_store rfl (all_done _ _) rfl
    · rintro q rfl hq
      refine .of_put rfl ?_ id rfl
      rintro rfl
      have hvalid := datesValid_of_newRecord hq
      obtain ⟨t,u,-,-,rfl⟩ := newRecord_eq_ok.mp hq
      simp [inserting,hvalid,QueueState.key] at hk
  | enqueueWritten => exact .of_store rfl (all_done _ _) rfl
  | tickRead l => exact leaves_next hkept.named (fun q hq hkey => hp ⟨q,hq,hkey⟩) env
  | tickWritten l =>
    exact leaves_next (l := { l with advanced := l.advanced+1 }) hkept.named
      (fun q hq hkey => hp ⟨q,hq,hkey⟩) env
  | delivering l q =>
    have hq : q.key ≠ k := fun hkey => hp ⟨q,List.mem_cons_self,hkey⟩
    have hdue : ¬∃ x ∈ l.due, x.key = k := fun ⟨x,hx,hkey⟩ => hp ⟨x,List.mem_cons_of_mem _ hx,hkey⟩
    have hres {res : Js QueueState} (hr : ∀ q', res = .ok q' → q'.key = q.key) :
        ¬Comes k (.attempted l res) := by
      cases res with
      | error e => exact hdue
      | ok q' =>
        rintro (⟨hkey,-⟩ | hx)
        · exact hq ((hr q' rfl).symm.trans hkey)
        · exact hdue hx
    change Leaves k w.fields (.awaiting (.attempted l ((runAttempt s env l.now q).call
      w.fields).1),((runAttempt s env l.now q).call w.fields).2)
    rw [runAttempt_call]
    cases env.attempt with
    | error e => exact .of_store rfl (hres (by simp)) rfl
    | ok res =>
      refine judge_cases (hkept.named q List.mem_cons_self) (h.checked i c _ hi).1 res
        (C := fun r => Leaves k w.fields (.awaiting (.attempted l r.1),r.2)) ?_ ?_ ?_
      · intro t last state reason _ _ _
        refine .of_store (by simp) (hres ?_) (deliveries_tell _ _)
        intro q' hq'
        dsimp only at hq'
        generalize env.heard (s.report (ended (attempt q last res) state t) reason) = x at hq'
        cases x with
        | ok u =>
          obtain rfl := Except.ok.inj hq'
          rfl
        | error e => cases hq'
      · intro last next _ _
        refine .of_store rfl (hres ?_) rfl
        intro q' hq'
        obtain rfl := Except.ok.inj hq'
        rfl
      · exact fun e _ => .of_store rfl (hres (by simp)) rfl
  | attempted l res =>
    cases res with
    | ok q =>
      refine .of_put rfl ?_ (fun hx => hp (.inr hx)) rfl
      intro hkey
      by_contra hn
      exact hp (.inl ⟨hkey,by simpa using hn⟩)
    | error e =>
      exact leaves_next (l := { l with firstError := l.firstError.or (some e) }) hkept.named
        (fun q hq hkey => hp ⟨q,hq,hkey⟩) env
  | cancelRead envelopeId recipient now q =>
    apply cancelStored_cases (C := Leaves k w.fields)
    · exact fun r _ => .of_store rfl (all_done _ _) rfl
    · exact fun q t _ _ _ => .of_put rfl (fun _ => rfl) id rfl
  | cancelWritten recipient q =>
    apply emit_cases (C := Leaves k w.fields) (hkept.named q List.mem_cons_self)
    · exact fun e => .of_store (by simp) (all_done _ _) (deliveries_tell _ _)
    · exact .of_store (by simp) (all_done _ _) (deliveries_tell _ _)
  | cancelAllRead envelopeId now all => exact leaves_matches rfl rfl _ _ _
  | cancelAllWritten now q rest out =>
    apply emit_cases (C := Leaves k w.fields) (hkept.named q List.mem_cons_self)
    · exact fun e => .of_store (by simp) (all_done _ _) (deliveries_tell _ _)
    · exact leaves_matches (by simp) (deliveries_tell _ _) _ _ _

/-- A tick that starts comes to no record that is terminal. -/
theorem leaves_started (hk : w.fields.tickInFlight = false → Settled k w.fields) (c : Call)
    (env : Env) :
    Leaves k w.fields (start s env c w.fields) := by
  apply start_cases (C := Leaves k w.fields)
  case hrefused => exact fun e => .of_store rfl (all_done _ _) rfl
  case henqueue => exact fun _ _ _ _ _ _ => .of_store rfl id rfl
  case hcancel => exact fun _ _ _ => .of_store rfl id rfl
  case hcancelAll => exact fun _ _ => .of_store rfl id rfl
  case htick =>
    intro _ hfree
    refine .of_store rfl ?_ rfl
    rintro ⟨q,hq,rfl⟩
    obtain ⟨hfind,hdue⟩ := (w.fields.store.mem_dueRecords).mp hq
    obtain ⟨x,hx,hterm⟩ := hk hfree
    obtain rfl : q = x := Option.some.inj (hfind.symm.trans hx)
    simp [InMemorySchedulerStore.isDue,hterm] at hdue

/-- The tick of call `i` is about to store the record of the key as terminal. -/
def Storing (w : World) (i : ℕ) (k : JsString) : Prop :=
  ∃ c l q, w.calls[i]? = some ⟨c,.awaiting (.attempted l (.ok q))⟩ ∧ q.key = k ∧
    isTerminalState q.state = true

/-- Where a record is once its delivery succeeded in the tick of call `i`. -/
structure Landed (s : Scheduler) (i : ℕ) (k : JsString) (n : ℕ) (w : World) : Prop where
  sound : Sound w
  enqueues : Enqueues s k w
  here : Storing w i k ∨ Settled k w.fields
  idle : Every (fun _ p => ¬Comes k p) w
  log : deliveries k w.fields.log = n

theorem Landed.inserting (h : Landed s i k n w) {j : ℕ} {p : Pending}
    (hj : w.calls[j]? = some ⟨c,.awaiting p⟩) : Scheduler.inserting s k p = 0 := by
  have hstored : w.fields.store.find k ≠ none := by
    rcases h.here with ⟨c',l,q,hi,rfl,-⟩ | ⟨q,hq,-⟩
    · exact (h.sound.kept i c' _ hi).stored q List.mem_cons_self
    · simp [hq]
  have hle := le_total (Scheduler.inserting s k) hj
  have hzero := h.enqueues.stored hstored
  omega

theorem Landed.started (h : Landed s i k n w) {env : Env}
    (hok : EnqueueAlone s w (.start c env)) :
    Landed s i k n (w.started c (start s env c w.fields)) := by
  have hfree : w.fields.tickInFlight = false → Settled k w.fields := by
    intro hf
    rcases h.here with ⟨c',l,q,hi,-,-⟩ | hsettled
    · have hrun := h.sound.running_of_tick hi rfl
      simp [Fields.running,hf] at hrun
    · exact hsettled
  have hl := leaves_started (s := s) hfree c env
  refine ⟨sound_started h.sound c env,enqueues_started h.enqueues hok,?_,
    h.idle.started c hl.comes,hl.log.trans h.log⟩
  rcases h.here with ⟨c',l,q,hi,hq⟩ | hsettled
  · left
    refine ⟨c',l,q,?_,hq⟩
    rw [World.started,List.getElem?_append_left (List.getElem?_eq_some_iff.mp hi).1]
    exact hi
  · exact .inr (hl.settled hsettled)

theorem Landed.resumed (h : Landed s i k n w) {j : ℕ} {p : Pending}
    (hj : w.calls[j]? = some ⟨c,.awaiting p⟩) (env : Env) :
    Landed s i k n (w.resumed j c (resume s env p w.fields)) := by
  have hl := leaves_resumed h.sound hj env (h.idle j c p hj) (h.inserting hj)
  refine ⟨sound_resumed h.sound hj env,enqueues_resumed h.enqueues h.sound hj env,?_,
    h.idle.resumed j c hl.comes,hl.log.trans h.log⟩
  rcases h.here with ⟨c',l,q,hi,rfl,hterm⟩ | hsettled
  · by_cases hij : j = i
    · subst hij
      obtain ⟨rfl,rfl⟩ : c = c' ∧ p = .attempted l (.ok q) := by simpa [hj] using hi
      right
      refine ⟨q,?_,hterm⟩
      change (w.fields.store.put q).find q.key = some q
      rw [InMemorySchedulerStore.find_put,if_pos rfl]
    · left
      refine ⟨c',l,q,?_,rfl,hterm⟩
      rw [World.resumed,List.getElem?_set_ne hij]
      exact hi
  · exact .inr (hl.settled hsettled)

theorem ticking_of_comes {p : Pending} (h : Comes k p) : p.ticking = 1 := by
  unfold Comes at h
  split at h <;> first | rfl | exact h.elim

/-- What the tick goes on with when a delivery succeeded and its event is taken. -/
theorem runAttempt_delivered {l : TickLocals} {q : QueueState} {res : AttemptResult} {env : Env}
    (hq : Named q) (hc : Checked c (.delivering l q)) (hattempt : env.attempt = .ok res)
    (hres : res.status = .delivered)
    (hsink : s.eventSink = true → ∀ ev, keyOf ev.envelope_id ev.recipient = q.key →
      env.sink ev = .ok ()) (f : Fields) :
    ∃ q', ((runAttempt s env l.now q).call f).1 = .ok q' ∧ q'.key = q.key ∧
      isTerminalState q'.state = true := by
  rw [runAttempt_call,hattempt]
  refine judge_cases hq hc.1 res (C := fun r => ∃ q', r.1 = .ok q' ∧ q'.key = q.key ∧
    isTerminalState q'.state = true) ?_ ?_ ?_
  · intro t last state reason _ hstate _
    refine ⟨ended (attempt q last res) state t,?_,rfl,hstate⟩
    have hheard : env.heard (s.report (ended (attempt q last res) state t) reason) = .ok () := by
      unfold report
      split
      next hs => exact hsink hs _ rfl
      next => rfl
    rw [hheard]
    rfl
  · exact fun _ _ hne => absurd hres hne
  · rintro e (hnow | hne)
    · exact absurd hnow hc.2
    · exact absurd hres hne

theorem landed_of_delivered (hw : Sound w) {l : TickLocals} {q : QueueState}
    (hi : w.calls[i]? = some ⟨c,.awaiting (.delivering l q)⟩) (he : Enqueues s q.key w)
    {env : Env} {res : AttemptResult} (hattempt : env.attempt = .ok res)
    (hres : res.status = .delivered) (hsink : SinkTakes s w (.resume i env)) :
    Landed s i q.key (deliveries q.key (w.resumed i c (resume s env (.delivering l q)
      w.fields)).fields.log) (w.resumed i c (resume s env (.delivering l q) w.fields)) := by
  have hk := hw.kept i c _ hi
  obtain ⟨q',hq',hkey,hterm⟩ := runAttempt_delivered (hk.named q List.mem_cons_self)
    (hw.checked i c _ hi) hattempt hres (hsink c l q res hi hattempt hres) w.fields
  have hstage : (resume s env (.delivering l q) w.fields).1 = .awaiting (.attempted l (.ok q')) :=
    congrArg (fun x => Stage.awaiting (Pending.attempted l x)) hq'
  have hlt := (List.getElem?_eq_some_iff.mp hi).1
  refine ⟨sound_resumed hw hi env,enqueues_resumed he hw hi env,.inl ⟨c,l,q',?_,hkey,hterm⟩,?_,rfl⟩
  · rw [World.resumed,List.getElem?_set_self hlt,hstage]
  · intro j c' p hj hcomes
    have hlatch := (sound_resumed (s := s) hw hi env).latch
    by_cases hij : j = i
    · subst hij
      rw [World.resumed,List.getElem?_set_self hlt,hstage] at hj
      obtain ⟨-,rfl⟩ : c = c' ∧ Pending.attempted l (.ok q') = p := by simpa using hj
      rcases hcomes with ⟨-,hn⟩ | ⟨x,hx,hxk⟩
      · rw [hterm] at hn
        cases hn
      · have hnodup := hk.nodup
        simp only [Pending.copies,List.map_cons,List.nodup_cons,List.mem_map] at hnodup
        exact hnodup.1 ⟨x,hx,hxk⟩
    · rw [World.resumed,List.getElem?_set_ne (Ne.symm hij)] at hj
      have hone : total Pending.ticking w ≤ 1 := by
        rw [hw.latch]
        unfold Fields.running
        split <;> omega
      exact hij (index_unique hone hj hi (ticking_of_comes hcomes).ge (Nat.le_refl 1))

/-- The tick of a delivery that succeeded ends with the record terminal, and nothing delivers
the record again. -/
def DeliveredOnce (s : Scheduler) (ok : World → Act → Prop) : Prop :=
  ∀ w i c l q env res w₁ w', Reached s.calls ok World.initial w →
    w.calls[i]? = some ⟨c,.awaiting (.delivering l q)⟩ → env.attempt = .ok res →
    res.status = .delivered → ok w (.resume i env) →
    step s.calls w (.resume i env) = some w₁ → Reached s.calls ok w₁ w' →
    deliveries q.key w'.fields.log = deliveries q.key w₁.fields.log ∧
      ((∃ r, w'.calls[i]? = some ⟨c,.done r⟩) → Settled q.key w'.fields)

/-- It holds of the runs whose calls of `enqueue` start alone and whose sink takes the events
of the deliveries that succeed. -/
theorem deliveredOnce (s : Scheduler) :
    DeliveredOnce s fun w a => EnqueueAlone s w a ∧ SinkTakes s w a := by
  intro w i c l q env res w₁ w' hw hi hattempt hres hok hstep h'
  have hs := sound_of_reached hw
  have he := enqueues_of_reached (hw.mono fun _ _ h => h.1) q.key
  obtain ⟨c',p,hi',rfl⟩ := step_resume.mp hstep
  obtain ⟨rfl,rfl⟩ : c = c' ∧ Pending.delivering l q = p := by simpa [hi] using hi'
  have hlanded := h'.inv (landed_of_delivered hs hi he hattempt hres hok.2) ?_
  · refine ⟨hlanded.log,?_⟩
    rintro ⟨r,hr⟩
    rcases hlanded.here with ⟨c',l',q',hi',-,-⟩ | hsettled
    · rw [hr] at hi'
      cases hi'
    · exact hsettled
  · intro u a u' hu hok hstep
    revert hok
    refine step_cases (C := fun a u' => EnqueueAlone s u a ∧ SinkTakes s u a →
      Landed s i q.key _ u') hstep ?_ ?_
    · exact fun c env hok => hu.started hok.1
    · exact fun j env c p hj _ => hu.resumed hj env

namespace Sample

/-- The sink throws. -/
def deaf (now : ℤ) : Env := { env now with sink := fun _ => raise (js "sink failed") }

def toDelivery : List Act :=
  [.start enqueue (env 0),.resume 0 (env 0),.resume 0 (env 0),.start .tick (env 1000),
    .resume 1 (env 1000)]

theorem toDelivery_runs : (run scheduler.calls World.initial toDelivery).isSome := by decide +kernel

def delivering : World := (run scheduler.calls World.initial toDelivery).get toDelivery_runs

theorem delivered_steps : (step scheduler.calls delivering (.resume 1 (deaf 1000))).isSome := by
  decide +kernel

def delivered : World := (step scheduler.calls delivering (.resume 1 (deaf 1000))).get
  delivered_steps

/-- The tick ends, and the next one delivers the same record. -/
def again : List Act := [.resume 1 (env 1000),.start .tick (env 2000),.resume 2 (env 2000)]

theorem again_evaluated : (run scheduler.calls delivered again).any (fun w =>
    deliveries key w.fields.log ≠ deliveries key delivered.fields.log) = true := by
  decide +kernel

theorem again_runs : (run scheduler.calls delivered again).isSome := by
  obtain ⟨w,hw,-⟩ := (Option.any_eq_true _ _).mp again_evaluated
  rw [hw]
  rfl

theorem redelivered : deliveries key ((run scheduler.calls delivered again).get
    again_runs).fields.log ≠ deliveries key delivered.fields.log := by
  obtain ⟨w,hw,hlog⟩ := (Option.any_eq_true _ _).mp again_evaluated
  simpa only [hw,Option.get_some,decide_eq_true_eq] using hlog

end Sample

/-- Whether a call waits for the delivery of the key. -/
def delivers (k : JsString) : Tasks.Call Call Pending (Js Returned) → Bool
  | ⟨_,.awaiting (.delivering _ q)⟩ => q.key = k
  | _ => false

theorem delivers_iff {x : Tasks.Call Call Pending (Js Returned)} : delivers k x = true ↔
    ∃ c l q, x = ⟨c,.awaiting (.delivering l q)⟩ ∧ q.key = k := by
  constructor
  · intro h
    unfold delivers at h
    split at h
    next c l q => exact ⟨c,l,q,rfl,by simpa using h⟩
    next => cases h
  · rintro ⟨c,l,q,rfl,rfl⟩
    simp [delivers]

theorem not_deliveredOnce : ¬ DeliveredOnce Sample.scheduler fun _ _ => True := by
  intro h
  have hwaits : (Sample.delivering.calls[1]?).any (delivers Sample.key) = true := by
    decide +kernel
  obtain ⟨x,hx,hd⟩ := (Option.any_eq_true _ _).mp hwaits
  obtain ⟨c,l,q,rfl,hkey⟩ := delivers_iff.mp hd
  have hagain := h Sample.delivering 1 c l q (Sample.deaf 1000) _ Sample.delivered _
    (reached_get Sample.toDelivery_runs fun _ _ _ => trivial) hx rfl rfl trivial
    (Option.some_get Sample.delivered_steps).symm
    (reached_get Sample.again_runs fun _ _ _ => trivial)
  rw [hkey] at hagain
  exact Sample.redelivered hagain.1

end Delivery

section Absorption

def isOpen (q : QueueState) : Bool := !isTerminalState q.state

/-- A call that holds the record of the key as one it may still change: it takes the next
step on the record from its own copy. -/
def Holds (s : Scheduler) (k : JsString) : Pending → Prop
  | .enqueueRead envelopeId recipient postmarkExpires now none =>
    keyOf envelopeId recipient = k ∧ s.datesValid postmarkExpires now
  | .tickRead l | .tickWritten l | .attempted l (.error _) | .delivering l _ =>
    ∃ x ∈ l.due, x.key = k ∧ isOpen x
  | .attempted l (.ok q) => q.key = k ∨ ∃ x ∈ l.due, x.key = k ∧ isOpen x
  | .cancelRead _ _ _ q => ∃ x ∈ q.toList, x.key = k ∧ isOpen x
  | .cancelAllRead envelopeId _ all =>
    ∃ x ∈ all.filter (·.envelope_id = envelopeId), x.key = k ∧ isOpen x
  | .cancelAllWritten _ _ rest _ => ∃ x ∈ rest, x.key = k ∧ isOpen x
  | _ => False

/-- The copy that a call will store as terminal when it goes on. -/
def Pending.storing : Pending → Option QueueState
  | .attempted _ (.ok q) => if isTerminalState q.state then some q else none
  | .tickRead l | .tickWritten l | .attempted l (.error _) =>
    (l.due.find? isOpen).filter fun q => (JsDate.parse q.deadline).le l.now
  | .cancelRead _ _ _ q => q.filter isOpen
  | .cancelAllRead envelopeId _ all => (all.filter (·.envelope_id = envelopeId)).find? isOpen
  | .cancelAllWritten _ _ rest _ => rest.find? isOpen
  | _ => none

/-- A record is stored as terminal when no other call holds it. -/
def StoresAlone (s : Scheduler) (w : World) : Act → Prop
  | .start .. => True
  | .resume i _ => ∀ c p q, w.calls[i]? = some ⟨c,.awaiting p⟩ → p.storing = some q →
    ∀ j c' p', j ≠ i → w.calls[j]? = some ⟨c',.awaiting p'⟩ → ¬Holds s q.key p'

/-- A delivery that comes back after its record was stored as terminal failed. -/
def LateFails (w : World) : Act → Prop
  | .start .. => True
  | .resume i env => ∀ c l q, w.calls[i]? = some ⟨c,.awaiting (.delivering l q)⟩ →
    Settled q.key w.fields → ∃ e, env.attempt = .error e

/-- The sink takes the events of a tick. -/
def TickHeard (s : Scheduler) (w : World) : Act → Prop
  | .start .. => True
  | .resume i env => ∀ c p, w.calls[i]? = some ⟨c,.awaiting p⟩ → p.ticking = 1 →
    s.eventSink = true → ∀ q ∈ p.copies, ∀ ev, keyOf ev.envelope_id ev.recipient = q.key →
    env.sink ev = .ok ()

/-- How many terminal events of the key the sink was given. -/
def events (k : JsString) (log : List Entry) : ℕ :=
  (log.filter fun
    | .event ev => keyOf ev.envelope_id ev.recipient = k
    | .deliver .. => false).length

/-- The event was sent and the record is not yet stored. -/
def told (k : JsString) : Pending → ℕ
  | .attempted _ (.ok q) => if q.key = k ∧ isTerminalState q.state = true then 1 else 0
  | _ => 0

/-- The record is stored and its event has still to be sent. -/
def owes (k : JsString) : Pending → ℕ
  | .cancelWritten _ q | .cancelAllWritten _ q _ _ => if q.key = k then 1 else 0
  | _ => 0

variable {s : Scheduler} {w w' : World} {i : ℕ} {c : Call} {k : JsString}

/-- What one step does about the record of one key. -/
structure Accounts (s : Scheduler) (k : JsString) (f : Fields) (p : Pending)
    (r : Result × Fields) : Prop where
  find : r.2.store.find k = f.store.find k ∨ Holds s k p
  starts : deliveries k r.2.log = deliveries k f.log ∨ Holds s k p
  holds : r.1.All fun p' => Holds s k p' → Holds s k p ∨ ¬Settled k f
  counted : (Settled k r.2 → Settled k f) →
    events k r.2.log+weight (owes k) r.1+told k p ≤
      events k f.log+owes k p+weight (told k) r.1 ∧ weight (owes k) r.1 ≤ owes k p
  stored : ¬Settled k f → Settled k r.2 → (∃ q, p.storing = some q ∧ q.key = k) ∧
    (r.1.All fun p' => ¬Holds s k p') ∧
    events k r.2.log+weight (owes k) r.1+told k p ≤ events k f.log+owes k p+1

/-- The laws of one record: once it is terminal no call holds it and its event is sent at most
once, and before that only a tick about to store it has sent one. -/
structure Absorbs (s : Scheduler) (k : JsString) (w : World) : Prop where
  free : Settled k w.fields → Every (fun _ p => ¬Holds s k p) w
  once : Settled k w.fields → events k w.fields.log+total (owes k) w ≤ 1
  opened : ¬Settled k w.fields → total (owes k) w = 0 ∧ events k w.fields.log ≤ total (told k) w

theorem told_le_holds {p : Pending} (h : ¬Holds s k p) : told k p = 0 := by
  unfold told
  split
  next l q => exact if_neg fun hq => h (.inl hq.1)
  next => rfl

theorem Absorbs.resumed (h : Absorbs s k w) {p : Pending}
    (hi : w.calls[i]? = some ⟨c,.awaiting p⟩) {r : Result × Fields}
    (ha : Accounts s k w.fields p r)
    (halone : ∀ q, p.storing = some q → ∀ j c' p', j ≠ i →
      w.calls[j]? = some ⟨c',.awaiting p'⟩ → ¬Holds s q.key p') :
    Absorbs s k (w.resumed i c r) := by
  have ho := total_resumed (owes k) r hi
  have ht := total_resumed (told k) r hi
  by_cases hs : Settled k w.fields
  · have hfree := h.free hs
    have hp : ¬Holds s k p := hfree i c p hi
    have hfind := ha.find.resolve_right hp
    have hs' : Settled k r.2 := by
      obtain ⟨q,hq,hterm⟩ := hs
      exact ⟨q,hfind.trans hq,hterm⟩
    have hr : r.1.All fun p' => ¬Holds s k p' := by
      have hholds := ha.holds
      revert hholds
      cases r.1 with
      | done x => exact fun _ => trivial
      | awaiting p' => exact fun hholds hp' => (hholds hp').elim hp fun hn => hn hs
    have hzero : weight (told k) r.1 = 0 := by
      revert hr
      cases r.1 with
      | done x => exact fun _ => rfl
      | awaiting p' => exact fun hr => told_le_holds hr
    have hcounted := (ha.counted fun _ => hs).1
    have honce := h.once hs
    refine ⟨fun _ => hfree.resumed i c hr,fun _ => ?_,fun hn => absurd hs' hn⟩
    change events k r.2.log+_ ≤ 1
    omega
  · obtain ⟨howes,hevents⟩ := h.opened hs
    have hle := le_total (owes k) hi
    by_cases hs' : Settled k r.2
    · obtain ⟨⟨q,hq,hkey⟩,hr,hcount⟩ := ha.stored hs hs'
      have hothers := halone q hq
      rw [hkey] at hothers
      have htold := total_of_others (told k) hi fun j c' p' hne hj =>
        told_le_holds (hothers j c' p' hne hj)
      refine ⟨fun _ => ?_,fun _ => ?_,fun hn => absurd hs' hn⟩
      · intro j c' p' hj
        rw [World.resumed,List.getElem?_set] at hj
        split at hj
        · split at hj
          · obtain ⟨-,hstage⟩ := Tasks.Call.mk.inj (Option.some.inj hj)
            rw [hstage] at hr
            exact hr
          · cases hj
        next hne => exact hothers j c' p' (Ne.symm hne) hj
      · change events k r.2.log+_ ≤ 1
        omega
    · obtain ⟨hcount,hdrop⟩ := ha.counted fun h => absurd h hs'
      refine ⟨fun h => absurd h hs',fun h => absurd h hs',fun _ => ?_⟩
      change _ ∧ events k r.2.log ≤ _
      omega

theorem settled_congr {f f' : Fields} (h : f'.store.find k = f.store.find k) :
    Settled k f' ↔ Settled k f := by
  unfold Settled
  rw [h]

/-- A step that leaves the stored record of the key as it is. -/
theorem Accounts.of_find {f : Fields} {p : Pending} {r : Result × Fields}
    (hfind : r.2.store.find k = f.store.find k)
    (hstarts : deliveries k r.2.log = deliveries k f.log ∨ Holds s k p)
    (hholds : r.1.All fun p' => Holds s k p' → Holds s k p ∨ ¬Settled k f)
    (hcount : events k r.2.log+weight (owes k) r.1+told k p ≤
      events k f.log+owes k p+weight (told k) r.1) (hdrop : weight (owes k) r.1 ≤ owes k p) :
    Accounts s k f p r where
  find := .inl hfind
  starts := hstarts
  holds := hholds
  counted _ := ⟨hcount,hdrop⟩
  stored hn hs := absurd ((settled_congr hfind).mp hs) hn

theorem find_put_ne {st : InMemorySchedulerStore} {q : QueueState} (h : q.key ≠ k) :
    (st.put q).find k = st.find k := by
  rw [InMemorySchedulerStore.find_put,if_neg h]

theorem find_put_self {st : InMemorySchedulerStore} {q : QueueState} (h : q.key = k) :
    (st.put q).find k = some q := by
  rw [InMemorySchedulerStore.find_put,if_pos h]

theorem events_tell (f : Fields) (q : QueueState) (reason : Option JsString) :
    events k (f.tell (s.report q reason)).log ≤ events k f.log+if q.key = k then 1 else 0 := by
  rw [tell_log]
  unfold report events
  split
  · by_cases hk : q.key = k
    · have hk' : keyOf q.envelope_id q.recipient = k := hk
      simp [hk,hk']
    · have hk' : keyOf q.envelope_id q.recipient ≠ k := hk
      simp [hk']
  · simp

theorem events_tell_ne (f : Fields) {q : QueueState} (reason : Option JsString) (hk : q.key ≠ k) :
    events k (f.tell (s.report q reason)).log ≤ events k f.log := by
  have := events_tell (s := s) (k := k) f q reason
  rwa [if_neg hk,add_zero] at this

theorem isOpen_iff {q : QueueState} : isOpen q = true ↔ isTerminalState q.state = false := by
  simp [isOpen]

theorem find?_isOpen {pre post : List QueueState} {q : QueueState}
    (hpre : ∀ x ∈ pre, isTerminalState x.state = true) (hq : isTerminalState q.state = false) :
    (pre++q::post).find? isOpen = some q := by
  rw [List.find?_append,List.find?_eq_none.mpr fun x hx => by simp [isOpen,hpre x hx]]
  simp [isOpen,hq]

/-- A tick whose events are taken goes on to its first record that is not terminal. -/
theorem accounts_next {f : Fields} {p : Pending} {l : TickLocals} {env : Env}
    (hk : Kept f.store p) (hfree : Settled k f → ¬Holds s k p) (hl : l.due = p.copies)
    (hholds : ∀ x ∈ l.due, x.key = k → isOpen x = true → Holds s k p)
    (hstoring : p.storing =
      (l.due.find? isOpen).filter fun q => (JsDate.parse q.deadline).le l.now)
    (htold : told k p = 0) (howes : owes k p = 0)
    (hheard : s.eventSink = true → ∀ q ∈ l.due, ∀ ev,
      keyOf ev.envelope_id ev.recipient = q.key → env.sink ev = .ok ()) :
    Accounts s k f p (l.next s env f) := by
  have hdown {x : QueueState} {due pre : List QueueState} {q : QueueState}
      (hdue : l.due = pre++q::due) (hx : x ∈ due) : x ∈ l.due := by simp [hdue,hx]
  refine processDue_cases (C := Accounts s k f p)
    (P := fun due f' => f' = f ∧ ∃ pre, l.due = pre++due ∧
      ∀ x ∈ pre, isTerminalState x.state = true) ?_ ?_ ?_ ?_ ?_ l.due (hl ▸ hk.named) l.firstError f
    ⟨rfl,[],rfl,by simp⟩
  · rintro q due f' ⟨rfl,pre,hpre,hterm⟩ hq
    refine ⟨rfl,pre++[q],by simp [hpre],?_⟩
    intro x hx
    rcases List.mem_append.mp hx with hx | hx
    · exact hterm x hx
    · obtain rfl := List.mem_singleton.mp hx
      exact hq
  · rintro q due f' t ev ⟨rfl,pre,hpre,-⟩ - - - hev hne
    unfold report at hev
    split at hev
    next hs =>
      obtain rfl := Option.some.inj hev
      exact absurd (hheard hs q (by simp [hpre]) _ rfl) hne
    next => cases hev
  · rintro firstError f' ⟨rfl,-⟩
    exact .of_find rfl (.inl rfl) (all_done _ _) (by simp [htold]) (by simp)
  · rintro q due f' t firstError ⟨rfl,pre,hpre,hterm⟩ hn hnow hdeadline -
    have hrest : Holds s k (.tickWritten ⟨l.now,due,l.advanced,firstError⟩) → Holds s k p := by
      rintro ⟨x,hx,hkey,hopen⟩
      exact hholds x (hdown hpre hx) hkey hopen
    have hlog := deliveries_tell (k := k) f' (s.report (ended q .expired t) none)
    have hevents := events_tell (s := s) (k := k) f' (ended q .expired t) none
    by_cases hqk : q.key = k
    · have hp : Holds s k p := hholds q (by simp [hpre]) hqk (isOpen_iff.mpr hn)
      refine ⟨.inr hp,.inl hlog,fun h => .inl (hrest h),?_,?_⟩
      · intro hback
        refine absurd hp (hfree (hback ⟨ended q .expired t,?_,rfl⟩))
        exact find_put_self (by simpa using hqk)
      · intro _ _
        refine ⟨⟨q,?_,hqk⟩,?_,?_⟩
        · rw [hstoring,hpre,find?_isOpen hterm hn]
          simp [hnow,JsDate.parse,JsDate.le,hdeadline]
        · rintro ⟨x,hx,hkey,-⟩
          have hnodup := hk.nodup
          rw [← hl,hpre,List.map_append,List.map_cons,List.nodup_append] at hnodup
          exact (List.nodup_cons.mp hnodup.2.1).1 (List.mem_map.mpr ⟨x,hx,hkey.trans hqk.symm⟩)
        · rw [ended_key,if_pos hqk] at hevents
          rw [htold,howes]
          exact hevents
    · refine .of_find ?_ (.inl hlog) (fun h => .inl (hrest h)) ?_ (Nat.zero_le _)
      · rw [put_store,find_put_ne (by simpa using hqk),tell_store]
      · rw [htold,howes]
        exact events_tell_ne _ _ (by simpa using hqk)
  · rintro q due f' firstError ⟨rfl,pre,hpre,hterm⟩ hn -
    refine .of_find rfl ?_ ?_ ?_ (Nat.zero_le _)
    · by_cases hqk : q.key = k
      · exact .inr (hholds q (by simp [hpre]) hqk (isOpen_iff.mpr hn))
      · left
        rw [note_log,deliveries_append]
        simp [deliveries,hqk]
    · rintro ⟨x,hx,hkey,hopen⟩
      exact .inl (hholds x (hdown hpre hx) hkey hopen)
    · rw [htold,howes]
      simp [events,owes]

theorem accounts_matches {f : Fields} {p : Pending} {now : JsDate} {rest : List QueueState}
    {out : List CancelResult} (hk : Kept f.store p) (hfree : Settled k f → ¬Holds s k p)
    (hrest : rest.Sublist p.copies)
    (hholds : ∀ x ∈ rest, x.key = k → isOpen x = true → Holds s k p)
    (hstoring : p.storing = rest.find? isOpen) (htold : told k p = 0) {f' : Fields}
    (hs : f'.store = f.store) (hlog : deliveries k f'.log = deliveries k f.log)
    (hevents : events k f'.log ≤ events k f.log+owes k p)
    (howes : (∃ x ∈ rest, x.key = k) → owes k p = 0) :
    Accounts s k f p (settle (cancelMatches now rest out) f') := by
  apply cancelMatches_cases (C := Accounts s k f p)
  · intro r _
    exact .of_find (congrArg (·.find k) hs) (.inl hlog) (all_done _ _) (by simp [htold,hevents])
      (by simp)
  · rintro pre q post out t rfl hterm hn -
    have hdown : Holds s k (.cancelAllWritten now (ended q .canceled t) post out) → Holds s k p := by
      rintro ⟨x,hx,hkey,hopen⟩
      exact hholds x (by simp [hx]) hkey hopen
    by_cases hqk : q.key = k
    · have hp : Holds s k p := hholds q (by simp) hqk (isOpen_iff.mpr hn)
      have hzero := howes ⟨q,by simp,hqk⟩
      refine ⟨.inr hp,.inl hlog,fun h => .inl (hdown h),?_,?_⟩
      · intro hback
        refine absurd hp (hfree (hback ⟨ended q .canceled t,?_,rfl⟩))
        exact find_put_self (by simpa using hqk)
      · intro _ _
        refine ⟨⟨q,?_,hqk⟩,?_,?_⟩
        · rw [hstoring,find?_isOpen hterm hn]
        · rintro ⟨x,hx,hkey,-⟩
          have hnodup := (hrest.map QueueState.key).nodup hk.nodup
          rw [List.map_append,List.map_cons,List.nodup_append] at hnodup
          exact (List.nodup_cons.mp hnodup.2.1).1 (List.mem_map.mpr ⟨x,hx,hkey.trans hqk.symm⟩)
        · rw [htold,hzero,put_log]
          simp only [weight_awaiting,owes,ended_key,hqk,if_true]
          omega
    · have hzero : owes k (.cancelAllWritten now (ended q .canceled t) post out) = 0 :=
        if_neg (by simpa using hqk)
      refine .of_find ?_ (.inl hlog) (fun h => .inl (hdown h)) ?_ ?_
      · rw [put_store,find_put_ne (by simpa using hqk),hs]
      · rw [htold,weight_awaiting,hzero,put_log]
        simp only [weight_awaiting,told]
        omega
      · rw [weight_awaiting,hzero]
        exact Nat.zero_le _

/-- The record of a delivery that came back is judged. -/
theorem accounts_judged {f f' : Fields} {l : TickLocals} {q : QueueState} {res : Js QueueState}
    (hs : f'.store = f.store) (hlog : deliveries k f'.log = deliveries k f.log)
    (hopen : (∃ q', res = .ok q') → q.key = k → ¬Settled k f)
    (hres : ∀ q', res = .ok q' → q'.key = q.key)
    (hevents : events k f'.log ≤ events k f.log+told k (.attempted l res)) :
    Accounts s k f (.delivering l q) (.awaiting (.attempted l res),f') := by
  refine .of_find (congrArg (·.find k) hs) (.inl hlog) ?_ (by simpa [told,owes] using hevents)
    (Nat.zero_le _)
  cases res with
  | error e => exact fun h => .inl h
  | ok q' =>
    rintro (hkey | hdue)
    · exact .inr (hopen ⟨q',rfl⟩ ((hres q' rfl).symm.trans hkey))
    · exact .inl hdue

theorem accounts_attempted {f : Fields} {l : TickLocals} {q : QueueState}
    (hk : Kept f.store (.attempted l (.ok q)))
    (hfree : Settled k f → ¬Holds s k (.attempted l (.ok q))) :
    Accounts s k f (.attempted l (.ok q)) (.awaiting (.tickWritten l),f.put q) := by
  by_cases hqk : q.key = k
  · have hp : Holds s k (.attempted l (.ok q)) := .inl hqk
    have hfind : (f.put q).store.find k = some q := find_put_self hqk
    refine ⟨.inr hp,.inl rfl,fun h => .inl (.inr h),?_,?_⟩
    · intro hback
      have hn : ¬(q.key = k ∧ isTerminalState q.state = true) := fun hq =>
        hfree (hback ⟨q,hfind,hq.2⟩) hp
      simp [told,owes,if_neg hn]
    · rintro - ⟨x,hx,hterm⟩
      obtain rfl := Option.some.inj (hfind.symm.trans hx)
      refine ⟨⟨q,if_pos hterm,hqk⟩,?_,?_⟩
      · rintro ⟨x,hx,hkey,-⟩
        have hnodup := hk.nodup
        rw [Pending.copies,List.map_cons,List.nodup_cons] at hnodup
        exact hnodup.1 (List.mem_map.mpr ⟨x,hx,hkey.trans hqk.symm⟩)
      · simp [told,owes,hqk,hterm]
  · refine .of_find (find_put_ne hqk) (.inl rfl) (fun h => .inl (.inr h)) ?_ (Nat.zero_le _)
    simp [told,owes,hqk]

theorem accounts_canceled {f : Fields} {envelopeId recipient : JsString} {now : JsDate}
    {stored : Option QueueState}
    (hfree : Settled k f → ¬Holds s k (.cancelRead envelopeId recipient now stored)) :
    Accounts s k f (.cancelRead envelopeId recipient now stored)
      (settle (cancelStored envelopeId recipient now stored) f) := by
  apply cancelStored_cases (C := Accounts s k f _)
  · exact fun r _ => .of_find rfl (.inl rfl) (all_done _ _) (by simp [told,owes]) (Nat.zero_le _)
  · rintro q t rfl hn rfl
    by_cases hqk : q.key = k
    · have hp : Holds s k (.cancelRead envelopeId recipient (some t) (some q)) :=
        ⟨q,by simp,hqk,isOpen_iff.mpr hn⟩
      refine ⟨.inr hp,.inl rfl,fun h => h.elim,?_,?_⟩
      · intro hback
        refine absurd hp (hfree (hback ⟨ended q .canceled t,?_,rfl⟩))
        exact find_put_self (by simpa using hqk)
      · intro _ _
        refine ⟨⟨q,?_,hqk⟩,id,?_⟩
        · simp [Pending.storing,isOpen,hn]
        · simp [told,owes,hqk]
    · refine .of_find (find_put_ne (by simpa using hqk)) (.inl rfl) (fun h => h.elim) ?_ ?_
      · simp [told,owes,hqk]
      · simp [owes,hqk]

theorem accounts_inserted {f : Fields} {envelopeId recipient : JsString}
    {postmarkExpires now : JsDate} {existing : Option QueueState} :
    Accounts s k f (.enqueueRead envelopeId recipient postmarkExpires now existing)
      (settle (s.insert envelopeId recipient postmarkExpires now existing) f) := by
  apply insert_cases (C := Accounts s k f _)
  · exact fun e => .of_find rfl (.inl rfl) (all_done _ _) (by simp [told,owes]) (Nat.zero_le _)
  · rintro q rfl hq
    have hvalid := datesValid_of_newRecord hq
    obtain ⟨t,u,-,-,rfl⟩ := newRecord_eq_ok.mp hq
    by_cases hqk : keyOf envelopeId recipient = k
    · have hfind : (f.store.put ⟨envelopeId,recipient,.queued,0,none,none,none,some (t/1000),u/1000,
          none⟩).find k = some _ := find_put_self hqk
      refine ⟨.inr ⟨hqk,hvalid⟩,.inl rfl,fun h => h.elim,fun _ => ⟨Nat.le_refl _,Nat.le_refl _⟩,?_⟩
      rintro - ⟨x,hx,hterm⟩
      obtain rfl := Option.some.inj (hfind.symm.trans hx)
      cases hterm
    · exact .of_find (find_put_ne hqk) (.inl rfl) (fun h => h.elim) (Nat.le_refl _) (Nat.le_refl _)

theorem accounts_resumed (h : Sound w) {p : Pending} (hi : w.calls[i]? = some ⟨c,.awaiting p⟩)
    {env : Env} (hfree : Settled k w.fields → ¬Holds s k p) (hlate : LateFails w (.resume i env))
    (hheard : TickHeard s w (.resume i env)) :
    Accounts s k w.fields p (resume s env p w.fields) := by
  have hk := h.kept i c p hi
  have hsink := hheard c p hi
  cases p with
  | enqueueRead envelopeId recipient postmarkExpires now existing => exact accounts_inserted
  | enqueueWritten =>
    exact .of_find rfl (.inl rfl) (all_done _ _) (Nat.le_refl _) (Nat.le_refl _)
  | tickRead l =>
    exact accounts_next (l := l) hk hfree rfl (fun x hx hkey ho => ⟨x,hx,hkey,ho⟩) rfl rfl rfl
      (hsink rfl)
  | tickWritten l =>
    exact accounts_next (l := { l with advanced := l.advanced+1 }) hk hfree rfl
      (fun x hx hkey ho => ⟨x,hx,hkey,ho⟩) rfl rfl rfl (hsink rfl)
  | delivering l q =>
    change Accounts s k w.fields _ (.awaiting (.attempted l ((runAttempt s env l.now q).call
      w.fields).1),((runAttempt s env l.now q).call w.fields).2)
    rw [runAttempt_call]
    cases hattempt : env.attempt with
    | error e => exact accounts_judged rfl rfl (by simp) (by simp) (Nat.le_add_right _ _)
    | ok res =>
      have hopen : q.key = k → ¬Settled k w.fields := by
        rintro rfl hs
        obtain ⟨e,he⟩ := hlate c l q hi hs
        rw [hattempt] at he
        cases he
      refine judge_cases (hk.named q List.mem_cons_self) (h.checked i c _ hi).1 res
        (C := fun r => Accounts s k w.fields (.delivering l q)
          (.awaiting (.attempted l r.1),r.2)) ?_ ?_ ?_
      · intro t last state reason _ hstate _
        have hhear : env.heard (s.report (ended (attempt q last res) state t) reason) = .ok () := by
          unfold report
          split
          next hs => exact hsink rfl hs q List.mem_cons_self _ rfl
          next => rfl
        rw [hhear]
        refine accounts_judged (by simp) (deliveries_tell _ _) (fun _ => hopen) ?_ ?_
        · intro q' hq'
          obtain rfl := Except.ok.inj hq'
          rfl
        · have hevents := events_tell (s := s) (k := k) w.fields (ended (attempt q last res) state t)
            reason
          by_cases hqk : q.key = k <;> simpa [Except.map,told,hstate,hqk] using hevents
      · intro last next _ _
        refine accounts_judged rfl rfl (fun _ => hopen) ?_ (Nat.le_add_right _ _)
        intro q' hq'
        obtain rfl := Except.ok.inj hq'
        rfl
      · exact fun e _ => accounts_judged rfl rfl (by simp) (by simp) (Nat.le_add_right _ _)
  | attempted l res =>
    cases res with
    | ok q => exact accounts_attempted hk hfree
    | error e =>
      exact accounts_next (l := { l with firstError := l.firstError.or (some e) }) hk hfree rfl
        (fun x hx hkey ho => ⟨x,hx,hkey,ho⟩) rfl rfl rfl (hsink rfl)
  | cancelRead envelopeId recipient now q => exact accounts_canceled hfree
  | cancelWritten recipient q =>
    have hevents := events_tell (s := s) (k := k) w.fields q
      (some (js "client-initiated cancellation"))
    apply emit_cases (C := Accounts s k w.fields _) (hk.named q List.mem_cons_self)
    · exact fun e => .of_find (by simp) (.inl (deliveries_tell _ _)) (all_done _ _)
        (by simpa [told,owes] using hevents) (Nat.zero_le _)
    · exact .of_find (by simp) (.inl (deliveries_tell _ _)) (all_done _ _)
        (by simpa [told,owes] using hevents) (Nat.zero_le _)
  | cancelAllRead envelopeId now all =>
    exact accounts_matches hk hfree List.filter_sublist
      (fun x hx hkey ho => ⟨x,hx,hkey,ho⟩) rfl rfl rfl rfl (Nat.le_refl _) fun _ => rfl
  | cancelAllWritten now q rest out =>
    have hevents := events_tell (s := s) (k := k) w.fields q
      (some (js "client-initiated whole-envelope cancellation"))
    apply emit_cases (C := Accounts s k w.fields _) (hk.named q List.mem_cons_self)
    · exact fun e => .of_find (by simp) (.inl (deliveries_tell _ _)) (all_done _ _)
        (by simpa [told,owes] using hevents) (Nat.zero_le _)
    · refine accounts_matches hk hfree (List.sublist_cons_self q rest)
        (fun x hx hkey ho => ⟨x,hx,hkey,ho⟩) rfl rfl (by simp) (deliveries_tell _ _) hevents ?_
      rintro ⟨x,hx,hkey⟩
      have hnodup := hk.nodup
      rw [Pending.copies,List.map_cons,List.nodup_cons] at hnodup
      exact if_neg fun hq => hnodup.1 (List.mem_map.mpr ⟨x,hx,hkey.trans hq.symm⟩)

/-- A call that starts holds no record that is terminal. -/
theorem Absorbs.started (h : Absorbs s k w) (c : Call) (env : Env) :
    Absorbs s k (w.started c (start s env c w.fields)) := by
  have hstart {r : Result × Fields} (hs : r.2.store = w.fields.store) (hl : r.2.log = w.fields.log)
      (hr : r.1.All fun p => owes k p = 0 ∧ told k p = 0 ∧ (Settled k w.fields → ¬Holds s k p)) :
      Absorbs s k (w.started c r) := by
    have hset : Settled k (w.started c r).fields ↔ Settled k w.fields :=
      settled_congr (congrArg (·.find k) hs)
    have hlog : (w.started c r).fields.log = w.fields.log := hl
    have hzero : weight (owes k) r.1 = 0 ∧ weight (told k) r.1 = 0 := by
      revert hr
      cases r.1 with
      | done x => exact fun _ => ⟨rfl,rfl⟩
      | awaiting p => exact fun hr => ⟨hr.1,hr.2.1⟩
    refine ⟨fun hk => ?_,fun hk => ?_,fun hk => ?_⟩
    · refine (h.free (hset.mp hk)).started c ?_
      revert hr
      cases r.1 with
      | done x => exact fun _ => trivial
      | awaiting p => exact fun hr => hr.2.2 (hset.mp hk)
    · rw [total_started,hzero.1,hlog]
      exact h.once (hset.mp hk)
    · rw [total_started,total_started,hzero.1,hzero.2,hlog]
      exact h.opened fun hs => hk (hset.mpr hs)
  have hdue (now : JsDate) (q : QueueState) (hq : q ∈ w.fields.store.dueRecords s.engine now)
      (hkey : q.key = k) (hk : Settled k w.fields) : False := by
    obtain ⟨hfind,hdue⟩ := (w.fields.store.mem_dueRecords).mp hq
    obtain ⟨x,hx,hterm⟩ := hk
    obtain rfl : q = x := Option.some.inj ((hkey ▸ hfind).symm.trans hx)
    simp [InMemorySchedulerStore.isDue,hterm] at hdue
  apply start_cases (C := fun r => Absorbs s k (w.started c r))
  case hrefused => exact fun e => hstart rfl rfl (all_done _ _)
  case henqueue =>
    intro envelopeId recipient postmarkExpires _ _ _
    refine hstart rfl rfl ⟨rfl,rfl,?_⟩
    rintro ⟨q,hq,-⟩
    cases hfind : w.fields.store.find (keyOf envelopeId recipient) with
    | some x => exact id
    | none =>
      rintro ⟨rfl,-⟩
      rw [hfind] at hq
      cases hq
  case htick =>
    intro _ _
    refine hstart rfl rfl ⟨rfl,rfl,fun hk => ?_⟩
    rintro ⟨q,hq,hkey,-⟩
    exact hdue _ q hq hkey hk
  case hcancel =>
    intro envelopeId recipient _
    refine hstart rfl rfl ⟨rfl,rfl,?_⟩
    rintro ⟨q,hq,hterm⟩ ⟨x,hx,rfl,hopen⟩
    rw [Option.mem_toList] at hx
    have hkey := w.fields.store.key_of_find hx
    rw [hkey,hx] at hq
    obtain rfl := Option.some.inj hq
    simp [isOpen,hterm] at hopen
  case hcancelAll =>
    intro envelopeId _
    refine hstart rfl rfl ⟨rfl,rfl,fun hk => ?_⟩
    rintro ⟨q,hq,hkey,-⟩
    exact hdue _ q (List.mem_filter.mp hq).1 hkey hk

/-- No step changes, delivers again or reports again a record that is terminal. -/
def Absorbing (s : Scheduler) (ok : World → Act → Prop) : Prop :=
  ∀ w w' k q, Reached s.calls ok World.initial w → Reached s.calls ok w w' →
    w.fields.store.find k = some q → isTerminalState q.state = true →
    w'.fields.store.find k = some q ∧ deliveries k w'.fields.log = deliveries k w.fields.log ∧
      events k w'.fields.log ≤ 1

/-- The runs in which a record is stored as terminal while no other call holds it, a delivery
that comes back too late failed, and the sink takes the events of the ticks. -/
def Exclusive (s : Scheduler) (w : World) (a : Act) : Prop :=
  StoresAlone s w a ∧ LateFails w a ∧ TickHeard s w a

theorem absorbs_step (h : Sound w) (ha : Absorbs s k w) {a : Act} (hok : Exclusive s w a)
    (hs : step s.calls w a = some w') : Absorbs s k w' := by
  revert hok
  refine step_cases (C := fun a w' => Exclusive s w a → Absorbs s k w') hs ?_ ?_
  · exact fun c env _ => ha.started c env
  · intro i env c p hi hok
    exact ha.resumed hi (accounts_resumed h hi (fun hk => ha.free hk i c p hi) hok.2.1 hok.2.2)
      fun q hq => hok.1 c p q hi hq

theorem absorbs_of_reached (h : Reached s.calls (Exclusive s) World.initial w) (k : JsString) :
    Absorbs s k w := by
  have hboth : Sound w ∧ Absorbs s k w := by
    apply h.inv
    · refine ⟨.initial,?_,?_,fun _ => ⟨rfl,Nat.le_refl _⟩⟩
      · rintro ⟨q,hq,-⟩
        cases hq
      · rintro ⟨q,hq,-⟩
        cases hq
    · exact fun u a u' hu hok hs => ⟨sound_step hu.1 hs,absorbs_step hu.1 hu.2 hok hs⟩
  exact hboth.2

/-- A step leaves a record that is terminal as it is and does not deliver it. -/
theorem terminal_step (h : Sound w) (ha : Absorbs s k w) (hk : Settled k w.fields) {a : Act}
    (hok : Exclusive s w a) (hs : step s.calls w a = some w') :
    w'.fields.store.find k = w.fields.store.find k ∧
      deliveries k w'.fields.log = deliveries k w.fields.log := by
  revert hok
  refine step_cases (C := fun a w' => Exclusive s w a → w'.fields.store.find k =
    w.fields.store.find k ∧ deliveries k w'.fields.log = deliveries k w.fields.log) hs ?_ ?_
  · intro c env _
    obtain ⟨hstore,hlog⟩ := start_fields s env c w.fields
    exact ⟨congrArg (·.find k) hstore,congrArg (deliveries k) hlog⟩
  · intro i env c p hi hok
    have hp := ha.free hk i c p hi
    have hacc := accounts_resumed h hi (fun hk => ha.free hk i c p hi) hok.2.1 hok.2.2
    exact ⟨hacc.find.resolve_right hp,hacc.starts.resolve_right hp⟩

theorem absorbing (s : Scheduler) : Absorbing s (Exclusive s) := by
  intro w w' k q hw hw' hq hterm
  have hinv := hw'.inv (I := fun u => Sound u ∧ Absorbs s k u ∧ u.fields.store.find k = some q ∧
    deliveries k u.fields.log = deliveries k w.fields.log)
    ⟨sound_of_reached hw,absorbs_of_reached hw k,hq,rfl⟩ ?_
  · obtain ⟨-,ha,hfind,hlog⟩ := hinv
    have honce := ha.once ⟨q,hfind,hterm⟩
    exact ⟨hfind,hlog,(Nat.le_add_right _ _).trans honce⟩
  · rintro u a u' ⟨hu,ha,hfind,hlog⟩ hok hs
    obtain ⟨hfind',hlog'⟩ := terminal_step hu ha ⟨q,hfind,hterm⟩ hok hs
    exact ⟨sound_step hu hs,absorbs_step hu ha hok hs,hfind'.trans hfind,hlog'.trans hlog⟩

namespace Sample

/-- The record is canceled while its delivery is awaited. -/
def cancelInFlight : List Act :=
  [.start (.cancel (js "e") (js "r")) (env 1500),.resume 2 (env 1500)]

theorem cancelInFlight_runs : (run scheduler.calls delivering cancelInFlight).isSome := by
  decide +kernel

def canceled : World := (run scheduler.calls delivering cancelInFlight).get cancelInFlight_runs

/-- The delivery comes back. -/
def comesBack : List Act := [.resume 1 (env 1500),.resume 1 (env 1500)]

theorem canceled_evaluated : (run scheduler.calls canceled comesBack).isSome ∧
    ((canceled.fields.store.find key).map QueueState.state) = some .canceled := by decide +kernel

theorem comesBack_runs : (run scheduler.calls canceled comesBack).isSome := canceled_evaluated.1

theorem canceled_record : ((canceled.fields.store.find key).map QueueState.state) =
    some .canceled := canceled_evaluated.2

theorem overwritten : (((run scheduler.calls canceled comesBack).get
    comesBack_runs).fields.store.find key).map QueueState.state = some .delivered := by
  decide +kernel

end Sample

theorem not_absorbing : ¬ Absorbing Sample.scheduler fun _ _ => True := by
  intro h
  obtain ⟨q,hq,hstate⟩ := Option.map_eq_some_iff.mp Sample.canceled_record
  have hreach : Reached Sample.scheduler.calls (fun _ _ => True) World.initial Sample.canceled :=
    (reached_get Sample.toDelivery_runs fun _ _ _ => trivial).trans
      (reached_get Sample.cancelInFlight_runs fun _ _ _ => trivial)
  obtain ⟨hfind,-⟩ := h Sample.canceled _ Sample.key q hreach
    (reached_get Sample.comesBack_runs fun _ _ _ => trivial) hq (by rw [hstate]; rfl)
  have hover := Sample.overwritten
  rw [hfind,Option.map_some,hstate] at hover
  cases hover

end Absorption

end Scheduler
end Semp
