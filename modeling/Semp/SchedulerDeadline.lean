import Semp.SchedulerSafety

/-! Deadlines, in the runs whose calls do not overlap: a tick leaves no record queued whose
deadline it has passed, delivers none, and schedules no attempt after the deadline. -/
namespace Semp
namespace Scheduler
open Tasks Method

def Call.Submits : Call → Prop
  | .enqueue .. | .tick => True
  | _ => False

/-- The callbacks do not throw. -/
structure Env.Quiet (env : Env) : Prop where
  attempt : ∃ res, env.attempt = .ok res
  sink : ∀ ev, env.sink ev = .ok ()

/-- The runs of `enqueue` and `tick` in which a call starts when the one before it has ended and
the clock does not go back, with its last reading. -/
inductive InTurn (s : Scheduler) : ℤ → World → Prop
  | initial (t : ℤ) : InTurn s t World.initial
  | start {t t' : ℤ} {w : World} {c : Call} {env : Env} (h : InTurn s t w) (hidle : Idle w)
    (hc : c.Submits) (ht : t ≤ t') (hnow : env.now = some t') :
    InTurn s t' (w.started c (start s env c w.fields))
  | resume {t : ℤ} {w w' : World} {i : ℕ} {env : Env} (h : InTurn s t w) (hq : env.Quiet)
    (hs : step s.calls w (.resume i env) = some w') : InTurn s t w'

/-- The clock reading of a tick, at its start. -/
def Pending.reading : Pending → JsDate
  | .tickRead l | .tickWritten l | .attempted l _ | .delivering l _ => l.now
  | _ => none

/-- When the next attempt of a waiting record is: at once for a new one, and up to the deadline
for one that was attempted. -/
def Scheduled (t : ℤ) (q : QueueState) : Prop :=
  isOpen q = true → ∃ n, q.next_attempt_at = some n ∧ (q.attempts = 0 → n*1000 ≤ t) ∧
    (q.attempts ≠ 0 → n ≤ q.deadline)

/-- What a tick still has to go through: the stored records whose deadline has passed. -/
structure Covers (t : ℤ) (f : Fields) (l : TickLocals) : Prop where
  now : l.now = some t
  stored : ∀ q ∈ l.due, f.store.find q.key = some q ∧ isOpen q = true
  rest : ∀ k q, f.store.find k = some q → isOpen q = true → q.deadline*1000 ≤ t → q ∈ l.due

/-- How the copies of the one call that waits agree with the store. -/
def Fits (t : ℤ) (f : Fields) : Pending → Prop
  | .enqueueRead envelopeId recipient _ now existing =>
    now = some t ∧ existing = f.store.find (keyOf envelopeId recipient)
  | .enqueueWritten => True
  | .tickRead l | .tickWritten l | .attempted l (.error _) => Covers t f l
  | .delivering l q => Covers t f l ∧ f.store.find q.key = some q ∧ t < q.deadline*1000
  | .attempted l (.ok q) => Covers t f l ∧ Scheduled t q ∧ t < q.deadline*1000 ∧
    ∃ x, f.store.find q.key = some x ∧ x.deadline = q.deadline
  | _ => False

/-- A delivery was started before the deadline of its record. -/
def InTime (f : Fields) : Prop :=
  ∀ now q, Entry.deliver now q ∈ f.log → ∃ x u, f.store.find q.key = some x ∧
    x.deadline = q.deadline ∧ now = some u ∧ u < x.deadline*1000

structure Timely (t : ℤ) (w : World) : Prop where
  sound : Sound w
  alone : total (fun _ => 1) w ≤ 1
  scheduled : ∀ k q, w.fields.store.find k = some q → Scheduled t q
  inTime : InTime w.fields
  fits : Every (fun _ p => Fits t w.fields p) w

section Steps
variable {s : Scheduler} {w w' : World} {i : ℕ} {c : Call} {t t' : ℤ} {f f' : Fields}
  {q : QueueState} {l : TickLocals}

theorem Scheduled.mono (h : Scheduled t q) (ht : t ≤ t') : Scheduled t' q := by
  intro ho
  obtain ⟨n,hn,h0,h1⟩ := h ho
  exact ⟨n,hn,fun ha => (h0 ha).trans ht,h1⟩

/-- A waiting record is due once its deadline has passed. -/
theorem Scheduled.isDue (h : Scheduled t q) (ho : isOpen q = true) (ht : t ≤ t')
    (hd : q.deadline*1000 ≤ t') : InMemorySchedulerStore.isDue (some t') q = true := by
  obtain ⟨n,hn,h0,h1⟩ := h ho
  have hle : n*1000 ≤ t' := by
    by_cases ha : q.attempts = 0
    · exact (h0 ha).trans ht
    · have := h1 ha
      omega
  have hopen : (!isTerminalState q.state) = true := ho
  simp [InMemorySchedulerStore.isDue,hopen,hn,JsDate.parse,JsDate.le,hle]

theorem InTime.of_store (h : InTime f) (hs : f'.store = f.store)
    (hl : ∀ now q, Entry.deliver now q ∈ f'.log → Entry.deliver now q ∈ f.log) : InTime f' := by
  intro now q hq
  rw [hs]
  exact h now q (hl now q hq)

/-- A record that keeps its deadline. -/
theorem InTime.put (h : InTime f) (hx : ∀ x, f.store.find q.key = some x →
    x.deadline = q.deadline) : InTime (f.put q) := by
  intro now x hmem
  obtain ⟨y,u,hy,hd,hu,hlt⟩ := h now x hmem
  by_cases hk : q.key = x.key
  · have := hx y (hk ▸ hy)
    exact ⟨q,u,find_put_self hk,by omega,hu,by omega⟩
  · exact ⟨y,u,(find_put_ne hk).trans hy,hd,hu,hlt⟩

theorem mem_log_tell {ev : Option SubmissionEvent} {now : JsDate} {q : QueueState}
    (h : Entry.deliver now q ∈ (f.tell ev).log) : Entry.deliver now q ∈ f.log := by
  rw [tell_log,List.mem_append] at h
  refine h.resolve_right ?_
  cases ev <;> simp

theorem Covers.of_store (h : Covers t f l) (hs : f'.store = f.store) : Covers t f' l where
  now := h.now
  stored := hs ▸ h.stored
  rest := hs ▸ h.rest

theorem Timely.resumed (h : Timely t w) {p : Pending} (hi : w.calls[i]? = some ⟨c,.awaiting p⟩)
    {env : Env} {r : Result × Fields} (hr : resume s env p w.fields = r)
    (hscheduled : ∀ k q, r.2.store.find k = some q → Scheduled t q) (hin : InTime r.2)
    (hfits : r.1.All (Fits t r.2)) : Timely t (w.resumed i c r) where
  sound := hr ▸ sound_resumed h.sound hi env
  alone := by
    have ht := total_resumed (fun _ => 1) r hi
    have hle : weight (fun _ => 1) r.1 ≤ 1 := by cases r.1 <;> simp
    have := h.alone
    omega
  scheduled := hscheduled
  inTime := hin
  fits := every_resumed_of_alone h.alone hi hfits

/-- A call that leaves the store as it is. -/
theorem Timely.quiet (h : Timely t w) {p : Pending} (hi : w.calls[i]? = some ⟨c,.awaiting p⟩)
    {env : Env} {r : Result × Fields} (hr : resume s env p w.fields = r)
    (hs : r.2.store = w.fields.store)
    (hl : ∀ now q, Entry.deliver now q ∈ r.2.log → Entry.deliver now q ∈ w.fields.log)
    (hfits : r.1.All (Fits t r.2)) : Timely t (w.resumed i c r) :=
  h.resumed hi hr (hs ▸ h.scheduled) (h.inTime.of_store hs hl) hfits

/-- A write of a record that keeps its deadline. -/
theorem Timely.put (h : Timely t w) {p : Pending} (hi : w.calls[i]? = some ⟨c,.awaiting p⟩)
    {env : Env} {stage : Result} (hs : f.store = w.fields.store)
    (hl : ∀ now q, Entry.deliver now q ∈ f.log → Entry.deliver now q ∈ w.fields.log)
    (hr : resume s env p w.fields = (stage,f.put q)) (hq : Scheduled t q)
    (hd : ∀ x, w.fields.store.find q.key = some x → x.deadline = q.deadline)
    (hfits : stage.All (Fits t (f.put q))) : Timely t (w.resumed i c (stage,f.put q)) := by
  refine h.resumed hi hr ?_ ?_ hfits
  · intro k x hx
    change (f.store.put q).find k = some x at hx
    rw [InMemorySchedulerStore.find_put] at hx
    split at hx
    · obtain rfl := Option.some.inj hx
      exact hq
    · exact h.scheduled k x (hs ▸ hx)
  · exact (h.inTime.of_store hs hl).put (hs ▸ hd)

/-- The stage a tick comes to is the one of its first record, whose event is taken. -/
theorem next_cases {env : Env} (hq : env.Quiet) (hc : Covers t f l)
    (hn : ∀ q ∈ l.due, Named q) {C : Result × Fields → Prop}
    (hdone : ∀ x, l.due = [] → C (.done x,{ f with tickInFlight := false }))
    (hexpire : ∀ q due firstError, l.due = q::due → q.deadline*1000 ≤ t →
      C (.awaiting (.tickWritten ⟨l.now,due,l.advanced,firstError⟩),
        (f.tell (s.report (ended q .expired t) none)).put (ended q .expired t)))
    (hdeliver : ∀ q due firstError, l.due = q::due → t < q.deadline*1000 →
      C (.awaiting (.delivering ⟨l.now,due,l.advanced,firstError⟩ q),f.note (.deliver l.now q))) :
    C (l.next s env f) := by
  refine processDue_cases (C := C) (P := fun due f' => f' = f ∧ due = l.due) ?_ ?_ ?_ ?_ ?_
    l.due hn l.firstError f ⟨rfl,rfl⟩
  · rintro q due f' ⟨-,hdue⟩ hterm
    have ho := (hc.stored q (hdue ▸ List.mem_cons_self)).2
    simp [isOpen,hterm] at ho
  · rintro q due f' u ev - - - - - hne
    exact absurd (hq.sink ev) hne
  · rintro firstError f' ⟨rfl,hdue⟩
    exact hdone _ hdue.symm
  · rintro q due f' u firstError ⟨rfl,hdue⟩ - hnow hle -
    obtain rfl : t = u := Option.some.inj (hc.now.symm.trans hnow)
    exact hexpire q due firstError hdue.symm hle
  · rintro q due f' firstError ⟨rfl,hdue⟩ - hlt
    refine hdeliver q due firstError hdue.symm ?_
    by_contra hge
    rw [hc.now] at hlt
    simp [JsDate.le,JsDate.parse] at hlt
    omega

/-- A write of the record that is not to be gone through any more. -/
theorem covers_put {x : QueueState} (hnow : l.now = some t)
    (hstored : ∀ y ∈ l.due, f.store.find y.key = some y ∧ isOpen y = true)
    (hne : x.key ∉ l.due.map QueueState.key)
    (hrest : ∀ k y, f.store.find k = some y → isOpen y = true → y.deadline*1000 ≤ t →
      x.key = k ∨ y ∈ l.due)
    (hx : isOpen x = true → t < x.deadline*1000) (hs : f'.store = f.store) :
    Covers t (f'.put x) l where
  now := hnow
  stored y hy := by
    rw [put_store,find_put_ne fun he => hne (List.mem_map.mpr ⟨y,hy,he.symm⟩),hs]
    exact hstored y hy
  rest k y hy ho hd := by
    by_cases hk : x.key = k
    · rw [put_store,find_put_self hk] at hy
      obtain rfl := Option.some.inj hy
      have := hx ho
      omega
    · rw [put_store,find_put_ne hk,hs] at hy
      exact (hrest k y hy ho hd).resolve_left hk

theorem ended_not_open {state : QueueRecordState} (hs : isTerminalState state = true) (u : ℤ) :
    isOpen (ended q state u) = false := by
  simp [isOpen,hs]

theorem timely_next (h : Timely t w) {p : Pending} (hi : w.calls[i]? = some ⟨c,.awaiting p⟩)
    {env : Env} (hq : env.Quiet) (hr : resume s env p w.fields = l.next s env w.fields)
    (hl : p.copies = l.due) (hc : Covers t w.fields l) :
    Timely t (w.resumed i c (resume s env p w.fields)) := by
  have hk := h.sound.kept i c p hi
  have hnodup : (l.due.map QueueState.key).Nodup := hl ▸ hk.nodup
  rw [hr]
  revert hr
  refine next_cases (C := fun r => resume s env p w.fields = r → Timely t (w.resumed i c r)) hq hc
    (fun q hq => hk.named q (hl ▸ hq)) ?_ ?_ ?_
  · exact fun x _ hx => h.quiet hi hx rfl (fun _ _ => id) (all_done _ _)
  · intro q due firstError hdue hle hx
    have hstored := (hc.stored q (hdue ▸ List.mem_cons_self)).1
    refine h.put hi (by simp) (fun _ _ => mem_log_tell) hx ?_ ?_ ?_
    · intro ho
      rw [ended_not_open rfl] at ho
      cases ho
    · intro x hx
      rw [ended_key] at hx
      obtain rfl := Option.some.inj (hstored.symm.trans hx)
      rfl
    · rw [hdue,List.map_cons,List.nodup_cons] at hnodup
      refine covers_put (f := w.fields) hc.now ?_ hnodup.1 ?_ ?_ (by simp)
      · exact fun y hy => hc.stored y (hdue ▸ List.mem_cons_of_mem _ hy)
      · intro k y hy ho hd
        have hmem := hc.rest k y hy ho hd
        rw [hdue] at hmem
        rcases List.mem_cons.mp hmem with rfl | hmem
        · exact .inl ((ended_key y .expired t).trans (w.fields.store.key_of_find hy))
        · exact .inr hmem
      · intro ho
        rw [ended_not_open rfl] at ho
        cases ho
  · intro q due firstError hdue hlt hx
    have hstored := (hc.stored q (hdue ▸ List.mem_cons_self)).1
    refine h.resumed hi hx h.scheduled ?_ ⟨⟨hc.now,?_,?_⟩,hstored,hlt⟩
    · intro now y hy
      rw [note_log,List.mem_append] at hy
      rcases hy with hy | hy
      · exact h.inTime now y hy
      · obtain ⟨rfl,rfl⟩ : now = l.now ∧ y = q := by simpa using hy
        exact ⟨y,t,hstored,rfl,hc.now,hlt⟩
    · exact fun y hy => hc.stored y (hdue ▸ List.mem_cons_of_mem _ hy)
    · intro k y hy ho hd
      have hmem := hc.rest k y hy ho hd
      rw [hdue] at hmem
      rcases List.mem_cons.mp hmem with rfl | hmem
      · omega
      · exact hmem

theorem timely_judged (h : Timely t w)
    (hi : w.calls[i]? = some ⟨c,.awaiting (.delivering l q)⟩) {env : Env} (hq : env.Quiet) :
    Timely t (w.resumed i c (resume s env (.delivering l q) w.fields)) := by
  obtain ⟨hc,hstored,hlt⟩ := h.fits i c _ hi
  have hk := h.sound.kept i c _ hi
  obtain ⟨res,hres⟩ := hq.attempt
  have hr : resume s env (.delivering l q) w.fields = (.awaiting (.attempted l
      ((judge s env l.now q res).call w.fields).1),((judge s env l.now q res).call w.fields).2) := by
    have hrun : (runAttempt s env l.now q).call w.fields = _ := runAttempt_call
    rw [hres] at hrun
    exact congrArg (fun x => (Stage.awaiting (Pending.attempted l x.1),x.2)) hrun
  rw [hr]
  revert hr
  refine judge_cases (C := fun r => resume s env (.delivering l q) w.fields =
    (.awaiting (.attempted l r.1),r.2) → Timely t (w.resumed i c (.awaiting (.attempted l r.1),r.2)))
    (hk.named q List.mem_cons_self) (h.sound.checked i c _ hi).1 res ?_ ?_ ?_
  · intro u last state reason _ hstate _ hr
    have hheard : env.heard (s.report (ended (attempt q last res) state u) reason) = .ok () := by
      cases s.report (ended (attempt q last res) state u) reason with
      | none => rfl
      | some ev => exact hq.sink ev
    rw [hheard] at hr ⊢
    refine h.quiet hi hr (by simp) (fun _ _ => mem_log_tell) ⟨hc.of_store (by simp),?_,hlt,q,?_,rfl⟩
    · intro ho
      rw [ended_not_open hstate] at ho
      cases ho
    · simpa using hstored
  · intro last next _ hle hr
    refine h.quiet hi hr rfl (fun _ _ => id) ⟨hc,?_,hlt,q,hstored,rfl⟩
    intro _
    exact ⟨next,rfl,fun h0 => by simp [attempt] at h0,fun _ => hle⟩
  · exact fun e _ hr => h.quiet hi hr rfl (fun _ _ => id) hc

theorem timely_resumed (h : Timely t w) {p : Pending} (hi : w.calls[i]? = some ⟨c,.awaiting p⟩)
    {env : Env} (hq : env.Quiet) : Timely t (w.resumed i c (resume s env p w.fields)) := by
  have hfits := h.fits i c p hi
  have hk := h.sound.kept i c p hi
  cases p with
  | enqueueRead envelopeId recipient postmarkExpires now existing =>
    obtain ⟨rfl,rfl⟩ := hfits
    obtain ⟨p,hp⟩ : ∃ p, p = Pending.enqueueRead envelopeId recipient postmarkExpires (some t)
      (w.fields.store.find (keyOf envelopeId recipient)) := ⟨_,rfl⟩
    rw [← hp] at hi ⊢
    have hr : resume s env p w.fields = settle (s.insert envelopeId recipient postmarkExpires
      (some t) (w.fields.store.find (keyOf envelopeId recipient))) w.fields := by rw [hp]; rfl
    rw [hr]
    revert hr
    refine insert_cases (C := fun r => resume s env p w.fields = r → Timely t (w.resumed i c r))
      ?_ ?_
    · exact fun e hr => h.quiet hi hr rfl (fun _ _ => id) (all_done _ _)
    · intro q habsent hrecord hr
      obtain ⟨u,d,hu,-,rfl⟩ := newRecord_eq_ok.mp hrecord
      obtain rfl := Option.some.inj hu
      refine h.put hi rfl (fun _ _ => id) hr ?_ ?_ trivial
      · exact fun _ => ⟨_,rfl,fun _ => JsDate.second_le t,fun hne => absurd rfl hne⟩
      · intro x hx
        cases habsent.symm.trans hx
  | enqueueWritten => exact h.quiet hi rfl rfl (fun _ _ => id) (all_done _ _)
  | tickRead l => exact timely_next h hi hq rfl rfl hfits
  | tickWritten l =>
    exact timely_next (l := { l with advanced := l.advanced+1 }) h hi hq rfl rfl
      ⟨hfits.now,hfits.stored,hfits.rest⟩
  | delivering l q => exact timely_judged h hi hq
  | attempted l res =>
    cases res with
    | ok q =>
      obtain ⟨hc,hscheduled,hlt,x,hx,hd⟩ := hfits
      have hnodup := hk.nodup
      rw [Pending.copies,List.map_cons,List.nodup_cons] at hnodup
      have hr : resume s env (.attempted l (.ok q)) w.fields =
        (.awaiting (.tickWritten l),w.fields.put q) := rfl
      refine h.put hi rfl (fun _ _ => id) hr hscheduled ?_ ?_
      · intro y hy
        obtain rfl := Option.some.inj (hx.symm.trans hy)
        exact hd
      · exact covers_put hc.now hc.stored hnodup.1 (fun k y hy ho hd => .inr (hc.rest k y hy ho hd))
          (fun _ => hlt) rfl
    | error e =>
      exact timely_next (l := { l with firstError := l.firstError.or (some e) }) h hi hq rfl rfl
        ⟨hfits.now,hfits.stored,hfits.rest⟩
  | cancelRead => exact hfits.elim
  | cancelWritten => exact hfits.elim
  | cancelAllRead => exact hfits.elim
  | cancelAllWritten => exact hfits.elim

theorem timely_started (h : Timely t w) (hidle : Idle w) {env : Env} (hc : c.Submits)
    (ht : t ≤ t') (hnow : env.now = some t') :
    Timely t' (w.started c (start s env c w.fields)) := by
  have hstart {r : Result × Fields} (hr : start s env c w.fields = r)
      (hfits : r.1.All (Fits t' r.2)) : Timely t' (w.started c r) := by
    obtain ⟨hstore,hlog⟩ := start_fields s env c w.fields
    rw [hr] at hstore hlog
    refine ⟨hr ▸ sound_started h.sound c env,?_,?_,?_,?_⟩
    · have hzero := (total_eq_zero (fun _ => 1)).mpr fun i c p hi => (hidle i c p hi).elim
      rw [total_started,hzero]
      cases r.1 <;> simp
    · intro k q hq
      exact (h.scheduled k q (hstore ▸ hq)).mono ht
    · exact h.inTime.of_store hstore fun now q hq => hlog ▸ hq
    · exact (hidle.mono fun _ _ => False.elim).started c hfits
  refine start_cases (C := fun r => start s env c w.fields = r → Timely t' (w.started c r))
    ?_ ?_ ?_ ?_ ?_ rfl
  · exact fun e hr => hstart hr (all_done _ _)
  · exact fun _ _ _ _ _ _ hr => hstart hr ⟨hnow,rfl⟩
  · intro _ _ hr
    refine hstart hr ⟨hnow,?_,?_⟩
    · intro q hq
      obtain ⟨hfind,hdue⟩ := (w.fields.store.mem_dueRecords).mp hq
      unfold InMemorySchedulerStore.isDue at hdue
      exact ⟨hfind,(Bool.and_eq_true _ _ ▸ hdue).1⟩
    · intro k q hq ho hd
      have hkey : q.key = k := w.fields.store.key_of_find hq
      rw [hnow]
      refine (w.fields.store.mem_dueRecords).mpr ⟨hkey ▸ hq,?_⟩
      exact (h.scheduled k q hq).isDue ho ht hd
  · rintro envelopeId recipient rfl
    exact hc.elim
  · rintro envelopeId rfl
    exact hc.elim

theorem timely_of_inTurn (h : InTurn s t w) : Timely t w := by
  induction h with
  | initial t =>
    refine ⟨.initial,Nat.zero_le _,?_,?_,?_⟩
    · exact fun k q hq => by cases hq
    · exact fun now q hq => by cases hq
    · exact fun i c p hi => by simp [World.initial] at hi
  | start _ hidle hc ht hnow ih => exact timely_started ih hidle hc ht hnow
  | resume _ hq hs ih =>
    obtain ⟨c,p,hi,rfl⟩ := step_resume.mp hs
    exact timely_resumed ih hi hq

/-- The tick that ends has left no record that waits past its deadline. -/
theorem swept_next {env : Env} (hq : env.Quiet) (hc : Covers t f l) (hn : ∀ q ∈ l.due, Named q) :
    (∃ x, (l.next s env f).1 = .done x) → ∀ k q, (l.next s env f).2.store.find k = some q →
      isOpen q = true → t < q.deadline*1000 := by
  refine next_cases (C := fun r => (∃ x, r.1 = .done x) → ∀ k q, r.2.store.find k = some q →
    isOpen q = true → t < q.deadline*1000) hq hc hn ?_ ?_ ?_
  · intro _ hdue _ k q hfind ho
    by_contra hge
    have hmem := hc.rest k q hfind ho (by omega)
    rw [hdue] at hmem
    cases hmem
  · rintro q due firstError - - ⟨x,hx⟩
    cases hx
  · rintro q due firstError - - ⟨x,hx⟩
    cases hx

/-- The three laws of deadlines. -/
structure DeadlineSafe (s : Scheduler) (w : World) : Prop where
  /-- A tick that ends leaves no queued record whose deadline is at or before its reading. -/
  swept : ∀ i c p env w' x t, w.calls[i]? = some ⟨c,.awaiting p⟩ → p.reading = some t →
    env.Quiet → step s.calls w (.resume i env) = some w' →
    w'.calls[i]? = some ⟨c,.done x⟩ → ∀ k q, w'.fields.store.find k = some q →
    q.state = .queued → t < q.deadline*1000
  /-- A delivery is started by a tick whose reading is before the record's deadline. -/
  inTime : InTime w.fields
  /-- The next attempt of a queued record that was attempted is not after its deadline. -/
  scheduled : ∀ k q, w.fields.store.find k = some q → q.state = .queued → q.attempts ≠ 0 →
    ∃ n, q.next_attempt_at = some n ∧ n ≤ q.deadline

theorem swept (h : Timely t w) {p : Pending} (hi : w.calls[i]? = some ⟨c,.awaiting p⟩) {u : ℤ}
    (hp : p.reading = some u) {env : Env} (hq : env.Quiet) {x : Js Returned}
    (hdone : (resume s env p w.fields).1 = .done x) {k : JsString}
    (hfind : (resume s env p w.fields).2.store.find k = some q) (ho : isOpen q = true) :
    u < q.deadline*1000 := by
  have hfits := h.fits i c p hi
  have hk := h.sound.kept i c p hi
  have hnext {l : TickLocals} (hc : Covers t w.fields l) (hl : l.now = p.reading)
      (hn : ∀ q ∈ l.due, Named q) (hr : resume s env p w.fields = l.next s env w.fields) :
      u < q.deadline*1000 := by
    obtain rfl : t = u := Option.some.inj (hc.now.symm.trans (hl.trans hp))
    rw [hr] at hdone hfind
    exact swept_next hq hc hn ⟨x,hdone⟩ k q hfind ho
  cases p with
  | tickRead l => exact hnext hfits rfl hk.named rfl
  | tickWritten l =>
    exact hnext (l := { l with advanced := l.advanced+1 }) ⟨hfits.now,hfits.stored,hfits.rest⟩ rfl
      hk.named rfl
  | attempted l res =>
    cases res with
    | ok q => cases hdone
    | error e =>
      exact hnext (l := { l with firstError := l.firstError.or (some e) })
        ⟨hfits.now,hfits.stored,hfits.rest⟩ rfl hk.named rfl
  | delivering l q => cases hdone
  | _ => cases hp

theorem isOpen_of_queued (h : q.state = .queued) : isOpen q = true := by
  rw [isOpen,h]
  rfl

theorem deadlineSafe_of_inTurn (h : InTurn s t w) : DeadlineSafe s w where
  swept := by
    intro i c p env w' x u hi hp hq hs hdone k q hfind hstate
    obtain ⟨c',p',hi',rfl⟩ := step_resume.mp hs
    obtain ⟨rfl,rfl⟩ : c = c' ∧ p = p' := by simpa [hi] using hi'
    rw [World.resumed,List.getElem?_set_self (List.getElem?_eq_some_iff.mp hi).1] at hdone
    have hstage : (resume s env p w.fields).1 = .done x :=
      (Tasks.Call.mk.inj (Option.some.inj hdone)).2
    exact swept (timely_of_inTurn h) hi hp hq hstage hfind (isOpen_of_queued hstate)
  inTime := (timely_of_inTurn h).inTime
  scheduled k q hq hstate hne := by
    obtain ⟨n,hn,-,hle⟩ := (timely_of_inTurn h).scheduled k q hq (isOpen_of_queued hstate)
    exact ⟨n,hn,hle hne⟩

/-- The rest of a call, up to its end. -/
theorem InTurn.resumes (h : InTurn s t w) {as : List Act} (hrun : (run s.calls w as).isSome)
    (has : ∀ a ∈ as, ∃ i env, a = .resume i env ∧ env.Quiet) :
    InTurn s t ((run s.calls w as).get hrun) := by
  induction as generalizing w with
  | nil => exact h
  | cons a as ih =>
    obtain ⟨i,env,rfl,hq⟩ := has a List.mem_cons_self
    obtain ⟨w',hw'⟩ := Option.isSome_iff_exists.mp hrun
    obtain ⟨mid,hs,hr⟩ := Option.bind_eq_some_iff.mp hw'
    have hmid := ih (h.resume hq hs) (by rw [show run s.calls mid as = some w' from hr]; rfl)
      fun b hb => has b (List.mem_cons_of_mem _ hb)
    have heq : run s.calls w (.resume i env::as) = run s.calls mid as := by
      rw [show run s.calls mid as = some w' from hr]
      exact hw'
    simp only [heq]
    exact hmid

end Steps

namespace Sample

theorem quiet (t : ℤ) : (env t).Quiet := ⟨⟨_,rfl⟩,fun _ => rfl⟩

/-- The record is stored. -/
def stored : World := (run scheduler.calls first rest).get rest_runs

def late : World := stored.started .tick (scheduler.start (env 200000) .tick stored.fields)

/-- The tick finds the deadline passed and ends. -/
def sweep : List Act := [.resume 1 (env 200000),.resume 1 (env 200000)]

theorem sweep_runs : (run scheduler.calls late sweep).isSome := by decide +kernel

def sweptWorld : World := (run scheduler.calls late sweep).get sweep_runs

theorem sweep_expires : ((sweptWorld.fields.store.find key).map QueueState.state) =
    some .expired := by decide +kernel

end Sample

theorem deadlineSafe_sample : ((Sample.sweptWorld.fields.store.find Sample.key).map
    QueueState.state) = some .expired ∧ DeadlineSafe Sample.scheduler Sample.sweptWorld := by
  have hfirst : InTurn Sample.scheduler 0 Sample.first := by
    refine InTurn.start (.initial 0) ?_ trivial (Int.le_refl 0) rfl
    exact fun i c p hi => by simp [World.initial] at hi
  have hstored : InTurn Sample.scheduler 0 Sample.stored := by
    refine hfirst.resumes Sample.rest_runs ?_
    intro a ha
    obtain rfl : a = .resume 0 (Sample.env 0) := by simpa [Sample.rest] using ha
    exact ⟨_,_,rfl,Sample.quiet 0⟩
  have hlate : InTurn Sample.scheduler 200000 Sample.late :=
    hstored.start (idle_of_all (by decide +kernel)) trivial (by decide) rfl
  refine ⟨Sample.sweep_expires,deadlineSafe_of_inTurn (hlate.resumes Sample.sweep_runs ?_)⟩
  intro a ha
  obtain rfl : a = .resume 1 (Sample.env 200000) := by simpa [Sample.sweep] using ha
  exact ⟨_,_,rfl,Sample.quiet 200000⟩

end Scheduler
end Semp
