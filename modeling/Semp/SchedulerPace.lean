import Mathlib.Data.List.Chain
import Semp.RetryJitter
import Semp.SchedulerSafety

/-! The pace of the retries: the ticks that deliver one record one after the other read the
clock 30 seconds apart, as long as every attempt puts its record back. -/
namespace Semp
namespace Scheduler
open Tasks Method

/-- The attempt puts its record back: the delivery returns, the sink takes the event of a record
that ends, and one that waits does so for 30 seconds, by the second its next attempt is cut to. -/
def PutsBack (s : Scheduler) (env : Env) (t : ℤ) (q : QueueState) (res : AttemptResult) : Prop :=
  match verdict s env t q res with
  | .ends state reason =>
    env.heard (s.report (ended (attempt q (t/1000) res) state t) reason) = .ok ()
  | .waits next => ∃ u, next = some u ∧ t+30000 ≤ u/1000*1000

/-- What the clock read in the ticks that delivered the record of the key. -/
def readings (k : JsString) (log : List Entry) : List JsDate :=
  log.filterMap fun
    | .deliver now q => if q.key = k then some now else none
    | .event _ => none

/-- At least 30 seconds apart. -/
def Spaced (a b : JsDate) : Prop := ∃ t u, a = some t ∧ b = some u ∧ t+30000 ≤ u

/-- Each delivery of the record is spaced from the one before it. -/
def Paced (k : JsString) (f : Fields) : Prop := (readings k f.log).IsChain Spaced

/-- A delivery puts its record back. -/
def Restores (s : Scheduler) (w : World) : Act → Prop
  | .start .. => True
  | .resume i env => ∀ c l q, w.calls[i]? = some ⟨c,.awaiting (.delivering l q)⟩ →
    ∃ res t, env.attempt = .ok res ∧ l.now = some t ∧ PutsBack s env t q res

/-- A record that waits does so until 30 seconds after its last delivery. -/
def Rests (rs : List JsDate) (q : QueueState) : Prop :=
  isOpen q = true → ∀ r ∈ rs.getLast?, ∃ n, q.next_attempt_at = some n ∧ Spaced r (JsDate.parse n)

/-- A tick that may still deliver the record does so 30 seconds after its last delivery. -/
def Coming (k : JsString) (rs : List JsDate) (l : TickLocals) : Prop :=
  (∃ x ∈ l.due, x.key = k) → ∀ r ∈ rs.getLast?, Spaced r l.now

/-- What a waiting call may do to the record of the key. -/
def Paces (k : JsString) (rs : List JsDate) : Pending → Prop
  | .tickRead l | .tickWritten l | .attempted l (.error _) => Coming k rs l
  | .delivering l q => Coming k rs l ∧ (q.key = k → rs.getLast? = some l.now)
  | .attempted l (.ok q) => Coming k rs l ∧ (q.key = k → Rests rs q)
  | _ => True

/-- One for a tick between the delivery of the record and its write. -/
def holding (k : JsString) : Pending → ℕ
  | .delivering _ q | .attempted _ (.ok q) => if q.key = k then 1 else 0
  | _ => 0

structure Pace (k : JsString) (w : World) : Prop where
  paced : Paced k w.fields
  known : readings k w.fields.log ≠ [] → w.fields.store.find k ≠ none
  rests : total (holding k) w = 0 → ∀ q, w.fields.store.find k = some q →
    Rests (readings k w.fields.log) q
  paces : Every (fun _ => Paces k (readings k w.fields.log)) w

section Runs
variable {s : Scheduler} {env : Env} {w w' : World} {i : ℕ} {c : Call} {k : JsString}
  {f f' : Fields} {q : QueueState} {p : Pending} {l : TickLocals}

theorem readings_deliver (log : List Entry) (now : JsDate) (q : QueueState) :
    readings k (log++[.deliver now q]) = readings k log++if q.key = k then [now] else [] := by
  rw [readings,List.filterMap_append]
  congr 1
  split_ifs with h <;> simp [h]

theorem readings_tell (f : Fields) (ev : Option SubmissionEvent) :
    readings k (f.tell ev).log = readings k f.log := by
  rw [tell_log,readings,List.filterMap_append]
  cases ev <;> simp [readings]

theorem rests_ended {state : QueueRecordState} (hs : isTerminalState state = true) (t : ℤ)
    (rs : List JsDate) : Rests rs (ended q state t) := by
  intro ho
  simp [isOpen,hs] at ho

theorem ticking_of_holding (h : holding k p ≠ 0) : p.ticking = 1 := by
  cases p with
  | delivering => rfl
  | attempted l res => rfl
  | _ => exact absurd rfl h

/-- An attempt that puts its record back. -/
theorem judge_putsBack {t : ℤ} {res : AttemptResult} (hq : Named q)
    (hn : isTerminalState q.state = false) (h : PutsBack s env t q res) (f : Fields) :
    ∃ q' f', (judge s env (some t) q res).call f = (.ok q',f') ∧ q'.key = q.key ∧
      f'.store = f.store ∧ (∀ k, readings k f'.log = readings k f.log) ∧
      (isOpen q' = true → ∃ n, q'.next_attempt_at = some n ∧ Spaced (some t) (JsDate.parse n)) := by
  have hcall : (judge s env (some t) q res).call f = _ := judge_call hq hn t res f
  unfold PutsBack at h
  cases hv : verdict s env t q res with
  | ends state reason =>
    rw [hv] at h hcall
    dsimp only at h hcall
    rw [h] at hcall
    refine ⟨_,_,hcall,rfl,tell_store _ _,fun k => readings_tell _ _,?_⟩
    intro ho
    simp [isOpen,terminal_of_verdict hv] at ho
  | waits next =>
    rw [hv] at h hcall
    obtain ⟨u,rfl,hle⟩ := h
    exact ⟨_,_,hcall,rfl,rfl,fun _ => rfl,fun _ => ⟨u/1000,rfl,t,_,rfl,rfl,hle⟩⟩

/-- Only one tick runs, so the other calls do not deliver. -/
theorem paces_of_ticking (hw : Sound w) (hi : w.calls[i]? = some ⟨c,.awaiting p⟩)
    (hp : p.ticking = 1) (rs : List JsDate) {r : Result × Fields} (hr : r.1.All (Paces k rs)) :
    Every (fun _ => Paces k rs) (w.resumed i c r) := by
  have hone : total Pending.ticking w ≤ 1 := by
    rw [hw.latch]
    unfold Fields.running
    split <;> omega
  refine every_resumed_of_others ?_ hr
  intro j c' p' hne hj
  cases p' with
  | tickRead | tickWritten | delivering | attempted =>
    exact absurd (index_unique hone hj hi (Nat.le_refl 1) hp.ge) hne
  | _ => trivial

/-- A step after which the same deliveries are known, and no record is gone. -/
theorem Pace.resumed (h : Pace k w) (hi : w.calls[i]? = some ⟨c,.awaiting p⟩)
    {r : Result × Fields} (hlog : readings k r.2.log = readings k w.fields.log)
    (hknown : w.fields.store.find k ≠ none → r.2.store.find k ≠ none)
    (hrests : weight (holding k) r.1 = 0 → ∀ q, r.2.store.find k = some q →
      w.fields.store.find k = some q ∧ holding k p = 0 ∨ Rests (readings k w.fields.log) q)
    (hpaces : r.1.All (Paces k (readings k w.fields.log))) : Pace k (w.resumed i c r) where
  paced := by
    have hp := h.paced
    unfold Paced at hp ⊢
    change (readings k r.2.log).IsChain Spaced
    rwa [hlog]
  known hr := hknown (h.known (hlog ▸ hr))
  rests hzero q hq := by
    have ht := total_resumed (holding k) r hi
    have hle := le_total (holding k) hi
    change Rests (readings k r.2.log) q
    rw [hlog]
    rcases hrests (by omega) q hq with ⟨hold,hp⟩ | hnew
    · exact h.rests (by omega) q hold
    · exact hnew
  paces := by
    change Every (fun _ => Paces k (readings k r.2.log)) _
    rw [hlog]
    exact h.paces.resumed i c hpaces

/-- A step that leaves the store as it is. -/
theorem Pace.keep (h : Pace k w) (hi : w.calls[i]? = some ⟨c,.awaiting p⟩) {r : Result × Fields}
    (hs : r.2.store = w.fields.store) (hlog : readings k r.2.log = readings k w.fields.log)
    (hp : holding k p = 0 ∨ weight (holding k) r.1 ≠ 0)
    (hpaces : r.1.All (Paces k (readings k w.fields.log))) : Pace k (w.resumed i c r) := by
  refine h.resumed hi hlog (fun hk => hs ▸ hk) ?_ hpaces
  intro hzero q hq
  exact .inl ⟨hs ▸ hq,hp.resolve_right fun hne => hne hzero⟩

/-- A step that writes one record. -/
theorem Pace.put (h : Pace k w) (hi : w.calls[i]? = some ⟨c,.awaiting p⟩) {stage : Result}
    (hs : f.store = w.fields.store) (hlog : readings k f.log = readings k w.fields.log)
    (hq : q.key = k → Rests (readings k w.fields.log) q) (hp : q.key = k ∨ holding k p = 0)
    (hpaces : stage.All (Paces k (readings k w.fields.log))) :
    Pace k (w.resumed i c (stage,f.put q)) := by
  refine h.resumed hi hlog ?_ ?_ hpaces
  · intro hk
    change (f.store.put q).find k ≠ none
    rw [InMemorySchedulerStore.find_put,hs]
    split
    · simp
    · exact hk
  · intro _ x hx
    change (f.store.put q).find k = some x at hx
    rw [InMemorySchedulerStore.find_put,hs] at hx
    split at hx
    next hk =>
      obtain rfl := Option.some.inj hx
      exact .inr (hq hk)
    next hk => exact .inl ⟨hx,hp.resolve_left hk⟩

theorem Coming.of_subset {l' : TickLocals} {rs : List JsDate} (h : Coming k rs l)
    (hd : ∀ x ∈ l'.due, x ∈ l.due) (hn : l'.now = l.now) : Coming k rs l' := by
  rintro ⟨x,hx,hkey⟩ r hr
  rw [hn]
  exact h ⟨x,hd x hx,hkey⟩ r hr

/-- A tick goes on: it may deliver the record, which is coming. -/
theorem pace_next (hw : Sound w) (h : Pace k w) (hi : w.calls[i]? = some ⟨c,.awaiting p⟩)
    (hp : p.ticking = 1) (hh : holding k p = 0) (hl : l.due = p.copies)
    (hc : Coming k (readings k w.fields.log) l) (env : Env) :
    Pace k (w.resumed i c (l.next s env w.fields)) := by
  have hk := hw.kept i c p hi
  refine processDue_cases (C := fun r => Pace k (w.resumed i c r))
    (P := fun due f => f.store = w.fields.store ∧
      readings k f.log = readings k w.fields.log ∧ due.Sublist l.due) ?_ ?_ ?_ ?_ ?_
    l.due (hl ▸ hk.named) l.firstError w.fields ⟨rfl,rfl,.refl _⟩
  · rintro q due f ⟨hs,hlog,hsub⟩ -
    exact ⟨hs,hlog,(List.sublist_cons_self q due).trans hsub⟩
  · rintro q due f t ev ⟨hs,hlog,hsub⟩ - - - - -
    exact ⟨hs,(readings_tell f (some ev)).trans hlog,(List.sublist_cons_self q due).trans hsub⟩
  · rintro firstError f ⟨hs,hlog,-⟩
    exact h.keep hi hs hlog (.inl hh) (all_done _ _)
  · rintro q due f t firstError ⟨hs,hlog,hsub⟩ - - - -
    refine h.put hi (by simpa using hs) ((readings_tell f _).trans hlog)
      (fun _ => rests_ended rfl t _) (.inr hh) (hc.of_subset ?_ rfl)
    exact fun x hx => hsub.subset (List.mem_cons_of_mem _ hx)
  · rintro q due f firstError ⟨hs,hlog,hsub⟩ hn -
    have hnodup : ((q::due).map QueueState.key).Nodup :=
      hk.nodup.sublist ((hl ▸ hsub).map QueueState.key)
    rw [List.map_cons,List.nodup_cons] at hnodup
    by_cases hkey : q.key = k
    · have hlog' : readings k (f.note (.deliver l.now q)).log =
          readings k w.fields.log++[l.now] := by
        rw [note_log,readings_deliver,if_pos hkey,hlog]
      have hfar : ∀ r ∈ (readings k w.fields.log).getLast?, Spaced r l.now :=
        hc ⟨q,hsub.subset List.mem_cons_self,hkey⟩
      have hstored : w.fields.store.find k ≠ none := hkey ▸ hk.stored q
        (hl ▸ hsub.subset List.mem_cons_self)
      constructor
      · unfold Paced
        change (readings k (f.note (.deliver l.now q)).log).IsChain Spaced
        rw [hlog']
        refine List.IsChain.append h.paced (List.isChain_singleton _) ?_
        intro r hr x hx
        obtain rfl : l.now = x := by simpa using hx
        exact hfar r hr
      · intro _
        change f.store.find k ≠ none
        rwa [hs]
      · intro hzero
        have ht := total_resumed (holding k)
          (.awaiting (.delivering ⟨l.now,due,l.advanced,firstError⟩ q),f.note (.deliver l.now q)) hi
        have hone : weight (holding k)
            (.awaiting (.delivering ⟨l.now,due,l.advanced,firstError⟩ q) : Result) = 1 :=
          if_pos hkey
        dsimp only at ht
        omega
      · refine paces_of_ticking hw hi hp _ ?_
        change _ ∧ _
        refine ⟨?_,?_⟩
        · rintro ⟨x,hx,hxk⟩
          exact absurd (List.mem_map.mpr ⟨x,hx,hxk.trans hkey.symm⟩) hnodup.1
        · intro _
          change (readings k (f.note (.deliver l.now q)).log).getLast? = _
          rw [hlog',List.getLast?_concat]
    · have hlog' : readings k (f.note (.deliver l.now q)).log = readings k w.fields.log := by
        rw [note_log,readings_deliver,if_neg hkey,hlog,List.append_nil]
      refine h.keep hi hs hlog' (.inl hh) ⟨hc.of_subset ?_ rfl,fun he => absurd he hkey⟩
      exact fun x hx => hsub.subset (List.mem_cons_of_mem _ hx)

theorem pace_matches (h : Pace k w) (hi : w.calls[i]? = some ⟨c,.awaiting p⟩)
    (hh : holding k p = 0) (hs : f.store = w.fields.store)
    (hlog : readings k f.log = readings k w.fields.log) (now : JsDate) (rest : List QueueState)
    (out : List CancelResult) :
    Pace k (w.resumed i c (settle (cancelMatches now rest out) f)) := by
  apply cancelMatches_cases (C := fun r => Pace k (w.resumed i c r))
  · exact fun r _ => h.keep hi hs hlog (.inl hh) (all_done _ _)
  · rintro pre q post out t - - - -
    exact h.put hi hs hlog (fun _ => rests_ended rfl t _) (.inr hh) trivial

/-- The tick whose delivery has come back holds the record that is put back. -/
theorem pace_judged (hw : Sound w) (h : Pace k w)
    (hi : w.calls[i]? = some ⟨c,.awaiting (.delivering l q)⟩)
    (hok : Restores s w (.resume i env)) :
    Pace k (w.resumed i c (resume s env (.delivering l q) w.fields)) := by
  obtain ⟨hcoming,hlast⟩ := h.paces i c _ hi
  obtain ⟨res,t,hattempt,hnow,hputs⟩ := hok c l q hi
  obtain ⟨q',f',hcall,hkey,hs,hlog,hwaits⟩ := judge_putsBack
    ((hw.kept i c _ hi).named q List.mem_cons_self) (hw.checked i c _ hi).1 hputs w.fields
  have hrun : (runAttempt s env l.now q).call w.fields = (.ok q',f') := by
    rw [runAttempt_call,hattempt,hnow]
    exact hcall
  have hresume : resume s env (.delivering l q) w.fields =
      (.awaiting (.attempted l (.ok q')),f') :=
    congrArg (fun x => (Stage.awaiting (Pending.attempted l x.1),x.2)) hrun
  rw [hresume]
  refine h.keep hi hs (hlog k) ?_ ⟨hcoming,?_⟩
  · by_cases hk : q.key = k
    · right
      have hone : weight (holding k) (.awaiting (.attempted l (.ok q')) : Result) = 1 :=
        if_pos (hkey.trans hk)
      dsimp only
      omega
    · exact .inl (if_neg hk)
  · intro hk ho r hr
    obtain ⟨n,hn,hspaced⟩ := hwaits ho
    rw [hlast (hkey.symm.trans hk),hnow] at hr
    obtain rfl : some t = r := Option.some.inj hr
    exact ⟨n,hn,hspaced⟩

theorem pace_resumed (hw : Sound w) (he : Enqueues s k w) (h : Pace k w)
    (hi : w.calls[i]? = some ⟨c,.awaiting p⟩) (hok : Restores s w (.resume i env)) :
    Pace k (w.resumed i c (resume s env p w.fields)) := by
  have hk := hw.kept i c p hi
  have hp := h.paces i c p hi
  cases p with
  | enqueueRead envelopeId recipient postmarkExpires now existing =>
    apply insert_cases (C := fun r => Pace k (w.resumed i c r))
    · exact fun e => h.keep hi rfl rfl (.inl rfl) (all_done _ _)
    · rintro q rfl hq
      refine h.put hi rfl rfl ?_ (.inr rfl) trivial
      intro hkey _ r hr
      -- The key has no record, so it was never delivered.
      have hinserting : inserting s k (.enqueueRead envelopeId recipient postmarkExpires now none)
          = 1 := by
        obtain ⟨t,u,-,-,rfl⟩ := newRecord_eq_ok.mp hq
        exact if_pos ⟨hkey,datesValid_of_newRecord hq⟩
      have hle := le_total (inserting s k) hi
      have hnone : readings k w.fields.log = [] := by
        by_contra hne
        have := he.stored (h.known hne)
        omega
      rw [hnone] at hr
      cases hr
  | enqueueWritten => exact h.keep hi rfl rfl (.inl rfl) (all_done _ _)
  | tickRead l => exact pace_next hw h hi rfl rfl rfl hp env
  | tickWritten l =>
    exact pace_next (l := { l with advanced := l.advanced+1 }) hw h hi rfl rfl rfl hp env
  | delivering l q => exact pace_judged hw h hi hok
  | attempted l res =>
    cases res with
    | ok q =>
      refine h.put hi rfl rfl hp.2 ?_ hp.1
      by_cases hkey : q.key = k
      · exact .inl hkey
      · exact .inr (if_neg hkey)
    | error e =>
      exact pace_next (l := { l with firstError := l.firstError.or (some e) }) hw h hi rfl rfl rfl
        hp env
  | cancelRead envelopeId recipient now q =>
    apply cancelStored_cases (C := fun r => Pace k (w.resumed i c r))
    · exact fun r _ => h.keep hi rfl rfl (.inl rfl) (all_done _ _)
    · rintro q t rfl - -
      exact h.put hi rfl rfl (fun _ => rests_ended rfl t _) (.inr rfl) trivial
  | cancelWritten recipient q =>
    apply emit_cases (C := fun r => Pace k (w.resumed i c r)) (hk.named q List.mem_cons_self)
    · exact fun e => h.keep hi (tell_store _ _) (readings_tell _ _) (.inl rfl) (all_done _ _)
    · exact h.keep hi (tell_store _ _) (readings_tell _ _) (.inl rfl) (all_done _ _)
  | cancelAllRead envelopeId now all => exact pace_matches h hi rfl rfl rfl now _ []
  | cancelAllWritten now q rest out =>
    apply emit_cases (C := fun r => Pace k (w.resumed i c r)) (hk.named q List.mem_cons_self)
    · exact fun e => h.keep hi (tell_store _ _) (readings_tell _ _) (.inl rfl) (all_done _ _)
    · exact pace_matches h hi rfl (tell_store _ _) (readings_tell _ _) now rest _

/-- A tick finds the record due only when it has rested. -/
theorem pace_started (hw : Sound w) (h : Pace k w) (c : Call) (env : Env) :
    Pace k (w.started c (start s env c w.fields)) := by
  have hstart {r : Result × Fields} (hs : r.2.store = w.fields.store)
      (hlog : r.2.log = w.fields.log) (hh : weight (holding k) r.1 = 0)
      (hp : r.1.All (Paces k (readings k w.fields.log))) : Pace k (w.started c r) := by
    constructor
    · unfold Paced
      change (readings k r.2.log).IsChain Spaced
      rw [hlog]
      exact h.paced
    · intro hr
      change r.2.store.find k ≠ none
      rw [hs]
      exact h.known (hlog ▸ hr)
    · intro hzero q hq
      rw [total_started] at hzero
      change Rests (readings k r.2.log) q
      rw [hlog]
      exact h.rests (by omega) q (hs ▸ hq)
    · change Every (fun _ => Paces k (readings k r.2.log)) _
      rw [hlog]
      exact h.paces.started c hp
  apply start_cases (C := fun r => Pace k (w.started c r))
  case hrefused => exact fun e => hstart rfl rfl rfl (all_done _ _)
  case henqueue => exact fun _ _ _ _ _ _ => hstart rfl rfl rfl trivial
  case hcancel => exact fun _ _ _ => hstart rfl rfl rfl trivial
  case hcancelAll => exact fun _ _ => hstart rfl rfl rfl trivial
  case htick =>
    intro _ hfree
    refine hstart rfl rfl rfl ?_
    rintro ⟨x,hx,rfl⟩ r hr
    obtain ⟨hfind,hdue⟩ := (w.fields.store.mem_dueRecords).mp hx
    unfold InMemorySchedulerStore.isDue at hdue
    rw [Bool.and_eq_true,Option.any_eq_true] at hdue
    obtain ⟨hopen,n,hn,hle⟩ := hdue
    have hzero : total (holding x.key) w = 0 := by
      have hlatch := hw.latch
      rw [Fields.running,hfree] at hlatch
      rw [total_eq_zero]
      intro i c p hi
      by_contra hne
      have := (total_eq_zero _).mp hlatch i c p hi
      have := ticking_of_holding hne
      omega
    obtain ⟨m,hm,t,u,rfl,hu,hspaced⟩ := h.rests hzero x hfind hopen r hr
    obtain rfl : n = m := Option.some.inj (hn.symm.trans hm)
    obtain ⟨v,t',hv,hnow,hvt⟩ := JsDate.le_eq_true.mp hle
    obtain rfl : u = v := Option.some.inj (hu.symm.trans hv)
    exact ⟨t,t',rfl,hnow,hspaced.trans hvt⟩

theorem Pace.initial (k : JsString) : Pace k World.initial where
  paced := List.isChain_nil
  known hne := absurd rfl hne
  rests _ q hq := by cases hq
  paces i c p hi := by simp [World.initial] at hi

theorem pace_of_reached
    (h : Reached s.calls (fun w a => EnqueueAlone s w a ∧ Restores s w a) World.initial w)
    (k : JsString) : Pace k w := by
  have hall : Sound w ∧ Enqueues s k w ∧ Pace k w := by
    apply h.inv
    · exact ⟨.initial,⟨fun _ => rfl,fun _ => rfl,Nat.zero_le _,Nat.zero_le _⟩,.initial k⟩
    · rintro u a u' ⟨hs,he,hp⟩ hok hstep
      refine ⟨sound_step hs hstep,?_⟩
      revert hok
      refine step_cases (C := fun a u' => EnqueueAlone s u a ∧ Restores s u a →
        Enqueues s k u' ∧ Pace k u') hstep ?_ ?_
      · exact fun c env hok => ⟨enqueues_started he hok.1,pace_started hs hp c env⟩
      · exact fun i env c p hi hok =>
          ⟨enqueues_resumed he hs hi env,pace_resumed hs he hp hi hok.2⟩
  exact hall.2.2

/-- In every run whose deliveries put their records back, and whose calls of `enqueue` start
alone, the deliveries of a record are spaced. -/
theorem paced_of_restores
    (h : Reached s.calls (fun w a => EnqueueAlone s w a ∧ Restores s w a) World.initial w)
    (k : JsString) : Paced k w.fields := (pace_of_reached h k).paced

/-- With a gentle policy a delivery puts its record back if it returns and its event is taken. -/
theorem putsBack_of_gentle {cfg : RetryConfig} (hs : s.retry = Retry.sanitizeRetry cfg)
    (hg : Retry.Gentle cfg) {t : ℤ} (ht : |t| ≤ JsDate.maxTime)
    (hmax : t+43200000 ≤ JsDate.maxTime) (hsink : ∀ ev, env.sink ev = .ok ())
    (res : AttemptResult) : PutsBack s env t q res := by
  unfold PutsBack
  cases hv : verdict s env t q res with
  | ends state reason =>
    dsimp only
    cases s.report (ended (attempt q (t/1000) res) state t) reason with
    | none => rfl
    | some ev => exact hsink ev
  | waits next =>
    obtain ⟨u,hu,hle⟩ := Retry.nextAttemptAt_gentle hg.sanitized
      ((attempt q (t/1000) res).attempts-1) env.entropy ht hmax
    have hnext : nextTime s env (some t) (attempt q (t/1000) res) = some u := by
      rw [nextTime,hs,hu]
    unfold verdict at hv
    split_ifs at hv
    obtain rfl := Verdict.waits.inj hv
    exact ⟨u,hnext,by omega⟩

/-- The delivery returns, its event is taken, and the year of the clock is one of ours. -/
def Answers (w : World) : Act → Prop
  | .start .. => True
  | .resume i env => ∀ c l q, w.calls[i]? = some ⟨c,.awaiting (.delivering l q)⟩ →
    (∃ res, env.attempt = .ok res) ∧ (∀ ev, env.sink ev = .ok ()) ∧
      ∃ t, l.now = some t ∧ |t| ≤ JsDate.maxTime ∧ t+43200000 ≤ JsDate.maxTime

/-- So with a gentle policy only a delivery that throws, or a sink that does, hurries a retry. -/
theorem paced_of_gentle {engine : Engine} {cfg : SchedulerConfig}
    (hg : Retry.Gentle (cfg.retry.getD ⟨none,none,none,none⟩))
    (h : Reached (Scheduler.new engine cfg).calls
      (fun w a => EnqueueAlone (Scheduler.new engine cfg) w a ∧ Answers w a) World.initial w)
    (k : JsString) : Paced k w.fields := by
  refine (pace_of_reached (h.mono ?_) k).paced
  rintro u a ⟨halone,hanswers⟩
  refine ⟨halone,?_⟩
  cases a with
  | start => trivial
  | resume i env =>
    intro c l q hi
    obtain ⟨⟨res,hres⟩,hsink,t,hnow,ht,hmax⟩ := hanswers c l q hi
    exact ⟨res,t,hres,hnow,putsBack_of_gentle rfl hg ht hmax hsink res⟩

end Runs

section Checks

def restores (s : Scheduler) (env : Env) (t : ℤ) (q : QueueState) (res : AttemptResult) : Bool :=
  match verdict s env t q res with
  | .ends state reason =>
    match env.heard (s.report (ended (attempt q (t/1000) res) state t) reason) with
    | .ok _ => true
    | .error _ => false
  | .waits none => false
  | .waits (some u) => t+30000 ≤ u/1000*1000

theorem putsBack_of_restores {s : Scheduler} {env : Env} {t : ℤ} {q : QueueState}
    {res : AttemptResult} (h : restores s env t q res = true) : PutsBack s env t q res := by
  unfold restores at h
  unfold PutsBack
  cases hv : verdict s env t q res with
  | ends state reason =>
    rw [hv] at h
    dsimp only at h ⊢
    generalize env.heard _ = x at h ⊢
    cases x with
    | ok u => rfl
    | error e => cases h
  | waits next =>
    rw [hv] at h
    cases next with
    | none => cases h
    | some u => exact ⟨u,rfl,of_decide_eq_true h⟩

/-- A check that a step of a run meets the conditions. -/
def allows (s : Scheduler) (w : World) : Act → Bool
  | .start _ _ => checkEvery (fun _ _ => false) w
  | .resume i env => match w.calls[i]? with
    | some ⟨_,.awaiting (.delivering l q)⟩ => match env.attempt, l.now with
      | .ok res, some t => restores s env t q res
      | _, _ => false
    | _ => true

theorem restores_of_allows {s : Scheduler} {w : World} {a : Act} (h : allows s w a = true) :
    EnqueueAlone s w a ∧ Restores s w a := by
  cases a with
  | start c env =>
    refine ⟨?_,trivial⟩
    cases c with
    | enqueue =>
      intro _ i c p hi
      exact absurd ((every_of_check (fun _ _ => id) h : Every (fun _ _ => false = true) w) i c p hi)
        Bool.false_ne_true
    | _ => trivial
  | resume i env =>
    refine ⟨trivial,?_⟩
    intro c l q hi
    change (match w.calls[i]? with
      | some ⟨_,.awaiting (.delivering l q)⟩ => match env.attempt, l.now with
        | .ok res, some t => restores s env t q res
        | _, _ => false
      | _ => true) = true at h
    rw [hi] at h
    dsimp only at h
    split at h
    next res t hattempt hnow => exact ⟨res,t,hattempt,hnow,putsBack_of_restores h⟩
    next => cases h

end Checks

namespace Sample

/-- The delivery comes back without an answer, or does not come back. -/
def silent (now : ℤ) : Env := { env now with attempt := .ok ⟨.silent,none,none⟩ }

def lost (now : ℤ) : Env := { env now with attempt := raise (js "unreachable") }

def retried : List Act :=
  [.start enqueue (env 0),.resume 0 (env 0),.resume 0 (env 0),.start .tick (env 1000),
    .resume 1 (env 1000),.resume 1 (silent 1000),.resume 1 (env 1000),.resume 1 (env 1000),
    .start .tick (env 80000),.resume 2 (env 80000)]

theorem retried_runs : (checkedRun scheduler.calls (allows scheduler) World.initial retried).isSome :=
  by decide +kernel

def retrying : World := (checkedRun scheduler.calls (allows scheduler) World.initial retried).get
  retried_runs

theorem retrying_readings : readings key retrying.fields.log = [some 1000,some 80000] := by
  decide +kernel

/-- The record is not put back, and the next tick delivers it at once. -/
def storm : List Act := toDelivery++[.resume 1 (lost 1000),.resume 1 (env 1000),
  .start .tick (env 2000),.resume 2 (env 2000)]

theorem storm_runs : (run scheduler.calls World.initial storm).isSome := by decide +kernel

theorem storm_readings : readings key ((run scheduler.calls World.initial storm).get
    storm_runs).fields.log = [some 1000,some 2000] := by decide +kernel

end Sample

theorem paced_sample : readings Sample.key Sample.retrying.fields.log = [some 1000,some 80000] ∧
    Paced Sample.key Sample.retrying.fields :=
  ⟨Sample.retrying_readings,paced_of_restores (reached_of_checked
    (Option.some_get Sample.retried_runs).symm fun _ _ => restores_of_allows) Sample.key⟩

theorem not_paced : ¬ ∀ (s : Scheduler) (w : World),
    Reached s.calls (fun _ _ => True) World.initial w → ∀ k, Paced k w.fields := by
  intro h
  have hpaced := h Sample.scheduler _ (reached_get Sample.storm_runs fun _ _ _ => trivial) Sample.key
  unfold Paced at hpaced
  rw [Sample.storm_readings,List.isChain_pair] at hpaced
  obtain ⟨t,u,ht,hu,hle⟩ := hpaced
  obtain rfl := Option.some.inj ht
  obtain rfl := Option.some.inj hu
  omega

end Scheduler
end Semp
