import Semp.StagedRunnerRun

/-! The order in which a registration's callbacks are started: over the runs whose ticks do
not overlap, and over the interleavings in which a tick finds no callback still to start of
an envelope that it advances. -/
namespace Semp
namespace StagedRunner
open Tasks

variable {S : Type}

/-- The whole trace of a registration: its stages in their order, to the one at which it is
suppressed or to the last one. -/
inductive Whole (σ : List (StagedHeldStage S)) : List (Callback S) → Prop
  | suppressed (n : ℕ) (st : StagedHeldStage S) (h : σ[n]? = some st) :
    Whole σ (delivers (σ.take (n+1))++[.suppress st.stage])
  | completed : Whole σ (delivers σ++[.complete])

/-- The callbacks of a registration with these stages, each with the stages left before it. -/
structure Traced [LinearOrder S] (σ : List (StagedHeldStage S)) (T : List (Job S)) : Prop where
  increasing : σ.Pairwise (·.stage < ·.stage)
  inOrder : ∃ full, Whole σ full ∧ T.map Job.callback <+: full
  leaves : ∀ n p, T[n]? = some p → p.left.map fresh = σ.take n
  judged : ∀ p ∈ T, ∀ st, p.left.getLast? = some st →
    ((∃ d ∈ st.dispositions, d.disposition = js "suppress") ↔ p.callback = .suppress st.stage)

/-- A record after `n` stages: the trace ends with the delivery of the current one. -/
def Underway (σ : List (StagedHeldStage S)) (rec : StagedHeld S) (T : List (Job S)) : Prop :=
  ∃ n, n < σ.length ∧ rec.stages.map fresh = σ.drop n ∧ rec.left.map fresh = σ.take n ∧
    T.map Job.callback = delivers (σ.take (n+1))

/-- The callbacks of a registration that were started or are still to run. -/
def trace (h : ℕ) (f : Fields S) (q : List (Job S)) : List (Job S) :=
  (f.log++q).filter (·.hold = h)

structure Following [LinearOrder S] (h : ℕ) (σ : List (StagedHeldStage S)) (f : Fields S)
    (q : List (Job S)) : Prop where
  few : (q.filter (·.hold = h)).length ≤ 1
  underway : ∀ rec ∈ f.heldMap.records, rec.hold = h → Underway σ rec (trace h f q)
  traced : Traced σ (trace h f q)

/-- No callback of an envelope that the tick advances is still to run. -/
def Clear (s : StagedRunner S) (w : World S) (now : ℤ) : Prop :=
  ∀ rec ∈ w.fields.heldMap.records, (s.visit now rec).2.isSome →
    ∀ p ∈ queue w, p.envelopeId ≠ rec.envelope_id

def Pending.isTick : Pending S → Bool
  | .ticking .. => true
  | .holding .. => false

section Traces
variable {σ : List (StagedHeldStage S)} {T : List (Job S)} {p : Job S} {n : ℕ}

theorem delivers_take : delivers (σ.take n) <+: delivers σ++[.complete] :=
  ((List.take_prefix n σ).map _).trans (List.prefix_append _ _)

theorem delivers_take_succ {st : StagedHeldStage S} (h : σ[n]? = some st) :
    delivers (σ.take (n+1)) = delivers (σ.take n)++[.deliver st.stage st.pending_device_ids] := by
  rw [List.take_add_one,h]
  simp [delivers]

variable [LinearOrder S]

theorem Traced.of_initial {T' : List (Job S)} (h : Traced σ T) (hp : T' <+: T) : Traced σ T' where
  increasing := h.increasing
  inOrder := h.inOrder.imp fun _ hf => ⟨hf.1,(hp.map _).trans hf.2⟩
  leaves n p hn := by
    obtain ⟨t,rfl⟩ := hp
    exact h.leaves n p (by rw [List.getElem?_append_left (List.getElem?_eq_some_iff.mp hn).1,hn])
  judged p hm := h.judged p (hp.subset hm)

theorem Traced.append (h : Traced σ T)
    (ho : ∃ full, Whole σ full ∧ T.map Job.callback++[p.callback] <+: full)
    (hl : p.left.map fresh = σ.take T.length)
    (hj : ∀ st, p.left.getLast? = some st →
      ((∃ d ∈ st.dispositions, d.disposition = js "suppress") ↔
        p.callback = .suppress st.stage)) : Traced σ (T++[p]) where
  increasing := h.increasing
  inOrder := by simpa using ho
  leaves n x hn := by
    rw [List.getElem?_append] at hn
    split at hn
    · exact h.leaves n x hn
    · rw [List.getElem?_singleton] at hn
      split at hn
      next hge hz =>
        obtain rfl := Option.some.inj hn
        rw [show n = T.length by omega]
        exact hl
      · cases hn
  judged x hx := by
    rcases List.mem_append.mp hx with hx | hx
    · exact h.judged x hx
    · obtain rfl := List.mem_singleton.mp hx
      exact hj

/-- A record that a tick advances: its trace goes on by one. -/
theorem Underway.visit {s : StagedRunner S} {now : ℤ} {rec : StagedHeld S}
    (hu : Underway σ rec T) (ht : Traced σ T) (hv : (s.visit now rec).2 = some p) :
    Traced σ (T++[p]) ∧
      ∀ rec', (s.visit now rec).1 = some rec' → Underway σ rec' (T++[p]) := by
  obtain ⟨n,hn,hstages,hleft,hT⟩ := hu
  have hlen : T.length = n+1 := by
    have := congrArg List.length hT
    simp only [List.length_map,delivers,List.length_take] at this
    omega
  have hcur {current : StagedHeldStage S} {stages : List (StagedHeldStage S)}
      (h : rec.stages = current::stages) :
      σ[n]? = some (fresh current) ∧ σ.drop (n+1) = stages.map fresh := by
    rw [h,List.map_cons] at hstages
    constructor
    · rw [← Nat.add_zero n,← List.getElem?_drop,← hstages]
      rfl
    · rw [← List.drop_drop,← hstages]
      rfl
  have hnext {current : StagedHeldStage S} {stages : List (StagedHeldStage S)}
      (h : rec.stages = current::stages) :
      (rec.left++[current]).map fresh = σ.take (n+1) := by
    rw [List.take_add_one,(hcur h).1,← hleft]
    simp
  revert hv
  refine visit_cases (C := fun r => r.2 = some p → Traced σ (T++[p]) ∧
    ∀ rec', r.1 = some rec' → Underway σ rec' (T++[p])) ?_ ?_ ?_ ?_ ?_
  · exact fun _ hv => nomatch hv
  · exact fun _ _ _ _ hv => nomatch hv
  · rintro current stages hst - hsup hv
    obtain rfl := Option.some.inj hv
    refine ⟨ht.append ?_ (hlen ▸ hnext hst) ?_,nofun⟩
    · rw [hT]
      exact ⟨_,.suppressed n _ (hcur hst).1,List.prefix_refl _⟩
    · intro st hlast
      obtain rfl : current = st := by simpa [job] using hlast
      exact iff_of_true hsup rfl
  · rintro current hst - hnot hv
    obtain rfl := Option.some.inj hv
    refine ⟨ht.append ?_ (hlen ▸ hnext hst) ?_,nofun⟩
    · have hall : σ.take (n+1) = σ := by
        have hdrop := (hcur hst).2
        rw [List.map_nil,List.drop_eq_nil_iff] at hdrop
        exact List.take_of_length_le hdrop
      rw [hT,hall]
      exact ⟨_,.completed,List.prefix_refl _⟩
    · intro st hlast
      obtain rfl : current = st := by simpa [job] using hlast
      exact iff_of_false hnot nofun
  · rintro current next stages hst - hnot hv
    obtain rfl := Option.some.inj hv
    have hget : σ[n+1]? = some (fresh next) := by
      rw [← Nat.add_zero (n+1),← List.getElem?_drop,(hcur hst).2]
      rfl
    have hcb : T.map Job.callback++[.deliver next.stage next.pending_device_ids] =
        delivers (σ.take (n+1+1)) := by
      rw [hT,delivers_take_succ hget]
      rfl
    refine ⟨ht.append ?_ (hlen ▸ hnext hst) ?_,?_⟩
    · change ∃ full, Whole σ full ∧
        T.map Job.callback++[.deliver next.stage next.pending_device_ids] <+: full
      rw [hcb]
      exact ⟨_,.completed,delivers_take⟩
    · intro st hlast
      obtain rfl : current = st := by simpa [job] using hlast
      exact iff_of_false hnot nofun
    · intro rec' hrec'
      obtain rfl := Option.some.inj hrec'
      refine ⟨n+1,(List.getElem?_eq_some_iff.mp hget).1,(hcur hst).2.symm,hnext hst,?_⟩
      rw [List.map_append]
      exact hcb

end Traces

section Moves
variable {s : StagedRunner S} {f : Fields S} {q : List (Job S)} {h : ℕ}

/-- A job of the registration that starts is the only one of it that was to run. -/
theorem trace_run {pre rest post : List (Job S)} {p : Job S}
    (hfew : ((pre++p::rest++post).filter (·.hold = h)).length ≤ 1) :
    trace h (f.note p) (pre++rest++post) = trace h f (pre++p::rest++post) := by
  by_cases hp : p.hold = h
  · simp only [List.filter_append,List.filter_cons,hp,decide_true,if_true,List.length_append,
      List.length_cons] at hfew
    have hpre : pre.filter (·.hold = h) = [] := List.length_eq_zero_iff.mp (by omega)
    simp [trace,hp,hpre]
  · simp [trace,hp]

theorem trace_sweep (now : ℤ) :
    trace h (s.sweep f now) (q++s.toRun f now) =
      trace h f q++(s.toRun f now).filter (·.hold = h) := by
  simp [trace,StagedRunner.sweep]

end Moves

section Invariant
variable [LinearOrder S] {s : StagedRunner S} {w w' : World S} {a : Act S} {f : Fields S}
  {q : List (Job S)} {h : ℕ} {σ : List (StagedHeldStage S)}

theorem Following.register (hs : Sound f q) {now : ℤ} {id : JsString}
    {stages rest : List (StagedHeldStage S)} {first : StagedHeldStage S}
    (ha : s.checkHold f id stages = .ok (first::rest))
    (hf : ∀ id σ, f.holds[h]? = some (id,σ) → Following h σ f q)
    (hσ : ∃ id', (s.register f now id first rest).holds[h]? = some (id',σ)) :
    Following h σ (s.register f now id first rest) q := by
  obtain ⟨id',hσ⟩ := hσ
  change (f.holds++[(id,first::rest)])[h]? = some (id',σ) at hσ
  rw [List.getElem?_append] at hσ
  split at hσ
  next hlt =>
    have hold := hf id' σ hσ
    have htrace : trace h (s.register f now id first rest) q = trace h f q := by
      simp [trace,StagedRunner.register,hlt.ne']
    refine ⟨hold.few,?_,htrace ▸ hold.traced⟩
    intro rec hrec hh
    rw [register_records ha,List.mem_append,List.mem_singleton] at hrec
    rcases hrec with hrec | rfl
    · exact htrace ▸ hold.underway rec hrec hh
    · exact absurd hh hlt.ne'
  next hge =>
    rw [List.getElem?_singleton] at hσ
    split at hσ
    case isFalse => cases hσ
    next hz =>
    obtain ⟨rfl,rfl⟩ := Prod.mk.inj (Option.some.inj hσ)
    obtain rfl : h = f.holds.length := by omega
    have hnone {l : List (Job S)} (hl : ∀ p ∈ l, p ∈ f.log++q) :
        l.filter (·.hold = f.holds.length) = [] := by
      rw [List.filter_eq_nil_iff]
      intro p hp
      simpa using (hs.job_lt (hl p hp)).ne
    have hq := hnone fun p hp => List.mem_append_right f.log hp
    have htrace : trace f.holds.length (s.register f now id first rest) q =
        [⟨id,.deliver first.stage first.pending_device_ids,f.holds.length,[]⟩] := by
      have hlog := hnone fun p hp => List.mem_append_left q hp
      simp [trace,StagedRunner.register,hlog,hq]
    have hclean := cleaned_of_checkHold ha
    have hfresh : (first::rest).map fresh = first::rest := by
      conv_rhs => rw [← List.map_id (first::rest)]
      exact List.map_congr_left fun st hst => (hclean.2.2 st hst).1
    refine ⟨by simp [hq],?_,?_⟩
    · intro rec hrec hh
      rw [register_records ha,List.mem_append,List.mem_singleton] at hrec
      rcases hrec with hrec | rfl
      · exact absurd hh (hs.hold_lt hrec).ne
      · rw [htrace]
        exact ⟨0,by simp,hfresh,rfl,rfl⟩
    · rw [htrace]
      refine ⟨hclean.2.1,⟨_,.completed,?_⟩,?_,?_⟩
      · exact delivers_take (σ := first::rest) (n := 1)
      · intro n p hn
        rw [List.getElem?_singleton] at hn
        split at hn
        next hn0 =>
          obtain rfl := Option.some.inj hn
          rw [hn0]
          rfl
        · cases hn
      · intro p hp st hlast
        obtain rfl := List.mem_singleton.mp hp
        cases hlast

theorem Following.sweep (hs : Sound f q) {now : ℤ}
    (hclear : ∀ rec ∈ f.heldMap.records, (s.visit now rec).2.isSome →
      ∀ p ∈ q, p.envelopeId ≠ rec.envelope_id)
    (hf : Following h σ f q) : Following h σ (s.sweep f now) (q++s.toRun f now) := by
  have hapart {rec : StagedHeld S} (hrec : rec ∈ f.heldMap.records)
      (hv : (s.visit now rec).2.isSome) : q.filter (·.hold = rec.hold) = [] := by
    rw [List.filter_eq_nil_iff]
    intro p hp
    have hne := hclear rec hrec hv p hp
    obtain ⟨σ,hσ⟩ := hs.jobs p (List.mem_append_right _ hp)
    obtain ⟨σ',hσ'⟩ := hs.recs rec hrec
    simp only [decide_eq_true_eq]
    intro hh
    rw [hh,hσ'] at hσ
    exact hne (Prod.mk.inj (Option.some.inj hσ)).1.symm
  rcases s.toRun_filter now hs.nodup h with ⟨hno,hnil⟩ | ⟨rec,hrec,rfl,heq⟩
  · have htrace : trace h (s.sweep f now) (q++s.toRun f now) = trace h f q := by
      rw [trace_sweep,hnil,List.append_nil]
    refine ⟨by simpa [hnil] using hf.few,?_,htrace ▸ hf.traced⟩
    intro rec' hrec' hh
    obtain ⟨rec,hrec,hv⟩ := mem_sweep.mp hrec'
    exact absurd ((s.visit_keeps hv).2.symm.trans hh) (hno rec hrec)
  · cases hv : (s.visit now rec).2 with
    | none =>
      have htrace : trace rec.hold (s.sweep f now) (q++s.toRun f now) = trace rec.hold f q := by
        rw [trace_sweep,heq,hv,Option.toList_none,List.append_nil]
      refine ⟨by simpa [heq,hv] using hf.few,?_,htrace ▸ hf.traced⟩
      intro rec' hrec' hh
      obtain ⟨rec₁,hrec₁,hv₁⟩ := mem_sweep.mp hrec'
      obtain rfl := hs.rec_unique hrec hrec₁ (hh.symm.trans (s.visit_keeps hv₁).2)
      have hsame : rec' = rec := by
        revert hv hv₁
        refine visit_cases (C := fun r => r.2 = none → r.1 = some rec' → rec' = rec) ?_ ?_ ?_ ?_ ?_
        · exact fun _ _ h => (Option.some.inj h).symm
        · exact fun _ _ _ _ _ h => (Option.some.inj h).symm
        · exact fun _ _ _ _ _ h => nomatch h
        · exact fun _ _ _ _ h => nomatch h
        · exact fun _ _ _ _ _ _ h => nomatch h
      rw [hsame,htrace]
      exact hf.underway rec hrec rfl
    | some p =>
      have hq := hapart hrec (by rw [hv]; rfl)
      have htrace : trace rec.hold (s.sweep f now) (q++s.toRun f now) =
          trace rec.hold f q++[p] := by
        rw [trace_sweep,heq,hv,Option.toList_some]
      obtain ⟨ht,hu⟩ := (hf.underway rec hrec rfl).visit hf.traced hv
      refine ⟨by simp [hq,heq,hv],?_,htrace ▸ ht⟩
      intro rec' hrec' hh
      obtain ⟨rec₁,hrec₁,hv₁⟩ := mem_sweep.mp hrec'
      obtain rfl := hs.rec_unique hrec hrec₁ (hh.symm.trans (s.visit_keeps hv₁).2)
      exact htrace ▸ hu rec' hv₁

/-- Every registration is followed. -/
def Followed (f : Fields S) (q : List (Job S)) : Prop :=
  Sound f q ∧ ∀ h id σ, f.holds[h]? = some (id,σ) → Following h σ f q

theorem followed_step (h : step s.calls w a = some w') (hw : Followed w.fields (queue w))
    (hclear : ∀ env, a = .start .tick env → Clear s w env.now)
    (hre : ∀ id newStages env, a ≠ .start (.reevaluate id newStages) env) :
    Followed w'.fields (queue w') := by
  apply step_inv h hw
  · intro id stages first rest env _ ha
    exact ⟨hw.1.register ha,fun h id' σ hσ => .register hw.1 ha (hw.2 h) ⟨id',hσ⟩⟩
  · intro id submitter d env rec current rest _ hg hst
    refine ⟨hw.1.setStages _ _,fun h id' σ hσ => ?_⟩
    have hold := hw.2 h id' σ hσ
    refine ⟨hold.few,?_,hold.traced⟩
    intro rec' hrec' hh
    rcases HeldMap.of_mem_setStages hrec' with ⟨hrec,-⟩ | ⟨rec₁,hrec,hid,rfl⟩
    · exact hold.underway rec' hrec hh
    · obtain rfl : rec = rec₁ := by
        have := HeldMap.get_eq_some.mpr ⟨hrec,hid⟩
        exact Option.some.inj (hg.symm.trans this)
      obtain ⟨n,hn,hstages,hleft,hT⟩ := hold.underway rec hrec hh
      refine ⟨n,hn,?_,hleft,hT⟩
      rw [← hstages,hst]
      rfl
  · intro id newStages env _ _ _ ha
    exact absurd ha (hre id newStages env)
  · intro i env id n c _ _
    refine ⟨hw.1.delete id,fun h id' σ hσ => ?_⟩
    have hold := hw.2 h id' σ hσ
    exact ⟨hold.few,fun rec hrec => hold.underway rec (HeldMap.mem_delete.mp hrec).1,hold.traced⟩
  · intro env ha
    exact ⟨hw.1.sweep _,fun h id σ hσ => .sweep hw.1 (hclear env ha) (hw.2 h id σ hσ)⟩
  · intro f pre p rest post hf
    refine ⟨hf.1.run,fun h id σ hσ => ?_⟩
    have hold := hf.2 h id σ hσ
    have htrace := trace_run (f := f) hold.few
    refine ⟨?_,fun rec hrec hh => htrace ▸ hold.underway rec hrec hh,htrace ▸ hold.traced⟩
    have hsub : (pre++rest++post).Sublist (pre++p::rest++post) :=
      ((List.Sublist.refl pre).append (List.sublist_cons_self p rest)).append (List.Sublist.refl post)
    exact (hsub.filter _).length_le.trans hold.few

theorem followed_initial : Followed (S := S) .initial [] :=
  ⟨.initial,fun h id σ hσ => by simp [Fields.initial] at hσ⟩

omit [LinearOrder S] in
theorem runNext_isTick (n : ℕ) (e : Option Thrown) (f : Fields S) (rest : List (Job S)) :
    (runNext n e f rest).1.All fun p => p.isTick = true := by
  cases rest <;> trivial

/-- What was started is a prefix of what was started or is still to run. -/
theorem Followed.started (hf : Followed f q) {id : JsString} (hσ : f.holds[h]? = some (id,σ)) :
    Traced σ (f.log.filter (·.hold = h)) := by
  refine (hf.2 h id σ hσ).traced.of_initial ?_
  rw [trace,List.filter_append]
  exact List.prefix_append _ _

end Invariant

section Apart
variable [LinearOrder S] {s : StagedRunner S} {w : World S}

/-- Ticks do not overlap, callbacks do not throw and no envelope is reevaluated. -/
def Apart (w : World S) : Act S → Prop
  | .start .tick _ => Every (fun _ p => p.isTick = false) w
  | .start (.reevaluate ..) _ => False
  | .resume _ env => env.callback = .ok ()
  | _ => True

/-- Each callback is of a registration, and the trace of each is one of its stages. -/
structure StageOrder (w : World S) : Prop where
  owned : ∀ p ∈ w.fields.log, ∃ σ, w.fields.holds[p.hold]? = some (p.envelopeId,σ)
  traced : ∀ h id σ, w.fields.holds[h]? = some (id,σ) →
    Traced σ (w.fields.log.filter (·.hold = h))

theorem stageOrder_of_followed (h : Followed w.fields (queue w)) : StageOrder w where
  owned p hp := h.1.jobs p (List.mem_append_left _ hp)
  traced _ _ _ hσ := h.started hσ

omit [LinearOrder S] in
theorem queue_eq_nil (h : Every (fun _ p => p.isTick = false) w) : queue w = [] := by
  rw [queue,gather,List.flatMap_eq_nil_iff]
  rintro ⟨c,p | r⟩ hc
  · obtain ⟨i,hi⟩ := List.mem_iff_getElem?.mp hc
    have := h i c p hi
    cases p with
    | holding id n => rfl
    | ticking rest n e => cases this
  · rfl

theorem stageOrder_of_apart (h : Reached s.calls Apart World.initial w) : StageOrder w := by
  refine stageOrder_of_followed (h.inv (I := fun w => Followed w.fields (queue w))
    followed_initial ?_)
  intro u a u' hu hok hs
  refine followed_step hs hu ?_ ?_
  · rintro env rfl rec - - p hp
    rw [queue_eq_nil hok] at hp
    cases hp
  · rintro id newStages env rfl
    exact hok

end Apart

namespace Sample

def runner : StagedRunner ℕ := .new ⟨none,natText⟩

def env (now : ℤ) : Env := ⟨now,.ok ()⟩

def holds (id : JsString) (stages : List (ℕ × JsString)) (now : ℤ) : Act ℕ :=
  .start (.hold id (stages.map fun st => ⟨st.1,[st.2],[]⟩)) (env now)

/-- The second stage is reached at the first deadline and suppresses. -/
def suppressed : List (Act ℕ) :=
  [holds (js "a") [(1,js "x"),(2,js "y")] 0,.resume 0 (env 0),.start .tick (env 30000),
    .resume 1 (env 30000),
    .start (.ingestDisposition (js "a") (js "y")
      ⟨dispositionKind,js "a",js "suppress",none,js "y"⟩) (env 31000),
    .start .tick (env 31000)]

def apart (w : World ℕ) : Act ℕ → Bool
  | .start .tick _ => checkEvery (fun _ p => !p.isTick) w
  | .start (.reevaluate ..) _ => false
  | .resume _ env => env.callback.isOk
  | _ => true

theorem apart_of_check (w : World ℕ) (a : Act ℕ) (h : apart w a = true) : Apart w a := by
  cases a with
  | start c env =>
    cases c with
    | tick =>
      have hc : checkEvery (fun _ p => !p.isTick) w = true := h
      exact every_of_check (fun _ p hp => by simpa using hp) hc
    | reevaluate id newStages => cases h
    | _ => trivial
  | resume i env =>
    obtain ⟨now,_ | u⟩ := env
    · cases h
    · rfl

theorem suppressed_runs : (checkedRun runner.calls apart World.initial suppressed).isSome := by
  decide +kernel

def suppressedWorld : World ℕ :=
  (checkedRun runner.calls apart World.initial suppressed).get suppressed_runs

end Sample

theorem stageOrder_sample : Sample.suppressedWorld.fields.log.map Job.callback =
    [.deliver 1 [js "x"],.deliver 2 [js "y"],.suppress 2] ∧ StageOrder Sample.suppressedWorld :=
  ⟨by decide +kernel,stageOrder_of_apart (reached_of_checked
    (Option.some_get Sample.suppressed_runs).symm Sample.apart_of_check)⟩

section Overlap
variable [LinearOrder S] {s : StagedRunner S} {w w' : World S} {a : Act S} {f : Fields S}
  {q : List (Job S)}

/-- A tick finds no callback still to run of an envelope that it advances, and an envelope
that is registered has neither such a callback nor an earlier `hold` that still awaits its
first delivery. -/
def InTurn (s : StagedRunner S) (w : World S) : Act S → Prop
  | .start .tick env => Clear s w env.now
  | .start (.hold id stages) _ => (s.checkHold w.fields id stages).isOk →
    (∀ p ∈ queue w, p.envelopeId ≠ id) ∧ Every (fun _ p => ∀ n, p ≠ .holding id n) w
  | .start (.reevaluate ..) _ => False
  | _ => True

/-- The record that a failed first delivery would delete is not of a later registration. -/
def FailsAlone (w : World S) : Prop :=
  Every (fun _ p => ∀ id n, p = .holding id n →
    ∀ rec, w.fields.heldMap.get id = some rec → rec.hold = n) w

/-- Callbacks are started in the order of the stages, those of one envelope registration by
registration, and a failed delivery undoes its own registration only. -/
structure OverlapOrder (w : World S) : Prop extends StageOrder w where
  successive : w.fields.log.Pairwise fun p p' => p.envelopeId = p'.envelopeId → p.hold ≤ p'.hold
  failsAlone : FailsAlone w

/-- No callback of an earlier registration is to run once a later one has started any. -/
structure Successive (f : Fields S) (q : List (Job S)) : Prop where
  log : f.log.Pairwise fun p p' => p.envelopeId = p'.envelopeId → p.hold ≤ p'.hold
  queue : ∀ p ∈ q, ∀ e ∈ f.log, e.envelopeId = p.envelopeId → e.hold ≤ p.hold
  recs : ∀ rec ∈ f.heldMap.records, ∀ e ∈ f.log++q, e.envelopeId = rec.envelope_id →
    e.hold ≤ rec.hold
  few : (q.map Job.envelopeId).Nodup

namespace Successive

omit [LinearOrder S] in
theorem initial : Successive (S := S) .initial [] where
  log := .nil
  queue := by simp
  recs := by simp [Fields.initial]
  few := List.nodup_nil

theorem register (hf : Successive f q) (hs : Sound f q) {now : ℤ} {id : JsString}
    {stages rest : List (StagedHeldStage S)} {first : StagedHeldStage S}
    (ha : s.checkHold f id stages = .ok (first::rest)) (hq : ∀ p ∈ q, p.envelopeId ≠ id) :
    Successive (s.register f now id first rest) q where
  log := by
    rw [StagedRunner.register,List.pairwise_append]
    refine ⟨hf.log,List.pairwise_singleton _ _,?_⟩
    intro p hp p' hp' _
    obtain rfl := List.mem_singleton.mp hp'
    exact (hs.job_lt (List.mem_append_left _ hp)).le
  queue := by
    intro p hp e he hid
    rcases List.mem_append.mp he with he | he
    · exact hf.queue p hp e he hid
    · obtain rfl := List.mem_singleton.mp he
      exact absurd hid.symm (hq p hp)
  recs := by
    intro rec hrec e he hid
    have hnot := HeldMap.has_eq_false.mp (checkHold_eq_ok.mp ha).2.2.2.2
    have he' : e ∈ f.log++q ∨ e = ⟨id,.deliver first.stage first.pending_device_ids,
        f.holds.length,[]⟩ := by
      simp only [StagedRunner.register,List.append_assoc,List.mem_append,List.mem_singleton] at he ⊢
      tauto
    rw [register_records ha,List.mem_append,List.mem_singleton] at hrec
    rcases hrec with hrec | rfl
    · rcases he' with he | rfl
      · exact hf.recs rec hrec e he hid
      · exact absurd hid.symm (hnot rec hrec)
    · rcases he' with he | rfl
      · exact (hs.job_lt he).le
      · exact Nat.le_refl _
  few := hf.few

omit [LinearOrder S] in
theorem sweep (hf : Successive f q) {now : ℤ}
    (hclear : ∀ rec ∈ f.heldMap.records, (s.visit now rec).2.isSome →
      ∀ p ∈ q, p.envelopeId ≠ rec.envelope_id) :
    Successive (s.sweep f now) (q++s.toRun f now) where
  log := hf.log
  queue := by
    intro p hp e he hid
    rcases List.mem_append.mp hp with hp | hp
    · exact hf.queue p hp e he hid
    · obtain ⟨rec,hrec,hv⟩ := mem_toRun.mp hp
      rw [(visit_job hv).2] at hid
      exact (visit_job hv).1 ▸ hf.recs rec hrec e (List.mem_append_left _ he) hid
  recs := by
    intro rec' hrec' e he hid
    obtain ⟨rec,hrec,hv⟩ := mem_sweep.mp hrec'
    rw [(s.visit_keeps hv).1] at hid
    rw [(s.visit_keeps hv).2]
    rw [← List.append_assoc] at he
    rcases List.mem_append.mp he with he | he
    · exact hf.recs rec hrec e he hid
    · obtain ⟨rec₁,hrec₁,hv₁⟩ := mem_toRun.mp he
      have hsame : rec₁ = rec := List.inj_on_of_nodup_map f.heldMap.nodup hrec₁ hrec
        ((visit_job hv₁).2.symm.trans hid)
      rw [(visit_job hv₁).1,hsame]
  few := by
    rw [List.map_append,List.nodup_append]
    refine ⟨hf.few,?_,?_⟩
    · rw [(toRun_perm.map Job.envelopeId).nodup_iff]
      have hsub : (f.heldMap.records.filterMap fun rec => (s.visit now rec).2).map Job.envelopeId =
          (f.heldMap.records.filterMap fun rec =>
            (s.visit now rec).2.map fun _ => rec).map StagedHeld.envelope_id := by
        rw [List.map_filterMap,List.map_filterMap]
        apply List.filterMap_congr
        intro rec _
        cases hv : (s.visit now rec).2 with
        | none => rfl
        | some p => exact congrArg some (visit_job hv).2
      rw [hsub]
      refine f.heldMap.nodup.sublist (HeldMap.map_filterMap_sublist ?_ _)
      intro rec rec' h
      obtain ⟨p,-,rfl⟩ := Option.map_eq_some_iff.mp h
      rfl
    · intro x hx y hy
      obtain ⟨p,hp,rfl⟩ := List.mem_map.mp hx
      obtain ⟨p',hp',rfl⟩ := List.mem_map.mp hy
      obtain ⟨rec,hrec,hv⟩ := mem_toRun.mp hp'
      rw [(visit_job hv).2]
      exact hclear rec hrec (by rw [hv]; rfl) p hp

omit [LinearOrder S] in
theorem run {pre rest post : List (Job S)} {p : Job S} (hf : Successive f (pre++p::rest++post)) :
    Successive (f.note p) (pre++rest++post) where
  log := by
    rw [note_log,List.pairwise_append]
    refine ⟨hf.log,List.pairwise_singleton _ _,?_⟩
    intro e he p' hp' hid
    obtain rfl := List.mem_singleton.mp hp'
    exact hf.queue p' (by simp) e he hid
  queue := by
    intro x hx e he hid
    have hx' : x ∈ pre++p::rest++post := by
      simp only [List.mem_append,List.mem_cons] at hx ⊢
      tauto
    rcases List.mem_append.mp he with he | he
    · exact hf.queue x hx' e he hid
    · obtain rfl := List.mem_singleton.mp he
      have hperm : (pre++e::rest++post).Perm (e::(pre++rest++post)) := by
        simp only [List.append_assoc,List.cons_append]
        exact List.perm_middle
      have hnot := (List.nodup_cons.mp ((hperm.map Job.envelopeId).nodup_iff.mp hf.few)).1
      exact absurd (List.mem_map.mpr ⟨x,hx,hid.symm⟩) hnot
  recs := by
    intro rec hrec e he hid
    refine hf.recs rec hrec e ?_ hid
    simp only [note_log,List.mem_append,List.mem_cons,List.not_mem_nil,or_false] at he ⊢
    tauto
  few := by
    have hsub : (pre++rest++post).Sublist (pre++p::rest++post) :=
      ((List.Sublist.refl pre).append (List.sublist_cons_self p rest)).append (List.Sublist.refl post)
    exact hf.few.sublist (hsub.map _)

end Successive

/-- With the conditions on the runs, the order over all registrations is kept. -/
theorem successive_step (h : step s.calls w a = some w') (hok : InTurn s w a)
    (hw : Sound w.fields (queue w) ∧ Successive w.fields (queue w)) :
    Sound w'.fields (queue w') ∧ Successive w'.fields (queue w') := by
  apply step_inv h (I := fun f q => Sound f q ∧ Successive f q) hw
  · rintro id stages first rest env rfl ha
    exact ⟨hw.1.register ha,hw.2.register hw.1 ha (hok (by rw [ha]; rfl)).1⟩
  · intro id submitter d env rec current rest _ hg hst
    refine ⟨hw.1.setStages _ _,hw.2.log,hw.2.queue,?_,hw.2.few⟩
    intro rec' hrec' e he hid
    rcases HeldMap.of_mem_setStages hrec' with ⟨hrec,-⟩ | ⟨rec₁,hrec,-,rfl⟩
    · exact hw.2.recs rec' hrec e he hid
    · exact hw.2.recs rec₁ hrec e he hid
  · rintro id newStages env _ _ _ rfl
    exact hok.elim
  · intro i env id n c _ _
    exact ⟨hw.1.delete id,hw.2.log,hw.2.queue,
      fun rec hrec => hw.2.recs rec (HeldMap.mem_delete.mp hrec).1,hw.2.few⟩
  · rintro env rfl
    exact ⟨hw.1.sweep _,hw.2.sweep hok⟩
  · exact fun f pre p rest post hf => ⟨hf.1.run,hf.2.run⟩

/-- Where the records after a step come from. -/
theorem records_step (h : step s.calls w a = some w') {rec' : StagedHeld S}
    (hrec' : rec' ∈ w'.fields.heldMap.records) :
    (∃ rec ∈ w.fields.heldMap.records, rec.envelope_id = rec'.envelope_id ∧
      rec.hold = rec'.hold) ∨
    ∃ stages env σ, a = .start (.hold rec'.envelope_id stages) env ∧
      s.checkHold w.fields rec'.envelope_id stages = .ok σ ∧ rec'.hold = w.fields.holds.length := by
  revert hrec'
  have hall : ∀ rec' ∈ w.fields.heldMap.records, ∃ rec ∈ w.fields.heldMap.records,
      rec.envelope_id = rec'.envelope_id ∧ rec.hold = rec'.hold := fun rec hrec => ⟨rec,hrec,rfl,rfl⟩
  refine step_inv h (I := fun f q => rec' ∈ f.heldMap.records → _) (fun hrec => .inl (hall _ hrec))
    ?_ ?_ ?_ ?_ ?_ ?_
  · rintro id stages first rest env rfl ha hrec'
    rw [register_records ha,List.mem_append,List.mem_singleton] at hrec'
    rcases hrec' with hrec' | rfl
    · exact .inl (hall _ hrec')
    · exact .inr ⟨stages,env,_,rfl,ha,rfl⟩
  · intro id submitter d env rec current rest _ _ _ hrec'
    rcases HeldMap.of_mem_setStages hrec' with ⟨hrec,-⟩ | ⟨rec₁,hrec,-,rfl⟩
    · exact .inl (hall _ hrec)
    · exact .inl ⟨rec₁,hrec,rfl,rfl⟩
  · intro id newStages env rec current rest _ _ _ hrec'
    rcases HeldMap.of_mem_setStages hrec' with ⟨hrec,-⟩ | ⟨rec₁,hrec,-,rfl⟩
    · exact .inl (hall _ hrec)
    · exact .inl ⟨rec₁,hrec,rfl,rfl⟩
  · intro i env id n c _ _ hrec'
    exact .inl (hall _ (HeldMap.mem_delete.mp hrec').1)
  · intro env _ hrec'
    obtain ⟨rec,hrec,hv⟩ := mem_sweep.mp hrec'
    exact .inl ⟨rec,hrec,(s.visit_keeps hv).1.symm,(s.visit_keeps hv).2.symm⟩
  · exact fun f pre p rest post hf => hf

theorem failsAlone_step (h : step s.calls w a = some w') (hok : InTurn s w a)
    (hw : FailsAlone w) : FailsAlone w' := by
  have hold : Every (fun _ p => ∀ id n, p = .holding id n →
      ∀ rec, w'.fields.heldMap.get id = some rec → rec.hold = n) w := by
    rintro i c p hi id n rfl rec' hrec'
    obtain ⟨hmem,rfl⟩ := HeldMap.get_eq_some.mp hrec'
    rcases records_step h hmem with ⟨rec,hrec,hid,hh⟩ | ⟨stages,env,σ,rfl,ha,-⟩
    · rw [← hh]
      exact hw i c _ hi _ n rfl rec (HeldMap.get_eq_some.mpr ⟨hrec,hid⟩)
    · exact absurd rfl ((hok (by rw [ha]; rfl)).2 i c _ hi n)
  have hticks {p : Pending S} (hp : p.isTick = true) {id : JsString} {n : ℕ} :
      p ≠ .holding id n := by
    rintro rfl
    cases hp
  revert hold
  refine step_cases h (C := fun b w' => a = b → step s.calls w b = some w' →
    Every (fun _ p => ∀ id n, p = .holding id n →
      ∀ rec, w'.fields.heldMap.get id = some rec → rec.hold = n) w → FailsAlone w') ?_ ?_ rfl h
  · rintro c env rfl hs hold
    apply hold.started
    cases c with
    | hold id stages =>
      revert hs
      have hcalls : s.calls.start (.hold id stages) env w.fields =
          s.start env w.fields (.hold id stages) := rfl
      rw [hcalls]
      simp only [start]
      split
      next first rest ha =>
        rintro hs _ _ ⟨⟩ rec' hrec'
        obtain ⟨hmem,hid⟩ := HeldMap.get_eq_some.mp hrec'
        rw [World.started,register_records ha,List.mem_append,List.mem_singleton] at hmem
        rcases hmem with hmem | rfl
        · exact absurd hid (HeldMap.has_eq_false.mp (checkHold_eq_ok.mp ha).2.2.2.2 rec' hmem)
        · rfl
      · exact fun _ => trivial
      · exact fun _ => trivial
    | tick =>
      exact (runNext_isTick _ _ _ _).mono fun p hp id n h => absurd h (hticks hp)
    | ingestDisposition id submitter d =>
      change (settle _ _ (s.ingest w.fields id submitter d)).1.All _
      cases s.ingest w.fields id submitter d <;> trivial
    | reevaluate id newStages =>
      change (settle _ _ (reevaluate w.fields id newStages)).1.All _
      cases reevaluate w.fields id newStages <;> trivial
  · rintro i env c p hi rfl hs hold
    apply hold.resumed
    change (resume env w.fields p).1.All _
    cases p with
    | holding id n =>
      unfold resume
      dsimp only
      split <;> trivial
    | ticking rest n e =>
      unfold resume
      dsimp only
      split
      · exact (runNext_isTick _ _ _ _).mono fun p hp id n h => absurd h (hticks hp)
      · exact (runNext_isTick _ _ _ _).mono fun p hp id n h => absurd h (hticks hp)

theorem overlapOrder_of_inTurn (h : Reached s.calls (InTurn s) World.initial w) :
    OverlapOrder w := by
  have hfollowed : Followed w.fields (queue w) := by
    refine h.inv (I := fun w => Followed w.fields (queue w)) followed_initial ?_
    intro u a u' hu hok hs
    refine followed_step hs hu ?_ ?_
    · rintro env rfl
      exact hok
    · rintro id newStages env rfl
      exact hok
  have hsuccessive := h.inv (I := fun w => Sound w.fields (queue w) ∧
    Successive w.fields (queue w)) ⟨.initial,.initial⟩ fun _ _ _ hu hok hs => successive_step hs hok hu
  have hfails : FailsAlone w := by
    refine h.inv ?_ fun _ _ _ hu hok hs => failsAlone_step hs hok hu
    intro i c p hi
    simp [World.initial] at hi
  exact ⟨stageOrder_of_followed hfollowed,hsuccessive.2.log,hfails⟩

/-- Calls of `hold`, `ingestDisposition` and `tick` only. -/
def Plain : Act S → Prop
  | .start (.reevaluate ..) _ => False
  | _ => True

end Overlap

namespace Sample

/-- The second tick starts its delivery of `b` while the first one awaits that of `a`. -/
def overtake : List (Act ℕ) :=
  [holds (js "a") [(1,js "x"),(2,js "x"),(3,js "x")] 0,
    holds (js "b") [(1,js "x"),(2,js "x"),(3,js "x")] 0,
    .resume 0 (env 0),.resume 1 (env 0),.start .tick (env 30000),.start .tick (env 60000),
    .resume 3 (env 60000)]

/-- The first registration ends while its delivery goes on, and is made anew. -/
def renew : List (Act ℕ) :=
  [holds (js "a") [(1,js "x")] 0,.start .tick (env 30000),.resume 1 (env 30000),
    holds (js "a") [(1,js "x")] 31000]

theorem both_run : (run runner.calls World.initial overtake).isSome ∧
    (run runner.calls World.initial renew).isSome := by decide +kernel

theorem overtake_runs : (run runner.calls World.initial overtake).isSome := both_run.1

theorem renew_runs : (run runner.calls World.initial renew).isSome := both_run.2

def overtaken : World ℕ := (run runner.calls World.initial overtake).get overtake_runs

def renewed : World ℕ := (run runner.calls World.initial renew).get renew_runs

theorem overtaken_evaluated : overtaken.fields.holds[1]? =
      some (js "b",[⟨1,[js "x"],[]⟩,⟨2,[js "x"],[]⟩,⟨3,[js "x"],[]⟩]) ∧
    (overtaken.fields.log.filter (·.hold = 1)).map Job.callback =
      [.deliver 1 [js "x"],.deliver 3 [js "x"]] := by decide +kernel

theorem renewed_evaluated : ((renewed.calls[0]?).any (fun c => match c.stage with
      | .awaiting (.holding id n) => decide (id = js "a" ∧ n = 0)
      | _ => false) = true) ∧
    (renewed.fields.heldMap.get (js "a")).map StagedHeld.hold = some 1 := by decide +kernel

end Sample

/-- Where ticks overlap, a later stage can be delivered before the one in between; and a
registration can await its delivery when the record is of the next one. -/
theorem not_overlapOrder :
    (¬ ∀ w, Reached Sample.runner.calls (fun _ a => Plain a) World.initial w → StageOrder w) ∧
    ¬ ∀ w, Reached Sample.runner.calls (fun _ a => Plain a) World.initial w → FailsAlone w := by
  constructor
  · intro h
    have hreach : Reached Sample.runner.calls (fun _ a => Plain a) World.initial Sample.overtaken :=
      reached_get Sample.overtake_runs (by simp [Sample.overtake,Sample.holds,Plain])
    obtain ⟨hholds,htrace⟩ := Sample.overtaken_evaluated
    obtain ⟨full,hwhole,hpre⟩ := ((h _ hreach).traced 1 _ _ hholds).inOrder
    rw [htrace] at hpre
    cases hwhole with
    | suppressed n st hn =>
      match n, hn with
      | 0, hn | 1, hn | 2, hn =>
        obtain rfl := Option.some.inj hn
        revert hpre
        decide
      | n+3, hn => simp at hn
    | completed =>
      revert hpre
      decide
  · intro h
    have hreach : Reached Sample.runner.calls (fun _ a => Plain a) World.initial Sample.renewed :=
      reached_get Sample.renew_runs (by simp [Sample.renew,Sample.holds,Plain])
    obtain ⟨hany,hrecord⟩ := Sample.renewed_evaluated
    obtain ⟨⟨c,stage⟩,hc,hwaits⟩ := (Option.any_eq_true _ _).mp hany
    obtain ⟨rec,hrec,hhold⟩ := Option.map_eq_some_iff.mp hrecord
    dsimp only at hwaits
    split at hwaits
    next id n =>
      obtain ⟨rfl,rfl⟩ := of_decide_eq_true hwaits
      have := h _ hreach 0 c _ hc (js "a") 0 rfl rec hrec
      omega
    next => cases hwaits

namespace Sample

def inTurn (w : World ℕ) : Act ℕ → Bool
  | .start .tick env => decide (∀ rec ∈ w.fields.heldMap.records,
    (runner.visit env.now rec).2.isSome = true → ∀ p ∈ queue w, p.envelopeId ≠ rec.envelope_id)
  | .start (.hold id _) _ => decide (∀ p ∈ queue w, p.envelopeId ≠ id) &&
    checkEvery (fun _ p => match p with
      | .holding id' _ => decide (id' ≠ id)
      | .ticking .. => true) w
  | .start (.reevaluate ..) _ => false
  | _ => true

theorem inTurn_of_check (w : World ℕ) (a : Act ℕ) (h : inTurn w a = true) :
    InTurn runner w a := by
  cases a with
  | start c env =>
    cases c with
    | tick =>
      intro rec hrec hv
      exact of_decide_eq_true h rec hrec hv
    | hold id stages =>
      intro _
      obtain ⟨hq,hc⟩ := (Bool.and_eq_true _ _).mp h
      refine ⟨of_decide_eq_true hq,every_of_check ?_ hc⟩
      rintro c p hp n rfl
      simp at hp
    | reevaluate id newStages => cases h
    | ingestDisposition id submitter d => trivial
  | resume i env => trivial

/-- The second tick, of another envelope, comes while the first one awaits its delivery. -/
def overlap : List (Act ℕ) :=
  [holds (js "a") [(1,js "x"),(2,js "x")] 0,holds (js "b") [(1,js "x"),(2,js "x")] 10000,
    .start .tick (env 30000),.start .tick (env 40000),.resume 3 (env 40000)]

theorem overlap_runs : (checkedRun runner.calls inTurn World.initial overlap).isSome := by
  decide +kernel

def overlapping : World ℕ := (checkedRun runner.calls inTurn World.initial overlap).get overlap_runs

end Sample

theorem overlapOrder_sample : (Sample.overlapping.fields.log.map fun p => (p.hold,p.callback)) =
    [(0,.deliver 1 [js "x"]),(1,.deliver 1 [js "x"]),(0,.deliver 2 [js "x"]),
      (1,.deliver 2 [js "x"])] ∧ OverlapOrder Sample.overlapping :=
  ⟨by decide +kernel,overlapOrder_of_inTurn (reached_of_checked
    (Option.some_get Sample.overlap_runs).symm Sample.inTurn_of_check)⟩

end StagedRunner
end Semp
