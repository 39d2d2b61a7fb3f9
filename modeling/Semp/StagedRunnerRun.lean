import Semp.StagedRunner

/-! What one step of the staged runner can do, and what every state of every interleaving of
its calls keeps. -/
namespace Semp
namespace StagedRunner
open Tasks

variable {S : Type}

/-- The jobs a call has still to run. -/
def Pending.jobs : Pending S → List (Job S)
  | .holding .. => []
  | .ticking rest .. => rest

/-- The jobs that are still to run. -/
def queue (w : World S) : List (Job S) := gather Pending.jobs w

def Fields.note (f : Fields S) (p : Job S) : Fields S := { f with log := f.log++[p] }

@[simp] theorem note_heldMap (f : Fields S) (p : Job S) : (f.note p).heldMap = f.heldMap := rfl

@[simp] theorem note_holds (f : Fields S) (p : Job S) : (f.note p).holds = f.holds := rfl

@[simp] theorem note_log (f : Fields S) (p : Job S) : (f.note p).log = f.log++[p] := rfl

/-- The deliveries of the stages, in their order. -/
def delivers (σ : List (StagedHeldStage S)) : List (Callback S) :=
  σ.map fun st => .deliver st.stage st.pending_device_ids

@[simp] theorem fresh_stage (st : StagedHeldStage S) : (fresh st).stage = st.stage := rfl

@[simp] theorem fresh_pending (st : StagedHeldStage S) :
    (fresh st).pending_device_ids = st.pending_device_ids := rfl

@[simp] theorem fresh_fresh (st : StagedHeldStage S) : fresh (fresh st) = fresh st := rfl

section Visits
variable {s : StagedRunner S} {now : ℤ} {rec : StagedHeld S}

/-- A record without stages is passed over, one whose stage goes on is kept; else the stage
is left: for the end, or for the next one. -/
theorem visit_cases {C : Option (StagedHeld S) × Option (Job S) → Prop}
    (hempty : rec.stages = [] → C (some rec,none))
    (hwaits : ∀ current stages, rec.stages = current::stages →
      isStageComplete current now rec.deadline = false → C (some rec,none))
    (hsuppress : ∀ current stages, rec.stages = current::stages →
      isStageComplete current now rec.deadline = true →
      (∃ d ∈ current.dispositions, d.disposition = js "suppress") →
      C (none,some (job rec current (.suppress current.stage))))
    (hcomplete : ∀ current, rec.stages = [current] →
      isStageComplete current now rec.deadline = true →
      (¬ ∃ d ∈ current.dispositions, d.disposition = js "suppress") →
      C (none,some (job rec current .complete)))
    (hadvance : ∀ current next stages, rec.stages = current::next::stages →
      isStageComplete current now rec.deadline = true →
      (¬ ∃ d ∈ current.dispositions, d.disposition = js "suppress") →
      C (some { rec with
          stages := next::stages, deadline := some (s.deadlineFrom now),
          left := rec.left++[current] },
        some (job rec current (.deliver next.stage next.pending_device_ids)))) :
    C (s.visit now rec) := by
  unfold visit
  split
  next h => exact hempty h
  next current stages h =>
    split
    next hc => exact hwaits current stages h (by simpa using hc)
    next hc =>
      have hc' : isStageComplete current now rec.deadline = true := by simpa using hc
      split
      next ha => exact hsuppress current stages h hc' (aggregateDispositions_eq_suppress.mp ha)
      next ha =>
        have hn := mt aggregateDispositions_eq_suppress.mpr ha
        split
        · exact hcomplete current h hc' hn
        next next stages => exact hadvance current next stages h hc' hn

/-- A job is for the record it was made of. -/
theorem visit_job {p : Job S} (h : (s.visit now rec).2 = some p) :
    p.hold = rec.hold ∧ p.envelopeId = rec.envelope_id := by
  revert h
  refine visit_cases (C := fun r => r.2 = some p → p.hold = rec.hold ∧ p.envelopeId = rec.envelope_id)
    ?_ ?_ ?_ ?_ ?_
  · exact fun _ h => nomatch h
  · exact fun _ _ _ _ h => nomatch h
  · rintro current stages - - - h
    obtain rfl := Option.some.inj h
    exact ⟨rfl,rfl⟩
  · rintro current - - - h
    obtain rfl := Option.some.inj h
    exact ⟨rfl,rfl⟩
  · rintro current next stages - - - h
    obtain rfl := Option.some.inj h
    exact ⟨rfl,rfl⟩

variable {f : Fields S}

theorem toRun_perm : (s.toRun f now).Perm
    (f.heldMap.records.filterMap fun rec => (s.visit now rec).2) := List.perm_insertionSort _ _

theorem mem_toRun {p : Job S} :
    p ∈ s.toRun f now ↔ ∃ rec ∈ f.heldMap.records, (s.visit now rec).2 = some p := by
  rw [toRun_perm.mem_iff,List.mem_filterMap]

theorem mem_sweep {rec' : StagedHeld S} : rec' ∈ (s.sweep f now).heldMap.records ↔
    ∃ rec ∈ f.heldMap.records, (s.visit now rec).1 = some rec' := List.mem_filterMap

theorem filter_filterMap_key {α β : Type} {key : α → ℕ} {j : β → ℕ} {g : α → Option β}
    (hg : ∀ a b, g a = some b → j b = key a) {l : List α} (hl : (l.map key).Nodup) (k : ℕ) :
    (∀ a ∈ l, key a ≠ k) ∧ (l.filterMap g).filter (j · = k) = [] ∨
      ∃ a ∈ l, key a = k ∧ (l.filterMap g).filter (j · = k) = (g a).toList := by
  induction l with
  | nil => exact .inl ⟨by simp,rfl⟩
  | cons a l ih =>
    obtain ⟨hnot,hl⟩ := List.nodup_cons.mp hl
    by_cases hk : key a = k
    · have hothers : ∀ x ∈ l, key x ≠ k := fun x hx h => hnot (List.mem_map.mpr ⟨x,hx,h.trans hk.symm⟩)
      have hnil : (l.filterMap g).filter (j · = k) = [] := by
        rcases ih hl with h | ⟨x,hx,hkx,-⟩
        · exact h.2
        · exact absurd hkx (hothers x hx)
      refine .inr ⟨a,List.mem_cons_self,hk,?_⟩
      cases ha : g a with
      | none => rw [List.filterMap_cons_none ha,hnil,Option.toList_none]
      | some b =>
        have hb : j b = k := (hg a b ha).trans hk
        rw [List.filterMap_cons_some ha,List.filter_cons_of_pos (by simpa using hb),hnil,
          Option.toList_some]
    · have hsame : ((a::l).filterMap g).filter (j · = k) =
          (l.filterMap g).filter (j · = k) := by
        cases ha : g a with
        | none => rw [List.filterMap_cons_none ha]
        | some b =>
          have hb : j b ≠ k := fun h => hk ((hg a b ha).symm.trans h)
          rw [List.filterMap_cons_some ha,List.filter_cons_of_neg (by simpa using hb)]
      rw [hsame]
      rcases ih hl with ⟨hno,hnil⟩ | ⟨x,hx,hkx,heq⟩
      · refine .inl ⟨?_,hnil⟩
        intro x hx
        rcases List.mem_cons.mp hx with rfl | hx
        · exact hk
        · exact hno x hx
      · exact .inr ⟨x,List.mem_cons_of_mem _ hx,hkx,heq⟩

/-- What a tick collects for one registration: the job of its record, if it has one. -/
theorem toRun_filter (s : StagedRunner S) (now : ℤ)
    (hf : (f.heldMap.records.map StagedHeld.hold).Nodup) (h : ℕ) :
    (∀ rec ∈ f.heldMap.records, rec.hold ≠ h) ∧ (s.toRun f now).filter (·.hold = h) = [] ∨
      ∃ rec ∈ f.heldMap.records, rec.hold = h ∧
        (s.toRun f now).filter (·.hold = h) = (s.visit now rec).2.toList := by
  have hperm : ((s.toRun f now).filter (·.hold = h)).Perm _ := toRun_perm.filter _
  rcases filter_filterMap_key (g := fun rec => (s.visit now rec).2) (j := Job.hold)
    (fun a b hab => (visit_job hab).1) hf h with ⟨hno,hnil⟩ | ⟨rec,hrec,hh,heq⟩
  · rw [hnil] at hperm
    exact .inl ⟨hno,hperm.eq_nil⟩
  · rw [heq] at hperm
    refine .inr ⟨rec,hrec,hh,?_⟩
    cases hv : (s.visit now rec).2 with
    | none =>
      rw [hv] at hperm
      exact hperm.eq_nil
    | some p =>
      rw [hv] at hperm
      exact List.perm_singleton.mp hperm

end Visits

section Ingest
variable {s : StagedRunner S}

/-- A decision that `ingestDisposition` takes: it is recorded at the end of the current
stage's, unless the device has one there. -/
theorem ingest_eq_ok {f f' : Fields S} {envelopeId submitterDeviceId : JsString} {d : Disposition}
    (h : s.ingest f envelopeId submitterDeviceId d = .ok f') :
    validateDisposition d = .ok () ∧ submitterDeviceId = d.device_id ∧
      ∃ rec current rest, f.heldMap.get envelopeId = some rec ∧ rec.stages = current::rest ∧
        d.device_id ∈ current.pending_device_ids ∧
        f' = if current.dispositions.any (·.device_id = d.device_id) then f
          else { f with
            heldMap := f.heldMap.setStages envelopeId
              ({ current with dispositions := current.dispositions++[d] }::rest) } := by
  unfold ingest at h
  cases hv : validateDisposition d with
  | error e =>
    rw [hv] at h
    cases h
  | ok u =>
    rw [hv] at h
    by_cases hs : submitterDeviceId = []
    · simp only [hs,if_true] at h
      cases h
    by_cases hd : submitterDeviceId = d.device_id
    · refine ⟨rfl,hd,?_⟩
      simp only [hd,ne_eq,not_true_eq_false,if_false] at h
      cases hg : f.heldMap.get envelopeId with
      | none =>
        simp only [hg] at h
        split at h <;> cases h
      | some rec =>
        simp only [hg] at h
        split at h
        · cases h
        cases hst : rec.stages with
        | nil =>
          simp only [hst] at h
          cases h
        | cons current rest =>
          refine ⟨rec,current,rest,rfl,hst,?_⟩
          simp only [hst] at h
          change (if d.device_id ∉ current.pending_device_ids then _ else _) = _ at h
          split at h
          · cases h
          next hmember =>
            refine ⟨not_not.mp hmember,?_⟩
            split at h
            next hany =>
              rw [if_pos hany]
              exact (Except.ok.inj h).symm
            next hany =>
              rw [if_neg hany]
              exact (Except.ok.inj h).symm
    · simp only [hs,hd,ne_eq,not_false_eq_true,if_false,if_true] at h
      cases h

theorem ingest_cases {f f' : Fields S} {envelopeId submitterDeviceId : JsString} {d : Disposition}
    (h : s.ingest f envelopeId submitterDeviceId d = .ok f') :
    f' = f ∨ ∃ rec current rest, f.heldMap.get envelopeId = some rec ∧
      rec.stages = current::rest ∧ f' = { f with
        heldMap := f.heldMap.setStages envelopeId
          ({ current with dispositions := current.dispositions++[d] }::rest) } := by
  obtain ⟨-,-,rec,current,rest,hg,hst,-,rfl⟩ := ingest_eq_ok h
  split
  · exact .inl rfl
  · exact .inr ⟨rec,current,rest,hg,hst,rfl⟩

end Ingest

section Steps
variable [LinearOrder S] {s : StagedRunner S} {w w' : World S} {a : Act S}

theorem checkIncreasing_eq_ok {i : ℕ} {σ : List (StagedHeldStage S)} :
    s.checkIncreasing i σ = .ok () ↔ σ.Pairwise (·.stage < ·.stage) := by
  rw [← List.isChain_iff_pairwise (R := fun a b : StagedHeldStage S => a.stage < b.stage)]
  induction σ generalizing i with
  | nil => simp [checkIncreasing,pure,Except.pure]
  | cons a σ ih =>
    cases σ with
    | nil => simp [checkIncreasing,pure,Except.pure]
    | cons b σ =>
      unfold checkIncreasing
      by_cases hab : b.stage ≤ a.stage
      · simp [hab,raise,bind,Except.bind,not_lt.mpr hab]
      · simp only [hab,if_false,List.isChain_cons_cons,not_le.mp hab,true_and]
        exact ih

/-- A registration has stages, in increasing order, each with devices and no disposition. -/
def Cleaned (σ : List (StagedHeldStage S)) : Prop :=
  σ ≠ [] ∧ σ.Pairwise (·.stage < ·.stage) ∧ ∀ st ∈ σ, fresh st = st ∧ st.pending_device_ids ≠ []

theorem checkHold_eq_ok {f : Fields S} {envelopeId : JsString} {stages σ : List (StagedHeldStage S)} :
    s.checkHold f envelopeId stages = .ok σ ↔ envelopeId ≠ [] ∧ σ = clean stages ∧ σ ≠ [] ∧
      σ.Pairwise (·.stage < ·.stage) ∧ f.heldMap.has envelopeId = false := by
  unfold checkHold
  by_cases he : envelopeId = []
  · simp [he]
  by_cases hc : clean stages = []
  · simp only [he,hc,if_false,if_true]
    constructor
    · intro h
      cases h
    · rintro ⟨-,rfl,hne,-⟩
      exact absurd rfl hne
  cases hi : s.checkIncreasing 1 (clean stages) with
  | error e =>
    simp only [he,hc,if_false,hi]
    constructor
    · intro h
      cases h
    · rintro ⟨-,rfl,-,hp,-⟩
      rw [checkIncreasing_eq_ok.mpr hp] at hi
      cases hi
  | ok u =>
    have hp := checkIncreasing_eq_ok.mp hi
    simp only [he,hc,if_false,hi]
    cases hh : f.heldMap.has envelopeId with
    | true =>
      constructor
      · intro h
        cases h
      · rintro ⟨-,-,-,-,h⟩
        cases h
    | false =>
      constructor
      · intro h
        obtain rfl := Except.ok.inj h
        exact ⟨he,rfl,hc,hp,rfl⟩
      · rintro ⟨-,rfl,-⟩
        rfl

theorem cleaned_of_checkHold {f : Fields S} {envelopeId : JsString}
    {stages σ : List (StagedHeldStage S)} (h : s.checkHold f envelopeId stages = .ok σ) :
    Cleaned σ := by
  obtain ⟨-,rfl,hne,hp,-⟩ := checkHold_eq_ok.mp h
  refine ⟨hne,hp,?_⟩
  intro st hst
  obtain ⟨x,hx,rfl⟩ := List.mem_map.mp hst
  exact ⟨rfl,by simpa using (List.mem_filter.mp hx).2⟩

theorem reevaluate_cases {f f' : Fields S} {envelopeId : JsString}
    {newStages : List (StagedHeldStage S)} (h : reevaluate f envelopeId newStages = .ok f') :
    f' = f ∨ ∃ rec current rest, f.heldMap.get envelopeId = some rec ∧
      rec.stages = current::rest ∧ f' = { f with
        heldMap := f.heldMap.setStages envelopeId (rebuild current newStages) } := by
  unfold reevaluate at h
  by_cases he : envelopeId = []
  · simp only [he,if_true] at h
    cases h
  simp only [he,if_false] at h
  cases hg : f.heldMap.get envelopeId with
  | none =>
    simp only [hg] at h
    cases h
  | some rec =>
    simp only [hg] at h
    cases hst : rec.stages with
    | nil =>
      simp only [hst] at h
      exact .inl (Except.ok.inj h).symm
    | cons current rest =>
      simp only [hst] at h
      exact .inr ⟨rec,current,rest,rfl,hst,(Except.ok.inj h).symm⟩

/-- The rule of invariants over the fields and the jobs still to run: what a registration,
new stages of a record, a failed first delivery, a sweep and the start of a job keep. -/
theorem step_inv (h : step s.calls w a = some w') {I : Fields S → List (Job S) → Prop}
    (hw : I w.fields (queue w))
    (hregister : ∀ id stages first rest env, a = .start (.hold id stages) env →
      s.checkHold w.fields id stages = .ok (first::rest) →
      I (s.register w.fields env.now id first rest) (queue w))
    (hingest : ∀ id submitter d env rec current rest,
      a = .start (.ingestDisposition id submitter d) env →
      w.fields.heldMap.get id = some rec → rec.stages = current::rest →
      I { w.fields with
          heldMap := w.fields.heldMap.setStages id
            ({ current with dispositions := current.dispositions++[d] }::rest) } (queue w))
    (hreevaluate : ∀ id newStages env rec current rest,
      a = .start (.reevaluate id newStages) env →
      w.fields.heldMap.get id = some rec → rec.stages = current::rest →
      I { w.fields with heldMap := w.fields.heldMap.setStages id (rebuild current newStages) }
        (queue w))
    (hfails : ∀ i env id n c, a = .resume i env → w.calls[i]? = some ⟨c,.awaiting (.holding id n)⟩ →
      I { w.fields with heldMap := w.fields.heldMap.delete id } (queue w))
    (hsweep : ∀ env, a = .start .tick env →
      I (s.sweep w.fields env.now) (queue w++s.toRun w.fields env.now))
    (hrun : ∀ f pre p rest post, I f (pre++p::rest++post) → I (f.note p) (pre++rest++post)) :
    I w'.fields (queue w') := by
  have hnext {f : Fields S} {pre rest post : List (Job S)} (n : ℕ) (e : Option Thrown)
      (hf : I f (pre++rest++post)) :
      I (runNext n e f rest).2 (pre++(runNext n e f rest).1.list Pending.jobs++post) := by
    cases rest with
    | nil => exact hf
    | cons p rest => exact hrun f pre p rest post hf
  refine step_cases h (C := fun b w' => a = b → I w'.fields (queue w')) ?_ ?_ rfl
  · rintro c env rfl
    have hq (r : Result S × Fields S) (hr : r.1.list Pending.jobs = []) :
        queue (w.started c r) = queue w := by
      rw [queue,gather_started,hr,List.append_nil]
      rfl
    cases c with
    | hold id stages =>
      have hcalls : s.calls.start (.hold id stages) env w.fields =
          s.start env w.fields (.hold id stages) := rfl
      rw [hcalls]
      simp only [start]
      split
      next first rest hcheck =>
        rw [hq _ rfl]
        exact hregister id stages first rest env rfl hcheck
      next =>
        rw [hq _ rfl]
        exact hw
      next =>
        rw [hq _ rfl]
        exact hw
    | ingestDisposition id submitter d =>
      change I (settle w.fields .ingested (s.ingest w.fields id submitter d)).2
        (queue (w.started _ (settle w.fields .ingested (s.ingest w.fields id submitter d))))
      cases hi : s.ingest w.fields id submitter d with
      | error e =>
        rw [hq _ rfl]
        exact hw
      | ok f' =>
        rw [hq _ rfl]
        rcases ingest_cases hi with rfl | ⟨rec,current,rest,hg,hst,rfl⟩
        · exact hw
        · exact hingest id submitter d env rec current rest rfl hg hst
    | tick =>
      change I (runNext _ none (s.sweep w.fields env.now) (s.toRun w.fields env.now)).2
        (queue (w.started _ (runNext _ none (s.sweep w.fields env.now) (s.toRun w.fields env.now))))
      rw [queue,gather_started]
      have hswept : I (s.sweep w.fields env.now) (queue w++s.toRun w.fields env.now++[]) := by
        rw [List.append_nil]
        exact hsweep env rfl
      simpa [queue] using hnext (s.toRun w.fields env.now).length none hswept
    | reevaluate id newStages =>
      change I (settle w.fields .reevaluated (reevaluate w.fields id newStages)).2
        (queue (w.started _ (settle w.fields .reevaluated (reevaluate w.fields id newStages))))
      cases hi : reevaluate w.fields id newStages with
      | error e =>
        rw [hq _ rfl]
        exact hw
      | ok f' =>
        rw [hq _ rfl]
        rcases reevaluate_cases hi with rfl | ⟨rec,current,rest,hg,hst,rfl⟩
        · exact hw
        · exact hreevaluate id newStages env rec current rest rfl hg hst
  · rintro i env c p hi rfl
    obtain ⟨pre,post,hpre,hset⟩ := gather_resumed Pending.jobs hi
    change I (resume env w.fields p).2 (gather Pending.jobs (w.resumed i c (resume env w.fields p)))
    rw [hset]
    cases p with
    | holding id n =>
      have hsame : queue w = pre++[]++post := hpre
      unfold resume
      dsimp only
      split
      · exact hsame ▸ hw
      · exact hsame ▸ hfails i env id n c rfl hi
    | ticking rest n e =>
      have hw' : I w.fields (pre++rest++post) := hpre ▸ hw
      unfold resume
      dsimp only
      split
      · exact hnext n e hw'
      · exact hnext n _ hw'

theorem register_records {f : Fields S} {now : ℤ} {id : JsString}
    {stages rest : List (StagedHeldStage S)} {first : StagedHeldStage S}
    (h : s.checkHold f id stages = .ok (first::rest)) :
    (s.register f now id first rest).heldMap.records = f.heldMap.records++
      [⟨id,first::rest,some (s.deadlineFrom now),f.holds.length,[]⟩] :=
  HeldMap.set_records (checkHold_eq_ok.mp h).2.2.2.2

/-- What every state keeps: jobs and records are of registrations, which have cleaned stages;
no two records are of one, and each has a deadline. -/
structure Sound (f : Fields S) (q : List (Job S)) : Prop where
  jobs : ∀ p ∈ f.log++q, ∃ σ, f.holds[p.hold]? = some (p.envelopeId,σ)
  recs : ∀ rec ∈ f.heldMap.records, ∃ σ, f.holds[rec.hold]? = some (rec.envelope_id,σ)
  nodup : (f.heldMap.records.map StagedHeld.hold).Nodup
  deadline : ∀ rec ∈ f.heldMap.records, ∃ t, rec.deadline = some t
  cleaned : ∀ m ∈ f.holds, Cleaned m.2

namespace Sound
variable {f : Fields S} {q : List (Job S)}

theorem initial : Sound (S := S) .initial [] where
  jobs := by simp [Fields.initial]
  recs := by simp [Fields.initial,HeldMap.empty]
  nodup := List.nodup_nil
  deadline := by simp [Fields.initial,HeldMap.empty]
  cleaned := by simp [Fields.initial]

theorem hold_lt (h : Sound f q) {rec : StagedHeld S} (hrec : rec ∈ f.heldMap.records) :
    rec.hold < f.holds.length := by
  obtain ⟨σ,hσ⟩ := h.recs rec hrec
  exact (List.getElem?_eq_some_iff.mp hσ).1

theorem job_lt (h : Sound f q) {p : Job S} (hp : p ∈ f.log++q) : p.hold < f.holds.length := by
  obtain ⟨σ,hσ⟩ := h.jobs p hp
  exact (List.getElem?_eq_some_iff.mp hσ).1

/-- Two records of one registration are one record. -/
theorem rec_unique (h : Sound f q) {rec rec' : StagedHeld S} (hrec : rec ∈ f.heldMap.records)
    (hrec' : rec' ∈ f.heldMap.records) (hh : rec.hold = rec'.hold) : rec = rec' :=
  List.inj_on_of_nodup_map h.nodup hrec hrec' hh

theorem register (h : Sound f q) {now : ℤ} {id : JsString} {stages rest : List (StagedHeldStage S)}
    {first : StagedHeldStage S} (ha : s.checkHold f id stages = .ok (first::rest)) :
    Sound (s.register f now id first rest) q := by
  have hkeep {k : ℕ} {x : JsString × List (StagedHeldStage S)} (hk : f.holds[k]? = some x) :
      (f.holds++[(id,first::rest)])[k]? = some x := by
    rw [List.getElem?_append_left (List.getElem?_eq_some_iff.mp hk).1,hk]
  have hnew : (f.holds++[(id,first::rest)])[f.holds.length]? = some (id,first::rest) := by simp
  constructor
  · intro p hp
    change p ∈ (f.log++[_])++q at hp
    simp only [List.append_assoc,List.mem_append,List.mem_singleton] at hp
    rcases hp with hp | rfl | hp
    · exact (h.jobs p (List.mem_append_left _ hp)).imp fun σ => hkeep
    · exact ⟨_,hnew⟩
    · exact (h.jobs p (List.mem_append_right _ hp)).imp fun σ => hkeep
  · intro rec hrec
    rw [register_records ha,List.mem_append,List.mem_singleton] at hrec
    rcases hrec with hrec | rfl
    · exact (h.recs rec hrec).imp fun σ => hkeep
    · exact ⟨_,hnew⟩
  · rw [register_records ha,List.map_append,List.nodup_append]
    refine ⟨h.nodup,by simp,?_⟩
    intro a hm b hb
    obtain ⟨rec,hrec,rfl⟩ := List.mem_map.mp hm
    obtain rfl : b = f.holds.length := by simpa using hb
    exact (h.hold_lt hrec).ne
  · intro rec hrec
    rw [register_records ha,List.mem_append,List.mem_singleton] at hrec
    rcases hrec with hrec | rfl
    · exact h.deadline rec hrec
    · exact ⟨_,rfl⟩
  · intro m hm
    rcases List.mem_append.mp hm with hm | hm
    · exact h.cleaned m hm
    · obtain rfl := List.mem_singleton.mp hm
      exact cleaned_of_checkHold ha

theorem setStages (h : Sound f q) (id : JsString) (stages : List (StagedHeldStage S)) :
    Sound { f with heldMap := f.heldMap.setStages id stages } q where
  jobs := h.jobs
  recs := by
    intro rec' hrec'
    rcases HeldMap.of_mem_setStages hrec' with ⟨hrec,-⟩ | ⟨rec,hrec,-,rfl⟩
    · exact h.recs rec' hrec
    · exact h.recs rec hrec
  nodup := by
    have hsame : (f.heldMap.setStages id stages).records.map StagedHeld.hold =
        f.heldMap.records.map StagedHeld.hold := by
      rw [HeldMap.setStages,List.map_map]
      apply List.map_congr_left
      intro rec _
      dsimp only [Function.comp_apply]
      split <;> rfl
    exact hsame ▸ h.nodup
  deadline := by
    intro rec' hrec'
    rcases HeldMap.of_mem_setStages hrec' with ⟨hrec,-⟩ | ⟨rec,hrec,-,rfl⟩
    · exact h.deadline rec' hrec
    · exact h.deadline rec hrec
  cleaned := h.cleaned

theorem delete (h : Sound f q) (id : JsString) :
    Sound { f with heldMap := f.heldMap.delete id } q where
  jobs := h.jobs
  recs rec hrec := h.recs rec (HeldMap.mem_delete.mp hrec).1
  nodup := h.nodup.sublist (List.filter_sublist.map _)
  deadline rec hrec := h.deadline rec (HeldMap.mem_delete.mp hrec).1
  cleaned := h.cleaned

theorem sweep (h : Sound f q) (now : ℤ) : Sound (s.sweep f now) (q++s.toRun f now) where
  jobs := by
    intro p hp
    rw [← List.append_assoc] at hp
    rcases List.mem_append.mp hp with hp | hp
    · exact h.jobs p hp
    · obtain ⟨rec,hrec,hv⟩ := mem_toRun.mp hp
      rw [(visit_job hv).1,(visit_job hv).2]
      exact h.recs rec hrec
  recs := by
    intro rec' hrec'
    obtain ⟨rec,hrec,hv⟩ := mem_sweep.mp hrec'
    rw [(s.visit_keeps hv).1,(s.visit_keeps hv).2]
    exact h.recs rec hrec
  nodup := h.nodup.sublist (HeldMap.map_filterMap_sublist (fun _ _ hv => (s.visit_keeps hv).2) _)
  deadline := by
    intro rec' hrec'
    obtain ⟨rec,hrec,hv⟩ := mem_sweep.mp hrec'
    have hd := h.deadline rec hrec
    revert hv
    refine visit_cases (C := fun r => r.1 = some rec' → ∃ t, rec'.deadline = some t)
      ?_ ?_ ?_ ?_ ?_
    · intro _ hv
      obtain rfl := Option.some.inj hv
      exact hd
    · intro _ _ _ _ hv
      obtain rfl := Option.some.inj hv
      exact hd
    · exact fun _ _ _ _ _ hv => nomatch hv
    · exact fun _ _ _ _ hv => nomatch hv
    · intro _ _ _ _ _ _ hv
      obtain rfl := Option.some.inj hv
      exact ⟨_,rfl⟩
  cleaned := h.cleaned

theorem run {pre rest post : List (Job S)} {p : Job S} (h : Sound f (pre++p::rest++post)) :
    Sound (f.note p) (pre++rest++post) where
  jobs := by
    intro x hx
    apply h.jobs
    simp only [note_log,List.mem_append,List.mem_cons,List.not_mem_nil,or_false] at hx ⊢
    tauto
  recs := h.recs
  nodup := h.nodup
  deadline := h.deadline
  cleaned := h.cleaned

end Sound

theorem sound_step (h : step s.calls w a = some w') (hw : Sound w.fields (queue w)) :
    Sound w'.fields (queue w') := by
  apply step_inv h hw
  · intro id stages first rest env _ ha
    exact hw.register ha
  · intros
    exact hw.setStages _ _
  · intros
    exact hw.setStages _ _
  · intros
    exact hw.delete _
  · intro env _
    exact hw.sweep _
  · intro f pre p rest post hf
    exact hf.run

theorem sound_of_reached {ok : World S → Act S → Prop} (h : Reached s.calls ok World.initial w) :
    Sound w.fields (queue w) :=
  h.inv (I := fun w => Sound w.fields (queue w)) .initial fun _ _ _ hu _ hs => sound_step hs hu

end Steps

end StagedRunner
end Semp
