import Semp.StagedRunnerOrder

/-! How an envelope is let go: a tick that is due takes it one stage on, but passes over an
envelope that a reevaluation left without stages; and an envelope is completed with every
device served, unless a reevaluation put unserved ones into its current stage. -/
namespace Semp
namespace StagedRunner
open Tasks

variable {S : Type} [LinearOrder S] {s : StagedRunner S} {w mid w' : World S} {a : Act S}

section Ticks

/-- A tick from its start to its end, with no step of another call in between; each of its
callbacks returns. -/
def WholeTick (s : StagedRunner S) (now : ℤ) (w w' : World S) : Prop :=
  run s.calls w (.start .tick ⟨now,.ok ()⟩::List.replicate (s.toRun w.fields now).length
    (.resume w.calls.length ⟨now,.ok ()⟩)) = some w'

/-- The clock reading is not before the deadline of the envelope, if it is held. -/
def Due (id : JsString) (w : World S) (now : ℤ) : Prop :=
  ∀ rec t, w.fields.heldMap.get id = some rec → rec.deadline = some t → t*1000 ≤ now

/-- Ticks one after the other, each at or after the deadline of the envelope at that time. -/
inductive DueTicks (s : StagedRunner S) (id : JsString) : ℕ → World S → World S → Prop
  | zero (w : World S) : DueTicks s id 0 w w
  | succ {k : ℕ} {w mid w' : World S} (now : ℤ) (hdue : Due id w now)
    (ht : WholeTick s now w mid) (hrest : DueTicks s id k mid w') : DueTicks s id (k+1) w w'

/-- The registration has no record any more, and was completed or suppressed. -/
structure Released (h : ℕ) (w : World S) : Prop where
  gone : ∀ rec ∈ w.fields.heldMap.records, rec.hold ≠ h
  ended : ∃ p ∈ w.fields.log, p.hold = h ∧ (p.callback = .complete ∨ ∃ st, p.callback = .suppress st)

/-- So many due ticks can be taken, and whenever they are, the registration is released. -/
structure ReleasedWithin (s : StagedRunner S) (k : ℕ) (rec : StagedHeld S) (w : World S) :
    Prop where
  goes : ∃ w', DueTicks s rec.envelope_id k w w'
  released : ∀ w', DueTicks s rec.envelope_id k w w' → Released rec.hold w'

theorem drain (n : ℕ) (now : ℤ) (cs : List (Tasks.Call (Call S) (Pending S) (Js Returned)))
    (l : List (Job S)) (f : Fields S) :
    run s.calls ⟨(runNext n none f l).2,cs++[⟨.tick,(runNext n none f l).1⟩]⟩
        (List.replicate l.length (.resume cs.length ⟨now,.ok ()⟩)) =
      some ⟨{ f with log := f.log++l },cs++[⟨.tick,.done (.ok (.ticked n none))⟩]⟩ := by
  induction l generalizing f with
  | nil =>
    rw [List.append_nil]
    rfl
  | cons p rest ih =>
    have hstep : step s.calls ⟨(runNext n none f (p::rest)).2,
          cs++[⟨.tick,(runNext n none f (p::rest)).1⟩]⟩ (.resume cs.length ⟨now,.ok ()⟩) =
        some ⟨(runNext n none (f.note p) rest).2,
          cs++[⟨.tick,(runNext n none (f.note p) rest).1⟩]⟩ := by
      rw [step_resume]
      refine ⟨.tick,.ticking rest n none,by simp [runNext],?_⟩
      simp [World.resumed,runNext,calls,resume,Fields.note]
    have hih := ih (f.note p)
    rw [note_log,List.append_assoc] at hih
    rw [run,List.length_cons,List.replicate_succ,List.foldlM_cons,hstep]
    exact hih

/-- What a whole tick does: the sweep, and all that it collected is started. -/
theorem wholeTick_iff {now : ℤ} : WholeTick s now w w' ↔
    w' = ⟨{ s.sweep w.fields now with log := w.fields.log++s.toRun w.fields now },
      w.calls++[⟨.tick,.done (.ok (.ticked (s.toRun w.fields now).length none))⟩]⟩ := by
  have hrun := drain (s := s) (s.toRun w.fields now).length now w.calls (s.toRun w.fields now)
    (s.sweep w.fields now)
  unfold WholeTick
  rw [run,List.foldlM_cons]
  change run s.calls _ _ = some w' ↔ _
  change run s.calls (w.started .tick _) _ = _ at hrun
  constructor
  · intro h
    exact Option.some.inj (h.symm.trans hrun)
  · rintro rfl
    exact hrun

theorem sound_wholeTick {now : ℤ} (hw : Sound w.fields (queue w)) (h : WholeTick s now w w') :
    Sound w'.fields (queue w') := by
  have hreach : Reached s.calls (fun _ _ => True) w w' := reached_of_run h fun _ _ _ => trivial
  exact hreach.inv (I := fun w => Sound w.fields (queue w)) hw fun _ _ _ hu _ hs => sound_step hs hu

omit [LinearOrder S] in
theorem exists_due (id : JsString) (w : World S) : ∃ now, Due id w now := by
  cases hg : w.fields.heldMap.get id with
  | none => exact ⟨0,fun rec t h => by rw [hg] at h; cases h⟩
  | some rec =>
    refine ⟨(rec.deadline.getD 0)*1000,fun rec' t h ht => ?_⟩
    obtain rfl := Option.some.inj (hg.symm.trans h)
    rw [ht]
    exact le_refl _

theorem exists_dueTicks (s : StagedRunner S) (id : JsString) (k : ℕ) (w : World S) :
    ∃ w', DueTicks s id k w w' := by
  induction k generalizing w with
  | zero => exact ⟨w,.zero w⟩
  | succ k ih =>
    obtain ⟨now,hdue⟩ := exists_due id w
    obtain ⟨w',hrest⟩ := ih _
    exact ⟨w',.succ now hdue (wholeTick_iff.mpr rfl) hrest⟩

/-- A record without stages is still there after a tick. -/
theorem kept_wholeTick {now : ℤ} {rec : StagedHeld S} (h : WholeTick s now w w')
    (hrec : rec ∈ w.fields.heldMap.records) (hst : rec.stages = []) :
    rec ∈ w'.fields.heldMap.records := by
  obtain rfl := wholeTick_iff.mp h
  refine mem_sweep.mpr ⟨rec,hrec,?_⟩
  rw [visit,hst]

theorem kept_dueTicks {k : ℕ} {id : JsString} {rec : StagedHeld S} (h : DueTicks s id k w w')
    (hrec : rec ∈ w.fields.heldMap.records) (hst : rec.stages = []) :
    rec ∈ w'.fields.heldMap.records := by
  induction h with
  | zero => exact hrec
  | succ now _ ht _ ih => exact ih (kept_wholeTick ht hrec hst)

theorem Released.wholeTick {h : ℕ} {now : ℤ} (hr : Released h w) (ht : WholeTick s now w w') :
    Released h w' := by
  obtain rfl := wholeTick_iff.mp ht
  obtain ⟨p,hp,hend⟩ := hr.ended
  refine ⟨?_,p,List.mem_append_left _ hp,hend⟩
  intro rec' hrec'
  obtain ⟨rec,hrec,hv⟩ := mem_sweep.mp hrec'
  rw [(s.visit_keeps hv).2]
  exact hr.gone rec hrec

theorem Released.dueTicks {h k : ℕ} {id : JsString} (hr : Released h w)
    (ht : DueTicks s id k w w') : Released h w' := by
  induction ht with
  | zero => exact hr
  | succ now _ ht _ ih => exact ih (hr.wholeTick ht)

/-- A due tick releases an envelope from its last stage, or for a suppression; else it takes
it to the next stage. -/
theorem wholeTick_due {now : ℤ} {rec : StagedHeld S} {current : StagedHeldStage S}
    {stages : List (StagedHeldStage S)} (hw : Sound w.fields (queue w))
    (hrec : rec ∈ w.fields.heldMap.records) (hst : rec.stages = current::stages)
    (hdue : Due rec.envelope_id w now) (ht : WholeTick s now w w') :
    Released rec.hold w' ∨ stages ≠ [] ∧ ∃ rec' ∈ w'.fields.heldMap.records,
      rec'.envelope_id = rec.envelope_id ∧ rec'.hold = rec.hold ∧ rec'.stages = stages := by
  obtain ⟨t,hdeadline⟩ := hw.deadline rec hrec
  have hover : isStageComplete current now rec.deadline = true := by
    rw [hdeadline]
    exact isStageComplete_of_due _
      (hdue rec t (HeldMap.get_eq_some.mpr ⟨hrec,rfl⟩) hdeadline)
  obtain rfl := wholeTick_iff.mp ht
  have hgone {p : Job S} (hv : s.visit now rec = (none,some p))
      (hend : p.callback = .complete ∨ ∃ st, p.callback = .suppress st) :
      Released rec.hold ⟨{ s.sweep w.fields now with
        log := w.fields.log++s.toRun w.fields now },w.calls++[⟨.tick,.done (.ok
          (.ticked (s.toRun w.fields now).length none))⟩]⟩ := by
    constructor
    · intro rec' hrec' hh
      obtain ⟨rec₁,hrec₁,hv₁⟩ := mem_sweep.mp hrec'
      obtain rfl := hw.rec_unique hrec₁ hrec ((s.visit_keeps hv₁).2.symm.trans hh)
      rw [hv] at hv₁
      cases hv₁
    · have hp : (s.visit now rec).2 = some p := by rw [hv]
      exact ⟨p,List.mem_append_right _ (mem_toRun.mpr ⟨rec,hrec,hp⟩),(visit_job hp).1,hend⟩
  refine visit_cases (C := fun x => s.visit now rec = x → _) ?_ ?_ ?_ ?_ ?_ rfl
  · intro hnil
    rw [hst] at hnil
    cases hnil
  · intro c cs hc hnot
    obtain ⟨rfl,rfl⟩ := List.cons.inj (hst.symm.trans hc)
    rw [hover] at hnot
    cases hnot
  · exact fun _ _ _ _ _ hv => .inl (hgone hv (.inr ⟨_,rfl⟩))
  · exact fun _ _ _ _ hv => .inl (hgone hv (.inl rfl))
  · intro c next cs hc _ _ hv
    obtain ⟨rfl,rfl⟩ := List.cons.inj (hst.symm.trans hc)
    exact .inr ⟨List.cons_ne_nil _ _,_,mem_sweep.mpr ⟨rec,hrec,congrArg Prod.fst hv⟩,rfl,rfl,rfl⟩

/-- As many due ticks as there are stages release the envelope. -/
theorem released_of_dueTicks {k : ℕ} {stages : List (StagedHeldStage S)}
    {current : StagedHeldStage S} {rec : StagedHeld S} (hw : Sound w.fields (queue w))
    (hrec : rec ∈ w.fields.heldMap.records) (hst : rec.stages = current::stages)
    (hk : stages.length < k) (ht : DueTicks s rec.envelope_id k w w') : Released rec.hold w' := by
  induction stages generalizing current k rec w with
  | nil =>
    cases ht with
    | zero => cases hk
    | succ now hdue ht hrest =>
      rcases wholeTick_due hw hrec hst hdue ht with hr | ⟨hne,-⟩
      · exact hr.dueTicks hrest
      · exact absurd rfl hne
  | cons next stages ih =>
    cases ht with
    | zero => cases hk
    | succ now hdue ht hrest =>
      rcases wholeTick_due hw hrec hst hdue ht with hr | ⟨-,rec',hrec',hid,hh,hst'⟩
      · exact hr.dueTicks hrest
      · rw [← hh]
        exact ih (sound_wholeTick hw ht) hrec' hst' (Nat.lt_of_succ_lt_succ hk) (hid ▸ hrest)

/-- An envelope that is held is let go by one due tick more than it has stages, unless it has
none. -/
theorem releasedWithin_iff {ok : World S → Act S → Prop} (h : Reached s.calls ok World.initial w)
    {id : JsString} {rec : StagedHeld S} (hrec : w.fields.heldMap.get id = some rec) :
    ReleasedWithin s (rec.stages.length+1) rec w ↔ rec.stages ≠ [] := by
  have hmem := (HeldMap.get_eq_some.mp hrec).1
  constructor
  · intro hr hst
    obtain ⟨w',ht⟩ := hr.goes
    exact (hr.released w' ht).gone rec (kept_dueTicks ht hmem hst) rfl
  · intro hne
    obtain ⟨current,stages,hst⟩ := List.exists_cons_of_ne_nil hne
    refine ⟨exists_dueTicks s _ _ w,fun w' ht => ?_⟩
    refine released_of_dueTicks (sound_of_reached h) hmem hst ?_ ht
    rw [hst,List.length_cons]
    omega

/-- Callbacks do not throw. -/
def Returns : Act S → Prop
  | .resume _ env => env.callback = .ok ()
  | .start .. => True

end Ticks

namespace Sample

def returns : Act ℕ → Bool
  | .resume _ env => env.callback.isOk
  | .start .. => true

theorem returns_of_check (a : Act ℕ) (h : returns a = true) : Returns a := by
  cases a with
  | start c env => trivial
  | resume i env =>
    obtain ⟨now,_ | u⟩ := env
    · cases h
    · rfl

/-- The partition of the held envelope becomes empty. -/
def emptied : List (Act ℕ) :=
  [holds (js "a") [(1,js "x")] 0,.resume 0 (env 0),.start (.reevaluate (js "a") []) (env 0)]

theorem emptied_runs :
    (checkedRun runner.calls (fun _ a => returns a) World.initial emptied).isSome := by
  decide +kernel

def emptiedWorld : World ℕ :=
  (checkedRun runner.calls (fun _ a => returns a) World.initial emptied).get emptied_runs

theorem emptied_reached :
    Reached runner.calls (fun _ a => Returns a) World.initial emptiedWorld :=
  reached_of_checked (Option.some_get emptied_runs).symm fun _ => returns_of_check

def heldWorld : World ℕ :=
  World.initial.started (.hold (js "a") [⟨1,[js "x"],[]⟩,⟨2,[js "y"],[]⟩])
    (runner.start (env 0) .initial (.hold (js "a") [⟨1,[js "x"],[]⟩,⟨2,[js "y"],[]⟩]))

theorem stages_evaluated :
    (emptiedWorld.fields.heldMap.get (js "a")).map StagedHeld.stages = some [] ∧
    (heldWorld.fields.heldMap.get (js "a")).map StagedHeld.stages =
      some [⟨1,[js "x"],[]⟩,⟨2,[js "y"],[]⟩] := by decide +kernel

end Sample

/-- Ticks pass over an envelope whose stages a reevaluation removed. -/
theorem not_releasedWithin : ¬ ∀ w id rec,
    Reached Sample.runner.calls (fun _ a => Returns a) World.initial w →
    w.fields.heldMap.get id = some rec →
    ReleasedWithin Sample.runner (rec.stages.length+1) rec w := by
  intro h
  obtain ⟨rec,hrec,hst⟩ := Option.map_eq_some_iff.mp Sample.stages_evaluated.1
  have hr := h _ _ rec Sample.emptied_reached hrec
  obtain ⟨w',ht⟩ := hr.goes
  exact (hr.released w' ht).gone rec (kept_dueTicks ht (HeldMap.get_eq_some.mp hrec).1 hst) rfl

theorem releasedWithin_sample : ∃ rec, rec.stages.length = 2 ∧
    ReleasedWithin Sample.runner (rec.stages.length+1) rec Sample.heldWorld := by
  obtain ⟨rec,hrec,hst⟩ := Option.map_eq_some_iff.mp Sample.stages_evaluated.2
  have hreach : Reached Sample.runner.calls (fun _ a => Returns a) World.initial Sample.heldWorld :=
    Reached.refl.tail (a := .start _ (Sample.env 0)) trivial rfl
  exact ⟨rec,by rw [hst]; rfl,(releasedWithin_iff hreach hrec).mpr (by rw [hst]; exact nofun)⟩

section Devices

/-- A delivery for the registration that names the device. -/
def Served (l : List (Job S)) (h : ℕ) (d : JsString) : Prop :=
  ∃ p ∈ l, p.hold = h ∧ ∃ stage devs, p.callback = .deliver stage devs ∧ d ∈ devs

/-- Each device of each stage that the envelope of this job went through was served. -/
def AllServed (l : List (Job S)) (p : Job S) : Prop :=
  ∀ st ∈ p.left, ∀ d ∈ st.pending_device_ids, Served l p.hold d

/-- An envelope is completed after deliveries to all devices of its final stages. -/
def Complete (log : List (Job S)) : Prop :=
  ∀ pre p post, log = pre++p::post → p.callback = .complete → AllServed pre p

/-- A reevaluation leaves a current stage of devices that were delivered to, and a tick that
completes an envelope finds no callback of it still to run. -/
def Reserves (s : StagedRunner S) (w : World S) : Act S → Prop
  | .start .tick env => ∀ rec ∈ w.fields.heldMap.records, ∀ p, (s.visit env.now rec).2 = some p →
    p.callback = .complete → ∀ x ∈ queue w, x.hold ≠ rec.hold
  | .start (.reevaluate id newStages) _ => ∀ rec current rest,
    w.fields.heldMap.get id = some rec → rec.stages = current::rest →
    ∀ st ∈ (rebuild current newStages).head?, ∀ d ∈ st.pending_device_ids,
      Served (w.fields.log++queue w) rec.hold d
  | _ => True

/-- The stages a record went through, and its current one. -/
def reachedStages (rec : StagedHeld S) : List (StagedHeldStage S) :=
  rec.left++rec.stages.head?.toList

structure Serving (f : Fields S) (q : List (Job S)) : Prop where
  recs : ∀ rec ∈ f.heldMap.records, ∀ st ∈ reachedStages rec, ∀ d ∈ st.pending_device_ids,
    Served (f.log++q) rec.hold d
  queue : ∀ p ∈ q, p.callback = .complete → AllServed f.log p
  log : Complete f.log

variable {f : Fields S} {q : List (Job S)}

omit [LinearOrder S] in
theorem Served.mono {l l' : List (Job S)} {h : ℕ} {d : JsString} (hs : Served l h d)
    (hl : ∀ p ∈ l, p ∈ l') : Served l' h d := by
  obtain ⟨p,hp,hs⟩ := hs
  exact ⟨p,hl p hp,hs⟩

omit [LinearOrder S] in
theorem AllServed.mono {l l' : List (Job S)} {p : Job S} (hs : AllServed l p)
    (hl : ∀ p ∈ l, p ∈ l') : AllServed l' p := fun st hst d hd => (hs st hst d hd).mono hl

omit [LinearOrder S] in
theorem Complete.append {log : List (Job S)} {p : Job S} (h : Complete log)
    (hp : p.callback = .complete → AllServed log p) : Complete (log++[p]) := by
  intro pre x post heq hx
  rcases List.append_eq_append_iff.mp heq with ⟨as,hpre,hsplit⟩ | ⟨cs,hlog,hsplit⟩
  · cases as with
    | nil =>
      obtain ⟨rfl,-⟩ := List.cons.inj hsplit
      rw [hpre,List.append_nil]
      exact hp hx
    | cons y as => simp at hsplit
  · cases cs with
    | nil =>
      obtain ⟨rfl,-⟩ := List.cons.inj hsplit
      rw [List.append_nil] at hlog
      exact hlog ▸ hp hx
    | cons y cs =>
      obtain ⟨rfl,hpost⟩ := List.cons.inj hsplit
      exact h pre x cs hlog hx

omit [LinearOrder S] in
theorem Serving.initial : Serving (S := S) .initial [] where
  recs := by simp [Fields.initial,HeldMap.empty]
  queue := by simp
  log pre p post h := by simp [Fields.initial] at h

omit [LinearOrder S] in
theorem Serving.sweep (hs : Serving f q) {now : ℤ}
    (hok : ∀ rec ∈ f.heldMap.records, ∀ p, (s.visit now rec).2 = some p →
      p.callback = .complete → ∀ x ∈ q, x.hold ≠ rec.hold) :
    Serving (s.sweep f now) (q++s.toRun f now) where
  recs := by
    intro rec' hrec'
    obtain ⟨rec,hrec,hv⟩ := mem_sweep.mp hrec'
    have hall : ∀ p ∈ f.log++q, p ∈ f.log++(q++s.toRun f now) := by
      intro p hp
      rw [← List.append_assoc]
      exact List.mem_append_left _ hp
    have hjob : ∀ p, (s.visit now rec).2 = some p → p ∈ f.log++(q++s.toRun f now) :=
      fun p hp => List.mem_append_right _ (List.mem_append_right _ (mem_toRun.mpr ⟨rec,hrec,hp⟩))
    revert hv hjob
    refine visit_cases (C := fun r => r.1 = some rec' → (∀ p, r.2 = some p →
      p ∈ f.log++(q++s.toRun f now)) → ∀ st ∈ reachedStages rec', ∀ d ∈ st.pending_device_ids,
        Served (f.log++(q++s.toRun f now)) rec'.hold d) ?_ ?_ ?_ ?_ ?_
    · intro _ hv _ st hst d hd
      obtain rfl := Option.some.inj hv
      exact (hs.recs rec hrec st hst d hd).mono hall
    · intro _ _ _ _ hv _ st hst d hd
      obtain rfl := Option.some.inj hv
      exact (hs.recs rec hrec st hst d hd).mono hall
    · exact fun _ _ _ _ _ hv => nomatch hv
    · exact fun _ _ _ _ hv => nomatch hv
    · intro current next stages hstages _ _ hv hjob st hst d hd
      obtain rfl := Option.some.inj hv
      have hst' : st ∈ reachedStages rec ∨ st = next := by
        simpa [reachedStages,hstages,or_assoc] using hst
      rcases hst' with hst | rfl
      · exact (hs.recs rec hrec st hst d hd).mono hall
      · exact ⟨_,hjob _ rfl,rfl,_,_,rfl,hd⟩
  queue := by
    intro p hp hc
    rcases List.mem_append.mp hp with hp | hp
    · exact hs.queue p hp hc
    · obtain ⟨rec,hrec,hv⟩ := mem_toRun.mp hp
      have hleft : ∀ st ∈ p.left, st ∈ reachedStages rec := by
        revert hv
        refine visit_cases (C := fun r => r.2 = some p → ∀ st ∈ p.left, st ∈ reachedStages rec)
          ?_ ?_ ?_ ?_ ?_
        · exact fun _ hv => nomatch hv
        · exact fun _ _ _ _ hv => nomatch hv
        · intro current stages hst _ _ hv
          obtain rfl := Option.some.inj hv
          simp [reachedStages,hst,job]
        · intro current hst _ _ hv
          obtain rfl := Option.some.inj hv
          simp [reachedStages,hst,job]
        · intro current next stages hst _ _ hv
          obtain rfl := Option.some.inj hv
          simp [reachedStages,hst,job]
      intro st hst d hd
      obtain ⟨x,hx,hh,hserve⟩ := hs.recs rec hrec st (hleft st hst) d hd
      rcases List.mem_append.mp hx with hx | hx
      · exact ⟨x,hx,hh.trans (visit_job hv).1.symm,hserve⟩
      · exact absurd hh (hok rec hrec p hv hc x hx)
  log := hs.log

theorem Serving.register (hs : Serving f q) {now : ℤ} {id : JsString}
    {stages rest : List (StagedHeldStage S)} {first : StagedHeldStage S}
    (ha : s.checkHold f id stages = .ok (first::rest)) : Serving (s.register f now id first rest) q where
  recs := by
    intro rec hrec st hst d hd
    rw [register_records ha,List.mem_append,List.mem_singleton] at hrec
    rcases hrec with hrec | rfl
    · refine (hs.recs rec hrec st hst d hd).mono ?_
      simp only [StagedRunner.register,List.mem_append]
      tauto
    · obtain rfl : st = first := by simpa [reachedStages] using hst
      refine ⟨⟨id,.deliver st.stage st.pending_device_ids,f.holds.length,[]⟩,?_,rfl,_,_,rfl,hd⟩
      simp [StagedRunner.register]
  queue p hp hc := (hs.queue p hp hc).mono fun x hx => List.mem_append_left _ hx
  log := hs.log.append nofun

omit [LinearOrder S] in
/-- Other stages of a record whose current one has served devices only. -/
theorem Serving.setStages (hs : Serving f q) {id : JsString} {stages : List (StagedHeldStage S)}
    (hok : ∀ rec ∈ f.heldMap.records, rec.envelope_id = id → ∀ st ∈ stages.head?,
      ∀ d ∈ st.pending_device_ids, Served (f.log++q) rec.hold d) :
    Serving { f with heldMap := f.heldMap.setStages id stages } q where
  recs := by
    intro rec' hrec' st hst d hd
    rcases HeldMap.of_mem_setStages hrec' with ⟨hrec,-⟩ | ⟨rec,hrec,hid,rfl⟩
    · exact hs.recs rec' hrec st hst d hd
    · rcases List.mem_append.mp hst with hst | hst
      · exact hs.recs rec hrec st (List.mem_append_left _ hst) d hd
      · exact hok rec hrec hid st (by simpa using hst) d hd
  queue := hs.queue
  log := hs.log

omit [LinearOrder S] in
theorem Serving.run {pre rest post : List (Job S)} {p : Job S}
    (hs : Serving f (pre++p::rest++post)) : Serving (f.note p) (pre++rest++post) where
  recs := by
    intro rec hrec st hst d hd
    refine (hs.recs rec hrec st hst d hd).mono ?_
    intro x hx
    simp only [note_log,List.mem_append,List.mem_cons,List.not_mem_nil,or_false] at hx ⊢
    tauto
  queue := by
    intro x hx hc
    refine (hs.queue x ?_ hc).mono fun y hy => List.mem_append_left _ hy
    simp only [List.mem_append,List.mem_cons] at hx ⊢
    tauto
  log := hs.log.append (hs.queue p (by simp))

theorem serving_step (h : step s.calls w a = some w') (hok : Reserves s w a)
    (hs : Serving w.fields (queue w)) : Serving w'.fields (queue w') := by
  have hsame {id : JsString} {rec rec₁ : StagedHeld S} (hg : w.fields.heldMap.get id = some rec)
      (hrec : rec₁ ∈ w.fields.heldMap.records) (hid : rec₁.envelope_id = id) : rec = rec₁ :=
    Option.some.inj (hg.symm.trans (HeldMap.get_eq_some.mpr ⟨hrec,hid⟩))
  apply step_inv h hs
  · intro id stages first rest env _ ha
    exact hs.register ha
  · intro id submitter d env rec current rest _ hg hst
    refine hs.setStages fun rec₁ hrec hid st hhead => ?_
    obtain rfl := hsame hg hrec hid
    obtain rfl := Option.some.inj hhead
    exact hs.recs rec hrec current (by simp [reachedStages,hst])
  · rintro id newStages env rec current rest rfl hg hst
    refine hs.setStages fun rec₁ hrec hid => ?_
    obtain rfl := hsame hg hrec hid
    exact hok rec current rest hg hst
  · intro i env id n c _ _
    exact ⟨fun rec hrec => hs.recs rec (HeldMap.mem_delete.mp hrec).1,hs.queue,hs.log⟩
  · rintro env rfl
    exact hs.sweep hok
  · exact fun f pre p rest post hf => hf.run

theorem complete_of_reserves (h : Reached s.calls (Reserves s) World.initial w) :
    Complete w.fields.log :=
  (h.inv (I := fun w => Serving w.fields (queue w)) .initial
    fun _ _ _ hu hok hs => serving_step hs hok hu).log

end Devices

namespace Sample

/-- A device is added to the current stage, which was delivered already. -/
def widened : List (Act ℕ) :=
  [holds (js "a") [(1,js "x")] 0,.resume 0 (env 0),
    .start (.reevaluate (js "a") [⟨1,[js "x",js "y"],[]⟩]) (env 0),.start .tick (env 30000)]

theorem widened_runs : (run runner.calls World.initial widened).isSome := by decide +kernel

def widenedWorld : World ℕ := (run runner.calls World.initial widened).get widened_runs

theorem widened_log : widenedWorld.fields.log =
    [⟨js "a",.deliver 1 [js "x"],0,[]⟩,
      ⟨js "a",.complete,0,[⟨1,[js "x",js "y"],[]⟩]⟩] := by decide +kernel

end Sample

theorem not_complete : ¬ ∀ w, Reached Sample.runner.calls (fun _ _ => True) World.initial w →
    Complete w.fields.log := by
  intro h
  have hall := h _ (reached_get Sample.widened_runs fun _ _ _ => trivial)
    [⟨js "a",.deliver 1 [js "x"],0,[]⟩] _ [] Sample.widened_log rfl
  obtain ⟨p,hp,-,stage,devs,hc,hd⟩ := hall ⟨1,[js "x",js "y"],[]⟩ (by simp) (js "y") (by simp)
  obtain rfl := List.mem_singleton.mp hp
  cases hc
  revert hd
  decide

namespace Sample

def served (l : List (Job ℕ)) (h : ℕ) (d : JsString) : Bool :=
  l.any fun p => decide (p.hold = h) && match p.callback with
    | .deliver _ devs => decide (d ∈ devs)
    | _ => false

theorem served_of_check {l : List (Job ℕ)} {h : ℕ} {d : JsString} (hs : served l h d = true) :
    Served l h d := by
  obtain ⟨p,hp,hc⟩ := List.any_eq_true.mp hs
  obtain ⟨hh,hd⟩ := (Bool.and_eq_true _ _).mp hc
  refine ⟨p,hp,of_decide_eq_true hh,?_⟩
  split at hd
  next stage devs hcb => exact ⟨stage,devs,hcb,of_decide_eq_true hd⟩
  next => cases hd

def reserves (w : World ℕ) : Act ℕ → Bool
  | .start .tick _ => (queue w).isEmpty
  | .start (.reevaluate id newStages) _ => w.fields.heldMap.records.all fun rec =>
    rec.envelope_id != id || rec.stages.head?.all fun current =>
      (rebuild current newStages).head?.all fun st =>
        st.pending_device_ids.all (served (w.fields.log++queue w) rec.hold)
  | _ => true

theorem reserves_of_check (w : World ℕ) (a : Act ℕ) (h : reserves w a = true) :
    Reserves runner w a := by
  cases a with
  | resume i env => trivial
  | start c env =>
    cases c with
    | hold id stages => trivial
    | ingestDisposition id submitter d => trivial
    | tick =>
      intro _ _ _ _ _ x hx
      rw [List.isEmpty_iff.mp h] at hx
      cases hx
    | reevaluate id newStages =>
      intro rec current rest hg hst st hhead d hd
      obtain ⟨hrec,hid⟩ := HeldMap.get_eq_some.mp hg
      have hall := List.all_eq_true.mp h rec hrec
      rw [hid,bne_self_eq_false,Bool.false_or,hst] at hall
      rw [List.head?_cons,Option.all_some,Option.mem_def.mp hhead,Option.all_some] at hall
      exact served_of_check (List.all_eq_true.mp hall d hd)

/-- The second stage gets another device before it is reached. -/
def replaced : List (Act ℕ) :=
  [holds (js "a") [(1,js "x"),(2,js "y")] 0,.resume 0 (env 0),
    .start (.reevaluate (js "a") [⟨1,[js "x"],[]⟩,⟨2,[js "z"],[]⟩]) (env 0),
    .start .tick (env 30000),.resume 2 (env 30000),.start .tick (env 60000)]

theorem replaced_runs : (checkedRun runner.calls reserves World.initial replaced).isSome := by
  decide +kernel

def replacedWorld : World ℕ :=
  (checkedRun runner.calls reserves World.initial replaced).get replaced_runs

end Sample

theorem complete_sample : Sample.replacedWorld.fields.log.map Job.callback =
    [.deliver 1 [js "x"],.deliver 2 [js "z"],.complete] ∧
    Complete Sample.replacedWorld.fields.log :=
  ⟨by decide +kernel,complete_of_reserves (reached_of_checked
    (Option.some_get Sample.replaced_runs).symm Sample.reserves_of_check)⟩

end StagedRunner
end Semp
