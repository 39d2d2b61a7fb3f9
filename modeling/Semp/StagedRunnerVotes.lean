import Semp.StagedRunnerRelease

/-! The votes of the staged runner: the dispositions that are recorded for a held envelope.
Each should be about the envelope, from a device of its stage, and the first one that the
device submitted there.  A disposition names an envelope of its own, and a new partition
takes over the dispositions of the current stage. -/
namespace Semp
namespace StagedRunner
open Tasks

variable {S : Type}

/-- A disposition that a call of `ingestDisposition` took, with the registration and the
stage that it was submitted at. -/
structure Vote (S : Type) where
  hold : ℕ
  stage : S
  disposition : Disposition
  deriving DecidableEq, Repr

/-- A vote of this device at this stage of a registration. -/
def Vote.isOf [DecidableEq S] (h : ℕ) (stage : S) (device : JsString) (v : Vote S) : Bool :=
  decide (v.hold = h ∧ v.stage = stage ∧ v.disposition.device_id = device)

/-- What a step takes, whether or not it is recorded. -/
def heard [LinearOrder S] (s : StagedRunner S) (w : World S) : Act S → List (Vote S)
  | .start (.ingestDisposition id submitter d) _ =>
    match s.ingest w.fields id submitter d, w.fields.heldMap.get id with
    | .ok _, some rec => (rec.stages.head?.map fun current => ⟨rec.hold,current.stage,d⟩).toList
    | _, _ => []
  | _ => []

/-- The states of the runs whose every step meets `ok`, with the votes that were heard. -/
inductive Heard [LinearOrder S] (s : StagedRunner S) (ok : World S → Act S → Prop) :
    World S → List (Vote S) → Prop
  | initial : Heard s ok .initial []
  | tail {w w' : World S} {vs : List (Vote S)} {a : Act S} (h : Heard s ok w vs) (hok : ok w a)
    (hs : step s.calls w a = some w') : Heard s ok w' (vs++heard s w a)

/-- What is recorded at the stages of held envelopes. -/
def ProperVotes [LinearOrder S] (w : World S) (vs : List (Vote S)) : Prop :=
  ∀ rec ∈ w.fields.heldMap.records, ∀ st ∈ rec.stages,
    (st.dispositions.map Disposition.device_id).Nodup ∧
    ∀ d ∈ st.dispositions, d.source_envelope_id = rec.envelope_id ∧
      d.device_id ∈ st.pending_device_ids ∧
      vs.find? (Vote.isOf rec.hold st.stage d.device_id) = some ⟨rec.hold,st.stage,d⟩

/-- The disposition is recorded at the stage. -/
structure Counts (current : StagedHeldStage S) (submitter : JsString) (d : Disposition) : Prop where
  valid : validateDisposition d = .ok ()
  submitter : submitter = d.device_id
  member : d.device_id ∈ current.pending_device_ids
  first : ∀ prior ∈ current.dispositions, prior.device_id ≠ d.device_id

/-- The partition has the devices that voted at the current stage, where it has the stage,
and no two stages of one number. -/
structure Carries [LinearOrder S] (current : StagedHeldStage S) (newStages : List (StagedHeldStage S)) :
    Prop where
  voters : ∀ st ∈ newStages, st.stage = current.stage → st.pending_device_ids ≠ [] →
    ∀ d ∈ current.dispositions, d.device_id ∈ st.pending_device_ids
  distinct : ((newStages.filter fun st => current.stage ≤ st.stage ∧ st.pending_device_ids ≠ []).map
    StagedHeldStage.stage).Nodup

/-- What is recorded is about the envelope of the call, and a new partition carries over what
was recorded. -/
def Fair [LinearOrder S] (w : World S) : Act S → Prop
  | .start (.ingestDisposition id submitter d) _ => ∀ rec current rest,
    w.fields.heldMap.get id = some rec → rec.stages = current::rest → Counts current submitter d →
      d.source_envelope_id = id
  | .start (.reevaluate id newStages) _ => ∀ rec current rest,
    w.fields.heldMap.get id = some rec → rec.stages = current::rest → Carries current newStages
  | _ => True

section Votes
variable [LinearOrder S]

/-- The current stage of a registration has the first vote of each device, and no vote was
heard at a later one. -/
structure Collected (vs : List (Vote S)) (h : ℕ) (id : JsString) (current : StagedHeldStage S) :
    Prop where
  behind : ∀ v ∈ vs, v.hold = h → v.stage ≤ current.stage
  first : ∀ device, vs.find? (Vote.isOf h current.stage device) =
    (current.dispositions.find? (·.device_id = device)).map fun d => ⟨h,current.stage,d⟩
  distinct : (current.dispositions.map Disposition.device_id).Nodup
  proper : ∀ d ∈ current.dispositions, d.source_envelope_id = id ∧
    d.device_id ∈ current.pending_device_ids

/-- What the votes say about a record: they are collected at its current stage. -/
structure Voted (vs : List (Vote S)) (rec : StagedHeld S) : Prop where
  increasing : rec.stages.Pairwise (·.stage < ·.stage)
  current : ∀ st, rec.stages.head? = some st → Collected vs rec.hold rec.envelope_id st
  later : ∀ st ∈ rec.stages.tail, st.dispositions = []

/-- A stage after all the votes, where nothing is recorded. -/
theorem Collected.empty {vs : List (Vote S)} {h : ℕ} {id : JsString} {st : StagedHeldStage S}
    (hbehind : ∀ v ∈ vs, v.hold = h → v.stage < st.stage) (hst : st.dispositions = []) :
    Collected vs h id st where
  behind v hv hh := (hbehind v hv hh).le
  first device := by
    rw [hst,List.find?_nil,Option.map_none,List.find?_eq_none]
    intro v hv hof
    obtain ⟨hh,hstage,-⟩ := of_decide_eq_true hof
    exact (hbehind v hv hh).ne hstage
  distinct := by simp [hst]
  proper := by simp [hst]

/-- The votes of other registrations change nothing. -/
theorem Collected.append {vs new : List (Vote S)} {h : ℕ} {id : JsString} {st : StagedHeldStage S}
    (hc : Collected vs h id st) (hnew : ∀ v ∈ new, v.hold ≠ h) : Collected (vs++new) h id st where
  behind v hv hh := by
    rcases List.mem_append.mp hv with hv | hv
    · exact hc.behind v hv hh
    · exact absurd hh (hnew v hv)
  first device := by
    have hnone : new.find? (Vote.isOf h st.stage device) = none := by
      rw [List.find?_eq_none]
      exact fun v hv hof => hnew v hv (of_decide_eq_true hof).1
    rw [List.find?_append,hnone,Option.or_none,hc.first]
  distinct := hc.distinct
  proper := hc.proper

/-- A vote for the current stage is the first one of its device and is recorded, or it
changes nothing. -/
theorem Collected.vote {vs : List (Vote S)} {h : ℕ} {id : JsString} {st : StagedHeldStage S}
    (hc : Collected vs h id st) {d : Disposition} (hmember : d.device_id ∈ st.pending_device_ids)
    (hsource : (∀ prior ∈ st.dispositions, prior.device_id ≠ d.device_id) →
      d.source_envelope_id = id) :
    Collected (vs++[⟨h,st.stage,d⟩]) h id (if st.dispositions.any (·.device_id = d.device_id) then st
      else { st with dispositions := st.dispositions++[d] }) := by
  have hbehind : ∀ v ∈ vs++[⟨h,st.stage,d⟩], v.hold = h → v.stage ≤ st.stage := by
    intro v hv hh
    rcases List.mem_append.mp hv with hv | hv
    · exact hc.behind v hv hh
    · obtain rfl := List.mem_singleton.mp hv
      exact le_rfl
  have hof (device : JsString) : Vote.isOf h st.stage device ⟨h,st.stage,d⟩ =
      decide (d.device_id = device) := by simp [Vote.isOf]
  split
  next hany =>
    refine ⟨hbehind,fun device => ?_,hc.distinct,hc.proper⟩
    rw [List.find?_append,hc.first]
    by_cases hd : d.device_id = device
    · obtain ⟨prior,hprior,heq⟩ := List.any_eq_true.mp hany
      have hsome : (st.dispositions.find? (·.device_id = device)).isSome := by
        rw [List.find?_isSome]
        exact ⟨prior,hprior,by simpa [hd] using heq⟩
      obtain ⟨first,hfirst⟩ := Option.isSome_iff_exists.mp hsome
      rw [hfirst]
      rfl
    · rw [List.find?_singleton,hof,decide_eq_false hd]
      simp
  next hany =>
    have hnew : ∀ prior ∈ st.dispositions, prior.device_id ≠ d.device_id := by simpa using hany
    refine ⟨hbehind,fun device => ?_,?_,?_⟩
    · rw [List.find?_append,List.find?_append,hc.first,List.find?_singleton,List.find?_singleton,hof]
      by_cases hd : d.device_id = device
      · have hnone : st.dispositions.find? (·.device_id = device) = none := by
          rw [List.find?_eq_none]
          intro prior hprior
          simpa [hd] using hnew prior hprior
        simp [hnone,hd]
      · simp [hd]
    · rw [List.map_append,List.nodup_append]
      refine ⟨hc.distinct,by simp,?_⟩
      intro a ha b hb
      obtain ⟨prior,hprior,rfl⟩ := List.mem_map.mp ha
      obtain rfl : b = d.device_id := by simpa using hb
      exact hnew prior hprior
    · intro x hx
      rcases List.mem_append.mp hx with hx | hx
      · exact hc.proper x hx
      · obtain rfl := List.mem_singleton.mp hx
        exact ⟨hsource hnew,hmember⟩

/-- The new stages in order, none of a number below the current one. -/
theorem rebuild_increasing {current : StagedHeldStage S} {newStages : List (StagedHeldStage S)}
    (h : Carries current newStages) : (rebuild current newStages).Pairwise (·.stage < ·.stage) := by
  have hsorted : (((newStages.filter (current.stage ≤ ·.stage)).insertionSort
      (·.stage ≤ ·.stage)).filter (·.pending_device_ids ≠ [])).Pairwise (·.stage ≤ ·.stage) :=
    (List.pairwise_insertionSort _ _).sublist List.filter_sublist
  have hperm : (((newStages.filter (current.stage ≤ ·.stage)).insertionSort
      (·.stage ≤ ·.stage)).filter (·.pending_device_ids ≠ [])).Perm
      (newStages.filter fun st => current.stage ≤ st.stage ∧ st.pending_device_ids ≠ []) := by
    refine ((List.perm_insertionSort _ _).filter _).trans (List.Perm.of_eq ?_)
    rw [List.filter_filter]
    congr 1
    funext st
    simp [Bool.and_comm]
  have hdistinct := List.pairwise_map.mp ((hperm.map StagedHeldStage.stage).nodup_iff.mpr h.distinct)
  rw [rebuild,List.pairwise_map]
  exact hsorted.imp₂ (fun a b hle hne => lt_of_le_of_ne hle hne) hdistinct

theorem mem_rebuild {current st : StagedHeldStage S} {newStages : List (StagedHeldStage S)}
    (h : st ∈ rebuild current newStages) : ∃ x ∈ newStages, current.stage ≤ x.stage ∧
      x.pending_device_ids ≠ [] ∧ st = { x with
        dispositions := if x.stage = current.stage then current.dispositions else [] } := by
  obtain ⟨x,hx,rfl⟩ := List.mem_map.mp h
  obtain ⟨hx,hne⟩ := List.mem_filter.mp hx
  obtain ⟨hx,hle⟩ := List.mem_filter.mp ((List.perm_insertionSort _ _).mem_iff.mp hx)
  exact ⟨x,hx,by simpa using hle,by simpa using hne,rfl⟩

/-- A partition that carries the votes over keeps them collected. -/
theorem Voted.rebuild {vs : List (Vote S)} {rec : StagedHeld S} {current : StagedHeldStage S}
    {rest newStages : List (StagedHeldStage S)} (h : Voted vs rec) (hst : rec.stages = current::rest)
    (hc : Carries current newStages) :
    Voted vs { rec with stages := rebuild current newStages } := by
  have hcollected := h.current current (by rw [hst]; rfl)
  have hincreasing := rebuild_increasing hc
  refine ⟨hincreasing,fun st hhead => ?_,fun st htail => ?_⟩
  · obtain ⟨x,hx,hle,hne,rfl⟩ := mem_rebuild (List.mem_of_mem_head? hhead)
    rcases hle.eq_or_lt with heq | hlt
    · refine {
        behind := by
          dsimp only
          exact heq ▸ hcollected.behind
        first := fun device => ?_
        distinct := by
          dsimp only
          rw [if_pos heq.symm]
          exact hcollected.distinct
        proper := ?_ }
      · dsimp only
        rw [if_pos heq.symm,← heq]
        exact hcollected.first device
      · dsimp only
        rw [if_pos heq.symm]
        exact fun d hd => ⟨(hcollected.proper d hd).1,hc.voters x hx heq.symm hne d hd⟩
    · exact .empty (fun v hv hh => (hcollected.behind v hv hh).trans_lt hlt)
        (if_neg hlt.ne')
  · -- A stage that is not the first one is above the current one.
    cases hr : StagedRunner.rebuild current newStages with
    | nil =>
      rw [hr] at htail
      cases htail
    | cons first others =>
      rw [hr] at htail hincreasing
      obtain ⟨y,-,hle,-,rfl⟩ := mem_rebuild (hr ▸ List.mem_cons_self : first ∈ _)
      obtain ⟨x,-,-,-,rfl⟩ := mem_rebuild (hr ▸ List.mem_cons_of_mem _ htail : st ∈ _)
      have hmem : { x with dispositions := if x.stage = current.stage then current.dispositions
          else [] } ∈ others := htail
      have hlt := List.rel_of_pairwise_cons hincreasing hmem
      exact if_neg (hle.trans_lt hlt).ne'

/-- A stage that is left is behind the next one, where nothing was heard yet. -/
theorem Voted.advance {vs : List (Vote S)} {rec : StagedHeld S} {current next : StagedHeldStage S}
    {stages left : List (StagedHeldStage S)} {deadline : Option ℤ} (h : Voted vs rec)
    (hst : rec.stages = current::next::stages) :
    Voted vs { rec with stages := next::stages, deadline := deadline, left := left } := by
  have hcollected := h.current current (by rw [hst]; rfl)
  have hincreasing := h.increasing
  have hlater := h.later
  rw [hst] at hincreasing hlater
  have hlt : current.stage < next.stage := List.rel_of_pairwise_cons hincreasing List.mem_cons_self
  refine ⟨hincreasing.of_cons,fun st hhead => ?_,fun st htail => hlater st (.tail _ htail)⟩
  obtain rfl := Option.some.inj hhead
  exact .empty (fun v hv hh => (hcollected.behind v hv hh).trans_lt hlt)
    (hlater next List.mem_cons_self)

/-- Votes of other registrations change nothing for a record. -/
theorem Voted.append {vs new : List (Vote S)} {rec : StagedHeld S} (h : Voted vs rec)
    (hnew : ∀ v ∈ new, v.hold ≠ rec.hold) : Voted (vs++new) rec :=
  ⟨h.increasing,fun st hst => (h.current st hst).append hnew,h.later⟩

/-- The votes are of registrations, and collected at the current stages of the records. -/
structure AllVoted (vs : List (Vote S)) (f : Fields S) : Prop where
  known : ∀ v ∈ vs, v.hold < f.holds.length
  recs : ∀ rec ∈ f.heldMap.records, Voted vs rec

variable {s : StagedRunner S} {w w' : World S} {vs : List (Vote S)}

theorem AllVoted.initial : AllVoted ([] : List (Vote S)) .initial where
  known := by simp
  recs := by simp [Fields.initial,HeldMap.empty]

theorem AllVoted.register {f : Fields S} (hv : AllVoted vs f) {now : ℤ} {id : JsString}
    {stages rest : List (StagedHeldStage S)} {first : StagedHeldStage S}
    (ha : s.checkHold f id stages = .ok (first::rest)) :
    AllVoted vs (s.register f now id first rest) where
  known v hv' := by
    have := hv.known v hv'
    simp only [StagedRunner.register,List.length_append,List.length_singleton]
    omega
  recs rec hrec := by
    rw [register_records ha,List.mem_append,List.mem_singleton] at hrec
    rcases hrec with hrec | rfl
    · exact hv.recs rec hrec
    obtain ⟨-,hincreasing,hfresh⟩ := cleaned_of_checkHold ha
    have hempty : ∀ st ∈ first::rest, st.dispositions = [] := by
      intro st hst
      rw [← (hfresh st hst).1]
      rfl
    refine ⟨hincreasing,fun st hhead => ?_,fun st htail => hempty st (.tail _ htail)⟩
    obtain rfl := Option.some.inj hhead
    exact .empty (fun v hv' hh => absurd hh (hv.known v hv').ne) (hempty first List.mem_cons_self)

theorem AllVoted.setStages {f : Fields S} (hv : AllVoted vs f) {id : JsString} {rec : StagedHeld S}
    {stages : List (StagedHeldStage S)} (hg : f.heldMap.get id = some rec)
    (hrec : Voted vs { rec with stages := stages }) :
    AllVoted vs { f with heldMap := f.heldMap.setStages id stages } where
  known := hv.known
  recs rec' hrec' := by
    rcases HeldMap.of_mem_setStages hrec' with ⟨hmem,-⟩ | ⟨rec₁,hmem,hid,rfl⟩
    · exact hv.recs rec' hmem
    · cases hg.symm.trans (HeldMap.get_eq_some.mpr ⟨hmem,hid⟩)
      exact hrec

theorem AllVoted.sweep {f : Fields S} (hv : AllVoted vs f) (now : ℤ) :
    AllVoted vs (s.sweep f now) where
  known := hv.known
  recs rec' hrec' := by
    obtain ⟨rec,hrec,hvisit⟩ := mem_sweep.mp hrec'
    have hold := hv.recs rec hrec
    revert hvisit
    refine visit_cases (C := fun r => r.1 = some rec' → Voted vs rec') ?_ ?_ ?_ ?_ ?_
    · rintro - hkept
      exact Option.some.inj hkept ▸ hold
    · rintro _ _ - - hkept
      exact Option.some.inj hkept ▸ hold
    · exact fun _ _ _ _ _ hkept => nomatch hkept
    · exact fun _ _ _ _ hkept => nomatch hkept
    · rintro current next stages hst - - hkept
      exact Option.some.inj hkept ▸ hold.advance hst

/-- A vote that is taken, for the record of its envelope. -/
theorem AllVoted.ingest {f f' : Fields S} {q : List (Job S)} (hs : Sound f q) (hv : AllVoted vs f)
    {id : JsString} {d : Disposition} {rec : StagedHeld S} {current : StagedHeldStage S}
    {rest : List (StagedHeldStage S)} (hg : f.heldMap.get id = some rec)
    (hst : rec.stages = current::rest) (hmember : d.device_id ∈ current.pending_device_ids)
    (hf : f' = if current.dispositions.any (·.device_id = d.device_id) then f
      else { f with
        heldMap := f.heldMap.setStages id
          ({ current with dispositions := current.dispositions++[d] }::rest) })
    (hsource : (∀ prior ∈ current.dispositions, prior.device_id ≠ d.device_id) →
      d.source_envelope_id = id) :
    AllVoted (vs++[⟨rec.hold,current.stage,d⟩]) f' := by
  obtain ⟨hmem,rfl⟩ := HeldMap.get_eq_some.mp hg
  have hrec := hv.recs rec hmem
  have hvoted := (hrec.current current (by rw [hst]; rfl)).vote hmember hsource
  have hincreasing := hrec.increasing
  have hlater := hrec.later
  rw [hst] at hincreasing hlater
  have hothers : ∀ rec' ∈ f.heldMap.records, rec'.envelope_id ≠ rec.envelope_id →
      Voted (vs++[⟨rec.hold,current.stage,d⟩]) rec' := by
    intro rec' hrec' hne
    refine (hv.recs rec' hrec').append fun v hv' hh => hne ?_
    obtain rfl := List.mem_singleton.mp hv'
    rw [hs.rec_unique hmem hrec' hh]
  have hthis : Voted (vs++[⟨rec.hold,current.stage,d⟩]) { rec with
      stages := (if current.dispositions.any (·.device_id = d.device_id) then current
        else { current with dispositions := current.dispositions++[d] })::rest } := by
    refine ⟨?_,fun st hhead => ?_,hlater⟩
    · rw [List.pairwise_cons] at hincreasing ⊢
      refine ⟨fun st hmem => ?_,hincreasing.2⟩
      split
      · exact hincreasing.1 st hmem
      · exact hincreasing.1 st hmem
    · obtain rfl := Option.some.inj hhead
      exact hvoted
  have hknown : ∀ v ∈ vs++[⟨rec.hold,current.stage,d⟩], v.hold < f.holds.length := by
    intro v hv'
    rcases List.mem_append.mp hv' with hv' | hv'
    · exact hv.known v hv'
    · obtain rfl := List.mem_singleton.mp hv'
      exact hs.hold_lt hmem
  split at hf
  next hany =>
    subst hf
    refine ⟨hknown,fun rec' hrec' => ?_⟩
    by_cases hid : rec'.envelope_id = rec.envelope_id
    · obtain rfl : rec' = rec :=
        List.inj_on_of_nodup_map f'.heldMap.nodup hrec' hmem hid
      rw [if_pos hany,← hst] at hthis
      exact hthis
    · exact hothers rec' hrec' hid
  next hany =>
    subst hf
    refine ⟨hknown,fun rec' hrec' => ?_⟩
    rcases HeldMap.of_mem_setStages hrec' with ⟨hrec',hid⟩ | ⟨rec₁,hrec₁,hid,rfl⟩
    · exact hothers rec' hrec' hid
    · obtain rfl : rec₁ = rec := List.inj_on_of_nodup_map f.heldMap.nodup hrec₁ hmem hid
      rw [if_neg hany] at hthis
      exact hthis

/-- A step other than a vote. -/
theorem allVoted_other {a : Act S} (h : step s.calls w a = some w') (hok : Fair w a)
    (hne : ∀ id submitter d env, a ≠ .start (.ingestDisposition id submitter d) env)
    (hv : AllVoted vs w.fields) : AllVoted vs w'.fields := by
  apply step_inv h (I := fun f _ => AllVoted vs f) hv
  · intro id stages first rest env _ ha
    exact hv.register ha
  · intro id submitter d env _ _ _ ha
    exact absurd ha (hne id submitter d env)
  · rintro id newStages env rec current rest rfl hg hst
    have hmem := (HeldMap.get_eq_some.mp hg).1
    exact hv.setStages hg ((hv.recs rec hmem).rebuild hst (hok rec current rest hg hst))
  · intro i env id n c _ _
    exact ⟨hv.known,fun rec hrec => hv.recs rec (HeldMap.mem_delete.mp hrec).1⟩
  · intro env _
    exact hv.sweep env.now
  · exact fun f pre p rest post hf => ⟨hf.known,hf.recs⟩

theorem allVoted_step {a : Act S} (h : step s.calls w a = some w') (hok : Fair w a)
    (hs : Sound w.fields (queue w)) (hv : AllVoted vs w.fields) :
    AllVoted (vs++heard s w a) w'.fields := by
  have hother (hheard : heard s w a = []) (hne : ∀ id submitter d env,
      a ≠ .start (.ingestDisposition id submitter d) env) :
      AllVoted (vs++heard s w a) w'.fields := by
    rw [hheard,List.append_nil]
    exact allVoted_other h hok hne hv
  cases a with
  | resume i env => exact hother rfl nofun
  | start c env =>
    cases c with
    | hold id stages => exact hother rfl nofun
    | tick => exact hother rfl nofun
    | reevaluate id newStages => exact hother rfl nofun
    | ingestDisposition id submitter d =>
      obtain rfl := Option.some.inj h
      change AllVoted _ (settle w.fields .ingested (s.ingest w.fields id submitter d)).2
      simp only [heard]
      cases hi : s.ingest w.fields id submitter d with
      | error e =>
        rw [List.append_nil]
        exact hv
      | ok f' =>
        obtain ⟨hvalid,hsubmitter,rec,current,rest,hg,hst,hmember,hf⟩ := ingest_eq_ok hi
        simp only [hg,hst,List.head?_cons,Option.map_some,Option.toList_some]
        exact hv.ingest hs hg hst hmember hf fun hfirst =>
          hok rec current rest hg hst ⟨hvalid,hsubmitter,hmember,hfirst⟩

theorem Heard.reached {ok : World S → Act S → Prop} (h : Heard s ok w vs) :
    Reached s.calls ok World.initial w := by
  induction h with
  | initial => exact .refl
  | tail _ hok hs ih => exact ih.tail hok hs

/-- Every run has its votes. -/
theorem heard_of_reached {ok : World S → Act S → Prop} (h : Reached s.calls ok World.initial w) :
    ∃ vs, Heard s ok w vs := by
  induction h with
  | refl => exact ⟨[],.initial⟩
  | tail _ hok hs ih =>
    obtain ⟨vs,hvs⟩ := ih
    exact ⟨_,hvs.tail hok hs⟩

theorem allVoted_of_heard (h : Heard s Fair w vs) : AllVoted vs w.fields := by
  induction h with
  | initial => exact .initial
  | tail h hok hs ih => exact allVoted_step hs hok (sound_of_reached h.reached) ih

/-- In the runs whose steps are fair only proper votes count. -/
theorem properVotes_of_fair (h : Heard s Fair w vs) : ProperVotes w vs := by
  intro rec hrec st hst
  have hv := (allVoted_of_heard h).recs rec hrec
  cases hstages : rec.stages with
  | nil =>
    rw [hstages] at hst
    cases hst
  | cons current rest =>
    rw [hstages] at hst
    rcases List.mem_cons.mp hst with rfl | hst
    · have hc := hv.current st (by rw [hstages]; rfl)
      refine ⟨hc.distinct,fun d hd => ⟨(hc.proper d hd).1,(hc.proper d hd).2,?_⟩⟩
      have hfind : st.dispositions.find? (·.device_id = d.device_id) = some d := by
        have hsome : (st.dispositions.find? (·.device_id = d.device_id)).isSome := by
          rw [List.find?_isSome]
          exact ⟨d,hd,by simp⟩
        obtain ⟨x,hx⟩ := Option.isSome_iff_exists.mp hsome
        have hdevice : x.device_id = d.device_id := by simpa using List.find?_some hx
        rw [hx,List.inj_on_of_nodup_map hc.distinct (List.mem_of_find?_eq_some hx) hd hdevice]
      rw [hc.first,hfind]
      rfl
    · have hnil := hv.later st (by rw [hstages]; exact hst)
      simp [hnil]

end Votes

namespace Sample

def votes (source device decision : String) : Act ℕ :=
  .start (.ingestDisposition (js "a") (js device)
    ⟨dispositionKind,js source,js decision,none,js device⟩) (env 1000)

/-- A device votes twice, and a new partition adds another device. -/
def fairly : List (Act ℕ) :=
  [.start (.hold (js "a") [⟨1,[js "x",js "y"],[]⟩,⟨2,[js "z"],[]⟩]) (env 0),.resume 0 (env 0),
    votes "a" "x" "advance",
    .start (.reevaluate (js "a") [⟨2,[js "z"],[]⟩,⟨1,[js "x",js "w"],[]⟩]) (env 1000),
    votes "a" "x" "suppress"]

/-- The vote of the device is about another envelope. -/
def astray : List (Act ℕ) := [holds (js "a") [(1,js "x")] 0,.resume 0 (env 0),votes "b" "x" "advance"]

/-- A device that voted to suppress is not in the new partition. -/
def dropped : List (Act ℕ) :=
  [.start (.hold (js "a") [⟨1,[js "x",js "y"],[]⟩]) (env 0),.resume 0 (env 0),
    votes "a" "x" "suppress",.start (.reevaluate (js "a") [⟨1,[js "y"],[]⟩]) (env 1000)]

def fair (w : World ℕ) : Act ℕ → Bool
  | .start (.ingestDisposition id _ d) _ => decide (d.source_envelope_id = id)
  | .start (.reevaluate id newStages) _ => w.fields.heldMap.records.all fun rec =>
    rec.envelope_id != id || rec.stages.head?.all fun current =>
      (newStages.all fun st => current.dispositions.all fun d =>
        decide (st.stage ≠ current.stage ∨ d.device_id ∈ st.pending_device_ids)) &&
      decide ((newStages.filter fun st =>
        current.stage ≤ st.stage ∧ st.pending_device_ids ≠ []).map StagedHeldStage.stage).Nodup
  | _ => true

theorem fair_of_check (w : World ℕ) (a : Act ℕ) (h : fair w a = true) : Fair w a := by
  cases a with
  | resume i env => trivial
  | start c env =>
    cases c with
    | hold id stages => trivial
    | tick => trivial
    | ingestDisposition id submitter d => exact fun _ _ _ _ _ _ => of_decide_eq_true h
    | reevaluate id newStages =>
      intro rec current rest hg hst
      obtain ⟨hrec,hid⟩ := HeldMap.get_eq_some.mp hg
      have hall := List.all_eq_true.mp h rec hrec
      rw [hid,bne_self_eq_false,Bool.false_or,hst,List.head?_cons,Option.all_some] at hall
      obtain ⟨hvoters,hdistinct⟩ := (Bool.and_eq_true _ _).mp hall
      refine ⟨fun st hmem hstage _ d hd => ?_,of_decide_eq_true hdistinct⟩
      have hone := List.all_eq_true.mp (List.all_eq_true.mp hvoters st hmem) d hd
      exact (of_decide_eq_true hone).resolve_left fun hne => hne hstage

theorem fairly_runs : (checkedRun runner.calls fair World.initial fairly).isSome := by
  decide +kernel

def fairWorld : World ℕ := (checkedRun runner.calls fair World.initial fairly).get fairly_runs

theorem both_unfair_run : (run runner.calls World.initial astray).isSome ∧
    (run runner.calls World.initial dropped).isSome := by decide +kernel

theorem astray_runs : (run runner.calls World.initial astray).isSome := both_unfair_run.1

def astrayWorld : World ℕ := (run runner.calls World.initial astray).get astray_runs

theorem dropped_runs : (run runner.calls World.initial dropped).isSome := both_unfair_run.2

def droppedWorld : World ℕ := (run runner.calls World.initial dropped).get dropped_runs

end Sample

theorem properVotes_sample :
    (Sample.fairWorld.fields.heldMap.records.map fun rec => rec.stages.map fun st =>
      st.dispositions.map Disposition.disposition) = [[[js "advance"],[]]] ∧
    ∃ vs, Heard Sample.runner Fair Sample.fairWorld vs ∧ ProperVotes Sample.fairWorld vs := by
  obtain ⟨vs,h⟩ := heard_of_reached (reached_of_checked
    (Option.some_get Sample.fairly_runs).symm Sample.fair_of_check)
  exact ⟨by decide +kernel,vs,h,properVotes_of_fair h⟩

/-- A vote about another envelope counts, and so does the vote of a device that is no more in
the stage. -/
theorem not_properVotes :
    (∃ w vs, Heard Sample.runner (fun _ _ => True) w vs ∧ ¬ ProperVotes w vs ∧
      ∃ rec ∈ w.fields.heldMap.records, ∃ st ∈ rec.stages, ∃ d ∈ st.dispositions,
        d.source_envelope_id ≠ rec.envelope_id) ∧
    ∃ w vs, Heard Sample.runner (fun _ _ => True) w vs ∧ ¬ ProperVotes w vs ∧
      ∃ rec ∈ w.fields.heldMap.records, ∃ st ∈ rec.stages, ∃ d ∈ st.dispositions,
        d.device_id ∉ st.pending_device_ids := by
  constructor
  · obtain ⟨vs,h⟩ := heard_of_reached (reached_get Sample.astray_runs fun _ _ _ => trivial)
    have hvote : ∃ rec ∈ Sample.astrayWorld.fields.heldMap.records, ∃ st ∈ rec.stages,
        ∃ d ∈ st.dispositions, d.source_envelope_id ≠ rec.envelope_id := by decide +kernel
    refine ⟨Sample.astrayWorld,vs,h,fun hproper => ?_,hvote⟩
    obtain ⟨rec,hrec,st,hst,d,hd,hne⟩ := hvote
    exact hne ((hproper rec hrec st hst).2 d hd).1
  · obtain ⟨vs,h⟩ := heard_of_reached (reached_get Sample.dropped_runs fun _ _ _ => trivial)
    have hvote : ∃ rec ∈ Sample.droppedWorld.fields.heldMap.records, ∃ st ∈ rec.stages,
        ∃ d ∈ st.dispositions, d.device_id ∉ st.pending_device_ids := by decide +kernel
    refine ⟨Sample.droppedWorld,vs,h,fun hproper => ?_,hvote⟩
    obtain ⟨rec,hrec,st,hst,d,hd,hne⟩ := hvote
    exact hne ((hproper rec hrec st hst).2 d hd).2.1

end StagedRunner
end Semp
