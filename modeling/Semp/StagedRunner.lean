import Semp.Disposition
import Semp.Tasks

/-! The staged delivery of held envelopes.  `hold` and `tick` await their callbacks; what
they do between two of them is one step, and so is a whole `ingestDisposition` or
`reevaluate`. -/
namespace Semp
open Tasks

structure StagedRunnerConfig (S : Type) where
  stageTimeoutMs : Option ℤ
  /-- `${stage}` -/
  stageText : S → JsString

structure StagedRunner (S : Type) where
  stageTimeoutMs : ℤ
  stageText : S → JsString

namespace StagedRunner

def new {S : Type} (cfg : StagedRunnerConfig S) : StagedRunner S where
  stageTimeoutMs := (cfg.stageTimeoutMs.filter (0 < ·)).getD defaultStageTimeoutMs
  stageText := cfg.stageText

inductive Callback (S : Type)
  | deliver (stage : S) (deviceIds : List JsString)
  | suppress (stage : S)
  | complete
  deriving DecidableEq, Repr

/-- A callback to run, with the registration it is for and the stages left before it. -/
structure Job (S : Type) where
  envelopeId : JsString
  callback : Callback S
  hold : ℕ
  left : List (StagedHeldStage S)
  deriving DecidableEq, Repr

structure Fields (S : Type) where
  heldMap : HeldMap S
  /-- The envelope and the cleaned stages of each registration; the source keeps no such
  record, nor the next one. -/
  holds : List (JsString × List (StagedHeldStage S))
  /-- The callbacks that were started. -/
  log : List (Job S)

def Fields.initial {S : Type} : Fields S := ⟨.empty,[],[]⟩

/-- What a step reads from outside: the clock, and how the callback it awaited ended. -/
structure Env where
  now : ℤ
  callback : Js Unit

inductive Call (S : Type)
  | hold (envelopeId : JsString) (stages : List (StagedHeldStage S))
  | ingestDisposition (envelopeId submitterDeviceId : JsString) (d : Disposition)
  | tick
  | reevaluate (envelopeId : JsString) (newStages : List (StagedHeldStage S))
  deriving DecidableEq, Repr

inductive Returned
  | held
  | ingested
  | ticked (advanced : ℕ) (firstError : Option Thrown)
  | reevaluated

inductive Pending (S : Type)
  /-- `await this.cfg.deliver` in `hold` -/
  | holding (envelopeId : JsString) (hold : ℕ)
  /-- `await` of a callback in `tick`: what is still to run. -/
  | ticking (rest : List (Job S)) (advanced : ℕ) (firstErr : Option Thrown)

abbrev Result (S : Type) := Stage (Pending S) (Js Returned)

/-- `d.toISOString().replace(/\.\d{3}Z$/, "Z")` -/
def isoSecond (t : ℤ) : ℤ := t/1000

def fresh {S : Type} (st : StagedHeldStage S) : StagedHeldStage S := { st with dispositions := [] }

def clean {S : Type} (stages : List (StagedHeldStage S)) : List (StagedHeldStage S) :=
  (stages.filter (·.pending_device_ids ≠ [])).map fresh

section Methods
variable {S : Type} (s : StagedRunner S)

def checkIncreasing [LinearOrder S] (i : ℕ) : List (StagedHeldStage S) → Js Unit
  | a::b::rest => do
    if b.stage ≤ a.stage then
      raise (js "delivery: hold stages not monotonically increasing: stage["++natText i++js "]="
        ++s.stageText b.stage++js " <= stage["++natText (i-1)++js "]="++s.stageText a.stage)
    checkIncreasing (i+1) (b::rest)
  | _ => return

section Equations
-- Its equations are made here, and not by each of the proofs that use them.
attribute [local simp] checkIncreasing
end Equations

/-- The checks of `hold`. -/
def checkHold [LinearOrder S] (f : Fields S) (envelopeId : JsString) (stages : List (StagedHeldStage S)) :
    Js (List (StagedHeldStage S)) := do
  if envelopeId = [] then raise (js "delivery: hold empty envelope_id")
  let cleaned := clean stages
  if cleaned = [] then raise (js "delivery: hold partition has no pending devices at any stage")
  s.checkIncreasing 1 cleaned
  if f.heldMap.has envelopeId then
    raise (js "delivery: envelope "++JsonText.quote envelopeId++js " is already held")
  return cleaned

def deadlineFrom (now : ℤ) : ℤ := isoSecond (now+s.stageTimeoutMs)

/-- `hold` up to its `await`. -/
def register (f : Fields S) (now : ℤ) (envelopeId : JsString) (first : StagedHeldStage S)
    (rest : List (StagedHeldStage S)) : Fields S where
  heldMap := f.heldMap.set ⟨envelopeId,first::rest,some (s.deadlineFrom now),f.holds.length,[]⟩
  holds := f.holds++[(envelopeId,first::rest)]
  log := f.log++[⟨envelopeId,.deliver first.stage first.pending_device_ids,f.holds.length,[]⟩]

def ingest (f : Fields S) (envelopeId submitterDeviceId : JsString) (d : Disposition) :
    Js (Fields S) := do
  validateDisposition d
  if submitterDeviceId = [] then
    raise (js "delivery: ingest: submitter device_id is required for §3.2.5 authentication")
  if submitterDeviceId ≠ d.device_id then
    raise (js "delivery: ingest: submitter "++JsonText.quote submitterDeviceId
      ++js " does not match disposition device_id "++JsonText.quote d.device_id++js " (§3.2.5)")
  match f.heldMap.get envelopeId with
  | none => raise (js "delivery: ingest: no held envelope for "++JsonText.quote envelopeId)
  | some rec =>
    match rec.stages with
    | [] => raise (js "delivery: ingest: envelope "++JsonText.quote envelopeId
        ++js " has no remaining stages")
    | current::rest =>
      if d.device_id ∉ current.pending_device_ids then
        raise (js "delivery: ingest: device "++JsonText.quote d.device_id
          ++js " is not in current stage "++s.stageText current.stage
          ++js "'s pending set (§3.2.5)")
      else if current.dispositions.any (·.device_id = d.device_id) then return f
      else
        let current := { current with dispositions := current.dispositions++[d] }
        return { f with heldMap := f.heldMap.setStages envelopeId (current::rest) }

/-- The job of a record whose current stage is over. -/
def job (rec : StagedHeld S) (current : StagedHeldStage S) (callback : Callback S) : Job S :=
  ⟨rec.envelope_id,callback,rec.hold,rec.left++[current]⟩

/-- What the first loop of `tick` makes of a record: the record it leaves in the map, and
what is to run. -/
def visit (now : ℤ) (rec : StagedHeld S) : Option (StagedHeld S) × Option (Job S) :=
  match rec.stages with
  | [] => (some rec,none)
  | current::stages =>
    if !isStageComplete current now rec.deadline then (some rec,none)
    else if aggregateDispositions current.dispositions = .suppress then
      (none,some (job rec current (.suppress current.stage)))
    else match stages with
      | [] => (none,some (job rec current .complete))
      | next::_ =>
        (some { rec with
            stages := stages, deadline := some (s.deadlineFrom now), left := rec.left++[current] },
          some (job rec current (.deliver next.stage next.pending_device_ids)))

theorem visit_keeps {now : ℤ} {rec rec' : StagedHeld S} (h : (s.visit now rec).1 = some rec') :
    rec'.envelope_id = rec.envelope_id ∧ rec'.hold = rec.hold := by
  unfold visit at h
  split at h
  · obtain rfl := Option.some.inj h
    exact ⟨rfl,rfl⟩
  · split at h
    · obtain rfl := Option.some.inj h
      exact ⟨rfl,rfl⟩
    · split at h
      · cases h
      · split at h
        · cases h
        · obtain rfl := Option.some.inj h
          exact ⟨rfl,rfl⟩

/-- The map after the first loop of `tick`. -/
def sweep (f : Fields S) (now : ℤ) : Fields S where
  heldMap := f.heldMap.update (fun rec => (s.visit now rec).1) fun _ _ h => (s.visit_keeps h).1
  holds := f.holds
  log := f.log

/-- What the first loop of `tick` collects, in the order of the envelope ids. -/
def toRun (f : Fields S) (now : ℤ) : List (Job S) :=
  (f.heldMap.records.filterMap fun rec => (s.visit now rec).2).insertionSort
    fun a b => keyLe a.envelopeId b.envelopeId = true

/-- The second loop of `tick` up to its next callback. -/
def runNext (advanced : ℕ) (firstErr : Option Thrown) (f : Fields S) :
    List (Job S) → Result S × Fields S
  | [] => (.done (.ok (.ticked advanced firstErr)),f)
  | p::rest => (.awaiting (.ticking rest advanced firstErr),{ f with log := f.log++[p] })

/-- The stages `reevaluate` makes of a new partition. -/
def rebuild [LinearOrder S] (current : StagedHeldStage S) (newStages : List (StagedHeldStage S)) :
    List (StagedHeldStage S) :=
  ((((newStages.filter (current.stage ≤ ·.stage)).insertionSort (·.stage ≤ ·.stage)).filter
    (·.pending_device_ids ≠ [])).map
    fun st => { st with
      dispositions := if st.stage = current.stage then current.dispositions else [] })

def reevaluate [LinearOrder S] (f : Fields S) (envelopeId : JsString)
    (newStages : List (StagedHeldStage S)) : Js (Fields S) := do
  if envelopeId = [] then raise (js "delivery: reevaluate empty envelope_id")
  match f.heldMap.get envelopeId with
  | none => raise (js "delivery: envelope "++JsonText.quote envelopeId++js " is not held")
  | some rec =>
    match rec.stages with
    | [] => return f
    | current::_ =>
      return { f with heldMap := f.heldMap.setStages envelopeId (rebuild current newStages) }

/-- How a method without an `await` ends. -/
def settle (f : Fields S) (r : Returned) : Js (Fields S) → Result S × Fields S
  | .ok f' => (.done (.ok r),f')
  | .error e => (.done (.error e),f)

/-- A call up to its first `await`. -/
def start [LinearOrder S] (env : Env) (f : Fields S) : Call S → Result S × Fields S
  | .hold envelopeId stages =>
    match s.checkHold f envelopeId stages with
    | .ok (first::rest) =>
      (.awaiting (.holding envelopeId f.holds.length),s.register f env.now envelopeId first rest)
    | .ok [] => (.done raiseType,f)
    | .error e => (.done (.error e),f)
  | .ingestDisposition envelopeId submitterDeviceId d =>
    settle f .ingested (s.ingest f envelopeId submitterDeviceId d)
  | .tick =>
    let toRun := s.toRun f env.now
    runNext toRun.length none (s.sweep f env.now) toRun
  | .reevaluate envelopeId newStages => settle f .reevaluated (reevaluate f envelopeId newStages)

/-- A call from one `await` to the next.  A `hold` that fails does so with the cause. -/
def resume (env : Env) (f : Fields S) : Pending S → Result S × Fields S
  | .holding envelopeId _ =>
    match env.callback with
    | .ok () => (.done (.ok .held),f)
    | .error e => (.done (.error e),{ f with heldMap := f.heldMap.delete envelopeId })
  | .ticking rest advanced firstErr =>
    match env.callback with
    | .ok () => runNext advanced firstErr f rest
    | .error e => runNext advanced (firstErr.or (some e)) f rest

/-- The runner as an object whose calls interleave. -/
def calls [LinearOrder S] : Object (Fields S) (Call S) (Pending S) Env (Js Returned) where
  start c env f := s.start env f c
  resume p env f := resume env f p

def isHeld (f : Fields S) (envelopeId : JsString) : Bool := f.heldMap.has envelopeId

end Methods

abbrev World (S : Type) := Tasks.World (Fields S) (Call S) (Pending S) (Js Returned)

abbrev Act (S : Type) := Tasks.Act (Call S) Env

def World.initial {S : Type} : World S := ⟨.initial,[]⟩

end StagedRunner
end Semp
