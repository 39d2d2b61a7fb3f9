import Semp.Crypto
import Semp.JsValue

/-! The decisions of staged devices, what they add up to at one stage, and the records of
the envelopes that wait for them.  Stages are numbered in a linear order; a deadline, which
the source writes to whole seconds, is its second. -/
namespace Semp

def dispositionKind : JsString := js "delivery-disposition"

structure Disposition where
  kind : JsString
  source_envelope_id : JsString
  disposition : JsString
  reason : Option JsString
  device_id : JsString
  deriving DecidableEq, Repr

def validateDisposition (d : Disposition) : Js Unit := do
  if d.kind ≠ dispositionKind then
    raise (js "delivery: disposition kind "++JsonText.quote d.kind++js ", want "
      ++JsonText.quote dispositionKind)
  if d.source_envelope_id = [] then
    raise (js "delivery: disposition missing source_envelope_id")
  if d.device_id = [] then raise (js "delivery: disposition missing device_id")
  if d.disposition = [] then raise (js "delivery: disposition missing decision")
  if d.disposition ≠ js "advance" ∧ d.disposition ≠ js "suppress" then
    raise (js "delivery: disposition decision "++JsonText.quote d.disposition
      ++js " is not a valid value")

inductive StageOutcome
  | advance
  | suppress
  deriving DecidableEq, Repr

def aggregateDispositions : List Disposition → StageOutcome
  | [] => .advance
  | d::ds => if d.disposition = js "suppress" then .suppress else aggregateDispositions ds

def defaultStageTimeoutMs : ℤ := 30000

structure StagedHeldStage (S : Type) where
  stage : S
  pending_device_ids : List JsString
  dispositions : List Disposition
  deriving DecidableEq, Repr

structure StagedHeld (S : Type) where
  envelope_id : JsString
  /-- The stages still to deliver, the current one first. -/
  stages : List (StagedHeldStage S)
  /-- `none` is the empty text: no deadline. -/
  deadline : Option ℤ
  /-- The registration that made the record, by its number; the source has the object. -/
  hold : ℕ
  /-- The stages it went through; the source forgets them. -/
  left : List (StagedHeldStage S)
  deriving DecidableEq, Repr

def isStageComplete {S : Type} (stage : StagedHeldStage S) (now : ℤ) (deadline : Option ℤ) :
    Bool :=
  if stage.pending_device_ids = [] then true
  else if deadline.any fun s => decide (s*1000 ≤ now) then true
  else stage.pending_device_ids.all fun id => stage.dispositions.any (·.device_id = id)

/-- `Map<string, StagedHeld>` in insertion order. -/
structure HeldMap (S : Type) where
  records : List (StagedHeld S)
  nodup : (records.map StagedHeld.envelope_id).Nodup

/-- One suppression suppresses. -/
theorem aggregateDispositions_eq_suppress {ds : List Disposition} :
    aggregateDispositions ds = .suppress ↔ ∃ d ∈ ds, d.disposition = js "suppress" := by
  induction ds with
  | nil => simp [aggregateDispositions]
  | cons d ds ih =>
    unfold aggregateDispositions
    split
    next h => simp [h]
    next h => simp [h,ih]

/-- At its deadline a stage is over. -/
theorem isStageComplete_of_due {S : Type} (stage : StagedHeldStage S) {now s : ℤ}
    (h : s*1000 ≤ now) : isStageComplete stage now (some s) = true := by
  simp [isStageComplete,h]

namespace HeldMap
variable {S : Type} (m : HeldMap S)

def empty : HeldMap S := ⟨[],List.nodup_nil⟩

def get (id : JsString) : Option (StagedHeld S) := m.records.find? (·.envelope_id = id)

def has (id : JsString) : Bool := (m.get id).isSome

def delete (id : JsString) : HeldMap S where
  records := m.records.filter (·.envelope_id ≠ id)
  nodup := m.nodup.sublist (List.filter_sublist.map _)

/-- `set` of a record whose key is not there yet: it becomes the last one. -/
def set (rec : StagedHeld S) : HeldMap S where
  records := (m.delete rec.envelope_id).records++[rec]
  nodup := by
    rw [List.map_append,List.nodup_append]
    refine ⟨(m.delete rec.envelope_id).nodup,by simp,?_⟩
    intro a ha b hb
    obtain ⟨x,hx,rfl⟩ := List.mem_map.mp ha
    have hne := (List.mem_filter.mp hx).2
    simp only [List.map_cons,List.map_nil,List.mem_singleton] at hb
    simpa [hb] using hne

/-- The record of a key with other stages, in its place. -/
def setStages (id : JsString) (stages : List (StagedHeldStage S)) : HeldMap S where
  records := m.records.map fun rec =>
    if rec.envelope_id = id then { rec with stages := stages } else rec
  nodup := by
    have hsame : (fun rec : StagedHeld S =>
        (if rec.envelope_id = id then { rec with stages := stages } else rec).envelope_id) =
        StagedHeld.envelope_id := by
      funext rec
      split <;> rfl
    rw [List.map_map,Function.comp_def,hsame]
    exact m.nodup

theorem map_filterMap_sublist {α β : Type} {f : α → Option α} {g : α → β}
    (h : ∀ a b, f a = some b → g b = g a) (l : List α) :
    ((l.filterMap f).map g).Sublist (l.map g) := by
  induction l with
  | nil => simp
  | cons a l ih =>
    cases ha : f a with
    | none =>
      rw [List.filterMap_cons_none ha,List.map_cons]
      exact ih.cons _
    | some b =>
      rw [List.filterMap_cons_some ha,List.map_cons,List.map_cons,h a b ha]
      exact ih.cons_cons _

/-- Each record changed or deleted, one after the other. -/
def update (f : StagedHeld S → Option (StagedHeld S))
    (hf : ∀ rec rec', f rec = some rec' → rec'.envelope_id = rec.envelope_id) : HeldMap S where
  records := m.records.filterMap f
  nodup := m.nodup.sublist (map_filterMap_sublist hf _)

variable {m}

theorem get_eq_some {id : JsString} {rec : StagedHeld S} :
    m.get id = some rec ↔ rec ∈ m.records ∧ rec.envelope_id = id := by
  unfold get
  constructor
  · intro h
    exact ⟨List.mem_of_find?_eq_some h,by simpa using List.find?_some h⟩
  · rintro ⟨hmem,rfl⟩
    cases hf : m.records.find? (·.envelope_id = rec.envelope_id) with
    | none =>
      have := List.find?_eq_none.mp hf rec hmem
      simp at this
    | some r =>
      have hid : r.envelope_id = rec.envelope_id := by simpa using List.find?_some hf
      exact congrArg some (List.inj_on_of_nodup_map m.nodup (List.mem_of_find?_eq_some hf) hmem hid)

theorem has_eq_false {id : JsString} :
    m.has id = false ↔ ∀ rec ∈ m.records, rec.envelope_id ≠ id := by
  simp [has,get]

theorem mem_delete {id : JsString} {rec : StagedHeld S} :
    rec ∈ (m.delete id).records ↔ rec ∈ m.records ∧ rec.envelope_id ≠ id := by
  simp [delete]

/-- A key that is new: every other record stays. -/
theorem set_records {rec : StagedHeld S} (h : m.has rec.envelope_id = false) :
    (m.set rec).records = m.records++[rec] := by
  have hall : (m.delete rec.envelope_id).records = m.records :=
    List.filter_eq_self.mpr fun r hr => by simpa using has_eq_false.mp h r hr
  exact congrArg (·++[rec]) hall

/-- Only the stages of one record are others. -/
theorem of_mem_setStages {id : JsString} {stages : List (StagedHeldStage S)}
    {rec' : StagedHeld S} (h : rec' ∈ (m.setStages id stages).records) :
    rec' ∈ m.records ∧ rec'.envelope_id ≠ id ∨
      ∃ rec ∈ m.records, rec.envelope_id = id ∧ rec' = { rec with stages := stages } := by
  obtain ⟨rec,hrec,rfl⟩ := List.mem_map.mp h
  by_cases hid : rec.envelope_id = id
  · rw [if_pos hid]
    exact .inr ⟨rec,hrec,hid,rfl⟩
  · rw [if_neg hid]
    exact .inl ⟨hrec,hid⟩

end HeldMap
end Semp
