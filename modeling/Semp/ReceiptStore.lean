import Semp.Cells
import Semp.JsMap
import Semp.JsDate
import Semp.SigningKinds

/-! The receipts a sending server holds until a device has acknowledged them or they are too old.
An identifier of an envelope has no NUL, so the key of a receipt tells its envelope and its
recipient. -/
namespace Semp
namespace ReceiptStore

variable {ρ : Type}

structure ReceiptRecord (ρ : Type) where
  receipt : ρ
  storedAt : JsDate

abbrev Records (ρ : Type) := JsMap (ReceiptRecord ρ)

def recordKey (envelopeId recipient : JsString) : JsString := envelopeId++0::recipient

def put (records : Records ρ) (envelopeId recipient : JsString) (receipt : ρ) (storedAt : JsDate) :
    Js (Records ρ) :=
  if envelopeId = [] then raise (js "ReceiptStore.put: empty envelopeId")
  else if recipient = [] then raise (js "ReceiptStore.put: empty recipient")
  else
    let k := recordKey envelopeId recipient
    if records.has k then
      raise (js "ReceiptStore.put: receipt already stored for ("++envelopeId++js ", "++recipient++
        js ")")
    else .ok (records.set k ⟨receipt,storedAt⟩)

def get (records : Records ρ) (envelopeId recipient : JsString) : Option ρ :=
  (records.get (recordKey envelopeId recipient)).map ReceiptRecord.receipt

def acknowledge (records : Records ρ) (envelopeId recipient : JsString) : Records ρ :=
  records.delete (recordKey envelopeId recipient)

/-- How many receipts are dropped, and the others. -/
def pruneUnacknowledged (records : Records ρ) (cutoff : JsDate) : ℕ × Records ρ :=
  let stale := fun r : ReceiptRecord ρ => r.storedAt.le cutoff
  ((records.entries.filter fun e => stale e.2).length,records.sweep stale)

/-- A call that writes to the store. -/
inductive Event (ρ : Type)
  | put (envelopeId recipient : JsString) (receipt : ρ) (storedAt : JsDate)
  | acknowledge (envelopeId recipient : JsString)
  | pruneUnacknowledged (cutoff : JsDate)

/-- A call that throws writes nothing. -/
def step (records : Records ρ) : Event ρ → Records ρ
  | .put envelopeId recipient receipt storedAt =>
    match put records envelopeId recipient receipt storedAt with
    | .ok records => records
    | .error _ => records
  | .acknowledge envelopeId recipient => acknowledge records envelopeId recipient
  | .pruneUnacknowledged cutoff => (pruneUnacknowledged records cutoff).2

def run (es : List (Event ρ)) : Records ρ := es.foldl step .empty

/-- What a call does to the record under a key. -/
def recordCell (key : JsString) : Cell (Event ρ) (ReceiptRecord ρ) where
  create e :=
    match e with
    | .put envelopeId recipient receipt storedAt =>
      if envelopeId ≠ [] ∧ recipient ≠ [] ∧ recordKey envelopeId recipient = key then
        some ⟨receipt,storedAt⟩
      else none
    | _ => none
  next e v :=
    match e with
    | .put .. => some v
    | .acknowledge envelopeId recipient =>
      if recordKey envelopeId recipient = key then none else some v
    | .pruneUnacknowledged cutoff => if v.storedAt.le cutoff then none else some v

theorem put_eq_ok {records records' : Records ρ} {envelopeId recipient : JsString} {receipt : ρ}
    {storedAt : JsDate} : put records envelopeId recipient receipt storedAt = .ok records' ↔
      envelopeId ≠ [] ∧ recipient ≠ [] ∧ records.get (recordKey envelopeId recipient) = none ∧
        records' = records.set (recordKey envelopeId recipient) ⟨receipt,storedAt⟩ := by
  rw [put]
  split_ifs with h₁ h₂
  · simp [h₁]
  · simp [h₂]
  · dsimp only
    cases hg : records.get (recordKey envelopeId recipient) with
    | none => simp [h₁,h₂,JsMap.has,hg,eq_comm]
    | some v => simp [JsMap.has,hg]

/-- A call acts on each record by itself. -/
theorem get_step (records : Records ρ) (e : Event ρ) (key : JsString) :
    (step records e).get key = (recordCell key).step (records.get key) e := by
  cases e with
  | put envelopeId recipient receipt storedAt =>
    rw [step]
    cases hput : put records envelopeId recipient receipt storedAt with
    | ok records' =>
      obtain ⟨h₁,h₂,hnone,rfl⟩ := put_eq_ok.mp hput
      by_cases hkey : recordKey envelopeId recipient = key
      · subst hkey
        simp [hnone,Cell.step,recordCell,h₁,h₂]
      · dsimp only
        rw [JsMap.get_set_ne (Ne.symm hkey)]
        cases records.get key <;> simp [Cell.step,recordCell,hkey]
    | error err =>
      dsimp only
      cases hget : records.get key with
      | some v => rfl
      | none =>
        have hno : ¬(envelopeId ≠ [] ∧ recipient ≠ [] ∧ recordKey envelopeId recipient = key) := by
          rintro ⟨h₁,h₂,rfl⟩
          rw [put_eq_ok.mpr ⟨h₁,h₂,hget,rfl⟩] at hput
          cases hput
        exact (if_neg hno).symm
  | acknowledge envelopeId recipient =>
    rw [step,acknowledge]
    by_cases hkey : recordKey envelopeId recipient = key
    · subst hkey
      cases records.get (recordKey envelopeId recipient) <;> simp [Cell.step,recordCell]
    · rw [JsMap.get_delete_ne (Ne.symm hkey)]
      cases records.get key <;> simp [Cell.step,recordCell,hkey]
  | pruneUnacknowledged cutoff =>
    refine Option.ext fun v => ?_
    rw [step,pruneUnacknowledged,JsMap.get_sweep_eq_some]
    cases records.get key with
    | none => simp [Cell.step,recordCell]
    | some r =>
      simp only [Cell.step,recordCell,Option.some.injEq]
      by_cases h : r.storedAt.le cutoff = true
      · rw [if_pos h]
        simp only [reduceCtorEq,iff_false,not_and]
        rintro rfl
        simp [h]
      · rw [if_neg h]
        simp only [Bool.not_eq_true] at h
        constructor
        · rintro ⟨rfl,-⟩
          rfl
        · intro he
          obtain rfl := Option.some.inj he
          exact ⟨rfl,h⟩

def store (ρ : Type) : CellStore (Records ρ) JsString (Event ρ) (ReceiptRecord ρ) where
  get := JsMap.get
  step := step
  cell := recordCell
  get_step := get_step

theorem get_run (es : List (Event ρ)) (key : JsString) :
    (run es).get key = (recordCell key).run es :=
  (store ρ).get_run (s:=.empty) (k:=key) rfl es

/-- The identifier of the envelope has no NUL. -/
def Event.NulFree : Event ρ → Prop
  | .put envelopeId .. => 0 ∉ envelopeId
  | .acknowledge envelopeId _ => 0 ∉ envelopeId
  | .pruneUnacknowledged _ => True

end ReceiptStore
end Semp
