import Mathlib.Data.List.Induction

/-! Stores of cells: a key has at most one value, and an event acts on each cell by itself.  What
a cell holds was made by one event and kept by all later ones. -/
namespace Semp

variable {σ κ ε α : Type}

/-- What events do to one cell. -/
structure Cell (ε α : Type) where
  /-- The value an event puts in an empty cell. -/
  create : ε → Option α
  /-- What becomes of a value. -/
  next : ε → α → Option α

namespace Cell

def step (c : Cell ε α) (x : Option α) (e : ε) : Option α :=
  match x with
  | none => c.create e
  | some v => c.next e v

def run (c : Cell ε α) (es : List ε) : Option α := es.foldl c.step none

/-- What becomes of a value in a run. -/
def keep (c : Cell ε α) (v : α) (es : List ε) : Option α := es.foldlM (fun v e => c.next e v) v

variable {c : Cell ε α} {es : List ε} {e : ε} {v w : α}

@[simp] theorem run_nil : c.run [] = none := rfl

theorem run_concat : c.run (es++[e]) = c.step (c.run es) e := by
  rw [run,List.foldl_append]
  rfl

@[simp] theorem keep_nil : c.keep v [] = some v := rfl

theorem keep_concat : c.keep v (es++[e]) = (c.keep v es).bind (c.next e) := by
  rw [keep,List.foldlM_append,keep]
  cases es.foldlM (fun v e => c.next e v) v <;> simp

/-- A value was made by an event in an empty cell, and kept since. -/
theorem run_eq_some : c.run es = some v ↔ ∃ pre e post u, es = pre++e::post ∧ c.run pre = none ∧
    c.create e = some u ∧ c.keep u post = some v := by
  induction es using List.reverseRecOn generalizing v with
  | nil => simp
  | append_singleton es e ih =>
    rw [run_concat]
    constructor
    · intro h
      cases hr : c.run es with
      | none =>
        rw [hr] at h
        exact ⟨es,e,[],v,rfl,hr,h,rfl⟩
      | some u =>
        rw [hr] at h
        obtain ⟨pre,d,post,w,rfl,hpre,hd,hpost⟩ := ih.mp hr
        refine ⟨pre,d,post++[e],w,by simp,hpre,hd,?_⟩
        rw [keep_concat,hpost]
        exact h
    · rintro ⟨pre,d,post,u,hsplit,hpre,hd,hpost⟩
      rcases List.eq_nil_or_concat post with rfl | ⟨post,d',rfl⟩
      · obtain ⟨rfl,hde⟩ := List.append_inj' hsplit rfl
        obtain rfl : e = d := by simpa using hde
        rw [hpre]
        exact hd.trans hpost
      · rw [List.concat_eq_append,← List.cons_append,← List.append_assoc] at hsplit
        obtain ⟨rfl,hde⟩ := List.append_inj' hsplit rfl
        obtain rfl : e = d' := by simpa using hde
        rw [List.concat_eq_append,keep_concat,Option.bind_eq_some_iff] at hpost
        obtain ⟨w,hw,hnext⟩ := hpost
        rw [ih.mpr ⟨pre,d,post,u,rfl,hpre,hd,hw⟩]
        exact hnext

/-- Events that change no value keep it or drop it. -/
theorem keep_fixed (h : ∀ e v w, c.next e v = some w → w = v) :
    c.keep v es = some w ↔ w = v ∧ ∀ e ∈ es, c.next e v = some v := by
  induction es using List.reverseRecOn generalizing w with
  | nil => simp [eq_comm]
  | append_singleton es e ih =>
    rw [keep_concat,Option.bind_eq_some_iff]
    constructor
    · rintro ⟨u,hu,hw⟩
      obtain ⟨rfl,hes⟩ := ih.mp hu
      obtain rfl := h e u w hw
      exact ⟨rfl,List.forall_mem_append.mpr ⟨hes,by simpa using hw⟩⟩
    · rintro ⟨rfl,hes⟩
      obtain ⟨hes,he⟩ := List.forall_mem_append.mp hes
      exact ⟨w,ih.mpr ⟨rfl,hes⟩,he e (by simp)⟩

/-- What an event puts in an empty cell replaces a value, too; all other events keep or drop. -/
structure Overwriting (c : Cell ε α) : Prop where
  write : ∀ e v w, c.create e = some w → c.next e v = some w
  fixed : ∀ e v w, c.create e = none → c.next e v = some w → w = v

/-- The last value that was written, if no later event dropped it. -/
theorem Overwriting.run_eq_some (h : c.Overwriting) : c.run es = some v ↔ ∃ pre e post,
    es = pre++e::post ∧ c.create e = some v ∧
      ∀ e' ∈ post, c.create e' = none ∧ c.next e' v = some v := by
  induction es using List.reverseRecOn generalizing v with
  | nil => simp
  | append_singleton es e ih =>
    rw [run_concat]
    constructor
    · intro hstep
      cases hcreate : c.create e with
      | some w =>
        have hw : c.step (c.run es) e = some w := by
          cases hr : c.run es with
          | none => exact hcreate
          | some u => exact h.write e u w hcreate
        obtain rfl := Option.some.inj (hstep.symm.trans hw)
        exact ⟨es,e,[],rfl,hcreate,by simp⟩
      | none =>
        cases hr : c.run es with
        | none =>
          rw [hr] at hstep
          exact absurd (hcreate.symm.trans hstep) (by simp)
        | some u =>
          rw [hr] at hstep
          obtain rfl := h.fixed e u v hcreate hstep
          obtain ⟨pre,d,post,rfl,hd,hpost⟩ := ih.mp hr
          exact ⟨pre,d,post++[e],by simp,hd,
            List.forall_mem_append.mpr ⟨hpost,by simpa using ⟨hcreate,hstep⟩⟩⟩
    · rintro ⟨pre,d,post,hsplit,hd,hpost⟩
      rcases List.eq_nil_or_concat post with rfl | ⟨post,d',rfl⟩
      · obtain ⟨rfl,hde⟩ := List.append_inj' hsplit rfl
        obtain rfl : e = d := by simpa using hde
        cases hr : c.run es with
        | none => exact hd
        | some u => exact h.write e u v hd
      · rw [List.concat_eq_append,← List.cons_append,← List.append_assoc] at hsplit
        obtain ⟨rfl,hde⟩ := List.append_inj' hsplit rfl
        obtain rfl : e = d' := by simpa using hde
        obtain ⟨hpost,hlast⟩ := List.forall_mem_append.mp
          (by rwa [List.concat_eq_append] at hpost : ∀ e' ∈ post++[e], _)
        rw [ih.mpr ⟨pre,d,post,rfl,hd,hpost⟩]
        exact (hlast e (by simp)).2

end Cell

/-- A store, and the cell of each key. -/
structure CellStore (σ κ ε α : Type) where
  get : σ → κ → Option α
  step : σ → ε → σ
  cell : κ → Cell ε α
  get_step : ∀ s e k, get (step s e) k = (cell k).step (get s k) e

/-- In a run from an empty store a key has what its cell has. -/
theorem CellStore.get_run (S : CellStore σ κ ε α) {s : σ} {k : κ} (h : S.get s k = none)
    (es : List ε) : S.get (es.foldl S.step s) k = (S.cell k).run es := by
  induction es using List.reverseRecOn with
  | nil => exact h
  | append_singleton es e ih =>
    rw [List.foldl_append,List.foldl_cons,List.foldl_nil,S.get_step,ih,Cell.run_concat]

end Semp
