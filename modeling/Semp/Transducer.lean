import Mathlib.Data.List.Basic

/-! Transducers: machines that read one letter at a time and write at most one output for
each.  What they write does not depend on how the text is cut. -/
namespace Semp
namespace Transducer
variable {σ α β : Type}

/-- The outputs for a text, and the state after it. -/
def feed (step : σ → α → Option β × σ) : σ → List α → List β × σ
  | s,[] => ([],s)
  | s,a::text =>
    let turn := step s a
    let rest := feed step turn.2 text
    (turn.1.toList++rest.1,rest.2)

variable {step : σ → α → Option β × σ} {s t : σ} {a : α}

@[simp] theorem feed_nil (s : σ) : feed step s [] = ([],s) := rfl

theorem feed_cons (s : σ) (a : α) (text : List α) : feed step s (a::text) =
    ((step s a).1.toList++(feed step (step s a).2 text).1,(feed step (step s a).2 text).2) := rfl

/-- A letter that writes nothing. -/
theorem feed_quiet (h : step s a = (none,t)) (text : List α) :
    feed step s (a::text) = feed step t text := by
  rw [feed_cons,h]
  rfl

/-- The state carries across a cut. -/
theorem feed_append (s : σ) (text more : List α) : feed step s (text++more) =
    ((feed step s text).1++(feed step (feed step s text).2 more).1,
      (feed step (feed step s text).2 more).2) := by
  induction text generalizing s with
  | nil => rfl
  | cons a text ih =>
    rw [List.cons_append,feed_cons,feed_cons,ih]
    simp only [List.append_assoc]

end Transducer
end Semp
