import Semp.Tasks

/-! Resources of an object, each held by one of its calls at most.  What a call keeps over an
`await` says what it holds, and what the fields say of a resource has to fit its holder. -/
namespace Semp
namespace Tasks
variable {σ κ τ ν ρ K V : Type}

structure Lock (σ τ K V : Type) where
  holds : τ → Option K
  /-- What the fields say of the resource. -/
  view : σ → K → V
  idle : V → Prop
  busy : τ → V → Prop

namespace Lock
variable [DecidableEq K] (l : Lock σ τ K V)

def count (k : K) (t : τ) : ℕ := if l.holds t = some k then 1 else 0

/-- Each resource has one holder at most, and is as it has to be with or without one. -/
structure Safe (w : World σ κ τ ρ) : Prop where
  alone : ∀ k, total (l.count k) w ≤ 1
  idle : ∀ k, total (l.count k) w = 0 → l.idle (l.view w.fields k)
  busy : Every (fun _ t => ∀ k, l.holds t = some k → l.busy t (l.view w.fields k)) w

/-- The resource fits the stage that its last holder came to. -/
def Fits (k : K) (r : Stage τ ρ × σ) : Prop :=
  (weight (l.count k) r.1 = 0 → l.idle (l.view r.2 k)) ∧
    r.1.All fun t => l.holds t = some k → l.busy t (l.view r.2 k)

/-- The call did not touch the resource. -/
def Spares (k : K) (f : σ) (r : Stage τ ρ × σ) : Prop :=
  l.view r.2 k = l.view f k ∧ weight (l.count k) r.1 = 0

/-- The call did not hold the resource and did not touch it, or it held it, or could take it, and
leaves it as it has to be. -/
def Moves (k : K) (unheld : Prop) (t : τ) (f : σ) (r : Stage τ ρ × σ) : Prop :=
  l.holds t ≠ some k ∧ l.Spares k f r ∨ (l.holds t = some k ∨ unheld) ∧ l.Fits k r

variable {l} {w : World σ κ τ ρ} {k : K} {t t' : τ} {f f' : σ} {unheld : Prop}

theorem count_eq_one : l.count k t = 1 ↔ l.holds t = some k := by
  unfold count
  split_ifs with h <;> simp [h]

theorem count_eq_zero : l.count k t = 0 ↔ l.holds t ≠ some k := by
  unfold count
  split_ifs with h <;> simp [h]

/-- The call goes on holding what it held. -/
theorem moves_of_kept (hholds : l.holds t' = l.holds t) (hview : l.view f' k = l.view f k)
    (hbusy : l.holds t = some k → l.busy t' (l.view f k)) :
    l.Moves k unheld t f ((.awaiting t',f') : Stage τ ρ × σ) := by
  by_cases hk : l.holds t = some k
  · refine .inr ⟨.inl hk,fun hw => ?_,fun _ => ?_⟩
    · rw [weight_awaiting,count_eq_zero,hholds] at hw
      exact absurd hk hw
    · rw [hview]
      exact hbusy hk
  · refine .inl ⟨hk,hview,?_⟩
    rw [weight_awaiting,count_eq_zero,hholds]
    exact hk

theorem count_le (k : K) (r : Stage τ ρ) : weight (l.count k) r ≤ 1 := by
  cases r with
  | awaiting t =>
    rw [weight_awaiting,count]
    split_ifs <;> simp
  | done r => simp

/-- A resource that is as no holder leaves it has none. -/
theorem Safe.free (h : l.Safe w) (hno : ∀ t, ¬l.busy t (l.view w.fields k)) :
    total (l.count k) w = 0 := by
  rw [total_eq_zero]
  intro i c t hi
  rw [count_eq_zero]
  exact fun hk => hno t (h.busy i c t hi k hk)

/-- A new call touches no resource, or takes one that has no holder. -/
theorem Safe.started (h : l.Safe w) {c : κ} {r : Stage τ ρ × σ}
    (hr : ∀ k, l.Spares k w.fields r ∨ total (l.count k) w = 0 ∧ l.Fits k r) :
    l.Safe (w.started c r) where
  alone k := by
    rw [total_started]
    obtain ⟨-,hspare⟩ | ⟨hfree,-⟩ := hr k
    · have := h.alone k
      omega
    · have := count_le (l := l) k r.1
      omega
  idle k hk := by
    rw [total_started] at hk
    obtain ⟨hview,-⟩ | ⟨-,hfits⟩ := hr k
    · rw [World.started,hview]
      exact h.idle k (by omega)
    · exact hfits.1 (by omega)
  busy := by
    refine Every.started (P := fun _ t => ∀ k, l.holds t = some k → l.busy t (l.view r.2 k)) ?_ c ?_
    · intro i c' t hi k hk
      obtain ⟨hview,-⟩ | ⟨hfree,-⟩ := hr k
      · rw [hview]
        exact h.busy i c' t hi k hk
      · exact absurd hk (count_eq_zero.mp (total_eq_zero (l.count k) |>.mp hfree i c' t hi))
    · cases hs : r.1 with
      | awaiting t =>
        intro k hk
        obtain ⟨-,hspare⟩ | ⟨-,hfits⟩ := hr k
        · rw [hs,weight_awaiting,count_eq_zero] at hspare
          exact absurd hk hspare
        · have hall := hfits.2
          rw [hs] at hall
          exact hall hk
      | done r => trivial

/-- A call that goes on touches no resource that it does not hold, or takes one that has no
holder. -/
theorem Safe.resumed (h : l.Safe w) {i : ℕ} {c : κ} {r : Stage τ ρ × σ}
    (hi : w.calls[i]? = some ⟨c,.awaiting t⟩)
    (hr : ∀ k, l.Moves k (total (l.count k) w = 0) t w.fields r) :
    l.Safe (w.resumed i c r) := by
  -- the others do not hold what the call touches
  have hothers : ∀ k j c' t', j ≠ i → w.calls[j]? = some ⟨c',.awaiting t'⟩ →
      l.holds t' = some k → l.view r.2 k = l.view w.fields k := by
    intro k j c' t' hne hj hk
    obtain ⟨-,hview,-⟩ | ⟨hheld | hfree,-⟩ := hr k
    · exact hview
    · exact absurd (index_unique (h.alone k) hj hi (count_eq_one.mpr hk).ge
        (count_eq_one.mpr hheld).ge) hne
    · exact absurd hk (count_eq_zero.mp (total_eq_zero (l.count k) |>.mp hfree j c' t' hj))
  have htotal (k : K) : total (l.count k) (w.resumed i c r) = total (l.count k) w ∧
        l.Spares k w.fields r ∨
      total (l.count k) (w.resumed i c r) = weight (l.count k) r.1 ∧ l.Fits k r := by
    have hsum := total_resumed (l.count k) r hi
    obtain ⟨hno,hspare⟩ | ⟨hheld | hfree,hfits⟩ := hr k
    · rw [count_eq_zero.mpr hno,hspare.2] at hsum
      exact .inl ⟨hsum,hspare⟩
    · have hone := count_eq_one.mpr hheld
      have hle := le_total (l.count k) hi
      have halone := h.alone k
      exact .inr ⟨by omega,hfits⟩
    · have hle := le_total (l.count k) hi
      exact .inr ⟨by omega,hfits⟩
  refine ⟨fun k => ?_,fun k hk => ?_,?_⟩
  · obtain ⟨heq,-⟩ | ⟨heq,-⟩ := htotal k
    · exact heq ▸ h.alone k
    · exact heq ▸ count_le k r.1
  · obtain ⟨heq,hspare⟩ | ⟨heq,hfits⟩ := htotal k
    · rw [World.resumed,hspare.1]
      exact h.idle k (heq ▸ hk)
    · exact hfits.1 (heq ▸ hk)
  · refine every_resumed_of_others (P := fun _ t => ∀ k, l.holds t = some k →
      l.busy t (l.view r.2 k)) ?_ ?_
    · intro j c' t' hne hj k hk
      rw [hothers k j c' t' hne hj hk]
      exact h.busy j c' t' hj k hk
    · cases hs : r.1 with
      | awaiting t' =>
        intro k hk
        obtain ⟨-,-,hspare⟩ | ⟨-,hfits⟩ := hr k
        · rw [hs,weight_awaiting,count_eq_zero] at hspare
          exact absurd hk hspare
        · have hall := hfits.2
          rw [hs] at hall
          exact hall hk
      | done r => trivial

end Lock
end Tasks
end Semp
