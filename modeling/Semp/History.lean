import Mathlib.Data.List.Infix

/-! Histories: lists of events, each of which what came before it must allow. -/
namespace Semp
namespace History
variable {ε : Type} {P Q : List ε → ε → Prop} {log : List ε}

/-- `P` holds of each event and those before it. -/
def Justified (P : List ε → ε → Prop) (log : List ε) : Prop :=
  ∀ pre e, pre++[e] <+: log → P pre e

theorem justified_nil : Justified P [] := by
  intro pre e h
  simp at h

theorem justified_concat {e : ε} : Justified P (log++[e]) ↔ Justified P log ∧ P log e := by
  constructor
  · intro h
    exact ⟨fun pre e' hpre => h pre e' (hpre.trans (List.prefix_append log [e])),
      h log e (List.prefix_refl _)⟩
  · rintro ⟨h,he⟩ pre e' hpre
    obtain heq | hpre := List.prefix_concat_iff.mp hpre
    · obtain ⟨rfl,hx⟩ := List.append_inj' heq rfl
      obtain rfl := List.singleton_inj.mp hx
      exact he
    · exact h pre e' hpre

theorem Justified.mono (h : Justified P log) (hi : ∀ pre e, P pre e → Q pre e) :
    Justified Q log :=
  fun pre e hpre => hi pre e (h pre e hpre)

end History
end Semp
