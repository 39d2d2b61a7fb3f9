import Semp.JsText

/-! Slices of strings around the first place where a unit stands. -/
namespace Semp

/-- Both slices around `s.indexOf(u)`. -/
def cutAt (u : UInt16) : JsString → Option (JsString × JsString)
  | [] => none
  | c::s => if c = u then some ([],s) else (cutAt u s).map fun p => (c::p.1,p.2)

theorem cutAt_eq_some {u : UInt16} {s a b : JsString} :
    cutAt u s = some (a,b) ↔ s = a++u::b ∧ u ∉ a := by
  induction s generalizing a with
  | nil => simp [cutAt]
  | cons c s ih =>
    rw [cutAt]
    split_ifs with h
    · cases a with
      | nil => simp [h,eq_comm]
      | cons x a => simp +contextual [h]
    · rw [Option.map_eq_some_iff]
      cases a with
      | nil => simp [h]
      | cons x a =>
        constructor
        · rintro ⟨⟨a',b'⟩,hs,hp⟩
          obtain ⟨hc,rfl⟩ := Prod.mk.inj hp
          obtain ⟨rfl,rfl⟩ := List.cons.inj hc
          obtain ⟨rfl,hu⟩ := ih.mp hs
          exact ⟨rfl,by simp [Ne.symm h,hu]⟩
        · rintro ⟨hs,hu⟩
          obtain ⟨rfl,rfl⟩ := List.cons.inj hs
          exact ⟨(a,b),ih.mpr ⟨rfl,fun hmem => hu (List.mem_cons_of_mem _ hmem)⟩,rfl⟩

theorem cutAt_eq_none {u : UInt16} {s : JsString} : cutAt u s = none ↔ u ∉ s := by
  induction s with
  | nil => simp [cutAt]
  | cons c s ih =>
    rw [cutAt]
    split_ifs with h
    · simp [h]
    · rw [Option.map_eq_none_iff,ih,List.mem_cons,not_or,and_iff_right (Ne.symm h)]

end Semp
