import Semp.NumberGrowth

/-! Ranges of numbers: what an operation computes from numbers of known ranges is finite and in
the range that the exact operation gives, if that ends in numbers. -/
namespace Semp
namespace Number
open Binary64

/-- A value that is a number, so that rounding keeps it. -/
def Exact (q : ℚ) : Prop := (ofRat q).isFinite = true ∧ (ofRat q).toRat = q

structure Within (lo hi : ℚ) (x : Number) : Prop where
  finite : x.isFinite = true
  lower : lo ≤ x.toRat
  upper : x.toRat ≤ hi

variable {lo hi lo' hi' q : ℚ} {x y : Number}

theorem exact_intCast {z : ℤ} (h : z.natAbs < 2^53) : Exact z := toRat_ofInt h

theorem isFinite_ofMag {neg : Bool} : (ofMag neg q).isFinite = true ↔ rank q < rankBound := by
  by_cases h : rank q < rankBound
  · rw [ofMag,dif_pos h]
    exact iff_of_true rfl h
  · rw [ofMag,dif_neg h]
    exact iff_of_false Bool.false_ne_true h

/-- Rounding stays between numbers. -/
theorem Within.ofRat (hlo : Exact lo) (hhi : Exact hi) (h : lo ≤ q) (h' : q ≤ hi) :
    Within lo hi (ofRat q) := by
  have hfin : (Number.ofRat q).isFinite = true := by
    by_cases hq : q < 0
    · have hlo0 : lo < 0 := h.trans_lt hq
      have hbound := hlo.1
      rw [Number.ofRat,if_pos hlo0,isFinite_ofMag] at hbound
      rw [Number.ofRat,if_pos hq,isFinite_ofMag]
      exact (rank_mono (by linarith) (by linarith)).trans_lt hbound
    · have hhi0 : ¬hi < 0 := fun hneg => hq (h'.trans_lt hneg)
      have hbound := hhi.1
      rw [Number.ofRat,if_neg hhi0,isFinite_ofMag] at hbound
      rw [Number.ofRat,if_neg hq,isFinite_ofMag]
      exact (rank_mono (not_lt.mp hq) h').trans_lt hbound
  refine ⟨hfin,?_,?_⟩
  · have hle := toRat_ofRat_mono h hlo.1 hfin
    rwa [hlo.2] at hle
  · have hle := toRat_ofRat_mono h' hfin hhi.1
    rwa [hhi.2] at hle

theorem Within.add (hx : Within lo hi x) (hy : Within lo' hi' y) (hlo : Exact (lo+lo'))
    (hhi : Exact (hi+hi')) : Within (lo+lo') (hi+hi') (x.add y) := by
  obtain ⟨hfin,hval⟩ := isFinite_toRat_add hx.finite hy.finite
  have h := Within.ofRat hlo hhi (add_le_add hx.lower hy.lower) (add_le_add hx.upper hy.upper)
  exact ⟨hfin.trans h.finite,hval ▸ h.lower,hval ▸ h.upper⟩

theorem Within.sub (hx : Within lo hi x) (hy : Within lo' hi' y) (hlo : Exact (lo-hi'))
    (hhi : Exact (hi-lo')) : Within (lo-hi') (hi-lo') (x.sub y) := by
  obtain ⟨hfin,hval⟩ := isFinite_toRat_sub hx.finite hy.finite
  have h := Within.ofRat hlo hhi (sub_le_sub hx.lower hy.upper) (sub_le_sub hx.upper hy.lower)
  exact ⟨hfin.trans h.finite,hval ▸ h.lower,hval ▸ h.upper⟩

theorem isFinite_toRat_mul (hx : x.isFinite) (hy : y.isFinite) :
    (x.mul y).isFinite = (Number.ofRat (x.toRat*y.toRat)).isFinite ∧
      (x.mul y).toRat = (Number.ofRat (x.toRat*y.toRat)).toRat := by
  have hmag (a : Bool) {r : ℚ} (hr : 0 ≤ r) :
      (ofMag a r).isFinite = (Number.ofRat (if a then -r else r)).isFinite ∧
        (ofMag a r).toRat = (Number.ofRat (if a then -r else r)).toRat := by
    cases a with
    | false => 
      rw [if_neg Bool.false_ne_true,Number.ofRat,if_neg (not_lt.mpr hr)]
      exact ⟨rfl,rfl⟩
    | true =>
      rw [if_pos rfl,Number.ofRat,neg_neg]
      rcases hr.eq_or_lt with rfl | hpos
      · rw [if_neg (by norm_num),neg_zero,ofMag,ofMag]
        have hzero : rank 0 = 0 := by simp [rank]
        simp [hzero,isFinite,toRat,rankBound]
      · rw [if_pos (by linarith)]
        exact ⟨rfl,rfl⟩
  cases x with
  | fin a i =>
    cases y with
    | fin b j =>
      have h := hmag (xor a b) (mul_nonneg (value_nonneg i) (value_nonneg j))
      have hval : (if (xor a b) = true then -(value i*value j) else value i*value j) =
          (fin a i).toRat*(fin b j).toRat := by
        cases a <;> cases b <;> simp [toRat]
      rw [hval] at h
      exact h
    | _ => cases hy
  | _ => cases hx

theorem Within.mul (hx : Within lo hi x) (hy : Within lo' hi' y) (h0 : 0 ≤ lo) (h0' : 0 ≤ lo')
    (hlo : Exact (lo*lo')) (hhi : Exact (hi*hi')) : Within (lo*lo') (hi*hi') (x.mul y) := by
  obtain ⟨hfin,hval⟩ := isFinite_toRat_mul hx.finite hy.finite
  have hx0 : 0 ≤ x.toRat := h0.trans hx.lower
  have hy0 : 0 ≤ y.toRat := h0'.trans hy.lower
  have h := Within.ofRat hlo hhi (mul_le_mul hx.lower hy.lower h0' hx0)
    (mul_le_mul hx.upper hy.upper hy0 (hx0.trans hx.upper))
  exact ⟨hfin.trans h.finite,hval ▸ h.lower,hval ▸ h.upper⟩

/-- Rounding down stays between integers. -/
theorem Within.floor {a b : ℤ} (hx : Within a b x) (ha : a.natAbs < 2^53) (hb : b.natAbs < 2^53) :
    Within a b x.floor := by
  have hlo : a ≤ ⌊x.toRat⌋ := Int.le_floor.mpr hx.lower
  have hhi : ⌊x.toRat⌋ ≤ b := by exact_mod_cast (Int.floor_le x.toRat).trans hx.upper
  cases x with
  | fin neg i =>
    rw [Number.floor]
    split_ifs with h
    · rw [h] at hlo hhi
      have hzero : (zero neg).toRat = 0 := by cases neg <;> simp [zero,toRat]
      refine ⟨rfl,?_,?_⟩
      · rw [hzero]
        exact_mod_cast hlo
      · rw [hzero]
        exact_mod_cast hhi
    · exact .ofRat (exact_intCast ha) (exact_intCast hb) (by exact_mod_cast hlo)
        (by exact_mod_cast hhi)
  | _ => cases hx.finite

/-- The larger of a number in range and one that is not above it. -/
theorem Within.max (hx : Within lo hi x) (hy : y.isFinite) (hle : y.toRat ≤ hi) :
    Within lo hi (x.max y) := by
  have hlt : x.lt y = decide (x.toRat < y.toRat) := lt_fin hx.finite hy
  have hlt' : y.lt x = decide (y.toRat < x.toRat) := lt_fin hy hx.finite
  have hmax : x.max y = if x.lt y then y else if y.lt x then x
      else if x = zero true then y else x := by
    refine max_eq ?_ ?_
    · cases x with
      | nan => cases hx.finite
      | _ => rfl
    · cases y with
      | nan => cases hy
      | _ => rfl
  rw [hmax,hlt,hlt']
  split_ifs with h1 h2 h3
  · rw [decide_eq_true_eq] at h1
    exact ⟨hy,hx.lower.trans h1.le,hle⟩
  · exact hx
  · rw [decide_eq_true_eq,not_lt] at h1 h2
    exact ⟨hy,hx.lower.trans h2,hle⟩
  · exact hx

/-- Between finite numbers there are only finite ones. -/
theorem within_of_le {a b : Number} (ha : a.isFinite) (hb : b.isFinite) (h : a.le x = true)
    (h' : x.le b = true) : Within a.toRat b.toRat x := by
  have hx : x.isFinite := by
    cases a with
    | fin s i =>
      cases b with
      | fin t j =>
        cases x with
        | fin => rfl
        | nan => cases h
        | inf neg =>
          cases neg with
          | true => cases h
          | false => cases h'
      | _ => cases hb
    | _ => cases ha
  rw [le_fin ha hx,decide_eq_true_eq] at h
  rw [le_fin hx hb,decide_eq_true_eq] at h'
  exact ⟨hx,h,h'⟩

end Number
end Semp
