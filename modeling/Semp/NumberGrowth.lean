import Semp.NumberOrder

/-! Bounds on sums, products and roundings of numbers: rounding keeps the order, so a product
of large factors stays large even where it is not exact. -/
namespace Semp
namespace Number
open Binary64

variable {x y z : Number} {a b n : ℕ} {p q : ℚ}

theorem isNaN_of_nat (h : n < 2^53) : (ofNat n).isNaN = false := by
  rw [ofNat_eq h]
  rfl

theorem isNaN_left (h : x.le y = true) : x.isNaN = false := by
  cases x with
  | nan => cases h
  | _ => rfl

theorem isNaN_right (h : x.le y = true) : y.isNaN = false := by
  cases y with
  | nan => cases x <;> cases h
  | _ => rfl

theorem place_le (h : x.le y = true) : x.place ≤ y.place :=
  (le_iff_place (isNaN_left h) (isNaN_right h)).mp h

theorem self_le (h : x.isNaN = false) : x.le x = true := (le_iff_place h h).mpr le_rfl

theorem chain_le (h : x.le y = true) (h' : y.le z = true) : x.le z = true :=
  (le_iff_place (isNaN_left h) (isNaN_right h')).mpr ((place_le h).trans (place_le h'))

theorem isNaN_of_lt (h : x.lt y = true) : x.isNaN = false ∧ y.isNaN = false := by
  cases x <;> cases y <;> first | exact ⟨rfl,rfl⟩ | cases h

theorem lt_chain_le (h : x.lt y = true) (h' : y.le z = true) : x.lt z = true :=
  (lt_iff_place (isNaN_of_lt h).1 (isNaN_right h')).mpr
    (((lt_iff_place (isNaN_of_lt h).1 (isNaN_of_lt h).2).mp h).trans_le (place_le h'))

theorem chain_lt (h : x.le y = true) (h' : y.lt z = true) : x.lt z = true :=
  (lt_iff_place (isNaN_left h) (isNaN_of_lt h').2).mpr
    ((place_le h).trans_lt ((lt_iff_place (isNaN_of_lt h').1 (isNaN_of_lt h').2).mp h'))

theorem weaken_lt (h : x.lt y = true) : x.le y = true :=
  (le_iff_place (isNaN_of_lt h).1 (isNaN_of_lt h).2).mpr
    ((lt_iff_place (isNaN_of_lt h).1 (isNaN_of_lt h).2).mp h).le

theorem of_not_lt (hx : x.isNaN = false) (hy : y.isNaN = false) (h : y.lt x = false) :
    x.le y = true := by
  rw [le_iff_place hx hy,← not_lt,← lt_iff_place hy hx,h]
  exact Bool.false_ne_true

theorem not_lt_of_le (h : x.le y = true) : y.lt x = false := by
  rw [← Bool.not_eq_true,lt_iff_place (isNaN_right h) (isNaN_left h),not_lt]
  exact place_le h

theorem lt_neg (x y : Number) : x.neg.lt y.neg = y.lt x := by
  cases x with
  | nan => cases y <;> rfl
  | inf s => cases y <;> cases s <;> first | rfl | (next t => cases t <;> rfl)
  | fin s i =>
    cases y with
    | nan => rfl
    | inf t => cases t <;> rfl
    | fin t j =>
      have h : ∀ s i, (fin (!s) i).toRat = -(fin s i).toRat := fun s i => toRat_neg (fin s i)
      simp only [neg,lt,h,neg_lt_neg_iff]

theorem max_eq (hx : x.isNaN = false) (hy : y.isNaN = false) :
    x.max y = if x.lt y then y else if y.lt x then x else if x = zero true then y else x := by
  cases x with
  | nan => cases hx
  | _ =>
    cases y with
    | nan => cases hy
    | _ => rfl

/-- The larger of two numbers is where the larger one stands. -/
theorem place_max (hx : x.isNaN = false) (hy : y.isNaN = false) :
    (x.max y).isNaN = false ∧ (x.max y).place = Max.max x.place y.place := by
  rw [max_eq hx hy]
  split_ifs with h1 h2 h3
  · exact ⟨hy,(max_eq_right ((lt_iff_place hx hy).mp h1).le).symm⟩
  · exact ⟨hx,(max_eq_left ((lt_iff_place hy hx).mp h2).le).symm⟩
  all_goals
    rw [lt_iff_place hx hy] at h1
    rw [lt_iff_place hy hx] at h2
    have heq : x.place = y.place := le_antisymm (not_lt.mp h2) (not_lt.mp h1)
  · exact ⟨hy,by rw [heq,max_self]⟩
  · exact ⟨hx,by rw [heq,max_self]⟩

@[simp] theorem isNaN_neg (x : Number) : x.neg.isNaN = x.isNaN := by cases x <;> rfl

theorem min_eq (hx : x.isNaN = false) (hy : y.isNaN = false) :
    x.min y = if y.lt x then y else if x.lt y then x
      else if x.neg = zero true then y else x := by
  rw [min,max_eq (by simpa using hx) (by simpa using hy),lt_neg,lt_neg]
  split_ifs <;> exact neg_neg_self _

/-- The smaller of two numbers is where the smaller one stands. -/
theorem place_min (hx : x.isNaN = false) (hy : y.isNaN = false) :
    (x.min y).isNaN = false ∧ (x.min y).place = Min.min x.place y.place := by
  rw [min_eq hx hy]
  split_ifs with h1 h2 h3
  · exact ⟨hy,(min_eq_right ((lt_iff_place hy hx).mp h1).le).symm⟩
  · exact ⟨hx,(min_eq_left ((lt_iff_place hx hy).mp h2).le).symm⟩
  all_goals
    rw [lt_iff_place hy hx] at h1
    rw [lt_iff_place hx hy] at h2
    have heq : x.place = y.place := le_antisymm (not_lt.mp h1) (not_lt.mp h2)
  · exact ⟨hy,by rw [heq,min_self]⟩
  · exact ⟨hx,by rw [heq,min_self]⟩

theorem min_of_lt (h : y.lt x = true) : x.min y = y := by
  rw [min_eq (isNaN_of_lt h).2 (isNaN_of_lt h).1,if_pos h]

theorem min_same (x : Number) : x.min x = x := by
  cases hx : x.isNaN with
  | true =>
    cases x with
    | nan => rfl
    | _ => cases hx
  | false =>
    rw [min_eq hx hx]
    split_ifs <;> rfl

theorem isNaN_of_min (h : (x.min y).isNaN = false) : x.isNaN = false ∧ y.isNaN = false := by
  cases x with
  | nan => cases h
  | _ =>
    cases y with
    | nan => cases h
    | _ => exact ⟨rfl,rfl⟩

theorem isNaN_of_max (h : (x.max y).isNaN = false) : x.isNaN = false ∧ y.isNaN = false := by
  cases x with
  | nan => cases h
  | _ =>
    cases y with
    | nan => cases h
    | _ => exact ⟨rfl,rfl⟩

theorem isNaN_of_mul (h : (x.mul y).isNaN = false) : x.isNaN = false ∧ y.isNaN = false := by
  cases x with
  | nan => cases h
  | _ =>
    cases y with
    | nan => cases h
    | _ => exact ⟨rfl,rfl⟩

theorem le_min (hx : z.le x = true) (hy : z.le y = true) : z.le (x.min y) = true := by
  obtain ⟨hnan,hplace⟩ := place_min (isNaN_right hx) (isNaN_right hy)
  rw [le_iff_place (isNaN_left hx) hnan,hplace]
  exact le_inf (place_le hx) (place_le hy)

theorem max_le (hx : x.le z = true) (hy : y.le z = true) : (x.max y).le z = true := by
  obtain ⟨hnan,hplace⟩ := place_max (isNaN_left hx) (isNaN_left hy)
  rw [le_iff_place hnan (isNaN_right hx),hplace]
  exact sup_le (place_le hx) (place_le hy)

theorem min_le_right (hx : x.isNaN = false) (hy : y.isNaN = false) :
    (x.min y).le y = true := by
  obtain ⟨hnan,hplace⟩ := place_min hx hy
  rw [le_iff_place hnan hy,hplace]
  exact inf_le_right

theorem min_le_min (h : x.le y = true) (hz : z.isNaN = false) :
    (x.min z).le (y.min z) = true := by
  obtain ⟨hnan,hplace⟩ := place_min (isNaN_left h) hz
  obtain ⟨hnan',hplace'⟩ := place_min (isNaN_right h) hz
  rw [le_iff_place hnan hnan',hplace,hplace']
  exact inf_le_inf_right _ (place_le h)

theorem le_max_right (hx : x.isNaN = false) (hy : y.isNaN = false) :
    y.le (x.max y) = true := by
  obtain ⟨hnan,hplace⟩ := place_max hx hy
  rw [le_iff_place hy hnan,hplace]
  exact le_sup_right

/-- Rounding keeps the order. -/
theorem place_ofMag_mono (hp : 0 ≤ p) (h : p ≤ q) :
    (ofMag false p).place ≤ (ofMag false q).place := by
  have hrank : rank p ≤ rank q := rank_mono hp h
  by_cases hq : rank q < rankBound
  · rw [ofMag,ofMag,dif_pos hq,dif_pos (hrank.trans_lt hq)]
    exact WithBot.coe_le_coe.mpr (WithTop.coe_le_coe.mpr (value_mono hrank))
  · have htop : (ofMag false q).place = ((⊤ : WithTop ℚ) : WithBot (WithTop ℚ)) := by
      rw [ofMag,dif_neg hq]
      rfl
    rw [htop]
    cases (ofMag false p).place with
    | bot => exact bot_le
    | coe v => exact WithBot.coe_le_coe.mpr le_top

/-- Rounding keeps the order of what is rounded to finite numbers. -/
theorem toRat_ofRat_mono (h : p ≤ q) (hp : (ofRat p).isFinite) (hq : (ofRat q).isFinite) :
    (ofRat p).toRat ≤ (ofRat q).toRat := by
  have hmag {neg : Bool} {r : ℚ} (hr : (ofMag neg r).isFinite) :
      (ofMag neg r).toRat = if neg then -value (rank r) else value (rank r) := by
    by_cases hlt : rank r < rankBound
    · rw [ofMag,dif_pos hlt]
      rfl
    · rw [ofMag,dif_neg hlt] at hr
      cases hr
  unfold ofRat at hp hq ⊢
  by_cases hp0 : p < 0
  · rw [if_pos hp0] at hp ⊢
    by_cases hq0 : q < 0
    · rw [if_pos hq0] at hq ⊢
      rw [hmag hp,hmag hq]
      exact neg_le_neg (value_mono (rank_mono (by linarith) (by linarith)))
    · rw [if_neg hq0] at hq ⊢
      rw [hmag hp,hmag hq]
      exact (neg_nonpos.mpr (value_nonneg _)).trans (value_nonneg _)
  · have hq0 : ¬q < 0 := fun hq0 => hp0 (h.trans_lt hq0)
    rw [if_neg hp0] at hp ⊢
    rw [if_neg hq0] at hq ⊢
    rw [hmag hp,hmag hq]
    exact value_mono (rank_mono (not_lt.mp hp0) h)

theorem isNaN_ofMag (neg : Bool) (q : ℚ) : (ofMag neg q).isNaN = false := by
  unfold ofMag
  split_ifs <;> rfl

theorem place_ofNat (h : n < 2^53) :
    (ofNat n).place = (((n : ℚ) : WithTop ℚ) : WithBot (WithTop ℚ)) := by
  have hv : (ofNat n).toRat = n := toRat_ofNat h
  rw [ofNat_eq h] at hv ⊢
  rw [place,hv]

/-- A number that is large enough to be positive is infinite or a positive rank. -/
theorem cases_of_le (ha : 0 < a) (hlt : a < 2^53) (h : (ofNat a).le x = true) :
    x = inf false ∨ ∃ i, x = fin false i ∧ (a : ℚ) ≤ value i := by
  have hpos : (0 : ℚ) < a := by exact_mod_cast ha
  have hplace := place_le h
  rw [place_ofNat hlt] at hplace
  cases x with
  | nan => cases isNaN_right h
  | inf neg =>
    cases neg with
    | true => exact absurd hplace (not_le.mpr (WithBot.bot_lt_coe _))
    | false => exact .inl rfl
  | fin neg i =>
    have hle : (a : ℚ) ≤ (fin neg i).toRat := by
      rwa [place,WithBot.coe_le_coe,WithTop.coe_le_coe] at hplace
    cases neg with
    | true =>
      have hv : 0 ≤ value i := value_nonneg i
      have hle' : (a : ℚ) ≤ -value i := hle
      linarith
    | false => exact .inr ⟨i,rfl,hle⟩

theorem mul_fin (i j : Fin rankBound) :
    (fin false i).mul (fin false j) = ofMag false (value i*value j) := rfl

theorem fin_eq_ofMag (i : Fin rankBound) : fin false i = ofMag false (value i) := by
  have hrank : rank (value i) < rankBound := (rank_value i).symm ▸ i.isLt
  rw [ofMag,dif_pos hrank]
  exact congrArg (fin false) (Fin.ext (rank_value i).symm)

/-- Twice a positive number is not below it, rounded or not. -/
theorem toRat_le_double (hx : (zero false).lt x = true) (hfin : (x.mul (ofNat 2)).isFinite) :
    x.isFinite ∧ x.toRat ≤ (x.mul (ofNat 2)).toRat := by
  have htwo : value (rank 2) = 2 := by exact_mod_cast value_rank_natCast (n:=2) (by norm_num)
  rw [ofNat_eq (by norm_num)] at hfin ⊢
  cases x with
  | nan => cases hx
  | inf a =>
    rw [mul] at hfin
    split_ifs at hfin <;> cases hfin
  | fin a i =>
    cases a with
    | true =>
      have hv : 0 ≤ value i := value_nonneg i
      have hlt : (zero false).toRat < -value i := by simpa [lt,zero,toRat] using hx
      have hzero : (zero false).toRat = 0 := value_zero
      linarith
    | false =>
      refine ⟨rfl,?_⟩
      rw [mul_fin,ofMag] at hfin ⊢
      split_ifs at hfin ⊢ with hlt
      · have hle : value i ≤ value i*value (rank (2 : ℕ)) := by
          rw [Nat.cast_ofNat,htwo]
          linarith [value_nonneg i]
        have hmono := value_mono (rank_mono (value_nonneg i) hle)
        rw [rank_value] at hmono
        exact hmono
      · cases hfin

/-- A product is at least the product of lower bounds, rounded or not. -/
theorem le_mul (ha : 0 < a) (hb : 0 < b) (hab : a*b < 2^53) (hx : (ofNat a).le x = true)
    (hy : (ofNat b).le y = true) : (ofNat (a*b)).le (x.mul y) = true := by
  have ha' : a < 2^53 := (Nat.le_mul_of_pos_right a hb).trans_lt hab
  have hb' : b < 2^53 := (Nat.le_mul_of_pos_left b ha).trans_lt hab
  have hinf : (ofNat (a*b)).le (inf false) = true := by
    rw [ofNat_eq hab]
    rfl
  have hne : ∀ {c : ℕ} {i : Fin rankBound}, 0 < c → (c : ℚ) ≤ value i → i.val ≠ 0 := by
    intro c i hc hle hzero
    rw [hzero,value_zero] at hle
    have hc' : (0 : ℚ) < c := by exact_mod_cast hc
    linarith
  rcases cases_of_le ha ha' hx with rfl|⟨i,rfl,hi⟩
  · rcases cases_of_le hb hb' hy with rfl|⟨j,rfl,hj⟩
    · exact hinf
    · rw [mul,if_neg (hne hb hj)]
      exact hinf
  · rcases cases_of_le hb hb' hy with rfl|⟨j,rfl,hj⟩
    · rw [mul,if_neg (hne ha hi)]
      exact hinf
    · rw [mul_fin,le_iff_place (isNaN_of_nat hab) (isNaN_ofMag _ _)]
      refine place_ofMag_mono (Nat.cast_nonneg _) ?_
      rw [Nat.cast_mul]
      exact mul_le_mul hi hj (Nat.cast_nonneg b) (value_nonneg i)

/-- A factor of at least one does not make a positive number smaller. -/
theorem self_le_mul (ha : 0 < a) (ha' : a < 2^53) (hx : (ofNat a).le x = true)
    (hy : (ofNat 1).le y = true) : x.le (x.mul y) = true := by
  have hpos : (0 : ℚ) < a := by exact_mod_cast ha
  rcases cases_of_le ha ha' hx with rfl|⟨i,rfl,hi⟩
  · rcases cases_of_le Nat.one_pos (by norm_num) hy with rfl|⟨j,rfl,hj⟩
    · rfl
    · have hj0 : j.val ≠ 0 := by
        intro hzero
        rw [hzero,value_zero] at hj
        norm_num at hj
      rw [mul,if_neg hj0]
      rfl
  · have hi0 : i.val ≠ 0 := by
      intro hzero
      rw [hzero,value_zero] at hi
      linarith
    rcases cases_of_le Nat.one_pos (by norm_num) hy with rfl|⟨j,rfl,hj⟩
    · rw [mul,if_neg hi0]
      rfl
    · have hself : (fin false i).isNaN = false := rfl
      rw [mul_fin,le_iff_place hself (isNaN_ofMag _ _)]
      rw [Nat.cast_one] at hj
      nth_rewrite 1 [fin_eq_ofMag i]
      refine place_ofMag_mono (value_nonneg i) ?_
      exact le_mul_of_one_le_right (value_nonneg i) hj

theorem zero_eq_ofNat : zero false = ofNat 0 := by
  rw [← ofRat_zero,ofRat,if_neg (lt_irrefl 0),ofNat,Nat.cast_zero]

/-- Counting is exact below 2^53. -/
theorem add_one (h : n+1 < 2^53) : (ofNat n).add (ofNat 1) = ofNat (n+1) := by
  have hn : n < 2^53 := by omega
  have hsum : ((ofNat n).toRat+(ofNat 1).toRat) = ((n+1 : ℕ) : ℤ) := by
    rw [toRat_ofNat hn,toRat_ofNat (by norm_num)]
    push_cast
    rfl
  obtain ⟨hfin,hrat⟩ := isFinite_toRat_add (isFinite_ofNat hn) (isFinite_ofNat (n:=1) (by norm_num))
  obtain ⟨hfin',hrat'⟩ := toRat_ofInt (z:=((n+1 : ℕ) : ℤ)) h
  rw [hsum] at hfin hrat
  refine eq_ofNat_of_toRat (hfin.trans hfin') ?_ h n.succ_pos
  rw [hrat]
  exact_mod_cast hrat'

theorem ofNat_le_ofNat (h : a ≤ b) : (ofNat a).le (ofNat b) = true :=
  (le_iff_place (isNaN_ofMag _ _) (isNaN_ofMag _ _)).mpr
    (place_ofMag_mono (Nat.cast_nonneg a) (Nat.cast_le.mpr h))

/-- `Math.max(0, Math.floor(x))` of a finite number is a natural number, rounded. -/
theorem max_zero_floor (neg : Bool) (i : Fin rankBound) :
    (zero false).max (fin neg i).floor = ofNat ⌊(fin neg i).toRat⌋.toNat := by
  have hfloor : (fin neg i).floor = if ⌊(fin neg i).toRat⌋ = 0 then zero neg
      else ofRat ⌊(fin neg i).toRat⌋ := rfl
  rw [hfloor]
  generalize ⌊(fin neg i).toRat⌋ = m
  have hmax : ∀ y : Number, y.isNaN = false → (zero false).lt y = false →
      (zero false).max y = zero false := by
    intro y hy hlt
    have hne : zero false ≠ zero true := by simp [zero]
    rw [max_eq rfl hy,hlt]
    split_ifs <;> simp_all
  by_cases hzero : m = 0
  · rw [if_pos hzero,hmax _ rfl (by simp [zero,lt,toRat]),hzero,zero_eq_ofNat]
    rfl
  rw [if_neg hzero,ofRat]
  by_cases hneg : (m : ℚ) < 0
  · have hm : m < 0 := by exact_mod_cast hneg
    have hlt : (zero false).lt (ofMag true (-m)) = false := by
      unfold ofMag
      split_ifs
      · simp [zero,lt,toRat,value_nonneg]
      · rfl
    rw [if_pos hneg,hmax _ (isNaN_ofMag _ _) hlt,Int.toNat_of_nonpos hm.le,zero_eq_ofNat]
  · have hpos : 0 ≤ m := by exact_mod_cast not_lt.mp hneg
    have hcast : (m : ℚ) = (m.toNat : ℕ) := by
      rw [← Int.cast_natCast,Int.toNat_of_nonneg hpos]
    have hone : (ofNat 1).le (ofMag false m) = true := by
      rw [le_iff_place (isNaN_of_nat (by norm_num)) (isNaN_ofMag _ _)]
      refine place_ofMag_mono (Nat.cast_nonneg 1) ?_
      exact_mod_cast (show 1 ≤ m by omega)
    have hlt : (zero false).lt (ofMag false m) = true := by
      refine lt_chain_le ?_ hone
      rw [zero_eq_ofNat,lt_ofNat (by norm_num) (by norm_num)]
      rfl
    rw [if_neg hneg,max_eq rfl (isNaN_ofMag _ _),if_pos hlt,hcast]
    rfl

/-- A rank is a multiple of the least positive number. -/
theorem value_eq_mul (i : ℕ) : ∃ k : ℕ, value i = k*2^(-1074 : ℤ) := by
  have hexp : 0 ≤ ulpExp i+1074 := by linarith [ulpExp_ge i]
  refine ⟨significand i*2^(ulpExp i+1074).toNat,?_⟩
  have hpow : ((2 : ℚ)^(ulpExp i+1074).toNat : ℚ) = 2^(ulpExp i+1074) := by
    rw [← zpow_natCast,Int.toNat_of_nonneg hexp]
  rw [value,Nat.cast_mul,Nat.cast_pow,Nat.cast_ofNat,hpow,mul_assoc,← zpow_add₀ (by norm_num)]
  congr 2
  omega

theorem toRat_eq_mul (x : Number) : ∃ k : ℤ, x.toRat = k*2^(-1074 : ℤ) := by
  cases x with
  | fin neg i =>
    obtain ⟨k,hk⟩ := value_eq_mul i
    cases neg with
    | false => exact ⟨k,by rw [toRat,if_neg Bool.false_ne_true,hk,Int.cast_natCast]⟩
    | true => exact ⟨-k,by rw [toRat,if_pos rfl,hk]; push_cast; ring⟩
  | nan => exact ⟨0,by simp [toRat]⟩
  | inf neg => exact ⟨0,by simp [toRat]⟩

theorem value_one : value 1 = 2^(-1074 : ℤ) := by
  rw [value_subnormal (by norm_num),Nat.cast_one,one_mul]

/-- A difference of numbers is positive exactly when it should be: it never rounds to zero. -/
theorem zero_lt_sub (x y : Number) : (zero false).lt (x.sub y) = y.lt x := by
  cases x with
  | nan => cases y <;> rfl
  | inf s =>
    cases y with
    | nan => cases s <;> rfl
    | inf t => cases s <;> cases t <;> rfl
    | fin t j => cases s <;> rfl
  | fin s i =>
    cases y with
    | nan => rfl
    | inf t => cases t <;> rfl
    | fin t j =>
      obtain ⟨k,hk⟩ := toRat_eq_mul (fin s i)
      obtain ⟨m,hm⟩ := toRat_eq_mul (fin t j)
      have hsub : (fin s i).sub (fin t j) = if (fin s i).toRat-(fin t j).toRat = 0 then
          zero (s && i.val == 0 && !t) else ofRat ((fin s i).toRat-(fin t j).toRat) := rfl
      have hlt : (fin t j).lt (fin s i) = decide ((fin t j).toRat < (fin s i).toRat) := rfl
      have hzero : ∀ neg, (zero false).lt (zero neg) = false := by
        intro neg
        cases neg <;> simp [lt,zero,toRat]
      rw [hsub,hlt]
      split_ifs with h
      · rw [hzero,decide_eq_false (by linarith)]
      by_cases hpos : (fin t j).toRat < (fin s i).toRat
      · rw [decide_eq_true hpos,ofRat,if_neg (by linarith)]
        have hkm : (1 : ℚ) ≤ k-m := by
          have hunit : (0 : ℚ) < 2^(-1074 : ℤ) := two_zpow_pos _
          rw [hk,hm] at hpos
          have hint : m < k := by exact_mod_cast lt_of_mul_lt_mul_right hpos hunit.le
          exact_mod_cast (show 1 ≤ k-m by omega)
        have hge : value 1 ≤ (fin s i).toRat-(fin t j).toRat := by
          rw [hk,hm,value_one,← sub_mul]
          exact le_mul_of_one_le_left (two_zpow_pos _).le hkm
        have hplace := place_ofMag_mono (value_nonneg 1) hge
        have hone : (zero false).place < (ofMag false (value 1)).place := by
          have hrank : rank (value 1) < rankBound := by rw [rank_value]; decide
          rw [ofMag,dif_pos hrank,place,zero,place,WithBot.coe_lt_coe,WithTop.coe_lt_coe]
          simp only [toRat,rank_value,value_zero]
          exact value_pos one_pos
        exact (lt_iff_place rfl (isNaN_ofMag _ _)).mpr (hone.trans_le hplace)
      · have hneg : (fin s i).toRat-(fin t j).toRat < 0 :=
          lt_of_le_of_ne (by linarith [not_lt.mp hpos]) h
        rw [decide_eq_false hpos,ofRat,if_pos hneg]
        unfold ofMag
        split_ifs
        · simp [zero,lt,toRat,value_nonneg]
        · rfl

/-- Numbers of at least one are told apart by where they stand. -/
theorem place_inj (hx : (ofNat 1).le x = true) (hy : (ofNat 1).le y = true)
    (h : x.place = y.place) : x = y := by
  rcases cases_of_le one_pos (by norm_num) hx with rfl|⟨i,rfl,-⟩
  · rcases cases_of_le one_pos (by norm_num) hy with rfl|⟨j,rfl,-⟩
    · rfl
    · cases h
  · rcases cases_of_le one_pos (by norm_num) hy with rfl|⟨j,rfl,-⟩
    · cases h
    · have hvalue : value i = value j := by
        rw [place,place,WithBot.coe_inj,WithTop.coe_inj] at h
        exact h
      rw [Fin.ext (value_injective hvalue)]

/-- Adding one does not make a positive number smaller. -/
theorem le_add_one (hx : (ofNat 1).le x = true) : x.le (x.add (ofNat 1)) = true := by
  have hone : (ofNat 1).toRat = (1 : ℕ) := toRat_ofNat (by norm_num)
  rcases cases_of_le one_pos (by norm_num) hx with rfl|⟨i,rfl,hi⟩
  · rw [add,ofNat_eq (by norm_num)]
    rfl
  · have hsum : (fin false i).add (ofNat 1) = ofMag false (value i+1) := by
      have hneg : (ofNat 1).neg.toRat = -1 := by rw [toRat_neg,hone,Nat.cast_one]
      rw [ofNat_eq (by norm_num)] at hneg ⊢
      have hd : value i-(neg (fin false ⟨rank (1 : ℕ),rank_lt_of_natCast (by norm_num)⟩)).toRat =
          value i+1 := by rw [hneg]; ring
      have hpos : 0 < value i+1 := by linarith [value_nonneg i]
      have hadd : (fin false i).add (fin false ⟨rank (1 : ℕ),rank_lt_of_natCast (by norm_num)⟩) =
          if value i-(neg (fin false ⟨rank (1 : ℕ),rank_lt_of_natCast (by norm_num)⟩)).toRat = 0
          then zero (false && i.val == 0 && !true) else
            ofRat (value i-(neg (fin false ⟨rank (1 : ℕ),rank_lt_of_natCast (by norm_num)⟩)).toRat) :=
        rfl
      rw [hadd,hd,if_neg hpos.ne',ofRat,if_neg (not_lt.mpr hpos.le)]
    have hnan : (fin false i).isNaN = false := rfl
    rw [hsum,le_iff_place hnan (isNaN_ofMag _ _)]
    nth_rewrite 1 [fin_eq_ofMag i]
    exact place_ofMag_mono (value_nonneg i) (by linarith)

/-- Rounding keeps the order, also of what is too large. -/
theorem ofRat_not_lt {p q : ℚ} (h : p ≤ q) : (ofRat q).lt (ofRat p) = false := by
  have hmag (neg : Bool) (r : ℚ) : (∃ hr, ofMag neg r = fin neg ⟨rank r,hr⟩) ∨
      rankBound ≤ rank r ∧ ofMag neg r = inf neg := by
    unfold ofMag
    split_ifs with hr
    · exact .inl ⟨hr,rfl⟩
    · exact .inr ⟨not_lt.mp hr,rfl⟩
  unfold ofRat
  by_cases hp : p < 0
  · rw [if_pos hp]
    by_cases hq : q < 0
    · rw [if_pos hq]
      have hrank : rank (-q) ≤ rank (-p) := rank_mono (by linarith) (by linarith)
      obtain ⟨hi,hi'⟩ | ⟨hi,hi'⟩ := hmag true (-p)
      · obtain ⟨hj,hj'⟩ | ⟨hj,-⟩ := hmag true (-q)
        · rw [hi',hj']
          exact decide_eq_false (not_lt.mpr (neg_le_neg (value_mono hrank)))
        · exact absurd hi (not_lt.mpr (hj.trans hrank))
      · rw [hi']
        obtain ⟨_,hj'⟩ | ⟨-,hj'⟩ := hmag true (-q) <;> rw [hj'] <;> rfl
    · rw [if_neg hq]
      obtain ⟨_,hj'⟩ | ⟨-,hj'⟩ := hmag false q
      · obtain ⟨_,hi'⟩ | ⟨-,hi'⟩ := hmag true (-p)
        · rw [hi',hj']
          exact decide_eq_false (not_lt.mpr
            ((neg_nonpos.mpr (value_nonneg _)).trans (value_nonneg _)))
        · rw [hi',hj']
          rfl
      · obtain ⟨_,hi'⟩ | ⟨-,hi'⟩ := hmag true (-p) <;> rw [hi',hj'] <;> rfl
  · rw [if_neg hp,if_neg fun hq => hp (h.trans_lt hq)]
    have hrank : rank p ≤ rank q := rank_mono (not_lt.mp hp) h
    obtain ⟨hj,hj'⟩ | ⟨hj,hj'⟩ := hmag false q
    · obtain ⟨hi,hi'⟩ | ⟨hi,-⟩ := hmag false p
      · rw [hi',hj']
        exact decide_eq_false (not_lt.mpr (value_mono hrank))
      · exact absurd hj (not_lt.mpr (hi.trans hrank))
    · rw [hj']
      obtain ⟨_,hi'⟩ | ⟨-,hi'⟩ := hmag false p <;> rw [hi'] <;> rfl

/-- What is left of a time after a span of at least `n` is not after the time less `n`. -/
theorem lt_sub_span {t u : ℤ} {n : ℕ} {w : Number} (ht : t.natAbs < 2^53)
    (hn : n < 2^53) (hw : w.lt (ofNat n) = false) (h : (ofInt u).lt ((ofInt t).sub w) = true) :
    u < t-n := by
  by_contra hu
  have hle : (t : ℚ)-n ≤ u := by exact_mod_cast not_lt.mp hu
  obtain ⟨hfin,hrat⟩ := toRat_ofInt ht
  obtain ⟨a,i,hti⟩ : ∃ a i, ofInt t = fin a i := by
    cases hc : ofInt t with
    | fin a i => exact ⟨a,i,rfl⟩
    | _ => rw [hc] at hfin; cases hfin
  rw [hti] at hrat h
  cases w with
  | nan => 
    cases hu' : ofInt u <;> rw [hu'] at h <;> cases h
  | inf b =>
    cases b with
    | true =>
      rw [ofNat_eq hn] at hw
      cases hw
    | false => cases hu' : ofInt u <;> rw [hu'] at h <;> revert h <;> simp [sub,lt]
  | fin b j =>
    have hw' : (n : ℚ) ≤ (fin b j).toRat := by
      rw [lt_fin rfl (isFinite_ofNat hn),toRat_ofNat hn] at hw
      simpa using hw
    have hsub : (ofInt u).lt (ofRat ((fin a i).toRat-(fin b j).toRat)) = true := by
      rw [sub] at h
      split_ifs at h with hd
      · have hzero (x : Number) (neg : Bool) : x.lt (zero neg) = x.lt (zero false) := by
          cases x <;> cases neg <;> simp [lt,zero,toRat,value_zero]
        rw [hd,show ofRat 0 = ofNat 0 by simp [ofRat,ofNat],← zero_eq_ofNat,← hzero _ _]
        exact h
      · exact h
    rw [hrat] at hsub
    have hnot : (ofInt u).lt (ofRat (t-(fin b j).toRat)) = false := ofRat_not_lt (by linarith)
    rw [hnot] at hsub
    cases hsub

end Number
end Semp
