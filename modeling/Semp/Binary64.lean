import Mathlib.Data.Int.Log
import Mathlib.Data.Rat.Floor
import Mathlib.Tactic.Linarith
import Mathlib.Tactic.NormNum
import Mathlib.Tactic.FieldSimp
import Mathlib.Tactic.Ring

/-! IEEE 754 binary64 magnitudes by rank.  The non-negative finite doubles,
listed in increasing order, are numbered 0, 1, 2, ...; the rank of a double is
its bit pattern without the sign.  Rounding a rational is exact arithmetic
followed by one round-half-even, and rounding the value of a rank returns it. -/
namespace Semp
namespace Binary64

/-- Ranks below this bound are finite; the bound itself is the rank of infinity. -/
def rankBound : ℕ := 2047*2^52

/-- The significand of a rank, with the implicit bit of the normal numbers. -/
def significand (i : ℕ) : ℕ := if i < 2^52 then i else 2^52+i%2^52

/-- The exponent of the unit in the last place of a rank. -/
def ulpExp (i : ℕ) : ℤ := if i < 2^52 then -1074 else (i/2^52 : ℕ)-1075

def value (i : ℕ) : ℚ := significand i*2^ulpExp i

theorem value_subnormal {i : ℕ} (h : i < 2^52) : value i = i*2^(-1074 : ℤ) := by
  rw [value,significand,ulpExp,if_pos h,if_pos h]

theorem value_of_ge {i : ℕ} (h : 2^52 ≤ i) :
    value i = ((2^52+i%2^52 : ℕ) : ℚ)*2^(((i/2^52 : ℕ) : ℤ)-1075) := by
  rw [value,significand,ulpExp,if_neg (by omega),if_neg (by omega)]

/-- Round to the nearest integer, a tie going to the even neighbour. -/
def roundHalfEven (q : ℚ) : ℤ :=
  let f := ⌊q⌋
  if q-f < 1/2 then f
  else if 1/2 < q-f then f+1
  else if f%2 = 0 then f else f+1

@[simp] theorem roundHalfEven_intCast (z : ℤ) : roundHalfEven z = z := by
  simp [roundHalfEven]

/-- The last-place exponent a positive rational is rounded at. -/
def roundExp (q : ℚ) : ℤ := max (Int.log 2 q-52) (-1074)

/-- The rank of the double nearest to a non-negative rational.  A carry out of
the significand lands on the next exponent, so it needs no case of its own. -/
def rank (q : ℚ) : ℕ :=
  if q = 0 then 0
  else (roundExp q+1074).toNat*2^52+(roundHalfEven (q/2^roundExp q)).toNat

theorem two_zpow_pos (e : ℤ) : (0 : ℚ) < 2^e := zpow_pos (by norm_num) e

theorem log_eq_of_bounds {b : ℕ} (hb : 1 < b) {q : ℚ} {l : ℤ}
    (hlo : (b : ℚ)^l ≤ q) (hhi : q < (b : ℚ)^(l+1)) : Int.log b q = l := by
  have hq : 0 < q := lt_of_lt_of_le (zpow_pos (by exact_mod_cast (by omega : 0 < b)) l) hlo
  have h1 : l ≤ Int.log b q := (Int.zpow_le_iff_le_log hb hq).mp hlo
  have h2 : Int.log b q < l+1 := (Int.lt_zpow_iff_log_lt hb hq).mp hhi
  omega

/-- A normal significand fixes the exponent its value is rounded at. -/
theorem roundExp_normal {m : ℕ} {e : ℤ} (hlo : 2^52 ≤ m) (hhi : m < 2^53) (he : -1074 ≤ e) :
    roundExp (m*2^e) = e := by
  have h1 : (2 : ℚ)^(52+e) ≤ m*2^e := by
    rw [zpow_add₀ (by norm_num)]
    apply mul_le_mul_of_nonneg_right _ (two_zpow_pos e).le
    exact_mod_cast hlo
  have h2 : (m : ℚ)*2^e < 2^(52+e+1) := by
    rw [show 52+e+1 = 53+e by ring,zpow_add₀ (by norm_num)]
    apply mul_lt_mul_of_pos_right _ (two_zpow_pos e)
    exact_mod_cast hhi
  have hl : Int.log 2 ((m : ℚ)*2^e) = 52+e :=
    log_eq_of_bounds (by norm_num) (by exact_mod_cast h1) (by exact_mod_cast h2)
  rw [roundExp,hl]
  omega

/-- A subnormal value is rounded at the smallest exponent there is. -/
theorem roundExp_subnormal {m : ℕ} (hm : 0 < m) (hhi : m < 2^52) :
    roundExp (m*2^(-1074 : ℤ)) = -1074 := by
  have hq : (0 : ℚ) < m*2^(-1074 : ℤ) := mul_pos (by exact_mod_cast hm) (two_zpow_pos _)
  have h2 : (m : ℚ)*2^(-1074 : ℤ) < ((2 : ℕ) : ℚ)^(-1022 : ℤ) := by
    rw [show (-1022 : ℤ) = 52+(-1074) by norm_num,Nat.cast_ofNat,
      zpow_add₀ (by norm_num : (2 : ℚ) ≠ 0)]
    apply mul_lt_mul_of_pos_right _ (two_zpow_pos _)
    exact_mod_cast hhi
  have hl := (Int.lt_zpow_iff_log_lt (by norm_num) hq).mp h2
  rw [roundExp]
  omega

/-- Rounding loses nothing on a multiple of its own last place. -/
theorem rank_exact {m : ℕ} {e : ℤ} (hm : 0 < m) (he : roundExp (m*2^e) = e) :
    rank (m*2^e) = (e+1074).toNat*2^52+m := by
  have hz : (m : ℚ)*2^e ≠ 0 :=
    mul_ne_zero (by exact_mod_cast hm.ne') (two_zpow_pos e).ne'
  have hd : (m : ℚ)*2^e/2^e = ((m : ℤ) : ℚ) := by
    rw [mul_div_cancel_right₀ _ (two_zpow_pos e).ne']
    norm_cast
  rw [rank,if_neg hz,he,hd,roundHalfEven_intCast,Int.toNat_natCast]

/-- Rounding the value of a rank gives the rank back. -/
@[simp] theorem rank_value (i : ℕ) : rank (value i) = i := by
  rcases Nat.eq_zero_or_pos i with rfl | hi
  · simp [rank,value,significand]
  · rcases Nat.lt_or_ge i (2^52) with h | h
    · rw [value_subnormal h,rank_exact hi (roundExp_subnormal hi h)]
      simp
    · have hd : 1 ≤ i/2^52 := (Nat.one_le_div_iff (by norm_num)).mpr h
      have hm := Nat.mod_lt i (by norm_num : 0 < 2^52)
      have hr := roundExp_normal (m := 2^52+i%2^52) (e := ((i/2^52 : ℕ) : ℤ)-1075)
        (by omega) (by omega) (by omega)
      rw [value_of_ge h,rank_exact (by omega) hr]
      have := Nat.div_add_mod i (2^52)
      omega

theorem value_injective : Function.Injective value := by
  intro i j h
  rw [← rank_value i,h,rank_value]

@[simp] theorem value_zero : value 0 = 0 := by simp [value,significand]

theorem significand_pos {i : ℕ} (hi : 0 < i) : 0 < significand i := by
  unfold significand
  split <;> omega

theorem value_pos {i : ℕ} (hi : 0 < i) : 0 < value i :=
  mul_pos (by exact_mod_cast significand_pos hi) (two_zpow_pos _)

theorem value_nonneg (i : ℕ) : 0 ≤ value i := by
  rcases Nat.eq_zero_or_pos i with rfl | hi
  · simp
  · exact (value_pos hi).le

theorem ulpExp_ge (i : ℕ) : -1074 ≤ ulpExp i := by
  unfold ulpExp
  split
  · rfl
  · have : 1 ≤ i/2^52 := (Nat.one_le_div_iff (by norm_num)).mpr (by omega)
    omega

/-- A rank built from a normal significand has the value it was built from. -/
theorem value_normal {m : ℕ} {e : ℤ} (hlo : 2^52 ≤ m) (hhi : m < 2^53) (he : -1074 ≤ e) :
    value ((e+1074).toNat*2^52+m) = m*2^e := by
  have hmod : ((e+1074).toNat*2^52+m)%2^52 = m-2^52 := by omega
  have hdiv : ((e+1074).toNat*2^52+m)/2^52 = (e+1074).toNat+1 := by omega
  have hs : 2^52+(m-2^52) = m := by omega
  have he' : (((e+1074).toNat+1 : ℕ) : ℤ)-1075 = e := by omega
  rw [value_of_ge (by omega),hmod,hdiv,hs,he']

/-- Every integer below 2^53 is a double. -/
theorem value_rank_natCast {n : ℕ} (h : n < 2^53) : value (rank n) = n := by
  rcases Nat.eq_zero_or_pos n with rfl | hn
  · simp [rank]
  · let l := Nat.log 2 n
    have hl : 2^l ≤ n := Nat.pow_log_le_self 2 hn.ne'
    have hu : n < 2^(l+1) := Nat.lt_pow_succ_log_self (by norm_num) n
    have hl52 : l ≤ 52 := by
      have := (Nat.pow_lt_pow_iff_right (by norm_num : 1 < 2)).mp (lt_of_le_of_lt hl h)
      omega
    have hlo : 2^52 ≤ n*2^(52-l) := by
      calc 2^52 = 2^l*2^(52-l) := by rw [← pow_add]; congr 1; omega
        _ ≤ n*2^(52-l) := Nat.mul_le_mul_right _ hl
    have hhi : n*2^(52-l) < 2^53 := by
      calc n*2^(52-l) < 2^(l+1)*2^(52-l) := Nat.mul_lt_mul_of_pos_right hu (by positivity)
        _ = 2^53 := by rw [← pow_add]; congr 1; omega
    have hq : (n : ℚ) = ((n*2^(52-l) : ℕ) : ℚ)*2^((l : ℤ)-52) := by
      have he : ((l : ℤ)-52) = -((52-l : ℕ) : ℤ) := by omega
      rw [he,zpow_neg,zpow_natCast]
      push_cast
      field_simp
    have hr := roundExp_normal (e := (l : ℤ)-52) hlo hhi (by omega)
    conv_lhs => rw [hq]
    rw [rank_exact (by omega) hr,value_normal hlo hhi (by omega),← hq]

theorem roundHalfEven_mono {p q : ℚ} (h : p ≤ q) : roundHalfEven p ≤ roundHalfEven q := by
  have hf : ⌊p⌋ ≤ ⌊q⌋ := Int.floor_le_floor h
  have hp : roundHalfEven p ≤ ⌊p⌋+1 := by
    simp only [roundHalfEven]
    split_ifs <;> omega
  have hq : ⌊q⌋ ≤ roundHalfEven q := by
    simp only [roundHalfEven]
    split_ifs <;> omega
  rcases hf.lt_or_eq with hlt | heq
  · omega
  · simp only [roundHalfEven,heq]
    have hle : p-⌊q⌋ ≤ q-⌊q⌋ := by linarith
    split_ifs <;> first | omega | linarith

theorem roundHalfEven_natCast (n : ℕ) : roundHalfEven n = n := by
  exact_mod_cast roundHalfEven_intCast n

/-- Above the rank of a rounding exponent is one binade at most. -/
theorem rank_mono {p q : ℚ} (hp : 0 ≤ p) (h : p ≤ q) : rank p ≤ rank q := by
  rcases hp.eq_or_lt with rfl | hp
  · simp [rank]
  have hq : 0 < q := hp.trans_le h
  have hlog : Int.log 2 p ≤ Int.log 2 q := Int.log_mono_right hp h
  have hexp : roundExp p ≤ roundExp q := by
    simp only [roundExp]
    omega
  have hlow : -1074 ≤ roundExp p := le_max_right _ _
  rw [rank,rank,if_neg hp.ne',if_neg hq.ne']
  rcases hexp.eq_or_lt with heq | hlt
  · rw [heq]
    have hdiv : p/2^roundExp q ≤ q/2^roundExp q := div_le_div_of_nonneg_right h (two_zpow_pos _).le
    have := roundHalfEven_mono hdiv
    omega
  · -- The exponents differ: the smaller significand is at most 2^53, the larger at least 2^52.
    have hup : roundHalfEven (p/2^roundExp p) ≤ (2^53 : ℕ) := by
      rw [← roundHalfEven_natCast]
      apply roundHalfEven_mono
      rw [div_le_iff₀ (two_zpow_pos _)]
      have hlt' : p < 2^(Int.log 2 p+1) := Int.lt_zpow_succ_log_self (by norm_num) p
      calc p ≤ 2^(Int.log 2 p+1) := hlt'.le
        _ ≤ 2^(53+roundExp p) := by
          apply zpow_le_zpow_right₀ (by norm_num)
          simp only [roundExp]
          omega
        _ = _ := by
          rw [zpow_add₀ (by norm_num)]
          norm_num
    have hdown : (2^52 : ℕ) ≤ roundHalfEven (q/2^roundExp q) := by
      rw [← roundHalfEven_natCast]
      apply roundHalfEven_mono
      rw [le_div_iff₀ (two_zpow_pos _)]
      have hle' : (2 : ℚ)^Int.log 2 q ≤ q := Int.zpow_log_le_self (by norm_num) hq
      calc ((2^52 : ℕ) : ℚ)*2^roundExp q = 2^(52+roundExp q) := by
            rw [zpow_add₀ (by norm_num)]
            norm_num
        _ = 2^Int.log 2 q := by
          congr 1
          simp only [roundExp] at hlt hlow ⊢
          omega
        _ ≤ q := hle'
    omega

theorem value_mono {i j : ℕ} (h : i ≤ j) : value i ≤ value j := by
  by_contra hlt
  have hr := rank_mono (value_nonneg j) (not_le.mp hlt).le
  rw [rank_value,rank_value] at hr
  obtain rfl : i = j := by omega
  exact hlt le_rfl

end Binary64
end Semp
