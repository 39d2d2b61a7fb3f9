import Semp.DateOrder
import Semp.NumberRange
import Semp.RetryBounds

/-! The jittered interval of a policy whose jitter is at most a quarter: it is a number of
milliseconds between 45 seconds and 12 hours, whatever the random bits are. -/
namespace Semp
namespace Retry
open Number

/-- A policy without a NaN, whose cap has room for the first interval, and whose jitter is not
above the recommended quarter. -/
structure Gentle (cfg : RetryConfig) : Prop extends Roomy cfg where
  jitter : (cfg.jitterFraction.getD (.zero false)).le (.ofRat (1/4)) = true

variable {cfg : RetryConfig} {n : ℕ}

theorem exact_natCast {n : ℕ} (h : n < 2^53) : Exact (n : ℚ) := by
  have := exact_intCast (z := n) h
  exact_mod_cast this

theorem exact_quarter : Exact (1/4) := by
  unfold Exact
  decide +kernel

theorem exact_threeQuarters : Exact (3/4) := by
  unfold Exact
  decide +kernel

/-- What was sanitized stays as gentle as it was. -/
theorem Gentle.sanitized (h : Gentle cfg) : Gentle (sanitizeRetry cfg).toConfig where
  initial := isNaN_right (sanitize_effective h.toRoomy).initial
  multiplier := isNaN_right (sanitize_effective h.toRoomy).multiplier
  cap := .inr (sanitize_effective h.toRoomy).cap_lower
  jitter := max_le h.jitter (by decide +kernel)

theorem jitter_within (h : Gentle cfg) : Within 0 (1/4) (sanitizeRetry cfg).jitterFraction := by
  have hnan := isNaN_left h.jitter
  have hle : (sanitizeRetry cfg).jitterFraction.le (.ofRat (1/4)) = true :=
    max_le h.jitter (by decide +kernel)
  have hge : (Number.ofRat (1/10)).le (sanitizeRetry cfg).jitterFraction = true :=
    le_max_right hnan (by decide +kernel)
  have hw := within_of_le (a := .ofRat (1/10)) (by decide +kernel) exact_quarter.1 hge hle
  have hten : 0 ≤ (Number.ofRat (1/10)).toRat := by decide +kernel
  exact ⟨hw.finite,hten.trans hw.lower,exact_quarter.2 ▸ hw.upper⟩

theorem base_within (h : Roomy cfg) (n : ℕ) :
    Within 60000 21600000 (baseIntervalMs cfg n) := by
  have heff := sanitize_effective h
  have hcap : (sanitizeRetry cfg).maxIntervalMs.isNaN = false := isNaN_left heff.cap_upper
  have hscaled := chain_le heff.initial (le_scaled heff.multiplier n heff.initial)
  have hlow : (Number.ofNat 60000).le (baseIntervalMs cfg n) = true := by
    unfold baseIntervalMs
    dsimp only
    rw [grow_min heff n heff.initial]
    exact le_min hscaled heff.cap_lower
  have hhigh : (baseIntervalMs cfg n).le (.ofNat 21600000) = true := by
    unfold baseIntervalMs
    dsimp only
    rw [grow_min heff n heff.initial]
    exact chain_le (min_le_right (isNaN_right hscaled) hcap) heff.cap_upper
  have hw := within_of_le (isFinite_ofNat (by norm_num)) (isFinite_ofNat (by norm_num)) hlow hhigh
  rwa [toRat_ofNat (by norm_num),toRat_ofNat (by norm_num)] at hw

/-- The largest value of the random source is below one. -/
theorem rand_within (bits : UInt32) :
    Within 0 (4294967295/4294967296) (defaultRandFloat bits) := by
  have hexact : Exact (4294967295/4294967296) := by
    unfold Exact
    decide +kernel
  have hlt : (bits.toNat : ℚ) ≤ 4294967295 := by
    have := bits.toNat_lt
    exact_mod_cast (show bits.toNat ≤ 4294967295 by omega)
  refine .ofRat (by exact_mod_cast exact_natCast (n := 0) (by norm_num)) hexact (by positivity) ?_
  norm_num
  linarith

theorem within_ofNat {n : ℕ} (h : n < 2^53) : Within n n (.ofNat n) :=
  ⟨isFinite_ofNat h,(toRat_ofNat h).ge,(toRat_ofNat h).le⟩

/-- The random factor is at least three quarters, and at most two. -/
theorem factor_within (h : Gentle cfg) (bits : UInt32) : Within (3/4) 2
    (((Number.ofNat 1).sub (sanitizeRetry cfg).jitterFraction).add
      (((Number.ofNat 2).mul (sanitizeRetry cfg).jitterFraction).mul (defaultRandFloat bits))) := by
  have hj := jitter_within h
  have hrand := rand_within bits
  have hone : Exact 1 := by exact_mod_cast exact_natCast (n := 1) (by norm_num)
  have hzero : Exact 0 := by exact_mod_cast exact_natCast (n := 0) (by norm_num)
  have hhalf : Exact (1/2) := by
    unfold Exact
    decide +kernel
  have hleft : Within (3/4) 1 ((Number.ofNat 1).sub (sanitizeRetry cfg).jitterFraction) := by
    have hw := (within_ofNat (n := 1) (by norm_num)).sub hj (by norm_num; exact exact_threeQuarters)
      (by norm_num; exact hone)
    norm_num at hw
    exact hw
  have hdouble : Within 0 (1/2) ((Number.ofNat 2).mul (sanitizeRetry cfg).jitterFraction) := by
    have hw := (within_ofNat (n := 2) (by norm_num)).mul hj (by norm_num) le_rfl
      (by norm_num; exact hzero) (by norm_num; exact hhalf)
    norm_num at hw
    exact hw
  have hright : Within 0 1 (((Number.ofNat 2).mul (sanitizeRetry cfg).jitterFraction).mul
      (defaultRandFloat bits)) := by
    have hrand' : Within 0 2 (defaultRandFloat bits) :=
      ⟨hrand.finite,hrand.lower,hrand.upper.trans (by norm_num)⟩
    have hw := hdouble.mul hrand' le_rfl le_rfl (by norm_num; exact hzero)
      (by norm_num; exact hone)
    norm_num at hw
    exact hw
  have hw := hleft.add hright (by norm_num; exact exact_threeQuarters)
    (by norm_num; exact_mod_cast exact_natCast (n := 2) (by norm_num))
  norm_num at hw
  exact hw

/-- The interval is long enough for a second to be cut from it. -/
theorem jitterIntervalMs_within (h : Gentle cfg) (n : ℕ) (bits : UInt32) :
    ∃ x, jitterIntervalMs cfg (baseIntervalMs cfg n) (defaultRandFloat bits) = .ok x ∧
      Within 45000 43200000 x := by
  have hbase := base_within h.toRoomy n
  have hrand := rand_within bits
  have hprod := hbase.mul (factor_within h bits) (by norm_num) (by norm_num)
    (by norm_num; exact_mod_cast exact_natCast (n := 45000) (by norm_num))
    (by norm_num; exact_mod_cast exact_natCast (n := 43200000) (by norm_num))
  norm_num at hprod
  have hfloor := Within.floor (a := 45000) (b := 43200000) (by exact_mod_cast hprod) (by norm_num)
    (by norm_num)
  have hmax := hfloor.max (y := MinJitterFloorMs) (isFinite_ofNat (by norm_num)) (by
    rw [MinJitterFloorMs,toRat_ofNat (by norm_num)]
    norm_num)
  have hpos : (baseIntervalMs cfg n).le (.zero false) = false := by
    have hzero : (Number.zero false).toRat = 0 := by simp [Number.zero,Number.toRat]
    rw [le_fin hbase.finite rfl,decide_eq_false_iff_not,hzero]
    linarith [hbase.lower]
  have hin : ((defaultRandFloat bits).lt (.zero false) ||
      (Number.ofNat 1).le (defaultRandFloat bits)) = false := by
    have hzero : (Number.zero false).toRat = 0 := by simp [Number.zero,Number.toRat]
    have hone : (Number.ofNat 1).toRat = 1 := by exact_mod_cast toRat_ofNat (n := 1) (by norm_num)
    rw [lt_fin hrand.finite rfl,le_fin (isFinite_ofNat (by norm_num)) hrand.finite,hzero,hone,
      Bool.or_eq_false_iff,decide_eq_false_iff_not,decide_eq_false_iff_not]
    exact ⟨not_lt.mpr hrand.lower,not_le.mpr (hrand.upper.trans_lt (by norm_num))⟩
  refine ⟨_,?_,by exact_mod_cast hmax⟩
  unfold jitterIntervalMs
  simp only [hpos,hin,Bool.false_eq_true,if_false]
  rfl

/-- The next attempt is at least 45 seconds after the previous one. -/
theorem nextAttemptAt_gentle (h : Gentle cfg) {t : ℤ} (n : ℕ) (bits : UInt32)
    (ht : |t| ≤ JsDate.maxTime) (hmax : t+43200000 ≤ JsDate.maxTime) :
    ∃ u, nextAttemptAt cfg (some t) n (defaultRandFloat bits) = .ok (some u) ∧ t+45000 ≤ u := by
  obtain ⟨x,hx,hw⟩ := jitterIntervalMs_within h n bits
  have hrange := abs_le.mp ht
  have hbound : JsDate.maxTime = 8640000000000000 := rfl
  obtain ⟨hfin,hval⟩ := toRat_ofInt (z := t) (by omega)
  have hsum := Within.add (x := .ofInt t) ⟨hfin,hval.ge,hval.le⟩ hw
    (by exact_mod_cast exact_intCast (z := t+45000) (by omega))
    (by exact_mod_cast exact_intCast (z := t+43200000) (by omega))
  have habs : |((Number.ofInt t).add x).toRat| ≤ JsDate.maxTime := by
    have hlower : (-JsDate.maxTime : ℚ) ≤ t+45000 := by exact_mod_cast (by omega)
    have hupper : (t+43200000 : ℚ) ≤ JsDate.maxTime := by exact_mod_cast hmax
    exact abs_le.mpr ⟨hlower.trans hsum.lower,hsum.upper.trans hupper⟩
  have hplus : JsDate.plus (some t) x = some _ := if_pos (by
    rw [Bool.and_eq_true,decide_eq_true_eq]
    exact ⟨hsum.finite,habs⟩)
  refine ⟨_,?_,JsDate.le_plus ht (by omega) (by exact_mod_cast hw.lower) hplus⟩
  unfold nextAttemptAt
  simp only [Option.isNone_some,Bool.false_eq_true,if_false]
  rw [hx]
  exact congrArg Except.ok hplus

end Retry
end Semp
