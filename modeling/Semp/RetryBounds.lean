import Mathlib.Logic.Function.Iterate
import Semp.NumberGrowth
import Semp.Retry

/-! The backoff of the retry schedule for any attempt number: it doubles at least, so the cap
ends it after nine rounds, and it stays between its bounds when the cap leaves room for them. -/
namespace Semp
namespace Retry

/-- The loop of `baseIntervalMs` with its counter `i` and bound `a`, for at most `fuel` turns. -/
def growWhile (eff : EffectiveRetryConfig) (a : Number) : ℕ → Number → Number → Option Number
  | 0, _, _ => none
  | fuel+1, i, d =>
    if i.lt a then
      let next := d.mul eff.multiplier
      if eff.maxIntervalMs.lt next then some eff.maxIntervalMs
      else growWhile eff a fuel (i.add (.ofNat 1)) next
    else some d

/-- `Math.max(0, Math.floor(attempt))` -/
def roundsOf (attempt : Number) : Number := (Number.zero false).max attempt.floor

/-- `baseIntervalMs` of any attempt number, with the turns its loop may take. -/
def baseIntervalWithin (fuel : ℕ) (cfg : RetryConfig) (attempt : Number) : Option Number :=
  let eff := sanitizeRetry cfg
  (growWhile eff (roundsOf attempt) fuel (.zero false) eff.initialIntervalMs).map
    (·.min eff.maxIntervalMs)

/-- With enough turns the call returns `d`. -/
def Returns (cfg : RetryConfig) (attempt d : Number) : Prop :=
  ∃ fuel, baseIntervalWithin fuel cfg attempt = some d

/-- `d * m * … * m`, with `n` factors and each product rounded. -/
def scaled (m : Number) (n : ℕ) (d : Number) : Number := (fun d => d.mul m)^[n] d

/-- `initial * multiplier^a` -/
def power (eff : EffectiveRetryConfig) (a : Number) : Number :=
  match a with
  | .inf _ => .inf false
  | a => scaled eff.multiplier a.toNat eff.initialIntervalMs

/-- What the sanitized values are for: the interval is bounded, grows, and is the capped
power. -/
structure Bounded (cfg : RetryConfig) : Prop where
  total : ∀ attempt, ∃ d, Returns cfg attempt d
  lower : ∀ attempt d, Returns cfg attempt d → MinRetryInitialIntervalMs.le d = true
  upper : ∀ attempt d, Returns cfg attempt d → d.le MaxRetryIntervalMs = true
  mono : ∀ a b d e, a.le b = true → Returns cfg a d → Returns cfg b e → d.le e = true
  eq_power : ∀ attempt d, Returns cfg attempt d →
    d = (power (sanitizeRetry cfg) (roundsOf attempt)).min (sanitizeRetry cfg).maxIntervalMs

/-- No value that is set is a NaN, and the cap is not below the first interval. -/
structure Roomy (cfg : RetryConfig) : Prop where
  initial : (cfg.initialIntervalMs.getD (.zero false)).isNaN = false
  multiplier : (cfg.multiplier.getD (.zero false)).isNaN = false
  cap : (cfg.maxIntervalMs.getD (.zero false)).le (.zero false) = true ∨
    MinRetryInitialIntervalMs.le (cfg.maxIntervalMs.getD (.zero false)) = true

/-- The bounds of sanitized values. -/
structure Effective (eff : EffectiveRetryConfig) : Prop where
  initial : (Number.ofNat 60000).le eff.initialIntervalMs = true
  multiplier : (Number.ofNat 2).le eff.multiplier = true
  cap_lower : (Number.ofNat 60000).le eff.maxIntervalMs = true
  cap_upper : eff.maxIntervalMs.le (.ofNat 21600000) = true

variable {cfg : RetryConfig} {eff : EffectiveRetryConfig} {a d e m attempt : Number} {n k : ℕ}

theorem sanitize_effective (h : Roomy cfg) : Effective (sanitizeRetry cfg) where
  initial := Number.le_max_right h.initial (Number.isNaN_of_nat (by norm_num))
  multiplier := Number.le_max_right h.multiplier (Number.isNaN_of_nat (by norm_num))
  cap_lower := by
    have hmax : (Number.ofNat 60000).le MaxRetryIntervalMs = true :=
      Number.ofNat_le_ofNat (by norm_num)
    unfold sanitizeRetry
    dsimp only
    split_ifs with hout
    · exact hmax
    · rw [Bool.or_eq_true,not_or] at hout
      exact h.cap.resolve_left hout.1
  cap_upper := by
    have hmax : MaxRetryIntervalMs.isNaN = false := Number.isNaN_of_nat (by norm_num)
    unfold sanitizeRetry
    dsimp only
    split_ifs with hout
    · exact Number.self_le hmax
    · rw [Bool.or_eq_true,not_or,Bool.not_eq_true,Bool.not_eq_true] at hout
      exact Number.of_not_lt (Number.isNaN_right (h.cap.resolve_left (by simp [hout.1]))) hmax hout.2

theorem scaled_succ (m : Number) (n : ℕ) (d : Number) :
    scaled m (n+1) d = scaled m n (d.mul m) := Function.iterate_succ_apply _ n d

theorem scaled_add (m : Number) (n k : ℕ) (d : Number) :
    scaled m (n+k) d = scaled m n (scaled m k d) := Function.iterate_add_apply _ n k d

/-- A turn keeps what is large large. -/
theorem large_mul (hm : (Number.ofNat 2).le m = true) (hd : (Number.ofNat 60000).le d = true) :
    (Number.ofNat 60000).le (d.mul m) = true ∧ d.le (d.mul m) = true := by
  have hone : (Number.ofNat 1).le m = true :=
    Number.chain_le (Number.ofNat_le_ofNat (by norm_num)) hm
  have hle : d.le (d.mul m) = true := Number.self_le_mul (by norm_num) (by norm_num) hd hone
  exact ⟨Number.chain_le hd hle,hle⟩

theorem le_scaled (hm : (Number.ofNat 2).le m = true) (n : ℕ)
    (hd : (Number.ofNat 60000).le d = true) : d.le (scaled m n d) = true := by
  induction n generalizing d with
  | zero => exact Number.self_le (Number.isNaN_right hd)
  | succ n ih =>
    obtain ⟨hlarge,hle⟩ := large_mul hm hd
    rw [scaled_succ]
    exact Number.chain_le hle (ih hlarge)

theorem scaled_mono (hm : (Number.ofNat 2).le m = true) (hd : (Number.ofNat 60000).le d = true)
    (h : k ≤ n) : (scaled m k d).le (scaled m n d) = true := by
  obtain ⟨j,rfl⟩ := Nat.exists_eq_add_of_le h
  rw [Nat.add_comm,scaled_add]
  exact le_scaled hm j (Number.chain_le hd (le_scaled hm k hd))

/-- Each turn doubles at least. -/
theorem double_le (hm : (Number.ofNat 2).le m = true) (hk : k < 9)
    (hd : (Number.ofNat (60000*2^k)).le d = true) :
    (Number.ofNat (60000*2^(k+1))).le (d.mul m) = true := by
  have hpow : 2^(k+1) ≤ 2^9 := Nat.pow_le_pow_right (by norm_num) (by omega)
  have hsplit : 60000*2^(k+1) = 60000*2^k*2 := by ring
  rw [hsplit]
  exact Number.le_mul (by positivity) (by norm_num) (by omega) hd hm

theorem pow_le_scaled (hm : (Number.ofNat 2).le m = true) (hd : (Number.ofNat 60000).le d = true)
    (k : ℕ) (hk : k ≤ 9) : (Number.ofNat (60000*2^k)).le (scaled m k d) = true := by
  induction k with
  | zero => exact hd
  | succ k ih =>
    rw [Nat.add_comm k 1,scaled_add,Nat.add_comm 1 k]
    exact double_le hm (by omega) (ih (by omega))

theorem cap_lt (h : Effective eff) {x : Number} (hx : (Number.ofNat (60000*2^9)).le x = true) :
    eff.maxIntervalMs.lt x = true := by
  have hlt : (Number.ofNat 21600000).lt (.ofNat (60000*2^9)) = true := by
    rw [Number.lt_ofNat (by norm_num) (by norm_num)]
    exact decide_eq_true (by norm_num)
  have hcap := h.cap_upper
  have hn := Number.isNaN_of_lt hlt
  rw [Number.lt_iff_place (Number.isNaN_left hcap) (Number.isNaN_right hx)]
  exact ((Number.place_le hcap).trans_lt ((Number.lt_iff_place hn.1 hn.2).mp hlt)).trans_le
    (Number.place_le hx)

/-- Stopping at the cap gives what going on would. -/
theorem grow_min (h : Effective eff) (n : ℕ) (hd : (Number.ofNat 60000).le d = true) :
    (grow eff n d).min eff.maxIntervalMs =
      (scaled eff.multiplier n d).min eff.maxIntervalMs := by
  induction n generalizing d with
  | zero => rfl
  | succ n ih =>
    obtain ⟨hlarge,-⟩ := large_mul h.multiplier hd
    rw [grow,scaled_succ]
    split_ifs with hlt
    · rw [Number.min_same,
        Number.min_of_lt (Number.lt_chain_le hlt (le_scaled h.multiplier n hlarge))]
    · exact ih hlarge

/-- A whole number of rounds is made of as many turns. -/
theorem growWhile_ofNat (eff : EffectiveRetryConfig) (k : ℕ) {i : ℕ} (hn : i+k < 2^53)
    (d : Number) : growWhile eff (.ofNat (i+k)) (k+1) (.ofNat i) d = some (grow eff k d) := by
  induction k generalizing i d with
  | zero =>
    rw [Nat.add_zero] at hn ⊢
    rw [growWhile,Number.lt_ofNat hn hn,decide_eq_false (lt_irrefl _)]
    rfl
  | succ k ih =>
    rw [growWhile,Number.lt_ofNat (by omega) hn,decide_eq_true (by omega),if_pos rfl,grow]
    dsimp only
    split_ifs
    · rfl
    · have hi : i+(k+1) = (i+1)+k := by omega
      rw [Number.add_one (by omega),hi]
      exact ih (by omega) _

/-- Nine rounds reach the cap. -/
theorem growWhile_large (h : Effective eff) (ha : (Number.ofNat 9).le a = true) (k : ℕ) {i : ℕ}
    (hi : i+k = 9) (hd : (Number.ofNat (60000*2^i)).le d = true)
    (hcap : i = 0 ∨ d.le eff.maxIntervalMs = true) :
    growWhile eff a k (.ofNat i) d = some eff.maxIntervalMs := by
  induction k generalizing i d with
  | zero =>
    obtain rfl : i = 9 := by omega
    have hlt : eff.maxIntervalMs.lt d = true := cap_lt h hd
    rw [Number.not_lt_of_le (hcap.resolve_left (by norm_num))] at hlt
    cases hlt
  | succ k ih =>
    have hlt : (Number.ofNat i).lt a = true := by
      refine Number.lt_chain_le ?_ ha
      rw [Number.lt_ofNat (by omega) (by norm_num)]
      exact decide_eq_true (by omega)
    have hnext := double_le h.multiplier (by omega) hd
    rw [growWhile,if_pos hlt]
    dsimp only
    split_ifs with hover
    · rfl
    · rw [Number.add_one (by omega)]
      refine ih (by omega) hnext (.inr ?_)
      exact Number.of_not_lt (Number.isNaN_right hnext) (Number.isNaN_left h.cap_upper)
        (by simpa using hover)

/-- More turns do not change the result. -/
theorem growWhile_succ (eff : EffectiveRetryConfig) (a : Number) (fuel : ℕ) {i : Number}
    (h : growWhile eff a fuel i d = some e) : growWhile eff a (fuel+1) i d = some e := by
  induction fuel generalizing i d with
  | zero => cases h
  | succ fuel ih =>
    rw [growWhile] at h ⊢
    dsimp only at h ⊢
    split_ifs at h ⊢
    · exact h
    · exact ih h
    · exact h

theorem growWhile_unique {fuel fuel' : ℕ} {i : Number} (h : growWhile eff a fuel i d = some e)
    (h' : growWhile eff a fuel' i d = some m) : e = m := by
  have hmono : ∀ n fuel r, growWhile eff a fuel i d = some r →
      growWhile eff a (fuel+n) i d = some r := by
    intro n fuel r hr
    induction n with
    | zero => exact hr
    | succ n ih => exact growWhile_succ eff a (fuel+n) ih
  have hr := hmono fuel' fuel e h
  rw [Nat.add_comm,hmono fuel fuel' m h'] at hr
  exact (Option.some.inj hr).symm

/-- A call returns what any run of its loop gives. -/
theorem returns_iff_of_run {fuel : ℕ} {r : Number}
    (h : growWhile (sanitizeRetry cfg) (roundsOf attempt) fuel (.ofNat 0)
      (sanitizeRetry cfg).initialIntervalMs = some r) :
    Returns cfg attempt d ↔ d = r.min (sanitizeRetry cfg).maxIntervalMs := by
  unfold Returns baseIntervalWithin
  dsimp only
  rw [Number.zero_eq_ofNat]
  constructor
  · rintro ⟨fuel',hd⟩
    obtain ⟨r',hr',rfl⟩ := Option.map_eq_some_iff.mp hd
    rw [growWhile_unique h hr']
  · rintro rfl
    exact ⟨fuel,by rw [h]; rfl⟩

/-- The number of rounds is none, or a natural number, or too large for the loop. -/
theorem roundsOf_cases (attempt : Number) : roundsOf attempt = .nan ∨
    (∃ n < 2^53, roundsOf attempt = .ofNat n) ∨
    (Number.ofNat 9).le (roundsOf attempt) = true := by
  cases attempt with
  | nan => exact .inl rfl
  | inf neg =>
    cases neg with
    | true =>
      refine .inr (.inl ⟨0,by norm_num,?_⟩)
      rw [← Number.zero_eq_ofNat]
      rfl
    | false =>
      refine .inr (.inr ?_)
      rw [Number.ofNat_eq (by norm_num)]
      rfl
  | fin neg i =>
    have hr : roundsOf (.fin neg i) = .ofNat ⌊(Number.fin neg i).toRat⌋.toNat :=
      Number.max_zero_floor neg i
    rw [hr]
    by_cases hn : ⌊(Number.fin neg i).toRat⌋.toNat < 2^53
    · exact .inr (.inl ⟨_,hn,rfl⟩)
    · exact .inr (.inr (Number.ofNat_le_ofNat (by omega)))

/-- A call with a natural number as attempt returns `baseIntervalMs` of it. -/
theorem returns_ofNat (hn : n < 2^53) (h : roundsOf attempt = .ofNat n) :
    Returns cfg attempt d ↔ d = baseIntervalMs cfg n := by
  have hrun := growWhile_ofNat (sanitizeRetry cfg) n (i:=0) (by omega)
    (sanitizeRetry cfg).initialIntervalMs
  rw [Nat.zero_add,← h] at hrun
  exact returns_iff_of_run hrun

theorem power_ofNat (eff : EffectiveRetryConfig) (hn : n < 2^53) :
    power eff (.ofNat n) = scaled eff.multiplier n eff.initialIntervalMs := by
  have hnat : (Number.ofNat n).toNat = n := Number.toNat_ofNat hn
  rw [Number.ofNat_eq hn] at hnat ⊢
  rw [power,hnat]
  nofun

theorem large_power (h : Effective eff) (ha : (Number.ofNat 9).le a = true) :
    (power eff a).min eff.maxIntervalMs = eff.maxIntervalMs := by
  rcases Number.cases_of_le (by norm_num) (by norm_num) ha with rfl|⟨i,rfl,hi⟩
  · refine Number.min_of_lt (cap_lt h ?_)
    rw [Number.ofNat_eq (by norm_num)]
    rfl
  · have hnine : 9 ≤ (Number.fin false i).toNat := by
      have hfloor : (9 : ℤ) ≤ ⌊(Number.fin false i).toRat⌋ := by
        rw [Int.le_floor]
        exact_mod_cast hi
      rw [Number.toNat]
      omega
    refine Number.min_of_lt (cap_lt h ?_)
    exact Number.chain_le (pow_le_scaled h.multiplier h.initial 9 le_rfl)
      (scaled_mono h.multiplier h.initial hnine)

/-- What a call returns when the sanitized values are in their bounds. -/
theorem returns_iff (h : Effective (sanitizeRetry cfg)) : Returns cfg attempt d ↔
    d = (power (sanitizeRetry cfg) (roundsOf attempt)).min (sanitizeRetry cfg).maxIntervalMs := by
  rcases roundsOf_cases attempt with hr|⟨n,hn,hr⟩|hr
  · have hrun : growWhile (sanitizeRetry cfg) (roundsOf attempt) 1 (.ofNat 0)
        (sanitizeRetry cfg).initialIntervalMs = some (sanitizeRetry cfg).initialIntervalMs := by
      rw [hr,growWhile,Number.ofNat_eq (by norm_num)]
      rfl
    rw [returns_iff_of_run hrun,hr]
    have hpow : power (sanitizeRetry cfg) .nan = (sanitizeRetry cfg).initialIntervalMs := by
      have hnat : Number.nan.toNat = 0 := by simp [Number.toNat,Number.toRat]
      rw [power,hnat]
      · rfl
      · intro neg h
        cases h
    rw [hpow]
  · rw [returns_ofNat hn hr,hr,power_ofNat _ hn,← grow_min h n h.initial]
    rfl
  · rw [large_power h hr]
    have hrun := growWhile_large h hr 9 (i:=0) rfl (by simpa using h.initial) (.inl rfl)
    rw [returns_iff_of_run hrun,Number.min_same]

theorem large_le_power (h : Effective eff) (a : Number) :
    (Number.ofNat 60000).le (power eff a) = true := by
  have hscaled : ∀ n, (Number.ofNat 60000).le
      (scaled eff.multiplier n eff.initialIntervalMs) = true := fun n =>
    Number.chain_le h.initial (le_scaled h.multiplier n h.initial)
  cases a with
  | inf neg =>
    rw [Number.ofNat_eq (by norm_num)]
    rfl
  | nan => exact hscaled _
  | fin neg i => exact hscaled _

theorem roundsOf_le {a b : Number} (h : a.le b = true) :
    (roundsOf a).le (roundsOf b) = true := by
  have hzero : roundsOf (.inf true) = .ofNat 0 := by
    rw [← Number.zero_eq_ofNat]
    rfl
  have htop : ∀ n, (Number.ofNat n).le (.inf false) = true := fun n =>
    Number.of_not_lt (Number.isNaN_ofMag _ _) rfl (by
      unfold Number.ofNat Number.ofMag
      split_ifs <;> rfl)
  have hfin : ∀ neg i, roundsOf (.fin neg i) = .ofNat ⌊(Number.fin neg i).toRat⌋.toNat :=
    Number.max_zero_floor
  cases a with
  | nan => cases h
  | inf s =>
    cases b with
    | nan => cases s <;> cases h
    | inf t =>
      cases s <;> cases t
      · rfl
      · cases h
      · rw [hzero]
        exact htop 0
      · exact Number.self_le (by rw [hzero]; exact Number.isNaN_ofMag _ _)
    | fin t j =>
      cases s with
      | false => cases h
      | true =>
        rw [hzero,hfin]
        exact Number.ofNat_le_ofNat (Nat.zero_le _)
  | fin s i =>
    cases b with
    | nan => cases h
    | inf t =>
      cases t with
      | false =>
        rw [hfin]
        exact htop _
      | true => cases h
    | fin t j =>
      rw [Number.le_fin rfl rfl,decide_eq_true_eq] at h
      rw [hfin,hfin]
      exact Number.ofNat_le_ofNat (Int.toNat_le_toNat (Int.floor_le_floor h))

theorem power_min_mono (h : Effective eff) {a b : Number} (hab : a.le b = true) :
    ((power eff (roundsOf a)).min eff.maxIntervalMs).le
      ((power eff (roundsOf b)).min eff.maxIntervalMs) = true := by
  have hrounds := roundsOf_le hab
  have hcap : eff.maxIntervalMs.isNaN = false := Number.isNaN_left h.cap_upper
  have hlast : (Number.ofNat 9).le (roundsOf b) = true →
      ((power eff (roundsOf a)).min eff.maxIntervalMs).le
        ((power eff (roundsOf b)).min eff.maxIntervalMs) = true := by
    intro hb
    rw [large_power h hb]
    exact Number.min_le_right (Number.isNaN_right (large_le_power h _)) hcap
  rcases roundsOf_cases b with hb|⟨k,hk,hb⟩|hb
  · rw [hb] at hrounds
    cases Number.isNaN_right hrounds
  · rcases roundsOf_cases a with ha|⟨n,hn,ha⟩|ha
    · rw [ha] at hrounds
      cases Number.isNaN_left hrounds
    · rw [ha,hb,Number.le_ofNat hn hk,decide_eq_true_eq] at hrounds
      rw [ha,hb,power_ofNat eff hn,power_ofNat eff hk]
      exact Number.min_le_min (scaled_mono h.multiplier h.initial hrounds) hcap
    · exact hlast (Number.chain_le ha hrounds)
  · exact hlast hb

theorem roundsOf_ofNat (hn : n < 2^53) : roundsOf (.ofNat n) = .ofNat n := by
  have hrat := Number.toRat_ofNat hn
  rw [Number.ofNat_eq hn] at hrat
  have hround := Number.max_zero_floor false ⟨Binary64.rank n,Number.rank_lt_of_natCast hn⟩
  rw [hrat,Int.floor_natCast,Int.toNat_natCast,← Number.ofNat_eq hn] at hround
  exact hround

/-- An interval that is bounded leaves no NaN in the policy. -/
theorem Bounded.roomy (h : Bounded cfg) : Roomy cfg := by
  have hbase : ∀ n < 2^53, MinRetryInitialIntervalMs.le
      ((scaled (sanitizeRetry cfg).multiplier n (sanitizeRetry cfg).initialIntervalMs).min
        (sanitizeRetry cfg).maxIntervalMs) = true := by
    intro n hn
    obtain ⟨d,hd⟩ := h.total (.ofNat n)
    have heq := h.eq_power _ d hd
    rw [roundsOf_ofNat hn,power_ofNat _ hn] at heq
    rw [← heq]
    exact h.lower _ d hd
  have hfirst := hbase 0 (by norm_num)
  have hnan := Number.isNaN_of_min (Number.isNaN_right hfirst)
  have hsecond := Number.isNaN_of_min (Number.isNaN_right (hbase 1 (by norm_num)))
  refine ⟨?_,?_,?_⟩
  · exact (Number.isNaN_of_max hnan.1).1
  · exact (Number.isNaN_of_max (Number.isNaN_of_mul hsecond.1).2).1
  · by_cases hout : ((cfg.maxIntervalMs.getD (.zero false)).le (.zero false) ||
        MaxRetryIntervalMs.lt (cfg.maxIntervalMs.getD (.zero false))) = true
    · rcases Bool.or_eq_true_iff.mp hout with hle|hlt
      · exact .inl hle
      · exact .inr (Number.chain_le (Number.ofNat_le_ofNat (by norm_num)) (Number.weaken_lt hlt))
    · have hcap : (sanitizeRetry cfg).maxIntervalMs = cfg.maxIntervalMs.getD (.zero false) :=
        if_neg hout
      rw [← hcap]
      exact .inr (Number.chain_le hfirst (Number.min_le_right hnan.1 hnan.2))

/-- The backoff keeps its bounds, grows and is the capped power exactly when no value of the
policy is a NaN and the cap is not positive and below a minute. -/
theorem bounded_iff (cfg : RetryConfig) : Bounded cfg ↔ Roomy cfg := by
  refine ⟨Bounded.roomy,fun hroomy => ?_⟩
  have h := sanitize_effective hroomy
  have hcap : (sanitizeRetry cfg).maxIntervalMs.isNaN = false := Number.isNaN_left h.cap_upper
  exact {
    total := fun attempt => ⟨_,(returns_iff h).mpr rfl⟩
    lower := by
      intro attempt d hd
      rw [(returns_iff h).mp hd]
      exact Number.le_min (large_le_power h _) h.cap_lower
    upper := by
      intro attempt d hd
      rw [(returns_iff h).mp hd]
      exact Number.chain_le
        (Number.min_le_right (Number.isNaN_right (large_le_power h _)) hcap) h.cap_upper
    mono := by
      intro a b d e hab hd he
      rw [(returns_iff h).mp hd,(returns_iff h).mp he]
      exact power_min_mono h hab
    eq_power := fun attempt d hd => (returns_iff h).mp hd }

/-- A policy whose cap is one millisecond. -/
def shortCap : RetryConfig := ⟨none,none,some (.ofNat 1),none⟩

/-- The cap is not raised: the first attempt comes after one millisecond. -/
theorem cap_below_minute : Returns shortCap (.ofNat 0) (.ofNat 1) ∧ ¬ Bounded shortCap := by
  have hbase : baseIntervalMs shortCap 0 = .ofNat 1 := by decide +kernel
  refine ⟨?_,fun h => ?_⟩
  · rw [returns_ofNat (by norm_num) (roundsOf_ofNat (by norm_num)),hbase]
  · rcases h.roomy.cap with hle|hle
    · exact absurd hle (by decide +kernel)
    · exact absurd hle (by decide +kernel)

end Retry
end Semp
