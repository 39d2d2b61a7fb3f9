import Semp.JsNumber
import Semp.JsValue

/-! Dates.  A text that the source cuts to whole seconds is represented by its second,
counted from the epoch. -/
namespace Semp

/-- The time value in milliseconds; `none` is the NaN of an invalid date. -/
abbrev JsDate := Option ℤ

namespace JsDate
open Number

def maxTime : ℤ := 8640000000000000

/-- `new Date(x)` -/
def ofNumber (x : Number) : JsDate :=
  if x.isFinite && decide (|x.toRat| ≤ maxTime) then some (x.toRat.num.tdiv x.toRat.den) else none

/-- `d.getTime()` -/
def getTime : JsDate → Number
  | none => .nan
  | some t => .ofInt t

/-- `new Date(d.getTime() + ms)` -/
def plus (d : JsDate) (ms : Number) : JsDate := ofNumber (d.getTime.add ms)

/-- `d.getTime() < e.getTime()` -/
def lt : JsDate → JsDate → Bool
  | some t, some u => decide (t < u)
  | _, _ => false

/-- `d.getTime() <= e.getTime()` -/
def le : JsDate → JsDate → Bool
  | some t, some u => decide (t ≤ u)
  | _, _ => false

/-- `d.toISOString().replace(/\.\d{3}Z$/, "Z")` -/
def isoSecond : JsDate → Js ℤ
  | none => .error (.engine .rangeError)
  | some t => .ok (t/1000)

/-- `Date.parse(text)` -/
def parse (second : ℤ) : JsDate := some (second*1000)

theorem lt_eq_true {d e : JsDate} : lt d e = true ↔ ∃ t u, d = some t ∧ e = some u ∧ t < u := by
  cases d <;> cases e <;> simp [lt]

theorem le_eq_true {d e : JsDate} : le d e = true ↔ ∃ t u, d = some t ∧ e = some u ∧ t ≤ u := by
  cases d <;> cases e <;> simp [le]

/-- The second of a time is not after it. -/
theorem second_le (t : ℤ) : t/1000*1000 ≤ t := Int.ediv_mul_le t (by norm_num)

/-- `x+y`, where `x` is an integer, is a time only if `y` is finite. -/
theorem plus_eq_some {m : ℤ} {w : Number} (hm : |m| ≤ maxTime) {t : ℤ}
    (h : plus (some m) w = some t) : w.isFinite ∧ (ofRat (m+w.toRat)).isFinite ∧
      |(ofRat (m+w.toRat)).toRat| ≤ maxTime ∧
      t = (ofRat (m+w.toRat)).toRat.num.tdiv (ofRat (m+w.toRat)).toRat.den := by
  have habs : m.natAbs < 2^53 := by
    simp only [maxTime,abs_le] at hm
    omega
  obtain ⟨hfin,hrat⟩ := toRat_ofInt habs
  rw [plus,getTime,ofNumber] at h
  split_ifs at h with hc
  rw [Bool.and_eq_true,decide_eq_true_eq] at hc
  have hw : w.isFinite := by
    revert hc
    cases hi : ofInt m with
    | fin a i => cases w <;> simp [add,neg,sub,isFinite]
    | _ => simp [hi,isFinite] at hfin
  obtain ⟨hsum,hval⟩ := isFinite_toRat_add hfin hw
  rw [hrat] at hsum hval
  rw [hsum,hval] at hc
  rw [hval] at h
  exact ⟨hw,hc.1,hc.2,(Option.some.inj h).symm⟩

theorem tdiv_le {q : ℚ} {n : ℤ} (h : q ≤ n) : q.num.tdiv q.den ≤ n := by
  have hnum : q.num ≤ n*q.den := by
    have := (Rat.le_iff q n).mp h
    simpa using this
  rcases le_or_gt 0 q.num with hpos | hneg
  · rw [Int.tdiv_eq_ediv_of_nonneg hpos]
    exact Int.ediv_le_of_le_mul (by exact_mod_cast q.den_pos) hnum
  · have hdiv : q.num.tdiv q.den = -(-q.num/q.den) := by
      rw [← Int.tdiv_eq_ediv_of_nonneg (by omega),Int.neg_tdiv,neg_neg]
    have : -n ≤ -q.num/q.den := by
      rw [Int.le_ediv_iff_mul_le (by exact_mod_cast q.den_pos)]
      linarith
    omega

/-- A time is not more than `n` later if what is added is not above `n`. -/
theorem plus_le {m n t : ℤ} {w : Number} (hm : |m| ≤ maxTime) (hn : (m+n).natAbs < 2^53)
    (hw : w.isFinite → w.toRat ≤ n) (h : plus (some m) w = some t) : t ≤ m+n := by
  obtain ⟨hfin,hsum,-,rfl⟩ := plus_eq_some hm h
  have hle : (m : ℚ)+w.toRat ≤ ((m+n : ℤ) : ℚ) := by
    push_cast
    linarith [hw hfin]
  exact tdiv_le (toRat_ofRat_le hn hle hsum)

/-- Integers are added exactly. -/
theorem plus_of_int {m k : ℤ} {w : Number} (hm : |m| ≤ maxTime) (hk : (m+k).natAbs < 2^53)
    (hfin : w.isFinite) (hw : w.toRat = k) :
    plus (some m) w = if |m+k| ≤ maxTime then some (m+k) else none := by
  have habs : m.natAbs < 2^53 := by
    simp only [maxTime,abs_le] at hm
    omega
  obtain ⟨hmfin,hmrat⟩ := toRat_ofInt habs
  obtain ⟨hsum,hval⟩ := isFinite_toRat_add hmfin hfin
  obtain ⟨hint,hrat⟩ := toRat_ofInt hk
  have hcast : (m : ℚ)+k = ((m+k : ℤ) : ℚ) := by push_cast; rfl
  rw [hmrat,hw,hcast] at hsum hval
  rw [plus,getTime,ofNumber,hsum,hval]
  change (if (ofInt (m+k)).isFinite && decide (|(ofInt (m+k)).toRat| ≤ (maxTime : ℚ)) then
    some ((ofInt (m+k)).toRat.num.tdiv (ofInt (m+k)).toRat.den) else none) = _
  rw [hint,hrat,Bool.true_and]
  by_cases h : |m+k| ≤ maxTime
  · rw [if_pos h,if_pos (by rw [decide_eq_true_eq]; exact_mod_cast h)]
    rw [Rat.num_intCast,Rat.den_intCast,Nat.cast_one,Int.tdiv_one]
  · rw [if_neg h,if_neg (by rw [decide_eq_true_eq]; exact_mod_cast h)]

end JsDate
end Semp
