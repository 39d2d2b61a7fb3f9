import Semp.JsDate
import Semp.NumberGrowth

/-! The order of sums of times: what is added to a later time, and not less, is not earlier,
though sums are rounded and dates are cut to whole milliseconds. -/
namespace Semp
namespace JsDate
open Number

/-- Truncation rounds down what is not negative. -/
theorem tdiv_eq_floor (q : ℚ) : q.num.tdiv q.den = if 0 ≤ q then ⌊q⌋ else -⌊-q⌋ := by
  split_ifs with h
  · rw [Int.tdiv_eq_ediv_of_nonneg (Rat.num_nonneg.mpr h)]
    exact Rat.floor_def'.symm
  · have hneg : 0 ≤ -q := by linarith
    have hnum : 0 ≤ -q.num := Rat.neg_num q ▸ Rat.num_nonneg.mpr hneg
    rw [← neg_neg q.num,Int.neg_tdiv,Int.tdiv_eq_ediv_of_nonneg hnum,Rat.floor_def',Rat.neg_num,
      Rat.neg_den]

theorem tdiv_mono {p q : ℚ} (h : p ≤ q) : p.num.tdiv p.den ≤ q.num.tdiv q.den := by
  rw [tdiv_eq_floor,tdiv_eq_floor]
  split_ifs with hp hq hq
  · exact Int.floor_mono h
  · linarith
  · have h1 : 0 ≤ ⌊-p⌋ := Int.floor_nonneg.mpr (by linarith)
    have h2 : 0 ≤ ⌊q⌋ := Int.floor_nonneg.mpr hq
    omega
  · exact neg_le_neg (Int.floor_mono (neg_le_neg h))

/-- A later time, and not less added, is not an earlier sum. -/
theorem plus_mono {a b c d : ℤ} {v w : Number} (ha : |a| ≤ maxTime) (hb : |b| ≤ maxTime)
    (hab : a ≤ b) (hvw : v.toRat ≤ w.toRat) (hd : plus (some a) v = some d)
    (hc : plus (some b) w = some c) : d ≤ c := by
  obtain ⟨-,hfin,-,rfl⟩ := plus_eq_some ha hd
  obtain ⟨-,hfin',-,rfl⟩ := plus_eq_some hb hc
  have hsum : (a : ℚ)+v.toRat ≤ b+w.toRat := add_le_add (by exact_mod_cast hab) hvw
  exact tdiv_mono (toRat_ofRat_mono hsum hfin hfin')

/-- A time is at least `n` later if what is added is at least `n`. -/
theorem le_plus {m n t : ℤ} {w : Number} (hm : |m| ≤ maxTime) (hn : (m+n).natAbs < 2^53)
    (hw : n ≤ w.toRat) (h : plus (some m) w = some t) : m+n ≤ t := by
  obtain ⟨-,hfin,-,rfl⟩ := plus_eq_some hm h
  obtain ⟨hint,hrat⟩ := toRat_ofInt hn
  have hsum : ((m+n : ℤ) : ℚ) ≤ m+w.toRat := by
    push_cast
    linarith
  have hle := toRat_ofRat_mono hsum hint hfin
  rw [show (ofRat ((m+n : ℤ) : ℚ)).toRat = ((m+n : ℤ) : ℚ) from hrat] at hle
  have := tdiv_mono hle
  rwa [Rat.num_intCast,Rat.den_intCast,Nat.cast_one,Int.tdiv_one] at this

end JsDate
end Semp
