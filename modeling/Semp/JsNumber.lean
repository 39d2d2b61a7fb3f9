import Semp.Binary64
import Semp.JsText

/-! JavaScript numbers: binary64 with signed zeros, infinities and one NaN, the
arithmetic and the comparisons the source uses on them, and their decimal text
(`Number::toString` and the JSON number grammar).  Reading the text of a finite
number returns it, except that -0 is written `0`. -/
namespace Semp

open Binary64

inductive Number
  | nan
  | inf (neg : Bool)
  | fin (neg : Bool) (rank : Fin rankBound)
  deriving DecidableEq, Repr

namespace Number

def isFinite : Number → Bool
  | fin _ _ => true
  | _ => false

/-- The value of a finite number. -/
def toRat : Number → ℚ
  | fin neg i => if neg then -value i else value i
  | _ => 0

/-- The number nearest to a signed magnitude. -/
def ofMag (neg : Bool) (q : ℚ) : Number :=
  if h : rank q < rankBound then fin neg ⟨rank q,h⟩ else inf neg

def ofRat (q : ℚ) : Number := if q < 0 then ofMag true (-q) else ofMag false q

def ofNat (n : ℕ) : Number := ofMag false n

def ofInt (z : ℤ) : Number := ofRat z

def zero (neg : Bool) : Number := fin neg ⟨0,by decide⟩

/-- `a < b` -/
def lt : Number → Number → Bool
  | nan, _ | _, nan => false
  | inf a, inf b => a && !b
  | inf a, fin _ _ => a
  | fin _ _, inf b => !b
  | x, y => decide (x.toRat < y.toRat)

/-- `a <= b` -/
def le : Number → Number → Bool
  | nan, _ | _, nan => false
  | x, y => !lt y x

/-- `a === b` on numbers. -/
def eq : Number → Number → Bool
  | inf a, inf b => a == b
  | fin a i, fin b j => decide ((fin a i).toRat = (fin b j).toRat)
  | _, _ => false

/-- `a - b` -/
def sub : Number → Number → Number
  | nan, _ | _, nan => nan
  | inf a, inf b => if a = b then nan else inf a
  | inf a, fin _ _ => inf a
  | fin _ _, inf b => inf (!b)
  | fin a i, fin b j =>
    let d := (fin a i).toRat-(fin b j).toRat
    if d = 0 then zero (a && i.val == 0 && !b) else ofRat d

def neg : Number → Number
  | nan => nan
  | inf a => inf (!a)
  | fin a i => fin (!a) i

/-- `a + b` -/
def add (x y : Number) : Number := x.sub y.neg

/-- `a * b` -/
def mul : Number → Number → Number
  | nan, _ | _, nan => nan
  | inf a, inf b => inf (xor a b)
  | inf a, fin b i | fin b i, inf a => if i.val = 0 then nan else inf (xor a b)
  | fin a i, fin b j => ofMag (xor a b) (value i*value j)

/-- `Math.floor(a)` -/
def floor : Number → Number
  | fin neg i => if ⌊(fin neg i).toRat⌋ = 0 then zero neg else ofRat ⌊(fin neg i).toRat⌋
  | x => x

/-- `Math.max(a, b)`, where 0 is above -0. -/
def max (x y : Number) : Number :=
  match x, y with
  | nan, _ | _, nan => nan
  | x, y =>
    if lt x y then y
    else if lt y x then x
    else if x = zero true then y else x

/-- `Math.min(a, b)` -/
def min (x y : Number) : Number := (max x.neg y.neg).neg

def isNaN : Number → Bool
  | nan => true
  | _ => false

/-- `Number.isInteger(a)` -/
def isInteger : Number → Bool
  | fin _ i => (value i).den == 1
  | _ => false

/-- The value of a non-negative integer. -/
def toNat (x : Number) : ℕ := ⌊x.toRat⌋.toNat

/-- `ToUint32`: truncation modulo 2^32, and 0 for what is not finite. -/
def toUint32 : Number → ℕ
  | fin neg i => ((if neg then -⌊value i⌋ else ⌊value i⌋)%2^32).toNat
  | _ => 0

/-- `a & 1` -/
def and1 (x : Number) : Number := ofNat (x.toUint32%2)

/-- `a >>> 1` -/
def shr1 (x : Number) : Number := ofNat (x.toUint32/2)

theorem toRat_ofMag {neg : Bool} {q : ℚ} (h : rank q < rankBound) :
    (ofMag neg q).toRat = if neg then -value (rank q) else value (rank q) := by
  rw [ofMag,dif_pos h]
  rfl

theorem rank_lt_of_natCast {n : ℕ} (h : n < 2^53) : rank n < rankBound := by
  by_contra hge
  have hv := value_rank_natCast h
  rw [value_of_ge (by unfold rankBound at hge; omega)] at hv
  have hd : 2047 ≤ rank n/2^52 := by
    rw [Nat.le_div_iff_mul_le (by norm_num)]
    unfold rankBound at hge
    omega
  have h1 : (2 : ℚ)^53 ≤ 2^(((rank n/2^52 : ℕ) : ℤ)-1075) := by
    rw [← zpow_natCast]
    exact zpow_le_zpow_right₀ (by norm_num) (by push_cast; omega)
  have h2 : (1 : ℚ) ≤ ((2^52+rank n%2^52 : ℕ) : ℚ) := by
    exact_mod_cast (by omega : 1 ≤ 2^52+rank n%2^52)
  have h3 : (n : ℚ) < 2^53 := by exact_mod_cast h
  have h4 : (2 : ℚ)^53 ≤ n := by
    rw [← hv]
    calc (2 : ℚ)^53 = 1*2^53 := (one_mul _).symm
      _ ≤ _ := mul_le_mul h2 h1 (by positivity) (by positivity)
  exact absurd h3 (not_lt.mpr h4)

theorem ofNat_eq {n : ℕ} (h : n < 2^53) :
    ofNat n = fin false ⟨rank n,rank_lt_of_natCast h⟩ := by
  rw [ofNat,ofMag,dif_pos (rank_lt_of_natCast h)]

@[simp] theorem toRat_ofNat {n : ℕ} (h : n < 2^53) : (ofNat n).toRat = n := by
  rw [ofNat_eq h]
  exact value_rank_natCast h

@[simp] theorem toNat_ofNat {n : ℕ} (h : n < 2^53) : (ofNat n).toNat = n := by
  simp [toNat,toRat_ofNat h]

theorem isFinite_ofNat {n : ℕ} (h : n < 2^53) : (ofNat n).isFinite := by
  rw [ofNat_eq h]
  rfl

theorem toUint32_ofNat {n : ℕ} (h : n < 2^53) : (ofNat n).toUint32 = n%2^32 := by
  rw [ofNat_eq h]
  simp only [toUint32,Bool.false_eq_true,if_false,value_rank_natCast h]
  norm_cast

theorem lt_fin {x y : Number} (hx : x.isFinite) (hy : y.isFinite) :
    lt x y = decide (x.toRat < y.toRat) := by
  cases x <;> cases y <;> simp_all [isFinite,lt]

theorem le_fin {x y : Number} (hx : x.isFinite) (hy : y.isFinite) :
    le x y = decide (x.toRat ≤ y.toRat) := by
  have hl := lt_fin hy hx
  have he : le x y = !lt y x := by
    cases x <;> cases y <;> simp_all [isFinite,le]
  rw [he,hl,← decide_not]
  simp only [not_lt]

theorem eq_fin {x y : Number} (hx : x.isFinite) (hy : y.isFinite) :
    eq x y = decide (x.toRat = y.toRat) := by
  cases x <;> cases y <;> simp_all [isFinite,eq]

@[simp] theorem lt_ofNat {a b : ℕ} (ha : a < 2^53) (hb : b < 2^53) :
    lt (ofNat a) (ofNat b) = decide (a < b) := by
  rw [lt_fin (isFinite_ofNat ha) (isFinite_ofNat hb),toRat_ofNat ha,toRat_ofNat hb]
  simp

@[simp] theorem le_ofNat {a b : ℕ} (ha : a < 2^53) (hb : b < 2^53) :
    le (ofNat a) (ofNat b) = decide (a ≤ b) := by
  rw [le_fin (isFinite_ofNat ha) (isFinite_ofNat hb),toRat_ofNat ha,toRat_ofNat hb]
  simp

@[simp] theorem eq_ofNat {a b : ℕ} (ha : a < 2^53) (hb : b < 2^53) :
    eq (ofNat a) (ofNat b) = decide (a = b) := by
  rw [eq_fin (isFinite_ofNat ha) (isFinite_ofNat hb),toRat_ofNat ha,toRat_ofNat hb]
  simp

/-- Two finite numbers of one value differ at most in the sign of zero. -/
theorem toRat_eq_iff {a b : Bool} {i j : Fin rankBound} :
    (fin a i).toRat = (fin b j).toRat ↔ i = j ∧ (a = b ∨ i.val = 0) := by
  have hi := value_nonneg i
  have hj := value_nonneg j
  have hzero (k : Fin rankBound) (h : value k = 0) : k.val = 0 := by
    by_contra hk
    exact (value_pos (Nat.pos_of_ne_zero hk)).ne' h
  constructor
  · intro h
    cases a <;> cases b <;> simp only [toRat,Bool.false_eq_true,if_false,if_true] at h
    · exact ⟨Fin.ext (value_injective h),.inl rfl⟩
    · have h1 := hzero i (by linarith)
      have h2 := hzero j (by linarith)
      exact ⟨Fin.ext (h1.trans h2.symm),.inr h1⟩
    · have h1 := hzero i (by linarith)
      have h2 := hzero j (by linarith)
      exact ⟨Fin.ext (h1.trans h2.symm),.inr h1⟩
    · exact ⟨Fin.ext (value_injective (by linarith)),.inl rfl⟩
  · rintro ⟨rfl,rfl | h⟩
    · rfl
    · simp [toRat,h]

/-- The number without the sign of a zero. -/
def dropNegZero : Number → Number
  | fin neg i => fin (neg && i.val != 0) i
  | x => x

@[simp] theorem toRat_dropNegZero (x : Number) : x.dropNegZero.toRat = x.toRat := by
  cases x with
  | fin neg i =>
    cases neg <;> by_cases h : i.val = 0 <;> simp [dropNegZero,toRat,h]
  | _ => rfl

@[simp] theorem isFinite_dropNegZero (x : Number) : x.dropNegZero.isFinite = x.isFinite := by
  cases x <;> rfl

@[simp] theorem dropNegZero_idem (x : Number) : x.dropNegZero.dropNegZero = x.dropNegZero := by
  cases x with
  | fin neg i => by_cases h : i.val = 0 <;> simp [dropNegZero,h]
  | _ => rfl

@[simp] theorem dropNegZero_ofNat (n : ℕ) : (ofNat n).dropNegZero = ofNat n := by
  rw [ofNat,ofMag]
  split_ifs <;> rfl

theorem dropNegZero_eq_iff {x y : Number} (hx : x.isFinite) (hy : y.isFinite) :
    x.dropNegZero = y.dropNegZero ↔ x.toRat = y.toRat := by
  cases x with
  | fin a i =>
    cases y with
    | fin b j =>
      rw [toRat_eq_iff]
      simp only [dropNegZero,fin.injEq]
      constructor
      · rintro ⟨h,rfl⟩
        refine ⟨rfl,?_⟩
        by_cases h0 : i.val = 0
        · exact .inr h0
        · have hb : (i.val != 0) = true := by simpa using h0
          left
          simpa only [hb,Bool.and_true] using h
      · rintro ⟨rfl,rfl | h0⟩
        · simp
        · simp [h0]
    | _ => simp [isFinite] at hy
  | _ => simp [isFinite] at hx

theorem sub_ofNat {a b : ℕ} (hb : b ≤ a) (ha : a < 2^53) :
    (ofNat a).sub (ofNat b) = ofNat (a-b) := by
  have hra := toRat_ofNat ha
  have hrb := toRat_ofNat (lt_of_le_of_lt hb ha)
  rw [ofNat_eq ha] at hra
  rw [ofNat_eq (lt_of_le_of_lt hb ha)] at hrb
  have hd : ((a : ℚ)-b) = ((a-b : ℕ) : ℚ) := (Nat.cast_sub hb).symm
  rw [ofNat_eq ha,ofNat_eq (lt_of_le_of_lt hb ha),sub]
  dsimp only
  rw [hra,hrb,hd]
  by_cases h0 : a-b = 0
  · rw [h0,Nat.cast_zero,if_pos rfl,ofNat_eq (by norm_num),zero]
    simp [rank]
  · rw [if_neg (by exact_mod_cast h0),ofRat,if_neg (by exact not_lt.mpr (Nat.cast_nonneg _)),ofNat]

theorem isInteger_ofNat {n : ℕ} (h : n < 2^53) : (ofNat n).isInteger = true := by
  rw [ofNat_eq h,isInteger,value_rank_natCast h]
  simp

theorem shr1_ofNat {n : ℕ} (h : n < 2^32) : (ofNat n).shr1 = ofNat (n/2) := by
  rw [shr1,toUint32_ofNat (by omega),Nat.mod_eq_of_lt h]

theorem and1_ofNat {n : ℕ} (h : n < 2^32) : (ofNat n).and1 = ofNat (n%2) := by
  rw [and1,toUint32_ofNat (by omega),Nat.mod_eq_of_lt h]

theorem and1_eq (x : Number) {b : ℕ} (hb : b < 2) : x.and1.eq (ofNat b) = decide (x.toUint32%2 = b) :=
  Number.eq_ofNat (by omega) (by omega)

/-- An integer number from 0 on is a natural one or the negative zero. -/
theorem isInteger_cases {x : Number} (hx : x.isInteger) (hpos : x.lt (ofNat 0) = false) {n : ℕ}
    (hn : n < 2^53) (hlt : (ofNat n).le x = false) :
    ∃ i, i < n ∧ x.toRat = i ∧ (x = ofNat i ∨ i = 0 ∧ x = zero true) := by
  cases x with
  | fin neg j =>
    rw [lt_fin rfl (isFinite_ofNat (by norm_num)),toRat_ofNat (by norm_num)] at hpos
    rw [le_fin (isFinite_ofNat hn) rfl,toRat_ofNat hn] at hlt
    simp only [decide_eq_false_iff_not,not_lt,not_le,Nat.cast_zero] at hpos hlt
    have hv := value_nonneg j
    simp only [isInteger,beq_iff_eq] at hx
    by_cases hneg : neg = true ∧ j.val ≠ 0
    · have := value_pos (Nat.pos_of_ne_zero hneg.2)
      simp only [toRat,hneg.1,if_true] at hpos
      linarith
    · have hval : (fin neg j).toRat = value j := by
        by_cases hn : neg = true
        · have : j.val = 0 := by tauto
          simp [toRat,hn,this]
        · simp [toRat,hn]
      obtain ⟨i,hi⟩ : ∃ i : ℕ, value j = i := by
        refine ⟨(value j).num.toNat,?_⟩
        have hnum : (0 : ℤ) ≤ (value j).num := Rat.num_nonneg.mpr hv
        conv_lhs => rw [← Rat.num_div_den (value j),hx]
        rw [Nat.cast_one,div_one]
        exact_mod_cast (Int.toNat_of_nonneg hnum).symm
      rw [hval,hi] at hlt
      have hin : i < n := by exact_mod_cast hlt
      refine ⟨i,hin,by rw [hval,hi],?_⟩
      have he : (fin neg j).toRat = (ofNat i).toRat := by
        rw [hval,hi,toRat_ofNat (by omega)]
      rw [ofNat_eq (by omega),toRat_eq_iff] at he
      rw [ofNat_eq (by omega)]
      obtain ⟨hj,rfl | h0⟩ := he
      · exact .inl (by rw [← hj])
      · have hi0 : i = 0 := by
          rw [h0] at hi
          have : (0 : ℚ) = i := by simpa using hi
          exact_mod_cast this.symm
        subst hi0
        cases neg
        · exact .inl (by rw [← hj])
        · refine .inr ⟨rfl,?_⟩
          rw [zero]
          congr 1
  | _ => simp [isInteger] at hx

theorem toRat_ofInt {z : ℤ} (h : z.natAbs < 2^53) : (ofInt z).isFinite ∧ (ofInt z).toRat = z := by
  rw [ofInt,ofRat]
  split_ifs with hneg
  · have hz : -(z : ℚ) = z.natAbs := by
      have : z < 0 := by exact_mod_cast hneg
      rw [Nat.cast_natAbs,abs_of_neg this]
      push_cast
      rfl
    rw [hz,ofMag,dif_pos (rank_lt_of_natCast h)]
    refine ⟨rfl,?_⟩
    simp only [toRat,if_true,value_rank_natCast h]
    linarith
  · have hz : (z : ℚ) = z.natAbs := by
      have : 0 ≤ z := by exact_mod_cast not_lt.mp hneg
      rw [Nat.cast_natAbs,abs_of_nonneg this]
    rw [hz,ofMag,dif_pos (rank_lt_of_natCast h)]
    exact ⟨rfl,value_rank_natCast h⟩

/-- Rounding does not pass an integer that is a number. -/
theorem toRat_ofRat_le {q : ℚ} {n : ℤ} (hn : n.natAbs < 2^53) (h : q ≤ n)
    (hfin : (ofRat q).isFinite) : (ofRat q).toRat ≤ n := by
  have hvalue : value (rank (n.natAbs : ℚ)) = n.natAbs := value_rank_natCast hn
  rw [ofRat] at hfin ⊢
  split_ifs at hfin ⊢ with hneg
  · rw [ofMag] at hfin ⊢
    split_ifs at hfin ⊢ with hr
    · simp only [toRat,if_true]
      rcases le_or_gt 0 n with hpos | hlt
      · have : (0 : ℚ) ≤ n := by exact_mod_cast hpos
        linarith [value_nonneg (rank (-q))]
      · have habs : ((n.natAbs : ℕ) : ℚ) = -n := by
          rw [Nat.cast_natAbs,abs_of_neg hlt]
          push_cast
          rfl
        have hm := value_mono (rank_mono (q := -q) (Nat.cast_nonneg n.natAbs)
          (by rw [habs]; linarith))
        rw [hvalue,habs] at hm
        linarith
    · cases hfin
  · rw [ofMag] at hfin ⊢
    split_ifs at hfin ⊢ with hr
    · have hq : 0 ≤ q := not_lt.mp hneg
      have habs : ((n.natAbs : ℕ) : ℚ) = n := by
        have : (0 : ℤ) ≤ n := by exact_mod_cast hq.trans h
        rw [Nat.cast_natAbs,abs_of_nonneg this]
      have hm := value_mono (rank_mono hq (h.trans habs.ge))
      rw [hvalue,habs] at hm
      simpa [toRat] using hm
    · cases hfin

/-- A number below a rounded one is below an integer that what was rounded does not pass. -/
theorem lt_of_lt_ofRat {x : Number} {q : ℚ} {n : ℤ} (hn : n.natAbs < 2^53) (h : q ≤ n)
    (hx : x.isFinite) (hlt : x.lt (ofRat q) = true) : x.toRat < n := by
  by_cases hfin : (ofRat q).isFinite
  · rw [lt_fin hx hfin,decide_eq_true_eq] at hlt
    exact hlt.trans_le (toRat_ofRat_le hn h hfin)
  · have hpos : ¬q < 0 := by
      intro hneg
      rw [ofRat,if_pos hneg,ofMag] at hlt hfin
      split_ifs at hlt hfin
      · exact hfin rfl
      · cases x <;> simp_all [isFinite,lt]
    rw [ofRat,if_neg hpos,ofMag] at hfin
    have hn0 : (0 : ℤ) ≤ n := by exact_mod_cast (not_lt.mp hpos).trans h
    have habs : ((n.natAbs : ℕ) : ℚ) = n := by
      rw [Nat.cast_natAbs,abs_of_nonneg hn0]
    have hrank : rank q < rankBound := (rank_mono (not_lt.mp hpos) (h.trans habs.ge)).trans_lt
      (rank_lt_of_natCast hn)
    rw [dif_pos hrank] at hfin
    exact absurd rfl hfin

theorem ofRat_zero : ofRat 0 = zero false := by
  have hr : rank 0 = 0 := by simp [rank]
  rw [ofRat,if_neg (by norm_num),ofMag,dif_pos (by rw [hr]; decide)]
  simp only [zero,hr]

theorem isFinite_toRat_add {x y : Number} (hx : x.isFinite) (hy : y.isFinite) :
    (x.add y).isFinite = (ofRat (x.toRat+y.toRat)).isFinite ∧
      (x.add y).toRat = (ofRat (x.toRat+y.toRat)).toRat := by
  cases x with
  | fin a i =>
    cases y with
    | fin b j =>
      have hneg : (fin (!b) j).toRat = -(fin b j).toRat := by cases b <;> simp [toRat]
      have hsum : (fin a i).add (fin b j) = if (fin a i).toRat+(fin b j).toRat = 0 then
          zero (a && i.val == 0 && !!b) else ofRat ((fin a i).toRat+(fin b j).toRat) := by
        rw [← sub_neg_eq_add (fin a i).toRat,← hneg]
        rfl
      rw [hsum]
      split_ifs with h
      · rw [h,ofRat_zero]
        cases (a && i.val == 0 && !!b) <;> exact ⟨rfl,by simp [zero,toRat]⟩
      · exact ⟨rfl,rfl⟩
    | _ => cases hy
  | _ => cases hx

@[simp] theorem neg_neg_self (x : Number) : x.neg.neg = x := by cases x <;> simp [neg]

@[simp] theorem isFinite_neg (x : Number) : x.neg.isFinite = x.isFinite := by cases x <;> rfl

@[simp] theorem toRat_neg (x : Number) : x.neg.toRat = -x.toRat := by
  cases x with
  | fin a i => cases a <;> simp [neg,toRat]
  | _ => simp [neg,toRat]

theorem isFinite_toRat_sub {x y : Number} (hx : x.isFinite) (hy : y.isFinite) :
    (x.sub y).isFinite = (ofRat (x.toRat-y.toRat)).isFinite ∧
      (x.sub y).toRat = (ofRat (x.toRat-y.toRat)).toRat := by
  have h := isFinite_toRat_add hx (y := y.neg) (by rwa [isFinite_neg])
  rwa [add,neg_neg_self,toRat_neg,← sub_eq_add_neg] at h

theorem toRat_of_isInteger {x : Number} (h : x.isInteger) : x.isFinite ∧ ∃ z : ℤ, x.toRat = z := by
  cases x with
  | fin a i =>
    have hv : value i = (value i).num := by
      simp only [isInteger,beq_iff_eq] at h
      conv_lhs => rw [← Rat.num_div_den (value i),h,Nat.cast_one,div_one]
    refine ⟨rfl,?_⟩
    cases a
    · exact ⟨_,hv⟩
    · exact ⟨-(value i).num,by rw [toRat,if_pos rfl,hv]; push_cast; rfl⟩
  | _ => simp [isInteger] at h

/-- The product of two natural numbers, while it is one. -/
theorem toRat_mul_of_nat {x y : Number} {a b : ℕ} (hx : x.isFinite) (hy : y.isFinite)
    (ha : x.toRat = a) (hb : y.toRat = b) (h : a*b < 2^53) :
    (x.mul y).isFinite ∧ (x.mul y).toRat = (a*b : ℕ) := by
  have hmag {neg : Bool} {i : Fin rankBound} {n : ℕ} (hn : (fin neg i).toRat = n) :
      value i = n ∧ (neg = true → n = 0) := by
    cases neg with
    | false => exact ⟨hn,nofun⟩
    | true =>
      have hv := value_nonneg i
      have hzero : value i = 0 := by
        have : (0 : ℚ) ≤ n := Nat.cast_nonneg n
        simp only [toRat,if_true] at hn
        linarith
      have hn0 : n = 0 := by
        simp only [toRat,if_true,hzero,neg_zero] at hn
        exact_mod_cast hn.symm
      exact ⟨by rw [hzero,hn0,Nat.cast_zero],fun _ => hn0⟩
  cases x with
  | fin s i =>
    cases y with
    | fin t j =>
      obtain ⟨hi,hs⟩ := hmag ha
      obtain ⟨hj,ht⟩ := hmag hb
      have hmul : (fin s i).mul (fin t j) = ofMag (xor s t) ((a*b : ℕ) : ℚ) := by
        rw [mul,hi,hj,Nat.cast_mul]
      have hr := rank_lt_of_natCast h
      rw [hmul]
      refine ⟨by rw [ofMag,dif_pos hr]; rfl,?_⟩
      rw [toRat_ofMag hr,value_rank_natCast h]
      split_ifs with hneg
      · have hab : a*b = 0 := by
          cases s
          · rw [ht (by simpa using hneg),mul_zero]
          · rw [hs rfl,zero_mul]
        rw [hab,Nat.cast_zero,neg_zero]
      · rfl
    | _ => cases hy
  | _ => cases hx

end Number
end Semp
