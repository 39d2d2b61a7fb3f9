import Mathlib.Order.WithBot
import Mathlib.Data.Prod.Lex
import Semp.JsNumber

/-! The order of numbers: those that are no NaN are in line, and so are pairs of them,
compared by the first part and then by the second. -/
namespace Semp
namespace Number

/-- Where a number stands; a NaN stands nowhere. -/
def place : Number → WithBot (WithTop ℚ)
  | inf true | nan => ⊥
  | inf false => ((⊤ : WithTop ℚ) : WithBot (WithTop ℚ))
  | fin neg i => (((fin neg i).toRat : WithTop ℚ) : WithBot (WithTop ℚ))

variable {x y : Number}

theorem lt_iff_place (hx : x.isNaN = false) (hy : y.isNaN = false) :
    lt x y = true ↔ x.place < y.place := by
  cases x with
  | nan => cases hx
  | inf a =>
    cases y with
    | nan => cases hy
    | inf b => cases a <;> cases b <;> simp [lt,place]
    | fin b j => cases a <;> simp [lt,place]
  | fin a i =>
    cases y with
    | nan => cases hy
    | inf b =>
      cases b with
      | true => simp [lt,place]
      | false => exact iff_of_true rfl (WithBot.coe_lt_coe.mpr (WithTop.coe_lt_top _))
    | fin b j => simp [lt,place]

theorem eq_iff_place (hx : x.isNaN = false) (hy : y.isNaN = false) :
    eq x y = true ↔ x.place = y.place := by
  cases x with
  | nan => cases hx
  | inf a =>
    cases y with
    | nan => cases hy
    | inf b => cases a <;> cases b <;> simp [eq,place]
    | fin b j => cases a <;> simp [eq,place]
  | fin a i =>
    cases y with
    | nan => cases hy
    | inf b => cases b <;> simp [eq,place]
    | fin b j => simp [eq,place]

theorem le_iff_place (hx : x.isNaN = false) (hy : y.isNaN = false) :
    le x y = true ↔ x.place ≤ y.place := by
  have hle : le x y = !lt y x := by
    cases x with
    | nan => cases hx
    | _ =>
      cases y with
      | nan => cases hy
      | _ => rfl
  rw [hle,Bool.not_eq_true',← not_lt,← lt_iff_place hy hx,Bool.not_eq_true]

theorem eq_symm (h : x.eq y = true) : y.eq x = true := by
  cases x <;> cases y <;> simp_all [eq]

theorem eq_trans {z : Number} (h : x.eq y = true) (h' : y.eq z = true) : x.eq z = true := by
  cases x <;> cases y <;> cases z <;> simp_all [eq]

theorem not_eq_of_lt (h : x.lt y = true) : y.eq x = false := by
  rw [← Bool.not_eq_true]
  intro heq
  cases x <;> cases y <;> simp_all [lt,eq]

theorem isNaN_of_isInteger (h : x.isInteger) : x.isNaN = false := by
  cases x with
  | nan => cases h
  | _ => rfl

/-- A finite number is told by its value, unless that is zero. -/
theorem eq_ofNat_of_toRat {n : ℕ} (hx : x.isFinite) (hv : x.toRat = n) (hn : n < 2^53)
    (hpos : 0 < n) : x = ofNat n := by
  cases x with
  | fin neg i =>
    rw [← toRat_ofNat hn,ofNat_eq hn,toRat_eq_iff] at hv
    obtain ⟨rfl,rfl | hi⟩ := hv
    · rw [ofNat_eq hn]
    · have hi' : Binary64.rank n = 0 := hi
      have hzero := Binary64.value_rank_natCast hn
      rw [hi',Binary64.value_zero] at hzero
      exact absurd (by exact_mod_cast hzero.symm) hpos.ne'
  | _ => cases hx

theorem eq_ofNat_iff {n : ℕ} (hn : n < 2^53) (hpos : 0 < n) :
    eq (ofNat n) x = true ↔ x = ofNat n := by
  constructor
  · intro h
    have hx : x.isFinite := by
      rw [ofNat_eq hn] at h
      cases x <;> simp_all [eq,isFinite]
    rw [eq_fin (isFinite_ofNat hn) hx,decide_eq_true_eq,toRat_ofNat hn] at h
    exact eq_ofNat_of_toRat hx h.symm hn hpos
  · rintro rfl
    rw [eq_ofNat hn hn,decide_eq_true rfl]

theorem mul_ofNat {a b : ℕ} (ha : a < 2^53) (hb : b < 2^53) (h : a*b < 2^53) (hpos : 0 < a*b) :
    (ofNat a).mul (ofNat b) = ofNat (a*b) := by
  obtain ⟨hfin,hv⟩ := toRat_mul_of_nat (isFinite_ofNat ha) (isFinite_ofNat hb) (toRat_ofNat ha)
    (toRat_ofNat hb) h
  exact eq_ofNat_of_toRat hfin hv h hpos

/-- `a` comes before `b`. -/
def Before (a b : Number × Number) : Prop :=
  lt a.1 b.1 = true ∨ eq a.1 b.1 = true ∧ lt a.2 b.2 = true

/-- Both parts are numbers that can be compared. -/
structure Comparable (a : Number × Number) : Prop where
  fst : a.1.isNaN = false
  snd : a.2.isNaN = false

variable {a b c : Number × Number}

theorem before_iff (ha : Comparable a) (hb : Comparable b) :
    Before a b ↔ toLex (a.1.place,a.2.place) < toLex (b.1.place,b.2.place) := by
  rw [Before,Prod.Lex.toLex_lt_toLex,lt_iff_place ha.fst hb.fst,eq_iff_place ha.fst hb.fst,
    lt_iff_place ha.snd hb.snd]

theorem Before.trans (ha : Comparable a) (hb : Comparable b) (hc : Comparable c)
    (hab : Before a b) (hbc : Before b c) : Before a c := by
  rw [before_iff ha hb] at hab
  rw [before_iff hb hc] at hbc
  exact (before_iff ha hc).mpr (hab.trans hbc)

theorem Before.irrefl (ha : Comparable a) : ¬Before a a :=
  fun h => lt_irrefl _ ((before_iff ha ha).mp h)

/-- What is neither smaller nor as large with a second part that is no larger comes after. -/
theorem before_of_not (ha : Comparable a) (hb : Comparable b) (hlt : lt b.1 a.1 = false)
    (hle : (eq b.1 a.1 && le b.2 a.2) = false) : Before a b := by
  rw [before_iff ha hb,Prod.Lex.toLex_lt_toLex]
  have hfst : a.1.place ≤ b.1.place := by
    rw [← not_lt,← lt_iff_place hb.fst ha.fst,hlt]
    exact Bool.false_ne_true
  obtain h | h := hfst.lt_or_eq
  · exact .inl h
  · rw [(eq_iff_place hb.fst ha.fst).mpr h.symm,Bool.true_and] at hle
    refine .inr ⟨h,?_⟩
    rw [← not_le,← le_iff_place hb.snd ha.snd,hle]
    exact Bool.false_ne_true

end Number
end Semp
