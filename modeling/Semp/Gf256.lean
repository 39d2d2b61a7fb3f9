import Semp.JsValue
import Mathlib.Algebra.Field.Basic
import Mathlib.Dynamics.PeriodicPts.Defs
import Mathlib.NumberTheory.Divisors

/-! Arithmetic on bytes under the reduction polynomial 0x11b, by the tables of logarithms to
the base 3.  The bytes are a field under it: multiplication adds logarithms modulo 255, and it
distributes because multiplying by 3 does. -/
namespace Semp

/-- One round of `gf256MulRaw`: the product so far, and both factors. -/
def mulRound (s : UInt8 × UInt8 × UInt8) : UInt8 × UInt8 × UInt8 :=
  let p := if s.2.2 &&& 1 = 1 then s.1 ^^^ s.2.1 else s.1
  let a := s.2.1 <<< 1
  (p,if s.2.1 &&& 0x80 ≠ 0 then a ^^^ 0x1b else a,s.2.2 >>> 1)

def gf256MulRaw (a b : UInt8) : UInt8 := (mulRound^[8] (0,a,b)).1

structure Gf256Tables where
  exp : List UInt8
  log : List UInt8

namespace Gf256Tables

/-- One entry of both tables, and the next power. -/
def enter (s : Gf256Tables × UInt8) (i : ℕ) : Gf256Tables × UInt8 :=
  (⟨s.1.exp.set i s.2,s.1.log.set s.2.toNat (UInt8.ofNat i)⟩,gf256MulRaw s.2 3)

/-- Both tables empty, and the first power. -/
def start : Gf256Tables × UInt8 := (⟨List.replicate 256 0,List.replicate 256 0⟩,1)

/-- `gf256Exp[255] = 1` -/
def close (t : Gf256Tables) : Gf256Tables := ⟨t.exp.set 255 1,t.log⟩

def buildTables : Gf256Tables := close ((List.range 255).foldl enter start).1

end Gf256Tables

def gf256Exp (i : ℕ) : UInt8 := Gf256Tables.buildTables.exp.getD i 0

def gf256Log (a : UInt8) : ℕ := (Gf256Tables.buildTables.log.getD a.toNat 0).toNat

def gf256Mul (a b : UInt8) : UInt8 :=
  if a = 0 ∨ b = 0 then 0 else gf256Exp ((gf256Log a+gf256Log b)%255)

def gf256Inv (a : UInt8) : Js UInt8 :=
  if a = 0 then raise (js "recovery: gf256Inv(0)") else .ok (gf256Exp (255-gf256Log a))

/-! Multiplying by 3 runs through all bytes but 0. -/
section Powers

def triple (a : UInt8) : UInt8 := gf256MulRaw a 3

/-- Multiplication by 3 as shifts: the top bit comes back at the places of 0x1b. -/
theorem triple_shifts : ∀ n < 256, triple (UInt8.ofNat n) =
    UInt8.ofNat n ^^^ (UInt8.ofNat n <<< 1) ^^^ ((UInt8.ofNat n >>> 7) ^^^
      ((UInt8.ofNat n >>> 7) <<< 1) ^^^ ((UInt8.ofNat n >>> 7) <<< 3) ^^^
      ((UInt8.ofNat n >>> 7) <<< 4)) := by decide +kernel

theorem triple_eq (a : UInt8) : triple a = a ^^^ (a <<< 1) ^^^ ((a >>> 7) ^^^
    ((a >>> 7) <<< 1) ^^^ ((a >>> 7) <<< 3) ^^^ ((a >>> 7) <<< 4)) := by
  have h := triple_shifts a.toNat a.toNat_lt
  rwa [UInt8.ofNat_toNat] at h

theorem triple_xor (a b : UInt8) : triple (a ^^^ b) = triple a ^^^ triple b := by
  simp only [triple_eq,UInt8.shiftLeft_xor,UInt8.shiftRight_xor]
  ac_rfl

/-- Multiplying 1 by 3 comes back after 255 steps, and after no largest proper divisor of it. -/
theorem triple_powers : triple 0 = 0 ∧ triple^[255] 1 = 1 ∧
    triple^[85] 1 ≠ 1 ∧ triple^[51] 1 ≠ 1 ∧ triple^[15] 1 ≠ 1 := by decide +kernel

theorem triple_zero : triple 0 = 0 := triple_powers.1

/-- The power of 3. -/
def power (i : ℕ) : UInt8 := triple^[i] 1

theorem power_succ (i : ℕ) : power (i+1) = triple (power i) := Function.iterate_succ_apply' ..

theorem minimalPeriod_triple : Function.minimalPeriod triple 1 = 255 := by
  have hdvd {n : ℕ} : triple^[n] 1 = 1 ↔ Function.minimalPeriod triple 1 ∣ n :=
    Function.isPeriodicPt_iff_minimalPeriod_dvd
  obtain ⟨-,hreturns,hne85,hne51,hne15⟩ := triple_powers
  have h : Function.minimalPeriod triple 1 ∣ 255 := hdvd.mp hreturns
  have h85 : ¬Function.minimalPeriod triple 1 ∣ 85 := hdvd.not.mp hne85
  have h51 : ¬Function.minimalPeriod triple 1 ∣ 51 := hdvd.not.mp hne51
  have h15 : ¬Function.minimalPeriod triple 1 ∣ 15 := hdvd.not.mp hne15
  have hmem : Function.minimalPeriod triple 1 ∈ Nat.divisors 255 :=
    Nat.mem_divisors.mpr ⟨h,by decide⟩
  have hdivisors : Nat.divisors 255 = {1,3,5,15,17,51,85,255} := by decide
  rw [hdivisors] at hmem
  simp only [Finset.mem_insert,Finset.mem_singleton] at hmem
  rcases hmem with hm | hm | hm | hm | hm | hm | hm | hm
  all_goals rw [hm] at h85 h51 h15 ⊢
  all_goals first
    | exact absurd (by decide) h85
    | exact absurd (by decide) h51
    | exact absurd (by decide) h15

theorem power_inj {i j : ℕ} (hi : i < 255) (hj : j < 255) (h : power i = power j) : i = j := by
  have hinj := Function.iterate_injOn_Iio_minimalPeriod (f := triple) (x := 1)
  rw [minimalPeriod_triple] at hinj
  exact hinj hi hj h

theorem power_255 : power 255 = 1 := by
  have h := Function.iterate_minimalPeriod (f := triple) (x := 1)
  rwa [minimalPeriod_triple] at h

theorem power_ne_zero {i : ℕ} (hi : i < 255) : power i ≠ 0 := by
  intro h
  have hz (k : ℕ) : power (i+k) = 0 := by
    induction k with
    | zero => exact h
    | succ k ih => rw [← Nat.add_assoc,power_succ,ih,triple_zero]
  have h255 := hz (255-i)
  rw [Nat.add_sub_of_le hi.le,power_255] at h255
  cases h255

theorem exists_power {a : UInt8} (h : a ≠ 0) : ∃ i < 255, power i = a := by
  have hsub : (Finset.range 255).image (fun i => (power i).toNat) ⊆ Finset.Ico 1 256 := by
    intro n hn
    obtain ⟨i,hi,rfl⟩ := Finset.mem_image.mp hn
    have hne : (power i).toNat ≠ 0 :=
      fun hz => power_ne_zero (Finset.mem_range.mp hi) (UInt8.toNat_inj.mp hz)
    exact Finset.mem_Ico.mpr ⟨Nat.pos_of_ne_zero hne,(power i).toNat_lt⟩
  have hcard : ((Finset.range 255).image fun i => (power i).toNat).card = 255 := by
    rw [Finset.card_image_of_injOn,Finset.card_range]
    intro i hi j hj hij
    exact power_inj (Finset.mem_range.mp hi) (Finset.mem_range.mp hj) (UInt8.toNat_inj.mp hij)
  have heq := Finset.eq_of_subset_of_card_le hsub (by rw [hcard]; simp)
  have ha : a.toNat ∈ Finset.Ico 1 256 := Finset.mem_Ico.mpr
    ⟨Nat.pos_of_ne_zero fun hz => h (UInt8.toNat_inj.mp hz),a.toNat_lt⟩
  rw [← heq] at ha
  obtain ⟨i,hi,hia⟩ := Finset.mem_image.mp ha
  exact ⟨i,Finset.mem_range.mp hi,UInt8.toNat_inj.mp hia⟩

end Powers

section Tables

/-- The tables after the first `k` entries. -/
theorem foldl_enter {k : ℕ} (hk : k ≤ 255) :
    let s := (List.range k).foldl Gf256Tables.enter Gf256Tables.start
    s.2 = power k ∧ s.1.exp.length = 256 ∧ s.1.log.length = 256 ∧
      (∀ i < k, s.1.exp[i]? = some (power i)) ∧
      ∀ i < k, s.1.log[(power i).toNat]? = some (UInt8.ofNat i) := by
  induction k with
  | zero => exact ⟨rfl,List.length_replicate,List.length_replicate,nofun,nofun⟩
  | succ k ih =>
    obtain ⟨hnext,hexp,hlog,hpowers,hlogs⟩ := ih (by omega)
    rw [List.range_succ,List.foldl_append]
    refine ⟨?_,?_,?_,?_,?_⟩
    · rw [power_succ,← hnext]
      rfl
    · exact (List.length_set ..).trans hexp
    · exact (List.length_set ..).trans hlog
    · intro i hi
      change (List.set _ k _)[i]? = _
      by_cases hik : i = k
      · subst hik
        rw [List.getElem?_set_self (by omega),hnext]
      · rw [List.getElem?_set_ne (Ne.symm hik),hpowers i (by omega)]
    · intro i hi
      change (List.set _ (UInt8.toNat _) _)[(power i).toNat]? = _
      rw [hnext]
      by_cases hik : i = k
      · subst hik
        rw [List.getElem?_set_self (by rw [hlog]; exact (power i).toNat_lt)]
      · have hne : (power k).toNat ≠ (power i).toNat :=
          fun h => hik (power_inj (by omega) (by omega) (UInt8.toNat_inj.mp h.symm))
        rw [List.getElem?_set_ne hne,hlogs i (by omega)]

theorem gf256Exp_eq {i : ℕ} (hi : i ≤ 255) : gf256Exp i = power i := by
  obtain ⟨-,hexp,-,hpowers,-⟩ := foldl_enter le_rfl
  rw [gf256Exp,Gf256Tables.buildTables,Gf256Tables.close,List.getD_eq_getElem?_getD]
  obtain hi | rfl := Nat.lt_or_eq_of_le hi
  · rw [List.getElem?_set_ne (by omega),hpowers i hi,Option.getD_some]
  · rw [List.getElem?_set_self (by rw [hexp]; decide),Option.getD_some,power_255]

theorem gf256Log_power {i : ℕ} (hi : i < 255) : gf256Log (power i) = i := by
  obtain ⟨-,-,-,-,hlogs⟩ := foldl_enter le_rfl
  have hbyte : (UInt8.ofNat i).toNat = i := UInt8.toNat_ofNat_of_lt' (hi.trans (by decide))
  rw [gf256Log,Gf256Tables.buildTables,Gf256Tables.close,List.getD_eq_getElem?_getD,hlogs i hi,
    Option.getD_some,hbyte]

end Tables

section Field

theorem power_mod (n : ℕ) : power (n%255) = power n := by
  have h := Function.iterate_mod_minimalPeriod_eq (f := triple) (x := 1) (n := n)
  rwa [minimalPeriod_triple] at h

theorem zero_or_power (a : UInt8) : a = 0 ∨ ∃ i < 255, a = power i := by
  by_cases h : a = 0
  · exact .inl h
  · obtain ⟨i,hi,rfl⟩ := exists_power h
    exact .inr ⟨i,hi,rfl⟩

@[simp] theorem gf256Mul_zero (a : UInt8) : gf256Mul a 0 = 0 := if_pos (.inr rfl)

@[simp] theorem zero_gf256Mul (a : UInt8) : gf256Mul 0 a = 0 := if_pos (.inl rfl)

theorem gf256Mul_comm (a b : UInt8) : gf256Mul a b = gf256Mul b a := by
  by_cases h : a = 0 ∨ b = 0
  · rw [gf256Mul,if_pos h,gf256Mul,if_pos h.symm]
  · rw [gf256Mul,if_neg h,gf256Mul,if_neg fun h' => h h'.symm,Nat.add_comm]

/-- Multiplying by a power of 3 is multiplying by 3 that often. -/
theorem power_gf256Mul {i : ℕ} (hi : i < 255) (a : UInt8) :
    gf256Mul (power i) a = triple^[i] a := by
  obtain rfl | ⟨j,hj,rfl⟩ := zero_or_power a
  · rw [gf256Mul_zero]
    exact (Function.iterate_fixed triple_zero i).symm
  · rw [gf256Mul,if_neg (not_or.mpr ⟨power_ne_zero hi,power_ne_zero hj⟩),gf256Log_power hi,
      gf256Log_power hj,gf256Exp_eq (Nat.mod_lt _ (by decide)).le,power_mod,power,power,
      Function.iterate_add_apply]

theorem iterate_triple_xor (i : ℕ) (a b : UInt8) :
    triple^[i] (a ^^^ b) = triple^[i] a ^^^ triple^[i] b := by
  induction i generalizing a b with
  | zero => rfl
  | succ i ih => simp only [Function.iterate_succ_apply,triple_xor,ih]

theorem gf256Mul_xor (a b c : UInt8) :
    gf256Mul a (b ^^^ c) = gf256Mul a b ^^^ gf256Mul a c := by
  obtain rfl | ⟨i,hi,rfl⟩ := zero_or_power a
  · simp
  · rw [power_gf256Mul hi,power_gf256Mul hi,power_gf256Mul hi,iterate_triple_xor]

theorem xor_gf256Mul (a b c : UInt8) :
    gf256Mul (a ^^^ b) c = gf256Mul a c ^^^ gf256Mul b c := by
  rw [gf256Mul_comm,gf256Mul_xor,gf256Mul_comm c a,gf256Mul_comm c b]

theorem iterate_triple_mod (n : ℕ) (a : UInt8) : triple^[n%255] a = triple^[n] a := by
  obtain rfl | ⟨i,-,rfl⟩ := zero_or_power a
  · rw [Function.iterate_fixed triple_zero,Function.iterate_fixed triple_zero]
  · rw [power,← Function.iterate_add_apply,← Function.iterate_add_apply,Nat.add_comm,
      Nat.add_comm n,Function.iterate_add_apply,Function.iterate_add_apply]
    exact congrArg triple^[i] (power_mod n)

theorem gf256Mul_assoc (a b c : UInt8) :
    gf256Mul (gf256Mul a b) c = gf256Mul a (gf256Mul b c) := by
  obtain rfl | ⟨i,hi,rfl⟩ := zero_or_power a
  · simp
  · obtain rfl | ⟨j,hj,rfl⟩ := zero_or_power b
    · simp
    · have hij : gf256Mul (power i) (power j) = power ((i+j)%255) := by
        rw [power_gf256Mul hi,power_mod,power,power,Function.iterate_add_apply]
      rw [hij,power_gf256Mul (Nat.mod_lt _ (by decide)),power_gf256Mul hi,power_gf256Mul hj,
        ← Function.iterate_add_apply,iterate_triple_mod]

theorem one_gf256Mul (a : UInt8) : gf256Mul 1 a = a := power_gf256Mul (i := 0) (by decide) a

/-- `gf256Inv` where it gives a value. -/
def inverse (a : UInt8) : UInt8 := if a = 0 then 0 else gf256Exp (255-gf256Log a)

theorem inverse_zero : inverse 0 = 0 := if_pos rfl

theorem gf256Inv_eq {a : UInt8} (h : a ≠ 0) : gf256Inv a = .ok (inverse a) := by
  rw [gf256Inv,if_neg h,inverse,if_neg h]

theorem gf256Mul_inverse {a : UInt8} (h : a ≠ 0) : gf256Mul a (inverse a) = 1 := by
  obtain ⟨i,hi,rfl⟩ := exists_power h
  rw [inverse,if_neg h,gf256Log_power hi,gf256Exp_eq (Nat.sub_le _ _),power_gf256Mul hi,power,
    ← Function.iterate_add_apply,Nat.add_sub_of_le hi.le]
  exact power_255

end Field

/-- The bytes under this arithmetic. -/
def Gf256 : Type := UInt8

namespace Gf256

instance : DecidableEq Gf256 := inferInstanceAs (DecidableEq UInt8)

instance : Zero Gf256 := ⟨(0 : UInt8)⟩

instance : One Gf256 := ⟨(1 : UInt8)⟩

instance : Add Gf256 := ⟨fun a b : UInt8 => a ^^^ b⟩

instance : Neg Gf256 := ⟨fun a => a⟩

instance : Mul Gf256 := ⟨gf256Mul⟩

instance : Inv Gf256 := ⟨inverse⟩

instance : CommRing Gf256 where
  add_assoc := UInt8.xor_assoc
  zero_add := fun _ => UInt8.zero_xor
  add_zero := fun _ => UInt8.xor_zero
  add_comm := UInt8.xor_comm
  neg_add_cancel := fun _ => UInt8.xor_self
  mul_assoc := gf256Mul_assoc
  mul_comm := gf256Mul_comm
  one_mul := one_gf256Mul
  mul_one := fun a => (gf256Mul_comm a 1).trans (one_gf256Mul a)
  zero_mul := zero_gf256Mul
  mul_zero := gf256Mul_zero
  left_distrib := gf256Mul_xor
  right_distrib := xor_gf256Mul
  nsmul := nsmulRec
  zsmul := zsmulRec

instance : Field Gf256 where
  exists_pair_ne := ⟨0,1,fun h => absurd (show (0 : UInt8) = 1 from h) (by decide)⟩
  mul_inv_cancel := fun _ h => gf256Mul_inverse h
  inv_zero := inverse_zero
  nnqsmul := _
  nnqsmul_def := fun _ _ => rfl
  qsmul := _
  qsmul_def := fun _ _ => rfl

end Gf256

end Semp
