import Mathlib.Data.Nat.Size
import Semp.ChallengeResponse

/-! The leading zero bits of a hash, counted by bytes and then by shifts, are those of its bits in
order. -/
namespace Semp

/-- The lowest `w` bits of a number, the highest first. -/
def bitsOf : ℕ → ℕ → List Bool
  | 0,_ => []
  | w+1,n => n.testBit w::bitsOf w n

/-- The bits of a byte string, the highest of each byte first. -/
def Bytes.bits (h : Bytes) : List Bool := h.flatMap fun b => bitsOf 8 b.toNat

/-- How many zeros there are before the first one. -/
def zerosBefore (bs : List Bool) : ℕ := (bs.takeWhile fun b => !b).length

section Bits
variable {n w : ℕ}

@[simp] theorem length_bitsOf (w n : ℕ) : (bitsOf w n).length = w := by
  induction w with
  | zero => rfl
  | succ w ih => rw [bitsOf,List.length_cons,ih]

theorem bitsOf_zero (w : ℕ) : bitsOf w 0 = List.replicate w false := by
  induction w with
  | zero => rfl
  | succ w ih => rw [bitsOf,ih,Nat.zero_testBit,List.replicate_succ]

theorem length_bits (h : Bytes) : h.bits.length = 8*h.length := by
  induction h with
  | nil => rfl
  | cons b h ih =>
    rw [Bytes.bits,List.flatMap_cons,List.length_append,← Bytes.bits,ih,length_bitsOf,
      List.length_cons]
    omega

/-- A number is shorter by one bit once it is halved. -/
theorem size_half (hn : n ≠ 0) : Nat.size n = Nat.size (n/2)+1 := by
  have hle (k : ℕ) : Nat.size n ≤ k+1 ↔ Nat.size (n/2)+1 ≤ k+1 := by
    rw [Nat.size_le,Nat.add_le_add_iff_right,Nat.size_le,Nat.pow_succ]
    omega
  have hpos : 0 < Nat.size n := Nat.size_pos.mpr (Nat.pos_of_ne_zero hn)
  have h₁ := (hle (Nat.size n-1)).mp (by omega)
  have h₂ := (hle (Nat.size (n/2))).mpr le_rfl
  omega

theorem zerosBefore_bitsOf (h : n < 2^w) : zerosBefore (bitsOf w n) = w-Nat.size n := by
  induction w with
  | zero =>
    rw [Nat.zero_sub]
    rfl
  | succ w ih =>
    rw [bitsOf,zerosBefore,List.takeWhile_cons]
    cases hb : n.testBit w with
    | true =>
      have hlt : w < Nat.size n := Nat.lt_size.mpr (Nat.ge_two_pow_of_testBit hb)
      simp only [Bool.not_true,Bool.false_eq_true,if_false,List.length_nil]
      omega
    | false =>
      have hsmall : n < 2^w := by
        by_contra hge
        rw [Nat.testBit_of_two_pow_le_and_two_pow_add_one_gt (by omega) h] at hb
        cases hb
      have hle : Nat.size n ≤ w := Nat.size_le.mpr hsmall
      simp only [Bool.not_false,if_true,List.length_cons]
      rw [← zerosBefore,ih hsmall]
      omega

/-- Behind a list the count goes on only where the list has no one. -/
theorem zerosBefore_append (bs cs : List Bool) : zerosBefore (bs++cs) =
    if zerosBefore bs = bs.length then bs.length+zerosBefore cs else zerosBefore bs := by
  unfold zerosBefore
  rw [List.takeWhile_append]
  split_ifs
  · rw [List.length_append]
  · rfl

/-- There are at least `d` of them when the first `d` bits are zeros. -/
theorem le_zerosBefore {d : ℕ} {bs : List Bool} :
    d ≤ zerosBefore bs ↔ bs.take d = List.replicate d false := by
  induction d generalizing bs with
  | zero => simp
  | succ d ih =>
    cases bs with
    | nil => simp [zerosBefore]
    | cons b bs =>
      rw [List.take_succ_cons,List.replicate_succ,List.cons.injEq,← ih,zerosBefore,
        List.takeWhile_cons]
      cases b with
      | true => simp
      | false => simp [zerosBefore]

/-- All bits are zeros when no one ends the count. -/
theorem zerosBefore_eq_length {bs : List Bool} :
    zerosBefore bs = bs.length ↔ ∀ b ∈ bs, b = false := by
  have hle : zerosBefore bs ≤ bs.length := (List.takeWhile_prefix _).length_le
  have hall : bs.length ≤ zerosBefore bs ↔ _ := le_zerosBefore
  rw [List.take_length,List.eq_replicate_length] at hall
  rw [← hall]
  exact ⟨fun h => h.ge,fun h => Nat.le_antisymm hle h⟩

end Bits

namespace Handshake

/-- The loop shifts out as many bits as the number has. -/
theorem shiftOut_eq {n bb : ℕ} (bits : ℕ) (h : bb < 2^n) :
    shiftOut n bb bits = bits-Nat.size bb := by
  induction n generalizing bb bits with
  | zero =>
    obtain rfl : bb = 0 := by omega
    rw [Nat.size_zero]
    rfl
  | succ n ih =>
    rw [shiftOut]
    split_ifs with hb
    · rw [hb,Nat.size_zero,Nat.sub_zero]
    · rw [ih (bits-1) (by rw [Nat.pow_succ] at h; omega),size_half hb]
      omega

theorem zerosBefore_byte (b : UInt8) : zerosBefore (bitsOf 8 b.toNat) = shiftOut 8 b.toNat 8 := by
  rw [zerosBefore_bitsOf b.toNat_lt,shiftOut_eq 8 b.toNat_lt]

/-- Each byte of zeros counts for eight, the first other one for its own, and none after it. -/
theorem leadingZeroBits_eq (hash : Bytes) : leadingZeroBits hash = zerosBefore hash.bits := by
  induction hash with
  | nil => rfl
  | cons b hash ih =>
    rw [leadingZeroBits,Bytes.bits,List.flatMap_cons,← Bytes.bits,zerosBefore_append,
      length_bitsOf,zerosBefore_byte,← ih]
    split_ifs with hb hfull hfull
    · rfl
    · rw [hb] at hfull
      exact absurd rfl hfull
    · rw [shiftOut_eq 8 b.toNat_lt] at hfull
      have hpos : 0 < Nat.size b.toNat :=
        Nat.size_pos.mpr (Nat.pos_of_ne_zero fun h => hb (UInt8.toNat_inj.mp h))
      omega
    · rfl

/-- The count is that of the zero bits before the first one, it is that of all bits when every
byte is zero, and it is at least `d` exactly when the first `d` bits are zeros. -/
theorem leadingZeroBits_counts (hash : Bytes) :
    leadingZeroBits hash = zerosBefore hash.bits ∧
      ((∀ b ∈ hash, b = 0) → leadingZeroBits hash = 8*hash.length) ∧
      ∀ d, d ≤ leadingZeroBits hash ↔ hash.bits.take d = List.replicate d false := by
  refine ⟨leadingZeroBits_eq hash,fun hzero => ?_,fun d => ?_⟩
  · rw [leadingZeroBits_eq,← length_bits,zerosBefore_eq_length]
    intro x hx
    obtain ⟨b,hb,hx⟩ := List.mem_flatMap.mp hx
    rw [hzero b hb,UInt8.toNat_zero,bitsOf_zero] at hx
    exact (List.mem_replicate.mp hx).2
  · rw [leadingZeroBits_eq,le_zerosBefore]

end Handshake
end Semp
