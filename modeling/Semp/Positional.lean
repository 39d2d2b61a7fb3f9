import Mathlib.Data.List.Induction
import Mathlib.Data.List.Lex
import Mathlib.Tactic.Ring

/-! Numbers in a positional notation with a fixed count of digits, the highest first.  Such words
order as the numbers do, and so do the texts that write them with rising letters. -/
namespace Semp
namespace Positional

/-- The last `n` digits of a number. -/
def digits (b : ℕ) : ℕ → ℕ → List ℕ
  | 0,_ => []
  | n+1,x => digits b n (x/b)++[x%b]

/-- The number that digits write. -/
def value (b : ℕ) (ds : List ℕ) : ℕ := ds.foldl (fun n d => n*b+d) 0

section Digits
variable {b n x y : ℕ}

@[simp] theorem length_digits (b n x : ℕ) : (digits b n x).length = n := by
  induction n generalizing x with
  | zero => rfl
  | succ n ih => rw [digits,List.length_append,ih,List.length_singleton]

theorem lt_of_mem_digits (hb : 0 < b) {d : ℕ} (hd : d ∈ digits b n x) : d < b := by
  induction n generalizing x with
  | zero => cases hd
  | succ n ih =>
    rw [digits,List.mem_append,List.mem_singleton] at hd
    obtain hd | rfl := hd
    · exact ih hd
    · exact Nat.mod_lt _ hb

/-- The first digit is the highest one. -/
theorem digits_succ (b n x : ℕ) : digits b (n+1) x = x/b^n%b::digits b n x := by
  induction n generalizing x with
  | zero => rw [pow_zero,Nat.div_one]; rfl
  | succ n ih =>
    rw [digits,ih,Nat.div_div_eq_div_mul,Nat.pow_succ',List.cons_append]
    rfl

/-- What is above the digits does not show. -/
theorem digits_mod (b n x : ℕ) : digits b n (x%b^n) = digits b n x := by
  induction n generalizing x with
  | zero => rfl
  | succ n ih =>
    rw [digits,digits,Nat.pow_succ,Nat.mod_mul_left_mod,← ih (x/b),Nat.mul_comm,
      Nat.mod_mul_right_div_self]

theorem value_concat (b : ℕ) (ds : List ℕ) (d : ℕ) : value b (ds++[d]) = value b ds*b+d := by
  rw [value,List.foldl_append]
  rfl

theorem value_digits (b n x : ℕ) : value b (digits b n x) = x%b^n := by
  induction n generalizing x with
  | zero => rw [pow_zero,Nat.mod_one]; rfl
  | succ n ih =>
    rw [digits,value_concat,ih,Nat.pow_succ,Nat.mul_comm (b^n),Nat.mod_mul,Nat.mul_comm b,
      Nat.add_comm]

theorem digits_inj (hx : x < b^n) (hy : y < b^n) (h : digits b n x = digits b n y) : x = y := by
  have hv := congrArg (value b) h
  rwa [value_digits,value_digits,Nat.mod_eq_of_lt hx,Nat.mod_eq_of_lt hy] at hv

/-- The word of a greater number is greater. -/
theorem digits_lt (hxy : x < y) (hy : y < b^n) : digits b n x < digits b n y := by
  induction n generalizing x y with
  | zero =>
    rw [pow_zero] at hy
    omega
  | succ n ih =>
    rw [Nat.pow_succ] at hy
    have hpos : 0 < b^n := Nat.pos_of_ne_zero fun h => by
      rw [h,Nat.zero_mul] at hy
      cases hy
    have hq : y/b^n < b := (Nat.div_lt_iff_lt_mul hpos).mpr (by rwa [Nat.mul_comm])
    have hle : x/b^n ≤ y/b^n := Nat.div_le_div_right hxy.le
    rw [digits_succ,digits_succ,Nat.mod_eq_of_lt hq,Nat.mod_eq_of_lt (hle.trans_lt hq),
      List.cons_lt_cons_iff]
    obtain hlt | heq := hle.lt_or_eq
    · exact .inl hlt
    · refine .inr ⟨heq,?_⟩
      rw [← digits_mod b n x,← digits_mod b n y]
      refine ih ?_ (Nat.mod_lt _ hpos)
      have hx := Nat.div_add_mod x (b^n)
      have hy' := Nat.div_add_mod y (b^n)
      rw [heq] at hx
      omega

theorem value_append (b : ℕ) (ds es : List ℕ) :
    value b (ds++es) = value b ds*b^es.length+value b es := by
  induction es using List.reverseRecOn with
  | nil => rw [List.append_nil,List.length_nil,pow_zero,Nat.mul_one]; rfl
  | append_singleton es e ih =>
    rw [← List.append_assoc,value_concat,ih,value_concat,List.length_append,List.length_singleton,
      Nat.pow_succ]
    ring

theorem value_lt {ds : List ℕ} (h : ∀ d ∈ ds, d < b) : value b ds < b^ds.length := by
  induction ds using List.reverseRecOn with
  | nil => exact Nat.one_pos
  | append_singleton ds d ih =>
    have hds := ih fun e he => h e (List.mem_append_left _ he)
    have hd := h d (List.mem_append_right _ List.mem_cons_self)
    rw [value_concat,List.length_append,List.length_singleton,Nat.pow_succ]
    calc value b ds*b+d < value b ds*b+b := Nat.add_lt_add_left hd _
      _ = (value b ds+1)*b := (Nat.succ_mul ..).symm
      _ ≤ b^ds.length*b := Nat.mul_le_mul_right _ hds

/-- A word is the word of its number. -/
theorem digits_value {ds : List ℕ} (h : ∀ d ∈ ds, d < b) :
    digits b ds.length (value b ds) = ds := by
  induction ds using List.reverseRecOn with
  | nil => rfl
  | append_singleton ds d ih =>
    have hds := ih fun e he => h e (List.mem_append_left _ he)
    have hd := h d (List.mem_append_right _ List.mem_cons_self)
    have hb : 0 < b := Nat.zero_lt_of_lt hd
    rw [value_concat,List.length_append,List.length_singleton,digits,Nat.mul_comm,
      Nat.mul_add_div hb,Nat.div_eq_of_lt hd,Nat.add_zero,hds,Nat.mul_add_mod,Nat.mod_eq_of_lt hd]

theorem value_inj {ds es : List ℕ} (hd : ∀ d ∈ ds, d < b) (he : ∀ d ∈ es, d < b)
    (hlen : ds.length = es.length) (h : value b ds = value b es) : ds = es := by
  rw [← digits_value hd,h,hlen,digits_value he]

end Digits

section Words
variable {α β : Type} [LT α] [LT β]

/-- Words of one length order by what is in front. -/
theorem append_lt_append {l₁ l₂ : List α} (hlen : l₁.length = l₂.length) (h : l₁ < l₂)
    (r₁ r₂ : List α) : l₁++r₁ < l₂++r₂ := by
  induction l₁ generalizing l₂ with
  | nil =>
    obtain rfl := List.length_eq_zero_iff.mp hlen.symm
    cases h
  | cons a l₁ ih =>
    cases l₂ with
    | nil => cases hlen
    | cons b l₂ =>
      rw [List.cons_lt_cons_iff] at h
      rw [List.cons_append,List.cons_append,List.cons_lt_cons_iff]
      obtain h | ⟨rfl,h⟩ := h
      · exact .inl h
      · exact .inr ⟨rfl,ih (Nat.succ.inj hlen) h⟩

/-- Rising letters keep the order. -/
theorem map_lt_map {f : α → β} {l₁ l₂ : List α}
    (hf : ∀ x ∈ l₁, ∀ y ∈ l₂, x < y → f x < f y) (h : l₁ < l₂) : l₁.map f < l₂.map f := by
  induction l₁ generalizing l₂ with
  | nil =>
    cases l₂ with
    | nil => cases h
    | cons b l₂ => exact List.Lex.nil
  | cons a l₁ ih =>
    cases l₂ with
    | nil => cases h
    | cons b l₂ =>
      rw [List.cons_lt_cons_iff] at h
      rw [List.map_cons,List.map_cons,List.cons_lt_cons_iff]
      obtain h | ⟨rfl,h⟩ := h
      · exact .inl (hf a List.mem_cons_self b List.mem_cons_self h)
      · exact .inr ⟨rfl,ih (fun x hx y hy =>
          hf x (List.mem_cons_of_mem _ hx) y (List.mem_cons_of_mem _ hy)) h⟩

end Words
end Positional
end Semp
