import Mathlib.LinearAlgebra.Lagrange

/-! Polynomials given by the list of their coefficients, the constant one first, and their
interpolation: the value at zero from enough other values, and the one list of coefficients
through given points. -/
namespace Interpolation

open Polynomial

variable {F : Type*} [Field F]

/-- Evaluation from the leading coefficient down. -/
def horner (coeffs : List F) (x : F) : F := coeffs.foldr (fun c y => y*x+c) 0

@[simp] theorem horner_nil (x : F) : horner [] x = 0 := rfl

@[simp] theorem horner_cons (c : F) (coeffs : List F) (x : F) :
    horner (c::coeffs) x = horner coeffs x*x+c := rfl

noncomputable def toPoly (coeffs : List F) : F[X] := coeffs.foldr (fun c p => p*X+C c) 0

@[simp] theorem toPoly_nil : toPoly ([] : List F) = 0 := rfl

@[simp] theorem toPoly_cons (c : F) (coeffs : List F) :
    toPoly (c::coeffs) = toPoly coeffs*X+C c := rfl

theorem eval_toPoly (coeffs : List F) (x : F) : (toPoly coeffs).eval x = horner coeffs x := by
  induction coeffs with
  | nil => simp
  | cons c coeffs ih => simp [ih]

theorem coeff_toPoly (coeffs : List F) (k : ℕ) : (toPoly coeffs).coeff k = coeffs.getD k 0 := by
  induction coeffs generalizing k with
  | nil => simp
  | cons c coeffs ih =>
    cases k with
    | zero => simp
    | succ k => simpa [coeff_C] using ih k

theorem degree_toPoly_lt (coeffs : List F) : (toPoly coeffs).degree < coeffs.length := by
  rw [degree_lt_iff_coeff_zero]
  intro k hk
  rw [coeff_toPoly,List.getD_eq_getElem?_getD,List.getElem?_eq_none hk,Option.getD_none]

theorem toPoly_injective {cs ds : List F} (hlen : cs.length = ds.length)
    (h : toPoly cs = toPoly ds) : cs = ds := by
  refine List.ext_getElem hlen fun k hc hd => ?_
  have hk := congrArg (fun p : F[X] => p.coeff k) h
  simpa [coeff_toPoly,hc,hd] using hk

/-- Every polynomial of low degree has its list of coefficients. -/
theorem exists_toPoly {p : F[X]} {n : ℕ} (hp : p.degree < n) :
    ∃ coeffs : List F, coeffs.length = n ∧ toPoly coeffs = p := by
  refine ⟨List.ofFn fun k : Fin n => p.coeff k,List.length_ofFn,?_⟩
  ext k
  rw [coeff_toPoly,List.getD_eq_getElem?_getD,List.getElem?_ofFn]
  split_ifs with hk
  · rfl
  · exact (coeff_eq_zero_of_degree_lt (hp.trans_le (by exact_mod_cast not_lt.mp hk))).symm

section Zero
variable {ι : Type*} [DecidableEq ι] {s : Finset ι} {v : ι → F}

/-- The weight of the value at a node in the value at zero. -/
def weight (s : Finset ι) (v : ι → F) (i : ι) : F :=
  (∏ k ∈ s.erase i,v k)*(∏ k ∈ s.erase i,(v k-v i))⁻¹

theorem eval_basis_zero (i : ι) : (Lagrange.basis s v i).eval 0 = weight s v i := by
  rw [Lagrange.basis,eval_prod,weight,← Finset.prod_inv_distrib,← Finset.prod_mul_distrib]
  refine Finset.prod_congr rfl fun k _ => ?_
  have hneg : (v i-v k)⁻¹*(0-v k) = v k*(v k-v i)⁻¹ := by
    rw [← neg_sub (v k) (v i),inv_neg,zero_sub,neg_mul_neg,mul_comm]
  simpa [Lagrange.basisDivisor] using hneg

theorem eval_zero (hv : Set.InjOn v s) {p : F[X]} (hp : p.degree < s.card) :
    p.eval 0 = ∑ i ∈ s,p.eval (v i)*weight s v i := by
  conv_lhs => rw [Lagrange.eq_interpolate hv hp]
  rw [Lagrange.interpolate_apply,eval_finsetSum]
  refine Finset.sum_congr rfl fun i _ => ?_
  rw [eval_mul,eval_C,eval_basis_zero]

end Zero

/-- At different places, as many values determine exactly one list of coefficients. -/
theorem existsUnique_horner {xs : List F} (h : xs.Nodup) (y : F → F) :
    ∃! coeffs : List F,coeffs.length = xs.length ∧ ∀ x ∈ xs,horner coeffs x = y x := by
  have hv : Set.InjOn (fun i : Fin xs.length => xs[i]) (Finset.univ : Finset (Fin xs.length)) :=
    fun i _ j _ hij => Fin.ext ((List.Nodup.getElem_inj_iff h).mp hij)
  let p := Lagrange.interpolate Finset.univ (fun i : Fin xs.length => xs[i]) fun i => y xs[i]
  have hp : p.degree < xs.length := by
    have hdeg := Lagrange.degree_interpolate_lt (fun i : Fin xs.length => y xs[i]) hv
    rwa [Finset.card_univ,Fintype.card_fin] at hdeg
  obtain ⟨coeffs,hlen,hcoeffs⟩ := exists_toPoly hp
  refine ⟨coeffs,⟨hlen,?_⟩,?_⟩
  · intro x hx
    obtain ⟨i,hi,rfl⟩ := List.getElem_of_mem hx
    rw [← eval_toPoly,hcoeffs]
    exact Lagrange.eval_interpolate_at_node (i := (⟨i,hi⟩ : Fin xs.length))
      (fun i : Fin xs.length => y xs[i]) hv (Finset.mem_univ _)
  · rintro other ⟨hother,hvalues⟩
    refine toPoly_injective (hother.trans hlen.symm) ?_
    rw [hcoeffs]
    refine Lagrange.eq_interpolate_of_eval_eq _ hv ?_ fun i _ => ?_
    · have hdeg := degree_toPoly_lt other
      rwa [hother,← Fintype.card_fin xs.length,← Finset.card_univ] at hdeg
    · rw [eval_toPoly]
      exact hvalues _ (List.getElem_mem _)

section Loops
variable {ι M : Type*} [DecidableEq ι]

/-- A loop that multiplies and leaves one index out. -/
theorem foldl_skip [CommMonoid M] (l : List ι) (hl : l.Nodup) (i : ι) (f : ι → M) (a : M) :
    l.foldl (fun a k => if k = i then a else a*f k) a = a*∏ k ∈ l.toFinset.erase i,f k := by
  induction l generalizing a with
  | nil => simp
  | cons k l ih =>
    obtain ⟨hk,hl⟩ := List.nodup_cons.mp hl
    have hk' : k ∉ l.toFinset := by simpa using hk
    rw [List.foldl_cons,ih hl,List.toFinset_cons]
    by_cases hki : k = i
    · subst hki
      rw [if_pos rfl,Finset.erase_insert hk',Finset.erase_eq_of_notMem hk']
    · have hke : k ∉ l.toFinset.erase i := fun h => hk' (Finset.mem_of_mem_erase h)
      rw [if_neg hki,Finset.erase_insert_of_ne hki,Finset.prod_insert hke,mul_assoc]

/-- A loop that adds, and whose steps may fail, where they do not. -/
theorem foldlM_add [AddCommMonoid M] {ε : Type*} {l : List ι} (hl : l.Nodup)
    {f : M → ι → Except ε M} {g : ι → M} (hf : ∀ a, ∀ i ∈ l, f a i = .ok (a+g i)) (a : M) :
    l.foldlM f a = .ok (a+∑ i ∈ l.toFinset,g i) := by
  induction l generalizing a with
  | nil => simp [pure,Except.pure]
  | cons i l ih =>
    obtain ⟨hi,hl⟩ := List.nodup_cons.mp hl
    have hi' : i ∉ l.toFinset := by simpa using hi
    rw [List.foldlM_cons,hf a i List.mem_cons_self,List.toFinset_cons,Finset.sum_insert hi',
      ← add_assoc]
    exact ih hl (fun a k hk => hf a k (List.mem_cons_of_mem _ hk)) _

end Loops

end Interpolation
