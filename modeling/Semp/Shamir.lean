import Semp.Crypto
import Semp.Gf256
import Semp.Interpolation

/-! Secret sharing byte by byte: a share is the value of a polynomial over the field of bytes
whose constant coefficient is the byte of the secret and whose other coefficients are random. -/
namespace Semp
namespace Shamir

def minShamirThreshold : ℕ := 2
def maxShamirTotalShares : ℕ := 16

structure ShamirShare where
  index : Number
  value : Bytes
  deriving DecidableEq

def polyEval (coeffs : List UInt8) (x : UInt8) : UInt8 :=
  coeffs.foldr (fun c y => gf256Mul y x ^^^ c) 0

/-- One polynomial for each byte: the byte, and the next random ones. -/
def coefficients (threshold : ℕ) : Bytes → Bytes → List (List UInt8)
  | [],_ => []
  | b::secret,randomBuf =>
    (b::randomBuf.take (threshold-1))::
      coefficients threshold secret (randomBuf.drop (threshold-1))

/-- The share with this index. -/
def share (polys : List (List UInt8)) (index : ℕ) : ShamirShare :=
  ⟨.ofNat index,polys.map fun coeffs => polyEval coeffs (UInt8.ofNat index)⟩

def splitSecret (secret : Bytes) (threshold totalShares : Number) (rand : ℕ → Js Bytes) :
    Js (List ShamirShare) :=
  if secret = [] then raise (js "recovery: split secret is empty")
  else if !threshold.isInteger || threshold.lt (.ofNat minShamirThreshold) then
    raise (js "recovery: threshold "++NumberText.toText threshold++js " below minimum "++
      natText minShamirThreshold)
  else if !totalShares.isInteger || totalShares.lt threshold then
    raise (js "recovery: total_shares "++NumberText.toText totalShares++js " below threshold "++
      NumberText.toText threshold)
  else if Number.lt (.ofNat maxShamirTotalShares) totalShares then
    raise (js "recovery: total_shares "++NumberText.toText totalShares++js " above maximum "++
      natText maxShamirTotalShares)
  else do
    let randomNeeded := (threshold.toNat-1)*secret.length
    let randomBuf ← rand randomNeeded
    if randomBuf.length < randomNeeded then
      raise (js "recovery: shamir random source returned too few bytes")
    else
      let polys := coefficients threshold.toNat secret randomBuf
      .ok ((List.range totalShares.toNat).map fun i => share polys (i+1))

/-- Numerator and denominator of the weight of a share. -/
def basisFactors (xs : List UInt8) (i : ℕ) : UInt8 × UInt8 :=
  (List.range xs.length).foldl (fun nd k =>
    if k = i then nd
    else (gf256Mul nd.1 (xs.getD k 0),gf256Mul nd.2 (xs.getD k 0 ^^^ xs.getD i 0))) (1,1)

/-- One share's part of the sum. -/
def addShare (xs ys : List UInt8) (result : UInt8) (i : ℕ) : Js UInt8 := do
  let inv ← gf256Inv (basisFactors xs i).2
  .ok (result ^^^ gf256Mul (ys.getD i 0) (gf256Mul (basisFactors xs i).1 inv))

def lagrangeInterpolateAtZero (xs ys : List UInt8) : Js UInt8 :=
  (List.range xs.length).foldlM (addShare xs ys) 0

def checkShare (secretLen i : ℕ) (seen : List Number) (s : ShamirShare) : Js Unit :=
  let site := js "recovery: share["++natText i++js "]"
  if Number.eq s.index (.ofNat 0) then raise (site++js " has invalid index 0")
  else if s.index.lt (.ofNat 0) || Number.lt (.ofNat 255) s.index || !s.index.isInteger then
    raise (site++js " index "++NumberText.toText s.index++js " out of [1, 255]")
  else if seen.any (Number.eq s.index) then
    raise (js "recovery: share index "++NumberText.toText s.index++js " appears more than once")
  else if s.value.length ≠ secretLen then
    raise (site++js " value length "++natText s.value.length++
      js " differs from share[0] length "++natText secretLen)
  else .ok ()

def checkShares (secretLen : ℕ) : ℕ → List Number → List ShamirShare → Js Unit
  | _,_,[] => .ok ()
  | i,seen,s::shares => do
    checkShare secretLen i seen s
    checkShares secretLen (i+1) (s.index::seen) shares

def combineShares (shares : List ShamirShare) : Js Bytes :=
  match shares with
  | [] => raise (js "recovery: combine got no shares")
  | first::_ =>
    let secretLen := first.value.length
    if secretLen = 0 then raise (js "recovery: combine got empty share value")
    else do
      checkShares secretLen 0 [] shares
      let xs := shares.map fun s => UInt8.ofNat s.index.toNat
      (List.range secretLen).mapM fun j =>
        lagrangeInterpolateAtZero xs (shares.map fun s => s.value.getD j 0)

section Recovery

open Interpolation

/-- The polynomial with these coefficients. -/
noncomputable def poly (coeffs : List UInt8) : Polynomial Gf256 := toPoly (F := Gf256) coeffs

theorem eval_poly (coeffs : List UInt8) (x : Gf256) : (poly coeffs).eval x = polyEval coeffs x :=
  eval_toPoly (F := Gf256) coeffs x

theorem degree_poly_lt (coeffs : List UInt8) : (poly coeffs).degree < coeffs.length :=
  degree_toPoly_lt (F := Gf256) coeffs

/-- The nodes of an interpolation over these indices. -/
def node (xs : List UInt8) (k : ℕ) : Gf256 := xs.getD k 0

theorem node_injOn {xs : List UInt8} (h : xs.Nodup) :
    Set.InjOn (node xs) (Finset.range xs.length) := by
  intro i hi j hj hij
  have hi := Finset.mem_range.mp hi
  have hj := Finset.mem_range.mp hj
  have hgetD : xs.getD i 0 = xs.getD j 0 := hij
  have hget : xs[i] = xs[j] := by
    simpa [List.getD_eq_getElem?_getD,hi,hj] using hgetD
  exact (List.Nodup.getElem_inj_iff h).mp hget

theorem basisFactors_eq (xs : List UInt8) (i : ℕ) : basisFactors xs i =
    (∏ k ∈ (Finset.range xs.length).erase i,node xs k,
      ∏ k ∈ (Finset.range xs.length).erase i,(node xs k-node xs i)) := by
  have hloop := foldl_skip (M := Gf256 × Gf256) (List.range xs.length) List.nodup_range i
    (fun k => (node xs k,node xs k-node xs i)) 1
  rw [one_mul,List.toFinset_range] at hloop
  refine Eq.trans ?_ (hloop.trans (Prod.ext (Prod.fst_prod ..) (Prod.snd_prod ..)))
  unfold basisFactors
  congr 1

theorem basisFactors_ne_zero {xs : List UInt8} (h : xs.Nodup) {i : ℕ} (hi : i < xs.length) :
    (basisFactors xs i).2 ≠ 0 := by
  have hden : ∏ k ∈ (Finset.range xs.length).erase i,(node xs k-node xs i) ≠ 0 := by
    refine Finset.prod_ne_zero_iff.mpr fun k hk => ?_
    obtain ⟨hne,hk⟩ := Finset.mem_erase.mp hk
    exact sub_ne_zero.mpr fun heq =>
      hne (node_injOn h hk (Finset.mem_coe.mpr (Finset.mem_range.mpr hi)) heq)
  rw [basisFactors_eq]
  exact hden

/-- The weight of a share. -/
def shareWeight (xs : List UInt8) (i : ℕ) : Gf256 :=
  weight (Finset.range xs.length) (node xs) i

theorem addShare_eq {xs : List UInt8} (h : xs.Nodup) (ys : List UInt8) (a : Gf256) {i : ℕ}
    (hi : i < xs.length) : addShare xs ys a i = .ok (a+node ys i*shareWeight xs i) := by
  have hinv := gf256Inv_eq (basisFactors_ne_zero h hi)
  have hfactors := basisFactors_eq xs i
  unfold addShare
  rw [hinv,hfactors]
  rfl

theorem node_values {xs coeffs : List UInt8} {i : ℕ} (hi : i < xs.length) :
    node (xs.map (polyEval coeffs)) i = (poly coeffs).eval (node xs i) := by
  rw [eval_poly,node,node,List.getD_eq_getElem?_getD,List.getD_eq_getElem?_getD,
    List.getElem?_map,List.getElem?_eq_getElem hi]
  rfl

/-- Interpolating the values of a polynomial with no more coefficients than there are shares
gives its constant coefficient. -/
theorem lagrangeInterpolateAtZero_eq {xs : List UInt8} (h : xs.Nodup) {coeffs : List UInt8}
    (hlen : coeffs.length ≤ xs.length) :
    lagrangeInterpolateAtZero xs (xs.map (polyEval coeffs)) = .ok (polyEval coeffs 0) := by
  have hdeg : (poly coeffs).degree < (Finset.range xs.length).card := by
    rw [Finset.card_range]
    exact (degree_poly_lt coeffs).trans_le (by exact_mod_cast hlen)
  have hstep : ∀ a : Gf256, ∀ i ∈ List.range xs.length,
      addShare xs (xs.map (polyEval coeffs)) a i =
        .ok (a+(poly coeffs).eval (node xs i)*shareWeight xs i) := by
    intro a i hi
    have hi := List.mem_range.mp hi
    rw [addShare_eq h _ a hi,node_values hi]
  have hloop := foldlM_add List.nodup_range hstep 0
  have hsum := eval_zero (node_injOn h) hdeg
  rw [List.toFinset_range,zero_add] at hloop
  refine hloop.trans (congrArg Except.ok ?_)
  exact hsum.symm.trans (eval_poly coeffs 0)

/-! What a split gives. -/
section Split
variable {threshold : ℕ} {secret randomBuf : Bytes}

variable (threshold secret randomBuf) in
theorem length_coefficients :
    (coefficients threshold secret randomBuf).length = secret.length := by
  induction secret generalizing randomBuf with
  | nil => rfl
  | cons b secret ih => exact congrArg (·+1) (ih _)

/-- Every polynomial starts with its byte of the secret, and has no more coefficients than
the threshold. -/
theorem coefficients_spec (ht : 1 ≤ threshold) {j : ℕ} {coeffs : List UInt8}
    (h : (coefficients threshold secret randomBuf)[j]? = some coeffs) :
    secret[j]? = some (polyEval coeffs 0) ∧ coeffs.length ≤ threshold := by
  induction secret generalizing randomBuf j with
  | nil => simp [coefficients] at h
  | cons b secret ih =>
    cases j with
    | zero =>
      obtain rfl := Option.some.inj h
      have hzero : polyEval (b::randomBuf.take (threshold-1)) 0 = b := by
        rw [polyEval,List.foldr_cons,gf256Mul_zero,UInt8.zero_xor]
      rw [hzero,List.length_cons,List.length_take]
      exact ⟨rfl,by omega⟩
    | succ j => exact ih h

theorem splitSecret_eq {t n : ℕ} {rand : ℕ → Js Bytes} (hsecret : secret ≠ []) (ht : 2 ≤ t)
    (htn : t ≤ n) (hn : n ≤ 16) (hrand : rand ((t-1)*secret.length) = .ok randomBuf)
    (hlen : (t-1)*secret.length ≤ randomBuf.length) :
    splitSecret secret (.ofNat t) (.ofNat n) rand =
      .ok ((List.range n).map fun i => share (coefficients t secret randomBuf) (i+1)) := by
  have hsmall {k : ℕ} (hk : k ≤ 16) : k < 2^53 := hk.trans_lt (by norm_num)
  have htb := hsmall (htn.trans hn)
  have hnb := hsmall hn
  simp only [splitSecret,if_neg hsecret,Number.isInteger_ofNat htb,Number.isInteger_ofNat hnb,
    Number.lt_ofNat htb (hsmall (show minShamirThreshold ≤ 16 by decide)),Number.lt_ofNat hnb htb,
    Number.lt_ofNat (hsmall (show maxShamirTotalShares ≤ 16 by decide)) hnb,
    Number.toNat_ofNat htb,Number.toNat_ofNat hnb,hrand,ok_bind,if_neg (not_lt.mpr hlen)]
  rw [if_neg (by simp [minShamirThreshold]; omega),if_neg (by simpa using htn),
    if_neg (by rw [decide_eq_true_eq,maxShamirTotalShares]; omega)]

end Split

/-! What a combination takes. -/
section Combine
variable {polys : List (List UInt8)}

theorem checkShare_ok {i : ℕ} {seen : List ℕ} {k : ℕ} (hpos : 1 ≤ k) (hk : k ≤ 16)
    (hseen : ∀ l ∈ seen, l ≤ 16) (hnew : k ∉ seen) :
    checkShare polys.length i (seen.map Number.ofNat) (share polys k) = .ok () := by
  have hsmall {l : ℕ} (hl : l ≤ 16) : l < 2^53 := hl.trans_lt (by norm_num)
  have hdup : (seen.map Number.ofNat).any (Number.eq (.ofNat k)) = false := by
    rw [List.any_eq_false]
    intro x hx
    obtain ⟨l,hl,rfl⟩ := List.mem_map.mp hx
    rw [Number.eq_ofNat (hsmall hk) (hsmall (hseen l hl))]
    simp only [decide_eq_true_eq]
    rintro rfl
    exact hnew hl
  have hzero : ¬Number.eq (.ofNat k) (.ofNat 0) = true := by
    rw [Number.eq_ofNat (hsmall hk) (by norm_num)]
    simp
    omega
  have hrange : ¬((Number.ofNat k).lt (.ofNat 0) || Number.lt (.ofNat 255) (.ofNat k) ||
      !(Number.ofNat k).isInteger) = true := by
    rw [Number.lt_ofNat (hsmall hk) (by norm_num),Number.lt_ofNat (by norm_num) (hsmall hk),
      Number.isInteger_ofNat (hsmall hk)]
    simp
    omega
  have hlength : ¬(share polys k).value.length ≠ polys.length := by simp [share]
  exact (if_neg hzero).trans ((if_neg hrange).trans ((if_neg (Bool.eq_false_iff.mp hdup)).trans
    (if_neg hlength)))

theorem checkShares_ok (i : ℕ) (seen : List ℕ) {ks : List ℕ}
    (hks : ∀ k ∈ ks, 1 ≤ k ∧ k ≤ 16 ∧ k ∉ seen)
    (hseen : ∀ l ∈ seen, l ≤ 16) (hnodup : ks.Nodup) :
    checkShares polys.length i (seen.map Number.ofNat) (ks.map (share polys)) = .ok () := by
  induction ks generalizing i seen with
  | nil => rfl
  | cons k ks ih =>
    obtain ⟨hk,hnodup⟩ := List.nodup_cons.mp hnodup
    obtain ⟨hpos,hle,hnew⟩ := hks k List.mem_cons_self
    rw [List.map_cons,checkShares,checkShare_ok hpos hle hseen hnew,ok_bind]
    refine ih (i+1) (k::seen) (fun l hl => ?_) ?_ hnodup
    · obtain ⟨h₁,h₂,h₃⟩ := hks l (List.mem_cons_of_mem _ hl)
      refine ⟨h₁,h₂,fun h => ?_⟩
      obtain rfl | h := List.mem_cons.mp h
      · exact hk hl
      · exact h₃ h
    · intro l hl
      obtain rfl | hl := List.mem_cons.mp hl
      · exact hle
      · exact hseen l hl

theorem mapM_eq_ok {α β : Type} {f : α → Js β} {g : α → β} {l : List α}
    (h : ∀ a ∈ l, f a = .ok (g a)) : l.mapM f = .ok (l.map g) := by
  induction l with
  | nil => rfl
  | cons a l ih =>
    rw [List.mapM_cons,h a List.mem_cons_self,ok_bind,
      ih fun b hb => h b (List.mem_cons_of_mem _ hb)]
    rfl

/-- As many shares as the polynomials have coefficients give the polynomials at zero. -/
theorem combineShares_eq {ks : List ℕ} (hne : polys ≠ []) (hks : ∀ k ∈ ks, 1 ≤ k ∧ k ≤ 16)
    (hnodup : ks.Nodup) (hlen : ∀ coeffs ∈ polys, coeffs.length ≤ ks.length) (hk : ks ≠ []) :
    combineShares (ks.map (share polys)) = .ok (polys.map fun coeffs => polyEval coeffs 0) := by
  have hsmall {k : ℕ} (h : k ∈ ks) : k < 2^53 := (hks k h).2.trans_lt (by norm_num)
  have hxs : (ks.map (share polys)).map (fun s => UInt8.ofNat s.index.toNat) =
      ks.map UInt8.ofNat := by
    rw [List.map_map]
    refine List.map_congr_left fun k h => ?_
    simp [share,Number.toNat_ofNat (hsmall h)]
  have hxnodup : (ks.map UInt8.ofNat).Nodup := by
    refine List.Nodup.map_on (fun a ha b hb hab => ?_) hnodup
    have hmod := congrArg UInt8.toNat hab
    have hleA := (hks a ha).2
    have hleB := (hks b hb).2
    rwa [UInt8.toNat_ofNat_of_lt' (show a < 256 by omega),
      UInt8.toNat_ofNat_of_lt' (show b < 256 by omega)] at hmod
  have hpos : polys.length ≠ 0 := fun h => hne (List.length_eq_zero_iff.mp h)
  have hcheck : checkShares polys.length 0 [] (ks.map (share polys)) = .ok () :=
    checkShares_ok 0 [] (fun k h => ⟨(hks k h).1,(hks k h).2,List.not_mem_nil⟩) nofun hnodup
  obtain ⟨k,rest,rfl⟩ := List.exists_cons_of_ne_nil hk
  have hbytes : (List.range polys.length).mapM (fun j => lagrangeInterpolateAtZero
      ((k::rest).map UInt8.ofNat) (((k::rest).map (share polys)).map fun s => s.value.getD j 0)) =
        .ok ((List.range polys.length).map fun j => polyEval (polys.getD j []) 0) := by
    refine mapM_eq_ok fun j hj => ?_
    have hj := List.mem_range.mp hj
    have hys : ((k::rest).map (share polys)).map (fun s => s.value.getD j 0) =
        ((k::rest).map UInt8.ofNat).map (polyEval (polys.getD j [])) := by
      rw [List.map_map,List.map_map]
      refine List.map_congr_left fun l _ => ?_
      simp [share,List.getD_eq_getElem?_getD,hj]
    have hmem : polys.getD j [] ∈ polys := by
      rw [List.getD_eq_getElem?_getD,List.getElem?_eq_getElem hj]
      exact List.getElem_mem hj
    rw [hys]
    exact lagrangeInterpolateAtZero_eq hxnodup (by rw [List.length_map]; exact hlen _ hmem)
  have hall : (List.range polys.length).map (fun j => polyEval (polys.getD j []) 0) =
      polys.map fun coeffs => polyEval coeffs 0 := by
    refine List.ext_getElem (by simp) fun j h₁ h₂ => ?_
    simp at h₁
    simp [List.getD_eq_getElem?_getD,h₁]
  have hlength : (share polys k).value.length = polys.length := List.length_map ..
  rw [List.map_cons] at hcheck hxs hbytes ⊢
  rw [combineShares]
  simp only [hlength,if_neg hpos,hcheck,ok_bind,hxs,List.map_cons] at hbytes ⊢
  rw [hbytes,hall]

/-- A selection from a list that is a map. -/
theorem exists_map {α β : Type} {f : α → β} {source : List α} {l : List β}
    (h : ∀ b ∈ l, b ∈ source.map f) : ∃ ks : List α, (∀ k ∈ ks, k ∈ source) ∧
      l = ks.map f := by
  induction l with
  | nil => exact ⟨[],nofun,rfl⟩
  | cons b l ih =>
    obtain ⟨k,hk,rfl⟩ := List.mem_map.mp (h b List.mem_cons_self)
    obtain ⟨ks,hks,rfl⟩ := ih fun c hc => h c (List.mem_cons_of_mem _ hc)
    exact ⟨k::ks,List.forall_mem_cons.mpr ⟨hk,hks⟩,rfl⟩

end Combine

/-- A split of a secret that is not empty gives shares, and any of them, in any order, give
the secret back if they are different and as many as the threshold. -/
theorem combineShares_splitSecret (secret : Bytes) (t n : ℕ) (ht : 2 ≤ t) (htn : t ≤ n)
    (hn : n ≤ 16) (rand : ℕ → Js Bytes) (randomBuf : Bytes)
    (hrand : rand ((t-1)*secret.length) = .ok randomBuf)
    (hlen : (t-1)*secret.length ≤ randomBuf.length) :
    (secret = [] → splitSecret secret (.ofNat t) (.ofNat n) rand =
      raise (js "recovery: split secret is empty")) ∧
    (secret ≠ [] → ∃ shares, splitSecret secret (.ofNat t) (.ofNat n) rand = .ok shares ∧
      shares.length = n ∧ ∀ chosen : List ShamirShare, (∀ s ∈ chosen, s ∈ shares) →
        chosen.Nodup → t ≤ chosen.length → combineShares chosen = .ok secret) := by
  refine ⟨fun h => if_pos h,fun hsecret => ?_⟩
  refine ⟨_,splitSecret_eq hsecret ht htn hn hrand hlen,by simp,fun chosen hmem hnodup hcount => ?_⟩
  have hspec {j : ℕ} {coeffs : List UInt8}
      (h : (coefficients t secret randomBuf)[j]? = some coeffs) :=
    coefficients_spec (show 1 ≤ t by omega) h
  have hpolys := length_coefficients t secret randomBuf
  obtain ⟨is,his,rfl⟩ := exists_map hmem
  have hks : is.map (fun i => share (coefficients t secret randomBuf) (i+1)) =
      (is.map (·+1)).map (share (coefficients t secret randomBuf)) := by rw [List.map_map]; rfl
  rw [hks] at hnodup ⊢
  rw [List.length_map] at hcount
  rw [combineShares_eq ?_ ?_ hnodup.of_map ?_ ?_]
  · refine congrArg Except.ok (List.ext_getElem (by simp [hpolys]) fun j h₁ h₂ => ?_)
    have hj : j < (coefficients t secret randomBuf).length := by simpa using h₁
    have hbyte := (hspec (List.getElem?_eq_getElem hj)).1
    rw [List.getElem?_eq_getElem h₂] at hbyte
    simpa using (Option.some.inj hbyte).symm
  · intro hnil
    rw [hnil] at hpolys
    exact hsecret (List.length_eq_zero_iff.mp hpolys.symm)
  · intro k hk
    obtain ⟨i,hi,rfl⟩ := List.mem_map.mp hk
    have := List.mem_range.mp (his i hi)
    omega
  · intro coeffs hc
    obtain ⟨j,hj,rfl⟩ := List.getElem_of_mem hc
    have := (hspec (List.getElem?_eq_getElem hj)).2
    rw [List.length_map]
    omega
  · intro hnil
    have := congrArg List.length hnil
    simp at this
    rw [this] at hcount
    simp at hcount
    omega

theorem combineShares_splitSecret_sample : ∃ shares,
    splitSecret [42] (.ofNat 2) (.ofNat 3) (fun _ => .ok [7]) = .ok shares ∧
      ∀ chosen : List ShamirShare, (∀ s ∈ chosen, s ∈ shares) → chosen.Nodup →
        2 ≤ chosen.length → combineShares chosen = .ok [42] := by
  obtain ⟨shares,hsplit,-,hcombine⟩ := (combineShares_splitSecret [42] 2 3 (by decide) (by decide)
    (by decide) (fun _ => .ok [7]) [7] rfl (by decide)).2 (by decide)
  exact ⟨shares,hsplit,hcombine⟩

/-! What a split hides. -/
section Secrecy

theorem polyEval_cons (c : UInt8) (coeffs : List UInt8) (x : UInt8) :
    polyEval (c::coeffs) x = gf256Mul (polyEval coeffs x) x ^^^ c := rfl

theorem polyEval_cons_zero (c : UInt8) (coeffs : List UInt8) : polyEval (c::coeffs) 0 = c := by
  rw [polyEval_cons,gf256Mul_zero,UInt8.zero_xor]

theorem existsUnique_polyEval {xs : List UInt8} (h : xs.Nodup) (y : UInt8 → UInt8) :
    ∃! coeffs : List UInt8, coeffs.length = xs.length ∧ ∀ x ∈ xs, polyEval coeffs x = y x :=
  existsUnique_horner (F := Gf256) h y

/-- The random coefficients of one byte are determined by as many values. -/
theorem existsUnique_random_byte (b : UInt8) {xs : List UInt8} (h : xs.Nodup) (hz : 0 ∉ xs)
    (y : UInt8 → UInt8) : ∃! random : Bytes, random.length = xs.length ∧
      ∀ x ∈ xs, polyEval (b::random) x = y x := by
  obtain ⟨coeffs,⟨hlen,hvalues⟩,hunique⟩ := existsUnique_polyEval (List.nodup_cons.mpr ⟨hz,h⟩)
    fun x => if x = 0 then b else y x
  obtain ⟨c,random,rfl⟩ := List.exists_cons_of_length_eq_add_one hlen
  have hne {x : UInt8} (hx : x ∈ xs) : x ≠ 0 := fun h0 => hz (h0 ▸ hx)
  obtain rfl : c = b := by
    have h0 := hvalues 0 List.mem_cons_self
    rwa [polyEval_cons_zero,if_pos rfl] at h0
  refine ⟨random,⟨Nat.succ.inj hlen,fun x hx => ?_⟩,?_⟩
  · have hx0 := hvalues x (List.mem_cons_of_mem _ hx)
    rwa [if_neg (hne hx)] at hx0
  · rintro other ⟨hother,hv⟩
    refine (List.cons.inj (hunique (c::other) ⟨congrArg (·+1) hother,?_⟩)).2
    intro x hx
    obtain rfl | hx := List.mem_cons.mp hx
    · rw [polyEval_cons_zero,if_pos rfl]
    · rw [if_neg (hne hx)]
      exact hv x hx

/-- Byte by byte: the shares of a secret are its first byte's values in front of the rest. -/
theorem coefficients_values {t : ℕ} {b : UInt8} {secret random : Bytes} {x y : UInt8}
    {ys : Bytes} : (coefficients t (b::secret) random).map (polyEval · x) = y::ys ↔
      polyEval (b::random.take (t-1)) x = y ∧
        (coefficients t secret (random.drop (t-1))).map (polyEval · x) = ys := by
  rw [coefficients,List.map_cons,List.cons.injEq]

theorem existsUnique_random_bytes {t : ℕ} {xs : List UInt8} (h : xs.Nodup) (hz : 0 ∉ xs)
    (ht : t-1 = xs.length) {secret : Bytes} (c : UInt8 → Bytes)
    (hlen : ∀ x ∈ xs, (c x).length = secret.length) :
    ∃! random : Bytes, random.length = (t-1)*secret.length ∧
      ∀ x ∈ xs, (coefficients t secret random).map (polyEval · x) = c x := by
  induction secret generalizing c with
  | nil =>
    refine ⟨[],⟨rfl,fun x hx => ?_⟩,fun random hr => List.length_eq_zero_iff.mp hr.1⟩
    exact (List.length_eq_zero_iff.mp (hlen x hx)).symm
  | cons b secret ih =>
    have hcons : ∀ x ∈ xs, c x = (c x).headD 0::(c x).tail := by
      intro x hx
      obtain ⟨y,ys,hy⟩ := List.exists_cons_of_length_eq_add_one (hlen x hx)
      rw [hy]
      rfl
    obtain ⟨r,⟨hr,hbyte⟩,hrunique⟩ := existsUnique_random_byte b h hz fun x => (c x).headD 0
    obtain ⟨rest,⟨hrest,hbytes⟩,hrestunique⟩ := ih (fun x => (c x).tail) fun x hx => by
      rw [List.length_tail,hlen x hx,List.length_cons,Nat.add_sub_cancel]
    rw [← ht] at hr
    refine ⟨r++rest,⟨?_,fun x hx => ?_⟩,?_⟩
    · rw [List.length_append,hr,hrest,List.length_cons]
      ring
    · rw [hcons x hx,coefficients_values,List.take_left' hr,List.drop_left' hr]
      exact ⟨hbyte x hx,hbytes x hx⟩
    · rintro random ⟨hl,hv⟩
      rw [List.length_cons] at hl
      have hv' (x : UInt8) (hx : x ∈ xs) := coefficients_values.mp ((hv x hx).trans (hcons x hx))
      have htake := hrunique (random.take (t-1)) ⟨by
        rw [List.length_take,← ht,hl]
        exact min_eq_left (Nat.le_mul_of_pos_right _ (Nat.succ_pos _)),fun x hx => (hv' x hx).1⟩
      have hdrop := hrestunique (random.drop (t-1)) ⟨by
        rw [List.length_drop,hl,Nat.mul_add,Nat.mul_one,Nat.add_sub_cancel],
          fun x hx => (hv' x hx).2⟩
      rw [← List.take_append_drop (t-1) random,htake,hdrop]

/-- A share is among those of a split when its content is the value at its index. -/
theorem mem_shares {polys : List (List UInt8)} {n k : ℕ} {value : Bytes} (hn : n ≤ 16)
    (hpos : 1 ≤ k) (hk : k ≤ n) :
    (⟨.ofNat k,value⟩ : ShamirShare) ∈ (List.range n).map (fun i => share polys (i+1)) ↔
      polys.map (polyEval · (UInt8.ofNat k)) = value := by
  rw [List.mem_map]
  constructor
  · rintro ⟨i,hi,heq⟩
    obtain ⟨hindex,hvalue⟩ := ShamirShare.mk.inj heq
    have hin := List.mem_range.mp hi
    have hik := congrArg Number.toNat hindex
    rw [Number.toNat_ofNat (by omega),Number.toNat_ofNat (by omega)] at hik
    rwa [hik] at hvalue
  · intro h
    refine ⟨k-1,List.mem_range.mpr (by omega),?_⟩
    rw [Nat.sub_add_cancel hpos,share,h]

end Secrecy

/-- Fewer shares than the threshold say nothing about the secret: whatever contents the
shares with `t-1` different indices have, and whatever the secret is, exactly one choice of
the random bytes gives these shares. -/
theorem existsUnique_random (t n L : ℕ) (ht : 2 ≤ t) (htn : t ≤ n) (hn : n ≤ 16) (hL : 0 < L)
    (ks : List ℕ) (hdistinct : ks.Nodup) (hcount : ks.length = t-1)
    (hks : ∀ k ∈ ks, 1 ≤ k ∧ k ≤ n) (content : ℕ → Bytes)
    (hcontent : ∀ k ∈ ks, (content k).length = L) (secret : Bytes) (hsecret : secret.length = L) :
    ∃! random : Bytes, random.length = (t-1)*L ∧
      ∃ shares, splitSecret secret (.ofNat t) (.ofNat n) (fun _ => .ok random) = .ok shares ∧
        ∀ k ∈ ks, ⟨.ofNat k,content k⟩ ∈ shares := by
  have hbyte {k : ℕ} (hk : k ∈ ks) : (UInt8.ofNat k).toNat = k := by
    have hle := (hks k hk).2
    exact UInt8.toNat_ofNat_of_lt' (show k < 256 by omega)
  have hnodup : (ks.map UInt8.ofNat).Nodup := by
    refine List.Nodup.map_on (fun a ha b hb hab => ?_) hdistinct
    rw [← hbyte ha,hab,hbyte hb]
  have hz : 0 ∉ ks.map UInt8.ofNat := by
    intro h
    obtain ⟨k,hk,h0⟩ := List.mem_map.mp h
    have hpos := (hks k hk).1
    rw [← hbyte hk,h0] at hpos
    exact absurd hpos (by decide)
  have hne : secret ≠ [] := by
    rintro rfl
    exact hL.ne hsecret
  have hsplit (random : Bytes) (hl : random.length = (t-1)*L) :
      (∃ shares, splitSecret secret (.ofNat t) (.ofNat n) (fun _ => .ok random) = .ok shares ∧
        ∀ k ∈ ks, ⟨.ofNat k,content k⟩ ∈ shares) ↔
      ∀ x ∈ ks.map UInt8.ofNat,
        (coefficients t secret random).map (polyEval · x) = content x.toNat := by
    have hrand : (fun _ : ℕ => (.ok random : Js Bytes)) ((t-1)*secret.length) = .ok random := rfl
    rw [splitSecret_eq hne ht htn hn hrand (by rw [hsecret,hl]),List.forall_mem_map]
    simp only [Except.ok.injEq,exists_eq_left']
    refine forall₂_congr fun k hk => ?_
    rw [mem_shares hn (hks k hk).1 (hks k hk).2,hbyte hk]
  obtain ⟨random,⟨hlen,hvalues⟩,hunique⟩ := existsUnique_random_bytes (t := t) hnodup hz
    (by rw [List.length_map,hcount]) (fun x => content x.toNat) (by
      rw [List.forall_mem_map]
      intro k hk
      rw [hbyte hk,hcontent k hk,hsecret])
  rw [hsecret] at hlen
  refine ⟨random,⟨hlen,(hsplit random hlen).mpr hvalues⟩,?_⟩
  rintro other ⟨hl,hother⟩
  exact hunique other ⟨by rw [hl,hsecret],(hsplit other hl).mp hother⟩

theorem existsUnique_random_sample : ∃! random : Bytes, random.length = (2-1)*1 ∧
    ∃ shares, splitSecret [42] (.ofNat 2) (.ofNat 3) (fun _ => .ok random) = .ok shares ∧
      ∀ k ∈ [1], ⟨.ofNat k,[9]⟩ ∈ shares :=
  existsUnique_random 2 3 1 (by decide) (by decide) (by decide) (by decide) [1] (by decide) rfl
    (by decide) (fun _ => [9]) (fun _ _ => rfl) [42] rfl

end Recovery

end Shamir
end Semp
