import Semp.JsNumber
import Mathlib.Data.List.Induction
import Mathlib.Data.List.TakeWhile

/-! The decimal text of a number.  Writing follows `Number::toString`: the
shortest digit string that rounds to the number, the closest one if there are
several.  Reading follows the JSON grammar and rounds the exact decimal value,
so reading what was written returns the number. -/
namespace Semp
namespace NumberText

open Binary64

def zeroUnit : UInt16 := 48
def dotUnit : UInt16 := 46
def minusUnit : UInt16 := 45
def plusUnit : UInt16 := 43
def expUnit : UInt16 := 101
def expUpperUnit : UInt16 := 69

def isDigit (u : UInt16) : Bool := decide (48 ≤ u.toNat ∧ u.toNat ≤ 57)

def digitUnit (d : ℕ) : UInt16 := UInt16.ofNat (48+d)

/-- The last `k` decimal digits of `s`. -/
def digits : ℕ → ℕ → JsString
  | 0, _ => []
  | k+1, s => digits k (s/10)++[digitUnit (s%10)]

def readDigits (ds : JsString) : ℕ := ds.foldl (fun n u => n*10+(u.toNat-48)) 0

/-- The `k`-digit integers next to the scaled value that round to rank `i`; of
two, the closer one, and the even one on a tie. -/
def candidate (i k : ℕ) (n : ℤ) : Option ℕ :=
  let scaled := value i*10^((k : ℤ)-n)
  let lo := ⌊scaled⌋.toNat
  let rounds := fun s : ℕ => decide (rank (s*10^(n-k)) = i)
  match rounds lo, rounds (lo+1) with
  | true, true =>
    if scaled-lo < 1/2 then some lo
    else if 1/2 < scaled-lo then some (lo+1)
    else if lo%2 = 0 then some lo else some (lo+1)
  | true, false => some lo
  | false, true => some (lo+1)
  | false, false => none

/-- The first digit count from `k` on that has a candidate. -/
def search (i : ℕ) (n : ℤ) : ℕ → ℕ → Option (ℕ × ℕ)
  | 0, _ => none
  | fuel+1, k =>
    match candidate i k n with
    | some s => some (s,k)
    | none => search i n fuel (k+1)

/-- Digits `s`, their number `k` and the decimal point position `n` of a
positive rank.  At `n+1074` digits the decimal is exact, which bounds the search. -/
def shortest (i : ℕ) : ℕ × ℕ × ℤ :=
  let n := Int.log 10 (value i)+1
  match search i n (n+1075).toNat 1 with
  | some (s,k) => if s = 10^k then (10^(k-1),k,n+1) else (s,k,n)
  | none => (0,1,1)

def fractionText : JsString → JsString
  | [] => []
  | ds => dotUnit::ds

def exponentText (e : ℤ) : JsString :=
  expUnit::(if e < 0 then minusUnit else plusUnit)::digits (Nat.log 10 e.natAbs+1) e.natAbs

/-- The layout of `Number::toString` for digits `s`, `k` and `n`. -/
def layout (s k : ℕ) (n : ℤ) : JsString :=
  let ds := digits k s
  if k ≤ n ∧ n ≤ 21 then ds++List.replicate (n-k).toNat zeroUnit
  else if 0 < n ∧ n ≤ 21 then ds.take n.toNat++fractionText (ds.drop n.toNat)
  else if -6 < n ∧ n ≤ 0 then
    zeroUnit::fractionText (List.replicate (-n).toNat zeroUnit++ds)
  else ds.take 1++fractionText (ds.drop 1)++exponentText (n-1)

def magText (i : ℕ) : JsString :=
  if i = 0 then [zeroUnit]
  else layout (shortest i).1 (shortest i).2.1 (shortest i).2.2

/-- `Number.prototype.toString` -/
def toText : Number → JsString
  | .nan => js "NaN"
  | .inf neg => if neg then js "-Infinity" else js "Infinity"
  | .fin neg i => if neg && i.val != 0 then minusUnit::magText i else magText i

def parseFraction : JsString → Option (JsString × JsString)
  | [] => some ([],[])
  | u::rest =>
    if u = dotUnit then
      if rest.takeWhile isDigit = [] then none
      else some (rest.takeWhile isDigit,rest.dropWhile isDigit)
    else some ([],u::rest)

def parseExponentDigits (neg : Bool) (rest : JsString) : Option (ℤ × JsString) :=
  if rest.takeWhile isDigit = [] then none
  else
    let e : ℤ := readDigits (rest.takeWhile isDigit)
    some (if neg then -e else e,rest.dropWhile isDigit)

def parseExponent : JsString → Option (ℤ × JsString)
  | [] => some (0,[])
  | u::rest =>
    if u = expUnit ∨ u = expUpperUnit then
      match rest with
      | [] => none
      | v::rest' =>
        if v = minusUnit then parseExponentDigits true rest'
        else if v = plusUnit then parseExponentDigits false rest'
        else parseExponentDigits false (v::rest')
    else some (0,u::rest)

def parseMag (text : JsString) : Option (ℚ × JsString) := do
  let int := text.takeWhile isDigit
  if int = [] ∨ (int.head? = some zeroUnit ∧ int.length ≠ 1) then none
  else
    let (frac,rest) ← parseFraction (text.dropWhile isDigit)
    let (e,rest') ← parseExponent rest
    some (readDigits (int++frac)*10^(e-frac.length),rest')

/-- A JSON number at the head of a text. -/
def parse : JsString → Option (Number × JsString)
  | [] => none
  | u::rest =>
    if u = minusUnit then (parseMag rest).map fun r => (Number.ofMag true r.1,r.2)
    else (parseMag (u::rest)).map fun r => (Number.ofMag false r.1,r.2)

/-- What may follow a number for the number to end there. -/
def Ends (rest : JsString) : Prop :=
  ∀ u ∈ rest.head?, isDigit u = false ∧ u ≠ dotUnit ∧ u ≠ expUnit ∧ u ≠ expUpperUnit

theorem isDigit_digitUnit {d : ℕ} (h : d < 10) : isDigit (digitUnit d) = true := by
  rw [isDigit,digitUnit,Utf8.toNat_ofNat_unit (by omega)]
  simp
  omega

@[simp] theorem digits_length (k s : ℕ) : (digits k s).length = k := by
  induction k generalizing s with
  | zero => rfl
  | succ k ih => simp [digits,ih]

theorem isDigit_of_mem_digits (k s : ℕ) : ∀ u ∈ digits k s, isDigit u = true := by
  induction k generalizing s with
  | zero => simp [digits]
  | succ k ih =>
    intro u hu
    simp only [digits,List.mem_append,List.mem_singleton] at hu
    rcases hu with hu | rfl
    · exact ih _ u hu
    · exact isDigit_digitUnit (Nat.mod_lt _ (by norm_num))

theorem readDigits_append (a b : JsString) :
    readDigits (a++b) = readDigits a*10^b.length+readDigits b := by
  induction b using List.reverseRecOn with
  | nil => simp [readDigits]
  | append_singleton b u ih =>
    rw [← List.append_assoc,readDigits,List.foldl_append,← readDigits,ih]
    simp only [List.foldl_cons,List.foldl_nil,List.length_append,List.length_singleton,pow_succ]
    rw [readDigits,readDigits,readDigits,List.foldl_append]
    simp only [List.foldl_cons,List.foldl_nil]
    ring

theorem readDigits_digits (k s : ℕ) : readDigits (digits k s) = s%10^k := by
  induction k generalizing s with
  | zero => simp [digits,readDigits,Nat.mod_one]
  | succ k ih =>
    have hd : readDigits [digitUnit (s%10)] = s%10 := by
      have h := Utf8.toNat_ofNat_unit (show 48+s%10 < 65536 by omega)
      simp only [readDigits,digitUnit,List.foldl_cons,List.foldl_nil,h]
      omega
    rw [digits,readDigits_append,ih,hd,List.length_singleton,pow_one,pow_succ,mul_comm (10^k) 10,
      Nat.mod_mul]
    ring

theorem readDigits_zeros (n : ℕ) : readDigits (List.replicate n zeroUnit) = 0 := by
  induction n with
  | zero => rfl
  | succ n ih =>
    rw [List.replicate_succ',readDigits_append,ih]
    rfl

theorem head_digits {k s : ℕ} (hlo : 10^k ≤ s) (hhi : s < 10^(k+1)) :
    (digits (k+1) s).head? ≠ some zeroUnit := by
  induction k generalizing s with
  | zero =>
    simp only [digits,List.nil_append,List.head?_cons,ne_eq,Option.some.injEq]
    intro h
    have := congrArg UInt16.toNat h
    rw [digitUnit,Utf8.toNat_ofNat_unit (by omega),show zeroUnit.toNat = 48 from rfl] at this
    omega
  | succ k ih =>
    have h1 : 10^k ≤ s/10 := by
      rw [Nat.le_div_iff_mul_le (by norm_num),← pow_succ]
      exact hlo
    have h2 : s/10 < 10^(k+1) := by
      rw [Nat.div_lt_iff_lt_mul (by norm_num),← pow_succ]
      exact hhi
    rw [digits,List.head?_append_of_ne_nil _ (by simp [digits])]
    exact ih h1 h2

theorem candidate_spec {i k s : ℕ} {n : ℤ} (h : candidate i k n = some s) :
    rank (s*10^(n-k)) = i ∧
      (s = ⌊value i*10^((k : ℤ)-n)⌋.toNat ∨ s = ⌊value i*10^((k : ℤ)-n)⌋.toNat+1) := by
  unfold candidate at h
  dsimp only at h
  split at h
  · rename_i h1 h2
    simp only [decide_eq_true_eq] at h1 h2
    split_ifs at h <;> obtain rfl := Option.some.inj h <;>
      first | exact ⟨h1,.inl rfl⟩ | exact ⟨by exact_mod_cast h2,.inr rfl⟩
  · rename_i h1 h2
    simp only [decide_eq_true_eq] at h1
    obtain rfl := Option.some.inj h
    exact ⟨h1,.inl rfl⟩
  · rename_i h1 h2
    simp only [decide_eq_true_eq] at h2
    obtain rfl := Option.some.inj h
    exact ⟨by exact_mod_cast h2,.inr rfl⟩
  · cases h

/-- Where the decimal is exact there is a candidate. -/
theorem candidate_isSome {i k : ℕ} {n : ℤ} {s : ℕ} (h : value i*10^((k : ℤ)-n) = s) :
    (candidate i k n).isSome := by
  have hv : (s : ℚ)*10^(n-k) = value i := by
    rw [← h,mul_assoc,← zpow_add₀ (by norm_num)]
    simp
  have hr : decide (rank (((⌊value i*10^((k : ℤ)-n)⌋.toNat : ℕ) : ℚ)*10^(n-k)) = i) = true := by
    rw [h]
    simp [hv]
  unfold candidate
  dsimp only
  rw [hr]
  split <;> (try split_ifs) <;> simp_all

theorem search_spec {i : ℕ} {n : ℤ} {fuel k s k' : ℕ} (h : search i n fuel k = some (s,k')) :
    candidate i k' n = some s ∧ k ≤ k' := by
  induction fuel generalizing k with
  | zero => simp [search] at h
  | succ fuel ih =>
    rw [search] at h
    split at h
    · rename_i t ht
      obtain ⟨rfl,rfl⟩ := Prod.mk.inj (Option.some.inj h)
      exact ⟨ht,le_rfl⟩
    · have := ih h
      exact ⟨this.1,by omega⟩

theorem search_isSome {i : ℕ} {n : ℤ} {f k m : ℕ} (hm : (candidate i m n).isSome)
    (hlo : k ≤ m) (hhi : m < k+f) : (search i n f k).isSome := by
  induction f generalizing k with
  | zero => omega
  | succ f ih =>
    rw [search]
    split
    · rfl
    · rename_i hk
      have hne : k ≠ m := by
        rintro rfl
        simp [hk] at hm
      exact ih (by omega) (by omega)

/-- Scaled by enough powers of ten, a double is an integer. -/
theorem exists_scaled (i : ℕ) {e : ℤ} (he : 1074 ≤ e) : ∃ s : ℕ, value i*10^e = s := by
  have hu := ulpExp_ge i
  refine ⟨significand i*2^(ulpExp i+e).toNat*5^e.toNat,?_⟩
  have h2 : (2 : ℚ)^(ulpExp i+e).toNat = 2^(ulpExp i+e) := by
    rw [← zpow_natCast,Int.toNat_of_nonneg (by omega)]
  have h5 : (5 : ℚ)^e.toNat = 5^e := by
    rw [← zpow_natCast,Int.toNat_of_nonneg (by omega)]
  push_cast
  rw [h2,h5,value,show (10 : ℚ) = 2*5 by norm_num,mul_zpow,zpow_add₀ (by norm_num)]
  ring

theorem ten_zpow_neg_le (m : ℕ) : (10 : ℚ)^(-m : ℤ) ≤ 2^(-m : ℤ) := by
  rw [zpow_neg,zpow_neg,zpow_natCast,zpow_natCast]
  exact inv_anti₀ (by positivity) (pow_le_pow_left₀ (by norm_num) (by norm_num) m)

/-- What `shortest` computes: `k+1` digits without a leading zero that round to the rank. -/
theorem shortest_spec {i : ℕ} (hi : 0 < i) : ∃ (s k : ℕ) (n : ℤ),
    shortest i = (s,k+1,n) ∧ 10^k ≤ s ∧ s < 10^(k+1) ∧ rank (s*10^(n-(k+1 : ℕ))) = i := by
  have hv := value_pos hi
  have hten : (0 : ℚ) < 10 := by norm_num
  generalize hn : Int.log 10 (value i)+1 = n
  have hlo : (10 : ℚ)^(n-1) ≤ value i := by
    rw [← hn,add_sub_cancel_right]
    exact Int.zpow_log_le_self (by norm_num) hv
  have hhi : value i < (10 : ℚ)^n := by
    rw [← hn]
    exact Int.lt_zpow_succ_log_self (by norm_num) (value i)
  have hn0 : -1073 ≤ n := by
    by_contra hlt
    have h1 : (10 : ℚ)^n ≤ 10^(-1074 : ℤ) := zpow_le_zpow_right₀ (by norm_num) (by omega)
    have h2 : (10 : ℚ)^(-1074 : ℤ) ≤ 2^(-1074 : ℤ) := ten_zpow_neg_le 1074
    have h3 : (2 : ℚ)^(-1074 : ℤ) ≤ value i := by
      calc (2 : ℚ)^(-1074 : ℤ) ≤ 2^ulpExp i := zpow_le_zpow_right₀ (by norm_num) (ulpExp_ge i)
        _ = 1*2^ulpExp i := (one_mul _).symm
        _ ≤ value i := by
          apply mul_le_mul_of_nonneg_right _ (two_zpow_pos _).le
          exact_mod_cast significand_pos hi
    linarith
  -- the exact decimal of the rank stops the search
  obtain ⟨t,ht⟩ := exists_scaled i (e := ((n+1074).toNat : ℤ)-n) (by omega)
  have hsome := search_isSome (f := (n+1075).toNat) (k := 1) (candidate_isSome ht)
    (by omega) (by omega)
  obtain ⟨⟨s,k⟩,hs⟩ := Option.isSome_iff_exists.mp hsome
  obtain ⟨hc,hk⟩ := search_spec hs
  obtain ⟨hr,hor⟩ := candidate_spec hc
  obtain ⟨j,rfl⟩ : ∃ j, k = j+1 := ⟨k-1,by omega⟩
  have hscale (e : ℤ) : (10 : ℚ)^e*10^(((j+1 : ℕ) : ℤ)-n) = 10^(e+((j+1 : ℕ) : ℤ)-n) := by
    rw [← zpow_add₀ hten.ne']
    congr 1
    ring
  have hflo : (10 : ℤ)^j ≤ ⌊value i*10^(((j+1 : ℕ) : ℤ)-n)⌋ := by
    rw [Int.le_floor]
    calc (((10 : ℤ)^j : ℤ) : ℚ) = 10^(n-1+((j+1 : ℕ) : ℤ)-n) := by
          rw [show n-1+((j+1 : ℕ) : ℤ)-n = (j : ℤ) by push_cast; ring,zpow_natCast]
          norm_cast
      _ ≤ _ := by
          rw [← hscale]
          exact mul_le_mul_of_nonneg_right hlo (zpow_pos hten _).le
  have hfhi : ⌊value i*10^(((j+1 : ℕ) : ℤ)-n)⌋ < (10 : ℤ)^(j+1) := by
    rw [Int.floor_lt]
    calc value i*10^(((j+1 : ℕ) : ℤ)-n) < 10^n*10^(((j+1 : ℕ) : ℤ)-n) :=
          mul_lt_mul_of_pos_right hhi (zpow_pos hten _)
      _ = (((10 : ℤ)^(j+1) : ℤ) : ℚ) := by
          rw [hscale,show n+((j+1 : ℕ) : ℤ)-n = ((j+1 : ℕ) : ℤ) by ring,zpow_natCast]
          norm_cast
  have hs1 : 10^j ≤ s := by zify; omega
  have hs2 : s ≤ 10^(j+1) := by zify; omega
  have hshort : shortest i =
      if s = 10^(j+1) then (10^j,j+1,n+1) else (s,j+1,n) := by
    rw [shortest]
    simp only [hn,hs,Nat.add_sub_cancel]
  by_cases hcarry : s = 10^(j+1)
  · refine ⟨10^j,j,n+1,by rw [hshort,if_pos hcarry],le_rfl,
      Nat.pow_lt_pow_right (by norm_num) (by omega),?_⟩
    rw [← hr,hcarry]
    congr 1
    push_cast
    rw [show n+1-((j : ℤ)+1) = 1+(n-((j : ℤ)+1)) by ring,zpow_add₀ hten.ne']
    ring
  · exact ⟨s,j,n,by rw [hshort,if_neg hcarry],hs1,by omega,hr⟩

/-- The head of what follows a run of digits. -/
def NoDigit (rest : JsString) : Prop := ∀ u ∈ rest.head?, isDigit u = false

theorem takeWhile_digits {ds rest : JsString} (h : ∀ u ∈ ds, isDigit u = true)
    (hr : NoDigit rest) : (ds++rest).takeWhile isDigit = ds := by
  rw [List.takeWhile_append_of_pos h]
  cases rest with
  | nil => simp
  | cons u rest => simp [hr u (by simp)]

theorem dropWhile_digits {ds rest : JsString} (h : ∀ u ∈ ds, isDigit u = true)
    (hr : NoDigit rest) : (ds++rest).dropWhile isDigit = rest := by
  rw [List.dropWhile_append_of_pos h]
  cases rest with
  | nil => simp
  | cons u rest => simp [hr u (by simp)]

theorem parseFraction_text {F rest : JsString} (hF : ∀ u ∈ F, isDigit u = true)
    (hr : NoDigit rest) (hdot : ∀ u ∈ rest.head?, u ≠ dotUnit) :
    parseFraction (fractionText F++rest) = some (F,rest) := by
  cases F with
  | nil =>
    cases rest with
    | nil => rfl
    | cons u rest => simp [fractionText,parseFraction,hdot u (by simp)]
  | cons u F =>
    simp only [fractionText,List.cons_append,parseFraction,if_true]
    rw [← List.cons_append,takeWhile_digits hF hr,dropWhile_digits hF hr]
    simp

theorem parseExponentDigits_text {ds rest : JsString} (neg : Bool) (hne : ds ≠ [])
    (h : ∀ u ∈ ds, isDigit u = true) (hr : NoDigit rest) :
    parseExponentDigits neg (ds++rest) =
      some (if neg then -(readDigits ds : ℤ) else readDigits ds,rest) := by
  rw [parseExponentDigits,takeWhile_digits h hr,dropWhile_digits h hr,if_neg hne]

theorem readDigits_nat (n : ℕ) : readDigits (digits (Nat.log 10 n+1) n) = n := by
  rw [readDigits_digits]
  exact Nat.mod_eq_of_lt (Nat.lt_pow_succ_log_self (by norm_num) n)

theorem parseExponent_text {e : ℤ} {rest : JsString} (hr : NoDigit rest) :
    parseExponent (exponentText e++rest) = some (e,rest) := by
  have hd : ∀ u ∈ digits (Nat.log 10 e.natAbs+1) e.natAbs, isDigit u = true :=
    isDigit_of_mem_digits _ _
  have hne : digits (Nat.log 10 e.natAbs+1) e.natAbs ≠ [] := by simp [digits]
  simp only [exponentText,List.cons_append,parseExponent,true_or,if_true]
  by_cases he : e < 0
  · rw [if_pos he,if_pos rfl,parseExponentDigits_text _ hne hd hr,readDigits_nat,if_pos rfl,
      show -(e.natAbs : ℤ) = e by omega]
  · rw [if_neg he,if_neg (by decide),if_pos rfl,parseExponentDigits_text _ hne hd hr,
      readDigits_nat,if_neg (by simp),show (e.natAbs : ℤ) = e by omega]

theorem parseExponent_ends {rest : JsString} (h : Ends rest) :
    parseExponent rest = some (0,rest) := by
  cases rest with
  | nil => rfl
  | cons u rest =>
    have hu := h u (by simp)
    simp [parseExponent,hu.2.2.1,hu.2.2.2]

/-- Reading an integer part, a fraction and whatever exponent follows. -/
theorem parseMag_text {I F r r' : JsString} {e : ℤ} (hne : I ≠ [])
    (hI : ∀ u ∈ I, isDigit u = true) (hlead : I.head? = some zeroUnit → I.length = 1)
    (hF : ∀ u ∈ F, isDigit u = true) (hr : NoDigit r)
    (hdot : ∀ u ∈ r.head?, u ≠ dotUnit) (he : parseExponent r = some (e,r')) :
    parseMag (I++(fractionText F++r)) =
      some ((readDigits (I++F) : ℚ)*10^(e-F.length),r') := by
  have hfr : NoDigit (fractionText F++r) := by
    cases F with
    | nil => exact hr
    | cons u F =>
      intro v hv
      obtain rfl : dotUnit = v := by simpa [fractionText] using hv
      decide
  have hlead' : ¬(I = [] ∨ I.head? = some zeroUnit ∧ I.length ≠ 1) := by
    rintro (h | ⟨h1,h2⟩)
    · exact hne h
    · exact h2 (hlead h1)
  simp only [parseMag,takeWhile_digits hI hfr,dropWhile_digits hI hfr,if_neg hlead',
    parseFraction_text hF hr hdot,Option.bind_eq_bind,Option.bind_some,he]

theorem Ends.noDigit {rest : JsString} (h : Ends rest) : NoDigit rest := fun u hu => (h u hu).1

theorem Ends.noDot {rest : JsString} (h : Ends rest) : ∀ u ∈ rest.head?, u ≠ dotUnit :=
  fun u hu => (h u hu).2.1

theorem parseMag_layout {s k : ℕ} (n : ℤ) {rest : JsString} (hlo : 10^k ≤ s)
    (hhi : s < 10^(k+1)) (hr : Ends rest) :
    parseMag (layout s (k+1) n++rest) = some ((s : ℚ)*10^(n-(k+1 : ℕ)),rest) := by
  have hds := isDigit_of_mem_digits (k+1) s
  have hlen := digits_length (k+1) s
  have hread : readDigits (digits (k+1) s) = s := by
    rw [readDigits_digits,Nat.mod_eq_of_lt hhi]
  have hhead := head_digits hlo hhi
  have hzeros (m : ℕ) : ∀ u ∈ List.replicate m zeroUnit, isDigit u = true := by
    intro u hu
    obtain rfl := (List.mem_replicate.mp hu).2
    decide
  unfold layout
  dsimp only
  generalize digits (k+1) s = ds at *
  have hne : ds ≠ [] := by
    rintro rfl
    simp at hlen
  have hhead_take (m : ℕ) (hm : 0 < m) : (ds.take m).head? ≠ some zeroUnit := by
    cases ds with
    | nil => exact absurd rfl hne
    | cons u ds =>
      obtain ⟨m,rfl⟩ : ∃ j, m = j+1 := ⟨m-1,by omega⟩
      simpa using hhead
  split_ifs with h1 h2 h3
  · -- an integer, padded with zeros
    have h := parseMag_text (I := ds++List.replicate (n-(k+1 : ℕ)).toNat zeroUnit) (F := [])
      (by simp [hne]) (by
        intro u hu
        rcases List.mem_append.mp hu with hu | hu
        · exact hds u hu
        · exact hzeros _ u hu)
      (by rw [List.head?_append_of_ne_nil _ hne]; exact fun h => absurd h hhead)
      (by simp) hr.noDigit hr.noDot (parseExponent_ends hr)
    rw [fractionText,List.nil_append] at h
    rw [h,List.append_nil,readDigits_append,hread,readDigits_zeros,List.length_replicate]
    congr 2
    push_cast
    rw [← zpow_natCast,Int.toNat_of_nonneg (by omega)]
    simp
  · -- the point inside the digits
    have h := parseMag_text (I := ds.take n.toNat) (F := ds.drop n.toNat) (r := rest)
      (by rw [ne_eq,List.take_eq_nil_iff]; rintro (h0 | h0); omega; exact hne h0)
      (fun u hu => hds u (List.mem_of_mem_take hu))
      (fun h0 => absurd h0 (hhead_take _ (by omega)))
      (fun u hu => hds u (List.mem_of_mem_drop hu)) hr.noDigit hr.noDot (parseExponent_ends hr)
    have he : 0-((k+1-n.toNat : ℕ) : ℤ) = n-(k+1 : ℕ) := by omega
    rw [List.append_assoc,h,List.take_append_drop,hread,List.length_drop,hlen,he]
  · -- leading zeros after the point
    have h := parseMag_text (I := [zeroUnit]) (F := List.replicate (-n).toNat zeroUnit++ds)
      (r := rest) (by simp) (forall_of_all (by decide)) (by simp)
      (by
        intro u hu
        rcases List.mem_append.mp hu with hu | hu
        · exact hzeros _ u hu
        · exact hds u hu) hr.noDigit hr.noDot (parseExponent_ends hr)
    rw [List.singleton_append] at h
    have he : 0-(((-n).toNat+(k+1) : ℕ) : ℤ) = n-(k+1 : ℕ) := by omega
    have hz : [zeroUnit]++List.replicate (-n).toNat zeroUnit =
      List.replicate ((-n).toNat+1) zeroUnit := rfl
    rw [List.cons_append,h,← List.append_assoc,hz,readDigits_append,readDigits_zeros,hread,List.length_append,List.length_replicate,hlen,zero_mul,zero_add,he]
  · -- an exponent
    have hexp : ∀ u ∈ (exponentText (n-1)++rest).head?, u = expUnit := by
      intro u hu
      simpa [exponentText,eq_comm] using hu
    have h := parseMag_text (I := ds.take 1) (F := ds.drop 1) (r := exponentText (n-1)++rest)
      (by rw [ne_eq,List.take_eq_nil_iff]; rintro (h0 | h0); omega; exact hne h0)
      (fun u hu => hds u (List.mem_of_mem_take hu))
      (fun h0 => absurd h0 (hhead_take _ (by omega)))
      (fun u hu => hds u (List.mem_of_mem_drop hu))
      (by intro u hu; rw [hexp u hu]; decide) (by intro u hu; rw [hexp u hu]; decide)
      (parseExponent_text hr.noDigit)
    have he : n-1-((k+1-1 : ℕ) : ℤ) = n-(k+1 : ℕ) := by omega
    rw [List.append_assoc,List.append_assoc,h,List.take_append_drop,hread,List.length_drop,hlen,he]

/-- Reading the text of a positive magnitude rounds back to it. -/
theorem parseMag_magText (i : ℕ) {rest : JsString} (hr : Ends rest) :
    ∃ q, parseMag (magText i++rest) = some (q,rest) ∧ rank q = i := by
  by_cases hi : i = 0
  · have h := parseMag_text (I := [zeroUnit]) (F := []) (r := rest) (by simp)
      (forall_of_all (by decide)) (by simp) (by simp) hr.noDigit hr.noDot (parseExponent_ends hr)
    refine ⟨0,?_,by simp [rank,hi]⟩
    rw [magText,if_pos hi]
    simpa [fractionText,readDigits,zeroUnit] using h
  · obtain ⟨s,k,n,hs,hlo,hhi,hrank⟩ := shortest_spec (Nat.pos_of_ne_zero hi)
    refine ⟨_,?_,hrank⟩
    rw [magText,if_neg hi,hs]
    exact parseMag_layout n hlo hhi hr

theorem head_digits_isDigit {k s : ℕ} (hk : 0 < k) : ∃ u ds, digits k s = u::ds ∧ isDigit u := by
  have hm := isDigit_of_mem_digits k s
  have hl := digits_length k s
  cases h : digits k s with
  | nil => simp [h] at hl; omega
  | cons u ds => exact ⟨u,ds,rfl,hm u (by simp [h])⟩

/-- The text of a magnitude starts with a digit. -/
theorem magText_head (i : ℕ) : ∃ u ds, magText i = u::ds ∧ isDigit u := by
  by_cases hi : i = 0
  · exact ⟨zeroUnit,[],by rw [magText,if_pos hi],by decide⟩
  · obtain ⟨s,k,n,hs,-⟩ := shortest_spec (Nat.pos_of_ne_zero hi)
    obtain ⟨u,ds,hd,hu⟩ := head_digits_isDigit (s := s) (Nat.succ_pos k)
    rw [magText,if_neg hi,hs]
    unfold layout
    simp only [hd]
    split_ifs with h1 h2 h3
    · exact ⟨u,_,rfl,hu⟩
    · obtain ⟨m,hm⟩ : ∃ j, n.toNat = j+1 := ⟨n.toNat-1,by omega⟩
      rw [hm]
      exact ⟨u,_,rfl,hu⟩
    · exact ⟨zeroUnit,_,rfl,by decide⟩
    · exact ⟨u,_,rfl,hu⟩

/-- Reading the text of a finite number returns the number, a zero without its sign. -/
theorem parse_toText {x : Number} (hx : x.isFinite) {rest : JsString} (hr : Ends rest) :
    parse (toText x++rest) = some (x.dropNegZero,rest) := by
  cases x with
  | fin neg i =>
    obtain ⟨q,hq,hrank⟩ := parseMag_magText i.val hr
    have hof (b : Bool) : Number.ofMag b q = .fin b i := by
      rw [Number.ofMag,dif_pos (by rw [hrank]; exact i.isLt)]
      congr 1
      exact Fin.ext hrank
    rw [toText,Number.dropNegZero]
    cases hn : neg && i.val != 0 with
    | true => simp [parse,hq,hof]
    | false =>
      obtain ⟨u,ds,hu,hd⟩ := magText_head i.val
      have hm : u ≠ minusUnit := by
        rintro rfl
        revert hd
        decide
      rw [hu,List.cons_append] at hq
      simp [hu,parse,hm,hq,hof]
  | _ => simp [Number.isFinite] at hx

theorem digits_append {s t : JsString} (h : s.dropWhile isDigit ≠ []) :
    (s++t).takeWhile isDigit = s.takeWhile isDigit ∧
      (s++t).dropWhile isDigit = s.dropWhile isDigit++t := by
  constructor
  · rw [List.takeWhile_append,if_neg]
    intro hl
    have := congrArg List.length (List.takeWhile_append_dropWhile (p := isDigit) (l := s))
    rw [List.length_append] at this
    exact h (List.eq_nil_of_length_eq_zero (by omega))
  · rw [List.dropWhile_append,if_neg (by simpa using h)]

/-- A reader that leaves something unread consumes no more of a longer text. -/
def Stable {α : Type} (read : JsString → Option (α × JsString)) : Prop :=
  ∀ s v r, read s = some (v,r) →
    r.length ≤ s.length ∧ (r ≠ [] → ∀ t, read (s++t) = some (v,r++t))

theorem parseFraction_stable : Stable parseFraction := by
  intro s v r h
  cases s with
  | nil => simp_all [parseFraction]
  | cons u s =>
    rw [parseFraction] at h
    by_cases hu : u = dotUnit
    · rw [if_pos hu] at h
      by_cases hd : s.takeWhile isDigit = []
      · simp [hd] at h
      · simp only [if_neg hd,Option.some.injEq,Prod.mk.injEq] at h
        obtain ⟨rfl,rfl⟩ := h
        refine ⟨(List.length_dropWhile_le ..).trans (by simp),fun hr t => ?_⟩
        obtain ⟨h1,h2⟩ := digits_append (t := t) hr
        simp [parseFraction,hu,h1,h2,hd]
    · simp only [if_neg hu,Option.some.injEq,Prod.mk.injEq] at h
      obtain ⟨rfl,rfl⟩ := h
      exact ⟨le_rfl,fun _ t => by simp [parseFraction,hu]⟩

theorem parseExponentDigits_stable (neg : Bool) : Stable (parseExponentDigits neg) := by
  intro s v r h
  rw [parseExponentDigits] at h
  by_cases hd : s.takeWhile isDigit = []
  · simp [hd] at h
  · simp only [if_neg hd,Option.some.injEq,Prod.mk.injEq] at h
    obtain ⟨rfl,rfl⟩ := h
    refine ⟨List.length_dropWhile_le ..,fun hr t => ?_⟩
    obtain ⟨h1,h2⟩ := digits_append (t := t) hr
    simp [parseExponentDigits,h1,h2,hd]

theorem parseExponent_stable : Stable parseExponent := by
  intro s v r h
  cases s with
  | nil => simp_all [parseExponent]
  | cons u s =>
    unfold parseExponent at h
    dsimp only at h
    by_cases hu : u = expUnit ∨ u = expUpperUnit
    · rw [if_pos hu] at h
      cases s with
      | nil => simp at h
      | cons w s =>
        simp only [List.cons_append,parseExponent,if_pos hu]
        dsimp only at h
        by_cases h1 : w = minusUnit
        · simp only [if_pos h1] at h ⊢
          obtain ⟨hl,ht⟩ := parseExponentDigits_stable true s v r h
          exact ⟨by simp; omega,ht⟩
        · by_cases h2 : w = plusUnit
          · simp only [if_neg h1,if_pos h2] at h ⊢
            obtain ⟨hl,ht⟩ := parseExponentDigits_stable false s v r h
            exact ⟨by simp; omega,ht⟩
          · simp only [if_neg h1,if_neg h2] at h ⊢
            obtain ⟨hl,ht⟩ := parseExponentDigits_stable false (w::s) v r h
            exact ⟨by simp at hl ⊢; omega,ht⟩
    · simp only [if_neg hu,Option.some.injEq,Prod.mk.injEq] at h
      obtain ⟨rfl,rfl⟩ := h
      exact ⟨le_rfl,fun _ t => by simp [parseExponent,hu]⟩

theorem parseMag_stable {s r : JsString} {q : ℚ} (h : parseMag s = some (q,r)) :
    s.takeWhile isDigit ≠ [] ∧ r.length < s.length ∧
      (r ≠ [] → ∀ t, parseMag (s++t) = some (q,r++t)) := by
  have hsum := congrArg List.length (List.takeWhile_append_dropWhile (p := isDigit) (l := s))
  rw [List.length_append] at hsum
  simp only [parseMag] at h
  split_ifs at h with hint
  simp only [Option.bind_eq_bind,Option.bind_eq_some_iff,Option.some.injEq,Prod.mk.injEq,
    Prod.exists] at h
  obtain ⟨F,r',hF,e,r'',he,rfl,rfl⟩ := h
  obtain ⟨hFl,hFt⟩ := parseFraction_stable _ _ _ hF
  obtain ⟨hel,het⟩ := parseExponent_stable _ _ _ he
  push Not at hint
  have hpos := List.length_pos_of_ne_nil hint.1
  refine ⟨hint.1,by omega,fun hr t => ?_⟩
  have hr' : r' ≠ [] := by
    rintro rfl
    exact hr (List.eq_nil_of_length_eq_zero (by simpa using hel))
  have hd : s.dropWhile isDigit ≠ [] := by
    intro hd
    rw [hd] at hFl
    exact hr' (List.eq_nil_of_length_eq_zero (by simpa using hFl))
  obtain ⟨h1,h2⟩ := digits_append (t := t) hd
  have hint' : ¬(s.takeWhile isDigit = [] ∨
      (s.takeWhile isDigit).head? = some zeroUnit ∧ (s.takeWhile isDigit).length ≠ 1) := by
    push Not
    exact hint
  simp only [parseMag,h1,h2,if_neg hint',hFt hr' t,het hr t,Option.bind_eq_bind,
    Option.bind_some]

/-- What reading a number consumes: it starts with a digit or a minus sign, takes
at least one unit and, before further text, no more than it takes there. -/
theorem parse_stable {u : UInt16} {s r : JsString} {x : Number}
    (h : parse (u::s) = some (x,r)) :
    (u = minusUnit ∨ isDigit u) ∧ r.length < (u::s).length ∧
      (r ≠ [] → ∀ t, parse (u::s++t) = some (x,r++t)) := by
  rw [parse] at h
  by_cases hu : u = minusUnit
  · simp only [if_pos hu,Option.map_eq_some_iff,Prod.mk.injEq,Prod.exists] at h
    obtain ⟨q,r',hq,rfl,rfl⟩ := h
    obtain ⟨-,hl,ht⟩ := parseMag_stable hq
    exact ⟨.inl hu,by simp; omega,fun hr t => by simp [parse,hu,ht hr t]⟩
  · simp only [if_neg hu,Option.map_eq_some_iff,Prod.mk.injEq,Prod.exists] at h
    obtain ⟨q,r',hq,rfl,rfl⟩ := h
    obtain ⟨hd,hl,ht⟩ := parseMag_stable hq
    have hdig : isDigit u = true := by
      by_contra hn
      simp [hn] at hd
    refine ⟨.inr hdig,hl,fun hr t => ?_⟩
    have htt := ht hr t
    rw [List.cons_append] at htt
    simp [parse,hu,htt]

theorem isDigit_ascii {u : UInt16} (h : isDigit u = true) : u ≠ 0 ∧ u.toNat < 128 := by
  rw [isDigit,decide_eq_true_eq] at h
  refine ⟨?_,by omega⟩
  rintro rfl
  simp at h

theorem fractionText_ascii {ds : JsString} (h : ∀ u ∈ ds, u ≠ 0 ∧ u.toNat < 128) :
    ∀ u ∈ fractionText ds, u ≠ 0 ∧ u.toNat < 128 := by
  cases ds with
  | nil => simp [fractionText]
  | cons d ds =>
    intro u hu
    rcases List.mem_cons.mp hu with rfl | hu
    · decide
    · exact h u hu

theorem layout_ascii (s k : ℕ) (n : ℤ) : ∀ u ∈ layout s k n, u ≠ 0 ∧ u.toNat < 128 := by
  have hds (k s : ℕ) : ∀ u ∈ digits k s, u ≠ 0 ∧ u.toNat < 128 := fun u hu =>
    isDigit_ascii (isDigit_of_mem_digits k s u hu)
  have hzeros (m : ℕ) : ∀ u ∈ List.replicate m zeroUnit, u ≠ 0 ∧ u.toNat < 128 := by
    intro u hu
    rw [List.eq_of_mem_replicate hu]
    decide
  have hexp (e : ℤ) : ∀ u ∈ exponentText e, u ≠ 0 ∧ u.toNat < 128 := by
    intro u hu
    simp only [exponentText,List.mem_cons] at hu
    rcases hu with rfl | rfl | hu
    · decide
    · split <;> decide
    · exact hds _ _ u hu
  unfold layout
  dsimp only
  split_ifs
  · exact List.forall_mem_append.mpr ⟨hds k s,hzeros _⟩
  · exact List.forall_mem_append.mpr ⟨fun u hu => hds k s u (List.mem_of_mem_take hu),
      fractionText_ascii fun u hu => hds k s u (List.mem_of_mem_drop hu)⟩
  · exact List.forall_mem_cons.mpr ⟨by decide,
      fractionText_ascii (List.forall_mem_append.mpr ⟨hzeros _,hds k s⟩)⟩
  · exact List.forall_mem_append.mpr ⟨List.forall_mem_append.mpr
      ⟨fun u hu => hds k s u (List.mem_of_mem_take hu),
        fractionText_ascii fun u hu => hds k s u (List.mem_of_mem_drop hu)⟩,hexp _⟩

theorem toText_ascii (x : Number) : ∀ u ∈ toText x, u ≠ 0 ∧ u.toNat < 128 := by
  have hmag (i : ℕ) : ∀ u ∈ magText i, u ≠ 0 ∧ u.toNat < 128 := by
    rw [magText]
    split_ifs
    · exact forall_of_all (by decide)
    · exact layout_ascii _ _ _
  cases x with
  | nan => exact forall_of_all (by decide)
  | inf neg => cases neg <;> exact forall_of_all (by decide)
  | fin neg i =>
    rw [toText]
    split_ifs
    · exact List.forall_mem_cons.mpr ⟨by decide,hmag i⟩
    · exact hmag i

end NumberText
end Semp
