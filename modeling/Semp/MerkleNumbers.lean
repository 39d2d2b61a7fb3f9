import Semp.Merkle
import Semp.MerkleLength
import Semp.NumberOrder

/-! The Merkle verifiers on any numbers.  The guards compare the numbers as they are, the
loops shift and mask 32 bits of them, so a size that is not an integer, or too large, is
walked as another one.  An accepted path has the length of that walk. -/
namespace Semp

namespace Number

/-- The natural number that a number is, the negative zero included. -/
def IsNat (x : Number) (n : ℕ) : Prop := x.isFinite ∧ x.toRat = n

theorem toUint32_lt (x : Number) : x.toUint32 < 2^32 := by
  cases x with
  | fin neg i =>
    have hpos : (0 : ℤ) < 2^32 := by norm_num
    have hlt := Int.emod_lt_of_pos (if neg then -⌊Binary64.value i⌋ else ⌊Binary64.value i⌋) hpos
    have hge := Int.emod_nonneg (if neg then -⌊Binary64.value i⌋ else ⌊Binary64.value i⌋) hpos.ne'
    rw [toUint32]
    omega
  | _ => exact Nat.two_pow_pos 32

/-- Equal numbers have the same bits. -/
theorem toUint32_of_eq {x y : Number} (h : x.eq y = true) : x.toUint32 = y.toUint32 := by
  cases x with
  | nan => cases h
  | inf a => cases y <;> first | rfl | cases h
  | fin a i =>
    cases y with
    | fin b j =>
      obtain ⟨rfl,rfl | hzero⟩ := toRat_eq_iff.mp (of_decide_eq_true h)
      · rfl
      · simp [toUint32,hzero]
    | _ => cases h

theorem IsNat.eq {x : Number} {n : ℕ} (h : x.IsNat n) (hn : n < 2^53) : x.eq (ofNat n) = true := by
  rw [eq_fin h.1 (isFinite_ofNat hn),h.2,toRat_ofNat hn,decide_eq_true rfl]

theorem IsNat.eq_ofNat {x : Number} {n : ℕ} (h : x.IsNat n) (hn : n < 2^53) (hpos : 0 < n) :
    x = ofNat n := eq_ofNat_of_toRat h.1 h.2 hn hpos

end Number

namespace Merkle
open MerkleTree

/-- The hashes that the loop of a verifier takes.  The first round sees the numbers, the
later ones what 32 bits keep of them. -/
def walk (fn sn : Number) : ℕ :=
  if Number.lt (.ofNat 0) sn then
    if fn.toUint32%2 = 1 ∨ fn.eq sn = false then rounds (fn.toUint32/2) (sn.toUint32/2)+1
    else max 1 (rounds sn.toUint32 sn.toUint32)
  else 0

section Loops
variable (C : Crypto)

theorem rounds_double {k : ℕ} (hk : 0 < k) (t : ℕ) : rounds (k*2^t) (k*2^t) = rounds k k := by
  induction t with
  | zero => simp
  | succ t ih =>
    have hpos := Nat.mul_pos hk (Nat.two_pow_pos t)
    rw [pow_succ,← mul_assoc,rounds,if_neg (by omega),if_neg (by omega),if_pos rfl,
      Nat.mul_div_cancel _ (by norm_num),ih]

/-- Equal indices that are even are shifted to equal ones. -/
theorem shiftEven_of_eq {fn sn : Number} (h0 : fn.eq (.ofNat 0) = false) (heven : fn.toUint32%2 = 0)
    (heq : fn.eq sn = true) : ∃ k, k < 2^32 ∧ shiftEven shiftBound fn sn = (.ofNat k,.ofNat k) ∧
      max 1 (rounds sn.toUint32 sn.toUint32) = rounds (k/2) (k/2)+1 := by
  have hsame := Number.toUint32_of_eq heq
  have hlt := Number.toUint32_lt sn
  have hshift : shiftEven shiftBound fn sn =
      shiftEven 32 (.ofNat (sn.toUint32/2)) (.ofNat (sn.toUint32/2)) := by
    have heven' : fn.and1.eq (.ofNat 0) = true := by
      rw [Number.and1_eq fn (by norm_num),decide_eq_true heven]
    rw [shiftBound,shiftEven,h0,heven',Number.shr1,Number.shr1,hsame]
    rfl
  rw [hsame] at heven
  by_cases hzero : sn.toUint32 = 0
  · refine ⟨0,by norm_num,?_,by rw [hzero]; simp [rounds]⟩
    rw [hshift,hzero,shiftEven,Number.eq_ofNat (by norm_num) (by norm_num)]
    rfl
  · obtain ⟨k,t,hk,hodd,hs⟩ := shiftEven_same 32 (m := sn.toUint32/2) (by omega) (by omega) (by omega)
    have hle : k ≤ sn.toUint32/2 := by
      rw [hk]
      exact Nat.le_mul_of_pos_right k (Nat.two_pow_pos t)
    have hdouble : sn.toUint32 = k*2^(t+1) := by
      rw [pow_succ,← mul_assoc,← hk]
      omega
    have hrounds : rounds k k = rounds (k/2) (k/2)+1 := by
      rw [rounds,if_neg (by omega),if_pos hodd]
    refine ⟨k,by omega,hshift.trans hs,?_⟩
    rw [hdouble,rounds_double (by omega),hrounds]
    omega

/-- The loop of the inclusion verifier ends well on paths of one length. -/
theorem inclusionLoop_isSome (fn sn : Number) (r : Digest) (path : List Digest) :
    (inclusionLoop C fn sn r path).toOption.isSome ↔ path.length = walk fn sn := by
  have hrest (a b : ℕ) (ha : a < 2^32) (hb : b < 2^32) (r : Digest) (rest : List Digest) :
      (inclusionLoop C (.ofNat a) (.ofNat b) r rest).toOption.isSome ↔ rest.length = rounds a b := by
    rw [inclusionLoop_eq C ha hb,climb_isSome]
  have hf := Number.toUint32_lt fn
  have hs := Number.toUint32_lt sn
  rw [walk]
  by_cases hlt : Number.lt (.ofNat 0) sn = true
  · rw [if_pos hlt]
    cases path with
    | nil =>
      rw [inclusionLoop,if_pos hlt]
      simp only [raise,Except.toOption,Option.isSome_none,Bool.false_eq_true,false_iff]
      split_ifs <;> simp
      omega
    | cons s rest =>
      rw [inclusionLoop,if_pos hlt,Number.and1_eq fn (by norm_num)]
      by_cases hodd : fn.toUint32%2 = 1
      · rw [if_pos (by simp [hodd]),shiftEven_of_odd hodd,if_pos (.inl hodd)]
        simp only [Number.shr1]
        rw [hrest _ _ (by omega) (by omega),List.length_cons,Nat.add_right_cancel_iff]
      cases heq : fn.eq sn with
      | false =>
        rw [if_neg (by simp [hodd]),if_pos (.inr rfl)]
        simp only [Number.shr1]
        rw [hrest _ _ (by omega) (by omega),List.length_cons,Nat.add_right_cancel_iff]
      | true =>
        have h0 : fn.eq (.ofNat 0) = false := by
          rw [← Bool.not_eq_true]
          intro hzero
          have := Number.eq_trans (Number.eq_symm heq) hzero
          rw [Number.not_eq_of_lt hlt] at this
          cases this
        obtain ⟨k,hk,hshift,hrounds⟩ := shiftEven_of_eq h0 (by omega) heq
        rw [if_pos (by simp),hshift,if_neg (by simp [hodd]),hrounds]
        simp only [Number.shr1]
        rw [Number.toUint32_ofNat (by omega),Nat.mod_eq_of_lt hk,hrest _ _ (by omega) (by omega),
          List.length_cons,Nat.add_right_cancel_iff]
  · rw [if_neg hlt]
    cases path with
    | nil =>
      rw [inclusionLoop,if_neg hlt]
      simp [Except.toOption]
    | cons s rest =>
      rw [inclusionLoop,if_neg hlt]
      simp [raise,Except.toOption]

/-- Both loops end well on the same paths. -/
theorem consistencyLoop_isSome (fn sn : Number) (fr sr r : Digest) (path : List Digest) :
    (consistencyLoop C fn sn fr sr path).toOption.isSome =
      (inclusionLoop C fn sn r path).toOption.isSome := by
  induction path generalizing fn sn fr sr r with
  | nil =>
    rw [consistencyLoop,inclusionLoop]
    split_ifs <;> simp [raise,Except.toOption]
  | cons c rest ih =>
    rw [consistencyLoop,inclusionLoop]
    split_ifs
    · exact ih _ _ _ _ _
    · exact ih _ _ _ _ _
    · simp [raise,Except.toOption]

/-- While its first index is zero, the loop leaves the first root. -/
theorem consistencyLoop_first {fn sn : Number} {fr sr a b : Digest} {path : List Digest}
    (h0 : fn.eq (.ofNat 0) = true) (h : consistencyLoop C fn sn fr sr path = .ok (a,b)) : a = fr := by
  induction path generalizing fn sn sr with
  | nil =>
    rw [consistencyLoop] at h
    split_ifs at h
    · cases h
    · cases h
      rfl
  | cons c rest ih =>
    have hzero : fn.toUint32 = 0 := by
      rw [Number.toUint32_of_eq h0,Number.toUint32_ofNat (by norm_num)]
      rfl
    rw [consistencyLoop] at h
    split_ifs at h with hlt hround
    · rw [Number.and1_eq fn (by norm_num),hzero] at hround
      have heq : fn.eq sn = true := by simpa using hround
      have := Number.eq_trans (Number.eq_symm heq) h0
      rw [Number.not_eq_of_lt hlt] at this
      cases this
    · refine ih ?_ h
      rw [Number.shr1,hzero,Number.eq_ofNat (by norm_num) (by norm_num)]
      rfl
    · cases h

/-- The hashes that `computeRootsFromConsistency` takes. -/
def prefixWalk (fn sn : Number) : ℕ :=
  if fn.toUint32%2 = 1 then prefixRounds fn.toUint32 sn.toUint32
  else if fn.eq (.ofNat 0) then walk fn sn
  else walk fn sn+1

theorem toOption_isSome {α : Type} {x : Js α} : x.toOption.isSome ↔ ∃ a, x = .ok a := by
  cases x <;> simp [Except.toOption]

theorem shiftOdd_of_even {fn : Number} (h : fn.toUint32%2 ≠ 1) (fuel : ℕ) (sn : Number) :
    shiftOdd fuel fn sn = (fn,sn) := by
  cases fuel with
  | zero => rfl
  | succ fuel =>
    rw [shiftOdd,Number.and1_eq fn (by norm_num)]
    simp [h]

/-- On integers of 32 bits the loop walks the levels. -/
theorem walk_ofNat {a b : ℕ} (ha : a < 2^32) (hb : b < 2^32) :
    walk (.ofNat a) (.ofNat b) = rounds a b := by
  rw [walk,Number.lt_ofNat (by norm_num) (by omega),Number.eq_ofNat (by omega) (by omega),
    Number.toUint32_ofNat (by omega),Number.toUint32_ofNat (by omega),Nat.mod_eq_of_lt ha,
    Nat.mod_eq_of_lt hb]
  by_cases h0 : b = 0
  · simp [h0,rounds]
  rw [if_pos (by simp; omega),rounds.eq_def a b,if_neg h0]
  by_cases hodd : a%2 = 1
  · rw [if_pos (.inl hodd),if_pos hodd]
  rw [if_neg hodd]
  by_cases heq : a = b
  · subst heq
    have hpos := rounds_pos (Nat.pos_of_ne_zero h0)
    rw [if_neg (by simp [hodd]),if_pos rfl]
    rw [rounds,if_neg h0,if_neg hodd,if_pos rfl] at hpos ⊢
    omega
  · rw [if_pos (.inr (by simpa using heq)),if_neg heq]

/-- What `computeRootsFromConsistency` does once the first loop left the indices `fn` and `sn`. -/
def rootsAfter (fn sn : Number) (firstRoot : Digest) (path : List Digest) : Js (Digest × Digest) :=
  if !fn.eq (.ofNat 0) then
    match path with
    | [] => raise (js "transparency: consistency proof too short")
    | c::rest => consistencyLoop C fn sn c c rest
  else consistencyLoop C fn sn firstRoot firstRoot path

/-- Some roots are computed from the first of them exactly for paths of one length. -/
theorem computeRoots_iff (m n : Number) (path : List Digest) :
    (∃ r r', computeRootsFromConsistency C m n r path = .ok (r,r')) ↔
      path.length = prefixWalk (m.sub (.ofNat 1)) (n.sub (.ofNat 1)) := by
  have hloop (fn sn : Number) (fr sr : Digest) (path : List Digest) :
      (∃ q, consistencyLoop C fn sn fr sr path = .ok q) ↔ path.length = walk fn sn := by
    rw [← toOption_isSome,consistencyLoop_isSome C fn sn fr sr fr path,inclusionLoop_isSome]
  have hafter (fn sn : Number) : (∃ r r', rootsAfter C fn sn r path = .ok (r,r')) ↔
      path.length = if fn.eq (.ofNat 0) then walk fn sn else walk fn sn+1 := by
    unfold rootsAfter
    cases h0 : fn.eq (.ofNat 0) with
    | true =>
      simp only [Bool.not_true,Bool.false_eq_true,if_false,if_true]
      constructor
      · rintro ⟨r,r',h⟩
        exact (hloop fn sn r r path).mp ⟨_,h⟩
      · intro hlen
        obtain ⟨⟨a,b⟩,h⟩ := (hloop fn sn zeroDigest zeroDigest path).mpr hlen
        obtain rfl := consistencyLoop_first C h0 h
        exact ⟨_,b,h⟩
    | false =>
      simp only [Bool.not_false,if_true,Bool.false_eq_true,if_false]
      cases path with
      | nil => simp [raise]
      | cons c rest =>
        rw [List.length_cons,Nat.add_right_cancel_iff,← hloop fn sn c c rest]
        constructor
        · rintro ⟨r,r',h⟩
          exact ⟨_,h⟩
        · rintro ⟨⟨a,b⟩,h⟩
          exact ⟨a,b,h⟩
  refine (hafter (shiftOdd shiftBound (m.sub (.ofNat 1)) (n.sub (.ofNat 1))).1
    (shiftOdd shiftBound (m.sub (.ofNat 1)) (n.sub (.ofNat 1))).2).trans ?_
  generalize m.sub (.ofNat 1) = fn
  generalize n.sub (.ofNat 1) = sn
  have hf := Number.toUint32_lt fn
  have hs := Number.toUint32_lt sn
  rw [prefixWalk]
  by_cases hodd : fn.toUint32%2 = 1
  · have hshift : shiftOdd shiftBound fn sn =
        shiftOdd 32 (.ofNat (fn.toUint32/2)) (.ofNat (sn.toUint32/2)) := by
      rw [shiftBound,shiftOdd,Number.and1_eq fn (by norm_num),if_pos (by simpa using hodd)]
      rfl
    obtain ⟨a,b,hab,heven,ha,hb,hc⟩ := shiftOdd_eq C 32 (fn.toUint32/2) (sn.toUint32/2) (by omega)
      (by omega) (by omega)
    have hclimb : prefixRounds (fn.toUint32/2) (sn.toUint32/2) = prefixRounds a b := by
      have hpath : (List.replicate (prefixRounds a b) zeroDigest).length = prefixRounds a b :=
        List.length_replicate
      have hsome : (climbPrefix (hashInterior C) a b zeroDigest _).isSome :=
        climbPrefix_isSome.mpr hpath
      rw [← hc] at hsome
      rw [← climbPrefix_isSome.mp hsome,hpath]
    rw [if_pos hodd,prefixRounds.eq_def fn.toUint32,if_pos hodd,hclimb,hshift,hab]
    dsimp only
    rw [walk_ofNat (by omega) (by omega),Number.eq_ofNat (by omega) (by norm_num),
      prefixRounds.eq_def a b,if_neg (show ¬ a%2 = 1 by omega)]
    by_cases h0 : a = 0
    · simp [h0]
    · simp [h0]
  · rw [if_neg hodd,shiftOdd_of_even hodd]

end Loops

/-- A text of 32 bytes in base64. -/
def Decodable (s : JsString) : Prop := (Base64.decode s).length = 32

theorem decodeHash_ok {s : JsString} : (∃ d, decodeHash s = .ok d) ↔ Decodable s := by
  unfold decodeHash Decodable
  split_ifs with h <;> simp [h,raise]

theorem decodeHashesFrom_cons {i : ℕ} {item : JsString} {items : List JsString}
    {ds : List Digest} : decodeHashesFrom i (item::items) = .ok ds ↔ ∃ d rest,
      decodeHash item = .ok d ∧ decodeHashesFrom (i+1) items = .ok rest ∧ ds = d::rest := by
  rw [decodeHashesFrom]
  cases hd : decodeHash item with
  | error e => cases e <;> simp [raise]
  | ok d => cases decodeHashesFrom (i+1) items <;> simp [Except.map,eq_comm]

theorem decodeHashesFrom_ok {i : ℕ} {items : List JsString} :
    (∃ ds, decodeHashesFrom i items = .ok ds) ↔ ∀ s ∈ items, Decodable s := by
  induction items generalizing i with
  | nil => simp [decodeHashesFrom]
  | cons item items ih =>
    rw [List.forall_mem_cons,← decodeHash_ok,← ih (i := i+1)]
    simp only [decodeHashesFrom_cons]
    constructor
    · rintro ⟨-,d,rest,hd,hrest,-⟩
      exact ⟨⟨d,hd⟩,rest,hrest⟩
    · rintro ⟨⟨d,hd⟩,rest,hrest⟩
      exact ⟨_,d,rest,hd,hrest,rfl⟩

theorem decodeHashesFrom_length {i : ℕ} {items : List JsString} {ds : List Digest}
    (h : decodeHashesFrom i items = .ok ds) : ds.length = items.length := by
  induction items generalizing i ds with
  | nil =>
    cases h
    rfl
  | cons item items ih =>
    obtain ⟨d,rest,-,hrest,rfl⟩ := decodeHashesFrom_cons.mp h
    rw [List.length_cons,List.length_cons,ih hrest]

/-- What the checks of the inclusion verifier leave, whatever the hashes are: numbers that
pass the guards, texts of hashes, and a path with the length of the walk. -/
structure InclusionWalked (p : InclusionProof) : Prop where
  size : p.logSize.le (.ofNat 0) = false
  index : p.leafIndex.lt (.ofNat 0) = false ∧ p.logSize.le p.leafIndex = false
  leaf : Decodable p.leafHash
  path : ∀ s ∈ p.path, Decodable s
  length : p.path.length = walk p.leafIndex (p.logSize.sub (.ofNat 1))

/-- The hashes that the consistency verifier takes. -/
def consistencyWalk (m n : Number) : ℕ :=
  if m.eq n = true ∨ m.eq (.ofNat 0) = true then 0
  else prefixWalk (m.sub (.ofNat 1)) (n.sub (.ofNat 1))

structure ConsistencyWalked (p : ConsistencyProof) : Prop where
  sizes : p.fromSize.lt (.ofNat 0) = false ∧ p.toSize.lt (.ofNat 0) = false
  order : p.toSize.lt p.fromSize = false
  path : ∀ s ∈ p.path, Decodable s
  length : p.path.length = consistencyWalk p.fromSize p.toSize

section Verdicts
variable (C : Crypto)

theorem inclusion_accepts {p : InclusionProof} :
    (∃ root, verifyInclusionProof C p root = true) ↔ InclusionWalked p := by
  constructor
  · rintro ⟨root,h⟩
    rw [verifyInclusionProof] at h
    split_ifs at h with hsize hindex
    rcases hleaf : decodeHash p.leafHash with e | leaf
    · simp [hleaf] at h
    rcases hpath : decodeHashes p.path with e | siblings
    · simp [hleaf,hpath] at h
    rcases hroot : computeRootFromInclusion C p.leafIndex p.logSize leaf siblings with e | computed
    · simp [hleaf,hpath,hroot] at h
    rw [Bool.or_eq_true,not_or,Bool.not_eq_true,Bool.not_eq_true] at hindex
    exact {
      size := Bool.not_eq_true _ ▸ hsize
      index := hindex
      leaf := decodeHash_ok.mp ⟨leaf,hleaf⟩
      path := decodeHashesFrom_ok.mp ⟨siblings,hpath⟩
      length := by
        rw [← decodeHashesFrom_length hpath]
        exact (inclusionLoop_isSome C _ _ leaf siblings).mp (toOption_isSome.mpr ⟨computed,hroot⟩) }
  · rintro ⟨hsize,⟨hneg,hlt⟩,hleaf,hpath,hlength⟩
    obtain ⟨leaf,hleaf⟩ := decodeHash_ok.mpr hleaf
    obtain ⟨siblings,hpath⟩ := decodeHashesFrom_ok (i := 0) |>.mpr hpath
    obtain ⟨computed,hroot⟩ := toOption_isSome.mp ((inclusionLoop_isSome C p.leafIndex
      (p.logSize.sub (.ofNat 1)) leaf siblings).mpr ((decodeHashesFrom_length hpath).trans hlength))
    refine ⟨computed,?_⟩
    rw [verifyInclusionProof,hsize,hneg,hlt]
    simp only [Bool.or_self,Bool.false_eq_true,if_false,hleaf,decodeHashes,hpath,
      computeRootFromInclusion,hroot,decide_true]

theorem consistency_accepts {p : ConsistencyProof} :
    (∃ r r', verifyConsistencyProof C p r r' = true) ↔ ConsistencyWalked p := by
  constructor
  · rintro ⟨r,r',h⟩
    rw [verifyConsistencyProof] at h
    split_ifs at h with hneg horder hsame hempty hzero
    all_goals
      rw [Bool.or_eq_true,not_or,Bool.not_eq_true,Bool.not_eq_true] at hneg
      rw [Bool.not_eq_true] at horder
    · have hnil : p.path = [] := by simpa using hempty
      refine ⟨hneg,horder,by simp [hnil],?_⟩
      rw [consistencyWalk,if_pos (.inl hsame),hnil,List.length_nil]
    · have hnil : p.path = [] := by simpa using h
      refine ⟨hneg,horder,by simp [hnil],?_⟩
      rw [consistencyWalk,if_pos (.inr hzero),hnil,List.length_nil]
    · rcases hpath : decodeHashes p.path with e | siblings
      · simp [hpath] at h
      rcases hroots : computeRootsFromConsistency C p.fromSize p.toSize r siblings with e | ⟨a,b⟩
      · simp [hpath,hroots] at h
      obtain ⟨rfl,rfl⟩ : a = r ∧ b = r' := by simpa [hpath,hroots] using h
      refine ⟨hneg,horder,decodeHashesFrom_ok.mp ⟨siblings,hpath⟩,?_⟩
      rw [consistencyWalk,if_neg (by simp [hsame,hzero]),← decodeHashesFrom_length hpath]
      exact (computeRoots_iff C _ _ _).mp ⟨a,b,hroots⟩
  · rintro ⟨⟨hneg,hneg'⟩,horder,hpath,hlength⟩
    rw [consistencyWalk] at hlength
    cases hsame : p.fromSize.eq p.toSize with
    | true =>
      rw [if_pos (.inl hsame)] at hlength
      refine ⟨zeroDigest,zeroDigest,?_⟩
      rw [verifyConsistencyProof,hneg,hneg',horder,hsame]
      simp [hlength]
    | false =>
      cases hzero : p.fromSize.eq (.ofNat 0) with
      | true =>
        rw [if_pos (.inr hzero)] at hlength
        refine ⟨zeroDigest,zeroDigest,?_⟩
        rw [verifyConsistencyProof,hneg,hneg',horder,hsame,hzero]
        simp [hlength]
      | false =>
        rw [if_neg (by simp [hsame,hzero])] at hlength
        obtain ⟨siblings,hpath⟩ := decodeHashesFrom_ok (i := 0) |>.mpr hpath
        obtain ⟨r,r',hroots⟩ := (computeRoots_iff C p.fromSize p.toSize siblings).mpr
          ((decodeHashesFrom_length hpath).trans hlength)
        refine ⟨r,r',?_⟩
        rw [verifyConsistencyProof,hneg,hneg',horder,hsame,hzero]
        simp [decodeHashes,hpath,hroots]

/-- The proof is for a leaf of a tree, with as many hashes as its path has. -/
def InclusionShape (p : InclusionProof) : Prop :=
  ∃ i n, p.leafIndex.IsNat i ∧ p.logSize.IsNat n ∧ i < n ∧ p.path.length = pathLength i n

/-- The length of `PROOF(m, D[n])`; from the empty tree it is empty. -/
def proofLength (m n : ℕ) : ℕ := if m = 0 then 0 else subproofLength m n true

def ConsistencyShape (p : ConsistencyProof) : Prop :=
  ∃ m n, p.fromSize.IsNat m ∧ p.toSize.IsNat n ∧ m ≤ n ∧ p.path.length = proofLength m n

/-- The numbers are integers, and the walk has the length of the path. -/
def InclusionAgrees (x size : Number) : Prop :=
  ∃ i n, x.IsNat i ∧ size.IsNat n ∧ walk x (size.sub (.ofNat 1)) = pathLength i n

def ConsistencyAgrees (x y : Number) : Prop :=
  ∃ m n, x.IsNat m ∧ y.IsNat n ∧ consistencyWalk x y = proofLength m n

/-- The first index counts by its value. -/
theorem walk_congr {x x' : Number} (h : x.eq x' = true) (sn : Number) : walk x sn = walk x' sn := by
  have heq : x.eq sn = x'.eq sn := by
    rw [Bool.eq_iff_iff]
    exact ⟨Number.eq_trans (Number.eq_symm h),Number.eq_trans h⟩
  rw [walk,walk,Number.toUint32_of_eq h,heq]

/-- Sizes up to 2^32 are walked as they are. -/
theorem inclusionAgrees_of_le {x size : Number} {i n : ℕ} (hi : x.IsNat i) (hn : size.IsNat n)
    (hlt : i < n) (hle : n ≤ 2^32) : InclusionAgrees x size := by
  refine ⟨i,n,hi,hn,?_⟩
  rw [walk_congr (hi.eq (by omega)),hn.eq_ofNat (by omega) (by omega),
    Number.sub_ofNat (by omega) (by omega),walk_ofNat (by omega) (by omega),rounds_eq (by omega),
    Nat.sub_add_cancel (by omega)]

theorem prefixWalk_ofNat {a b : ℕ} (ha : a < 2^32) (hb : b < 2^32) :
    prefixWalk (.ofNat a) (.ofNat b) = prefixRounds a b := by
  rw [prefixWalk,Number.toUint32_ofNat (by omega),Number.toUint32_ofNat (by omega),
    Nat.mod_eq_of_lt ha,Nat.mod_eq_of_lt hb,Number.eq_ofNat (by omega) (by norm_num),
    walk_ofNat ha hb,prefixRounds.eq_def a b]
  by_cases hodd : a%2 = 1
  · rw [if_pos hodd,if_pos hodd]
  · by_cases h0 : a = 0
    · simp [h0]
    · simp [hodd,h0]

theorem consistencyAgrees_of_le {x y : Number} {m n : ℕ} (hm : x.IsNat m) (hn : y.IsNat n)
    (hmn : m ≤ n) (hle : n ≤ 2^32) : ConsistencyAgrees x y := by
  refine ⟨m,n,hm,hn,?_⟩
  have hx := hm.eq (by omega)
  have hy := hn.eq (by omega)
  rw [consistencyWalk,proofLength]
  by_cases h0 : m = 0
  · subst h0
    rw [if_pos (.inr hx),if_pos rfl]
  by_cases hsame : m = n
  · subst hsame
    rw [if_pos (.inl (Number.eq_trans hx (Number.eq_symm hy))),if_neg h0,subproofLength,if_pos rfl,
      if_pos rfl]
  rw [hm.eq_ofNat (by omega) (by omega),hn.eq_ofNat (by omega) (by omega),
    Number.eq_ofNat (by omega) (by omega),Number.eq_ofNat (by omega) (by norm_num),
    if_neg (by simp; omega),if_neg h0,Number.sub_ofNat (by omega) (by omega),
    Number.sub_ofNat (by omega) (by omega),prefixWalk_ofNat (by omega) (by omega),
    prefixRounds_eq (by omega),Nat.sub_add_cancel (by omega),Nat.sub_add_cancel (by omega)]

/-- What a verifier accepts has the shape of a proof exactly when the numbers agree with the
walk, or the checks leave nothing to accept. -/
theorem accepted_shape_iff :
    (∀ p, (∀ root, verifyInclusionProof C p root = true → InclusionShape p) ↔
      (InclusionWalked p → InclusionAgrees p.leafIndex p.logSize)) ∧
    ∀ p, (∀ r r', verifyConsistencyProof C p r r' = true → ConsistencyShape p) ↔
      (ConsistencyWalked p → ConsistencyAgrees p.fromSize p.toSize) := by
  constructor
  · intro p
    constructor
    · intro hall hwalked
      obtain ⟨root,hroot⟩ := (inclusion_accepts C).mpr hwalked
      obtain ⟨i,n,hi,hn,-,hlength⟩ := hall root hroot
      exact ⟨i,n,hi,hn,hwalked.length.symm.trans hlength⟩
    · intro hagrees root hroot
      have hwalked := (inclusion_accepts C).mp ⟨root,hroot⟩
      obtain ⟨i,n,hi,hn,hlength⟩ := hagrees hwalked
      have hlt := hwalked.index.2
      rw [Number.le_fin hn.1 hi.1,hn.2,hi.2] at hlt
      exact ⟨i,n,hi,hn,by simpa using hlt,hwalked.length.trans hlength⟩
  · intro p
    constructor
    · intro hall hwalked
      obtain ⟨r,r',h⟩ := (consistency_accepts C).mpr hwalked
      obtain ⟨m,n,hm,hn,-,hlength⟩ := hall r r' h
      exact ⟨m,n,hm,hn,hwalked.length.symm.trans hlength⟩
    · intro hagrees r r' h
      have hwalked := (consistency_accepts C).mp ⟨r,r',h⟩
      obtain ⟨m,n,hm,hn,hlength⟩ := hagrees hwalked
      have horder := hwalked.order
      rw [Number.lt_fin hn.1 hm.1,hn.2,hm.2] at horder
      exact ⟨m,n,hm,hn,by simpa using horder,hwalked.length.trans hlength⟩

end Verdicts

def oneAndHalf : Number := .ofRat (3/2)

/-- Its value, the loop variable that it gives, and how it compares. -/
theorem oneAndHalf_evaluated : oneAndHalf.toRat = 3/2 ∧
    (oneAndHalf.sub (.ofNat 1)).toUint32 = 0 ∧
    (Number.lt (.ofNat 0) (oneAndHalf.sub (.ofNat 1)) = true ∧
      Number.eq (.ofNat 0) (oneAndHalf.sub (.ofNat 1)) = false) ∧
    (Number.lt (.ofNat 0) (.ofNat 0) = false ∧ oneAndHalf.le (.ofNat 0) = false) ∧
    oneAndHalf.lt (.ofNat 0) = false ∧ oneAndHalf.lt oneAndHalf = false ∧
    oneAndHalf.eq oneAndHalf = true := by decide +kernel

theorem oneAndHalf_not_nat (n : ℕ) : ¬ oneAndHalf.IsNat n := by
  rintro ⟨-,h⟩
  rw [oneAndHalf_evaluated.1] at h
  have : (3 : ℚ) = 2*n := by linarith
  have : 3 = 2*n := by exact_mod_cast this
  omega

/-- A proof with one sibling for the first leaf of a tree. -/
def oneSibling (size : Number) : InclusionProof :=
  ⟨size,encodeHash zeroDigest,.ofNat 0,[encodeHash zeroDigest]⟩

theorem decodable_encodeHash (d : Digest) : Decodable (encodeHash d) :=
  decodeHash_ok.mp ⟨d,decodeHash_encodeHash d⟩

theorem rounds_zero {sn : ℕ} (h : sn ≠ 0) : rounds 0 sn = rounds 0 (sn/2)+1 := by
  rw [rounds,if_neg h,if_neg (by norm_num),if_neg h.symm]

theorem oneSibling_path (size : Number) : ∀ s ∈ (oneSibling size).path, Decodable s := by
  simpa [oneSibling] using decodable_encodeHash zeroDigest

/-- One leaf above a multiple of 2^32 one sibling is enough, whatever the height. -/
theorem oneSibling_large {m : ℕ} (h : m%2^32 = 0) (hpos : 0 < m) (hlt : m+1 < 2^53) :
    InclusionWalked (oneSibling (.ofNat (m+1))) ∧ ¬ InclusionShape (oneSibling (.ofNat (m+1))) := by
  constructor
  · refine ⟨?_,⟨?_,?_⟩,decodable_encodeHash _,oneSibling_path _,?_⟩
    · simp only [oneSibling]
      rw [Number.le_ofNat (by omega) (by norm_num)]
      simp
    · simp only [oneSibling]
      rw [Number.lt_ofNat (by norm_num) (by norm_num)]
      rfl
    · simp only [oneSibling]
      rw [Number.le_ofNat (by omega) (by norm_num)]
      simp
    · simp only [oneSibling]
      rw [Number.sub_ofNat (by omega) (by omega),Nat.add_sub_cancel,walk,
        Number.lt_ofNat (by norm_num) (by omega),Number.eq_ofNat (by norm_num) (by omega),
        if_pos (by simpa using hpos),if_pos (.inr (by simp; omega)),
        Number.toUint32_ofNat (show m < 2^53 by omega),h,Nat.zero_div,rounds,if_pos rfl]
      rfl
  · rintro ⟨i,n,hi,hn,-,hlength⟩
    obtain rfl : i = 0 := by simpa [oneSibling] using hi.2.symm
    obtain rfl : n = m+1 := by
      have hsize := hn.2
      simp only [oneSibling] at hsize
      rw [Number.toRat_ofNat hlt] at hsize
      exact_mod_cast hsize.symm
    rw [← rounds_eq (Nat.zero_le m),rounds_zero (by omega),rounds_zero (by omega)] at hlength
    simp [oneSibling] at hlength

/-- One and a half leaves, more leaves than 32 bits count, and one and a half leaves in both
trees. -/
theorem accepted_without_shape :
    (∃ root, verifyInclusionProof Sample.crypto (oneSibling oneAndHalf) root = true ∧
      ¬ InclusionShape (oneSibling oneAndHalf)) ∧
    (∃ root, verifyInclusionProof Sample.crypto (oneSibling (.ofNat (2^32+1))) root = true ∧
      ¬ InclusionShape (oneSibling (.ofNat (2^32+1)))) ∧
    ∃ r r', verifyConsistencyProof Sample.crypto ⟨oneAndHalf,oneAndHalf,[]⟩ r r' = true ∧
      ¬ ConsistencyShape ⟨oneAndHalf,oneAndHalf,[]⟩ := by
  obtain ⟨-,hbits,hwalk,hindex,hneg,hless,heq⟩ := oneAndHalf_evaluated
  refine ⟨?_,?_,?_⟩
  · obtain ⟨root,hroot⟩ := (inclusion_accepts Sample.crypto (p := oneSibling oneAndHalf)).mpr
      ⟨hindex.2,hindex,decodable_encodeHash _,oneSibling_path _,by
        change 1 = walk (.ofNat 0) (oneAndHalf.sub (.ofNat 1))
        rw [walk,if_pos hwalk.1,if_pos (.inr hwalk.2),hbits]
        simp [rounds]⟩
    refine ⟨root,hroot,?_⟩
    rintro ⟨-,n,-,hn,-⟩
    exact oneAndHalf_not_nat n hn
  · obtain ⟨hwalked,hshape⟩ := oneSibling_large (m := 2^32) (by norm_num) (by norm_num) (by norm_num)
    obtain ⟨root,hroot⟩ := (inclusion_accepts Sample.crypto).mpr hwalked
    exact ⟨root,hroot,hshape⟩
  · obtain ⟨r,r',h⟩ := (consistency_accepts Sample.crypto
      (p := ⟨oneAndHalf,oneAndHalf,[]⟩)).mpr ⟨⟨hneg,hneg⟩,hless,by simp,by
        rw [consistencyWalk,if_pos (.inl heq)]
        rfl⟩
    refine ⟨r,r',h,?_⟩
    rintro ⟨m,-,hm,-⟩
    exact oneAndHalf_not_nat m hm

end Merkle
end Semp
