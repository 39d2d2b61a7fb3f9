import Semp.Crypto
import Semp.MerkleTree

/-! Merkle trees of the transparency log: hashes of leaves and nodes, the
verifiers, which walk a path with JavaScript numbers, and the provers, which split
the list of leaves.  Both meet in the levels of the tree: an accepted inclusion
proof is for the leaf at its index, an accepted consistency proof for a prefix. -/
namespace Semp
namespace Merkle

open MerkleTree

structure InclusionProof where
  logSize : Number
  leafHash : JsString
  leafIndex : Number
  path : List JsString
  deriving DecidableEq, Repr

structure ConsistencyProof where
  fromSize : Number
  toSize : Number
  path : List JsString
  deriving DecidableEq, Repr

def leafPrefix : UInt8 := 0
def interiorPrefix : UInt8 := 1

def zeroDigest : Digest := ⟨List.replicate 32 0,by simp⟩

def decodeHash (s : JsString) : Js Digest :=
  if h : (Base64.decode s).length = 32 then .ok ⟨Base64.decode s,h⟩
  else raise (js "transparency: hash length "++natText (Base64.decode s).length++js ", want 32")

/-- The items from position `i` on; an error names the position. -/
def decodeHashesFrom (i : ℕ) : List JsString → Js (List Digest)
  | [] => .ok []
  | item::items =>
    match decodeHash item with
    | .error (.error message) =>
      raise (js "transparency: path["++natText i++js "]: "++message)
    | .error e => .error e
    | .ok d => (decodeHashesFrom (i+1) items).map (d::·)

def decodeHashes (items : List JsString) : Js (List Digest) := decodeHashesFrom 0 items

def encodeHash (d : Digest) : JsString := Base64.encode d.val

/-- Doubles `k` while its double is below `n`. -/
def doubleBelow (n k : ℕ) : ℕ := if 0 < k ∧ k*2 < n then doubleBelow n (k*2) else k
termination_by n-k

def largestPowerOfTwoLessThan (n : ℕ) : ℕ := if n ≤ 1 then 0 else doubleBelow n 1

theorem doubleBelow_eq {n e : ℕ} (h : 2^e < n) : doubleBelow n (2^e) = split n := by
  induction hd : n-2^e using Nat.strong_induction_on generalizing e with
  | _ d ih =>
    subst hd
    have hpos := Nat.two_pow_pos e
    rw [doubleBelow]
    by_cases hlt : 2^e*2 < n
    · rw [if_pos ⟨hpos,hlt⟩,← pow_succ]
      rw [← pow_succ] at hlt
      exact ih _ (by rw [pow_succ]; omega) hlt rfl
    · rw [if_neg (by omega),split,
        show Nat.log 2 (n-1) = e from (Nat.log_eq_iff (by omega)).mpr
          ⟨by omega,by rw [pow_succ]; omega⟩]

theorem largestPowerOfTwoLessThan_eq {n : ℕ} (h : 2 ≤ n) :
    largestPowerOfTwoLessThan n = split n := by
  rw [largestPowerOfTwoLessThan,if_neg (by omega)]
  exact doubleBelow_eq (e := 0) (by omega)

/-- `while (fn !== 0 && (fn & 1) === 0) { fn >>>= 1; sn >>>= 1; }`, which runs at
most 33 times: what is shifted is below 2^32 after the first shift. -/
def shiftEven : ℕ → Number → Number → Number × Number
  | 0, fn, sn => (fn,sn)
  | fuel+1, fn, sn =>
    if !fn.eq (.ofNat 0) && fn.and1.eq (.ofNat 0) then shiftEven fuel fn.shr1 sn.shr1
    else (fn,sn)

/-- `while ((fn & 1) === 1) { fn >>>= 1; sn >>>= 1; }` -/
def shiftOdd : ℕ → Number → Number → Number × Number
  | 0, fn, sn => (fn,sn)
  | fuel+1, fn, sn =>
    if fn.and1.eq (.ofNat 1) then shiftOdd fuel fn.shr1 sn.shr1 else (fn,sn)

def shiftBound : ℕ := 33

section Code
variable (C : Crypto)

def hashLeaf (entryBytes : Bytes) : Digest := C.sha256 (leafPrefix::entryBytes)

def hashInterior (left right : Digest) : Digest :=
  C.sha256 (interiorPrefix::(left.val++right.val))

/-- The loop of `computeRootFromInclusion`; each round takes one sibling. -/
def inclusionLoop (fn sn : Number) (r : Digest) : List Digest → Js Digest
  | [] =>
    if Number.lt (.ofNat 0) sn then raise (js "transparency: inclusion proof too short") else .ok r
  | s::rest =>
    if Number.lt (.ofNat 0) sn then
      if fn.and1.eq (.ofNat 1) || fn.eq sn then
        let shifted := shiftEven shiftBound fn sn
        inclusionLoop shifted.1.shr1 shifted.2.shr1 (hashInterior C s r) rest
      else inclusionLoop fn.shr1 sn.shr1 (hashInterior C r s) rest
    else raise (js "transparency: inclusion proof has "++natText (rest.length+1)++
      js " unused siblings")

def computeRootFromInclusion (leafIndex treeSize : Number) (leaf : Digest)
    (siblings : List Digest) : Js Digest :=
  inclusionLoop C leafIndex (treeSize.sub (.ofNat 1)) leaf siblings

def verifyInclusionProof (proof : InclusionProof) (rootHash : Digest) : Bool :=
  if proof.logSize.le (.ofNat 0) then false
  else if proof.leafIndex.lt (.ofNat 0) || proof.logSize.le proof.leafIndex then false
  else
    match decodeHash proof.leafHash, decodeHashes proof.path with
    | .ok leaf, .ok siblings =>
      match computeRootFromInclusion C proof.leafIndex proof.logSize leaf siblings with
      | .ok computed => decide (computed = rootHash)
      | .error _ => false
    | _, _ => false

/-- The second loop of `computeRootsFromConsistency`. -/
def consistencyLoop (fn sn : Number) (fr sr : Digest) : List Digest → Js (Digest × Digest)
  | [] =>
    if Number.lt (.ofNat 0) sn then raise (js "transparency: consistency proof too short")
    else .ok (fr,sr)
  | c::rest =>
    if Number.lt (.ofNat 0) sn then
      if fn.and1.eq (.ofNat 1) || fn.eq sn then
        let shifted := shiftEven shiftBound fn sn
        consistencyLoop shifted.1.shr1 shifted.2.shr1 (hashInterior C c fr) (hashInterior C c sr) rest
      else consistencyLoop fn.shr1 sn.shr1 fr (hashInterior C sr c) rest
    else raise (js "transparency: consistency proof has "++natText (rest.length+1)++
      js " unused hashes")

def computeRootsFromConsistency (firstSize secondSize : Number) (firstRoot : Digest)
    (path : List Digest) : Js (Digest × Digest) :=
  let shifted := shiftOdd shiftBound (firstSize.sub (.ofNat 1)) (secondSize.sub (.ofNat 1))
  if !shifted.1.eq (.ofNat 0) then
    match path with
    | [] => raise (js "transparency: consistency proof too short")
    | c::rest => consistencyLoop C shifted.1 shifted.2 c c rest
  else consistencyLoop C shifted.1 shifted.2 firstRoot firstRoot path

def verifyConsistencyProof (proof : ConsistencyProof) (firstRoot secondRoot : Digest) : Bool :=
  if proof.fromSize.lt (.ofNat 0) || proof.toSize.lt (.ofNat 0) then false
  else if proof.toSize.lt proof.fromSize then false
  else if proof.fromSize.eq proof.toSize then
    if proof.path.length ≠ 0 then false else decide (firstRoot = secondRoot)
  else if proof.fromSize.eq (.ofNat 0) then proof.path.length == 0
  else
    match decodeHashes proof.path with
    | .ok siblings =>
      match computeRootsFromConsistency C proof.fromSize proof.toSize firstRoot siblings with
      | .ok recomputed => decide (recomputed.1 = firstRoot) && decide (recomputed.2 = secondRoot)
      | .error _ => false
    | .error _ => false

def subtreeRoot (leaves : List Digest) : Digest :=
  if leaves.length = 0 then zeroDigest
  else if leaves.length = 1 then leaves.headD zeroDigest
  else
    let k := largestPowerOfTwoLessThan leaves.length
    hashInterior C (subtreeRoot (leaves.take k)) (subtreeRoot (leaves.drop k))
termination_by leaves.length
decreasing_by
  all_goals
    have h2 : 2 ≤ leaves.length := by omega
    have := split_lt h2
    have := split_pos leaves.length
    simp only [largestPowerOfTwoLessThan_eq h2,List.length_take,List.length_drop]
    omega

def auditPath (m : ℕ) (leaves : List Digest) : List Digest :=
  if leaves.length ≤ 1 then []
  else
    let k := largestPowerOfTwoLessThan leaves.length
    if m < k then auditPath m (leaves.take k)++[subtreeRoot C (leaves.drop k)]
    else auditPath (m-k) (leaves.drop k)++[subtreeRoot C (leaves.take k)]
termination_by leaves.length
decreasing_by
  all_goals
    have h2 : 2 ≤ leaves.length := by omega
    have := split_lt h2
    have := split_pos leaves.length
    simp only [largestPowerOfTwoLessThan_eq h2,List.length_take,List.length_drop]
    omega

/-- Past the last leaf the recursion of the source does not end and overflows the
stack. -/
def subproof (m : ℕ) (leaves : List Digest) (b : Bool) : Js (List Digest) :=
  if m = leaves.length then .ok (if b then [] else [subtreeRoot C leaves])
  else if leaves.length ≤ 1 then
    if m = 0 then .ok ((if b then [] else [zeroDigest])++[subtreeRoot C leaves])
    else .error (.engine .rangeError)
  else
    let k := largestPowerOfTwoLessThan leaves.length
    if m ≤ k then do
      let path ← subproof m (leaves.take k) b
      .ok (path++[subtreeRoot C (leaves.drop k)])
    else do
      let path ← subproof (m-k) (leaves.drop k) false
      .ok (path++[subtreeRoot C (leaves.take k)])
termination_by leaves.length
decreasing_by
  all_goals
    have h2 : 2 ≤ leaves.length := by omega
    have := split_lt h2
    have := split_pos leaves.length
    simp only [largestPowerOfTwoLessThan_eq h2,List.length_take,List.length_drop]
    omega

end Code

section Levels
variable (C : Crypto)

theorem subtreeRoot_eq (leaves : List Digest) :
    subtreeRoot C leaves = root (hashInterior C) zeroDigest leaves := by
  induction leaves using split_induction with
  | leaf L h =>
    rw [subtreeRoot,root_leaf h]
    match L, h with
    | [], _ => rfl
    | [a], _ => rfl
  | node L h ihl ihr =>
    rw [subtreeRoot,if_neg (by omega),if_neg (by omega),root_node h]
    simp only [largestPowerOfTwoLessThan_eq h,ihl,ihr]

theorem auditPath_eq (m : ℕ) (leaves : List Digest) :
    auditPath C m leaves = MerkleTree.auditPath (hashInterior C) zeroDigest m leaves := by
  induction leaves using split_induction generalizing m with
  | leaf L h => rw [auditPath,if_pos (by omega),auditPath_leaf m h]
  | node L h ihl ihr =>
    rw [auditPath,if_neg (by omega)]
    simp only [largestPowerOfTwoLessThan_eq h,ihl,ihr,subtreeRoot_eq]
    split_ifs with hm
    · rw [auditPath_left h hm]
    · rw [auditPath_right h hm]

/-- Up to the last leaf the recursion of the source ends. -/
theorem subproof_eq {m : ℕ} {leaves : List Digest} (b : Bool) (h0 : 0 < m)
    (hm : m ≤ leaves.length) : subproof C m leaves b =
      .ok (MerkleTree.subproof (hashInterior C) zeroDigest m leaves b) := by
  induction leaves using split_induction generalizing m b with
  | leaf L h =>
    obtain rfl : m = L.length := by omega
    rw [subproof,if_pos rfl,subproof_whole,subtreeRoot_eq]
  | node L h ihl ihr =>
    rw [subproof]
    by_cases he : m = L.length
    · rw [he,if_pos rfl,subproof_whole,subtreeRoot_eq]
    · rw [if_neg he,if_neg (by omega)]
      simp only [largestPowerOfTwoLessThan_eq h,subtreeRoot_eq]
      have hlt := split_lt h
      by_cases hk : m ≤ split L.length
      · rw [if_pos hk,ihl b h0 (by rw [List.length_take]; omega),
          subproof_left b (by omega) h hk]
        rfl
      · rw [if_neg hk,ihr false (by omega) (by rw [List.length_drop]; omega),
          subproof_right b (by omega) h hk]
        rfl

theorem shiftEven_of_odd {fn : Number} (h : fn.toUint32%2 = 1) (fuel : ℕ) (sn : Number) :
    shiftEven fuel fn sn = (fn,sn) := by
  cases fuel with
  | zero => rfl
  | succ fuel =>
    rw [shiftEven,Number.and1_eq fn (by norm_num)]
    simp [h]

/-- Shifting a pair of equal indices leaves their odd part. -/
theorem shiftEven_same (fuel : ℕ) {m : ℕ} (h0 : 0 < m) (hf : m < 2^fuel) (hb : m < 2^32) :
    ∃ k t, m = k*2^t ∧ k%2 = 1 ∧
      shiftEven fuel (.ofNat m) (.ofNat m) = (.ofNat k,.ofNat k) := by
  induction fuel generalizing m with
  | zero => omega
  | succ fuel ih =>
    by_cases ho : m%2 = 1
    · exact ⟨m,0,by simp,ho,shiftEven_of_odd (by rwa [Number.toUint32_ofNat (by omega),Nat.mod_eq_of_lt hb]) _ _⟩
    · rw [pow_succ] at hf
      obtain ⟨k,t,hk,hko,hs⟩ := ih (m := m/2) (by omega) (by omega) (by omega)
      refine ⟨k,t+1,?_,hko,?_⟩
      · rw [pow_succ,← mul_assoc,← hk]
        omega
      · rw [shiftEven,Number.and1_ofNat hb,Number.eq_ofNat (by omega) (by omega),
          Number.eq_ofNat (by omega) (by omega),Number.shr1_ofNat hb,if_pos (by simp; omega),hs]

theorem climb_double {α : Type} (hash : α → α → α) {k : ℕ} (hk : 0 < k) (t : ℕ) (r : α)
    (path : List α) : climb hash (k*2^t) (k*2^t) r path = climb hash k k r path := by
  induction t with
  | zero => simp
  | succ t ih =>
    have hpos := Nat.mul_pos hk (Nat.two_pow_pos t)
    rw [pow_succ,← mul_assoc,climb.eq_def,if_neg (by omega),if_neg (by omega),if_pos rfl,
      Nat.mul_div_cancel _ (by norm_num),ih]

theorem climbBoth_double {α : Type} (hash : α → α → α) {k : ℕ} (hk : 0 < k) (t : ℕ) (fr sr : α)
    (path : List α) : climbBoth hash (k*2^t) (k*2^t) fr sr path = climbBoth hash k k fr sr path := by
  induction t with
  | zero => simp
  | succ t ih =>
    have hpos := Nat.mul_pos hk (Nat.two_pow_pos t)
    rw [pow_succ,← mul_assoc,climbBoth.eq_def,if_neg (by omega),if_neg (by omega),if_pos rfl,
      Nat.mul_div_cancel _ (by norm_num),ih]

theorem climb_nil {α : Type} (hash : α → α → α) {sn : ℕ} (h : sn ≠ 0) (fn : ℕ) (r : α) :
    climb hash fn sn r [] = none := by
  induction sn using Nat.strong_induction_on generalizing fn with
  | _ sn ih =>
    rw [climb.eq_def,if_neg h]
    by_cases ho : fn%2 = 1
    · rw [if_pos ho]
    · rw [if_neg ho]
      by_cases he : fn = sn
      · rw [if_pos he]
        exact ih _ (by omega) (by omega) _
      · rw [if_neg he]

theorem climbBoth_nil {α : Type} (hash : α → α → α) {sn : ℕ} (h : sn ≠ 0) (fn : ℕ) (fr sr : α) :
    climbBoth hash fn sn fr sr [] = none := by
  induction sn using Nat.strong_induction_on generalizing fn with
  | _ sn ih =>
    rw [climbBoth.eq_def,if_neg h]
    by_cases ho : fn%2 = 1
    · rw [if_pos ho]
    · rw [if_neg ho]
      by_cases he : fn = sn
      · rw [if_pos he]
        exact ih _ (by omega) (by omega) _
      · rw [if_neg he]

/-- What one round of either loop does to its indices. -/
theorem round_indices {fn sn : ℕ} (hf : fn < 2^32) (hs : sn < 2^32) (h0 : 0 < sn)
    (hround : fn%2 = 1 ∨ fn = sn) : ∃ a b, a%2 = 1 ∧ a ≤ fn ∧ b ≤ sn ∧
      (fn%2 = 1 ∧ a = fn ∧ b = sn ∨ fn = sn ∧ a = b ∧ ∃ t, sn = b*2^t) ∧
      shiftEven shiftBound (.ofNat fn) (.ofNat sn) = (.ofNat a,.ofNat b) := by
  by_cases ho : fn%2 = 1
  · exact ⟨fn,sn,ho,le_rfl,le_rfl,.inl ⟨ho,rfl,rfl⟩,shiftEven_of_odd (by rwa [Number.toUint32_ofNat (by omega),Nat.mod_eq_of_lt hf]) _ _⟩
  · obtain rfl := hround.resolve_left ho
    obtain ⟨k,t,hk,hko,hsh⟩ := shiftEven_same shiftBound h0
      (by rw [shiftBound]; omega) hf
    have hle : k ≤ fn := by
      rw [hk]
      exact Nat.le_mul_of_pos_right k (Nat.two_pow_pos t)
    exact ⟨k,k,hko,hle,hle,.inr ⟨rfl,rfl,t,hk⟩,hsh⟩

theorem round_condition {fn sn : ℕ} (hf : fn < 2^32) (hs : sn < 2^32) :
    ((Number.ofNat fn).and1.eq (.ofNat 1) || (Number.ofNat fn).eq (.ofNat sn)) =
      decide (fn%2 = 1 ∨ fn = sn) := by
  rw [Number.and1_ofNat hf,Number.eq_ofNat (by omega) (by norm_num),
    Number.eq_ofNat (by omega) (by omega)]
  simp

/-- The loop of the inclusion verifier climbs the levels. -/
theorem inclusionLoop_eq {fn sn : ℕ} (hf : fn < 2^32) (hs : sn < 2^32) (r : Digest)
    (path : List Digest) : (inclusionLoop C (.ofNat fn) (.ofNat sn) r path).toOption =
      climb (hashInterior C) fn sn r path := by
  induction path generalizing fn sn r with
  | nil =>
    rw [inclusionLoop,Number.lt_ofNat (by norm_num) (by omega)]
    by_cases h0 : sn = 0
    · simp [h0,climb.eq_def,Except.toOption]
    · rw [climb_nil _ h0,if_pos (by simp; omega)]
      rfl
  | cons s rest ih =>
    rw [inclusionLoop,Number.lt_ofNat (by norm_num) (by omega),round_condition hf hs]
    by_cases h0 : sn = 0
    · simp [h0,climb.eq_def,Except.toOption,raise]
    · rw [if_pos (by simp; omega)]
      by_cases hround : fn%2 = 1 ∨ fn = sn
      · obtain ⟨a,b,ha,haf,hbs,hor,hsh⟩ := round_indices hf hs (Nat.pos_of_ne_zero h0) hround
        have hclimb : climb (hashInterior C) fn sn r (s::rest) =
            climb (hashInterior C) a b r (s::rest) := by
          obtain ⟨-,rfl,rfl⟩ | ⟨rfl,rfl,t,ht⟩ := hor
          · rfl
          · conv_lhs => rw [ht]
            exact climb_double _ (by omega) t r _
        have hb0 : b ≠ 0 := by
          rintro rfl
          obtain ⟨-,-,rfl⟩ | ⟨-,rfl,-⟩ := hor <;> simp at h0 ha
        rw [if_pos (by simpa using hround)]
        simp only [hsh]
        rw [Number.shr1_ofNat (by omega),Number.shr1_ofNat (by omega),
          ih (by omega) (by omega),hclimb,climb.eq_def _ a,if_neg hb0,if_pos ha]
      · rw [if_neg (by simpa using hround),Number.shr1_ofNat hf,Number.shr1_ofNat hs,
          ih (by omega) (by omega),climb.eq_def _ fn,if_neg h0,if_neg (by tauto),if_neg (by tauto)]

/-- The loop of the consistency verifier climbs both trees. -/
theorem consistencyLoop_eq {fn sn : ℕ} (hf : fn < 2^32) (hs : sn < 2^32) (fr sr : Digest)
    (path : List Digest) : (consistencyLoop C (.ofNat fn) (.ofNat sn) fr sr path).toOption =
      climbBoth (hashInterior C) fn sn fr sr path := by
  induction path generalizing fn sn fr sr with
  | nil =>
    rw [consistencyLoop,Number.lt_ofNat (by norm_num) (by omega)]
    by_cases h0 : sn = 0
    · simp [h0,climbBoth.eq_def,Except.toOption]
    · rw [climbBoth_nil _ h0,if_pos (by simp; omega)]
      rfl
  | cons c rest ih =>
    rw [consistencyLoop,Number.lt_ofNat (by norm_num) (by omega),round_condition hf hs]
    by_cases h0 : sn = 0
    · simp [h0,climbBoth.eq_def,Except.toOption,raise]
    · rw [if_pos (by simp; omega)]
      by_cases hround : fn%2 = 1 ∨ fn = sn
      · obtain ⟨a,b,ha,haf,hbs,hor,hsh⟩ := round_indices hf hs (Nat.pos_of_ne_zero h0) hround
        have hclimb : climbBoth (hashInterior C) fn sn fr sr (c::rest) =
            climbBoth (hashInterior C) a b fr sr (c::rest) := by
          obtain ⟨-,rfl,rfl⟩ | ⟨rfl,rfl,t,ht⟩ := hor
          · rfl
          · conv_lhs => rw [ht]
            exact climbBoth_double _ (by omega) t fr sr _
        have hb0 : b ≠ 0 := by
          rintro rfl
          obtain ⟨-,-,rfl⟩ | ⟨-,rfl,-⟩ := hor <;> simp at h0 ha
        rw [if_pos (by simpa using hround)]
        simp only [hsh]
        rw [Number.shr1_ofNat (by omega),Number.shr1_ofNat (by omega),
          ih (by omega) (by omega),hclimb,climbBoth.eq_def _ a,if_neg hb0,if_pos ha]
      · rw [if_neg (by simpa using hround),Number.shr1_ofNat hf,Number.shr1_ofNat hs,
          ih (by omega) (by omega),climbBoth.eq_def _ fn,if_neg h0,if_neg (by tauto),
          if_neg (by tauto)]

/-- The first loop of the consistency verifier skips the complete levels. -/
theorem shiftOdd_eq (fuel fn sn : ℕ) (hf : fn < 2^fuel) (hb : fn < 2^32) (hs : sn < 2^32) :
    ∃ a b, shiftOdd fuel (.ofNat fn) (.ofNat sn) = (.ofNat a,.ofNat b) ∧ a%2 = 0 ∧
      a ≤ fn ∧ b ≤ sn ∧ ∀ first path, climbPrefix (hashInterior C) fn sn first path =
        climbPrefix (hashInterior C) a b first path := by
  induction fuel generalizing fn sn with
  | zero =>
    obtain rfl : fn = 0 := by omega
    exact ⟨0,sn,rfl,rfl,le_rfl,le_rfl,fun _ _ => rfl⟩
  | succ fuel ih =>
    rw [shiftOdd,Number.and1_ofNat hb,Number.eq_ofNat (by omega) (by norm_num)]
    by_cases ho : fn%2 = 1
    · rw [pow_succ] at hf
      obtain ⟨a,b,hsh,ha,haf,hbs,hc⟩ := ih (fn/2) (sn/2) (by omega) (by omega)
        (by omega)
      rw [if_pos (by simpa using ho),Number.shr1_ofNat hb,Number.shr1_ofNat hs]
      refine ⟨a,b,hsh,ha,by omega,by omega,fun first path => ?_⟩
      rw [climbPrefix.eq_def,if_pos ho,hc]
    · rw [if_neg (by simpa using ho)]
      exact ⟨fn,sn,rfl,by omega,le_rfl,le_rfl,fun _ _ => rfl⟩

theorem computeRootsFromConsistency_eq {m n : ℕ} (hm0 : 0 < m) (hm : m < 2^32) (hn0 : 0 < n)
    (hn : n < 2^32) (first : Digest) (path : List Digest) :
    (computeRootsFromConsistency C (.ofNat m) (.ofNat n) first path).toOption =
      climbPrefix (hashInterior C) (m-1) (n-1) first path := by
  obtain ⟨a,b,hsh,ha,haf,hbs,hc⟩ := shiftOdd_eq C shiftBound (m-1) (n-1)
    (by rw [shiftBound]; omega) (by omega) (by omega)
  unfold computeRootsFromConsistency
  rw [Number.sub_ofNat hm0 (by omega),Number.sub_ofNat hn0 (by omega),hc first path]
  simp only [hsh]
  rw [Number.eq_ofNat (by omega) (by norm_num)]
  have hodd : ¬a%2 = 1 := by omega
  rw [climbPrefix.eq_def,if_neg hodd]
  by_cases h0 : a = 0
  · subst h0
    simp only [decide_true,Bool.not_true,Bool.false_eq_true,if_false,if_true]
    exact consistencyLoop_eq C (by norm_num) (by omega) first first path
  · rw [if_pos (by simpa using h0),if_neg h0]
    cases path with
    | nil => rfl
    | cons c rest => exact consistencyLoop_eq C (by omega) (by omega) c c rest

@[simp] theorem decodeHash_encodeHash (d : Digest) : decodeHash (encodeHash d) = .ok d := by
  have h : Base64.decode (encodeHash d) = d.val := Base64.decode_encode d.val
  rw [decodeHash,dif_pos (by rw [h]; exact d.property)]
  congr 1
  exact Subtype.ext h

theorem decodeHashes_encodeHash (ds : List Digest) :
    decodeHashes (ds.map encodeHash) = .ok ds := by
  suffices h : ∀ i, decodeHashesFrom i (ds.map encodeHash) = .ok ds from h 0
  induction ds with
  | nil => exact fun _ => rfl
  | cons d ds ih =>
    intro i
    rw [List.map_cons,decodeHashesFrom,decodeHash_encodeHash]
    simp only [ih,Except.map]

/-- Once the guards are passed the verdict is a comparison of roots. -/
theorem verifyInclusionProof_iff {p : InclusionProof} {i n : ℕ} (hi : i < n) (hn : n < 2^32)
    (hsize : p.logSize = .ofNat n) (hindex : p.leafIndex = .ofNat i) (r : Digest) :
    verifyInclusionProof C p r = true ↔ ∃ leaf siblings, decodeHash p.leafHash = .ok leaf ∧
      decodeHashes p.path = .ok siblings ∧
      climb (hashInterior C) i (n-1) leaf siblings = some r := by
  have hloop (leaf : Digest) (siblings : List Digest) :=
    inclusionLoop_eq C (show i < 2^32 by omega) (show n-1 < 2^32 by omega) leaf siblings
  rw [verifyInclusionProof,hsize,hindex,Number.le_ofNat (by omega) (by norm_num),
    Number.lt_ofNat (by omega) (by norm_num),Number.le_ofNat (by omega) (by omega)]
  rw [if_neg (by simp; omega),if_neg (by simp; omega)]
  cases hleaf : decodeHash p.leafHash with
  | error e => simp
  | ok leaf =>
    cases hpath : decodeHashes p.path with
    | error e => simp
    | ok siblings =>
      simp only [computeRootFromInclusion,Number.sub_ofNat (show 1 ≤ n by omega) (by omega)]
      have h := hloop leaf siblings
      cases hc : inclusionLoop C (.ofNat i) (.ofNat (n-1)) leaf siblings with
      | error e =>
        rw [hc] at h
        simp [← h,Except.toOption]
      | ok computed =>
        rw [hc] at h
        simp [← h,Except.toOption]

/-- The negative zero is an index like zero. -/
theorem verifyInclusionProof_negZero {p : InclusionProof} {n : ℕ} (hn : n < 2^32)
    (hsize : p.logSize = .ofNat n) (hindex : p.leafIndex = .zero true) (r : Digest) :
    verifyInclusionProof C p r = verifyInclusionProof C { p with leafIndex := .ofNat 0 } r := by
  have hfin : (Number.zero true).isFinite := rfl
  have hrat : (Number.zero true).toRat = (Number.ofNat 0).toRat := by
    rw [Number.toRat_ofNat (by norm_num)]
    simp [Number.zero,Number.toRat]
  have hzero : (Number.ofNat 0).isFinite := Number.isFinite_ofNat (by norm_num)
  have hsub : ((Number.ofNat n).sub (.ofNat 1)).isFinite ∨ n = 0 := by
    rcases Nat.eq_zero_or_pos n with h | h
    · exact .inr h
    · rw [Number.sub_ofNat h (by omega)]
      exact .inl (Number.isFinite_ofNat (by omega))
  have hu : (Number.zero true).toUint32 = (Number.ofNat 0).toUint32 := by
    rw [Number.toUint32_ofNat (by norm_num)]
    simp [Number.zero,Number.toUint32]
  rw [verifyInclusionProof,verifyInclusionProof,hindex,hsize]
  rw [Number.lt_fin hfin hzero,Number.le_fin (Number.isFinite_ofNat (by omega)) hfin,hrat,
    ← Number.lt_fin hzero hzero,← Number.le_fin (Number.isFinite_ofNat (by omega)) hzero]
  rcases hsub with hsub | rfl
  · have hloop (leaf : Digest) (siblings : List Digest) :
        computeRootFromInclusion C (.zero true) (.ofNat n) leaf siblings =
          computeRootFromInclusion C (.ofNat 0) (.ofNat n) leaf siblings := by
      cases siblings with
      | nil => rfl
      | cons s rest =>
        have heq : (Number.zero true).eq ((Number.ofNat n).sub (.ofNat 1)) =
            (Number.ofNat 0).eq ((Number.ofNat n).sub (.ofNat 1)) := by
          rw [Number.eq_fin hfin hsub,Number.eq_fin hzero hsub,hrat]
        have hand : (Number.zero true).and1 = (Number.ofNat 0).and1 := by
          rw [Number.and1,Number.and1,hu]
        have hshr : (Number.zero true).shr1 = (Number.ofNat 0).shr1 := by
          rw [Number.shr1,Number.shr1,hu]
        have hstay (x : Number) (hx : x.isFinite) (h0 : x.toRat = 0) (sn : Number) :
            shiftEven shiftBound x sn = (x,sn) := by
          rw [shiftBound,shiftEven,Number.eq_fin hx hzero,h0,Number.toRat_ofNat (by norm_num)]
          simp
        have hz : (Number.ofNat 0).toRat = 0 := by
          rw [Number.toRat_ofNat (by norm_num)]
          simp
        simp only [computeRootFromInclusion,inclusionLoop,hand,heq,hstay _ hfin (hrat.trans hz),
          hstay _ hzero hz,hshr]
    simp only [hloop]
  · rw [if_pos (by rw [Number.le_ofNat (by norm_num) (by norm_num)]; simp),
      if_pos (by rw [Number.le_ofNat (by norm_num) (by norm_num)]; simp)]

end Levels

section Verifiers
variable (C : Crypto)

/-- The pairs the inclusion verifier hashes on a proof. -/
def inclusionPairs (p : InclusionProof) : List (Digest × Digest) :=
  match decodeHash p.leafHash, decodeHashes p.path with
  | .ok leaf, .ok siblings =>
    climbPairs (hashInterior C) p.leafIndex.toUint32 (p.logSize.toUint32-1) leaf siblings
  | _, _ => []

/-- The pairs the consistency verifier hashes on a proof. -/
def consistencyPairs (p : ConsistencyProof) (firstRoot : Digest) : List (Digest × Digest) :=
  match decodeHashes p.path with
  | .ok path =>
    climbPrefixPairs (hashInterior C) (p.fromSize.toUint32-1) (p.toSize.toUint32-1) firstRoot path
  | .error _ => []

theorem isInteger_index {p : InclusionProof} {n : ℕ} (hn : n < 2^32) (hsize : p.logSize = .ofNat n)
    (hint : p.leafIndex.isInteger = true) {r : Digest} (hv : verifyInclusionProof C p r = true) :
    ∃ i, i < n ∧ p.leafIndex.toRat = i ∧ (p.leafIndex = .ofNat i ∨ i = 0 ∧ p.leafIndex = .zero true) := by
  rw [verifyInclusionProof,hsize] at hv
  split_ifs at hv with h1 h2
  simp only [Bool.or_eq_true,not_or,Bool.not_eq_true] at h2
  exact Number.isInteger_cases hint h2.1 (by omega) h2.2

/-- Inclusion soundness: an accepted proof against the root of a list is for the
list's own leaf at the index, unless two of the hashed pairs collide. -/
theorem verifyInclusionProof_sound (D : List Digest) (p : InclusionProof) (hD : D ≠ [])
    (hlt : D.length < 2^31) (hsize : p.logSize = .ofNat D.length)
    (hint : p.leafIndex.isInteger = true)
    (hv : verifyInclusionProof C p (subtreeRoot C D) = true) :
    (∃ (i : ℕ) (leaf : Digest), i < D.length ∧ p.leafIndex.toRat = i ∧ D[i]? = some leaf ∧
      decodeHash p.leafHash = .ok leaf) ∨
    Collision (hashInterior C)
      (treePairs (hashInterior C) zeroDigest D++inclusionPairs C p) := by
  obtain ⟨i,hi,hrat,hindex⟩ := isInteger_index C (by omega) hsize hint hv
  have hpos := List.length_pos_of_ne_nil hD
  refine (noCollision_or_collision _).imp_left fun hc => ?_
  let q : InclusionProof := { p with leafIndex := .ofNat i }
  have hv' : verifyInclusionProof C q (subtreeRoot C D) = true := by
    rcases hindex with h | ⟨rfl,h⟩
    · have hq : q = p := by simp only [q,← h]
      rwa [hq]
    · rwa [← verifyInclusionProof_negZero C (by omega) hsize h]
  obtain ⟨leaf,siblings,hleaf,hpath,hclimb⟩ :=
    (verifyInclusionProof_iff C (p := q) hi (by omega) hsize rfl (subtreeRoot C D)).mp hv'
  have hu : p.leafIndex.toUint32 = i := by
    rcases hindex with h | ⟨rfl,h⟩
    · rw [h,Number.toUint32_ofNat (by omega),Nat.mod_eq_of_lt (by omega)]
    · rw [h]
      simp [Number.zero,Number.toUint32]
  have hpairs : inclusionPairs C p =
      climbPairs (hashInterior C) i (D.length-1) leaf siblings := by
    have hleaf' : decodeHash p.leafHash = .ok leaf := hleaf
    have hpath' : decodeHashes p.path = .ok siblings := hpath
    rw [inclusionPairs,hleaf',hpath',hu,hsize,Number.toUint32_ofNat (by omega),
      Nat.mod_eq_of_lt (by omega)]
  rw [hpairs] at hc
  rw [subtreeRoot_eq] at hclimb
  exact ⟨i,leaf,hi,hrat,climb_sound (by omega) (by omega) hc hclimb,hleaf⟩

/-- The path of a leaf is accepted. -/
theorem verifyInclusionProof_auditPath {D : List Digest} (hlt : D.length < 2^32) {i : ℕ}
    {leaf : Digest} (hi : D[i]? = some leaf) :
    verifyInclusionProof C ⟨.ofNat D.length,encodeHash leaf,.ofNat i,
      (auditPath C i D).map encodeHash⟩ (subtreeRoot C D) = true := by
  have hlen : i < D.length := (List.getElem?_eq_some_iff.mp hi).1
  refine (verifyInclusionProof_iff C hlen hlt rfl rfl _).mpr
    ⟨leaf,auditPath C i D,decodeHash_encodeHash leaf,decodeHashes_encodeHash _,?_⟩
  rw [auditPath_eq,subtreeRoot_eq]
  exact climb_complete (by omega) hi

/-- The leaves of a sample tree. -/
def sampleLeaves : List Digest := [Sample.digest [0],Sample.digest [1],Sample.digest [2]]

/-- The proof of the last of three leaves, which has no sibling on its own level. -/
theorem verifyInclusionProof_sound_sample :
    let p : InclusionProof := ⟨.ofNat sampleLeaves.length,encodeHash (Sample.digest [2]),.ofNat 2,
      (auditPath Sample.crypto 2 sampleLeaves).map encodeHash⟩
    (∃ (i : ℕ) (leaf : Digest), i < sampleLeaves.length ∧ p.leafIndex.toRat = i ∧
      sampleLeaves[i]? = some leaf ∧ decodeHash p.leafHash = .ok leaf) ∨
    Collision (hashInterior Sample.crypto) (treePairs (hashInterior Sample.crypto) zeroDigest
      sampleLeaves++inclusionPairs Sample.crypto p) := by
  intro p
  have hne : sampleLeaves ≠ [] := List.cons_ne_nil _ _
  have hlen : sampleLeaves.length = 3 := rfl
  have hleaf : sampleLeaves[2]? = some (Sample.digest [2]) := rfl
  have hv := verifyInclusionProof_auditPath Sample.crypto (by omega) hleaf
  have hsize : p.logSize = .ofNat sampleLeaves.length := by simp only [p]
  have hindex : p.leafIndex.isInteger = true := by
    simp only [p]
    exact Number.isInteger_ofNat (by norm_num)
  exact verifyInclusionProof_sound Sample.crypto sampleLeaves p hne (by omega) hsize hindex hv

/-- Past the guards, for different sizes, the verdict is a comparison of roots. -/
theorem verifyConsistencyProof_iff {p : ConsistencyProof} {m n : ℕ} (h0 : 0 < m) (hmn : m < n)
    (hn : n < 2^32) (hfrom : p.fromSize = .ofNat m) (hto : p.toSize = .ofNat n) (r r' : Digest) :
    verifyConsistencyProof C p r r' = true ↔ ∃ path, decodeHashes p.path = .ok path ∧
      climbPrefix (hashInterior C) (m-1) (n-1) r path = some (r,r') := by
  have hroots := computeRootsFromConsistency_eq C h0 (by omega) (by omega) hn r
  rw [verifyConsistencyProof,hfrom,hto,Number.lt_ofNat (by omega) (by norm_num),
    Number.lt_ofNat (by omega) (by norm_num),Number.lt_ofNat (by omega) (by omega),
    Number.eq_ofNat (by omega) (by omega),Number.eq_ofNat (by omega) (by norm_num)]
  rw [if_neg (by simp),if_neg (by simp; omega),if_neg (by simp; omega),if_neg (by simp; omega)]
  cases hpath : decodeHashes p.path with
  | error e => simp
  | ok path =>
    have h := hroots path
    cases hc : computeRootsFromConsistency C (.ofNat m) (.ofNat n) r path with
    | error e =>
      rw [hc] at h
      simp [hc,← h,Except.toOption]
    | ok q =>
      rw [hc] at h
      obtain ⟨a,b⟩ := q
      simp [hc,← h,Except.toOption]

theorem verifyConsistencyProof_same {p : ConsistencyProof} {n : ℕ} (hn : n < 2^32)
    (hfrom : p.fromSize = .ofNat n) (hto : p.toSize = .ofNat n) (r r' : Digest) :
    verifyConsistencyProof C p r r' = true ↔ p.path = [] ∧ r = r' := by
  rw [verifyConsistencyProof,hfrom,hto,Number.lt_ofNat (by omega) (by norm_num),
    Number.lt_ofNat (by omega) (by omega),Number.eq_ofNat (by omega) (by omega)]
  simp

/-- Consistency soundness: an accepted proof between the roots of two lists makes
the first a prefix of the second, unless two of the hashed pairs collide. -/
theorem verifyConsistencyProof_sound (D₁ D₂ : List Digest) (p : ConsistencyProof) (h₁ : D₁ ≠ [])
    (hle : D₁.length ≤ D₂.length) (hlt : D₂.length < 2^31) (hfrom : p.fromSize = .ofNat D₁.length)
    (hto : p.toSize = .ofNat D₂.length)
    (hv : verifyConsistencyProof C p (subtreeRoot C D₁) (subtreeRoot C D₂) = true) :
    D₁ <+: D₂ ∨ Collision (hashInterior C)
      (jointPairs (hashInterior C) zeroDigest D₁ D₂ (consistencyPairs C p (subtreeRoot C D₁))) := by
  have hpos := List.length_pos_of_ne_nil h₁
  refine (noCollision_or_collision _).imp_left fun hc => ?_
  rw [subtreeRoot_eq,subtreeRoot_eq] at hv
  rw [subtreeRoot_eq] at hc
  by_cases he : D₁.length = D₂.length
  · obtain ⟨-,hr⟩ := (verifyConsistencyProof_same C (by omega) (hfrom.trans (by rw [he])) hto _ _).mp hv
    have hsub : treePairs (hashInterior C) zeroDigest D₁++treePairs (hashInterior C) zeroDigest D₂ ⊆
        jointPairs (hashInterior C) zeroDigest D₁ D₂
          (consistencyPairs C p (root (hashInterior C) zeroDigest D₁)) := by
      intro q hq
      simp only [jointPairs,List.mem_append] at hq ⊢
      exact hq.imp_right .inl
    exact (eq_of_root_eq h₁ he (hc.mono hsub) hr) ▸ List.prefix_refl D₁
  · obtain ⟨path,hpath,hclimb⟩ :=
      (verifyConsistencyProof_iff C hpos (by omega) (by omega) hfrom hto _ _).mp hv
    have hpairs : consistencyPairs C p (root (hashInterior C) zeroDigest D₁) =
        climbPrefixPairs (hashInterior C) (D₁.length-1) (D₂.length-1)
          (root (hashInterior C) zeroDigest D₁) path := by
      rw [consistencyPairs,hpath,hfrom,hto,Number.toUint32_ofNat (by omega),
        Number.toUint32_ofNat (by omega),Nat.mod_eq_of_lt (by omega),Nat.mod_eq_of_lt (by omega)]
    rw [hpairs] at hc
    exact climbPrefix_sound (by omega) (by omega) (by omega) hc hclimb

/-- The proof from a prefix is accepted. -/
theorem verifyConsistencyProof_subproof {D : List Digest} {m : ℕ} (h0 : 0 < m)
    (hm : m ≤ D.length) (hlt : D.length < 2^32) :
    ∃ path, subproof C m D true = .ok path ∧
      verifyConsistencyProof C ⟨.ofNat m,.ofNat D.length,path.map encodeHash⟩
        (subtreeRoot C (D.take m)) (subtreeRoot C D) = true := by
  refine ⟨_,subproof_eq C true h0 hm,?_⟩
  by_cases he : m = D.length
  · refine (verifyConsistencyProof_same C hlt (congrArg Number.ofNat he) rfl _ _).mpr ⟨?_,?_⟩
    · rw [he,subproof_whole]
      rfl
    · rw [he,List.take_length]
  · refine (verifyConsistencyProof_iff C h0 (by omega) hlt rfl rfl _ _).mpr
      ⟨_,decodeHashes_encodeHash _,?_⟩
    have hc := climbPrefix_complete (H := hashInterior C) (z := zeroDigest)
      (show (D.take m).length = m-1+1 by rw [List.length_take]; omega)
      (show D.length = D.length-1+1 by omega) (by omega) (List.take_prefix m D)
    rw [subtreeRoot_eq,subtreeRoot_eq]
    rwa [Nat.sub_add_cancel h0] at hc

/-- From two of three leaves. -/
theorem verifyConsistencyProof_sound_sample :
    ∃ path, subproof Sample.crypto 2 sampleLeaves true = .ok path ∧
      (let p : ConsistencyProof := ⟨.ofNat 2,.ofNat sampleLeaves.length,path.map encodeHash⟩
      sampleLeaves.take 2 <+: sampleLeaves ∨ Collision (hashInterior Sample.crypto)
        (jointPairs (hashInterior Sample.crypto) zeroDigest (sampleLeaves.take 2) sampleLeaves
          (consistencyPairs Sample.crypto p
            (subtreeRoot Sample.crypto (sampleLeaves.take 2))))) := by
  have hlen : sampleLeaves.length = 3 := rfl
  have hlen2 : (sampleLeaves.take 2).length = 2 := rfl
  have hne : sampleLeaves.take 2 ≠ [] := List.cons_ne_nil _ _
  obtain ⟨path,hpath,hv⟩ := verifyConsistencyProof_subproof Sample.crypto (D := sampleLeaves)
    (m := 2) (by norm_num) (by omega) (by omega)
  refine ⟨path,hpath,?_⟩
  intro p
  have hfrom : p.fromSize = .ofNat (sampleLeaves.take 2).length := by simp only [p,hlen2]
  have hto : p.toSize = .ofNat sampleLeaves.length := by simp only [p]
  exact verifyConsistencyProof_sound Sample.crypto (sampleLeaves.take 2) sampleLeaves p hne
    (by omega) (by omega) hfrom hto hv

end Verifiers
end Merkle
end Semp
