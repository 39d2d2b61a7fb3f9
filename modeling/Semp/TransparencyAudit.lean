import Semp.TransparencyLog
import Semp.SigningKinds
import Semp.NumberOrder

/-! What a client that accepts a tree head knows of the log.  The operator appends entries, signs
tree heads, and signs records of other kinds with the same key, in any order.  As long as no
signature is forged, a head that verifies is one that the log signed, and an inclusion proof
against it is for an entry of the log. -/
namespace Semp
namespace TransparencyLog
open Merkle MerkleTree

/-- What an operator does with the log and the key. -/
inductive Act
  | append (entry : Members)
  | issueSTH (now : Number)
  | sign (x : Signed)

/-- The documents are values that `JSON.parse` gives, and heads are signed by the log only. -/
def Act.Proper : Act → Prop
  | append entry => (Json.obj entry).WF
  | issueSTH _ => True
  | sign x => x.WF ∧ x.kind ≠ .record .transparencySTH

section Code
variable (C : Crypto) (host : Host)

/-- A log, the heads it has signed, and whatever else was signed under its key. -/
structure Operator where
  log : Log C
  heads : List Members
  others : List Signed

variable {C}

/-- A call that throws changes nothing. -/
def Operator.step (op : Operator C) : Act → Operator C
  | .append entry =>
    match op.log.append host entry with
    | .ok r => { op with log := r.2 }
    | .error _ => op
  | .issueSTH now =>
    match op.log.issueSTH host now with
    | .ok sth => { op with heads := op.heads++[sth] }
    | .error _ => op
  | .sign x => { op with others := op.others++[x] }

def Operator.run (op : Operator C) (acts : List Act) : Operator C := acts.foldl (Operator.step host) op

/-- The bytes were signed under the key. -/
def Operator.Signs (op : Operator C) (bytes : Bytes) : Prop :=
  (∃ sth ∈ op.heads, RecordKind.transparencySTH.signingBytes sth = .ok bytes) ∨
    ∃ x ∈ op.others, x.bytes = .ok bytes

/-- No head that clients are shown carries a forged signature. -/
def Operator.Unforged (op : Operator C) (pub : Bytes) (shown : List Members) : Prop :=
  ∀ sth ∈ shown, ∀ bytes sig, RecordKind.transparencySTH.signingBytes sth = .ok bytes →
    verify C pub sig bytes = true → op.Signs bytes

/-- The head shows the first `n` leaves of the log. -/
structure Log.Shows (log : Log C) (sth : Members) (n : ℕ) : Prop where
  size_le : n ≤ log.size
  size : ∃ x, lookup sth (js "log_size") = some (.num x) ∧ x.eq (.ofNat n) = true
  root : lookup sth (js "root_hash") =
    some (.str (encodeHash (subtreeRoot C (log.leaves.take n))))

/-- What a run keeps. -/
structure Operator.Kept (op : Operator C) : Prop where
  heads : ∀ sth ∈ op.heads, (Json.obj sth).WF ∧ ∃ n ≤ op.log.size,
    lookup sth (js "log_size") = some (.num (.ofNat n)) ∧
    lookup sth (js "root_hash") = some (.str (encodeHash (subtreeRoot C (op.log.leaves.take n))))
  entries : ∀ entry ∈ op.log.entries, (Json.obj entry).WF
  others : ∀ x ∈ op.others, x.WF ∧ x.kind ≠ .record .transparencySTH

theorem Log.issueSTH_wf {log : Log C} {now : Number} {sth : Members}
    (h : log.issueSTH host now = .ok sth) : (Json.obj sth).WF := by
  obtain ⟨iso,-,h⟩ := bind_eq_ok.mp h
  obtain ⟨r,hr,h⟩ := bind_eq_ok.mp h
  obtain rfl := Except.ok.inj h
  obtain ⟨-,-,hr⟩ := signSTH_eq_ok C host hr
  have hwf := Json.wf_assign (preSign_wf log.leaves.length (encodeHash (subtreeRoot C log.leaves))
    (isoSecond iso)) (signatureBlock_wf signatureAlgorithmEd25519 log.cfg.domainKeyId [])
    (js "signature")
  obtain ⟨-,-,-,-,-,-,hset⟩ := SignedDoc.signSignedDoc_eq_ok hr hwf
  exact SignedDoc.setParts_wf hset (SignedDoc.wf_clone hwf)

variable {host}

theorem Operator.Kept.step {op : Operator C} (h : op.Kept) {act : Act} (hact : act.Proper) :
    (op.step host act).Kept := by
  cases act with
  | append entry =>
    unfold Operator.step
    dsimp only
    split
    · next r hr =>
      obtain ⟨i,log'⟩ := r
      obtain ⟨-,-,leaf,-,hentries,hleaves⟩ := Log.append_eq_ok host hr
      refine ⟨fun sth hsth => ?_,?_,h.others⟩
      · obtain ⟨hwf,n,hn,hsize,hroot⟩ := h.heads sth hsth
        have hn' : n ≤ op.log.leaves.length := hn
        refine ⟨hwf,n,?_,hsize,?_⟩
        · rw [Log.size,hleaves,List.length_append]
          omega
        · rw [hleaves,List.take_append_of_le_length hn']
          exact hroot
      · rw [hentries]
        exact List.forall_mem_append.mpr ⟨h.entries,List.forall_mem_singleton.mpr hact⟩
    · exact h
  | issueSTH now =>
    unfold Operator.step
    dsimp only
    split
    · next sth hsth =>
      obtain ⟨hsize,hroot⟩ := Log.issueSTH_eq_ok host hsth
      refine ⟨List.forall_mem_append.mpr ⟨h.heads,?_⟩,h.entries,h.others⟩
      refine List.forall_mem_singleton.mpr
        ⟨Log.issueSTH_wf host hsth,op.log.size,le_rfl,hsize,?_⟩
      rw [Log.size,List.take_length]
      exact hroot
    · exact h
  | sign x => exact ⟨h.heads,h.entries,List.forall_mem_append.mpr
      ⟨h.others,List.forall_mem_singleton.mpr hact⟩⟩

theorem Operator.Kept.run {op : Operator C} (h : op.Kept) {acts : List Act}
    (hacts : ∀ act ∈ acts, act.Proper) : (op.run host acts).Kept := by
  induction acts generalizing op with
  | nil => exact h
  | cons act acts ih =>
    obtain ⟨hact,hacts⟩ := List.forall_mem_cons.mp hacts
    exact ih (h.step hact) hacts

/-- A client finds an entry in the tree of a head. -/
structure AcceptsEntry (C : Crypto) (sth : Members) (proof : InclusionProof) (entry : Members) :
    Prop where
  size : ∃ x, lookup sth (js "log_size") = some (.num x) ∧ proof.logSize.eq x = true
  index : proof.leafIndex.isInteger = true
  leaf : ∃ leaf, hashLeafFromEntry C entry = .ok leaf ∧ decodeHash proof.leafHash = .ok leaf
  root : ∃ hash root, lookup sth (js "root_hash") = some (.str hash) ∧
    decodeHash hash = .ok root ∧ verifyInclusionProof C proof root = true

/-- Two entries that differ, and have one leaf. -/
def LeafCollision (C : Crypto) (entry own : Members) : Prop :=
  Canonical.canonicalBytes (.obj entry) ≠ Canonical.canonicalBytes (.obj own) ∧
    hashLeaf C (Canonical.canonicalBytes (.obj entry)) =
      hashLeaf C (Canonical.canonicalBytes (.obj own))

/-- What an accepted proof against the root of a tree climbs from. -/
theorem climb_of_accepted {D : List Digest} {proof : InclusionProof} (hlt : D.length < 2^32)
    (hsize : proof.logSize.eq (.ofNat D.length) = true) (hint : proof.leafIndex.isInteger = true)
    (hv : verifyInclusionProof C proof (subtreeRoot C D) = true) :
    ∃ (i : ℕ) (leaf : Digest) (siblings : List Digest), i < D.length ∧
      proof.leafIndex.toRat = i ∧ decodeHash proof.leafHash = .ok leaf ∧
      inclusionPairs C proof = climbPairs (hashInterior C) i (D.length-1) leaf siblings ∧
      climb (hashInterior C) i (D.length-1) leaf siblings =
        some (root (hashInterior C) zeroDigest D) := by
  rcases Nat.eq_zero_or_pos D.length with hzero | hpos
  · have hnan : proof.logSize.isNaN = false := by
      rw [← Bool.not_eq_true]
      intro hn
      cases hp : proof.logSize <;> rw [hp] at hsize hn <;> simp_all [Number.eq,Number.isNaN]
    have hle : proof.logSize.le (.ofNat 0) = true := by
      rw [hzero] at hsize
      exact (Number.le_iff_place hnan rfl).mpr ((Number.eq_iff_place hnan rfl).mp hsize).le
    rw [verifyInclusionProof,if_pos hle] at hv
    cases hv
  have hsize := (Number.eq_ofNat_iff (by omega) hpos).mp (Number.eq_symm hsize)
  obtain ⟨i,hi,hrat,hindex⟩ := isInteger_index C hlt hsize hint hv
  let q : InclusionProof := { proof with leafIndex := .ofNat i }
  have hq : verifyInclusionProof C q (subtreeRoot C D) = true := by
    rcases hindex with h | ⟨rfl,h⟩
    · have hsame : q = proof := by simp only [q,← h]
      rwa [hsame]
    · rwa [← verifyInclusionProof_negZero C hlt hsize h]
  obtain ⟨leaf,siblings,hleaf,hpath,hclimb⟩ :=
    (verifyInclusionProof_iff C (p := q) hi hlt hsize rfl (subtreeRoot C D)).mp hq
  have hu : proof.leafIndex.toUint32 = i := by
    rcases hindex with h | ⟨rfl,h⟩
    · rw [h,Number.toUint32_ofNat (by omega),Nat.mod_eq_of_lt (by omega)]
    · rw [h]
      simp [Number.zero,Number.toUint32]
  have hleaf : decodeHash proof.leafHash = .ok leaf := hleaf
  have hpath : decodeHashes proof.path = .ok siblings := hpath
  refine ⟨i,leaf,siblings,hi,hrat,hleaf,?_,by rwa [subtreeRoot_eq] at hclimb⟩
  rw [inclusionPairs,hleaf,hpath,hu,hsize,Number.toUint32_ofNat (by omega),
    Nat.mod_eq_of_lt (by omega)]

/-- An entry found in the tree of a head is the log's own, unless there is a collision. -/
theorem Log.Shows.entry {log : Log C} {sth entry : Members} {n : ℕ} {proof : InclusionProof}
    (h : log.Shows sth n) (hown : ∀ e ∈ log.entries, (Json.obj e).WF)
    (hwf : (Json.obj entry).WF) (ha : AcceptsEntry C sth proof entry) :
    (∃ (i : ℕ) (own : Members), i < n ∧ proof.leafIndex.toRat = i ∧ log.entries[i]? = some own ∧
      ((Json.obj entry).norm = (Json.obj own).norm ∨ LeafCollision C entry own)) ∨
    Collision (hashInterior C) (treePairs (hashInterior C) zeroDigest (log.leaves.take n)++
      inclusionPairs C proof) := by
  have hb := log.bounded
  have hle : n ≤ log.leaves.length := h.size_le
  have hlen : (log.leaves.take n).length = n := by
    rw [List.length_take]
    exact Nat.min_eq_left hle
  obtain ⟨x,hx,hsize⟩ := ha.size
  obtain ⟨y,hy,heq⟩ := h.size
  obtain rfl : x = y := by simpa using hx.symm.trans hy
  obtain ⟨hash,root,hhash,hroot,hv⟩ := ha.root
  obtain rfl : hash = encodeHash (subtreeRoot C (log.leaves.take n)) := by
    simpa using hhash.symm.trans h.root
  obtain rfl : subtreeRoot C (log.leaves.take n) = root :=
    Except.ok.inj ((decodeHash_encodeHash _).symm.trans hroot)
  obtain ⟨leaf,hhashed,hleaf⟩ := ha.leaf
  obtain ⟨i,leaf',siblings,hi,hrat,hleaf',hpairs,hclimb⟩ := climb_of_accepted
    (by omega) (by rw [hlen]; exact Number.eq_trans hsize heq) ha.index hv
  obtain rfl : leaf = leaf' := Except.ok.inj (hleaf.symm.trans hleaf')
  rw [hlen] at hi
  refine (noCollision_or_collision _).imp_left fun hc => ?_
  rw [hpairs] at hc
  have hat := climb_sound (by omega) (by omega) hc hclimb
  rw [List.getElem?_take_of_lt hi] at hat
  obtain ⟨hlt,hat⟩ := List.getElem?_eq_some_iff.mp hat
  have hlt' : i < log.entries.length := by rwa [log.hashed.length_eq]
  have hle := log.hashed.get hlt' hlt
  have hown := hown _ (List.getElem_mem hlt')
  rw [hashLeafFromEntry,Canonical.marshal_eq hwf,ok_bind] at hhashed
  rw [List.get_eq_getElem,List.get_eq_getElem,hashLeafFromEntry,Canonical.marshal_eq hown,ok_bind,
    hat] at hle
  refine ⟨i,log.entries[i],hi,hrat,List.getElem?_eq_getElem hlt',?_⟩
  have hsame := (Except.ok.inj hhashed).trans (Except.ok.inj hle).symm
  by_cases hbytes : Canonical.canonicalBytes (.obj entry) =
      Canonical.canonicalBytes (.obj log.entries[i])
  · exact .inl ((Canonical.canonicalBytes_inj hwf hown).mp hbytes)
  · exact .inr ⟨hbytes,hsame⟩

/-- The log's own proofs are accepted under the head. -/
theorem Log.Shows.accepts {log : Log C} {sth : Members} {n i : ℕ} (h : log.Shows sth n)
    (hi : i < n) : ∃ own proof, log.entries[i]? = some own ∧
      log.inclusionProof (.ofNat i) (.ofNat n) = .ok proof ∧ AcceptsEntry C sth proof own := by
  have hb := log.bounded
  have hle : n ≤ log.leaves.length := h.size_le
  have hlt : i < log.leaves.length := by omega
  have hlt' : i < log.entries.length := by rwa [log.hashed.length_eq]
  have hleaf : hashLeafFromEntry C log.entries[i] = .ok log.leaves[i] := log.hashed.get hlt' hlt
  have hlen : (log.leaves.take n).length = n := by
    rw [List.length_take]
    exact Nat.min_eq_left hle
  have hget : (log.leaves.take n)[i]? = some log.leaves[i] := by
    rw [List.getElem?_take_of_lt hi,List.getElem?_eq_getElem hlt]
  have hv := verifyInclusionProof_auditPath C (by omega) hget
  rw [hlen] at hv
  have hgetD : log.leaves.getD i zeroDigest = log.leaves[i] := by
    rw [List.getD_eq_getElem?_getD,List.getElem?_eq_getElem hlt]
    rfl
  obtain ⟨x,hx,hsize⟩ := h.size
  refine ⟨log.entries[i],_,List.getElem?_eq_getElem hlt',log.inclusionProof_eq hle hi,
    ⟨x,hx,Number.eq_symm hsize⟩,Number.isInteger_ofNat (by omega),⟨_,hleaf,?_⟩,
    _,_,h.root,decodeHash_encodeHash _,?_⟩
  · rw [hgetD,decodeHash_encodeHash]
  · rw [hgetD]
    exact hv

def sizeIs (n : ℕ) (sth : Members) : Bool :=
  match lookup sth (js "log_size") with
  | some (.num x) => x.eq (.ofNat n)
  | _ => false

theorem Log.Shows.unique {log : Log C} {sth : Members} {m n : ℕ} (h : log.Shows sth m)
    (hn : n < 2^53) (hs : sizeIs n sth = true) : m = n := by
  have hb := log.bounded
  have hm : m ≤ log.leaves.length := h.size_le
  obtain ⟨x,hx,heq⟩ := h.size
  rw [sizeIs,hx] at hs
  have hmn := Number.eq_trans (Number.eq_symm heq) hs
  rw [Number.eq_ofNat (by omega) hn] at hmn
  simpa using hmn

end Code
end TransparencyLog
end Semp
