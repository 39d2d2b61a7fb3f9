import Semp.MerkleTree

/-! The lengths of Merkle proofs: how many hashes a path through a tree has, by its
split at the largest power of two, and how many a climb over the levels takes.  Both
are one number for an index below the size. -/
namespace Semp
namespace MerkleTree

/-- The length of `PATH(m, D[0:n])`. -/
def pathLength (m n : ℕ) : ℕ :=
  if 2 ≤ n then
    if m < split n then pathLength m (split n)+1
    else pathLength (m-split n) (n-split n)+1
  else 0
termination_by n
decreasing_by
  · exact split_lt ‹2 ≤ n›
  · have := split_pos n
    omega

/-- The length of `SUBPROOF(m, D[0:n], known)`. -/
def subproofLength (m n : ℕ) (known : Bool) : ℕ :=
  if m = n then if known then 0 else 1
  else if 2 ≤ n then
    if m ≤ split n then subproofLength m (split n) known+1
    else subproofLength (m-split n) (n-split n) false+1
  else 0
termination_by n
decreasing_by
  · exact split_lt ‹2 ≤ n›
  · have := split_pos n
    omega

/-- The hashes that a climb from node `fn` takes, on a level whose last node is `sn`. -/
def rounds (fn sn : ℕ) : ℕ :=
  if sn = 0 then 0
  else if fn%2 = 1 then rounds (fn/2) (sn/2)+1
  else if fn = sn then rounds (fn/2) (sn/2)
  else rounds (fn/2) (sn/2)+1
termination_by sn

/-- The hashes that a climb for a first tree and a second one takes. -/
def prefixRounds (fn sn : ℕ) : ℕ :=
  if fn%2 = 1 then prefixRounds (fn/2) (sn/2)
  else if fn = 0 then rounds 0 sn
  else rounds fn sn+1
termination_by fn

/-- A tree of more than one leaf has a round for its last leaf. -/
theorem rounds_pos {n : ℕ} (h : 0 < n) : 0 < rounds n n := by
  induction n using Nat.strong_induction_on with
  | _ n ih =>
    rw [rounds,if_neg h.ne',if_pos rfl]
    split_ifs with hodd
    · exact Nat.succ_pos _
    · exact ih (n/2) (by omega) (by omega)

section Climbs
variable {α : Type} {H : α → α → α} {z : α}

theorem climb_isSome {fn sn : ℕ} {r : α} {path : List α} :
    (climb H fn sn r path).isSome ↔ path.length = rounds fn sn := by
  fun_induction climb H fn sn r path with
  | case1 fn r path hp => simp_all [rounds.eq_def]
  | case2 fn r path hp => simp_all [rounds.eq_def]
  | case3 fn sn r hs ho =>
    rw [rounds,if_neg hs,if_pos ho]
    simp
  | case4 fn sn r hs ho s rest ih =>
    rw [rounds,if_neg hs,if_pos ho,ih,List.length_cons,Nat.add_right_cancel_iff]
  | case5 sn r path hs ho ih => rw [rounds,if_neg hs,if_neg ho,if_pos rfl,ih]
  | case6 fn sn r hs ho hne =>
    rw [rounds,if_neg hs,if_neg ho,if_neg hne]
    simp
  | case7 fn sn r hs ho hne s rest ih =>
    rw [rounds,if_neg hs,if_neg ho,if_neg hne,ih,List.length_cons,Nat.add_right_cancel_iff]

theorem climbBoth_isSome {fn sn : ℕ} {fr sr : α} {path : List α} :
    (climbBoth H fn sn fr sr path).isSome ↔ path.length = rounds fn sn := by
  fun_induction climbBoth H fn sn fr sr path with
  | case1 fn fr sr path hp => simp_all [rounds.eq_def]
  | case2 fn fr sr path hp => simp_all [rounds.eq_def]
  | case3 fn sn fr sr hs ho =>
    rw [rounds,if_neg hs,if_pos ho]
    simp
  | case4 fn sn fr sr hs ho c rest ih =>
    rw [rounds,if_neg hs,if_pos ho,ih,List.length_cons,Nat.add_right_cancel_iff]
  | case5 sn fr sr path hs ho ih => rw [rounds,if_neg hs,if_neg ho,if_pos rfl,ih]
  | case6 fn sn fr sr hs ho hne =>
    rw [rounds,if_neg hs,if_neg ho,if_neg hne]
    simp
  | case7 fn sn fr sr hs ho hne c rest ih =>
    rw [rounds,if_neg hs,if_neg ho,if_neg hne,ih,List.length_cons,Nat.add_right_cancel_iff]

theorem climbPrefix_isSome {fn sn : ℕ} {first : α} {path : List α} :
    (climbPrefix H fn sn first path).isSome ↔ path.length = prefixRounds fn sn := by
  fun_induction climbPrefix H fn sn first path with
  | case1 fn sn ho ih => rw [prefixRounds,if_pos ho,ih]
  | case2 sn ho => rw [prefixRounds,if_neg ho,if_pos rfl,climbBoth_isSome]
  | case3 fn sn ho h0 hpath =>
    rw [prefixRounds,if_neg ho,if_neg h0,hpath]
    simp
  | case4 fn sn ho h0 c rest hpath =>
    rw [prefixRounds,if_neg ho,if_neg h0,climbBoth_isSome,hpath,List.length_cons,
      Nat.add_right_cancel_iff]

theorem length_auditPath (i : ℕ) (L : List α) :
    (auditPath H z i L).length = pathLength i L.length := by
  induction L using split_induction generalizing i with
  | leaf L h => rw [auditPath_leaf i h,pathLength,if_neg (by omega),List.length_nil]
  | node L h ihl ihr =>
    have hlt := split_lt h
    rw [pathLength,if_pos h]
    split_ifs with hi
    · rw [auditPath_left h hi,List.length_append,ihl,List.length_take,Nat.min_eq_left hlt.le]
      rfl
    · rw [auditPath_right h hi,List.length_append,ihr,List.length_drop]
      rfl

theorem length_subproof (m : ℕ) (L : List α) (known : Bool) :
    (subproof H z m L known).length = subproofLength m L.length known := by
  induction L using split_induction generalizing m known with
  | leaf L h =>
    rw [subproof,subproofLength,if_neg (show ¬ 2 ≤ L.length by omega),
      if_neg (show ¬ 2 ≤ L.length by omega)]
    split_ifs <;> rfl
  | node L h ihl ihr =>
    have hlt := split_lt h
    rw [subproof,subproofLength,if_pos h,if_pos h]
    split_ifs
    · rfl
    · rfl
    · rw [List.length_append,ihl,List.length_take,Nat.min_eq_left hlt.le]
      rfl
    · rw [List.length_append,ihr,List.length_drop]
      rfl

end Climbs

/-- For a node of the tree the climb takes its path. -/
theorem rounds_eq {fn sn : ℕ} (h : fn ≤ sn) : rounds fn sn = pathLength fn (sn+1) := by
  let L : List Unit := List.replicate (sn+1) ()
  have hlen : L.length = sn+1 := List.length_replicate
  have hclimb := climb_complete (H := fun _ _ => ()) (z := ()) hlen
    (show L[fn]? = some () by rw [List.getElem?_replicate,if_pos (by omega)])
  have hpath := climb_isSome.mp (by rw [hclimb]; rfl)
  rw [← hpath,length_auditPath,hlen]

/-- For a first tree below the second one the climb takes its subproof. -/
theorem prefixRounds_eq {fn sn : ℕ} (h : fn < sn) :
    prefixRounds fn sn = subproofLength (fn+1) (sn+1) true := by
  let A : List Unit := List.replicate (fn+1) ()
  let B : List Unit := List.replicate (sn+1) ()
  have hlen : B.length = sn+1 := List.length_replicate
  have hAB : A <+: B := List.prefix_iff_eq_take.mpr (by simp [A,B]; omega)
  have hclimb := climbPrefix_complete (H := fun _ _ => ()) (z := ()) (A := A) (B := B)
    List.length_replicate hlen h hAB
  have hpath := climbPrefix_isSome.mp (by rw [hclimb]; rfl)
  rw [← hpath,length_subproof,hlen]

end MerkleTree
end Semp
