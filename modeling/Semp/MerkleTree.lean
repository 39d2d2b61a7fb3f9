import Mathlib.Data.Nat.Log
import Mathlib.Data.List.Basic
import Mathlib.Tactic.Ring

/-! Merkle trees over any hash of pairs.  The root splits a list at the largest
power of two below its length; `levelUp` joins neighbours and carries an odd last
node up.  Both give one root, and climbing a path follows the levels. -/
namespace Semp
namespace MerkleTree

/-- Largest power of two below `n`, for `n` at least 2. -/
def split (n : ℕ) : ℕ := 2^Nat.log 2 (n-1)

theorem split_pos (n : ℕ) : 0 < split n := Nat.two_pow_pos _

theorem split_lt {n : ℕ} (h : 2 ≤ n) : split n < n := by
  have := Nat.pow_log_le_self 2 (show n-1 ≠ 0 by omega)
  rw [split]
  omega

theorem split_half {n : ℕ} (h : 3 ≤ n) : split n = 2*split ((n+1)/2) := by
  have hlog := Nat.log_of_one_lt_of_le Nat.one_lt_two (show 2 ≤ n-1 by omega)
  rw [split,split,← pow_succ',hlog]
  congr 3
  omega

section Tree
variable {α : Type} (H : α → α → α) (z : α)

/-- The root of a list of leaves, `z` for no leaves. -/
def root (L : List α) : α :=
  if 2 ≤ L.length then
    H (root (L.take (split L.length))) (root (L.drop (split L.length)))
  else L.headD z
termination_by L.length
decreasing_by
  · have := split_lt ‹2 ≤ L.length›
    simp only [List.length_take]
    omega
  · have := split_pos L.length
    simp only [List.length_drop]
    omega

/-- The pairs hashed on the way to the root. -/
def treePairs (L : List α) : List (α × α) :=
  if 2 ≤ L.length then
    (root H z (L.take (split L.length)),root H z (L.drop (split L.length)))::
      (treePairs (L.take (split L.length))++treePairs (L.drop (split L.length)))
  else []
termination_by L.length
decreasing_by
  · have := split_lt ‹2 ≤ L.length›
    simp only [List.length_take]
    omega
  · have := split_pos L.length
    simp only [List.length_drop]
    omega

/-- Siblings of leaf `i` from the bottom up. -/
def auditPath (i : ℕ) (L : List α) : List α :=
  if 2 ≤ L.length then
    if i < split L.length then
      auditPath i (L.take (split L.length))++[root H z (L.drop (split L.length))]
    else auditPath (i-split L.length) (L.drop (split L.length))++
      [root H z (L.take (split L.length))]
  else []
termination_by L.length
decreasing_by
  · have := split_lt ‹2 ≤ L.length›
    simp only [List.length_take]
    omega
  · have := split_pos L.length
    simp only [List.length_drop]
    omega

/-- The hashes that relate the first `m` leaves to all of them.  While `known`
holds, the root of the `m` leaves is the verifier's own. -/
def subproof (m : ℕ) (L : List α) (known : Bool) : List α :=
  if m = L.length then if known then [] else [root H z L]
  else if 2 ≤ L.length then
    if m ≤ split L.length then
      subproof m (L.take (split L.length)) known++[root H z (L.drop (split L.length))]
    else subproof (m-split L.length) (L.drop (split L.length)) false++
      [root H z (L.take (split L.length))]
  else []
termination_by L.length
decreasing_by
  · have := split_lt ‹2 ≤ L.length›
    simp only [List.length_take]
    omega
  · have := split_pos L.length
    simp only [List.length_drop]
    omega

/-- The next level of the tree. -/
def levelUp : List α → List α
  | a::b::L => H a b::levelUp L
  | L => L

def levelPairs : List α → List (α × α)
  | a::b::L => (a,b)::levelPairs L
  | _ => []

/-- No two pairs of the list collide. -/
def NoCollision (pairs : List (α × α)) : Prop :=
  ∀ p ∈ pairs, ∀ q ∈ pairs, H p.1 p.2 = H q.1 q.2 → p = q

/-- Two pairs of the list that collide. -/
def Collision (pairs : List (α × α)) : Prop :=
  ∃ p ∈ pairs, ∃ q ∈ pairs, p ≠ q ∧ H p.1 p.2 = H q.1 q.2

variable {H z}

theorem noCollision_or_collision (pairs : List (α × α)) :
    NoCollision H pairs ∨ Collision H pairs := by
  by_cases h : NoCollision H pairs
  · exact .inl h
  · right
    unfold NoCollision at h
    push Not at h
    obtain ⟨p,hp,q,hq,he,hne⟩ := h
    exact ⟨p,hp,q,hq,hne,he⟩

theorem NoCollision.mono {S T : List (α × α)} (h : NoCollision H T) (hs : S ⊆ T) :
    NoCollision H S := fun p hp q hq => h p (hs hp) q (hs hq)

theorem NoCollision.pair {S : List (α × α)} (h : NoCollision H S) {a b c d : α}
    (hp : (a,b) ∈ S) (hq : (c,d) ∈ S) (he : H a b = H c d) : a = c ∧ b = d :=
  Prod.mk.inj (h _ hp _ hq he)

/-- Induction over the split tree. -/
theorem split_induction {motive : List α → Prop} (leaf : ∀ L, L.length < 2 → motive L)
    (node : ∀ L, 2 ≤ L.length → motive (L.take (split L.length)) →
      motive (L.drop (split L.length)) → motive L) (L : List α) : motive L := by
  induction hn : L.length using Nat.strong_induction_on generalizing L with
  | _ n ih =>
    subst hn
    by_cases h : 2 ≤ L.length
    · have hlt := split_lt h
      have hpos := split_pos L.length
      exact node L h (ih _ (by simp only [List.length_take]; omega) _ rfl)
        (ih _ (by simp only [List.length_drop]; omega) _ rfl)
    · exact leaf L (by omega)

theorem root_leaf {L : List α} (h : L.length < 2) : root H z L = L.headD z := by
  rw [root,if_neg (by omega)]

@[simp] theorem root_singleton (a : α) : root H z [a] = a := root_leaf (by simp)

theorem root_node {L : List α} (h : 2 ≤ L.length) : root H z L =
    H (root H z (L.take (split L.length))) (root H z (L.drop (split L.length))) := by
  rw [root,if_pos h]

theorem treePairs_node {L : List α} (h : 2 ≤ L.length) : treePairs H z L =
    (root H z (L.take (split L.length)),root H z (L.drop (split L.length)))::
      (treePairs H z (L.take (split L.length))++treePairs H z (L.drop (split L.length))) := by
  rw [treePairs,if_pos h]

theorem auditPath_leaf {L : List α} (i : ℕ) (h : L.length < 2) : auditPath H z i L = [] := by
  rw [auditPath,if_neg (by omega)]

theorem auditPath_left {L : List α} {i : ℕ} (h : 2 ≤ L.length) (hi : i < split L.length) :
    auditPath H z i L = auditPath H z i (L.take (split L.length))++
      [root H z (L.drop (split L.length))] := by
  rw [auditPath,if_pos h,if_pos hi]

theorem auditPath_right {L : List α} {i : ℕ} (h : 2 ≤ L.length) (hi : ¬i < split L.length) :
    auditPath H z i L = auditPath H z (i-split L.length) (L.drop (split L.length))++
      [root H z (L.take (split L.length))] := by
  rw [auditPath,if_pos h,if_neg hi]

@[simp] theorem length_levelUp (L : List α) : (levelUp H L).length = (L.length+1)/2 := by
  fun_induction levelUp H L with
  | case1 a b L ih => simp [ih]; omega
  | case2 L h =>
    match L, h with
    | [], _ => simp
    | [a], _ => simp
    | a::b::L, h => exact absurd rfl (h a b L)

theorem levelUp_short {L : List α} (h : L.length < 2) : levelUp H L = L := by
  match L, h with
  | [], _ => rfl
  | [a], _ => rfl

theorem levelUp_append {A : List α} (B : List α) (hA : A.length%2 = 0) :
    levelUp H (A++B) = levelUp H A++levelUp H B := by
  fun_induction levelUp H A with
  | case1 a b A ih =>
    simp only [List.length_cons] at hA
    simp only [List.cons_append,levelUp,ih (by omega)]
  | case2 A h =>
    match A, h with
    | [], _ => rfl
    | [a], _ => simp at hA
    | a::b::A, h => exact absurd rfl (h a b A)

theorem levelPairs_append {A : List α} (B : List α) (hA : A.length%2 = 0) :
    levelPairs (A++B) = levelPairs A++levelPairs B := by
  fun_induction levelPairs A with
  | case1 a b A ih =>
    simp only [List.length_cons] at hA
    simp only [List.cons_append,levelPairs,ih (by omega)]
  | case2 A h =>
    match A, h with
    | [], _ => rfl
    | [a], _ => simp at hA
    | a::b::A, h => exact absurd rfl (h a b A)

/-- The levels split where the leaves do. -/
theorem levelUp_split {L : List α} (h : 3 ≤ L.length) :
    (levelUp H L).take (split (levelUp H L).length) = levelUp H (L.take (split L.length)) ∧
    (levelUp H L).drop (split (levelUp H L).length) =
      levelUp H (L.drop (split L.length)) := by
  have hlt := split_lt (show 2 ≤ L.length by omega)
  have hk := split_half h
  have hlen : (L.take (split L.length)).length = split L.length := by
    rw [List.length_take]
    omega
  have happ := levelUp_append (H := H) (L.drop (split L.length))
    (show (L.take (split L.length)).length%2 = 0 by omega)
  rw [List.take_append_drop] at happ
  have hup : (levelUp H (L.take (split L.length))).length = split (levelUp H L).length := by
    rw [length_levelUp,length_levelUp,hlen]
    omega
  constructor
  · rw [happ,List.take_left']
    rw [hup,happ]
  · rw [happ,List.drop_left']
    rw [hup,happ]

theorem levelUp_pair (a b : α) : levelUp H [a,b] = [H a b] := rfl

theorem eq_pair {L : List α} (h : L.length = 2) : ∃ a b, L = [a,b] := by
  match L, h with
  | [a,b], _ => exact ⟨a,b,rfl⟩

theorem split_two : split 2 = 1 := by simp [split]

/-- A level has the root of the leaves. -/
theorem root_levelUp (L : List α) : root H z (levelUp H L) = root H z L := by
  induction L using split_induction with
  | leaf L h => rw [levelUp_short h]
  | node L h ihl ihr =>
    by_cases h2 : L.length = 2
    · obtain ⟨a,b,rfl⟩ := eq_pair h2
      rw [levelUp_pair,root_singleton,root_node (by simp)]
      simp [split_two]
    · obtain ⟨ht,hd⟩ := levelUp_split (H := H) (show 3 ≤ L.length by omega)
      rw [root_node (show 2 ≤ (levelUp H L).length by rw [length_levelUp]; omega),ht,hd,
        ihl,ihr,root_node h]

theorem levelPairs_subset (L : List α) : levelPairs L ⊆ treePairs H z L := by
  induction L using split_induction with
  | leaf L h =>
    match L, h with
    | [], _ => simp [levelPairs]
    | [a], _ => simp [levelPairs]
  | node L h ihl ihr =>
    rw [treePairs_node h]
    by_cases h2 : L.length = 2
    · obtain ⟨a,b,rfl⟩ := eq_pair h2
      simp [levelPairs,split_two]
    · have hlt := split_lt h
      have hk := split_half (show 3 ≤ L.length by omega)
      have happ := levelPairs_append (L.drop (split L.length))
        (show (L.take (split L.length)).length%2 = 0 by rw [List.length_take]; omega)
      rw [List.take_append_drop] at happ
      rw [happ]
      exact List.subset_cons_of_subset _
        (List.append_subset.mpr ⟨fun p hp => List.mem_append_left _ (ihl hp),
          fun p hp => List.mem_append_right _ (ihr hp)⟩)

theorem treePairs_levelUp (L : List α) :
    treePairs H z (levelUp H L) ⊆ treePairs H z L := by
  induction L using split_induction with
  | leaf L h => rw [levelUp_short h]; exact fun _ hp => hp
  | node L h ihl ihr =>
    by_cases h2 : L.length = 2
    · obtain ⟨a,b,rfl⟩ := eq_pair h2
      rw [levelUp_pair,treePairs]
      simp
    · obtain ⟨ht,hd⟩ := levelUp_split (H := H) (show 3 ≤ L.length by omega)
      rw [treePairs_node (show 2 ≤ (levelUp H L).length by rw [length_levelUp]; omega),ht,hd,
        treePairs_node h,root_levelUp,root_levelUp]
      exact List.cons_subset_cons _ (List.append_subset.mpr
        ⟨fun p hp => List.mem_append_left _ (ihl hp),fun p hp => List.mem_append_right _ (ihr hp)⟩)

/-- A node with two children. -/
theorem levelUp_node {L : List α} {j : ℕ} (h : 2*j+1 < L.length) :
    ∃ a b, L[2*j]? = some a ∧ L[2*j+1]? = some b ∧ (a,b) ∈ levelPairs L ∧
      (levelUp H L)[j]? = some (H a b) := by
  induction j generalizing L with
  | zero =>
    match L, h with
    | a::b::L, _ => exact ⟨a,b,rfl,rfl,by simp [levelPairs],rfl⟩
  | succ j ih =>
    match L, h with
    | a::b::L, h =>
      simp only [List.length_cons] at h
      obtain ⟨c,d,hc,hd,hp,he⟩ := ih (show 2*j+1 < L.length by omega)
      refine ⟨c,d,?_,?_,by simp [levelPairs,hp],?_⟩
      · simpa [show 2*(j+1) = 2*j+2 by ring] using hc
      · simpa [show 2*(j+1)+1 = 2*j+1+2 by ring] using hd
      · simpa [levelUp] using he

/-- An odd last node is carried up. -/
theorem levelUp_last {L : List α} {j : ℕ} (h : 2*j+1 = L.length) :
    (levelUp H L)[j]? = L[2*j]? := by
  induction j generalizing L with
  | zero =>
    match L, h with
    | [a], _ => rfl
  | succ j ih =>
    match L, h with
    | a::b::L, h =>
      simp only [List.length_cons] at h
      have := ih (show 2*j+1 = L.length by omega)
      simpa [levelUp,show 2*(j+1) = 2*j+2 by ring] using this

theorem take_levelUp {L : List α} {j : ℕ} (h : 2*j ≤ L.length) :
    (levelUp H L).take j = levelUp H (L.take (2*j)) := by
  have hlen : (L.take (2*j)).length = 2*j := by
    rw [List.length_take]
    omega
  have happ := levelUp_append (H := H) (L.drop (2*j))
    (show (L.take (2*j)).length%2 = 0 by omega)
  rw [List.take_append_drop] at happ
  rw [happ,List.take_left']
  rw [length_levelUp,hlen]
  omega

theorem levelPairs_take (L : List α) (j : ℕ) : levelPairs (L.take (2*j)) ⊆ levelPairs L := by
  induction j generalizing L with
  | zero => simp [levelPairs]
  | succ j ih =>
    rw [show 2*(j+1) = 2*j+2 by ring]
    match L with
    | [] => simp [levelPairs]
    | [a] => simp [levelPairs]
    | a::b::L => exact List.cons_subset_cons _ (ih L)

/-- A level determines the nodes below it. -/
theorem levelUp_injective {A B : List α} (hlen : A.length = B.length)
    (hc : NoCollision H (levelPairs A++levelPairs B))
    (he : levelUp H A = levelUp H B) : A = B := by
  fun_induction levelUp H A generalizing B with
  | case1 a b A ih =>
    match B, hlen with
    | c::d::B, hlen =>
      simp only [List.length_cons] at hlen
      simp only [levelUp,List.cons.injEq] at he
      obtain ⟨rfl,rfl⟩ := hc.pair (by simp [levelPairs]) (by simp [levelPairs]) he.1
      have hs : levelPairs A++levelPairs B ⊆ levelPairs (a::b::A)++levelPairs (a::b::B) := by
        intro p hp
        simp only [levelPairs,List.mem_append,List.mem_cons] at hp ⊢
        tauto
      rw [ih (by omega) (hc.mono hs) he.2]
  | case2 A h =>
    have hA : A.length < 2 := by
      match A, h with
      | [], _ => simp
      | [a], _ => simp
      | a::b::A, h => exact absurd rfl (h a b A)
    rwa [levelUp_short (by omega)] at he

end Tree
section Climb
variable {α : Type} (H : α → α → α) (z : α)

/-- Climb from node `fn` of a level whose last node is `sn`: a left sibling comes
before an odd node, an even last node is carried up, any other node has a right
sibling. -/
def climb (fn sn : ℕ) (r : α) (path : List α) : Option α :=
  if sn = 0 then if path.isEmpty then some r else none
  else if fn%2 = 1 then
    match path with
    | [] => none
    | s::rest => climb (fn/2) (sn/2) (H s r) rest
  else if fn = sn then climb (fn/2) (sn/2) r path
  else
    match path with
    | [] => none
    | s::rest => climb (fn/2) (sn/2) (H r s) rest
termination_by sn

/-- The pairs a climb hashes. -/
def climbPairs (fn sn : ℕ) (r : α) (path : List α) : List (α × α) :=
  if sn = 0 then []
  else if fn%2 = 1 then
    match path with
    | [] => []
    | s::rest => (s,r)::climbPairs (fn/2) (sn/2) (H s r) rest
  else if fn = sn then climbPairs (fn/2) (sn/2) r path
  else
    match path with
    | [] => []
    | s::rest => (r,s)::climbPairs (fn/2) (sn/2) (H r s) rest
termination_by sn

/-- The same climb for the node `fn` of two trees at once, where the first tree
ends at that node. -/
def climbBoth (fn sn : ℕ) (fr sr : α) (path : List α) : Option (α × α) :=
  if sn = 0 then if path.isEmpty then some (fr,sr) else none
  else if fn%2 = 1 then
    match path with
    | [] => none
    | c::rest => climbBoth (fn/2) (sn/2) (H c fr) (H c sr) rest
  else if fn = sn then climbBoth (fn/2) (sn/2) fr sr path
  else
    match path with
    | [] => none
    | c::rest => climbBoth (fn/2) (sn/2) fr (H sr c) rest
termination_by sn

def climbBothPairs (fn sn : ℕ) (fr sr : α) (path : List α) : List (α × α) :=
  if sn = 0 then []
  else if fn%2 = 1 then
    match path with
    | [] => []
    | c::rest => (c,fr)::(c,sr)::climbBothPairs (fn/2) (sn/2) (H c fr) (H c sr) rest
  else if fn = sn then climbBothPairs (fn/2) (sn/2) fr sr path
  else
    match path with
    | [] => []
    | c::rest => (sr,c)::climbBothPairs (fn/2) (sn/2) fr (H sr c) rest
termination_by sn

/-- The levels at which the first tree is complete are skipped, then the climb
starts at the given hash or, where the whole first tree is one node, at its root. -/
def climbPrefix (fn sn : ℕ) (first : α) (path : List α) : Option (α × α) :=
  if fn%2 = 1 then climbPrefix (fn/2) (sn/2) first path
  else if fn = 0 then climbBoth H 0 sn first first path
  else
    match path with
    | [] => none
    | c::rest => climbBoth H fn sn c c rest
termination_by fn

def climbPrefixPairs (fn sn : ℕ) (first : α) (path : List α) : List (α × α) :=
  if fn%2 = 1 then climbPrefixPairs (fn/2) (sn/2) first path
  else if fn = 0 then climbBothPairs H 0 sn first first path
  else
    match path with
    | [] => []
    | c::rest => climbBothPairs H fn sn c c rest
termination_by fn

variable {H z}

theorem getElem_single {L : List α} {r : α} (hlen : L.length = 1) (h : L[0]? = some r) :
    L = [r] := by
  match L, hlen with
  | [a], _ => simpa using h

/-- A path that climbs from `r` to the root of a tree starts at the tree's own
node, unless two of the hashed pairs collide. -/
theorem climb_sound {L : List α} {fn sn : ℕ} {r : α} {path : List α} (hlen : L.length = sn+1)
    (hfn : fn ≤ sn) (hc : NoCollision H (treePairs H z L++climbPairs H fn sn r path))
    (hr : climb H fn sn r path = some (root H z L)) : L[fn]? = some r := by
  fun_induction climb H fn sn r path generalizing L with
  | case1 fn r path hp =>
    obtain rfl : fn = 0 := by omega
    match L, hlen with
    | [a], _ => simpa [eq_comm] using hr
  | case2 => simp at hr
  | case3 => simp at hr
  | case4 fn sn r hs ho s rest ih =>
    obtain ⟨j,rfl⟩ : ∃ j, fn = 2*j+1 := ⟨fn/2,by omega⟩
    obtain ⟨a,b,ha,hb,hab,hup⟩ := levelUp_node (H := H) (show 2*j+1 < L.length by omega)
    rw [climbPairs,if_neg hs,if_pos ho] at hc
    have hj : (2*j+1)/2 = j := by omega
    rw [hj] at ih hr hc
    have hup' := ih (L := levelUp H L) (by rw [length_levelUp]; omega) (by omega)
      (hc.mono (List.append_subset.mpr ⟨fun p hp => List.mem_append_left _ (treePairs_levelUp L hp),
        fun p hp => by simp [hp]⟩)) (by rw [root_levelUp,hr])
    rw [hup,Option.some.injEq] at hup'
    obtain ⟨-,rfl⟩ := hc.pair (List.mem_append_left _ (levelPairs_subset L hab)) (by simp) hup'
    exact hb
  | case5 sn r path hs ho ih =>
    obtain ⟨j,rfl⟩ : ∃ j, sn = 2*j := ⟨sn/2,by omega⟩
    rw [climbPairs.eq_def,if_neg hs,if_neg ho,if_pos rfl] at hc
    have hj : 2*j/2 = j := by omega
    rw [hj] at ih hr hc
    have hup' := ih (L := levelUp H L) (by rw [length_levelUp]; omega) le_rfl
      (hc.mono (List.append_subset.mpr ⟨fun p hp => List.mem_append_left _ (treePairs_levelUp L hp),
        List.subset_append_right _ _⟩)) (by rw [root_levelUp,hr])
    rwa [levelUp_last (by omega)] at hup'
  | case6 => simp at hr
  | case7 fn sn r hs ho hne s rest ih =>
    obtain ⟨j,rfl⟩ : ∃ j, fn = 2*j := ⟨fn/2,by omega⟩
    obtain ⟨a,b,ha,hb,hab,hup⟩ := levelUp_node (H := H) (show 2*j+1 < L.length by omega)
    rw [climbPairs,if_neg hs,if_neg ho,if_neg hne] at hc
    have hj : 2*j/2 = j := by omega
    rw [hj] at ih hr hc
    have hup' := ih (L := levelUp H L) (by rw [length_levelUp]; omega) (by omega)
      (hc.mono (List.append_subset.mpr ⟨fun p hp => List.mem_append_left _ (treePairs_levelUp L hp),
        fun p hp => by simp [hp]⟩)) (by rw [root_levelUp,hr])
    rw [hup,Option.some.injEq] at hup'
    obtain ⟨rfl,-⟩ := hc.pair (List.mem_append_left _ (levelPairs_subset L hab)) (by simp) hup'
    exact ha

/-- The sibling of node `i`, if it has one. -/
def sibling (i : ℕ) (L : List α) : List α := (L[if i%2 = 1 then i-1 else i+1]?).toList

/-- An audit path lists the siblings level by level. -/
theorem auditPath_levelUp {L : List α} {i : ℕ} (h : 2 ≤ L.length) (hi : i < L.length) :
    auditPath H z i L = sibling i L++auditPath H z (i/2) (levelUp H L) := by
  induction L using split_induction generalizing i with
  | leaf L hL => omega
  | node L _ ihl ihr =>
    by_cases h2 : L.length = 2
    · obtain ⟨a,b,rfl⟩ := eq_pair h2
      have hone (i : ℕ) (x : α) : auditPath H z i [x] = [] := auditPath_leaf i (by simp)
      rw [levelUp_pair,hone]
      match i, hi with
      | 0, _ =>
        rw [auditPath_left h (by simp [split_two])]
        simp [split_two,sibling,hone]
      | 1, _ =>
        rw [auditPath_right h (by simp [split_two])]
        simp [split_two,sibling,hone]
    · obtain ⟨ht,hd⟩ := levelUp_split (H := H) (show 3 ≤ L.length by omega)
      have hlt := split_lt h
      have hk := split_half (show 3 ≤ L.length by omega)
      have hpos := split_pos ((L.length+1)/2)
      have hsplit : split (levelUp H L).length = split L.length/2 := by
        rw [length_levelUp]
        omega
      have hup : 2 ≤ (levelUp H L).length := by
        rw [length_levelUp]
        omega
      by_cases hik : i < split L.length
      · have hsib : sibling i (L.take (split L.length)) = sibling i L := by
          rw [sibling,sibling,List.getElem?_take_of_lt]
          split <;> omega
        rw [auditPath_left h hik,ihl (by rw [List.length_take]; omega)
          (by rw [List.length_take]; omega),hsib,List.append_assoc,
          auditPath_left (L := levelUp H L) hup (by omega),ht,hd,root_levelUp]
      · have hdl : (L.drop (split L.length)).length = L.length-split L.length := List.length_drop
        have hsib : sibling (i-split L.length) (L.drop (split L.length)) = sibling i L := by
          rw [sibling,sibling,List.getElem?_drop]
          congr 2
          split <;> split <;> omega
        have hdiv : (i-split L.length)/2 = i/2-split (levelUp H L).length := by omega
        have hrec : auditPath H z (i-split L.length) (L.drop (split L.length)) =
            sibling i L++auditPath H z (i/2-split (levelUp H L).length)
              (levelUp H (L.drop (split L.length))) := by
          by_cases hone : (L.drop (split L.length)).length = 1
          · have hi0 : i-split L.length = 0 := by omega
            have hup1 : levelUp H (L.drop (split L.length)) = L.drop (split L.length) :=
              levelUp_short (by omega)
            have hleaf (j : ℕ) : auditPath H z j (L.drop (split L.length)) = [] :=
              auditPath_leaf j (by omega)
            have hnone : (L.drop (split L.length))[1]? = none :=
              List.getElem?_eq_none (by omega)
            rw [hup1,hleaf,hleaf,← hsib,hi0,sibling]
            simp only [Nat.zero_mod,zero_ne_one,if_false,Nat.zero_add,hnone,Option.toList_none,
              List.append_nil]
          · rw [ihr (by omega) (by omega),hsib,hdiv]
        rw [auditPath_right h hik,hrec,List.append_assoc,
          auditPath_right (L := levelUp H L) hup (by omega),ht,hd,root_levelUp]

/-- The audit path of a node climbs from it to the root. -/
theorem climb_complete {L : List α} {fn sn : ℕ} {r : α} (hlen : L.length = sn+1)
    (hr : L[fn]? = some r) :
    climb H fn sn r (auditPath H z fn L) = some (root H z L) := by
  induction sn using Nat.strong_induction_on generalizing L fn r with
  | _ sn ih =>
    have hfn : fn < L.length := (List.getElem?_eq_some_iff.mp hr).1
    rw [climb.eq_def]
    by_cases hs : sn = 0
    · obtain rfl : fn = 0 := by omega
      obtain rfl := getElem_single (by omega) hr
      simp [hs,auditPath_leaf]
    · have hlu : (levelUp H L).length = sn/2+1 := by
        rw [length_levelUp]
        omega
      have hpath := auditPath_levelUp (H := H) (z := z) (show 2 ≤ L.length by omega) hfn
      rw [if_neg hs,hpath,← root_levelUp (z := z) L]
      by_cases ho : fn%2 = 1
      · obtain ⟨j,rfl⟩ : ∃ j, fn = 2*j+1 := ⟨fn/2,by omega⟩
        obtain ⟨a,b,ha,hb,-,hup⟩ := levelUp_node (H := H) hfn
        obtain rfl : b = r := Option.some.inj (hb.symm.trans hr)
        have hj : (2*j+1)/2 = j := by omega
        simp only [sibling,if_pos ho,Nat.add_sub_cancel,ha,Option.toList_some,List.singleton_append,
          hj]
        exact ih (sn/2) (by omega) hlu hup
      · obtain ⟨j,rfl⟩ : ∃ j, fn = 2*j := ⟨fn/2,by omega⟩
        have hj : 2*j/2 = j := by omega
        rw [if_neg ho,hj]
        by_cases hl : 2*j = sn
        · rw [if_pos hl]
          have hnone : L[2*j+1]? = none := List.getElem?_eq_none (by omega)
          simp only [sibling,if_neg ho,hnone,Option.toList_none,List.nil_append]
          exact ih (sn/2) (by omega) hlu ((levelUp_last (by omega)).trans hr)
        · obtain ⟨a,b,ha,hb,-,hup⟩ := levelUp_node (H := H) (show 2*j+1 < L.length by omega)
          obtain rfl : a = r := Option.some.inj (ha.symm.trans hr)
          simp only [if_neg hl,sibling,if_neg ho,hb,Option.toList_some,List.singleton_append]
          exact ih (sn/2) (by omega) hlu hup

end Climb
section Prefix
variable {α : Type} {H : α → α → α} {z : α}

/-- Equal roots over equally many leaves come from equal leaves. -/
theorem eq_of_root_eq {A B : List α} (hpos : A ≠ []) (hlen : A.length = B.length)
    (hc : NoCollision H (treePairs H z A++treePairs H z B))
    (hr : root H z A = root H z B) : A = B := by
  induction hn : A.length using Nat.strong_induction_on generalizing A B with
  | _ n ih =>
    subst hn
    by_cases h2 : 2 ≤ A.length
    · have hup : levelUp H A = levelUp H B := by
        refine ih _ ?_ ?_ ?_ ?_ ?_ rfl
        · rw [length_levelUp]
          omega
        · rw [ne_eq,← List.length_eq_zero_iff,length_levelUp]
          omega
        · rw [length_levelUp,length_levelUp,hlen]
        · exact hc.mono (List.append_subset.mpr
            ⟨fun p hp => List.mem_append_left _ (treePairs_levelUp A hp),
              fun p hp => List.mem_append_right _ (treePairs_levelUp B hp)⟩)
        · rw [root_levelUp,root_levelUp,hr]
      exact levelUp_injective hlen (hc.mono (List.append_subset.mpr
        ⟨fun p hp => List.mem_append_left _ (levelPairs_subset A hp),
          fun p hp => List.mem_append_right _ (levelPairs_subset B hp)⟩)) hup
    · match A, B, hpos, hlen with
      | [a], [b], _, _ => simpa using hr
      | a::a'::A, _, _, _ => simp at h2

theorem take_succ_eq {A B : List α} {i : ℕ} (h : A.take i = B.take i) {x : α}
    (ha : A[i]? = some x) (hb : B[i]? = some x) : A.take (i+1) = B.take (i+1) := by
  rw [List.take_add_one,List.take_add_one,h,ha,hb]

/-- Nodes that agree on a level agree below it. -/
theorem take_of_levelUp {A B : List α} {j : ℕ} (ha : 2*j ≤ A.length) (hb : 2*j ≤ B.length)
    (hc : NoCollision H (levelPairs A++levelPairs B))
    (h : (levelUp H A).take j = (levelUp H B).take j) : A.take (2*j) = B.take (2*j) := by
  rw [take_levelUp ha,take_levelUp hb] at h
  exact levelUp_injective (by rw [List.length_take,List.length_take]; omega)
    (hc.mono (List.append_subset.mpr
      ⟨fun p hp => List.mem_append_left _ (levelPairs_take A j hp),
        fun p hp => List.mem_append_right _ (levelPairs_take B j hp)⟩)) h

/-- The pairs of two trees and of the walk that relates them. -/
def jointPairs (H : α → α → α) (z : α) (A B : List α) (walk : List (α × α)) : List (α × α) :=
  treePairs H z A++(treePairs H z B++walk)

theorem NoCollision.levelUp {A B : List α} {S T : List (α × α)}
    (hc : NoCollision H (jointPairs H z A B S)) (hs : T ⊆ S) :
    NoCollision H (jointPairs H z (MerkleTree.levelUp H A) (MerkleTree.levelUp H B) T) := by
  refine hc.mono fun p hp => ?_
  simp only [jointPairs,List.mem_append] at hp ⊢
  exact hp.imp (@treePairs_levelUp _ _ _ A p)
    fun hp => hp.imp (@treePairs_levelUp _ _ _ B p) fun hp => hs hp

theorem NoCollision.levels {A B : List α} {S : List (α × α)}
    (hc : NoCollision H (jointPairs H z A B S)) :
    NoCollision H (levelPairs A++levelPairs B) := by
  refine hc.mono fun p hp => ?_
  simp only [jointPairs,List.mem_append] at hp ⊢
  exact hp.imp (@levelPairs_subset _ _ _ A p) fun hp => .inl (levelPairs_subset B hp)

theorem mem_joint_left {A B : List α} {S : List (α × α)} {p : α × α} (h : p ∈ levelPairs A) :
    p ∈ jointPairs H z A B S :=
  List.mem_append_left _ (levelPairs_subset A h)

theorem mem_joint_right {A B : List α} {S : List (α × α)} {p : α × α} (h : p ∈ levelPairs B) :
    p ∈ jointPairs H z A B S :=
  List.mem_append_right _ (List.mem_append_left _ (levelPairs_subset B h))

theorem mem_joint_walk {A B : List α} {S : List (α × α)} {p : α × α} (h : p ∈ S) :
    p ∈ jointPairs H z A B S :=
  List.mem_append_right _ (List.mem_append_right _ h)

/-- A joint climb to both roots starts at both trees' own nodes, and before that
node the trees agree. -/
theorem climbBoth_sound {A B : List α} {fn sn : ℕ} {fr sr : α} {path : List α}
    (hA : A.length = fn+1) (hB : B.length = sn+1) (hfn : fn ≤ sn)
    (hc : NoCollision H (jointPairs H z A B (climbBothPairs H fn sn fr sr path)))
    (hr : climbBoth H fn sn fr sr path = some (root H z A,root H z B)) :
    A[fn]? = some fr ∧ B[fn]? = some sr ∧ A.take fn = B.take fn := by
  fun_induction climbBoth H fn sn fr sr path generalizing A B with
  | case1 fn fr sr path hp =>
    obtain rfl : fn = 0 := by omega
    match A, B, hA, hB with
    | [a], [b], _, _ => simpa [eq_comm] using hr
  | case2 => simp at hr
  | case3 => simp at hr
  | case4 fn sn fr sr hs ho c rest ih =>
    obtain ⟨j,rfl⟩ : ∃ j, fn = 2*j+1 := ⟨fn/2,by omega⟩
    obtain ⟨a,b,ha,hb,hab,hupA⟩ := levelUp_node (H := H) (show 2*j+1 < A.length by omega)
    obtain ⟨d,e,hd,he,hde,hupB⟩ := levelUp_node (H := H) (show 2*j+1 < B.length by omega)
    rw [climbBothPairs,if_neg hs,if_pos ho] at hc
    have hj : (2*j+1)/2 = j := by omega
    rw [hj] at ih hr hc
    obtain ⟨h1,h2,h3⟩ := ih (A := levelUp H A) (B := levelUp H B)
      (by rw [length_levelUp]; omega) (by rw [length_levelUp]; omega) (by omega)
      (hc.levelUp (fun p hp => by simp [hp])) (by rw [root_levelUp,root_levelUp,hr])
    rw [hupA,Option.some.injEq] at h1
    rw [hupB,Option.some.injEq] at h2
    obtain ⟨rfl,rfl⟩ := hc.pair (mem_joint_left hab) (mem_joint_walk (by simp)) h1
    obtain ⟨rfl,rfl⟩ := hc.pair (mem_joint_right hde) (mem_joint_walk (by simp)) h2
    exact ⟨hb,he,take_succ_eq (take_of_levelUp (by omega) (by omega) hc.levels h3) ha hd⟩
  | case5 sn fr sr path hs ho ih =>
    obtain ⟨j,rfl⟩ : ∃ j, sn = 2*j := ⟨sn/2,by omega⟩
    rw [climbBothPairs.eq_def,if_neg hs,if_neg ho,if_pos rfl] at hc
    have hj : 2*j/2 = j := by omega
    rw [hj] at ih hr hc
    obtain ⟨h1,h2,h3⟩ := ih (A := levelUp H A) (B := levelUp H B)
      (by rw [length_levelUp]; omega) (by rw [length_levelUp]; omega) le_rfl
      (hc.levelUp fun _ hp => hp) (by rw [root_levelUp,root_levelUp,hr])
    rw [levelUp_last (by omega)] at h1 h2
    exact ⟨h1,h2,take_of_levelUp (by omega) (by omega) hc.levels h3⟩
  | case6 => simp at hr
  | case7 fn sn fr sr hs ho hne c rest ih =>
    obtain ⟨j,rfl⟩ : ∃ j, fn = 2*j := ⟨fn/2,by omega⟩
    obtain ⟨d,e,hd,he,hde,hupB⟩ := levelUp_node (H := H) (show 2*j+1 < B.length by omega)
    rw [climbBothPairs,if_neg hs,if_neg ho,if_neg hne] at hc
    have hj : 2*j/2 = j := by omega
    rw [hj] at ih hr hc
    obtain ⟨h1,h2,h3⟩ := ih (A := levelUp H A) (B := levelUp H B)
      (by rw [length_levelUp]; omega) (by rw [length_levelUp]; omega) (by omega)
      (hc.levelUp (fun p hp => by simp [hp])) (by rw [root_levelUp,root_levelUp,hr])
    rw [levelUp_last (by omega)] at h1
    rw [hupB,Option.some.injEq] at h2
    obtain ⟨rfl,-⟩ := hc.pair (mem_joint_right hde) (mem_joint_walk (by simp)) h2
    exact ⟨h1,hd,take_of_levelUp (by omega) (by omega) hc.levels h3⟩

/-- A path that reaches both roots shows the first list to be a prefix of the
second, unless two of the hashed pairs collide. -/
theorem climbPrefix_sound {A B : List α} {fn sn : ℕ} {path : List α}
    (hA : A.length = fn+1) (hB : B.length = sn+1) (hfn : fn ≤ sn)
    (hc : NoCollision H
      (jointPairs H z A B (climbPrefixPairs H fn sn (root H z A) path)))
    (hr : climbPrefix H fn sn (root H z A) path = some (root H z A,root H z B)) :
    A <+: B := by
  suffices hs : A = B.take A.length from List.prefix_iff_eq_take.mpr hs
  induction fn using Nat.strong_induction_on generalizing A B sn with
  | _ fn ih =>
    rw [climbPrefix.eq_def] at hr
    rw [climbPrefixPairs.eq_def] at hc
    by_cases ho : fn%2 = 1
    · rw [if_pos ho] at hr hc
      rw [← root_levelUp A] at hr hc
      rw [← root_levelUp B] at hr
      have hlenA : (levelUp H A).length = fn/2+1 := by
        rw [length_levelUp]
        omega
      have hup := ih (fn/2) (by omega) hlenA (by rw [length_levelUp]; omega) (by omega)
        (by exact (hc.levelUp fun _ hp => hp)) hr
      have htake : (levelUp H A).take (fn/2+1) = (levelUp H B).take (fn/2+1) := by
        rw [hlenA] at hup
        rw [← hup,List.take_of_length_le (by omega)]
      have hdown := take_of_levelUp (by omega) (by omega) hc.levels htake
      rw [show 2*(fn/2+1) = A.length by omega,List.take_length] at hdown
      exact hdown
    · rw [if_neg ho] at hr hc
      by_cases h0 : fn = 0
      · subst h0
        simp only [if_true] at hr hc
        obtain ⟨h1,h2,h3⟩ := climbBoth_sound hA hB hfn hc hr
        have := take_succ_eq h3 h1 h2
        rwa [List.take_of_length_le (by omega),← hA] at this
      · rw [if_neg h0] at hr hc
        match path with
        | [] => simp at hr
        | c::rest =>
          obtain ⟨h1,h2,h3⟩ := climbBoth_sound hA hB hfn hc hr
          have := take_succ_eq h3 h1 h2
          rwa [List.take_of_length_le (by omega),← hA] at this

theorem subproof_whole (L : List α) (known : Bool) :
    subproof H z L.length L known = if known then [] else [root H z L] := by
  rw [subproof,if_pos rfl]

theorem subproof_left {L : List α} {m : ℕ} (known : Bool) (h : m < L.length)
    (h2 : 2 ≤ L.length) (hm : m ≤ split L.length) :
    subproof H z m L known = subproof H z m (L.take (split L.length)) known++
      [root H z (L.drop (split L.length))] := by
  rw [subproof,if_neg (by omega),if_pos h2,if_pos hm]

theorem subproof_right {L : List α} {m : ℕ} (known : Bool) (h : m < L.length)
    (h2 : 2 ≤ L.length) (hm : ¬m ≤ split L.length) :
    subproof H z m L known = subproof H z (m-split L.length) (L.drop (split L.length)) false++
      [root H z (L.take (split L.length))] := by
  rw [subproof,if_neg (by omega),if_pos h2,if_neg hm]

/-- Below the level where the first tree is complete the proof has no hash. -/
theorem subproof_levelUp {L : List α} {m : ℕ} (known : Bool) (hm : m%2 = 0) (hpos : 0 < m)
    (hlt : m < L.length) :
    subproof H z m L known = subproof H z (m/2) (levelUp H L) known := by
  induction L using split_induction generalizing m known with
  | leaf L hL => omega
  | node L h ihl ihr =>
    obtain ⟨ht,hd⟩ := levelUp_split (H := H) (show 3 ≤ L.length by omega)
    have hk := split_half (show 3 ≤ L.length by omega)
    have hks := split_lt h
    have hlu : (levelUp H L).length = (L.length+1)/2 := length_levelUp L
    have hsplit : split (levelUp H L).length = split L.length/2 := by
      rw [hlu]
      omega
    have htl : (L.take (split L.length)).length = split L.length := by
      rw [List.length_take]
      omega
    have hdl : (L.drop (split L.length)).length = L.length-split L.length := List.length_drop
    by_cases hmk : m ≤ split L.length
    · rw [subproof_left known hlt h hmk,subproof_left (L := levelUp H L) known (by omega)
        (by omega) (by omega),ht,hd,root_levelUp]
      congr 1
      by_cases he : m = split L.length
      · have h1 := subproof_whole (H := H) (z := z) (L.take (split L.length)) known
        have h2 := subproof_whole (H := H) (z := z) (levelUp H (L.take (split L.length))) known
        rw [htl] at h1
        rw [length_levelUp,htl,root_levelUp] at h2
        rw [he,h1,show split L.length/2 = (split L.length+1)/2 by omega,h2]
      · exact ihl known hm hpos (by omega)
    · rw [subproof_right known hlt h hmk,subproof_right (L := levelUp H L) known (by omega)
        (by omega) (by omega),ht,hd,root_levelUp,
        ihr (m := m-split L.length) false (by omega) (by omega) (by omega)]
      congr 2
      omega

/-- At that level it is the last node of the first tree, unless that is the whole
tree, and the node's audit path. -/
theorem subproof_odd {L : List α} {m : ℕ} (known : Bool) (hm : m%2 = 1) (hlt : m < L.length) :
    subproof H z m L known =
      (if known = true ∧ m = 1 then [] else L[m-1]?.toList)++auditPath H z (m-1) L := by
  induction L using split_induction generalizing m known with
  | leaf L hL => omega
  | node L h ihl ihr =>
    have hks := split_lt h
    have hpos := split_pos L.length
    have htl : (L.take (split L.length)).length = split L.length := by
      rw [List.length_take]
      omega
    have hdl : (L.drop (split L.length)).length = L.length-split L.length := List.length_drop
    by_cases hmk : m ≤ split L.length
    · rw [subproof_left known hlt h hmk,auditPath_left h (by omega),← List.append_assoc]
      congr 1
      by_cases he : m = split L.length
      · -- an odd power of two is one leaf
        have h1 : split L.length = 1 := by
          by_contra hne
          have := split_half (show 3 ≤ L.length by
            by_contra h3
            have : L.length = 2 := by omega
            rw [this,split_two] at hne
            exact hne rfl)
          omega
        have hw := subproof_whole (H := H) (z := z) (L.take (split L.length)) known
        rw [htl,h1] at hw
        rw [he,h1,hw,auditPath_leaf _ (by rw [List.length_take]; omega),List.append_nil]
        match L, h with
        | a::L, _ => cases known <;> simp
      · rw [ihl known hm (by omega),List.getElem?_take_of_lt (by omega)]
    · rw [subproof_right known hlt h hmk,auditPath_right h (by omega),← List.append_assoc]
      congr 1
      have hk := split_half (show 3 ≤ L.length by omega)
      have h1 : m-split L.length-1 = m-1-split L.length := by omega
      have h2 : split L.length+(m-1-split L.length) = m-1 := by omega
      rw [ihr (m := m-split L.length) false (by omega) (by omega),List.getElem?_drop,
        if_neg (by simp),if_neg (by omega),h1,h2]

/-- Two trees that agree before node `fn`, where the first one ends: the audit path
in the second climbs to both roots. -/
theorem climbBoth_complete {A B : List α} {fn sn : ℕ} {fr sr : α} (hA : A.length = fn+1)
    (hB : B.length = sn+1) (hfn : fn ≤ sn) (hfr : A[fn]? = some fr) (hsr : B[fn]? = some sr)
    (hAB : A.take fn = B.take fn) :
    climbBoth H fn sn fr sr (auditPath H z fn B) = some (root H z A,root H z B) := by
  induction sn using Nat.strong_induction_on generalizing A B fn fr sr with
  | _ sn ih =>
    rw [climbBoth.eq_def]
    by_cases hs : sn = 0
    · obtain rfl : fn = 0 := by omega
      obtain rfl := getElem_single (by omega) hfr
      obtain rfl := getElem_single (by omega) hsr
      simp [hs,auditPath_leaf]
    · have hluA : (levelUp H A).length = fn/2+1 := by
        rw [length_levelUp]
        omega
      have hluB : (levelUp H B).length = sn/2+1 := by
        rw [length_levelUp]
        omega
      have hpath := auditPath_levelUp (H := H) (z := z) (show 2 ≤ B.length by omega)
        (show fn < B.length by omega)
      rw [if_neg hs,hpath,← root_levelUp (z := z) A,← root_levelUp (z := z) B]
      by_cases ho : fn%2 = 1
      · obtain ⟨j,rfl⟩ : ∃ j, fn = 2*j+1 := ⟨fn/2,by omega⟩
        obtain ⟨a,b,ha,hb,-,hupA⟩ := levelUp_node (H := H) (show 2*j+1 < A.length by omega)
        obtain ⟨d,e,hd,he,-,hupB⟩ := levelUp_node (H := H) (show 2*j+1 < B.length by omega)
        obtain rfl : b = fr := Option.some.inj (hb.symm.trans hfr)
        obtain rfl : e = sr := Option.some.inj (he.symm.trans hsr)
        have had : a = d := by
          have h1 : (A.take (2*j+1))[2*j]? = some a := by
            rw [List.getElem?_take_of_lt (by omega),ha]
          rw [hAB,List.getElem?_take_of_lt (by omega),hd] at h1
          exact (Option.some.inj h1).symm
        subst had
        have hj : (2*j+1)/2 = j := by omega
        have hpre : (levelUp H A).take j = (levelUp H B).take j := by
          rw [take_levelUp (by omega),take_levelUp (by omega)]
          have := congrArg (List.take (2*j)) hAB
          rw [List.take_take,List.take_take,Nat.min_eq_left (by omega)] at this
          rw [this]
        simp only [sibling,if_pos ho,Nat.add_sub_cancel,hd,Option.toList_some,
          List.singleton_append,hj]
        exact ih (sn/2) (by omega) (by omega) hluB (by omega) hupA hupB hpre
      · obtain ⟨j,rfl⟩ : ∃ j, fn = 2*j := ⟨fn/2,by omega⟩
        have hj : 2*j/2 = j := by omega
        have hpre : (levelUp H A).take j = (levelUp H B).take j := by
          rw [take_levelUp (by omega),take_levelUp (by omega),hAB]
        have hupA := (levelUp_last (H := H) (show 2*j+1 = A.length by omega)).trans hfr
        rw [if_neg ho,hj]
        by_cases hl : 2*j = sn
        · rw [if_pos hl]
          have hnone : B[2*j+1]? = none := List.getElem?_eq_none (by omega)
          simp only [sibling,if_neg ho,hnone,Option.toList_none,List.nil_append]
          exact ih (sn/2) (by omega) (by omega) hluB (by omega) hupA
            ((levelUp_last (by omega)).trans hsr) hpre
        · obtain ⟨d,e,hd,he,-,hupB⟩ := levelUp_node (H := H) (show 2*j+1 < B.length by omega)
          obtain rfl : d = sr := Option.some.inj (hd.symm.trans hsr)
          simp only [if_neg hl,sibling,if_neg ho,he,Option.toList_some,List.singleton_append]
          exact ih (sn/2) (by omega) (by omega) hluB (by omega) hupA hupB hpre

/-- The proof for a proper prefix reaches both roots. -/
theorem climbPrefix_complete {A B : List α} {fn sn : ℕ} (hA : A.length = fn+1)
    (hB : B.length = sn+1) (hfn : fn < sn) (hAB : A <+: B) :
    climbPrefix H fn sn (root H z A) (subproof H z (fn+1) B true) =
      some (root H z A,root H z B) := by
  induction fn using Nat.strong_induction_on generalizing A B sn with
  | _ fn ih =>
    have htake : A = B.take A.length := List.prefix_iff_eq_take.mp hAB
    rw [climbPrefix.eq_def]
    by_cases ho : fn%2 = 1
    · have hluA : (levelUp H A).length = fn/2+1 := by
        rw [length_levelUp]
        omega
      have hpre : levelUp H A <+: levelUp H B := by
        refine List.prefix_iff_eq_take.mpr ?_
        rw [hluA,take_levelUp (by omega),show 2*(fn/2+1) = A.length by omega,← htake]
      rw [if_pos ho,subproof_levelUp true (by omega) (by omega) (by omega),
        ← root_levelUp (z := z) A,← root_levelUp (z := z) B,
        show (fn+1)/2 = fn/2+1 by omega]
      exact ih (fn/2) (by omega) hluA (by rw [length_levelUp]; omega) (by omega) hpre
    · rw [if_neg ho,subproof_odd true (by omega) (by omega),Nat.add_sub_cancel]
      obtain ⟨x,hx⟩ : ∃ x, B[fn]? = some x := ⟨B[fn],by simp⟩
      have hxA : A[fn]? = some x := by rw [htake,List.getElem?_take_of_lt (by omega),hx]
      have hbelow : A.take fn = B.take fn := by
        conv_lhs => rw [htake,List.take_take,Nat.min_eq_left (by omega)]
      have hboth := climbBoth_complete (H := H) (z := z) hA hB (by omega) hxA hx hbelow
      by_cases h0 : fn = 0
      · subst h0
        obtain rfl := getElem_single (by omega) hxA
        simpa using hboth
      · rw [if_neg h0,if_neg (by omega),hx]
        exact hboth

end Prefix
end MerkleTree
end Semp
