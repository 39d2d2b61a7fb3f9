import Mathlib.Data.List.Sort

/-! Pairs grouped by their keys: each key has one group, in the order of the keys' first
appearance, with the values of the key in their order. -/
namespace Semp.Grouping

universe u v
variable {κ : Type u} {α : Type v} [DecidableEq κ]

/-- Adds a value to the group of its key, a new group at the end if there is none. -/
def push : List (κ × List α) → κ × α → List (κ × List α)
  | [], p => [(p.1,[p.2])]
  | g::gs, p => if g.1 = p.1 then (g.1,g.2++[p.2])::gs else g::push gs p

def group (l : List (κ × α)) : List (κ × List α) := l.foldl push []

/-- The values of a key. -/
def valuesOf (l : List (κ × α)) (k : κ) : List α := (l.filter (·.1 = k)).map Prod.snd

/-- The group of a key. -/
def get (gs : List (κ × List α)) (k : κ) : List α := ((gs.find? (·.1 = k)).map Prod.snd).getD []

variable {l : List (κ × α)} {gs : List (κ × List α)} {p : κ × α} {k : κ} {as : List α}

/-- The groups of a list: distinct keys, each with all of its values. -/
structure Grouped (l : List (κ × α)) (gs : List (κ × List α)) : Prop where
  nodup : (gs.map Prod.fst).Nodup
  values : ∀ g ∈ gs, g.2 = valuesOf l g.1
  keys : ∀ k, k ∈ gs.map Prod.fst ↔ ∃ a, (k,a) ∈ l

theorem mem_keys_push : k ∈ (push gs p).map Prod.fst ↔ k ∈ gs.map Prod.fst ∨ k = p.1 := by
  induction gs with
  | nil => simp [push]
  | cons g gs ih =>
    rw [push]
    split_ifs with h
    · rw [List.map_cons,List.map_cons,List.mem_cons,← h]
      tauto
    · rw [List.map_cons,List.map_cons,List.mem_cons,List.mem_cons,ih,or_assoc]

theorem nodup_push (h : (gs.map Prod.fst).Nodup) : ((push gs p).map Prod.fst).Nodup := by
  induction gs with
  | nil => simp [push]
  | cons g gs ih =>
    rw [List.map_cons,List.nodup_cons] at h
    rw [push]
    split_ifs with hk
    · exact List.nodup_cons.mpr h
    · rw [List.map_cons,List.nodup_cons,mem_keys_push,not_or]
      exact ⟨⟨h.1,hk⟩,ih h.2⟩

theorem mem_push {g : κ × List α} (hnd : (gs.map Prod.fst).Nodup) (hg : g ∈ push gs p) :
    (g.1 ≠ p.1 ∧ g ∈ gs) ∨ (g.1 = p.1 ∧ ∃ as, g.2 = as++[p.2] ∧
      ((as = [] ∧ p.1 ∉ gs.map Prod.fst) ∨ (p.1,as) ∈ gs)) := by
  induction gs with
  | nil =>
    obtain rfl := List.mem_singleton.mp hg
    exact .inr ⟨rfl,[],rfl,.inl ⟨rfl,List.not_mem_nil⟩⟩
  | cons d gs ih =>
    rw [List.map_cons,List.nodup_cons] at hnd
    rw [push] at hg
    split_ifs at hg with hk
    · rcases List.mem_cons.mp hg with rfl|hg
      · exact .inr ⟨hk,d.2,rfl,.inr (by rw [← hk]; exact List.mem_cons_self)⟩
      · refine .inl ⟨fun heq => hnd.1 ?_,List.mem_cons_of_mem d hg⟩
        rw [hk,← heq]
        exact List.mem_map_of_mem hg
    · rcases List.mem_cons.mp hg with rfl|hg
      · exact .inl ⟨hk,List.mem_cons_self⟩
      · rcases ih hnd.2 hg with ⟨hne,hmem⟩|⟨heq,as,has,hcase⟩
        · exact .inl ⟨hne,List.mem_cons_of_mem d hmem⟩
        · refine .inr ⟨heq,as,has,hcase.imp (fun h => ⟨h.1,?_⟩) (List.mem_cons_of_mem d)⟩
          rw [List.map_cons,List.mem_cons,not_or]
          exact ⟨fun h' => hk h'.symm,h.2⟩

theorem valuesOf_concat (l : List (κ × α)) (p : κ × α) (k : κ) :
    valuesOf (l++[p]) k = valuesOf l k++(if p.1 = k then [p.2] else []) := by
  rw [valuesOf,valuesOf,List.filter_append,List.map_append]
  congr 1
  by_cases h : p.1 = k <;> simp [h]

theorem Grouped.push (h : Grouped l gs) (p : κ × α) : Grouped (l++[p]) (push gs p) where
  nodup := nodup_push h.nodup
  values := by
    intro g hg
    rw [valuesOf_concat]
    rcases mem_push h.nodup hg with ⟨hne,hmem⟩|⟨heq,as,has,hcase⟩
    · rw [if_neg (Ne.symm hne),List.append_nil]
      exact h.values g hmem
    · rw [if_pos heq.symm,has,heq]
      congr 1
      rcases hcase with ⟨rfl,hnot⟩|hmem
      · rw [h.keys,not_exists] at hnot
        symm
        rw [valuesOf,List.map_eq_nil_iff,List.filter_eq_nil_iff]
        intro q hq hqk
        refine hnot q.2 ?_
        rw [← of_decide_eq_true hqk]
        exact hq
      · exact h.values _ hmem
  keys := by
    intro k
    rw [mem_keys_push,h.keys]
    constructor
    · rintro (⟨a,ha⟩|rfl)
      · exact ⟨a,List.mem_append_left _ ha⟩
      · exact ⟨p.2,List.mem_append_right _ (List.mem_singleton.mpr rfl)⟩
    · rintro ⟨a,ha⟩
      rcases List.mem_append.mp ha with ha|ha
      · exact .inl ⟨a,ha⟩
      · exact .inr (congrArg Prod.fst (List.mem_singleton.mp ha))

theorem grouped_group (l : List (κ × α)) : Grouped l (group l) := by
  have hrun : ∀ (rest seen : List (κ × α)) (gs : List (κ × List α)), Grouped seen gs →
      Grouped (seen++rest) (rest.foldl push gs) := by
    intro rest
    induction rest with
    | nil =>
      intro seen gs h
      rwa [List.append_nil]
    | cons p rest ih =>
      intro seen gs h
      have hnext := ih (seen++[p]) (Grouping.push gs p) (h.push p)
      rwa [List.append_assoc] at hnext
  exact hrun l [] [] ⟨List.nodup_nil,by simp,by simp⟩

theorem mem_valuesOf {a : α} : a ∈ valuesOf l k ↔ (k,a) ∈ l := by
  rw [valuesOf,List.mem_map]
  constructor
  · rintro ⟨q,hq,rfl⟩
    obtain ⟨hmem,hk⟩ := List.mem_filter.mp hq
    rw [← of_decide_eq_true hk]
    exact hmem
  · intro h
    exact ⟨(k,a),List.mem_filter.mpr ⟨h,decide_eq_true rfl⟩,rfl⟩

theorem Grouped.get (h : Grouped l gs) (k : κ) : get gs k = valuesOf l k := by
  unfold Grouping.get
  cases hfind : gs.find? (·.1 = k) with
  | some g =>
    have hk : g.1 = k := by simpa using List.find?_some hfind
    rw [Option.map_some,Option.getD_some,h.values g (List.mem_of_find?_eq_some hfind),hk]
  | none =>
    have hnot : k ∉ gs.map Prod.fst := by
      intro hk
      obtain ⟨g,hg,rfl⟩ := List.mem_map.mp hk
      have hne := List.find?_eq_none.mp hfind g hg
      exact hne (decide_eq_true rfl)
    rw [h.keys,not_exists] at hnot
    rw [Option.map_none,Option.getD_none,eq_comm,List.eq_nil_iff_forall_not_mem]
    exact fun a ha => hnot a (mem_valuesOf.mp ha)

end Semp.Grouping
