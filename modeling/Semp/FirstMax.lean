import Mathlib.Data.List.Basic
import Mathlib.Tactic.Linarith

/-! One pass over a list for the first element of the greatest weight. Elements of weight zero
do not count, and the pass stops early once the greatest possible weight is reached. -/
namespace Semp.FirstMax

universe u
variable {α : Type u} (w : α → ℕ)

/-- The pass from the next element on, with the weight reached and its element. -/
def scan (top : ℕ) : List α → ℕ → Option α → Option α
  | [], _, best => best
  | a::l, n, best =>
    if n < w a then if w a = top then some a else scan top l (w a) (some a)
    else scan top l n best

/-- `a` stands at a place of `l` before which every weight is smaller and after which none is
greater. -/
def IsFirst (l : List α) (a : α) : Prop :=
  ∃ before after : List α, l = before++a::after ∧ 0 < w a ∧
    (∀ b ∈ before, w b < w a) ∧ ∀ b ∈ after, w b ≤ w a

/-- What the pass knows of the elements it has seen. -/
inductive Seen (l : List α) : ℕ → Option α → Prop
  | nothing (h : ∀ b ∈ l, w b = 0) : Seen l 0 none
  | found (a : α) (h : IsFirst w l a) : Seen l (w a) (some a)

variable {w} {l : List α} {n : ℕ} {best : Option α} {a b : α}

theorem IsFirst.mem (h : IsFirst w l a) : a ∈ l := by
  obtain ⟨before,after,rfl,-⟩ := h
  simp

theorem IsFirst.pos (h : IsFirst w l a) : 0 < w a := by
  obtain ⟨before,after,-,hpos,-⟩ := h
  exact hpos

theorem IsFirst.le (h : IsFirst w l a) (hb : b ∈ l) : w b ≤ w a := by
  obtain ⟨before,after,rfl,-,hbefore,hafter⟩ := h
  rw [List.mem_append,List.mem_cons] at hb
  rcases hb with hb|rfl|hb
  · exact (hbefore b hb).le
  · exact le_rfl
  · exact hafter b hb

/-- A list has at most one first element of the greatest weight. -/
theorem IsFirst.unique (ha : IsFirst w l a) (hb : IsFirst w l b) : a = b := by
  have hw : w a = w b := le_antisymm (hb.le ha.mem) (ha.le hb.mem)
  obtain ⟨before,after,hl,-,hbefore,-⟩ := ha
  obtain ⟨before',after',hl',-,hbefore',-⟩ := hb
  rw [hl,List.append_eq_append_iff] at hl'
  rcases hl' with ⟨mid,rfl,hmid⟩|⟨mid,rfl,hmid⟩
  · cases mid with
    | nil =>
      obtain ⟨hab,-⟩ : a = b ∧ _ := by simpa using hmid
      exact hab
    | cons c mid =>
      obtain ⟨rfl,-⟩ : a = c ∧ _ := by simpa using hmid
      have hlt : w a < w b := hbefore' a (by simp)
      omega
  · cases mid with
    | nil =>
      obtain ⟨hba,-⟩ : b = a ∧ _ := by simpa using hmid
      exact hba.symm
    | cons c mid =>
      obtain ⟨rfl,-⟩ : b = c ∧ _ := by simpa using hmid
      have hlt : w b < w a := hbefore b (by simp)
      omega

theorem Seen.le (h : Seen w l n best) (hb : b ∈ l) : w b ≤ n := by
  cases h with
  | nothing hzero => exact (hzero b hb).le
  | found a ha => exact ha.le hb

/-- An element heavier than all before it is the first of the greatest weight. -/
theorem Seen.isFirst (h : Seen w l n best) (hlt : n < w a) : IsFirst w (l++[a]) a :=
  ⟨l,[],rfl,by omega,fun _ hb => (h.le hb).trans_lt hlt,by simp⟩

/-- An element no heavier than the best changes nothing. -/
theorem Seen.skip (h : Seen w l n best) (hle : w a ≤ n) : Seen w (l++[a]) n best := by
  cases h with
  | nothing hzero =>
    refine .nothing fun b hb => ?_
    rw [List.mem_append,List.mem_singleton] at hb
    rcases hb with hb|rfl
    · exact hzero b hb
    · omega
  | found c hc =>
    obtain ⟨before,after,rfl,hpos,hbefore,hafter⟩ := hc
    refine .found c ⟨before,after++[a],by simp,hpos,hbefore,fun b hb => ?_⟩
    rw [List.mem_append,List.mem_singleton] at hb
    rcases hb with hb|rfl
    · exact hafter b hb
    · exact hle

/-- An element that already has the greatest weight stays first in a longer list. -/
theorem IsFirst.append (h : IsFirst w l a) (rest : List α) (hle : ∀ b ∈ rest, w b ≤ w a) :
    IsFirst w (l++rest) a := by
  obtain ⟨before,after,rfl,hpos,hbefore,hafter⟩ := h
  refine ⟨before,after++rest,by simp,hpos,hbefore,fun b hb => ?_⟩
  rcases List.mem_append.mp hb with hb|hb
  · exact hafter b hb
  · exact hle b hb

/-- The pass keeps what it knows, to the end of the list. -/
theorem Seen.scan {top : ℕ} (htop : ∀ b, w b ≤ top) (rest : List α) (h : Seen w l n best) :
    ∃ m, Seen w (l++rest) m (scan w top rest n best) := by
  induction rest generalizing l n best with
  | nil => exact ⟨n,by simpa [FirstMax.scan] using h⟩
  | cons a rest ih =>
    have hassoc : l++a::rest = (l++[a])++rest := by simp
    rw [hassoc,FirstMax.scan]
    by_cases hlt : n < w a
    · have hfirst : IsFirst w (l++[a]) a := h.isFirst hlt
      rw [if_pos hlt]
      by_cases hwa : w a = top
      · rw [if_pos hwa]
        exact ⟨w a,.found a (hfirst.append rest fun b _ => hwa ▸ htop b)⟩
      · rw [if_neg hwa]
        exact ih (.found a hfirst)
    · rw [if_neg hlt]
      exact ih (h.skip (by omega))

/-- What the whole pass returns. -/
theorem seen_scan {top : ℕ} (htop : ∀ b, w b ≤ top) (l : List α) :
    ∃ m, Seen w l m (scan w top l 0 none) :=
  Seen.scan htop l (l:=[]) (.nothing (by simp))

theorem scan_eq_some {top : ℕ} (htop : ∀ b, w b ≤ top) :
    scan w top l 0 none = some a ↔ IsFirst w l a := by
  obtain ⟨m,hm⟩ := seen_scan htop l
  constructor
  · intro h
    rw [h] at hm
    cases hm with
    | found _ hfirst => exact hfirst
  · intro h
    cases hs : scan w top l 0 none with
    | none =>
      rw [hs] at hm
      cases hm with
      | nothing hzero =>
        have hpos : 0 < w a := h.pos
        rw [hzero a h.mem] at hpos
        exact absurd hpos (lt_irrefl 0)
    | some b =>
      rw [hs] at hm
      cases hm with
      | found _ hfirst => rw [hfirst.unique h]

theorem scan_eq_none {top : ℕ} (htop : ∀ b, w b ≤ top) :
    scan w top l 0 none = none ↔ ∀ b ∈ l, w b = 0 := by
  obtain ⟨m,hm⟩ := seen_scan htop l
  constructor
  · intro h
    rw [h] at hm
    cases hm with
    | nothing hzero => exact hzero
  · intro h
    cases hs : scan w top l 0 none with
    | none => rfl
    | some b =>
      rw [hs] at hm
      cases hm with
      | found _ hfirst =>
        have hpos : 0 < w b := hfirst.pos
        rw [h b hfirst.mem] at hpos
        exact absurd hpos (lt_irrefl 0)

/-- The weight that is reached depends only on which elements the list has. -/
theorem scan_map_congr {top : ℕ} (htop : ∀ b, w b ≤ top) {l' : List α}
    (hmem : ∀ b, b ∈ l ↔ b ∈ l') :
    (scan w top l 0 none).map w = (scan w top l' 0 none).map w := by
  cases hs : scan w top l 0 none with
  | none =>
    have hzero : ∀ b ∈ l', w b = 0 := fun b hb =>
      (scan_eq_none htop).mp hs b ((hmem b).mpr hb)
    rw [(scan_eq_none htop).mpr hzero]
  | some a =>
    have ha : IsFirst w l a := (scan_eq_some htop).mp hs
    cases hs' : scan w top l' 0 none with
    | none =>
      have hpos : 0 < w a := ha.pos
      rw [(scan_eq_none htop).mp hs' a ((hmem a).mp ha.mem)] at hpos
      exact absurd hpos (lt_irrefl 0)
    | some b =>
      have hb : IsFirst w l' b := (scan_eq_some htop).mp hs'
      have hab : w a ≤ w b := hb.le ((hmem a).mp ha.mem)
      have hba : w b ≤ w a := ha.le ((hmem b).mpr hb.mem)
      rw [Option.map_some,Option.map_some,le_antisymm hab hba]

end Semp.FirstMax
