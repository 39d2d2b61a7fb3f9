import Mathlib.Data.List.Basic

/-! Fields joined by a separator that they may contain themselves.  A field is not empty and meets
a predicate that a cut at a separator respects, such as being the encoding of a text; then it can
be read off the fields whether other ones have the same join. -/
namespace Semp.Separator

variable {α : Type} {c : α} {V W : List α → Prop} {x y r s p q : List α} {xs ys : List (List α)}

/-- The fields, each with the separator behind it, and the last one. -/
def join (c : α) : List (List α) → List α → List α
  | [],p => p
  | x::xs,p => x++c::join c xs p

/-- The predicates of a field and of the last one respect the separator. -/
structure Cuttable (c : α) (V W : List α → Prop) : Prop where
  field : ∀ a b, V (a++c::b) ↔ V a ∧ V b
  last : ∀ a b, V a → (W (a++c::b) ↔ W b)

structure Fields (V W : List α → Prop) (xs : List (List α)) (p : List α) : Prop where
  field : ∀ x ∈ xs, x ≠ [] ∧ V x
  last : p ≠ [] ∧ W p

/-- No other fields, so many of them, have the same join. -/
def Unique (c : α) (V W : List α → Prop) (xs : List (List α)) (p : List α) : Prop :=
  ∀ ys q, ys.length = xs.length → Fields V W ys q → join c ys q = join c xs p → ys = xs ∧ q = p

/-- Nothing can be cut off for the field before: a field has no separator, or is one, and what
follows a separator of the last one is empty or what precedes it no field. -/
def Firm (c : α) (V : List α → Prop) : List (List α) → List α → Prop
  | [],p => ∀ a b, p = a++c::b → V a → b = []
  | r::rs,p => (c ∉ r ∨ r = [c]) ∧ Firm c V rs p

theorem fields_cons : Fields V W (x::xs) p ↔ (x ≠ [] ∧ V x) ∧ Fields V W xs p :=
  ⟨fun h => ⟨h.field x List.mem_cons_self,fun y hy => h.field y (List.mem_cons_of_mem _ hy),h.last⟩,
    fun h => ⟨List.forall_mem_cons.mpr ⟨h.1,h.2.field⟩,h.2.last⟩⟩

/-- Two cuts of one list are at the same place, or one is further on. -/
theorem append_cons_cases (h : x++c::r = y++c::s) :
    (x = y ∧ r = s) ∨ (∃ m, y = x++c::m ∧ r = m++c::s) ∨ ∃ m, x = y++c::m ∧ s = m++c::r := by
  have hcut {x y r s m : List α} (hy : y = x++m) (hr : c::r = m++c::s) :
      (x = y ∧ r = s) ∨ ∃ m, y = x++c::m ∧ r = m++c::s := by
    cases m with
    | nil => exact .inl ⟨by rw [hy,List.append_nil],(List.cons.inj hr).2⟩
    | cons b m =>
      obtain ⟨hcb,hr⟩ := List.cons.inj hr
      exact .inr ⟨m,by rw [hy,hcb],hr⟩
  rcases List.append_eq_append_iff.mp h with ⟨m,hy,hr⟩ | ⟨m,hx,hs⟩
  · exact (hcut hy hr).imp_right .inl
  · rcases hcut hx hs with ⟨hyx,hsr⟩ | hm
    · exact .inl ⟨hyx.symm,hsr.symm⟩
    · exact .inr (.inr hm)

section Cut
variable (hc : Cuttable c V W)
include hc

/-- Firm fields have no cut into one field more, of which the first may be empty. -/
theorem Firm.no_finer {m : List α} (hf : Firm c V xs p) (hm : V m) (hlen : ys.length = xs.length)
    (hys : Fields V W ys q) : join c xs p ≠ m++c::join c ys q := by
  induction xs generalizing m ys with
  | nil =>
    obtain rfl := List.length_eq_zero_iff.mp hlen
    exact fun h => hys.last.1 (hf m q h hm)
  | cons r rs ih =>
    obtain ⟨s,ss,rfl⟩ := List.exists_cons_of_length_eq_add_one hlen
    obtain ⟨⟨hs,hV⟩,hss⟩ := fields_cons.mp hys
    replace hlen : ss.length = rs.length := Nat.succ_inj.mp hlen
    intro h
    rcases append_cons_cases h with ⟨-,htail⟩ | ⟨m',rfl,htail⟩ | ⟨m',rfl,htail⟩
    · exact ih hf.2 hV hlen hss htail
    -- The two fields behind the cut count as one.
    · refine ih (m := m'++c::s) hf.2 ((hc.field _ _).mpr ⟨((hc.field _ _).mp hm).2,hV⟩) hlen hss ?_
      rw [htail,join,List.append_assoc,List.cons_append]
    · have hone : m++c::m' = [c] := hf.1.resolve_left fun h => h (by simp)
      obtain ⟨rfl,hcm⟩ := List.append_eq_singleton_iff.mp hone |>.resolve_right (by simp)
      obtain rfl := (List.cons.inj hcm).2
      cases s with
      | nil => exact hs rfl
      | cons b s =>
        obtain ⟨rfl,htail⟩ : b = c ∧ s++c::join c ss q = join c rs p := List.cons.inj htail
        exact ih hf.2 ((hc.field [] s).mp hV).2 hlen hss htail.symm

/-- Firm fields are the only ones that begin where they do. -/
theorem Firm.unique (hf : Firm c V xs p) (hxs : Fields V W xs p) : Unique c V W xs p := by
  induction xs with
  | nil =>
    intro ys q hlen _ h
    obtain rfl := List.length_eq_zero_iff.mp hlen
    exact ⟨rfl,h⟩
  | cons r rs ih =>
    intro ys q hlen hys h
    obtain ⟨s,ss,rfl⟩ := List.exists_cons_of_length_eq_add_one hlen
    obtain ⟨⟨hs,-⟩,hss⟩ := fields_cons.mp hys
    replace hlen : ss.length = rs.length := Nat.succ_inj.mp hlen
    rcases append_cons_cases h with ⟨rfl,htail⟩ | ⟨m,rfl,htail⟩ | ⟨m,rfl,htail⟩
    · obtain ⟨rfl,rfl⟩ := ih hf.2 (fields_cons.mp hxs).2 ss q hlen hss htail
      exact ⟨rfl,rfl⟩
    · have hone : s++c::m = [c] := hf.1.resolve_left fun h => h (by simp)
      exact absurd (List.append_eq_singleton_iff.mp hone) (by simp [hs])
    · exact absurd htail (hf.2.no_finer hc
        ((hc.field _ _).mp (hys.field _ List.mem_cons_self).2).2 hlen hss)

/-- What is cut off a field can go before the next one. -/
theorem exists_join_append {b : List α} (hb : V b) (h : Fields V W xs p) :
    ∃ ys q, ys.length = xs.length ∧ Fields V W ys q ∧ join c ys q = b++c::join c xs p := by
  cases xs with
  | nil => exact ⟨[],b++c::p,rfl,⟨nofun,by simp,(hc.last b p hb).mpr h.last.2⟩,rfl⟩
  | cons r rs =>
    obtain ⟨⟨-,hr⟩,hrs⟩ := fields_cons.mp h
    refine ⟨(b++c::r)::rs,p,rfl,fields_cons.mpr ⟨⟨by simp,(hc.field _ _).mpr ⟨hb,hr⟩⟩,hrs⟩,?_⟩
    rw [join,join,List.append_assoc,List.cons_append]

/-- Of fields that are not firm, a part can be moved. -/
theorem exists_other (h : Fields V W (x::xs) p) (hf : ¬Firm c V xs p) :
    ∃ y ys q, ys.length = xs.length ∧ Fields V W (y::ys) q ∧
      join c (y::ys) q = join c (x::xs) p ∧ (y::ys,q) ≠ (x::xs,p) := by
  induction xs generalizing x with
  | nil =>
    obtain ⟨⟨-,hx⟩,hp⟩ := fields_cons.mp h
    simp only [Firm,not_forall] at hf
    obtain ⟨a,b,rfl,ha,hb⟩ := hf
    refine ⟨x++c::a,[],b,rfl,fields_cons.mpr
      ⟨⟨by simp,(hc.field _ _).mpr ⟨hx,ha⟩⟩,nofun,hb,(hc.last a b ha).mp hp.last.2⟩,?_,by simp⟩
    rw [join,join,join,join,List.append_assoc,List.cons_append]
  | cons r rs ih =>
    obtain ⟨hx,hr⟩ := fields_cons.mp h
    by_cases hrs : Firm c V rs p
    · obtain ⟨hmem,hone⟩ := not_or.mp fun hr => hf ⟨hr,hrs⟩
      obtain ⟨a,b,rfl⟩ := List.append_of_mem (not_not.mp hmem)
      obtain ⟨⟨-,hab⟩,hrest⟩ := fields_cons.mp hr
      obtain ⟨ha,hb⟩ := (hc.field a b).mp hab
      by_cases hnil : b = []
      · subst hnil
        have ha' : a ≠ [] := fun h => hone (by rw [h,List.nil_append])
        obtain ⟨ys,q,hlen,hys,hjoin⟩ := exists_join_append hc hb hrest
        refine ⟨x,a::ys,q,congrArg (·+1) hlen,fields_cons.mpr ⟨hx,fields_cons.mpr ⟨⟨ha',ha⟩,hys⟩⟩,
          ?_,fun h => ?_⟩
        · rw [join,join,hjoin,join,join,List.append_assoc]
          rfl
        · exact absurd (congrArg (List.length ∘ List.head!) (List.cons.inj (Prod.ext_iff.mp h).1).2)
            (by simp)
      · refine ⟨x++c::a,b::rs,p,rfl,fields_cons.mpr
          ⟨⟨by simp,(hc.field _ _).mpr ⟨hx.2,ha⟩⟩,fields_cons.mpr ⟨⟨hnil,hb⟩,hrest⟩⟩,?_,by simp⟩
        simp only [join,List.append_assoc,List.cons_append]
    · obtain ⟨y,ys,q,hlen,hys,hjoin,hne⟩ := ih hr hrs
      refine ⟨x,y::ys,q,congrArg (·+1) hlen,fields_cons.mpr ⟨hx,hys⟩,?_,fun h => hne ?_⟩
      · rw [join,hjoin]
        rfl
      · obtain ⟨hcons,rfl⟩ := Prod.ext_iff.mp h
        exact Prod.ext (List.cons.inj hcons).2 rfl

/-- No other fields have the same join exactly when the first has no separator behind its start
and the rest is firm. -/
theorem unique_iff (h : Fields V W (x::xs) p) :
    Unique c V W (x::xs) p ↔ (∀ a b, x = a++c::b → a = []) ∧ Firm c V xs p := by
  obtain ⟨⟨hx,hV⟩,hxs⟩ := fields_cons.mp h
  constructor
  · intro hu
    refine ⟨fun a b hab => ?_,?_⟩
    · subst hab
      by_contra ha
      obtain ⟨hVa,hVb⟩ := (hc.field a b).mp hV
      obtain ⟨ys,q,hlen,hys,hjoin⟩ := exists_join_append hc hVb hxs
      have heq := (hu (a::ys) q (congrArg (·+1) hlen) (fields_cons.mpr ⟨⟨ha,hVa⟩,hys⟩) (by
        rw [join,hjoin,join,List.append_assoc]
        rfl)).1
      exact absurd (List.cons.inj heq).1 (by simp)
    · by_contra hf
      obtain ⟨y,ys,q,hlen,hys,hjoin,hne⟩ := exists_other hc h hf
      obtain ⟨hy,rfl⟩ := hu (y::ys) q (congrArg (·+1) hlen) hys hjoin
      exact hne (Prod.ext hy rfl)
  · rintro ⟨hfirst,hf⟩ ys q hlen hys hjoin
    obtain ⟨y,ys,rfl⟩ := List.exists_cons_of_length_eq_add_one hlen
    obtain ⟨⟨hy,hVy⟩,hrest⟩ := fields_cons.mp hys
    replace hlen : ys.length = xs.length := Nat.succ_inj.mp hlen
    rcases append_cons_cases hjoin with ⟨rfl,htail⟩ | ⟨m,rfl,htail⟩ | ⟨m,rfl,htail⟩
    · obtain ⟨rfl,rfl⟩ := hf.unique hc hxs ys q hlen hrest htail
      exact ⟨rfl,rfl⟩
    · exact absurd (hfirst y m rfl) hy
    · exact absurd htail (hf.no_finer hc ((hc.field _ _).mp hVy).2 hlen hrest)

end Cut

end Semp.Separator
