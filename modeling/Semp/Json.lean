import Semp.JsNumber
import Mathlib.Data.List.Perm.Subperm
import Mathlib.Data.List.Sort

/-! JSON values as JavaScript holds them.  An object is the list of its own
properties; well-formed means that no object lists a key twice.  Two values are
the same when they differ only in the order of members and the sign of a zero,
and a value's normal form decides that. -/
namespace Semp

inductive Json
  | null
  | bool (b : Bool)
  | num (x : Number)
  | str (s : JsString)
  | arr (items : List Json)
  | obj (members : List (JsString × Json))
  deriving Repr

abbrev Members := List (JsString × Json)

/-- Order of strings by code units, as `Array.prototype.sort` compares them. -/
def keyLe : JsString → JsString → Bool
  | [], _ => true
  | _::_, [] => false
  | a::as, b::bs => if a = b then keyLe as bs else decide (a.toNat < b.toNat)

def KeyLe {α : Type} (m n : JsString × α) : Prop := keyLe m.1 n.1 = true

instance {α : Type} : DecidableRel (KeyLe (α := α)) := fun m n =>
  inferInstanceAs (Decidable (keyLe m.1 n.1 = true))

/-- Members in the order of `Object.keys(obj).sort()`. -/
def sortMembers {α : Type} (ms : List (JsString × α)) : List (JsString × α) :=
  ms.insertionSort KeyLe

/-- The value of an own property. -/
def lookup {α : Type} : List (JsString × α) → JsString → Option α
  | [], _ => none
  | m::ms, k => if m.1 = k then some m.2 else lookup ms k

/-- Definition of an own property: an existing one keeps its place. -/
def assign {α : Type} : List (JsString × α) → JsString → α → List (JsString × α)
  | [], k, v => [(k,v)]
  | m::ms, k, v => if m.1 = k then (k,v)::ms else m::assign ms k v

def keys {α : Type} (ms : List (JsString × α)) : List JsString := ms.map Prod.fst

section Equations
-- Their equations are made here, and not by each of the proofs that use them.
attribute [local simp] keyLe lookup assign
end Equations

theorem keyLe_total (a b : JsString) : keyLe a b = true ∨ keyLe b a = true := by
  induction a generalizing b with
  | nil => simp [keyLe]
  | cons x a ih =>
    cases b with
    | nil => simp [keyLe]
    | cons y b =>
      by_cases h : x = y
      · subst h
        simpa [keyLe] using ih b
      · have hn : x.toNat ≠ y.toNat := fun he => h (UInt16.toNat_inj.mp he)
        simp only [keyLe,if_neg h,if_neg (Ne.symm h),decide_eq_true_eq]
        omega

theorem keyLe_antisymm {a b : JsString} (h : keyLe a b = true) (h' : keyLe b a = true) :
    a = b := by
  induction a generalizing b with
  | nil => cases b <;> simp_all [keyLe]
  | cons x a ih =>
    cases b with
    | nil => simp [keyLe] at h
    | cons y b =>
      by_cases hxy : x = y
      · subst hxy
        simp only [keyLe,if_true] at h h'
        rw [ih h h']
      · simp only [keyLe,if_neg hxy,if_neg (Ne.symm hxy),decide_eq_true_eq] at h h'
        omega

theorem keyLe_trans {a b c : JsString} (h : keyLe a b = true) (h' : keyLe b c = true) :
    keyLe a c = true := by
  induction a generalizing b c with
  | nil => simp [keyLe]
  | cons x a ih =>
    cases b with
    | nil => simp [keyLe] at h
    | cons y b =>
      cases c with
      | nil => simp [keyLe] at h'
      | cons z c =>
        by_cases hxy : x = y <;> by_cases hyz : y = z
        · subst hxy hyz
          simp only [keyLe,if_true] at h h' ⊢
          exact ih h h'
        · subst hxy
          simpa only [keyLe,if_neg hyz] using h'
        · subst hyz
          simpa only [keyLe,if_neg hxy] using h
        · simp only [keyLe,if_neg hxy,if_neg hyz,decide_eq_true_eq] at h h'
          have hxz : x ≠ z := by
            rintro rfl
            omega
          simp only [keyLe,if_neg hxz,decide_eq_true_eq]
          omega

instance {α : Type} : Std.Total (KeyLe (α := α)) := ⟨fun m n => keyLe_total m.1 n.1⟩

instance {α : Type} : IsTrans (JsString × α) KeyLe := ⟨fun _ _ _ => keyLe_trans⟩

section Members
variable {α β : Type}

theorem sortMembers_perm (ms : List (JsString × α)) : (sortMembers ms).Perm ms :=
  List.perm_insertionSort _ ms

@[simp] theorem mem_sortMembers {ms : List (JsString × α)} {m : JsString × α} :
    m ∈ sortMembers ms ↔ m ∈ ms := (sortMembers_perm ms).mem_iff

@[simp] theorem keys_nil : keys ([] : List (JsString × α)) = [] := rfl

@[simp] theorem keys_cons (m : JsString × α) (ms : List (JsString × α)) :
    keys (m::ms) = m.1::keys ms := rfl

theorem mem_keys {ms : List (JsString × α)} {k : JsString} : k ∈ keys ms ↔ ∃ v, (k,v) ∈ ms := by
  simp [keys]

theorem nodup_keys_sortMembers {ms : List (JsString × α)} :
    (keys (sortMembers ms)).Nodup ↔ (keys ms).Nodup :=
  ((sortMembers_perm ms).map Prod.fst).nodup_iff

/-- With distinct keys the sorted order is unique. -/
theorem sortMembers_eq_iff {ms ns : List (JsString × α)} (hm : (keys ms).Nodup) :
    sortMembers ms = sortMembers ns ↔ ms.Perm ns := by
  constructor
  · intro h
    exact (sortMembers_perm ms).symm.trans (h ▸ sortMembers_perm ns)
  · intro h
    have hp : (sortMembers ms).Perm (sortMembers ns) :=
      (sortMembers_perm ms).trans (h.trans (sortMembers_perm ns).symm)
    have sm : (sortMembers ms).Pairwise KeyLe := List.pairwise_insertionSort KeyLe ms
    have sn : (sortMembers ns).Pairwise KeyLe := List.pairwise_insertionSort KeyLe ns
    refine hp.eq_of_pairwise ?_ sm sn
    intro a b ha hb hab hba
    have hk : a.1 = b.1 := keyLe_antisymm hab hba
    rw [mem_sortMembers] at ha hb
    exact List.inj_on_of_nodup_map hm ha (h.mem_iff.mpr hb) hk

theorem sortMembers_sorted {ms : List (JsString × α)} :
    sortMembers (sortMembers ms) = sortMembers ms :=
  List.Pairwise.insertionSort_eq (List.pairwise_insertionSort KeyLe ms)

/-- Sorting looks at keys alone. -/
theorem sortMembers_map (f : JsString × α → JsString × β) (hf : ∀ m, (f m).1 = m.1)
    (ms : List (JsString × α)) : sortMembers (ms.map f) = (sortMembers ms).map f := by
  have hle : ∀ a ∈ ms, ∀ b ∈ ms, KeyLe a b ↔ KeyLe (f a) (f b) := by
    intro a _ b _
    simp [KeyLe,hf]
  exact (List.map_insertionSort KeyLe KeyLe f ms hle).symm

theorem lookup_eq_some {ms : List (JsString × α)} (h : (keys ms).Nodup) {k : JsString} {v : α} :
    lookup ms k = some v ↔ (k,v) ∈ ms := by
  induction ms with
  | nil => simp [lookup]
  | cons m ms ih =>
    simp only [keys_cons,List.nodup_cons] at h
    rw [lookup]
    by_cases hk : m.1 = k
    · subst hk
      simp only [if_true,Option.some.injEq,List.mem_cons]
      constructor
      · rintro rfl
        exact .inl rfl
      · rintro (he | he)
        · rw [← he]
        · exact absurd (mem_keys.mpr ⟨v,he⟩) h.1
    · rw [if_neg hk,ih h.2,List.mem_cons]
      constructor
      · exact .inr
      · rintro (he | he)
        · exact absurd (congrArg Prod.fst he).symm hk
        · exact he

theorem mem_of_lookup {ms : List (JsString × α)} {k : JsString} {v : α}
    (h : lookup ms k = some v) : (k,v) ∈ ms := by
  induction ms with
  | nil => simp [lookup] at h
  | cons m ms ih =>
    rw [lookup] at h
    by_cases hk : m.1 = k
    · rw [if_pos hk] at h
      obtain rfl := hk
      obtain rfl := Option.some.inj h
      exact List.mem_cons_self ..
    · rw [if_neg hk] at h
      exact List.mem_cons_of_mem _ (ih h)

theorem lookup_eq_none {ms : List (JsString × α)} {k : JsString} :
    lookup ms k = none ↔ k ∉ keys ms := by
  induction ms with
  | nil => simp [lookup]
  | cons m ms ih =>
    rw [lookup]
    by_cases hk : m.1 = k
    · simp [hk]
    · simp [hk,ih,Ne.symm hk]

@[simp] theorem lookup_assign_self (ms : List (JsString × α)) (k : JsString) (v : α) :
    lookup (assign ms k v) k = some v := by
  induction ms with
  | nil => simp [assign,lookup]
  | cons m ms ih => by_cases h : m.1 = k <;> simp [assign,lookup,h,ih]

@[simp] theorem lookup_assign_ne {ms : List (JsString × α)} {k l : JsString} (v : α)
    (h : l ≠ k) : lookup (assign ms k v) l = lookup ms l := by
  induction ms with
  | nil => simp [assign,lookup,h.symm]
  | cons m ms ih =>
    by_cases hm : m.1 = k
    · subst hm
      simp [assign,lookup,h.symm]
    · simp only [assign,if_neg hm,lookup,ih]

theorem mem_keys_assign {ms : List (JsString × α)} {k l : JsString} {v : α} :
    l ∈ keys (assign ms k v) ↔ l = k ∨ l ∈ keys ms := by
  by_cases h : l = k
  · subst h
    simp only [true_or,iff_true]
    by_contra hn
    rw [← lookup_eq_none] at hn
    simp at hn
  · have hl : lookup (assign ms k v) l = lookup ms l := lookup_assign_ne v h
    simp only [h,false_or]
    rw [← not_iff_not,← lookup_eq_none,← lookup_eq_none,hl]

theorem nodup_keys_assign {ms : List (JsString × α)} (h : (keys ms).Nodup) (k : JsString)
    (v : α) : (keys (assign ms k v)).Nodup := by
  induction ms with
  | nil => simp [assign]
  | cons m ms ih =>
    simp only [keys_cons,List.nodup_cons] at h
    by_cases hm : m.1 = k
    · subst hm
      simpa [assign] using h
    · simp only [assign,if_neg hm,keys_cons,List.nodup_cons]
      exact ⟨fun hk => (mem_keys_assign.mp hk).elim hm h.1,ih h.2⟩

theorem assign_of_notMem {ms : List (JsString × α)} {k : JsString} (h : k ∉ keys ms) (v : α) :
    assign ms k v = ms++[(k,v)] := by
  induction ms with
  | nil => rfl
  | cons m ms ih =>
    simp only [keys_cons,List.mem_cons,not_or] at h
    simp [assign,Ne.symm h.1,ih h.2]

/-- A second assignment of a key replaces the first. -/
@[simp] theorem assign_assign (ms : List (JsString × α)) (k : JsString) (v w : α) :
    assign (assign ms k v) k w = assign ms k w := by
  induction ms with
  | nil => simp [assign]
  | cons m ms ih => by_cases h : m.1 = k <;> simp [assign,h,ih]

theorem mem_assign {ms : List (JsString × α)} {k : JsString} {v : α} {m : JsString × α}
    (h : m ∈ assign ms k v) : m = (k,v) ∨ m ∈ ms := by
  induction ms with
  | nil => simpa [assign] using h
  | cons n ms ih =>
    by_cases hn : n.1 = k
    · rw [assign,if_pos hn,List.mem_cons] at h
      exact h.imp_right fun h => List.mem_cons_of_mem _ h
    · rw [assign,if_neg hn,List.mem_cons] at h
      rcases h with rfl | h
      · exact .inr (List.mem_cons_self ..)
      · exact (ih h).imp_right fun h => List.mem_cons_of_mem _ h

theorem map_assign (f : α → β) (ms : List (JsString × α)) (k : JsString) (v : α) :
    (assign ms k v).map (fun m => (m.1,f m.2)) =
      assign (ms.map fun m => (m.1,f m.2)) k (f v) := by
  induction ms with
  | nil => rfl
  | cons m ms ih => by_cases h : m.1 = k <;> simp [assign,h,ih]

theorem lookup_map (f : α → β) (ms : List (JsString × α)) (k : JsString) :
    lookup (ms.map fun m => (m.1,f m.2)) k = (lookup ms k).map f := by
  induction ms with
  | nil => rfl
  | cons m ms ih => by_cases h : m.1 = k <;> simp [lookup,h,ih]

theorem lookup_filter_ne (ms : List (JsString × α)) {k l : JsString} (h : l ≠ k) :
    lookup (ms.filter fun m => m.1 ≠ k) l = lookup ms l := by
  induction ms with
  | nil => rfl
  | cons m ms ih =>
    by_cases hm : m.1 = k
    · have hl : m.1 ≠ l := fun hml => h (hml.symm.trans hm)
      rw [List.filter_cons_of_neg (by simp [hm]),ih,lookup,if_neg hl]
    · rw [List.filter_cons_of_pos (by simp [hm]),lookup,lookup,ih]

/-- Members with distinct keys are determined by what each key is bound to. -/
theorem perm_iff_lookup {ms ns : List (JsString × α)} (hm : (keys ms).Nodup)
    (hn : (keys ns).Nodup) : ms.Perm ns ↔ ∀ k, lookup ms k = lookup ns k := by
  rw [List.perm_ext_iff_of_nodup (List.Nodup.of_map _ hm) (List.Nodup.of_map _ hn)]
  constructor
  · intro h k
    apply Option.ext
    intro v
    rw [lookup_eq_some hm,lookup_eq_some hn,h]
  · rintro h ⟨k,v⟩
    rw [← lookup_eq_some hm,← lookup_eq_some hn,h]

end Members

namespace Json

/-- Induction over a value: the items of an array and the members of an object
come with their own hypotheses. -/
@[elab_as_elim,induction_eliminator]
theorem ind {motive : Json → Prop} (null : motive .null) (bool : ∀ b, motive (.bool b))
    (num : ∀ x, motive (.num x)) (str : ∀ s, motive (.str s))
    (arr : ∀ vs, (∀ v ∈ vs, motive v) → motive (.arr vs))
    (obj : ∀ ms : Members, (∀ m ∈ ms, motive m.2) → motive (.obj ms)) (v : Json) : motive v :=
  @Json.rec motive (fun vs => ∀ v ∈ vs, motive v)
    (fun ms => ∀ m ∈ ms, motive m.2) (fun m => motive m.2)
    null bool num str arr obj (by simp)
    (fun v vs hv hvs w hw => (List.mem_cons.mp hw).elim (· ▸ hv) (hvs w))
    (by simp) (fun m ms hm hms n hn => (List.mem_cons.mp hn).elim (· ▸ hm) (hms n))
    (fun _ _ hv => hv) v

mutual
/-- No object lists a key twice. -/
def WF : Json → Prop
  | .arr vs => WFItems vs
  | .obj ms => (keys ms).Nodup ∧ WFMembers ms
  | _ => True
def WFItems : List Json → Prop
  | [] => True
  | v::vs => v.WF ∧ WFItems vs
def WFMembers : Members → Prop
  | [] => True
  | (_,v)::ms => v.WF ∧ WFMembers ms
end

mutual
/-- Every number of the value is finite. -/
def Finite : Json → Prop
  | .num x => x.isFinite = true
  | .arr vs => FiniteItems vs
  | .obj ms => FiniteMembers ms
  | _ => True
def FiniteItems : List Json → Prop
  | [] => True
  | v::vs => v.Finite ∧ FiniteItems vs
def FiniteMembers : Members → Prop
  | [] => True
  | (_,v)::ms => v.Finite ∧ FiniteMembers ms
end

mutual
/-- Equality up to the order of members and the sign of a zero. -/
def Same : Json → Json → Prop
  | .null, .null => True
  | .bool a, .bool b => a = b
  | .num x, .num y => Number.eq x y = true
  | .str s, .str t => s = t
  | .arr vs, .arr ws => SameItems vs ws
  | .obj ms, .obj ns => ms.length = ns.length ∧ SameMembers ms ns
  | _, _ => False
def SameItems : List Json → List Json → Prop
  | [], [] => True
  | v::vs, w::ws => v.Same w ∧ SameItems vs ws
  | _, _ => False
/-- Each member has a partner of its key. -/
def SameMembers : Members → Members → Prop
  | [], _ => True
  | (k,v)::ms, ns => (∃ n ∈ ns, n.1 = k ∧ v.Same n.2) ∧ SameMembers ms ns
end

mutual
/-- What a value is after `JSON.parse(JSON.stringify(v))`: numbers without a
negative zero, and `null` for what is not finite. -/
def reparse : Json → Json
  | .num x => if x.isFinite then .num x.dropNegZero else .null
  | .arr vs => .arr (reparseItems vs)
  | .obj ms => .obj (reparseMembers ms)
  | v => v
def reparseItems : List Json → List Json
  | [] => []
  | v::vs => v.reparse::reparseItems vs
def reparseMembers : Members → Members
  | [] => []
  | (k,v)::ms => (k,v.reparse)::reparseMembers ms
end

mutual
/-- Members sorted at every level. -/
def sortKeys : Json → Json
  | .arr vs => .arr (sortItems vs)
  | .obj ms => .obj (sortMembers (sortEach ms))
  | v => v
def sortItems : List Json → List Json
  | [] => []
  | v::vs => v.sortKeys::sortItems vs
def sortEach : Members → Members
  | [] => []
  | (k,v)::ms => (k,v.sortKeys)::sortEach ms
end

/-- The normal form: the value read back from its own canonical text. -/
def norm (v : Json) : Json := v.reparse.sortKeys

section Equations
attribute [local simp] WF WFItems WFMembers Finite FiniteItems FiniteMembers
attribute [local simp] Same SameItems SameMembers reparse reparseItems reparseMembers
attribute [local simp] sortKeys sortItems sortEach
end Equations

@[simp] theorem wfItems_iff {vs : List Json} : WFItems vs ↔ ∀ v ∈ vs, v.WF := by
  induction vs with
  | nil => simp [WFItems]
  | cons v vs ih => simp [WFItems,ih]

@[simp] theorem wfMembers_iff {ms : Members} : WFMembers ms ↔ ∀ m ∈ ms, m.2.WF := by
  induction ms with
  | nil => simp [WFMembers]
  | cons m ms ih => obtain ⟨k,v⟩ := m; simp [WFMembers,ih]

@[simp] theorem finiteItems_iff {vs : List Json} : FiniteItems vs ↔ ∀ v ∈ vs, v.Finite := by
  induction vs with
  | nil => simp [FiniteItems]
  | cons v vs ih => simp [FiniteItems,ih]

@[simp] theorem finiteMembers_iff {ms : Members} : FiniteMembers ms ↔ ∀ m ∈ ms, m.2.Finite := by
  induction ms with
  | nil => simp [FiniteMembers]
  | cons m ms ih => obtain ⟨k,v⟩ := m; simp [FiniteMembers,ih]

@[simp] theorem sameItems_iff {vs ws : List Json} : SameItems vs ws ↔ List.Forall₂ Same vs ws := by
  induction vs generalizing ws with
  | nil => cases ws <;> simp [SameItems]
  | cons v vs ih => cases ws <;> simp [SameItems,ih]

@[simp] theorem sameMembers_iff {ms ns : Members} :
    SameMembers ms ns ↔ ∀ m ∈ ms, ∃ n ∈ ns, n.1 = m.1 ∧ m.2.Same n.2 := by
  induction ms with
  | nil => simp [SameMembers]
  | cons m ms ih => obtain ⟨k,v⟩ := m; simp [SameMembers,ih]

@[simp] theorem reparse_null : reparse .null = .null := rfl
@[simp] theorem reparse_bool (b : Bool) : reparse (.bool b) = .bool b := rfl
@[simp] theorem reparse_str (s : JsString) : reparse (.str s) = .str s := rfl

@[simp] theorem sortKeys_num (x : Number) : sortKeys (.num x) = .num x := rfl

@[simp] theorem reparseItems_eq (vs : List Json) : reparseItems vs = vs.map reparse := by
  induction vs with
  | nil => rfl
  | cons v vs ih => simp [reparseItems,ih]

@[simp] theorem reparseMembers_eq (ms : Members) :
    reparseMembers ms = ms.map fun m => (m.1,m.2.reparse) := by
  induction ms with
  | nil => rfl
  | cons m ms ih => obtain ⟨k,v⟩ := m; simp [reparseMembers,ih]

@[simp] theorem sortItems_eq (vs : List Json) : sortItems vs = vs.map sortKeys := by
  induction vs with
  | nil => rfl
  | cons v vs ih => simp [sortItems,ih]

@[simp] theorem sortEach_eq (ms : Members) :
    sortEach ms = ms.map fun m => (m.1,m.2.sortKeys) := by
  induction ms with
  | nil => rfl
  | cons m ms ih => obtain ⟨k,v⟩ := m; simp [sortEach,ih]

theorem norm_number {x : Number} (h : x.isFinite) : norm (.num x) = .num x.dropNegZero := by
  simp [norm,reparse,h]

@[simp] theorem norm_arr (vs : List Json) : norm (.arr vs) = .arr (vs.map norm) := by
  simp [norm,reparse,sortKeys,Function.comp_def]

@[simp] theorem norm_obj (ms : Members) :
    norm (.obj ms) = .obj (sortMembers (ms.map fun m => (m.1,m.2.norm))) := by
  simp [norm,reparse,sortKeys,Function.comp_def]

@[simp] theorem norm_null : norm .null = .null := rfl
@[simp] theorem norm_bool (b : Bool) : norm (.bool b) = .bool b := rfl
@[simp] theorem norm_str (s : JsString) : norm (.str s) = .str s := rfl

@[simp] theorem keys_map_snd {α β : Type} (f : α → β) (ms : List (JsString × α)) :
    keys (ms.map fun m => (m.1,f m.2)) = keys ms := by
  simp [keys]

theorem wf_obj {ms : Members} : (obj ms).WF ↔ (keys ms).Nodup ∧ ∀ m ∈ ms, m.2.WF := by
  simp [WF]

theorem wf_empty : (obj []).WF := wf_obj.mpr ⟨List.nodup_nil,nofun⟩

theorem wf_arr {vs : List Json} : (arr vs).WF ↔ ∀ v ∈ vs, v.WF := by
  simp [WF]

@[simp] theorem wf_null : WF .null := trivial
@[simp] theorem wf_bool (b : Bool) : WF (.bool b) := trivial
@[simp] theorem wf_num (x : Number) : WF (.num x) := trivial
@[simp] theorem wf_str (s : JsString) : WF (.str s) := trivial

/-- An object with the keys `ks`. -/
theorem wf_of_keys {ms : Members} (ks : List JsString) (hk : keys ms = ks) (hn : ks.Nodup)
    (hv : ∀ m ∈ ms, m.2.WF) : (obj ms).WF :=
  wf_obj.mpr ⟨hk ▸ hn,hv⟩

theorem wf_assign {ms : Members} (h : (obj ms).WF) {v : Json} (hv : v.WF) (k : JsString) :
    (obj (assign ms k v)).WF := by
  rw [wf_obj] at h ⊢
  refine ⟨nodup_keys_assign h.1 k v,fun m hm => ?_⟩
  rcases mem_assign hm with rfl | hm
  · exact hv
  · exact h.2 m hm

theorem wf_filter {ms : Members} (h : (obj ms).WF) (p : JsString × Json → Bool) :
    (obj (ms.filter p)).WF := by
  rw [wf_obj] at h ⊢
  exact ⟨h.1.sublist (List.filter_sublist.map Prod.fst),fun m hm => h.2 m (List.mem_of_mem_filter hm)⟩

theorem wf_of_lookup {ms : Members} (h : (obj ms).WF) {k : JsString} {v : Json}
    (hv : lookup ms k = some v) : v.WF := by
  rw [wf_obj] at h
  exact h.2 (k,v) ((lookup_eq_some h.1).mp hv)

theorem finite_obj {ms : Members} : (obj ms).Finite ↔ ∀ m ∈ ms, m.2.Finite := by
  simp [Finite]

theorem finite_assign {ms : Members} (h : (obj ms).Finite) {v : Json} (hv : v.Finite)
    (k : JsString) : (obj (assign ms k v)).Finite := by
  rw [finite_obj] at h ⊢
  intro m hm
  rcases mem_assign hm with rfl | hm
  · exact hv
  · exact h m hm

theorem finite_of_lookup {ms : Members} (h : (obj ms).Finite) {k : JsString} {v : Json}
    (hv : lookup ms k = some v) : v.Finite := by
  rw [finite_obj] at h
  exact h (k,v) (mem_of_lookup hv)

theorem finite_arr {vs : List Json} : (arr vs).Finite ↔ ∀ v ∈ vs, v.Finite := by
  simp [Finite]

/-- The normal form is well-formed, finite and its own normal form. -/
theorem wf_norm {v : Json} (h : v.WF) : v.norm.WF := by
  induction v with
  | arr vs ih =>
    rw [wf_arr] at h
    rw [norm_arr,wf_arr,List.forall_mem_map]
    exact fun v hv => ih v hv (h v hv)
  | obj ms ih =>
    rw [wf_obj] at h
    rw [norm_obj,wf_obj,nodup_keys_sortMembers,keys_map_snd]
    refine ⟨h.1,fun m hm => ?_⟩
    obtain ⟨n,hn,rfl⟩ := List.mem_map.mp (mem_sortMembers.mp hm)
    exact ih n hn (h.2 n hn)
  | num x => unfold norm reparse; split <;> simp [sortKeys]
  | _ => trivial

theorem finite_norm (v : Json) : v.norm.Finite := by
  induction v with
  | arr vs ih =>
    rw [norm_arr,finite_arr,List.forall_mem_map]
    exact ih
  | obj ms ih =>
    rw [norm_obj,finite_obj]
    intro m hm
    obtain ⟨n,hn,rfl⟩ := List.mem_map.mp (mem_sortMembers.mp hm)
    exact ih n hn
  | num x => unfold norm reparse; split <;> simp_all [sortKeys,Finite]
  | _ => trivial

@[simp] theorem norm_norm (v : Json) : v.norm.norm = v.norm := by
  induction v with
  | arr vs ih =>
    rw [norm_arr,norm_arr,List.map_map]
    congr 1
    exact List.map_congr_left ih
  | obj ms ih =>
    rw [norm_obj,norm_obj,← sortMembers_map (fun m : JsString × Json => (m.1,m.2.norm))
      (fun _ => rfl),sortMembers_sorted,List.map_map]
    congr 2
    exact List.map_congr_left fun m hm => by simp [ih m hm]
  | num x =>
    by_cases h : x.isFinite
    · rw [norm_number h,norm_number (by simpa using h),Number.dropNegZero_idem]
    · simp [norm,reparse,h,sortKeys]
  | _ => rfl

@[simp] theorem reparse_reparse (v : Json) : v.reparse.reparse = v.reparse := by
  induction v with
  | null | bool | str => rfl
  | num x =>
    by_cases h : x.isFinite
    · simp [reparse,h]
    · simp [reparse,h]
  | arr vs ih =>
    simp only [reparse,reparseItems_eq,List.map_map]
    congr 1
    exact List.map_congr_left ih
  | obj ms ih =>
    simp only [reparse,reparseMembers_eq,List.map_map]
    congr 1
    exact List.map_congr_left fun m hm => by simp [ih m hm]

@[simp] theorem norm_reparse (v : Json) : v.reparse.norm = v.norm := by
  rw [norm,reparse_reparse,norm]

/-- Two objects have one normal form when each key has. -/
theorem norm_obj_eq_iff {ms ns : Members} (hm : (obj ms).WF) (hn : (obj ns).WF) :
    (obj ms).norm = (obj ns).norm ↔ ∀ k, (lookup ms k).map norm = (lookup ns k).map norm := by
  have km : (keys (ms.map fun m => (m.1,m.2.norm))).Nodup := by
    rw [keys_map_snd]
    exact (wf_obj.mp hm).1
  have kn : (keys (ns.map fun m => (m.1,m.2.norm))).Nodup := by
    rw [keys_map_snd]
    exact (wf_obj.mp hn).1
  rw [norm_obj,norm_obj,obj.injEq,sortMembers_eq_iff km,perm_iff_lookup km kn]
  simp only [lookup_map]

theorem norm_assign {ms ns : Members} (hm : (obj ms).WF) (hn : (obj ns).WF)
    (h : (obj ms).norm = (obj ns).norm) {v w : Json} (hv : v.WF) (hw : w.WF)
    (hvw : v.norm = w.norm) (k : JsString) :
    (obj (assign ms k v)).norm = (obj (assign ns k w)).norm := by
  rw [norm_obj_eq_iff (wf_assign hm hv k) (wf_assign hn hw k)]
  intro l
  by_cases hl : l = k
  · subst hl
    simp [hvw]
  · rw [lookup_assign_ne _ hl,lookup_assign_ne _ hl,(norm_obj_eq_iff hm hn).mp h l]

@[simp] theorem norm_eq_str {v : Json} {s : JsString} : v.norm = .str s ↔ v = .str s := by
  cases v with
  | num x => by_cases h : x.isFinite <;> simp [norm,reparse,h,sortKeys]
  | _ => simp

theorem norm_eq_obj {v : Json} {ms : Members} (h : v.norm = (obj ms).norm) :
    ∃ ns, v = .obj ns := by
  cases v with
  | obj ns => exact ⟨ns,rfl⟩
  | num x => by_cases hx : x.isFinite <;> simp [norm,reparse,hx,sortKeys] at h
  | _ => simp at h

theorem norm_eq_arr {v : Json} {ws : List Json} (h : v.norm = (arr ws).norm) :
    ∃ vs, v = .arr vs := by
  cases v with
  | arr vs => exact ⟨vs,rfl⟩
  | num x => by_cases hx : x.isFinite <;> simp [norm,reparse,hx,sortKeys] at h
  | _ => simp at h

theorem norm_eq_strs {v : Json} {ss : List JsString}
    (h : v.norm = (arr (ss.map str)).norm) : v = arr (ss.map str) := by
  obtain ⟨vs,rfl⟩ := norm_eq_arr h
  simp only [norm_arr,arr.injEq,List.map_map] at h ⊢
  induction ss generalizing vs with
  | nil => simpa using h
  | cons s ss ih =>
    cases vs with
    | nil => simp at h
    | cons v vs =>
      simp only [List.map_cons,List.cons.injEq,Function.comp_apply,norm_str,norm_eq_str] at h
      rw [h.1,ih vs h.2,List.map_cons]

/-- A number arrives as a number, or as `null` when it is not finite. -/
theorem norm_eq_num {v : Json} {x : Number} (h : v.norm = (num x).norm) :
    v = .null ∨ ∃ y, v = .num y := by
  cases v with
  | null => exact .inl rfl
  | num y => exact .inr ⟨y,rfl⟩
  | _ => by_cases hx : x.isFinite <;> simp [norm,reparse,hx,sortKeys] at h

/-- What an object of the same normal form has for a key. -/
theorem lookup_str_of_norm {ms ns : Members} (hm : (obj ms).WF) (hn : (obj ns).WF)
    (h : (obj ms).norm = (obj ns).norm) {k s : JsString} :
    lookup ms k = some (.str s) ↔ lookup ns k = some (.str s) := by
  have hk := (norm_obj_eq_iff hm hn).mp h k
  constructor
  · intro hs
    rw [hs,Option.map_some,eq_comm,Option.map_eq_some_iff] at hk
    obtain ⟨v,hv,he⟩ := hk
    rw [hv,norm_eq_str.mp he]
  · intro hs
    rw [hs,Option.map_some,Option.map_eq_some_iff] at hk
    obtain ⟨v,hv,he⟩ := hk
    rw [hv,norm_eq_str.mp he]

theorem lookup_obj_of_norm {ms ns ns' : Members} (hm : (obj ms).WF) (hn : (obj ns).WF)
    (h : (obj ms).norm = (obj ns).norm) {k : JsString} (hk : lookup ns k = some (.obj ns')) :
    ∃ ms', lookup ms k = some (.obj ms') ∧ (obj ms').norm = (obj ns').norm := by
  have he := (norm_obj_eq_iff hm hn).mp h k
  rw [hk,Option.map_some,Option.map_eq_some_iff] at he
  obtain ⟨v,hv,he⟩ := he
  obtain ⟨ms',rfl⟩ := norm_eq_obj he
  exact ⟨ms',hv,he⟩

/-- Sameness is equality of normal forms. -/
theorem same_iff_norm {v w : Json} (hv : v.WF) (hw : w.WF) (fv : v.Finite) (fw : w.Finite) :
    v.Same w ↔ v.norm = w.norm := by
  induction v generalizing w with
  | null =>
    cases w with
    | num x => simp only [Finite] at fw; simp [Same,norm_number fw]
    | _ => simp [Same]
  | bool b =>
    cases w with
    | num x => simp only [Finite] at fw; simp [Same,norm_number fw]
    | _ => simp [Same]
  | str s =>
    cases w with
    | num x => simp only [Finite] at fw; simp [Same,norm_number fw]
    | _ => simp [Same]
  | num x =>
    simp only [Finite] at fv
    cases w with
    | num y =>
      simp only [Finite] at fw
      rw [Same,norm_number fv,norm_number fw,num.injEq,Number.dropNegZero_eq_iff fv fw,
        Number.eq_fin fv fw,decide_eq_true_eq]
    | _ => simp [Same,norm_number fv]
  | arr vs ih =>
    cases w with
    | num x => simp only [Finite] at fw; simp [Same,norm_number fw]
    | arr ws =>
      rw [wf_arr] at hv hw
      rw [finite_arr] at fv fw
      rw [Same,sameItems_iff,norm_arr,norm_arr,arr.injEq]
      induction vs generalizing ws with
      | nil => cases ws <;> simp
      | cons v vs ihvs =>
        cases ws with
        | nil => simp
        | cons w ws =>
          simp only [List.forall₂_cons,List.map_cons,List.cons.injEq]
          simp only [List.mem_cons,forall_eq_or_imp] at ih hv hw fv fw
          exact and_congr (ih.1 hv.1 hw.1 fv.1 fw.1) (ihvs ih.2 hv.2 fv.2 ws hw.2 fw.2)
    | _ => simp [Same]
  | obj ms ih =>
    cases w with
    | num x => simp only [Finite] at fw; simp [Same,norm_number fw]
    | obj ns =>
      rw [wf_obj] at hv hw
      rw [finite_obj] at fv fw
      rw [Same,sameMembers_iff,norm_obj,norm_obj,obj.injEq,
        sortMembers_eq_iff (by rw [keys_map_snd]; exact hv.1)]
      constructor
      · rintro ⟨hlen,hpart⟩
        have hnd : (ms.map fun m => (m.1,m.2.norm)).Nodup :=
          List.Nodup.of_map Prod.fst (by rw [← keys,keys_map_snd]; exact hv.1)
        have hsub : (ms.map fun m => (m.1,m.2.norm)) ⊆ ns.map fun m => (m.1,m.2.norm) := by
          intro p hp
          obtain ⟨m,hm,rfl⟩ := List.mem_map.mp hp
          obtain ⟨n,hn,hk,hs⟩ := hpart m hm
          have he := (ih m hm (hv.2 m hm) (hw.2 n hn) (fv m hm) (fw n hn)).mp hs
          exact List.mem_map.mpr ⟨n,hn,by rw [hk,he]⟩
        exact (List.subperm_of_subset hnd hsub).perm_of_length_le (by simp [hlen])
      · intro hp
        refine ⟨by simpa using hp.length_eq,fun m hm => ?_⟩
        have hmem := hp.mem_iff.mp (List.mem_map_of_mem (f := fun m => (m.1,m.2.norm)) hm)
        obtain ⟨n,hn,he⟩ := List.mem_map.mp hmem
        obtain ⟨hk,hnorm⟩ := Prod.mk.inj he
        exact ⟨n,hn,hk,(ih m hm (hv.2 m hm) (hw.2 n hn) (fv m hm) (fw n hn)).mpr hnorm.symm⟩
    | _ => simp [Same]

/-- A value is the same as its normal form. -/
theorem same_norm {v : Json} (h : v.WF) (f : v.Finite) : v.norm.Same v :=
  (same_iff_norm (wf_norm h) h (finite_norm v) f).mpr (norm_norm v)

end Json
end Semp
