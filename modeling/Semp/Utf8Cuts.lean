import Mathlib.Data.Set.List
import Semp.JsText
import Semp.Separator

/-! Where the encoding of a string can be cut, and which strings the encoder tells from all
others. -/
namespace Semp.Utf8

variable {s t : JsString} {cs : List ℕ}

section Cut
variable {u : UInt16} (hu : isLow u = false)
include hu

/-- A pair is not cut before a unit that is no second half. -/
theorem scalars_append_cons (a b : JsString) :
    scalars (a++u::b) = scalars a++scalars (u::b) := by
  fun_induction scalars a with
  | case1 => rfl
  | case2 v =>
    have hpair : (isHigh v && isLow u) = false := by rw [hu,Bool.and_false]
    simp only [List.cons_append,List.nil_append,scalars,hpair,Bool.false_eq_true,if_false]
  | case3 v l rest h ih => simp only [List.cons_append,scalars,h,if_true,ih]
  | case4 v l rest h ih =>
    rw [List.cons_append] at ih
    simp only [List.cons_append,scalars,h,Bool.false_eq_true,if_false,ih]

theorem isWellFormed_of_append_cons {a b : JsString} (h : isWellFormed (a++u::b)) :
    isWellFormed (u::b) := by
  fun_induction isWellFormed a with
  | case1 => exact h
  | case2 v =>
    simp only [List.cons_append,List.nil_append,isWellFormed,hu,Bool.false_and] at h
    split_ifs at h
    exact (Bool.and_eq_true_iff.mp h).2
  | case3 v l rest hv ih =>
    simp only [List.cons_append,isWellFormed,hv,if_true,Bool.and_eq_true] at h
    exact ih h.2
  | case4 v l rest hv ih =>
    simp only [List.cons_append,isWellFormed,hv,Bool.false_eq_true,if_false,
      Bool.and_eq_true] at h
    exact ih h.2

end Cut

theorem scalars_nul (a b : JsString) : scalars (a++0::b) = scalars a++0::scalars b := by
  rw [scalars_append_cons (by decide)]
  cases b with
  | nil => rfl
  | cons l rest => rfl

theorem textEncode_nul (a b : JsString) :
    textEncode (a++0::b) = textEncode a++0::textEncode b := by
  rw [textEncode,scalars_nul,List.flatMap_append,List.flatMap_cons]
  rfl

/-- A byte zero is where the string has a NUL. -/
theorem textEncode_eq_append {x y : Bytes} :
    textEncode s = x++0::y ↔ ∃ a b, s = a++0::b ∧ textEncode a = x ∧ textEncode b = y := by
  constructor
  · induction hn : s.length using Nat.strong_induction_on generalizing s x with
    | _ n ih =>
      intro h
      by_cases hs : 0 ∈ s
      · obtain ⟨a,b,rfl,ha⟩ := List.eq_append_cons_of_mem hs
        have hzero : (0 : UInt8) ∉ textEncode a := fun hmem =>
          textEncode_ne_zero (fun u hu h0 => ha (h0 ▸ hu)) 0 hmem rfl
        rw [textEncode_nul] at h
        rcases Separator.append_cons_cases h with ⟨hx,hy⟩ | ⟨m,rfl,hm⟩ | ⟨m,hm,-⟩
        · exact ⟨a,b,rfl,hx,hy⟩
        · obtain ⟨a',b',rfl,rfl,hb⟩ := ih b.length (by rw [← hn]; simp; omega) rfl hm
          exact ⟨a++0::a',b',by simp,textEncode_nul a a',hb⟩
        · exact absurd (by rw [hm]; simp) hzero
      · exact absurd (show (0 : UInt8) ∈ textEncode s by rw [h]; simp) fun hmem =>
          textEncode_ne_zero (fun u hu h0 => hs (h0 ▸ hu)) 0 hmem rfl
  · rintro ⟨a,b,rfl,rfl,rfl⟩
    exact textEncode_nul a b

theorem textEncode_eq_nil : textEncode s = [] ↔ s = [] := by
  refine ⟨fun h => ?_,fun h => by rw [h]; rfl⟩
  have hpos (c : ℕ) : encodeScalar c ≠ [] := by
    unfold encodeScalar
    split_ifs <;> exact List.cons_ne_nil _ _
  fun_cases scalars s with
  | case1 => rfl
  | case2 u => simp [textEncode,scalars,hpos] at h
  | case3 u l rest hp => simp [textEncode,scalars,hp,hpos] at h
  | case4 u l rest hp => simp [textEncode,scalars,hp,hpos] at h

/-- The encoder loses no scalar value. -/
theorem scalars_units_eq (h : textEncode s = textEncode t) :
    (scalars s).flatMap unitsOf = (scalars t).flatMap unitsOf := by
  have hs := decodeFrom_flatMap (scalars s) (isScalar_of_mem_scalars s) []
  have ht := decodeFrom_flatMap (scalars t) (isScalar_of_mem_scalars t) []
  rw [textEncode,textEncode] at h
  rw [h,ht] at hs
  simpa using hs.symm

theorem replacement_mem (h : isWellFormed s = false) : replacement ∈ scalars s := by
  fun_induction scalars s with
  | case1 => cases h
  | case2 u =>
    have hu : (isHigh u || isLow u) = true := by
      cases hh : isHigh u <;> cases hl : isLow u <;> simp_all [isWellFormed]
    simp [loneScalar,hu]
  | case3 u l rest hp ih =>
    simp only [Bool.and_eq_true] at hp
    simp only [isWellFormed,hp.1,hp.2,if_true,Bool.true_and] at h
    exact List.mem_cons_of_mem _ (ih h)
  | case4 u l rest hp ih =>
    cases hh : isHigh u with
    | true => simp [loneScalar,hh]
    | false =>
      cases hl : isLow u with
      | true => simp [loneScalar,hl]
      | false =>
        simp only [isWellFormed,hh,hl,Bool.false_eq_true,if_false,Bool.not_false,
          Bool.true_and] at h
        exact List.mem_cons_of_mem _ (ih h)

theorem scalars_unitsOf {c : ℕ} (h : IsScalar c) :
    isWellFormed (unitsOf c) = true ∧ scalars (unitsOf c) = [c] := by
  unfold IsScalar at h
  rw [unitsOf]
  by_cases hc : c < 0x10000
  · have hn : (UInt16.ofNat c).toNat = c := toNat_ofNat_unit hc
    rw [if_pos hc]
    generalize UInt16.ofNat c = u at hn ⊢
    have hhigh : isHigh u = false := decide_eq_false (by omega)
    have hlow : isLow u = false := decide_eq_false (by omega)
    refine ⟨by rw [isWellFormed,hhigh,hlow]; rfl,?_⟩
    rw [scalars,loneScalar,hhigh,hlow,hn]
    rfl
  · have hh : (UInt16.ofNat (0xD800+(c-0x10000)/0x400)).toNat = 0xD800+(c-0x10000)/0x400 :=
      toNat_ofNat_unit (by omega)
    have hl : (UInt16.ofNat (0xDC00+(c-0x10000)%0x400)).toNat = 0xDC00+(c-0x10000)%0x400 :=
      toNat_ofNat_unit (by omega)
    rw [if_neg hc]
    generalize UInt16.ofNat (0xD800+(c-0x10000)/0x400) = u at hh ⊢
    generalize UInt16.ofNat (0xDC00+(c-0x10000)%0x400) = l at hl ⊢
    have hhigh : isHigh u = true := (isHigh_iff u).mpr (by omega)
    have hlow : isLow l = true := (isLow_iff l).mpr (by omega)
    have hpair : pairScalar u l = c := by
      unfold pairScalar
      omega
    simp [isWellFormed,scalars,hhigh,hlow,hpair]

/-- The units of scalar values are well formed and encoded as the values are. -/
theorem textEncode_flatMap_unitsOf (h : ∀ c ∈ cs, IsScalar c) :
    isWellFormed (cs.flatMap unitsOf) = true ∧
      textEncode (cs.flatMap unitsOf) = cs.flatMap encodeScalar := by
  induction cs with
  | nil => exact ⟨rfl,rfl⟩
  | cons c cs ih =>
    obtain ⟨hc,hcs⟩ := List.forall_mem_cons.mp h
    obtain ⟨hwf,hone⟩ := scalars_unitsOf hc
    obtain ⟨hwfs,htext⟩ := ih hcs
    refine ⟨isWellFormed_append hwf hwfs,?_⟩
    rw [List.flatMap_cons,textEncode_append hwf,htext,textEncode,hone,List.flatMap_cons]
    simp

/-- No other string has the same encoding. -/
def Faithful (s : JsString) : Prop := ∀ t, textEncode t = textEncode s → t = s

/-- The encoder tells a string from all others when it has neither a surrogate without its partner
nor the character that stands for one. -/
theorem faithful_iff : Faithful s ↔ isWellFormed s = true ∧ 0xFFFD ∉ s := by
  constructor
  · intro h
    have hwf : isWellFormed s = true := by
      obtain ⟨hwf,htext⟩ := textEncode_flatMap_unitsOf (isScalar_of_mem_scalars s)
      rwa [h _ htext] at hwf
    refine ⟨hwf,fun hmem => ?_⟩
    obtain ⟨a,b,rfl⟩ := List.append_of_mem hmem
    have hsame : scalars (0xD800::b) = scalars (0xFFFD::b) := by
      cases b with
      | nil => rfl
      | cons l rest =>
        have hl : isLow l = false := by
          have hwf := isWellFormed_of_append_cons (by decide) hwf
          by_contra hl
          have hlow := (isLow_iff l).mp (Bool.eq_true_of_not_eq_false hl)
          have hhigh : isHigh l = false := decide_eq_false (by omega)
          cases rest <;> simp [isWellFormed,hl,hhigh,show isHigh 0xFFFD = false by decide] at hwf
        have hpair (u : UInt16) : (isHigh u && isLow l) = false := by rw [hl,Bool.and_false]
        simp only [scalars,hpair,Bool.false_eq_true,if_false]
        rfl
    have heq := h (a++0xD800::b) (by
      rw [textEncode,textEncode,scalars_append_cons (by decide),scalars_append_cons (by decide),
        hsame])
    exact absurd (List.cons.inj (List.append_cancel_left heq)).1 (by decide)
  · rintro ⟨hwf,hmem⟩ t ht
    have hunits := scalars_units_eq ht
    rw [flatMap_unitsOf_scalars hwf] at hunits
    by_cases hwt : isWellFormed t = true
    · exact textEncode_injOn hwt hwf ht
    · refine absurd ?_ hmem
      rw [← hunits]
      exact List.mem_flatMap.mpr
        ⟨replacement,replacement_mem (Bool.eq_false_of_not_eq_true hwt),by decide⟩

/-- What the encoder gives for some string. -/
def IsEncoded (x : Bytes) : Prop := ∃ s, textEncode s = x

theorem isEncoded_nul (a b : Bytes) : IsEncoded (a++0::b) ↔ IsEncoded a ∧ IsEncoded b := by
  constructor
  · rintro ⟨s,hs⟩
    obtain ⟨x,y,-,hx,hy⟩ := textEncode_eq_append.mp hs
    exact ⟨⟨x,hx⟩,y,hy⟩
  · rintro ⟨⟨x,rfl⟩,y,rfl⟩
    exact ⟨x++0::y,textEncode_nul x y⟩

theorem cuttable_text : Separator.Cuttable 0 IsEncoded IsEncoded :=
  ⟨isEncoded_nul,fun a b ha => (isEncoded_nul a b).trans (and_iff_right ha)⟩

theorem cuttable_bytes : Separator.Cuttable 0 IsEncoded fun _ => True :=
  ⟨isEncoded_nul,fun _ _ _ => Iff.rfl⟩

/-- The only NUL is at the start. -/
theorem start_iff : (∀ a b, textEncode s = a++0::b → a = []) ↔ 0 ∉ s.tail := by
  constructor
  · intro h hmem
    obtain ⟨a,b,htail⟩ := List.append_of_mem hmem
    cases s with
    | nil => exact absurd htail (by simp)
    | cons u s =>
      rw [List.tail_cons] at htail
      subst htail
      have hnil := h (textEncode (u::a)) (textEncode b) (textEncode_nul (u::a) b)
      exact absurd (textEncode_eq_nil.mp hnil) (List.cons_ne_nil _ _)
  · intro h a b hab
    obtain ⟨x,y,rfl,rfl,-⟩ := textEncode_eq_append.mp hab
    cases x with
    | nil => rfl
    | cons u x => exact absurd (by simp) h

theorem inner_iff : (0 ∉ textEncode s ∨ textEncode s = [0]) ↔ (0 ∉ s ∨ s = [0]) := by
  have hmem : 0 ∈ textEncode s ↔ 0 ∈ s := by
    refine ⟨fun h => by_contra fun hs => ?_,fun h => ?_⟩
    · exact textEncode_ne_zero (fun u hu h0 => hs (h0 ▸ hu)) 0 h rfl
    · obtain ⟨a,b,rfl⟩ := List.append_of_mem h
      rw [textEncode_nul]
      simp
  have hone : textEncode s = [0] ↔ s = [0] := by
    refine ⟨fun h => ?_,fun h => by rw [h]; rfl⟩
    obtain ⟨a,b,rfl,ha,hb⟩ := textEncode_eq_append.mp (show textEncode s = []++0::[] from h)
    rw [textEncode_eq_nil.mp ha,textEncode_eq_nil.mp hb]
    rfl
  rw [hmem,hone]

/-- The only NUL is at the end. -/
theorem end_iff :
    (∀ a b, textEncode s = a++0::b → IsEncoded a → b = []) ↔ 0 ∉ s.dropLast := by
  constructor
  · intro h hmem
    obtain ⟨a,b,hdrop⟩ := List.append_of_mem hmem
    have hs : s ≠ [] := by
      rintro rfl
      exact absurd hmem (by simp)
    have heq : s = a++0::(b++[s.getLast hs]) := by
      conv_lhs => rw [← List.dropLast_append_getLast hs,hdrop]
      simp
    have hnil := h (textEncode a) (textEncode (b++[s.getLast hs])) (by
      conv_lhs => rw [heq]
      exact textEncode_nul _ _) ⟨a,rfl⟩
    exact absurd (textEncode_eq_nil.mp hnil) (by simp)
  · intro h a b hab _
    obtain ⟨x,y,rfl,rfl,rfl⟩ := textEncode_eq_append.mp hab
    by_contra hy
    refine h ?_
    rw [List.dropLast_append_of_ne_nil (List.cons_ne_nil _ _),
      List.dropLast_cons_of_ne_nil fun hnil => hy (by rw [hnil]; rfl)]
    simp

section Texts
variable {W : Bytes → Prop} {ss : List JsString} {p : Bytes}

theorem eq_of_faithful {ts : List JsString} (hs : ∀ s ∈ ss, Faithful s)
    (h : ts.map textEncode = ss.map textEncode) : ts = ss := by
  induction ss generalizing ts with
  | nil => exact List.map_eq_nil_iff.mp h
  | cons s ss ih =>
    obtain ⟨hs,hss⟩ := List.forall_mem_cons.mp hs
    obtain ⟨t,ts,rfl,ht,hts⟩ := List.map_eq_cons_iff.mp h
    rw [hs t ht,ih hss hts]

/-- Texts are bound by their join when no bytes share it and the encoder tells each of them. -/
theorem texts_iff (hss : ∀ s ∈ ss, s ≠ []) (hp : p ≠ [] ∧ W p) :
    (∀ ts q, ts.length = ss.length → (∀ t ∈ ts, t ≠ []) → q ≠ [] → W q →
      Separator.join 0 (ts.map textEncode) q = Separator.join 0 (ss.map textEncode) p →
        ts = ss ∧ q = p) ↔
      Separator.Unique 0 IsEncoded W (ss.map textEncode) p ∧ ∀ s ∈ ss, Faithful s := by
  constructor
  · intro h
    refine ⟨fun ys q hlen hys hjoin => ?_,fun s hs t ht => ?_⟩
    · obtain ⟨ts,rfl⟩ : ys ∈ Set.range (List.map textEncode) := by
        rw [Set.range_list_map]
        exact fun y hy => (hys.field y hy).2
      obtain ⟨rfl,rfl⟩ := h ts q (by simpa using hlen) (fun t ht hnil =>
        (hys.field _ (List.mem_map_of_mem ht)).1 (textEncode_eq_nil.mpr hnil)) hys.last.1
        hys.last.2 hjoin
      exact ⟨rfl,rfl⟩
    · have hmap : (ss.map fun x => if x = s then t else x).map textEncode =
          ss.map textEncode := by
        rw [List.map_map]
        refine List.map_congr_left fun x _ => ?_
        by_cases hx : x = s
        · rw [Function.comp_apply,if_pos hx,ht,hx]
        · rw [Function.comp_apply,if_neg hx]
      have hne : ∀ x ∈ ss.map fun x => if x = s then t else x, x ≠ [] := by
        intro x hx
        obtain ⟨y,hy,rfl⟩ := List.mem_map.mp hx
        by_cases hys : y = s
        · rw [if_pos hys]
          intro hnil
          rw [hnil] at ht
          exact hss s hs (textEncode_eq_nil.mp ht.symm)
        · rw [if_neg hys]
          exact hss y hy
      have heq := (h _ p (by simp) hne hp.1 hp.2 (by rw [hmap])).1
      have hat := List.map_inj_left.mp (heq.trans (List.map_id ss).symm) s hs
      rwa [if_pos rfl] at hat
  · rintro ⟨hu,hf⟩ ts q hlen hts hq hW hjoin
    obtain ⟨hmap,rfl⟩ := hu (ts.map textEncode) q (by simpa using hlen)
      ⟨fun y hy => by
        obtain ⟨t,ht,rfl⟩ := List.mem_map.mp hy
        exact ⟨fun hnil => hts t ht (textEncode_eq_nil.mp hnil),t,rfl⟩,hq,hW⟩ hjoin
    exact ⟨eq_of_faithful hf hmap,rfl⟩

end Texts

end Semp.Utf8
