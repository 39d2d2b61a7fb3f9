import Semp.Canonical
import Semp.Base64

/-! The UTF-8 size of JSON texts: the sizes of the parts add up, and a string of
characters that need no escape takes a byte for each of them and two for its quotes. -/
namespace Semp
namespace JsonSize

open JsonText

/-- The number of bytes a text takes in UTF-8. -/
def utf8Size (s : JsString) : ℕ := (Utf8.textEncode s).length

theorem utf8Size_append {s : JsString} (h : Utf8.isWellFormed s) (t : JsString) :
    utf8Size (s++t) = utf8Size s+utf8Size t := by
  rw [utf8Size,Utf8.textEncode_append h,List.length_append]
  rfl

/-- A character that is itself in a JSON string and one byte of UTF-8. -/
def isPlain (u : UInt16) : Bool := decide (32 ≤ u.toNat ∧ u.toNat < 128) && (shortEscape u).isNone

theorem isPlain_iff {u : UInt16} :
    isPlain u = true ↔ (32 ≤ u.toNat ∧ u.toNat < 128) ∧ shortEscape u = none := by
  rw [isPlain,Bool.and_eq_true,decide_eq_true_eq,Option.isNone_iff_eq_none]

theorem escapeUnit_plain {u : UInt16} (h : isPlain u) : escapeUnit u = [u] := by
  obtain ⟨⟨hlow,hhigh⟩,hshort⟩ := isPlain_iff.mp h
  have hs : Utf8.isHigh u = false ∧ Utf8.isLow u = false := by
    rw [← Bool.not_eq_true,← Bool.not_eq_true,Utf8.isHigh_iff,Utf8.isLow_iff]
    omega
  rw [escapeUnit,hshort]
  dsimp only
  rw [hs.1,hs.2,if_neg (by simpa using hlow)]

theorem escape_plain {s : JsString} (h : ∀ u ∈ s, isPlain u) : escape s = s := by
  fun_induction escape s with
  | case1 => rfl
  | case2 u => exact escapeUnit_plain (h u (by simp))
  | case3 u l s hu ih =>
    obtain ⟨⟨-,hhigh⟩,-⟩ := isPlain_iff.mp (h u (by simp))
    rw [Bool.and_eq_true,Utf8.isHigh_iff] at hu
    omega
  | case4 u l s hu ih =>
    rw [escapeUnit_plain (h u (by simp)),ih fun v hv => h v (by simp [hv])]
    rfl

theorem utf8Size_singleton {u : UInt16} (h : u.toNat < 128) : utf8Size [u] = 1 := by
  have hs : Utf8.isHigh u = false ∧ Utf8.isLow u = false := by
    rw [← Bool.not_eq_true,← Bool.not_eq_true,Utf8.isHigh_iff,Utf8.isLow_iff]
    omega
  simp [utf8Size,Utf8.textEncode,Utf8.scalars,Utf8.loneScalar,Utf8.encodeScalar,hs,h]

theorem utf8Size_cons {u : UInt16} (h : u.toNat < 128) (s : JsString) :
    utf8Size (u::s) = 1+utf8Size s := by
  rw [← List.singleton_append,utf8Size_append (Utf8.isWellFormed_ascii (by simpa using h)),
    utf8Size_singleton h]

theorem utf8Size_plain {s : JsString} (h : ∀ u ∈ s, isPlain u) : utf8Size s = s.length := by
  induction s with
  | nil => rfl
  | cons u s ih =>
    obtain ⟨⟨-,hhigh⟩,-⟩ := isPlain_iff.mp (h u (by simp))
    rw [utf8Size_cons hhigh,ih fun v hv => h v (by simp [hv]),List.length_cons,Nat.add_comm]

theorem isWellFormed_quote (s : JsString) : Utf8.isWellFormed (quote s) :=
  isWellFormed_stringify (.str s)

theorem utf8Size_quote {s : JsString} (h : ∀ u ∈ s, isPlain u) :
    utf8Size (quote s) = s.length+2 := by
  have hwf : Utf8.isWellFormed (quoteUnit::s) := by
    refine Utf8.isWellFormed_ascii fun u hu => ?_
    obtain rfl | hu := List.mem_cons.mp hu
    · decide
    · exact (isPlain_iff.mp (h u hu)).1.2
  rw [quote,escape_plain h,utf8Size_append hwf,utf8Size_cons (by decide),utf8Size_plain h,
    utf8Size_singleton (by decide)]
  omega

/-- The size of the text of a value. -/
def jsonSize (v : Json) : ℕ := utf8Size (stringify v)

theorem jsonSize_str {s : JsString} (h : ∀ u ∈ s, isPlain u) : jsonSize (.str s) = s.length+2 :=
  utf8Size_quote h

/-- A member, with its colon and the comma or brace after it. -/
def memberSize (m : JsString × Json) : ℕ := utf8Size (quote m.1)+jsonSize m.2+2

theorem utf8Size_members (m : JsString × Json) (ms : Members) :
    utf8Size (stringifyMembers (m::ms)++[closeBrace]) = ((m::ms).map memberSize).sum := by
  induction ms generalizing m with
  | nil =>
    rw [stringifyMembers,List.append_assoc,utf8Size_append (isWellFormed_quote _),
      List.cons_append,utf8Size_cons (by decide),utf8Size_append (isWellFormed_stringify _),
      utf8Size_singleton (by decide)]
    simp only [List.map_cons,List.map_nil,List.sum_cons,List.sum_nil,memberSize,jsonSize]
    omega
  | cons n ms ih =>
    have htail := ih n
    rw [stringifyMembers,List.append_assoc,List.append_assoc,utf8Size_append (isWellFormed_quote _),
      List.cons_append,utf8Size_cons (by decide),utf8Size_append (isWellFormed_stringify _),
      List.cons_append,utf8Size_cons (by decide),htail]
    simp only [List.map_cons,List.sum_cons,memberSize,jsonSize]
    omega

theorem jsonSize_obj {ms : Members} (h : ms ≠ []) :
    jsonSize (.obj ms) = 1+(ms.map memberSize).sum := by
  cases ms with
  | nil => exact absurd rfl h
  | cons m ms =>
    rw [jsonSize,stringify,List.cons_append,utf8Size_cons (by decide),utf8Size_members]

end JsonSize

namespace Base64
open JsonSize

theorem length_encode (bytes : Bytes) : (encode bytes).length = (bytes.length+2)/3*4 := by
  fun_induction encode bytes with
  | case1 => rfl
  | case2 => simp
  | case3 => simp
  | case4 a b c rest ih =>
    simp only [List.length_cons,ih]
    omega

theorem isPlain_digit {n : ℕ} (h : n < 64) : isPlain (digit n) := by
  have hall : ∀ n < 64, isPlain (digit n) = true := by decide
  exact hall n h

theorem isPlain_encode (bytes : Bytes) : ∀ u ∈ encode bytes, isPlain u := by
  have hpad : isPlain pad := rfl
  fun_induction encode bytes with
  | case1 => simp
  | case2 a =>
    have ha := a.toNat_lt
    simp only [List.forall_mem_cons,hpad,isPlain_digit (show a.toNat/4 < 64 by omega),
      isPlain_digit (show a.toNat%4*16 < 64 by omega)]
    simp
  | case3 a b =>
    have ha := a.toNat_lt
    have hb := b.toNat_lt
    simp only [List.forall_mem_cons,hpad,isPlain_digit (show a.toNat/4 < 64 by omega),
      isPlain_digit (show a.toNat%4*16+b.toNat/16 < 64 by omega),
      isPlain_digit (show b.toNat%16*4 < 64 by omega)]
    simp
  | case4 a b c rest ih =>
    have ha := a.toNat_lt
    have hb := b.toNat_lt
    have hc := c.toNat_lt
    simp only [List.forall_mem_cons,isPlain_digit (show a.toNat/4 < 64 by omega),
      isPlain_digit (show a.toNat%4*16+b.toNat/16 < 64 by omega),
      isPlain_digit (show b.toNat%16*4+c.toNat/64 < 64 by omega),
      isPlain_digit (show c.toNat%64 < 64 by omega)]
    simpa using ih

end Base64
end Semp
