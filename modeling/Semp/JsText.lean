import Mathlib.Tactic.Linarith
import Mathlib.Data.List.Basic

/-! Byte strings, JavaScript strings and the UTF-8 coders between them.  A
JavaScript string is a list of UTF-16 code units, lone surrogates included, so
`TextEncoder` has to replace what is not a scalar value and `TextDecoder` what
is not UTF-8. -/
namespace Semp

abbrev Bytes := List UInt8

/-- UTF-16 code units. -/
abbrev JsString := List UInt16

instance : LawfulBEq JsString := inferInstance

/-- An ASCII literal of the source as a JavaScript string. -/
def js (s : String) : JsString := s.toList.map fun c => UInt16.ofNat c.toNat

/-- Decides a property of every unit by a pass over the string. -/
theorem forall_of_all {s : JsString} {p : UInt16 → Prop} [DecidablePred p]
    (h : (s.all fun u => decide (p u)) = true) : ∀ u ∈ s, p u := by
  simpa using h

namespace Utf8

def isHigh (u : UInt16) : Bool := decide (0xD800 ≤ u.toNat ∧ u.toNat < 0xDC00)
def isLow (u : UInt16) : Bool := decide (0xDC00 ≤ u.toNat ∧ u.toNat < 0xE000)

/-- The replacement character. -/
def replacement : ℕ := 0xFFFD

def pairScalar (h l : UInt16) : ℕ := 0x10000+(h.toNat-0xD800)*0x400+(l.toNat-0xDC00)

def loneScalar (u : UInt16) : ℕ := if isHigh u || isLow u then replacement else u.toNat

/-- Conversion to scalar values; a surrogate without its partner is replaced. -/
def scalars : JsString → List ℕ
  | [] => []
  | [u] => [loneScalar u]
  | u::l::rest =>
    if isHigh u && isLow l then pairScalar u l::scalars rest
    else loneScalar u::scalars (l::rest)

def encodeScalar (c : ℕ) : Bytes :=
  if c < 0x80 then [UInt8.ofNat c]
  else if c < 0x800 then [UInt8.ofNat (0xC0+c/64),UInt8.ofNat (0x80+c%64)]
  else if c < 0x10000 then
    [UInt8.ofNat (0xE0+c/4096),UInt8.ofNat (0x80+c/64%64),UInt8.ofNat (0x80+c%64)]
  else
    [UInt8.ofNat (0xF0+c/262144),UInt8.ofNat (0x80+c/4096%64),
      UInt8.ofNat (0x80+c/64%64),UInt8.ofNat (0x80+c%64)]

/-- `new TextEncoder().encode(s)`. -/
def textEncode (s : JsString) : Bytes := (scalars s).flatMap encodeScalar

def unitsOf (c : ℕ) : JsString :=
  if c < 0x10000 then [UInt16.ofNat c]
  else [UInt16.ofNat (0xD800+(c-0x10000)/0x400),UInt16.ofNat (0xDC00+(c-0x10000)%0x400)]

/-- State of the UTF-8 decoder: continuation bytes still owed, the bounds of the
next one, and the bits collected so far. -/
structure Pending where
  needed : ℕ
  lower : ℕ
  upper : ℕ
  bits : ℕ
  deriving DecidableEq, Repr

def idle : Pending := ⟨0,0x80,0xBF,0⟩

/-- A byte met between characters: the units it emits and the next state. -/
def first (b : ℕ) : JsString × Pending :=
  if b < 0x80 then ([UInt16.ofNat b],idle)
  else if 0xC2 ≤ b ∧ b < 0xE0 then ([],⟨1,0x80,0xBF,b-0xC0⟩)
  else if 0xE0 ≤ b ∧ b < 0xF0 then
    ([],⟨2,if b = 0xE0 then 0xA0 else 0x80,if b = 0xED then 0x9F else 0xBF,b-0xE0⟩)
  else if 0xF0 ≤ b ∧ b < 0xF5 then
    ([],⟨3,if b = 0xF0 then 0x90 else 0x80,if b = 0xF4 then 0x8F else 0xBF,b-0xF0⟩)
  else ([UInt16.ofNat replacement],idle)

/-- A byte outside the bounds ends the character with a replacement and is then
read again as a first byte. -/
def step (p : Pending) (b : ℕ) : JsString × Pending :=
  if p.needed = 0 then first b
  else if p.lower ≤ b ∧ b ≤ p.upper then
    if p.needed = 1 then (unitsOf (p.bits*64+(b-0x80)),idle)
    else ([],⟨p.needed-1,0x80,0xBF,p.bits*64+(b-0x80)⟩)
  else (UInt16.ofNat replacement::(first b).1,(first b).2)

def decodeFrom (p : Pending) : Bytes → JsString
  | [] => if p.needed = 0 then [] else [UInt16.ofNat replacement]
  | b::bs => (step p b.toNat).1++decodeFrom (step p b.toNat).2 bs

/-- `new TextDecoder().decode(bytes)`: malformed bytes are replaced and one
leading byte order mark is dropped. -/
def textDecode (bytes : Bytes) : JsString :=
  match decodeFrom idle bytes with
  | [] => []
  | u::rest => if u = 0xFEFF then rest else u::rest

def IsScalar (c : ℕ) : Prop := c < 0xD800 ∨ 0xE000 ≤ c ∧ c < 0x110000

/-- `String.prototype.isWellFormed`: every surrogate is half of a pair. -/
def isWellFormed : JsString → Bool
  | [] => true
  | [u] => !isHigh u && !isLow u
  | u::l::rest =>
    if isHigh u then isLow l && isWellFormed rest
    else !isLow u && isWellFormed (l::rest)

theorem toNat_ofNat_byte {n : ℕ} (h : n < 256) : (UInt8.ofNat n).toNat = n := by
  simpa using h

theorem toNat_ofNat_unit {n : ℕ} (h : n < 65536) : (UInt16.ofNat n).toNat = n := by
  simpa using h

@[simp] theorem decodeFrom_nil : decodeFrom idle [] = [] := rfl

theorem decodeFrom_cons (p : Pending) {n : ℕ} (h : n < 256) (bs : Bytes) :
    decodeFrom p (UInt8.ofNat n::bs) = (step p n).1++decodeFrom (step p n).2 bs := by
  rw [decodeFrom,toNat_ofNat_byte h]

theorem decodeFrom_lead {n : ℕ} (h : n < 256) (bs : Bytes) :
    decodeFrom idle (UInt8.ofNat n::bs) = (first n).1++decodeFrom (first n).2 bs := by
  rw [decodeFrom_cons _ h,step,if_pos (by rfl)]

/-- One continuation byte within its bounds. -/
theorem decodeFrom_tail {p : Pending} {n : ℕ} (bs : Bytes) (hp : p.needed ≠ 0)
    (hlo : p.lower ≤ n) (hhi : n ≤ p.upper) (h : n < 256) :
    decodeFrom p (UInt8.ofNat n::bs) =
      if p.needed = 1 then unitsOf (p.bits*64+(n-0x80))++decodeFrom idle bs
      else decodeFrom ⟨p.needed-1,0x80,0xBF,p.bits*64+(n-0x80)⟩ bs := by
  rw [decodeFrom_cons p h,step,if_neg hp,if_pos ⟨hlo,hhi⟩]
  by_cases h1 : p.needed = 1
  · simp only [if_pos h1]
  · simp only [if_neg h1,List.nil_append]

/-- The decoder reads one encoded scalar value and is between characters again. -/
theorem decodeFrom_encodeScalar {c : ℕ} (hc : IsScalar c) (bs : Bytes) :
    decodeFrom idle (encodeScalar c++bs) = unitsOf c++decodeFrom idle bs := by
  have hmax : c < 0x110000 := by unfold IsScalar at hc; omega
  unfold encodeScalar
  split_ifs with h1 h2 h3
  · rw [List.cons_append,List.nil_append,decodeFrom_lead (by omega),first,if_pos h1,unitsOf,
      if_pos (by omega)]
  · have hf : first (0xC0+c/64) = ([],⟨1,0x80,0xBF,c/64⟩) := by
      rw [first,if_neg (by omega),if_pos (by omega),Nat.add_sub_cancel_left]
    have hv : c/64*64+(0x80+c%64-0x80) = c := by omega
    simp only [List.cons_append,List.nil_append]
    rw [decodeFrom_lead (by omega),hf,List.nil_append,
      decodeFrom_tail _ (by simp) (by simp) (by simp; omega) (by omega),if_pos (by rfl),hv]
  · have hf : first (0xE0+c/4096) = ([],⟨2,if 0xE0+c/4096 = 0xE0 then 0xA0 else 0x80,
        if 0xE0+c/4096 = 0xED then 0x9F else 0xBF,c/4096⟩) := by
      rw [first,if_neg (by omega),if_neg (by omega),if_pos (by omega),Nat.add_sub_cancel_left]
    have hlo : (if 0xE0+c/4096 = 0xE0 then 0xA0 else 0x80) ≤ 0x80+c/64%64 := by
      split <;> omega
    have hhi : 0x80+c/64%64 ≤ (if 0xE0+c/4096 = 0xED then 0x9F else 0xBF) := by
      unfold IsScalar at hc
      split <;> omega
    have hv : (c/4096*64+(0x80+c/64%64-0x80))*64+(0x80+c%64-0x80) = c := by omega
    simp only [List.cons_append,List.nil_append]
    rw [decodeFrom_lead (by omega),hf,List.nil_append,
      decodeFrom_tail _ (by simp) hlo hhi (by omega),if_neg (by simp),
      decodeFrom_tail _ (by simp) (by simp) (by simp; omega) (by omega),if_pos (by rfl),hv]
  · have hf : first (0xF0+c/262144) = ([],⟨3,if 0xF0+c/262144 = 0xF0 then 0x90 else 0x80,
        if 0xF0+c/262144 = 0xF4 then 0x8F else 0xBF,c/262144⟩) := by
      rw [first,if_neg (by omega),if_neg (by omega),if_neg (by omega),if_pos (by omega),
        Nat.add_sub_cancel_left]
    have hlo : (if 0xF0+c/262144 = 0xF0 then 0x90 else 0x80) ≤ 0x80+c/4096%64 := by
      split <;> omega
    have hhi : 0x80+c/4096%64 ≤ (if 0xF0+c/262144 = 0xF4 then 0x8F else 0xBF) := by
      split <;> omega
    have hv : ((c/262144*64+(0x80+c/4096%64-0x80))*64+(0x80+c/64%64-0x80))*64+
        (0x80+c%64-0x80) = c := by omega
    simp only [List.cons_append,List.nil_append]
    rw [decodeFrom_lead (by omega),hf,List.nil_append,
      decodeFrom_tail _ (by simp) hlo hhi (by omega),if_neg (by simp),
      decodeFrom_tail _ (by simp) (by simp) (by simp; omega) (by omega),if_neg (by simp),
      decodeFrom_tail _ (by simp) (by simp) (by simp; omega) (by omega),if_pos (by rfl),hv]

theorem decodeFrom_flatMap (cs : List ℕ) (hc : ∀ c ∈ cs, IsScalar c) (bs : Bytes) :
    decodeFrom idle (cs.flatMap encodeScalar++bs) = cs.flatMap unitsOf++decodeFrom idle bs := by
  induction cs with
  | nil => simp
  | cons c cs ih =>
    simp only [List.flatMap_cons,List.append_assoc]
    rw [decodeFrom_encodeScalar (hc c (by simp)),ih (fun d hd => hc d (by simp [hd]))]

theorem isHigh_iff (u : UInt16) : isHigh u = true ↔ 0xD800 ≤ u.toNat ∧ u.toNat < 0xDC00 := by
  simp [isHigh]

theorem isLow_iff (u : UInt16) : isLow u = true ↔ 0xDC00 ≤ u.toNat ∧ u.toNat < 0xE000 := by
  simp [isLow]

theorem unitsOf_pairScalar {h l : UInt16} (hh : isHigh h) (hl : isLow l) :
    unitsOf (pairScalar h l) = [h,l] := by
  rw [isHigh_iff] at hh
  rw [isLow_iff] at hl
  have h1 : 0xD800+(pairScalar h l-0x10000)/0x400 = h.toNat := by unfold pairScalar; omega
  have h2 : 0xDC00+(pairScalar h l-0x10000)%0x400 = l.toNat := by unfold pairScalar; omega
  rw [unitsOf,if_neg (by unfold pairScalar; omega),h1,h2,UInt16.ofNat_toNat,UInt16.ofNat_toNat]

theorem isScalar_pairScalar {h l : UInt16} (hh : isHigh h) (hl : isLow l) :
    IsScalar (pairScalar h l) := by
  rw [isHigh_iff] at hh
  rw [isLow_iff] at hl
  unfold IsScalar pairScalar
  omega

theorem isScalar_loneScalar (u : UInt16) : IsScalar (loneScalar u) := by
  have hu := u.toNat_lt
  unfold loneScalar IsScalar
  split
  · decide
  · rename_i h
    simp only [Bool.or_eq_true,isHigh_iff,isLow_iff] at h
    omega

theorem isScalar_of_mem_scalars (s : JsString) : ∀ c ∈ scalars s, IsScalar c := by
  fun_induction scalars s with
  | case1 => simp
  | case2 u => simpa using isScalar_loneScalar u
  | case3 u l rest h ih =>
    simp only [Bool.and_eq_true] at h
    simp only [List.mem_cons,forall_eq_or_imp]
    exact ⟨isScalar_pairScalar h.1 h.2,ih⟩
  | case4 u l rest h ih =>
    simp only [List.mem_cons,forall_eq_or_imp]
    exact ⟨isScalar_loneScalar u,ih⟩

theorem unitsOf_loneScalar {u : UInt16} (h : isHigh u = false) (l : isLow u = false) :
    unitsOf (loneScalar u) = [u] := by
  have hu := u.toNat_lt
  simp [unitsOf,loneScalar,h,l,hu]

/-- A well-formed string is its scalar values. -/
theorem flatMap_unitsOf_scalars {s : JsString} (hs : isWellFormed s) :
    (scalars s).flatMap unitsOf = s := by
  fun_induction scalars s with
  | case1 => rfl
  | case2 u =>
    simp only [isWellFormed,Bool.and_eq_true,Bool.not_eq_true'] at hs
    simp [unitsOf_loneScalar hs.1 hs.2]
  | case3 u l rest h ih =>
    simp only [Bool.and_eq_true] at h
    simp only [isWellFormed,h.1,h.2,Bool.true_and,if_true] at hs
    simp [unitsOf_pairScalar h.1 h.2,ih hs]
  | case4 u l rest h ih =>
    cases hu : isHigh u with
    | true => simp_all [isWellFormed]
    | false =>
      simp only [isWellFormed,hu,Bool.false_eq_true,if_false,Bool.and_eq_true,
        Bool.not_eq_true'] at hs
      simp [unitsOf_loneScalar hu hs.1,ih hs.2]

theorem decodeFrom_textEncode {s : JsString} (hs : isWellFormed s) :
    decodeFrom idle (textEncode s) = s := by
  have h := decodeFrom_flatMap (scalars s) (isScalar_of_mem_scalars s) []
  rw [List.append_nil,flatMap_unitsOf_scalars hs] at h
  simpa [textEncode] using h

/-- Decoding undoes encoding on well-formed strings without a byte order mark. -/
theorem textDecode_textEncode {s : JsString} (hs : isWellFormed s)
    (hb : s.head? ≠ some 0xFEFF) : textDecode (textEncode s) = s := by
  rw [textDecode,decodeFrom_textEncode hs]
  cases s with
  | nil => rfl
  | cons u rest =>
    have hu : u ≠ 0xFEFF := by simpa using hb
    simp [hu]

theorem textEncode_injOn {s t : JsString} (hs : isWellFormed s) (ht : isWellFormed t)
    (h : textEncode s = textEncode t) : s = t := by
  rw [← decodeFrom_textEncode hs,h,decodeFrom_textEncode ht]

theorem isWellFormed_append {s t : JsString} (hs : isWellFormed s) (ht : isWellFormed t) :
    isWellFormed (s++t) := by
  fun_induction isWellFormed s with
  | case1 => simpa using ht
  | case2 u =>
    simp only [Bool.and_eq_true,Bool.not_eq_true'] at hs
    cases t with
    | nil => simp [isWellFormed,hs]
    | cons v rest => simpa [isWellFormed,hs] using ht
  | case3 u l rest h ih =>
    simp only [Bool.and_eq_true] at hs
    simpa [isWellFormed,h,hs.1] using ih hs.2
  | case4 u l rest h ih =>
    simp only [Bool.and_eq_true,Bool.not_eq_true'] at hs
    have := ih hs.2
    simp only [List.cons_append] at this
    simp [isWellFormed,h,hs.1,this]

theorem isWellFormed_ascii {s : JsString} (h : ∀ u ∈ s, u.toNat < 128) : isWellFormed s := by
  induction s with
  | nil => rfl
  | cons u s ih =>
    have hu : isHigh u = false ∧ isLow u = false := by
      have hlt := h u (by simp)
      simp only [← Bool.not_eq_true,isHigh_iff,isLow_iff]
      omega
    rw [← List.singleton_append]
    exact isWellFormed_append (by simp [isWellFormed,hu]) (ih fun v hv => h v (by simp [hv]))

theorem textEncode_append {s t : JsString} (h : isWellFormed s) :
    textEncode (s++t) = textEncode s++textEncode t := by
  suffices hs : scalars (s++t) = scalars s++scalars t by
    rw [textEncode,hs,List.flatMap_append,textEncode,textEncode]
  fun_induction isWellFormed s with
  | case1 => rfl
  | case2 u =>
    simp only [Bool.and_eq_true,Bool.not_eq_true'] at h
    cases t <;> simp [scalars,h]
  | case3 u l rest hu ih =>
    simp only [Bool.and_eq_true] at h
    simp [scalars,hu,h.1,ih h.2]
  | case4 u l rest hu ih =>
    simp only [Bool.and_eq_true] at h
    have := ih h.2
    simp only [List.cons_append] at this
    simp [scalars,hu,this]

/-- Only NUL is encoded with the byte zero. -/
theorem textEncode_ne_zero {s : JsString} (h : ∀ u ∈ s, u ≠ 0) : ∀ b ∈ textEncode s, b ≠ 0 := by
  have byte {n : ℕ} (hn : n < 256) (h0 : n ≠ 0) : UInt8.ofNat n ≠ 0 := by
    intro he
    have := congrArg UInt8.toNat he
    rw [toNat_ofNat_byte hn] at this
    exact h0 this
  have hlone {u : UInt16} (hu : u ≠ 0) : loneScalar u ≠ 0 := by
    rw [loneScalar]
    split_ifs
    · decide
    · exact fun h0 => hu (UInt16.toNat_inj.mp h0)
  have hscalars : ∀ c ∈ scalars s, c ≠ 0 := by
    fun_induction scalars s with
    | case1 => simp
    | case2 u => exact List.forall_mem_singleton.mpr (hlone (h u (List.mem_singleton_self u)))
    | case3 u l rest hp ih =>
      refine List.forall_mem_cons.mpr ⟨?_,ih fun v hv => h v (by simp [hv])⟩
      have hpair : 0x10000 ≤ pairScalar u l := by
        unfold pairScalar
        omega
      exact Nat.ne_zero_of_lt hpair
    | case4 u l rest hp ih =>
      exact List.forall_mem_cons.mpr
        ⟨hlone (h u List.mem_cons_self),ih fun v hv => h v (List.mem_cons_of_mem u hv)⟩
  intro b hb
  obtain ⟨c,hc,hb⟩ := List.mem_flatMap.mp hb
  have h0 := hscalars c hc
  have hscalar := isScalar_of_mem_scalars s c hc
  unfold IsScalar at hscalar
  unfold encodeScalar at hb
  split_ifs at hb <;> simp only [List.mem_cons,List.not_mem_nil,or_false] at hb
  · exact hb ▸ byte (by omega) h0
  · rcases hb with rfl | rfl <;> exact byte (by omega) (by omega)
  · rcases hb with rfl | rfl | rfl <;> exact byte (by omega) (by omega)
  · rcases hb with rfl | rfl | rfl | rfl <;> exact byte (by omega) (by omega)

/-- A cut before an ASCII byte never splits a character: the decoder replaces a
truncated character the same way at the end and before that byte. -/
theorem decodeFrom_append_ascii (p : Pending) (a : Bytes) {b : UInt8} (hb : b.toNat < 0x80)
    (hp : 0x80 ≤ p.lower) (bs : Bytes) :
    decodeFrom p (a++b::bs) = decodeFrom p a++decodeFrom idle (b::bs) := by
  have hfb : first b.toNat = ([UInt16.ofNat b.toNat],idle) := by rw [first,if_pos hb]
  induction a generalizing p with
  | nil =>
    simp only [List.nil_append,decodeFrom]
    by_cases h0 : p.needed = 0
    · simp [step,h0,idle]
    · have hlow : ¬(p.lower ≤ b.toNat ∧ b.toNat ≤ p.upper) := by omega
      simp [step,h0,hlow,hfb,idle]
  | cons c a ih =>
    have hnext : 0x80 ≤ (step p c.toNat).2.lower := by
      unfold step first
      split_ifs <;> simp [idle]
    have hstep (t : Bytes) : decodeFrom p (c::t) =
        (step p c.toNat).1++decodeFrom (step p c.toNat).2 t := rfl
    rw [List.cons_append,hstep,hstep,ih _ hnext,List.append_assoc]

theorem textDecode_append_ascii {a : Bytes} (ha : textDecode a ≠ []) {b : UInt8}
    (hb : b.toNat < 0x80) (bs : Bytes) :
    textDecode (a++b::bs) = textDecode a++decodeFrom idle (b::bs) := by
  unfold textDecode at ha ⊢
  rw [decodeFrom_append_ascii idle a hb le_rfl bs]
  cases h : decodeFrom idle a with
  | nil => exact absurd (by rw [h]) ha
  | cons u rest =>
    simp only [List.cons_append]
    split_ifs <;> rfl

end Utf8
end Semp
