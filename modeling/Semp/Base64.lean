import Semp.JsText

/-! Base64 as Node's `Buffer` writes and reads it.  Writing pads to a multiple of
four.  Reading takes both alphabets, skips every other character, stops at the
first `=` and drops a final group of fewer than two characters. -/
namespace Semp
namespace Base64

def digit (n : ℕ) : UInt16 :=
  if n < 26 then UInt16.ofNat (65+n)
  else if n < 52 then UInt16.ofNat (97+(n-26))
  else if n < 62 then UInt16.ofNat (48+(n-52))
  else if n = 62 then 43 else 47

/-- The value of a character of the standard or the URL alphabet. -/
def digitValue (u : UInt16) : Option ℕ :=
  let c := u.toNat
  if 65 ≤ c ∧ c ≤ 90 then some (c-65)
  else if 97 ≤ c ∧ c ≤ 122 then some (c-97+26)
  else if 48 ≤ c ∧ c ≤ 57 then some (c-48+52)
  else if c = 43 ∨ c = 45 then some 62
  else if c = 47 ∨ c = 95 then some 63
  else none

def pad : UInt16 := 61

/-- `Buffer.from(bytes).toString("base64")`. -/
def encode : Bytes → JsString
  | [] => []
  | [a] => [digit (a.toNat/4),digit (a.toNat%4*16),pad,pad]
  | [a,b] =>
    [digit (a.toNat/4),digit (a.toNat%4*16+b.toNat/16),digit (b.toNat%16*4),pad]
  | a::b::c::rest =>
    digit (a.toNat/4)::digit (a.toNat%4*16+b.toNat/16)::
      digit (b.toNat%16*4+c.toNat/64)::digit (c.toNat%64)::encode rest

/-- The sextets before the first padding character. -/
def sextets : JsString → List ℕ
  | [] => []
  | u::rest =>
    if u = pad then []
    else match digitValue u with
      | some n => n::sextets rest
      | none => sextets rest

def ofSextets : List ℕ → Bytes
  | p::q::r::t::rest =>
    UInt8.ofNat (p*4+q/16)::UInt8.ofNat (q%16*16+r/4)::UInt8.ofNat (r%4*64+t)::ofSextets rest
  | [p,q,r] => [UInt8.ofNat (p*4+q/16),UInt8.ofNat (q%16*16+r/4)]
  | [p,q] => [UInt8.ofNat (p*4+q/16)]
  | _ => []

/-- `new Uint8Array(Buffer.from(s, "base64"))`. -/
def decode (s : JsString) : Bytes := ofSextets (sextets s)

theorem digit_toNat {n : ℕ} (h : n < 64) : (digit n).toNat =
    if n < 26 then 65+n else if n < 52 then 97+(n-26) else if n < 62 then 48+(n-52)
    else if n = 62 then 43 else 47 := by
  unfold digit
  split_ifs <;> first | rfl | exact Utf8.toNat_ofNat_unit (by omega)

theorem digitValue_digit {n : ℕ} (h : n < 64) : digitValue (digit n) = some n := by
  simp only [digitValue,digit_toNat h]
  split_ifs <;> first | (rw [Option.some.injEq]; omega) | omega

theorem digit_ne_pad {n : ℕ} (h : n < 64) : digit n ≠ pad := by
  intro he
  have := congrArg UInt16.toNat he
  rw [digit_toNat h] at this
  have hp : pad.toNat = 61 := rfl
  rw [hp] at this
  split_ifs at this <;> omega

@[simp] theorem sextets_digit {n : ℕ} (h : n < 64) (s : JsString) :
    sextets (digit n::s) = n::sextets s := by
  rw [sextets,if_neg (digit_ne_pad h),digitValue_digit h]

@[simp] theorem sextets_pad (s : JsString) : sextets (pad::s) = [] := by
  rw [sextets,if_pos rfl]

theorem ofNat_eq_byte {n : ℕ} {b : UInt8} (h : n = b.toNat) : UInt8.ofNat n = b := by
  rw [h,UInt8.ofNat_toNat]

/-- Reading undoes writing. -/
@[simp] theorem decode_encode (bytes : Bytes) : decode (encode bytes) = bytes := by
  fun_induction encode bytes with
  | case1 => rfl
  | case2 a =>
    have ha := a.toNat_lt
    rw [decode,sextets_digit (by omega),sextets_digit (by omega),sextets_pad,ofSextets,
      ofNat_eq_byte (b := a) (by omega)]
  | case3 a b =>
    have ha := a.toNat_lt
    have hb := b.toNat_lt
    rw [decode,sextets_digit (by omega),sextets_digit (by omega),sextets_digit (by omega),
      sextets_pad,ofSextets,ofNat_eq_byte (b := a) (by omega),ofNat_eq_byte (b := b) (by omega)]
  | case4 a b c rest ih =>
    have ha := a.toNat_lt
    have hb := b.toNat_lt
    have hc := c.toNat_lt
    rw [decode] at ih
    rw [decode,sextets_digit (by omega),sextets_digit (by omega),sextets_digit (by omega),
      sextets_digit (by omega),ofSextets,ih,ofNat_eq_byte (b := a) (by omega),
      ofNat_eq_byte (b := b) (by omega),ofNat_eq_byte (b := c) (by omega)]

theorem encode_injective : Function.Injective encode := by
  intro a b h
  rw [← decode_encode a,h,decode_encode]

theorem encode_eq_nil {bytes : Bytes} : encode bytes = [] ↔ bytes = [] := by
  rw [← show encode [] = [] from rfl,encode_injective.eq_iff]

end Base64
end Semp
