import Semp.LargeAttachment

/-! Which strings pass for the hash of a ciphertext. Every two units go through a number parser
that skips blanks and a sign and stops at the first unit that is no digit, so that digits are not
the only spelling. -/
namespace Semp

section Digits
variable {u : UInt16}

theorem hexValue_lt {n : ℕ} (h : JsonText.hexValue u = some n) : n < 16 := by
  unfold JsonText.hexValue at h
  split_ifs at h with h₁ h₂ h₃
  all_goals
    cases h
    omega

/-- A digit is no blank and no sign. -/
theorem not_isSpace_of_hexValue {n : ℕ} (h : JsonText.hexValue u = some n) :
    isSpace u = false ∧ u ≠ 43 ∧ u ≠ 45 := by
  have hu : (48 ≤ u.toNat ∧ u.toNat ≤ 57) ∨ (97 ≤ u.toNat ∧ u.toNat ≤ 102) ∨
      (65 ≤ u.toNat ∧ u.toNat ≤ 70) := by
    unfold JsonText.hexValue at h
    split_ifs at h with h₁ h₂ h₃
    · exact .inl h₁
    · exact .inr (.inl h₂)
    · exact .inr (.inr h₃)
  refine ⟨?_,?_,?_⟩
  · unfold isSpace
    simp only [Bool.or_eq_false_iff,decide_eq_false_iff_not,List.contains_eq_mem,
      List.mem_cons,List.not_mem_nil,or_false]
    omega
  · rintro rfl
    revert hu
    decide
  · rintro rfl
    revert hu
    decide

theorem hexValue_of_isSpace (h : isSpace u = true) : JsonText.hexValue u = none := by
  cases hu : JsonText.hexValue u with
  | none => rfl
  | some n =>
    rw [(not_isSpace_of_hexValue hu).1] at h
    cases h

end Digits

namespace LargeAttachment

/-- The radix mark is swallowed. -/
def isMark (a b : UInt16) : Prop := [a,b] = js "0x" ∨ [a,b] = js "0X"

section Parse
variable {a b : UInt16} {x y : ℕ}

theorem parseInt16_eq_none {s : JsString} (h : ∀ u ∈ s, JsonText.hexValue u = none) :
    parseInt16 s = none := by
  have hempty {t : JsString} (ht : ∀ u ∈ t, u ∈ s) :
      (t.takeWhile fun u => (JsonText.hexValue u).isSome) = [] := by
    cases t with
    | nil => rfl
    | cons u t =>
      rw [List.takeWhile_cons,h u (ht u (List.mem_cons_self ..))]
      rfl
  rw [parseInt16]
  refine if_pos (hempty fun u hu => ?_)
  have hspace : ∀ v ∈ s.dropWhile isSpace, v ∈ s := fun v hv =>
    (List.dropWhile_sublist _).subset hv
  split_ifs at hu with h₁ h₂ h₂
  · exact hspace u (List.mem_of_mem_drop (List.mem_of_mem_drop hu))
  · exact hspace u (List.mem_of_mem_drop hu)
  · exact hspace u (List.mem_of_mem_drop hu)
  · exact hspace u hu

theorem parseInt16_two (ha : JsonText.hexValue a = some x) (hb : JsonText.hexValue b = some y) :
    parseInt16 [a,b] = some (16*x+y : ℕ) := by
  obtain ⟨hs,hplus,hminus⟩ := not_isSpace_of_hexValue ha
  have hmark : ¬([a,b] = js "0x" ∨ [a,b] = js "0X") := by
    rintro (h | h) <;> cases h <;> cases hb
  simp [parseInt16,List.dropWhile,hs,hplus,hminus,hmark,ha,hb,Nat.mul_comm]

/-- The parser stops behind the first digit. -/
theorem parseInt16_cut (ha : JsonText.hexValue a = some x) (hb : JsonText.hexValue b = none)
    (hm : ¬isMark a b) : parseInt16 [a,b] = some (x : ℕ) := by
  obtain ⟨hs,hplus,hminus⟩ := not_isSpace_of_hexValue ha
  rw [isMark] at hm
  simp [parseInt16,List.dropWhile,hs,hplus,hminus,hm,ha,hb]

theorem parseInt16_mark (h : isMark a b) : parseInt16 [a,b] = none := by
  obtain h | h := h
  all_goals
    cases h
    decide

/-- The parser skips a blank and a sign. -/
theorem parseInt16_skip (ha : JsonText.hexValue a = none) (hb : JsonText.hexValue b = some y) :
    parseInt16 [a,b] = if a = 45 then some (-(y : ℤ)) else
      if a = 43 ∨ isSpace a then some (y : ℤ) else none := by
  obtain ⟨hs,hplus,hminus⟩ := not_isSpace_of_hexValue hb
  have hmark : ¬([b] = js "0x" ∨ [b] = js "0X") := by
    rintro (h | h) <;> cases h
  by_cases hspace : isSpace a = true
  · have h45 : a ≠ 45 := by
      rintro rfl
      cases hspace
    simp [parseInt16,List.dropWhile,hspace,hs,hplus,hminus,hmark,hb,h45]
  · rw [Bool.not_eq_true] at hspace
    have hmark' : ¬([a,b] = js "0x" ∨ [a,b] = js "0X") := by
      rintro (h | h) <;> cases h <;> cases ha
    by_cases h45 : a = 45
    · subst h45
      simp [parseInt16,List.dropWhile,hspace,hmark,hb]
    · by_cases h43 : a = 43
      · subst h43
        simp [parseInt16,List.dropWhile,hspace,hmark,hb]
      · simp [parseInt16,List.dropWhile,hspace,h45,h43,hmark',ha]

end Parse

/-- What each two units are read as: two digits, one digit and a unit that is none, or a blank
or a sign and one digit. -/
inductive ReadAs : JsString → Bytes → Prop
  | nil : ReadAs [] []
  | digits {a b : UInt16} {x y : ℕ} {h : JsString} {d : Bytes} :
      JsonText.hexValue a = some x → JsonText.hexValue b = some y → ReadAs h d →
      ReadAs (a::b::h) (UInt8.ofNat (16*x+y)::d)
  | cut {a b : UInt16} {x : ℕ} {h : JsString} {d : Bytes} :
      JsonText.hexValue a = some x → JsonText.hexValue b = none → ¬isMark a b → ReadAs h d →
      ReadAs (a::b::h) (UInt8.ofNat x::d)
  | minus {b : UInt16} {y : ℕ} {h : JsString} {d : Bytes} :
      JsonText.hexValue b = some y → ReadAs h d → ReadAs (45::b::h) (UInt8.ofNat (256-y)::d)
  | skip {a b : UInt16} {y : ℕ} {h : JsString} {d : Bytes} :
      a = 43 ∨ isSpace a → JsonText.hexValue b = some y → ReadAs h d →
      ReadAs (a::b::h) (UInt8.ofNat y::d)

/-- A blank or a plus sign is no digit and no minus sign. -/
theorem skipped {a : UInt16} (h : a = 43 ∨ isSpace a) : JsonText.hexValue a = none ∧ a ≠ 45 := by
  obtain rfl | h := h
  · decide
  · refine ⟨hexValue_of_isSpace h,?_⟩
    rintro rfl
    cases h

theorem hex_cons (x : UInt8) (d : Bytes) :
    hex (x::d) = JsonText.hexDigit (x.toNat/16)::JsonText.hexDigit (x.toNat%16)::hex d := rfl

theorem toUint8_natCast (n : ℕ) : toUint8 (n : ℤ) = UInt8.ofNat n := by
  rw [toUint8]
  apply UInt8.toNat_inj.mp
  rw [UInt8.toNat_ofNat',UInt8.toNat_ofNat']
  omega

theorem toUint8_neg {n : ℕ} (h : n < 16) : toUint8 (-(n : ℤ)) = UInt8.ofNat (256-n) := by
  rw [toUint8]
  apply UInt8.toNat_inj.mp
  rw [UInt8.toNat_ofNat',UInt8.toNat_ofNat']
  omega

section Reading
variable {h : JsString} {d : Bytes}

theorem ReadAs.length_eq (hr : ReadAs h d) : h.length = 2*d.length := by
  induction hr <;> simp only [List.length_cons,List.length_nil] <;> omega

theorem ReadAs.hexToBytes_eq (hr : ReadAs h d) : hexToBytes h = .ok d := by
  have hstep {a b : UInt16} {h : JsString} {d : Bytes} {n : ℤ} (hr : ReadAs h d)
      (hp : parseInt16 [a,b] = some n) (ih : hexToBytes h = .ok d) :
      hexToBytes (a::b::h) = .ok (toUint8 n::d) := by
    have hlen := hr.length_eq
    rw [hexToBytes,if_neg (by omega),hp,ih]
    rfl
  induction hr with
  | nil => rfl
  | digits ha hb hr ih => rw [hstep hr (parseInt16_two ha hb) ih,toUint8_natCast]
  | cut ha hb hm hr ih => rw [hstep hr (parseInt16_cut ha hb hm) ih,toUint8_natCast]
  | minus hb hr ih =>
    rw [hstep hr ((parseInt16_skip (by decide) hb).trans (if_pos rfl)) ih,
      toUint8_neg (hexValue_lt hb)]
  | skip ha hb hr ih =>
    obtain ⟨hnone,h45⟩ := skipped ha
    rw [hstep hr ((parseInt16_skip hnone hb).trans ((if_neg h45).trans (if_pos ha))) ih,
      toUint8_natCast]

theorem readAs_of_hexToBytes (hok : hexToBytes h = .ok d) : ReadAs h d := by
  induction h using hexToBytes.induct generalizing d with
  | case1 =>
    cases hok
    exact .nil
  | case2 => cases hok
  | case3 a b h hodd =>
    rw [hexToBytes,if_pos hodd] at hok
    cases hok
  | case4 a b h heven hnone =>
    rw [hexToBytes,if_neg heven,hnone] at hok
    cases hok
  | case5 a b h heven n hsome ih =>
    rw [hexToBytes,if_neg heven,hsome] at hok
    obtain ⟨rest,hrest,hok⟩ := bind_eq_ok.mp hok
    cases hok
    have hr := ih hrest
    cases ha : JsonText.hexValue a with
    | some x =>
      cases hb : JsonText.hexValue b with
      | some y =>
        rw [parseInt16_two ha hb] at hsome
        cases hsome
        rw [toUint8_natCast]
        exact .digits ha hb hr
      | none =>
        by_cases hm : isMark a b
        · rw [parseInt16_mark hm] at hsome
          cases hsome
        · rw [parseInt16_cut ha hb hm] at hsome
          cases hsome
          rw [toUint8_natCast]
          exact .cut ha hb hm hr
    | none =>
      cases hb : JsonText.hexValue b with
      | some y =>
        rw [parseInt16_skip ha hb] at hsome
        split_ifs at hsome with h45 hskip
        · cases hsome
          rw [toUint8_neg (hexValue_lt hb),h45]
          exact .minus hb hr
        · cases hsome
          rw [toUint8_natCast]
          exact .skip hskip hb hr
      | none =>
        rw [parseInt16_eq_none (by simp [ha,hb])] at hsome
        cases hsome

theorem hexToBytes_eq_ok : hexToBytes h = .ok d ↔ ReadAs h d :=
  ⟨readAs_of_hexToBytes,ReadAs.hexToBytes_eq⟩

/-- Where there are digits only, they are those of the bytes, in either case. -/
theorem readAs_digits (hd : ∀ u ∈ h, JsonText.hexValue u ≠ none) :
    ReadAs h d ↔ h.map JsonText.hexValue = (hex d).map JsonText.hexValue := by
  constructor
  · intro hr
    induction hr with
    | nil => rfl
    | @digits a b x y h d ha hb hr ih =>
      have hx := hexValue_lt ha
      have hy := hexValue_lt hb
      have hbyte : (UInt8.ofNat (16*x+y)).toNat = 16*x+y := by
        rw [UInt8.toNat_ofNat']
        omega
      rw [List.map_cons,List.map_cons,ih fun u hu => hd u (by simp [hu]),ha,hb,
        hex_cons,List.map_cons,List.map_cons,hbyte,show (16*x+y)/16 = x by omega,
        show (16*x+y)%16 = y by omega,JsonText.hexValue_hexDigit hx,JsonText.hexValue_hexDigit hy]
    | cut ha hb hm hr ih => exact absurd hb (hd _ (by simp))
    | minus hb hr ih => exact absurd (by decide) (hd 45 (by simp))
    | skip ha hb hr ih => exact absurd (skipped ha).1 (hd _ (by simp))
  · intro heq
    induction d generalizing h with
    | nil =>
      rw [List.map_eq_nil_iff.mp heq]
      exact .nil
    | cons x d ih =>
      have hlt := x.toNat_lt
      rw [hex_cons,List.map_cons,List.map_cons] at heq
      obtain ⟨a,h,rfl,ha,heq⟩ := List.map_eq_cons_iff.mp heq
      obtain ⟨b,h,rfl,hb,heq⟩ := List.map_eq_cons_iff.mp heq
      rw [JsonText.hexValue_hexDigit (by omega)] at ha
      rw [JsonText.hexValue_hexDigit (by omega)] at hb
      have hr := ReadAs.digits ha hb (ih (fun u hu => hd u (by simp [hu])) heq)
      rw [Nat.div_add_mod,UInt8.ofNat_toNat] at hr
      exact hr

/-- The digits of bytes are digits. -/
theorem hexValue_of_spelled (h' : h.map JsonText.hexValue = (hex d).map JsonText.hexValue) :
    ∀ u ∈ h, JsonText.hexValue u ≠ none := by
  intro u hu hnone
  have hmem : none ∈ (hex d).map JsonText.hexValue := h' ▸ List.mem_map.mpr ⟨u,hu,hnone⟩
  obtain ⟨v,hv,hnone⟩ := List.mem_map.mp hmem
  obtain ⟨x,-,hv⟩ := List.mem_flatMap.mp hv
  have hlt := x.toNat_lt
  have hdigit (n : ℕ) (hn : n < 16) : JsonText.hexValue (JsonText.hexDigit n) ≠ none := by
    rw [JsonText.hexValue_hexDigit hn]
    exact nofun
  obtain rfl | hv := List.mem_cons.mp hv
  · exact hdigit _ (by omega) hnone
  · obtain rfl := List.mem_singleton.mp hv
    exact hdigit _ (by omega) hnone

end Reading

def sha256Mark : JsString := hashAlgorithmSHA256++js ":"

/-- `sha256:` and the digits of the hash, in either case. -/
def Spelled (s : JsString) (hash : Bytes) : Prop :=
  ∃ h, s = sha256Mark++h ∧ h.map JsonText.hexValue = (hex hash).map JsonText.hexValue

/-- `sha256:` and units that are read as the hash although one of them is no digit. -/
def Misread (s : JsString) (hash : Bytes) : Prop :=
  ∃ h, s = sha256Mark++h ∧ ReadAs h hash ∧ ∃ u ∈ h, JsonText.hexValue u = none

section Verify
variable (C : Crypto)

theorem verifyCiphertextHash_iff (item : Item) (ciphertext : Bytes) :
    verifyCiphertextHash C item ciphertext = true ↔
      ∃ h, item.ciphertext_hash = sha256Mark++h ∧ ReadAs h (C.sha256 ciphertext).val := by
  constructor
  · intro hv
    rw [verifyCiphertextHash] at hv
    split_ifs at hv with hempty
    cases hcut : cutAt colon item.ciphertext_hash with
    | none =>
      rw [hcut] at hv
      cases hv
    | some p =>
      obtain ⟨algo,h⟩ := p
      rw [hcut] at hv
      simp only at hv
      split_ifs at hv with halgo
      cases hbytes : hexToBytes h with
      | error e =>
        rw [hbytes] at hv
        cases hv
      | ok want =>
        rw [hbytes] at hv
        refine ⟨h,?_,?_⟩
        · rw [(cutAt_eq_some.mp hcut).1,not_not.mp halgo,sha256Mark,List.append_assoc]
          rfl
        · rw [← constantTimeEqual_iff.mp hv]
          exact readAs_of_hexToBytes hbytes
  · rintro ⟨h,hs,hr⟩
    have hcut : cutAt colon item.ciphertext_hash = some (hashAlgorithmSHA256,h) :=
      cutAt_eq_some.mpr ⟨by rw [hs,sha256Mark,List.append_assoc]; rfl,by decide⟩
    rw [verifyCiphertextHash,if_neg (by rw [hs]; exact List.cons_ne_nil _ _),hcut]
    simp only
    rw [if_neg (not_not.mpr rfl),hr.hexToBytes_eq]
    exact constantTimeEqual_iff.mpr rfl

/-- A hash passes exactly when it is spelled by its digits, unless the lenient reading of units
that are no digits happens to give the hash. -/
theorem verifyCiphertextHash_spelled_iff (item : Item) (ciphertext : Bytes) :
    (verifyCiphertextHash C item ciphertext = true ↔
      Spelled item.ciphertext_hash (C.sha256 ciphertext).val) ↔
      ¬Misread item.ciphertext_hash (C.sha256 ciphertext).val := by
  rw [verifyCiphertextHash_iff]
  constructor
  · rintro hiff ⟨h,hs,hr,u,hu,hnone⟩
    obtain ⟨h',hs',hspelled⟩ := hiff.mp ⟨h,hs,hr⟩
    obtain rfl := List.append_cancel_left (hs.symm.trans hs')
    exact hexValue_of_spelled hspelled u hu hnone
  · intro hnot
    constructor
    · rintro ⟨h,hs,hr⟩
      refine ⟨h,hs,(readAs_digits fun u hu hnone => ?_).mp hr⟩
      exact hnot ⟨h,hs,hr,u,hu,hnone⟩
    · rintro ⟨h,hs,hspelled⟩
      exact ⟨h,hs,(readAs_digits (hexValue_of_spelled hspelled)).mpr hspelled⟩

end Verify

namespace Sample

/-- The hash of the text `abc`. -/
def abcHash : Bytes :=
  [186,120,22,191,143,1,207,234,65,65,64,222,93,174,34,35,176,3,97,163,150,23,122,156,180,16,255,
    97,242,0,21,173]

/-- The hash at hand is that of `abc`. -/
def abcCrypto : Crypto := {Semp.Sample.crypto with sha256 := fun _ => ⟨abcHash,rfl⟩}

/-- The digits `01` are written as `+1`. -/
def signedItem : Item where
  id := js "a"
  filename := js "a.bin"
  mime_type := js "text/plain"
  plaintext_size := .ofNat 3
  url := js "https://files.example.com/a"
  aead_algorithm := algorithmName .xchacha20poly1305
  aead_nonce := js "AAAA"
  ciphertext_hash := js "sha256:ba7816bf8f+1cfea414140de5dae2223b00361a396177a9cb410ff61f20015ad"
  extensions := none

end Sample

/-- A hash with a sign in it passes. -/
theorem not_verifyCiphertextHash_spelled :
    ¬(verifyCiphertextHash Sample.abcCrypto Sample.signedItem (utf8 (js "abc")) = true ↔
      Spelled Sample.signedItem.ciphertext_hash
        (Sample.abcCrypto.sha256 (utf8 (js "abc"))).val) := by
  intro hiff
  have hv : verifyCiphertextHash Sample.abcCrypto Sample.signedItem (utf8 (js "abc")) = true := by
    decide +kernel
  obtain ⟨h,hs,hspelled⟩ := hiff.mp hv
  have hplus : (43 : UInt16) ∈ sha256Mark++h := by
    rw [← hs]
    decide +kernel
  obtain hmark | hplus := List.mem_append.mp hplus
  · revert hmark
    decide
  · exact hexValue_of_spelled hspelled 43 hplus (by decide)

end LargeAttachment
end Semp
