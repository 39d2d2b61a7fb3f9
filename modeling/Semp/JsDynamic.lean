import Mathlib.Data.List.Infix
import Semp.JsValue
import Semp.Base64

/-! Conversions of values whose types nothing checked at run time: what `===`, `>`,
`includes`, an iteration, a text encoder and a base64 reader do with any value a JSON
text can hold.  `none` is `undefined`. -/
namespace Semp

/-- What is left to the JavaScript runtime. -/
structure Runtime where
  /-- `Buffer.from(v,"base64")` of an array or an object -/
  bufferFrom : Json → Js Bytes
  /-- The message of an error the engine raised. -/
  errorMessage : EngineError → JsString

/-- A runtime for runs in which no array or object is read as base64. -/
def Sample.runtime : Runtime := ⟨fun _ => raiseType,fun _ => []⟩

/-- `a === b`, for values that come from different texts: no array or object is
identical to another one. -/
def strictEq : Option Json → Option Json → Bool
  | none, none => true
  | some .null, some .null => true
  | some (.bool a), some (.bool b) => a == b
  | some (.num x), some (.num y) => Number.eq x y
  | some (.str s), some (.str t) => s == t
  | _, _ => false

/-- `a ?? b` -/
def orElse (v : Option Json) (fallback : Json) : Json :=
  match v with
  | none | some .null => fallback
  | some v => v

/-- JavaScript's truth of a value. -/
def truthy : Option Json → Bool
  | none | some .null => false
  | some (.bool b) => b
  | some (.num x) => !(x == .nan || Number.eq x (.zero false))
  | some (.str s) => s ≠ []
  | some _ => true

/-- The object with these properties, as `JSON.stringify` sees it: the properties that
are `undefined` are left out. -/
def definedMembers (ms : List (JsString × Option Json)) : Members :=
  ms.filterMap fun m => m.2.map fun v => (m.1,v)

/-- `v[k] = x`; on an array no JSON text shows such a property. -/
def setProp (v : Json) (k : JsString) (x : Json) : Js Json :=
  match v with
  | .obj ms => .ok (.obj (assign ms k x))
  | .arr vs => .ok (.arr vs)
  | _ => raiseType

/-- `WhiteSpace` and `LineTerminator`. -/
def isSpace (u : UInt16) : Bool :=
  let n := u.toNat
  decide (9 ≤ n ∧ n ≤ 13) || decide (0x2000 ≤ n ∧ n ≤ 0x200A) ||
    [32,0xA0,0x1680,0x2028,0x2029,0x202F,0x205F,0x3000,0xFEFF].contains n

def trim (s : JsString) : JsString :=
  ((s.dropWhile isSpace).reverse.dropWhile isSpace).reverse

/-- A run of digits in a radix, and nothing else. -/
def radixNumber (radix : ℕ) (ds : JsString) : Number :=
  if ds ≠ [] ∧ ds.all fun u => (JsonText.hexValue u).any (·<radix) then
    .ofNat (ds.foldl (fun n u => n*radix+(JsonText.hexValue u).getD 0) 0)
  else .nan

/-- `StrUnsignedDecimalLiteral` -/
def decimalNumber (neg : Bool) (s : JsString) : Number :=
  if s = js "Infinity" then .inf neg
  else
    let int := s.takeWhile NumberText.isDigit
    let rest := s.dropWhile NumberText.isDigit
    let (frac,rest) :=
      if rest.head? = some NumberText.dotUnit then
        (rest.tail.takeWhile NumberText.isDigit,rest.tail.dropWhile NumberText.isDigit)
      else ([],rest)
    if int++frac = [] then .nan
    else
      match NumberText.parseExponent rest with
      | some (e,[]) => .ofMag neg (NumberText.readDigits (int++frac)*10^(e-frac.length))
      | _ => .nan

/-- `StringToNumber` -/
def stringToNumber (s : JsString) : Number :=
  match trim s with
  | [] => .zero false
  | u::v::ds =>
    if u = NumberText.zeroUnit ∧ (v = 120 ∨ v = 88) then radixNumber 16 ds
    else if u = NumberText.zeroUnit ∧ (v = 111 ∨ v = 79) then radixNumber 8 ds
    else if u = NumberText.zeroUnit ∧ (v = 98 ∨ v = 66) then radixNumber 2 ds
    else if u = NumberText.minusUnit then decimalNumber true (v::ds)
    else if u = NumberText.plusUnit then decimalNumber false (v::ds)
    else decimalNumber false (u::v::ds)
  | [u] => decimalNumber false [u]

/-- `ToNumber` -/
def toNumber : Option Json → Js Number
  | none => .ok .nan
  | some .null => .ok (.zero false)
  | some (.bool b) => .ok (if b then .ofNat 1 else .zero false)
  | some (.num x) => .ok x
  | some (.str s) => .ok (stringToNumber s)
  | some v => (toStringText v).map stringToNumber

/-- `v > 0` -/
def gtZero (v : Option Json) : Js Bool := (toNumber v).map (Number.lt (.zero false))

/-- `v.includes(s)`: of an array an item, of a string a part. -/
def includes (v : Option Json) (s : JsString) : Js Bool :=
  match v with
  | some (.arr vs) => .ok (vs.any fun v => isStr (some v) s)
  | some (.str t) => .ok (decide (s <:+: t))
  | _ => raiseType

/-- The code points of a string, each as a string. -/
def codePoints : JsString → List JsString
  | [] => []
  | [u] => [[u]]
  | u::l::rest =>
    if Utf8.isHigh u && Utf8.isLow l then [u,l]::codePoints rest
    else [u]::codePoints (l::rest)

/-- The values an iteration gives; a string gives its code points. -/
def iterate : Json → Js (List Json)
  | .arr vs => .ok vs
  | .str s => .ok ((codePoints s).map Json.str)
  | _ => raiseType

/-- `new TextEncoder().encode(v)` -/
def encodeText : Option Json → Js Bytes
  | none => .ok []
  | some v => (toStringText v).map Utf8.textEncode

/-- `new Uint8Array(Buffer.from(v,"base64"))` -/
def base64Decode (rt : Runtime) : Option Json → Js Bytes
  | some (.str s) => .ok (Base64.decode s)
  | some (.arr vs) => rt.bufferFrom (.arr vs)
  | some (.obj ms) => rt.bufferFrom (.obj ms)
  | _ => raiseType

@[simp] theorem strictEq_str {v : Option Json} {s : JsString} :
    strictEq v (some (.str s)) = true ↔ v = some (.str s) := by
  unfold strictEq
  split <;> simp_all

theorem setProp_obj (ms : Members) (k : JsString) (x : Json) :
    setProp (.obj ms) k x = .ok (.obj (assign ms k x)) := rfl

@[simp] theorem base64Decode_str (rt : Runtime) (s : JsString) :
    base64Decode rt (some (.str s)) = .ok (Base64.decode s) := rfl

@[simp] theorem encodeText_str (s : JsString) :
    encodeText (some (.str s)) = .ok (Utf8.textEncode s) := rfl

/-- A list holds the one string an endpoint looks for. -/
theorem includes_strs (ss : List JsString) (s : JsString) :
    includes (some (.arr (ss.map .str))) s = .ok (decide (s ∈ ss)) := by
  simp only [includes,Except.ok.injEq,List.any_map]
  rw [Bool.eq_iff_iff,List.any_eq_true]
  simp [isStr]

theorem keys_definedMembers_sublist (ms : List (JsString × Option Json)) :
    (keys (definedMembers ms)).Sublist (keys ms) := by
  induction ms with
  | nil => exact .slnil
  | cons m ms ih =>
    obtain ⟨k,_ | v⟩ := m
    · exact ih.cons _
    · exact ih.cons_cons _

theorem mem_definedMembers {ms : List (JsString × Option Json)} {k : JsString} {v : Json} :
    (k,v) ∈ definedMembers ms ↔ (k,some v) ∈ ms := by
  simp only [definedMembers,List.mem_filterMap,Option.map_eq_some_iff]
  constructor
  · rintro ⟨⟨k',o⟩,hm,w,rfl,h⟩
    obtain ⟨rfl,rfl⟩ := Prod.mk.inj h
    exact hm
  · intro h
    exact ⟨_,h,v,rfl,rfl⟩

/-- An object literal with distinct names and well-formed values. -/
theorem wf_definedMembers {ms : List (JsString × Option Json)} (hk : (keys ms).Nodup)
    (hv : ∀ m ∈ ms, ∀ v ∈ m.2, v.WF) : (Json.obj (definedMembers ms)).WF := by
  refine Json.wf_obj.mpr ⟨hk.sublist (keys_definedMembers_sublist ms),?_⟩
  rintro ⟨k,v⟩ hm
  exact hv _ (mem_definedMembers.mp hm) v rfl

/-- A property of an object literal with distinct names. -/
theorem lookup_definedMembers {ms : List (JsString × Option Json)} (hk : (keys ms).Nodup)
    (k : JsString) : lookup (definedMembers ms) k = (lookup ms k).join := by
  induction ms with
  | nil => rfl
  | cons m ms ih =>
    obtain ⟨l,o⟩ := m
    have hl : l ∉ keys ms := (List.nodup_cons.mp hk).1
    have ih := ih (List.nodup_cons.mp hk).2
    by_cases h : l = k
    · subst h
      have hnone : lookup ms l = none := lookup_eq_none.mpr hl
      rw [hnone] at ih
      cases o with
      | none => simpa [definedMembers,lookup] using ih
      | some v => simp [definedMembers,lookup]
    · cases o with
      | none => simpa [definedMembers,lookup,h] using ih
      | some v => simpa [definedMembers,lookup,h] using ih

end Semp
