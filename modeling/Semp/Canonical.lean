import Semp.JsValue

/-! Canonical JSON: keys sorted at every level, no insignificant whitespace,
UTF-8.  The bytes are those of the normal form, so they agree exactly when the
values do, and reading them gives the value back. -/
namespace Semp
namespace Canonical

open JsonText

/-- The parts in order, a comma between two of them. -/
def join : List JsString → JsString
  | [] => []
  | [t] => t
  | t::u::ts => t++comma::join (u::ts)

/-- Evaluation from left to right, up to the first throw. -/
def collect {α : Type} : List (Js α) → Js (List α)
  | [] => .ok []
  | x::xs => do
    let a ← x
    let as ← collect xs
    .ok (a::as)

mutual
def serialize : Json → Js JsString
  | .null => .ok (js "null")
  | .bool b => .ok (if b then js "true" else js "false")
  | .num x =>
    if x.isFinite then .ok (stringify (.num x))
    else raise (js "canonical: non-finite number "++NumberText.toText x)
  | .str s => .ok (quote s)
  | .arr vs => do
    let parts ← collect (serializeItems vs)
    .ok (openBracket::join parts++[closeBracket])
  | .obj ms => do
    let parts ← collect ((sortMembers (serializeMembers ms)).map fun m =>
      m.2.map fun text => quote m.1++colon::text)
    .ok (openBrace::join parts++[closeBrace])
def serializeItems : List Json → List (Js JsString)
  | [] => []
  | v::vs => serialize v::serializeItems vs
def serializeMembers : Members → List (JsString × Js JsString)
  | [] => []
  | (k,v)::ms => (k,serialize v)::serializeMembers ms
end

def marshal (v : Json) : Js Bytes := do
  let generic ← parseJson (stringify v)
  let text ← serialize generic
  .ok (Utf8.textEncode text)

def marshalWithElision (v : Json) (elide : Json → Json) : Js Bytes := do
  let clone ← parseJson (stringify v)
  let text ← serialize (elide clone)
  .ok (Utf8.textEncode text)

/-- The canonical text: the one of the normal form. -/
def canonicalText (v : Json) : JsString := stringify v.norm

def canonicalBytes (v : Json) : Bytes := Utf8.textEncode (canonicalText v)

theorem serializeItems_eq (vs : List Json) : serializeItems vs = vs.map serialize := by
  induction vs with
  | nil => rfl
  | cons v vs ih => simp [serializeItems,ih]

theorem serializeMembers_eq (ms : Members) :
    serializeMembers ms = ms.map fun m => (m.1,serialize m.2) := by
  induction ms with
  | nil => rfl
  | cons m ms ih => obtain ⟨k,v⟩ := m; simp [serializeMembers,ih]

theorem collect_ok {α β : Type} (f : β → Js α) (g : β → α) (xs : List β)
    (h : ∀ x ∈ xs, f x = .ok (g x)) : collect (xs.map f) = .ok (xs.map g) := by
  induction xs with
  | nil => rfl
  | cons x xs ih =>
    simp only [List.map_cons,collect,h x (by simp),ih fun y hy => h y (by simp [hy])]
    rfl

theorem join_items (vs : List Json) : join (vs.map stringify) = stringifyItems vs := by
  induction vs with
  | nil => rfl
  | cons v vs ih =>
    cases vs with
    | nil => rfl
    | cons w vs =>
      simp only [List.map_cons] at ih
      simp only [List.map_cons,join,stringifyItems,ih]

theorem join_members (ms : Members) :
    join (ms.map fun m => quote m.1++colon::stringify m.2) = stringifyMembers ms := by
  induction ms with
  | nil => rfl
  | cons m ms ih =>
    obtain ⟨k,v⟩ := m
    cases ms with
    | nil => rfl
    | cons n ms =>
      simp only [List.map_cons] at ih
      simp only [List.map_cons,join,stringifyMembers,ih]

/-- On finite values the serializer writes the value with its keys sorted. -/
theorem serialize_finite {v : Json} (h : v.Finite) : serialize v = .ok (stringify v.sortKeys) := by
  induction v with
  | null | bool | str => rfl
  | num x => rw [serialize,if_pos (by simpa [Json.Finite] using h),Json.sortKeys_num]
  | arr vs ih =>
    rw [Json.finite_arr] at h
    have hparts := collect_ok serialize (fun v => stringify v.sortKeys) vs
      fun v hv => ih v hv (h v hv)
    have hjoin := join_items (vs.map Json.sortKeys)
    rw [List.map_map] at hjoin
    rw [serialize,serializeItems_eq,hparts,Json.sortKeys,Json.sortItems_eq,stringify,← hjoin]
    rfl
  | obj ms ih =>
    rw [Json.finite_obj] at h
    have hsort : sortMembers (serializeMembers ms) =
        (sortMembers ms).map fun m => (m.1,serialize m.2) := by
      rw [serializeMembers_eq]
      exact sortMembers_map (fun m : JsString × Json => (m.1,serialize m.2)) (fun _ => rfl) ms
    have hsort' : sortMembers (ms.map fun m => (m.1,m.2.sortKeys)) =
        (sortMembers ms).map fun m => (m.1,m.2.sortKeys) :=
      sortMembers_map (fun m : JsString × Json => (m.1,m.2.sortKeys)) (fun _ => rfl) ms
    have hparts := collect_ok
      (fun m : JsString × Json => (serialize m.2).map fun text => quote m.1++colon::text)
      (fun m => quote m.1++colon::stringify m.2.sortKeys) (sortMembers ms) (by
        intro m hm
        rw [mem_sortMembers] at hm
        rw [ih m hm (h m hm)]
        rfl)
    have hjoin := join_members ((sortMembers ms).map fun m => (m.1,m.2.sortKeys))
    rw [List.map_map] at hjoin
    rw [serialize,hsort,List.map_map]
    change (do let parts ← collect _; .ok (openBrace::join parts++[closeBrace])) = _
    rw [show (fun m : JsString × Js JsString => m.2.map fun text => quote m.1++colon::text) ∘
        (fun m : JsString × Json => (m.1,serialize m.2)) =
        fun m => (serialize m.2).map fun text => quote m.1++colon::text from rfl,hparts,
      Json.sortKeys,Json.sortEach_eq,hsort',stringify,← hjoin]
    rfl

theorem reparse_finite (v : Json) : v.reparse.Finite := by
  induction v with
  | null | bool | str => trivial
  | num x =>
    rw [Json.reparse]
    split_ifs with h
    · simpa [Json.Finite] using h
    · trivial
  | arr vs ih =>
    rw [Json.reparse,Json.reparseItems_eq,Json.finite_arr,List.forall_mem_map]
    exact ih
  | obj ms ih =>
    rw [Json.reparse,Json.reparseMembers_eq,Json.finite_obj,List.forall_mem_map]
    exact ih

/-- `marshal` never throws on a JSON value. -/
theorem marshal_eq {v : Json} (h : v.WF) : marshal v = .ok (canonicalBytes v) := by
  rw [marshal,parseJson_stringify h]
  change (do let text ← serialize v.reparse; .ok (Utf8.textEncode text)) = _
  rw [serialize_finite (reparse_finite v)]
  rfl

/-- The elision runs on the clone, whose numbers are finite. -/
theorem marshalWithElision_eq {v : Json} {elide : Json → Json} (h : v.WF)
    (hf : (elide v.reparse).Finite) : marshalWithElision v elide =
      .ok (Utf8.textEncode (stringify (elide v.reparse).sortKeys)) := by
  rw [marshalWithElision,parseJson_stringify h,ok_bind,serialize_finite hf]
  rfl

theorem canonicalBytes_inj {v w : Json} (hv : v.WF) (hw : w.WF) :
    canonicalBytes v = canonicalBytes w ↔ v.norm = w.norm := by
  constructor
  · intro h
    have ht := Utf8.textEncode_injOn (isWellFormed_stringify _) (isWellFormed_stringify _) h
    have hp := congrArg parse ht
    rw [parse_stringify (Json.wf_norm hv),parse_stringify (Json.wf_norm hw),Option.some.injEq] at hp
    have hr (u : Json) : u.norm.reparse.sortKeys = u.norm := Json.norm_norm u
    rw [← hr v,hp,hr w]
  · intro h
    simp only [canonicalBytes,canonicalText,h]

/-- Reading canonical bytes. -/
theorem parse_canonicalBytes {v : Json} (h : v.WF) :
    parse (Utf8.textDecode (canonicalBytes v)) = some v.norm.reparse := by
  rw [canonicalBytes,canonicalText,textDecode_stringify,parse_stringify (Json.wf_norm h)]

/-- The value read back has the normal form of the value written. -/
theorem parseJson_norm {v : Json} (h : v.WF) :
    ∃ w, parseJson (Utf8.textDecode (canonicalBytes v)) = .ok w ∧ w.WF ∧ w.norm = v.norm :=
  ⟨_,parseJson_eq_ok.mpr (parse_canonicalBytes h),parse_wf (parse_canonicalBytes h),
    by rw [Json.norm_reparse,Json.norm_norm]⟩

/-- The value read back differs in member order and the sign of zeros only. -/
theorem norm_reparse_same {v : Json} (h : v.WF) (f : v.Finite) : v.norm.reparse.Same v := by
  have hw : v.norm.reparse.WF := parse_wf (parse_canonicalBytes h)
  have hnorm : v.norm.reparse.norm = v.norm := by rw [Json.norm_reparse,Json.norm_norm]
  exact (Json.same_iff_norm hw h (reparse_finite _) f).mpr hnorm

/-- Canonical JSON is canonical: the bytes agree exactly on values that differ in
member order and the sign of zeros only, and reading them returns such a value. -/
theorem marshal_canonical {u v : Json} (hu : u.WF) (hv : v.WF) (fu : u.Finite) (fv : v.Finite) :
    (marshal u = marshal v ↔ u.Same v) ∧
      ∃ bytes w, marshal v = .ok bytes ∧ parseJson (Utf8.textDecode bytes) = .ok w ∧
        w.Same v ∧ marshal w = .ok bytes := by
  constructor
  · rw [marshal_eq hu,marshal_eq hv,Except.ok.injEq,canonicalBytes_inj hu hv,
      Json.same_iff_norm hu hv fu fv]
  · have hw : v.norm.reparse.WF := parse_wf (parse_canonicalBytes hv)
    refine ⟨canonicalBytes v,v.norm.reparse,marshal_eq hv,
      parseJson_eq_ok.mpr (parse_canonicalBytes hv),norm_reparse_same hv fv,?_⟩
    rw [marshal_eq hw,Except.ok.injEq,canonicalBytes_inj hw hv,Json.norm_reparse,Json.norm_norm]

/-- Two objects that list their members in different orders. -/
theorem marshal_canonical_reordered :
    let u := Json.obj [(js "b",.arr [.bool true]),(js "a",.str (js "x"))]
    let v := Json.obj [(js "a",.str (js "x")),(js "b",.arr [.bool true])]
    (marshal u = marshal v ↔ u.Same v) ∧
      ∃ bytes w, marshal v = .ok bytes ∧ parseJson (Utf8.textDecode bytes) = .ok w ∧
        w.Same v ∧ marshal w = .ok bytes := by
  refine marshal_canonical ?_ ?_ ?_ ?_
  · exact Json.wf_obj.mpr ⟨by decide,by simp [Json.WF]⟩
  · exact Json.wf_obj.mpr ⟨by decide,by simp [Json.WF]⟩
  · simp [Json.Finite]
  · simp [Json.Finite]

theorem canonicalBytes_obj (ms : Members) : ∃ rest, canonicalBytes (.obj ms) = 123::rest := by
  rw [canonicalBytes,canonicalText,Json.norm_obj,stringify,← List.singleton_append,
    List.append_assoc,Utf8.textEncode_append (by decide)]
  exact ⟨_,rfl⟩

/-- Two texts of an object, each before an object in canonical form: only one cut gives
both. -/
theorem append_canonicalBytes_inj {i j : Bytes} {ms ns : Members}
    (hi : ∃ ks, parseJson (Utf8.textDecode i) = .ok (.obj ks))
    (hj : ∃ ks, parseJson (Utf8.textDecode j) = .ok (.obj ks))
    (h : i++canonicalBytes (.obj ms) = j++canonicalBytes (.obj ns)) :
    i = j ∧ canonicalBytes (.obj ms) = canonicalBytes (.obj ns) := by
  have key {i j x y : Bytes} (hi : ∃ ks, parseJson (Utf8.textDecode i) = .ok (.obj ks))
      (hj : ∃ ks, parseJson (Utf8.textDecode j) = .ok (.obj ks)) (hx : ∃ rest, x = 123::rest)
      (h : i++x = j++y) : j.length ≤ i.length := by
    by_contra hlt
    rw [List.append_eq_append_iff] at h
    rcases h with ⟨z,rfl,hz⟩ | ⟨z,rfl,-⟩
    · obtain ⟨rest,rfl⟩ := hx
      obtain ⟨ks,hks⟩ := hi
      obtain ⟨ks',hks'⟩ := hj
      rw [parseJson_eq_ok] at hks hks'
      cases z with
      | nil => simp at hlt
      | cons b z =>
        obtain rfl : (123 : UInt8) = b := (List.cons.inj hz).1
        have hne : Utf8.textDecode i ≠ [] := by
          intro hnil
          rw [hnil] at hks
          have hnone : parse [] = none := rfl
          rw [hnone] at hks
          cases hks
        rw [Utf8.textDecode_append_ascii hne (by decide)] at hks'
        change parse (Utf8.textDecode i++openBrace::Utf8.decodeFrom Utf8.idle z) = _ at hks'
        rw [parse_append_brace hks] at hks'
        cases hks'
    · exact hlt (by simp)
  have hlen := le_antisymm (key hj hi (canonicalBytes_obj ns) h.symm)
    (key hi hj (canonicalBytes_obj ms) h)
  exact List.append_inj h hlen

end Canonical
end Semp
