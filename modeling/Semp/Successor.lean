import Semp.SigningKinds

/-! Successor records: three signatures over one text, in which the values of all three are
blank but their key ids are not.  Each signing pass writes its own value and nothing else, so
the passes can be made in any order. -/
namespace Semp
namespace Successor
open SignedDoc TransparencyLog DeviceRecords

def successorRecordType : JsString := js "SEMP_SUCCESSOR"
def recordVersion : JsString := js "1.0.0"

/-- The signature blocks of a record. -/
inductive Slot
  | recovery
  | newKey
  | domain
  deriving DecidableEq

def Slot.field : Slot → JsString
  | recovery => js "recovery_signature"
  | newKey => js "new_key_signature"
  | domain => js "domain_signature"

def Slot.argLabel : Slot → JsString
  | recovery => js "recoveryKeyId"
  | newKey => js "newKeyId"
  | domain => js "domainKeyId"

def slots : List Slot := [.recovery,.newKey,.domain]

def algorithmKey : JsString := js "algorithm"
def keyIdKey : JsString := js "key_id"
def valueKey : JsString := js "value"

/-- `r[field][key] = s` -/
def setField (field key s : JsString) (r : Members) : Js Members :=
  match lookup r field with
  | none => raiseType
  | some sig => do
    let sig ← setProp sig key (.str s)
    .ok (assign r field sig)

def prepareSlot (slot : Slot) (keyId : JsString) (r : Members) : Js Members := do
  let r ← setField slot.field algorithmKey signatureAlgorithmEd25519 r
  let r ← setField slot.field keyIdKey keyId r
  setField slot.field valueKey [] r

def prepareSuccessorSignatures (r : Members) (recoveryKeyId newKeyId domainKeyId : JsString) :
    Js Members := do
  let r ← prepareSlot .recovery recoveryKeyId r
  let r ← prepareSlot .newKey newKeyId r
  prepareSlot .domain domainKeyId r

def textFields : List JsString :=
  [js "user_id",js "prior_key_id",js "new_key_id",js "new_public_key",js "recovered_at"]

def requireString (v : Option Json) (message : JsString) : Js Unit :=
  match v with
  | some (.str _) => .ok ()
  | _ => raise message

def validateSlots (r : Members) : List Slot → Js Unit
  | [] => .ok ()
  | slot::rest => do
    let site := js "recovery: "++slot.field
    let algorithm ← optionalProp (lookup r slot.field) algorithmKey
    requireString algorithm (site++js ".algorithm missing")
    let keyId ← optionalProp (lookup r slot.field) keyIdKey
    requireString keyId (site++js ".key_id missing")
    let value ← optionalProp (lookup r slot.field) valueKey
    requireString value (site++js ".value must be a string")
    validateSlots r rest

/-- `r[field][key]`, where the validation has found a string. -/
def blockText (r : Members) (slot : Slot) (key : JsString) : Js JsString := do
  match ← getProp (lookup r slot.field) key with
  | some (.str s) => .ok s
  | _ => raiseType

section Code
variable (C : Crypto) (host : Host)

def requireRecoveredAt (v : Option Json) : Js Unit :=
  match v with
  | some (.str s) =>
    if (host.dateParse s).isNaN then raise (js "recovery: recovered_at is not ISO 8601")
    else .ok ()
  | _ => raise (js "recovery: recovered_at is not ISO 8601")

def validateSuccessorRecord (r : Members) (skipSignatureCheck : Bool) : Js Unit :=
  if !isStr (lookup r (js "type")) successorRecordType then
    raise (js "recovery: successor type "++stringifyText (lookup r (js "type"))++
      js ", want SEMP_SUCCESSOR")
  else do
    requireTexts (js "recovery: successor record") (some (.obj r)) textFields
    requireRecoveredAt host (lookup r (js "recovered_at"))
    validateSlots r slots
    let recovery ← blockText r .recovery valueKey
    let newKey ← blockText r .newKey valueKey
    let domain ← blockText r .domain valueKey
    if !skipSignatureCheck && (recovery = [] || newKey = [] || domain = []) then
      raise (js "recovery: successor record missing one or more signatures")
    else .ok ()

/-- `signOneOfThree`: the record with the signature in its block, and the signature. -/
def signOneOfThree (r : Members) (slot : Slot) (priv : Bytes) (keyId : JsString) :
    Js (Members × JsString) :=
  if priv.length = 0 then raise (js "recovery: empty private key for "++slot.field)
  else if keyId = [] then raise (js "recovery: empty "++slot.argLabel)
  else do
    validateSuccessorRecord host r true
    let algorithm ← blockText r slot algorithmKey
    let own ← blockText r slot keyIdKey
    if algorithm = [] ∨ own = [] then
      raise (js "recovery: call prepareSuccessorSignatures before sign"++slot.field)
    else if own ≠ keyId then
      raise (js "recovery: "++slot.field++js ".key_id "++JsonText.stringify (.str own)++
        js " does not match passed "++slot.argLabel++js " "++JsonText.stringify (.str keyId))
    else do
      let r ← setField slot.field valueKey [] r
      let signingInput ← RecordKind.successorRecord.signingBytes r
      let sig ← sign C priv signingInput
      let r ← setField slot.field valueKey (Base64.encode sig) r
      .ok (r,Base64.encode sig)

def signSuccessorRecovery (r : Members) (recoveryPriv : Bytes) (recoveryKeyId : JsString) :
    Js (Members × JsString) := signOneOfThree C host r .recovery recoveryPriv recoveryKeyId

def signSuccessorNewKey (r : Members) (newIdentityPriv : Bytes) (newKeyId : JsString) :
    Js (Members × JsString) := signOneOfThree C host r .newKey newIdentityPriv newKeyId

def signSuccessorDomain (r : Members) (domainPriv : Bytes) (domainKeyId : JsString) :
    Js (Members × JsString) := signOneOfThree C host r .domain domainPriv domainKeyId

def verifySuccessorTwoSignatures (r : Members) (recoveryVerifyPub newKeyPub : Bytes) :
    Js Bool := do
  validateSuccessorRecord host r true
  let recovery ← blockText r .recovery valueKey
  let newKey ← blockText r .newKey valueKey
  if recovery = [] ∨ newKey = [] then .ok false
  else do
    let domain ← blockText r .domain valueKey
    if domain ≠ [] then
      raise (js "recovery: verifySuccessorTwoSignatures called on a fully-signed record; use "++
        js "verifySuccessorRecord")
    else do
      let signingInput ← RecordKind.successorRecord.signingBytes r
      .ok (verify C recoveryVerifyPub (Base64.decode recovery) signingInput &&
        verify C newKeyPub (Base64.decode newKey) signingInput)

def verifySuccessorRecord (r : Members) (recoveryVerifyPub newKeyPub domainPub : Bytes) :
    Js Bool := do
  validateSuccessorRecord host r false
  let recovery ← blockText r .recovery valueKey
  let newKey ← blockText r .newKey valueKey
  let domain ← blockText r .domain valueKey
  if recovery = [] ∨ newKey = [] ∨ domain = [] then .ok false
  else do
    let signingInput ← RecordKind.successorRecord.signingBytes r
    .ok (verify C recoveryVerifyPub (Base64.decode recovery) signingInput &&
      verify C newKeyPub (Base64.decode newKey) signingInput &&
      verify C domainPub (Base64.decode domain) signingInput)

end Code

/-- A record as far as its validation goes. -/
structure Well (host : Host) (r : Members) : Prop where
  type : isStr (lookup r (js "type")) successorRecordType = true
  texts : ∀ f ∈ textFields, isText (lookup r f) = true
  date : ∃ s, lookup r (js "recovered_at") = some (.str s) ∧ (host.dateParse s).isNaN = false
  blocks : ∀ slot : Slot, ∃ ms, lookup r slot.field = some (.obj ms) ∧
    ∀ key ∈ [algorithmKey,keyIdKey,valueKey], ∃ s, lookup ms key = some (.str s)

/-- The members of a signature block. -/
def block (r : Members) (slot : Slot) : Members :=
  match lookup r slot.field with
  | some (.obj ms) => ms
  | _ => []

/-- A string of a signature block. -/
def text (r : Members) (slot : Slot) (key : JsString) : JsString :=
  match lookup (block r slot) key with
  | some (.str s) => s
  | _ => []

/-- What an assignment to a string of a signature block makes of the record. -/
def setText (r : Members) (slot : Slot) (key s : JsString) : Members :=
  assign r slot.field (.obj (assign (block r slot) key (.str s)))

section Fields
variable {host : Host} {r : Members} {slot other : Slot} {key k s t : JsString}

theorem Slot.field_injective : Function.Injective Slot.field := by
  intro a b
  cases a <;> cases b <;> decide

theorem mem_slots (slot : Slot) : slot ∈ slots := by cases slot <;> decide

theorem field_ne {f : JsString} (hf : f ∈ js "type"::textFields) (slot : Slot) :
    f ≠ slot.field := by
  rintro rfl
  cases slot <;> exact absurd hf (by decide)

theorem Well.lookup_block (h : Well host r) (slot : Slot) :
    lookup r slot.field = some (.obj (block r slot)) := by
  obtain ⟨ms,hms,-⟩ := h.blocks slot
  rw [block,hms]

theorem Well.lookup_text (h : Well host r) (slot : Slot)
    (hkey : key ∈ [algorithmKey,keyIdKey,valueKey]) :
    lookup (block r slot) key = some (.str (text r slot key)) := by
  obtain ⟨ms,hms,hkeys⟩ := h.blocks slot
  obtain ⟨s,hs⟩ := hkeys key hkey
  rw [text,block,hms,hs]

theorem blockText_eq (h : Well host r) (slot : Slot)
    (hkey : key ∈ [algorithmKey,keyIdKey,valueKey]) :
    blockText r slot key = .ok (text r slot key) := by
  rw [blockText,h.lookup_block,getProp,ok_bind,h.lookup_text slot hkey]

theorem setField_eq (h : Well host r) (slot : Slot) (key s : JsString) :
    setField slot.field key s r = .ok (setText r slot key s) := by
  rw [setField,h.lookup_block]
  rfl

theorem lookup_setText_ne {f : JsString} (h : f ≠ slot.field) :
    lookup (setText r slot key s) f = lookup r f := lookup_assign_ne _ h

theorem block_setText_self : block (setText r slot key s) slot =
    assign (block r slot) key (.str s) := by
  rw [block,setText,lookup_assign_self]

theorem block_setText_ne (h : other ≠ slot) : block (setText r slot key s) other =
    block r other := by
  rw [block,lookup_setText_ne fun heq => h (Slot.field_injective heq),block]

@[simp] theorem text_setText_self : text (setText r slot key s) slot key = s := by
  rw [text,block_setText_self,lookup_assign_self]

theorem text_setText_ne (h : other ≠ slot ∨ k ≠ key) :
    text (setText r slot key s) other k = text r other k := by
  by_cases hslot : other = slot
  · subst hslot
    rw [text,text,block_setText_self,lookup_assign_ne _ (h.resolve_left (not_not.mpr rfl))]
  · rw [text,text,block_setText_ne hslot]

theorem setText_setText : setText (setText r slot key s) slot key t = setText r slot key t := by
  rw [setText,block_setText_self,assign_assign,setText,assign_assign,setText]

theorem Well.set (h : Well host r) (slot : Slot) (key s : JsString) :
    Well host (setText r slot key s) where
  type := by
    rw [lookup_setText_ne (field_ne (by simp) slot)]
    exact h.type
  texts f hf := by
    rw [lookup_setText_ne (field_ne (List.mem_cons_of_mem _ hf) slot)]
    exact h.texts f hf
  date := by
    rw [lookup_setText_ne (field_ne (by decide) slot)]
    exact h.date
  blocks other := by
    by_cases ho : other = slot
    · subst ho
      refine ⟨_,lookup_assign_self ..,fun k hk => ?_⟩
      by_cases hkey : k = key
      · subst hkey
        exact ⟨s,lookup_assign_self ..⟩
      · rw [lookup_assign_ne _ hkey]
        exact ⟨_,h.lookup_text other hk⟩
    · rw [lookup_setText_ne fun heq => ho (Slot.field_injective heq)]
      exact h.blocks other

theorem wf_setText (h : Well host r) (hr : (Json.obj r).WF) (slot : Slot) (key s : JsString) :
    (Json.obj (setText r slot key s)).WF :=
  Json.wf_assign hr (Json.wf_assign (Json.wf_of_lookup hr (h.lookup_block slot))
    (Json.wf_str s) key) slot.field

end Fields
section Values
variable {host : Host} {r : Members} {slot other : Slot} {key k s t : JsString}

/-- Assignments to two members commute, if the first is there. -/
theorem assign_comm {α : Type} {ms : List (JsString × α)} {k l : JsString} (v w : α)
    (hkl : k ≠ l) (hk : k ∈ keys ms) :
    assign (assign ms k v) l w = assign (assign ms l w) k v := by
  induction ms with
  | nil => cases hk
  | cons m ms ih =>
    by_cases hmk : m.1 = k
    · simp [assign,hmk,hkl]
    · by_cases hml : m.1 = l
      · simp [assign,hml,Ne.symm hkl]
      · have hk : k ∈ keys ms := (List.mem_cons.mp hk).resolve_left (Ne.symm hmk)
        simp [assign,hmk,hml,ih hk]

theorem assign_lookup {α : Type} {ms : List (JsString × α)} {k : JsString} {v : α}
    (h : lookup ms k = some v) : assign ms k v = ms := by
  induction ms with
  | nil => cases h
  | cons m ms ih =>
    rw [lookup] at h
    rw [assign]
    split_ifs at h ⊢ with hm
    · obtain rfl := Option.some.inj h
      rw [← hm]
    · rw [ih h]

theorem setText_comm (h : Well host r) (hne : slot ≠ other) :
    setText (setText r slot key s) other k t = setText (setText r other k t) slot key s := by
  have hmem : slot.field ∈ keys r := by
    rw [← not_not (a := slot.field ∈ keys r),← lookup_eq_none,h.lookup_block]
    exact nofun
  rw [setText,block_setText_ne hne.symm,setText,
    assign_comm _ _ (fun heq => hne (Slot.field_injective heq)) hmem,
    setText,block_setText_ne hne,setText]

theorem setText_text (h : Well host r) (hkey : key ∈ [algorithmKey,keyIdKey,valueKey]) :
    setText r slot key (text r slot key) = r := by
  rw [setText,assign_lookup (h.lookup_text slot hkey),assign_lookup (h.lookup_block slot)]

/-- The record with these signature values. -/
def setValues (r : Members) (values : Slot → JsString) : Members :=
  setText (setText (setText r .recovery valueKey (values .recovery)) .newKey valueKey
    (values .newKey)) .domain valueKey (values .domain)

theorem Well.setValues (h : Well host r) (values : Slot → JsString) :
    Well host (setValues r values) := ((h.set _ _ _).set _ _ _).set _ _ _

theorem wf_setValues (h : Well host r) (hr : (Json.obj r).WF) (values : Slot → JsString) :
    (Json.obj (setValues r values)).WF :=
  wf_setText ((h.set _ _ _).set _ _ _)
    (wf_setText (h.set _ _ _) (wf_setText h hr _ _ _) _ _ _) _ _ _

theorem lookup_setValues_ne {f : JsString} (h : ∀ slot : Slot, f ≠ slot.field)
    (values : Slot → JsString) : lookup (setValues r values) f = lookup r f := by
  rw [setValues,lookup_setText_ne (h _),lookup_setText_ne (h _),lookup_setText_ne (h _)]

theorem block_setValues (values : Slot → JsString) (slot : Slot) :
    block (setValues r values) slot = assign (block r slot) valueKey (.str (values slot)) := by
  cases slot with
  | recovery =>
    rw [setValues,block_setText_ne (by decide),block_setText_ne (by decide),block_setText_self]
  | newKey =>
    rw [setValues,block_setText_ne (by decide),block_setText_self,block_setText_ne (by decide)]
  | domain =>
    rw [setValues,block_setText_self,block_setText_ne (by decide),block_setText_ne (by decide)]

theorem text_setValues (values : Slot → JsString) (slot : Slot) (key : JsString) :
    text (setValues r values) slot key = if key = valueKey then values slot else text r slot key := by
  rw [text,block_setValues]
  split_ifs with h
  · rw [h,lookup_assign_self]
  · rw [lookup_assign_ne _ h,text]

theorem setText_setValues (h : Well host r) (values : Slot → JsString) (slot : Slot)
    (s : JsString) :
    setText (setValues r values) slot valueKey s = setValues r (Function.update values slot s) := by
  have h₁ := h.set .recovery valueKey (values .recovery)
  have h₂ := h₁.set .newKey valueKey (values .newKey)
  cases slot with
  | recovery =>
    rw [setValues,setText_comm h₂ (by decide),setText_comm h₁ (by decide),setText_setText]
    rfl
  | newKey =>
    rw [setValues,setText_comm h₂ (by decide),setText_setText]
    rfl
  | domain =>
    rw [setValues,setText_setText]
    rfl

theorem setValues_text (h : Well host r) : setValues r (fun slot => text r slot valueKey) = r := by
  rw [setValues,setText_text h (by simp),setText_text h (by simp),setText_text h (by simp)]

end Values
end Successor
end Semp
