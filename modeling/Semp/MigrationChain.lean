import Semp.Migration

/-! The signature chain of a migration record: what each pass is signed over, that the
record which is composed verifies, and that a record altered anywhere but in its last
signature is one that nobody signed. -/
namespace Semp
namespace Migration
open Handshake SignedDoc
open TransparencyLog (signatureBlock)

/-- What one pass signs. -/
def signingInput (field : SigField) (r : Members) : Js Bytes :=
  (RecordKind.migrationRecord field).signingBytes r

/-- The passes of a mode, in their order. -/
def MigrationMode.chain : MigrationMode → List SigField
  | unilateral => commonFields
  | cooperative => commonFields++[.oldDomainSignature]

/-- The slot of the last signature of the chain. -/
def MigrationMode.last : MigrationMode → SigField
  | unilateral => .newDomainSignature
  | cooperative => .oldDomainSignature

/-- A slot with its value blank. -/
def blanked : Json → Json
  | .obj slot => .obj (assign slot (js "value") (.str []))
  | v => v

/-- The member `k` as the pass of `field` sees it. -/
def covered (field : SigField) (k : JsString) (v : Json) : Json :=
  if k ∈ (signatureFields.drop (signatureFields.idxOf field)).map SigField.name then blanked v
  else v

theorem SigField.name_injective : Function.Injective SigField.name := by
  intro a b h
  cases a <;> cases b <;> first | rfl | exact absurd h (by decide)

section Blanking
variable {field g : SigField} {k : JsString} {m n : Members}

@[simp] theorem blanked_blanked (v : Json) : blanked (blanked v) = blanked v := by
  cases v with
  | obj slot => simp [blanked]
  | _ => rfl

@[simp] theorem blanked_write (slot : Members) (v : Json) :
    blanked (.obj (assign slot (js "value") v)) = blanked (.obj slot) := by simp [blanked]

theorem reparse_blanked (v : Json) : (blanked v).reparse = blanked v.reparse := by
  cases v with
  | obj slot => simp [blanked,Json.reparse,map_assign]
  | num x => by_cases hx : x.isFinite <;> simp [blanked,Json.reparse,hx]
  | _ => simp [blanked,Json.reparse]

theorem norm_blanked_reparse (v : Json) : (blanked v.reparse).norm = (blanked v).norm := by
  rw [← reparse_blanked,Json.norm_reparse]

theorem lookup_blankSlot (view : Members) (field : SigField) (k : JsString) :
    lookup (blankSlot view field) k =
      (lookup view k).map fun v => if k = field.name then blanked v else v := by
  unfold blankSlot
  by_cases hk : k = field.name
  · subst hk
    split
    · next slot hslot => simp [hslot,blanked]
    · next hno =>
      cases hl : lookup view field.name with
      | none => rfl
      | some v =>
        cases v with
        | obj slot => exact absurd hl (hno slot)
        | _ => simp [blanked]
  · have hid : (fun v : Json => if k = field.name then blanked v else v) = id := by
      funext v
      exact if_neg hk
    rw [hid,Option.map_id_fun,id]
    split
    · exact lookup_assign_ne _ hk
    · rfl

theorem lookup_blankSlots (fields : List SigField) (view : Members) (k : JsString) :
    lookup (fields.foldl blankSlot view) k =
      (lookup view k).map fun v => if k ∈ fields.map SigField.name then blanked v else v := by
  induction fields generalizing view with
  | nil => simp
  | cons field fields ih =>
    rw [List.foldl_cons,ih,lookup_blankSlot,Option.map_map]
    congr 1
    funext v
    rw [Function.comp_apply,List.map_cons]
    by_cases hk : k = field.name
    · rw [if_pos hk,if_pos (List.mem_cons.mpr (.inl hk)),blanked_blanked,ite_self]
    · rw [if_neg hk]
      exact if_congr (by rw [List.mem_cons,or_iff_right hk]) rfl rfl

/-- The pass of `field` is made over the members as it covers them. -/
theorem signingInput_eq (field : SigField) (hm : (Json.obj m).WF) : ∃ view,
    signingInput field m = .ok (utf8 (js "SEMP-MIGRATION-RECORD:")++
      Canonical.canonicalBytes (.obj view)) ∧ (Json.obj view).WF ∧
    ∀ k, (lookup view k).map Json.norm = (lookup m k).map fun v => (covered field k v).norm := by
  refine ⟨blankFromIndex (m.map fun e => (e.1,e.2.reparse)) (signatureFields.idxOf field),
    by rw [signingInput,RecordKind.signingBytes_eq _ hm]; rfl,
    (blankFromIndex_edit _ _).wf (wf_clone hm),fun k => ?_⟩
  rw [blankFromIndex,lookup_blankSlots,lookup_map Json.reparse,Option.map_map,Option.map_map]
  congr 1
  funext v
  simp only [Function.comp_apply,covered]
  split_ifs
  · exact norm_blanked_reparse v
  · exact Json.norm_reparse v

/-- Two passes sign the same bytes exactly when what they cover is the same. -/
theorem signingInput_eq_iff (hm : (Json.obj m).WF) (hn : (Json.obj n).WF) :
    signingInput field m = signingInput g n ↔ ∀ k,
      ((lookup m k).map fun v => (covered field k v).norm) =
        (lookup n k).map fun v => (covered g k v).norm := by
  obtain ⟨v,hv,hvwf,hvk⟩ := signingInput_eq field hm
  obtain ⟨w,hw,hwwf,hwk⟩ := signingInput_eq g hn
  rw [hv,hw,Except.ok.injEq,List.append_cancel_left_eq,Canonical.canonicalBytes_inj hvwf hwwf,
    Json.norm_obj_eq_iff hvwf hwwf]
  simp only [hvk,hwk]

/-- A slot of an earlier pass is covered as it is. -/
theorem covered_of_lt (h : signatureFields.idxOf g < signatureFields.idxOf field) (v : Json) :
    covered field g.name v = v := by
  refine if_neg fun hmem => ?_
  obtain ⟨f,hf,hname⟩ := List.mem_map.mp hmem
  obtain rfl := SigField.name_injective hname
  revert hf h
  cases f <;> cases field <;> decide

/-- The slot of a pass, and those after it, are covered blank. -/
theorem covered_of_le (h : signatureFields.idxOf field ≤ signatureFields.idxOf g) (v : Json) :
    covered field g.name v = blanked v := by
  refine if_pos (List.mem_map_of_mem ?_)
  revert h
  cases field <;> cases g <;> decide

/-- Every other member is covered as it is. -/
theorem covered_of_ne (h : ∀ f, k ≠ SigField.name f) (v : Json) : covered field k v = v := by
  refine if_neg fun hmem => ?_
  obtain ⟨f,-,hname⟩ := List.mem_map.mp hmem
  exact h f hname.symm

end Blanking

section Passes
variable {C : Crypto} {field g : SigField} {r r' : Members} {priv : Bytes} {keyId : JsString}

theorem signSlot_eq_ok : signSlot C r field priv keyId = .ok r' ↔
    ∃ slot bytes sig, lookup r field.name = some (.obj slot) ∧
      lookup slot (js "algorithm") ≠ some (.str []) ∧
      lookup slot (js "key_id") = some (.str keyId) ∧ keyId ≠ [] ∧
      signingInput field r = .ok bytes ∧ sign C priv bytes = .ok sig ∧
      r' = assign r field.name (.obj (assign slot (js "value") (.str (Base64.encode sig)))) := by
  rw [signSlot]
  simp only [Semp.bind_eq_ok,require_eq_ok,exists_const]
  constructor
  · rintro ⟨-,algorithm,halg,id,hid,⟨hne,hne'⟩,hkey,bytes,hbytes,sig,hsig,h⟩
    rw [isStr_iff] at hkey
    subst hkey
    cases hl : lookup r field.name with
    | none => rw [hl] at hid; cases hid
    | some v =>
      rw [hl] at hid halg h
      cases v with
      | obj slot =>
        obtain rfl := Except.ok.inj halg
        obtain ⟨_,hset,h⟩ := Semp.bind_eq_ok.mp h
        obtain rfl := Except.ok.inj hset
        refine ⟨slot,bytes,sig,rfl,fun halg => ?_,Except.ok.inj hid,?_,hbytes,hsig,
          (Except.ok.inj h).symm⟩
        · rw [halg] at hne
          exact absurd hne (by decide)
        · rintro rfl
          exact absurd hne' (by decide)
      | _ => cases hid
  · rintro ⟨slot,bytes,sig,hl,halg,hkey,hne,hbytes,hsig,rfl⟩
    rw [hl]
    refine ⟨rfl,_,rfl,_,rfl,⟨?_,?_⟩,isStr_iff.mpr hkey,bytes,hbytes,sig,hsig,rfl⟩
    · exact Bool.eq_false_iff.mpr fun h => halg (isStr_iff.mp h)
    · refine Bool.eq_false_iff.mpr fun h => hne ?_
      simpa [hkey] using isStr_iff.mp h

theorem signSlot_wf (hr : (Json.obj r).WF) (h : signSlot C r field priv keyId = .ok r') :
    (Json.obj r').WF := by
  obtain ⟨slot,_,_,hl,-,-,-,-,-,rfl⟩ := signSlot_eq_ok.mp h
  exact Json.wf_assign hr (Json.wf_assign (Json.wf_of_lookup hr hl) (Json.wf_str _) _) _

/-- Signing writes one slot. -/
theorem lookup_signSlot (h : signSlot C r field priv keyId = .ok r') {k : JsString}
    (hk : k ≠ field.name) : lookup r' k = lookup r k := by
  obtain ⟨slot,_,_,-,-,-,-,-,-,rfl⟩ := signSlot_eq_ok.mp h
  exact lookup_assign_ne _ hk

/-- Signing keeps what this pass and the earlier ones are made over. -/
theorem signingInput_signSlot (hr : (Json.obj r).WF) (h : signSlot C r field priv keyId = .ok r')
    (hle : signatureFields.idxOf g ≤ signatureFields.idxOf field) :
    signingInput g r' = signingInput g r := by
  have hwf := signSlot_wf hr h
  obtain ⟨slot,_,_,hl,-,-,-,-,-,rfl⟩ := signSlot_eq_ok.mp h
  rw [signingInput_eq_iff hwf hr]
  intro k
  by_cases hk : k = field.name
  · subst hk
    rw [lookup_assign_self,hl,Option.map_some,Option.map_some,covered_of_le hle,covered_of_le hle,
      blanked_write]
  · rw [lookup_assign_ne _ hk]

/-- The slot holds what the seed signs. -/
def Carries (C : Crypto) (r : Members) (field : SigField) (seed : Bytes) : Prop :=
  ∃ slot bytes sig, lookup r field.name = some (.obj slot) ∧
    lookup slot (js "value") = some (.str (Base64.encode sig)) ∧
    signingInput field r = .ok bytes ∧ sign C seed bytes = .ok sig

theorem carries_signSlot (hr : (Json.obj r).WF) (h : signSlot C r field priv keyId = .ok r') :
    Carries C r' field priv := by
  have hinput := signingInput_signSlot hr h le_rfl
  obtain ⟨slot,bytes,sig,-,-,-,-,hbytes,hsig,rfl⟩ := signSlot_eq_ok.mp h
  exact ⟨_,bytes,sig,lookup_assign_self ..,lookup_assign_self ..,hinput.trans hbytes,hsig⟩

/-- A later pass keeps the signatures that are there. -/
theorem Carries.signSlot {seed : Bytes} (hc : Carries C r g seed) (hr : (Json.obj r).WF)
    (h : signSlot C r field priv keyId = .ok r')
    (hlt : signatureFields.idxOf g < signatureFields.idxOf field) : Carries C r' g seed := by
  obtain ⟨slot,bytes,sig,hl,hvalue,hbytes,hsig⟩ := hc
  have hne : g.name ≠ field.name := by
    intro hname
    rw [SigField.name_injective hname] at hlt
    exact lt_irrefl _ hlt
  exact ⟨slot,bytes,sig,(lookup_signSlot h hne).trans hl,hvalue,
    (signingInput_signSlot hr h hlt.le).trans hbytes,hsig⟩

/-- What a slot carries verifies. -/
theorem verifySlot_carries (laws : SignLaws C) (rt : Runtime) {seed pk : Bytes}
    (hc : Carries C r field seed) (hpk : publicKeyFromSeed C seed = .ok pk) :
    verifySlot C rt r field pk = .ok true := by
  obtain ⟨slot,bytes,sig,hl,hvalue,hbytes,hsig⟩ := hc
  have hne : isStr (some (.str (Base64.encode sig))) [] = false := by
    refine Bool.eq_false_iff.mpr fun h => ?_
    have hnil : Base64.encode sig = [] := by simpa using isStr_iff.mp h
    exact encode_sign_ne_nil laws hsig hnil
  rw [verifySlot,hl]
  simp only [getProp_obj,hvalue,ok_bind,hne,base64Decode_str,Base64.decode_encode]
  have hinput : (RecordKind.migrationRecord field).signingBytes r = .ok bytes := hbytes
  rw [hinput,ok_bind,verify_sign laws hpk hsig]
  rfl

/-- A slot that verifies has a signature in it, over what the pass is made over. -/
theorem of_verifySlot {rt : Runtime} {pk : Bytes} (h : verifySlot C rt r field pk = .ok true) :
    ∃ v value bytes sig, lookup r field.name = some v ∧
      getProp (some v) (js "value") = .ok value ∧ value ≠ some (.str []) ∧
      signingInput field r = .ok bytes ∧ C.ed25519Verify sig bytes pk = .ok true := by
  rw [verifySlot] at h
  split_ifs at h with hnull
  · cases h
  obtain ⟨value,hvalue,h⟩ := Semp.bind_eq_ok.mp h
  split_ifs at h with hempty
  · cases h
  cases hd : base64Decode rt value with
  | error e => rw [hd] at h; cases h
  | ok sig =>
    rw [hd] at h
    obtain ⟨bytes,hbytes,h⟩ := Semp.bind_eq_ok.mp h
    cases hl : lookup r field.name with
    | none => rw [hl] at hvalue; cases hvalue
    | some v =>
      rw [hl] at hvalue
      refine ⟨v,value,bytes,sig,rfl,hvalue,fun hv => hempty (isStr_iff.mpr hv),hbytes,
        verify_true (Except.ok.inj h)⟩

end Passes

section Compose
variable {C : Crypto} {r r' : Members}

theorem isCooperative_eq {mode : MigrationMode}
    (h : lookup r (js "mode") = some (.str mode.name)) :
    isCooperative r = decide (mode = .cooperative) := by
  rw [isCooperative,h]
  cases mode <;> decide

/-- The slots that `prepareSignatures` fills in; the last is that of the old domain. -/
structure Prepared (r : Members) (oldIdentityKeyId newIdentityKeyId newDomainKeyId : JsString)
    (oldDomain : Json) (r' : Members) : Prop where
  wf : (Json.obj r').WF
  others : ∀ k, (∀ f, k ≠ SigField.name f) → lookup r' k = lookup r k
  oldIdentity : lookup r' SigField.oldIdentitySignature.name =
    some (signatureBlock TransparencyLog.signatureAlgorithmEd25519 oldIdentityKeyId [])
  newIdentity : lookup r' SigField.newIdentitySignature.name =
    some (signatureBlock TransparencyLog.signatureAlgorithmEd25519 newIdentityKeyId [])
  newDomain : lookup r' SigField.newDomainSignature.name =
    some (signatureBlock TransparencyLog.signatureAlgorithmEd25519 newDomainKeyId [])
  oldDomain : lookup r' SigField.oldDomainSignature.name = some oldDomain

theorem prepareSignatures_eq_ok (hr : (Json.obj r).WF)
    {oldIdentityKeyId newIdentityKeyId newDomainKeyId : JsString} {oldDomainKeyId : Option JsString}
    (h : prepareSignatures r oldIdentityKeyId newIdentityKeyId newDomainKeyId oldDomainKeyId =
      .ok r') : ∃ slot, Prepared r oldIdentityKeyId newIdentityKeyId newDomainKeyId slot r' ∧
        if isCooperative r then ∃ keyId, oldDomainKeyId = some keyId ∧ keyId ≠ [] ∧
          slot = signatureBlock TransparencyLog.signatureAlgorithmEd25519 keyId []
        else slot = .null := by
  have hslot (keyId : JsString) :
      (signatureBlock TransparencyLog.signatureAlgorithmEd25519 keyId []).WF :=
    TransparencyLog.signatureBlock_wf ..
  have hprep {slot : Json} (hwf : slot.WF) : Prepared r oldIdentityKeyId newIdentityKeyId
      newDomainKeyId slot (assign (assign (assign (assign r SigField.oldIdentitySignature.name
        (signatureBlock TransparencyLog.signatureAlgorithmEd25519 oldIdentityKeyId []))
        SigField.newIdentitySignature.name
        (signatureBlock TransparencyLog.signatureAlgorithmEd25519 newIdentityKeyId []))
        SigField.newDomainSignature.name
        (signatureBlock TransparencyLog.signatureAlgorithmEd25519 newDomainKeyId []))
        SigField.oldDomainSignature.name slot) :=
    { wf := Json.wf_assign (Json.wf_assign (Json.wf_assign (Json.wf_assign hr (hslot _) _)
        (hslot _) _) (hslot _) _) hwf _
      others := fun k hk => by
        rw [lookup_assign_ne _ (hk _),lookup_assign_ne _ (hk _),lookup_assign_ne _ (hk _),
          lookup_assign_ne _ (hk _)]
      oldIdentity := by
        rw [lookup_assign_ne _ (by decide),lookup_assign_ne _ (by decide),
          lookup_assign_ne _ (by decide),lookup_assign_self]
      newIdentity := by
        rw [lookup_assign_ne _ (by decide),lookup_assign_ne _ (by decide),lookup_assign_self]
      newDomain := by rw [lookup_assign_ne _ (by decide),lookup_assign_self]
      oldDomain := lookup_assign_self .. }
  have hcoop (x y z : Json) : isCooperative (assign (assign (assign r
      SigField.oldIdentitySignature.name x) SigField.newIdentitySignature.name y)
      SigField.newDomainSignature.name z) = isCooperative r := by
    simp only [isCooperative]
    rw [lookup_assign_ne _ (by decide),lookup_assign_ne _ (by decide),
      lookup_assign_ne _ (by decide)]
  unfold prepareSignatures at h
  dsimp only at h
  rw [hcoop] at h
  split_ifs at h ⊢ with hmode
  · match oldDomainKeyId,h with
    | some (u::s),h =>
      obtain rfl := Except.ok.inj h
      exact ⟨_,hprep (hslot _),_,rfl,List.cons_ne_nil u s,rfl⟩
  · obtain rfl := Except.ok.inj h
    exact ⟨_,hprep trivial,rfl⟩

theorem unsignedRecord_wf (recordId oldAddress newAddress oldIdentityKeyId newIdentityKeyId
    newIdentityPublicKey migratedAt : JsString) (noticeWindowUntil : Option JsString)
    (mode : MigrationMode) :
    (Json.obj (unsignedRecord recordId oldAddress newAddress oldIdentityKeyId newIdentityKeyId
      newIdentityPublicKey migratedAt noticeWindowUntil mode)).WF := by
  refine Json.wf_of_keys [js "type",js "version",js "record_id",js "old_address",js "new_address",
    js "old_identity_key_id",js "new_identity_key_id",js "new_identity_public_key",
    js "migrated_at",js "notice_window_until",js "mode",SigField.oldIdentitySignature.name,
    SigField.newIdentitySignature.name,SigField.newDomainSignature.name,
    SigField.oldDomainSignature.name] rfl (by decide) ?_
  have hnull : (DeviceRecords.nullable noticeWindowUntil).WF := by cases noticeWindowUntil <;> trivial
  simp [unsignedRecord,TransparencyLog.signatureBlock_wf,hnull]

/-- What the first three passes leave. -/
structure Submitted (C : Crypto) (r : Members) (oldIdentitySeed newIdentitySeed newDomainSeed :
    Bytes) (r' : Members) : Prop where
  wf : (Json.obj r').WF
  oldIdentity : Carries C r' .oldIdentitySignature oldIdentitySeed
  newIdentity : Carries C r' .newIdentitySignature newIdentitySeed
  newDomain : Carries C r' .newDomainSignature newDomainSeed
  others : ∀ k, k ∉ commonFields.map SigField.name → lookup r' k = lookup r k

theorem submitted {r₀ r₁ r₂ r₃ : Members} (hr : (Json.obj r₀).WF) {oldIdentitySeed
    newIdentitySeed newDomainSeed : Bytes} {oldIdentityKeyId newIdentityKeyId newDomainKeyId :
    JsString} (h₁ : signOldIdentity C r₀ oldIdentitySeed oldIdentityKeyId = .ok r₁)
    (h₂ : signNewIdentity C r₁ newIdentitySeed newIdentityKeyId = .ok r₂)
    (h₃ : signNewDomain C r₂ newDomainSeed newDomainKeyId = .ok r₃) :
    Submitted C r₀ oldIdentitySeed newIdentitySeed newDomainSeed r₃ := by
  obtain ⟨_,-,h₂⟩ := Semp.bind_eq_ok.mp h₂
  obtain ⟨_,-,h₂⟩ := Semp.bind_eq_ok.mp h₂
  obtain ⟨_,-,h₃⟩ := Semp.bind_eq_ok.mp h₃
  obtain ⟨_,-,h₃⟩ := Semp.bind_eq_ok.mp h₃
  have hwf₁ := signSlot_wf hr h₁
  have hwf₂ := signSlot_wf hwf₁ h₂
  exact {
    wf := signSlot_wf hwf₂ h₃
    oldIdentity := ((carries_signSlot hr h₁).signSlot hwf₁ h₂ (by decide)).signSlot hwf₂ h₃
      (by decide)
    newIdentity := (carries_signSlot hwf₁ h₂).signSlot hwf₂ h₃ (by decide)
    newDomain := carries_signSlot hwf₂ h₃
    others := fun k hk => by
      rw [lookup_signSlot h₃ (fun h => hk (by simp [h,commonFields])),
        lookup_signSlot h₂ (fun h => hk (by simp [h,commonFields])),
        lookup_signSlot h₁ (fun h => hk (by simp [h,commonFields]))] }

/-- The old domain's pass keeps what was submitted and adds its own signature. -/
theorem signOldDomain_eq_ok {priv : Bytes} {keyId : JsString}
    (h : signOldDomain C r priv keyId = .ok r') :
    signSlot C r .oldDomainSignature priv keyId = .ok r' := by
  simp only [signOldDomain,Semp.bind_eq_ok,require_eq_ok,exists_const] at h
  obtain ⟨-,-,_,-,-,h⟩ := h
  exact h

/-- A record that `composeMigrationRecord` returns carries its whole chain. -/
theorem composeMigrationRecord_spec {input : ComposeMigrationInput}
    (hext : ∀ extensions ∈ input.extensions, (Json.obj extensions).WF)
    (h : composeMigrationRecord C input = .ok r) : (Json.obj r).WF ∧
      lookup r (js "mode") = some (.str input.mode.name) ∧
      Carries C r .oldIdentitySignature input.oldIdentitySeed ∧
      Carries C r .newIdentitySignature input.newIdentitySeed ∧
      Carries C r .newDomainSignature input.newDomainSeed ∧
      match input.mode with
      | .unilateral => lookup r SigField.oldDomainSignature.name = some .null
      | .cooperative => ∃ seed, input.oldDomainSeed = some seed ∧
          Carries C r .oldDomainSignature seed := by
  rw [composeMigrationRecord] at h
  have hbasewf : (Json.obj input.unsigned).WF := by
    rw [ComposeMigrationInput.unsigned]
    cases he : input.extensions with
    | none => exact unsignedRecord_wf ..
    | some extensions => exact Json.wf_assign (unsignedRecord_wf ..) (hext _ he) _
  have hbasemode : lookup input.unsigned (js "mode") = some (.str input.mode.name) := by
    rw [ComposeMigrationInput.unsigned]
    cases input.extensions with
    | none => rfl
    | some extensions => exact lookup_assign_ne _ (by decide)
  obtain ⟨r₀,h₀,h⟩ := Semp.bind_eq_ok.mp h
  obtain ⟨r₁,h₁,h⟩ := Semp.bind_eq_ok.mp h
  obtain ⟨r₂,h₂,h⟩ := Semp.bind_eq_ok.mp h
  obtain ⟨r₃,h₃,h⟩ := Semp.bind_eq_ok.mp h
  obtain ⟨slot,hprep,hslot⟩ := prepareSignatures_eq_ok hbasewf h₀
  have hsub := submitted hprep.wf h₁ h₂ h₃
  have hmode₃ : lookup r₃ (js "mode") = some (.str input.mode.name) := by
    rw [hsub.others _ (by decide),hprep.others _ (fun f => by cases f <;> decide),hbasemode]
  rw [isCooperative_eq hbasemode] at hslot
  cases hmode : input.mode with
  | unilateral =>
    rw [hmode] at h hslot hmode₃
    obtain rfl := Except.ok.inj h
    refine ⟨hsub.wf,hmode₃,hsub.oldIdentity,hsub.newIdentity,hsub.newDomain,?_⟩
    rw [hsub.others _ (by decide),hprep.oldDomain]
    exact congrArg some hslot
  | cooperative =>
    rw [hmode] at h hmode₃
    match hseed : input.oldDomainSeed, input.oldDomainKeyId, h with
    | some seed, some (u::s), h =>
      have hsign := signOldDomain_eq_ok h
      refine ⟨signSlot_wf hsub.wf hsign,(lookup_signSlot hsign (by decide)).trans hmode₃,
        hsub.oldIdentity.signSlot hsub.wf hsign (by decide),
        hsub.newIdentity.signSlot hsub.wf hsign (by decide),
        hsub.newDomain.signSlot hsub.wf hsign (by decide),seed,rfl,
        carries_signSlot hsub.wf hsign⟩

/-- The slot of the old domain: `null`, or signed by one whose public key is given. -/
def OldDomainCarried (C : Crypto) (r : Members) (p₄ : Option Bytes) : MigrationMode → Prop
  | .unilateral => lookup r SigField.oldDomainSignature.name = some .null
  | .cooperative => ∃ seed pk, Carries C r .oldDomainSignature seed ∧
      publicKeyFromSeed C seed = .ok pk ∧ p₄ = some pk

/-- A chain that is carried verifies. -/
theorem verifyMigrationRecord_carries (laws : SignLaws C) (rt : Runtime)
    (other : JsString → JsDate) (hvalid : validateMigrationRecord other r = .ok ())
    {mode : MigrationMode} (hmode : lookup r (js "mode") = some (.str mode.name))
    {s₁ s₂ s₃ p₁ p₂ p₃ : Bytes} {p₄ : Option Bytes} (h₁ : Carries C r .oldIdentitySignature s₁)
    (h₂ : Carries C r .newIdentitySignature s₂) (h₃ : Carries C r .newDomainSignature s₃)
    (hp₁ : publicKeyFromSeed C s₁ = .ok p₁) (hp₂ : publicKeyFromSeed C s₂ = .ok p₂)
    (hp₃ : publicKeyFromSeed C s₃ = .ok p₃) (h₄ : OldDomainCarried C r p₄ mode) :
    verifyMigrationRecord C rt other r p₁ p₂ p₃ p₄ = .ok true := by
  unfold verifyMigrationRecord
  rw [hvalid,ok_bind]
  simp only [verifySlots,verifySlot_carries laws rt h₁ hp₁,verifySlot_carries laws rt h₂ hp₂,
    verifySlot_carries laws rt h₃ hp₃,ok_bind,if_true,isCooperative_eq hmode]
  cases mode with
  | unilateral =>
    have hnull : lookup r SigField.oldDomainSignature.name = some .null := h₄
    rw [if_neg (by decide),hnull]
    rfl
  | cooperative =>
    obtain ⟨seed,pk,hc,hpk,rfl⟩ := h₄
    have ⟨slot,_,_,hl,_⟩ := hc
    obtain ⟨u,ds,rfl⟩ : ∃ u ds, pk = u::ds := by
      obtain ⟨hseed,hget⟩ := publicKeyFromSeed_eq_ok.mp hpk
      obtain ⟨pk',hget',hlen⟩ := laws.publicKey_ok seed hseed
      obtain rfl : pk = pk' := Except.ok.inj (hget.symm.trans hget')
      exact List.exists_cons_of_length_pos (by omega)
    rw [if_pos (by decide),hl,if_neg (by simp [strictEq])]
    exact verifySlot_carries laws rt hc hpk

end Compose

section Altered
variable {C : Crypto} {rt : Runtime} {other : JsString → JsDate} {mode : MigrationMode}
  {r altered : Members} {p₁ p₂ p₃ : Bytes} {p₄ : Option Bytes}

theorem eq_obj_of_norm_blanked {v : Json} {slot : Members}
    (h : (blanked v).norm = (blanked (.obj slot)).norm) : ∃ slot', v = .obj slot' := by
  cases v with
  | obj slot' => exact ⟨slot',rfl⟩
  | _ =>
    obtain ⟨ns,hns⟩ := Json.norm_eq_obj h
    cases hns

/-- The last pass of a record signs the same bytes only for records that agree outside the
value of the last signature. -/
theorem agreeOutside_of_signingInput (hr : (Json.obj r).WF) (ha : (Json.obj altered).WF)
    {slot : Members} (hslot : lookup r mode.last.name = some (.obj slot))
    (hnull : mode = .unilateral → lookup r SigField.oldDomainSignature.name = some .null)
    (h : signingInput mode.last r = signingInput mode.last altered) :
    AgreeOutside [mode.last.name,js "value"] r altered := by
  have hk := (signingInput_eq_iff hr ha).mp h
  refine ⟨fun k hkey => ?_,?_⟩
  · have hcov := hk k
    by_cases hfield : ∃ f, k = SigField.name f
    · obtain ⟨f,rfl⟩ := hfield
      have hne : f ≠ mode.last := fun heq => hkey (congrArg SigField.name heq)
      by_cases hlt : signatureFields.idxOf f < signatureFields.idxOf mode.last
      · simpa only [covered_of_lt hlt] using hcov
      · -- Only the slot of the old domain is left, which is `null` in unilateral mode.
        obtain ⟨rfl,rfl⟩ : f = .oldDomainSignature ∧ mode = .unilateral := by
          revert hne hlt
          cases f <;> cases mode <;> decide
        have hle : signatureFields.idxOf MigrationMode.unilateral.last ≤
            signatureFields.idxOf SigField.oldDomainSignature := by decide
        simp only [covered_of_le hle] at hcov
        rw [hnull rfl] at hcov ⊢
        cases hl : lookup altered SigField.oldDomainSignature.name with
        | none => rw [hl] at hcov; cases hcov
        | some v =>
          rw [hl] at hcov
          cases v with
          | obj ms => simp [blanked] at hcov
          | _ => exact hcov
    · have hne : ∀ f, k ≠ SigField.name f := fun f hf => hfield ⟨f,hf⟩
      simpa only [covered_of_ne hne] using hcov
  · have hcov := hk mode.last.name
    simp only [covered_of_le le_rfl] at hcov
    rw [hslot,Option.map_some] at hcov
    obtain ⟨v,hv,heq⟩ := Option.map_eq_some_iff.mp hcov.symm
    obtain ⟨slot',rfl⟩ := eq_obj_of_norm_blanked heq
    refine ⟨slot,slot',hslot,hv,fun k hk => ?_⟩
    have hwf := Json.wf_assign (Json.wf_of_lookup hr hslot) (Json.wf_str []) (js "value")
    have hwf' := Json.wf_assign (Json.wf_of_lookup ha hv) (Json.wf_str []) (js "value")
    have hmem := (Json.norm_obj_eq_iff hwf' hwf).mp heq k
    rw [lookup_assign_ne _ hk,lookup_assign_ne _ hk] at hmem
    exact hmem.symm

/-- The keys under which the passes of a record are verified. -/
def passKey (p₁ p₂ p₃ : Bytes) (p₄ : Option Bytes) : SigField → Bytes
  | .oldIdentitySignature => p₁
  | .newIdentitySignature => p₂
  | .newDomainSignature => p₃
  | .oldDomainSignature => p₄.getD []

/-- A record that verifies verifies in each of its passes. -/
theorem of_verifyMigrationRecord
    (h : verifyMigrationRecord C rt other r p₁ p₂ p₃ p₄ = .ok true) :
    ∃ mode, lookup r (js "mode") = some (.str (MigrationMode.name mode)) ∧
      ∀ field ∈ mode.chain, verifySlot C rt r field (passKey p₁ p₂ p₃ p₄ field) = .ok true := by
  unfold verifyMigrationRecord at h
  obtain ⟨_,hvalid,h⟩ := Semp.bind_eq_ok.mp h
  have hmode : lookup r (js "mode") = some (.str (js "cooperative")) ∨
      lookup r (js "mode") = some (.str (js "unilateral")) := by
    simp only [validateMigrationRecord,Semp.bind_eq_ok,require_eq_ok,exists_const,isStr_iff]
      at hvalid
    obtain ⟨_,_,_,_,_,hm,_⟩ := hvalid
    exact hm
  obtain ⟨b,hslots,h⟩ := Semp.bind_eq_ok.mp h
  have hb : b = true := by
    cases b with
    | true => rfl
    | false => cases h
  subst hb
  simp only [verifySlots] at hslots
  obtain ⟨b₁,h₁,hslots⟩ := Semp.bind_eq_ok.mp hslots
  cases b₁ with
  | false => cases hslots
  | true =>
  obtain ⟨b₂,h₂,hslots⟩ := Semp.bind_eq_ok.mp hslots
  cases b₂ with
  | false => cases hslots
  | true =>
  obtain ⟨b₃,h₃,hslots⟩ := Semp.bind_eq_ok.mp hslots
  cases b₃ with
  | false => cases hslots
  | true =>
  have hcommon : ∀ field ∈ commonFields,
      verifySlot C rt r field (passKey p₁ p₂ p₃ p₄ field) = .ok true := by
    intro field hfield
    simp only [commonFields,List.mem_cons,List.not_mem_nil,or_false] at hfield
    obtain rfl | rfl | rfl := hfield
    · exact h₁
    · exact h₂
    · exact h₃
  obtain hmode | hmode := hmode
  · refine ⟨.cooperative,hmode,fun field hfield => ?_⟩
    obtain hfield | hfield := List.mem_append.mp hfield
    · exact hcommon field hfield
    · obtain rfl := List.mem_singleton.mp hfield
      have hcoop : isCooperative r = true := isStr_iff.mpr hmode
      simp only [hcoop,if_true] at h
      split at h
      · cases h
      · obtain _ | _ | ⟨u,ds⟩ := p₄
        · cases h
        · cases h
        · exact h
  · exact ⟨.unilateral,hmode,hcommon⟩

/-- A pass of a record that verifies is over other bytes than any pass of another record,
unless the two agree outside the value of the last signature. -/
theorem exists_unsigned_pass (hr : (Json.obj r).WF) (ha : (Json.obj altered).WF)
    (hmode : lookup r (js "mode") = some (.str mode.name))
    (hslots : ∀ field ∈ mode.chain, ∃ slot, lookup r field.name = some (.obj slot))
    (hnull : mode = .unilateral → lookup r SigField.oldDomainSignature.name = some .null)
    (hne : ¬AgreeOutside [mode.last.name,js "value"] r altered)
    (h : verifyMigrationRecord C rt other altered p₁ p₂ p₃ p₄ = .ok true) :
    ∃ field bytes sig, signingInput field altered = .ok bytes ∧
      C.ed25519Verify sig bytes (passKey p₁ p₂ p₃ p₄ field) = .ok true ∧
      ∀ g ∈ mode.chain, signingInput g r ≠ .ok bytes := by
  obtain ⟨mode',hmode',hchain⟩ := of_verifyMigrationRecord h
  have hlast : ∀ m : MigrationMode, m.last ∈ m.chain := by
    intro m
    cases m <;> decide
  obtain ⟨_,_,bytes,sig,hl,hv,hvalue,hbytes,hsig⟩ := of_verifySlot (hchain _ (hlast mode'))
  refine ⟨mode'.last,bytes,sig,hbytes,hsig,fun g hg hinput => ?_⟩
  have hk := (signingInput_eq_iff hr ha).mp (hinput.trans hbytes.symm)
  have hmodes : mode = mode' := by
    have hcov := hk (js "mode")
    rw [hmode,hmode',Option.map_some,Option.map_some,
      covered_of_ne (fun f => by cases f <;> decide),
      covered_of_ne (fun f => by cases f <;> decide)] at hcov
    revert hcov
    cases mode <;> cases mode' <;> simp [MigrationMode.name] <;> decide
  subst hmodes
  by_cases hglast : g = mode.last
  · subst hglast
    obtain ⟨slot,hslot⟩ := hslots _ hg
    exact hne (agreeOutside_of_signingInput hr ha hslot hnull (hinput.trans hbytes.symm))
  · -- An earlier pass has its own slot blank, which is filled where the last one signs.
    have hlt : signatureFields.idxOf g < signatureFields.idxOf mode.last := by
      revert hglast hg
      cases mode <;> cases g <;> decide
    obtain ⟨slot,hslot⟩ := hslots g hg
    obtain ⟨v,value,_,_,hlg,hvg,hvalueg,-⟩ := of_verifySlot (hchain g hg)
    have hcov := hk g.name
    rw [hslot,hlg,Option.map_some,Option.map_some,covered_of_le le_rfl,covered_of_lt hlt,
      Option.some.injEq] at hcov
    obtain ⟨slot',rfl⟩ := Json.norm_eq_obj hcov.symm
    have hwf := Json.wf_assign (Json.wf_of_lookup hr hslot) (Json.wf_str []) (js "value")
    have hblank := (Json.lookup_str_of_norm hwf (Json.wf_of_lookup ha hlg) hcov).mp
      (lookup_assign_self ..)
    rw [getProp_obj,hblank] at hvg
    exact hvalueg (Except.ok.inj hvg).symm

end Altered

/-- A record that `composeMigrationRecord` returns and that is valid verifies.  For a record
that differs from it anywhere but in the value of the last signature the last pass signs
other bytes; and if such a record verifies, one of its passes does so over bytes that no
pass of the composed record was made over. -/
theorem composed_record_verifies {C : Crypto} (laws : SignLaws C) (rt : Runtime)
    (other : JsString → JsDate) (input : ComposeMigrationInput)
    (hext : ∀ extensions ∈ input.extensions, (Json.obj extensions).WF) {r : Members}
    (hr : composeMigrationRecord C input = .ok r)
    (hvalid : validateMigrationRecord other r = .ok ()) {p₁ p₂ p₃ : Bytes} {p₄ : Option Bytes}
    (hp₁ : publicKeyFromSeed C input.oldIdentitySeed = .ok p₁)
    (hp₂ : publicKeyFromSeed C input.newIdentitySeed = .ok p₂)
    (hp₃ : publicKeyFromSeed C input.newDomainSeed = .ok p₃)
    (hp₄ : input.mode = .cooperative → ∀ seed ∈ input.oldDomainSeed,
      ∃ pk, publicKeyFromSeed C seed = .ok pk ∧ p₄ = some pk) :
    verifyMigrationRecord C rt other r p₁ p₂ p₃ p₄ = .ok true ∧
    ∀ altered, (Json.obj altered).WF →
      ¬AgreeOutside [input.mode.last.name,js "value"] r altered →
      signingInput input.mode.last altered ≠ signingInput input.mode.last r ∧
      (verifyMigrationRecord C rt other altered p₁ p₂ p₃ p₄ = .ok true →
        ∃ field bytes sig, signingInput field altered = .ok bytes ∧
          C.ed25519Verify sig bytes (passKey p₁ p₂ p₃ p₄ field) = .ok true ∧
          ∀ g ∈ input.mode.chain, signingInput g r ≠ .ok bytes) := by
  obtain ⟨hwf,hmode,h₁,h₂,h₃,h₄⟩ := composeMigrationRecord_spec hext hr
  have hslot {field : SigField} {seed : Bytes} (hc : Carries C r field seed) :
      ∃ slot, lookup r field.name = some (.obj slot) := by
    obtain ⟨slot,_,_,hl,-⟩ := hc
    exact ⟨slot,hl⟩
  have hslots : ∀ field ∈ input.mode.chain, ∃ slot, lookup r field.name = some (.obj slot) := by
    intro field hfield
    cases hm : input.mode with
    | unilateral =>
      rw [hm] at hfield
      simp only [MigrationMode.chain,commonFields,List.mem_cons,List.not_mem_nil,or_false] at hfield
      obtain rfl | rfl | rfl := hfield
      · exact hslot h₁
      · exact hslot h₂
      · exact hslot h₃
    | cooperative =>
      rw [hm] at hfield h₄
      obtain ⟨seed,-,hc⟩ := h₄
      simp only [MigrationMode.chain,commonFields,List.mem_append,List.mem_cons,List.not_mem_nil,
        or_false] at hfield
      obtain (rfl | rfl | rfl) | rfl := hfield
      · exact hslot h₁
      · exact hslot h₂
      · exact hslot h₃
      · exact hslot hc
  have hnull : input.mode = .unilateral →
      lookup r SigField.oldDomainSignature.name = some .null := by
    intro hm
    rw [hm] at h₄
    exact h₄
  refine ⟨verifyMigrationRecord_carries laws rt other hvalid hmode h₁ h₂ h₃ hp₁ hp₂ hp₃ ?_,
    fun altered ha hne => ⟨fun heq => hne ?_,exists_unsigned_pass hwf ha hmode hslots hnull hne⟩⟩
  · cases hm : input.mode with
    | unilateral => exact hnull hm
    | cooperative =>
      rw [hm] at h₄
      obtain ⟨seed,hseed,hc⟩ := h₄
      obtain ⟨pk,hpk,hp⟩ := hp₄ hm seed hseed
      exact ⟨seed,pk,hc,hpk,hp⟩
  · have hlast : input.mode.last ∈ input.mode.chain := by cases input.mode <;> decide
    obtain ⟨slot,hl⟩ := hslots _ hlast
    exact agreeOutside_of_signingInput hwf ha hl hnull heq.symm

/-! A cooperative migration. -/
def sampleInput : ComposeMigrationInput where
  mode := .cooperative
  recordId := js "m1"
  migratedAt := js "2026-01-01T00:00:00Z"
  noticeWindowUntil := some (js "2026-03-01T00:00:00Z")
  oldAddress := js "alice@a.example"
  newAddress := js "alice@b.example"
  oldIdentityKeyId := js "k1"
  oldIdentitySeed := List.replicate 32 1
  newIdentityKeyId := js "k2"
  newIdentityPublicKey := Base64.encode (List.replicate 32 2)
  newIdentitySeed := List.replicate 32 2
  newDomainKeyId := js "k3"
  newDomainSeed := List.replicate 32 3
  oldDomainKeyId := some (js "k4")
  oldDomainSeed := some (List.replicate 32 4)
  extensions := none

theorem composed_record_verifies_sample : ∃ r,
    composeMigrationRecord Sample.crypto sampleInput = .ok r ∧
    verifyMigrationRecord Sample.crypto Sample.runtime (fun _ => none) r (List.replicate 32 1)
      (List.replicate 32 2) (List.replicate 32 3) (some (List.replicate 32 4)) = .ok true := by
  have hok : (do
      let r ← composeMigrationRecord Sample.crypto sampleInput
      validateMigrationRecord (fun _ => none) r : Js Unit).toBool = true := by decide +kernel
  cases hr : composeMigrationRecord Sample.crypto sampleInput with
  | error err =>
    rw [hr] at hok
    cases hok
  | ok r =>
    rw [hr,ok_bind] at hok
    have hvalid : validateMigrationRecord (fun _ => none) r = .ok () := by
      revert hok
      cases validateMigrationRecord (fun _ => none) r with
      | error err => intro hok; cases hok
      | ok u => intro; rfl
    refine ⟨r,rfl,(composed_record_verifies Sample.laws.sig Sample.runtime _ sampleInput
      (fun _ h => by cases h) hr hvalid rfl rfl rfl fun _ seed hseed => ?_).1⟩
    obtain rfl := Option.some.inj hseed
    exact ⟨_,rfl,rfl⟩

end Migration
end Semp
