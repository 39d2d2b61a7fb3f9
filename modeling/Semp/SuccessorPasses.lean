import Semp.Successor

/-! The three signing passes of a successor record: what each of them signs and writes, in
whichever order they are made, and what the two verifications then say. -/
namespace Semp
namespace Successor
open SignedDoc TransparencyLog DeviceRecords

section Validation
variable {host : Host} {r : Members} {slot : Slot} {key : JsString}

theorem optionalProp_eq_str {v : Option Json} {s : JsString} :
    optionalProp v key = .ok (some (.str s)) ↔
      ∃ ms, v = some (.obj ms) ∧ lookup ms key = some (.str s) := by
  cases v with
  | none => simp [optionalProp]
  | some v => cases v <;> simp [optionalProp,getProp]

theorem requireString_eq_ok {v : Option Json} {message : JsString} {u : Unit} :
    requireString v message = .ok u ↔ ∃ s, v = some (.str s) := by
  unfold requireString
  split
  · exact iff_of_true rfl ⟨_,rfl⟩
  next h =>
    refine iff_of_false (fun hr => by cases hr) ?_
    rintro ⟨s,rfl⟩
    exact h s rfl

/-- The three strings of a block that is an object. -/
def HasBlock (r : Members) (slot : Slot) : Prop :=
  ∃ ms, lookup r slot.field = some (.obj ms) ∧
    ∀ key ∈ [algorithmKey,keyIdKey,valueKey], ∃ s, lookup ms key = some (.str s)

theorem requireProp_eq_ok {α : Type} {message : JsString} {f : Js α} {a : α} :
    (do let v ← optionalProp (lookup r slot.field) key
        requireString v message
        f) = .ok a ↔
      (∃ ms s, lookup r slot.field = some (.obj ms) ∧ lookup ms key = some (.str s)) ∧
        f = .ok a := by
  rw [Semp.bind_eq_ok]
  constructor
  · rintro ⟨v,hv,h⟩
    obtain ⟨u,hu,hf⟩ := Semp.bind_eq_ok.mp h
    obtain ⟨s,rfl⟩ := requireString_eq_ok.mp hu
    obtain ⟨ms,hms,hs⟩ := optionalProp_eq_str.mp hv
    exact ⟨⟨ms,s,hms,hs⟩,hf⟩
  · rintro ⟨⟨ms,s,hms,hs⟩,hf⟩
    exact ⟨_,optionalProp_eq_str.mpr ⟨ms,hms,hs⟩,hf⟩

theorem validateSlots_eq_ok {ss : List Slot} :
    validateSlots r ss = .ok () ↔ ∀ slot ∈ ss, HasBlock r slot := by
  induction ss with
  | nil => simp [validateSlots]
  | cons slot ss ih =>
    rw [validateSlots,requireProp_eq_ok,requireProp_eq_ok,requireProp_eq_ok,ih,
      List.forall_mem_cons,← and_assoc,← and_assoc]
    refine and_congr_left fun _ => ?_
    constructor
    · rintro ⟨⟨⟨ms,a,hms,ha⟩,ms',k,hms',hk⟩,ms'',v,hms'',hv⟩
      obtain rfl : ms = ms' := by simpa using hms.symm.trans hms'
      obtain rfl : ms = ms'' := by simpa using hms.symm.trans hms''
      exact ⟨ms,hms,by simp [ha,hk,hv]⟩
    · rintro ⟨ms,hms,h⟩
      simp only [List.forall_mem_cons,List.not_mem_nil,false_imp_iff,implies_true,and_true] at h
      obtain ⟨⟨a,ha⟩,⟨k,hk⟩,v,hv⟩ := h
      exact ⟨⟨⟨ms,a,hms,ha⟩,ms,k,hms,hk⟩,ms,v,hms,hv⟩

theorem requireRecoveredAt_eq_ok {v : Option Json} : requireRecoveredAt host v = .ok () ↔
    ∃ s, v = some (.str s) ∧ (host.dateParse s).isNaN = false := by
  unfold requireRecoveredAt
  split
  next s => cases h : (host.dateParse s).isNaN <;> simp [h]
  next h =>
    refine iff_of_false (fun hr => by cases hr) ?_
    rintro ⟨s,rfl,-⟩
    exact h s rfl

/-- What the validation accepts. -/
theorem validate_eq_ok {skip : Bool} : validateSuccessorRecord host r skip = .ok () ↔
    Well host r ∧ (skip = true ∨ ∀ slot, text r slot valueKey ≠ []) := by
  unfold validateSuccessorRecord
  have hslots : (∀ slot : Slot, text r slot valueKey ≠ []) ↔
      ¬(text r .recovery valueKey = [] ∨ text r .newKey valueKey = [] ∨
        text r .domain valueKey = []) := by
    rw [not_or,not_or]
    exact ⟨fun h => ⟨h _,h _,h _⟩,fun h slot => by cases slot <;> simp [h]⟩
  have hend (h : Well host r) : (do
      let recovery ← blockText r .recovery valueKey
      let newKey ← blockText r .newKey valueKey
      let domain ← blockText r .domain valueKey
      if !skip && (recovery = [] || newKey = [] || domain = []) then
        raise (js "recovery: successor record missing one or more signatures")
      else .ok () : Js Unit) = .ok () ↔ (skip = true ∨ ∀ slot, text r slot valueKey ≠ []) := by
    rw [blockText_eq h .recovery (by simp),blockText_eq h .newKey (by simp),
      blockText_eq h .domain (by simp),ok_bind,ok_bind,ok_bind,hslots]
    cases skip
    · simp only [Bool.not_false,Bool.true_and,Bool.or_eq_true,decide_eq_true_eq,or_assoc,
        Bool.false_eq_true,false_or]
      split_ifs with hblank <;> simp [hblank]
    · simp
  split_ifs with htype
  · refine iff_of_false nofun fun h => ?_
    rw [h.1.type] at htype
    cases htype
  · constructor
    · intro h
      obtain ⟨u₁,htexts,h⟩ := Semp.bind_eq_ok.mp h
      obtain ⟨u₂,hdate,h⟩ := Semp.bind_eq_ok.mp h
      obtain ⟨u₃,hblocks,h⟩ := Semp.bind_eq_ok.mp h
      have hw : Well host r := {
        type := by simpa using htype
        texts := requireTexts_eq_ok.mp htexts
        date := requireRecoveredAt_eq_ok.mp hdate
        blocks := fun slot => validateSlots_eq_ok.mp hblocks slot (mem_slots slot) }
      exact ⟨hw,(hend hw).mp h⟩
    · rintro ⟨hw,h⟩
      rw [requireTexts_eq_ok.mpr hw.texts,ok_bind,requireRecoveredAt_eq_ok.mpr hw.date,ok_bind,
        validateSlots_eq_ok.mpr fun slot _ => hw.blocks slot,ok_bind]
      exact (hend hw).mpr h

end Validation
/-- The records say the same everywhere but in the values of the signatures. -/
structure AgreeOutsideValues (m n : Members) : Prop where
  members : ∀ f, (∀ slot : Slot, f ≠ slot.field) →
    (lookup m f).map Json.norm = (lookup n f).map Json.norm
  blocks : ∀ slot key, key ≠ valueKey →
    (lookup (block m slot) key).map Json.norm = (lookup (block n slot) key).map Json.norm

section Input
variable {host : Host} {r m n : Members}

/-- What `JSON.parse(JSON.stringify(r))` gives. -/
def cloned (r : Members) : Members := r.map fun e => (e.1,e.2.reparse)

theorem lookup_cloned_str {ms : Members} {key s : JsString} (h : lookup ms key = some (.str s)) :
    lookup (cloned ms) key = some (.str s) := by
  rw [cloned,lookup_map Json.reparse,h]
  rfl

theorem lookup_cloned_obj {ms o : Members} {key : JsString} (h : lookup ms key = some (.obj o)) :
    lookup (cloned ms) key = some (.obj (cloned o)) := by
  rw [cloned,lookup_map Json.reparse,h,Option.map_some,Json.reparse,Json.reparseMembers_eq]
  rfl

theorem Well.cloned (h : Well host r) : Well host (cloned r) where
  type := by
    have htype := h.type
    unfold isStr at htype
    split at htype
    next s hs =>
      rw [lookup_cloned_str hs]
      exact htype
    · cases htype
  texts f hf := by
    have htext := h.texts f hf
    unfold isText at htext
    split at htext
    next u s hs =>
      rw [lookup_cloned_str hs]
      rfl
    · cases htext
  date := by
    obtain ⟨s,hs,hdate⟩ := h.date
    exact ⟨s,lookup_cloned_str hs,hdate⟩
  blocks slot := by
    obtain ⟨ms,hms,hkeys⟩ := h.blocks slot
    refine ⟨_,lookup_cloned_obj hms,fun key hkey => ?_⟩
    obtain ⟨s,hs⟩ := hkeys key hkey
    exact ⟨s,lookup_cloned_str hs⟩

theorem block_cloned (h : Well host r) (slot : Slot) :
    block (cloned r) slot = cloned (block r slot) := by
  rw [block,lookup_cloned_obj (h.lookup_block slot)]

theorem successorView_eq (h : Well host r) :
    successorView r = .ok (setValues r fun _ => []) := by
  have hblank (slot : Slot) {r : Members} (h : Well host r) :
      blankValue raiseType slot.field r = .ok (setText r slot valueKey []) :=
    setField_eq h slot valueKey []
  rw [successorView]
  change (blankValue raiseType Slot.recovery.field r >>= fun c =>
    blankValue raiseType Slot.newKey.field c >>= blankValue raiseType Slot.domain.field) = _
  rw [hblank _ h,ok_bind,hblank _ (h.set _ _ _),ok_bind,hblank _ ((h.set _ _ _).set _ _ _)]
  rfl

/-- What all three passes sign of a record. -/
def inputOf (r : Members) : Bytes :=
  utf8 RecordKind.successorRecord.domain++
    Canonical.canonicalBytes (.obj (setValues (cloned r) fun _ => []))

theorem signingBytes_eq (h : Well host r) (hr : (Json.obj r).WF) :
    RecordKind.successorRecord.signingBytes r = .ok (inputOf r) := by
  have hblank : RecordKind.successorRecord.blanking.blank (cloned r) =
      .ok (setValues (cloned r) fun _ => []) := successorView_eq h.cloned
  rw [RecordKind.signingBytes_eq _ hr]
  change (RecordKind.successorRecord.blanking.blank (cloned r) >>= _) = _
  rw [hblank,ok_bind]
  rfl

theorem wf_block (h : Well host r) (hr : (Json.obj r).WF) (slot : Slot) :
    (Json.obj (block r slot)).WF := Json.wf_of_lookup hr (h.lookup_block slot)

/-- Two records have one signing input exactly when they agree outside the values. -/
theorem inputOf_eq_iff (hm : Well host m) (hn : Well host n) (wm : (Json.obj m).WF)
    (wn : (Json.obj n).WF) : inputOf m = inputOf n ↔ AgreeOutsideValues m n := by
  have wcm : (Json.obj (cloned m)).WF := wf_clone wm
  have wcn : (Json.obj (cloned n)).WF := wf_clone wn
  rw [inputOf,inputOf,List.append_cancel_left_eq,
    Canonical.canonicalBytes_inj (wf_setValues hm.cloned wcm _) (wf_setValues hn.cloned wcn _),
    Json.norm_obj_eq_iff (wf_setValues hm.cloned wcm _) (wf_setValues hn.cloned wcn _)]
  have hother (f : JsString) (hf : ∀ slot : Slot, f ≠ slot.field) :
      (lookup (setValues (cloned m) fun _ => []) f).map Json.norm =
          (lookup (setValues (cloned n) fun _ => []) f).map Json.norm ↔
        (lookup m f).map Json.norm = (lookup n f).map Json.norm := by
    rw [lookup_setValues_ne hf,lookup_setValues_ne hf,cloned,cloned,lookup_clone_norm,
      lookup_clone_norm]
  have hslot (slot : Slot) :
      (lookup (setValues (cloned m) fun _ => []) slot.field).map Json.norm =
          (lookup (setValues (cloned n) fun _ => []) slot.field).map Json.norm ↔
        ∀ key, key ≠ valueKey → (lookup (block m slot) key).map Json.norm =
          (lookup (block n slot) key).map Json.norm := by
    have hbm := hm.cloned.setValues fun _ => []
    have hbn := hn.cloned.setValues fun _ => []
    rw [hbm.lookup_block,hbn.lookup_block,Option.map_some,Option.map_some,Option.some.injEq,
      Json.norm_obj_eq_iff (wf_block hbm (wf_setValues hm.cloned wcm _) slot)
        (wf_block hbn (wf_setValues hn.cloned wcn _) slot)]
    refine forall_congr' fun key => ?_
    rw [block_setValues,block_setValues,block_cloned hm,block_cloned hn]
    by_cases hkey : key = valueKey
    · simp [hkey]
    · rw [lookup_assign_ne _ hkey,lookup_assign_ne _ hkey,cloned,cloned,lookup_clone_norm,
        lookup_clone_norm]
      simp [hkey]
  constructor
  · intro h
    exact ⟨fun f hf => (hother f hf).mp (h f),fun slot => (hslot slot).mp (h slot.field)⟩
  · intro h f
    by_cases hf : ∃ slot : Slot, f = slot.field
    · obtain ⟨slot,rfl⟩ := hf
      exact (hslot slot).mpr (h.blocks slot)
    · rw [not_exists] at hf
      exact (hother f hf).mpr (h.members f hf)

/-- The values of the signatures are not signed. -/
theorem inputOf_setValues (h : Well host r) (hr : (Json.obj r).WF) (values : Slot → JsString) :
    inputOf (setValues r values) = inputOf r := by
  rw [inputOf_eq_iff (h.setValues values) h (wf_setValues h hr values) hr]
  refine ⟨fun f hf => ?_,fun slot key hkey => ?_⟩
  · rw [lookup_setValues_ne hf]
  · rw [block_setValues,lookup_assign_ne _ hkey]

theorem inputOf_setText (h : Well host r) (hr : (Json.obj r).WF) (slot : Slot) (s : JsString) :
    inputOf (setText r slot valueKey s) = inputOf r := by
  have hset := setText_setValues h (fun slot => text r slot valueKey) slot s
  rw [setValues_text h] at hset
  rw [hset,inputOf_setValues h hr]

end Input
/-- The passes in an order, each with the key and the key id of its slot. -/
def signAll (C : Crypto) (host : Host) (seed : Slot → Bytes) (ids : Slot → JsString) :
    List Slot → Members → Js Members
  | [],r => .ok r
  | slot::order,r => do
    let p ← signOneOfThree C host r slot (seed slot) (ids slot)
    signAll C host seed ids order p.1

section Passes
variable {C : Crypto} {host : Host} {r m n : Members} {slot : Slot} {priv : Bytes}
variable {keyId : JsString} {seed pub : Slot → Bytes} {ids values : Slot → JsString}

/-- When a pass gives a record, and which. -/
theorem signOneOfThree_eq_ok (hr : (Json.obj r).WF) {p : Members × JsString} :
    signOneOfThree C host r slot priv keyId = .ok p ↔
      priv.length ≠ 0 ∧ keyId ≠ [] ∧ Well host r ∧ text r slot algorithmKey ≠ [] ∧
        text r slot keyIdKey = keyId ∧ ∃ sig, sign C priv (inputOf r) = .ok sig ∧
          p = (setText r slot valueKey (Base64.encode sig),Base64.encode sig) := by
  unfold signOneOfThree
  split_ifs with hpriv hid
  · exact iff_of_false nofun fun h => h.1 hpriv
  · exact iff_of_false nofun fun h => h.2.1 hid
  by_cases hw : Well host r
  · rw [validate_eq_ok.mpr ⟨hw,.inl rfl⟩,ok_bind,blockText_eq hw slot (by simp),ok_bind,
      blockText_eq hw slot (by simp),ok_bind]
    split_ifs with hprepared hown
    · refine iff_of_false nofun fun h => ?_
      obtain halg | hk := hprepared
      · exact h.2.2.2.1 halg
      · exact hid (h.2.2.2.2.1.symm.trans hk)
    · exact iff_of_false nofun fun h => hown h.2.2.2.2.1
    rw [setField_eq hw,ok_bind,signingBytes_eq (hw.set _ _ _) (wf_setText hw hr _ _ _),ok_bind,
      inputOf_setText hw hr,Semp.bind_eq_ok]
    rw [not_or] at hprepared
    constructor
    · rintro ⟨sig,hsig,h⟩
      rw [setField_eq (hw.set _ _ _),ok_bind,setText_setText] at h
      exact ⟨hpriv,hid,hw,hprepared.1,not_not.mp hown,sig,hsig,(Except.ok.inj h).symm⟩
    · rintro ⟨-,-,-,-,-,sig,hsig,rfl⟩
      exact ⟨sig,hsig,by rw [setField_eq (hw.set _ _ _),ok_bind,setText_setText]⟩
  · refine iff_of_false (fun h => ?_) fun h => hw h.2.2.1
    obtain ⟨u,hu,-⟩ := Semp.bind_eq_ok.mp h
    exact hw (validate_eq_ok.mp hu).1

/-- One value for each slot. -/
def Slot.pick (ofRecovery ofNewKey ofDomain : Bytes) : Slot → Bytes
  | recovery => ofRecovery
  | newKey => ofNewKey
  | domain => ofDomain

/-- What the verification of all three signatures says. -/
theorem verifySuccessorRecord_eq_ok (hr : (Json.obj r).WF) :
    verifySuccessorRecord C host r (pub .recovery) (pub .newKey) (pub .domain) = .ok true ↔
      Well host r ∧ ∀ slot, text r slot valueKey ≠ [] ∧
        verify C (pub slot) (Base64.decode (text r slot valueKey)) (inputOf r) = true := by
  unfold verifySuccessorRecord
  rw [Semp.bind_eq_ok]
  constructor
  · rintro ⟨u,hu,h⟩
    obtain ⟨hw,hfull⟩ := validate_eq_ok.mp hu
    have hfull := hfull.resolve_left nofun
    rw [blockText_eq hw .recovery (by simp),blockText_eq hw .newKey (by simp),
      blockText_eq hw .domain (by simp),ok_bind,ok_bind,ok_bind,
      if_neg (by simp [hfull]),signingBytes_eq hw hr,ok_bind,Except.ok.injEq,
      Bool.and_eq_true,Bool.and_eq_true] at h
    refine ⟨hw,fun slot => ⟨hfull slot,?_⟩⟩
    cases slot with
    | recovery => exact h.1.1
    | newKey => exact h.1.2
    | domain => exact h.2
  · rintro ⟨hw,h⟩
    refine ⟨(),validate_eq_ok.mpr ⟨hw,.inr fun slot => (h slot).1⟩,?_⟩
    rw [blockText_eq hw .recovery (by simp),blockText_eq hw .newKey (by simp),
      blockText_eq hw .domain (by simp),ok_bind,ok_bind,ok_bind,if_neg (by simp [(h _).1]),
      signingBytes_eq hw hr,ok_bind,(h .recovery).2,(h .newKey).2,(h .domain).2]
    rfl

/-- What the verification of the device-side signatures says. -/
theorem verifySuccessorTwoSignatures_eq_ok (hr : (Json.obj r).WF) {p q : Bytes} :
    verifySuccessorTwoSignatures C host r p q = .ok true ↔
      Well host r ∧ text r .recovery valueKey ≠ [] ∧ text r .newKey valueKey ≠ [] ∧
        text r .domain valueKey = [] ∧
        verify C p (Base64.decode (text r .recovery valueKey)) (inputOf r) = true ∧
        verify C q (Base64.decode (text r .newKey valueKey)) (inputOf r) = true := by
  unfold verifySuccessorTwoSignatures
  rw [Semp.bind_eq_ok]
  constructor
  · rintro ⟨u,hu,h⟩
    obtain ⟨hw,-⟩ := validate_eq_ok.mp hu
    rw [blockText_eq hw .recovery (by simp),blockText_eq hw .newKey (by simp),ok_bind,ok_bind] at h
    split_ifs at h with hblank
    · cases h
    rw [blockText_eq hw .domain (by simp),ok_bind] at h
    split_ifs at h with hdomain
    · cases h
    rw [signingBytes_eq hw hr,ok_bind,Except.ok.injEq,Bool.and_eq_true] at h
    rw [not_or] at hblank
    exact ⟨hw,hblank.1,hblank.2,not_not.mp hdomain,h.1,h.2⟩
  · rintro ⟨hw,hrec,hnew,hdomain,hv,hv'⟩
    refine ⟨(),validate_eq_ok.mpr ⟨hw,.inl rfl⟩,?_⟩
    rw [blockText_eq hw .recovery (by simp),blockText_eq hw .newKey (by simp),ok_bind,ok_bind,
      if_neg (by simp [hrec,hnew]),blockText_eq hw .domain (by simp),ok_bind,
      if_neg (by simp [hdomain]),signingBytes_eq hw hr,ok_bind,hv,hv']
    rfl

/-- What the signing input of a pass is: the value of its own block makes no difference. -/
theorem signingBytes_pass (h : Well host r) (hr : (Json.obj r).WF) {m : Members}
    (hm : setField slot.field valueKey [] r = .ok m) :
    RecordKind.successorRecord.signingBytes m = .ok (inputOf r) := by
  obtain rfl : setText r slot valueKey [] = m := Except.ok.inj ((setField_eq h ..).symm.trans hm)
  rw [signingBytes_eq (h.set _ _ _) (wf_setText h hr _ _ _),inputOf_setText h hr]

/-- One pass over a record of which some values are already there. -/
theorem signOneOfThree_setValues (laws : SignLaws C) (h : Well host r) (hr : (Json.obj r).WF)
    (halg : text r slot algorithmKey ≠ []) (hid : text r slot keyIdKey = ids slot)
    (hids : ids slot ≠ []) (hseed : (seed slot).length = 32) (values : Slot → JsString) :
    ∃ sig, sign C (seed slot) (inputOf r) = .ok sig ∧
      signOneOfThree C host (setValues r values) slot (seed slot) (ids slot) =
        .ok (setValues r (Function.update values slot (Base64.encode sig)),Base64.encode sig) := by
  obtain ⟨sig,hsig⟩ := sign_ok laws hseed (inputOf r)
  have hkey {key : JsString} (hne : key ≠ valueKey) :
      text (setValues r values) slot key = text r slot key := by
    rw [text_setValues,if_neg hne]
  refine ⟨sig,hsig,(signOneOfThree_eq_ok (wf_setValues h hr values)).mpr
    ⟨by omega,hids,h.setValues values,?_,?_,sig,?_,?_⟩⟩
  · rw [hkey (by decide)]
    exact halg
  · rw [hkey (by decide)]
    exact hid
  · rw [inputOf_setValues h hr]
    exact hsig
  · rw [setText_setValues h]

/-- The passes in an order, over a record of which some values are already there. -/
theorem signAll_setValues (laws : SignLaws C) (h : Well host r) (hr : (Json.obj r).WF)
    (halg : ∀ slot, text r slot algorithmKey ≠ []) (hid : ∀ slot, text r slot keyIdKey = ids slot)
    (hids : ∀ slot, ids slot ≠ []) (hseed : ∀ slot, (seed slot).length = 32)
    {sigs : Slot → Bytes} (hsigs : ∀ slot, sign C (seed slot) (inputOf r) = .ok (sigs slot))
    (order : List Slot) (values : Slot → JsString) :
    signAll C host seed ids order (setValues r values) =
      .ok (setValues r fun slot =>
        if slot ∈ order then Base64.encode (sigs slot) else values slot) := by
  induction order generalizing values with
  | nil => simp [signAll]
  | cons slot order ih =>
    obtain ⟨sig,hsig,hpass⟩ :=
      signOneOfThree_setValues laws h hr (halg slot) (hid slot) (hids slot) (hseed slot) values
    obtain rfl : sigs slot = sig := Except.ok.inj ((hsigs slot).symm.trans hsig)
    rw [signAll,hpass,ok_bind,ih]
    congr 2
    funext other
    by_cases ho : other = slot
    · subst ho
      simp
    · simp [ho]

end Passes
section Prepared
variable {C : Crypto} {host : Host} {r₀ r m : Members} {slot other : Slot} {key s : JsString}
variable {seed pub : Slot → Bytes} {ids : Slot → JsString}

/-- Every signature block is an object. -/
def HasObjects (r : Members) : Prop := ∀ slot : Slot, ∃ ms, lookup r slot.field = some (.obj ms)

theorem setField_eq_ok (h : setField slot.field key s r = .ok m) (hm : HasObjects m) :
    HasObjects r ∧ m = setText r slot key s := by
  unfold setField at h
  split at h
  · cases h
  next sig hsig =>
    cases sig with
    | obj ms =>
      obtain rfl : m = assign r slot.field (.obj (assign ms key (.str s))) :=
        (Except.ok.inj h).symm
      refine ⟨fun other => ?_,by rw [setText,block,hsig]⟩
      by_cases ho : other = slot
      · subst ho
        exact ⟨ms,hsig⟩
      · obtain ⟨ms',hms'⟩ := hm other
        rw [lookup_assign_ne _ fun heq => ho (Slot.field_injective heq)] at hms'
        exact ⟨ms',hms'⟩
    | arr vs =>
      obtain rfl : m = assign r slot.field (.arr vs) := (Except.ok.inj h).symm
      obtain ⟨ms,hms⟩ := hm slot
      rw [lookup_assign_self] at hms
      cases hms
    | null => cases h
    | bool b => cases h
    | num x => cases h
    | str t => cases h

/-- The three assignments to one block. -/
def setSlot (r : Members) (slot : Slot) (keyId : JsString) : Members :=
  setText (setText (setText r slot algorithmKey signatureAlgorithmEd25519) slot keyIdKey keyId)
    slot valueKey []

theorem prepareSlot_eq_ok {keyId : JsString} (h : prepareSlot slot keyId r = .ok m)
    (hm : HasObjects m) : HasObjects r ∧ m = setSlot r slot keyId := by
  obtain ⟨r₁,h₁,h⟩ := Semp.bind_eq_ok.mp h
  obtain ⟨r₂,h₂,h₃⟩ := Semp.bind_eq_ok.mp h
  obtain ⟨ho₂,rfl⟩ := setField_eq_ok h₃ hm
  obtain ⟨ho₁,rfl⟩ := setField_eq_ok h₂ ho₂
  obtain ⟨ho,rfl⟩ := setField_eq_ok h₁ ho₁
  exact ⟨ho,rfl⟩

theorem text_setSlot {keyId : JsString} :
    text (setSlot r slot keyId) slot algorithmKey = signatureAlgorithmEd25519 ∧
      text (setSlot r slot keyId) slot keyIdKey = keyId ∧
      text (setSlot r slot keyId) slot valueKey = [] := by
  refine ⟨?_,?_,text_setText_self⟩
  · rw [setSlot,text_setText_ne (.inr (by decide)),text_setText_ne (.inr (by decide)),
      text_setText_self]
  · rw [setSlot,text_setText_ne (.inr (by decide)),text_setText_self]

theorem text_setSlot_ne {keyId : JsString} (h : other ≠ slot) :
    text (setSlot r slot keyId) other key = text r other key := by
  rw [setSlot,text_setText_ne (.inl h),text_setText_ne (.inl h),text_setText_ne (.inl h)]

theorem lookup_setSlot_ne {f keyId : JsString} (h : f ≠ slot.field) :
    lookup (setSlot r slot keyId) f = lookup r f := by
  rw [setSlot,lookup_setText_ne h,lookup_setText_ne h,lookup_setText_ne h]

theorem prepareSuccessorSignatures_eq_ok {a b c : JsString}
    (h : prepareSuccessorSignatures r₀ a b c = .ok r) (hr : HasObjects r) :
    r = setSlot (setSlot (setSlot r₀ .recovery a) .newKey b) .domain c := by
  obtain ⟨r₁,h₁,h⟩ := Semp.bind_eq_ok.mp h
  obtain ⟨r₂,h₂,h₃⟩ := Semp.bind_eq_ok.mp h
  obtain ⟨ho₂,rfl⟩ := prepareSlot_eq_ok h₃ hr
  obtain ⟨ho₁,rfl⟩ := prepareSlot_eq_ok h₂ ho₂
  obtain ⟨-,rfl⟩ := prepareSlot_eq_ok h₁ ho₁
  rfl

/-- What the preparation leaves in the blocks. -/
theorem prepareSuccessorSignatures_text
    (h : prepareSuccessorSignatures r₀ (ids .recovery) (ids .newKey) (ids .domain) = .ok r)
    (hr : HasObjects r) (slot : Slot) :
    text r slot algorithmKey = signatureAlgorithmEd25519 ∧ text r slot keyIdKey = ids slot ∧
      text r slot valueKey = [] := by
  obtain rfl := prepareSuccessorSignatures_eq_ok h hr
  cases slot with
  | recovery =>
    simp only [text_setSlot_ne (show Slot.recovery ≠ .domain by decide),
      text_setSlot_ne (show Slot.recovery ≠ .newKey by decide)]
    exact text_setSlot
  | newKey =>
    simp only [text_setSlot_ne (show Slot.newKey ≠ .domain by decide)]
    exact text_setSlot
  | domain => exact text_setSlot

/-- The preparation touches nothing but the blocks. -/
theorem lookup_prepared {a b c f : JsString}
    (h : prepareSuccessorSignatures r₀ a b c = .ok r) (hr : HasObjects r)
    (hf : ∀ slot : Slot, f ≠ slot.field) : lookup r f = lookup r₀ f := by
  rw [prepareSuccessorSignatures_eq_ok h hr,lookup_setSlot_ne (hf _),lookup_setSlot_ne (hf _),
    lookup_setSlot_ne (hf _)]

theorem wf_setField (hr : (Json.obj r).WF) {field : JsString}
    (h : setField field key s r = .ok m) : (Json.obj m).WF := by
  unfold setField at h
  split at h
  · cases h
  next sig hsig =>
    have hwf := Json.wf_of_lookup hr hsig
    cases sig with
    | obj ms =>
      obtain rfl := Except.ok.inj h
      exact Json.wf_assign hr (Json.wf_assign hwf (Json.wf_str s) key) field
    | arr vs =>
      obtain rfl := Except.ok.inj h
      exact Json.wf_assign hr hwf field
    | null => cases h
    | bool b => cases h
    | num x => cases h
    | str t => cases h

theorem wf_prepareSlot {keyId : JsString} (hr : (Json.obj r).WF)
    (h : prepareSlot slot keyId r = .ok m) : (Json.obj m).WF := by
  obtain ⟨r₁,h₁,h⟩ := Semp.bind_eq_ok.mp h
  obtain ⟨r₂,h₂,h₃⟩ := Semp.bind_eq_ok.mp h
  exact wf_setField (wf_setField (wf_setField hr h₁) h₂) h₃

theorem wf_prepared {a b c : JsString} (hr : (Json.obj r₀).WF)
    (h : prepareSuccessorSignatures r₀ a b c = .ok r) : (Json.obj r).WF := by
  obtain ⟨r₁,h₁,h⟩ := Semp.bind_eq_ok.mp h
  obtain ⟨r₂,h₂,h₃⟩ := Semp.bind_eq_ok.mp h
  exact wf_prepareSlot (wf_prepareSlot (wf_prepareSlot hr h₁) h₂) h₃

theorem Well.hasObjects (h : Well host r) : HasObjects r := fun slot => ⟨_,h.lookup_block slot⟩

/-- For a prepared record and matching keys, the three passes give one record in whichever
order they are made, and all three signatures of it verify.  A record of which the device-side
signatures verify is complete after the domain pass.  And what a pass signs tells everything
in the record but the values of the signatures. -/
theorem passes_commute (laws : SignLaws C)
    (hprepared : prepareSuccessorSignatures r₀ (ids .recovery) (ids .newKey) (ids .domain) =
      .ok r)
    (hvalid : validateSuccessorRecord host r true = .ok ()) (hr : (Json.obj r).WF)
    (hids : ∀ slot, ids slot ≠ [])
    (hpub : ∀ slot, publicKeyFromSeed C (seed slot) = .ok (pub slot)) :
    (∃ final, (∀ order, order.Perm slots → signAll C host seed ids order r = .ok final) ∧
      verifySuccessorRecord C host final (pub .recovery) (pub .newKey) (pub .domain) =
        .ok true) ∧
    (∀ r' recoveryVerifyPub newKeyPub, (Json.obj r').WF →
      verifySuccessorTwoSignatures C host r' recoveryVerifyPub newKeyPub = .ok true →
      text r' .domain algorithmKey ≠ [] → text r' .domain keyIdKey = ids .domain →
      ∃ p, signSuccessorDomain C host r' (seed .domain) (ids .domain) = .ok p ∧
        verifySuccessorRecord C host p.1 recoveryVerifyPub newKeyPub (pub .domain) =
          .ok true) ∧
    ∀ m n m' n' (slot other : Slot), (Json.obj m).WF → (Json.obj n).WF →
      validateSuccessorRecord host m true = .ok () →
      validateSuccessorRecord host n true = .ok () →
      setField slot.field valueKey [] m = .ok m' → setField other.field valueKey [] n = .ok n' →
      (RecordKind.successorRecord.signingBytes m' = RecordKind.successorRecord.signingBytes n' ↔
        AgreeOutsideValues m n) := by
  have hw : Well host r := (validate_eq_ok.mp hvalid).1
  have htext := prepareSuccessorSignatures_text hprepared hw.hasObjects
  have halg (slot : Slot) : text r slot algorithmKey ≠ [] := by
    rw [(htext slot).1]
    decide
  have hseed (slot : Slot) : (seed slot).length = 32 :=
    (publicKeyFromSeed_eq_ok.mp (hpub slot)).1
  refine ⟨?_,fun r' p q hr' htwo halg' hid' => ?_,
    fun m n m' n' slot other hm hn hvm hvn hm' hn' => ?_⟩
  · choose sigs hsigs using fun slot => sign_ok laws (hseed slot) (inputOf r)
    refine ⟨setValues r fun slot => Base64.encode (sigs slot),fun order horder => ?_,?_⟩
    · have hall := signAll_setValues laws hw hr halg (fun slot => (htext slot).2.1) hids hseed
        hsigs order fun slot => text r slot valueKey
      rw [setValues_text hw] at hall
      rw [hall]
      congr 2
      funext slot
      rw [if_pos (horder.mem_iff.mpr (mem_slots slot))]
    · refine (verifySuccessorRecord_eq_ok (wf_setValues hw hr _)).mpr
        ⟨hw.setValues _,fun slot => ?_⟩
      rw [text_setValues,if_pos rfl,Base64.decode_encode,inputOf_setValues hw hr]
      exact ⟨encode_sign_ne_nil laws (hsigs slot),verify_sign laws (hpub slot) (hsigs slot)⟩
  · obtain ⟨hw',hrec,hnew,-,hvrec,hvnew⟩ := (verifySuccessorTwoSignatures_eq_ok hr').mp htwo
    obtain ⟨sig,hsig,hpass⟩ := signOneOfThree_setValues laws hw' hr' halg' hid'
      (hids .domain) (hseed .domain) fun slot => text r' slot valueKey
    rw [setValues_text hw'] at hpass
    have hpubs := @verifySuccessorRecord_eq_ok C host _ (Slot.pick p q (pub .domain))
      (wf_setValues hw' hr' (Function.update (fun slot => text r' slot valueKey) .domain
        (Base64.encode sig)))
    refine ⟨_,hpass,hpubs.mpr ⟨hw'.setValues _,fun slot => ?_⟩⟩
    rw [text_setValues,if_pos rfl,inputOf_setValues hw' hr']
    cases slot with
    | recovery => exact ⟨hrec,hvrec⟩
    | newKey => exact ⟨hnew,hvnew⟩
    | domain =>
      rw [Function.update_self,Base64.decode_encode]
      exact ⟨encode_sign_ne_nil laws hsig,verify_sign laws (hpub .domain) hsig⟩
  · have wm := (validate_eq_ok.mp hvm).1
    have wn := (validate_eq_ok.mp hvn).1
    rw [signingBytes_pass wm hm hm',signingBytes_pass wn hn hn',Except.ok.injEq]
    exact inputOf_eq_iff wm wn hm hn

end Prepared

def sampleBlock (keyId : JsString) : Json :=
  .obj [(algorithmKey,.str (js "ed25519")),(keyIdKey,.str keyId),(valueKey,.str [])]

def sampleRecord (recoveryKeyId newKeyId domainKeyId : JsString) : Members :=
  [(js "type",.str successorRecordType),(js "user_id",.str (js "alice@a.example")),
    (js "prior_key_id",.str (js "p")),(js "new_key_id",.str (js "n")),
    (js "new_public_key",.str (js "AA==")),
    (js "recovered_at",.str TransparencyLog.Log.sampleTime),
    (js "recovery_signature",sampleBlock recoveryKeyId),
    (js "new_key_signature",sampleBlock newKeyId),(js "domain_signature",sampleBlock domainKeyId)]

theorem wf_sampleBlock (keyId : JsString) : (sampleBlock keyId).WF :=
  Json.wf_obj.mpr ⟨by simp only [keys,List.map]; decide,by simp [Json.WF]⟩

theorem wf_sampleRecord (a b c : JsString) : (Json.obj (sampleRecord a b c)).WF := by
  refine Json.wf_obj.mpr ⟨by simp only [sampleRecord,keys,List.map]; decide,?_⟩
  simp [sampleRecord,wf_sampleBlock,Json.WF]

theorem passes_commute_sample :
    ∃ final, ∀ order, order.Perm slots →
      signAll Sample.crypto TransparencyLog.Log.sampleHost (fun _ => List.replicate 32 1)
        Slot.field order
        (sampleRecord Slot.recovery.field Slot.newKey.field Slot.domain.field) = .ok final := by
  have hprepared : prepareSuccessorSignatures (sampleRecord [] [] []) Slot.recovery.field
      Slot.newKey.field Slot.domain.field =
        .ok (sampleRecord Slot.recovery.field Slot.newKey.field Slot.domain.field) := rfl
  have hvalid : validateSuccessorRecord TransparencyLog.Log.sampleHost
      (sampleRecord Slot.recovery.field Slot.newKey.field Slot.domain.field) true = .ok () := rfl
  have hpub (slot : Slot) : publicKeyFromSeed Sample.crypto (List.replicate 32 1) =
      .ok (List.replicate 32 1) := publicKeyFromSeed_eq_ok.mpr ⟨by decide,rfl⟩
  obtain ⟨⟨final,h,-⟩,-⟩ := passes_commute Sample.laws.sig hprepared hvalid
    (wf_sampleRecord ..) (fun slot => by cases slot <;> decide) hpub
  exact ⟨final,h⟩

end Successor
end Semp
