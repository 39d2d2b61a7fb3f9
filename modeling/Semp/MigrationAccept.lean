import Semp.MigrationOrchestrate

/-! When an accepted submission is one that the new provider built, and what a refused one
leaves behind. -/
namespace Semp
namespace Migration
open Handshake
open Lockout (InMemoryLockoutRegistry)
open TransparencyLog (isText signatureBlock signatureAlgorithmEd25519)
open DeviceRecords (requireTexts_eq_ok optionalProp)

section Checks
variable {C : Crypto} {rt : Runtime} {other : JsString → JsDate} {r r' : Members}
  {a : AcceptSubmissionInput}

theorem verifyMigrationPass_ofNat {i : ℕ} {field : SigField}
    (h : signatureFields[i]? = some field) (pub : Bytes) :
    verifyMigrationPass C rt r (.ofNat i) pub = verifySlot C rt r field pub := by
  have hi : i < signatureFields.length := (List.getElem?_eq_some_iff.mp h).1
  have hlen : signatureFields.length = 4 := rfl
  have hsmall : i < 2^53 := by omega
  rw [verifyMigrationPass,Number.isInteger_ofNat hsmall,Number.lt_ofNat hsmall (by norm_num),
    Number.lt_ofNat hsmall (by omega),Number.toRat_ofNat hsmall,Rat.num_natCast]
  simp only [Int.toNat_natCast,h]
  rw [if_neg (by simp [hi])]

theorem validateMigrationRecord_eq_ok : validateMigrationRecord other r = .ok () ↔
    lookup r (js "type") = some (.str migrationRecordType) ∧
    (∀ f ∈ recordTexts, isText (lookup r f) = true) ∧
    ∃ m, migratedMs other r = some m ∧
      (lookup r (js "mode") = some (.str (js "cooperative")) ∨
        lookup r (js "mode") = some (.str (js "unilateral"))) ∧
      (isCooperative r = true →
        requireWindow other m (lookup r (js "notice_window_until")) = .ok ()) ∧
      requireSlots r commonFields = .ok () ∧ requireOldDomain r = .ok () := by
  rw [validateMigrationRecord]
  constructor
  · intro h
    obtain ⟨_,htype,h⟩ := Semp.bind_eq_ok.mp h
    obtain ⟨_,htexts,h⟩ := Semp.bind_eq_ok.mp h
    obtain ⟨m,hm,h⟩ := Semp.bind_eq_ok.mp h
    obtain ⟨_,hmode,h⟩ := Semp.bind_eq_ok.mp h
    rw [require_eq_ok,isStr_iff] at htype
    rw [require_eq_ok,isStr_iff,isStr_iff] at hmode
    refine ⟨htype,requireTexts_eq_ok.mp htexts,m,need_eq_ok.mp hm,hmode,?_⟩
    split_ifs at h with hcoop
    · obtain ⟨_,hwindow,h⟩ := Semp.bind_eq_ok.mp h
      obtain ⟨_,hslots,hold⟩ := Semp.bind_eq_ok.mp h
      exact ⟨fun _ => hwindow,hslots,hold⟩
    · obtain ⟨_,hslots,hold⟩ := Semp.bind_eq_ok.mp h
      exact ⟨fun h => absurd h hcoop,hslots,hold⟩
  · rintro ⟨htype,htexts,m,hm,hmode,hwindow,hslots,hold⟩
    rw [← isStr_iff] at htype
    rw [← isStr_iff,← isStr_iff] at hmode
    rw [(require_eq_ok (u := ())).mpr htype,ok_bind,requireTexts_eq_ok.mpr htexts,ok_bind,
      need_eq_ok.mpr hm,ok_bind]
    dsimp only
    rw [(require_eq_ok (u := ())).mpr hmode,ok_bind,hslots,ok_bind]
    split_ifs with hcoop
    · rw [hwindow hcoop,ok_bind,hold]
    · exact hold

/-- What the checks of a submission are. -/
theorem checkSubmission_eq_ok : checkSubmission C rt other a r = .ok () ↔
    isCooperative r = true ∧ validateMigrationRecord other r = .ok () ∧
    ∃ newIdentityPub,
      base64Decode rt (lookup r (js "new_identity_public_key")) = .ok newIdentityPub ∧
      verifySlot C rt r .oldIdentitySignature a.oldIdentityPub = .ok true ∧
      verifySlot C rt r .newIdentitySignature newIdentityPub = .ok true ∧
      verifySlot C rt r .newDomainSignature a.newDomainPub = .ok true ∧
      checkMigratedAtBound other r a.oldIdentityCreated a.now a.clockSkewMs = .ok () ∧
      ∀ noticePolicy ∈ a.noticePolicy, noticePolicy r = .ok () := by
  rw [checkSubmission]
  simp only [verifyMigrationPass_ofNat (i := 0) rfl,verifyMigrationPass_ofNat (i := 1) rfl,
    verifyMigrationPass_ofNat (i := 2) rfl]
  constructor
  · intro h
    obtain ⟨_,hcoop,h⟩ := Semp.bind_eq_ok.mp h
    obtain ⟨_,hvalid,h⟩ := Semp.bind_eq_ok.mp h
    obtain ⟨pub,hpub,h⟩ := Semp.bind_eq_ok.mp h
    obtain ⟨b₁,h₁,h⟩ := Semp.bind_eq_ok.mp h
    obtain ⟨_,hb₁,h⟩ := Semp.bind_eq_ok.mp h
    obtain ⟨b₂,h₂,h⟩ := Semp.bind_eq_ok.mp h
    obtain ⟨_,hb₂,h⟩ := Semp.bind_eq_ok.mp h
    obtain ⟨b₃,h₃,h⟩ := Semp.bind_eq_ok.mp h
    obtain ⟨_,hb₃,h⟩ := Semp.bind_eq_ok.mp h
    obtain ⟨_,hbound,hhook⟩ := Semp.bind_eq_ok.mp h
    rw [require_eq_ok] at hcoop hb₁ hb₂ hb₃
    subst hb₁ hb₂ hb₃
    refine ⟨hcoop,hvalid,pub,hpub,h₁,h₂,h₃,hbound,fun noticePolicy hpolicy => ?_⟩
    rw [Option.mem_def.mp hpolicy] at hhook
    exact hhook
  · rintro ⟨hcoop,hvalid,pub,hpub,h₁,h₂,h₃,hbound,h⟩
    rw [(require_eq_ok (u := ())).mpr hcoop,ok_bind,hvalid,ok_bind,hpub,ok_bind,h₁,ok_bind,
      (require_eq_ok (u := ())).mpr rfl,ok_bind,h₂,ok_bind,(require_eq_ok (u := ())).mpr rfl,
      ok_bind,h₃,ok_bind,(require_eq_ok (u := ())).mpr rfl,ok_bind,hbound,ok_bind]
    cases hpolicy : a.noticePolicy with
    | none => rfl
    | some noticePolicy => exact h noticePolicy hpolicy

theorem someUnsigned_of_verified {fields : List SigField}
    (h : ∀ field ∈ fields, ∃ pub, verifySlot C rt r field pub = .ok true) :
    someUnsigned r fields = .ok false := by
  induction fields with
  | nil => rfl
  | cons field fields ih =>
    obtain ⟨pub,hpub⟩ := h field List.mem_cons_self
    obtain ⟨v,value,_,_,hl,hv,hne,-⟩ := of_verifySlot hpub
    have hempty : isStr value [] = false := Bool.eq_false_iff.mpr fun h => hne (isStr_iff.mp h)
    rw [someUnsigned,hl,hv,ok_bind,hempty]
    exact ih fun f hf => h f (List.mem_cons_of_mem _ hf)

/-- The slot of the old domain names the provider's key, which has the length of keys. -/
structure Countersignable (r : Members) (a : AcceptSubmissionInput) : Prop where
  slot : ∃ slot, lookup r SigField.oldDomainSignature.name = some (.obj slot) ∧
    lookup slot (js "algorithm") ≠ some (.str []) ∧
    lookup slot (js "key_id") = some (.str a.oldDomainKeyId)
  keyId : a.oldDomainKeyId ≠ []
  priv : a.oldDomainPriv.length = 32

/-- After the checks only the last pass itself can fail. -/
theorem signOldDomain_iff (h : checkSubmission C rt other a r = .ok ()) :
    signOldDomain C r a.oldDomainPriv a.oldDomainKeyId = .ok r' ↔
      signSlot C r .oldDomainSignature a.oldDomainPriv a.oldDomainKeyId = .ok r' := by
  obtain ⟨hcoop,hvalid,pub,-,h₁,h₂,h₃,-⟩ := checkSubmission_eq_ok.mp h
  obtain ⟨-,-,_,-,-,-,-,hold⟩ := validateMigrationRecord_eq_ok.mp hvalid
  rw [requireOldDomain,if_pos hcoop] at hold
  obtain ⟨_,hnull,-⟩ := Semp.bind_eq_ok.mp hold
  rw [require_eq_ok] at hnull
  have hverified : ∀ field ∈ commonFields, ∃ pub, verifySlot C rt r field pub = .ok true := by
    intro field hfield
    simp only [commonFields,List.mem_cons,List.not_mem_nil,or_false] at hfield
    obtain rfl | rfl | rfl := hfield
    · exact ⟨_,h₁⟩
    · exact ⟨_,h₂⟩
    · exact ⟨_,h₃⟩
  have hsigned := someUnsigned_of_verified hverified
  rw [signOldDomain,(require_eq_ok (u := ())).mpr hcoop,ok_bind,
    (require_eq_ok (u := ())).mpr hnull,ok_bind,hsigned,ok_bind,
    (require_eq_ok (u := ())).mpr rfl,ok_bind]

theorem exists_signSlot (laws : SignLaws C) (hr : (Json.obj r).WF) {field : SigField}
    {priv : Bytes} {keyId : JsString} (hpriv : priv.length = 32) {slot : Members}
    (hl : lookup r field.name = some (.obj slot))
    (halg : lookup slot (js "algorithm") ≠ some (.str []))
    (hkey : lookup slot (js "key_id") = some (.str keyId)) (hne : keyId ≠ []) :
    ∃ r', signSlot C r field priv keyId = .ok r' := by
  obtain ⟨view,hbytes,-⟩ := signingInput_eq field hr
  obtain ⟨sig,hsig⟩ := sign_ok laws hpriv (utf8 (js "SEMP-MIGRATION-RECORD:")++
    Canonical.canonicalBytes (.obj view))
  exact ⟨_,signSlot_eq_ok.mpr ⟨slot,_,sig,hl,halg,hkey,hne,hbytes,hsig,rfl⟩⟩

theorem countersigned_iff (laws : SignLaws C) (hr : (Json.obj r).WF)
    (h : checkSubmission C rt other a r = .ok ()) :
    (∃ r', signOldDomain C r a.oldDomainPriv a.oldDomainKeyId = .ok r') ↔ Countersignable r a := by
  simp only [signOldDomain_iff h]
  constructor
  · rintro ⟨_,hsign⟩
    obtain ⟨slot,_,_,hl,halg,hkey,hne,-,hsig,-⟩ := signSlot_eq_ok.mp hsign
    exact ⟨⟨slot,hl,halg,hkey⟩,hne,(sign_eq_ok.mp hsig).1⟩
  · rintro ⟨⟨slot,hl,halg,hkey⟩,hne,hlen⟩
    exact exists_signSlot laws hr hlen hl halg hkey hne

end Checks
section Atomic
variable {C : Crypto} {rt : Runtime} {lower : JsString → JsString} {other : JsString → JsDate}
  {S : Type} {putRecord : S → Members → Js S} {a : AcceptSubmissionInput} {p p₁ : Provider S}
  {r' : Members} {e : Thrown}

/-- A reservation for a valid record is one that is kept. -/
theorem reserveLockout_ne {r : Members} {l l' : InMemoryLockoutRegistry}
    (hcoop : isCooperative r = true) (hvalid : validateMigrationRecord other r = .ok ())
    (h : reserveLockout lower other r l = .ok l') : l' ≠ l := by
  obtain ⟨-,htexts,m,-,-,hwindow,-,-⟩ := validateMigrationRecord_eq_ok.mp hvalid
  have htext {f : JsString} (hf : f ∈ recordTexts) : ∃ s, lookup r f = some (.str s) := by
    have ht := htexts f hf
    revert ht
    rcases lookup r f with _ | (_ | _ | _ | s | _ | _) <;> simp [isText]
  obtain ⟨oldAddress,haddress⟩ := htext (f := js "old_address") (by simp [recordTexts])
  obtain ⟨recordId,hid⟩ := htext (f := js "record_id") (by simp [recordTexts])
  have hwindow := hwindow hcoop
  rw [requireWindow.eq_def] at hwindow
  split at hwindow
  · next u s hl =>
    split at hwindow
    · cases hwindow
    · next untilMs hparse =>
      rw [reserveLockout,hl,haddress,hid] at h
      dsimp only at h
      rw [hparse] at h
      dsimp only at h
      rw [InMemoryLockoutRegistry.reserve] at h
      split_ifs at h with hempty
      · cases h
      · cases hget : l.entries.get (lower (localpartOf oldAddress)) with
        | some existing => rw [hget] at h; cases h
        | none =>
          rw [hget] at h
          obtain ⟨text,-,h⟩ := Semp.bind_eq_ok.mp h
          obtain rfl := Except.ok.inj h
          rintro heq
          rw [← heq,JsMap.get_set_self] at hget
          cases hget
  · cases hwindow

/-- The registry is there and takes the reservation, or there is none. -/
def Reserves (lower : JsString → JsString) (other : JsString → JsDate) (p : Provider S) : Prop :=
  ∀ l ∈ p.lockout, ∃ l', reserveLockout lower other p.record l = .ok l'

/-- A lock is made or refused; it changes the registry alone. -/
theorem call_lock (lower : JsString → JsString) (other : JsString → JsDate) (p : Provider S) :
     (∃ p₁, (lock lower other).call p = (.ok (),p₁) ∧
      Reserves lower other p ∧ p₁.record = p.record ∧ p₁.store = p.store ∧
      (p.lockout = none → p₁ = p) ∧
      ∀ l ∈ p.lockout, ∃ l', reserveLockout lower other p.record l = .ok l' ∧
        p₁.lockout = some l') ∨
    (¬Reserves lower other p ∧ ∃ e, (lock lower other).call p = (.error e,p)) := by
  rw [lock,Method.get_bind]
  unfold Reserves
  cases hl : p.lockout with
  | none => exact .inl ⟨p,rfl,nofun,rfl,rfl,fun _ => rfl,nofun⟩
  | some l =>
    cases hres : reserveLockout lower other p.record l with
    | ok l' =>
      refine .inl ⟨{ p with lockout := some l' },?_,?_,rfl,rfl,nofun,?_⟩
      · simp only [hres,Method.call_bind,Method.call_lift,Method.call_modify]
      · rintro _ ⟨⟩
        exact ⟨l',hres⟩
      · rintro _ ⟨⟩
        exact ⟨l',hres,rfl⟩
    | error e =>
      refine .inr ⟨fun h => ?_,e,?_⟩
      · obtain ⟨l',hl'⟩ := h l rfl
        cases hres.symm.trans hl'
      · simp only [hres,Method.call_bind,Method.call_lift]

theorem call_countersign (p : Provider S) : (countersign C a).call p =
    match signOldDomain C p.record a.oldDomainPriv a.oldDomainKeyId with
    | .ok r => (.ok (),{ p with record := r })
    | .error e => (.error e,p) := by
  rw [countersign,Method.get_bind,Method.call_bind,Method.call_lift]
  cases signOldDomain C p.record a.oldDomainPriv a.oldDomainKeyId <;> rfl

theorem call_publish (putRecord : S → Members → Js S) (p : Provider S) :
    (p.store = none ∧ (publish putRecord).call p = (.ok p.record,p)) ∨
    (∃ s s', p.store = some s ∧ putRecord s p.record = .ok s' ∧
      (publish putRecord).call p = (.ok p.record,{ p with store := some s' })) ∨
    ∃ s e, p.store = some s ∧ putRecord s p.record = .error e ∧
      (publish putRecord).call p = (.error e,p) := by
  rw [publish,Method.get_bind]
  cases hs : p.store with
  | none => exact .inl ⟨rfl,rfl⟩
  | some s =>
    cases hput : putRecord s p.record with
    | ok s' =>
      refine .inr (.inl ⟨s,s',rfl,hput,?_⟩)
      simp only [hput,Method.call_bind,Method.call_lift,Method.call_modify,Method.call_pure]
    | error e =>
      refine .inr (.inr ⟨s,e,rfl,hput,?_⟩)
      simp only [hput,Method.call_bind,Method.call_lift]

/-- Nothing fails once the local part is locked, or nothing was changed. -/
structure Finishes (C : Crypto) (putRecord : S → Members → Js S) (a : AcceptSubmissionInput)
    (p : Provider S) : Prop where
  countersigned : p.lockout ≠ none → Countersignable p.record a
  stored : ∀ s ∈ p.store, ∀ r', signOldDomain C p.record a.oldDomainPriv a.oldDomainKeyId = .ok r' →
    (∃ s', putRecord s r' = .ok s') ∨ (p.lockout = none ∧ r' = p.record)

/-- A submission that has been checked and whose local part is locked. -/
theorem call_accept (putRecord : S → Members → Js S)
    (hcheck : checkSubmission C rt other a p.record = .ok ())
    (hlock : (lock lower other).call p = (.ok (),p₁)) (hrec : p₁.record = p.record) :
    (acceptSubmission C rt lower other putRecord a).call p =
      match signOldDomain C p.record a.oldDomainPriv a.oldDomainKeyId with
      | .ok r' => (publish putRecord).call { p₁ with record := r' }
      | .error e => (.error e,p₁) := by
  rw [acceptSubmission,Method.get_bind,Method.bind_of_ok (a := ()) (by
    rw [Method.call_lift,hcheck]),Method.bind_of_ok hlock,Method.call_bind,call_countersign,hrec]
  cases signOldDomain C p.record a.oldDomainPriv a.oldDomainKeyId <;> rfl

theorem finishes_of_atomic (laws : SignLaws C) (hr : (Json.obj p.record).WF)
    (hatomic : Method.Atomic (acceptSubmission C rt lower other putRecord a) p)
    (hcheck : checkSubmission C rt other a p.record = .ok ()) (hres : Reserves lower other p) :
    Finishes C putRecord a p := by
  obtain ⟨p₁,hlock,-,hrec,hstore,-,hsome⟩ | ⟨hno,-⟩ := call_lock lower other p
  swap
  · exact absurd hres hno
  obtain ⟨hcoop,hvalid,-⟩ := checkSubmission_eq_ok.mp hcheck
  -- What the lock changed stays changed.
  have hnone (h : p₁.lockout = p.lockout) : p.lockout = none := by
    by_contra hne
    obtain ⟨l,hl⟩ := Option.ne_none_iff_exists'.mp hne
    obtain ⟨l',hl',hp₁⟩ := hsome l hl
    rw [hp₁,hl] at h
    exact reserveLockout_ne hcoop hvalid hl' (Option.some.inj h)
  have hcall := call_accept (C := C) (a := a) putRecord hcheck hlock hrec
  refine ⟨fun hne => ?_,fun s hs r' hsign => ?_⟩
  · by_contra hnot
    cases hsign : signOldDomain C p.record a.oldDomainPriv a.oldDomainKeyId with
    | ok r' => exact hnot ((countersigned_iff laws hr hcheck).mp ⟨r',hsign⟩)
    | error e =>
      rw [hsign] at hcall
      exact hne (hnone (congrArg Provider.lockout (hatomic _ _ hcall)))
  · rw [hsign] at hcall
    obtain ⟨hempty,-⟩ | ⟨s₁,s',hs₁,hput,-⟩ | ⟨s₁,e,hs₁,-,hpub⟩ :=
      call_publish putRecord { p₁ with record := r' }
    · cases (hstore.symm.trans hempty).symm.trans hs
    · obtain rfl := Option.some.inj ((hstore.symm.trans hs₁).symm.trans hs)
      exact .inl ⟨s',hput⟩
    · have hsame := hatomic _ _ (hcall.trans hpub)
      have hlockout : p₁.lockout = p.lockout := by rw [← hsame]
      exact .inr ⟨hnone hlockout,congrArg Provider.record hsame⟩

theorem atomic_of_finishes (laws : SignLaws C) (hr : (Json.obj p.record).WF)
    (hfin : checkSubmission C rt other a p.record = .ok () → Reserves lower other p →
      Finishes C putRecord a p) :
    Method.Atomic (acceptSubmission C rt lower other putRecord a) p := by
  intro e s' he
  cases hcheck : checkSubmission C rt other a p.record with
  | error e' =>
    rw [acceptSubmission,Method.get_bind,Method.call_bind,Method.call_lift,hcheck] at he
    exact (Prod.mk.inj he).2.symm
  | ok u =>
    obtain ⟨p₁,hlock,hres,hrec,hstore,hkeep,-⟩ | ⟨-,e',hlock⟩ := call_lock lower other p
    · obtain ⟨hcounter,hstored⟩ := hfin hcheck hres
      rw [call_accept putRecord hcheck hlock hrec] at he
      cases hsign : signOldDomain C p.record a.oldDomainPriv a.oldDomainKeyId with
      | error e' =>
        rw [hsign] at he
        have hl : p.lockout = none := by
          by_contra hne
          obtain ⟨r',hr'⟩ := (countersigned_iff laws hr hcheck).mpr (hcounter hne)
          cases hsign.symm.trans hr'
        rw [hkeep hl] at he
        exact (Prod.mk.inj he).2.symm
      | ok r' =>
        rw [hsign] at he
        obtain ⟨-,hpub⟩ | ⟨_,_,-,-,hpub⟩ | ⟨s₁,e₁,hs₁,hput,hpub⟩ :=
          call_publish putRecord { p₁ with record := r' }
        · cases hpub.symm.trans he
        · cases hpub.symm.trans he
        · obtain ⟨s₂,hs₂⟩ | ⟨hl,rfl⟩ := hstored s₁ (hstore.symm.trans hs₁) r' hsign
          · cases hput.symm.trans hs₂
          · rw [← (Prod.mk.inj (hpub.symm.trans he)).2,hkeep hl]
    · rw [acceptSubmission,Method.get_bind,Method.bind_of_ok (a := ()) (by
        rw [Method.call_lift,hcheck]),Method.call_bind,hlock] at he
      exact (Prod.mk.inj he).2.symm

/-- A refused submission leaves the registry, the store and the record as they were, if and
only if a submission that passes the checks, and whose local part can be locked, is one that
can be countersigned and stored. -/
theorem acceptSubmission_atomic_iff (laws : SignLaws C) (rt : Runtime)
    (lower : JsString → JsString) (other : JsString → JsDate) (putRecord : S → Members → Js S)
    (a : AcceptSubmissionInput) (p : Provider S) (hr : (Json.obj p.record).WF) :
    Method.Atomic (acceptSubmission C rt lower other putRecord a) p ↔
      (checkSubmission C rt other a p.record = .ok () → Reserves lower other p →
        Finishes C putRecord a p) :=
  ⟨finishes_of_atomic laws hr,atomic_of_finishes laws hr⟩

end Atomic

section Built
variable {C : Crypto} {rt : Runtime} {lower : JsString → JsString} {other : JsString → JsDate}
  {input : BuildSubmissionInput} {nowMs : ℕ} {random : Bytes} {r : Members}

theorem ulidDigits_length (n u : ℕ) : (ulidDigits n u).length = n := by
  induction n generalizing u with
  | zero => rfl
  | succ n ih =>
    have hlt : u%32 < ulidAlphabet.length := Nat.mod_lt _ (by decide)
    rw [ulidDigits,List.length_append,ih,List.getElem?_eq_getElem hlt]
    rfl

theorem newRecordID_ne_nil (nowMs : ℕ) (random : Bytes) : newRecordID nowMs random ≠ [] := by
  intro h
  have hlen := congrArg List.length h
  rw [newRecordID,List.length_append,ulidDigits_length] at hlen
  simp at hlen

/-- The texts of a submission in cooperative mode that was built, and the times of its
window, which ends at `t` before it is cut to the second. -/
structure Built (C : Crypto) (other : JsString → JsDate) (input : BuildSubmissionInput)
    (nowMs : ℕ) (random : Bytes) (m t : ℤ) (oldDomainKeyId : JsString) (r : Members) : Prop where
  texts : input.oldAddress ≠ [] ∧ input.newAddress ≠ [] ∧ input.oldIdentityKeyId ≠ [] ∧
    input.newIdentityKeyId ≠ [] ∧ input.newIdentityPublicKey ≠ [] ∧ input.newDomainKeyId ≠ [] ∧
    input.migratedAt ≠ []
  migrated : JsDate.parseText other input.migratedAt = some m
  window : (Number.ofInt maxNoticeWindowMs).lt input.windowMs = false
  untilMs : JsDate.plus (some m) input.windowMs = some t
  keyId : input.oldDomainKeyId = some oldDomainKeyId ∧ oldDomainKeyId ≠ []
  wf : (Json.obj r).WF
  member : ∀ k, (∀ f, k ≠ SigField.name f) → lookup r k = lookup (unsignedRecord
    (input.recordId.getD (newRecordID nowMs random)) input.oldAddress input.newAddress
    input.oldIdentityKeyId input.newIdentityKeyId input.newIdentityPublicKey input.migratedAt
    (some (IsoDate.cutMillis (IsoDate.text t))) .cooperative) k
  oldIdentity : Carries C r .oldIdentitySignature input.oldIdentityPriv
  newIdentity : Carries C r .newIdentitySignature input.newIdentityPriv
  newDomain : Carries C r .newDomainSignature input.newDomainPriv
  slots : ∀ field ∈ commonFields, ∃ slot, lookup r field.name = some (.obj slot) ∧
    lookup slot (js "algorithm") = some (.str signatureAlgorithmEd25519) ∧
    ∃ keyId, lookup slot (js "key_id") = some (.str keyId) ∧ keyId ≠ []
  oldDomain : lookup r SigField.oldDomainSignature.name =
    some (signatureBlock signatureAlgorithmEd25519 oldDomainKeyId [])

/-- A pass keeps the algorithm and the key id of every slot. -/
theorem slot_signSlot {r₀ r₁ : Members} {field g : SigField} {priv : Bytes} {keyId : JsString}
    (h : signSlot C r₀ field priv keyId = .ok r₁) {slot : Members}
    (hl : lookup r₀ g.name = some (.obj slot)) : ∃ slot', lookup r₁ g.name = some (.obj slot') ∧
      ∀ k, k ≠ js "value" → lookup slot' k = lookup slot k := by
  by_cases hg : g.name = field.name
  · obtain ⟨s,_,sig,hs,-,-,-,-,-,rfl⟩ := signSlot_eq_ok.mp h
    rw [hg] at hl ⊢
    obtain rfl : slot = s := Json.obj.inj (Option.some.inj (hl.symm.trans hs))
    exact ⟨_,lookup_assign_self ..,fun k hk => lookup_assign_ne _ hk⟩
  · exact ⟨slot,(lookup_signSlot h hg).trans hl,fun _ _ => rfl⟩

theorem built_of_buildSubmission (hmode : input.mode = .cooperative)
    (h : buildSubmission C other nowMs random input = .ok r) :
    ∃ m t oldDomainKeyId, Built C other input nowMs random m t oldDomainKeyId r := by
  rw [buildSubmission] at h
  obtain ⟨_,haddr,h⟩ := Semp.bind_eq_ok.mp h
  obtain ⟨_,hids,h⟩ := Semp.bind_eq_ok.mp h
  obtain ⟨_,hpub,h⟩ := Semp.bind_eq_ok.mp h
  obtain ⟨_,hdom,h⟩ := Semp.bind_eq_ok.mp h
  obtain ⟨_,hmig,h⟩ := Semp.bind_eq_ok.mp h
  obtain ⟨noticeText,hnotice,h⟩ := Semp.bind_eq_ok.mp h
  obtain ⟨r₀,hprep,h⟩ := Semp.bind_eq_ok.mp h
  obtain ⟨r₁,h₁,h⟩ := Semp.bind_eq_ok.mp h
  obtain ⟨r₂,h₂,h₃⟩ := Semp.bind_eq_ok.mp h
  rw [require_eq_ok] at haddr hids hpub hdom hmig
  rw [noticeUntil,hmode] at hnotice
  dsimp only at hnotice
  obtain ⟨_,-,hnotice⟩ := Semp.bind_eq_ok.mp hnotice
  obtain ⟨_,hmax,hnotice⟩ := Semp.bind_eq_ok.mp hnotice
  obtain ⟨_,-,hnotice⟩ := Semp.bind_eq_ok.mp hnotice
  obtain ⟨m,hm,hnotice⟩ := Semp.bind_eq_ok.mp hnotice
  obtain ⟨text,htext,hnotice⟩ := Semp.bind_eq_ok.mp hnotice
  obtain rfl := Except.ok.inj hnotice
  obtain ⟨t,ht,rfl⟩ : ∃ t, JsDate.plus (some m) input.windowMs = some t ∧ text = IsoDate.text t := by
    cases ht : JsDate.plus (some m) input.windowMs with
    | none => rw [ht] at htext; cases htext
    | some t =>
      rw [ht] at htext
      exact ⟨t,rfl,(Except.ok.inj htext).symm⟩
  rw [hmode] at hprep
  obtain ⟨slot,hprep,hslot⟩ := prepareSignatures_eq_ok (unsignedRecord_wf ..) hprep
  rw [isCooperative_eq (show lookup _ (js "mode") = some (Json.str
    MigrationMode.cooperative.name) from rfl),if_pos (by decide)] at hslot
  obtain ⟨keyId,hkey,hne,rfl⟩ := hslot
  have hsub := submitted hprep.wf h₁ h₂ h₃
  refine ⟨m,t,keyId,⟨haddr.1,haddr.2,hids.1,hids.2,hpub,hdom,hmig⟩,need_eq_ok.mp hm,
    require_eq_ok.mp hmax,ht,⟨hkey,hne⟩,hsub.wf,fun k hk => ?_,hsub.oldIdentity,hsub.newIdentity,
    hsub.newDomain,?_,?_⟩
  · rw [hsub.others k (fun hmem => by
      obtain ⟨f,-,hf⟩ := List.mem_map.mp hmem
      exact hk f hf.symm),hprep.others k hk]
  · obtain ⟨_,-,h₂⟩ := Semp.bind_eq_ok.mp h₂
    obtain ⟨_,-,h₂⟩ := Semp.bind_eq_ok.mp h₂
    obtain ⟨_,-,h₃⟩ := Semp.bind_eq_ok.mp h₃
    obtain ⟨_,-,h₃⟩ := Semp.bind_eq_ok.mp h₃
    have hkeep {field : SigField} {keyId : JsString} (hid : keyId ≠ [])
        (hl : lookup r₀ field.name = some (signatureBlock signatureAlgorithmEd25519 keyId [])) :
        ∃ slot, lookup r field.name = some (.obj slot) ∧
          lookup slot (js "algorithm") = some (.str signatureAlgorithmEd25519) ∧
          ∃ keyId, lookup slot (js "key_id") = some (.str keyId) ∧ keyId ≠ [] := by
      obtain ⟨s₁,hs₁,hk₁⟩ := slot_signSlot h₁ hl
      obtain ⟨s₂,hs₂,hk₂⟩ := slot_signSlot h₂ hs₁
      obtain ⟨s₃,hs₃,hk₃⟩ := slot_signSlot h₃ hs₂
      refine ⟨s₃,hs₃,?_,keyId,?_,hid⟩
      · rw [hk₃ _ (by decide),hk₂ _ (by decide),hk₁ _ (by decide)]
        rfl
      · rw [hk₃ _ (by decide),hk₂ _ (by decide),hk₁ _ (by decide)]
        rfl
    intro field hfield
    simp only [commonFields,List.mem_cons,List.not_mem_nil,or_false] at hfield
    obtain rfl | rfl | rfl := hfield
    · exact hkeep hids.1 hprep.oldIdentity
    · exact hkeep hids.2 hprep.newIdentity
    · exact hkeep hdom hprep.newDomain
  · rw [hsub.others _ (by decide),hprep.oldDomain]

theorem abs_tdiv_le {q : ℚ} {n : ℤ} (h : |q| ≤ n) : |q.num.tdiv q.den| ≤ n := by
  obtain ⟨hlo,hhi⟩ := abs_le.mp h
  have hneg : (-q).num.tdiv (-q).den = -(q.num.tdiv q.den) := by
    rw [Rat.num_neg_eq_neg_num,Rat.den_neg_eq_den,Int.neg_tdiv]
  have hlow := JsDate.tdiv_le (q := -q) (n := n) (by linarith)
  have hup := JsDate.tdiv_le (q := q) (n := n) hhi
  exact abs_le.mpr ⟨by omega,hup⟩

theorem requireSlot_eq_ok {field : SigField} {slot : Members}
    (hl : lookup r field.name = some (.obj slot)) : requireSlot r field = .ok () ↔
      isText (lookup slot (js "algorithm")) = true ∧ isText (lookup slot (js "key_id")) = true ∧
        isString (lookup slot (js "value")) = true := by
  have hprop (k : JsString) : optionalProp (some (.obj slot)) k = .ok (lookup slot k) := rfl
  rw [requireSlot,hl]
  simp only [hprop,ok_bind,Semp.bind_eq_ok,require_eq_ok,exists_const]

theorem requireSlots_eq_ok {fields : List SigField} :
    requireSlots r fields = .ok () ↔ ∀ field ∈ fields, requireSlot r field = .ok () := by
  induction fields with
  | nil => simp [requireSlots]
  | cons field fields ih =>
    rw [requireSlots,List.forall_mem_cons,← ih,Semp.bind_eq_ok]
    constructor
    · rintro ⟨_,hfield,hfields⟩
      exact ⟨hfield,hfields⟩
    · rintro ⟨hfield,hfields⟩
      exact ⟨(),hfield,hfields⟩

namespace Built
variable {m t : ℤ} {keyId : JsString}

theorem cooperative (h : Built C other input nowMs random m t keyId r) :
    lookup r (js "mode") = some (.str (js "cooperative")) :=
  h.member _ fun f => by cases f <;> decide

theorem carries (h : Built C other input nowMs random m t keyId r) :
    ∀ field ∈ commonFields, ∃ seed, Carries C r field seed := by
  intro field hfield
  simp only [commonFields,List.mem_cons,List.not_mem_nil,or_false] at hfield
  obtain rfl | rfl | rfl := hfield
  · exact ⟨_,h.oldIdentity⟩
  · exact ⟨_,h.newIdentity⟩
  · exact ⟨_,h.newDomain⟩

theorem window_iff (hother : ∀ s t, other s = some t → |t| ≤ JsDate.maxTime)
    (h : Built C other input nowMs random m t keyId r) :
    requireWindow other m (some (.str (IsoDate.cutMillis (IsoDate.text t)))) = .ok () ↔
      minNoticeWindowMs ≤ t/1000*1000-m := by
  have hm := JsDate.parseText_range hother h.migrated
  have ht : |t| ≤ JsDate.maxTime := by
    obtain ⟨-,-,hle,rfl⟩ := JsDate.plus_eq_some hm h.untilMs
    exact abs_tdiv_le hle
  have hup : t ≤ m+maxNoticeWindowMs := by
    refine JsDate.plus_le hm ?_ (fun hfin => ?_) h.untilMs
    · simp only [JsDate.maxTime,maxNoticeWindowMs,abs_le] at hm ⊢
      omega
    · obtain ⟨hmax,hrat⟩ := Number.toRat_ofInt (z := maxNoticeWindowMs) (by decide)
      have hlt := h.window
      rw [Number.lt_fin hmax hfin,decide_eq_false_iff_not,hrat] at hlt
      exact not_lt.mp hlt
  obtain ⟨u,s,hus⟩ := List.exists_cons_of_ne_nil (IsoDate.cutMillis_ne_nil t)
  have hparse : JsDate.parseText other (u::s) = some (t/1000*1000) := by
    rw [← hus,JsDate.parseText,IsoDate.parse_cutMillis ht,Option.getD_some]
  have hsecond := JsDate.second_le t
  rw [hus,requireWindow,hparse]
  simp only [Semp.bind_eq_ok,require_eq_ok,exists_const,and_iff_left_iff_imp]
  intro _
  omega

/-- What is built is valid unless its id is empty or the cut end of its window is too early. -/
theorem valid_iff (hother : ∀ s t, other s = some t → |t| ≤ JsDate.maxTime)
    (h : Built C other input nowMs random m t keyId r) :
    validateMigrationRecord other r = .ok () ↔
      input.recordId ≠ some [] ∧ minNoticeWindowMs ≤ t/1000*1000-m := by
  have hid : input.recordId.getD (newRecordID nowMs random) ≠ [] ↔ input.recordId ≠ some [] := by
    cases input.recordId with
    | none => simpa using newRecordID_ne_nil nowMs random
    | some id => simp
  have hmember {k s : JsString} (hk : ∀ f, k ≠ SigField.name f)
      (hv : lookup (unsignedRecord (input.recordId.getD (newRecordID nowMs random))
        input.oldAddress input.newAddress input.oldIdentityKeyId input.newIdentityKeyId
        input.newIdentityPublicKey input.migratedAt (some (IsoDate.cutMillis (IsoDate.text t)))
        .cooperative) k = some (.str s)) : lookup r k = some (.str s) := (h.member k hk).trans hv
  have hcoop : isCooperative r = true := isStr_iff.mpr h.cooperative
  have htexts : (∀ f ∈ recordTexts, isText (lookup r f) = true) ↔ input.recordId ≠ some [] := by
    obtain ⟨h₁,h₂,h₃,h₄,h₅,-,h₆⟩ := h.texts
    rw [← hid]
    simp only [recordTexts,List.forall_mem_cons,List.not_mem_nil,false_implies,implies_true,
      and_true]
    rw [hmember (k := js "version") (fun f => by cases f <;> decide) rfl,
      hmember (k := js "record_id") (fun f => by cases f <;> decide) rfl,
      hmember (k := js "old_address") (fun f => by cases f <;> decide) rfl,
      hmember (k := js "new_address") (fun f => by cases f <;> decide) rfl,
      hmember (k := js "old_identity_key_id") (fun f => by cases f <;> decide) rfl,
      hmember (k := js "new_identity_key_id") (fun f => by cases f <;> decide) rfl,
      hmember (k := js "new_identity_public_key") (fun f => by cases f <;> decide) rfl,
      hmember (k := js "migrated_at") (fun f => by cases f <;> decide) rfl]
    simp only [DeviceRecords.isText_str]
    have hversion : migrationRecordVersion ≠ [] := by decide
    tauto
  have hmigrated : migratedMs other r = some m := by
    rw [migratedMs,hmember (k := js "migrated_at") (fun f => by cases f <;> decide) rfl]
    exact h.migrated
  have hslots : requireSlots r commonFields = .ok () := by
    refine requireSlots_eq_ok.mpr fun field hfield => ?_
    obtain ⟨slot,hl,halg,id,hkey,hne⟩ := h.slots field hfield
    obtain ⟨seed,slot',_,_,hl',hvalue,-⟩ := h.carries field hfield
    obtain rfl : slot = slot' := Json.obj.inj (Option.some.inj (hl.symm.trans hl'))
    refine (requireSlot_eq_ok hl).mpr ⟨?_,?_,?_⟩
    · rw [halg]
      exact DeviceRecords.isText_str.mpr (by decide)
    · rw [hkey]
      exact DeviceRecords.isText_str.mpr hne
    · rw [hvalue]
      rfl
  have hold : requireOldDomain r = .ok () := by
    rw [requireOldDomain,if_pos hcoop,h.oldDomain]
    rfl
  rw [validateMigrationRecord_eq_ok,htexts]
  constructor
  · rintro ⟨-,hne,m',hm',-,hwindow,-,-⟩
    obtain rfl := Option.some.inj (hmigrated.symm.trans hm')
    have hwindow := hwindow hcoop
    rw [hmember (k := js "notice_window_until") (fun f => by cases f <;> decide) rfl] at hwindow
    exact ⟨hne,(h.window_iff hother).mp hwindow⟩
  · rintro ⟨hne,hmin⟩
    refine ⟨hmember (fun f => by cases f <;> decide) rfl,hne,m,hmigrated,.inl h.cooperative,
      fun _ => ?_,hslots,hold⟩
    rw [hmember (k := js "notice_window_until") (fun f => by cases f <;> decide) rfl]
    exact (h.window_iff hother).mpr hmin

end Built

/-- The acceptor has the public keys of those who signed. -/
structure KnowsSigners (C : Crypto) (input : BuildSubmissionInput) (a : AcceptSubmissionInput) :
    Prop where
  oldIdentity : publicKeyFromSeed C input.oldIdentityPriv = .ok a.oldIdentityPub
  newIdentity : publicKeyFromSeed C input.newIdentityPriv =
    .ok (Base64.decode input.newIdentityPublicKey)
  newDomain : publicKeyFromSeed C input.newDomainPriv = .ok a.newDomainPub

/-- The keys of the acceptor are those of the builder, its own among them. -/
structure Matching (C : Crypto) (input : BuildSubmissionInput) (a : AcceptSubmissionInput)
    (oldDomainPub : Bytes) : Prop extends KnowsSigners C input a where
  oldDomain : publicKeyFromSeed C a.oldDomainPriv = .ok oldDomainPub
  keyId : input.oldDomainKeyId = some a.oldDomainKeyId

/-- The window is long enough when its end is cut to the second. -/
def WindowKept (other : JsString → JsDate) (input : BuildSubmissionInput) : Prop :=
  ∀ m t, JsDate.parseText other input.migratedAt = some m →
    JsDate.plus (some m) input.windowMs = some t → minNoticeWindowMs ≤ t/1000*1000-m

/-- The local part is not reserved. -/
def Free {S : Type} (lower : JsString → JsString) (input : BuildSubmissionInput) (p : Provider S) :
    Prop :=
  ∀ l ∈ p.lockout, l.entries.get (lower (localpartOf input.oldAddress)) = none

section Accepted
variable {S : Type} {putRecord : S → Members → Js S} {a : AcceptSubmissionInput} {p : Provider S}
  {m t : ℤ} {keyId : JsString} {oldDomainPub : Bytes}

namespace Built

theorem checked_iff (laws : SignLaws C) (h : Built C other input nowMs random m t keyId r)
    (hmatch : KnowsSigners C input a)
    (hbound : checkMigratedAtBound other r a.oldIdentityCreated a.now a.clockSkewMs = .ok ())
    (hpolicy : a.noticePolicy = none) :
    checkSubmission C rt other a r = .ok () ↔ validateMigrationRecord other r = .ok () := by
  rw [checkSubmission_eq_ok]
  constructor
  · rintro ⟨-,hvalid,-⟩
    exact hvalid
  · intro hvalid
    have hpub : lookup r (js "new_identity_public_key") = some (.str input.newIdentityPublicKey) :=
      h.member _ fun f => by cases f <;> decide
    refine ⟨isStr_iff.mpr h.cooperative,hvalid,_,by rw [hpub,base64Decode_str],
      verifySlot_carries laws rt h.oldIdentity hmatch.oldIdentity,
      verifySlot_carries laws rt h.newIdentity hmatch.newIdentity,
      verifySlot_carries laws rt h.newDomain hmatch.newDomain,hbound,?_⟩
    rw [hpolicy]
    nofun

theorem reserves_iff (hother : ∀ s t, other s = some t → |t| ≤ JsDate.maxTime)
    (h : Built C other input nowMs random m t keyId r) (hp : p.record = r)
    (hfree : Free lower input p) :
    Reserves lower other p ↔ (p.lockout ≠ none → localpartOf input.oldAddress ≠ []) := by
  have hm := JsDate.parseText_range hother h.migrated
  have ht : |t| ≤ JsDate.maxTime := by
    obtain ⟨-,-,hle,rfl⟩ := JsDate.plus_eq_some hm h.untilMs
    exact abs_tdiv_le hle
  have hsecond : |t/1000*1000| ≤ JsDate.maxTime := by
    simp only [JsDate.maxTime,abs_le] at ht ⊢
    omega
  have hnotice : lookup r (js "notice_window_until") =
      some (.str (IsoDate.cutMillis (IsoDate.text t))) := h.member _ fun f => by cases f <;> decide
  have haddr : lookup r (js "old_address") = some (.str input.oldAddress) :=
    h.member _ fun f => by cases f <;> decide
  have hid : lookup r (js "record_id") =
      some (.str (input.recordId.getD (newRecordID nowMs random))) :=
    h.member _ fun f => by cases f <;> decide
  have hparse : JsDate.parseText other (IsoDate.cutMillis (IsoDate.text t)) =
      some (t/1000*1000) := by rw [JsDate.parseText,IsoDate.parse_cutMillis ht,Option.getD_some]
  have hreserve {l : InMemoryLockoutRegistry} (hl : l ∈ p.lockout) :
      (∃ l', reserveLockout lower other p.record l = .ok l') ↔
        localpartOf input.oldAddress ≠ [] := by
    rw [hp,reserveLockout,hnotice,haddr,hid]
    dsimp only
    rw [hparse]
    dsimp only
    by_cases hne : localpartOf input.oldAddress = []
    · simp [InMemoryLockoutRegistry.reserve,hne,raise]
    · rw [Lockout.reserve_ok_iff hne (by
        rw [JsDate.ofTime,if_pos hsecond]
        exact Option.some_ne_none _)]
      simp only [hfree l hl,ne_eq,hne,not_false_eq_true]
  constructor
  · intro hres hne
    obtain ⟨l,hl⟩ := Option.ne_none_iff_exists'.mp hne
    exact (hreserve hl).mp (hres l hl)
  · intro hlocal l hl
    exact (hreserve hl).mpr (hlocal (by
      rw [Option.mem_def.mp hl]
      exact Option.some_ne_none _))

theorem bound (h : Built C other input nowMs random m t keyId r) {now : JsDate}
    {skew : Option Number}
    (hnow : (now.getTime.add (skew.getD (.ofNat (5*60*1000)))).lt (JsDate.getTime (some m)) =
      false) : checkMigratedAtBound other r none now skew = .ok () := by
  have hmember : lookup r (js "migrated_at") = some (.str input.migratedAt) :=
    h.member _ fun f => by cases f <;> decide
  have hms : migratedMs other r = some m := by
    rw [migratedMs,hmember]
    exact h.migrated
  rw [checkMigratedAtBound,hms,need_eq_ok.mpr rfl,ok_bind,hmember]
  exact (require_eq_ok (u := ())).mpr hnow

theorem countersignable (h : Built C other input nowMs random m t keyId r)
    (hmatch : Matching C input a oldDomainPub) : Countersignable r a := by
  have hkey : keyId = a.oldDomainKeyId := Option.some.inj (h.keyId.1.symm.trans hmatch.keyId)
  refine ⟨⟨_,h.oldDomain,?_,?_⟩,hkey ▸ h.keyId.2,(publicKeyFromSeed_eq_ok.mp hmatch.oldDomain).1⟩
  · intro halg
    have hempty : signatureAlgorithmEd25519 = [] := Json.str.inj (Option.some.inj halg)
    exact absurd hempty (by decide)
  · rw [← hkey]
    rfl

end Built

/-- Countersigning keeps a record valid. -/
theorem valid_countersigned {r' : Members} (hcoop : isCooperative r = true)
    (hvalid : validateMigrationRecord other r = .ok ()) {priv : Bytes} {keyId : JsString}
    (hsign : signSlot C r .oldDomainSignature priv keyId = .ok r') :
    validateMigrationRecord other r' = .ok () := by
  have hsame {k : JsString} (hk : k ≠ SigField.oldDomainSignature.name) :
      lookup r' k = lookup r k := lookup_signSlot hsign hk
  have hcoop' : isCooperative r' = true := by rwa [isCooperative,hsame (by decide)]
  obtain ⟨htype,htexts,m,hm,hmode,hwindow,hslots,-⟩ := validateMigrationRecord_eq_ok.mp hvalid
  refine validateMigrationRecord_eq_ok.mpr ⟨(hsame (by decide)).trans htype,fun f hf => ?_,m,?_,?_,
    fun _ => ?_,?_,?_⟩
  · have hne : f ≠ SigField.oldDomainSignature.name := by
      rintro rfl
      exact absurd hf (by decide)
    rw [hsame hne]
    exact htexts f hf
  · rwa [migratedMs,hsame (by decide)]
  · rwa [hsame (by decide)]
  · rw [hsame (by decide)]
    exact hwindow hcoop
  · refine requireSlots_eq_ok.mpr fun field hfield => ?_
    have hne : field.name ≠ SigField.oldDomainSignature.name := by
      revert hfield
      cases field <;> decide
    rw [requireSlot,hsame hne]
    exact requireSlots_eq_ok.mp hslots field hfield
  · obtain ⟨slot,_,sig,-,-,-,-,-,-,rfl⟩ := signSlot_eq_ok.mp hsign
    rw [requireOldDomain,if_pos hcoop',lookup_assign_self]
    simp [strictEq,isString,require]

theorem accepted_of_checked (laws : SignLaws C) (hr : (Json.obj p.record).WF)
    (hcheck : checkSubmission C rt other a p.record = .ok ()) (hres : Reserves lower other p)
    (hcounter : Countersignable p.record a)
    (hstore : ∀ s ∈ p.store, ∀ r', ∃ s', putRecord s r' = .ok s') :
    ∃ r' p', (acceptSubmission C rt lower other putRecord a).call p = (.ok r',p') ∧
      signSlot C p.record .oldDomainSignature a.oldDomainPriv a.oldDomainKeyId = .ok r' := by
  obtain ⟨r',hsign⟩ := (countersigned_iff laws hr hcheck).mpr hcounter
  obtain ⟨p₁,hlock,-,hrec,hst,-⟩ | ⟨hno,-⟩ := call_lock lower other p
  swap
  · exact absurd hres hno
  have hcall : (acceptSubmission C rt lower other putRecord a).call p =
      (publish putRecord).call { p₁ with record := r' } := by
    rw [call_accept putRecord hcheck hlock hrec,hsign]
  have hslot := (signOldDomain_iff hcheck).mp hsign
  obtain ⟨-,hpub⟩ | ⟨_,_,-,-,hpub⟩ | ⟨s₁,e₁,hs₁,hput,-⟩ :=
    call_publish putRecord { p₁ with record := r' }
  · exact ⟨_,_,hcall.trans hpub,hslot⟩
  · exact ⟨_,_,hcall.trans hpub,hslot⟩
  · obtain ⟨s',hs'⟩ := hstore s₁ (hst.symm.trans hs₁) r'
    cases hput.symm.trans hs'

theorem checked_of_accepted {result : Members} {p' : Provider S}
    (h : (acceptSubmission C rt lower other putRecord a).call p = (.ok result,p')) :
    checkSubmission C rt other a p.record = .ok () ∧ Reserves lower other p := by
  rw [acceptSubmission,Method.get_bind] at h
  obtain ⟨u,p₀,hlift,hrest⟩ := Method.bind_eq_ok.mp h
  obtain ⟨hc,hsame⟩ := Method.lift_eq_ok.mp hlift
  rw [hsame] at hrest
  obtain ⟨_,p₁,hlock,-⟩ := Method.bind_eq_ok.mp hrest
  obtain ⟨_,-,hres,-⟩ | ⟨-,e,he⟩ := call_lock lower other p
  · exact ⟨hc,hres⟩
  · cases he.symm.trans hlock

/-- A submission that was built in cooperative mode is accepted, and what is returned
verifies, if and only if its id is not empty, its window keeps its length when it is cut to
the second, and there is a local part to be locked. -/
theorem built_accepted_iff (laws : SignLaws C) (rt : Runtime) (lower : JsString → JsString)
    (other : JsString → JsDate) (hother : ∀ s t, other s = some t → |t| ≤ JsDate.maxTime)
    (putRecord : S → Members → Js S) (input : BuildSubmissionInput)
    (hmode : input.mode = .cooperative) (nowMs : ℕ) (random : Bytes) (r : Members)
    (hbuild : buildSubmission C other nowMs random input = .ok r) (a : AcceptSubmissionInput)
    (oldDomainPub : Bytes) (hmatch : Matching C input a oldDomainPub)
    (hbound : checkMigratedAtBound other r a.oldIdentityCreated a.now a.clockSkewMs = .ok ())
    (hpolicy : a.noticePolicy = none) (p : Provider S) (hp : p.record = r)
    (hfree : Free lower input p)
    (hstore : ∀ s ∈ p.store, ∀ r', ∃ s', putRecord s r' = .ok s') :
    (∃ r' p', (acceptSubmission C rt lower other putRecord a).call p = (.ok r',p') ∧
      verifyMigrationRecord C rt other r' a.oldIdentityPub
        (Base64.decode input.newIdentityPublicKey) a.newDomainPub (some oldDomainPub) = .ok true) ↔
    input.recordId ≠ some [] ∧ WindowKept other input ∧
      (p.lockout ≠ none → localpartOf input.oldAddress ≠ []) := by
  obtain ⟨m,t,keyId,h⟩ := built_of_buildSubmission hmode hbuild
  have hwindow : WindowKept other input ↔ minNoticeWindowMs ≤ t/1000*1000-m := by
    constructor
    · intro hw
      exact hw m t h.migrated h.untilMs
    · rintro hle m' t' hm' ht'
      obtain rfl := Option.some.inj (h.migrated.symm.trans hm')
      obtain rfl := Option.some.inj (h.untilMs.symm.trans ht')
      exact hle
  have hcheck : checkSubmission C rt other a r = .ok () ↔
      validateMigrationRecord other r = .ok () :=
    h.checked_iff laws hmatch.toKnowsSigners hbound hpolicy
  have hreserves := h.reserves_iff hother hp hfree
  rw [hwindow,← hreserves,← and_assoc,← h.valid_iff hother,← hcheck]
  subst hp
  constructor
  · rintro ⟨r',p',hcall,-⟩
    exact checked_of_accepted hcall
  · rintro ⟨hc,hres⟩
    obtain ⟨r',p',hcall,hsign⟩ := accepted_of_checked laws h.wf hc hres (h.countersignable hmatch)
      hstore
    refine ⟨r',p',hcall,?_⟩
    have hcoop : isCooperative p.record = true := isStr_iff.mpr h.cooperative
    have hmode' : lookup r' (js "mode") = some (.str MigrationMode.cooperative.name) :=
      (lookup_signSlot hsign (by decide)).trans h.cooperative
    exact verifyMigrationRecord_carries laws rt other
      (valid_countersigned hcoop (hcheck.mp hc) hsign) hmode'
      (h.oldIdentity.signSlot h.wf hsign (by decide))
      (h.newIdentity.signSlot h.wf hsign (by decide))
      (h.newDomain.signSlot h.wf hsign (by decide)) hmatch.oldIdentity hmatch.newIdentity
      hmatch.newDomain ⟨_,_,carries_signSlot h.wf hsign,hmatch.oldDomain,rfl⟩

theorem Carries.verified (laws : SignLaws C) (rt : Runtime) {field : SigField} {seed : Bytes}
    (h : Carries C r field seed) : ∃ pub, verifySlot C rt r field pub = .ok true := by
  have hcarries := h
  obtain ⟨_,_,_,-,-,-,hsig⟩ := hcarries
  obtain ⟨pk,hpk,-⟩ := laws.publicKey_ok seed (sign_eq_ok.mp hsig).1
  exact ⟨pk,verifySlot_carries laws rt h
    (publicKeyFromSeed_eq_ok.mpr ⟨(sign_eq_ok.mp hsig).1,hpk⟩)⟩

/-- A submission whose texts are not empty, whose window is in its bounds and whose seeds
have the length of seeds is built. -/
theorem exists_built (laws : SignLaws C) (hmode : input.mode = .cooperative)
    (htexts : input.oldAddress ≠ [] ∧ input.newAddress ≠ [] ∧ input.oldIdentityKeyId ≠ [] ∧
      input.newIdentityKeyId ≠ [] ∧ input.newIdentityPublicKey ≠ [] ∧ input.newDomainKeyId ≠ [] ∧
      input.migratedAt ≠ [])
    (hmigrated : JsDate.parseText other input.migratedAt = some m)
    (hmin : input.windowMs.lt (.ofInt minNoticeWindowMs) = false)
    (hmax : (Number.ofInt maxNoticeWindowMs).lt input.windowMs = false)
    (huntil : JsDate.plus (some m) input.windowMs = some t)
    (hkey : input.oldDomainKeyId = some keyId ∧ keyId ≠ [])
    (hseeds : input.oldIdentityPriv.length = 32 ∧ input.newIdentityPriv.length = 32 ∧
      input.newDomainPriv.length = 32) :
    ∃ r, buildSubmission C other nowMs random input = .ok r ∧
      Built C other input nowMs random m t keyId r := by
  obtain ⟨h₁,h₂,h₃,h₄,h₅,h₆,h₇⟩ := htexts
  have hnotice : noticeUntil other input = .ok (some (IsoDate.cutMillis (IsoDate.text t))) := by
    rw [noticeUntil,hmode]
    dsimp only
    rw [(require_eq_ok (u := ())).mpr hmin,ok_bind,(require_eq_ok (u := ())).mpr hmax,ok_bind,
      (require_eq_ok (u := ())).mpr ⟨by rw [hkey.1]; nofun,by simpa [hkey.1] using hkey.2⟩,ok_bind,
      hmigrated,need_eq_ok.mpr rfl,ok_bind,huntil]
    rfl
  obtain ⟨r₀,hprep⟩ : ∃ r₀, prepareSignatures (unsignedRecord
      (input.recordId.getD (newRecordID nowMs random)) input.oldAddress input.newAddress
      input.oldIdentityKeyId input.newIdentityKeyId input.newIdentityPublicKey input.migratedAt
      (some (IsoDate.cutMillis (IsoDate.text t))) input.mode) input.oldIdentityKeyId
      input.newIdentityKeyId input.newDomainKeyId input.oldDomainKeyId = .ok r₀ := by
    unfold prepareSignatures
    rw [hkey.1,hmode]
    obtain ⟨u,s,hus⟩ := List.exists_cons_of_ne_nil hkey.2
    rw [hus]
    exact ⟨_,rfl⟩
  obtain ⟨slot,hp,-⟩ := prepareSignatures_eq_ok (unsignedRecord_wf ..) hprep
  have halg : some (Json.str signatureAlgorithmEd25519) ≠ some (.str []) := by
    intro h
    have hempty : signatureAlgorithmEd25519 = [] := Json.str.inj (Option.some.inj h)
    exact absurd hempty (by decide)
  have hsigned {r : Members} {fields : List SigField}
      (h : ∀ field ∈ fields, ∃ seed, Carries C r field seed) : someUnsigned r fields = .ok false :=
    someUnsigned_of_verified fun field hf =>
      let ⟨_,hc⟩ := h field hf
      hc.verified laws Sample.runtime
  obtain ⟨r₁,hs₁⟩ := exists_signSlot laws hp.wf hseeds.1 hp.oldIdentity halg rfl h₃
  have hwf₁ := signSlot_wf hp.wf hs₁
  have hc₁ := carries_signSlot hp.wf hs₁
  obtain ⟨r₂,hs₂⟩ := exists_signSlot laws hwf₁ hseeds.2.1
    ((lookup_signSlot hs₁ (by decide)).trans hp.newIdentity) halg rfl h₄
  have hwf₂ := signSlot_wf hwf₁ hs₂
  have hc₂ := carries_signSlot hwf₁ hs₂
  obtain ⟨r₃,hs₃⟩ := exists_signSlot laws hwf₂ hseeds.2.2
    ((lookup_signSlot hs₂ (by decide)).trans
      ((lookup_signSlot hs₁ (by decide)).trans hp.newDomain)) halg rfl h₆
  have hfirst : someUnsigned r₁ [.oldIdentitySignature] = .ok false :=
    hsigned fun field hf => by
      obtain rfl := List.mem_singleton.mp hf
      exact ⟨_,hc₁⟩
  have hsecond : someUnsigned r₂ [.oldIdentitySignature,.newIdentitySignature] = .ok false :=
    hsigned fun field hf => by
      simp only [List.mem_cons,List.not_mem_nil,or_false] at hf
      obtain rfl | rfl := hf
      · exact ⟨_,hc₁.signSlot hwf₁ hs₂ (by decide)⟩
      · exact ⟨_,hc₂⟩
  have hbuild : buildSubmission C other nowMs random input = .ok r₃ := by
    rw [buildSubmission,(require_eq_ok (u := ())).mpr ⟨h₁,h₂⟩,ok_bind,
      (require_eq_ok (u := ())).mpr ⟨h₃,h₄⟩,ok_bind,(require_eq_ok (u := ())).mpr h₅,ok_bind,
      (require_eq_ok (u := ())).mpr h₆,ok_bind,(require_eq_ok (u := ())).mpr h₇,ok_bind,hnotice,
      ok_bind]
    dsimp only
    rw [hprep,ok_bind,signOldIdentity,hs₁,ok_bind,signNewIdentity,hfirst,ok_bind,
      (require_eq_ok (u := ())).mpr rfl,ok_bind,hs₂,ok_bind,signNewDomain,hsecond,ok_bind,
      (require_eq_ok (u := ())).mpr rfl,ok_bind,hs₃]
  obtain ⟨m',t',keyId',hb⟩ := built_of_buildSubmission hmode hbuild
  obtain rfl := Option.some.inj (hmigrated.symm.trans hb.migrated)
  obtain rfl := Option.some.inj (huntil.symm.trans hb.untilMs)
  obtain rfl := Option.some.inj (hkey.1.symm.trans hb.keyId.1)
  exact ⟨r₃,hbuild,hb⟩

end Accepted

end Built

/-! A submission with a window of 30 days, of a migration at a time with milliseconds or not. -/
def sampleSubmission (migratedAt : JsString) : BuildSubmissionInput where
  oldAddress := js "alice@a.example"
  newAddress := js "alice@b.example"
  oldIdentityKeyId := js "k1"
  newIdentityKeyId := js "k2"
  newIdentityPublicKey := Base64.encode (List.replicate 32 2)
  oldIdentityPriv := List.replicate 32 1
  newIdentityPriv := List.replicate 32 2
  newDomainKeyId := js "k3"
  newDomainPriv := List.replicate 32 3
  oldDomainKeyId := some (js "k4")
  mode := .cooperative
  noticeWindowMs := some (.ofInt minNoticeWindowMs)
  migratedAt := migratedAt
  recordId := some (js "m1")

def sampleAcceptance (oldDomainKeyId : JsString) : AcceptSubmissionInput where
  oldIdentityPub := List.replicate 32 1
  newDomainPub := List.replicate 32 3
  oldDomainPriv := List.replicate 32 4
  oldDomainKeyId := oldDomainKeyId
  now := some 1767225601000
  oldIdentityCreated := none
  clockSkewMs := none
  noticePolicy := none

def noHost : JsString → JsDate := fun _ => none

theorem noHost_range : ∀ s t, noHost s = some t → |t| ≤ JsDate.maxTime := by
  intro s t h
  cases h

def wholeSecond : JsString := js "2026-01-01T00:00:00Z"

def halfSecond : JsString := js "2026-01-01T00:00:00.500Z"

theorem sample_signers (migratedAt oldDomainKeyId : JsString) : KnowsSigners Sample.crypto
    (sampleSubmission migratedAt) (sampleAcceptance oldDomainKeyId) where
  oldIdentity := rfl
  newIdentity := by
    rw [sampleSubmission,Base64.decode_encode]
    rfl
  newDomain := rfl

theorem sample_matching (migratedAt : JsString) : Matching Sample.crypto
    (sampleSubmission migratedAt) (sampleAcceptance (js "k4")) (List.replicate 32 4) where
  toKnowsSigners := sample_signers ..
  oldDomain := rfl
  keyId := rfl

theorem wholeSecond_built : ∃ r, buildSubmission Sample.crypto noHost 0 []
    (sampleSubmission wholeSecond) = .ok r ∧ Built Sample.crypto noHost
      (sampleSubmission wholeSecond) 0 [] 1767225600000 (1767225600000+minNoticeWindowMs)
      (js "k4") r :=
  exists_built Sample.laws.sig rfl (by decide) (by decide +kernel) (by decide +kernel)
    (by decide +kernel) (by decide +kernel) ⟨rfl,by decide⟩ ⟨rfl,rfl,rfl⟩

theorem halfSecond_built : ∃ r, buildSubmission Sample.crypto noHost 0 []
    (sampleSubmission halfSecond) = .ok r ∧ Built Sample.crypto noHost
      (sampleSubmission halfSecond) 0 [] 1767225600500 (1767225600500+minNoticeWindowMs)
      (js "k4") r :=
  exists_built Sample.laws.sig rfl (by decide) (by decide +kernel) (by decide +kernel)
    (by decide +kernel) (by decide +kernel) ⟨rfl,by decide⟩ ⟨rfl,rfl,rfl⟩

theorem built_accepted_sample : ∃ r r' p', buildSubmission Sample.crypto noHost 0 []
      (sampleSubmission wholeSecond) = .ok r ∧
    (acceptSubmission Sample.crypto Sample.runtime id noHost (fun s _ => .ok s)
      (sampleAcceptance (js "k4"))).call (⟨r,some .empty,some ()⟩ : Provider Unit) = (.ok r',p') ∧
    verifyMigrationRecord Sample.crypto Sample.runtime noHost r' (List.replicate 32 1)
      (Base64.decode (Base64.encode (List.replicate 32 2))) (List.replicate 32 3)
      (some (List.replicate 32 4)) = .ok true := by
  obtain ⟨r,hr,hbuilt⟩ := wholeSecond_built
  have hwindow : WindowKept noHost (sampleSubmission wholeSecond) := by
    intro m t hm ht
    obtain rfl := Option.some.inj (hbuilt.migrated.symm.trans hm)
    obtain rfl := Option.some.inj (hbuilt.untilMs.symm.trans ht)
    decide
  obtain ⟨r',p',h⟩ := (built_accepted_iff Sample.laws.sig Sample.runtime id noHost noHost_range
    (fun s _ => .ok s) (sampleSubmission wholeSecond) rfl 0 [] r hr (sampleAcceptance (js "k4"))
    (List.replicate 32 4) (sample_matching _) (hbuilt.bound (by decide +kernel)) rfl
    ⟨r,some .empty,some ()⟩ rfl (by rintro l ⟨⟩; rfl) (fun s _ _ => ⟨s,rfl⟩)).mpr
    ⟨by decide,hwindow,fun _ => by decide⟩
  exact ⟨r,r',p',hr,h⟩

/-- Half a second is lost when the end of the window is cut. -/
theorem not_built_accepted : ¬∀ (C : Crypto) (_ : SignLaws C) (rt : Runtime)
    (lower : JsString → JsString) (other : JsString → JsDate) (putRecord : Unit → Members → Js Unit)
    (input : BuildSubmissionInput) (nowMs : ℕ) (random : Bytes) (r : Members)
    (a : AcceptSubmissionInput) (oldDomainPub : Bytes) (p : Provider Unit),
    (∀ s t, other s = some t → |t| ≤ JsDate.maxTime) → input.mode = .cooperative →
    buildSubmission C other nowMs random input = .ok r → Matching C input a oldDomainPub →
    checkMigratedAtBound other r a.oldIdentityCreated a.now a.clockSkewMs = .ok () →
    a.noticePolicy = none → p.record = r → Free lower input p →
    (∀ s ∈ p.store, ∀ r', ∃ s', putRecord s r' = .ok s') →
    ∃ r' p', (acceptSubmission C rt lower other putRecord a).call p = (.ok r',p') ∧
      verifyMigrationRecord C rt other r' a.oldIdentityPub
        (Base64.decode input.newIdentityPublicKey) a.newDomainPub (some oldDomainPub) = .ok true := by
  intro h
  obtain ⟨r,hr,hbuilt⟩ := halfSecond_built
  obtain ⟨r',p',hcall,-⟩ := h Sample.crypto Sample.laws.sig Sample.runtime id noHost
    (fun s _ => .ok s) (sampleSubmission halfSecond) 0 [] r (sampleAcceptance (js "k4"))
    (List.replicate 32 4) ⟨r,some .empty,some ()⟩ noHost_range rfl hr (sample_matching _)
    (hbuilt.bound (by decide +kernel)) rfl rfl (by rintro l ⟨⟩; rfl) (fun s _ _ => ⟨s,rfl⟩)
  obtain ⟨-,hvalid,-⟩ := checkSubmission_eq_ok.mp (checked_of_accepted hcall).1
  exact absurd ((hbuilt.valid_iff noHost_range).mp hvalid).2 (by decide)

theorem acceptSubmission_atomic_sample : ∃ r, buildSubmission Sample.crypto noHost 0 []
      (sampleSubmission wholeSecond) = .ok r ∧
    Method.Atomic (acceptSubmission Sample.crypto Sample.runtime id noHost (fun s _ => .ok s)
      (sampleAcceptance (js "k4"))) (⟨r,some .empty,some ()⟩ : Provider Unit) := by
  obtain ⟨r,hr,hbuilt⟩ := wholeSecond_built
  refine ⟨r,hr,(acceptSubmission_atomic_iff Sample.laws.sig Sample.runtime id noHost
    (fun s _ => .ok s) (sampleAcceptance (js "k4")) ⟨r,some .empty,some ()⟩ hbuilt.wf).mpr ?_⟩
  exact fun _ _ => ⟨fun _ => hbuilt.countersignable (sample_matching _),
    fun s _ r' _ => .inl ⟨s,rfl⟩⟩

/-- The local part stays locked when the record cannot be countersigned. -/
theorem not_atomic : ¬∀ (C : Crypto) (_ : SignLaws C) (rt : Runtime) (lower : JsString → JsString)
    (other : JsString → JsDate) (putRecord : Unit → Members → Js Unit) (a : AcceptSubmissionInput)
    (p : Provider Unit), (Json.obj p.record).WF →
      Method.Atomic (acceptSubmission C rt lower other putRecord a) p := by
  intro h
  obtain ⟨r,hr,hbuilt⟩ := wholeSecond_built
  have hvalid : validateMigrationRecord noHost r = .ok () :=
    (hbuilt.valid_iff noHost_range).mpr ⟨by decide,by decide⟩
  have hcheck : checkSubmission Sample.crypto Sample.runtime noHost (sampleAcceptance (js "k5")) r =
      .ok () := by
    have hbound : checkMigratedAtBound noHost r none (some 1767225601000) none = .ok () :=
      hbuilt.bound (by decide +kernel)
    exact (hbuilt.checked_iff Sample.laws.sig (sample_signers ..) hbound rfl).mpr hvalid
  have hres : Reserves id noHost (⟨r,some .empty,some ()⟩ : Provider Unit) :=
    (hbuilt.reserves_iff noHost_range rfl (by rintro l ⟨⟩; rfl)).mpr fun _ => by decide
  have hfin := finishes_of_atomic Sample.laws.sig hbuilt.wf (h Sample.crypto Sample.laws.sig
    Sample.runtime id noHost (fun s _ => .ok s) (sampleAcceptance (js "k5"))
    ⟨r,some .empty,some ()⟩ hbuilt.wf) hcheck hres
  obtain ⟨slot,hl,-,hkey⟩ := (hfin.countersigned nofun).slot
  have hslot := Json.obj.inj (Option.some.inj (hbuilt.oldDomain.symm.trans hl))
  rw [← hslot] at hkey
  have hid : js "k4" = js "k5" := Json.str.inj (Option.some.inj hkey)
  exact absurd hid (by decide)

end Migration
end Semp
