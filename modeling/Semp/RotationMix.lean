import Semp.Compromise

/-! What the acceptance of a rotation does not say.  The three parts of a bundle are verified each
by itself, so that parts of different rotations of one prior key are accepted together. -/
namespace Semp
namespace Compromise
open TransparencyLog TransparencyLog.Log DeviceRecords Successor KeyRevocation

/-- The documents of a bundle, and the one key that is revoked. -/
structure Parts (c : CompromiseRotation) (dev suc entry : Members) : Prop where
  device : c.device_revocation = some dev
  successor : c.successor = some suc
  entry : ∃ prior, c.prior_identity_revocation = some prior ∧
    lookup prior (js "revoked_keys") = some (.arr [.obj entry])

/-- All parts speak of the same rotation. -/
structure Consistent (c : CompromiseRotation) (dev suc entry : Members) : Prop where
  prior_key_id : lookup entry (js "key_id") = lookup suc (js "prior_key_id")
  new_key_id : lookup suc (js "new_key_id") = some (.str c.new_identity_key_id)
  new_public_key : ∃ s, lookup suc (js "new_public_key") = some (.str s) ∧
    Base64.decode s = c.new_identity_public_key
  address : lookup entry (js "address") = lookup dev (js "user_id")
  user_id : lookup dev (js "user_id") = lookup suc (js "user_id")

/-- No two parts speak of the same rotation. -/
structure Unrelated (c : CompromiseRotation) (dev suc entry : Members) : Prop where
  prior_key_id : lookup entry (js "key_id") ≠ lookup suc (js "prior_key_id")
  new_key_id : lookup suc (js "new_key_id") ≠ some (.str c.new_identity_key_id)
  new_public_key : ∀ s, lookup suc (js "new_public_key") = some (.str s) →
    Base64.decode s ≠ c.new_identity_public_key
  address : lookup entry (js "address") ≠ lookup dev (js "user_id")
  address_successor : lookup entry (js "address") ≠ lookup suc (js "user_id")
  user_id : lookup dev (js "user_id") ≠ lookup suc (js "user_id")

/-- The device revocation of one bundle, the successor record of another and the revocation of a
third; the keys are not compared with anything but the key id. -/
def mix (c₁ c₂ c₃ : CompromiseRotation) (newIdentityPublicKey newEncryptionPublicKey : Bytes)
    (newEncryptionKeyId : JsString) : CompromiseRotation where
  device_revocation := c₁.device_revocation
  successor := c₂.successor
  new_identity_public_key := newIdentityPublicKey
  new_identity_key_id := c₃.new_identity_key_id
  new_encryption_public_key := newEncryptionPublicKey
  new_encryption_key_id := newEncryptionKeyId
  prior_identity_revocation := c₃.prior_identity_revocation

section Mixing
variable {C : Crypto} {host : Host} {rt : Runtime} {c c₁ c₂ c₃ : CompromiseRotation} {p q : Bytes}

/-- Parts of accepted bundles are accepted together. -/
theorem mix_accepted (h₁ : verifyCompromiseRotation C host rt c₁ p q = .ok ())
    (h₂ : verifyCompromiseRotation C host rt c₂ p q = .ok ())
    (h₃ : verifyCompromiseRotation C host rt c₃ p q = .ok ()) (newPublic encPublic : Bytes)
    (encId : JsString) :
    verifyCompromiseRotation C host rt (mix c₁ c₂ c₃ newPublic encPublic encId) p q = .ok () := by
  obtain ⟨dev,-,-,hdev,-,-,hdevice,-,-⟩ := verify_eq_ok.mp h₁
  obtain ⟨-,suc,-,-,hsuc,-,-,hsuccessor,-⟩ := verify_eq_ok.mp h₂
  obtain ⟨-,-,prior,-,-,hprior,-,-,hpart⟩ := verify_eq_ok.mp h₃
  exact verify_eq_ok.mpr ⟨dev,suc,prior,hdev,hsuc,hprior,hdevice,hsuccessor,hpart⟩

/-- To every accepted bundle there is an accepted one with another identity key. -/
theorem not_consistent_of_accepted (h : verifyCompromiseRotation C host rt c p q = .ok ()) :
    ∃ c' dev suc entry, verifyCompromiseRotation C host rt c' p q = .ok () ∧
      Parts c' dev suc entry ∧ ¬Consistent c' dev suc entry := by
  obtain ⟨dev,suc,prior,hdev,hsuc,hprior,-,-,-,entry,hentry,-,-⟩ := verify_eq_ok.mp h
  by_cases hkey : ∃ s, lookup suc (js "new_public_key") = some (.str s)
  · obtain ⟨s,hs⟩ := hkey
    refine ⟨mix c c c (0::Base64.decode s) [] [],dev,suc,entry,mix_accepted h h h _ _ _,
      ⟨hdev,hsuc,prior,hprior,hentry⟩,fun hc => ?_⟩
    obtain ⟨t,ht,hdecode⟩ := hc.new_public_key
    obtain rfl : s = t := Json.str.inj (Option.some.inj (hs.symm.trans ht))
    exact absurd (congrArg List.length hdecode) (by simp [mix])
  · exact ⟨c,dev,suc,entry,h,⟨hdev,hsuc,prior,hprior,hentry⟩,fun hc =>
      hkey (hc.new_public_key.imp fun s hs => hs.1)⟩

/-- Three users who rotate away from one prior key with one recovery key. -/
theorem unrelated_accepted (laws : SignLaws C) {now : Number} {isoNow : JsString}
    (hdate : Stamps host now isoNow) {priorSeed recoverySeed : Bytes}
    (hp : publicKeyFromSeed C priorSeed = .ok p) (hq : publicKeyFromSeed C recoverySeed = .ok q) :
    ∃ c dev suc entry, verifyCompromiseRotation C host rt c p q = .ok () ∧
      Parts c dev suc entry ∧ Unrelated c dev suc entry := by
  obtain ⟨pk,hpk,hlength⟩ := laws.publicKey_ok (List.replicate 32 0) (List.length_replicate ..)
  have hn : publicKeyFromSeed C (List.replicate 32 0) = .ok pk :=
    publicKeyFromSeed_eq_ok.mpr ⟨List.length_replicate ..,hpk⟩
  have hne : pk ≠ [] := by
    rintro rfl
    cases hlength
  let input := rotationOf priorSeed recoverySeed (List.replicate 32 0) pk now
  have hbuild (tag : JsString) : ∃ c, buildCompromiseRotation C host now (input tag) = .ok c :=
    build_ok laws (complete_rotationOf (publicKeyFromSeed_eq_ok.mp hp).1
      (publicKeyFromSeed_eq_ok.mp hq).1 (List.length_replicate ..) hne now tag) hdate
  have haccepted (tag : JsString) : ∃ dev suc prior isoNow,
      verifyCompromiseRotation C host rt ⟨some dev,some suc,pk,(input tag).newIdentityKeyId,
        [0],js "encryption",some prior⟩ p q = .ok () ∧
      lookup dev (js "user_id") = some (.str (input tag).userId) ∧
      HalfSigned C host (input tag) suc ∧
      lookup prior (js "revoked_keys") = some (.arr [.obj ((input tag).priorEntry isoNow)]) := by
    obtain ⟨c,hc⟩ := hbuild tag
    obtain ⟨dev,suc,prior,isoNow,-,hdev,hsuc,hprior,huser,hhalf,hentry⟩ := built rt laws hc hp hn hq
    exact ⟨dev,suc,prior,isoNow,verify_eq_ok.mpr ⟨dev,suc,prior,rfl,rfl,rfl,hdev,hsuc,hprior⟩,
      huser,hhalf,hentry⟩
  obtain ⟨dev,_,_,_,h₁,huser,-,-⟩ := haccepted (js "a")
  obtain ⟨_,suc,_,_,h₂,-,hhalf,-⟩ := haccepted (js "b")
  obtain ⟨_,_,prior,iso,h₃,-,-,hentry⟩ := haccepted (js "c")
  have hfield (f : JsString) (hf : ∀ slot : Slot, f ≠ slot.field) (hdate : f ≠ js "recovered_at") :
      lookup suc f = lookup ((input (js "b")).successor iso) f := hhalf.fields f hf iso hdate
  have hstr {a b : JsString} (h : a ≠ b) : some (Json.str a) ≠ some (.str b) :=
    fun heq => h (Json.str.inj (Option.some.inj heq))
  refine ⟨_,dev,suc,(input (js "c")).priorEntry iso,mix_accepted h₁ h₂ h₃ [] [] [],
    ⟨rfl,rfl,prior,rfl,hentry⟩,{
      prior_key_id := ?_
      new_key_id := ?_
      new_public_key := ?_
      address := ?_
      address_successor := ?_
      user_id := ?_ }⟩
  · rw [hfield _ (fun slot => by cases slot <;> decide) (by decide)]
    exact hstr (show js "prior-c" ≠ js "prior-b" by decide)
  · rw [hfield _ (fun slot => by cases slot <;> decide) (by decide)]
    exact hstr (show js "new-b" ≠ js "new-c" by decide)
  · intro s hs
    rw [hfield _ (fun slot => by cases slot <;> decide) (by decide)] at hs
    obtain rfl : Base64.encode pk = s := Json.str.inj (Option.some.inj hs)
    rw [Base64.decode_encode]
    exact hne
  · rw [huser]
    exact hstr (show js "user-c" ≠ js "user-a" by decide)
  · rw [hfield _ (fun slot => by cases slot <;> decide) (by decide)]
    exact hstr (show js "user-c" ≠ js "user-b" by decide)
  · rw [huser,hfield _ (fun slot => by cases slot <;> decide) (by decide)]
    exact hstr (show js "user-a" ≠ js "user-b" by decide)

/-- Verification does not make the parts consistent: under a pair of keys it does so only if no
bundle at all is accepted.  Parts of accepted bundles can be exchanged for one another, and for
every pair of keys with seeds there is an accepted bundle of which no two parts belong together. -/
theorem acceptance_not_consistent (laws : SignLaws C) {now : Number} {isoNow : JsString}
    (hdate : Stamps host now isoNow) :
    (∀ p q, (∀ c dev suc entry, verifyCompromiseRotation C host rt c p q = .ok () →
      Parts c dev suc entry → Consistent c dev suc entry) ↔
        ∀ c, verifyCompromiseRotation C host rt c p q ≠ .ok ()) ∧
    (∀ p q c₁ c₂ c₃ newPublic encPublic encId,
      verifyCompromiseRotation C host rt c₁ p q = .ok () →
      verifyCompromiseRotation C host rt c₂ p q = .ok () →
      verifyCompromiseRotation C host rt c₃ p q = .ok () →
      verifyCompromiseRotation C host rt (mix c₁ c₂ c₃ newPublic encPublic encId) p q = .ok ()) ∧
    ∀ p q priorSeed recoverySeed, publicKeyFromSeed C priorSeed = .ok p →
      publicKeyFromSeed C recoverySeed = .ok q →
      ∃ c dev suc entry, verifyCompromiseRotation C host rt c p q = .ok () ∧
        Parts c dev suc entry ∧ Unrelated c dev suc entry := by
  refine ⟨fun p q => ⟨fun hall c h => ?_,fun hnone c _ _ _ h => absurd h (hnone c)⟩,
    fun p q c₁ c₂ c₃ newPublic encPublic encId h₁ h₂ h₃ => mix_accepted h₁ h₂ h₃ _ _ _,
    fun p q _ _ hp hq => unrelated_accepted laws hdate hp hq⟩
  obtain ⟨c',dev,suc,entry,haccepted,hparts,hnot⟩ := not_consistent_of_accepted h
  exact hnot (hall c' dev suc entry haccepted hparts)

theorem acceptance_not_consistent_sample : ∃ c dev suc entry,
    verifyCompromiseRotation Sample.crypto sampleHost Sample.runtime c (List.replicate 32 1)
      (List.replicate 32 2) = .ok () ∧ Parts c dev suc entry ∧ Unrelated c dev suc entry :=
  (acceptance_not_consistent Sample.laws.sig (stamps_sample (.zero false))).2.2 _ _ _ _
    (sample_key 1) (sample_key 2)

/-- Three rotations of the sample keys, mixed. -/
theorem consistency_fails : ¬∀ c dev suc entry,
    verifyCompromiseRotation Sample.crypto sampleHost Sample.runtime c (List.replicate 32 1)
      (List.replicate 32 2) = .ok () → Parts c dev suc entry → Consistent c dev suc entry := by
  intro hclaim
  obtain ⟨c,dev,suc,entry,haccepted,hparts,hunrelated⟩ :=
    unrelated_accepted Sample.laws.sig (stamps_sample (.zero false)) (sample_key 1) (sample_key 2)
  exact hunrelated.prior_key_id (hclaim c dev suc entry haccepted hparts).prior_key_id

end Mixing
end Compromise
end Semp
