import Semp.SigningKinds
import Semp.Utf8Cuts

/-! Fields with a NUL between them: what the prefix of a first contact is the hash of, and what a
device signs to let another one in.  A field only has to be there; the same bytes belong to other
fields too where one has a NUL that can move, or units that the encoder replaces. -/
namespace Semp
open Handshake (require require_eq_ok)

namespace FirstContact

def firstContactBindingTag : JsString := js "SEMP-FIRST-CONTACT-V1:"
def firstContactFieldSep : UInt8 := 0
def firstContactBindingHashSize : ℕ := 32
def firstContactPrefixRandBytes : ℕ := 16

structure Contact where
  senderDomain : JsString
  recipientAddress : JsString
  postmarkId : JsString
deriving DecidableEq

def Contact.Complete (t : Contact) : Prop :=
  t.senderDomain ≠ [] ∧ t.recipientAddress ≠ [] ∧ t.postmarkId ≠ []
deriving Decidable

/-- The bytes that are hashed. -/
def Contact.bindingInput (t : Contact) : Bytes :=
  utf8 firstContactBindingTag++utf8 t.senderDomain++[firstContactFieldSep]++
    utf8 t.recipientAddress++[firstContactFieldSep]++utf8 t.postmarkId

/-- The loop over the wanted bytes, where a byte that is missing counts as zero. -/
def differences : Bytes → Bytes → UInt8 → UInt8
  | [],_,diff => diff
  | w::want,got,diff => differences want got.tail (diff ||| (w ^^^ got.headD 0))

section Code
variable (C : Crypto)

def firstContactBindingHash (t : Contact) : Bytes := (C.sha256 t.bindingInput).val

def computeFirstContactPrefix (t : Contact) (rand : ℕ → Js Bytes) : Js Bytes := do
  require t.Complete (js "handshake: first-contact prefix requires sender_domain, "++
    js "recipient_address, and postmark_id")
  let random ← rand firstContactPrefixRandBytes
  require (random.length = firstContactPrefixRandBytes)
    (js "handshake: first-contact random source returned wrong length")
  .ok (random++firstContactBindingHash C t)

def verifyFirstContactBinding (prefixBytes : Bytes) (t : Contact) : Bool :=
  if ¬t.Complete then false
  else if prefixBytes.length < firstContactPrefixRandBytes+firstContactBindingHashSize then false
  else
    let want := firstContactBindingHash C t
    let got := prefixBytes.drop (prefixBytes.length-firstContactBindingHashSize)
    differences want got 0 = 0

end Code

/-- The fields whose bytes no others have: the NULs cannot move and nothing is replaced. -/
def Contact.Unambiguous (t : Contact) : Prop :=
  0 ∉ t.senderDomain.tail ∧ (0 ∉ t.recipientAddress ∨ t.recipientAddress = [0]) ∧
    0 ∉ t.postmarkId.dropLast ∧
    ∀ s ∈ [t.senderDomain,t.recipientAddress,t.postmarkId],
      Utf8.isWellFormed s = true ∧ 0xFFFD ∉ s
deriving Decidable

theorem differences_eq {want got : Bytes} {diff : UInt8} (h : want.length = got.length) :
    differences want got diff =
      (List.zipWith (fun x y => x ^^^ y) want got).foldl (fun diff x => diff ||| x) diff := by
  induction want generalizing got diff with
  | nil => rfl
  | cons w want ih =>
    obtain ⟨g,got,rfl⟩ := List.exists_cons_of_length_eq_add_one h.symm
    exact ih (Nat.succ_inj.mp h)

theorem differences_eq_zero {want got : Bytes} (h : want.length = got.length) :
    differences want got 0 = 0 ↔ want = got := by
  rw [differences_eq h,foldl_or_eq_zero,zipWith_xor_eq_zero h]
  exact and_iff_right rfl

section Binding
variable {C : Crypto} {t t' : Contact} {rand : ℕ → Js Bytes} {prefixBytes : Bytes}

theorem computeFirstContactPrefix_eq_ok :
    computeFirstContactPrefix C t rand = .ok prefixBytes ↔ t.Complete ∧
      ∃ random, rand firstContactPrefixRandBytes = .ok random ∧
        random.length = firstContactPrefixRandBytes ∧
        prefixBytes = random++firstContactBindingHash C t := by
  simp only [computeFirstContactPrefix,bind_eq_ok,require_eq_ok,exists_const,Except.ok.injEq,
    @eq_comm _ _ prefixBytes]

/-- A prefix verifies for complete fields of the same hash. -/
theorem verifyFirstContactBinding_iff (h : computeFirstContactPrefix C t rand = .ok prefixBytes) :
    verifyFirstContactBinding C prefixBytes t' = true ↔
      t'.Complete ∧ firstContactBindingHash C t' = firstContactBindingHash C t := by
  obtain ⟨-,random,-,hlen,rfl⟩ := computeFirstContactPrefix_eq_ok.mp h
  have hhash (t : Contact) : (firstContactBindingHash C t).length = firstContactBindingHashSize :=
    (C.sha256 t.bindingInput).property
  have hsize : (random++firstContactBindingHash C t).length =
      firstContactPrefixRandBytes+firstContactBindingHashSize := by
    rw [List.length_append,hlen,hhash]
  rw [verifyFirstContactBinding]
  by_cases hc : t'.Complete
  · rw [if_neg (not_not.mpr hc),if_neg (by rw [hsize]; exact lt_irrefl _),hsize,
      Nat.add_sub_cancel,← hlen,List.drop_left]
    simp only [decide_eq_true_eq,differences_eq_zero ((hhash t').trans (hhash t).symm),hc,true_and]
  · rw [if_pos hc]
    simp [hc]

/-- The bytes without the tag, as fields and separators. -/
theorem bindingInput_eq (t : Contact) : t.bindingInput = utf8 firstContactBindingTag++
    Separator.join 0 ([t.senderDomain,t.recipientAddress].map Utf8.textEncode)
      (utf8 t.postmarkId) := by
  simp only [Contact.bindingInput,List.append_assoc,List.singleton_append]
  rfl

theorem bindingInput_iff (ht : t.Complete) :
    (∀ t' : Contact, t'.Complete → t'.bindingInput = t.bindingInput → t' = t) ↔
      t.Unambiguous := by
  obtain ⟨hsender,hrecipient,hpostmark⟩ := ht
  have hne {s : JsString} (hs : s ≠ []) : utf8 s ≠ [] ∧ Utf8.IsEncoded (utf8 s) :=
    ⟨fun h => hs (Utf8.textEncode_eq_nil.mp h),s,rfl⟩
  have htexts := Utf8.texts_iff (show ∀ s ∈ [t.senderDomain,t.recipientAddress], s ≠ [] by
    simp [hsender,hrecipient]) (hne hpostmark)
  have hunique := Separator.unique_iff Utf8.cuttable_text
    (show Separator.Fields _ _ ([t.senderDomain,t.recipientAddress].map Utf8.textEncode)
      (utf8 t.postmarkId) from ⟨by simpa using ⟨hne hsender,hne hrecipient⟩,hne hpostmark⟩)
  simp only [List.map_cons,List.map_nil,Separator.Firm] at hunique
  have hcond : t.Unambiguous ↔ (Separator.Unique 0 Utf8.IsEncoded Utf8.IsEncoded
        ([t.senderDomain,t.recipientAddress].map Utf8.textEncode) (utf8 t.postmarkId) ∧
      ∀ s ∈ [t.senderDomain,t.recipientAddress], Utf8.Faithful s) ∧
        Utf8.Faithful t.postmarkId := by
    rw [List.map_cons,List.map_cons,List.map_nil,hunique]
    simp only [Contact.Unambiguous,List.forall_mem_cons,← Utf8.start_iff,← Utf8.inner_iff,
      ← Utf8.end_iff,← Utf8.faithful_iff,utf8]
    constructor
    · rintro ⟨h1,h2,h3,h4,h5,h6,-⟩
      exact ⟨⟨⟨h1,h2,h3⟩,h4,h5,List.forall_mem_nil _⟩,h6⟩
    · rintro ⟨⟨⟨h1,h2,h3⟩,h4,h5,-⟩,h6⟩
      exact ⟨h1,h2,h3,h4,h5,h6,List.forall_mem_nil _⟩
  rw [hcond,← htexts]
  constructor
  · refine fun h => ⟨fun ts q hlen hts hq hW hjoin => ?_,fun s hs => ?_⟩
    · obtain ⟨a,b,rfl⟩ := List.length_eq_two.mp hlen
      obtain ⟨s,rfl⟩ := hW
      have heq := h ⟨a,b,s⟩ ⟨hts a (by simp),hts b (by simp),
        fun hs => hq (Utf8.textEncode_eq_nil.mpr hs)⟩ (by
          rw [bindingInput_eq,bindingInput_eq]
          exact congrArg _ hjoin)
      rw [← heq]
      exact ⟨rfl,rfl⟩
    · have heq := h {t with postmarkId := s} ⟨hsender,hrecipient,fun hnil => hpostmark
        (Utf8.textEncode_eq_nil.mp (by rw [← hs]; exact Utf8.textEncode_eq_nil.mpr hnil))⟩ (by
          rw [bindingInput_eq,bindingInput_eq]
          exact congrArg (fun p => _++Separator.join 0 _ p) hs)
      rw [← heq]
  · rintro ⟨h,hlast⟩ t' ⟨hs,hr,hp⟩ heq
    rw [bindingInput_eq,bindingInput_eq] at heq
    obtain ⟨hpair,hq⟩ := h [t'.senderDomain,t'.recipientAddress] (utf8 t'.postmarkId) rfl
      (by simp [hs,hr]) (hne hp).1 (hne hp).2 (List.append_cancel_left heq)
    obtain ⟨hsender,hpair⟩ := List.cons.inj hpair
    obtain ⟨sender,recipient,postmark⟩ := t'
    exact Contact.mk.injEq .. ▸ ⟨hsender,(List.cons.inj hpair).1,hlast _ hq⟩

end Binding

end FirstContact

namespace DeviceRecords

/-- What `signDeviceAuthorization` puts on a registration. -/
structure AuthorizationBlock where
  method : JsString
  authorizing_device_id : JsString
  authorizing_signature : KeysSignature

/-- The fields of the registration and the nonce that are signed. -/
def signDeviceAuthorization (C : Crypto) (a : DeviceAuthorization) (authorizingDeviceSeed : Bytes)
    (authorizingDeviceId authorizingDeviceKeyId method : JsString) : Js AuthorizationBlock := do
  require (a.enrollNonce ≠ []) (js "keys: empty enroll nonce")
  require (authorizingDeviceId ≠ []) (js "keys: empty authorizing_device_id")
  require (authorizingDeviceKeyId ≠ []) (js "keys: empty authorizing key_id")
  require (a.deviceId ≠ [] ∧ a.devicePublicKey ≠ [] ∧ a.enrolledAt ≠ [])
    (js "keys: device registration missing device_id / device_public_key / enrolled_at")
  let authBytes := a.authorizationCanonicalBytes
  let sig ← sign C authorizingDeviceSeed (utf8 deviceAuthorizeRecordPrefix++authBytes)
  .ok ⟨method,authorizingDeviceId,js "ed25519",authorizingDeviceKeyId,Base64.encode sig⟩

end DeviceRecords

namespace DeviceAuthorization
open DeviceRecords

def Complete (a : DeviceAuthorization) : Prop :=
  a.deviceId ≠ [] ∧ a.devicePublicKey ≠ [] ∧ a.enrolledAt ≠ [] ∧ a.enrollNonce ≠ []

/-- The fields whose bytes no others have.  A NUL of the nonce cannot move when the bytes before
it are no text. -/
def Unambiguous (a : DeviceAuthorization) : Prop :=
  0 ∉ a.deviceId.tail ∧ (∀ s ∈ [a.devicePublicKey,a.enrolledAt], 0 ∉ s ∨ s = [0]) ∧
    (∀ x y, a.enrollNonce = x++0::y → Utf8.IsEncoded x → y = []) ∧
    ∀ s ∈ [a.deviceId,a.devicePublicKey,a.enrolledAt], Utf8.isWellFormed s = true ∧ 0xFFFD ∉ s

variable {a : DeviceAuthorization}

/-- Whatever is signed is complete, and signed over these bytes. -/
theorem signed_complete {C : Crypto} {seed : Bytes} {deviceId keyId method : JsString}
    {block : AuthorizationBlock}
    (h : signDeviceAuthorization C a seed deviceId keyId method = .ok block) :
    a.Complete ∧ ∃ sig, sign C seed
      (utf8 deviceAuthorizeRecordPrefix++a.authorizationCanonicalBytes) = .ok sig ∧
        block.authorizing_signature.value = Base64.encode sig := by
  simp only [signDeviceAuthorization,bind_eq_ok,require_eq_ok,exists_const] at h
  obtain ⟨hnonce,-,-,⟨hid,hkey,hat⟩,sig,hsig,hblock⟩ := h
  exact ⟨⟨hid,hkey,hat,hnonce⟩,sig,hsig,by rw [← Except.ok.inj hblock]⟩

theorem authorizationCanonicalBytes_eq (a : DeviceAuthorization) : a.authorizationCanonicalBytes =
    Separator.join 0 ([a.deviceId,a.devicePublicKey,a.enrolledAt].map Utf8.textEncode)
      a.enrollNonce := by
  simp only [authorizationCanonicalBytes,List.append_assoc,List.singleton_append]
  rfl

theorem authorizationCanonicalBytes_iff (ha : a.Complete) :
    (∀ b : DeviceAuthorization, b.Complete →
      b.authorizationCanonicalBytes = a.authorizationCanonicalBytes → b = a) ↔
        a.Unambiguous := by
  obtain ⟨hid,hkey,hat,hnonce⟩ := ha
  have hne {s : JsString} (hs : s ≠ []) : utf8 s ≠ [] ∧ Utf8.IsEncoded (utf8 s) :=
    ⟨fun h => hs (Utf8.textEncode_eq_nil.mp h),s,rfl⟩
  have htexts := Utf8.texts_iff (W := fun _ => True) (show
    ∀ s ∈ [a.deviceId,a.devicePublicKey,a.enrolledAt], s ≠ [] by simp [hid,hkey,hat])
    ⟨hnonce,trivial⟩
  have hunique := Separator.unique_iff Utf8.cuttable_bytes
    (show Separator.Fields _ _ ([a.deviceId,a.devicePublicKey,a.enrolledAt].map Utf8.textEncode)
      a.enrollNonce from ⟨by simpa using ⟨hne hid,hne hkey,hne hat⟩,hnonce,trivial⟩)
  simp only [List.map_cons,List.map_nil,Separator.Firm] at hunique
  have hcond : a.Unambiguous ↔ Separator.Unique 0 Utf8.IsEncoded (fun _ => True)
        ([a.deviceId,a.devicePublicKey,a.enrolledAt].map Utf8.textEncode) a.enrollNonce ∧
      ∀ s ∈ [a.deviceId,a.devicePublicKey,a.enrolledAt], Utf8.Faithful s := by
    rw [List.map_cons,List.map_cons,List.map_cons,List.map_nil,hunique]
    simp only [Unambiguous,List.forall_mem_cons,← Utf8.start_iff,← Utf8.inner_iff,
      ← Utf8.faithful_iff]
    constructor
    · rintro ⟨h1,⟨h2,h3,-⟩,h4,h5⟩
      exact ⟨⟨h1,h2,h3,h4⟩,h5⟩
    · rintro ⟨⟨h1,h2,h3,h4⟩,h5⟩
      exact ⟨h1,⟨h2,h3,List.forall_mem_nil _⟩,h4,h5⟩
  rw [hcond,← htexts]
  constructor
  · intro h ts q hlen hts hq _ hjoin
    obtain ⟨x,y,z,rfl⟩ := List.length_eq_three.mp hlen
    have heq := h ⟨x,y,z,q⟩ ⟨hts x (by simp),hts y (by simp),hts z (by simp),hq⟩ (by
      rw [authorizationCanonicalBytes_eq,authorizationCanonicalBytes_eq]
      exact hjoin)
    rw [← heq]
    exact ⟨rfl,rfl⟩
  · rintro h b ⟨hi,hk,ht,hn⟩ heq
    rw [authorizationCanonicalBytes_eq,authorizationCanonicalBytes_eq] at heq
    obtain ⟨hfields,hq⟩ := h [b.deviceId,b.devicePublicKey,b.enrolledAt] b.enrollNonce rfl
      (by simp [hi,hk,ht]) hn trivial heq
    simp only [List.cons.injEq,and_true] at hfields
    obtain ⟨i,k,t,n⟩ := b
    exact DeviceAuthorization.mk.injEq .. ▸ ⟨hfields.1,hfields.2.1,hfields.2.2,hq⟩

end DeviceAuthorization

namespace FirstContact

/-- With a hash that tells the bytes from all others, a prefix is bound to its fields, and the
bytes of an authorization to theirs, exactly when they are unambiguous. -/
theorem field_binding_iff {C : Crypto} {t : Contact} {rand : ℕ → Js Bytes} {prefixBytes : Bytes}
    (h : computeFirstContactPrefix C t rand = .ok prefixBytes)
    (hsha : ∀ t' : Contact, C.sha256 t'.bindingInput = C.sha256 t.bindingInput →
      t'.bindingInput = t.bindingInput) {seed : Bytes} {a : DeviceAuthorization}
    {deviceId keyId method : JsString} {block : DeviceRecords.AuthorizationBlock}
    (hsigned : DeviceRecords.signDeviceAuthorization C a seed deviceId keyId method =
      .ok block) :
    ((∀ t' : Contact, t'.Complete → t' ≠ t →
        firstContactBindingHash C t' ≠ firstContactBindingHash C t) ↔ t.Unambiguous) ∧
    ((∀ t', t' ≠ t → verifyFirstContactBinding C prefixBytes t' = false) ↔ t.Unambiguous) ∧
    ((∀ b : DeviceAuthorization, b.Complete → b ≠ a →
      utf8 deviceAuthorizeRecordPrefix++b.authorizationCanonicalBytes ≠
        utf8 deviceAuthorizeRecordPrefix++a.authorizationCanonicalBytes) ↔ a.Unambiguous) := by
  have hhash (t' : Contact) : firstContactBindingHash C t' = firstContactBindingHash C t ↔
      t'.bindingInput = t.bindingInput :=
    ⟨fun heq => hsha t' (Subtype.ext heq),fun heq => by
      rw [firstContactBindingHash,heq,firstContactBindingHash]⟩
  obtain ⟨hcomplete,-⟩ := computeFirstContactPrefix_eq_ok.mp h
  refine ⟨?_,?_,?_⟩
  · rw [← bindingInput_iff hcomplete]
    refine forall_congr' fun t' => imp_congr_right fun _ => ?_
    rw [Ne,Ne,hhash,not_imp_not]
  · rw [← bindingInput_iff hcomplete]
    refine forall_congr' fun t' => ?_
    rw [← Bool.not_eq_true,verifyFirstContactBinding_iff h,hhash]
    tauto
  · rw [← DeviceAuthorization.authorizationCanonicalBytes_iff
      (DeviceAuthorization.signed_complete hsigned).1]
    refine forall_congr' fun b => imp_congr_right fun _ => ?_
    rw [Ne,Ne,List.append_cancel_left_eq,not_imp_not]

/-! A contact and a device without NULs, under a hash that tells the contact from all others. -/
def sampleContact : Contact := ⟨js "a.example",js "b@b.example",js "pm-1"⟩

def sampleAuthorization : DeviceAuthorization :=
  ⟨js "device-1",js "AAAA",js "2026-01-01T00:00:00Z",List.replicate 32 1⟩

def sampleDigest (bytes : Bytes) : Digest :=
  if bytes = sampleContact.bindingInput then Sample.filled 0 else Sample.filled 1

def sampleHash : Crypto := {Sample.crypto with sha256 := sampleDigest}

theorem field_binding_iff_sample :
    (∀ t', t' ≠ sampleContact → verifyFirstContactBinding sampleHash
      (List.replicate 16 7++List.replicate 32 0) t' = false) ∧
    ∀ b : DeviceAuthorization, b.Complete → b ≠ sampleAuthorization →
      utf8 deviceAuthorizeRecordPrefix++b.authorizationCanonicalBytes ≠
        utf8 deviceAuthorizeRecordPrefix++sampleAuthorization.authorizationCanonicalBytes := by
  have hhash : (sampleHash.sha256 sampleContact.bindingInput).val = List.replicate 32 0 :=
    congrArg Subtype.val (if_pos rfl)
  have h : computeFirstContactPrefix sampleHash sampleContact (fun _ => .ok (List.replicate 16 7)) =
      .ok (List.replicate 16 7++List.replicate 32 0) :=
    computeFirstContactPrefix_eq_ok.mpr ⟨by decide,_,rfl,rfl,by rw [firstContactBindingHash,hhash]⟩
  have hsha (t' : Contact) (heq : sampleHash.sha256 t'.bindingInput =
      sampleHash.sha256 sampleContact.bindingInput) :
      t'.bindingInput = sampleContact.bindingInput := by
    by_contra hne
    have hother : (sampleHash.sha256 t'.bindingInput).val = List.replicate 32 1 :=
      congrArg Subtype.val (if_neg hne)
    rw [heq,hhash] at hother
    exact absurd hother (by decide)
  obtain ⟨block,hblock⟩ : ∃ block, DeviceRecords.signDeviceAuthorization sampleHash
      sampleAuthorization (List.replicate 32 5) (js "device-0") (js "key-0") (js "qr_scan") =
        .ok block := ⟨_,rfl⟩
  have hclear : sampleAuthorization.Unambiguous := by
    refine ⟨by decide,by decide,fun x y hxy => ?_,by decide⟩
    have hmem : (0 : UInt8) ∈ sampleAuthorization.enrollNonce := by
      rw [hxy]
      simp
    exact absurd hmem (by decide)
  obtain ⟨-,hbound,hdevice⟩ := field_binding_iff h hsha hblock
  exact ⟨hbound.mpr (by decide),hdevice.mpr hclear⟩

/-- A NUL at the border of two fields belongs to either of them. -/
theorem not_field_binding :
    (¬∀ (C : Crypto) (t t' : Contact), t.Complete → t'.Complete →
      (C.sha256 t.bindingInput = C.sha256 t'.bindingInput → t.bindingInput = t'.bindingInput) →
        firstContactBindingHash C t = firstContactBindingHash C t' → t = t') ∧
    ¬∀ a b : DeviceAuthorization, a.Complete → b.Complete →
      a.authorizationCanonicalBytes = b.authorizationCanonicalBytes → a = b := by
  refine ⟨fun h => ?_,fun h => ?_⟩
  · have hinput : (⟨js "a.example",0::js "b",js "pm-1"⟩ : Contact).bindingInput =
        (⟨js "a.example"++[0],js "b",js "pm-1"⟩ : Contact).bindingInput := by decide +kernel
    have heq := h Sample.crypto _ _ (by decide) (by decide) (fun _ => hinput)
      (congrArg (fun b => (Sample.crypto.sha256 b).val) hinput)
    exact absurd (congrArg Contact.recipientAddress heq) (by decide)
  · have heq := h ⟨js "device-1",0::js "AAAA",js "t",[1]⟩ ⟨js "device-1"++[0],js "AAAA",js "t",[1]⟩
      ⟨by decide,by decide,by decide,by decide⟩ ⟨by decide,by decide,by decide,by decide⟩
      (by decide +kernel)
    exact absurd (congrArg DeviceAuthorization.devicePublicKey heq) (by decide)

end FirstContact
end Semp
