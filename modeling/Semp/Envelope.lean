import Semp.Seal
import Semp.Canonical

/-! Envelopes: composing seals the brief and the enclosure, wraps their keys to the
recipients, signs and MACs the canonical bytes; opening unwraps and unseals.  The
history of AEAD seals decides whether a key and a nonce are used twice. -/
namespace Semp
namespace Envelope

open Seal

def envelopePrefix : JsString := js "SEMP-ENVELOPE:"

structure PostmarkFields where
  id : JsString
  sessionId : JsString
  fromDomain : JsString
  toDomain : JsString
  expires : JsString
  extensions : Option Members

structure RecipientKey where
  keyId : JsString
  publicKey : Bytes
  deriving DecidableEq, Repr

structure ComposeInput where
  suite : Suite
  sealKeyId : JsString
  senderDomainSigningSeed : Bytes
  postmark : PostmarkFields
  briefPlaintext : Json
  enclosurePlaintext : Json
  briefRecipients : List RecipientKey
  enclosureRecipients : List RecipientKey
  kBrief : Bytes
  kEnclosure : Bytes
  kEnvMAC : Bytes
  briefAEADNonce : Bytes
  enclosureAEADNonce : Bytes
  wrapRandomness : List (JsString × WrapRandomness)
  extensions : Option Members
  sealExtensions : Option Members
  padding : Option JsString

structure SealFields where
  algorithm : JsString
  keyId : JsString
  signature : JsString
  sessionMac : JsString
  briefRecipients : List (JsString × JsString)
  enclosureRecipients : List (JsString × JsString)
  extensions : Option Members

structure Env where
  postmark : PostmarkFields
  sealed : SealFields
  brief : JsString
  enclosure : JsString
  extensions : Option Members
  padding : Option JsString

/-- A member that is left out when it is `undefined`. -/
def optional (k : JsString) : Option Json → Members
  | none => []
  | some v => [(k,v)]

def recipientsJson (recipients : List (JsString × JsString)) : Json :=
  .obj (recipients.map fun r => (r.1,.str r.2))

def PostmarkFields.toJson (p : PostmarkFields) : Json :=
  .obj ([(js "id",.str p.id),(js "session_id",.str p.sessionId),
    (js "from_domain",.str p.fromDomain),(js "to_domain",.str p.toDomain),
    (js "expires",.str p.expires)]++optional (js "extensions") (p.extensions.map .obj))

def SealFields.members (s : SealFields) : Members :=
  [(js "algorithm",.str s.algorithm),(js "key_id",.str s.keyId),
    (js "signature",.str s.signature),(js "session_mac",.str s.sessionMac),
    (js "brief_recipients",recipientsJson s.briefRecipients),
    (js "enclosure_recipients",recipientsJson s.enclosureRecipients)]++
    optional (js "extensions") (s.extensions.map .obj)

def Env.toJson (env : Env) : Json :=
  .obj ([(js "type",.str (js "SEMP_ENVELOPE")),(js "version",.str (js "1.0.0")),
    (js "postmark",env.postmark.toJson),(js "seal",.obj env.sealed.members),
    (js "brief",.str env.brief),(js "enclosure",.str env.enclosure)]++
    optional (js "extensions") (env.extensions.map .obj)++
    optional (js "padding") (env.padding.map .str))

/-- Blanks a member that is there. -/
def blank (k : JsString) (ms : Members) : Members :=
  if (lookup ms k).isSome then assign ms k (.str []) else ms

def envelopeElider : Json → Json
  | .obj ms =>
    match lookup ms (js "seal") with
    | some (.obj block) =>
      .obj (assign ms (js "seal") (.obj (blank (js "session_mac") (blank (js "signature") block))))
    | _ => .obj ms
  | v => v

def canonicalEnvelopeFor (envelope : Json) : Js Bytes :=
  Canonical.marshalWithElision envelope envelopeElider

/-- The randomness of the brief wrap: `wrapRandomness.get(keyId)`. -/
def briefRandomness (input : ComposeInput) (keyId : JsString) : Option WrapRandomness :=
  lookup input.wrapRandomness keyId

/-- The randomness of the enclosure wrap falls back to the one of the brief wrap. -/
def enclosureRandomness (input : ComposeInput) (keyId : JsString) : Option WrapRandomness :=
  match lookup input.wrapRandomness (js "enclosure:"++keyId) with
  | some w => some w
  | none => lookup input.wrapRandomness keyId

/-- The envelope before it is signed.  The inner extensions default to `{}`, the outer
ones to absent, and the padding to the empty string. -/
def assemble (input : ComposeInput) (briefField enclosureField : JsString)
    (briefRecipients enclosureRecipients : List (JsString × JsString)) : Env where
  postmark := { input.postmark with extensions := some (input.postmark.extensions.getD []) }
  sealed := {
    algorithm := input.suite.name
    keyId := input.sealKeyId
    signature := []
    sessionMac := []
    briefRecipients := briefRecipients
    enclosureRecipients := enclosureRecipients
    extensions := some (input.sealExtensions.getD []) }
  brief := briefField
  enclosure := enclosureField
  extensions := input.extensions
  padding := some (input.padding.getD [])

def Env.withProofs (env : Env) (signature sessionMac : JsString) : Env :=
  { env with sealed := { env.sealed with signature := signature, sessionMac := sessionMac } }

section Code
variable (C : Crypto)

/-- One of the two loops over recipients; `slot` is its name in the error. -/
def wrapAll (suite : Suite) (key : Bytes) (slot : JsString)
    (randomness : JsString → Option WrapRandomness) :
    List RecipientKey → List (JsString × JsString) → Sealing (List (JsString × JsString))
  | [], wrapped => return wrapped
  | r::rs, wrapped => do
    match randomness r.keyId with
    | none =>
      liftM (raise (js "compose: missing wrap randomness for "++slot++js " recipient "++r.keyId) :
        Js (List (JsString × JsString)))
    | some w =>
      let text ← wrapWithRandomness C suite r.publicKey key w
      wrapAll suite key slot randomness rs (assign wrapped r.keyId text)

section Equations
-- Its equations are made here, and not by each of the proofs that use them.
attribute [local simp] wrapAll
end Equations

def compose (input : ComposeInput) : Sealing Env := do
  let postmarkID := utf8 input.postmark.id
  let briefCanonical ← Canonical.marshal input.briefPlaintext
  let briefCT ← recordedSeal C .chacha20poly1305 input.kBrief input.briefAEADNonce briefCanonical
    postmarkID
  let enclosureCanonical ← Canonical.marshal input.enclosurePlaintext
  let enclosureCT ← recordedSeal C .chacha20poly1305 input.kEnclosure input.enclosureAEADNonce
    enclosureCanonical postmarkID
  let briefRecipients ← wrapAll C input.suite input.kBrief (js "brief") (briefRandomness input)
    input.briefRecipients []
  let enclosureRecipients ← wrapAll C input.suite input.kEnclosure (js "enclosure")
    (enclosureRandomness input) input.enclosureRecipients []
  let env := assemble input (Base64.encode (input.briefAEADNonce++briefCT))
    (Base64.encode (input.enclosureAEADNonce++enclosureCT)) briefRecipients enclosureRecipients
  let canonical ← canonicalEnvelopeFor env.toJson
  let sig ← sign C input.senderDomainSigningSeed (utf8 envelopePrefix++canonical)
  let mac := computeMAC C input.kEnvMAC canonical
  return env.withProofs (Base64.encode sig) (Base64.encode mac)

structure OpenInput where
  suite : Suite
  envelope : Env
  recipientKeyId : JsString
  recipientPrivateKey : Bytes
  recipientPublicKey : Bytes

/-- Both openings: `slot` is the name in the errors, `wrapped` the recipients'
wrapped keys and `field` the sealed text. -/
def openSlot (input : OpenInput) (slot : JsString) (wrapped : List (JsString × JsString))
    (field : JsString) : Js Json := do
  let postmarkID := utf8 input.envelope.postmark.id
  match lookup wrapped input.recipientKeyId with
  | none =>
    raise (js "open: recipient "++input.recipientKeyId++js " not in "++slot++js "_recipients")
  | some wrappedKey => do
    let key ← unwrap C input.suite input.recipientPrivateKey input.recipientPublicKey wrappedKey
    let blob := Base64.decode field
    if blob.length < 12 then raise (js "open: "++slot++js " blob too short")
    else do
      let text ← aeadOpen C .chacha20poly1305 key (blob.take 12) (blob.drop 12) postmarkID
      parseJson (Utf8.textDecode text)

def openBriefForRecipient (input : OpenInput) : Js Json :=
  openSlot C input (js "brief") input.envelope.sealed.briefRecipients input.envelope.brief

def openEnclosureForRecipient (input : OpenInput) : Js Json :=
  openSlot C input (js "enclosure") input.envelope.sealed.enclosureRecipients
    input.envelope.enclosure

def openForRecipient (input : OpenInput) : Js (Json × Json) := do
  let brief ← openBriefForRecipient C input
  let enclosure ← openEnclosureForRecipient C input
  .ok (brief,enclosure)

def verifySealSignature (env : Env) (senderDomainPub : Bytes) : Js Bool :=
  if env.sealed.signature = [] then .ok false
  else do
    let sig := Base64.decode env.sealed.signature
    let canonical ← canonicalEnvelopeFor env.toJson
    .ok (verify C senderDomainPub sig (utf8 envelopePrefix++canonical))

def verifySessionMAC (env : Env) (kEnvMAC : Bytes) : Js Bool :=
  if env.sealed.sessionMac = [] then .ok false
  else do
    let want := Base64.decode env.sealed.sessionMac
    let canonical ← canonicalEnvelopeFor env.toJson
    .ok (constantTimeEqual want (computeMAC C kEnvMAC canonical))

end Code
section Canonical
open JsonText

theorem blank_finite {ms : Members} (h : (Json.obj ms).Finite) (k : JsString) :
    (Json.obj (blank k ms)).Finite := by
  unfold blank
  split_ifs
  · exact Json.finite_assign h (show (Json.str []).Finite from trivial) k
  · exact h

theorem envelopeElider_finite {v : Json} (h : v.Finite) : (envelopeElider v).Finite := by
  unfold envelopeElider
  split
  · split
    · next ms block hblock =>
      have hb : (Json.obj block).Finite := Json.finite_of_lookup h hblock
      exact Json.finite_assign h (blank_finite (blank_finite hb _) _) _
    · exact h
  · exact h

/-- The canonical bytes of an envelope, with both proofs blanked. -/
def envelopeBytes (v : Json) : Bytes :=
  Utf8.textEncode (stringify (envelopeElider v.reparse).sortKeys)

theorem canonicalEnvelopeFor_eq {v : Json} (h : v.WF) :
    canonicalEnvelopeFor v = .ok (envelopeBytes v) :=
  Canonical.marshalWithElision_eq h (envelopeElider_finite (Canonical.reparse_finite v))

theorem blank_map (k : JsString) (ms : Members) :
    (blank k ms).map (fun m => (m.1,m.2.reparse)) = blank k (ms.map fun m => (m.1,m.2.reparse)) := by
  unfold blank
  rw [lookup_map,Option.isSome_map]
  split_ifs
  · exact map_assign Json.reparse ms k _
  · rfl

theorem envelopeElider_sealed {ms block : Members} (h : lookup ms (js "seal") = some (.obj block)) :
    envelopeElider (.obj ms) = .obj (assign ms (js "seal")
      (.obj (blank (js "session_mac") (blank (js "signature") block)))) := by
  rw [envelopeElider,h]

theorem envelopeElider_unsealed {ms : Members}
    (h : ∀ block, lookup ms (js "seal") ≠ some (.obj block)) :
    envelopeElider (.obj ms) = .obj ms := by
  rw [envelopeElider]
  split
  next block hblock => exact absurd hblock (h block)
  · rfl

/-- The elision can be made before the clone. -/
theorem reparse_envelopeElider (v : Json) :
    (envelopeElider v).reparse = envelopeElider v.reparse := by
  have hobj (ms : Members) : (Json.obj ms).reparse = .obj (ms.map fun m => (m.1,m.2.reparse)) := by
    rw [Json.reparse,Json.reparseMembers_eq]
  cases v with
  | obj ms =>
    have hlookup := lookup_map Json.reparse ms (js "seal")
    by_cases hsealed : ∃ block, lookup ms (js "seal") = some (.obj block)
    · obtain ⟨block,hblock⟩ := hsealed
      rw [hblock,Option.map_some,hobj] at hlookup
      rw [envelopeElider_sealed hblock,hobj,map_assign,hobj ms,envelopeElider_sealed hlookup,hobj,
        blank_map,blank_map]
    · have hno : ∀ block, (lookup ms (js "seal")).map Json.reparse ≠ some (.obj block) := by
        intro block heq
        obtain ⟨w,hw,heq⟩ := Option.map_eq_some_iff.mp heq
        cases w with
        | obj block' => exact hsealed ⟨block',hw⟩
        | num x => by_cases hx : x.isFinite <;> simp [Json.reparse,hx] at heq
        | _ => simp [Json.reparse] at heq
      rw [envelopeElider_unsealed (fun block h => hsealed ⟨block,h⟩),hobj,envelopeElider_unsealed]
      rw [hlookup]
      exact hno
  | num x => by_cases hx : x.isFinite <;> simp [envelopeElider,Json.reparse,hx]
  | _ => simp [envelopeElider,Json.reparse]

theorem envelopeBytes_eq (v : Json) :
    envelopeBytes v = Canonical.canonicalBytes (envelopeElider v) := by
  rw [envelopeBytes,← reparse_envelopeElider]
  rfl

theorem lookup_blank_self (k : JsString) (ms : Members) :
    lookup (blank k ms) k = (lookup ms k).map fun _ => .str [] := by
  unfold blank
  cases h : lookup ms k with
  | none => simpa using h
  | some v => simp

theorem lookup_blank_ne {k l : JsString} (ms : Members) (h : l ≠ k) :
    lookup (blank k ms) l = lookup ms l := by
  unfold blank
  split_ifs
  · exact lookup_assign_ne _ h
  · rfl

theorem blank_wf {ms : Members} (h : (Json.obj ms).WF) (k : JsString) :
    (Json.obj (blank k ms)).WF := by
  unfold blank
  split_ifs
  · exact Json.wf_assign h (Json.wf_str []) k
  · exact h

theorem envelopeElider_wf {v : Json} (h : v.WF) : (envelopeElider v).WF := by
  unfold envelopeElider
  split
  · split
    next ms block hblock =>
      exact Json.wf_assign h (blank_wf (blank_wf (Json.wf_of_lookup h hblock) _) _) _
    · exact h
  · exact h

/-- What is computed of a clone. -/
theorem envelopeBytes_reparse (v : Json) : envelopeBytes v.reparse = envelopeBytes v := by
  rw [envelopeBytes,envelopeBytes,Json.reparse_reparse]

/-- The proofs are no part of what they are computed of. -/
theorem envelopeBytes_congr {ms ns block block' : Members} (hm : (Json.obj ms).WF)
    (hn : (Json.obj ns).WF) (hblock : lookup ms (js "seal") = some (.obj block))
    (hblock' : lookup ns (js "seal") = some (.obj block'))
    (hother : ∀ k, k ≠ js "seal" → lookup ms k = lookup ns k)
    (hsealed : ∀ k, k ≠ js "signature" → k ≠ js "session_mac" → lookup block k = lookup block' k)
    (hproofs : ∀ k, (lookup block k).isSome = (lookup block' k).isSome) :
    envelopeBytes (.obj ms) = envelopeBytes (.obj ns) := by
  rw [envelopeBytes_eq,envelopeBytes_eq,
    Canonical.canonicalBytes_inj (envelopeElider_wf hm) (envelopeElider_wf hn),
    envelopeElider_sealed hblock,envelopeElider_sealed hblock']
  have hb := Json.wf_of_lookup hm hblock
  have hb' := Json.wf_of_lookup hn hblock'
  have helided : (Json.obj (blank (js "session_mac") (blank (js "signature") block))).norm =
      (Json.obj (blank (js "session_mac") (blank (js "signature") block'))).norm := by
    rw [Json.norm_obj_eq_iff (blank_wf (blank_wf hb _) _) (blank_wf (blank_wf hb' _) _)]
    intro k
    have hproof : (lookup block k).map (fun _ => Json.str []) =
        (lookup block' k).map fun _ => .str [] := by
      have := hproofs k
      cases hl : lookup block k <;> cases hl' : lookup block' k <;> simp_all
    have hne : js "signature" ≠ js "session_mac" := by decide
    refine congrArg _ ?_
    by_cases hmac : k = js "session_mac"
    · subst hmac
      rw [lookup_blank_self,lookup_blank_self,lookup_blank_ne _ hne.symm,
        lookup_blank_ne _ hne.symm,hproof]
    by_cases hsig : k = js "signature"
    · subst hsig
      rw [lookup_blank_ne _ hne,lookup_blank_ne _ hne,lookup_blank_self,lookup_blank_self,hproof]
    · rw [lookup_blank_ne _ hmac,lookup_blank_ne _ hmac,lookup_blank_ne _ hsig,
        lookup_blank_ne _ hsig,hsealed k hsig hmac]
  rw [Json.norm_obj_eq_iff (Json.wf_assign hm (blank_wf (blank_wf hb _) _) _)
    (Json.wf_assign hn (blank_wf (blank_wf hb' _) _) _)]
  intro k
  by_cases hk : k = js "seal"
  · subst hk
    rw [lookup_assign_self,lookup_assign_self,Option.map_some,Option.map_some,helided]
  · rw [lookup_assign_ne _ hk,lookup_assign_ne _ hk,hother k hk]

/-- The proofs do not change what they are computed over. -/
@[simp] theorem envelopeBytes_withProofs (env : Env) (signature sessionMac : JsString) :
    envelopeBytes (env.withProofs signature sessionMac).toJson = envelopeBytes env.toJson := by
  have h : envelopeElider (env.withProofs signature sessionMac).toJson.reparse =
    envelopeElider env.toJson.reparse := rfl
  rw [envelopeBytes,envelopeBytes,h]

end Canonical

/-- The part of the randomness a suite uses. -/
def usedRandomness (suite : Suite) (w : WrapRandomness) : WrapRandomness :=
  match suite with
  | .x25519 => { w with kyberEncapsRandomnessM := none }
  | .pq => w

/-- What a wrap is computed from: the randomness it uses and the recipient's key. -/
abbrev Slot := WrapRandomness × Bytes

def slotsOf (suite : Suite) (randomness : JsString → Option WrapRandomness)
    (rs : List RecipientKey) : List Slot :=
  rs.filterMap fun r => (randomness r.keyId).map fun w => (usedRandomness suite w,r.publicKey)

/-- The wraps of an envelope, in the order they are made. -/
def slots (input : ComposeInput) : List Slot :=
  slotsOf input.suite (briefRandomness input) input.briefRecipients++
    slotsOf input.suite (enclosureRandomness input) input.enclosureRecipients

/-- The wrap key of a slot; empty when the encapsulation throws. -/
def slotKey (C : Crypto) (suite : Suite) (s : Slot) : Bytes :=
  match encapsulate C suite s.2 s.1 with
  | .ok e => wrapKey C e.ciphertext s.2 e.sharedSecret
  | .error _ => []

def payloadCalls (input : ComposeInput) : List SealCall :=
  [⟨input.kBrief,input.briefAEADNonce⟩,⟨input.kEnclosure,input.enclosureAEADNonce⟩]

section WrapAll
variable {C : Crypto} {suite : Suite} {key : Bytes} {slot : JsString}
  {randomness : JsString → Option WrapRandomness}

theorem encapsulate_usedRandomness (pk : Bytes) (w : WrapRandomness) :
    encapsulate C suite pk (usedRandomness suite w) = encapsulate C suite pk w := by
  cases suite <;> rfl

theorem wrapAll_cons_eq_ok {r : RecipientKey} {rs : List RecipientKey}
    {acc wrapped : List (JsString × JsString)} {calls calls' : List SealCall} :
    wrapAll C suite key slot randomness (r::rs) acc calls = .ok (wrapped,calls') ↔
      ∃ w text mid, randomness r.keyId = some w ∧
        wrapWithRandomness C suite r.publicKey key w calls = .ok (text,mid) ∧
        wrapAll C suite key slot randomness rs (assign acc r.keyId text) mid =
          .ok (wrapped,calls') := by
  rw [wrapAll]
  cases hw : randomness r.keyId with
  | none =>
    simp only [sealing_lift_eq_ok,raise_ne_ok,false_and,reduceCtorEq,exists_false]
  | some w =>
    simp only [sealing_bind_eq_ok,Option.some.injEq]
    constructor
    · rintro ⟨text,mid,h,h'⟩
      exact ⟨w,text,mid,rfl,h,h'⟩
    · rintro ⟨w',text,mid,rfl,h,h'⟩
      exact ⟨text,mid,h,h'⟩

theorem wrapAll_nil_eq_ok {acc wrapped : List (JsString × JsString)}
    {calls calls' : List SealCall} :
    wrapAll C suite key slot randomness [] acc calls = .ok (wrapped,calls') ↔
      wrapped = acc ∧ calls' = calls := by
  change (Except.ok (acc,calls) : Js _) = _ ↔ _
  rw [Except.ok.injEq,Prod.mk.injEq,eq_comm,@eq_comm _ calls]

/-- Recipients that are not wrapped to keep their entries. -/
theorem lookup_wrapAll_ne {rs : List RecipientKey} {acc wrapped : List (JsString × JsString)}
    {calls calls' : List SealCall} {k : JsString}
    (h : wrapAll C suite key slot randomness rs acc calls = .ok (wrapped,calls'))
    (hk : k ∉ rs.map RecipientKey.keyId) : lookup wrapped k = lookup acc k := by
  induction rs generalizing acc calls with
  | nil => rw [(wrapAll_nil_eq_ok.mp h).1]
  | cons r rs ih =>
    obtain ⟨w,text,mid,-,-,h'⟩ := wrapAll_cons_eq_ok.mp h
    rw [List.map_cons,List.mem_cons,not_or] at hk
    rw [ih h' hk.2,lookup_assign_ne _ hk.1]

/-- Every recipient gets the key wrapped under its own randomness. -/
theorem lookup_wrapAll {rs : List RecipientKey} {acc wrapped : List (JsString × JsString)}
    {calls calls' : List SealCall}
    (h : wrapAll C suite key slot randomness rs acc calls = .ok (wrapped,calls'))
    (hnd : (rs.map RecipientKey.keyId).Nodup) {r : RecipientKey} (hr : r ∈ rs) :
    ∃ w text mid mid', wrapWithRandomness C suite r.publicKey key w mid = .ok (text,mid') ∧
      lookup wrapped r.keyId = some text := by
  induction rs generalizing acc calls with
  | nil => simp at hr
  | cons r' rs ih =>
    obtain ⟨w,text,mid,-,hwrap,h'⟩ := wrapAll_cons_eq_ok.mp h
    rw [List.map_cons,List.nodup_cons] at hnd
    rcases List.mem_cons.mp hr with rfl | hr
    · exact ⟨w,text,calls,mid,hwrap,by rw [lookup_wrapAll_ne h' hnd.1,lookup_assign_self]⟩
    · exact ih h' hnd.2 hr

theorem wrapAll_nodup {rs : List RecipientKey} {acc wrapped : List (JsString × JsString)}
    {calls calls' : List SealCall}
    (h : wrapAll C suite key slot randomness rs acc calls = .ok (wrapped,calls'))
    (hacc : (keys acc).Nodup) : (keys wrapped).Nodup := by
  induction rs generalizing acc calls with
  | nil => rwa [(wrapAll_nil_eq_ok.mp h).1]
  | cons r rs ih =>
    obtain ⟨w,text,mid,-,-,h'⟩ := wrapAll_cons_eq_ok.mp h
    exact ih h' (nodup_keys_assign hacc _ _)

/-- A wrap seals once, under the key of its slot and the zero nonce. -/
theorem calls_wrapAll {rs : List RecipientKey} {acc wrapped : List (JsString × JsString)}
    {calls calls' : List SealCall}
    (h : wrapAll C suite key slot randomness rs acc calls = .ok (wrapped,calls')) :
    calls' = calls++(slotsOf suite randomness rs).map fun s => ⟨slotKey C suite s,zeroNonce⟩ := by
  induction rs generalizing acc calls with
  | nil => rw [(wrapAll_nil_eq_ok.mp h).2,slotsOf,List.filterMap_nil,List.map_nil,List.append_nil]
  | cons r rs ih =>
    obtain ⟨w,text,mid,hw,hwrap,h'⟩ := wrapAll_cons_eq_ok.mp h
    obtain ⟨e,ct,he,hct,-⟩ := wrapWithRandomness_eq_ok.mp hwrap
    obtain ⟨-,-,hmid⟩ := recordedSeal_eq_ok.mp hct
    have hkey : slotKey C suite (usedRandomness suite w,r.publicKey) =
        wrapKey C e.ciphertext r.publicKey e.sharedSecret := by
      simp only [slotKey,encapsulate_usedRandomness,he]
    have hslots : slotsOf suite randomness (r::rs) =
        (usedRandomness suite w,r.publicKey)::slotsOf suite randomness rs := by
      rw [slotsOf,List.filterMap_cons_some (by rw [hw]; rfl)]
      rfl
    rw [ih h',hmid,hslots,List.map_cons,hkey,List.append_assoc,List.singleton_append]

/-- A recipient whose randomness and key a wrap accepts. -/
def Wrappable (C : Crypto) (suite : Suite) (randomness : JsString → Option WrapRandomness)
    (r : RecipientKey) : Prop :=
  ∃ w sk, randomness r.keyId = some w ∧ KeysMatch C suite sk r.publicKey ∧
    w.ephemeralX25519Priv.length = 32 ∧
    (suite = .pq → ∃ m, w.kyberEncapsRandomnessM = some m ∧ m.length = 32)

theorem wrapAll_ok (suite : Suite) (key : Bytes) (slot : JsString)
    (randomness : JsString → Option WrapRandomness) (laws : Laws C) {rs : List RecipientKey}
    (hrs : ∀ r ∈ rs, Wrappable C suite randomness r) (acc : List (JsString × JsString))
    (calls : List SealCall) : ∃ r, wrapAll C suite key slot randomness rs acc calls = .ok r := by
  induction rs generalizing acc calls with
  | nil => exact ⟨(acc,calls),wrapAll_nil_eq_ok.mpr ⟨rfl,rfl⟩⟩
  | cons r rs ih =>
    obtain ⟨w,sk,hw,hkeys,heph,hm⟩ := hrs r (by simp)
    obtain ⟨⟨text,mid⟩,hwrap⟩ := wrapWithRandomness_ok laws hkeys heph hm key calls
    obtain ⟨⟨wrapped,calls'⟩,h⟩ := ih (fun r hr => hrs r (by simp [hr])) (assign acc r.keyId text) mid
    exact ⟨_,wrapAll_cons_eq_ok.mpr ⟨w,text,mid,hw,hwrap,h⟩⟩

end WrapAll

/-- What `compose` computes on the way. -/
structure Steps where
  briefCanonical : Bytes
  briefCT : Bytes
  enclosureCanonical : Bytes
  enclosureCT : Bytes
  briefRecipients : List (JsString × JsString)
  enclosureRecipients : List (JsString × JsString)
  canonical : Bytes
  sig : Bytes
  afterBrief : List SealCall
  afterEnclosure : List SealCall
  afterBriefWraps : List SealCall

def Steps.unsigned (s : Steps) (input : ComposeInput) : Env :=
  assemble input (Base64.encode (input.briefAEADNonce++s.briefCT))
    (Base64.encode (input.enclosureAEADNonce++s.enclosureCT)) s.briefRecipients
    s.enclosureRecipients

structure Steps.Valid (C : Crypto) (input : ComposeInput) (calls : List SealCall) (env : Env)
    (calls' : List SealCall) (s : Steps) : Prop where
  marshal_brief : Canonical.marshal input.briefPlaintext = .ok s.briefCanonical
  seal_brief : recordedSeal C .chacha20poly1305 input.kBrief input.briefAEADNonce s.briefCanonical
    (utf8 input.postmark.id) calls = .ok (s.briefCT,s.afterBrief)
  marshal_enclosure : Canonical.marshal input.enclosurePlaintext = .ok s.enclosureCanonical
  seal_enclosure : recordedSeal C .chacha20poly1305 input.kEnclosure input.enclosureAEADNonce
    s.enclosureCanonical (utf8 input.postmark.id) s.afterBrief = .ok (s.enclosureCT,s.afterEnclosure)
  wrap_brief : wrapAll C input.suite input.kBrief (js "brief") (briefRandomness input)
    input.briefRecipients [] s.afterEnclosure = .ok (s.briefRecipients,s.afterBriefWraps)
  wrap_enclosure : wrapAll C input.suite input.kEnclosure (js "enclosure")
    (enclosureRandomness input) input.enclosureRecipients [] s.afterBriefWraps =
    .ok (s.enclosureRecipients,calls')
  canonicalize : canonicalEnvelopeFor (s.unsigned input).toJson = .ok s.canonical
  signs : sign C input.senderDomainSigningSeed (utf8 envelopePrefix++s.canonical) = .ok s.sig
  result : env = (s.unsigned input).withProofs (Base64.encode s.sig)
    (Base64.encode (computeMAC C input.kEnvMAC s.canonical))

section Compose
variable {C : Crypto} {input : ComposeInput} {env : Env} {calls calls' : List SealCall}

theorem compose_eq_ok : compose C input calls = .ok (env,calls') ↔
    ∃ s : Steps, s.Valid C input calls env calls' := by
  unfold compose
  simp only [sealing_bind_eq_ok,sealing_lift_eq_ok]
  constructor
  · rintro ⟨bc,_,⟨hbc,rfl⟩,bct,_,hbct,ec,c₁,⟨hec,rfl⟩,ect,c₂,hect,br,c₃,hbr,er,c₄,her,can,_,
      ⟨hcan,rfl⟩,sig,_,⟨hsig,rfl⟩,h⟩
    obtain ⟨rfl,rfl⟩ := Prod.mk.inj (Except.ok.inj h)
    exact ⟨⟨bc,bct,ec,ect,br,er,can,sig,c₁,c₂,c₃⟩,hbc,hbct,hec,hect,hbr,her,hcan,hsig,rfl⟩
  · rintro ⟨s,h⟩
    obtain ⟨h1,h2,h3,h4,h5,h6,h7,h8,rfl⟩ := h
    exact ⟨_,_,⟨h1,rfl⟩,_,_,h2,_,_,⟨h3,rfl⟩,_,_,h4,_,_,h5,_,_,h6,_,_,⟨h7,rfl⟩,_,_,⟨h8,rfl⟩,rfl⟩

/-- The seals of an envelope: both payloads, then a wrap for every slot. -/
theorem calls_compose (h : compose C input calls = .ok (env,calls')) :
    calls' = calls++payloadCalls input++
      (slots input).map fun s => ⟨slotKey C input.suite s,zeroNonce⟩ := by
  obtain ⟨s,hs⟩ := compose_eq_ok.mp h
  obtain ⟨-,-,h1⟩ := recordedSeal_eq_ok.mp hs.seal_brief
  obtain ⟨-,-,h2⟩ := recordedSeal_eq_ok.mp hs.seal_enclosure
  rw [calls_wrapAll hs.wrap_enclosure,calls_wrapAll hs.wrap_brief,h2,h1,slots,payloadCalls]
  simp only [List.map_append,List.append_assoc,List.cons_append,List.nil_append]

/-- The secrets of the encapsulations are fresh: different slots have different wrap
keys, which are no payload keys either. -/
structure Fresh (C : Crypto) (input : ComposeInput) : Prop where
  distinct : ∀ s ∈ slots input, ∀ t ∈ slots input, s ≠ t →
    slotKey C input.suite s ≠ slotKey C input.suite t
  notPayload : ∀ s ∈ slots input, slotKey C input.suite s ≠ input.kBrief ∧
    slotKey C input.suite s ≠ input.kEnclosure

/-- No two seals share a key and a nonce exactly when no two wraps share their randomness
and their recipient key, and the payloads differ in their keys or nonces. -/
theorem compose_seals_distinct (h : compose C input [] = .ok (env,calls'))
    (hfresh : Fresh C input) : calls'.Nodup ↔ (slots input).Nodup ∧
      (input.kBrief,input.briefAEADNonce) ≠ (input.kEnclosure,input.enclosureAEADNonce) := by
  have hinj : ∀ s ∈ slots input, ∀ t ∈ slots input,
      (⟨slotKey C input.suite s,zeroNonce⟩ : SealCall) = ⟨slotKey C input.suite t,zeroNonce⟩ →
        s = t := by
    intro s hs t ht heq
    by_contra hne
    exact hfresh.distinct s hs t ht hne (SealCall.mk.inj heq).1
  have hmap : ((slots input).map fun s => (⟨slotKey C input.suite s,zeroNonce⟩ : SealCall)).Nodup ↔
      (slots input).Nodup :=
    ⟨List.Nodup.of_map _,fun hnd => hnd.map_on hinj⟩
  have hpayload : (payloadCalls input).Nodup ↔
      (input.kBrief,input.briefAEADNonce) ≠ (input.kEnclosure,input.enclosureAEADNonce) := by
    simp [payloadCalls]
  have hdisj : List.Disjoint (payloadCalls input)
      ((slots input).map fun s => (⟨slotKey C input.suite s,zeroNonce⟩ : SealCall)) := by
    intro c hc hc'
    obtain ⟨s,hs,rfl⟩ := List.mem_map.mp hc'
    have := hfresh.notPayload s hs
    simp only [payloadCalls,List.mem_cons,List.not_mem_nil,or_false,SealCall.mk.injEq] at hc
    tauto
  rw [calls_compose h,List.nil_append,List.nodup_append',hmap,hpayload]
  tauto

/-- The payloads and the extensions are JSON values. -/
structure JsonInputs (input : ComposeInput) : Prop where
  brief_wf : input.briefPlaintext.WF
  brief_finite : input.briefPlaintext.Finite
  enclosure_wf : input.enclosurePlaintext.WF
  enclosure_finite : input.enclosurePlaintext.Finite
  postmark_wf : ∀ ms, input.postmark.extensions = some ms → (Json.obj ms).WF
  seal_wf : ∀ ms, input.sealExtensions = some ms → (Json.obj ms).WF
  extensions_wf : ∀ ms, input.extensions = some ms → (Json.obj ms).WF

/-- Inputs with the sizes that the fields' documentation asks for, and randomness for
every recipient. -/
structure Composable (C : Crypto) (input : ComposeInput) : Prop where
  seed_length : input.senderDomainSigningSeed.length = 32
  kBrief_length : input.kBrief.length = 32
  kEnclosure_length : input.kEnclosure.length = 32
  briefNonce_length : input.briefAEADNonce.length = 12
  enclosureNonce_length : input.enclosureAEADNonce.length = 12
  brief : ∀ r ∈ input.briefRecipients, Wrappable C input.suite (briefRandomness input) r
  enclosure : ∀ r ∈ input.enclosureRecipients,
    Wrappable C input.suite (enclosureRandomness input) r

theorem wf_recipientsJson {rs : List (JsString × JsString)} (h : (keys rs).Nodup) :
    (recipientsJson rs).WF := by
  refine Json.wf_obj.mpr ⟨?_,?_⟩
  · rwa [keys,List.map_map]
  · intro m hm
    obtain ⟨r,-,rfl⟩ := List.mem_map.mp hm
    trivial

theorem wf_getD {o : Option Members} (h : ∀ ms, o = some ms → (Json.obj ms).WF) :
    (Json.obj (o.getD [])).WF := by
  cases o with
  | none => exact Json.wf_obj.mpr ⟨List.nodup_nil,by simp⟩
  | some ms => exact h ms rfl

theorem assemble_wf (hjson : JsonInputs input) {brief enclosure : JsString}
    {br er : List (JsString × JsString)} (hbr : (keys br).Nodup) (her : (keys er).Nodup)
    (signature sessionMac : JsString) :
    ((assemble input brief enclosure br er).withProofs signature sessionMac).toJson.WF := by
  generalize henv : (assemble input brief enclosure br er).withProofs signature sessionMac = env
  have hp : env.postmark.toJson.WF := by
    subst henv
    exact Json.wf_of_keys [js "id",js "session_id",js "from_domain",js "to_domain",js "expires",
      js "extensions"] rfl (by decide)
      (by simp [assemble,Env.withProofs,optional,wf_getD hjson.postmark_wf])
  have hs : (Json.obj env.sealed.members).WF := by
    subst henv
    exact Json.wf_of_keys [js "algorithm",js "key_id",js "signature",js "session_mac",
      js "brief_recipients",js "enclosure_recipients",js "extensions"] rfl (by decide)
      (by simp [assemble,Env.withProofs,SealFields.members,optional,wf_recipientsJson hbr,wf_recipientsJson her,
        wf_getD hjson.seal_wf])
  have hpad : env.padding = some (input.padding.getD []) := henv ▸ rfl
  rw [Env.toJson,hpad]
  cases hx : input.extensions with
  | none =>
    have hx' : env.extensions = none := henv ▸ hx
    rw [hx']
    exact Json.wf_of_keys [js "type",js "version",js "postmark",js "seal",js "brief",
      js "enclosure",js "padding"] rfl (by decide) (by simp [optional,hp,hs])
  | some ms =>
    have hx' : env.extensions = some ms := henv ▸ hx
    have := hjson.extensions_wf ms hx
    rw [hx']
    exact Json.wf_of_keys [js "type",js "version",js "postmark",js "seal",js "brief",
      js "enclosure",js "extensions",js "padding"] rfl (by decide)
      (by simp [optional,hp,hs,this])

theorem canonicalEnvelopeFor_compose (hjson : JsonInputs input)
    (h : compose C input calls = .ok (env,calls')) :
    canonicalEnvelopeFor env.toJson = .ok (envelopeBytes env.toJson) := by
  obtain ⟨s,hs⟩ := compose_eq_ok.mp h
  have hbr := wrapAll_nodup hs.wrap_brief List.nodup_nil
  have her := wrapAll_nodup hs.wrap_enclosure List.nodup_nil
  rw [hs.result]
  exact canonicalEnvelopeFor_eq (assemble_wf hjson hbr her _ _)

/-- The bytes that were signed are the ones a verifier computes. -/
theorem Steps.Valid.canonical_eq {s : Steps} (h : s.Valid C input calls env calls')
    (hjson : JsonInputs input) : s.canonical = envelopeBytes env.toJson := by
  have hbr := wrapAll_nodup h.wrap_brief List.nodup_nil
  have her := wrapAll_nodup h.wrap_enclosure List.nodup_nil
  have hwf : (s.unsigned input).toJson.WF := assemble_wf hjson hbr her [] []
  have hcan := h.canonicalize
  rw [canonicalEnvelopeFor_eq hwf,Except.ok.injEq] at hcan
  rw [h.result,envelopeBytes_withProofs,hcan]

/-- Composing succeeds on inputs of the documented sizes. -/
theorem compose_ok (laws : Laws C) (hjson : JsonInputs input) (h : Composable C input)
    (calls : List SealCall) : ∃ env calls', compose C input calls = .ok (env,calls') := by
  obtain ⟨⟨bct,c₁⟩,hbct⟩ := recordedSeal_ok laws.aead h.kBrief_length h.briefNonce_length
    (Canonical.canonicalBytes input.briefPlaintext) (utf8 input.postmark.id) calls
  obtain ⟨⟨ect,c₂⟩,hect⟩ := recordedSeal_ok laws.aead h.kEnclosure_length h.enclosureNonce_length
    (Canonical.canonicalBytes input.enclosurePlaintext) (utf8 input.postmark.id) c₁
  obtain ⟨⟨br,c₃⟩,hbr⟩ := wrapAll_ok input.suite input.kBrief (js "brief")
    (briefRandomness input) laws h.brief [] c₂
  obtain ⟨⟨er,c₄⟩,her⟩ := wrapAll_ok input.suite input.kEnclosure (js "enclosure")
    (enclosureRandomness input) laws h.enclosure [] c₃
  obtain ⟨canonical,hcan⟩ : ∃ canonical, canonicalEnvelopeFor (assemble input
      (Base64.encode (input.briefAEADNonce++bct)) (Base64.encode (input.enclosureAEADNonce++ect))
      br er).toJson = .ok canonical :=
    ⟨_,canonicalEnvelopeFor_eq (assemble_wf hjson (wrapAll_nodup hbr List.nodup_nil)
      (wrapAll_nodup her List.nodup_nil) [] [])⟩
  obtain ⟨sig,hsig⟩ := sign_ok laws.sig h.seed_length (utf8 envelopePrefix++canonical)
  exact ⟨_,c₄,compose_eq_ok.mpr ⟨⟨Canonical.canonicalBytes input.briefPlaintext,bct,
    Canonical.canonicalBytes input.enclosurePlaintext,ect,br,er,canonical,sig,c₁,c₂,c₃⟩,{
      marshal_brief := Canonical.marshal_eq hjson.brief_wf
      seal_brief := hbct
      marshal_enclosure := Canonical.marshal_eq hjson.enclosure_wf
      seal_enclosure := hect
      wrap_brief := hbr
      wrap_enclosure := her
      canonicalize := hcan
      signs := hsig
      result := rfl }⟩⟩

theorem verifySealSignature_compose (laws : SignLaws C) (hjson : JsonInputs input)
    (h : compose C input calls = .ok (env,calls')) {senderPub : Bytes}
    (hpub : publicKeyFromSeed C input.senderDomainSigningSeed = .ok senderPub) :
    verifySealSignature C env senderPub = .ok true := by
  obtain ⟨s,hs⟩ := compose_eq_ok.mp h
  have hsig : env.sealed.signature = Base64.encode s.sig := by
    rw [hs.result]
    rfl
  have hne : s.sig ≠ [] := by
    intro h0
    have := sign_length laws hs.signs
    simp [h0] at this
  rw [verifySealSignature,if_neg (by rw [hsig,Base64.encode_eq_nil]; exact hne)]
  simp only [canonicalEnvelopeFor_compose hjson h,ok_bind,hsig,Base64.decode_encode,
    ← hs.canonical_eq hjson,verify_sign laws hpub hs.signs]

theorem verifySessionMAC_compose (hjson : JsonInputs input)
    (h : compose C input calls = .ok (env,calls')) :
    verifySessionMAC C env input.kEnvMAC = .ok true := by
  obtain ⟨s,hs⟩ := compose_eq_ok.mp h
  have hmac : env.sealed.sessionMac = Base64.encode (computeMAC C input.kEnvMAC s.canonical) := by
    rw [hs.result]
    rfl
  have hne : computeMAC C input.kEnvMAC s.canonical ≠ [] := by
    intro h0
    have := (C.hmacSha256 input.kEnvMAC s.canonical).property
    rw [show (C.hmacSha256 input.kEnvMAC s.canonical).val = [] from h0] at this
    simp at this
  rw [verifySessionMAC,if_neg (by rw [hmac,Base64.encode_eq_nil]; exact hne)]
  simp only [canonicalEnvelopeFor_compose hjson h,ok_bind,hmac,Base64.decode_encode,
    ← hs.canonical_eq hjson,constantTimeEqual_iff.mpr rfl]

/-- A slot opens with the private key of its recipient, to the value as a text carries it. -/
theorem openSlot_eq (laws : Laws C) {o : OpenInput} {slot text : JsString}
    {wrapped : List (JsString × JsString)} {key nonce ct : Bytes} {v : Json} {w : WrapRandomness}
    {c₁ c₂ c₃ c₄ : List SealCall} (hwf : v.WF)
    (hkeys : KeysMatch C o.suite o.recipientPrivateKey o.recipientPublicKey)
    (hlookup : lookup wrapped o.recipientKeyId = some text)
    (hwrap : wrapWithRandomness C o.suite o.recipientPublicKey key w c₁ = .ok (text,c₂))
    (hseal : recordedSeal C .chacha20poly1305 key nonce (Canonical.canonicalBytes v)
      (utf8 o.envelope.postmark.id) c₃ = .ok (ct,c₄)) :
    openSlot C o slot wrapped (Base64.encode (nonce++ct)) = .ok v.norm.reparse := by
  obtain ⟨hn,henc,-⟩ := recordedSeal_eq_ok.mp hseal
  obtain ⟨-,hopen⟩ := aeadOpen_recordedSeal laws.aead hseal
  have hunwrap := unwrap_wrapWithRandomness laws hkeys (laws.aead.key_length _ _ _ _ _ henc) hwrap
  simp only [openSlot,hlookup,hunwrap,ok_bind,Base64.decode_encode]
  rw [if_neg (by rw [List.length_append]; omega),← hn,List.take_left,List.drop_left,hopen,ok_bind]
  exact parseJson_eq_ok.mpr (Canonical.parse_canonicalBytes hwf)

theorem openBriefForRecipient_compose (laws : Laws C) (hjson : JsonInputs input)
    (hnd : (input.briefRecipients.map RecipientKey.keyId).Nodup)
    (h : compose C input calls = .ok (env,calls')) {r : RecipientKey}
    (hr : r ∈ input.briefRecipients) {sk : Bytes} (hkeys : KeysMatch C input.suite sk r.publicKey) :
    openBriefForRecipient C ⟨input.suite,env,r.keyId,sk,r.publicKey⟩ =
      .ok input.briefPlaintext.norm.reparse := by
  obtain ⟨s,hs⟩ := compose_eq_ok.mp h
  obtain ⟨w,text,mid,mid',hwrap,hlookup⟩ := lookup_wrapAll hs.wrap_brief hnd hr
  have hcanon : s.briefCanonical = Canonical.canonicalBytes input.briefPlaintext :=
    (Except.ok.inj ((Canonical.marshal_eq hjson.brief_wf).symm.trans hs.marshal_brief)).symm
  have hseal := hs.seal_brief
  rw [hcanon] at hseal
  have hres := hs.result
  subst hres
  exact openSlot_eq laws hjson.brief_wf hkeys hlookup hwrap hseal

/-- Recipients with key ids that are the fingerprints of their keys, without a repetition. -/
structure Recipients (C : Crypto) (rs : List RecipientKey) : Prop where
  distinct : (rs.map RecipientKey.keyId).Nodup
  fingerprints : ∀ r ∈ rs, fingerprint C r.publicKey = .ok r.keyId

/-- Open undoes compose: composing succeeds on inputs of the documented sizes, and
whenever it does both proofs verify and every recipient reads what was composed. -/
theorem open_compose (laws : Laws C) (input : ComposeInput) (hjson : JsonInputs input)
    (hbrief : Recipients C input.briefRecipients)
    (henclosure : Recipients C input.enclosureRecipients) (senderPub : Bytes)
    (hpub : publicKeyFromSeed C input.senderDomainSigningSeed = .ok senderPub) :
    (Composable C input → ∃ env calls, compose C input [] = .ok (env,calls)) ∧
      ∀ env calls, compose C input [] = .ok (env,calls) →
        verifySealSignature C env senderPub = .ok true ∧
        verifySessionMAC C env input.kEnvMAC = .ok true ∧
        (∀ r ∈ input.briefRecipients, ∀ sk, KeysMatch C input.suite sk r.publicKey →
          ∃ v, openBriefForRecipient C ⟨input.suite,env,r.keyId,sk,r.publicKey⟩ = .ok v ∧
            v.Same input.briefPlaintext) ∧
        ∀ r ∈ input.enclosureRecipients, ∀ sk, KeysMatch C input.suite sk r.publicKey →
          ∃ v, openEnclosureForRecipient C ⟨input.suite,env,r.keyId,sk,r.publicKey⟩ = .ok v ∧
            v.Same input.enclosurePlaintext := by
  refine ⟨fun hc => compose_ok laws hjson hc [],fun env calls h => ⟨?_,?_,?_,?_⟩⟩
  · exact verifySealSignature_compose laws.sig hjson h hpub
  · exact verifySessionMAC_compose hjson h
  · intro r hr sk hkeys
    exact ⟨_,openBriefForRecipient_compose laws hjson hbrief.distinct h hr hkeys,
      Canonical.norm_reparse_same hjson.brief_wf hjson.brief_finite⟩
  · intro r hr sk hkeys
    obtain ⟨s,hs⟩ := compose_eq_ok.mp h
    obtain ⟨w,text,mid,mid',hwrap,hlookup⟩ := lookup_wrapAll hs.wrap_enclosure henclosure.distinct hr
    have hcanon : s.enclosureCanonical = Canonical.canonicalBytes input.enclosurePlaintext :=
      (Except.ok.inj ((Canonical.marshal_eq hjson.enclosure_wf).symm.trans
        hs.marshal_enclosure)).symm
    have hseal := hs.seal_enclosure
    rw [hcanon] at hseal
    have hr := hs.result
    subst hr
    exact ⟨_,openSlot_eq laws hjson.enclosure_wf hkeys hlookup hwrap hseal,
      Canonical.norm_reparse_same hjson.enclosure_wf hjson.enclosure_finite⟩

end Compose

/-! One recipient of the brief and of the enclosure. -/
section Sample

def sampleKey : Bytes := List.replicate 32 5

def sampleRecipient : RecipientKey := ⟨hex (Sample.digest sampleKey).val,sampleKey⟩

def sampleRandomness (b : UInt8) : WrapRandomness := ⟨List.replicate 32 b,none⟩

def sampleInput (wrapRandomness : List (JsString × WrapRandomness)) : ComposeInput where
  suite := .x25519
  sealKeyId := js "d"
  senderDomainSigningSeed := List.replicate 32 7
  postmark := ⟨js "p",js "s",js "a",js "b",js "2026-01-01T00:00:00Z",none⟩
  briefPlaintext := .obj [(js "subject",.str (js "x"))]
  enclosurePlaintext := .obj [(js "body",.null)]
  briefRecipients := [sampleRecipient]
  enclosureRecipients := [sampleRecipient]
  kBrief := List.replicate 32 11
  kEnclosure := List.replicate 32 12
  kEnvMAC := List.replicate 32 13
  briefAEADNonce := List.replicate 12 14
  enclosureAEADNonce := List.replicate 12 15
  wrapRandomness := wrapRandomness
  extensions := none
  sealExtensions := none
  padding := none

/-- Only the entry of the brief wrap, which the enclosure wrap falls back to. -/
def sharedInput : ComposeInput := sampleInput [(sampleRecipient.keyId,sampleRandomness 1)]

/-- An entry of its own for the enclosure wrap. -/
def separateInput : ComposeInput :=
  sampleInput [(sampleRecipient.keyId,sampleRandomness 1),
    (js "enclosure:"++sampleRecipient.keyId,sampleRandomness 2)]

theorem sample_json (rand : List (JsString × WrapRandomness)) : JsonInputs (sampleInput rand) where
  brief_wf := Json.wf_of_keys [js "subject"] rfl (by decide) (by simp)
  brief_finite := by simp [sampleInput,Json.Finite]
  enclosure_wf := Json.wf_of_keys [js "body"] rfl (by decide) (by simp)
  enclosure_finite := by simp [sampleInput,Json.Finite]
  postmark_wf := nofun
  seal_wf := nofun
  extensions_wf := nofun

theorem enclosureKey_ne : js "enclosure:"++sampleRecipient.keyId ≠ sampleRecipient.keyId := by
  intro h
  have := congrArg List.length h
  simp only [js,List.length_append,List.length_map] at this
  simp at this

/-- The randomness of both wraps. -/
structure Uses (rand : List (JsString × WrapRandomness)) (b b' : UInt8) : Prop where
  brief : briefRandomness (sampleInput rand) sampleRecipient.keyId = some (sampleRandomness b)
  enclosure : enclosureRandomness (sampleInput rand) sampleRecipient.keyId =
    some (sampleRandomness b')

theorem sharedInput_uses : Uses [(sampleRecipient.keyId,sampleRandomness 1)] 1 1 where
  brief := by simp [briefRandomness,sampleInput,lookup]
  enclosure := by simp [enclosureRandomness,sampleInput,lookup,enclosureKey_ne.symm]

theorem separateInput_uses : Uses [(sampleRecipient.keyId,sampleRandomness 1),
    (js "enclosure:"++sampleRecipient.keyId,sampleRandomness 2)] 1 2 where
  brief := by simp [briefRandomness,sampleInput,lookup]
  enclosure := by simp [enclosureRandomness,sampleInput,lookup,enclosureKey_ne.symm]

variable {rand : List (JsString × WrapRandomness)} {b b' : UInt8}

theorem Uses.composable (h : Uses rand b b') : Composable Sample.crypto (sampleInput rand) where
  seed_length := rfl
  kBrief_length := rfl
  kEnclosure_length := rfl
  briefNonce_length := rfl
  enclosureNonce_length := rfl
  brief := by
    intro r hr
    obtain rfl := List.mem_singleton.mp hr
    exact ⟨_,sampleKey,h.brief,rfl,List.length_replicate,nofun⟩
  enclosure := by
    intro r hr
    obtain rfl := List.mem_singleton.mp hr
    exact ⟨_,sampleKey,h.enclosure,rfl,List.length_replicate,nofun⟩

theorem Uses.slots_eq (h : Uses rand b b') : slots (sampleInput rand) =
    [(sampleRandomness b,sampleKey),(sampleRandomness b',sampleKey)] := by
  change slotsOf .x25519 (briefRandomness (sampleInput rand)) [sampleRecipient]++
    slotsOf .x25519 (enclosureRandomness (sampleInput rand)) [sampleRecipient] = _
  simp only [slotsOf,List.filterMap_cons,List.filterMap_nil,h.brief,h.enclosure]
  rfl

/-- The sample keys are fresh. -/
theorem Uses.fresh (h : Uses rand b b') (hb : b = 1 ∨ b = 2) (hb' : b' = 1 ∨ b' = 2) :
    Fresh Sample.crypto (sampleInput rand) := by
  have hpayload (x : UInt8) (hx : x = 1 ∨ x = 2) :
      slotKey Sample.crypto .x25519 (sampleRandomness x,sampleKey) ≠ List.replicate 32 11 ∧
        slotKey Sample.crypto .x25519 (sampleRandomness x,sampleKey) ≠ List.replicate 32 12 := by
    rcases hx with rfl | rfl <;> decide +kernel
  have hkeys : slotKey Sample.crypto .x25519 (sampleRandomness 1,sampleKey) ≠
      slotKey Sample.crypto .x25519 (sampleRandomness 2,sampleKey) := by decide +kernel
  constructor
  · intro s hs t ht hne
    rw [h.slots_eq] at hs ht
    simp only [List.mem_cons,List.not_mem_nil,or_false] at hs ht
    rcases hb with rfl | rfl <;> rcases hb' with rfl | rfl <;> rcases hs with rfl | rfl <;>
      rcases ht with rfl | rfl <;>
      first | exact absurd rfl hne | exact hkeys | exact hkeys.symm
  · intro s hs
    rw [h.slots_eq] at hs
    simp only [List.mem_cons,List.not_mem_nil,or_false] at hs
    rcases hs with rfl | rfl
    · exact hpayload b hb
    · exact hpayload b' hb'

/-- With an entry of its own for the enclosure wrap, all four seals differ. -/
theorem compose_seals_distinct_separate : ∃ env calls,
    compose Sample.crypto separateInput [] = .ok (env,calls) ∧ (calls.Nodup ↔
      (slots separateInput).Nodup ∧ (separateInput.kBrief,separateInput.briefAEADNonce) ≠
        (separateInput.kEnclosure,separateInput.enclosureAEADNonce)) ∧
      (slots separateInput).Nodup := by
  obtain ⟨env,calls,h⟩ := compose_ok Sample.laws (sample_json _) separateInput_uses.composable []
  refine ⟨env,calls,h,compose_seals_distinct h
    (separateInput_uses.fresh (.inl rfl) (.inr rfl)),?_⟩
  rw [separateInput,separateInput_uses.slots_eq]
  decide

/-- With the entry of the brief wrap alone, both wraps of the recipient seal under one
key and the zero nonce. -/
theorem compose_reuses_wrapKey : ¬∀ (C : Crypto) (input : ComposeInput) (env : Env)
    (calls : List SealCall), Laws C → JsonInputs input → Composable C input → Fresh C input →
      compose C input [] = .ok (env,calls) → calls.Nodup := by
  intro hall
  obtain ⟨env,calls,h⟩ := compose_ok Sample.laws (sample_json _) sharedInput_uses.composable []
  have hnd := hall Sample.crypto sharedInput env calls Sample.laws (sample_json _)
    sharedInput_uses.composable (sharedInput_uses.fresh (.inl rfl) (.inl rfl)) h
  rw [calls_compose h,sharedInput_uses.slots_eq,List.nil_append] at hnd
  exact absurd (List.nodup_append'.mp hnd).2.1 (by simp)

/-- The recipient opens both slots. -/
theorem open_compose_sample : ∃ env calls, compose Sample.crypto separateInput [] = .ok (env,calls) ∧
    verifySealSignature Sample.crypto env (List.replicate 32 7) = .ok true ∧
    verifySessionMAC Sample.crypto env separateInput.kEnvMAC = .ok true ∧
    (∃ v, openBriefForRecipient Sample.crypto
        ⟨.x25519,env,sampleRecipient.keyId,sampleKey,sampleKey⟩ = .ok v ∧
      v.Same separateInput.briefPlaintext) ∧
    ∃ v, openEnclosureForRecipient Sample.crypto
        ⟨.x25519,env,sampleRecipient.keyId,sampleKey,sampleKey⟩ = .ok v ∧
      v.Same separateInput.enclosurePlaintext := by
  have hrs : Recipients Sample.crypto [sampleRecipient] := ⟨List.nodup_singleton _,by
    intro r hr
    obtain rfl := List.mem_singleton.mp hr
    rfl⟩
  obtain ⟨hok,hopen⟩ := open_compose Sample.laws separateInput (sample_json _) hrs hrs
    (List.replicate 32 7) rfl
  obtain ⟨env,calls,h⟩ := hok separateInput_uses.composable
  obtain ⟨hsig,hmac,hbrief,henclosure⟩ := hopen env calls h
  exact ⟨env,calls,h,hsig,hmac,hbrief sampleRecipient (List.mem_singleton.mpr rfl) sampleKey rfl,
    henclosure sampleRecipient (List.mem_singleton.mpr rfl) sampleKey rfl⟩

end Sample

end Envelope
end Semp
