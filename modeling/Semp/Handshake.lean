import Semp.SignedDoc
import Semp.JsDynamic

/-! The messages of the handshake, the confirmation hash, the encrypted identity proof,
and the check of a server signature.  A field whose value a peer chose, and nothing
checked, is any JSON value. -/
namespace Semp
namespace Handshake

/-- Thrown by a check of the code when `p` does not hold. -/
def require (p : Prop) [Decidable p] (message : JsString) : Js Unit :=
  if p then .ok () else raise message

/-- A field that must have been set. -/
def need {α : Type} (o : Option α) (message : JsString) : Js α :=
  match o with
  | some a => .ok a
  | none => raise message

def handshakePrefix : JsString := js "SEMP-HANDSHAKE:"
def handshakeVersion : JsString := js "1.0.0"
def identityPrefix : JsString := js "SEMP-IDENTITY:"
def messageType : JsString := js "SEMP_HANDSHAKE"

def strs (ss : List JsString) : Json := .arr (ss.map .str)

/-- A plain object of the caller: no key twice. -/
abbrev JsObject := {ms : Members // (Json.obj ms).WF}

structure KeyRef where
  algorithm : JsString
  key : JsString
  keyId : JsString
  deriving DecidableEq, Repr

def KeyRef.members (r : KeyRef) : Members :=
  [(js "algorithm",.str r.algorithm),(js "key",.str r.key),(js "key_id",.str r.keyId)]

structure Capabilities where
  encryptionAlgorithms : List JsString
  extensions : List JsString
  deriving DecidableEq, Repr

def Capabilities.members (c : Capabilities) : Members :=
  [(js "encryption_algorithms",strs c.encryptionAlgorithms),(js "extensions",strs c.extensions)]

/-- What both sides advertise by default. -/
def defaultClientCapabilities : Capabilities := ⟨[Suite.pq.name,Suite.x25519.name],[]⟩

structure Negotiated where
  encryptionAlgorithm : JsString
  extensions : List JsString
  deriving DecidableEq, Repr

def Negotiated.members (n : Negotiated) : Members :=
  [(js "encryption_algorithm",.str n.encryptionAlgorithm),(js "extensions",strs n.extensions)]

structure ServerIdentityProof where
  domain : JsString
  keyId : JsString
  signature : JsString
  deriving DecidableEq, Repr

def ServerIdentityProof.members (p : ServerIdentityProof) : Members :=
  [(js "domain",.str p.domain),(js "key_id",.str p.keyId),(js "signature",.str p.signature)]

structure ResumptionTicket where
  value : JsString
  expiresAt : JsString
  deriving DecidableEq, Repr

def ResumptionTicket.members (t : ResumptionTicket) : Members :=
  [(js "value",.str t.value),(js "expires_at",.str t.expiresAt)]

/-- `extensions ?? {}` -/
def extensionsOrEmpty : Option JsObject → Members
  | none => []
  | some ms => ms.val

def extensionsMember (extensions : Option JsObject) : JsString × Option Json :=
  (js "extensions",some (.obj (extensionsOrEmpty extensions)))

/-- The members every message starts with. -/
def header (step party : String) : List (JsString × Option Json) :=
  [(js "type",some (.str messageType)),(js "step",some (.str (js step))),
    (js "party",some (.str (js party))),(js "version",some (.str handshakeVersion))]

structure BuildInitInput where
  nonce : JsString
  transport : JsString
  clientEphemeralKey : KeyRef
  capabilities : Capabilities
  extensions : Option JsObject

def buildInit (input : BuildInitInput) : Members :=
  definedMembers (header "init" "client"++
    [(js "nonce",some (.str input.nonce)),(js "transport",some (.str input.transport)),
      (js "client_ephemeral_key",some (.obj input.clientEphemeralKey.members)),
      (js "capabilities",some (.obj input.capabilities.members)),
      extensionsMember input.extensions])

structure BuildResponseInput where
  sessionId : JsString
  clientNonce : Option Json
  serverNonce : JsString
  serverEphemeralKey : KeyRef
  serverIdentityProof : ServerIdentityProof
  negotiated : Negotiated
  serverDomainSigningSeed : Bytes
  extensions : Option JsObject

def responsePreSign (input : BuildResponseInput) : Members :=
  definedMembers (header "response" "server"++
    [(js "session_id",some (.str input.sessionId)),(js "client_nonce",input.clientNonce),
      (js "server_nonce",some (.str input.serverNonce)),
      (js "server_ephemeral_key",some (.obj input.serverEphemeralKey.members)),
      (js "server_identity_proof",some (.obj input.serverIdentityProof.members)),
      (js "negotiated",some (.obj input.negotiated.members)),
      (js "server_signature",some (.str [])),extensionsMember input.extensions])

structure BuildConfirmInput where
  sessionId : Option Json
  confirmationHashB64 : JsString
  identityProofB64 : JsString
  extensions : Option JsObject

def buildConfirm (input : BuildConfirmInput) : Members :=
  definedMembers (header "confirm" "client"++
    [(js "session_id",input.sessionId),
      (js "confirmation_hash",some (.str input.confirmationHashB64)),
      (js "identity_proof",some (.str input.identityProofB64)),extensionsMember input.extensions])

structure BuildAcceptedInput where
  sessionId : JsString
  sessionTTL : Number
  permissions : List JsString
  resumptionTicket : Option ResumptionTicket
  serverDomainSigningSeed : Bytes
  extensions : Option JsObject

def acceptedPreSign (input : BuildAcceptedInput) : Members :=
  definedMembers (header "accepted" "server"++
    [(js "session_id",some (.str input.sessionId)),(js "session_ttl",some (.num input.sessionTTL)),
      (js "permissions",some (strs input.permissions)),(js "server_signature",some (.str [])),
      extensionsMember input.extensions,
      (js "resumption_ticket",input.resumptionTicket.map fun t => .obj t.members)])

structure BuildRejectedInput where
  sessionId : JsString
  reasonCode : JsString
  reason : Option JsString
  serverDomainSigningSeed : Bytes
  extensions : Option JsObject

def rejectedPreSign (input : BuildRejectedInput) : Members :=
  definedMembers (header "rejected" "server"++
    [(js "session_id",some (.str input.sessionId)),(js "reason_code",some (.str input.reasonCode)),
      (js "server_signature",some (.str [])),extensionsMember input.extensions,
      (js "reason",input.reason.map .str)])

/-- The size check of the hybrid branch. -/
def checkEphemeralSize (suite : Suite) (ephPub : Bytes) (message : JsString) : Js Unit :=
  require (suite = .pq → ephPub.length = hybridPublicKeySize) message

structure ComposeIdentityProofInput where
  clientId : JsString
  clientIdentity : JsString
  clientLongTermSeed : Bytes
  clientLongTermKeyId : JsString
  sessionId : Option Json
  confirmationHash : Bytes
  encC2S : Bytes
  proofNonce : Option Bytes

structure IdentityProof where
  identityProofB64 : JsString
  block : Members
  nonce : Bytes

structure OpenIdentityProofInput where
  identityProofB64 : Option Json
  encC2S : Bytes
  sessionId : JsString

/-- The identity-proof block; callers leave the method block to its default. -/
def identityBlock (clientId clientIdentity clientLongTermKeyId identitySignature : JsString) :
    Members :=
  [(js "client_id",.str clientId),(js "client_identity",.str clientIdentity),
    (js "client_long_term_key_id",.str clientLongTermKeyId),
    (js "identity_signature",.str identitySignature),
    (js "auth",.obj [(js "method",.str (js "identity_key")),(js "params",.obj [])])]

section Code
variable (C : Crypto)

/-- The four signed builders sign the same member behind the same prefix. -/
def signMessage (preSign : Members) (seed : Bytes) : Js Members := do
  let signed ← SignedDoc.signSignedDoc C ⟨preSign,seed,js "server_signature",handshakePrefix⟩
  .ok signed.signedJSON

def buildResponse (input : BuildResponseInput) : Js Members :=
  signMessage C (responsePreSign input) input.serverDomainSigningSeed

def buildAccepted (input : BuildAcceptedInput) : Js Members :=
  signMessage C (acceptedPreSign input) input.serverDomainSigningSeed

def buildRejected (input : BuildRejectedInput) : Js Members :=
  signMessage C (rejectedPreSign input) input.serverDomainSigningSeed

def confirmationHash (message1Canonical message2Canonical : Bytes) : Bytes :=
  (C.sha256 (message1Canonical++message2Canonical)).val

/-- `composeIdentityProof`; `fresh` is the nonce drawn when none is pinned. -/
def composeIdentityProof (input : ComposeIdentityProofInput) (fresh : Bytes) :
    Js IdentityProof := do
  let sessionIdBytes ← encodeText input.sessionId
  let signed := utf8 identityPrefix++(sessionIdBytes++input.confirmationHash)
  let identitySig ← sign C input.clientLongTermSeed signed
  let block := identityBlock input.clientId input.clientIdentity input.clientLongTermKeyId
    (Base64.encode identitySig)
  let blockBytes := utf8 (JsonText.stringify (.obj block))
  let nonce := input.proofNonce.getD fresh
  require (nonce.length = 12)
    (js "composeIdentityProof: proofNonce must be 12 bytes, got "++natText nonce.length)
  let ct ← aeadSeal C .chacha20poly1305 input.encC2S nonce blockBytes sessionIdBytes
  .ok ⟨Base64.encode (nonce++ct),block,nonce⟩

def openIdentityProof (rt : Runtime) (input : OpenIdentityProofInput) : Js Json := do
  let wrapped ← base64Decode rt input.identityProofB64
  require (12 ≤ wrapped.length) (js "openIdentityProof: identity_proof too short")
  let pt ← aeadOpen C .chacha20poly1305 input.encC2S (wrapped.take 12) (wrapped.drop 12)
    (utf8 input.sessionId)
  parseJson (Utf8.textDecode pt)

def verifyServerSignature (message : Json) (signatureField : JsString) (serverDomainPub : Bytes) :
    Js Unit := do
  match ← getProp (some message) signatureField with
  | some (.str (u::s)) =>
    let clone ← parseJson (JsonText.stringify message)
    let clone ← setProp clone signatureField (.str [])
    let canonical ← Canonical.marshal clone
    require (verify C serverDomainPub (Base64.decode (u::s)) (utf8 handshakePrefix++canonical))
      (js "handshake: "++signatureField++js " did not verify under server domain key")
  | _ => raise (js "handshake: "++signatureField++js " missing or empty")

/-- The shared secret a client of the suite gets from the server's ephemeral key. -/
def clientShared (suite : Suite) (ephPriv serverEphPub : Bytes) : Js Bytes :=
  match suite with
  | .pq => hybridDecapsulate C serverEphPub ephPriv
  | .x25519 => x25519Agree C ephPriv serverEphPub

end Code

/-- The reason in the message of a rejection, when there is one. -/
def reasonText (reason : Option Json) : Js JsString :=
  match reason with
  | none => .ok []
  | some v => (toStringText v).map fun text => js " ("++text++js ")"

/-- `new HandshakeRejectedError(m.session_id, m.reason_code, m.reason)`, thrown: its
message is a template of the code and the reason. -/
def throwRejected {α : Type} (m : Json) : Js α := do
  let sessionId ← getProp (some m) (js "session_id")
  let reasonCode ← getProp (some m) (js "reason_code")
  let reason ← getProp (some m) (js "reason")
  let _ ← templateText reasonCode
  let _ ← reasonText reason
  .error (.handshakeRejected sessionId reasonCode reason)

@[simp] theorem require_eq_ok {p : Prop} [Decidable p] {message : JsString} {u : Unit} :
    require p message = .ok u ↔ p := by
  unfold require
  split_ifs with h <;> simp [h]

theorem require_of {p : Prop} [Decidable p] (h : p) (message : JsString) :
    require p message = .ok () := if_pos h

@[simp] theorem need_eq_ok {α : Type} {o : Option α} {message : JsString} {a : α} :
    need o message = .ok a ↔ o = some a := by
  cases o <;> simp [need]

@[simp] theorem throwRejected_ne_ok {α : Type} (m : Json) (a : α) :
    (throwRejected m : Js α) ≠ .ok a := by
  intro h
  simp [throwRejected,bind_eq_ok] at h

/-- An object literal whose names are `ks`. -/
theorem wf_literal {ms : List (JsString × Option Json)} (ks : List JsString) (hk : keys ms = ks)
    (hn : ks.Nodup) (hv : ∀ m ∈ ms, ∀ v ∈ m.2, v.WF) : (Json.obj (definedMembers ms)).WF :=
  wf_definedMembers (hk ▸ hn) hv

@[simp] theorem wf_strs (ss : List JsString) : (strs ss).WF := by
  rw [strs,Json.wf_arr]
  intro v hv
  obtain ⟨s,-,rfl⟩ := List.mem_map.mp hv
  exact Json.wf_str s

theorem wf_extensions (extensions : Option JsObject) :
    (Json.obj (extensionsOrEmpty extensions)).WF := by
  cases extensions with
  | none => exact Json.wf_obj.mpr ⟨List.nodup_nil,nofun⟩
  | some ms => exact ms.property

theorem KeyRef.wf (r : KeyRef) : (Json.obj r.members).WF :=
  Json.wf_of_keys [js "algorithm",js "key",js "key_id"] rfl (by decide) (by simp [members])

theorem Capabilities.wf (c : Capabilities) : (Json.obj c.members).WF :=
  Json.wf_of_keys [js "encryption_algorithms",js "extensions"] rfl (by decide) (by simp [members])

theorem Negotiated.wf (n : Negotiated) : (Json.obj n.members).WF :=
  Json.wf_of_keys [js "encryption_algorithm",js "extensions"] rfl (by decide) (by simp [members])

theorem ServerIdentityProof.wf (p : ServerIdentityProof) : (Json.obj p.members).WF :=
  Json.wf_of_keys [js "domain",js "key_id",js "signature"] rfl (by decide) (by simp [members])

theorem ResumptionTicket.wf (t : ResumptionTicket) : (Json.obj t.members).WF :=
  Json.wf_of_keys [js "value",js "expires_at"] rfl (by decide) (by simp [members])

theorem buildInit_wf (input : BuildInitInput) : (Json.obj (buildInit input)).WF :=
  wf_literal [js "type",js "step",js "party",js "version",js "nonce",js "transport",
    js "client_ephemeral_key",js "capabilities",js "extensions"] rfl (by decide) (by
      simp [header,extensionsMember,KeyRef.wf,Capabilities.wf,wf_extensions])

theorem responsePreSign_wf {i : BuildResponseInput} (h : ∀ v ∈ i.clientNonce, v.WF) :
    (Json.obj (responsePreSign i)).WF :=
  wf_literal [js "type",js "step",js "party",js "version",js "session_id",js "client_nonce",
    js "server_nonce",js "server_ephemeral_key",js "server_identity_proof",js "negotiated",
    js "server_signature",js "extensions"] rfl (by decide) (by
      simpa [header,extensionsMember,KeyRef.wf,Negotiated.wf,ServerIdentityProof.wf,
        wf_extensions] using h)

theorem buildConfirm_wf {i : BuildConfirmInput} (h : ∀ v ∈ i.sessionId, v.WF) :
    (Json.obj (buildConfirm i)).WF :=
  wf_literal [js "type",js "step",js "party",js "version",js "session_id",js "confirmation_hash",
    js "identity_proof",js "extensions"] rfl (by decide) (by
      simpa [header,extensionsMember,wf_extensions] using h)

theorem acceptedPreSign_wf (input : BuildAcceptedInput) :
    (Json.obj (acceptedPreSign input)).WF :=
  wf_literal [js "type",js "step",js "party",js "version",js "session_id",js "session_ttl",
    js "permissions",js "server_signature",js "extensions",js "resumption_ticket"] rfl
    (by decide) (by
      simp only [header,extensionsMember]
      simp [wf_extensions,ResumptionTicket.wf])

theorem rejectedPreSign_wf (input : BuildRejectedInput) :
    (Json.obj (rejectedPreSign input)).WF :=
  wf_literal [js "type",js "step",js "party",js "version",js "session_id",js "reason_code",
    js "server_signature",js "extensions",js "reason"] rfl (by decide) (by
      simp [header,extensionsMember,wf_extensions])

section Signed
variable {C : Crypto}

/-- The members of a clone. -/
def reparsed (ms : Members) : Members := ms.map fun m => (m.1,m.2.reparse)

theorem reparse_obj (ms : Members) : (Json.obj ms).reparse = .obj (reparsed ms) := by
  rw [Json.reparse,Json.reparseMembers_eq,reparsed]

theorem reparsed_wf {ms : Members} (h : (Json.obj ms).WF) : (Json.obj (reparsed ms)).WF := by
  rw [← reparse_obj]
  exact JsonText.parse_wf (JsonText.parse_stringify h)

/-- What a signed message is: the clone with the signature of its blanked form. -/
theorem signMessage_eq_ok {pre signed : Members} {seed : Bytes} (hwf : (Json.obj pre).WF)
    (h : signMessage C pre seed = .ok signed) :
    ∃ sig, sign C seed (utf8 handshakePrefix++Canonical.canonicalBytes
        (.obj (assign (reparsed pre) (js "server_signature") (.str [])))) = .ok sig ∧
      signed = assign (reparsed pre) (js "server_signature") (.str (Base64.encode sig)) := by
  obtain ⟨r,hr,h⟩ := bind_eq_ok.mp h
  obtain rfl := Except.ok.inj h
  obtain ⟨blank,sig,hblank,hbytes,hsig,hb64,hsigned⟩ := SignedDoc.signSignedDoc_eq_ok hr hwf
  have hpath : SignedDoc.splitDots (js "server_signature") = [js "server_signature"] := by decide
  simp only [SignedDoc.setPath,hpath,SignedDoc.setParts,Except.ok.injEq] at hblank hsigned
  refine ⟨sig,?_,?_⟩
  · rw [hbytes,← hblank] at hsig
    exact hsig
  · rw [← hsigned,hb64]
    rfl

theorem signMessage_ok (laws : SignLaws C) {pre : Members} {seed : Bytes}
    (hwf : (Json.obj pre).WF) (hseed : seed.length = 32) :
    ∃ signed, signMessage C pre seed = .ok signed := by
  have hpath : SignedDoc.splitDots (js "server_signature") = [js "server_signature"] := by decide
  obtain ⟨r,hr⟩ := SignedDoc.signSignedDoc_ok laws
    (s := ⟨pre,seed,js "server_signature",handshakePrefix⟩) hwf hseed
    (by rw [SignedDoc.setPath,hpath,SignedDoc.setParts])
  exact ⟨r.signedJSON,by rw [signMessage,hr,ok_bind]⟩

theorem signMessage_wf {pre signed : Members} {seed : Bytes} (hwf : (Json.obj pre).WF)
    (h : signMessage C pre seed = .ok signed) : (Json.obj signed).WF := by
  obtain ⟨sig,-,rfl⟩ := signMessage_eq_ok hwf h
  exact Json.wf_assign (reparsed_wf hwf) (Json.wf_str _) _

/-- Signing changes the signature member only. -/
theorem lookup_signMessage {pre signed : Members} {seed : Bytes} {k : JsString}
    (hwf : (Json.obj pre).WF) (h : signMessage C pre seed = .ok signed)
    (hk : k ≠ js "server_signature") :
    lookup signed k = (lookup pre k).map Json.reparse := by
  obtain ⟨sig,-,rfl⟩ := signMessage_eq_ok hwf h
  rw [lookup_assign_ne _ hk,reparsed,lookup_map]

/-- A received message carries a good signature when the sender signed it. -/
theorem verifyServerSignature_signMessage (laws : SignLaws C) {pre signed : Members}
    {seed pk : Bytes} (hwf : (Json.obj pre).WF) (hpk : publicKeyFromSeed C seed = .ok pk)
    (h : signMessage C pre seed = .ok signed) {w : Json} (hw : w.WF)
    (hnorm : w.norm = (Json.obj signed).norm) :
    verifyServerSignature C w (js "server_signature") pk = .ok () := by
  have hswf := signMessage_wf hwf h
  obtain ⟨sig,hsig,rfl⟩ := signMessage_eq_ok hwf h
  obtain ⟨ms,rfl⟩ := Json.norm_eq_obj hnorm
  have hlookup : lookup ms (js "server_signature") = some (.str (Base64.encode sig)) :=
    (Json.lookup_str_of_norm hw hswf hnorm).mpr (lookup_assign_self ..)
  obtain ⟨u,s,hus⟩ := List.exists_cons_of_ne_nil (encode_sign_ne_nil laws hsig)
  have hclone := reparsed_wf hw
  -- blanking the received copy gives the bytes that were signed
  have hblank : (Json.obj (assign (reparsed ms) (js "server_signature") (.str []))).norm =
      (Json.obj (assign (reparsed pre) (js "server_signature") (.str []))).norm := by
    have hr : (Json.obj (reparsed ms)).norm = (Json.obj (assign (reparsed pre)
        (js "server_signature") (.str (Base64.encode sig)))).norm := by
      rw [← reparse_obj,Json.norm_reparse,hnorm]
    rw [Json.norm_assign hclone hswf hr (Json.wf_str []) (Json.wf_str []) rfl,assign_assign]
  have hbytes := (Canonical.canonicalBytes_inj (Json.wf_assign hclone (Json.wf_str []) _)
    (Json.wf_assign (reparsed_wf hwf) (Json.wf_str []) _)).mpr hblank
  rw [verifyServerSignature,getProp_obj,hlookup,ok_bind,hus]
  simp only
  rw [parseJson_stringify hw,ok_bind,reparse_obj,setProp_obj,ok_bind,
    Canonical.marshal_eq (Json.wf_assign hclone (Json.wf_str []) _),ok_bind,hbytes,← hus,
    Base64.decode_encode]
  exact require_of (verify_sign laws hpk hsig) _

/-- What arrives when the canonical bytes of a message are read. -/
structure Received (signed ms : Members) : Prop where
  wf : (Json.obj ms).WF
  norm : (Json.obj ms).norm = (Json.obj signed).norm

theorem received {signed : Members} (hwf : (Json.obj signed).WF) : ∃ ms,
    parseJson (Utf8.textDecode (Canonical.canonicalBytes (.obj signed))) = .ok (.obj ms) ∧
      Received signed ms := by
  obtain ⟨w,hparse,hw,hnorm⟩ := Canonical.parseJson_norm hwf
  obtain ⟨ms,rfl⟩ := Json.norm_eq_obj hnorm
  exact ⟨ms,hparse,hw,hnorm⟩

namespace Received
variable {signed ms : Members}

theorem str (h : Received signed ms) (hwf : (Json.obj signed).WF) {k s : JsString}
    (hk : lookup signed k = some (.str s)) : lookup ms k = some (.str s) :=
  (Json.lookup_str_of_norm h.wf hwf h.norm).mpr hk

/-- The strings of an inner object arrive too. -/
theorem obj (h : Received signed ms) (hwf : (Json.obj signed).WF) {k : JsString} {sub : Members}
    (hk : lookup signed k = some (.obj sub)) :
    ∃ sub', lookup ms k = some (.obj sub') ∧ Received sub sub' := by
  obtain ⟨sub',hsub',hnorm⟩ := Json.lookup_obj_of_norm h.wf hwf h.norm hk
  exact ⟨sub',hsub',Json.wf_of_lookup h.wf hsub',hnorm⟩

/-- A list of strings arrives. -/
theorem strs (h : Received signed ms) (hwf : (Json.obj signed).WF) {k : JsString}
    {ss : List JsString} (hk : lookup signed k = some (Handshake.strs ss)) :
    lookup ms k = some (Handshake.strs ss) := by
  have he := (Json.norm_obj_eq_iff h.wf hwf).mp h.norm k
  rw [hk,Option.map_some,Option.map_eq_some_iff] at he
  obtain ⟨w,hw,hn⟩ := he
  rw [hw,Json.norm_eq_strs hn]
  rfl

theorem none (h : Received signed ms) (hwf : (Json.obj signed).WF) {k : JsString}
    (hk : lookup signed k = none) : lookup ms k = none := by
  have := (Json.norm_obj_eq_iff h.wf hwf).mp h.norm k
  rwa [hk,Option.map_none,Option.map_eq_none_iff] at this

end Received

/-- A string the sender wrote beside the signature arrives. -/
theorem signed_str {pre signed ms : Members} {seed : Bytes} (hwf : (Json.obj pre).WF)
    (h : signMessage C pre seed = .ok signed) (hr : Received signed ms) {k s : JsString}
    (hk : k ≠ js "server_signature") (hp : lookup pre k = some (.str s)) :
    lookup ms k = some (.str s) :=
  hr.str (signMessage_wf hwf h) (by rw [lookup_signMessage hwf h hk,hp]; rfl)

/-- An object of strings the sender wrote arrives. -/
theorem signed_obj {pre signed ms : Members} {seed : Bytes} (hwf : (Json.obj pre).WF)
    (h : signMessage C pre seed = .ok signed) (hr : Received signed ms) {k : JsString}
    {sub : Members} (hk : k ≠ js "server_signature") (hp : lookup pre k = some (.obj sub)) :
    ∃ sub', lookup ms k = some (.obj sub') ∧
      ∀ l s, lookup sub l = some (.str s) → lookup sub' l = some (.str s) := by
  have hsub := reparsed_wf (Json.wf_of_lookup hwf hp)
  obtain ⟨sub',hsub',hr'⟩ := hr.obj (signMessage_wf hwf h)
    ((lookup_signMessage hwf h hk).trans (by rw [hp,Option.map_some,reparse_obj]))
  refine ⟨sub',hsub',fun l s hl => hr'.str hsub ?_⟩
  rw [reparsed,lookup_map,hl]
  rfl

end Signed

section Identity
variable {C : Crypto}

theorem identityBlock_wf (a b c d : JsString) : (Json.obj (identityBlock a b c d)).WF :=
  Json.wf_of_keys [js "client_id",js "client_identity",js "client_long_term_key_id",
    js "identity_signature",js "auth"] rfl (by decide) (by
      simp only [identityBlock,List.mem_cons,List.not_mem_nil,or_false,forall_eq_or_imp,forall_eq,
        Json.wf_str,true_and]
      exact Json.wf_of_keys [js "method",js "params"] rfl (by decide) (by
        simp [Json.wf_obj]))

theorem identityBlock_reparse (a b c d : JsString) :
    (Json.obj (identityBlock a b c d)).reparse = .obj (identityBlock a b c d) := by
  simp [identityBlock,Json.reparse]

theorem composeIdentityProof_eq_ok {input : ComposeIdentityProofInput} {fresh : Bytes}
    {proof : IdentityProof} : composeIdentityProof C input fresh = .ok proof ↔
      ∃ sid sig ct, encodeText input.sessionId = .ok sid ∧
        sign C input.clientLongTermSeed (utf8 identityPrefix++(sid++input.confirmationHash)) =
          .ok sig ∧
        (input.proofNonce.getD fresh).length = 12 ∧
        aeadSeal C .chacha20poly1305 input.encC2S (input.proofNonce.getD fresh)
          (utf8 (JsonText.stringify (.obj (identityBlock input.clientId input.clientIdentity
            input.clientLongTermKeyId (Base64.encode sig))))) sid = .ok ct ∧
        proof = ⟨Base64.encode (input.proofNonce.getD fresh++ct),
          identityBlock input.clientId input.clientIdentity input.clientLongTermKeyId
            (Base64.encode sig),input.proofNonce.getD fresh⟩ := by
  unfold composeIdentityProof
  simp only [bind_eq_ok,require_eq_ok,Except.ok.injEq,exists_and_left,exists_const]
  constructor
  · rintro ⟨sid,hsid,sig,hsig,hn,ct,hct,rfl⟩
    exact ⟨sid,hsid,sig,hsig,hn,ct,hct,rfl⟩
  · rintro ⟨sid,hsid,sig,hsig,hn,ct,hct,rfl⟩
    exact ⟨sid,hsid,sig,hsig,hn,ct,hct,rfl⟩

theorem aeadSeal_chacha {key nonce text aad : Bytes} (hn : nonce.length = 12) :
    aeadSeal C .chacha20poly1305 key nonce text aad = C.chachaEncrypt key nonce aad text := by
  simp only [aeadSeal]
  rw [if_neg (not_not.mpr hn)]

theorem aeadOpen_chacha {key nonce text aad : Bytes} (hn : nonce.length = 12) :
    aeadOpen C .chacha20poly1305 key nonce text aad = C.chachaDecrypt key nonce aad text := by
  simp only [aeadOpen]
  rw [if_neg (not_not.mpr hn)]

/-- The proof of a client whose seed and nonce have the right sizes. -/
theorem composeIdentityProof_ok (laws : Laws C) {i : ComposeIdentityProofInput}
    {fresh : Bytes} {sid : JsString} (hsid : i.sessionId = some (.str sid))
    (hseed : i.clientLongTermSeed.length = 32) (hkey : i.encC2S.length = 32)
    (hn : (i.proofNonce.getD fresh).length = 12) :
    ∃ proof, composeIdentityProof C i fresh = .ok proof := by
  obtain ⟨sig,hsig⟩ := sign_ok laws.sig hseed
    (utf8 identityPrefix++(Utf8.textEncode sid++i.confirmationHash))
  obtain ⟨ct,hct,-⟩ := laws.aead.decrypt_encrypt i.encC2S (i.proofNonce.getD fresh)
    (Utf8.textEncode sid) (utf8 (JsonText.stringify (.obj (identityBlock i.clientId
      i.clientIdentity i.clientLongTermKeyId (Base64.encode sig))))) hkey hn
  refine ⟨_,composeIdentityProof_eq_ok.mpr ⟨_,sig,ct,by rw [hsid,encodeText_str],hsig,hn,?_,rfl⟩⟩
  rw [aeadSeal_chacha hn,hct]

/-- The server opens to the block the client sealed. -/
theorem openIdentityProof_compose (laws : Laws C) (rt : Runtime)
    {input : ComposeIdentityProofInput} {fresh : Bytes} {proof : IdentityProof} {sid : JsString}
    (hsid : input.sessionId = some (.str sid))
    (h : composeIdentityProof C input fresh = .ok proof) :
    openIdentityProof C rt ⟨some (.str proof.identityProofB64),input.encC2S,sid⟩ =
      .ok (.obj proof.block) := by
  obtain ⟨sid',sig,ct,hsid',hsig,hn,hct,rfl⟩ := composeIdentityProof_eq_ok.mp h
  rw [hsid,encodeText_str,Except.ok.injEq] at hsid'
  subst hsid'
  rw [aeadSeal_chacha hn] at hct
  obtain ⟨ct',hct',-,hdec⟩ := laws.aead.decrypt_encrypt _ _ _ _
    (laws.aead.key_length _ _ _ _ _ hct) hn
  obtain rfl : ct = ct' := Except.ok.inj (hct.symm.trans hct')
  generalize input.proofNonce.getD fresh = nonce at *
  simp only [openIdentityProof,base64Decode_str,Base64.decode_encode,ok_bind]
  rw [require_of (by rw [List.length_append]; omega),ok_bind,← hn,List.take_left,List.drop_left,
    aeadOpen_chacha hn]
  change (C.chachaDecrypt _ _ (Utf8.textEncode sid) _ >>= _) = _
  rw [hdec,ok_bind,utf8,JsonText.textDecode_stringify,parseJson_stringify (identityBlock_wf ..),
    identityBlock_reparse]

end Identity

end Handshake
end Semp
