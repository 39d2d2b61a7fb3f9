import Semp.Handshake
import Semp.Method

/-! The message-driven handshake client: `init`, `onResponse`, `onAccepted`, `session`
and `erase` on the fields of the class.  Entropy is an argument of the method that
draws it. -/
namespace Semp

/-- The identity-proof material of a client. -/
structure ClientIdentity where
  clientId : JsString
  clientIdentity : JsString
  longTermSeed : Bytes
  longTermKeyId : JsString
  proofNonce : Option Bytes
  deriving DecidableEq, Repr

/-- `HandshakeClientConfig`, and `ClientConfig` of the driver. -/
structure ClientConfig where
  suite : JsString
  capabilities : Handshake.Capabilities
  transport : JsString
  serverDomainPub : Bytes
  clientEphemeralPriv : Option Bytes
  clientNonce : Option Bytes
  identity : Option ClientIdentity
  deriving DecidableEq, Repr

/-- What `randomBytes` and the hybrid key generation draw on the client's side. -/
structure ClientEntropy where
  ephemeralPriv : Bytes
  kyberSeed : Bytes
  nonce : Bytes
  proofNonce : Bytes
  deriving DecidableEq, Repr

/-- `HandshakeClientSession`, and `ClientSession` of the driver. -/
structure ClientSession where
  sessionId : Option Json
  sessionTTL : Option Json
  permissions : Option Json
  keys : SessionKeys
  serverIdentityProofKeyId : Option Json
  serverIdentityProofSignature : Option Json
  extensions : Option Json
  resumptionTicket : Option Json

def Suite.ofName (name : JsString) : Option Suite :=
  if name = Suite.x25519.name then some .x25519
  else if name = Suite.pq.name then some .pq
  else none

/-- The fields of the class; `none` is `null`, and `undefined` in a field a peer filled. -/
structure HandshakeClient where
  suite : Suite
  serverDomainPub : Bytes
  capabilities : Handshake.Capabilities
  transportId : JsString
  identity : Option ClientIdentity
  nonce : Option Bytes
  ephPriv : Option Bytes
  ephPub : Option Bytes
  initCanonical : Option Bytes
  sessionId : Option Json
  sessionKeys : Option SessionKeys
  serverIdProofKeyId : Option Json
  serverIdProofSignature : Option Json
  finalSession : Option ClientSession

namespace Handshake

/-- The key id of an ephemeral public key. -/
def ephemeralKeyId (C : Crypto) (suite : Suite) (ephPub : Bytes) : Js JsString :=
  match suite with
  | .pq => .ok (hexSha256 C ephPub)
  | .x25519 => fingerprint C ephPub

/-- The INIT of a client, from what it generated. -/
def clientInit (suite : Suite) (nonce ephPub : Bytes) (ephKeyId transport : JsString)
    (capabilities : Capabilities) : Members :=
  buildInit ⟨Base64.encode nonce,transport,⟨suite.name,Base64.encode ephPub,ephKeyId⟩,
    capabilities,none⟩

/-- The `identity_proof` of a CONFIRM: empty without an identity. -/
def clientIdentityProof (C : Crypto) (identity : Option ClientIdentity) (sessionId : Option Json)
    (ch encC2S fresh : Bytes) : Js JsString :=
  match identity with
  | none => .ok []
  | some i => do
    let proof ← composeIdentityProof C ⟨i.clientId,i.clientIdentity,i.longTermSeed,
      i.longTermKeyId,sessionId,ch,encC2S,i.proofNonce⟩ fresh
    .ok proof.identityProofB64

/-- `a ?? "?"` -/
def orQuestionMark (v : Option Json) : Option Json := some (orElse v (.str (js "?")))

/-- The refusal of a message of another type or step. -/
def expectTypeStep (m : Json) (step : String) : Js Unit := do
  let type ← getProp (some m) (js "type")
  let found ← getProp (some m) (js "step")
  if isStr type messageType && isStr found (js step) then .ok ()
  else do
    let typeText ← templateText (orQuestionMark type)
    let stepText ← templateText (orQuestionMark found)
    raise (js "handshake: "++js step++js " type/step mismatch ("++typeText++js "/"++stepText++
      js ")")

/-- A REJECTED message ends the handshake. -/
def refuseRejected (m : Json) : Js Unit := do
  let step ← getProp (some m) (js "step")
  if isStr step (js "rejected") then throwRejected m else .ok ()

end Handshake

namespace HandshakeClient
open Handshake

section Code
variable (C : Crypto) (rt : Runtime)

def new (cfg : ClientConfig) : Js HandshakeClient := do
  let suite ← need (Suite.ofName cfg.suite)
    (js "handshake: unsupported suite "++JsonText.quote cfg.suite)
  require (cfg.serverDomainPub.length ≠ 0) (js "handshake: empty server domain pub")
  require (cfg.transport ≠ []) (js "handshake: empty transport identifier")
  .ok {
    suite := suite
    serverDomainPub := cfg.serverDomainPub
    capabilities := cfg.capabilities
    transportId := cfg.transport
    identity := cfg.identity
    nonce := cfg.clientNonce
    ephPriv := cfg.clientEphemeralPriv
    ephPub := none
    initCanonical := none
    sessionId := some (.str [])
    sessionKeys := none
    serverIdProofKeyId := some (.str [])
    serverIdProofSignature := some (.str [])
    finalSession := none }

/-- The ephemeral key pair of `init`: generated, or a pinned private key's. -/
def generateEphemeral (entropy : ClientEntropy) : Method Thrown HandshakeClient Bytes := do
  let c ← get
  match c.suite with
  | .pq => do
    require (c.ephPriv = none)
      (js "handshake: PQ suite does not accept pre-pinned clientEphemeralPriv")
    let kp ← hybridGenerateKeyPair C entropy.ephemeralPriv entropy.kyberSeed
    modify fun c => {c with ephPriv := some kp.secretKey, ephPub := some kp.publicKey}
    return kp.publicKey
  | .x25519 => do
    let ephPriv := c.ephPriv.getD entropy.ephemeralPriv
    modify fun c => {c with ephPriv := some ephPriv}
    let ephPub ← x25519PublicKey C ephPriv
    modify fun c => {c with ephPub := some ephPub}
    return ephPub

def init (entropy : ClientEntropy) : Method Thrown HandshakeClient Bytes := do
  let c ← get
  require (c.initCanonical = none) (js "handshake: init already called")
  let ephPub ← generateEphemeral C entropy
  let nonce := c.nonce.getD entropy.nonce
  modify fun c => {c with nonce := some nonce}
  let ephKeyId ← ephemeralKeyId C c.suite ephPub
  let bytes ← Canonical.marshal
    (.obj (clientInit c.suite nonce ephPub ephKeyId c.transportId c.capabilities))
  modify fun c => {c with initCanonical := some bytes}
  return bytes

def onResponse (entropy : ClientEntropy) (data : Bytes) :
    Method Thrown HandshakeClient Bytes := do
  let c ← get
  let initCanonical ← need c.initCanonical (js "handshake: onResponse before init")
  let ephPriv ← need c.ephPriv (js "handshake: ephemeral state missing")
  let nonce ← need c.nonce (js "handshake: ephemeral state missing")
  let m ← parseJson (Utf8.textDecode data)
  refuseRejected m
  expectTypeStep m "response"
  let clientNonce ← getProp (some m) (js "client_nonce")
  require (isStr clientNonce (Base64.encode nonce)) (js "handshake: response client_nonce mismatch")
  verifyServerSignature C m (js "server_signature") c.serverDomainPub
  let ephKey ← getProp (← getProp (some m) (js "server_ephemeral_key")) (js "key")
  let serverEphPub ← base64Decode rt ephKey
  let serverNonce ← base64Decode rt (← getProp (some m) (js "server_nonce"))
  -- a public key that is missing has no size either
  checkEphemeralSize c.suite (c.ephPub.getD [])
    (js "handshake: PQ ephemeral pub missing or wrong size")
  let shared ← clientShared C c.suite ephPriv serverEphPub
  let keys := deriveSessionKeysWithResumption C shared nonce serverNonce
  modify fun c => {c with ephPriv := none}
  let respCanonical ← Canonical.marshal m
  let ch := confirmationHash C initCanonical respCanonical
  let sessionId ← getProp (some m) (js "session_id")
  let identityProofB64 ← clientIdentityProof C c.identity sessionId ch keys.encC2S
    entropy.proofNonce
  let confirm := buildConfirm ⟨sessionId,Base64.encode ch,identityProofB64,none⟩
  modify fun c => {c with sessionId := sessionId, sessionKeys := some keys}
  let proof ← getProp (some m) (js "server_identity_proof")
  let keyId ← getProp proof (js "key_id")
  modify fun c => {c with serverIdProofKeyId := keyId}
  let signature ← getProp proof (js "signature")
  modify fun c => {c with serverIdProofSignature := signature}
  Canonical.marshal (.obj confirm)

def onAccepted (data : Bytes) : Method Thrown HandshakeClient Unit := do
  let c ← get
  let keys ← need c.sessionKeys (js "handshake: onAccepted before onResponse")
  let m ← parseJson (Utf8.textDecode data)
  refuseRejected m
  expectTypeStep m "accepted"
  let sessionId ← getProp (some m) (js "session_id")
  require (strictEq sessionId c.sessionId) (js "handshake: accepted session_id mismatch")
  verifyServerSignature C m (js "server_signature") c.serverDomainPub
  let sessionTTL ← getProp (some m) (js "session_ttl")
  let positive ← gtZero sessionTTL
  let permissions ← getProp (some m) (js "permissions")
  let extensions ← getProp (some m) (js "extensions")
  let ticket ← getProp (some m) (js "resumption_ticket")
  modify fun c => {c with finalSession := some {
    sessionId := sessionId
    sessionTTL := if positive then sessionTTL else some (.num (.ofNat 300))
    permissions := permissions
    keys := keys
    serverIdentityProofKeyId := c.serverIdProofKeyId
    serverIdentityProofSignature := c.serverIdProofSignature
    extensions := extensions
    resumptionTicket := ticket }}

def session : Method Thrown HandshakeClient ClientSession := do
  let c ← get
  need c.finalSession (js "handshake: session not yet established (call onAccepted first)")

def erase : Method Thrown HandshakeClient Unit :=
  modify fun c => {c with ephPriv := none, sessionKeys := none}

end Code

end HandshakeClient

namespace Handshake

/-- What a client holds once its INIT is out. -/
structure Offer where
  suite : Suite
  nonce : Bytes
  ephPriv : Bytes
  ephPub : Bytes
  initCanonical : Bytes
  serverDomainPub : Bytes
  identity : Option ClientIdentity
  proofNonce : Bytes

/-- What a client takes from a RESPONSE. -/
structure Answer where
  serverEphPub : Bytes
  serverNonce : Bytes
  shared : Bytes
  sessionId : Option Json
  keyId : Option Json
  signature : Option Json
  confirm : Bytes

section Checks
variable (C : Crypto) (rt : Runtime)

def Answer.keys (a : Answer) (o : Offer) : SessionKeys :=
  deriveSessionKeysWithResumption C a.shared o.nonce a.serverNonce

/-- The RESPONSE passes the checks that both clients make, with this answer. -/
structure ResponseOk (o : Offer) (ms : Members) (a : Answer) : Prop where
  type : lookup ms (js "type") = some (.str messageType)
  step : lookup ms (js "step") = some (.str (js "response"))
  signed : verifyServerSignature C (.obj ms) (js "server_signature") o.serverDomainPub = .ok ()
  ephemeral : ∃ key, getProp (lookup ms (js "server_ephemeral_key")) (js "key") = .ok key ∧
    base64Decode rt key = .ok a.serverEphPub
  serverNonce : base64Decode rt (lookup ms (js "server_nonce")) = .ok a.serverNonce
  size : o.suite = .pq → o.ephPub.length = hybridPublicKeySize
  shared : clientShared C o.suite o.ephPriv a.serverEphPub = .ok a.shared
  sessionId : a.sessionId = lookup ms (js "session_id")
  confirm : let ch := confirmationHash C o.initCanonical (Canonical.canonicalBytes (.obj ms))
    ∃ proof, clientIdentityProof C o.identity a.sessionId ch (a.keys C o).encC2S o.proofNonce =
        .ok proof ∧
      a.confirm = Canonical.canonicalBytes
        (.obj (buildConfirm ⟨a.sessionId,Base64.encode ch,proof,none⟩))
  keyId : getProp (lookup ms (js "server_identity_proof")) (js "key_id") = .ok a.keyId
  signature : getProp (lookup ms (js "server_identity_proof")) (js "signature") = .ok a.signature

/-- The ACCEPTED passes the checks that both clients make. -/
structure AcceptedOk (serverDomainPub : Bytes) (ms : Members) : Prop where
  type : lookup ms (js "type") = some (.str messageType)
  step : lookup ms (js "step") = some (.str (js "accepted"))
  signed : verifyServerSignature C (.obj ms) (js "server_signature") serverDomainPub = .ok ()

/-- The key pair of an INIT: generated, or a pinned private key's. -/
def Ephemeral (suite : Suite) (pinned : Option Bytes) (entropy : ClientEntropy)
    (ephPriv ephPub : Bytes) : Prop :=
  match suite with
  | .pq => pinned = none ∧
    hybridGenerateKeyPair C entropy.ephemeralPriv entropy.kyberSeed = .ok ⟨ephPub,ephPriv⟩
  | .x25519 => ephPriv = pinned.getD entropy.ephemeralPriv ∧ x25519PublicKey C ephPriv = .ok ephPub

end Checks

theorem getProp_eq_str {m : Json} {k s : JsString} :
    getProp (some m) k = .ok (some (.str s)) ↔ ∃ ms, m = .obj ms ∧ lookup ms k = some (.str s) := by
  cases m <;> simp [getProp,raiseType]

theorem expectTypeStep_eq_ok {m : Json} {step : String} {u : Unit} :
    expectTypeStep m step = .ok u ↔ ∃ ms, m = .obj ms ∧
      lookup ms (js "type") = some (.str messageType) ∧
      lookup ms (js "step") = some (.str (js step)) := by
  unfold expectTypeStep
  constructor
  · intro h
    obtain ⟨type,htype,h⟩ := bind_eq_ok.mp h
    obtain ⟨found,hfound,h⟩ := bind_eq_ok.mp h
    split_ifs at h with hs
    · rw [Bool.and_eq_true,isStr_iff,isStr_iff] at hs
      obtain ⟨rfl,rfl⟩ := hs
      obtain ⟨ms,rfl,ht⟩ := getProp_eq_str.mp htype
      exact ⟨ms,rfl,ht,Except.ok.inj hfound⟩
    · simp [bind_eq_ok] at h
  · rintro ⟨ms,rfl,ht,hs⟩
    rw [getProp_obj,getProp_obj,ht,hs,ok_bind,ok_bind,if_pos]
    simp [isStr]

theorem refuseRejected_obj {ms : Members} {u : Unit} (step : String)
    (hs : lookup ms (js "step") = some (.str (js step))) (hne : js step ≠ js "rejected") :
    refuseRejected (.obj ms) = .ok u := by
  rw [refuseRejected,getProp_obj,hs,ok_bind,if_neg]
  simpa [isStr] using hne

end Handshake

namespace HandshakeClient
open Handshake Method

variable {C : Crypto} {rt : Runtime}

theorem generateEphemeral_eq_ok {entropy : ClientEntropy} {c c' : HandshakeClient}
    {ephPub : Bytes} : (generateEphemeral C entropy).call c = (.ok ephPub,c') ↔
      ∃ ephPriv, Ephemeral C c.suite c.ephPriv entropy ephPriv ephPub ∧
        c' = {c with ephPriv := some ephPriv, ephPub := some ephPub} := by
  rw [generateEphemeral,get_bind]
  cases c with
  | mk suite =>
    cases suite with
    | pq =>
      simp only [lift_bind_eq_ok,modify_bind,call_pure,require_eq_ok,Prod.mk.injEq,
        Except.ok.injEq,Ephemeral]
      constructor
      · rintro ⟨-,hp,kp,hkp,rfl,rfl⟩
        exact ⟨kp.secretKey,⟨hp,hkp⟩,rfl⟩
      · rintro ⟨ephPriv,⟨hp,hkp⟩,rfl⟩
        exact ⟨(),hp,_,hkp,rfl,rfl⟩
    | x25519 =>
      simp only [lift_bind_eq_ok,modify_bind,call_pure,Prod.mk.injEq,Except.ok.injEq,Ephemeral]
      constructor
      · rintro ⟨pub,hpub,rfl,rfl⟩
        exact ⟨_,⟨rfl,hpub⟩,rfl⟩
      · rintro ⟨ephPriv,⟨rfl,hpub⟩,rfl⟩
        exact ⟨_,hpub,rfl,rfl⟩

theorem clientInit_wf (suite : Suite) (nonce ephPub : Bytes) (ephKeyId transport : JsString)
    (capabilities : Capabilities) :
    (Json.obj (clientInit suite nonce ephPub ephKeyId transport capabilities)).WF :=
  buildInit_wf _

/-- What `init` returns and leaves in the fields. -/
theorem init_eq_ok {entropy : ClientEntropy} {c c' : HandshakeClient} {bytes : Bytes} :
    (init C entropy).call c = (.ok bytes,c') ↔ c.initCanonical = none ∧
      ∃ ephPriv ephPub ephKeyId, Ephemeral C c.suite c.ephPriv entropy ephPriv ephPub ∧
        ephemeralKeyId C c.suite ephPub = .ok ephKeyId ∧
        bytes = Canonical.canonicalBytes (.obj (clientInit c.suite (c.nonce.getD entropy.nonce)
          ephPub ephKeyId c.transportId c.capabilities)) ∧
        c' = {c with
          ephPriv := some ephPriv
          ephPub := some ephPub
          nonce := some (c.nonce.getD entropy.nonce)
          initCanonical := some bytes} := by
  rw [init,get_bind,lift_bind_eq_ok]
  simp only [require_eq_ok,Method.bind_eq_ok (x := generateEphemeral C entropy),
    generateEphemeral_eq_ok,lift_bind_eq_ok,modify_bind,call_pure,
    Canonical.marshal_eq (clientInit_wf ..),Prod.mk.injEq,Except.ok.injEq]
  constructor
  · rintro ⟨-,hn,pub,_,⟨priv,he,rfl⟩,keyId,hk,_,rfl,rfl,rfl⟩
    exact ⟨hn,priv,pub,keyId,he,hk,rfl,rfl⟩
  · rintro ⟨hn,priv,pub,keyId,he,hk,hbytes,rfl⟩
    obtain rfl := hbytes.symm
    exact ⟨(),hn,pub,_,⟨priv,he,rfl⟩,keyId,hk,_,rfl,rfl,rfl⟩

/-- The fields hold the offer. -/
structure Offers (c : HandshakeClient) (o : Offer) : Prop where
  suite : c.suite = o.suite
  nonce : c.nonce = some o.nonce
  ephPriv : c.ephPriv = some o.ephPriv
  ephPub : c.ephPub.getD [] = o.ephPub
  initCanonical : c.initCanonical = some o.initCanonical
  serverDomainPub : c.serverDomainPub = o.serverDomainPub
  identity : c.identity = o.identity

/-- The fields after a RESPONSE was answered. -/
def afterResponse (C : Crypto) (c : HandshakeClient) (o : Offer) (a : Answer) : HandshakeClient :=
  {c with
    ephPriv := none
    sessionId := a.sessionId
    sessionKeys := some (a.keys C o)
    serverIdProofKeyId := a.keyId
    serverIdProofSignature := a.signature}

/-- The RESPONSE repeats the client's nonce. -/
def Echoes (o : Offer) (ms : Members) : Prop :=
  lookup ms (js "client_nonce") = some (.str (Base64.encode o.nonce))

theorem buildConfirm_wf_of {ms : Members} (hwf : (Json.obj ms).WF) {k ch proof : JsString} :
    (Json.obj (buildConfirm ⟨lookup ms k,ch,proof,none⟩)).WF :=
  buildConfirm_wf fun _ hv => Json.wf_of_lookup hwf hv

/-- What `onResponse` accepts, returns and leaves in the fields. -/
theorem onResponse_eq_ok {entropy : ClientEntropy} {c c' : HandshakeClient} {data confirm : Bytes}
    {o : Offer} (hc : Offers c o) (he : o.proofNonce = entropy.proofNonce) :
    (onResponse C rt entropy data).call c = (.ok confirm,c') ↔
      ∃ ms a, parseJson (Utf8.textDecode data) = .ok (.obj ms) ∧ Echoes o ms ∧
        ResponseOk C rt o ms a ∧ confirm = a.confirm ∧ c' = afterResponse C c o a := by
  rw [onResponse,get_bind]
  simp only [lift_bind_eq_ok,modify_bind,lift_eq_ok,need_eq_ok,require_eq_ok,
    expectTypeStep_eq_ok,checkEphemeralSize,isStr_iff,hc.initCanonical,hc.ephPriv,hc.nonce,
    hc.suite,hc.serverDomainPub,hc.identity,hc.ephPub]
  have hafter (a : Answer) {sid : Option Json} (hsid : a.sessionId = sid) :
      {c with
        suite := o.suite
        serverDomainPub := o.serverDomainPub
        identity := o.identity
        nonce := some o.nonce
        initCanonical := some o.initCanonical
        ephPriv := none
        sessionId := sid
        sessionKeys := some (deriveSessionKeysWithResumption C a.shared o.nonce a.serverNonce)
        serverIdProofKeyId := a.keyId
        serverIdProofSignature := a.signature} = afterResponse C c o a := by
    simp only [afterResponse,Answer.keys,hc.suite,hc.serverDomainPub,hc.identity,hc.nonce,
      hc.initCanonical,hsid]
  constructor
  · rintro ⟨_,⟨⟩,_,⟨⟩,_,⟨⟩,m,hparse,_,_,_,⟨ms,rfl,htype,hstep⟩,n,hn,_,hecho,_,hsig,eph,heph,
      key,hkey,pub,hpub,sn,hsn,sNonce,hsNonce,_,hsize,shared,hshared,h⟩
    obtain ⟨resp,hresp,sid,hsid,proof,hproof,idp,hidp,keyId,hkeyId,sig,hsign,hconfirm,rfl⟩ := h
    have hwf : (Json.obj ms).WF := JsonText.parse_wf (parseJson_eq_ok.mp hparse)
    rw [getProp_obj,Except.ok.injEq] at hn heph hsn hsid hidp
    subst hn heph hsn hsid hidp
    rw [Canonical.marshal_eq hwf,Except.ok.injEq] at hresp
    subst hresp
    rw [Canonical.marshal_eq (buildConfirm_wf_of hwf),Except.ok.injEq] at hconfirm
    rw [← he] at hproof
    exact ⟨ms,⟨pub,sNonce,shared,lookup ms (js "session_id"),keyId,sig,confirm⟩,hparse,hecho,
      ⟨htype,hstep,hsig,⟨key,hkey,hpub⟩,hsNonce,hsize,hshared,rfl,⟨proof,hproof,hconfirm.symm⟩,
        hkeyId,hsign⟩,rfl,
      hafter ⟨pub,sNonce,shared,lookup ms (js "session_id"),keyId,sig,confirm⟩ rfl⟩
  · rintro ⟨ms,a,hparse,hecho,h,rfl,rfl⟩
    have hwf : (Json.obj ms).WF := JsonText.parse_wf (parseJson_eq_ok.mp hparse)
    obtain ⟨key,hkey,hpub⟩ := h.ephemeral
    obtain ⟨proof,hproof,hconfirm⟩ := h.confirm
    rw [he,h.sessionId] at hproof
    rw [h.sessionId] at hconfirm
    refine ⟨_,rfl,_,rfl,_,rfl,_,hparse,(),refuseRejected_obj "response" h.step (by decide),(),
      ⟨ms,rfl,h.type,h.step⟩,_,rfl,(),hecho,(),h.signed,_,rfl,key,hkey,_,hpub,_,rfl,_,
      h.serverNonce,(),h.size,_,h.shared,_,Canonical.marshal_eq hwf,_,rfl,proof,hproof,_,rfl,_,
      h.keyId,_,h.signature,?_,?_⟩
    · rw [Canonical.marshal_eq (buildConfirm_wf_of hwf),hconfirm]
    · exact (hafter a h.sessionId).symm

/-- The session of an ACCEPTED, with the session TTL `ttl`. -/
def acceptedSession (ms : Members) (keys : SessionKeys) (ttl keyId signature : Option Json) :
    ClientSession where
  sessionId := lookup ms (js "session_id")
  sessionTTL := ttl
  permissions := lookup ms (js "permissions")
  keys := keys
  serverIdentityProofKeyId := keyId
  serverIdentityProofSignature := signature
  extensions := lookup ms (js "extensions")
  resumptionTicket := lookup ms (js "resumption_ticket")

/-- `acc.session_ttl > 0 ? acc.session_ttl : 300` -/
def ttlOf (positive : Bool) (ms : Members) : Option Json :=
  if positive then lookup ms (js "session_ttl") else some (.num (.ofNat 300))

/-- What `onAccepted` accepts and leaves in the fields. -/
theorem onAccepted_eq_ok {c c' : HandshakeClient} {data : Bytes} {u : Unit} :
    (onAccepted C data).call c = (.ok u,c') ↔ ∃ keys ms positive, c.sessionKeys = some keys ∧
      parseJson (Utf8.textDecode data) = .ok (.obj ms) ∧ AcceptedOk C c.serverDomainPub ms ∧
      strictEq (lookup ms (js "session_id")) c.sessionId = true ∧
      gtZero (lookup ms (js "session_ttl")) = .ok positive ∧
      c' = {c with finalSession := some (acceptedSession ms keys (ttlOf positive ms)
        c.serverIdProofKeyId c.serverIdProofSignature)} := by
  rw [onAccepted,get_bind]
  simp only [lift_bind_eq_ok,call_modify,need_eq_ok,require_eq_ok,expectTypeStep_eq_ok,
    Prod.mk.injEq,true_and]
  constructor
  · rintro ⟨keys,hkeys,m,hparse,-,-,-,⟨ms,rfl,htype,hstep⟩,sid,hsid,-,heq,_,hsig,ttl,httl,positive,
      hpos,perms,hperms,ext,hext,ticket,hticket,rfl⟩
    rw [getProp_obj,Except.ok.injEq] at hsid httl hperms hext hticket
    subst hsid httl hperms hext hticket
    exact ⟨keys,ms,positive,hkeys,hparse,⟨htype,hstep,hsig⟩,heq,hpos,rfl⟩
  · rintro ⟨keys,ms,positive,hkeys,hparse,h,heq,hpos,rfl⟩
    exact ⟨keys,hkeys,_,hparse,(),refuseRejected_obj "accepted" h.step (by decide),(),
      ⟨ms,rfl,h.type,h.step⟩,_,rfl,(),heq,(),h.signed,_,rfl,positive,hpos,_,rfl,_,rfl,_,rfl,rfl⟩

theorem session_eq_ok {c c' : HandshakeClient} {r : ClientSession} :
    session.call c = (.ok r,c') ↔ c.finalSession = some r ∧ c' = c := by
  rw [session,get_bind,lift_eq_ok,need_eq_ok]

theorem new_eq_ok {cfg : ClientConfig} {c : HandshakeClient} : new cfg = .ok c ↔
    ∃ suite, Suite.ofName cfg.suite = some suite ∧ cfg.serverDomainPub.length ≠ 0 ∧
      cfg.transport ≠ [] ∧ c = {
        suite := suite
        serverDomainPub := cfg.serverDomainPub
        capabilities := cfg.capabilities
        transportId := cfg.transport
        identity := cfg.identity
        nonce := cfg.clientNonce
        ephPriv := cfg.clientEphemeralPriv
        ephPub := none
        initCanonical := none
        sessionId := some (.str [])
        sessionKeys := none
        serverIdProofKeyId := some (.str [])
        serverIdProofSignature := some (.str [])
        finalSession := none } := by
  unfold new
  simp only [bind_eq_ok,need_eq_ok,require_eq_ok,exists_const,Except.ok.injEq,eq_comm (b := c)]

/-- The offer of a client whose `init` generated the pair `ephPriv`, `ephPub`. -/
def offerOf (cfg : ClientConfig) (suite : Suite) (entropy : ClientEntropy)
    (ephPriv ephPub initCanonical : Bytes) : Offer where
  suite := suite
  nonce := cfg.clientNonce.getD entropy.nonce
  ephPriv := ephPriv
  ephPub := ephPub
  initCanonical := initCanonical
  serverDomainPub := cfg.serverDomainPub
  identity := cfg.identity
  proofNonce := entropy.proofNonce

/-- A configured client after its INIT. -/
structure Started (C : Crypto) (cfg : ClientConfig) (entropy : ClientEntropy) (suite : Suite)
    (ephPriv ephPub : Bytes) (ephKeyId : JsString) (bytes : Bytes) : Prop where
  known : Suite.ofName cfg.suite = some suite
  serverDomainPub : cfg.serverDomainPub.length ≠ 0
  transport : cfg.transport ≠ []
  ephemeral : Ephemeral C suite cfg.clientEphemeralPriv entropy ephPriv ephPub
  keyId : ephemeralKeyId C suite ephPub = .ok ephKeyId
  sent : bytes = Canonical.canonicalBytes (.obj (clientInit suite
    (cfg.clientNonce.getD entropy.nonce) ephPub ephKeyId cfg.transport cfg.capabilities))

/-- A new client that sent its INIT holds the offer of that INIT. -/
theorem new_init {cfg : ClientConfig} {entropy : ClientEntropy} {c c' : HandshakeClient}
    {bytes : Bytes} (hnew : new cfg = .ok c) (hinit : (init C entropy).call c = (.ok bytes,c')) :
    ∃ suite ephPriv ephPub ephKeyId, Started C cfg entropy suite ephPriv ephPub ephKeyId bytes ∧
      Offers c' (offerOf cfg suite entropy ephPriv ephPub bytes) := by
  obtain ⟨suite,hsuite,hpub,htrans,rfl⟩ := new_eq_ok.mp hnew
  obtain ⟨-,priv,pub,keyId,he,hk,hbytes,rfl⟩ := init_eq_ok.mp hinit
  exact ⟨suite,priv,pub,keyId,⟨hsuite,hpub,htrans,he,hk,hbytes⟩,rfl,rfl,rfl,rfl,rfl,rfl,rfl⟩

/-- The fields as an offer, once `init` has set them. -/
def offer (c : HandshakeClient) (entropy : ClientEntropy) : Offer where
  suite := c.suite
  nonce := c.nonce.getD []
  ephPriv := c.ephPriv.getD []
  ephPub := c.ephPub.getD []
  initCanonical := c.initCanonical.getD []
  serverDomainPub := c.serverDomainPub
  identity := c.identity
  proofNonce := entropy.proofNonce

theorem Offers.offer {c : HandshakeClient} {o : Offer} (h : Offers c o) {entropy : ClientEntropy}
    (he : o.proofNonce = entropy.proofNonce) : c.offer entropy = o := by
  rw [HandshakeClient.offer,h.suite,h.nonce,h.ephPriv,h.ephPub,h.initCanonical,h.serverDomainPub,
    h.identity,← he]
  rfl

end HandshakeClient

namespace Handshake
variable {C : Crypto}

@[simp] theorem deriveSessionKeys_encC2S_length (laws : KdfLaws C) (shared cn sn : Bytes) :
    (deriveSessionKeysWithResumption C shared cn sn).encC2S.length = 32 :=
  laws.expand_length _ _ _

/-- Sizes of what a client proves its identity with. -/
def IdentitySizes (identity : Option ClientIdentity) (fresh : Bytes) : Prop :=
  ∀ i, identity = some i → i.longTermSeed.length = 32 ∧ (i.proofNonce.getD fresh).length = 12

theorem clientIdentityProof_ok (laws : Laws C) {identity : Option ClientIdentity} {fresh : Bytes}
    (h : IdentitySizes identity fresh) (sid : JsString) (ch key : Bytes) (hk : key.length = 32) :
    ∃ proof, clientIdentityProof C identity (some (.str sid)) ch key fresh = .ok proof := by
  cases identity with
  | none => exact ⟨[],rfl⟩
  | some i =>
    obtain ⟨hseed,hn⟩ := h i rfl
    obtain ⟨proof,hproof⟩ := composeIdentityProof_ok laws
      (i := ⟨i.clientId,i.clientIdentity,i.longTermSeed,i.longTermKeyId,some (.str sid),ch,key,
        i.proofNonce⟩) rfl hseed hk hn
    exact ⟨proof.identityProofB64,by rw [clientIdentityProof,hproof,ok_bind]⟩

section Lookups
variable (input : BuildResponseInput)

theorem lookup_responsePreSign_type :
    lookup (responsePreSign input) (js "type") = some (.str messageType) := rfl

theorem lookup_responsePreSign_step :
    lookup (responsePreSign input) (js "step") = some (.str (js "response")) := rfl

theorem lookup_responsePreSign_sessionId :
    lookup (responsePreSign input) (js "session_id") = some (.str input.sessionId) := rfl

theorem lookup_responsePreSign_clientNonce :
    lookup (responsePreSign input) (js "client_nonce") = input.clientNonce := by
  cases h : input.clientNonce <;> (simp only [responsePreSign,h]; rfl)

theorem lookup_responsePreSign_serverNonce :
    lookup (responsePreSign input) (js "server_nonce") = some (.str input.serverNonce) := by
  cases h : input.clientNonce <;> (simp only [responsePreSign,h]; rfl)

theorem lookup_responsePreSign_ephemeralKey :
    lookup (responsePreSign input) (js "server_ephemeral_key") =
      some (.obj input.serverEphemeralKey.members) := by
  cases h : input.clientNonce <;> (simp only [responsePreSign,h]; rfl)

theorem lookup_responsePreSign_identityProof :
    lookup (responsePreSign input) (js "server_identity_proof") =
      some (.obj input.serverIdentityProof.members) := by
  cases h : input.clientNonce <;> (simp only [responsePreSign,h]; rfl)

end Lookups

/-- A RESPONSE that the server signed passes, when the client can use its key. -/
theorem responseOk_signed (laws : Laws C) (rt : Runtime) {o : Offer} {input : BuildResponseInput}
    {signed ms : Members} (hn : ∀ v ∈ input.clientNonce, v.WF)
    (h : buildResponse C input = .ok signed) (hr : Received signed ms)
    (hpk : publicKeyFromSeed C input.serverDomainSigningSeed = .ok o.serverDomainPub)
    {serverEphPub serverNonce shared : Bytes}
    (hkey : input.serverEphemeralKey.key = Base64.encode serverEphPub)
    (hnonce : input.serverNonce = Base64.encode serverNonce)
    (hsize : o.suite = .pq → o.ephPub.length = hybridPublicKeySize)
    (hshared : clientShared C o.suite o.ephPriv serverEphPub = .ok shared)
    (hid : IdentitySizes o.identity o.proofNonce) :
    ∃ a, ResponseOk C rt o ms a ∧ a.serverEphPub = serverEphPub ∧ a.serverNonce = serverNonce ∧
      a.shared = shared ∧ a.sessionId = some (.str input.sessionId) := by
  have hwf := responsePreSign_wf hn
  have str {k s : JsString} (hk : k ≠ js "server_signature")
      (hp : lookup (responsePreSign input) k = some (.str s)) : lookup ms k = some (.str s) :=
    signed_str hwf h hr hk hp
  have htype : lookup ms (js "type") = some (.str messageType) :=
    str (by decide) (lookup_responsePreSign_type input)
  have hstep : lookup ms (js "step") = some (.str (js "response")) :=
    str (by decide) (lookup_responsePreSign_step input)
  have hsid : lookup ms (js "session_id") = some (.str input.sessionId) :=
    str (by decide) (lookup_responsePreSign_sessionId input)
  have hsn : lookup ms (js "server_nonce") = some (.str input.serverNonce) :=
    str (by decide) (lookup_responsePreSign_serverNonce input)
  obtain ⟨eph,heph,hephs⟩ := signed_obj hwf h hr (by decide)
    (lookup_responsePreSign_ephemeralKey input)
  obtain ⟨idp,hidp,hidps⟩ := signed_obj hwf h hr (by decide)
    (lookup_responsePreSign_identityProof input)
  have hephKey := hephs (js "key") input.serverEphemeralKey.key rfl
  have hidpKey := hidps (js "key_id") input.serverIdentityProof.keyId rfl
  have hidpSig := hidps (js "signature") input.serverIdentityProof.signature rfl
  have hkeys := deriveSessionKeys_encC2S_length laws.kdf shared o.nonce serverNonce
  obtain ⟨proof,hproof⟩ := clientIdentityProof_ok laws hid input.sessionId
    (confirmationHash C o.initCanonical (Canonical.canonicalBytes (.obj ms)))
    (deriveSessionKeysWithResumption C shared o.nonce serverNonce).encC2S hkeys
  -- a variable, so that no unifier looks into the bytes
  obtain ⟨confirm,hconfirm⟩ : ∃ b, b = Canonical.canonicalBytes (.obj (buildConfirm
      ⟨some (.str input.sessionId),Base64.encode (confirmationHash C o.initCanonical
        (Canonical.canonicalBytes (.obj ms))),proof,none⟩)) := ⟨_,rfl⟩
  refine ⟨⟨serverEphPub,serverNonce,shared,some (.str input.sessionId),
    some (.str input.serverIdentityProof.keyId),some (.str input.serverIdentityProof.signature),
    confirm⟩,?_,rfl,rfl,rfl,rfl⟩
  exact {
    type := htype
    step := hstep
    signed := verifyServerSignature_signMessage laws.sig hwf hpk h hr.wf hr.norm
    ephemeral := ⟨some (.str input.serverEphemeralKey.key),by rw [heph,getProp_obj,hephKey],
      by rw [base64Decode_str,hkey,Base64.decode_encode]⟩
    serverNonce := by rw [hsn,base64Decode_str,hnonce,Base64.decode_encode]
    size := hsize
    shared := hshared
    sessionId := hsid.symm
    confirm := ⟨proof,hproof,hconfirm⟩
    keyId := by rw [hidp,getProp_obj,hidpKey]
    signature := by rw [hidp,getProp_obj,hidpSig] }

section Lookups
variable (input : BuildAcceptedInput)

theorem lookup_acceptedPreSign_type :
    lookup (acceptedPreSign input) (js "type") = some (.str messageType) := rfl

theorem lookup_acceptedPreSign_step :
    lookup (acceptedPreSign input) (js "step") = some (.str (js "accepted")) := rfl

theorem lookup_acceptedPreSign_sessionId :
    lookup (acceptedPreSign input) (js "session_id") = some (.str input.sessionId) := rfl

theorem lookup_acceptedPreSign_sessionTTL :
    lookup (acceptedPreSign input) (js "session_ttl") = some (.num input.sessionTTL) := rfl

theorem lookup_acceptedPreSign_permissions :
    lookup (acceptedPreSign input) (js "permissions") = some (strs input.permissions) := rfl

end Lookups

/-- An ACCEPTED that the server signed passes; its TTL can be compared and its
permissions are a list. -/
theorem acceptedOk_signed (laws : Laws C) {input : BuildAcceptedInput} {signed ms : Members}
    {pk : Bytes} (h : buildAccepted C input = .ok signed) (hr : Received signed ms)
    (hpk : publicKeyFromSeed C input.serverDomainSigningSeed = .ok pk) :
    AcceptedOk C pk ms ∧ lookup ms (js "session_id") = some (.str input.sessionId) ∧
      (∃ positive, gtZero (lookup ms (js "session_ttl")) = .ok positive) ∧
      ∃ vs, lookup ms (js "permissions") = some (.arr vs) := by
  have hwf := acceptedPreSign_wf input
  have hswf := signMessage_wf hwf h
  have str {k s : JsString} (hk : k ≠ js "server_signature")
      (hp : lookup (acceptedPreSign input) k = some (.str s)) : lookup ms k = some (.str s) :=
    signed_str hwf h hr hk hp
  have hnorm {k : JsString} {v : Json} (hk : k ≠ js "server_signature")
      (hp : lookup (acceptedPreSign input) k = some v) :
      ∃ w, lookup ms k = some w ∧ w.norm = v.norm := by
    have he := (Json.norm_obj_eq_iff hr.wf hswf).mp hr.norm k
    rw [lookup_signMessage hwf h hk,hp,Option.map_some,Option.map_some,Json.norm_reparse,
      Option.map_eq_some_iff] at he
    exact he
  refine ⟨⟨str (by decide) (lookup_acceptedPreSign_type input),
    str (by decide) (lookup_acceptedPreSign_step input),
    verifyServerSignature_signMessage laws.sig hwf hpk h hr.wf hr.norm⟩,
    str (by decide) (lookup_acceptedPreSign_sessionId input),?_,?_⟩
  · obtain ⟨w,hw,hn⟩ := hnorm (by decide) (lookup_acceptedPreSign_sessionTTL input)
    rw [hw]
    rcases Json.norm_eq_num hn with rfl | ⟨y,rfl⟩
    · exact ⟨_,rfl⟩
    · exact ⟨_,rfl⟩
  · obtain ⟨w,hw,hn⟩ := hnorm (by decide) (lookup_acceptedPreSign_permissions input)
    obtain ⟨vs,rfl⟩ := Json.norm_eq_arr hn
    exact ⟨vs,hw⟩

end Handshake
end Semp
