import Semp.Session

/-! The rekey of a live session.  Both messages of it are sealed under the keys of the
session, each direction under keys of its own; then both sides derive new keys from fresh
ephemeral keys and nonces.  `rekeyClient` awaits the reply, so it is cut there. -/
namespace Semp
open Handshake

inductive Direction
  | c2s
  | s2c
  deriving DecidableEq, Repr

def Direction.name : Direction → JsString
  | c2s => js "c2s"
  | s2c => js "s2c"

theorem Direction.name_injective : Function.Injective Direction.name := by
  intro a b h
  cases a <;> cases b <;> first | rfl | exact absurd h (by decide)

/-- `otherDirection` -/
def Direction.other : Direction → Direction
  | c2s => s2c
  | s2c => c2s

/-- `directionFromRole` -/
def Role.direction : Role → Direction
  | client => .c2s
  | server => .s2c

def Role.other : Role → Role
  | client => server
  | server => client

/-- A session on the transport that it owns. -/
structure Connection where
  session : Session
  transport : Transport

namespace Connection

def transportCall {α : Type} (x : Method Thrown Transport α) : Method Thrown Connection α := do
  let c ← get
  let r := x.call c.transport
  modify fun c => {c with transport := r.2}
  liftM r.1

def send (message : Bytes) : Method Thrown Connection Unit := do
  let c ← get
  require (c.session.closed = false) (js "session: closed")
  transportCall (Transport.send message)

def receive : Method Thrown Connection (Option Bytes) := do
  let c ← get
  require (c.session.closed = false) (js "session: closed")
  transportCall Transport.receive

def applyRekey (apply : RekeyApply) : Method Thrown Connection Unit := do
  let c ← get
  let session ← c.session.applyRekey apply
  modify fun c => {c with session := session}

end Connection

namespace Rekey

def rekeyType : JsString := js "SEMP_REKEY"

/-- The wire message of a sealed body. -/
structure SealedRekey where
  direction : Direction
  sessionId : Option Json
  nonce : JsString
  ciphertext : JsString

def SealedRekey.members (m : SealedRekey) : Members :=
  definedMembers [(js "type",some (.str rekeyType)),(js "sealed",some (.bool true)),
    (js "direction",some (.str m.direction.name)),(js "version",some (.str (js "1.0.0"))),
    (js "session_id",m.sessionId),(js "nonce",some (.str m.nonce)),
    (js "ciphertext",some (.str m.ciphertext))]

def SealedRekey.frame (m : SealedRekey) : Bytes := utf8 (JsonText.stringify (.obj m.members))

structure RekeyInit where
  sessionId : Option Json
  newEphemeralKey : KeyRef
  rekeyNonce : JsString

def RekeyInit.members (i : RekeyInit) : Members :=
  definedMembers [(js "type",some (.str rekeyType)),(js "step",some (.str (js "rekey-init"))),
    (js "version",some (.str (js "1.0.0"))),(js "session_id",i.sessionId),
    (js "new_ephemeral_key",some (.obj i.newEphemeralKey.members)),
    (js "rekey_nonce",some (.str i.rekeyNonce))]

structure RekeyAccepted where
  sessionId : Option Json
  newSessionId : JsString
  newEphemeralKey : KeyRef
  /-- The nonce of the init, as it came. -/
  rekeyNonce : Option Json
  responderNonce : JsString

def RekeyAccepted.members (a : RekeyAccepted) : Members :=
  definedMembers [(js "type",some (.str rekeyType)),(js "step",some (.str (js "rekey-accepted"))),
    (js "version",some (.str (js "1.0.0"))),(js "session_id",a.sessionId),
    (js "new_session_id",some (.str a.newSessionId)),
    (js "new_ephemeral_key",some (.obj a.newEphemeralKey.members)),
    (js "rekey_nonce",a.rekeyNonce),(js "responder_nonce",some (.str a.responderNonce))]

structure RekeyRejected where
  sessionId : Option Json
  reasonCode : JsString
  reason : Option JsString

def RekeyRejected.members (r : RekeyRejected) : Members :=
  definedMembers [(js "type",some (.str rekeyType)),(js "step",some (.str (js "rekey-rejected"))),
    (js "version",some (.str (js "1.0.0"))),(js "session_id",r.sessionId),
    (js "reason_code",some (.str r.reasonCode)),(js "reason",r.reason.map .str)]

/-- The length of a component as four bytes, then the component. -/
def appendLP (b : Bytes) : Bytes :=
  [UInt8.ofNat (b.length/2^24),UInt8.ofNat (b.length/2^16),UInt8.ofNat (b.length/2^8),
    UInt8.ofNat b.length]++b

def rekeyAAD (direction : Direction) (sessionId macKey : Bytes) : Bytes :=
  appendLP (utf8 direction.name)++appendLP sessionId++appendLP macKey

/-- The branch of the switch over the direction of a message; another value takes none. -/
def directionOf (direction : Option Json) : Js Direction :=
  if isStr direction Direction.c2s.name then .ok .c2s
  else if isStr direction Direction.s2c.name then .ok .s2c
  else raiseType

@[simp] theorem directionOf_name (d : Direction) : directionOf (some (.str d.name)) = .ok d := by
  cases d <;> rfl

/-- The encryption and the MAC key of a direction. -/
def pickRekeyKeys (keys : SessionKeys) : Direction → Bytes × Bytes
  | .c2s => (keys.encC2S,keys.macC2S)
  | .s2c => (keys.encS2C,keys.macS2C)

section Code
variable (C : Crypto) (rt : Runtime)

def sealRekeyMessage (session : Session) (direction : Direction) (plaintext nonce : Bytes) :
    Js SealedRekey := do
  let keys ← session.liveKeys
  let (encKey,macKey) := pickRekeyKeys keys direction
  require (nonce.length = 12)
    (js "sealRekeyMessage: nonce must be 12 bytes, got "++natText nonce.length)
  let sessionId ← encodeText session.sessionId
  let ct ← aeadSeal C .chacha20poly1305 encKey nonce plaintext (rekeyAAD direction sessionId macKey)
  .ok ⟨direction,session.sessionId,Base64.encode nonce,Base64.encode ct⟩

def openRekeyMessage (session : Session) (msg : Json) : Js Bytes := do
  let type ← getProp (some msg) (js "type")
  if isStr type rekeyType then do
    let sealed ← getProp (some msg) (js "sealed")
    require (truthy sealed = true) (js "openRekeyMessage: cleartext rekey not supported")
    let sessionId ← getProp (some msg) (js "session_id")
    if strictEq sessionId session.sessionId then do
      let direction ← directionOf (← getProp (some msg) (js "direction"))
      let keys ← session.liveKeys
      let (encKey,macKey) := pickRekeyKeys keys direction
      let nonce ← base64Decode rt (← getProp (some msg) (js "nonce"))
      let ct ← base64Decode rt (← getProp (some msg) (js "ciphertext"))
      let sessionId ← encodeText session.sessionId
      aeadOpen C .chacha20poly1305 encKey nonce ct (rekeyAAD direction sessionId macKey)
    else do
      let got ← templateText sessionId
      let current ← templateText session.sessionId
      raise (js "openRekeyMessage: session_id "++got++js " does not match current "++current)
  else do
    let got ← templateText type
    raise (js "openRekeyMessage: type="++got++js ", want SEMP_REKEY")

/-- The wrapper of a frame, which has to be sealed in this direction, opened and read. -/
def readBody (session : Session) (bytes : Bytes) (direction : Direction) (kind : String) :
    Js Json := do
  let wrapper ← parseJson (Utf8.textDecode bytes)
  let type ← getProp (some wrapper) (js "type")
  if isStr type rekeyType then do
    let got ← getProp (some wrapper) (js "direction")
    if isStr got direction.name then do
      let plain ← openRekeyMessage C rt session wrapper
      parseJson (Utf8.textDecode plain)
    else do
      let got ← templateText got
      raise (js "rekey: expected "++js kind++js " direction="++direction.name++js ", got "++got)
  else do
    let got ← templateText type
    raise (js "rekey: expected SEMP_REKEY, got "++got)

/-- The ephemeral key of a body, decoded. -/
def ephemeralOf (body : Json) : Js Bytes := do
  let key ← getProp (some body) (js "new_ephemeral_key")
  base64Decode rt (← getProp key (js "key"))

structure RekeyClientOptions where
  ephemeralPriv : Option Bytes
  rekeyNonce : Option Bytes

/-- What `randomBytes` draws for one call. -/
structure RekeyEntropy where
  ephemeralPriv : Bytes
  nonce : Bytes
  aeadNonce : Bytes

/-- What `rekeyClient` holds while it waits for the reply. -/
structure PendingRekey where
  ephPriv : Bytes
  rekeyNonce : Bytes
  oppositeDir : Direction
  deriving DecidableEq, Repr

/-- The reference to an ephemeral key of a rekey. -/
def keyRef (ephPub : Bytes) (keyId : JsString) : KeyRef :=
  ⟨Suite.x25519.name,Base64.encode ephPub,keyId⟩

/-- `rekeyClient` up to the `receive`. -/
def startRekey (options : RekeyClientOptions) (entropy : RekeyEntropy) :
    Method Thrown Connection PendingRekey := do
  let c ← get
  let direction := c.session.role.direction
  let ephPriv := options.ephemeralPriv.getD entropy.ephemeralPriv
  let ephPub ← x25519PublicKey C ephPriv
  let rekeyNonce := options.rekeyNonce.getD entropy.nonce
  let keyId ← fingerprint C ephPub
  let body ← Canonical.marshal (.obj
    (RekeyInit.mk c.session.sessionId (keyRef ephPub keyId) (Base64.encode rekeyNonce)).members)
  let sealed ← sealRekeyMessage C c.session direction body entropy.aeadNonce
  Connection.send sealed.frame
  return ⟨ephPriv,rekeyNonce,direction.other⟩

/-- The refusal of a reply that is not an acceptance. -/
def expectAccepted (body : Json) : Js Unit := do
  let step ← getProp (some body) (js "step")
  if isStr step (js "rekey-rejected") then do
    let code ← templateText (← getProp (some body) (js "reason_code"))
    match ← getProp (some body) (js "reason") with
    | none => raise (js "rekey rejected: "++code)
    | some reason => do
      let reason ← templateText (some reason)
      raise (js "rekey rejected: "++code++js " ("++reason++js ")")
  else if isStr step (js "rekey-accepted") then .ok ()
  else do
    let got ← templateText step
    raise (js "rekey: expected step=rekey-accepted, got "++got)

/-- What the client makes of the body of an acceptance. -/
def acceptedKeys (pending : PendingRekey) (body : Json) : Js RekeyApply := do
  let responderPub ← ephemeralOf rt body
  let sharedSecret ← x25519Agree C pending.ephPriv responderPub
  let responderNonce ← base64Decode rt (← getProp (some body) (js "responder_nonce"))
  let newSessionId ← getProp (some body) (js "new_session_id")
  .ok ⟨newSessionId,deriveRekeyKeys C sharedSecret pending.rekeyNonce responderNonce⟩

/-- `rekeyClient` from the frame that `receive` gave on. -/
def finishRekey (pending : PendingRekey) (respBytes : Option Bytes) :
    Method Thrown Connection (Option Json) := do
  let c ← get
  let bytes ← need respBytes (js "rekey: connection closed waiting for response")
  let body ← readBody C rt c.session bytes pending.oppositeDir "response"
  expectAccepted body
  let apply ← acceptedKeys C rt pending body
  Connection.applyRekey apply
  return apply.newSessionId

def rekeyClient (options : RekeyClientOptions) (entropy : RekeyEntropy) :
    Method Thrown Connection (Option Json) := do
  let pending ← startRekey C options entropy
  let respBytes ← Connection.receive
  finishRekey C rt pending respBytes

structure RekeyServerOptions where
  ephemeralPriv : Option Bytes
  responderNonce : Option Bytes

/-- What the responder computes from the body of an init. -/
structure Answer where
  accepted : RekeyAccepted
  apply : RekeyApply

/-- Steps 2 and 3 of `rekeyServer`, and the message of step 4.  The new session id is what
the caller's generator returned. -/
def answerInit (session : Session) (options : RekeyServerOptions) (entropy : RekeyEntropy)
    (newSessionId : JsString) (body : Json) : Js Answer := do
  let step ← getProp (some body) (js "step")
  if isStr step (js "rekey-init") then do
    let ephPriv := options.ephemeralPriv.getD entropy.ephemeralPriv
    let ephPub ← x25519PublicKey C ephPriv
    let responderNonce := options.responderNonce.getD entropy.nonce
    let initiatorPub ← ephemeralOf rt body
    let nonce ← getProp (some body) (js "rekey_nonce")
    let rekeyNonce ← base64Decode rt nonce
    let sharedSecret ← x25519Agree C ephPriv initiatorPub
    let keyId ← fingerprint C ephPub
    .ok ⟨⟨session.sessionId,newSessionId,keyRef ephPub keyId,nonce,Base64.encode responderNonce⟩,
      ⟨some (.str newSessionId),deriveRekeyKeys C sharedSecret rekeyNonce responderNonce⟩⟩
  else do
    let got ← templateText step
    raise (js "rekey: expected step=rekey-init, got "++got)

/-- `rekeyServer` from the frame that `receive` gave on. -/
def answerRekey (options : RekeyServerOptions) (entropy : RekeyEntropy) (newSessionId : JsString)
    (initBytes : Option Bytes) : Method Thrown Connection JsString := do
  let c ← get
  let initDir := c.session.role.other.direction
  let bytes ← need initBytes (js "rekey: connection closed waiting for init")
  let body ← readBody C rt c.session bytes initDir "init"
  let answer ← answerInit C rt c.session options entropy newSessionId body
  let plaintext ← Canonical.marshal (.obj answer.accepted.members)
  let sealed ← sealRekeyMessage C c.session initDir.other plaintext entropy.aeadNonce
  Connection.send sealed.frame
  Connection.applyRekey answer.apply
  return newSessionId

def rekeyServer (options : RekeyServerOptions) (entropy : RekeyEntropy) (newSessionId : JsString) :
    Method Thrown Connection JsString := do
  let initBytes ← Connection.receive
  answerRekey C rt options entropy newSessionId initBytes

/-- A rejection, sealed as a responder seals its messages. -/
def rejectRekey (entropy : RekeyEntropy) (reasonCode : JsString) (reason : Option JsString) :
    Method Thrown Connection Unit := do
  let c ← get
  let plaintext ← Canonical.marshal (.obj
    (RekeyRejected.mk c.session.sessionId reasonCode reason).members)
  let sealed ← sealRekeyMessage C c.session c.session.role.direction plaintext entropy.aeadNonce
  Connection.send sealed.frame

end Code
end Rekey
end Semp
