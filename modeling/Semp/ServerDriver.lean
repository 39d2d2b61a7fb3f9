import Semp.ClientDriver
import Semp.HandshakeRun

/-! The loop driver of the server, and how it compares with the message-driven server on one
INIT and one CONFIRM. -/
namespace Semp
namespace Handshake
open HandshakeServer

section Code
variable (C : Crypto) (rt : Runtime)

/-- What the transport throws is ignored. -/
def sendRejected (sessionId reasonCode : JsString) (serverDomainSigningSeed : Bytes)
    (reason : Option JsString) : Method Thrown Transport Unit := do
  let r ← buildRejected C ⟨sessionId,reasonCode,reason,serverDomainSigningSeed,none⟩
  let sending : Method Thrown Transport Unit := do
    let bytes ← Canonical.marshal (.obj r)
    Transport.send bytes
  tryCatch sending fun _ => pure ()

/-- A REJECTED is sent, and an error thrown. -/
def refuse {α : Type} (sessionId reasonCode : JsString) (serverDomainSigningSeed : Bytes)
    (reason : Option JsString) (message : JsString) : Method Thrown Transport α := do
  sendRejected C sessionId reasonCode serverDomainSigningSeed reason
  throw (.error message)

/-- The server's ephemeral key as the suite puts it on the wire, and the shared secret. -/
def driverShare (config : ServerConfig) (entropy : ServerEntropy) (suite : Suite)
    (clientEphPub : Bytes) : Js (Bytes × Bytes) :=
  match suite with
  | .pq => do
    let enc ← serverEncapsulate C config entropy clientEphPub
    .ok (enc.ciphertext,enc.sharedSecret)
  | .x25519 => do
    let serverEphPriv := config.serverEphemeralPriv.getD entropy.ephemeralPriv
    let serverEphPub ← x25519PublicKey C serverEphPriv
    let sharedSecret ← x25519Agree C serverEphPriv clientEphPub
    .ok (serverEphPub,sharedSecret)

/-- The identity key that the caller looks up, and the inner signature under it. -/
def driverVerify (config : ServerConfig) (sessionId : JsString) (wantHash : Bytes)
    (lookup : Option Json → Option Json → Callback Bytes) (block : Json) :
    Method Thrown Transport Unit := do
  let clientPub ← tryCatch (liftM (lookUpKey lookup block)) fun err =>
    refuse C sessionId (js "auth_failed") config.serverDomainSigningSeed (some (thrownText rt err))
      (js "handshake: identity key lookup failed ("++thrownText rt err++js ")")
  let signature ← getProp (some block) (js "identity_signature")
  let sig ← base64Decode rt signature
  if verify C clientPub sig (identitySigned sessionId wantHash) then pure ()
  else
    refuse C sessionId (js "auth_failed") config.serverDomainSigningSeed
      (some (js "identity_signature did not verify"))
      (js "handshake: identity_signature did not verify")

/-- The identity proof of the CONFIRM, opened and verified unless it is empty. -/
def driverProof (config : ServerConfig) (sessionId : JsString) (wantHash : Bytes)
    (keys : SessionKeys) (identityProof : Option Json) :
    Method Thrown Transport (Option Json) :=
  if isStr identityProof [] then pure none
  else do
    let block ← tryCatch
      (liftM (openIdentityProof C rt ⟨identityProof,keys.encC2S,sessionId⟩)) fun err =>
        refuse C sessionId (js "auth_failed") config.serverDomainSigningSeed
          (some (thrownText rt err))
          (js "handshake: identity_proof open failed ("++thrownText rt err++js ")")
    match config.lookupClientIdentityKey with
    | none => pure (some block)
    | some lookup => do
      driverVerify C rt config sessionId wantHash lookup block
      pure (some block)

/-- The verdict of the caller on the proof. -/
def driverJudge (config : ServerConfig) (sessionId : JsString) (keys : SessionKeys)
    (identityProof block : Option Json) : Method Thrown Transport Unit :=
  match config.verifyIdentityProof with
  | none => pure ()
  | some verifyIdentityProof => do
    let verdict ← (verifyIdentityProof identityProof keys block).run
    if verdict.ok then pure ()
    else
      refuse C sessionId (verdict.reasonCode.getD (js "auth_failed"))
        config.serverDomainSigningSeed verdict.reason
        (js "handshake: identity proof rejected ("++
          verdict.reasonCode.getD (js "auth_failed")++js ")")

/-- The session the driver makes of an accepted CONFIRM. -/
def serverSessionConfig (config : ServerConfig) (sessionId : JsString) (keys : SessionKeys)
    (ticket : Option ResumptionTicket) (serverIdentityProof : ServerIdentityProof) :
    SessionConfig where
  role := .server
  sessionId := some (.str sessionId)
  sessionTTL := some (.num config.sessionTTL)
  permissions := some (strs config.permissions)
  keys := keys
  resumptionTicket := ticket.map fun t => .obj t.members
  serverIdentityProofKeyId := some (.str serverIdentityProof.keyId)
  serverIdentityProofSignature := some (.str serverIdentityProof.signature)
  extensions := some (.obj (extensionsOrEmpty config.acceptedExtensions))

/-- A frame of the type and step that is due, read again. -/
def readMessage (bytes : Bytes) (step : String) : Js Json := do
  let msg ← parseHandshakeMessage bytes
  expectStep msg step
  parseJson (Utf8.textDecode bytes)

/-- What the driver keeps once its RESPONSE is sent. -/
structure Responding where
  sessionId : JsString
  initBytes : Bytes
  resp : Members
  keys : SessionKeys
  serverIdentityProof : ServerIdentityProof

/-- The RESPONSE of a suite, and its steps before. -/
def runServerWith (config : ServerConfig) (entropy : ServerEntropy) (initBytes : Bytes)
    (init : Json) (suite : Suite) : Method Thrown Transport Responding := do
  let clientKey ← getProp (some init) (js "client_ephemeral_key")
  let key ← getProp clientKey (js "key")
  let clientEphPub ← base64Decode rt key
  let initNonce ← getProp (some init) (js "nonce")
  let clientNonce ← base64Decode rt initNonce
  let serverNonce := config.serverNonce.getD entropy.nonce
  let share ← driverShare C config entropy suite clientEphPub
  let serverEphKeyId ← ephemeralKeyId C suite share.1
  let keys := deriveSessionKeysWithResumption C share.2 clientNonce serverNonce
  let ephKey : KeyRef := ⟨suite.name,Base64.encode share.1,serverEphKeyId⟩
  let proof ← serverIdentityProofOf C config ephKey initNonce (Base64.encode serverNonce)
  let resp ← serverResponse C config entropy.sessionId initNonce (Base64.encode serverNonce) suite
    ephKey proof
  let respCanonical ← Canonical.marshal (.obj resp)
  Transport.send respCanonical
  return ⟨entropy.sessionId,initBytes,resp,keys,proof⟩

/-- Steps 1 to 5 of `runServerInner`. -/
def runServerRespond (config : ServerConfig) (entropy : ServerEntropy) :
    Method Thrown Transport Responding := do
  let initBytes ← receiveOrThrow "init"
  let init ← readMessage initBytes "init"
  let capabilities ← getProp (some init) (js "capabilities")
  let offered ← getProp capabilities (js "encryption_algorithms")
  let negotiated ← pickSuite offered config.supportedSuites
  match negotiated with
  | none =>
    refuse C entropy.sessionId (js "version_unsupported") config.serverDomainSigningSeed none
      (js "handshake: no mutually supported suite")
  | some suite => runServerWith C rt config entropy initBytes init suite

/-- Steps 6 to 8 of `runServerInner`. -/
def runServerConfirm (config : ServerConfig) (r : Responding) : Method Thrown Transport Session := do
  let confirmBytes ← receiveOrThrow "confirm"
  let confirm ← readMessage confirmBytes "confirm"
  let respCanonical ← Canonical.marshal (.obj r.resp)
  let wantHash := confirmationHash C r.initBytes respCanonical
  let hash ← getProp (some confirm) (js "confirmation_hash")
  let gotHash ← base64Decode rt hash
  if constantTimeEqual gotHash wantHash then do
    let identityProof ← getProp (some confirm) (js "identity_proof")
    let block ← driverProof C rt config r.sessionId wantHash r.keys identityProof
    driverJudge C config r.sessionId r.keys identityProof block
    let ticket ← issueTicket config r.keys
    let accepted ← serverAccepted C config r.sessionId ticket
    let acceptedBytes ← Canonical.marshal (.obj accepted)
    Transport.send acceptedBytes
    Session.new (serverSessionConfig config r.sessionId r.keys ticket r.serverIdentityProof)
  else
    refuse C r.sessionId (js "handshake_invalid") config.serverDomainSigningSeed none
      (js "handshake: confirmation hash mismatch")

def runServerInner (config : ServerConfig) (entropy : ServerEntropy) :
    Method Thrown Transport Session := do
  let r ← runServerRespond C rt config entropy
  runServerConfirm C rt config r

def runServer (config : ServerConfig) (entropy : ServerEntropy) :
    Method Thrown Transport Session :=
  Transport.closeOnError (runServerInner C rt config entropy)

/-- What a rejection of the message-driven server is made of is sent. -/
def emittedBy : Thrown → List Bytes
  | .handshakeServerRejection _ _ rejected => [rejected]
  | _ => []

/-- The frames the message-driven server has its caller send, fed one INIT and one CONFIRM,
and how it ends. -/
def messageDrivenServer (config : ServerConfig) (entropy : ServerEntropy) (init confirm : Bytes) :
    List Bytes × Js HandshakeServerSession :=
  match HandshakeServer.new config with
  | .error e => (emittedBy e,.error e)
  | .ok s =>
    match (onInit C rt entropy init).call s with
    | (.error e,_) => (emittedBy e,.error e)
    | (.ok resp,s) =>
      match (onConfirm C rt confirm).call s with
      | (.error e,_) => (resp::emittedBy e,.error e)
      | (.ok accepted,s) => ([resp,accepted],(session.call s).1)

/-- The frames the driver sends on a transport that delivers one INIT and one CONFIRM, and
how it ends. -/
def loopDrivenServer (config : ServerConfig) (entropy : ServerEntropy) (init confirm : Bytes) :
    List Bytes × Js Session :=
  let r := (runServer C rt config entropy).call ⟨[init,confirm],[],false⟩
  (r.2.sent,r.1)

end Code

/-- Not a rejection of the server's own. -/
def Plain : Thrown → Prop
  | .handshakeServerRejection .. => False
  | _ => True

/-- The libraries and the runtime do not throw rejections of this server. -/
structure PlainErrors (C : Crypto) (rt : Runtime) : Prop where
  bufferFrom : ∀ v e, rt.bufferFrom v = .error e → Plain e
  publicKey : ∀ sk e, C.x25519GetPublicKey sk = .error e → Plain e
  agree : ∀ sk pk e, C.x25519GetSharedSecret sk pk = .error e → Plain e
  encapsulate : ∀ pk m e, C.mlKemEncapsulate pk m = .error e → Plain e
  signPublicKey : ∀ seed e, C.ed25519GetPublicKey seed = .error e → Plain e
  sign : ∀ message seed e, C.ed25519Sign message seed = .error e → Plain e

/-- The frame is a REJECTED with this reason code. -/
def IsRejected (frame : Bytes) (code : JsString) : Prop :=
  ∃ ms, parseJson (Utf8.textDecode frame) = .ok (.obj ms) ∧
    lookup ms (js "step") = some (.str (js "rejected")) ∧
    lookup ms (js "reason_code") = some (.str code)

/-- A rejection carries its own REJECTED. -/
def Announced : Thrown → Prop
  | .handshakeServerRejection code _ rejected => IsRejected rejected code
  | _ => True

/-- The driver sent what the other server's error is made of. -/
structure Fails (sent : List Bytes) (e e' : Thrown) (t : Transport) : Prop where
  sent : t.sent = sent++emittedBy e
  announced : Announced e

/-- Nothing thrown is a rejection. -/
def Quiet {α : Type} (x : Js α) : Prop := ∀ e, x = .error e → Plain e

section Quiet
variable {α β : Type} {C : Crypto} {rt : Runtime}

theorem Quiet.ok (a : α) : Quiet (.ok a : Js α) := nofun

theorem Quiet.raise (message : JsString) : Quiet (raise message : Js α) := by
  rintro e h
  obtain rfl := Except.error.inj h
  trivial

theorem Quiet.bind {x : Js α} {f : α → Js β} (hx : Quiet x) (hf : ∀ a, x = .ok a → Quiet (f a)) :
    Quiet (x >>= f) := by
  cases x with
  | ok a => exact hf a rfl
  | error e => exact fun e' he => hx e' (congrArg Except.error (Except.error.inj he))

theorem Quiet.ite {p : Prop} [Decidable p] {x y : Js α} (hx : Quiet x) (hy : Quiet y) :
    Quiet (if p then x else y) := by
  split_ifs
  · exact hx
  · exact hy

theorem quiet_require (p : Prop) [Decidable p] (message : JsString) : Quiet (require p message) :=
  .ite (.ok ()) (.raise message)

theorem quiet_parseJson (text : JsString) : Quiet (parseJson text) := by
  unfold parseJson
  split
  · exact .ok _
  · rintro e h
    obtain rfl := Except.error.inj h
    trivial

theorem quiet_getProp (v : Option Json) (k : JsString) : Quiet (getProp v k) := by
  unfold getProp
  split <;> first | exact .ok _ | exact fun e h => Except.error.inj h ▸ trivial

theorem quiet_includes (v : Option Json) (s : JsString) : Quiet (includes v s) := by
  unfold includes
  split <;> first | exact .ok _ | exact fun e h => Except.error.inj h ▸ trivial

theorem quiet_pickSuite (offered : Option Json) (supported : List Suite) :
    Quiet (pickSuite offered supported) := by
  induction supported with
  | nil => exact .ok _
  | cons s supported ih => exact .bind (quiet_includes _ _) fun _ _ => .ite (.ok _) ih

theorem quiet_checkTypeStep (m : Json) (step : String) : Quiet (checkTypeStep m step) :=
  .bind (quiet_getProp _ _) fun _ _ => .bind (quiet_getProp _ _) fun _ _ => quiet_require _ _

theorem quiet_callback (c : Callback α) : Quiet c.run := by
  cases c with
  | ok a => exact .ok a
  | error message => exact .raise message

theorem quiet_issueTicket (config : ServerConfig) (keys : SessionKeys) :
    Quiet (issueTicket config keys) := by
  unfold issueTicket
  cases config.resumptionTicket with
  | none => exact .ok _
  | some build => exact .bind (quiet_callback _) fun _ _ => .ok _

theorem quiet_base64Decode (plain : PlainErrors C rt) (v : Option Json) :
    Quiet (base64Decode rt v) := by
  unfold base64Decode
  split
  · exact .ok _
  · exact plain.bufferFrom _
  · exact plain.bufferFrom _
  · exact fun e h => Except.error.inj h ▸ trivial

theorem quiet_sign (plain : PlainErrors C rt) (seed message : Bytes) :
    Quiet (sign C seed message) :=
  .bind (.ite (.raise _) (.ok ())) fun _ _ => plain.sign _ _

theorem quiet_publicKeyFromSeed (plain : PlainErrors C rt) (seed : Bytes) :
    Quiet (publicKeyFromSeed C seed) :=
  .bind (.ite (.raise _) (.ok ())) fun _ _ => plain.signPublicKey _

theorem quiet_fingerprint (publicKey : Bytes) : Quiet (fingerprint C publicKey) :=
  .ite (.raise _) (.ok _)

theorem quiet_ephemeralKeyId (suite : Suite) (ephPub : Bytes) :
    Quiet (ephemeralKeyId C suite ephPub) := by
  cases suite with
  | pq => exact .ok _
  | x25519 => exact quiet_fingerprint ephPub

theorem quiet_shareOf (plain : PlainErrors C rt) (config : ServerConfig) (entropy : ServerEntropy)
    (suite : Suite) (clientEphPub : Bytes) : Quiet (shareOf C config entropy suite clientEphPub) := by
  have hbody (rand : HybridRandomness) : Quiet (hybridEncapsulateBody C clientEphPub rand) :=
    .bind (plain.publicKey _) fun _ _ => .bind (plain.agree _ _) fun _ _ =>
      .bind (plain.encapsulate _ _) fun _ _ => .ok _
  cases suite with
  | x25519 =>
    exact .bind (plain.publicKey _) fun _ _ => .bind (plain.agree _ _) fun _ _ => .ok _
  | pq =>
    refine .bind ?_ fun _ _ => .ok _
    unfold serverEncapsulate
    split
    · exact .ite (.raise _) (.ite (.raise _) (.ite (.raise _) (hbody _)))
    · exact .ite (.raise _) (hbody _)

theorem quiet_serverIdentityProofOf (plain : PlainErrors C rt) (config : ServerConfig)
    (key : KeyRef) (clientNonce : Option Json) (serverNonce : JsString) :
    Quiet (serverIdentityProofOf C config key clientNonce serverNonce) :=
  .bind (quiet_publicKeyFromSeed plain _) fun _ _ => .bind (quiet_fingerprint _) fun _ _ =>
    .bind (quiet_callback _) fun _ _ => .ok _

/-- A message of distinct members fails to be signed only in the signature. -/
theorem quiet_signMessage (plain : PlainErrors C rt) {pre : Members} (hwf : (Json.obj pre).WF)
    (seed : Bytes) : Quiet (signMessage C pre seed) := by
  have hpath : SignedDoc.splitDots (js "server_signature") = [js "server_signature"] := by decide
  have hset (m : Members) (v : JsString) : SignedDoc.setPath m (js "server_signature") v =
      .ok (assign m (js "server_signature") (.str v)) := by
    rw [SignedDoc.setPath,hpath,SignedDoc.setParts]
  refine .bind ?_ fun _ _ => .ok _
  rw [SignedDoc.signSignedDoc]
  simp only [SignedDoc.deepCloneJSON_eq hwf,ok_bind,hset]
  have hblank : Canonical.marshal (.obj (assign (pre.map fun m => (m.1,m.2.reparse))
      (js "server_signature") (.str []))) = .ok _ :=
    Canonical.marshal_eq (Json.wf_assign (reparsed_wf hwf) (Json.wf_str []) _)
  rw [hblank,ok_bind]
  exact .bind (quiet_sign plain _ _) fun _ _ => .ok _

end Quiet

section Refuse
variable {C : Crypto} {rt : Runtime} {t : Transport}

theorem Fails.of_plain {sent : List Bytes} {e e' : Thrown} (ht : t.sent = sent) (h : Plain e) :
    Fails sent e e' t := by
  cases e with
  | handshakeServerRejection => exact absurd h id
  | _ => exact ⟨ht.trans (List.append_nil sent).symm,trivial⟩

theorem emittedBy_of_plain {e : Thrown} (h : Plain e) : emittedBy e = [] := by
  cases e with
  | handshakeServerRejection => exact absurd h id
  | _ => rfl

theorem announced_of_plain {e : Thrown} (h : Plain e) : Announced e := by
  cases e with
  | handshakeServerRejection => exact absurd h id
  | _ => trivial

/-- A REJECTED reads as one. -/
theorem isRejected_signed {i : BuildRejectedInput} {signed : Members}
    (h : buildRejected C i = .ok signed) :
    IsRejected (Canonical.canonicalBytes (.obj signed)) i.reasonCode := by
  have hwf := rejectedPreSign_wf i
  obtain ⟨ms,hparse,hr⟩ := received (signMessage_wf hwf h)
  have hlookup {k v : JsString} (hk : k ≠ js "server_signature")
      (hp : lookup (rejectedPreSign i) k = some (.str v)) : lookup ms k = some (.str v) :=
    signed_str hwf h hr hk hp
  exact ⟨ms,hparse,hlookup (by decide) rfl,hlookup (by decide) rfl⟩

theorem sendRejected_call (ht : t.closed = false) {sessionId code : JsString} {seed : Bytes}
    {reason : Option JsString} {r : Members}
    (h : buildRejected C ⟨sessionId,code,reason,seed,none⟩ = .ok r) :
    (sendRejected C sessionId code seed reason).call t =
      (.ok (),{t with sent := t.sent++[Canonical.canonicalBytes (.obj r)]}) := by
  have hmarshal : Canonical.marshal (.obj r) = .ok (Canonical.canonicalBytes (.obj r)) :=
    Canonical.marshal_eq (signMessage_wf (rejectedPreSign_wf _) h)
  have hsend : (Transport.send (Canonical.canonicalBytes (.obj r))).call t =
      (.ok (),{t with sent := t.sent++[Canonical.canonicalBytes (.obj r)]}) :=
    Transport.send_eq_ok.mpr ⟨ht,rfl⟩
  generalize Canonical.canonicalBytes (.obj r) = bytes at hmarshal hsend
  rw [sendRejected,h,Method.call_bind,Method.call_lift]
  dsimp only
  rw [Method.call_tryCatch,hmarshal,Method.call_bind,Method.call_lift]
  dsimp only
  rw [hsend]

/-- Both servers build one REJECTED; the driver sends it. -/
theorem refuse_follows (plain : PlainErrors C rt) (ht : t.closed = false) {α β : Type}
    {sent : List Bytes} (hs : t.sent = sent) (sessionId code : JsString) (seed : Bytes)
    (reason shown : Option JsString) (message : JsString) {post : β → α → Transport → Prop} :
    Method.Follows (refuse C sessionId code seed reason message) t
      (reject C seed sessionId code reason shown) post (Fails sent) := by
  have hwf := rejectedPreSign_wf ⟨sessionId,code,reason,seed,none⟩
  cases hb : buildRejected C ⟨sessionId,code,reason,seed,none⟩ with
  | error e =>
    have hreject : (reject C seed sessionId code reason shown : Js β) = .error e := by
      rw [reject,buildRejectedSigned,hb,error_bind,error_bind]
    rw [hreject]
    refine ⟨nofun,fun e' he => ⟨e,t,?_,?_⟩⟩
    · rw [refuse,sendRejected,hb]
      rfl
    · obtain rfl := Except.error.inj he
      exact .of_plain hs (quiet_signMessage plain hwf seed e hb)
  | ok r =>
    have hcall := sendRejected_call ht hb
    have hmarshal : Canonical.marshal (.obj r) = .ok (Canonical.canonicalBytes (.obj r)) :=
      Canonical.marshal_eq (signMessage_wf hwf hb)
    have hrej := isRejected_signed hb
    generalize Canonical.canonicalBytes (.obj r) = bytes at hmarshal hcall hrej
    have hreject : (reject C seed sessionId code reason shown : Js β) =
        .error (.handshakeServerRejection code shown bytes) := by
      rw [reject,buildRejectedSigned,hb,ok_bind,hmarshal,ok_bind]
    rw [hreject]
    refine ⟨nofun,fun e' he => ⟨.error message,{t with sent := t.sent++[bytes]},?_,?_⟩⟩
    · rw [refuse,Method.bind_of_ok hcall,Method.call_throw]
    · obtain rfl := Except.error.inj he
      exact ⟨by rw [hs]; rfl,hrej⟩

end Refuse

section Driver
open Method
variable {C : Crypto} {rt : Runtime} {t : Transport} {config : ServerConfig}
  {sessionId : JsString} {wantHash : Bytes} {keys : SessionKeys} {sent : List Bytes}

theorem driverVerify_follows (plain : PlainErrors C rt) (ht : t.closed = false)
    (hs : t.sent = sent) (lookup : Option Json → Option Json → Callback Bytes) (block : Json) :
    Follows (driverVerify C rt config sessionId wantHash lookup block) t
      (verifyBlock C rt lookup config.serverDomainSigningSeed sessionId wantHash block)
      (fun _ _ t' => t' = t) (Fails sent) := by
  unfold driverVerify verifyBlock
  refine .bind (m := fun pub pub' t' => pub' = pub ∧ t' = t) ?_ ?_
  · refine .attempt (fun pub _ => ⟨rfl,rfl⟩) fun e _ => ?_
    exact refuse_follows plain ht hs _ _ _ _ _ _
  · rintro pub _ _ - ⟨rfl,rfl⟩
    refine .same ?_ fun e he => .of_plain hs (quiet_getProp _ _ e he)
    intro signature _
    refine .same ?_ fun e he => .of_plain hs (quiet_base64Decode plain _ e he)
    intro sig _
    split_ifs with hv
    · exact .pure rfl
    · exact refuse_follows plain ht hs _ _ _ _ _ _

theorem driverProof_follows (plain : PlainErrors C rt) (ht : t.closed = false)
    (hs : t.sent = sent) (p : Option Json) :
    Follows (driverProof C rt config sessionId wantHash keys p) t
      (openProof C rt config sessionId wantHash keys p)
      (fun b b' t' => b' = b ∧ t' = t) (Fails sent) := by
  unfold driverProof openProof
  split_ifs with hempty
  · exact .pure ⟨rfl,rfl⟩
  · unfold openBlock
    refine .bind (m := fun b b' t' => b' = b ∧ t' = t) ?_ ?_
    · refine .attempt (fun b _ => ⟨rfl,rfl⟩) fun e _ => ?_
      exact refuse_follows plain ht hs _ _ _ _ _ _
    · rintro b _ _ - ⟨rfl,rfl⟩
      cases config.lookupClientIdentityKey with
      | none => exact .pure ⟨rfl,rfl⟩
      | some lookup =>
        refine .bind (driverVerify_follows plain ht hs lookup _) ?_
        rintro _ _ _ - rfl
        exact .pure ⟨rfl,rfl⟩

theorem driverJudge_follows (plain : PlainErrors C rt) (ht : t.closed = false)
    (hs : t.sent = sent) (p block : Option Json) :
    Follows (driverJudge C config sessionId keys p block) t
      (judgeProof C config sessionId p keys block) (fun _ _ t' => t' = t) (Fails sent) := by
  unfold driverJudge judgeProof
  cases config.verifyIdentityProof with
  | none => exact .pure rfl
  | some verify =>
    refine .same ?_ fun e he => .of_plain hs (quiet_callback _ e he)
    intro verdict _
    split_ifs
    · exact .pure rfl
    · exact refuse_follows plain ht hs _ _ _ _ _ _

/-- A parsed message of the type and step. -/
def checked (bytes : Bytes) (step : String) : Js Json := do
  let m ← parseJson (Utf8.textDecode bytes)
  checkTypeStep m step
  .ok m

theorem quiet_checked (bytes : Bytes) (step : String) : Quiet (checked bytes step) :=
  .bind (quiet_parseJson _) fun _ _ => .bind (quiet_checkTypeStep _ _) fun _ _ => .ok _

theorem checked_eq_ok {bytes : Bytes} {step : String} {m : Json} :
    checked bytes step = .ok m ↔ ∃ ms, m = .obj ms ∧
      parseJson (Utf8.textDecode bytes) = .ok (.obj ms) ∧
      lookup ms (js "type") = some (.str messageType) ∧
      lookup ms (js "step") = some (.str (js step)) := by
  unfold checked
  simp only [bind_eq_ok,checkTypeStep_eq_ok,Except.ok.injEq]
  constructor
  · rintro ⟨_,hparse,_,⟨ms,rfl,htype,hstep⟩,rfl⟩
    exact ⟨ms,rfl,hparse,htype,hstep⟩
  · rintro ⟨ms,rfl,hparse,htype,hstep⟩
    exact ⟨_,hparse,(),⟨ms,rfl,htype,hstep⟩,rfl⟩

/-- Both servers take the same frames of a step. -/
theorem readMessage_eq_ok {bytes : Bytes} {step : String} {m : Json} :
    readMessage bytes step = .ok m ↔ checked bytes step = .ok m := by
  rw [checked_eq_ok]
  unfold readMessage
  simp only [bind_eq_ok,parseHandshakeMessage_eq_ok]
  constructor
  · rintro ⟨_,⟨ms,_,rfl,hparse,htype,-⟩,_,hstep,hm⟩
    rw [hparse,Except.ok.injEq] at hm
    exact ⟨ms,hm.symm,hparse,htype,expectStep_eq_ok.mp hstep⟩
  · rintro ⟨ms,rfl,hparse,htype,hstep⟩
    exact ⟨_,⟨ms,_,rfl,hparse,htype,hstep⟩,(),expectStep_eq_ok.mpr hstep,hparse⟩

/-- Reading the frame that is next. -/
theorem read_follows {bytes : Bytes} {rest : List Bytes} (ht : t.inbox = bytes::rest)
    (hs : t.sent = sent) (expected step : String) {α β : Type}
    {f : Bytes → Json → Method Thrown Transport α} {g : Json → Js β}
    {post : β → α → Transport → Prop}
    (h : ∀ m, checked bytes step = .ok m →
      Follows (f bytes m) {t with inbox := rest} (g m) post (Fails sent)) :
    Follows (receiveOrThrow expected >>= fun b => liftM (readMessage b step) >>= f b) t
      (checked bytes step >>= g) post (Fails sent) := by
  have hreceive : (receiveOrThrow expected).call t = (.ok bytes,{t with inbox := rest}) :=
    receiveOrThrow_eq_ok.mpr ⟨rest,ht,rfl⟩
  refine .of_call (bind_of_ok hreceive _) (.lift ?_ ?_)
  · intro m hm
    exact ⟨m,readMessage_eq_ok.mpr hm,h m hm⟩
  · intro e he
    cases hr : readMessage bytes step with
    | ok m => rw [readMessage_eq_ok.mp hr] at he; cases he
    | error e' => exact ⟨e',rfl,.of_plain hs (quiet_checked bytes step e he)⟩

/-- The checks of a CONFIRM that has the type and the step. -/
def openChecked (C : Crypto) (rt : Runtime) (config : ServerConfig) (sessionId : JsString)
    (wantHash : Bytes) (keys : SessionKeys) (m : Json) : Js Confirmed := do
  let hash ← getProp (some m) (js "confirmation_hash")
  let gotHash ← base64Decode rt hash
  if constantTimeEqual gotHash wantHash then do
    let identityProof ← getProp (some m) (js "identity_proof")
    let block ← openProof C rt config sessionId wantHash keys identityProof
    .ok ⟨identityProof,block⟩
  else
    reject C config.serverDomainSigningSeed sessionId (js "handshake_invalid") none
      (some (js "confirmation hash mismatch"))

theorem openConfirm_checked (data : Bytes) :
    openConfirm C rt config sessionId wantHash keys data =
      checked data "confirm" >>= openChecked C rt config sessionId wantHash keys := by
  simp only [openConfirm,checked,bind_assoc,ok_bind]
  rfl

theorem reject_bind {α β : Type} (seed : Bytes) (sid code : JsString)
    (reason shown : Option JsString) (f : α → Js β) :
    (reject C seed sid code reason shown >>= f) = reject C seed sid code reason shown := by
  simp only [reject,bind_assoc,error_bind]

theorem session_new_server (config : ServerConfig) (sessionId : JsString) (keys : SessionKeys)
    (ticket : Option ResumptionTicket) (proof : ServerIdentityProof) :
    ∃ s, Session.new (serverSessionConfig config sessionId keys ticket proof) = .ok s := by
  unfold Session.new
  exact ⟨_,rfl⟩

variable (config) in
/-- The driver after its RESPONSE takes what passes the checks of a CONFIRM and is granted;
it never looks at the identity that a block names. -/
theorem runServerConfirm_follows (plain : PlainErrors C rt) {r : Responding} {resp data : Bytes}
    {rest : List Bytes} (hinbox : t.inbox = data::rest) (ht : t.closed = false)
    (hs : t.sent = sent) (hresp : Canonical.marshal (.obj r.resp) = .ok resp) :
    Follows (runServerConfirm C rt config r) t
      (openConfirm C rt config r.sessionId (confirmationHash C r.initBytes resp) r.keys data >>=
        grant C config r.sessionId r.keys)
      (fun g s t' => t'.sent = sent++[g.2] ∧ Session.new (serverSessionConfig config r.sessionId
        r.keys g.1 r.serverIdentityProof) = .ok s)
      (Fails sent) := by
  rw [openConfirm_checked,bind_assoc]
  unfold runServerConfirm
  refine read_follows hinbox hs _ _ fun m _ => ?_
  have ht' : ({t with inbox := rest} : Transport).closed = false := ht
  have hs' : ({t with inbox := rest} : Transport).sent = sent := hs
  generalize ({t with inbox := rest} : Transport) = mid at ht' hs'
  rw [hresp]
  refine .skip ?_
  unfold openChecked
  rw [bind_assoc]
  refine .same ?_ fun e he => .of_plain hs' (quiet_getProp _ _ e he)
  intro hash _
  rw [bind_assoc]
  refine .same ?_ fun e he => .of_plain hs' (quiet_base64Decode plain _ e he)
  intro gotHash _
  split_ifs
  · rw [bind_assoc]
    refine .same ?_ fun e he => .of_plain hs' (quiet_getProp _ _ e he)
    intro identityProof _
    rw [bind_assoc]
    refine .bind (driverProof_follows plain ht' hs' identityProof) ?_
    rintro block _ mid - ⟨rfl,rfl⟩
    rw [ok_bind]
    unfold grant
    refine .bind (driverJudge_follows plain ht' hs' _ _) ?_
    rintro _ _ mid - rfl
    refine .same ?_ fun e he => .of_plain hs' (quiet_issueTicket _ _ e he)
    intro ticket _
    have hwf := acceptedPreSign_wf ⟨r.sessionId,config.sessionTTL,config.permissions,ticket,
      config.serverDomainSigningSeed,config.acceptedExtensions⟩
    refine .same ?_ fun e he => .of_plain hs' (quiet_signMessage plain hwf _ e he)
    intro accepted haccepted
    rw [serverAccepted_marshal haccepted]
    generalize Canonical.canonicalBytes (.obj accepted) = bytes
    refine .skip ?_
    obtain ⟨s,hs⟩ := session_new_server config r.sessionId r.keys ticket
      r.serverIdentityProof
    have hsend : (Transport.send bytes).call mid = (.ok (),{mid with sent := mid.sent++[bytes]}) :=
      Transport.send_eq_ok.mpr ⟨ht',rfl⟩
    refine ⟨fun g hg => ⟨s,{mid with sent := mid.sent++[bytes]},?_,?_⟩,nofun⟩
    · rw [bind_of_ok hsend,hs]
      rfl
    · obtain rfl := Except.ok.inj hg
      exact ⟨by rw [hs'],hs⟩
  · rw [reject_bind]
    exact refuse_follows plain ht' hs' _ _ _ _ _ _

/-- What the driver keeps belongs to the answer of the other server. -/
structure Kept (C : Crypto) (init : Bytes) (a : InitAnswer) (r : Responding) : Prop where
  sessionId : r.sessionId = a.sessionId
  initBytes : r.initBytes = init
  resp : Canonical.marshal (.obj r.resp) = .ok a.resp
  keys : r.keys = a.keys C
  serverIdentityProof : r.serverIdentityProof = a.proof

theorem runServerWith_follows (plain : PlainErrors C rt) (ht : t.closed = false)
    (hs : t.sent = sent) (entropy : ServerEntropy) (init : Bytes) {ms : Members}
    (hwf : (Json.obj ms).WF) (suite : Suite) :
    Follows (runServerWith C rt config entropy init (.obj ms) suite) t
      (answerWith C rt config entropy (.obj ms) suite)
      (fun a r t' => Kept C init a r ∧ t' = {t with sent := t.sent++[a.resp]}) (Fails sent) := by
  unfold runServerWith answerWith
  refine .same ?_ fun e he => .of_plain hs (quiet_getProp _ _ e he)
  intro clientKey _
  refine .same ?_ fun e he => .of_plain hs (quiet_getProp _ _ e he)
  intro key _
  refine .same ?_ fun e he => .of_plain hs (quiet_base64Decode plain _ e he)
  intro clientEphPub _
  refine .same ?_ fun e he => .of_plain hs (quiet_getProp _ _ e he)
  intro initNonce hinitNonce
  refine .same ?_ fun e he => .of_plain hs (quiet_base64Decode plain _ e he)
  intro clientNonce _
  dsimp only
  refine .same ?_ fun e he => .of_plain hs (quiet_shareOf plain _ _ _ _ e he)
  intro share _
  refine .same ?_ fun e he => .of_plain hs (quiet_ephemeralKeyId _ _ e he)
  intro keyId _
  refine .same ?_ fun e he => .of_plain hs (quiet_serverIdentityProofOf plain _ _ _ _ e he)
  intro proof _
  rw [getProp_obj,Except.ok.injEq] at hinitNonce
  subst hinitNonce
  have hpre := responsePreSign_wf (i := ⟨entropy.sessionId,lookup ms (js "nonce"),
    Base64.encode (config.serverNonce.getD entropy.nonce),
    ⟨suite.name,Base64.encode share.1,keyId⟩,proof,⟨suite.name,[]⟩,config.serverDomainSigningSeed,
    none⟩) fun _ hv => Json.wf_of_lookup hwf hv
  refine .same ?_ fun e he => .of_plain hs (quiet_signMessage plain hpre _ e he)
  intro signed hsigned
  have hmarshal := serverResponse_marshal hwf hsigned
  generalize Canonical.canonicalBytes (.obj signed) = bytes at hmarshal
  rw [hmarshal]
  refine .skip ?_
  have hsend : (Transport.send bytes).call t = (.ok (),{t with sent := t.sent++[bytes]}) :=
    Transport.send_eq_ok.mpr ⟨ht,rfl⟩
  refine .of_call (bind_of_ok hsend _) (.pure ⟨⟨rfl,rfl,hmarshal,rfl,rfl⟩,rfl⟩)

/-- The answer to an INIT that has the type and the step. -/
def answerChecked (C : Crypto) (rt : Runtime) (config : ServerConfig) (entropy : ServerEntropy)
    (m : Json) : Js InitAnswer := do
  let capabilities ← getProp (some m) (js "capabilities")
  let offered ← getProp capabilities (js "encryption_algorithms")
  let negotiated ← pickSuite offered config.supportedSuites
  match negotiated with
  | none =>
    reject C config.serverDomainSigningSeed entropy.sessionId (js "version_unsupported") none none
  | some suite => answerWith C rt config entropy m suite

theorem answerInit_checked (entropy : ServerEntropy) (data : Bytes) :
    answerInit C rt config entropy data =
      checked data "init" >>= answerChecked C rt config entropy := by
  simp only [answerInit,checked,bind_assoc,ok_bind]
  rfl

variable (config) in
theorem runServerRespond_follows (plain : PlainErrors C rt) {init : Bytes} {rest : List Bytes}
    (hinbox : t.inbox = init::rest) (ht : t.closed = false) (hs : t.sent = sent)
    (entropy : ServerEntropy) :
    Follows (runServerRespond C rt config entropy) t (answerInit C rt config entropy init)
      (fun a r t' => Kept C init a r ∧ t'.inbox = rest ∧ t'.closed = false ∧
        t'.sent = sent++[a.resp]) (Fails sent) := by
  rw [answerInit_checked]
  unfold runServerRespond
  refine read_follows hinbox hs _ _ fun m hm => ?_
  obtain ⟨ms,rfl,hparse,-,-⟩ := checked_eq_ok.mp hm
  have hwf : (Json.obj ms).WF := JsonText.parse_wf (parseJson_eq_ok.mp hparse)
  have hinbox' : ({t with inbox := rest} : Transport).inbox = rest := rfl
  have ht' : ({t with inbox := rest} : Transport).closed = false := ht
  have hs' : ({t with inbox := rest} : Transport).sent = sent := hs
  generalize ({t with inbox := rest} : Transport) = mid at hinbox' ht' hs'
  unfold answerChecked
  refine .same ?_ fun e he => .of_plain hs' (quiet_getProp _ _ e he)
  intro capabilities _
  refine .same ?_ fun e he => .of_plain hs' (quiet_getProp _ _ e he)
  intro offered _
  refine .same ?_ fun e he => .of_plain hs' (quiet_pickSuite _ _ e he)
  intro negotiated _
  cases negotiated with
  | none => exact refuse_follows plain ht' hs' _ _ _ _ _ _
  | some suite =>
    refine (runServerWith_follows plain ht' hs' entropy init hwf suite).imp ?_ fun _ _ _ h => h
    rintro a r _ ⟨hkept,rfl⟩
    exact ⟨hkept,hinbox',ht',by rw [hs']⟩

end Driver

/-- The constructor takes this configuration. -/
def Constructible (config : ServerConfig) : Prop :=
  config.supportedSuites.length ≠ 0 ∧ config.serverDomainSigningSeed.length ≠ 0 ∧
    config.domain ≠ []

/-- A server has an answer to the INIT: a RESPONSE, or a REJECTED that it can sign. -/
def Answers (C : Crypto) (rt : Runtime) (config : ServerConfig) (entropy : ServerEntropy)
    (init : Bytes) : Prop :=
  ∃ ns, parseJson (Utf8.textDecode init) = .ok (.obj ns) ∧
    ((∃ a, InitOk C rt config entropy ns a) ∨
      lookup ns (js "type") = some (.str messageType) ∧
      lookup ns (js "step") = some (.str (js "init")) ∧
      (∃ offered, getProp (lookup ns (js "capabilities")) (js "encryption_algorithms") =
        .ok offered ∧ pickSuite offered config.supportedSuites = .ok none) ∧
      config.serverDomainSigningSeed.length = 32)

/-- No callback throws before the proof is accepted or refused. -/
def Decided (config : ServerConfig) (keys : SessionKeys) (c : Confirmed) : Prop :=
  let tickets := ∀ build, config.resumptionTicket = some build → ∃ t, build keys = .ok t
  (config.verifyIdentityProof = none → tickets) ∧
    ∀ verdict, config.verifyIdentityProof = some verdict →
      ∃ v, verdict c.identityProof keys c.block = .ok v ∧ (v.ok = true → tickets)

/-- The CONFIRM passes the checks with an identity proof that opens to `null`, and the
caller decides about it. -/
def Nameless (C : Crypto) (rt : Runtime) (config : ServerConfig) (entropy : ServerEntropy)
    (init confirm : Bytes) : Prop :=
  ∃ ns a ms p, parseJson (Utf8.textDecode init) = .ok (.obj ns) ∧
    InitOk C rt config entropy ns a ∧ parseJson (Utf8.textDecode confirm) = .ok (.obj ms) ∧
    ConfirmOk C rt config a.sessionId (confirmationHash C init a.resp) (a.keys C) ms
      ⟨p,some .null⟩ ∧ Decided config (a.keys C) ⟨p,some .null⟩

/-- The last frame is a REJECTED with this code. -/
def Rejects (frames : List Bytes) (code : JsString) : Prop :=
  ∃ frame ∈ frames.getLast?, IsRejected frame code

/-- The two servers send the same frames, reject with the same code and end with the same
session, or both with none. -/
structure SameEnd (m : List Bytes × Js HandshakeServerSession) (l : List Bytes × Js Session) :
    Prop where
  frames : m.1 = l.1
  code : ∀ code, (∃ reason rejected,
    m.2 = .error (.handshakeServerRejection code reason rejected)) ↔ Rejects l.1 code
  completes : (∃ s, m.2 = .ok s) ↔ ∃ s, l.2 = .ok s
  session : ∀ s s', m.2 = .ok s → l.2 = .ok s' → s'.sessionId = some (.str s.sessionId) ∧
    s'.sessionTTL = some (.num s.sessionTTL) ∧
    (∀ v, v ∈ s'.permissions ↔ ∃ p ∈ s.permissions, v = .str p) ∧ s'.keys = some s.keys

section Outcomes
open Method
variable {C : Crypto} {rt : Runtime} {config : ServerConfig} {entropy : ServerEntropy}
  {init confirm : Bytes}

theorem loopDrivenServer_eq : loopDrivenServer C rt config entropy init confirm =
    (((runServerInner C rt config entropy).call ⟨[init,confirm],[],false⟩).2.sent,
      ((runServerInner C rt config entropy).call ⟨[init,confirm],[],false⟩).1) := by
  unfold loopDrivenServer runServer Transport.closeOnError
  rw [call_tryCatch]
  rcases (runServerInner C rt config entropy).call ⟨[init,confirm],[],false⟩ with ⟨_ | s,t⟩ <;> rfl

/-- The driver when the INIT gets no RESPONSE. -/
theorem loopDrivenServer_unanswered (confirm : Bytes) (plain : PlainErrors C rt) {e : Thrown}
    (h : answerInit C rt config entropy init = .error e) : Announced e ∧
      ∃ e', loopDrivenServer C rt config entropy init confirm = (emittedBy e,.error e') := by
  have hf := runServerRespond_follows config plain
    (t := ⟨[init,confirm],[],false⟩) rfl rfl rfl entropy
  obtain ⟨e',t',hcall,hfail⟩ := hf.error e h
  refine ⟨hfail.announced,e',?_⟩
  rw [loopDrivenServer_eq,runServerInner,call_bind,hcall]
  exact congrArg (fun frames => (frames,Except.error e')) hfail.sent

/-- The driver after its RESPONSE. -/
theorem loopDrivenServer_answered (confirm : Bytes) (plain : PlainErrors C rt) {a : InitAnswer}
    (h : answerInit C rt config entropy init = .ok a) :
    let y := openConfirm C rt config a.sessionId (confirmationHash C init a.resp) (a.keys C)
      confirm >>= grant C config a.sessionId (a.keys C)
    (∀ g, y = .ok g → ∃ s, loopDrivenServer C rt config entropy init confirm =
        ([a.resp,g.2],.ok s) ∧
      Session.new (serverSessionConfig config a.sessionId (a.keys C) g.1 a.proof) = .ok s) ∧
    ∀ e, y = .error e → Announced e ∧
      ∃ e', loopDrivenServer C rt config entropy init confirm = (a.resp::emittedBy e,.error e') := by
  have hf := runServerRespond_follows config plain
    (t := ⟨[init,confirm],[],false⟩) rfl rfl rfl entropy
  obtain ⟨r,t,hcall,hkept,hinbox,ht,hs⟩ := hf.ok a h
  have hconfirm := runServerConfirm_follows config plain hinbox ht hs hkept.resp
  rw [hkept.sessionId,hkept.initBytes,hkept.keys,hkept.serverIdentityProof] at hconfirm
  rw [loopDrivenServer_eq,runServerInner,bind_of_ok hcall]
  constructor
  · intro g hg
    obtain ⟨s,t',hcall',hsent,hnew⟩ := hconfirm.ok g hg
    exact ⟨s,by rw [hcall',hsent]; rfl,hnew⟩
  · intro e he
    obtain ⟨e',t',hcall',hfail⟩ := hconfirm.error e he
    exact ⟨hfail.announced,e',by rw [hcall',hfail.sent]; rfl⟩

theorem new_of_constructible (h : Constructible config) : ∃ s, HandshakeServer.new config = .ok s ∧
    s.cfg = config ∧ s.initCanonical = none :=
  ⟨_,new_eq_ok.mpr ⟨h.1,h.2.1,h.2.2,rfl⟩,rfl,rfl⟩

theorem new_of_not_constructible (h : ¬Constructible config) :
    ∃ e, HandshakeServer.new config = .error e ∧ Plain e := by
  have hq : Quiet (HandshakeServer.new config) :=
    .bind (quiet_require _ _) fun _ _ => .bind (quiet_require _ _) fun _ _ =>
      .bind (quiet_require _ _) fun _ _ => .ok _
  cases hnew : HandshakeServer.new config with
  | ok s =>
    obtain ⟨h1,h2,h3,-⟩ := new_eq_ok.mp hnew
    exact absurd ⟨h1,h2,h3⟩ h
  | error e => exact ⟨e,rfl,hq e hnew⟩

/-- The message-driven server when the INIT gets no RESPONSE. -/
theorem messageDrivenServer_unanswered (hc : Constructible config) {e : Thrown}
    (h : answerInit C rt config entropy init = .error e) :
    messageDrivenServer C rt config entropy init confirm = (emittedBy e,.error e) := by
  obtain ⟨s,hnew,hcfg,hnone⟩ := new_of_constructible hc
  obtain ⟨e',s',hcall,rfl,-⟩ := (onInit_follows C rt hnone entropy init).error e (hcfg ▸ h)
  rw [messageDrivenServer,hnew]
  dsimp only
  rw [hcall]

/-- The message-driven server after its RESPONSE. -/
theorem messageDrivenServer_answered (confirm : Bytes) (hc : Constructible config) {a : InitAnswer}
    (h : answerInit C rt config entropy init = .ok a) :
    ∃ s, s.cfg = config ∧ s.sessionId = a.sessionId ∧
      Ready s init a.resp (a.keys C) a.proof ∧
      messageDrivenServer C rt config entropy init confirm =
        match (onConfirm C rt confirm).call s with
        | (.error e,_) => (a.resp::emittedBy e,.error e)
        | (.ok accepted,s) => ([a.resp,accepted],(session.call s).1) := by
  obtain ⟨s,hnew,hcfg,hnone⟩ := new_of_constructible hc
  obtain ⟨_,s₁,hcall,rfl,ha⟩ := (onInit_follows C rt hnone entropy init).ok a (hcfg ▸ h)
  refine ⟨s₁,ha.cfg.trans hcfg,ha.sessionId,
    ⟨ha.initCanonical,ha.respCanonical,ha.sessionKeys,ha.serverIdProof⟩,?_⟩
  rw [messageDrivenServer,hnew]
  dsimp only
  rw [hcall]

section Confirmed
variable {a : InitAnswer}

/-- A CONFIRM that fails its checks. -/
theorem messageDrivenServer_unopened (hc : Constructible config)
    (h : answerInit C rt config entropy init = .ok a) {e : Thrown}
    (hopen : openConfirm C rt config a.sessionId (confirmationHash C init a.resp) (a.keys C)
      confirm = .error e) :
    messageDrivenServer C rt config entropy init confirm = (a.resp::emittedBy e,.error e) := by
  obtain ⟨s,hcfg,hsid,hready,hm⟩ := messageDrivenServer_answered confirm hc h
  have hf := onConfirm_follows C rt hready confirm
  rw [hcfg,hsid,hopen] at hf
  obtain ⟨e',s',hcall,rfl,-⟩ := hf.error e rfl
  rw [hm,hcall]

/-- A proof that opens to `null` has no identity to read. -/
theorem messageDrivenServer_nameless (hc : Constructible config)
    (h : answerInit C rt config entropy init = .ok a) {c : Confirmed}
    (hopen : openConfirm C rt config a.sessionId (confirmationHash C init a.resp) (a.keys C)
      confirm = .ok c) (hnull : c.block = some .null) :
    messageDrivenServer C rt config entropy init confirm =
      ([a.resp],.error (.engine .typeError)) := by
  obtain ⟨s,hcfg,hsid,hready,hm⟩ := messageDrivenServer_answered confirm hc h
  have hid : identified s c.block = .error (.engine .typeError) := by rw [hnull]; rfl
  have hf := onConfirm_follows C rt hready confirm
  rw [hcfg,hsid,hopen,ok_bind,hid,error_bind] at hf
  obtain ⟨e',s',hcall,rfl,-⟩ := hf.error _ rfl
  rw [hm,hcall]
  rfl

theorem identified_ok {s : HandshakeServer} {block : Option Json} (h : block ≠ some .null) :
    ∃ s', identified s block = .ok s' := by
  rcases block with _ | (_ | _ | _ | _ | _ | _)
  · exact ⟨_,rfl⟩
  · exact absurd rfl h
  all_goals exact ⟨_,rfl⟩

/-- A CONFIRM that names a client, or nobody, goes to the caller. -/
theorem messageDrivenServer_named (hc : Constructible config)
    (h : answerInit C rt config entropy init = .ok a) {c : Confirmed}
    (hopen : openConfirm C rt config a.sessionId (confirmationHash C init a.resp) (a.keys C)
      confirm = .ok c) (hnull : c.block ≠ some .null) :
    (∀ g, grant C config a.sessionId (a.keys C) c = .ok g → ∃ s,
      messageDrivenServer C rt config entropy init confirm = ([a.resp,g.2],.ok s) ∧
      s.sessionId = a.sessionId ∧ s.sessionTTL = config.sessionTTL ∧
      s.permissions = config.permissions ∧ s.keys = a.keys C) ∧
    ∀ e, grant C config a.sessionId (a.keys C) c = .error e →
      messageDrivenServer C rt config entropy init confirm = (a.resp::emittedBy e,.error e) := by
  obtain ⟨s,hcfg,hsid,hready,hm⟩ := messageDrivenServer_answered confirm hc h
  obtain ⟨s',hid⟩ := identified_ok (s := s) hnull
  have hf := onConfirm_follows C rt hready confirm
  rw [hcfg,hsid,hopen,ok_bind,hid,ok_bind] at hf
  constructor
  · intro g hg
    rw [hg,ok_bind] at hf
    obtain ⟨_,_,hcall,rfl,rfl⟩ := hf.ok _ rfl
    obtain ⟨_,_,rfl⟩ := identified_frame hid
    exact ⟨_,by rw [hm,hcall]; rfl,hsid,congrArg ServerConfig.sessionTTL hcfg,
      congrArg ServerConfig.permissions hcfg,rfl⟩
  · intro e he
    rw [he,error_bind] at hf
    obtain ⟨e',_,hcall,rfl,-⟩ := hf.error _ rfl
    rw [hm,hcall]

end Confirmed

theorem seed_of_initOk {ns : Members} (hns : (Json.obj ns).WF) {a : InitAnswer}
    (ha : InitOk C rt config entropy ns a) : config.serverDomainSigningSeed.length = 32 := by
  obtain ⟨keyId,signed,-,-,hsigned,-⟩ := ha.sent
  obtain ⟨sig,hsig,-⟩ := signMessage_eq_ok
    (responsePreSign_wf fun _ hv => Json.wf_of_lookup hns hv) hsigned
  exact (sign_eq_ok.mp hsig).1

/-- What a decision comes to: a session, or a REJECTED. -/
theorem grant_decided (laws : SignLaws C) (hseed : config.serverDomainSigningSeed.length = 32)
    {sid : JsString} {keys : SessionKeys} {c : Confirmed} (h : Decided config keys c) :
    (∃ g, grant C config sid keys c = .ok g) ∨ ∃ code reason rejected,
      grant C config sid keys c = .error (.handshakeServerRejection code reason rejected) := by
  by_cases htrust : ∀ verdict, config.verifyIdentityProof = some verdict →
      ∃ v, verdict c.identityProof keys c.block = .ok v ∧ v.ok = true
  · have htickets : ∀ build, config.resumptionTicket = some build → ∃ t, build keys = .ok t := by
      cases hv : config.verifyIdentityProof with
      | none => exact h.1 hv
      | some verdict =>
        obtain ⟨v,hok,ht⟩ := h.2 verdict hv
        obtain ⟨v',hok',htrue⟩ := htrust verdict hv
        obtain rfl := Except.ok.inj (hok.symm.trans hok')
        exact ht htrue
    obtain ⟨ticket,signed,-,hg⟩ := grant_ok laws hseed htrust htickets
    exact .inl ⟨_,hg⟩
  · obtain ⟨verdict,hv,hfalse⟩ : ∃ verdict, config.verifyIdentityProof = some verdict ∧
        ∀ v, verdict c.identityProof keys c.block = .ok v → ¬v.ok = true := by
      simpa using htrust
    obtain ⟨v,hok,-⟩ := h.2 verdict hv
    obtain ⟨signed,hsigned⟩ := signMessage_ok laws (rejectedPreSign_wf ⟨sid,
      v.reasonCode.getD (js "auth_failed"),v.reason,config.serverDomainSigningSeed,none⟩) hseed
    have hbuild : buildRejected C ⟨sid,v.reasonCode.getD (js "auth_failed"),v.reason,
        config.serverDomainSigningSeed,none⟩ = .ok signed := hsigned
    have hmarshal : Canonical.marshal (.obj signed) = .ok (Canonical.canonicalBytes (.obj signed)) :=
      Canonical.marshal_eq (signMessage_wf (rejectedPreSign_wf _) hsigned)
    generalize Canonical.canonicalBytes (.obj signed) = bytes at hmarshal
    refine .inr ⟨v.reasonCode.getD (js "auth_failed"),v.reason,bytes,?_⟩
    unfold grant judgeProof
    rw [hv]
    dsimp only
    rw [hok,Callback.run,ok_bind,if_neg (hfalse v hok),reject,buildRejectedSigned,hbuild,ok_bind,
      hmarshal,ok_bind,error_bind]

/-- Where a callback throws, nothing is sent. -/
theorem grant_undecided {sid : JsString} {keys : SessionKeys}
    {c : Confirmed} (h : ¬Decided config keys c) :
    ∃ e, grant C config sid keys c = .error e ∧ Plain e := by
  have hissue (ht : ¬∀ build, config.resumptionTicket = some build → ∃ t, build keys = .ok t)
      (hjudge : judgeProof C config sid c.identityProof keys c.block = .ok ()) :
      ∃ e, grant C config sid keys c = .error e ∧ Plain e := by
    cases hi : issueTicket config keys with
    | ok ticket =>
      refine absurd (fun build hb => ?_) ht
      rw [issueTicket,hb] at hi
      obtain ⟨t,hrun,-⟩ := bind_eq_ok.mp hi
      cases hbuild : build keys with
      | ok t => exact ⟨t,rfl⟩
      | error message => simp [hbuild,Callback.run] at hrun
    | error e =>
      exact ⟨e,by rw [grant,hjudge,ok_bind,hi,error_bind],quiet_issueTicket config keys e hi⟩
  cases hv : config.verifyIdentityProof with
  | none =>
    refine hissue (fun ht => h ⟨fun _ => ht,by simp [hv]⟩) ?_
    rw [judgeProof,hv]
  | some verdict =>
    cases hr : verdict c.identityProof keys c.block with
    | error message =>
      refine ⟨.error message,?_,trivial⟩
      rw [grant,judgeProof,hv]
      dsimp only
      rw [hr]
      rfl
    | ok v =>
      have hdecided (ht : v.ok = true → ∀ build, config.resumptionTicket = some build →
          ∃ t, build keys = .ok t) : Decided config keys c := by
        refine ⟨by simp [hv],fun verdict' hv' => ?_⟩
        obtain rfl := Option.some.inj (hv.symm.trans hv')
        exact ⟨v,hr,ht⟩
      have hok : v.ok = true := by
        by_contra hno
        exact h (hdecided fun ht => absurd ht hno)
      refine hissue (fun ht => h (hdecided fun _ => ht)) ?_
      rw [judgeProof,hv]
      dsimp only
      rw [hr,Callback.run,ok_bind,if_pos hok]

/-- A rejection goes out when its REJECTED can be signed. -/
theorem reject_sent (laws : SignLaws C) (plain : PlainErrors C rt) {α : Type} {seed : Bytes}
    {sid code : JsString} {reason shown : Option JsString} {e : Thrown}
    (h : (reject C seed sid code reason shown : Js α) = .error e) : ¬Plain e ↔ seed.length = 32 := by
  have hwf := rejectedPreSign_wf ⟨sid,code,reason,seed,none⟩
  cases hb : buildRejected C ⟨sid,code,reason,seed,none⟩ with
  | error e' =>
    rw [reject,buildRejectedSigned,hb,error_bind,error_bind] at h
    obtain rfl := Except.error.inj h
    refine iff_of_false (not_not.mpr (quiet_signMessage plain hwf seed _ hb)) fun hseed => ?_
    obtain ⟨signed,hsigned⟩ := signMessage_ok laws hwf hseed
    exact absurd (hb.symm.trans hsigned) (by simp)
  | ok r =>
    have hmarshal : Canonical.marshal (.obj r) = .ok (Canonical.canonicalBytes (.obj r)) :=
      Canonical.marshal_eq (signMessage_wf hwf hb)
    generalize Canonical.canonicalBytes (.obj r) = bytes at hmarshal
    rw [reject,buildRejectedSigned,hb,ok_bind,hmarshal,ok_bind] at h
    obtain rfl := Except.error.inj h
    obtain ⟨sig,hsig,-⟩ := signMessage_eq_ok hwf hb
    exact iff_of_true id (sign_eq_ok.mp hsig).1

theorem quiet_answerWith (plain : PlainErrors C rt) {ms : Members} (hwf : (Json.obj ms).WF)
    (suite : Suite) : Quiet (answerWith C rt config entropy (.obj ms) suite) := by
  refine .bind (quiet_getProp _ _) fun _ _ => .bind (quiet_getProp _ _) fun _ _ => ?_
  refine .bind (quiet_base64Decode plain _) fun _ _ => .bind (quiet_getProp _ _) fun n hn => ?_
  refine .bind (quiet_base64Decode plain _) fun _ _ => .bind (quiet_shareOf plain _ _ _ _) ?_
  intro share _
  refine .bind (quiet_ephemeralKeyId _ _) fun keyId _ => ?_
  refine .bind (quiet_serverIdentityProofOf plain _ _ _ _) fun proof _ => ?_
  rw [getProp_obj,Except.ok.injEq] at hn
  subst hn
  refine .bind (quiet_signMessage plain (responsePreSign_wf fun _ hv =>
    Json.wf_of_lookup hwf hv) _) fun signed hsigned => ?_
  rw [serverResponse_marshal hwf hsigned]
  exact .ok _

/-- What gets no RESPONSE is answered with a REJECTED, or not at all. -/
theorem answers_iff (laws : SignLaws C) (plain : PlainErrors C rt) {e : Thrown}
    (h : answerInit C rt config entropy init = .error e) :
    Answers C rt config entropy init ↔ ¬Plain e := by
  have hno : ¬∃ ns a, parseJson (Utf8.textDecode init) = .ok (.obj ns) ∧
      InitOk C rt config entropy ns a := by
    rintro ⟨ns,a,hparse,ha⟩
    rw [answerInit_eq_ok.mpr ⟨ns,hparse,ha⟩] at h
    cases h
  rw [answerInit_checked] at h
  constructor
  · rintro ⟨ns,hparse,⟨a,ha⟩ | ⟨htype,hstep,⟨offered,hoffered,hpick⟩,hseed⟩⟩
    · exact absurd ⟨ns,a,hparse,ha⟩ hno
    · rw [checked_eq_ok.mpr ⟨ns,rfl,hparse,htype,hstep⟩,ok_bind,answerChecked,getProp_obj,ok_bind,
        hoffered,ok_bind,hpick,ok_bind] at h
      exact (reject_sent laws plain h).mpr hseed
  · intro hplain
    cases hm : checked init "init" with
    | error e' =>
      rw [hm,error_bind] at h
      exact absurd (Except.error.inj h ▸ quiet_checked init "init" e' hm) hplain
    | ok m =>
      obtain ⟨ns,rfl,hparse,htype,hstep⟩ := checked_eq_ok.mp hm
      have hwf : (Json.obj ns).WF := JsonText.parse_wf (parseJson_eq_ok.mp hparse)
      rw [hm,ok_bind,answerChecked,getProp_obj,ok_bind] at h
      cases ho : getProp (lookup ns (js "capabilities")) (js "encryption_algorithms") with
      | error e' =>
        rw [ho,error_bind] at h
        exact absurd (Except.error.inj h ▸ quiet_getProp _ _ e' ho) hplain
      | ok offered =>
        rw [ho,ok_bind] at h
        cases hp : pickSuite offered config.supportedSuites with
        | error e' =>
          rw [hp,error_bind] at h
          exact absurd (Except.error.inj h ▸ quiet_pickSuite _ _ e' hp) hplain
        | ok negotiated =>
          rw [hp,ok_bind] at h
          cases negotiated with
          | none =>
            exact ⟨ns,hparse,.inr ⟨htype,hstep,⟨offered,ho,hp⟩,(reject_sent laws plain h).mp hplain⟩⟩
          | some suite => exact absurd (quiet_answerWith plain hwf suite e h) hplain

theorem IsRejected.unique {frame : Bytes} {code code' : JsString} (h : IsRejected frame code)
    (h' : IsRejected frame code') : code = code' := by
  obtain ⟨ms,hparse,-,hcode⟩ := h
  obtain ⟨ms',hparse',-,hcode'⟩ := h'
  obtain rfl := Json.obj.inj (Except.ok.inj (hparse.symm.trans hparse'))
  exact Json.str.inj (Option.some.inj (hcode.symm.trans hcode'))

/-- A frame that one server signed as another step is no REJECTED. -/
theorem not_isRejected {pre signed : Members} {seed : Bytes} (hwf : (Json.obj pre).WF)
    (h : signMessage C pre seed = .ok signed) {step : String}
    (hstep : lookup pre (js "step") = some (.str (js step))) (hne : js step ≠ js "rejected")
    (code : JsString) : ¬IsRejected (Canonical.canonicalBytes (.obj signed)) code := by
  rintro ⟨ms,hparse,hrej,-⟩
  obtain ⟨ms',hparse',hr⟩ := received (signMessage_wf hwf h)
  obtain rfl := Json.obj.inj (Except.ok.inj (hparse.symm.trans hparse'))
  have hs := signed_str hwf h hr (k := js "step") (by decide) hstep
  exact hne (Json.str.inj (Option.some.inj (hs.symm.trans hrej)))

theorem response_not_rejected {ns : Members} (hns : (Json.obj ns).WF) {a : InitAnswer}
    (ha : InitOk C rt config entropy ns a) (code : JsString) : ¬IsRejected a.resp code := by
  obtain ⟨keyId,signed,-,-,hsigned,hresp⟩ := ha.sent
  rw [hresp]
  exact not_isRejected (responsePreSign_wf fun _ hv => Json.wf_of_lookup hns hv) hsigned
    (lookup_responsePreSign_step _) (by decide) code

theorem grant_not_rejected {sid : JsString} {keys : SessionKeys} {c : Confirmed}
    {g : Option ResumptionTicket × Bytes} (h : grant C config sid keys c = .ok g)
    (code : JsString) : ¬IsRejected g.2 code := by
  obtain ⟨_,-,h⟩ := bind_eq_ok.mp h
  obtain ⟨ticket,-,h⟩ := bind_eq_ok.mp h
  obtain ⟨accepted,haccepted,h⟩ := bind_eq_ok.mp h
  rw [serverAccepted_marshal haccepted,ok_bind] at h
  have hstep : lookup (acceptedPreSign ⟨sid,config.sessionTTL,config.permissions,ticket,
      config.serverDomainSigningSeed,config.acceptedExtensions⟩) (js "step") =
        some (.str (js "accepted")) := rfl
  have hno := not_isRejected (acceptedPreSign_wf _) haccepted hstep (by decide) code
  rwa [← Except.ok.inj h]

/-- After frames that are no REJECTED, the last frame tells whether the error is one. -/
theorem rejects_append (sent : List Bytes) (hs : ∀ frame ∈ sent, ∀ code, ¬IsRejected frame code)
    {e : Thrown} (he : Announced e) (code : JsString) :
    Rejects (sent++emittedBy e) code ↔
      ∃ reason rejected, e = .handshakeServerRejection code reason rejected := by
  have hplain (hsent : sent++emittedBy e = sent) : ¬Rejects (sent++emittedBy e) code := by
    rintro ⟨frame,hframe,hrej⟩
    rw [hsent] at hframe
    exact hs frame (List.mem_of_getLast? hframe) code hrej
  cases e with
  | error message => exact iff_of_false (hplain (List.append_nil sent)) nofun
  | engine kind => exact iff_of_false (hplain (List.append_nil sent)) nofun
  | handshakeRejected a b c => exact iff_of_false (hplain (List.append_nil sent)) nofun
  | handshakeServerRejection code' reason rejected =>
    have hlast : (sent++[rejected]).getLast? = some rejected := List.getLast?_concat
    constructor
    · rintro ⟨frame,hframe,hrej⟩
      obtain rfl := Option.some.inj (hlast.symm.trans hframe)
      exact ⟨reason,rejected,by rw [hrej.unique he]⟩
    · rintro ⟨reason',rejected',h⟩
      obtain ⟨rfl,-,-⟩ := Thrown.handshakeServerRejection.inj h
      exact ⟨rejected,hlast,he⟩

/-- Both servers fail, and what was sent before is no REJECTED. -/
theorem sameEnd_error (sent : List Bytes) (hs : ∀ frame ∈ sent, ∀ code, ¬IsRejected frame code)
    {e : Thrown} (he : Announced e) (e' : Thrown) :
    SameEnd (sent++emittedBy e,.error e) (sent++emittedBy e,.error e') where
  frames := rfl
  code code := by
    rw [rejects_append sent hs he code]
    simp only [Except.error.injEq]
  completes := by simp
  session _ _ h := by simp at h

theorem sameValueZero_str (p : JsString) (w : Json) :
    sameValueZero (.str p) w = true ↔ w = .str p := by
  cases w with
  | str t =>
    simp only [sameValueZero,strictEq,Bool.or_false,beq_iff_eq,Json.str.injEq]
    exact eq_comm
  | _ => simp [sameValueZero,strictEq]

/-- The set of a list of strings. -/
theorem newSet_strs (ps : List JsString) : ∃ set, newSet (some (strs ps)) = .ok set ∧
    ∀ v, v ∈ set ↔ ∃ p ∈ ps, v = .str p := by
  refine ⟨_,rfl,?_⟩
  have hfold (set : List Json) (v : Json) :
      v ∈ (ps.map Json.str).foldl
        (fun set v => if set.any (sameValueZero v) then set else set++[v]) set ↔
      v ∈ set ∨ ∃ p ∈ ps, v = .str p := by
    induction ps generalizing set with
    | nil => simp
    | cons p ps ih =>
      rw [List.map_cons,List.foldl_cons,ih]
      by_cases hp : Json.str p ∈ set
      · have hany : set.any (sameValueZero (.str p)) = true :=
          List.any_eq_true.mpr ⟨_,hp,(sameValueZero_str p _).mpr rfl⟩
        rw [if_pos hany]
        grind
      · have hany : ¬set.any (sameValueZero (.str p)) = true := by
          rintro hany
          obtain ⟨w,hw,hsame⟩ := List.any_eq_true.mp hany
          exact hp ((sameValueZero_str p w).mp hsame ▸ hw)
        rw [if_neg hany]
        grind
  intro v
  simpa using hfold [] v

/-- Both servers accept. -/
theorem sameEnd_accepted {a : InitAnswer} {c : Confirmed}
    {g : Option ResumptionTicket × Bytes}
    (hg : grant C config a.sessionId (a.keys C) c = .ok g) {m : HandshakeServerSession}
    (hm : m.sessionId = a.sessionId ∧ m.sessionTTL = config.sessionTTL ∧
      m.permissions = config.permissions ∧ m.keys = a.keys C) {l : Session}
    (hl : Session.new (serverSessionConfig config a.sessionId (a.keys C) g.1 a.proof) = .ok l) :
    SameEnd ([a.resp,g.2],.ok m) ([a.resp,g.2],.ok l) where
  frames := rfl
  code code := by
    refine iff_of_false (by simp) ?_
    rintro ⟨frame,hframe,hrej⟩
    obtain rfl : g.2 = frame := by simpa using hframe
    exact grant_not_rejected hg code hrej
  completes := iff_of_true ⟨m,rfl⟩ ⟨l,rfl⟩
  session s s' hs hs' := by
    obtain rfl := Except.ok.inj hs
    obtain rfl := Except.ok.inj hs'
    obtain ⟨set,hset,hmem⟩ := newSet_strs config.permissions
    obtain ⟨set',hset',hl⟩ := bind_eq_ok.mp hl
    obtain rfl := Except.ok.inj (hset.symm.trans hset')
    obtain rfl := Except.ok.inj hl
    exact ⟨by rw [hm.1]; rfl,by rw [hm.2.1]; rfl,by rw [hm.2.2.1]; exact hmem,
      by rw [hm.2.2.2]; rfl⟩

theorem Nameless.opens (h : Nameless C rt config entropy init confirm) : ∃ a p,
    answerInit C rt config entropy init = .ok a ∧
      openConfirm C rt config a.sessionId (confirmationHash C init a.resp) (a.keys C) confirm =
        .ok ⟨p,some .null⟩ ∧ Decided config (a.keys C) ⟨p,some .null⟩ := by
  obtain ⟨ns,a,ms,p,hparse,hok,hparseC,hconfirm,hd⟩ := h
  exact ⟨a,p,answerInit_eq_ok.mpr ⟨ns,hparse,hok⟩,openConfirm_eq_ok.mpr ⟨ms,hparseC,hconfirm⟩,hd⟩

/-- Where there is no identity to read, the driver goes on to a second frame. -/
theorem Nameless.differs (laws : SignLaws C) (plain : PlainErrors C rt)
    (hc : Constructible config) (h : Nameless C rt config entropy init confirm) :
    ¬SameEnd (messageDrivenServer C rt config entropy init confirm)
      (loopDrivenServer C rt config entropy init confirm) := by
  intro hsame
  obtain ⟨a,p,ha,hopen,hd⟩ := h.opens
  obtain ⟨ns,hparse,hok⟩ := answerInit_eq_ok.mp ha
  have hns : (Json.obj ns).WF := JsonText.parse_wf (parseJson_eq_ok.mp hparse)
  obtain ⟨hlok,hlerror⟩ := loopDrivenServer_answered confirm plain ha
  rw [hopen,ok_bind] at hlok hlerror
  have hframes := hsame.frames
  rw [messageDrivenServer_nameless hc ha hopen rfl] at hframes
  rcases grant_decided laws (seed_of_initOk hns hok) hd with ⟨g,hg⟩ | ⟨_,_,_,hg⟩
  · obtain ⟨s,hl,-⟩ := hlok g hg
    rw [hl] at hframes
    simp at hframes
  · obtain ⟨-,e',hl⟩ := hlerror _ hg
    rw [hl] at hframes
    simp [emittedBy] at hframes

/-- The loop driver and the message-driven server do the same on one INIT and one CONFIRM,
exactly when the constructor of the latter takes the configuration and no CONFIRM that
the caller decides about has an identity proof that opens to `null`, or the constructor
refuses the configuration and the driver has no answer to the INIT. -/
theorem servers_agree_iff (laws : SignLaws C) (plain : PlainErrors C rt) (config : ServerConfig)
    (entropy : ServerEntropy) (init confirm : Bytes) :
    SameEnd (messageDrivenServer C rt config entropy init confirm)
      (loopDrivenServer C rt config entropy init confirm) ↔
    (Constructible config ∧ ¬Nameless C rt config entropy init confirm) ∨
      (¬Constructible config ∧ ¬Answers C rt config entropy init) := by
  cases ha : answerInit C rt config entropy init with
  | error e =>
    obtain ⟨hannounced,e',hl⟩ := loopDrivenServer_unanswered confirm plain ha
    have hnameless : ¬Nameless C rt config entropy init confirm := by
      intro hn
      obtain ⟨a,p,ha',-⟩ := hn.opens
      cases ha.symm.trans ha'
    by_cases hc : Constructible config
    · refine iff_of_true ?_ (.inl ⟨hc,hnameless⟩)
      rw [messageDrivenServer_unanswered hc ha,hl]
      exact sameEnd_error [] (by simp) hannounced e'
    · obtain ⟨e₀,hnew,hplain⟩ := new_of_not_constructible hc
      have hm : messageDrivenServer C rt config entropy init confirm = ([],.error e₀) := by
        rw [messageDrivenServer,hnew]
        exact congrArg (fun frames => (frames,Except.error e₀)) (emittedBy_of_plain hplain)
      rw [hm,hl,answers_iff laws plain ha]
      simp only [hc,false_and,not_false_eq_true,true_and,false_or,not_not]
      constructor
      · intro hsame
        cases e with
        | handshakeServerRejection code reason rejected => exact absurd hsame.frames (by simp [emittedBy])
        | _ => trivial
      · intro hpe
        have hend := sameEnd_error [] (by simp) (announced_of_plain hplain) e'
        rw [emittedBy_of_plain hplain] at hend
        rwa [emittedBy_of_plain hpe]
  | ok a =>
    obtain ⟨ns,hparse,hok⟩ := answerInit_eq_ok.mp ha
    have hns : (Json.obj ns).WF := JsonText.parse_wf (parseJson_eq_ok.mp hparse)
    have hresp : ∀ frame ∈ [a.resp], ∀ code, ¬IsRejected frame code := by
      simpa using response_not_rejected hns hok
    obtain ⟨hlok,hlerror⟩ := loopDrivenServer_answered confirm plain ha
    by_cases hc : Constructible config
    · simp only [hc,true_and,not_true_eq_false,false_and,or_false]
      cases hopen : openConfirm C rt config a.sessionId (confirmationHash C init a.resp) (a.keys C)
          confirm with
      | error e =>
        obtain ⟨hannounced,e',hl⟩ := hlerror e (by rw [hopen,error_bind])
        rw [messageDrivenServer_unopened hc ha hopen,hl]
        refine iff_of_true (sameEnd_error [a.resp] hresp hannounced e') ?_
        intro hn
        obtain ⟨a',p,ha',hopen',-⟩ := hn.opens
        obtain rfl := Except.ok.inj (ha.symm.trans ha')
        cases hopen.symm.trans hopen'
      | ok c =>
        rw [hopen,ok_bind] at hlok hlerror
        by_cases hnull : c.block = some .null
        · rw [messageDrivenServer_nameless hc ha hopen hnull]
          obtain ⟨p,block⟩ := c
          obtain rfl : block = some .null := hnull
          obtain ⟨ms,hparseC,hconfirm⟩ := openConfirm_eq_ok.mp hopen
          by_cases hd : Decided config (a.keys C) ⟨p,some .null⟩
          · have hn : Nameless C rt config entropy init confirm :=
              ⟨ns,a,ms,p,hparse,hok,hparseC,hconfirm,hd⟩
            refine iff_of_false (fun hsame => hn.differs laws plain hc ?_) (not_not.mpr hn)
            rw [messageDrivenServer_nameless hc ha hopen rfl]
            exact hsame
          · obtain ⟨e,hg,hplain⟩ := grant_undecided hd
            obtain ⟨-,e',hl⟩ := hlerror e hg
            rw [hl,emittedBy_of_plain hplain]
            refine iff_of_true (sameEnd_error [a.resp] hresp (e := .engine .typeError) trivial e') ?_
            intro hn
            obtain ⟨a',p',ha',hopen',hd'⟩ := hn.opens
            obtain rfl := Except.ok.inj (ha.symm.trans ha')
            cases hopen.symm.trans hopen'
            exact hd hd'
        · obtain ⟨hmok,hmerror⟩ := messageDrivenServer_named hc ha hopen hnull
          have hnameless : ¬Nameless C rt config entropy init confirm := by
            intro hn
            obtain ⟨a',p,ha',hopen',-⟩ := hn.opens
            obtain rfl := Except.ok.inj (ha.symm.trans ha')
            cases hopen.symm.trans hopen'
            exact hnull rfl
          refine iff_of_true ?_ hnameless
          cases hg : grant C config a.sessionId (a.keys C) c with
          | ok g =>
            obtain ⟨m,hm,hfields⟩ := hmok g hg
            obtain ⟨l,hl,hnew⟩ := hlok g hg
            rw [hm,hl]
            exact sameEnd_accepted hg hfields hnew
          | error e =>
            obtain ⟨hannounced,e',hl⟩ := hlerror e hg
            rw [hmerror e hg,hl]
            exact sameEnd_error [a.resp] hresp hannounced e'
    · obtain ⟨e₀,hnew,hplain⟩ := new_of_not_constructible hc
      have hm : (messageDrivenServer C rt config entropy init confirm).1 = [] := by
        rw [messageDrivenServer,hnew]
        exact emittedBy_of_plain hplain
      simp only [hc,false_and,not_false_eq_true,true_and,false_or]
      refine iff_of_false (fun hsame => ?_) (not_not.mpr ⟨ns,hparse,.inl ⟨a,hok⟩⟩)
      have hframes := hsame.frames
      rw [hm] at hframes
      cases hy : openConfirm C rt config a.sessionId (confirmationHash C init a.resp) (a.keys C)
          confirm >>= grant C config a.sessionId (a.keys C) with
      | ok g =>
        obtain ⟨s,hl,-⟩ := hlok g hy
        rw [hl] at hframes
        cases hframes
      | error e =>
        obtain ⟨-,e',hl⟩ := hlerror e hy
        rw [hl] at hframes
        cases hframes

end Outcomes

/-! A client that seals `null` as its identity block, against a server that looks up no
identity key. -/
section Null

theorem sample_plain : PlainErrors Sample.crypto Sample.runtime where
  bufferFrom v e h := by
    obtain rfl := Except.error.inj h
    trivial
  publicKey sk e h := by
    simp only [Sample.crypto] at h
    split_ifs at h
    exact Except.error.inj h ▸ trivial
  agree sk pk e h := by
    simp only [Sample.crypto] at h
    split_ifs at h
    exact Except.error.inj h ▸ trivial
  encapsulate pk m e h := by
    simp only [Sample.crypto] at h
    split_ifs at h
    exact Except.error.inj h ▸ trivial
  signPublicKey seed e h := by
    simp only [Sample.crypto] at h
    split_ifs at h
    exact Except.error.inj h ▸ trivial
  sign message seed e h := by simp [Sample.crypto] at h

/-- The block of this proof is the text `null`. -/
theorem null_proof {C : Crypto} (rt : Runtime) (laws : Laws C) {key : Bytes} (hkey : key.length = 32)
    (sessionId : JsString) : ∃ proof, proof ≠ [] ∧
      openIdentityProof C rt ⟨some (.str proof),key,sessionId⟩ = .ok .null := by
  have hn : (List.replicate 12 0 : Bytes).length = 12 := List.length_replicate ..
  obtain ⟨ct,-,-,hopen⟩ := laws.aead.decrypt_encrypt key (List.replicate 12 0) (utf8 sessionId)
    (utf8 (js "null")) hkey hn
  refine ⟨Base64.encode (List.replicate 12 0++ct),?_,?_⟩
  · rw [ne_eq,Base64.encode_eq_nil]
    simp
  · have htext : parseJson (Utf8.textDecode (utf8 (js "null"))) = .ok .null := by
      change parseJson (Utf8.textDecode (utf8 (JsonText.stringify .null))) = _
      rw [utf8,JsonText.textDecode_stringify,parseJson_stringify Json.wf_null]
      rfl
    generalize (List.replicate 12 0 : Bytes) = nonce at hn hopen ⊢
    simp only [openIdentityProof,base64Decode_str,Base64.decode_encode,ok_bind]
    rw [require_of (by rw [List.length_append]; omega),ok_bind,← hn,List.take_left,List.drop_left,
      aeadOpen_chacha hn,hopen,ok_bind,htext]

/-- Any answered INIT has such a CONFIRM. -/
theorem nameless_confirm {C : Crypto} {rt : Runtime} (laws : Laws C) {config : ServerConfig}
    {entropy : ServerEntropy} {init : Bytes} {a : InitAnswer}
    (ha : answerInit C rt config entropy init = .ok a)
    (hlookup : config.lookupClientIdentityKey = none)
    (hd : ∀ c, Decided config (a.keys C) c) :
    ∃ confirm, Nameless C rt config entropy init confirm := by
  obtain ⟨ns,hparse,hok⟩ := answerInit_eq_ok.mp ha
  obtain ⟨proof,hne,hopen⟩ := null_proof rt laws
    (laws.kdf.expand_length _ _ _ : (a.keys C).encC2S.length = 32) a.sessionId
  have hcwf := buildConfirm_wf (i := ⟨some (.str a.sessionId),Base64.encode
    (confirmationHash C init a.resp),proof,none⟩) (by simp)
  obtain ⟨cs,hparseC,hcs⟩ := received hcwf
  refine ⟨_,ns,a,cs,some (.str proof),hparse,hok,hparseC,{
    type := hcs.str hcwf rfl
    step := hcs.str hcwf rfl
    hash := by
      rw [hcs.str hcwf (lookup_buildConfirm_hash _),base64Decode_str,Base64.decode_encode]
    identityProof := (hcs.str hcwf (lookup_buildConfirm_identityProof _)).symm
    proof := .opened (by simpa using hne) hopen (by simp [hlookup]) },hd _⟩

theorem paired_constructible : Constructible (pairedServer [.x25519]) :=
  ⟨by decide,by simp [pairedServer],show js "example.com" ≠ [] by decide⟩

theorem paired_decided (keys : SessionKeys) (c : Confirmed) :
    Decided (pairedServer [.x25519]) keys c := ⟨fun _ => nofun,nofun⟩

theorem servers_disagree : ∃ init confirm,
    ¬SameEnd
      (messageDrivenServer Sample.crypto Sample.runtime (pairedServer [.x25519])
        pairedServerEntropy init confirm)
      (loopDrivenServer Sample.crypto Sample.runtime (pairedServer [.x25519])
        pairedServerEntropy init confirm) := by
  have h : Endpoints Sample.crypto (pairedClient [Suite.x25519.name]) pairedClientEntropy
      (pairedServer [.x25519]) pairedServerEntropy .x25519 :=
    paired_endpoints (by decide) (by decide)
  obtain ⟨w⟩ := h.halfway Sample.runtime Sample.laws (by decide)
  obtain ⟨-,a,ha,-⟩ := onInit_ok w.answered
  obtain ⟨-,-,-,hs₀⟩ := new_eq_ok.mp w.newServer
  rw [hs₀] at ha
  obtain ⟨confirm,hn⟩ := nameless_confirm Sample.laws ha rfl (paired_decided _)
  exact ⟨w.init,confirm,hn.differs Sample.laws.sig sample_plain paired_constructible⟩

theorem servers_agree_iff_paired : ∃ init confirm, Answers Sample.crypto Sample.runtime
      (pairedServer [.x25519]) pairedServerEntropy init ∧
    SameEnd
      (messageDrivenServer Sample.crypto Sample.runtime (pairedServer [.x25519])
        pairedServerEntropy init confirm)
      (loopDrivenServer Sample.crypto Sample.runtime (pairedServer [.x25519])
        pairedServerEntropy init confirm) := by
  have h : Endpoints Sample.crypto (pairedClient [Suite.x25519.name]) pairedClientEntropy
      (pairedServer [.x25519]) pairedServerEntropy .x25519 :=
    paired_endpoints (by decide) (by decide)
  obtain ⟨w⟩ := h.halfway Sample.runtime Sample.laws (by decide)
  obtain ⟨-,a,ha,hresp,hanswered⟩ := onInit_ok w.answered
  obtain ⟨-,-,-,hs₀⟩ := new_eq_ok.mp w.newServer
  rw [hs₀] at ha
  obtain ⟨ns,hparse,hok⟩ := answerInit_eq_ok.mp ha
  refine ⟨w.init,w.confirm,⟨ns,hparse,.inl ⟨a,hok⟩⟩,
    (servers_agree_iff Sample.laws.sig sample_plain _ _ _ _).mpr
      (.inl ⟨paired_constructible,fun hn => ?_⟩)⟩
  -- the honest client proves no identity
  obtain ⟨a',p',ha',hopen',-⟩ := hn.opens
  obtain rfl := Except.ok.inj (ha.symm.trans ha')
  obtain ⟨p,hopen⟩ := w.opens
  rw [hresp,← w.server.sessionId,hanswered.sessionId,
    ← Option.some.inj (hanswered.sessionKeys.symm.trans w.server.sessionKeys)] at hopen
  cases hopen.symm.trans hopen'

end Null

end Handshake
end Semp
