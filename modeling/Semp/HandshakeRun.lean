import Semp.HandshakeServer
import Semp.Seal

/-! Runs of the two handshake machines: what a server that accepts a CONFIRM shares with
the client that wrote it, and when the messages of two honest sides complete. -/
namespace Semp

/-- The calls of a server that change its fields. -/
inductive ServerCall
  | init (entropy : ServerEntropy) (data : Bytes)
  | confirm (data : Bytes)
  | erase

namespace HandshakeServer
open Handshake Method

def serve (C : Crypto) (rt : Runtime) : ServerCall → Method Thrown HandshakeServer Bytes
  | .init entropy data => onInit C rt entropy data
  | .confirm data => onConfirm C rt data
  | .erase => do
    erase
    return []

/-- A server that holds a RESPONSE sent it in this run, and holds what belongs to it. -/
structure Responded (C : Crypto) (rt : Runtime) (cfg : ServerConfig)
    (past : List (ServerCall × Js Bytes)) (s : HandshakeServer) : Prop where
  config : s.cfg = cfg
  started : s.initCanonical = none → s.respCanonical = none
  sent : ∀ r, s.respCanonical = some r → ∃ entropy data ms a,
    (ServerCall.init entropy data,Except.ok r) ∈ past ∧
      parseJson (Utf8.textDecode data) = .ok (.obj ms) ∧ InitOk C rt cfg entropy ms a ∧
      a.resp = r ∧ s.initCanonical = some data ∧ s.sessionId = a.sessionId ∧
      s.serverIdProof = some a.proof ∧ ∀ k, s.sessionKeys = some k → k = a.keys C

section Runs
variable {C : Crypto} {rt : Runtime} {cfg : ServerConfig}

theorem new_eq_ok {s : HandshakeServer} : new cfg = .ok s ↔
    cfg.supportedSuites.length ≠ 0 ∧ cfg.serverDomainSigningSeed.length ≠ 0 ∧ cfg.domain ≠ [] ∧
      s = {
        cfg := cfg
        sessionId := []
        serverEphPriv := none
        serverNonce := none
        initCanonical := none
        respCanonical := none
        sessionKeys := none
        serverIdProof := none
        finalSession := none
        clientIdentityValue := none
        clientLongTermKeyIdValue := none } := by
  unfold new
  simp only [bind_eq_ok,require_eq_ok,exists_const,Except.ok.injEq,eq_comm (b := s)]

/-- One call keeps what a server holds together. -/
theorem Responded.step {past : List (ServerCall × Js Bytes)} {s : HandshakeServer}
    (h : Responded C rt cfg past s) (i : ServerCall) :
    Responded C rt cfg (past++[(i,((serve C rt i).call s).1)]) ((serve C rt i).call s).2 := by
  have hmem {x : ServerCall × Js Bytes} (y : ServerCall × Js Bytes) (hx : x ∈ past) :
      x ∈ past++[y] := List.mem_append_left _ hx
  -- what a call leaves alone stays as the earlier call wrote it
  have hkeep {s' : HandshakeServer} (y : ServerCall × Js Bytes) (hcfg : s'.cfg = s.cfg)
      (hinit : s'.initCanonical = s.initCanonical) (hresp : s'.respCanonical = s.respCanonical)
      (hsid : s'.sessionId = s.sessionId) (hproof : s'.serverIdProof = s.serverIdProof)
      (hkeys : ∀ k, s'.sessionKeys = some k → s.sessionKeys = some k) :
      Responded C rt cfg (past++[y]) s' := by
    refine ⟨hcfg.trans h.config,fun hn => hresp.trans (h.started (hinit ▸ hn)),fun r hr => ?_⟩
    obtain ⟨entropy,data,ms,a,hcall,hparse,ha,har,hi,hs,hp,hk⟩ := h.sent r (hresp ▸ hr)
    exact ⟨entropy,data,ms,a,hmem y hcall,hparse,ha,har,hinit.trans hi,hsid.trans hs,
      hproof.trans hp,fun k hk' => hk k (hkeys k hk')⟩
  cases i with
  | init entropy data =>
    change Responded C rt cfg (past++[(_,((onInit C rt entropy data).call s).1)])
      ((onInit C rt entropy data).call s).2
    rcases hc : (onInit C rt entropy data).call s with ⟨e | bytes,s'⟩
    · rcases onInit_error hc with rfl | ⟨hnone,hu⟩
      · exact hkeep _ rfl rfl rfl rfl rfl fun _ hk => hk
      · have hresp : s'.respCanonical = none := hu.respCanonical.trans (h.started hnone)
        exact ⟨hu.cfg.trans h.config,fun _ => hresp,fun r hr => by simp [hresp] at hr⟩
    · obtain ⟨-,a,ha,rfl,hs'⟩ := onInit_ok hc
      obtain ⟨ms,hparse,hok⟩ := answerInit_eq_ok.mp ha
      refine ⟨hs'.cfg.trans h.config,fun hn => ?_,fun r hr => ?_⟩
      · rw [hs'.initCanonical] at hn
        cases hn
      · obtain rfl : a.resp = r := Option.some.inj (hs'.respCanonical.symm.trans hr)
        exact ⟨entropy,data,ms,a,by simp,hparse,h.config ▸ hok,rfl,hs'.initCanonical,hs'.sessionId,
          hs'.serverIdProof,fun k hk => Option.some.inj (hk.symm.trans hs'.sessionKeys)⟩
  | confirm data =>
    change Responded C rt cfg (past++[(_,((onConfirm C rt data).call s).1)])
      ((onConfirm C rt data).call s).2
    rcases hc : (onConfirm C rt data).call s with ⟨e | bytes,s'⟩
    · rcases onConfirm_error hc with rfl | ⟨_,_,_,_,c,-,-,hid,-⟩
      · exact hkeep _ rfl rfl rfl rfl rfl fun _ hk => hk
      · obtain ⟨_,_,rfl⟩ := identified_frame hid
        exact hkeep _ rfl rfl rfl rfl rfl fun _ hk => hk
    · obtain ⟨_,_,_,_,c,s₁,_,-,-,hid,-,rfl⟩ := onConfirm_ok hc
      obtain ⟨_,_,rfl⟩ := identified_frame hid
      exact hkeep _ rfl rfl rfl rfl rfl fun _ hk => hk
  | erase => exact hkeep _ rfl rfl rfl rfl rfl nofun

variable (C rt) in
/-- In every run. -/
theorem Responded.run {s : HandshakeServer} (h : new cfg = .ok s) (is : List ServerCall) :
    Responded C rt cfg (Method.run (serve C rt) is s).1 (Method.run (serve C rt) is s).2 := by
  obtain ⟨-,-,-,rfl⟩ := new_eq_ok.mp h
  exact run_inv (fun _ _ i hs => hs.step i) ⟨rfl,fun _ => rfl,nofun⟩ is

end Runs

end HandshakeServer

namespace Handshake

section Lookups

theorem lookup_clientInit_nonce (suite : Suite) (nonce ephPub : Bytes)
    (ephKeyId transport : JsString) (capabilities : Capabilities) :
    lookup (clientInit suite nonce ephPub ephKeyId transport capabilities) (js "nonce") =
      some (.str (Base64.encode nonce)) := rfl

theorem lookup_clientInit_ephemeralKey (suite : Suite) (nonce ephPub : Bytes)
    (ephKeyId transport : JsString) (capabilities : Capabilities) :
    lookup (clientInit suite nonce ephPub ephKeyId transport capabilities)
      (js "client_ephemeral_key") =
        some (.obj (KeyRef.members ⟨suite.name,Base64.encode ephPub,ephKeyId⟩)) := rfl

theorem lookup_buildConfirm_hash (input : BuildConfirmInput) :
    lookup (buildConfirm input) (js "confirmation_hash") = some (.str input.confirmationHashB64) := by
  cases h : input.sessionId <;> (simp only [buildConfirm,h]; rfl)

theorem lookup_buildConfirm_identityProof (input : BuildConfirmInput) :
    lookup (buildConfirm input) (js "identity_proof") = some (.str input.identityProofB64) := by
  cases h : input.sessionId <;> (simp only [buildConfirm,h]; rfl)

end Lookups

/-- What a server reads from the INIT of a client. -/
theorem clientInit_received (suite : Suite) (nonce ephPub : Bytes) (ephKeyId transport : JsString)
    (capabilities : Capabilities) : ∃ ns, parseJson (Utf8.textDecode (Canonical.canonicalBytes
        (.obj (clientInit suite nonce ephPub ephKeyId transport capabilities)))) = .ok (.obj ns) ∧
      Received (clientInit suite nonce ephPub ephKeyId transport capabilities) ns ∧
      lookup ns (js "nonce") = some (.str (Base64.encode nonce)) ∧
      getProp (lookup ns (js "client_ephemeral_key")) (js "key") =
        .ok (some (.str (Base64.encode ephPub))) := by
  have hwf := HandshakeClient.clientInit_wf suite nonce ephPub ephKeyId transport capabilities
  obtain ⟨ns,hparse,hr⟩ := received hwf
  obtain ⟨key,hkey,hr'⟩ := hr.obj hwf (lookup_clientInit_ephemeralKey ..)
  refine ⟨ns,hparse,hr,hr.str hwf (lookup_clientInit_nonce ..),?_⟩
  rw [hkey,getProp_obj,hr'.str (KeyRef.wf _) (k := js "key") (s := Base64.encode ephPub) rfl]

end Handshake

section Transcript
open Handshake HandshakeServer Method
variable {C : Crypto} {rt : Runtime}

/-- What a client reads from a RESPONSE with the bytes that the server sent. -/
theorem HandshakeServer.InitOk.read_back {scfg : ServerConfig} {entropy : ServerEntropy} {ns ms : Members}
    {a : InitAnswer} {o : Offer} {b : Answer} (ha : InitOk C rt scfg entropy ns a)
    (hns : (Json.obj ns).WF) (hms : (Json.obj ms).WF)
    (hbytes : Canonical.canonicalBytes (.obj ms) = a.resp) (hb : ResponseOk C rt o ms b) :
    b.serverNonce = a.serverNonce ∧ b.serverEphPub = a.serverEphPub := by
  obtain ⟨keyId,signed,-,-,hsigned,hresp⟩ := ha.sent
  have hwf := responsePreSign_wf (i := ⟨a.sessionId,lookup ns (js "nonce"),
    Base64.encode a.serverNonce,⟨a.suite.name,Base64.encode a.serverEphPub,keyId⟩,a.proof,
    ⟨a.suite.name,[]⟩,scfg.serverDomainSigningSeed,none⟩) fun _ hv => Json.wf_of_lookup hns hv
  have hr : Received signed ms := ⟨hms,(Canonical.canonicalBytes_inj hms
    (signMessage_wf hwf hsigned)).mp (hbytes.trans hresp)⟩
  have hnonce := signed_str hwf hsigned hr (k := js "server_nonce") (by decide)
    (lookup_responsePreSign_serverNonce _)
  obtain ⟨eph,heph,hephs⟩ := signed_obj hwf hsigned hr (k := js "server_ephemeral_key") (by decide)
    (lookup_responsePreSign_ephemeralKey _)
  have hephKey := hephs (js "key") (Base64.encode a.serverEphPub) rfl
  constructor
  · have hb' := hb.serverNonce
    rw [hnonce,base64Decode_str,Base64.decode_encode,Except.ok.injEq] at hb'
    exact hb'.symm
  · obtain ⟨key,hkey,hpub⟩ := hb.ephemeral
    rw [heph,getProp_obj,hephKey,Except.ok.injEq] at hkey
    rw [← hkey,base64Decode_str,Base64.decode_encode,Except.ok.injEq] at hpub
    exact hpub.symm

/-- A server that accepts the CONFIRM of an honest client received the client's INIT and
sent the RESPONSE that the client signed over, byte for byte, provided that the two
transcripts are no collision of the hash.  Both sides then derive their keys from the
same nonces and ephemeral keys. -/
theorem HandshakeServer.confirm_binds_transcript {scfg : ServerConfig} {s : HandshakeServer}
    (hs : HandshakeServer.new scfg = .ok s) (is : List ServerCall)
    {ccfg : ClientConfig} {entropy : ClientEntropy} {c c' c'' : HandshakeClient}
    {initBytes data confirm acc : Bytes} {s' : HandshakeServer}
    (hnew : HandshakeClient.new ccfg = .ok c)
    (hinit : (HandshakeClient.init C entropy).call c = (.ok initBytes,c'))
    (hresp : (HandshakeClient.onResponse C rt entropy data).call c' = (.ok confirm,c''))
    (hacc : (HandshakeServer.onConfirm C rt confirm).call (run (serve C rt) is s).2 = (.ok acc,s'))
    (hsha : ∀ ms i r, parseJson (Utf8.textDecode data) = .ok (.obj ms) →
      (run (serve C rt) is s).2.initCanonical = some i →
      (run (serve C rt) is s).2.respCanonical = some r →
      C.sha256 (initBytes++Canonical.canonicalBytes (.obj ms)) = C.sha256 (i++r) →
      initBytes++Canonical.canonicalBytes (.obj ms) = i++r) :
    ∃ sentropy ms ns a b, (ServerCall.init sentropy initBytes,
        Except.ok (Canonical.canonicalBytes (.obj ms))) ∈ (run (serve C rt) is s).1 ∧
      parseJson (Utf8.textDecode data) = .ok (.obj ms) ∧
      ResponseOk C rt (c'.offer entropy) ms b ∧
      parseJson (Utf8.textDecode initBytes) = .ok (.obj ns) ∧ InitOk C rt scfg sentropy ns a ∧
      a.clientNonce = (c'.offer entropy).nonce ∧ a.clientEphPub = (c'.offer entropy).ephPub ∧
      b.serverNonce = a.serverNonce ∧ b.serverEphPub = a.serverEphPub := by
  obtain ⟨suite,ephPriv,ephPub,ephKeyId,hstart,ho⟩ := HandshakeClient.new_init hnew hinit
  rw [ho.offer rfl]
  set o := HandshakeClient.offerOf ccfg suite entropy ephPriv ephPub initBytes
  obtain ⟨ms,b,hparse,-,hb,rfl,-⟩ := (HandshakeClient.onResponse_eq_ok ho rfl).mp hresp
  have hserver := Responded.run C rt hs is
  obtain ⟨i,r,keys,proof,conf,s₁,ticket,hready,hopen,-⟩ := onConfirm_ok hacc
  obtain ⟨sentropy,dataI,ns,a,hcall,hparseI,ha,har,hi,-⟩ := hserver.sent r hready.respCanonical
  obtain rfl : dataI = i := Option.some.inj (hi.symm.trans hready.initCanonical)
  -- the hash in the CONFIRM is the one the server computed
  obtain ⟨proofB64,-,hconfirm⟩ := hb.confirm
  have hms : (Json.obj ms).WF := JsonText.parse_wf (parseJson_eq_ok.mp hparse)
  have hsid : ∀ v ∈ b.sessionId, v.WF := by
    rw [hb.sessionId]
    exact fun _ hv => Json.wf_of_lookup hms hv
  have hcwf := buildConfirm_wf (i := ⟨b.sessionId,Base64.encode (confirmationHash C
    o.initCanonical (Canonical.canonicalBytes (.obj ms))),proofB64,none⟩) hsid
  obtain ⟨cs,hparseC,hcs⟩ := received hcwf
  obtain ⟨cs',hparseC',hconf⟩ := openConfirm_eq_ok.mp hopen
  rw [hconfirm,hparseC] at hparseC'
  obtain rfl := Json.obj.inj (Except.ok.inj hparseC')
  have hhash := hconf.hash
  rw [hcs.str hcwf (lookup_buildConfirm_hash _),base64Decode_str,Base64.decode_encode,
    Except.ok.injEq] at hhash
  have happ := hsha ms dataI r hparse hready.initCanonical hready.respCanonical (Subtype.ext hhash)
  -- and so the transcripts are cut at the same place
  obtain ⟨ns',hparseN,-,hnonce,hkey⟩ := clientInit_received suite
    (ccfg.clientNonce.getD entropy.nonce) ephPub ephKeyId ccfg.transport ccfg.capabilities
  rw [← hstart.sent] at hparseN
  obtain ⟨keyId,signed,hrest⟩ := ha.sent
  have hresp' : r = Canonical.canonicalBytes (.obj signed) := har.symm.trans hrest.2.2.2
  rw [hresp'] at happ
  obtain ⟨hii,hrr⟩ := Canonical.append_canonicalBytes_inj ⟨ns',hparseN⟩ ⟨ns,hparseI⟩ happ
  subst hii
  rw [← hresp'] at hrr
  obtain rfl := Json.obj.inj (Except.ok.inj (hparseN.symm.trans hparseI))
  have hns : (Json.obj ns').WF := JsonText.parse_wf (parseJson_eq_ok.mp hparseN)
  obtain ⟨hsn,hse⟩ := ha.read_back hns hms (hrr.trans har.symm) hb
  refine ⟨sentropy,ms,ns',a,b,hrr ▸ hcall,hparse,hb,hparseI,ha,?_,?_,hsn,hse⟩
  · have hcn := ha.clientNonce
    rw [hnonce,base64Decode_str,Base64.decode_encode,Except.ok.injEq] at hcn
    exact hcn.symm
  · obtain ⟨key,hk,hpub⟩ := ha.clientKey
    rw [hkey,Except.ok.injEq] at hk
    rw [← hk,base64Decode_str,Base64.decode_encode,Except.ok.injEq] at hpub
    exact hpub.symm

end Transcript
namespace Handshake
open HandshakeServer

section Code
variable (C : Crypto) (rt : Runtime)

/-- INIT, RESPONSE, CONFIRM and ACCEPTED between two endpoints, unchanged and in order. -/
def exchange (ccfg : ClientConfig) (centropy : ClientEntropy) (scfg : ServerConfig)
    (sentropy : ServerEntropy) : Js (ClientSession × HandshakeServerSession) := do
  let c ← HandshakeClient.new ccfg
  let s ← HandshakeServer.new scfg
  let init ← (HandshakeClient.init C centropy).proceed c
  let response ← (HandshakeServer.onInit C rt sentropy init.1).proceed s
  let confirm ← (HandshakeClient.onResponse C rt centropy response.1).proceed init.2
  let accepted ← (HandshakeServer.onConfirm C rt confirm.1).proceed response.2
  let done ← (HandshakeClient.onAccepted C accepted.1).proceed confirm.2
  let client ← HandshakeClient.session.proceed done.2
  let server ← HandshakeServer.session.proceed accepted.2
  .ok (client.1,server.1)

end Code

/-- Two endpoints that may meet: sizes fit, the client pins the server's domain key and
advertises its own suite, the server supports that suite, and the callbacks of the server
attest and resolve the client's key. -/
structure Endpoints (C : Crypto) (ccfg : ClientConfig) (centropy : ClientEntropy)
    (scfg : ServerConfig) (sentropy : ServerEntropy) (suite : Suite) : Prop where
  known : Suite.ofName ccfg.suite = some suite
  advertised : suite.name ∈ ccfg.capabilities.encryptionAlgorithms
  supported : suite ∈ scfg.supportedSuites
  transport : ccfg.transport ≠ []
  domain : scfg.domain ≠ []
  pinnedDomain : publicKeyFromSeed C scfg.serverDomainSigningSeed = .ok ccfg.serverDomainPub
  clientPriv : (ccfg.clientEphemeralPriv.getD centropy.ephemeralPriv).length = 32
  kyberSeed : centropy.kyberSeed.length = 64
  hybridUnpinned : suite = .pq → ccfg.clientEphemeralPriv = none
  serverPriv : (scfg.serverEphemeralPriv.getD sentropy.ephemeralPriv).length = 32
  hybridPriv : (scfg.serverHybridRandomness.getD sentropy.hybrid).ephemeralX25519Priv.length = 32
  hybridM : (scfg.serverHybridRandomness.getD sentropy.hybrid).kyberEncapsRandomnessM.length = 32
  identity : IdentitySizes ccfg.identity centropy.proofNonce
  attests : ∀ key nonce serverNonce,
    ∃ sig, scfg.identityProofSignature key nonce serverNonce = .ok sig
  resolves : ∀ i lookup, ccfg.identity = some i → scfg.lookupClientIdentityKey = some lookup →
    ∃ pub, publicKeyFromSeed C i.longTermSeed = .ok pub ∧
      lookup (some (.str i.clientIdentity)) (some (.str i.longTermKeyId)) = .ok pub

/-- The caller's policy trusts every proof, and every ticket is issued. -/
structure Granting (scfg : ServerConfig) : Prop where
  trusts : ∀ verdict, scfg.verifyIdentityProof = some verdict →
    ∀ proof keys block, ∃ v, verdict proof keys block = .ok v ∧ v.ok = true
  tickets : ∀ build, scfg.resumptionTicket = some build → ∀ keys, ∃ t, build keys = .ok t

section Completeness
variable {C : Crypto} {rt : Runtime}

/-- A proof that the caller trusts is granted a session, and the ticket that is issued. -/
theorem grant_ok (laws : SignLaws C) {cfg : ServerConfig}
    (hseed : cfg.serverDomainSigningSeed.length = 32) {sid : JsString} {keys : SessionKeys}
    {c : Confirmed}
    (htrust : ∀ verdict, cfg.verifyIdentityProof = some verdict →
      ∃ v, verdict c.identityProof keys c.block = .ok v ∧ v.ok = true)
    (htickets : ∀ build, cfg.resumptionTicket = some build → ∃ t, build keys = .ok t) :
    ∃ ticket signed, serverAccepted C cfg sid ticket = .ok signed ∧
      HandshakeServer.grant C cfg sid keys c =
        .ok (ticket,Canonical.canonicalBytes (.obj signed)) := by
  have hjudge : judgeProof C cfg sid c.identityProof keys c.block = .ok () := by
    unfold judgeProof
    cases hv : cfg.verifyIdentityProof with
    | none => rfl
    | some verdict =>
      obtain ⟨v,hv,hok⟩ := htrust verdict hv
      dsimp only
      rw [hv,Callback.run,ok_bind,if_pos hok]
  obtain ⟨ticket,hticket⟩ : ∃ t, issueTicket cfg keys = .ok t := by
    unfold issueTicket
    cases ht : cfg.resumptionTicket with
    | none => exact ⟨_,rfl⟩
    | some build =>
      obtain ⟨t,ht⟩ := htickets build ht
      exact ⟨some t,by dsimp only; rw [ht,Callback.run,ok_bind]⟩
  obtain ⟨signed,hsigned⟩ := signMessage_ok laws (acceptedPreSign_wf ⟨sid,cfg.sessionTTL,
    cfg.permissions,ticket,cfg.serverDomainSigningSeed,cfg.acceptedExtensions⟩) hseed
  have hacc : serverAccepted C cfg sid ticket = .ok signed := hsigned
  exact ⟨ticket,signed,hacc,by rw [HandshakeServer.grant,hjudge,ok_bind,hticket,ok_bind,hacc,
    ok_bind,serverAccepted_marshal hacc,ok_bind]⟩

/-- The server picks the first suite it supports that the client advertises. -/
theorem pickSuite_strs (offered : List JsString) (supported : List Suite) :
    pickSuite (some (strs offered)) supported =
      .ok (supported.find? fun s => decide (s.name ∈ offered)) := by
  induction supported with
  | nil => rfl
  | cons s supported ih =>
    rw [pickSuite,strs,includes_strs,ok_bind,List.find?_cons]
    by_cases h : s.name ∈ offered
    · simp [h]
    · simpa [h,strs] using ih

/-- A key pair opens what is encapsulated to it. -/
theorem encapsulateTo_ok (laws : Laws C) {pinned : Option HybridRandomness}
    {fresh : HybridRandomness} {ephPriv ephPub : Bytes}
    (hkeys : Seal.KeysMatch C .pq ephPriv ephPub)
    (hxpriv : (pinned.getD fresh).ephemeralX25519Priv.length = 32)
    (hm : (pinned.getD fresh).kyberEncapsRandomnessM.length = 32) :
    ∃ e, encapsulateTo C pinned fresh ephPub = .ok e ∧
      hybridDecapsulate C e.ciphertext ephPriv = .ok e.sharedSecret ∧ e.ciphertext.length ≠ 0 := by
  obtain ⟨randomness,hrand⟩ : ∃ r, r = pinned.getD fresh := ⟨_,rfl⟩
  rw [← hrand] at hxpriv hm
  obtain ⟨e,he⟩ := Seal.encapsulate_ok laws (w := ⟨randomness.ephemeralX25519Priv,
    some randomness.kyberEncapsRandomnessM⟩) hkeys hxpriv fun _ => ⟨_,rfl,hm⟩
  have hdec : hybridDecapsulate C e.ciphertext ephPriv = .ok e.sharedSecret :=
    Seal.decapsulate_encapsulate laws hkeys he
  obtain ⟨xPriv,seed,hgen⟩ := hkeys
  obtain ⟨xPub,kyber,-,-,hpk,-,-,h2,h3,-⟩ := Seal.hybridGenerateKeyPair_eq_ok laws hgen
  have hsize : ephPub.length = hybridPublicKeySize := by
    simp only at hpk
    rw [hpk,List.length_append,h2,h3]
    rfl
  have hbody : hybridEncapsulateBody C ephPub randomness = .ok e := by
    obtain ⟨ky,hky,he⟩ := bind_eq_ok.mp he
    obtain ⟨xEph,hxEph,he⟩ := bind_eq_ok.mp he
    obtain ⟨xSS,hxSS,he⟩ := bind_eq_ok.mp he
    rw [hybridEncapsulateBody,hxEph,ok_bind,hxSS,ok_bind,hky,ok_bind]
    exact he
  refine ⟨e,?_,hdec,?_⟩
  · unfold encapsulateTo
    cases pinned with
    | none =>
      rw [Option.getD_none] at hrand
      subst hrand
      simp only [hybridEncapsulate]
      rw [if_neg (not_not.mpr hsize),hbody]
    | some r =>
      rw [Option.getD_some] at hrand
      subst hrand
      simp only [hybridEncapsulateWithRandomness]
      rw [if_neg (not_not.mpr hsize),if_neg (not_not.mpr hm),
        if_neg (not_not.mpr (show _ = x25519Size from hxpriv)),hbody]
  · intro h0
    simp only [hybridDecapsulate,h0] at hdec
    rw [if_pos (by decide)] at hdec
    simp [sizeError] at hdec

/-- An encapsulation to a public key of another size fails. -/
theorem encapsulateTo_size {pinned : Option HybridRandomness} {fresh : HybridRandomness}
    {ephPub : Bytes} {e : Encapsulated} (h : encapsulateTo C pinned fresh ephPub = .ok e) :
    ephPub.length = hybridPublicKeySize := by
  by_contra hne
  unfold encapsulateTo at h
  cases pinned with
  | none =>
    dsimp only [hybridEncapsulate] at h
    rw [if_pos hne] at h
    simp [sizeError] at h
  | some r =>
    dsimp only [hybridEncapsulateWithRandomness] at h
    rw [if_pos hne] at h
    simp [sizeError] at h

theorem serverEncapsulate_eq (cfg : ServerConfig) (entropy : ServerEntropy) (ephPub : Bytes) :
    serverEncapsulate C cfg entropy ephPub =
      encapsulateTo C cfg.serverHybridRandomness entropy.hybrid ephPub := by
  unfold serverEncapsulate encapsulateTo
  cases cfg.serverHybridRandomness <;> rfl

/-- The key pair of a client opens what the server encapsulates to it. -/
theorem shareOf_ok (laws : Laws C) {cfg : ServerConfig} {entropy : ServerEntropy} {suite : Suite}
    {ephPriv ephPub : Bytes} (hkeys : Seal.KeysMatch C suite ephPriv ephPub)
    (hpriv : (cfg.serverEphemeralPriv.getD entropy.ephemeralPriv).length = 32)
    (hxpriv : (cfg.serverHybridRandomness.getD entropy.hybrid).ephemeralX25519Priv.length = 32)
    (hm : (cfg.serverHybridRandomness.getD entropy.hybrid).kyberEncapsRandomnessM.length = 32) :
    ∃ serverEphPub shared, shareOf C cfg entropy suite ephPub = .ok (serverEphPub,shared) ∧
      clientShared C suite ephPriv serverEphPub = .ok shared ∧ serverEphPub.length ≠ 0 := by
  cases suite with
  | x25519 =>
    obtain ⟨pub,hpub⟩ := laws.dh.publicKey_ok _ hpriv
    obtain ⟨shared,hs,hs'⟩ := laws.dh.agree_comm _ _ _ _ hpub hkeys
    have hlen := (laws.dh.publicKey_length _ _ hpub).2
    exact ⟨pub,shared,by rw [shareOf,x25519PublicKey,hpub,ok_bind,x25519Agree,hs,ok_bind],hs',
      by omega⟩
  | pq =>
    obtain ⟨e,henc,hdec,hlen⟩ := encapsulateTo_ok laws hkeys hxpriv hm
    exact ⟨e.ciphertext,e.sharedSecret,by rw [shareOf,serverEncapsulate_eq,henc,ok_bind],hdec,hlen⟩

section Honest
variable {ccfg : ClientConfig} {centropy : ClientEntropy} {scfg : ServerConfig}
  {sentropy : ServerEntropy} {suite : Suite}

theorem Ephemeral.keysMatch {pinned : Option Bytes} {ephPriv ephPub : Bytes}
    (h : Ephemeral C suite pinned centropy ephPriv ephPub) :
    Seal.KeysMatch C suite ephPriv ephPub := by
  cases suite with
  | x25519 => exact h.2
  | pq => exact ⟨_,_,h.2⟩

/-- A client whose entropy has the right sizes generates a key pair. -/
theorem Endpoints.ephemeral (laws : Laws C) (h : Endpoints C ccfg centropy scfg sentropy suite) :
    ∃ ephPriv ephPub, Ephemeral C suite ccfg.clientEphemeralPriv centropy ephPriv ephPub := by
  have hpriv := h.clientPriv
  cases suite with
  | x25519 =>
    obtain ⟨pub,hpub⟩ := laws.dh.publicKey_ok _ hpriv
    exact ⟨_,pub,rfl,hpub⟩
  | pq =>
    rw [h.hybridUnpinned rfl,Option.getD_none] at hpriv
    obtain ⟨pub,hpub⟩ := laws.dh.publicKey_ok _ hpriv
    obtain ⟨kp,hkp⟩ := laws.kem.keygen_ok _ h.kyberSeed
    have hgen : hybridGenerateKeyPair C centropy.ephemeralPriv centropy.kyberSeed =
        .ok ⟨kp.publicKey++pub,kp.secretKey++centropy.ephemeralPriv⟩ := by
      rw [hybridGenerateKeyPair,x25519PublicKey,hpub,ok_bind,hkp,ok_bind]
    exact ⟨_,_,h.hybridUnpinned rfl,hgen⟩

theorem ephemeralKeyId_ok (suite : Suite) {ephPub : Bytes} (h : ephPub.length ≠ 0) :
    ∃ k, ephemeralKeyId C suite ephPub = .ok k := by
  cases suite with
  | pq => exact ⟨_,rfl⟩
  | x25519 => exact ⟨_,by rw [ephemeralKeyId,fingerprint,if_neg h]⟩

/-- The client's INIT goes out. -/
theorem Endpoints.start (laws : Laws C) (h : Endpoints C ccfg centropy scfg sentropy suite) :
    ∃ c c' initBytes ephPriv ephPub ephKeyId, HandshakeClient.new ccfg = .ok c ∧
      (HandshakeClient.init C centropy).call c = (.ok initBytes,c') ∧
      HandshakeClient.Started C ccfg centropy suite ephPriv ephPub ephKeyId initBytes ∧
      HandshakeClient.Offers c' (HandshakeClient.offerOf ccfg suite centropy ephPriv ephPub
        initBytes) := by
  obtain ⟨pk,hpk,hlen⟩ := laws.sig.publicKey_ok _ (publicKeyFromSeed_eq_ok.mp h.pinnedDomain).1
  obtain rfl : pk = ccfg.serverDomainPub :=
    Except.ok.inj (hpk.symm.trans (publicKeyFromSeed_eq_ok.mp h.pinnedDomain).2)
  obtain ⟨c,hnew⟩ : ∃ c, HandshakeClient.new ccfg = .ok c :=
    ⟨_,HandshakeClient.new_eq_ok.mpr ⟨suite,h.known,by omega,h.transport,rfl⟩⟩
  obtain ⟨ephPriv,ephPub,heph⟩ := h.ephemeral laws
  obtain ⟨ephKeyId,hkeyId⟩ := ephemeralKeyId_ok (C := C) suite
    (heph.keysMatch.nonempty laws).2
  obtain ⟨c',initBytes,hinit⟩ : ∃ c' bytes,
      (HandshakeClient.init C centropy).call c = (.ok bytes,c') := by
    obtain ⟨suite',hknown,-,-,rfl⟩ := HandshakeClient.new_eq_ok.mp hnew
    obtain rfl : suite' = suite := Option.some.inj (hknown.symm.trans h.known)
    exact ⟨_,_,HandshakeClient.init_eq_ok.mpr ⟨rfl,ephPriv,ephPub,ephKeyId,heph,hkeyId,rfl,rfl⟩⟩
  obtain ⟨suite',priv,pub,keyId,hstart,ho⟩ := HandshakeClient.new_init hnew hinit
  obtain rfl : suite' = suite := Option.some.inj (hstart.known.symm.trans h.known)
  exact ⟨c,c',initBytes,priv,pub,keyId,hnew,hinit,hstart,ho⟩

/-- What the server reads of the INIT. -/
theorem init_offered {nonce ephPub : Bytes} {ephKeyId : JsString} {ns : Members}
    (hr : Received (clientInit suite nonce ephPub ephKeyId ccfg.transport ccfg.capabilities) ns) :
    getProp (lookup ns (js "capabilities")) (js "encryption_algorithms") =
      .ok (some (strs ccfg.capabilities.encryptionAlgorithms)) := by
  obtain ⟨caps,hcaps,hr'⟩ := hr.obj (HandshakeClient.clientInit_wf ..) (k := js "capabilities") rfl
  have halgs : lookup ccfg.capabilities.members (js "encryption_algorithms") =
      some (strs ccfg.capabilities.encryptionAlgorithms) := rfl
  rw [hcaps,getProp_obj,hr'.strs (Capabilities.wf _) halgs]

variable (rt) in
/-- The server answers an INIT whose suite it picks. -/
theorem Endpoints.answer (laws : Laws C) (h : Endpoints C ccfg centropy scfg sentropy suite)
    {ephPriv ephPub initBytes : Bytes} {ephKeyId : JsString}
    (hstart : HandshakeClient.Started C ccfg centropy suite ephPriv ephPub ephKeyId initBytes)
    (hpick : scfg.supportedSuites.find?
      (fun s => decide (s.name ∈ ccfg.capabilities.encryptionAlgorithms)) = some suite) :
    ∃ ns a, parseJson (Utf8.textDecode initBytes) = .ok (.obj ns) ∧
      InitOk C rt scfg sentropy ns a ∧ a.suite = suite ∧
      a.clientNonce = ccfg.clientNonce.getD centropy.nonce ∧
      clientShared C suite ephPriv a.serverEphPub = .ok a.shared ∧
      lookup ns (js "nonce") = some (.str (Base64.encode (ccfg.clientNonce.getD centropy.nonce))) := by
  obtain ⟨ns,hparse,hr,hnonce,hkey⟩ := clientInit_received suite
    (ccfg.clientNonce.getD centropy.nonce) ephPub ephKeyId ccfg.transport ccfg.capabilities
  rw [← hstart.sent] at hparse
  obtain ⟨serverEphPub,shared,hshare,hclient,hne⟩ := shareOf_ok laws
    hstart.ephemeral.keysMatch h.serverPriv h.hybridPriv h.hybridM
  obtain ⟨keyId,hkeyId⟩ := ephemeralKeyId_ok (C := C) suite hne
  have hseed := (publicKeyFromSeed_eq_ok.mp h.pinnedDomain).1
  obtain ⟨sig,hsig⟩ := h.attests ⟨suite.name,Base64.encode serverEphPub,keyId⟩
    (lookup ns (js "nonce")) (Base64.encode (scfg.serverNonce.getD sentropy.nonce))
  obtain ⟨proof,hproof⟩ : ∃ p, serverIdentityProofOf C scfg
      ⟨suite.name,Base64.encode serverEphPub,keyId⟩ (lookup ns (js "nonce"))
      (Base64.encode (scfg.serverNonce.getD sentropy.nonce)) = .ok p := by
    refine ⟨⟨scfg.domain,hex (C.sha256 ccfg.serverDomainPub).val,sig⟩,?_⟩
    rw [serverIdentityProofOf,h.pinnedDomain,ok_bind,fingerprint,if_neg hstart.serverDomainPub,
      ok_bind,hsig,Callback.run,ok_bind]
  have hns : (Json.obj ns).WF := JsonText.parse_wf (parseJson_eq_ok.mp hparse)
  obtain ⟨signed,hsigned⟩ := signMessage_ok laws.sig
    (responsePreSign_wf (i := ⟨sentropy.sessionId,lookup ns (js "nonce"),
      Base64.encode (scfg.serverNonce.getD sentropy.nonce),
      ⟨suite.name,Base64.encode serverEphPub,keyId⟩,proof,⟨suite.name,[]⟩,
      scfg.serverDomainSigningSeed,none⟩) fun _ hv => Json.wf_of_lookup hns hv) hseed
  obtain ⟨resp,hresp⟩ : ∃ b, b = Canonical.canonicalBytes (.obj signed) := ⟨_,rfl⟩
  exact ⟨ns,⟨sentropy.sessionId,suite,ephPub,ccfg.clientNonce.getD centropy.nonce,
    scfg.serverNonce.getD sentropy.nonce,serverEphPub,shared,proof,resp⟩,hparse,{
      type := hr.str (HandshakeClient.clientInit_wf ..) rfl
      step := hr.str (HandshakeClient.clientInit_wf ..) rfl
      negotiated := ⟨_,init_offered hr,by rw [pickSuite_strs,hpick]⟩
      clientKey := ⟨_,hkey,by rw [base64Decode_str,Base64.decode_encode]⟩
      clientNonce := by rw [hnonce,base64Decode_str,Base64.decode_encode]
      serverNonce := rfl
      share := hshare
      sessionId := rfl
      sent := ⟨keyId,signed,hkeyId,hproof,hsigned,hresp⟩ },rfl,rfl,hclient,hnonce⟩

variable (rt) in
/-- The server opens and verifies the identity proof of the client. -/
theorem Endpoints.proof (laws : Laws C) (h : Endpoints C ccfg centropy scfg sentropy suite)
    {sid proof : JsString} {ch : Bytes} {keys : SessionKeys}
    (hp : clientIdentityProof C ccfg.identity (some (.str sid)) ch keys.encC2S
      centropy.proofNonce = .ok proof) :
    ∃ sig, ProofOk C rt scfg sid ch keys (some (.str proof)) (ccfg.identity.map fun i =>
      .obj (identityBlock i.clientId i.clientIdentity i.longTermKeyId sig)) := by
  cases hi : ccfg.identity with
  | none =>
    rw [hi] at hp
    obtain rfl := Except.ok.inj hp
    exact ⟨[],.empty⟩
  | some i =>
    rw [hi] at hp
    obtain ⟨p,hcompose,hp⟩ := bind_eq_ok.mp hp
    obtain rfl := Except.ok.inj hp
    have hopen := openIdentityProof_compose laws rt rfl hcompose
    obtain ⟨sidBytes,sig,ct,hsid,hsig,hn,-,rfl⟩ := composeIdentityProof_eq_ok.mp hcompose
    obtain rfl := Except.ok.inj hsid
    refine ⟨Base64.encode sig,.opened ?_ hopen ?_⟩
    · simp only [ne_eq,Option.some.injEq,Json.str.injEq,Base64.encode_eq_nil]
      intro hnil
      have hlen := congrArg List.length hnil
      simp [hn] at hlen
    · intro look hlook
      obtain ⟨pub,hpub,hres⟩ := h.resolves i look hi hlook
      refine ⟨pub,some (.str (Base64.encode sig)),sig,?_,rfl,?_,verify_sign laws.sig hpub hsig⟩
      · change (look (some (.str i.clientIdentity)) (some (.str i.longTermKeyId))).run = _
        rw [hres,Callback.run]
      · rw [base64Decode_str,Base64.decode_encode]

/-- A policy that trusts the proof grants a session. -/
theorem Granting.grant (laws : SignLaws C) (h : Granting scfg)
    (hseed : scfg.serverDomainSigningSeed.length = 32) (sid : JsString) (keys : SessionKeys)
    (c : Confirmed) : ∃ ticket signed, serverAccepted C scfg sid ticket = .ok signed ∧
      HandshakeServer.grant C scfg sid keys c =
        .ok (ticket,Canonical.canonicalBytes (.obj signed)) :=
  grant_ok laws hseed (fun verdict hv => h.trusts verdict hv c.identityProof keys c.block)
    fun build hb => h.tickets build hb keys

/-- Where a run stands once the client sent its CONFIRM. -/
structure Halfway (C : Crypto) (rt : Runtime) (ccfg : ClientConfig) (centropy : ClientEntropy)
    (scfg : ServerConfig) (sentropy : ServerEntropy) where
  c₀ : HandshakeClient
  c₁ : HandshakeClient
  c₂ : HandshakeClient
  s₀ : HandshakeServer
  s₁ : HandshakeServer
  init : Bytes
  confirm : Bytes
  a : InitAnswer
  sig : JsString
  newClient : HandshakeClient.new ccfg = .ok c₀
  newServer : HandshakeServer.new scfg = .ok s₀
  sentInit : (HandshakeClient.init C centropy).call c₀ = (.ok init,c₁)
  answered : (HandshakeServer.onInit C rt sentropy init).call s₀ = (.ok a.resp,s₁)
  sentConfirm : (HandshakeClient.onResponse C rt centropy a.resp).call c₁ = (.ok confirm,c₂)
  server : Answered C s₀ init a s₁
  clientKeys : c₂.sessionKeys = some (a.keys C)
  clientSession : c₂.sessionId = some (.str a.sessionId)
  clientDomain : c₂.serverDomainPub = ccfg.serverDomainPub
  respCanonical : ∀ ms, parseJson (Utf8.textDecode a.resp) = .ok (.obj ms) →
    Canonical.canonicalBytes (.obj ms) = a.resp
  opens : ∃ identityProof, openConfirm C rt scfg a.sessionId (confirmationHash C init a.resp)
    (a.keys C) confirm = .ok ⟨identityProof,ccfg.identity.map fun i =>
      .obj (identityBlock i.clientId i.clientIdentity i.longTermKeyId sig)⟩

variable (rt) in
/-- Honest endpoints get there when the server picks the client's suite. -/
theorem Endpoints.halfway (laws : Laws C) (h : Endpoints C ccfg centropy scfg sentropy suite)
    (hpick : scfg.supportedSuites.find?
      (fun s => decide (s.name ∈ ccfg.capabilities.encryptionAlgorithms)) = some suite) :
    Nonempty (Halfway C rt ccfg centropy scfg sentropy) := by
  obtain ⟨c₀,c₁,init,ephPriv,ephPub,ephKeyId,hnew,hinit,hstart,ho⟩ := h.start laws
  obtain ⟨ns,a,hparse,ha,rfl,hnonce,hclient,hecho⟩ := h.answer rt laws hstart hpick
  obtain ⟨s₀,hserver⟩ : ∃ s, HandshakeServer.new scfg = .ok s := by
    refine ⟨_,HandshakeServer.new_eq_ok.mpr ⟨?_,?_,h.domain,rfl⟩⟩
    · intro h0
      have hmem := h.supported
      rw [List.length_eq_zero_iff.mp h0] at hmem
      simp at hmem
    · rw [(publicKeyFromSeed_eq_ok.mp h.pinnedDomain).1]
      decide
  obtain ⟨-,-,-,hs₀⟩ := HandshakeServer.new_eq_ok.mp hserver
  have hfresh : s₀.initCanonical = none := by rw [hs₀]
  have hcfg : s₀.cfg = scfg := by rw [hs₀]
  obtain ⟨bytes,s₁,hcall,rfl,hs₁⟩ := (onInit_follows C rt hfresh sentropy init).ok a
    (answerInit_eq_ok.mpr ⟨ns,hparse,hcfg ▸ ha⟩)
  -- the client reads the RESPONSE back
  have hns : (Json.obj ns).WF := JsonText.parse_wf (parseJson_eq_ok.mp hparse)
  obtain ⟨keyId,signed,-,-,hsigned,hresp⟩ := ha.sent
  have hn : ∀ v ∈ lookup ns (js "nonce"), v.WF := fun _ hv => Json.wf_of_lookup hns hv
  obtain ⟨ms,hparseR,hr⟩ := received (signMessage_wf (responsePreSign_wf (i := ⟨a.sessionId,
    lookup ns (js "nonce"),Base64.encode a.serverNonce,
    ⟨a.suite.name,Base64.encode a.serverEphPub,keyId⟩,a.proof,⟨a.suite.name,[]⟩,
    scfg.serverDomainSigningSeed,none⟩) hn) hsigned)
  rw [← hresp] at hparseR
  have hcanon : Canonical.canonicalBytes (.obj ms) = a.resp := by
    rw [hresp]
    exact (Canonical.canonicalBytes_inj hr.wf (signMessage_wf (responsePreSign_wf hn) hsigned)).mpr
      hr.norm
  have hread : ∀ ms', parseJson (Utf8.textDecode a.resp) = .ok (.obj ms') →
      Canonical.canonicalBytes (.obj ms') = a.resp := by
    intro ms' hparse'
    rwa [← Json.obj.inj (Except.ok.inj (hparseR.symm.trans hparse'))]
  have hechoes : lookup ms (js "client_nonce") =
      some (.str (Base64.encode (ccfg.clientNonce.getD centropy.nonce))) :=
    signed_str (responsePreSign_wf hn) hsigned hr (by decide)
      ((lookup_responsePreSign_clientNonce _).trans hecho)
  have hsize : a.suite = .pq → ephPub.length = hybridPublicKeySize := by
    intro hpq
    have heph := hstart.ephemeral
    rw [hpq] at heph
    obtain ⟨xPub,kyber,-,-,hpk,-,-,h2,h3,-⟩ := Seal.hybridGenerateKeyPair_eq_ok laws heph.2
    simp only at hpk
    rw [hpk,List.length_append,h2,h3]
    rfl
  obtain ⟨b,hb,hbPub,hbNonce,hbShared,hbSid⟩ := responseOk_signed laws rt (o :=
    HandshakeClient.offerOf ccfg a.suite centropy ephPriv ephPub init) hn hsigned hr
    h.pinnedDomain rfl rfl hsize hclient h.identity
  have hconf := (HandshakeClient.onResponse_eq_ok ho rfl).mpr
    ⟨ms,b,hparseR,hechoes,hb,rfl,rfl⟩
  have hkeys : b.keys C (HandshakeClient.offerOf ccfg a.suite centropy ephPriv ephPub init) =
      a.keys C := by
    rw [Answer.keys,InitAnswer.keys,hbShared,hbNonce,hnonce]
    rfl
  -- and the server reads the CONFIRM
  obtain ⟨proof,hproof,hconfirm⟩ := hb.confirm
  rw [hcanon,hkeys,hbSid] at hproof
  rw [hcanon,hbSid] at hconfirm
  obtain ⟨sig,hsig⟩ := h.proof rt laws hproof
  have hcwf := buildConfirm_wf (i := ⟨some (.str a.sessionId),Base64.encode
    (confirmationHash C init a.resp),proof,none⟩) (by simp)
  obtain ⟨cs,hparseC,hcs⟩ := received hcwf
  have hopen : openConfirm C rt scfg a.sessionId (confirmationHash C init a.resp) (a.keys C)
      b.confirm = .ok ⟨some (.str proof),ccfg.identity.map fun i =>
        .obj (identityBlock i.clientId i.clientIdentity i.longTermKeyId sig)⟩ :=
    openConfirm_eq_ok.mpr ⟨cs,(congrArg (fun t => parseJson (Utf8.textDecode t)) hconfirm).trans
      hparseC,{
        type := hcs.str hcwf rfl
        step := hcs.str hcwf rfl
        hash := by
          rw [hcs.str hcwf (lookup_buildConfirm_hash _),base64Decode_str,Base64.decode_encode]
        identityProof := (hcs.str hcwf (lookup_buildConfirm_identityProof _)).symm
        proof := hsig }⟩
  exact ⟨{
    c₀ := c₀
    c₁ := c₁
    c₂ := _
    s₀ := s₀
    s₁ := s₁
    init := init
    confirm := b.confirm
    a := a
    sig := sig
    newClient := hnew
    newServer := hserver
    sentInit := hinit
    answered := hcall
    sentConfirm := hconf
    server := hs₁
    clientKeys := congrArg some hkeys
    clientSession := hbSid
    clientDomain := ho.serverDomainPub
    respCanonical := hread
    opens := ⟨_,hopen⟩ }⟩

/-- The server that is halfway accepts the CONFIRM. -/
theorem Halfway.accepts (laws : SignLaws C) (w : Halfway C rt ccfg centropy scfg sentropy)
    (h : Endpoints C ccfg centropy scfg sentropy suite) (g : Granting scfg) :
    ∃ ticket signed s₂, serverAccepted C scfg w.a.sessionId ticket = .ok signed ∧
      (HandshakeServer.onConfirm C rt w.confirm).call w.s₁ =
        (.ok (Canonical.canonicalBytes (.obj signed)),s₂) ∧
      ∃ r, s₂.finalSession = some r ∧ r.sessionId = w.a.sessionId ∧ r.keys = w.a.keys C := by
  obtain ⟨-,-,-,hs₀⟩ := HandshakeServer.new_eq_ok.mp w.newServer
  have hcfg : w.s₁.cfg = scfg := by rw [w.server.cfg,hs₀]
  obtain ⟨p,hopen⟩ := w.opens
  have hready : Ready w.s₁ w.init w.a.resp (w.a.keys C) w.a.proof :=
    ⟨w.server.initCanonical,w.server.respCanonical,w.server.sessionKeys,w.server.serverIdProof⟩
  obtain ⟨s',hid⟩ : ∃ s', identified w.s₁ (ccfg.identity.map fun i =>
      .obj (identityBlock i.clientId i.clientIdentity i.longTermKeyId w.sig)) = .ok s' := by
    cases ccfg.identity with
    | none => exact ⟨_,rfl⟩
    | some i => exact ⟨_,rfl⟩
  obtain ⟨ticket,signed,hsigned,hgrant⟩ := g.grant laws
    (publicKeyFromSeed_eq_ok.mp h.pinnedDomain).1 w.a.sessionId (w.a.keys C)
    ⟨p,ccfg.identity.map fun i =>
      .obj (identityBlock i.clientId i.clientIdentity i.longTermKeyId w.sig)⟩
  obtain ⟨_,s₂,hcall,rfl,rfl⟩ := (onConfirm_follows C rt hready w.confirm).ok
    (Canonical.canonicalBytes (.obj signed),s'.accepted (w.a.keys C) w.a.proof ticket) (by
      rw [hcfg,w.server.sessionId,hopen,ok_bind,hid,ok_bind,hgrant,ok_bind])
  refine ⟨ticket,signed,_,hsigned,hcall,_,rfl,?_,rfl⟩
  obtain ⟨_,_,rfl⟩ := identified_frame hid
  exact w.server.sessionId

/-- The size of a public key on the wire. -/
def ephemeralPublicSize : Suite → ℕ
  | .x25519 => 32
  | .pq => hybridPublicKeySize

theorem keysMatch_size (laws : Laws C) {ephPriv ephPub : Bytes}
    (h : Seal.KeysMatch C suite ephPriv ephPub) : ephPub.length = ephemeralPublicSize suite := by
  cases suite with
  | x25519 => exact (laws.dh.publicKey_length _ _ h).2
  | pq =>
    obtain ⟨xPriv,seed,hgen⟩ := h
    obtain ⟨xPub,kyber,-,-,hpk,-,-,h2,h3,-⟩ := Seal.hybridGenerateKeyPair_eq_ok laws hgen
    simp only at hpk
    rw [hpk,List.length_append,h2,h3]
    rfl

/-- The server takes a public key of its suite's size only. -/
theorem shareOf_size (laws : DhLaws C) {cfg : ServerConfig} {entropy : ServerEntropy}
    {clientEphPub : Bytes} {share : Bytes × Bytes}
    (h : shareOf C cfg entropy suite clientEphPub = .ok share) :
    clientEphPub.length = ephemeralPublicSize suite := by
  cases suite with
  | x25519 =>
    obtain ⟨pub,-,h⟩ := bind_eq_ok.mp h
    obtain ⟨shared,hshared,-⟩ := bind_eq_ok.mp h
    exact (laws.agree_length _ _ _ hshared).2.1
  | pq =>
    obtain ⟨enc,henc,-⟩ := bind_eq_ok.mp h
    exact encapsulateTo_size (serverEncapsulate_eq cfg entropy clientEphPub ▸ henc)

theorem ephemeralPublicSize_injective : Function.Injective ephemeralPublicSize := by
  intro a b h
  cases a <;> cases b <;> first | rfl | exact absurd h (by decide)

/-- A run that gets past the RESPONSE has the suite of the client. -/
theorem picked_of_answered (laws : Laws C) {c₀ c₁ : HandshakeClient} {s₀ s₁ : HandshakeServer}
    {init resp : Bytes} (hknown : Suite.ofName ccfg.suite = some suite)
    (hnew : HandshakeClient.new ccfg = .ok c₀) (hserver : HandshakeServer.new scfg = .ok s₀)
    (hinit : (HandshakeClient.init C centropy).call c₀ = (.ok init,c₁))
    (hresp : (HandshakeServer.onInit C rt sentropy init).call s₀ = (.ok resp,s₁)) :
    scfg.supportedSuites.find?
      (fun s => decide (s.name ∈ ccfg.capabilities.encryptionAlgorithms)) = some suite := by
  obtain ⟨suite',ephPriv,ephPub,ephKeyId,hstart,-⟩ := HandshakeClient.new_init hnew hinit
  obtain rfl : suite' = suite := Option.some.inj (hstart.known.symm.trans hknown)
  obtain ⟨-,-,-,hs₀⟩ := HandshakeServer.new_eq_ok.mp hserver
  have hcfg : s₀.cfg = scfg := by rw [hs₀]
  obtain ⟨-,a,ha,-⟩ := onInit_ok hresp
  rw [hcfg] at ha
  obtain ⟨ns,hparse,ha⟩ := answerInit_eq_ok.mp ha
  obtain ⟨ns',hparse',hr,-,hkey⟩ := clientInit_received suite'
    (ccfg.clientNonce.getD centropy.nonce) ephPub ephKeyId ccfg.transport ccfg.capabilities
  rw [← hstart.sent,hparse] at hparse'
  obtain rfl := Json.obj.inj (Except.ok.inj hparse')
  obtain ⟨offered,hoffered,hpick⟩ := ha.negotiated
  rw [init_offered hr,Except.ok.injEq] at hoffered
  rw [← hoffered,pickSuite_strs,Except.ok.injEq] at hpick
  obtain ⟨key,hk,hpub⟩ := ha.clientKey
  rw [hkey,Except.ok.injEq] at hk
  rw [← hk,base64Decode_str,Base64.decode_encode,Except.ok.injEq] at hpub
  have hsize := shareOf_size laws.dh ha.share
  rw [← hpub,keysMatch_size laws hstart.ephemeral.keysMatch] at hsize
  rw [hpick,ephemeralPublicSize_injective hsize]

/-- An exchange that completes was made with the suite of the client. -/
theorem picked_of_exchange (laws : Laws C) (hknown : Suite.ofName ccfg.suite = some suite)
    {r : ClientSession × HandshakeServerSession}
    (hrun : exchange C rt ccfg centropy scfg sentropy = .ok r) :
    scfg.supportedSuites.find?
      (fun s => decide (s.name ∈ ccfg.capabilities.encryptionAlgorithms)) = some suite := by
  obtain ⟨c₀,hnew,hrun⟩ := bind_eq_ok.mp hrun
  obtain ⟨s₀,hserver,hrun⟩ := bind_eq_ok.mp hrun
  obtain ⟨init,hinit,hrun⟩ := bind_eq_ok.mp hrun
  obtain ⟨resp,hresp,-⟩ := bind_eq_ok.mp hrun
  exact picked_of_answered laws hknown hnew hserver (Method.proceed_eq_ok.mp hinit)
    (Method.proceed_eq_ok.mp hresp)

/-- Honest endpoints whose policy accepts complete, with one session id and one key
schedule, exactly when the first suite the server supports among those the client
advertises is the client's own. -/
theorem exchange_completes_iff (laws : Laws C)
    (h : Endpoints C ccfg centropy scfg sentropy suite) (g : Granting scfg) :
    (∃ client server, exchange C rt ccfg centropy scfg sentropy = .ok (client,server) ∧
      client.sessionId = some (.str server.sessionId) ∧ client.keys = server.keys) ↔
      scfg.supportedSuites.find?
        (fun s => decide (s.name ∈ ccfg.capabilities.encryptionAlgorithms)) = some suite := by
  constructor
  · rintro ⟨client,server,hrun,-⟩
    exact picked_of_exchange laws h.known hrun
  · intro hpick
    obtain ⟨w⟩ := h.halfway rt laws hpick
    obtain ⟨ticket,signed,s₂,hsigned,hconfirm,hsession⟩ := w.accepts laws.sig h g
    have hwf := acceptedPreSign_wf ⟨w.a.sessionId,scfg.sessionTTL,scfg.permissions,ticket,
      scfg.serverDomainSigningSeed,scfg.acceptedExtensions⟩
    obtain ⟨ms,hparse,hr⟩ := received (signMessage_wf hwf hsigned)
    obtain ⟨hok,hsid,⟨positive,hpos⟩,-⟩ := acceptedOk_signed laws hsigned hr h.pinnedDomain
    obtain ⟨acc,hacc⟩ : ∃ b, b = Canonical.canonicalBytes (.obj signed) := ⟨_,rfl⟩
    rw [← hacc] at hconfirm hparse
    obtain ⟨c₃,client,haccepted,hc₃,hclientSid,hclientKeys⟩ : ∃ c₃ client,
        (HandshakeClient.onAccepted C acc).call w.c₂ = (.ok (),c₃) ∧
        c₃.finalSession = some client ∧
        client.sessionId = some (.str w.a.sessionId) ∧ client.keys = w.a.keys C :=
      ⟨_,_,HandshakeClient.onAccepted_eq_ok.mpr ⟨_,ms,positive,w.clientKeys,hparse,
        w.clientDomain ▸ hok,by rw [w.clientSession,hsid]; exact strictEq_str.mpr rfl,hpos,rfl⟩,
        rfl,hsid,rfl⟩
    obtain ⟨r,hfinal,hrSid,hrKeys⟩ := hsession
    have hserver : HandshakeServer.session.call s₂ = (.ok r,s₂) := by
      rw [HandshakeServer.session,Method.get_bind,hfinal]
      rfl
    refine ⟨client,r,?_,hclientSid.trans (by rw [hrSid]),hclientKeys.trans hrKeys.symm⟩
    rw [exchange,w.newClient,ok_bind,w.newServer,ok_bind,
      Method.proceed_eq_ok (r := (w.init,w.c₁)).mpr w.sentInit,ok_bind,
      Method.proceed_eq_ok (r := (w.a.resp,w.s₁)).mpr w.answered,ok_bind,
      Method.proceed_eq_ok (r := (w.confirm,w.c₂)).mpr w.sentConfirm,ok_bind,
      Method.proceed_eq_ok (r := (acc,s₂)).mpr hconfirm,ok_bind,
      Method.proceed_eq_ok (r := ((),c₃)).mpr haccepted,ok_bind,
      Method.proceed_eq_ok (r := (client,c₃)).mpr (HandshakeClient.session_eq_ok.mpr ⟨hc₃,rfl⟩),
      ok_bind,Method.proceed_eq_ok (r := (r,s₂)).mpr hserver,ok_bind]

end Honest

end Completeness

/-! Two small configurations: a client of the classical suite that advertises `algorithms`,
and a server that takes `suites`. -/
section Paired

def pairedClient (algorithms : List JsString) : ClientConfig where
  suite := Suite.x25519.name
  capabilities := ⟨algorithms,[]⟩
  transport := js "ws"
  serverDomainPub := List.replicate 32 1
  clientEphemeralPriv := none
  clientNonce := none
  identity := none

def pairedClientEntropy : ClientEntropy where
  ephemeralPriv := List.replicate 32 2
  kyberSeed := List.replicate 64 2
  nonce := List.replicate 32 3
  proofNonce := List.replicate 12 4

def pairedServer (suites : List Suite) : ServerConfig where
  serverDomainSigningSeed := List.replicate 32 1
  domain := js "example.com"
  supportedSuites := suites
  identityProofSignature := fun _ _ _ => .ok []
  verifyIdentityProof := none
  lookupClientIdentityKey := none
  permissions := []
  sessionTTL := .ofNat 300
  resumptionTicket := none
  serverEphemeralPriv := none
  serverHybridRandomness := none
  serverNonce := none
  acceptedExtensions := none

def pairedServerEntropy : ServerEntropy where
  sessionId := js "session"
  nonce := List.replicate 32 5
  ephemeralPriv := List.replicate 32 6
  hybrid := ⟨List.replicate 32 7,List.replicate 32 8⟩

theorem paired_endpoints {algorithms : List JsString} {suites : List Suite}
    (ha : Suite.x25519.name ∈ algorithms) (hs : Suite.x25519 ∈ suites) :
    Endpoints Sample.crypto (pairedClient algorithms) pairedClientEntropy (pairedServer suites)
      pairedServerEntropy .x25519 where
  known := rfl
  advertised := ha
  supported := hs
  transport := show js "ws" ≠ [] by decide
  domain := show js "example.com" ≠ [] by decide
  pinnedDomain := publicKeyFromSeed_eq_ok.mpr ⟨List.length_replicate ..,rfl⟩
  clientPriv := List.length_replicate ..
  kyberSeed := List.length_replicate ..
  hybridUnpinned := nofun
  serverPriv := List.length_replicate ..
  hybridPriv := List.length_replicate ..
  hybridM := List.length_replicate ..
  identity := nofun
  attests _ _ _ := ⟨[],rfl⟩
  resolves := nofun

theorem paired_granting (suites : List Suite) : Granting (pairedServer suites) := ⟨nofun,nofun⟩

theorem exchange_completes_iff_paired :
    ∃ client server, exchange Sample.crypto Sample.runtime (pairedClient [Suite.x25519.name])
        pairedClientEntropy (pairedServer [.x25519,.pq]) pairedServerEntropy =
          .ok (client,server) ∧
      client.sessionId = some (.str server.sessionId) ∧ client.keys = server.keys :=
  (exchange_completes_iff Sample.laws (paired_endpoints (by decide) (by decide))
    (paired_granting _)).mpr (by decide)

/-- A client of the classical suite with the capabilities every client advertises by
default, and a server that prefers the hybrid suite. -/
theorem exchange_with_defaults :
    Endpoints Sample.crypto (pairedClient defaultClientCapabilities.encryptionAlgorithms)
      pairedClientEntropy (pairedServer [.pq,.x25519]) pairedServerEntropy .x25519 ∧
    Granting (pairedServer [.pq,.x25519]) ∧
    ¬∃ r, exchange Sample.crypto Sample.runtime
      (pairedClient defaultClientCapabilities.encryptionAlgorithms) pairedClientEntropy
      (pairedServer [.pq,.x25519]) pairedServerEntropy = .ok r := by
  refine ⟨paired_endpoints (by decide) (by decide),paired_granting _,?_⟩
  rintro ⟨r,hrun⟩
  have hknown : Suite.ofName (pairedClient defaultClientCapabilities.encryptionAlgorithms).suite =
      some .x25519 := rfl
  exact absurd (picked_of_exchange Sample.laws hknown hrun) (by decide)

/-- The exchange of the two, up to the CONFIRM the server accepts. -/
theorem confirm_binds_transcript_paired :
    ∃ w : Halfway Sample.crypto Sample.runtime (pairedClient [Suite.x25519.name])
        pairedClientEntropy (pairedServer [.x25519]) pairedServerEntropy,
      let calls := Method.run (serve Sample.crypto Sample.runtime)
        [.init pairedServerEntropy w.init] w.s₀
      (∃ acc s', (onConfirm Sample.crypto Sample.runtime w.confirm).call calls.2 = (.ok acc,s')) ∧
      ∃ sentropy ms ns a b, (ServerCall.init sentropy w.init,
          Except.ok (Canonical.canonicalBytes (.obj ms))) ∈ calls.1 ∧
        parseJson (Utf8.textDecode w.a.resp) = .ok (.obj ms) ∧
        ResponseOk Sample.crypto Sample.runtime (w.c₁.offer pairedClientEntropy) ms b ∧
        InitOk Sample.crypto Sample.runtime (pairedServer [.x25519]) sentropy ns a ∧
        b.serverNonce = a.serverNonce ∧ b.serverEphPub = a.serverEphPub := by
  have h : Endpoints Sample.crypto (pairedClient [Suite.x25519.name]) pairedClientEntropy
      (pairedServer [.x25519]) pairedServerEntropy .x25519 :=
    paired_endpoints (by decide) (by decide)
  obtain ⟨w⟩ := h.halfway Sample.runtime Sample.laws (by decide)
  obtain ⟨ticket,signed,s₂,-,hacc,-⟩ := w.accepts Sample.laws.sig h (paired_granting _)
  have hrun : (Method.run (serve Sample.crypto Sample.runtime)
      [.init pairedServerEntropy w.init] w.s₀).2 = w.s₁ := congrArg Prod.snd w.answered
  rw [← hrun] at hacc
  refine ⟨w,⟨_,_,hacc⟩,?_⟩
  -- the honest transcripts are the same bytes, so no collision is at stake
  obtain ⟨sentropy,ms,ns,a,b,hmem,hparse,hb,-,ha,-,-,hnonce,hpub⟩ :=
    confirm_binds_transcript w.newServer [.init pairedServerEntropy w.init] w.newClient w.sentInit
      w.sentConfirm hacc (by
        intro ms i r hparse hi hr _
        rw [hrun,w.server.initCanonical,Option.some.injEq] at hi
        rw [hrun,w.server.respCanonical,Option.some.injEq] at hr
        rw [w.respCanonical ms hparse,hi,hr])
  exact ⟨sentropy,ms,ns,a,b,hmem,hparse,hb,ha,hnonce,hpub⟩

end Paired

end Handshake
end Semp
