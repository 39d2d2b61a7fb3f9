import Semp.FederationInitiator
import Semp.FederationResponder

/-! What the four messages of the federation handshake say to the server that reads them, and
the secret that the two sides share. -/
namespace Semp
namespace Federation
open Handshake

section Shares
variable {C : Crypto} {cfg : FederationResponderConfig} {entropy : ServerEntropy}
  {suite suite' : Suite} {ephPriv ephPub : Bytes} {share : Bytes × Bytes}

/-- A key pair opens whatever was encapsulated to it. -/
theorem encapsulateTo_opens (laws : Laws C) {pinned : Option HybridRandomness}
    {fresh : HybridRandomness} {e : Encapsulated} (hkeys : Seal.KeysMatch C .pq ephPriv ephPub)
    (h : encapsulateTo C pinned fresh ephPub = .ok e) :
    hybridDecapsulate C e.ciphertext ephPriv = .ok e.sharedSecret := by
  obtain ⟨r,hbody⟩ : ∃ r, hybridEncapsulateBody C ephPub r = .ok e := by
    unfold encapsulateTo at h
    cases pinned with
    | none =>
      dsimp only [hybridEncapsulate] at h
      split_ifs at h
      · simp [sizeError] at h
      · exact ⟨_,h⟩
    | some r =>
      dsimp only [hybridEncapsulateWithRandomness] at h
      split_ifs at h
      · simp [sizeError] at h
      · simp [sizeError] at h
      · simp [sizeError] at h
      · exact ⟨_,h⟩
  obtain ⟨xPub,hxPub,hbody⟩ := bind_eq_ok.mp hbody
  obtain ⟨xSS,hxSS,hbody⟩ := bind_eq_ok.mp hbody
  obtain ⟨kyber,hkyber,hbody⟩ := bind_eq_ok.mp hbody
  have he : Seal.encapsulate C .pq ephPub
      ⟨r.ephemeralX25519Priv,some r.kyberEncapsRandomnessM⟩ = .ok e :=
    bind_eq_ok.mpr ⟨kyber,hkyber,bind_eq_ok.mpr ⟨xPub,hxPub,bind_eq_ok.mpr ⟨xSS,hxSS,hbody⟩⟩⟩
  exact Seal.decapsulate_encapsulate laws hkeys he

/-- A responder takes a public key of its suite's size only. -/
theorem shareFor_size (laws : DhLaws C)
    (h : FederationResponder.shareFor C cfg suite entropy ephPub = .ok share) :
    ephPub.length = ephemeralPublicSize suite := by
  cases suite with
  | x25519 =>
    obtain ⟨pub,-,h⟩ := bind_eq_ok.mp h
    obtain ⟨shared,hshared,-⟩ := bind_eq_ok.mp h
    exact (laws.agree_length _ _ _ hshared).2.1
  | pq =>
    obtain ⟨_,-,h⟩ := bind_eq_ok.mp h
    obtain ⟨enc,henc,-⟩ := bind_eq_ok.mp h
    exact encapsulateTo_size henc

/-- So the pair whose public key it took opens its share. -/
theorem shareFor_opens (laws : Laws C) (hkeys : Seal.KeysMatch C suite ephPriv ephPub)
    (h : FederationResponder.shareFor C cfg suite' entropy ephPub = .ok share) :
    clientShared C suite ephPriv share.1 = .ok share.2 := by
  obtain rfl : suite' = suite := ephemeralPublicSize_injective
    ((shareFor_size laws.dh h).symm.trans (keysMatch_size laws hkeys))
  cases suite' with
  | x25519 =>
    obtain ⟨pub,hpub,h⟩ := bind_eq_ok.mp h
    obtain ⟨shared,hshared,h⟩ := bind_eq_ok.mp h
    obtain rfl := Except.ok.inj h
    obtain ⟨s,hs,hs'⟩ := laws.dh.agree_comm _ _ _ _ hpub hkeys
    obtain rfl : shared = s := Except.ok.inj (hshared.symm.trans hs)
    exact hs'
  | pq =>
    obtain ⟨_,-,h⟩ := bind_eq_ok.mp h
    obtain ⟨enc,henc,h⟩ := bind_eq_ok.mp h
    obtain rfl := Except.ok.inj h
    exact encapsulateTo_opens laws hkeys henc

/-- What a responder draws, or has pinned, has the sizes the suite wants. -/
structure ShareSizes (cfg : FederationResponderConfig) (entropy : ServerEntropy) (suite : Suite) :
    Prop where
  priv : (cfg.responderEphemeralPriv.getD entropy.ephemeralPriv).length = 32
  hybridPriv :
    (cfg.responderHybridRandomness.getD entropy.hybrid).ephemeralX25519Priv.length = 32
  hybridM :
    (cfg.responderHybridRandomness.getD entropy.hybrid).kyberEncapsRandomnessM.length = 32
  unpinned : suite = .pq → cfg.responderEphemeralPriv = none

theorem shareFor_ok (laws : Laws C) (hkeys : Seal.KeysMatch C suite ephPriv ephPub)
    (h : ShareSizes cfg entropy suite) : ∃ share,
      FederationResponder.shareFor C cfg suite entropy ephPub = .ok share ∧ share.1.length ≠ 0 := by
  cases suite with
  | x25519 =>
    obtain ⟨pub,hpub⟩ := laws.dh.publicKey_ok _ h.priv
    obtain ⟨shared,hs,-⟩ := laws.dh.agree_comm _ _ _ _ hpub hkeys
    have hlen := (laws.dh.publicKey_length _ _ hpub).2
    exact ⟨(pub,shared),bind_eq_ok.mpr ⟨pub,hpub,bind_eq_ok.mpr ⟨shared,hs,rfl⟩⟩,by
      dsimp only
      omega⟩
  | pq =>
    obtain ⟨e,henc,-,hlen⟩ := encapsulateTo_ok laws hkeys h.hybridPriv h.hybridM
    exact ⟨(e.ciphertext,e.sharedSecret),bind_eq_ok.mpr ⟨(),require_of (h.unpinned rfl) _,
      bind_eq_ok.mpr ⟨e,henc,rfl⟩⟩,hlen⟩

end Shares

section Sent
variable {C : Crypto} {msg ms : Members} {seed bytes : Bytes}

/-- What is sent is read back: it says the same, under a signature that verifies. -/
theorem sent_read (laws : SignLaws C) (hwf : (Json.obj msg).WF)
    (h : sendSigned C msg seed = .ok bytes) : ∃ ms,
      parseJson (Utf8.textDecode bytes) = .ok (.obj ms) ∧ Says msg ms ∧
      Canonical.canonicalBytes (.obj ms) = bytes ∧
      ∀ rt pk, publicKeyFromSeed C seed = .ok pk → SignedBy C rt pk ms := by
  obtain ⟨sig,hsig,rfl⟩ := (sendSigned_eq_ok hwf).mp h
  obtain ⟨ms,hparse,hr⟩ := received (signedWith_wf hwf sig)
  exact ⟨ms,hparse,says_received hwf hr,
    (Canonical.canonicalBytes_inj hr.wf (signedWith_wf hwf sig)).mpr hr.norm,
    fun rt pk hpk => signedBy_received laws hwf hpk hsig hr⟩

/-- An inner proof that was signed as it should be passes its check. -/
theorem Says.proven (laws : SignLaws C) (h : Says msg ms) (hwf : (Json.obj msg).WF)
    {keyId : JsString} {sig signed : Bytes} (hp : lookup msg (js "server_identity_proof") =
      some (.obj (FederationProof.members ⟨keyId,Base64.encode sig⟩)))
    (hsig : sign C seed (utf8 identityPrefix++signed) = .ok sig) (rt : Runtime) {pk : Bytes}
    (message : JsString) (hpk : publicKeyFromSeed C seed = .ok pk) :
    checkIdentityProof C rt (.obj ms) pk signed message = .ok () :=
  h.identityProof hwf hp (by
    rw [Base64.decode_encode]
    exact verify_sign laws hpk hsig)

end Sent

section Inits
variable {C : Crypto} {ms : Members} {c : FederationInitiator} {ephPub nonce innerSig bytes : Bytes}
  {ephKeyId : JsString}

/-- What an INIT says. -/
structure InitSaid (C : Crypto) (cfg : FederationInitiatorConfig) (ephPub nonce : Bytes)
    (ms : Members) : Prop where
  step : IsStep ms "init"
  domain : lookup ms (js "server_domain") = some (.str cfg.localDomain)
  ephemeral : ∀ rt, serverEphemeralKey rt (.obj ms) = .ok ephPub
  proof : ∀ rt pk message, publicKeyFromSeed C cfg.localDomainSeed = .ok pk →
    checkIdentityProof C rt (.obj ms) pk (ephPub++nonce) message = .ok ()
  domainProof : ∃ sub, lookup ms (js "domain_proof") = some (.obj sub)
  offered : getProp (lookup ms (js "capabilities")) (js "encryption_algorithms") =
    .ok (some (strs cfg.capabilities.encryptionAlgorithms))
  nonce : lookup ms (js "nonce") = some (.str (Base64.encode nonce))

theorem initSaid (laws : SignLaws C) (hsig : sign C c.cfg.localDomainSeed
      (utf8 identityPrefix++(ephPub++nonce)) = .ok innerSig)
    (h : Says (FederationInitiator.initMessage c ephPub nonce ephKeyId innerSig).members ms) :
    InitSaid C c.cfg ephPub nonce ms := by
  have hwf := ServerInit.wf (FederationInitiator.initMessage c ephPub nonce ephKeyId innerSig)
  have hlook (k : JsString) := ServerInit.lookup_members
    (FederationInitiator.initMessage c ephPub nonce ephKeyId innerSig) k
  obtain ⟨sub,hsub,-⟩ := h.obj hwf (k := js "domain_proof") (by decide) ((hlook _).trans rfl)
  obtain ⟨caps,hcaps,hr⟩ := h.obj hwf (k := js "capabilities") (by decide) ((hlook _).trans rfl)
  have halgs : lookup c.cfg.capabilities.members (js "encryption_algorithms") =
      some (strs c.cfg.capabilities.encryptionAlgorithms) := rfl
  exact {
    step := (h.isStep hwf).mpr (ServerInit.isStep _)
    domain := (h.str hwf (by decide)).mpr ((hlook _).trans rfl)
    nonce := (h.str hwf (by decide)).mpr ((hlook _).trans rfl)
    ephemeral := fun rt => by
      rw [h.ephemeralKey hwf ((hlook _).trans rfl)]
      exact congrArg Except.ok (Base64.decode_encode _)
    proof := fun rt pk message hpk => h.proven laws hwf ((hlook _).trans rfl) hsig rt message hpk
    domainProof := ⟨sub,hsub⟩
    offered := by rw [hcaps,getProp_obj,hr.strs (Capabilities.wf _) halgs] }

/-- The INIT that `init` puts on the wire. -/
theorem init_sent (laws : SignLaws C) (h : FederationInitiator.composeInit C c ephPub nonce =
    .ok bytes) : ∃ msg, (Json.obj msg).WF ∧ sendSigned C msg c.cfg.localDomainSeed = .ok bytes ∧
      ∀ ms, Says msg ms → InitSaid C c.cfg ephPub nonce ms := by
  obtain ⟨keyId,-,h⟩ := bind_eq_ok.mp h
  obtain ⟨innerSig,hsig,h⟩ := bind_eq_ok.mp h
  exact ⟨_,ServerInit.wf _,h,fun ms hms => initSaid laws hsig hms⟩

end Inits

section Responses
variable {C : Crypto} {ms : Members} {s : FederationResponder} {a : FederationResponder.PeerInit}
  {sessionId respEphKeyId : JsString} {serverNonce respEphPub proofSig bytes : Bytes}

/-- What a RESPONSE says. -/
structure ResponseSaid (C : Crypto) (cfg : FederationResponderConfig)
    (a : FederationResponder.PeerInit) (sessionId : JsString) (serverNonce respEphPub : Bytes)
    (ms : Members) : Prop where
  step : IsStep ms "response"
  domain : lookup ms (js "server_domain") = some (.str cfg.localDomain)
  ephemeral : ∀ rt, serverEphemeralKey rt (.obj ms) = .ok respEphPub
  proof : ∀ rt pk message, publicKeyFromSeed C cfg.localDomainSeed = .ok pk →
    checkIdentityProof C rt (.obj ms) pk (respEphPub++serverNonce++a.clientNonce) message = .ok ()
  verified : getProp (lookup ms (js "domain_verification_result")) (js "status") =
    .ok (some (.str (js "verified")))
  echo : ∀ n, lookup ms (js "client_nonce") = some (.str n) ↔ a.nonce = some (.str n)
  session : lookup ms (js "session_id") = some (.str sessionId)
  nonce : lookup ms (js "server_nonce") = some (.str (Base64.encode serverNonce))

theorem responseMessage_wf (hn : ∀ v ∈ a.nonce, v.WF) (hm : ∀ v ∈ a.method, v.WF) :
    (Json.obj (FederationResponder.responseMessage s a sessionId serverNonce respEphPub
      respEphKeyId proofSig).members).WF :=
  FederationResponse.wf hn hm

theorem responseSaid (laws : SignLaws C) (hn : ∀ v ∈ a.nonce, v.WF) (hm : ∀ v ∈ a.method, v.WF)
    (hsig : sign C s.cfg.localDomainSeed
      (utf8 identityPrefix++(respEphPub++serverNonce++a.clientNonce)) = .ok proofSig)
    (h : Says (FederationResponder.responseMessage s a sessionId serverNonce respEphPub
      respEphKeyId proofSig).members ms) :
    ResponseSaid C s.cfg a sessionId serverNonce respEphPub ms := by
  have hwf : (Json.obj (FederationResponder.responseMessage s a sessionId serverNonce respEphPub
      respEphKeyId proofSig).members).WF := responseMessage_wf hn hm
  have hlook (k : JsString) := FederationResponse.lookup_members
    (FederationResponder.responseMessage s a sessionId serverNonce respEphPub respEphKeyId
      proofSig) k
  obtain ⟨result,hresult,hr⟩ := h.obj hwf (k := js "domain_verification_result") (by decide)
    ((hlook _).trans rfl)
  have hstatus : lookup result (js "status") = some (.str (js "verified")) :=
    hr.str (verifiedResult_wf hm) (lookup_literal [js "status",js "method"] rfl (by decide) _)
  exact {
    step := (h.isStep hwf).mpr (FederationResponse.isStep _)
    domain := (h.str hwf (by decide)).mpr ((hlook _).trans rfl)
    ephemeral := fun rt => by
      rw [h.ephemeralKey hwf ((hlook _).trans rfl)]
      exact congrArg Except.ok (Base64.decode_encode _)
    proof := fun rt pk message hpk => h.proven laws hwf ((hlook _).trans rfl) hsig rt message hpk
    verified := by rw [hresult,getProp_obj,hstatus]
    echo := fun n => by
      rw [h.str hwf (by decide),hlook]
      exact Iff.rfl
    session := (h.str hwf (by decide)).mpr ((hlook _).trans rfl)
    nonce := (h.str hwf (by decide)).mpr ((hlook _).trans rfl) }

/-- The RESPONSE that `onInit` puts on the wire. -/
theorem response_sent (laws : SignLaws C) (hn : ∀ v ∈ a.nonce, v.WF) (hm : ∀ v ∈ a.method, v.WF)
    (h : FederationResponder.composeResponse C s a sessionId serverNonce respEphPub respEphKeyId =
      .ok bytes) : ∃ msg, (Json.obj msg).WF ∧ sendSigned C msg s.cfg.localDomainSeed = .ok bytes ∧
      ∀ ms, Says msg ms → ResponseSaid C s.cfg a sessionId serverNonce respEphPub ms := by
  obtain ⟨proofSig,hsig,h⟩ := bind_eq_ok.mp h
  exact ⟨_,responseMessage_wf hn hm,h,fun ms hms => responseSaid laws hn hm hsig hms⟩

variable (sessionId respEphKeyId serverNonce respEphPub) in
/-- With a seed of the right size there is always one. -/
theorem composeResponse_ok (laws : SignLaws C) (hseed : s.cfg.localDomainSeed.length = 32)
    (hn : ∀ v ∈ a.nonce, v.WF) (hm : ∀ v ∈ a.method, v.WF) : ∃ bytes,
      FederationResponder.composeResponse C s a sessionId serverNonce respEphPub respEphKeyId =
        .ok bytes := by
  obtain ⟨proofSig,hsig⟩ := sign_ok laws hseed
    (utf8 identityPrefix++(respEphPub++serverNonce++a.clientNonce))
  have hwf : (Json.obj (FederationResponder.responseMessage s a sessionId serverNonce respEphPub
      respEphKeyId proofSig).members).WF := responseMessage_wf hn hm
  obtain ⟨sig,-,hsent⟩ := sendSigned_ok laws hwf hseed
  exact ⟨_,bind_eq_ok.mpr ⟨proofSig,hsig,hsent⟩⟩

end Responses

section Closing
variable {C : Crypto} {ms ns : Members} {bytes ch : Bytes}

/-- What a CONFIRM says. -/
structure ConfirmSaid (sessionId : Option Json) (ch : Bytes) (reason : Option JsString)
    (ms : Members) : Prop where
  step : IsStep ms "confirm"
  session : ∀ s, sessionId = some (.str s) → lookup ms (js "session_id") = some (.str s)
  hash : lookup ms (js "confirmation_hash") = some (.str (Base64.encode ch))
  accepted : reason = none → FederationResponder.expectAccepted (.obj ms) = .ok ()

theorem norm_eq_bool {v : Json} {b : Bool} (h : v.norm = (Json.bool b).norm) : v = .bool b := by
  cases v with
  | bool c => exact h
  | num x => by_cases hx : x.isFinite <;> simp [Json.norm,Json.reparse,hx,Json.sortKeys] at h
  | _ => simp at h

theorem bool_received {signed : Members} (h : Received signed ms) (hwf : (Json.obj signed).WF)
    {k : JsString} {b : Bool} (hk : lookup signed k = some (.bool b)) :
    lookup ms k = some (.bool b) := by
  have he := (Json.norm_obj_eq_iff h.wf hwf).mp h.norm k
  rw [hk,Option.map_some,Option.map_eq_some_iff] at he
  obtain ⟨v,hv,hn⟩ := he
  rw [hv,norm_eq_bool hn]

theorem confirmSaid {sessionId : Option Json} {reason : Option JsString}
    (hs : ∀ v ∈ sessionId, v.WF)
    (h : Says (FederationConfirm.members ⟨sessionId,Base64.encode ch,reason⟩) ms) :
    ConfirmSaid sessionId ch reason ms := by
  have hwf : (Json.obj (FederationConfirm.members ⟨sessionId,Base64.encode ch,reason⟩)).WF :=
    FederationConfirm.wf hs
  have hlook (k : JsString) :=
    FederationConfirm.lookup_members ⟨sessionId,Base64.encode ch,reason⟩ k
  refine ⟨(h.isStep hwf).mpr (FederationConfirm.isStep _),fun t ht => ?_,
    (h.str hwf (by decide)).mpr ((hlook _).trans rfl),fun hreason => ?_⟩
  · refine (h.str hwf (by decide)).mpr ((hlook _).trans ?_)
    exact ht
  · obtain ⟨sub,hsub,hr⟩ := h.obj hwf (k := js "federation_acceptance") (by decide)
      ((hlook _).trans rfl)
    rw [hreason] at hr
    have htrue : lookup sub (js "accepted") = some (.bool true) :=
      bool_received hr (acceptance_wf none) rfl
    rw [FederationResponder.expectAccepted,getProp_obj,hsub,ok_bind,getProp_obj,htrue,ok_bind]
    rfl

/-- The CONFIRM that `onResponse` puts on the wire. -/
theorem confirm_sent {cfg : FederationInitiatorConfig} {r : Option Json × Bytes}
    (hns : (Json.obj ns).WF) (h : FederationInitiator.composeConfirm C cfg (.obj ns) ch = .ok r) :
    r.1 = lookup ns (js "session_id") ∧ ∃ msg reason, (Json.obj msg).WF ∧
      sendSigned C msg cfg.localDomainSeed = .ok r.2 ∧
      FederationInitiator.consult cfg (lookup ns (js "federation_policy")) = .ok reason ∧
      ∀ ms, Says msg ms → ConfirmSaid (lookup ns (js "session_id")) ch reason ms := by
  obtain ⟨_,hpolicy,h⟩ := bind_eq_ok.mp h
  obtain ⟨reason,hreason,h⟩ := bind_eq_ok.mp h
  obtain ⟨_,hsid,h⟩ := bind_eq_ok.mp h
  obtain ⟨bytes,hsent,h⟩ := bind_eq_ok.mp h
  rw [getProp_obj,Except.ok.injEq] at hpolicy hsid
  subst hpolicy hsid
  obtain rfl := Except.ok.inj h
  have hs : ∀ v ∈ lookup ns (js "session_id"), v.WF := fun v hv => Json.wf_of_lookup hns hv
  exact ⟨rfl,_,reason,FederationConfirm.wf hs,hsent,hreason,fun ms hms => confirmSaid hs hms⟩

/-- What an ACCEPTED says. -/
structure AcceptedSaid (sessionId : JsString) (ms : Members) : Prop where
  step : IsStep ms "accepted"
  session : lookup ms (js "session_id") = some (.str sessionId)
  ttl : ∃ positive, gtZero (lookup ms (js "session_ttl")) = .ok positive

theorem acceptedSaid {m : FederationAccepted} (h : Says m.members ms) :
    AcceptedSaid m.sessionId ms :=
  ⟨(h.isStep m.wf).mpr m.isStep,(h.str m.wf (by decide)).mpr ((m.lookup_members _).trans rfl),
    h.comparable m.wf (by decide) ((m.lookup_members _).trans rfl)⟩

/-- The ACCEPTED that `onConfirm` puts on the wire. -/
theorem accepted_sent {s : FederationResponder} {keys : SessionKeys}
    {issue : Option (SessionKeys → Callback ResumptionTicket)}
    (h : FederationResponder.composeAccepted C s issue keys = .ok bytes) : ∃ msg,
      (Json.obj msg).WF ∧ sendSigned C msg s.cfg.localDomainSeed = .ok bytes ∧
      ∀ ms, Says msg ms → AcceptedSaid s.sessionId ms := by
  obtain ⟨ticket,-,h⟩ := bind_eq_ok.mp h
  exact ⟨_,FederationAccepted.wf _,h,fun ms hms => acceptedSaid hms⟩

end Closing

end Federation
end Semp
