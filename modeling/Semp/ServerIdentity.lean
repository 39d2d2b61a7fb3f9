import Semp.HandshakeRun

/-! Whom a server takes its client for: the identity of an accepted CONFIRM, in every run in
which the caller's policy lets each verified identity pass. -/
namespace Semp
namespace HandshakeServer
open Handshake Method

/-- This call of `onConfirm` returns, and its own identity proof is verified, under the key
the caller looks up, for this identity. -/
structure Proves (C : Crypto) (rt : Runtime) (lookup : Option Json → Option Json → Callback Bytes)
    (t : HandshakeServer) (data : Bytes) (identity : Json) : Prop where
  returned : ∃ bytes t', (onConfirm C rt data).call t = (.ok bytes,t')
  proved : ∃ init resp keys proof c block named, Ready t init resp keys proof ∧
    openConfirm C rt t.cfg t.sessionId (confirmationHash C init resp) keys data = .ok c ∧
    c.block = some block ∧
    SignedBlock C rt lookup t.sessionId (confirmationHash C init resp) block ∧
    namedBy block = .ok named ∧ identity = orElse named.1 (.str [])

/-- Some CONFIRM of this run did. -/
def ProvedBy (C : Crypto) (rt : Runtime) (lookup : Option Json → Option Json → Callback Bytes)
    (s : HandshakeServer) (is : List ServerCall) (identity : Json) : Prop :=
  ∃ before data after, is = before++.confirm data::after ∧
    Proves C rt lookup (run (serve C rt) before s).2 data identity

/-- If this CONFIRM proves an identity, the caller trusts it and issues its ticket. -/
def Trusting (C : Crypto) (rt : Runtime) (s : HandshakeServer) (data : Bytes) : Prop :=
  ∀ init resp keys proof c block, Ready s init resp keys proof →
    openConfirm C rt s.cfg s.sessionId (confirmationHash C init resp) keys data = .ok c →
    c.block = some block →
    (∀ verdict, s.cfg.verifyIdentityProof = some verdict →
      ∃ v, verdict c.identityProof keys c.block = .ok v ∧ v.ok = true) ∧
    ∀ build, s.cfg.resumptionTicket = some build → ∃ ticket, build keys = .ok ticket

/-- Every identity the server holds, in its fields or in its session, was proved. -/
structure Attributed (C : Crypto) (rt : Runtime)
    (lookup : Option Json → Option Json → Callback Bytes) (s : HandshakeServer)
    (is : List ServerCall) (t : HandshakeServer) : Prop where
  identity : t.clientIdentity ≠ .str [] → ProvedBy C rt lookup s is t.clientIdentity
  session : ∀ r, t.finalSession = some r → r.clientIdentity ≠ .str [] →
    ProvedBy C rt lookup s is r.clientIdentity

section Proofs
variable {C : Crypto} {rt : Runtime} {cfg : ServerConfig} {s : HandshakeServer}
  {lookup : Option Json → Option Json → Callback Bytes} {is : List ServerCall}

/-- A later call takes nothing back. -/
theorem ProvedBy.later {identity : Json} (h : ProvedBy C rt lookup s is identity)
    (i : ServerCall) : ProvedBy C rt lookup s (is++[i]) identity := by
  obtain ⟨before,data,after,rfl,h⟩ := h
  exact ⟨before,data,after++[i],by simp,h⟩

/-- A call that leaves the identity and the session alone. -/
theorem Attributed.keep {t t' : HandshakeServer} (h : Attributed C rt lookup s is t)
    (i : ServerCall) (hid : t'.clientIdentityValue = t.clientIdentityValue)
    (hfinal : t'.finalSession = t.finalSession) : Attributed C rt lookup s (is++[i]) t' where
  identity := by
    rw [clientIdentity,hid]
    exact fun hne => (h.identity hne).later i
  session r hr hne := (h.session r (hfinal ▸ hr) hne).later i

/-- A server that holds a RESPONSE signs with a seed of the right size. -/
theorem Responded.seed {past : List (ServerCall × Js Bytes)} {t : HandshakeServer}
    (h : Responded C rt cfg past t) {init resp : Bytes} {keys : SessionKeys}
    {proof : ServerIdentityProof} (hready : Ready t init resp keys proof) :
    cfg.serverDomainSigningSeed.length = 32 := by
  obtain ⟨entropy,data,ms,a,-,hparse,ha,-⟩ := h.sent resp hready.respCanonical
  obtain ⟨keyId,signed,-,-,hsigned,-⟩ := ha.sent
  have hwf : (Json.obj ms).WF := JsonText.parse_wf (parseJson_eq_ok.mp hparse)
  obtain ⟨sig,hsig,-⟩ := signMessage_eq_ok
    (responsePreSign_wf fun _ hv => Json.wf_of_lookup hwf hv) hsigned
  exact (sign_eq_ok.mp hsig).1

/-- A policy that lets the proof pass grants the session. -/
theorem Trusting.grants (laws : SignLaws C) {t : HandshakeServer} {data : Bytes}
    (h : Trusting C rt t data) (hseed : t.cfg.serverDomainSigningSeed.length = 32)
    {init resp : Bytes} {keys : SessionKeys} {proof : ServerIdentityProof} {c : Confirmed}
    {block : Json} (hready : Ready t init resp keys proof)
    (hopen : openConfirm C rt t.cfg t.sessionId (confirmationHash C init resp) keys data = .ok c)
    (hblock : c.block = some block) : ∃ g, grant C t.cfg t.sessionId keys c = .ok g := by
  obtain ⟨htrust,htickets⟩ := h init resp keys proof c block hready hopen hblock
  obtain ⟨ticket,signed,-,hg⟩ := grant_ok laws hseed htrust htickets
  exact ⟨_,hg⟩

/-- One call keeps the attribution. -/
theorem Attributed.step (laws : SignLaws C)
    (hlookup : cfg.lookupClientIdentityKey = some lookup)
    (hresponded : Responded C rt cfg (run (serve C rt) is s).1 (run (serve C rt) is s).2)
    (h : Attributed C rt lookup s is (run (serve C rt) is s).2) (i : ServerCall)
    (htrust : ∀ data, i = .confirm data → Trusting C rt (run (serve C rt) is s).2 data) :
    Attributed C rt lookup s (is++[i]) (run (serve C rt) (is++[i]) s).2 := by
  rw [run_concat]
  generalize ht : (run (serve C rt) is s).2 = t at *
  cases i with
  | erase => exact h.keep _ rfl rfl
  | init entropy data =>
    change Attributed C rt lookup s _ ((onInit C rt entropy data).call t).2
    rcases hc : (onInit C rt entropy data).call t with ⟨e | bytes,t'⟩
    · rcases onInit_error hc with rfl | ⟨-,hu⟩
      · exact h.keep _ rfl rfl
      · exact h.keep _ hu.clientIdentityValue hu.finalSession
    · obtain ⟨-,a,-,-,ha⟩ := onInit_ok hc
      exact h.keep _ ha.clientIdentityValue ha.finalSession
  | confirm data =>
    change Attributed C rt lookup s _ ((onConfirm C rt data).call t).2
    rcases hc : (onConfirm C rt data).call t with ⟨e | bytes,t'⟩
    · rcases onConfirm_error hc with rfl | ⟨init,resp,keys,proof,c,hready,hopen,hid,hgrant⟩
      · exact h.keep _ rfl rfl
      · cases hblock : c.block with
        | none =>
          rw [hblock] at hid
          obtain rfl := Except.ok.inj hid
          exact h.keep _ rfl rfl
        | some block =>
          -- the identity was proved, so the policy let it pass and nothing failed after it
          obtain ⟨g,hg⟩ := (htrust data rfl).grants laws
            (by rw [hresponded.config]; exact hresponded.seed hready) hready hopen hblock
          rw [hg] at hgrant
          cases hgrant
    · obtain ⟨init,resp,keys,proof,c,t₁,ticket,hready,hopen,hid,-,rfl⟩ := onConfirm_ok hc
      cases hblock : c.block with
      | none =>
        rw [hblock] at hid
        obtain rfl := Except.ok.inj hid
        refine ⟨fun hne => (h.identity hne).later _,fun r hr hne => ?_⟩
        obtain rfl := Option.some.inj hr
        exact (h.identity hne).later _
      | some block =>
        rw [hblock] at hid
        obtain ⟨named,hnamed,hid⟩ := bind_eq_ok.mp hid
        obtain rfl := Except.ok.inj hid
        have hproof : ProofOk C rt t.cfg t.sessionId (confirmationHash C init resp) keys
            c.identityProof (some block) := by
          obtain ⟨ms,-,hok⟩ := openConfirm_eq_ok.mp hopen
          exact hblock ▸ hok.proof
        have hproved : ProvedBy C rt lookup s (is++[.confirm data])
            (orElse named.1 (.str [])) := by
          generalize c.identityProof = p at hproof
          cases hproof with
          | opened _ _ hsigned =>
            refine ⟨is,data,[],rfl,?_⟩
            rw [ht]
            exact ⟨⟨_,_,hc⟩,init,resp,keys,proof,c,block,named,hready,hopen,hblock,
              hsigned lookup (by rw [hresponded.config]; exact hlookup),hnamed,rfl⟩
        refine ⟨fun _ => hproved,fun r hr _ => ?_⟩
        obtain rfl := Option.some.inj hr
        exact hproved

/-- In a run in which the caller trusts every identity that a CONFIRM proves, the server
holds no identity but one that a completed CONFIRM proved. -/
theorem clientIdentity_proved (laws : SignLaws C)
    (hlookup : cfg.lookupClientIdentityKey = some lookup) (hnew : new cfg = .ok s)
    (is : List ServerCall)
    (htrust : ∀ before data after, is = before++.confirm data::after →
      Trusting C rt (run (serve C rt) before s).2 data) :
    Attributed C rt lookup s is (run (serve C rt) is s).2 := by
  induction is using List.reverseRecOn with
  | nil =>
    obtain ⟨-,-,-,rfl⟩ := new_eq_ok.mp hnew
    exact ⟨fun hne => absurd rfl hne,nofun⟩
  | append_singleton is i ih =>
    refine (ih fun before data after his => ?_).step laws hlookup (Responded.run C rt hnew is) i ?_
    · exact htrust before data (after++[i]) (by rw [his]; simp)
    · rintro data rfl
      exact htrust is data [] rfl

end Proofs

/-! A client that proves an identity, against a policy that trusts every proof or none. -/
section Policy
variable {C : Crypto} {rt : Runtime} {ccfg : ClientConfig} {centropy : ClientEntropy}
  {scfg : ServerConfig} {sentropy : ServerEntropy}

/-- The CONFIRM of an honest client leaves the client's identity in the fields, whatever the
policy says to it; the call returns if the session is granted. -/
theorem writes_identity (w : Halfway C rt ccfg centropy scfg sentropy)
    {i : ClientIdentity} (hi : ccfg.identity = some i) :
    ((onConfirm C rt w.confirm).call w.s₁).2.clientIdentity = .str i.clientIdentity ∧
      ∃ c, ∀ e, grant C scfg w.a.sessionId (w.a.keys C) c = .error e →
        ((onConfirm C rt w.confirm).call w.s₁).1 = .error e := by
  obtain ⟨-,-,-,hs₀⟩ := new_eq_ok.mp w.newServer
  have hcfg : w.s₁.cfg = scfg := by rw [w.server.cfg,hs₀]
  obtain ⟨p,hopen⟩ := w.opens
  have hready : Ready w.s₁ w.init w.a.resp (w.a.keys C) w.a.proof :=
    ⟨w.server.initCanonical,w.server.respCanonical,w.server.sessionKeys,w.server.serverIdProof⟩
  rw [hi,Option.map_some] at hopen
  set block : Json := .obj (identityBlock i.clientId i.clientIdentity i.longTermKeyId w.sig)
  have hid : identified w.s₁ (some block) = .ok {w.s₁ with
      clientIdentityValue := some (.str i.clientIdentity)
      clientLongTermKeyIdValue := some (.str i.longTermKeyId) } := rfl
  have hf := onConfirm_follows C rt hready w.confirm
  rw [hcfg,w.server.sessionId,hopen,ok_bind,hid,ok_bind] at hf
  cases hg : grant C scfg w.a.sessionId (w.a.keys C) ⟨p,some block⟩ with
  | ok g =>
    rw [hg,ok_bind] at hf
    obtain ⟨bytes,s',hcall,-,rfl⟩ := hf.ok _ rfl
    refine ⟨by rw [hcall]; rfl,⟨p,some block⟩,fun e he => ?_⟩
    rw [hg] at he
    cases he
  | error e =>
    rw [hg,error_bind] at hf
    obtain ⟨e',s',hcall,rfl,⟨rfl,hfalse⟩ | ⟨c,hc,hid',-⟩⟩ := hf.error _ rfl
    · simp [hid] at hfalse
    · obtain rfl := Except.ok.inj hc
      obtain rfl := Except.ok.inj (hid.symm.trans hid')
      refine ⟨by rw [hcall]; rfl,⟨p,some block⟩,fun e'' he => ?_⟩
      rw [hcall,Except.error.inj (hg.symm.trans he)]

/-- A proof the policy refuses is rejected. -/
theorem judgeProof_refused (cfg : ServerConfig) {verdict}
    (hv : cfg.verifyIdentityProof = some verdict) (sid : JsString) (c : Confirmed)
    (keys : SessionKeys) {v : IdentityProofVerdict}
    (h : verdict c.identityProof keys c.block = .ok v) (hok : v.ok = false) :
    ∃ e, judgeProof C cfg sid c.identityProof keys c.block = .error e := by
  obtain ⟨e,he⟩ := reject_error (C := C) cfg.serverDomainSigningSeed sid
    (v.reasonCode.getD (js "auth_failed")) v.reason v.reason
  refine ⟨e,?_⟩
  unfold judgeProof
  rw [hv]
  dsimp only
  rw [h,Callback.run,ok_bind,if_neg (by simp [hok]),he]

/-- A client whose long-term key pair is its seed in the sample instance. -/
def provingClient : ClientConfig :=
  {pairedClient [Suite.x25519.name] with
    identity := some ⟨js "client",js "alice@example.com",List.replicate 32 9,js "key",none⟩}

def provingKey (_ _ : Option Json) : Callback Bytes := .ok (List.replicate 32 9)

def judgingServer (verdict : Bool) : ServerConfig :=
  {pairedServer [.x25519] with
    lookupClientIdentityKey := some provingKey
    verifyIdentityProof := some fun _ _ _ => .ok ⟨verdict,none,none⟩}

theorem judging_endpoints (verdict : Bool) : Endpoints Sample.crypto provingClient
    pairedClientEntropy (judgingServer verdict) pairedServerEntropy .x25519 where
  known := rfl
  advertised := List.mem_singleton.mpr rfl
  supported := List.mem_singleton.mpr rfl
  transport := show js "ws" ≠ [] by decide
  domain := show js "example.com" ≠ [] by decide
  pinnedDomain := publicKeyFromSeed_eq_ok.mpr ⟨List.length_replicate ..,rfl⟩
  clientPriv := List.length_replicate ..
  kyberSeed := List.length_replicate ..
  hybridUnpinned := nofun
  serverPriv := List.length_replicate ..
  hybridPriv := List.length_replicate ..
  hybridM := List.length_replicate ..
  identity i hi := by
    obtain rfl := Option.some.inj hi
    exact ⟨List.length_replicate ..,List.length_replicate ..⟩
  attests _ _ _ := ⟨[],rfl⟩
  resolves i lookup hi hl := by
    obtain rfl := Option.some.inj hi
    obtain rfl := Option.some.inj hl
    exact ⟨_,publicKeyFromSeed_eq_ok.mpr ⟨List.length_replicate ..,rfl⟩,rfl⟩

/-- The INIT and the CONFIRM of the client, as the server is called. -/
def provingCalls {verdict : Bool} (w : Halfway Sample.crypto Sample.runtime provingClient
    pairedClientEntropy (judgingServer verdict) pairedServerEntropy) : List ServerCall :=
  [.init pairedServerEntropy w.init]++[.confirm w.confirm]

theorem run_provingCalls {verdict : Bool} (w : Halfway Sample.crypto Sample.runtime provingClient
    pairedClientEntropy (judgingServer verdict) pairedServerEntropy) :
    (run (serve Sample.crypto Sample.runtime) [.init pairedServerEntropy w.init] w.s₀).2 = w.s₁ ∧
      (run (serve Sample.crypto Sample.runtime) (provingCalls w) w.s₀).2.clientIdentity =
        .str (js "alice@example.com") := by
  have hinit : (run (serve Sample.crypto Sample.runtime) [.init pairedServerEntropy w.init]
      w.s₀).2 = w.s₁ := congrArg Prod.snd w.answered
  refine ⟨hinit,?_⟩
  rw [provingCalls,run_concat,hinit]
  exact (writes_identity w rfl).1

theorem clientIdentity_proved_judging : ∃ s is, new (judgingServer true) = .ok s ∧
    (run (serve Sample.crypto Sample.runtime) is s).2.clientIdentity =
      .str (js "alice@example.com") ∧
    Attributed Sample.crypto Sample.runtime provingKey s is
      (run (serve Sample.crypto Sample.runtime) is s).2 := by
  obtain ⟨w⟩ := (judging_endpoints true).halfway Sample.runtime Sample.laws (by decide)
  refine ⟨w.s₀,provingCalls w,w.newServer,(run_provingCalls w).2,
    clientIdentity_proved Sample.laws.sig rfl w.newServer _ fun before data after _ => ?_⟩
  intro init resp keys proof c block _ _ _
  rw [(Responded.run Sample.crypto Sample.runtime w.newServer before).config]
  refine ⟨fun verdict hv => ?_,nofun⟩
  obtain rfl := Option.some.inj hv
  exact ⟨_,rfl,rfl⟩

/-- The policy refuses the proof, and the server holds the identity all the same. -/
theorem identity_outlives_rejection : ∃ s is, new (judgingServer false) = .ok s ∧
    (run (serve Sample.crypto Sample.runtime) is s).2.clientIdentity =
      .str (js "alice@example.com") ∧
    ¬ProvedBy Sample.crypto Sample.runtime provingKey s is (.str (js "alice@example.com")) := by
  obtain ⟨w⟩ := (judging_endpoints false).halfway Sample.runtime Sample.laws (by decide)
  obtain ⟨-,c,hc⟩ := writes_identity w rfl
  obtain ⟨hinit,hid⟩ := run_provingCalls w
  refine ⟨w.s₀,provingCalls w,w.newServer,hid,?_⟩
  rintro ⟨before,data,after,his,hproves⟩
  obtain ⟨rfl,rfl⟩ : before = [.init pairedServerEntropy w.init] ∧ data = w.confirm := by
    rcases before with _ | ⟨b,before⟩
    · exact absurd (List.cons.inj his).1 (by simp)
    · obtain ⟨rfl,hrest⟩ := List.cons.inj his
      rcases before with _ | ⟨b',before⟩
      · exact ⟨rfl,(ServerCall.confirm.inj (List.cons.inj hrest).1).symm⟩
      · exact absurd (List.cons.inj hrest).2 (by simp)
  obtain ⟨bytes,t,hcall⟩ := hproves.returned
  rw [hinit] at hcall
  -- the only CONFIRM of the run is answered with a REJECTED
  obtain ⟨e,he⟩ := judgeProof_refused (C := Sample.crypto) (judgingServer false) rfl
    w.a.sessionId c (w.a.keys Sample.crypto) rfl rfl
  have hrefused := hc e (by rw [grant,he,error_bind])
  rw [hcall] at hrefused
  cases hrefused

end Policy

end HandshakeServer
end Semp
