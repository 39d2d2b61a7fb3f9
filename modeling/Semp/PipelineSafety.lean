import Semp.PipelineRun

/-! What the receive pipeline promises: a stored envelope passed every check, a domain block
holds against the sender that was verified, and a call returns a result.  The last two
depend on the brief, which the sender writes. -/
namespace Semp
namespace Pipeline
open Envelope

/-- No step is skipped. -/
structure NoSkips (cfg : PipelineConfig) : Prop where
  signature : cfg.skipSignatureCheck = false
  expiry : cfg.skipExpiryCheck = false
  sessionId : cfg.skipSessionIDCheck = false
  sessionMac : cfg.skipSessionMACCheck = false

/-- Every check passed for the recipient at position `i` of the brief.  A hook that is not
there has nothing to refuse; a retirement lookup that fails lets the envelope pass. -/
structure Passed (C : Crypto) (lc : Locale) (rt : Runtime) (p : Pipeline) (env : Env)
    (brief : Json) (i : ℕ) (recipient : Json) : Prop where
  signature : ∃ domainKeys pub, p.cfg.domainKeys = some domainKeys ∧
    domainKeys env.postmark.fromDomain = .ok (some pub) ∧ pub ≠ [] ∧
    verifySealSignature C env pub = .ok true
  expiry : env.postmark.expires ≠ [] → (lc.dateParse env.postmark.expires).isNaN = false ∧
    (p.cfg.clockSkewMs.getD defaultClockSkewMs).lt
      (p.cfg.now.getTime.sub (lc.dateParse env.postmark.expires)) = false
  sessionId : trim env.postmark.sessionId ≠ []
  notRetired : ∀ sessionRetired, p.cfg.sessionRetired = some sessionRetired →
    sessionRetired env.postmark.sessionId ≠ .ok true
  sessionMac : ∃ mac, p.cfg.envMAC = some (.ok mac) ∧ mac ≠ [] ∧
    verifySessionMAC C env mac = .ok true
  domainPolicy : ∀ domainPolicy, p.cfg.domainPolicy = some domainPolicy →
    domainPolicy env.postmark.fromDomain [] = .ok .delivered
  opened : openBriefOnly C rt env p.cfg.briefRecipients = .ok brief
  named : ∃ recipients, Recipients brief recipients ∧ recipients[i]? = some recipient
  isLocal : p.cfg.isLocal i recipient = .ok true
  recipientPolicy : ∀ recipientPolicy, p.cfg.recipientPolicy = some recipientPolicy →
    recipientPolicy i recipient = .ok .delivered
  blockList : ∀ lookupList, p.cfg.blockList = some lookupList → ∃ sender list,
    blockListSender env brief = .ok sender ∧ lookupList i recipient = .ok list ∧
    ∀ l ∈ list, ∀ e ∈ l.entries, ¬ Blocklist.Applies lc sender (p.cfg.wallClock i) e

section Safety
variable {C : Crypto} {lc : Locale} {rt : Runtime} {p : Pipeline} {env : Env}

/-- What is stored is the envelope, for a recipient that passed every check; the inbox
changes by these stores alone, and not at all when the envelope is rejected. -/
theorem stored_passed (h : NoSkips p.cfg) (inbox : Inbox) :
    (∀ s ∈ (p.run C lc rt env inbox).2.stores, s.payload = encodeEnvelope env ∧
      ∃ brief, Passed C lc rt p env brief s.position s.recipient) ∧
    (p.run C lc rt env inbox).2.stores.foldlM
      (fun inbox s => inbox.store s.recipient s.payload) inbox =
        .ok (p.run C lc rt env inbox).2.inbox ∧
    ∀ result, (p.run C lc rt env inbox).1 = .ok result → result.rejection ≠ none →
      (p.run C lc rt env inbox).2 = ⟨inbox,[]⟩ := by
  refine ⟨?_,run_written inbox,fun result => run_rejected⟩
  intro s hs
  obtain ⟨brief,recipients,hscreen,hrs,n,recipient,hn,rfl,⟨hrefusal,-,-⟩,-⟩ :=
    mem_stores_run.mp hs
  obtain ⟨hchecks,hopen⟩ := screen_eq_ok.mp hscreen
  obtain ⟨hsig,hexp,hid,hmac,hpolicy⟩ := checkAll_eq_ok.mp hchecks
  simp only [h.signature,h.expiry,h.sessionId,h.sessionMac,Bool.false_eq_true,false_or]
    at hsig hexp hid hmac
  obtain ⟨hlocal,hgate,hblocked⟩ := refusal_eq_none.mp hrefusal
  obtain ⟨hid,hretired⟩ := checkSessionId_none hid
  refine ⟨rfl,brief,{
    signature := verifySignature_eq_none.mp hsig
    expiry := checkExpiry_eq_none.mp hexp
    sessionId := hid
    notRetired := hretired
    sessionMac := checkSessionMac_eq_none.mp hmac
    domainPolicy := checkDomainPolicy_eq_none.mp hpolicy
    opened := hopen
    named := ⟨recipients,hrs,by rwa [Nat.zero_add]⟩
    isLocal := hlocal
    recipientPolicy := gate_eq_delivered.mp hgate
    blockList := blocked_eq_none.mp hblocked }⟩

/-- The recipient at position `i` has a list with a domain entry that is in force, is about
all mail, and names the domain of the postmark. -/
structure DomainBlock (lc : Locale) (p : Pipeline) (env : Env) (i : ℕ) (recipient : Json)
    (list : BlockList) : Prop where
  listed : ∃ lookupList, p.cfg.blockList = some lookupList ∧
    lookupList i recipient = .ok (some list)
  entry : ∃ e ∈ list.entries, Blocklist.isExpired lc e (p.cfg.wallClock i) = false ∧
    e.scope = some (js "all") ∧ e.entity.type = js "domain" ∧
    Blocklist.names lc (Blocklist.lowered lc (some env.postmark.fromDomain)) e.entity.domain = true

/-- Everything but the block list lets the envelope through to the recipient: the checks
before it, and the inbox after it. -/
structure Cleared (C : Crypto) (lc : Locale) (rt : Runtime) (p : Pipeline) (env : Env)
    (brief : Json) (i : ℕ) (recipient : Json) : Prop where
  checks : (p.checkAll C lc rt env).run = .ok (.ok ())
  opened : openBriefOnly C rt env p.cfg.briefRecipients = .ok brief
  named : ∃ recipients, Recipients brief recipients ∧ recipients[i]? = some recipient ∧
    ∀ m < i, ∀ r, recipients[m]? = some r → ¬ Throws lc p env brief m r
  isLocal : p.cfg.isLocal i recipient = .ok true
  gate : p.gate i recipient = .ok .delivered
  inbox : p.cfg.inbox = true
  address : recipient ≠ .str []

/-- The brief names a sender of its own, and no entry of the list applies to that one. -/
def Evades (lc : Locale) (p : Pipeline) (brief : Json) (i : ℕ) (list : BlockList) : Prop :=
  ∃ ms address, brief = .obj ms ∧ lookup ms (js "from") = some (.str address) ∧
    ∀ e ∈ list.entries, ¬ Blocklist.Applies lc ⟨some address,some (addressDomain address),none,none⟩
      (p.cfg.wallClock i) e

theorem stored_iff (inbox : Inbox) {i : ℕ} {recipient : Json} :
    (∃ s ∈ (p.run C lc rt env inbox).2.stores, s.position = i ∧ s.recipient = recipient) ↔
      ∃ brief, Cleared C lc rt p env brief i recipient ∧
        p.blocked lc env brief i recipient = .ok none := by
  constructor
  · rintro ⟨s,hs,rfl,rfl⟩
    obtain ⟨brief,recipients,hscreen,hrs,n,recipient,hn,rfl,⟨href,hinbox,hne⟩,hbefore⟩ :=
      mem_stores_run.mp hs
    simp only [Nat.zero_add] at href hbefore ⊢
    obtain ⟨hlocal,hgate,hblocked⟩ := refusal_eq_none.mp href
    obtain ⟨hchecks,hopen⟩ := screen_eq_ok.mp hscreen
    exact ⟨brief,⟨hchecks,hopen,⟨recipients,hrs,hn,hbefore⟩,hlocal,hgate,hinbox,hne⟩,hblocked⟩
  · rintro ⟨brief,⟨hchecks,hopen,⟨recipients,hrs,hn,hbefore⟩,hlocal,hgate,hinbox,hne⟩,hblocked⟩
    have hstores : Stores lc p env brief i recipient :=
      ⟨refusal_eq_none.mpr ⟨hlocal,hgate,hblocked⟩,hinbox,hne⟩
    refine ⟨⟨i,recipient,encodeEnvelope env⟩,mem_stores_run.mpr ⟨brief,recipients,
      screen_eq_ok.mpr ⟨hchecks,hopen⟩,hrs,i,recipient,hn,by rw [Nat.zero_add],?_,?_⟩,rfl,rfl⟩
    · rwa [Nat.zero_add]
    · simpa only [Nat.zero_add] using hbefore

/-- With the domain of the postmark blocked, the list lets a brief through exactly when the
brief evades it. -/
theorem DomainBlock.blocked_iff {brief : Json} {i : ℕ} {recipient : Json}
    {list : BlockList} (h : DomainBlock lc p env i recipient list) (hrs : ∃ rs, Recipients brief rs) :
    p.blocked lc env brief i recipient = .ok none ↔ Evades lc p brief i list := by
  obtain ⟨lookupList,hlookup,hlist⟩ := h.listed
  obtain ⟨-,ms,-,-,rfl,-⟩ := hrs
  rw [blocked_eq_none]
  constructor
  · intro hblocked
    obtain ⟨sender,list',hsender,hlist',hnone⟩ := hblocked lookupList hlookup
    cases hlist.symm.trans hlist'
    rw [blockListSender,getProp_obj,ok_bind] at hsender
    rcases hfrom : lookup ms (js "from") with _ | (_ | _ | _ | address | _ | _) <;>
      rw [hfrom] at hsender <;> cases hsender
    · obtain ⟨e,he,hexp,hscope,htype,hname⟩ := h.entry
      exact absurd (Blocklist.applies_domain hexp hscope htype hname) (hnone list rfl e he)
    · exact ⟨ms,address,rfl,hfrom,hnone list rfl⟩
  · rintro ⟨ms',address,heq,hfrom,hnone⟩ lookupList' hlookup'
    cases heq
    cases hlookup.symm.trans hlookup'
    refine ⟨_,some list,?_,hlist,by simpa using hnone⟩
    rw [blockListSender,getProp_obj,hfrom]
    rfl

/-- A domain block keeps the envelope from a recipient exactly when the envelope is not one
that everything else lets through and whose brief evades the list. -/
theorem domainBlock_holds_iff {i : ℕ} {recipient : Json} {list : BlockList}
    (h : DomainBlock lc p env i recipient list) (inbox : Inbox) :
    (∀ s ∈ (p.run C lc rt env inbox).2.stores, ¬ (s.position = i ∧ s.recipient = recipient)) ↔
      ¬ ∃ brief, Cleared C lc rt p env brief i recipient ∧ Evades lc p brief i list := by
  have hstored : (∃ brief, Cleared C lc rt p env brief i recipient ∧
      p.blocked lc env brief i recipient = .ok none) ↔
      ∃ brief, Cleared C lc rt p env brief i recipient ∧ Evades lc p brief i list := by
    refine exists_congr fun brief => and_congr_right fun hc => ?_
    obtain ⟨recipients,hrs,-⟩ := hc.named
    exact h.blocked_iff ⟨recipients,hrs⟩
  rw [← hstored,← stored_iff inbox]
  push Not
  rfl

/-- Hooks that do not throw. -/
structure Quiet (cfg : PipelineConfig) : Prop where
  envMAC : ∀ envMAC, cfg.envMAC = some envMAC → ∃ mac, envMAC = .ok mac
  domainKeys : ∀ f, cfg.domainKeys = some f → ∀ domain, ∃ pub, f domain = .ok pub
  sessionRetired : ∀ f, cfg.sessionRetired = some f → ∀ id, ∃ retired, f id = .ok retired
  domainPolicy : ∀ f, cfg.domainPolicy = some f → ∀ domain server, ∃ v, f domain server = .ok v
  recipientPolicy : ∀ f, cfg.recipientPolicy = some f → ∀ i r, ∃ verdict, f i r = .ok verdict
  blockList : ∀ f, cfg.blockList = some f → ∀ i r, ∃ list, f i r = .ok list
  isLocal : ∀ i r, ∃ isLocal, cfg.isLocal i r = .ok isLocal
  logger : ∀ f, cfg.logger = some f → ∀ line, f line = .ok ()

/-- `brief.from` is missing or a string. -/
def SenderReadable (brief : Json) : Prop :=
  ∀ ms v, brief = .obj ms → lookup ms (js "from") = some v → ∃ address, v = .str address

/-- A recipient that is local and passes its policy: its block list can be matched, and when
no entry matches its address is one the inbox takes. -/
def Servable (lc : Locale) (p : Pipeline) (env : Env) (brief : Json) (i : ℕ) (recipient : Json) :
    Prop :=
  p.cfg.isLocal i recipient = .ok true → p.gate i recipient = .ok .delivered →
    (p.cfg.blockList ≠ none → SenderReadable brief) ∧
    (p.cfg.inbox = true → recipient = .str [] → p.blocked lc env brief i recipient ≠ .ok none)

theorem bind_answers {α : Type} {x : Screen Unit} {f : Unit → Screen α}
    (hx : ∃ r, x.run = .ok r) (hf : ∃ r, (f ()).run = .ok r) : ∃ r, (x >>= f).run = .ok r := by
  obtain ⟨r,hr⟩ := hx
  rw [ExceptT.run_bind,hr]
  cases r with
  | ok => exact hf
  | error rejection => exact ⟨.error rejection,rfl⟩

namespace Quiet
variable (h : Quiet p.cfg)
include h

theorem log (line : JsString) : p.log line = .ok () := by
  unfold Pipeline.log
  split
  · rfl
  · next logger hl => exact h.logger logger hl _

theorem step_answers (name : String) (skip : Bool) {check : Js (Option PipelineRejection)}
    (hc : ∃ r, check = .ok r) : ∃ r, (p.step name skip check).run = .ok r := by
  cases skip with
  | true => exact ⟨.ok (),rfl⟩
  | false =>
    obtain ⟨_ | rejection,rfl⟩ := hc
    · exact ⟨.ok (),rfl⟩
    · refine ⟨.error rejection,?_⟩
      change (p.log _ >>= fun _ => (.ok (.error rejection) : Js (Except PipelineRejection Unit))) = _
      rw [h.log,ok_bind]

theorem verifySignature_answers : ∃ r, p.verifySignature C rt env = .ok r := by
  unfold verifySignature
  split
  · exact ⟨_,rfl⟩
  · next domainKeys hd =>
    obtain ⟨pub,hpub⟩ := h.domainKeys domainKeys hd env.postmark.fromDomain
    rw [hpub,ok_bind]
    split <;> exact ⟨_,rfl⟩

theorem checkSessionId_answers : ∃ r, p.checkSessionId rt env = .ok r := by
  unfold checkSessionId
  split
  · exact ⟨_,rfl⟩
  split
  · exact ⟨_,rfl⟩
  · next sessionRetired hs =>
    obtain ⟨retired,hr⟩ := h.sessionRetired sessionRetired hs env.postmark.sessionId
    rw [hr]
    cases retired <;> exact ⟨_,rfl⟩

theorem checkSessionMac_answers : ∃ r, p.checkSessionMac C rt env = .ok r := by
  unfold checkSessionMac
  split
  · exact ⟨_,rfl⟩
  · next envMAC hm =>
    obtain ⟨mac,rfl⟩ := h.envMAC envMAC hm
    rw [ok_bind]
    split <;> exact ⟨_,rfl⟩

theorem checkDomainPolicy_answers : ∃ r, p.checkDomainPolicy env = .ok r := by
  unfold checkDomainPolicy
  split
  · exact ⟨_,rfl⟩
  · next domainPolicy hd =>
    obtain ⟨verdict,hv⟩ := h.domainPolicy domainPolicy hd env.postmark.fromDomain []
    rw [hv,ok_bind]
    cases verdict <;> exact ⟨_,rfl⟩

theorem screen_answers : ∃ r, (p.screen C lc rt env).run = .ok r := by
  refine bind_answers (bind_answers ?_ (bind_answers ?_ (bind_answers ?_ (bind_answers ?_ ?_)))) ?_
  · exact h.step_answers _ _ h.verifySignature_answers
  · exact h.step_answers _ _ ⟨_,rfl⟩
  · exact h.step_answers _ _ h.checkSessionId_answers
  · exact h.step_answers _ _ h.checkSessionMac_answers
  · exact h.step_answers _ _ h.checkDomainPolicy_answers
  · cases hopen : openBriefOnly C rt env p.cfg.briefRecipients with
    | ok brief => exact ⟨.ok brief,rfl⟩
    | error e =>
      let rejection : PipelineRejection := ⟨js "seal_invalid",Handshake.thrownText rt e,none⟩
      refine ⟨.error rejection,?_⟩
      change (p.log _ >>= fun _ => (.ok (.error rejection) : Js (Except PipelineRejection Json))) = _
      rw [h.log,ok_bind]

theorem gate_answers (i : ℕ) (recipient : Json) : ∃ verdict, p.gate i recipient = .ok verdict := by
  unfold gate
  split
  · exact ⟨_,rfl⟩
  · next recipientPolicy hp => exact h.recipientPolicy recipientPolicy hp i recipient

/-- The block list throws on a sender that is not a string, when there is a block list. -/
theorem blocked_answers (ms : Members) (i : ℕ) (recipient : Json) :
    (∃ r, p.blocked lc env (.obj ms) i recipient = .ok r) ↔
      (p.cfg.blockList ≠ none → SenderReadable (.obj ms)) := by
  unfold blocked
  cases hb : p.cfg.blockList with
  | none => simp
  | some lookupList =>
    obtain ⟨list,hlist⟩ := h.blockList lookupList hb i recipient
    simp only [hlist,ok_bind,ne_eq,reduceCtorEq,not_false_eq_true,forall_const,bind_eq_ok,
      Except.ok.injEq]
    constructor
    · rintro ⟨-,sender,hsender,-⟩ ms' v heq hv
      cases heq
      rw [blockListSender,getProp_obj,hv] at hsender
      cases v with
      | str address => exact ⟨address,rfl⟩
      | _ => cases hsender
    · intro hread
      have hsender : ∃ sender, blockListSender env (.obj ms) = .ok sender := by
        rw [blockListSender,getProp_obj]
        cases hv : lookup ms (js "from") with
        | none => exact ⟨_,rfl⟩
        | some v =>
          obtain ⟨address,rfl⟩ := hread ms v rfl hv
          exact ⟨_,rfl⟩
      obtain ⟨sender,hsender⟩ := hsender
      exact ⟨_,sender,hsender,rfl⟩

/-- A recipient throws when it cannot be served. -/
theorem throws_iff (ms : Members) (i : ℕ) (recipient : Json) :
    Throws lc p env (.obj ms) i recipient ↔ ¬ Servable lc p env (.obj ms) i recipient := by
  obtain ⟨isLocal,hlocal⟩ := h.isLocal i recipient
  obtain ⟨verdict,hgate⟩ := h.gate_answers i recipient
  have hblocked : (∃ r, p.blocked lc env (.obj ms) i recipient = .ok r) ↔ _ :=
    h.blocked_answers ms i recipient
  unfold Throws Servable
  cases isLocal with
  | false =>
    obtain ⟨result,href⟩ : ∃ result, p.refusal lc env (.obj ms) i recipient = .ok (some result) :=
      refusal_of_remote hlocal
    simp [href,hlocal]
  | true =>
    cases verdict with
    | refused ack reasonCode reason =>
      obtain ⟨result,href⟩ : ∃ result, p.refusal lc env (.obj ms) i recipient = .ok (some result) :=
        refusal_of_refused hlocal hgate
      simp [href,hgate]
    | delivered =>
      have hthrows : (∃ e, p.refusal lc env (.obj ms) i recipient = .error e) ↔
          ¬ ∃ r, p.blocked lc env (.obj ms) i recipient = .ok r := by
        rw [refusal_of_passed hlocal hgate]
        cases p.blocked lc env (.obj ms) i recipient <;> simp [Except.map]
      rw [← hblocked,refusal_eq_none,hthrows]
      simp only [hlocal,hgate,true_and,true_implies,not_and_or,Classical.not_imp,not_not]
      rw [and_comm,and_assoc]

end Quiet

/-- With hooks that do not throw, a call returns a result exactly when the checks reject the
envelope, or its brief can be read and every recipient of it served. -/
theorem process_returns_iff (h : Quiet p.cfg) (inbox : Inbox) :
    (∃ result, (p.run C lc rt env inbox).1 = .ok result) ↔
      ((p.checkAll C lc rt env).run = .ok (.ok ()) →
        ∀ brief, openBriefOnly C rt env p.cfg.briefRecipients = .ok brief → Readable brief ∧
          ∀ recipients, Recipients brief recipients → ∀ i recipient,
            recipients[i]? = some recipient → Servable lc p env brief i recipient) := by
  rw [run_returns h.screen_answers]
  have hserved : ∀ brief recipients, Recipients brief recipients → ∀ i recipient,
      (¬ Throws lc p env brief i recipient ↔ Servable lc p env brief i recipient) := by
    rintro brief recipients ⟨ms,-,-,rfl,-⟩ i recipient
    rw [h.throws_iff,not_not]
  simp only [screen_eq_ok]
  constructor
  · intro hrun hchecks brief hopen
    obtain ⟨hread,hnone⟩ := hrun brief ⟨hchecks,hopen⟩
    exact ⟨hread,fun rs hrs i r hr => (hserved brief rs hrs i r).mp (hnone rs hrs i r hr)⟩
  · rintro hcond brief ⟨hchecks,hopen⟩
    obtain ⟨hread,hall⟩ := hcond hchecks brief hopen
    exact ⟨hread,fun rs hrs i r hr => (hserved brief rs hrs i r).mpr (hall rs hrs i r hr)⟩

end Safety

/-! The sender of the samples is verified as the domain `a`, and every recipient is local. -/
section Sample

def sampleLocale : Locale := ⟨⟨fun _ => .ofInt 0,fun _ => .ok []⟩,id⟩

def samplePipeline (entries : List BlockEntry) : Pipeline where
  cfg := {
    envMAC := some (.ok (List.replicate 32 13))
    domainKeys := some fun _ => .ok (some (List.replicate 32 7))
    sessionRetired := none
    skipSignatureCheck := false
    skipSessionMACCheck := false
    skipExpiryCheck := false
    skipSessionIDCheck := false
    briefRecipients := [⟨sampleRecipient.keyId,sampleKey,sampleKey⟩]
    domainPolicy := none
    recipientPolicy := none
    blockList := some fun _ _ => .ok (some ⟨entries⟩)
    isLocal := fun _ _ => .ok true
    inbox := true
    logger := none
    now := some 0
    wallClock := fun _ => some 0
    clockSkewMs := none }
  briefRecipients := nofun

theorem samplePipeline_noSkips (entries : List BlockEntry) :
    NoSkips (samplePipeline entries).cfg := ⟨rfl,rfl,rfl,rfl⟩

def sampleMail (brief : Json) : ComposeInput := { separateInput with briefPlaintext := brief }

theorem sampleMail_json {brief : Json} (hwf : brief.WF) (hfin : brief.Finite) :
    JsonInputs (sampleMail brief) :=
  have h := sample_json separateInput.wrapRandomness
  { brief_wf := hwf
    brief_finite := hfin
    enclosure_wf := h.enclosure_wf
    enclosure_finite := h.enclosure_finite
    postmark_wf := h.postmark_wf
    seal_wf := h.seal_wf
    extensions_wf := h.extensions_wf }

/-- A brief that is sealed to the home server passes the screening. -/
theorem sample_screen {brief : Json} (hwf : brief.WF) (hfin : brief.Finite) :
    ∃ env, env.postmark.fromDomain = js "a" ∧ ∀ entries,
      ((samplePipeline entries).screen Sample.crypto sampleLocale Sample.runtime env).run =
        .ok (.ok brief.norm.reparse) := by
  have hjson := sampleMail_json hwf hfin
  have hcomposable : Composable Sample.crypto (sampleMail brief) :=
    have h := separateInput_uses.composable
    { h with }
  obtain ⟨env,calls,h⟩ := compose_ok Sample.laws hjson hcomposable []
  obtain ⟨s,hs⟩ := compose_eq_ok.mp h
  have hpostmark : env.postmark = { separateInput.postmark with extensions := some [] } := by
    rw [hs.result]
    rfl
  have halgorithm : env.sealed.algorithm = Suite.x25519.name := by
    rw [hs.result]
    rfl
  have hkey : (sampleMail brief).kEnvMAC = List.replicate 32 13 := rfl
  have hskew : defaultClockSkewMs.lt ((JsDate.getTime (some 0)).sub (.ofInt 0)) = false := by
    decide +kernel
  refine ⟨env,by rw [hpostmark]; rfl,fun entries => ?_⟩
  rw [screen_eq_ok,checkAll_eq_ok]
  refine ⟨⟨.inr ?_,.inr ?_,.inr ?_,.inr ?_,?_⟩,?_⟩
  · exact verifySignature_eq_none.mpr ⟨_,_,rfl,rfl,by simp,
      verifySealSignature_compose Sample.laws.sig hjson h rfl⟩
  · refine checkExpiry_eq_none.mpr fun _ => ⟨rfl,?_⟩
    simp only [samplePipeline,sampleLocale,Option.getD_none]
    exact hskew
  · rw [checkSessionId,hpostmark]
    rfl
  · have hmac := verifySessionMAC_compose hjson h
    rw [hkey] at hmac
    exact checkSessionMac_eq_none.mpr ⟨List.replicate 32 13,rfl,by simp,hmac⟩
  · rfl
  · have hsuite : suiteNamed env.sealed.algorithm = some .x25519 := by
      rw [halgorithm]
      rfl
    refine openBriefOnly_of_open hsuite ?_ []
    exact openBriefForRecipient_compose Sample.laws hjson (List.nodup_singleton _) h
      (List.mem_singleton.mpr rfl) rfl

/-- A brief with these addresses in `to`. -/
def sampleBrief (sender : Members) (addresses : List Json) : Json :=
  .obj (sender++[(js "to",.arr addresses)])

theorem sample_stored {brief recipient : Json} {recipients : List Json} {env : Env}
    {entries : List BlockEntry}
    (hs : ((samplePipeline entries).screen Sample.crypto sampleLocale Sample.runtime env).run =
      .ok (.ok brief))
    (hrs : Recipients brief (recipient::recipients)) (hne : recipient ≠ .str [])
    (hblocked : (samplePipeline entries).blocked sampleLocale env brief 0 recipient = .ok none)
    (inbox : Inbox) : ∃ s ∈ ((samplePipeline entries).run Sample.crypto sampleLocale
      Sample.runtime env inbox).2.stores, s.position = 0 ∧ s.recipient = recipient := by
  obtain ⟨hchecks,hopen⟩ := screen_eq_ok.mp hs
  exact (stored_iff inbox).mpr ⟨brief,{
    checks := hchecks
    opened := hopen
    named := ⟨_,hrs,rfl,by omega⟩
    isLocal := rfl
    gate := rfl
    inbox := rfl
    address := hne },hblocked⟩

/-- The brief of a delivered envelope. -/
def plainBrief : Json := sampleBrief [] [.str (js "r@b")]

theorem sample_plain : ∃ env, env.postmark.fromDomain = js "a" ∧ ∀ entries,
    ((samplePipeline entries).screen Sample.crypto sampleLocale Sample.runtime env).run =
      .ok (.ok plainBrief) := by
  have hsame : plainBrief.norm.reparse = plainBrief := rfl
  have hwf : plainBrief.WF := Json.wf_of_keys [js "to"] rfl (by decide) (by simp [Json.WF])
  have hfin : plainBrief.Finite := by simp [plainBrief,sampleBrief,Json.Finite]
  simpa only [hsame] using sample_screen hwf hfin

theorem sampleAddress_ne : Json.str (js "r@b") ≠ .str [] :=
  fun h => absurd (Json.str.inj h) (by decide)

theorem plainBrief_recipients : Recipients plainBrief [.str (js "r@b")] :=
  ⟨_,[.str (js "r@b")],[],rfl,rfl,rfl,rfl⟩

/-- A delivered envelope passed every check. -/
theorem stored_passed_sample : ∃ env,
    ∃ s ∈ ((samplePipeline []).run Sample.crypto sampleLocale Sample.runtime env
      (Inbox.new 0)).2.stores, s.payload = encodeEnvelope env ∧
      ∃ brief, Passed Sample.crypto sampleLocale Sample.runtime (samplePipeline []) env brief
        s.position s.recipient := by
  obtain ⟨env,-,hs⟩ := sample_plain
  obtain ⟨s,hmem,-⟩ := sample_stored (hs []) plainBrief_recipients sampleAddress_ne rfl (Inbox.new 0)
  exact ⟨env,s,hmem,(stored_passed (samplePipeline_noSkips []) (Inbox.new 0)).1 s hmem⟩

/-- The domain that the seal was verified for. -/
def sampleBlock : BlockEntry :=
  ⟨⟨js "domain",none,some (js "a"),none⟩,.rejected,none,some (js "all"),none⟩

theorem sample_domainBlock {env : Env} (h : env.postmark.fromDomain = js "a") (recipient : Json) :
    DomainBlock sampleLocale (samplePipeline [sampleBlock]) env 0 recipient ⟨[sampleBlock]⟩ where
  listed := ⟨_,rfl,rfl⟩
  entry := ⟨sampleBlock,List.mem_singleton.mpr rfl,rfl,rfl,rfl,by rw [h]; decide⟩

/-- A brief without a sender of its own is kept out. -/
theorem domainBlock_sample : ∃ env, ∀ s ∈ ((samplePipeline [sampleBlock]).run Sample.crypto
    sampleLocale Sample.runtime env (Inbox.new 0)).2.stores,
      ¬ (s.position = 0 ∧ s.recipient = .str (js "r@b")) := by
  obtain ⟨env,hdomain,hs⟩ := sample_plain
  refine ⟨env,(domainBlock_holds_iff (sample_domainBlock hdomain _) (Inbox.new 0)).mpr ?_⟩
  rintro ⟨brief,hc,ms,address,rfl,hfrom,-⟩
  obtain ⟨-,hopen⟩ := screen_eq_ok.mp (hs [sampleBlock])
  cases hopen.symm.trans hc.opened
  cases hfrom

/-- A sender that names another domain in its brief gets past the block of its own. -/
theorem not_domainBlock : ¬ ∀ (C : Crypto) (lc : Locale) (rt : Runtime) (p : Pipeline) (env : Env)
    (inbox : Inbox) (i : ℕ) (recipient : Json) (list : BlockList), Laws C → NoSkips p.cfg →
      DomainBlock lc p env i recipient list →
      ∀ s ∈ (p.run C lc rt env inbox).2.stores, ¬ (s.position = i ∧ s.recipient = recipient) := by
  intro hall
  let brief := sampleBrief [(js "from",.str (js "x@c"))] [.str (js "r@b")]
  have hwf : brief.WF := Json.wf_of_keys [js "from",js "to"] rfl (by decide) (by simp [Json.WF])
  have hfin : brief.Finite := by simp [brief,sampleBrief,Json.Finite]
  obtain ⟨env,hdomain,hs⟩ := sample_screen hwf hfin
  have hrs : Recipients brief.norm.reparse [.str (js "r@b")] :=
    ⟨_,[.str (js "r@b")],[],rfl,rfl,rfl,rfl⟩
  have hblock := sample_domainBlock hdomain (.str (js "r@b"))
  have hevades : Evades sampleLocale (samplePipeline [sampleBlock]) brief.norm.reparse 0
      ⟨[sampleBlock]⟩ := by
    refine ⟨_,js "x@c",rfl,rfl,fun e he happlies => ?_⟩
    obtain rfl := List.mem_singleton.mp he
    exact absurd happlies.2.2 (by decide)
  obtain ⟨s,hmem,hpos⟩ := sample_stored (hs [sampleBlock]) hrs sampleAddress_ne
    ((hblock.blocked_iff ⟨_,hrs⟩).mpr hevades) (Inbox.new 0)
  exact hall _ _ _ _ env _ 0 _ _ Sample.laws (samplePipeline_noSkips _) hblock s hmem hpos

theorem samplePipeline_quiet (entries : List BlockEntry) : Quiet (samplePipeline entries).cfg where
  envMAC := by
    rintro _ ⟨⟩
    exact ⟨_,rfl⟩
  domainKeys := by
    rintro _ ⟨⟩ _
    exact ⟨_,rfl⟩
  sessionRetired := nofun
  domainPolicy := nofun
  recipientPolicy := nofun
  blockList := by
    rintro _ ⟨⟩ _ _
    exact ⟨_,rfl⟩
  isLocal _ _ := ⟨true,rfl⟩
  logger := nofun

/-- A call for a recipient with an address returns. -/
theorem process_returns_sample : ∃ env result, ((samplePipeline []).run Sample.crypto sampleLocale
    Sample.runtime env (Inbox.new 0)).1 = .ok result := by
  obtain ⟨env,-,hs⟩ := sample_plain
  refine ⟨env,(process_returns_iff (samplePipeline_quiet []) (Inbox.new 0)).mpr ?_⟩
  intro _ brief hopen
  obtain ⟨-,hplain⟩ := screen_eq_ok.mp (hs [])
  cases hplain.symm.trans hopen
  refine ⟨⟨nofun,fun _ _ _ _ => ⟨_,plainBrief_recipients⟩⟩,fun recipients hrs i r hr _ _ => ?_⟩
  obtain rfl := recipients_unique plainBrief_recipients hrs
  obtain rfl : .str (js "r@b") = r := List.mem_singleton.mp (List.mem_of_getElem? hr) |>.symm
  refine ⟨fun _ ms v heq hv => ?_,fun _ h => absurd h sampleAddress_ne⟩
  cases heq
  cases hv

/-- An empty second address throws, once the envelope is in the inbox of the first one. -/
theorem throws_after_store : ∃ env brief, Quiet (samplePipeline []).cfg ∧
    openBriefOnly Sample.crypto Sample.runtime env (samplePipeline []).cfg.briefRecipients =
      .ok brief ∧
    (¬ ∃ result, ((samplePipeline []).run Sample.crypto sampleLocale Sample.runtime env
      (Inbox.new 0)).1 = .ok result) ∧
    ∃ s ∈ ((samplePipeline []).run Sample.crypto sampleLocale Sample.runtime env
      (Inbox.new 0)).2.stores, s.recipient = .str (js "r@b") := by
  let brief := sampleBrief [] [.str (js "r@b"),.str []]
  have hwf : brief.WF := Json.wf_of_keys [js "to"] rfl (by decide) (by simp [Json.WF])
  have hfin : brief.Finite := by simp [brief,sampleBrief,Json.Finite]
  obtain ⟨env,-,hs⟩ := sample_screen hwf hfin
  have hrs : Recipients brief.norm.reparse [.str (js "r@b"),.str []] :=
    ⟨_,[.str (js "r@b"),.str []],[],rfl,rfl,rfl,rfl⟩
  have hquiet := samplePipeline_quiet []
  obtain ⟨s,hmem,-,hrecipient⟩ := sample_stored (hs []) hrs sampleAddress_ne rfl (Inbox.new 0)
  refine ⟨env,brief.norm.reparse,hquiet,(screen_eq_ok.mp (hs [])).2,?_,s,hmem,hrecipient⟩
  rw [run_returns hquiet.screen_answers]
  intro hall
  obtain ⟨-,hnone⟩ := hall _ (hs [])
  exact hnone _ hrs 1 (.str []) rfl (.inr ⟨rfl,rfl,rfl⟩)

end Sample

end Pipeline
end Semp
