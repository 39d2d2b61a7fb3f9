import Semp.Blocklist
import Semp.Envelope
import Semp.HandshakeServer

/-! The receive pipeline: the checks of an envelope in their order, the opening of its
brief, and the delivery to each recipient that the brief names.  The brief is whatever JSON
the sender sealed. -/
namespace Semp

def defaultMaxQueueDepth : ℕ := 10000

/-- The queues by address, in insertion order.  An address that no type check saw can be any
JSON value. -/
structure Inbox where
  queues : List (Json × List Bytes)
  maxDepth : ℕ

namespace Inbox

def new (maxDepth : ℤ) : Inbox where
  queues := []
  maxDepth := if maxDepth ≤ 0 then defaultMaxQueueDepth else maxDepth.toNat

/-- The keys of a `Map` are compared as `===` does, but for NaN, which no JSON has. -/
def sameKey (a b : Json) : Bool := strictEq (some a) (some b)

def append (maxDepth : ℕ) (list : List Bytes) (payload : Bytes) : List Bytes :=
  (if maxDepth ≤ list.length then list.tail else list)++[payload]

def store (inbox : Inbox) (address : Json) (payload : Bytes) : Js Inbox :=
  if isStr (some address) [] then raise (js "delivery: inbox.store empty address")
  else if inbox.queues.any (sameKey address ·.1) then
    let queues := inbox.queues.map fun q =>
      if sameKey address q.1 then (q.1,append inbox.maxDepth q.2 payload) else q
    .ok { inbox with queues }
  else .ok { inbox with queues := inbox.queues++[(address,[payload])] }

end Inbox

/-- `{ ack: "delivered" }`, or another `ack` with its reasons. -/
inductive Verdict
  | delivered
  | refused (ack : Acknowledgment) (reasonCode : JsString) (reason : Option JsString)
  deriving DecidableEq, Repr

structure RecipientCandidate where
  keyId : JsString
  privateKey : Bytes
  publicKey : Bytes
  deriving DecidableEq, Repr

/-- A hook called for each recipient is told its position, so that it may answer two calls
with one argument differently. -/
structure PipelineConfig where
  envMAC : Option (Js Bytes)
  domainKeys : Option (JsString → Js (Option Bytes))
  sessionRetired : Option (JsString → Js Bool)
  skipSignatureCheck : Bool
  skipSessionMACCheck : Bool
  skipExpiryCheck : Bool
  skipSessionIDCheck : Bool
  briefRecipients : List RecipientCandidate
  domainPolicy : Option (JsString → JsString → Js Verdict)
  recipientPolicy : Option (ℕ → Json → Js Verdict)
  blockList : Option (ℕ → Json → Js (Option BlockList))
  isLocal : ℕ → Json → Js Bool
  /-- Whether an inbox was given. -/
  inbox : Bool
  logger : Option (JsString → Js Unit)
  now : JsDate
  /-- The clock that the block list is matched at. -/
  wallClock : ℕ → JsDate
  clockSkewMs : Option Number

structure Pipeline where
  cfg : PipelineConfig
  briefRecipients : cfg.briefRecipients ≠ []

structure PipelineRejection where
  reasonCode : JsString
  reason : JsString
  silent : Option Bool
  deriving DecidableEq, Repr

structure SubmissionResult where
  recipient : Json
  status : Acknowledgment
  reason_code : Option JsString
  reason : Option JsString

structure PipelineResult where
  envelopeId : JsString
  brief : Option Json
  results : List SubmissionResult
  rejection : Option PipelineRejection

namespace Pipeline
open Envelope

def new (cfg : PipelineConfig) : Js Pipeline :=
  if h : cfg.briefRecipients = [] then raise (js "delivery: pipeline missing briefRecipients")
  else .ok ⟨cfg,h⟩

/-- A call of the inbox's `store`; the source keeps no record of them. -/
structure Stored where
  position : ℕ
  recipient : Json
  payload : Bytes

structure Fields where
  inbox : Inbox
  stores : List Stored

/-- What a step of the checks gives: nothing, or the rejection of the envelope. -/
abbrev Screen := ExceptT PipelineRejection Js

section Code
variable (C : Crypto) (lc : Locale) (rt : Runtime) (p : Pipeline)

def log (line : JsString) : Js Unit :=
  match p.cfg.logger with
  | none => .ok ()
  | some logger => logger (js "pipeline "++line)

/-- What a `try` around a check makes of it: what it throws is a reason to reject. -/
def attempt (reasonCode : String) (failed : JsString) (check : Js Bool) :
    Option PipelineRejection :=
  match check with
  | .ok true => none
  | .ok false => some ⟨js reasonCode,failed,none⟩
  | .error e => some ⟨js reasonCode,Handshake.thrownText rt e,none⟩

def verifySignature (env : Env) : Js (Option PipelineRejection) :=
  match p.cfg.domainKeys with
  | none => .ok (some ⟨js "seal_invalid",
      js "pipeline missing domainKeys lookup; cannot verify seal.signature",none⟩)
  | some domainKeys => do
    match ← domainKeys env.postmark.fromDomain with
    | none | some [] => .ok (some ⟨js "seal_invalid",
        js "no domain key on file for "++env.postmark.fromDomain,none⟩)
    | some pub => .ok (attempt rt "seal_invalid" (js "seal.signature did not verify")
        (verifySealSignature C env pub))

def defaultClockSkewMs : Number := .ofNat (15*60*1000)

def checkExpiry (env : Env) : Option PipelineRejection :=
  if env.postmark.expires = [] then none
  else
    let expiryMs := lc.dateParse env.postmark.expires
    if expiryMs.isNaN then
      some ⟨js "envelope_expired",
        js "postmark.expires "++env.postmark.expires++js " is not ISO 8601",none⟩
    else if (p.cfg.clockSkewMs.getD defaultClockSkewMs).lt (p.cfg.now.getTime.sub expiryMs) then
      some ⟨js "envelope_expired",js "postmark.expires "++env.postmark.expires
        ++js " is outside the clock-skew tolerance",none⟩
    else none

def checkSessionId (env : Env) : Js (Option PipelineRejection) :=
  if trim env.postmark.sessionId = [] then
    .ok (some ⟨js "no_session",js "postmark.session_id is empty",none⟩)
  else
    match p.cfg.sessionRetired with
    | none => .ok none
    | some sessionRetired =>
      match sessionRetired env.postmark.sessionId with
      | .error e => do
        -- A lookup that fails lets the envelope pass.
        p.log (js "session retired lookup error for "++env.postmark.sessionId++js ": "
          ++Handshake.thrownText rt e)
        .ok none
      | .ok true => .ok (some ⟨js "handshake_invalid",
          js "session_id "++env.postmark.sessionId++js " is retired",none⟩)
      | .ok false => .ok none

def checkSessionMac (env : Env) : Js (Option PipelineRejection) :=
  match p.cfg.envMAC with
  | none => .ok (some ⟨js "session_mac_invalid",
      js "pipeline missing envMAC source; cannot verify seal.session_mac",none⟩)
  | some envMAC => do
    let mac ← envMAC
    if mac = [] then
      .ok (some ⟨js "session_mac_invalid",
        js "empty K_env_mac; cannot verify seal.session_mac",none⟩)
    else .ok (attempt rt "session_mac_invalid" (js "seal.session_mac did not verify")
      (verifySessionMAC C env mac))

def checkDomainPolicy (env : Env) : Js (Option PipelineRejection) :=
  match p.cfg.domainPolicy with
  | none => .ok none
  | some domainPolicy => do
    match ← domainPolicy env.postmark.fromDomain [] with
    | .delivered => .ok none
    | .refused ack reasonCode reason => .ok (some ⟨reasonCode,
        reason.getD (js "domain policy rejected envelope"),some (ack == .silent)⟩)

/-- The suite that an algorithm names. -/
def suiteNamed (algorithm : JsString) : Option Suite :=
  if algorithm = Suite.x25519.name then some .x25519
  else if algorithm = Suite.pq.name then some .pq
  else none

def openWith (suite : Suite) (env : Env) (c : RecipientCandidate) (wrapped : JsString) : Js Json := do
  let kBrief ← Seal.unwrap C suite c.privateKey c.publicKey wrapped
  let briefBlob := Base64.decode env.brief
  if briefBlob.length < 12 then raise (js "brief blob too short")
  else do
    let briefPT ← aeadOpen C .chacha20poly1305 kBrief (briefBlob.take 12) (briefBlob.drop 12)
      (utf8 env.postmark.id)
    parseJson (Utf8.textDecode briefPT)

/-- The loop of `openBriefOnly` from the next candidate on. -/
def tryCandidates (suite : Suite) (env : Env) : List RecipientCandidate → List JsString → Js Json
  | [], [] => raise (js "envelope: openBriefOnly: no candidate matches a brief recipient slot")
  | [], errors => raise (js "envelope: openBriefOnly: every candidate failed: "
      ++(js "; ").intercalate errors)
  | c::candidates, errors =>
    match lookup env.sealed.briefRecipients c.keyId with
    | none => tryCandidates suite env candidates errors
    | some wrapped =>
      match openWith C suite env c wrapped with
      | .ok v => .ok v
      | .error e => tryCandidates suite env candidates
          (errors++[c.keyId++js ": "++Handshake.thrownText rt e])

def openBriefOnly (env : Env) (candidates : List RecipientCandidate) : Js Json :=
  if candidates = [] then raise (js "envelope: openBriefOnly: empty candidate list")
  else
    match suiteNamed env.sealed.algorithm with
    | none => raise (js "envelope: openBriefOnly: unknown seal.algorithm "++env.sealed.algorithm)
    | some suite => tryCandidates C rt suite env candidates []

/-- A step that may be skipped; a rejection is logged. -/
def step (name : String) (skip : Bool) (check : Js (Option PipelineRejection)) : Screen Unit :=
  if skip then pure () else
    ExceptT.mk do
      match ← check with
      | none => .ok (.ok ())
      | some rejection =>
        p.log (js name++js " reject: "++rejection.reasonCode)
        .ok (.error rejection)

/-- Steps 1 to 5. -/
def checkAll (env : Env) : Screen Unit := do
  p.step "step1" p.cfg.skipSignatureCheck (p.verifySignature C rt env)
  p.step "step2" p.cfg.skipExpiryCheck (.ok (p.checkExpiry lc env))
  p.step "step3" p.cfg.skipSessionIDCheck (p.checkSessionId rt env)
  p.step "step4" p.cfg.skipSessionMACCheck (p.checkSessionMac C rt env)
  p.step "step5" false (p.checkDomainPolicy env)

/-- Steps 1 to 7: the brief, or the rejection of the envelope. -/
def screen (env : Env) : Screen Json := do
  p.checkAll C lc rt env
  ExceptT.mk do
    match openBriefOnly C rt env p.cfg.briefRecipients with
    | .ok brief => .ok (.ok brief)
    | .error e =>
      p.log (js "step6/7 reject: "++Handshake.thrownText rt e)
      .ok (.error ⟨js "seal_invalid",Handshake.thrownText rt e,none⟩)

/-- `address.split("@")[1] ?? ""` -/
def addressDomain (address : JsString) : JsString := (List.splitOn 64 address)[1]?.getD []

/-- The sender as the block list sees it: `brief.from`, which is split as if it were a
string, and without it the domain of the postmark. -/
def blockListSender (env : Env) (brief : Json) : Js BlockListSender := do
  match ← getProp (some brief) (js "from") with
  | none => .ok ⟨some [],some env.postmark.fromDomain,none,none⟩
  | some (.str address) => .ok ⟨some address,some (addressDomain address),none,none⟩
  | some _ => raiseType

/-- Step 8b of `deliverOne`. -/
def blocked (env : Env) (brief : Json) (i : ℕ) (recipient : Json) : Js (Option BlockEntry) :=
  match p.cfg.blockList with
  | none => .ok none
  | some lookupList => do
    let sender ← blockListSender env brief
    let list ← lookupList i recipient
    .ok (Blocklist.matchBlockList lc list sender (p.cfg.wallClock i))

/-- Step 8a of `deliverOne`. -/
def gate (i : ℕ) (recipient : Json) : Js Verdict :=
  match p.cfg.recipientPolicy with
  | none => .ok .delivered
  | some recipientPolicy => recipientPolicy i recipient

/-- `deliverOne` up to step 9: the result of a recipient that is not delivered to. -/
def refusal (env : Env) (brief : Json) (i : ℕ) (recipient : Json) :
    Js (Option SubmissionResult) := do
  if !(← p.cfg.isLocal i recipient) then
    return some ⟨recipient,.rejected,some (js "recipient_not_found"),
      some (js "recipient is not local; caller forwards via federation")⟩
  match ← p.gate i recipient with
  | .refused ack reasonCode reason => return some ⟨recipient,ack,some reasonCode,reason⟩
  | .delivered =>
    match ← p.blocked lc env brief i recipient with
    | some matched =>
      return some ⟨recipient,matched.acknowledgment,some (js "blocked_recipient"),matched.reason⟩
    | none => return none

/-- Step 9. -/
def store (wire : Bytes) (i : ℕ) (recipient : Json) : Method Thrown Fields Unit := do
  if p.cfg.inbox then
    let f ← get
    let inbox ← f.inbox.store recipient wire
    set (⟨inbox,f.stores++[⟨i,recipient,wire⟩]⟩ : Fields)

def deliverOne (env : Env) (brief : Json) (wire : Bytes) (i : ℕ) (recipient : Json) :
    Method Thrown Fields SubmissionResult := do
  match ← p.refusal lc env brief i recipient with
  | some result => return result
  | none =>
    p.store wire i recipient
    return ⟨recipient,.delivered,none,none⟩

/-- The loop over the recipients, from position `i` on. -/
def deliverAll (env : Env) (brief : Json) (wire : Bytes) :
    ℕ → List Json → Method Thrown Fields (List SubmissionResult)
  | _, [] => return []
  | i, recipient::recipients => do
    let result ← p.deliverOne lc env brief wire i recipient
    let results ← deliverAll env brief wire (i+1) recipients
    return result::results

def encodeEnvelope (env : Env) : Bytes := utf8 (JsonText.stringify env.toJson)

/-- `[...brief.to, ...(brief.cc ?? [])]` -/
def recipientsOf (brief : Json) (addresses : List Json) : Js (List Json) := do
  let cc ← getProp (some brief) (js "cc")
  let copies ← iterate (orElse cc (.arr []))
  .ok (addresses++copies)

/-- `process` once the brief is open. -/
def deliver (env : Env) (brief : Json) : Method Thrown Fields PipelineResult := do
  match ← getProp (some brief) (js "to") with
  | some (.arr addresses) =>
    let wire := encodeEnvelope env
    let recipients ← recipientsOf brief addresses
    let results ← p.deliverAll lc env brief wire 0 recipients
    return ⟨env.postmark.id,some brief,results,none⟩
  | _ => return ⟨env.postmark.id,none,[],some ⟨js "brief_invalid",
      js "brief.to is missing or not an array",none⟩⟩

def process (env : Env) : Method Thrown Fields PipelineResult := do
  match ← (p.screen C lc rt env).run with
  | .error rejection => return ⟨env.postmark.id,none,[],some rejection⟩
  | .ok brief => p.deliver lc env brief

/-- A call of `process` with this inbox. -/
def run (env : Env) (inbox : Inbox) : Js PipelineResult × Fields :=
  (p.process C lc rt env).call ⟨inbox,[]⟩

end Code

/-! What each part of a call does. -/
section Spec
variable {C : Crypto} {lc : Locale} {rt : Runtime} {p : Pipeline} {env : Env} {brief : Json}

/-- What follows a step that passes. -/
theorem step_bind {β : Type} {x : Screen Unit} {f : Unit → Screen β} {b : β} :
    (x >>= f).run = .ok (.ok b) ↔ x.run = .ok (.ok ()) ∧ (f ()).run = .ok (.ok b) := by
  rw [ExceptT.run_bind,bind_eq_ok]
  constructor
  · rintro ⟨_ | _,hx,hf⟩
    · cases hf
    · exact ⟨hx,hf⟩
  · rintro ⟨hx,hf⟩
    exact ⟨.ok (),hx,hf⟩

theorem step_eq_ok {name : String} {skip : Bool} {check : Js (Option PipelineRejection)} :
    (p.step name skip check).run = .ok (.ok ()) ↔ skip = true ∨ check = .ok none := by
  cases skip with
  | true => simp [step]; rfl
  | false =>
    simp only [step,Bool.false_eq_true,false_or,if_false]
    change (do
      match ← check with
      | none => (.ok (.ok ()) : Js (Except PipelineRejection Unit))
      | some rejection =>
        p.log (js name++js " reject: "++rejection.reasonCode)
        .ok (.error rejection)) = _ ↔ _
    rw [bind_eq_ok]
    constructor
    · rintro ⟨_ | rejection,hc,h⟩
      · exact hc
      · obtain ⟨-,-,h⟩ := bind_eq_ok.mp h
        cases h
    · exact fun h => ⟨none,h,rfl⟩

theorem checkAll_eq_ok : (p.checkAll C lc rt env).run = .ok (.ok ()) ↔
    (p.cfg.skipSignatureCheck = true ∨ p.verifySignature C rt env = .ok none) ∧
    (p.cfg.skipExpiryCheck = true ∨ p.checkExpiry lc env = none) ∧
    (p.cfg.skipSessionIDCheck = true ∨ p.checkSessionId rt env = .ok none) ∧
    (p.cfg.skipSessionMACCheck = true ∨ p.checkSessionMac C rt env = .ok none) ∧
    p.checkDomainPolicy env = .ok none := by
  simp only [checkAll,step_bind,step_eq_ok,Bool.false_eq_true,false_or,Except.ok.injEq]

theorem screen_eq_ok : (p.screen C lc rt env).run = .ok (.ok brief) ↔
    (p.checkAll C lc rt env).run = .ok (.ok ()) ∧
      openBriefOnly C rt env p.cfg.briefRecipients = .ok brief := by
  rw [screen,step_bind]
  constructor
  · rintro ⟨h,hb⟩
    refine ⟨h,?_⟩
    cases hopen : openBriefOnly C rt env p.cfg.briefRecipients with
    | ok v =>
      rw [hopen] at hb
      cases hb
      rfl
    | error e =>
      rw [hopen] at hb
      obtain ⟨-,-,hb⟩ := bind_eq_ok.mp hb
      cases hb
  · rintro ⟨h,hb⟩
    refine ⟨h,?_⟩
    rw [hb]
    rfl

/-- The first candidate is enough when it opens the brief. -/
theorem openBriefOnly_of_open {c : RecipientCandidate} {suite : Suite}
    (hs : suiteNamed env.sealed.algorithm = some suite)
    (h : openBriefForRecipient C ⟨suite,env,c.keyId,c.privateKey,c.publicKey⟩ = .ok brief)
    (cs : List RecipientCandidate) : openBriefOnly C rt env (c::cs) = .ok brief := by
  rw [openBriefForRecipient,openSlot] at h
  rw [openBriefOnly,if_neg (List.cons_ne_nil _ _),hs]
  simp only [tryCandidates]
  cases hl : lookup env.sealed.briefRecipients c.keyId with
  | none =>
    rw [hl] at h
    cases h
  | some wrapped =>
    have hopen : openWith C suite env c wrapped = .ok brief := by
      simp only [hl,bind_eq_ok] at h
      obtain ⟨key,hkey,h⟩ := h
      rw [openWith,hkey,ok_bind]
      simp only
      split at h
      · cases h
      · next hlen => rwa [if_neg hlen]
    simp only [hopen]

theorem attempt_eq_none {reasonCode : String} {failed : JsString} {check : Js Bool} :
    attempt rt reasonCode failed check = none ↔ check = .ok true := by
  unfold attempt
  split <;> simp

theorem verifySignature_eq_none : p.verifySignature C rt env = .ok none ↔
    ∃ domainKeys pub, p.cfg.domainKeys = some domainKeys ∧
      domainKeys env.postmark.fromDomain = .ok (some pub) ∧ pub ≠ [] ∧
      verifySealSignature C env pub = .ok true := by
  unfold verifySignature
  cases hd : p.cfg.domainKeys with
  | none => simp
  | some domainKeys =>
    simp only [bind_eq_ok,Option.some.injEq,exists_and_left,exists_eq_left']
    constructor
    · rintro ⟨_ | _ | ⟨b,bs⟩,hpub,h⟩
      · cases h
      · cases h
      · exact ⟨b::bs,hpub,nofun,attempt_eq_none.mp (Except.ok.inj h)⟩
    · rintro ⟨_ | ⟨b,bs⟩,hpub,hne,h⟩
      · exact absurd rfl hne
      · exact ⟨_,hpub,by simp [attempt_eq_none,h]⟩

theorem checkExpiry_eq_none : p.checkExpiry lc env = none ↔ env.postmark.expires ≠ [] →
    (lc.dateParse env.postmark.expires).isNaN = false ∧
      (p.cfg.clockSkewMs.getD defaultClockSkewMs).lt
        (p.cfg.now.getTime.sub (lc.dateParse env.postmark.expires)) = false := by
  unfold checkExpiry
  split
  · next h => simp [h]
  · next h =>
    simp only [ne_eq,h,not_false_eq_true,forall_const]
    split
    · next hnan => simp [hnan]
    split
    · next hnan hlt => simp [hlt]
    · next hnan hlt => simp [hnan,hlt]

/-- A session id that passes is not blank, and the hook did not call it retired. -/
theorem checkSessionId_none (h : p.checkSessionId rt env = .ok none) :
    trim env.postmark.sessionId ≠ [] ∧ ∀ sessionRetired, p.cfg.sessionRetired = some sessionRetired →
      sessionRetired env.postmark.sessionId ≠ .ok true := by
  unfold checkSessionId at h
  split at h
  · cases h
  · next hne =>
    refine ⟨hne,fun sessionRetired hs hretired => ?_⟩
    simp [hs,hretired] at h

theorem checkSessionMac_eq_none : p.checkSessionMac C rt env = .ok none ↔
    ∃ mac, p.cfg.envMAC = some (.ok mac) ∧ mac ≠ [] ∧ verifySessionMAC C env mac = .ok true := by
  unfold checkSessionMac
  rcases hm : p.cfg.envMAC with _ | (_ | mac)
  · simp
  · simp
  · simp only [ok_bind]
    split
    · next h => simp [h]
    · next h => simp [h,attempt_eq_none]

theorem checkDomainPolicy_eq_none : p.checkDomainPolicy env = .ok none ↔
    ∀ domainPolicy, p.cfg.domainPolicy = some domainPolicy →
      domainPolicy env.postmark.fromDomain [] = .ok .delivered := by
  unfold checkDomainPolicy
  cases hd : p.cfg.domainPolicy with
  | none => simp
  | some domainPolicy =>
    simp only [Option.some.injEq,forall_eq']
    rcases domainPolicy env.postmark.fromDomain [] with _ | (_ | _) <;> simp

theorem gate_eq_delivered {i : ℕ} {recipient : Json} : p.gate i recipient = .ok .delivered ↔
    ∀ recipientPolicy, p.cfg.recipientPolicy = some recipientPolicy →
      recipientPolicy i recipient = .ok .delivered := by
  unfold gate
  cases p.cfg.recipientPolicy <;> simp

theorem blocked_eq_none {i : ℕ} {recipient : Json} :
    p.blocked lc env brief i recipient = .ok none ↔
      ∀ lookupList, p.cfg.blockList = some lookupList → ∃ sender list,
        blockListSender env brief = .ok sender ∧ lookupList i recipient = .ok list ∧
        ∀ l ∈ list, ∀ e ∈ l.entries, ¬ Blocklist.Applies lc sender (p.cfg.wallClock i) e := by
  unfold blocked
  cases p.cfg.blockList with
  | none => simp
  | some lookupList =>
    simp only [bind_eq_ok,Except.ok.injEq,Blocklist.matchBlockList_eq_none,Option.some.injEq,
      forall_eq',exists_and_left]

section Refusal
variable {i : ℕ} {recipient : Json}

theorem refusal_of_remote (h : p.cfg.isLocal i recipient = .ok false) :
    ∃ result, p.refusal lc env brief i recipient = .ok (some result) := by
  rw [refusal,h]
  exact ⟨_,rfl⟩

theorem refusal_of_refused (hlocal : p.cfg.isLocal i recipient = .ok true) {ack : Acknowledgment}
    {reasonCode : JsString} {reason : Option JsString}
    (hgate : p.gate i recipient = .ok (.refused ack reasonCode reason)) :
    ∃ result, p.refusal lc env brief i recipient = .ok (some result) := by
  rw [refusal,hlocal,ok_bind]
  simp only [hgate]
  exact ⟨_,rfl⟩

/-- Past the gate the block list decides. -/
theorem refusal_of_passed (hlocal : p.cfg.isLocal i recipient = .ok true)
    (hgate : p.gate i recipient = .ok .delivered) :
    p.refusal lc env brief i recipient = (p.blocked lc env brief i recipient).map fun matched =>
      matched.map fun e =>
        ⟨recipient,e.acknowledgment,some (js "blocked_recipient"),e.reason⟩ := by
  rw [refusal,hlocal,ok_bind]
  simp only [hgate]
  rcases p.blocked lc env brief i recipient with _ | _ | _ <;> rfl

theorem refusal_eq_none :
    p.refusal lc env brief i recipient = .ok none ↔ p.cfg.isLocal i recipient = .ok true ∧
      p.gate i recipient = .ok .delivered ∧ p.blocked lc env brief i recipient = .ok none := by
  constructor
  · intro h
    have hlocal : p.cfg.isLocal i recipient = .ok true := by
      obtain ⟨_ | _,hlocal,h⟩ := bind_eq_ok.mp h
      · cases h
      · exact hlocal
    have hgate : p.gate i recipient = .ok .delivered := by
      rw [refusal,hlocal,ok_bind] at h
      obtain ⟨_ | _,hgate,h⟩ := bind_eq_ok.mp h
      · exact hgate
      · cases h
    refine ⟨hlocal,hgate,?_⟩
    rw [refusal_of_passed hlocal hgate] at h
    rcases hb : p.blocked lc env brief i recipient with _ | _ | _ <;> rw [hb] at h <;>
      first | rfl | cases h
  · rintro ⟨hlocal,hgate,hblocked⟩
    rw [refusal_of_passed hlocal hgate,hblocked]
    rfl

end Refusal

end Spec
end Pipeline
end Semp
