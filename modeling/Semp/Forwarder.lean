import Semp.Tasks
import Semp.JsMap
import Semp.Envelope
import Semp.FederationInitiator

/-! The federation forwarder: sessions are opened on demand, kept by peer domain and dropped
when a request fails.  What is awaited is settled by the environment, and every `await` is a
point where another call may go on. -/
namespace Semp
namespace Forwarder
open Handshake Tasks

/-- The resolver of endpoints, the lookup of peer keys and the dialer are awaited, so what they
give is in the environment of each step. -/
structure ForwarderConfig where
  localDomain : JsString
  localServerID : JsString
  localDomainSeed : Bytes
  capabilities : Option Capabilities
  suite : Option JsString
  policyAcceptor : Option (Option Json → Callback (Option JsString))

/-- What a call sends: an envelope, which is an object that calls may share, or a request for
keys. -/
inductive Request
  | envelope (i : ℕ)
  | keys (request : Json)

structure Job where
  peerDomain : JsString
  request : Request

structure CachedSession where
  transport : ℕ
  session : FederationInitiatorSession
  /-- `wireMu.locked` -/
  locked : Bool

/-- Sessions go by the order in which they were opened, requests by the one in which they were
sent. -/
inductive Event
  | opened (peerDomain : JsString) (s : ℕ) (session : FederationInitiatorSession) (now : ℤ)
  /-- A call was given the cached session. -/
  | found (s : ℕ) (now : ℤ)
  | sent (s n : ℕ) (request : Request) (wire : Bytes) (now : ℤ)
  /-- The peer has the request. -/
  | carried (s n : ℕ)
  /-- Request `n` got no answer; nothing more comes from a transport that is `broken`. -/
  | failed (s n : ℕ) (broken : Bool)
  /-- The call of request `n` was given the answer to request `answers`. -/
  | answered (s n answers : ℕ) (response : Js Members)
  /-- A request failed on the session `own`, and `dropped` was removed and closed. -/
  | dropped (own dropped : ℕ)

/-- What `connecting` holds: a promise for a peer, and what it settled with. -/
structure Connecting where
  peerDomain : JsString
  settled : Option (Js ℕ)

/-- The fields of the class, the objects they lead to, and what happened. -/
structure Fields where
  sessions : JsMap ℕ
  connecting : JsMap ℕ
  promises : List Connecting
  opened : List CachedSession
  transports : ℕ
  envelopes : ℕ → Members
  requests : ℕ
  log : List Event

/-- What the environment gives a step: the clock, the randomness and the results of what was
awaited. -/
structure Env where
  now : ℤ
  entropy : InitiatorEntropy
  endpoint : Js JsString
  peerPub : Js Bytes
  dialed : Js Unit
  sent : Js Unit
  /-- Whether a message whose sending fails may reach the peer. -/
  through : Bool
  received : Js (Option Bytes)
  /-- The request that a message received on a session answers. -/
  answers : ℕ

/-- What `openSession` awaits. -/
inductive Opening
  | endpoint
  | peerPub
  | dial (peerPub : Bytes)
  | initSent (transport : ℕ) (i : FederationInitiator)
  | response (transport : ℕ) (i : FederationInitiator)
  | confirmSent (transport : ℕ) (i : FederationInitiator)
  | accepted (transport : ℕ) (i : FederationInitiator)
  /-- `transport.close()` before the error is thrown on -/
  | closed (e : Thrown)

/-- What a call keeps over an `await`. -/
inductive Waiting
  /-- `openSession`, run by the call that found no session and no promise -/
  | opening (job : Job) (promise : ℕ) (o : Opening)
  /-- before the callback of `finally` -/
  | settling (job : Job) (promise : ℕ) (r : Js ℕ)
  | joining (job : Job) (promise : ℕ)
  /-- before a look at the flag of the wire -/
  | entering (job : Job) (s : ℕ)
  | sending (job : Job) (s n : ℕ)
  | receiving (job : Job) (s n : ℕ)
  /-- before `dropSession` -/
  | failing (job : Job) (s : ℕ) (e : Thrown)
  /-- `close`, before the next of the sessions -/
  | closing (rest : List ℕ)

inductive Call
  /-- `forward` or `fetchKeys` -/
  | request (job : Job)
  | close

inductive Returned
  | response (r : Members)
  | closed

abbrev Result := Stage Waiting (Js Returned)

abbrev World := Tasks.World Fields Call Waiting (Js Returned)

def Request.closedMessage : Request → JsString
  | .envelope _ => js "forwarder: connection closed waiting for federation response"
  | .keys _ => js "forwarder: connection closed waiting for SEMP_KEYS response"

def Request.notObjectMessage : Request → JsString
  | .envelope _ => js "forwarder: federation response is not a JSON object"
  | .keys _ => js "forwarder: SEMP_KEYS response is not a JSON object"

/-- The object with the member set; an `undefined` one is not part of its JSON text. -/
def putMember (ms : Members) (k : JsString) : Option Json → Members
  | some v => assign ms k v
  | none => ms.filter (·.1 ≠ k)

/-- `env[field][k] = v` -/
def assignIn (env : Members) (field k : JsString) (v : Option Json) : Js Members :=
  match lookup env field with
  | some (.obj ms) => .ok (assign env field (.obj (putMember ms k v)))
  | some (.arr _) => .ok env
  | _ => raiseType

/-- `encodeEnvelope` -/
def encodeEnvelope (env : Members) : Bytes := Utf8.textEncode (JsonText.stringify (.obj env))

def parseResponse (request : Request) (respBytes : Bytes) : Js Members := do
  let parsed ← parseJson (Utf8.textDecode respBytes)
  match parsed with
  | .obj ms => .ok ms
  | _ => raise request.notObjectMessage

namespace Fields

def initial (envelopes : ℕ → Members) : Fields := ⟨.empty,.empty,[],[],0,envelopes,0,[]⟩

/-- `fs.wireMu.locked = b` -/
def setLocked (f : Fields) (s : ℕ) (b : Bool) : Fields :=
  { f with opened := f.opened.modify s fun c => { c with locked := b } }

def record (f : Fields) (e : Event) : Fields := { f with log := f.log++[e] }

/-- `this.sessions.set(peerDomain, fs)` -/
def cache (f : Fields) (peerDomain : JsString) (transport : ℕ)
    (session : FederationInitiatorSession) (now : ℤ) : Fields :=
  { f with
    sessions := f.sessions.set peerDomain f.opened.length
    opened := f.opened++[⟨transport,session,false⟩]
    log := f.log++[.opened peerDomain f.opened.length session now] }

/-- `this.connecting.set(peerDomain, p)`, for a new promise -/
def connect (f : Fields) (job : Job) : Fields :=
  { f with
    connecting := f.connecting.set job.peerDomain f.promises.length
    promises := f.promises++[⟨job.peerDomain,none⟩] }

/-- The callback of `finally`, after which the promise has settled. -/
def settle (f : Fields) (peerDomain : JsString) (promise : ℕ) (r : Js ℕ) : Fields :=
  { f with
    connecting := f.connecting.delete peerDomain
    promises := f.promises.set promise ⟨peerDomain,some r⟩ }

/-- `dropSession` after a request on the session `own` failed -/
def dropSession (f : Fields) (peerDomain : JsString) (own : ℕ) : Fields :=
  match f.sessions.get peerDomain with
  | none => f
  | some s => { f with sessions := f.sessions.delete peerDomain }.record (.dropped own s)

end Fields

section Code
variable (C : Crypto) (rt : Runtime) (cfg : ForwarderConfig)

/-- The options of the initiator that `openSession` makes. -/
def initiatorConfig (peerDomain : JsString) (peerPub : Bytes) : FederationInitiatorConfig where
  suite := cfg.suite.getD (js "x25519-chacha20-poly1305")
  capabilities := cfg.capabilities.getD ⟨[js "x25519-chacha20-poly1305"],[]⟩
  localDomain := cfg.localDomain
  localServerID := cfg.localServerID
  localDomainSeed := cfg.localDomainSeed
  peerDomainPubLookup := fun d =>
    if d ≠ peerDomain then
      .error (js "forwarder: peer domain pub lookup for unknown domain "++d)
    else .ok peerPub
  peerDomain := peerDomain
  domainProof := ⟨.testTrust,cfg.localDomain⟩
  policyAcceptor := cfg.policyAcceptor
  initiatorEphemeralPriv := none
  initiatorNonce := none

/-- The envelope signed again for a session, and its bytes. -/
def resign (session : FederationInitiatorSession) : Method Thrown Members Bytes := do
  set (← assignIn (← get) (js "postmark") (js "session_id") session.sessionId)
  set (← assignIn (← get) (js "seal") (js "signature") (some (.str [])))
  set (← assignIn (← get) (js "seal") (js "session_mac") (some (.str [])))
  let canonical ← Envelope.canonicalEnvelopeFor (.obj (← get))
  let signature ← sign C cfg.localDomainSeed (utf8 Envelope.envelopePrefix++canonical)
  set (← assignIn (← get) (js "seal") (js "signature") (some (.str (Base64.encode signature))))
  let mac := computeMAC C session.keys.envMAC canonical
  set (← assignIn (← get) (js "seal") (js "session_mac") (some (.str (Base64.encode mac))))
  return encodeEnvelope (← get)

/-- The bytes of a request on a session. -/
def wireFor (f : Fields) (session : FederationInitiatorSession) : Request → Js Bytes × Fields
  | .keys request => (.ok (Utf8.textEncode (JsonText.stringify request)),f)
  | .envelope i =>
    let r := (resign C cfg session).call (f.envelopes i)
    (r.1,{ f with envelopes := Function.update f.envelopes i r.2 })

/-- A request on the session failed. -/
def fail (job : Job) (s : ℕ) (e : Thrown) (f : Fields) : Result × Fields :=
  (.awaiting (.failing job s e),f.setLocked s false)

/-- A look at the flag of the wire, and the request where it is free. -/
def enter (now : ℤ) (f : Fields) (job : Job) (s : ℕ) : Result × Fields :=
  match f.opened[s]? with
  | none => (.awaiting (.entering job s),f)
  | some c =>
    if c.locked then (.awaiting (.entering job s),f)
    else
      match wireFor C cfg (f.setLocked s true) c.session job.request with
      | (.error e,f) => fail job s e f
      | (.ok wire,f) =>
        (.awaiting (.sending job s f.requests),
          { f with requests := f.requests+1 }.record (.sent s f.requests job.request wire now))

/-- `openSession` from one `await` to the next. -/
def openSession (v : Env) (f : Fields) (job : Job) (p : ℕ) : Opening → Result × Fields
  | .endpoint =>
    match v.endpoint with
    | .error e => (.awaiting (.settling job p (.error e)),f)
    | .ok endpoint =>
      if endpoint = [] then
        (.awaiting (.settling job p (raise (
          js "delivery: endpointResolver returned empty URL for "++job.peerDomain))),f)
      else (.awaiting (.opening job p .peerPub),f)
  | .peerPub =>
    match v.peerPub with
    | .error e => (.awaiting (.settling job p (.error e)),f)
    | .ok peerPub =>
      if peerPub = [] then
        (.awaiting (.settling job p (raise (
          js "delivery: peerDomainKey returned empty key for "++job.peerDomain))),f)
      else (.awaiting (.opening job p (.dial peerPub)),f)
  | .dial peerPub =>
    match v.dialed with
    | .error e => (.awaiting (.settling job p (.error e)),f)
    | .ok () =>
      let dialed := { f with transports := f.transports+1 }
      match FederationInitiator.new C (initiatorConfig cfg job.peerDomain peerPub) with
      | .error e => (.awaiting (.settling job p (.error e)),dialed)
      | .ok i =>
        match (FederationInitiator.init C v.entropy).call i with
        | (.error e,_) => (.awaiting (.opening job p (.closed e)),dialed)
        | (.ok _,i) => (.awaiting (.opening job p (.initSent f.transports i)),dialed)
  | .initSent t i =>
    match v.sent with
    | .error e => (.awaiting (.opening job p (.closed e)),f)
    | .ok () => (.awaiting (.opening job p (.response t i)),f)
  | .response t i =>
    match v.received with
    | .error e => (.awaiting (.opening job p (.closed e)),f)
    | .ok none =>
      (.awaiting (.opening job p (.closed (.error (
        js "forwarder: connection closed waiting for response")))),f)
    | .ok (some respBytes) =>
      match (FederationInitiator.onResponse C rt respBytes).call i with
      | (.error e,_) => (.awaiting (.opening job p (.closed e)),f)
      | (.ok _,i) => (.awaiting (.opening job p (.confirmSent t i)),f)
  | .confirmSent t i =>
    match v.sent with
    | .error e => (.awaiting (.opening job p (.closed e)),f)
    | .ok () => (.awaiting (.opening job p (.accepted t i)),f)
  | .accepted t i =>
    match v.received with
    | .error e => (.awaiting (.opening job p (.closed e)),f)
    | .ok none =>
      (.awaiting (.opening job p (.closed (.error (
        js "forwarder: connection closed waiting for accepted")))),f)
    | .ok (some acceptedBytes) =>
      match ((do
        FederationInitiator.onAccepted C rt acceptedBytes
        FederationInitiator.session :
          Method Thrown FederationInitiator FederationInitiatorSession).call i).1 with
      | .error e => (.awaiting (.opening job p (.closed e)),f)
      | .ok session =>
        (.awaiting (.settling job p (.ok f.opened.length)),f.cache job.peerDomain t session v.now)
  | .closed e => (.awaiting (.settling job p (.error e)),f)

/-- The loop of `close` up to its next `await`. -/
def closeNext : List ℕ → Result
  | [] => .done (.ok .closed)
  | _::rest => .awaiting (.closing rest)

/-- A call up to its first `await`; `getSession` is the part of `forward` and `fetchKeys`. -/
def start (v : Env) (f : Fields) : Call → Result × Fields
  | .request job =>
    match f.sessions.get job.peerDomain with
    | some s => (.awaiting (.entering job s),f.record (.found s v.now))
    | none =>
      match f.connecting.get job.peerDomain with
      | some p => (.awaiting (.joining job p),f)
      | none =>
        (.awaiting (.opening job f.promises.length .endpoint),f.connect job)
  | .close => (closeNext f.sessions.values,{ f with sessions := .empty })

def resume (v : Env) (f : Fields) : Waiting → Result × Fields
  | .opening job p o => openSession C rt cfg v f job p o
  | .settling job p r => (.awaiting (.joining job p),f.settle job.peerDomain p r)
  | .joining job p =>
    match f.promises[p]? with
    | some ⟨_,some (.ok s)⟩ => enter C cfg v.now f job s
    | some ⟨_,some (.error e)⟩ => (.done (.error e),f)
    | _ => (.awaiting (.joining job p),f)
  | .entering job s => enter C cfg v.now f job s
  | .sending job s n =>
    match v.sent with
    | .error e => fail job s e (f.record (.failed s n v.through))
    | .ok () => (.awaiting (.receiving job s n),f.record (.carried s n))
  | .receiving job s n =>
    match v.received with
    | .error e => fail job s e (f.record (.failed s n true))
    | .ok none => fail job s (.error job.request.closedMessage) (f.record (.failed s n true))
    | .ok (some respBytes) =>
      let response := parseResponse job.request respBytes
      let f := f.record (.answered s n v.answers response)
      match response with
      | .error e => fail job s e f
      | .ok ms => (.done (.ok (.response ms)),f.setLocked s false)
  | .failing job s e => (.done (.error e),f.dropSession job.peerDomain s)
  | .closing rest => (closeNext rest,f)

def forwarder : Object Fields Call Waiting Env (Js Returned) where
  start c v f := start v f c
  resume t v f := resume C rt cfg v f t

end Code

def World.initial (envelopes : ℕ → Members) : World := ⟨.initial envelopes,[]⟩

/-- The envelopes as signing left them. -/
def Fields.withEnvelopes (f : Fields) (envelopes : ℕ → Members) : Fields :=
  { f with envelopes := envelopes }

def Fields.dial (f : Fields) (n : ℕ) : Fields := { f with transports := n }

/-- A request goes out on a wire that was free. -/
def Fields.send (f : Fields) (s : ℕ) (request : Request) (wire : Bytes) (now : ℤ) : Fields :=
  { f.setLocked s true with requests := f.requests+1 }.record (.sent s f.requests request wire now)

/-- The call has its session and goes to the wire. -/
def Entering (f : Fields) (t : Waiting) (job : Job) (s : ℕ) : Prop :=
  t = .entering job s ∨ ∃ p d, t = .joining job p ∧ f.promises[p]? = some ⟨d,some (.ok s)⟩

section Steps
variable {C : Crypto} {rt : Runtime} {cfg : ForwarderConfig} {f : Fields} {v : Env} {job : Job}
  {s : ℕ}

theorem setLocked_restores {c : CachedSession} (hc : f.opened[s]? = some c)
    (hfree : c.locked = false) : (f.setLocked s true).setLocked s false = f := by
  have h : (f.opened.modify s fun c => { c with locked := true }).modify s
      (fun c => { c with locked := false }) = f.opened := by
    refine List.ext_getElem? fun i => ?_
    rw [List.getElem?_modify,List.getElem?_modify]
    by_cases hi : s = i
    · subst hi
      rw [hc]
      cases c
      subst hfree
      simp
    · simp [hi]
  exact congrArg (fun o => { f with opened := o }) h

theorem wireFor_log (session : FederationInitiatorSession) (request : Request) :
    (wireFor C cfg f session request).2.log = f.log := by
  cases request <;> rfl

theorem wireFor_requests (session : FederationInitiatorSession) (request : Request) :
    (wireFor C cfg f session request).2.requests = f.requests := by
  cases request <;> rfl

theorem enter_cases {P : Result × Fields → Prop} (now : ℤ)
    (waits : (∀ c, f.opened[s]? = some c → c.locked = true) → P (.awaiting (.entering job s),f))
    (unsigned : ∀ c e, f.opened[s]? = some c → c.locked = false →
      (wireFor C cfg f c.session job.request).1 = .error e →
      P (.awaiting (.failing job s e),(wireFor C cfg f c.session job.request).2))
    (sends : ∀ c wire, f.opened[s]? = some c → c.locked = false →
      (wireFor C cfg f c.session job.request).1 = .ok wire →
      P (.awaiting (.sending job s f.requests),
        (wireFor C cfg f c.session job.request).2.send s job.request wire now)) :
    P (enter C cfg now f job s) := by
  rw [enter]
  split
  next hno => exact waits fun c hc => absurd (hno.symm.trans hc) (by simp)
  next c hc =>
    split_ifs with hl
    · refine waits fun c' hc' => ?_
      obtain rfl := Option.some.inj (hc.symm.trans hc')
      exact hl
    · have hfree := Bool.eq_false_of_not_eq_true hl
      have hwire : wireFor C cfg (f.setLocked s true) c.session job.request =
          ((wireFor C cfg f c.session job.request).1,
            (wireFor C cfg f c.session job.request).2.setLocked s true) := by
        cases job.request <;> rfl
      have hframe : (wireFor C cfg f c.session job.request).2.opened = f.opened ∧
          (wireFor C cfg f c.session job.request).2.requests = f.requests := by
        cases job.request <;> exact ⟨rfl,rfl⟩
      rw [hwire]
      cases hr : (wireFor C cfg f c.session job.request).1 with
      | error e =>
        dsimp only
        rw [fail,setLocked_restores (hframe.1 ▸ hc) hfree]
        exact unsigned c e hc hfree hr
      | ok wire =>
        have := sends c wire hc hfree hr
        rw [Fields.send,hframe.2] at this
        change P (.awaiting (.sending job s (wireFor C cfg f c.session job.request).2.requests),
          { (wireFor C cfg f c.session job.request).2.setLocked s true with
            requests := (wireFor C cfg f c.session job.request).2.requests+1 }.record
              (.sent s (wireFor C cfg f c.session job.request).2.requests job.request wire now))
        rw [hframe.2]
        exact this

theorem openSession_cases {P : Opening → Result × Fields → Prop} {p : ℕ} (o : Opening)
    (connects : ∀ o o' n, P o (.awaiting (.opening job p o'),f.dial n))
    (refuses : ∀ o e n, P o (.awaiting (.settling job p (.error e)),f.dial n))
    (opens : ∀ t i acceptedBytes session, v.received = .ok (some acceptedBytes) →
      FederationInitiator.takeAccepted C rt i acceptedBytes = .ok session →
      P (.accepted t i) (.awaiting (.settling job p (.ok f.opened.length)),
        f.cache job.peerDomain t session v.now)) :
    P o (openSession C rt cfg v f job p o) := by
  have connects' (o o' : Opening) : P o (.awaiting (.opening job p o'),f) :=
    connects o o' f.transports
  have refuses' (o : Opening) (e : Thrown) : P o (.awaiting (.settling job p (.error e)),f) :=
    refuses o e f.transports
  cases o with
  | endpoint =>
    rw [openSession]
    split
    · exact refuses' _ _
    · split_ifs
      · exact refuses' _ _
      · exact connects' _ _
  | peerPub =>
    rw [openSession]
    split
    · exact refuses' _ _
    · split_ifs
      · exact refuses' _ _
      · exact connects' _ _
  | dial peerPub =>
    rw [openSession]
    split
    · exact refuses' _ _
    · dsimp only
      split
      · exact refuses _ _ _
      · split
        · exact connects _ _ _
        · exact connects _ _ _
  | initSent t i =>
    rw [openSession]
    split <;> exact connects' _ _
  | response t i =>
    rw [openSession]
    split
    · exact connects' _ _
    · exact connects' _ _
    · split <;> exact connects' _ _
  | confirmSent t i =>
    rw [openSession]
    split <;> exact connects' _ _
  | accepted t i =>
    rw [openSession]
    split
    · exact connects' _ _
    · exact connects' _ _
    next bytes hreceived =>
      split
      · exact connects' _ _
      next session hsession =>
        refine opens t i bytes session hreceived ?_
        rw [Method.call_bind,FederationInitiator.onAccepted_call] at hsession
        cases ht : FederationInitiator.takeAccepted C rt i bytes with
        | error e =>
          rw [ht] at hsession
          cases hsession
        | ok r =>
          rw [ht] at hsession
          exact hsession
  | closed e => exact refuses' _ _

theorem start_cases {P : Call → Result × Fields → Prop} (c : Call)
    (finds : ∀ job s, f.sessions.get job.peerDomain = some s →
      P (.request job) (.awaiting (.entering job s),f.record (.found s v.now)))
    (joins : ∀ job p, f.sessions.get job.peerDomain = none →
      f.connecting.get job.peerDomain = some p →
      P (.request job) (.awaiting (.joining job p),f))
    (connects : ∀ job, f.sessions.get job.peerDomain = none →
      f.connecting.get job.peerDomain = none →
      P (.request job) (.awaiting (.opening job f.promises.length .endpoint),f.connect job))
    (closes : P .close (closeNext f.sessions.values,{ f with sessions := .empty })) :
    P c (start v f c) := by
  cases c with
  | request job =>
    rw [start]
    split
    next s hs => exact finds job s hs
    next hs =>
      split
      next p hp => exact joins job p hs hp
      next hp => exact connects job hs hp
  | close => exact closes

theorem resume_cases {P : Waiting → Result × Fields → Prop} (t : Waiting)
    (connects : ∀ job p o o' n, P (.opening job p o) (.awaiting (.opening job p o'),f.dial n))
    (refuses : ∀ job p o e n,
      P (.opening job p o) (.awaiting (.settling job p (.error e)),f.dial n))
    (opens : ∀ job p t i acceptedBytes session, v.received = .ok (some acceptedBytes) →
      FederationInitiator.takeAccepted C rt i acceptedBytes = .ok session →
      P (.opening job p (.accepted t i)) (.awaiting (.settling job p (.ok f.opened.length)),
        f.cache job.peerDomain t session v.now))
    (settles : ∀ job p r,
      P (.settling job p r) (.awaiting (.joining job p),f.settle job.peerDomain p r))
    (joins : ∀ job p, (∀ d s, f.promises[p]? ≠ some ⟨d,some (.ok s)⟩) →
      P (.joining job p) (.awaiting (.joining job p),f))
    (rejects : ∀ job p d e, f.promises[p]? = some ⟨d,some (.error e)⟩ →
      P (.joining job p) (.done (.error e),f))
    (waits : ∀ t job s, Entering f t job s → (∀ c, f.opened[s]? = some c → c.locked = true) →
      P t (.awaiting (.entering job s),f))
    (unsigned : ∀ t job s c e, Entering f t job s → f.opened[s]? = some c → c.locked = false →
      (wireFor C cfg f c.session job.request).1 = .error e →
      P t (.awaiting (.failing job s e),(wireFor C cfg f c.session job.request).2))
    (sends : ∀ t job s c wire, Entering f t job s → f.opened[s]? = some c → c.locked = false →
      (wireFor C cfg f c.session job.request).1 = .ok wire →
      P t (.awaiting (.sending job s f.requests),
        (wireFor C cfg f c.session job.request).2.send s job.request wire v.now))
    (unsent : ∀ job s n e, v.sent = .error e → P (.sending job s n)
      (fail job s e (f.record (.failed s n v.through))))
    (carries : ∀ job s n, v.sent = .ok () → P (.sending job s n)
      (.awaiting (.receiving job s n),f.record (.carried s n)))
    (loses : ∀ job s n e, P (.receiving job s n) (fail job s e (f.record (.failed s n true))))
    (rejectsAnswer : ∀ job s n respBytes e, v.received = .ok (some respBytes) →
      parseResponse job.request respBytes = .error e → P (.receiving job s n)
        (fail job s e (f.record (.answered s n v.answers (.error e)))))
    (answers : ∀ job s n respBytes ms, v.received = .ok (some respBytes) →
      parseResponse job.request respBytes = .ok ms → P (.receiving job s n)
        (.done (.ok (.response ms)),
          (f.record (.answered s n v.answers (.ok ms))).setLocked s false))
    (drops : ∀ job s e,
      P (.failing job s e) (.done (.error e),f.dropSession job.peerDomain s))
    (closes : ∀ rest, P (.closing rest) (closeNext rest,f)) :
    P t (resume C rt cfg v f t) := by
  cases t with
  | opening job p o =>
    exact openSession_cases (P := fun o r => P (.opening job p o) r) o (connects job p)
      (refuses job p) (opens job p)
  | settling job p r => exact settles job p r
  | joining job p =>
    rw [resume]
    split
    next d s hs =>
      have he : Entering f (.joining job p) job s := .inr ⟨p,d,rfl,hs⟩
      exact enter_cases v.now (waits _ job s he) (fun c e => unsigned _ job s c e he)
        fun c wire => sends _ job s c wire he
    next d e he => exact rejects job p d e he
    next hok _ => exact joins job p hok
  | entering job s =>
    have he : Entering f (.entering job s) job s := .inl rfl
    exact enter_cases v.now (waits _ job s he) (fun c e => unsigned _ job s c e he)
      fun c wire => sends _ job s c wire he
  | sending job s n =>
    rw [resume]
    split
    next e he => exact unsent job s n e he
    next he => exact carries job s n he
  | receiving job s n =>
    rw [resume]
    split
    · exact loses job s n _
    · exact loses job s n _
    next respBytes hbytes =>
      dsimp only
      split
      next e he => exact he ▸ rejectsAnswer job s n respBytes e hbytes he
      next ms hms => exact hms ▸ answers job s n respBytes ms hbytes hms
  | failing job s e => exact drops job s e
  | closing rest => exact closes rest

end Steps

end Forwarder
end Semp
