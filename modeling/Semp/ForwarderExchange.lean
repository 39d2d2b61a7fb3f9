import Semp.Locks
import Semp.History
import Semp.ForwarderExpiry
import Semp.ForwarderWire

/-! Exchanges of the forwarder: one handshake for each peer, one request on each session, and
the answer that each call is given. -/
namespace Semp
namespace Forwarder
open Handshake Tasks History

/-- A promise for the peer is in `connecting` as long as a call opens a session to it. -/
def peerLock : Lock Fields Waiting JsString Bool where
  holds
    | .opening job _ _ => some job.peerDomain
    | .settling job _ _ => some job.peerDomain
    | _ => none
  view f d := (f.connecting.get d).isSome
  idle b := b = false
  busy _ b := b = true

/-- What the fields say of the wire of a session: its flag, the request that is not answered
yet, and the requests the peer has still to answer, unless the transport is broken. -/
structure Wire where
  locked : Bool
  inFlight : Option ℕ
  pending : Option (List ℕ)

def Wire.next (s : ℕ) (x : Wire) : Event → Wire
  | .sent s' n _ _ _ => if s' = s then { x with inFlight := some n } else x
  | .carried s' n => if s' = s then { x with pending := x.pending.map (·++[n]) } else x
  | .failed s' _ broken =>
    if s' = s then ⟨x.locked,none,if broken then none else x.pending⟩ else x
  | .answered s' _ _ _ => if s' = s then ⟨x.locked,none,x.pending.map List.tail⟩ else x
  | _ => x

/-- What a log says of the wire, but for the flag. -/
def wireOf (s : ℕ) (log : List Event) : Wire := log.foldl (Wire.next s) ⟨false,none,some []⟩

def Fields.wire (f : Fields) (s : ℕ) : Wire :=
  { wireOf s f.log with locked := ((f.opened[s]?).map (·.locked)).getD false }

/-- No request is out, and the peer has answered what it has. -/
def Wire.Idle (x : Wire) : Prop :=
  x.locked = false ∧ x.inFlight = none ∧ (x.pending = none ∨ x.pending = some [])

/-- Request `n` is out, and the peer has to answer these. -/
def Wire.Busy (n : ℕ) (ns : List ℕ) (x : Wire) : Prop :=
  x.locked = true ∧ x.inFlight = some n ∧ (x.pending = none ∨ x.pending = some ns)

/-- The wire of a session, held from the sending of a request to its answer. -/
def wireLock : Lock Fields Waiting ℕ Wire where
  holds
    | .sending _ s _ => some s
    | .receiving _ s _ => some s
    | _ => none
  view := Fields.wire
  idle := Wire.Idle
  busy
    | .sending _ _ n => Wire.Busy n []
    | .receiving _ _ n => Wire.Busy n [n]
    | _ => fun _ => False

section Peers
variable {C : Crypto} {rt : Runtime} {cfg : ForwarderConfig} {f : Fields} {v : Env} {w : World}

theorem weight_closeNext (g : Waiting → ℕ) (hg : ∀ rest, g (.closing rest) = 0) (ss : List ℕ) :
    weight g (closeNext ss) = 0 := by
  cases ss with
  | nil => rfl
  | cons s rest => exact hg rest

theorem Entering.no_peer {t : Waiting} {job : Job} {s : ℕ} (he : Entering f t job s) {k : JsString} :
    peerLock.holds t ≠ some k := by
  obtain rfl | ⟨p,d,rfl,-⟩ := he <;> simp [peerLock]

theorem peers_start (h : peerLock.Safe w) (c : Call) :
    peerLock.Safe (w.started c (start v w.fields c)) := by
  refine h.started fun k => ?_
  refine start_cases (P := fun _ r => peerLock.Spares k w.fields r ∨
    total (peerLock.count k) w = 0 ∧ peerLock.Fits k r) c ?finds ?joins ?connects ?closes
  case finds =>
    intro job s _
    exact .inl ⟨rfl,rfl⟩
  case joins =>
    intro job p _ _
    exact .inl ⟨rfl,rfl⟩
  case connects =>
    intro job _ hno
    by_cases hk : k = job.peerDomain
    · subst hk
      have hview : peerLock.view (w.fields.connect job) job.peerDomain = true := by
        simp [peerLock,Fields.connect]
      refine .inr ⟨h.free fun _ hb => ?_,fun hw => ?_,fun _ => hview⟩
      · simp [peerLock,hno] at hb
      · simp [Lock.count,peerLock] at hw
    · refine .inl ⟨?_,?_⟩
      · simp [peerLock,Fields.connect,JsMap.get_set_ne hk]
      · rw [weight_awaiting,Lock.count_eq_zero]
        exact fun heq => hk (Option.some.inj heq).symm
  case closes => exact .inl ⟨rfl,weight_closeNext _ (fun _ => rfl) _⟩

theorem peers_resume (h : peerLock.Safe w) {i : ℕ} {c : Call} {t : Waiting}
    (hi : w.calls[i]? = some ⟨c,.awaiting t⟩) :
    peerLock.Safe (w.resumed i c (resume C rt cfg v w.fields t)) := by
  refine h.resumed hi fun k => ?_
  have hspared {t : Waiting} {r : Result × Fields} (ht : peerLock.holds t ≠ some k)
      (hview : r.2.connecting = w.fields.connecting) (hr : weight (peerLock.count k) r.1 = 0) :
      peerLock.Moves k (total (peerLock.count k) w = 0) t w.fields r :=
    .inl ⟨ht,congrArg (fun m : JsMap ℕ => (m.get k).isSome) hview,hr⟩
  have hbusy := h.busy i c t hi k
  revert hbusy
  refine resume_cases (P := fun t r =>
    (peerLock.holds t = some k → peerLock.busy t (peerLock.view w.fields k)) →
      peerLock.Moves k (total (peerLock.count k) w = 0) t w.fields r) t
    ?connects ?refuses ?opens ?settles ?joins ?rejects ?waits ?unsigned ?sends ?unsent ?carries
    ?loses ?rejectsAnswer ?answers ?drops ?closes
  case connects =>
    intro job p o o' n hbusy
    exact Lock.moves_of_kept rfl rfl hbusy
  case refuses =>
    intro job p o e n hbusy
    exact Lock.moves_of_kept rfl rfl hbusy
  case opens =>
    intro job p t i acceptedBytes session _ _ hbusy
    exact Lock.moves_of_kept rfl rfl hbusy
  case settles =>
    intro job p r _
    by_cases hk : k = job.peerDomain
    · subst hk
      refine .inr ⟨.inl rfl,fun _ => ?_,fun hheld => by cases hheld⟩
      simp [peerLock,Fields.settle]
    · refine .inl ⟨fun heq => hk (Option.some.inj heq).symm,?_,rfl⟩
      simp [peerLock,Fields.settle,JsMap.get_delete_ne hk]
  case joins =>
    intro job p _ _
    exact hspared (by simp [peerLock]) rfl rfl
  case rejects =>
    intro job p d e _ _
    exact hspared (by simp [peerLock]) rfl rfl
  case waits =>
    intro t job s he _ _
    exact hspared he.no_peer rfl rfl
  case unsigned =>
    intro t job s c e he _ _ _ _
    exact hspared he.no_peer (same_wireFor w.fields _ _).connecting rfl
  case sends =>
    intro t job s c wire he _ _ _ _
    exact hspared he.no_peer ((same_wireFor w.fields _ _).trans (same_send _ _ _ _ _)).connecting rfl
  case drops =>
    intro job s e _
    exact hspared (by simp [peerLock]) (same_dropSession w.fields _ s).connecting rfl
  case closes =>
    intro rest _
    exact hspared (by simp [peerLock]) rfl (weight_closeNext _ (fun _ => rfl) rest)
  all_goals
    intros
    exact hspared (by simp [peerLock]) rfl rfl

end Peers

section Wires
variable {C : Crypto} {rt : Runtime} {cfg : ForwarderConfig} {f : Fields} {v : Env} {w : World}
  {s k n : ℕ}

theorem wireOf_concat (s : ℕ) (log : List Event) (e : Event) :
    wireOf s (log++[e]) = (wireOf s log).next s e := by
  rw [wireOf,List.foldl_append]
  rfl

theorem next_locked (x : Wire) (b : Bool) (e : Event) :
    { x.next s e with locked := b } = ({ x with locked := b } : Wire).next s e := by
  cases e <;> simp only [Wire.next] <;> split_ifs <;> rfl

@[simp] theorem wire_record (f : Fields) (e : Event) (s : ℕ) :
    (f.record e).wire s = (f.wire s).next s e := by
  rw [Fields.wire,Fields.record,wireOf_concat,next_locked]
  rfl

theorem wire_setLocked_ne (h : k ≠ s) (b : Bool) : (f.setLocked s b).wire k = f.wire k := by
  simp [Fields.wire,Fields.setLocked,h.symm]

theorem wire_setLocked_self {c : CachedSession} (hc : f.opened[s]? = some c) (b : Bool) :
    (f.setLocked s b).wire s = { f.wire s with locked := b } := by
  simp [Fields.wire,Fields.setLocked,hc]

@[simp] theorem wire_unlocked (f : Fields) (s : ℕ) :
    (f.setLocked s false).wire s = { f.wire s with locked := false } := by
  cases hc : f.opened[s]? <;> simp [Fields.wire,Fields.setLocked,hc]

@[simp] theorem wire_cache (f : Fields) (d : JsString) (t : ℕ) (session : FederationInitiatorSession)
    (now : ℤ) (s : ℕ) : (f.cache d t session now).wire s = f.wire s := by
  have hlocked : (((f.cache d t session now).opened[s]?).map (·.locked)).getD false =
      ((f.opened[s]?).map (·.locked)).getD false := by
    rw [Fields.cache,List.getElem?_append]
    split_ifs with h
    · rfl
    · rw [List.getElem?_eq_none (Nat.le_of_not_lt h),List.getElem?_singleton]
      split_ifs <;> rfl
  rw [Fields.wire,hlocked,
    show (f.cache d t session now).log = f.log++[.opened d f.opened.length session now] from rfl,
    wireOf_concat]
  rfl

theorem wire_wireFor (session : FederationInitiatorSession) (request : Request) (s : ℕ) :
    (wireFor C cfg f session request).2.wire s = f.wire s := by
  cases request <;> rfl

theorem wire_send_ne (h : k ≠ s) (request : Request) (wire : Bytes) (now : ℤ) :
    (f.send s request wire now).wire k = f.wire k := by
  rw [Fields.send,wire_record]
  exact (if_neg h.symm).trans (wire_setLocked_ne h true)

theorem wire_send_self {c : CachedSession} (hc : f.opened[s]? = some c) (request : Request)
    (wire : Bytes) (now : ℤ) :
    (f.send s request wire now).wire s = ⟨true,some f.requests,(f.wire s).pending⟩ := by
  rw [Fields.send,wire_record]
  refine (if_pos rfl).trans ?_
  exact congrArg (fun x : Wire => { x with inFlight := some f.requests }) (wire_setLocked_self hc true)

theorem wire_dropSession (f : Fields) (d : JsString) (own s : ℕ) :
    (f.dropSession d own).wire s = f.wire s := by
  rw [Fields.dropSession]
  split
  · rfl
  · exact wire_record _ _ _

theorem wires_start (h : wireLock.Safe w) (c : Call) :
    wireLock.Safe (w.started c (start v w.fields c)) := by
  refine h.started fun k => .inl ?_
  refine start_cases (P := fun _ r => wireLock.Spares k w.fields r) c ?_ ?_ ?_ ?_
  · intro job s _
    exact ⟨wire_record _ _ _,rfl⟩
  · intro job p _ _
    exact ⟨rfl,rfl⟩
  · intro job _ _
    exact ⟨rfl,rfl⟩
  · exact ⟨rfl,weight_closeNext _ (fun _ => rfl) _⟩

theorem Entering.no_wire {t : Waiting} {job : Job} (he : Entering f t job s) :
    wireLock.holds t ≠ some k := by
  obtain rfl | ⟨p,d,rfl,-⟩ := he <;> simp [wireLock]

/-- No call holds a wire whose flag is not set. -/
theorem unheld_of_free (h : wireLock.Safe w) {c : CachedSession}
    (hc : w.fields.opened[s]? = some c) (hfree : c.locked = false) :
    total (wireLock.count s) w = 0 := by
  refine h.free fun t hb => ?_
  have hlocked : (w.fields.wire s).locked = false := by
    simp [Fields.wire,hc,hfree]
  cases t with
  | sending job s n => exact absurd (hlocked.symm.trans hb.1) (by simp)
  | receiving job s n => exact absurd (hlocked.symm.trans hb.1) (by simp)
  | _ => exact hb

/-- A call lets go of its wire. -/
theorem moves_release {unheld : Prop} {t : Waiting} {f' : Fields} {r : Result}
    (ht : wireLock.holds t = some s) (hr : ∀ k, weight (wireLock.count k) r = 0)
    (hother : ∀ k, k ≠ s → f'.wire k = f.wire k)
    (hidle : ({ f'.wire s with locked := false } : Wire).Idle) :
    wireLock.Moves k unheld t f (r,f'.setLocked s false) := by
  by_cases hk : k = s
  · subst hk
    refine .inr ⟨.inl ht,fun _ => ?_,?_⟩
    · change Wire.Idle ((f'.setLocked k false).wire k)
      rw [wire_unlocked]
      exact hidle
    · have := hr k
      cases r with
      | awaiting t =>
        intro hheld
        exact absurd hheld (Lock.count_eq_zero.mp this)
      | done r => trivial
  · refine .inl ⟨fun heq => hk (Option.some.inj (heq.symm.trans ht)),?_,hr k⟩
    exact (wire_setLocked_ne hk false).trans (hother k hk)

theorem wires_resume (h : wireLock.Safe w) {i : ℕ} {c : Call} {t : Waiting}
    (hi : w.calls[i]? = some ⟨c,.awaiting t⟩)  :
    wireLock.Safe (w.resumed i c (resume C rt cfg v w.fields t)) := by
  refine h.resumed hi fun k => ?_
  have hspared {t : Waiting} {r : Result × Fields} (ht : wireLock.holds t ≠ some k)
      (hview : r.2.wire k = w.fields.wire k) (hr : weight (wireLock.count k) r.1 = 0) :
      wireLock.Moves k (total (wireLock.count k) w = 0) t w.fields r := .inl ⟨ht,hview,hr⟩
  have hbusy := h.busy i c t hi
  revert hbusy
  refine resume_cases (P := fun t r =>
    (∀ k, wireLock.holds t = some k → wireLock.busy t (wireLock.view w.fields k)) →
      wireLock.Moves k (total (wireLock.count k) w = 0) t w.fields r) t
    ?connects ?refuses ?opens ?settles ?joins ?rejects ?waits ?unsigned ?sends ?unsent ?carries
    ?loses ?rejectsAnswer ?answers ?drops ?closes
  case opens =>
    intro job p t i acceptedBytes session _ _ _
    exact hspared (by simp [wireLock]) (wire_cache _ _ _ _ _ _) rfl
  case waits =>
    intro t job s he _ _
    exact hspared he.no_wire rfl rfl
  case unsigned =>
    intro t job s c e he _ _ _ _
    exact hspared he.no_wire (wire_wireFor _ _ _) rfl
  case sends =>
    intro t job s c wire he hc hfree _ _
    have hc' : (wireFor C cfg w.fields c.session job.request).2.opened[s]? = some c := by
      cases job.request <;> exact hc
    by_cases hk : k = s
    · subst hk
      have hunheld := unheld_of_free h hc hfree
      refine .inr ⟨.inr hunheld,fun hw => ?_,fun _ => ?_⟩
      · simp [Lock.count,wireLock] at hw
      · obtain ⟨-,-,hpending⟩ := h.idle k hunheld
        change Wire.Busy _ _ (Fields.wire _ _)
        rw [wire_send_self hc',wire_wireFor,wireFor_requests]
        exact ⟨rfl,rfl,hpending⟩
    · refine hspared he.no_wire ((wire_send_ne hk _ _ _).trans (wire_wireFor _ _ _)) ?_
      rw [weight_awaiting,Lock.count_eq_zero]
      exact fun heq => hk (Option.some.inj heq).symm
  case unsent =>
    intro job s n e _ hbusy
    obtain ⟨-,-,hpending⟩ := hbusy s rfl
    refine moves_release rfl (fun _ => rfl) (fun k hk => ?_) ?_
    · rw [wire_record]
      exact if_neg hk.symm
    · rw [wire_record,Wire.next,if_pos rfl]
      refine ⟨rfl,rfl,?_⟩
      cases v.through with
      | true => exact .inl rfl
      | false => exact hpending
  case carries =>
    intro job s n _ hbusy
    obtain ⟨hlocked,hflight,hpending⟩ := hbusy s rfl
    by_cases hk : k = s
    · subst hk
      refine .inr ⟨.inl rfl,fun hw => ?_,fun _ => ?_⟩
      · simp [Lock.count,wireLock] at hw
      · change Wire.Busy n [n] (Fields.wire _ _)
        rw [wire_record,Wire.next,if_pos rfl]
        refine ⟨hlocked,hflight,hpending.imp ?_ ?_⟩
        · exact congrArg (Option.map (·++[n]))
        · exact congrArg (Option.map (·++[n]))
    · refine .inl ⟨fun heq => hk (Option.some.inj heq).symm,?_,?_⟩
      · exact (wire_record _ _ _).trans (if_neg (Ne.symm hk))
      · rw [weight_awaiting,Lock.count_eq_zero]
        exact fun heq => hk (Option.some.inj heq).symm
  case loses =>
    intro job s n e hbusy
    refine moves_release rfl (fun _ => rfl) (fun k hk => ?_) ?_
    · rw [wire_record]
      exact if_neg hk.symm
    · rw [wire_record,Wire.next,if_pos rfl]
      exact ⟨rfl,rfl,.inl rfl⟩
  case rejectsAnswer =>
    intro job s n respBytes e _ _ hbusy
    obtain ⟨-,-,hpending⟩ := hbusy s rfl
    refine moves_release rfl (fun _ => rfl) (fun k hk => ?_) ?_
    · rw [wire_record]
      exact if_neg hk.symm
    · rw [wire_record,Wire.next,if_pos rfl]
      exact ⟨rfl,rfl,hpending.imp (congrArg (Option.map List.tail)) (congrArg (Option.map List.tail))⟩
  case answers =>
    intro job s n respBytes ms _ _ hbusy
    obtain ⟨-,-,hpending⟩ := hbusy s rfl
    refine moves_release rfl (fun _ => rfl) (fun k hk => ?_) ?_
    · rw [wire_record]
      exact if_neg hk.symm
    · rw [wire_record,Wire.next,if_pos rfl]
      exact ⟨rfl,rfl,hpending.imp (congrArg (Option.map List.tail)) (congrArg (Option.map List.tail))⟩
  case drops =>
    intro job s e _
    exact hspared (by simp [wireLock]) (wire_dropSession _ _ _ _) rfl
  case closes =>
    intro rest _
    exact hspared (by simp [wireLock]) rfl (weight_closeNext _ (fun _ => rfl) rest)
  all_goals
    intros
    exact hspared (by simp [wireLock]) rfl rfl

end Wires

section Logs
variable {C : Crypto} {rt : Runtime} {cfg : ForwarderConfig} {f f' : Fields} {v : Env} {w : World}

variable (C rt cfg) in
/-- What a call records when it goes on. -/
inductive Logs (f : Fields) (v : Env) : Waiting → Event → Prop
  | opened {job : Job} {p t : ℕ} {i : FederationInitiator} {acceptedBytes : Bytes}
      {session : FederationInitiatorSession} (hreceived : v.received = .ok (some acceptedBytes))
      (hsession : FederationInitiator.takeAccepted C rt i acceptedBytes = .ok session) :
      Logs f v (.opening job p (.accepted t i))
        (.opened job.peerDomain f.opened.length session v.now)
  | sent {t : Waiting} {job : Job} {s : ℕ} {c : CachedSession} {wire : Bytes}
      (he : Entering f t job s) (hc : f.opened[s]? = some c) (hfree : c.locked = false)
      (hwire : (wireFor C cfg f c.session job.request).1 = .ok wire) :
      Logs f v t (.sent s f.requests job.request wire v.now)
  | carried {job : Job} {s n : ℕ} : Logs f v (.sending job s n) (.carried s n)
  | unsent {job : Job} {s n : ℕ} : Logs f v (.sending job s n) (.failed s n v.through)
  | lost {job : Job} {s n : ℕ} : Logs f v (.receiving job s n) (.failed s n true)
  | answered {job : Job} {s n : ℕ} {respBytes : Bytes}
      (hreceived : v.received = .ok (some respBytes)) :
      Logs f v (.receiving job s n) (.answered s n v.answers (parseResponse job.request respBytes))
  | dropped {job : Job} {own s : ℕ} {e : Thrown} : Logs f v (.failing job own e) (.dropped own s)

/-- How many requests the event sends. -/
def Event.requests : Event → ℕ
  | .sent .. => 1
  | _ => 0

/-- A step records one event or none. -/
def Records (f f' : Fields) (P : Event → Prop) : Prop :=
  f'.log = f.log ∧ f'.requests = f.requests ∨
    ∃ e, f'.log = f.log++[e] ∧ f'.requests = f.requests+e.requests ∧ P e

theorem resume_records (t : Waiting) :
    Records f (resume C rt cfg v f t).2 (Logs C rt cfg f v t) := by
  refine resume_cases (P := fun t r => Records f r.2 (Logs C rt cfg f v t)) t ?connects ?refuses
    ?opens ?settles ?joins ?rejects ?waits ?unsigned ?sends ?unsent ?carries ?loses ?rejectsAnswer
    ?answers ?drops ?closes
  case opens =>
    intro job p t i acceptedBytes session hreceived hsession
    exact .inr ⟨_,rfl,rfl,.opened hreceived hsession⟩
  case unsigned =>
    intro t job s c e _ _ _ _
    exact .inl ⟨wireFor_log _ _,wireFor_requests _ _⟩
  case sends =>
    intro t job s c wire he hc hfree hwire
    refine .inr ⟨_,?_,congrArg (·+1) (wireFor_requests c.session job.request),.sent he hc hfree hwire⟩
    rw [Fields.send,Fields.record,wireFor_requests]
    exact congrArg (·++_) (wireFor_log c.session job.request)
  case unsent =>
    intro job s n e _
    exact .inr ⟨_,rfl,rfl,.unsent⟩
  case carries =>
    intro job s n _
    exact .inr ⟨_,rfl,rfl,.carried⟩
  case loses =>
    intro job s n e
    exact .inr ⟨_,rfl,rfl,.lost⟩
  case rejectsAnswer =>
    intro job s n respBytes e hreceived he
    exact .inr ⟨_,rfl,rfl,he ▸ .answered hreceived⟩
  case answers =>
    intro job s n respBytes ms hreceived hms
    exact .inr ⟨_,rfl,rfl,hms ▸ .answered hreceived⟩
  case drops =>
    intro job s e
    cases hg : f.sessions.get job.peerDomain with
    | none =>
      rw [Fields.dropSession,hg]
      exact .inl ⟨rfl,rfl⟩
    | some g =>
      rw [dropSession_of_get hg]
      exact .inr ⟨_,rfl,rfl,.dropped⟩
  all_goals
    intros
    exact .inl ⟨rfl,rfl⟩

theorem start_records (c : Call) :
    Records f (start v f c).2 fun e => ∃ s, e = .found s v.now := by
  refine start_cases (P := fun _ r => Records f r.2 fun e => ∃ s, e = .found s v.now) c ?_ ?_ ?_ ?_
  · intro job s _
    exact .inr ⟨_,rfl,rfl,s,rfl⟩
  all_goals
    intros
    exact .inl ⟨rfl,rfl⟩

theorem Records.prefix {P : Event → Prop} (h : Records f f' P) : f.log <+: f'.log := by
  obtain ⟨hlog,-⟩ | ⟨e,hlog,-⟩ := h
  · exact hlog ▸ List.prefix_refl _
  · exact hlog ▸ List.prefix_append _ _

/-- On each session a request is sent when none is out, and what ends it is an answer to it or
its failure.  No two requests have one number. -/
def Alternates (pre : List Event) : Event → Prop
  | .sent s n _ _ _ =>
    (wireOf s pre).inFlight = none ∧ ∀ s' request wire now, .sent s' n request wire now ∉ pre
  | .answered s n _ _ => (wireOf s pre).inFlight = some n
  | .failed s n _ => (wireOf s pre).inFlight = some n
  | _ => True

/-- Each answer is one to the request of the call it was given to. -/
def Matched (f : Fields) : Prop := ∀ s n m response, .answered s n m response ∈ f.log → m = n

def Numbered (f : Fields) : Prop :=
  ∀ s n request wire now, .sent s n request wire now ∈ f.log → n < f.requests

/-- The peer answers each request that it has once, in order. -/
def Honest (w : World) : Act Call Env → Prop
  | .start _ _ => True
  | .resume i v => ∀ c job s n respBytes, w.calls[i]? = some ⟨c,.awaiting (.receiving job s n)⟩ →
      v.received = .ok (some respBytes) →
        ∃ rest, (wireOf s w.fields.log).pending = some (v.answers::rest)

theorem alternates_resume (h : wireLock.Safe w) (hn : Numbered w.fields)
    (ha : Justified Alternates w.fields.log) {i : ℕ} {c : Call} {t : Waiting}
    (hi : w.calls[i]? = some ⟨c,.awaiting t⟩) :
    Justified Alternates (resume C rt cfg v w.fields t).2.log := by
  obtain ⟨hlog,-⟩ | ⟨e,hlog,-,he⟩ : Records w.fields _ (Logs C rt cfg w.fields v t) :=
    resume_records t
  · rw [hlog]
    exact ha
  rw [hlog,justified_concat]
  refine ⟨ha,?_⟩
  have hbusy := h.busy i c t hi
  cases he with
  | sent he hc hfree hwire =>
    exact ⟨(h.idle _ (unheld_of_free h hc hfree)).2.1,
      fun s' request wire now hsent => lt_irrefl _ (hn s' _ request wire now hsent)⟩
  | unsent => exact (hbusy _ rfl).2.1
  | lost => exact (hbusy _ rfl).2.1
  | answered => exact (hbusy _ rfl).2.1
  | _ => trivial

theorem Numbered.records {P : Event → Prop} (h : Numbered f) (hr : Records f f' P)
    (hsent : ∀ s n request wire now, P (.sent s n request wire now) → n = f.requests) :
    Numbered f' := by
  intro s n request wire now hmem
  obtain ⟨hlog,hreq⟩ | ⟨e,hlog,hreq,he⟩ := hr
  · rw [hreq]
    exact h s n request wire now (hlog ▸ hmem)
  · rw [hlog,List.mem_append,List.mem_singleton] at hmem
    rw [hreq]
    obtain hmem | rfl := hmem
    · exact Nat.lt_add_right _ (h s n request wire now hmem)
    · rw [hsent s n request wire now he]
      exact Nat.lt_succ_self _

theorem matched_resume (h : wireLock.Safe w) (hm : Matched w.fields) {i : ℕ} {c : Call} {t : Waiting}
    (hi : w.calls[i]? = some ⟨c,.awaiting t⟩) (hok : Honest w (.resume i v)) :
    Matched (resume C rt cfg v w.fields t).2 := by
  intro s n m response hmem
  obtain ⟨hlog,-⟩ | ⟨e,hlog,-,he⟩ : Records w.fields _ (Logs C rt cfg w.fields v t) :=
    resume_records t
  · exact hm s n m response (hlog ▸ hmem)
  rw [hlog,List.mem_append,List.mem_singleton] at hmem
  obtain hmem | rfl := hmem
  · exact hm s n m response hmem
  cases he with
  | @answered job s n respBytes hreceived =>
    obtain ⟨rest,hpending⟩ := hok c job s n respBytes hi hreceived
    obtain ⟨-,-,hnone | hsome⟩ := h.busy i c _ hi s rfl
    · exact absurd (hpending.symm.trans hnone) (by simp)
    · exact (List.cons.inj (Option.some.inj (hpending.symm.trans hsome))).1

end Logs

section Answers
variable {C : Crypto} {rt : Runtime} {cfg : ForwarderConfig} {f f' : Fields} {v : Env} {w : World}
  {c : Call}

def Fields.Sent (f : Fields) (s n : ℕ) (request : Request) : Prop :=
  ∃ wire now, .sent s n request wire now ∈ f.log

/-- The job is that of the call, and the request that is out is its own. -/
def Asked (f : Fields) (c : Call) : Waiting → Prop
  | .opening job _ _ => c = .request job
  | .settling job _ _ => c = .request job
  | .joining job _ => c = .request job
  | .entering job _ => c = .request job
  | .sending job s n => c = .request job ∧ f.Sent s n job.request
  | .receiving job s n => c = .request job ∧ f.Sent s n job.request
  | .failing job _ _ => c = .request job
  | .closing _ => True

/-- What a call returned is an answer that was given to its request. -/
def Given (f : Fields) (c : Call) (r : Result) : Prop :=
  ∀ ms, r = .done (.ok (.response ms)) → ∃ job s n m, c = .request job ∧ f.Sent s n job.request ∧
    .answered s n m (.ok ms) ∈ f.log

theorem Fields.Sent.mono {s n : ℕ} {request : Request} (h : f.Sent s n request)
    (hp : f.log <+: f'.log) : f'.Sent s n request := by
  obtain ⟨wire,now,hmem⟩ := h
  exact ⟨wire,now,hp.subset hmem⟩

theorem Asked.mono {t : Waiting} (h : Asked f c t) (hp : f.log <+: f'.log) : Asked f' c t := by
  cases t with
  | sending job s n => exact ⟨h.1,h.2.mono hp⟩
  | receiving job s n => exact ⟨h.1,h.2.mono hp⟩
  | _ => exact h

theorem Given.mono {r : Result} (h : Given f c r) (hp : f.log <+: f'.log) : Given f' c r := by
  intro ms hr
  obtain ⟨job,s,n,m,hc,hsent,hanswered⟩ := h ms hr
  exact ⟨job,s,n,m,hc,hsent.mono hp,hp.subset hanswered⟩

theorem given_awaiting (t : Waiting) : Given f c (.awaiting t) := fun _ h => by cases h

theorem given_error (e : Thrown) : Given f c (.done (.error e)) := fun _ h => by cases h

theorem given_closeNext (ss : List ℕ) : Given f c (closeNext ss) := by
  cases ss <;> exact fun _ h => by cases h

theorem asked_closeNext (ss : List ℕ) : (closeNext ss).All (Asked f c) := by
  cases ss <;> trivial

theorem Entering.asked {t : Waiting} {job : Job} {s : ℕ} (he : Entering f t job s)
    (h : Asked f c t) : c = .request job := by
  obtain rfl | ⟨p,d,rfl,-⟩ := he <;> exact h

theorem asked_start (c : Call) :
    (start v f c).1.All (Asked (start v f c).2 c) ∧ Given (start v f c).2 c (start v f c).1 := by
  refine start_cases (P := fun c r => r.1.All (Asked r.2 c) ∧ Given r.2 c r.1) c ?_ ?_ ?_ ?_
  · intro job s _
    exact ⟨rfl,given_awaiting _⟩
  · intro job p _ _
    exact ⟨rfl,given_awaiting _⟩
  · intro job _ _
    exact ⟨rfl,given_awaiting _⟩
  · exact ⟨asked_closeNext _,given_closeNext _⟩

theorem asked_resume {t : Waiting} (ht : Asked f c t) :
    (resume C rt cfg v f t).1.All (Asked (resume C rt cfg v f t).2 c) ∧
      Given (resume C rt cfg v f t).2 c (resume C rt cfg v f t).1 := by
  revert ht
  refine resume_cases (P := fun t r => Asked f c t → r.1.All (Asked r.2 c) ∧ Given r.2 c r.1) t
    ?connects ?refuses ?opens ?settles ?joins ?rejects ?waits ?unsigned ?sends ?unsent ?carries
    ?loses ?rejectsAnswer ?answers ?drops ?closes
  case rejects =>
    intro job p d e _ _
    exact ⟨trivial,given_error e⟩
  case waits =>
    intro t job s he _ ht
    exact ⟨he.asked ht,given_awaiting _⟩
  case unsigned =>
    intro t job s x e he _ _ _ ht
    exact ⟨he.asked ht,given_awaiting _⟩
  case sends =>
    intro t job s x wire he _ _ _ ht
    refine ⟨⟨he.asked ht,wire,v.now,List.mem_append_right _ ?_⟩,given_awaiting _⟩
    rw [wireFor_requests]
    exact List.mem_singleton_self _
  case unsent =>
    intro job s n e _ ht
    exact ⟨ht.1,given_awaiting _⟩
  case carries =>
    intro job s n _ ht
    exact ⟨⟨ht.1,ht.2.mono (List.prefix_append _ _)⟩,given_awaiting _⟩
  case loses =>
    intro job s n e ht
    exact ⟨ht.1,given_awaiting _⟩
  case rejectsAnswer =>
    intro job s n respBytes e _ _ ht
    exact ⟨ht.1,given_awaiting _⟩
  case answers =>
    intro job s n respBytes ms _ _ ht
    refine ⟨trivial,fun ms' h => ?_⟩
    cases h
    exact ⟨job,s,n,v.answers,ht.1,ht.2.mono (List.prefix_append _ _),
      List.mem_append_right _ (List.mem_singleton_self _)⟩
  case drops =>
    intro job s e _
    exact ⟨trivial,given_error e⟩
  case closes =>
    intro rest _
    exact ⟨asked_closeNext rest,given_closeNext rest⟩
  all_goals
    intros
    exact ⟨by assumption,given_awaiting _⟩

end Answers

/-- What holds in every state of every run. -/
structure Exchanging (C : Crypto) (rt : Runtime) (cfg : ForwarderConfig) (envelopes : ℕ → Members)
    (w : World) : Prop where
  peers : peerLock.Safe w
  wires : wireLock.Safe w
  numbered : Numbered w.fields
  alternates : Justified Alternates w.fields.log
  asked : Every (Asked w.fields) w
  given : ∀ x ∈ w.calls, Given w.fields x.args x.stage
  signs : Signs C rt cfg envelopes w.fields

/-- One handshake for each peer and one request on each session at a time, and envelopes that
the peer accepts. -/
structure Exclusive (C : Crypto) (rt : Runtime) (cfg : ForwarderConfig) (envelopes : ℕ → Members)
    (w : World) : Prop where
  handshakes : ∀ d, total (peerLock.count d) w ≤ 1
  requests : ∀ s, total (wireLock.count s) w ≤ 1
  alternates : Justified Alternates w.fields.log
  signed : ∀ s n i wire now, .sent s n (.envelope i) wire now ∈ w.fields.log →
    SentFor C rt cfg envelopes w.fields.log s i wire

/-- Every call was given the answer to its own request, and returned it. -/
structure OwnAnswers (w : World) : Prop where
  matched : ∀ s n m response, .answered s n m response ∈ w.fields.log → m = n
  returned : ∀ (i : ℕ) (c : Call) (ms : Members),
    w.calls[i]? = some ⟨c,.done (.ok (.response ms))⟩ → ∃ job s n wire now, c = .request job ∧
      .sent s n job.request wire now ∈ w.fields.log ∧ .answered s n n (.ok ms) ∈ w.fields.log

section Runs
variable {C : Crypto} {rt : Runtime} {cfg : ForwarderConfig} {envelopes : ℕ → Members}
  {w w' : World}

theorem exchanging_initial (ht : ∀ i, Typed (envelopes i)) :
    Exchanging C rt cfg envelopes (World.initial envelopes) where
  peers := ⟨fun _ => Nat.zero_le _,fun _ _ => rfl,fun _ _ _ h => by simp [World.initial] at h⟩
  wires := ⟨fun _ => Nat.zero_le _,fun _ _ => ⟨rfl,rfl,.inr rfl⟩,
    fun _ _ _ h => by simp [World.initial] at h⟩
  numbered _ _ _ _ _ h := by cases h
  alternates := justified_nil
  asked _ _ _ h := by simp [World.initial] at h
  given _ h := by cases h
  signs := {
    typed := ht
    resigned := fun i => .refl (ht i)
    opened := fun s c h => by simp [World.initial,Fields.initial] at h
    wf := fun _ _ _ _ h => by cases h
    signed := fun _ _ _ _ _ h => by cases h }

theorem Exchanging.started (h : Exchanging C rt cfg envelopes w) (c : Call) (v : Env) :
    Exchanging C rt cfg envelopes (w.started c (start v w.fields c)) := by
  have hr : Records w.fields (start v w.fields c).2 fun e => ∃ s, e = .found s v.now :=
    start_records c
  obtain ⟨hasked,hgiven⟩ := asked_start (f := w.fields) (v := v) c
  refine ⟨peers_start h.peers c,wires_start h.wires c,h.numbered.records hr ?_,?_,
    (h.asked.mono fun _ _ ht => ht.mono hr.prefix).started c hasked,?_,signs_start h.signs c⟩
  · rintro s n request wire now ⟨g,hg⟩
    cases hg
  · obtain ⟨hlog,-⟩ | ⟨e,hlog,-,g,rfl⟩ := hr
    · exact hlog ▸ h.alternates
    · exact hlog ▸ justified_concat.mpr ⟨h.alternates,trivial⟩
  · intro x hx
    obtain hx | hx := List.mem_append.mp hx
    · exact (h.given x hx).mono hr.prefix
    · obtain rfl := List.mem_singleton.mp hx
      exact hgiven

theorem Exchanging.resumed (laws : SignLaws C) (h : Exchanging C rt cfg envelopes w) {i : ℕ}
    {c : Call} {t : Waiting} (hi : w.calls[i]? = some ⟨c,.awaiting t⟩) (v : Env) :
    Exchanging C rt cfg envelopes (w.resumed i c (resume C rt cfg v w.fields t)) := by
  have hr : Records w.fields (resume C rt cfg v w.fields t).2 (Logs C rt cfg w.fields v t) :=
    resume_records t
  obtain ⟨hasked,hgiven⟩ : (resume C rt cfg v w.fields t).1.All
      (Asked (resume C rt cfg v w.fields t).2 c) ∧ Given _ c (resume C rt cfg v w.fields t).1 :=
    asked_resume (h.asked i c t hi)
  refine ⟨peers_resume h.peers hi,wires_resume h.wires hi,h.numbered.records hr ?_,
    alternates_resume h.wires h.numbered h.alternates hi,
    (h.asked.mono fun _ _ ht => ht.mono hr.prefix).resumed i c hasked,?_,
    signs_resume laws h.signs t⟩
  · intro s n request wire now hlogs
    cases hlogs
    rfl
  · intro x hx
    obtain hx | rfl := List.mem_or_eq_of_mem_set hx
    · exact (h.given x hx).mono hr.prefix
    · exact hgiven

theorem Exchanging.step (laws : SignLaws C) (h : Exchanging C rt cfg envelopes w)
    {a : Act Call Env} (hs : step (forwarder C rt cfg) w a = some w') :
    Exchanging C rt cfg envelopes w' :=
  step_cases hs (C := fun _ w' => Exchanging C rt cfg envelopes w') (fun c v => h.started c v)
    fun _ v _ _ hi => h.resumed laws hi v

theorem matched_step (h : Exchanging C rt cfg envelopes w) (hm : Matched w.fields)
    {a : Act Call Env} (hok : Honest w a) (hs : step (forwarder C rt cfg) w a = some w') :
    Matched w'.fields := by
  revert hok
  refine step_cases hs (C := fun a w' => Honest w a → Matched w'.fields) ?_ ?_
  · intro c v _ s n m response hmem
    obtain ⟨hlog,-⟩ | ⟨e,hlog,-,g,rfl⟩ :
        Records w.fields (start v w.fields c).2 fun e => ∃ s, e = .found s v.now := start_records c
    · exact hm s n m response (hlog ▸ hmem)
    · change _ ∈ (start v w.fields c).2.log at hmem
      rw [hlog,List.mem_append,List.mem_singleton] at hmem
      obtain hmem | hmem := hmem
      · exact hm s n m response hmem
      · cases hmem
  · intro i v c t hi hok
    exact matched_resume h.wires hm hi hok

/-- In every run at most one handshake with each peer and one request on each session are under
way, requests and answers alternate, and the envelopes sent differ from the callers' in their
session and proofs only and verify; with a peer that answers in order, calls get their own
answers. -/
theorem exchanges (laws : SignLaws C) (ht : ∀ i, Typed (envelopes i))
    (h : Reached (forwarder C rt cfg) (fun _ _ => True) (World.initial envelopes) w) :
    Exclusive C rt cfg envelopes w ∧
      (Reached (forwarder C rt cfg) Honest (World.initial envelopes) w → OwnAnswers w) := by
  constructor
  · have hall : Exchanging C rt cfg envelopes w :=
      h.inv (exchanging_initial ht) fun _ _ _ hu _ hs => hu.step laws hs
    exact ⟨hall.peers.alone,hall.wires.alone,hall.alternates,hall.signs.signed⟩
  · intro hh
    have hall : Exchanging C rt cfg envelopes w ∧ Matched w.fields :=
      hh.inv (I := fun w => Exchanging C rt cfg envelopes w ∧ Matched w.fields)
        ⟨exchanging_initial ht,fun _ _ _ _ hmem => (by cases hmem)⟩ fun _ _ _ hu hok hs =>
          ⟨hu.1.step laws hs,matched_step hu.1 hu.2 hok hs⟩
    refine ⟨hall.2,fun i c ms hi => ?_⟩
    obtain ⟨job,s,n,m,hc,⟨wire,now,hsent⟩,hanswered⟩ :=
      hall.1.given _ (List.mem_of_getElem? hi) ms rfl
    obtain rfl := hall.2 s n m _ hanswered
    exact ⟨job,s,m,wire,now,hc,hsent,hanswered⟩

end Runs

section Samples
variable {C : Crypto} {rt : Runtime} {cfg : ForwarderConfig}

theorem enter_sends {f : Fields} {job : Job} {s : ℕ} {c : CachedSession} {wire : Bytes} (now : ℤ)
    (hc : f.opened[s]? = some c) (hfree : c.locked = false)
    (hw : (wireFor C cfg f c.session job.request).1 = .ok wire) :
    enter C cfg now f job s = (.awaiting (.sending job s f.requests),
      (wireFor C cfg f c.session job.request).2.send s job.request wire now) := by
  refine enter_cases (P := fun r => r = _) now (fun hlocked => ?_) (fun c' e hc' _ he => ?_)
    fun c' wire' hc' _ hw' => ?_
  · rw [hlocked c hc] at hfree
    cases hfree
  · obtain rfl := Option.some.inj (hc.symm.trans hc')
    cases hw.symm.trans he
  · obtain rfl := Option.some.inj (hc.symm.trans hc')
    obtain rfl := Except.ok.inj (hw.symm.trans hw')
    rfl

/-- A session is opened, and an envelope is sent on it and answered. -/
theorem answered_run {d : JsString} {session : FederationInitiatorSession} {peerPub : Bytes}
    {entropy : InitiatorEntropy} {response accepted wire respBytes : Bytes} {i : ℕ} {ms : Members}
    (envelopes : ℕ → Members)
    (ha : Agrees C rt cfg d session peerPub entropy response accepted)
    (hw : ((resign C cfg session).call (envelopes i)).1 = .ok wire)
    (hresponse : parseResponse (.envelope i) respBytes = .ok ms) :
    ∃ w, Reached (forwarder C rt cfg) Honest (World.initial envelopes) w ∧
      w.calls[0]? = some ⟨.request ⟨d,.envelope i⟩,.done (.ok (.response ms))⟩ := by
  let job : Job := ⟨d,.envelope i⟩
  let v := given 0 entropy peerPub (some respBytes)
  let f₁ := (Fields.initial envelopes).connect job
  let f₂ := (f₁.dial 1).cache d 0 session 0
  let f₃ := f₂.settle d 0 (.ok 0)
  let f₄ := (wireFor C cfg f₃ session (.envelope i)).2.send 0 job.request wire 0
  let f₅ := f₄.record (.carried 0 0)
  let f₆ := (f₅.record (.answered 0 0 0 (.ok ms))).setLocked 0 false
  have hsend : enter C cfg 0 f₃ job 0 = (.awaiting (.sending job 0 0),f₄) :=
    enter_sends (c := ⟨0,session,false⟩) 0 rfl rfl hw
  have h₀ : Reached (forwarder C rt cfg) Honest (World.initial envelopes)
      (World.initial envelopes) := .refl
  have h₁ := h₀.start (c := .request job) (v := v) trivial
    (r := (.awaiting (.opening job 0 .endpoint),f₁)) rfl
  have h₂ := reached_open 0 (fun _ _ _ _ _ _ _ _ hi _ _ _ _ _ hi' => by cases hi.symm.trans hi')
    ha h₁ (i := 0) rfl
  have h₃ := h₂.resume (i := 0) rfl (v := v) (fun _ _ _ _ _ hi => by cases hi)
    (r := (.awaiting (.joining job 0),f₃)) rfl
  have h₄ := h₃.resume (i := 0) rfl (v := v) (fun _ _ _ _ _ hi => by cases hi)
    (r := (.awaiting (.sending job 0 0),f₄)) hsend
  have h₅ := h₄.resume (i := 0) rfl (v := v) (fun _ _ _ _ _ hi => by cases hi)
    (r := (.awaiting (.receiving job 0 0),f₅)) rfl
  have h₆ := h₅.resume (i := 0) rfl (v := v) (fun _ _ _ _ _ hi _ => by cases hi; exact ⟨[],rfl⟩)
    (r := (.done (.ok (.response ms)),f₆)) (by
      change resume C rt cfg v f₅ (.receiving job 0 0) = _
      simp only [resume,v,given,job,hresponse]
      rfl)
  exact ⟨_,h₆,rfl⟩

def sampleEnvelope : Members := [(js "postmark",.obj []),(js "seal",.obj [])]

theorem sampleEnvelope_typed : Typed sampleEnvelope where
  wf := Json.wf_of_keys [js "postmark",js "seal"] rfl (by decide) (by simp [sampleEnvelope,Json.WF])
  postmark := ⟨[],rfl⟩
  sealed := ⟨[],rfl⟩

theorem exchanges_sample : ∃ w ms,
    w.calls[0]? = some ⟨.request ⟨js "b",.envelope 0⟩,.done (.ok (.response ms))⟩ ∧
      Exclusive Sample.crypto Sample.runtime sampleForwarder (fun _ => sampleEnvelope) w ∧
        OwnAnswers w := by
  obtain ⟨response,accepted,session,ha,-⟩ := sampleDialog_ok
  have hid : ∀ x, session.sessionId = some x → x.WF := by
    obtain ⟨_,_,_,_,_,-,-,-,haccepted⟩ := ha.answers
    exact takeAccepted_wf haccepted
  obtain ⟨-,-,-,hfailed⟩ :=
    resign_spec (C := Sample.crypto) sampleForwarder sampleEnvelope_typed hid
  obtain ⟨wire,hwire⟩ : ∃ wire,
      ((resign Sample.crypto sampleForwarder session).call sampleEnvelope).1 = .ok wire := by
    cases hw : ((resign Sample.crypto sampleForwarder session).call sampleEnvelope).1 with
    | ok wire => exact ⟨wire,rfl⟩
    | error e =>
      obtain ⟨message,hsign⟩ := hfailed e hw
      obtain ⟨sig,hok⟩ := sign_ok Sample.laws.sig (show sampleKey.length = 32 by decide) message
      cases hsign.symm.trans hok
  have hresponse : parseResponse (.envelope 0) (Utf8.textEncode (JsonText.stringify (.obj []))) =
      .ok [] := by
    rw [parseResponse,JsonText.textDecode_stringify,parseJson_stringify (by simp [Json.WF])]
    rfl
  obtain ⟨w,hreached,hcall⟩ :=
    answered_run (fun _ => sampleEnvelope) ha hwire hresponse
  obtain ⟨hexclusive,hown⟩ := exchanges Sample.laws.sig (fun _ => sampleEnvelope_typed)
    (hreached.mono fun _ _ _ => trivial)
  exact ⟨w,[],hcall,hexclusive,hown hreached⟩

end Samples

end Forwarder
end Semp
