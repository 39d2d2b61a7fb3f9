import Semp.ForwarderExchange

/-! Shutdown of the forwarder: the transports that its steps close, and what is left once `close`
and the calls before it have ended. -/
namespace Semp
namespace Forwarder
open Handshake Tasks

/-- The transport that an opening has. -/
def Opening.held : Opening → List ℕ
  | .initSent t _ => [t]
  | .response t _ => [t]
  | .confirmSent t _ => [t]
  | .accepted t _ => [t]
  | _ => []

/-- The transport that the `catch` of `openSession` closes. -/
def Opening.dialled (f : Fields) : Opening → List ℕ
  | .dial _ => [f.transports]
  | o => o.held

/-- An opening that goes to its `catch` closes the transport. -/
def Opening.closings (f : Fields) (o : Opening) : Result → List ℕ
  | .awaiting (.opening _ _ (.closed _)) => o.dialled f
  | _ => []

def Fields.transportOf (f : Fields) (s : ℕ) : Option ℕ := (f.opened[s]?).map CachedSession.transport

/-- The transport of the first of the sessions, which `close` closes before it waits. -/
def Fields.closingFirst (f : Fields) (ss : List ℕ) : List ℕ := (ss.head?.bind f.transportOf).toList

section Code
variable (C : Crypto) (rt : Runtime) (cfg : ForwarderConfig)

/-- The transports whose `close` a call calls up to its first `await`. -/
def startClosings (f : Fields) : Call → List ℕ
  | .request _ => []
  | .close => f.closingFirst f.sessions.values

/-- The transports whose `close` a call calls up to its next `await`. -/
def resumeClosings (v : Env) (f : Fields) : Waiting → List ℕ
  | .opening job p o => o.closings f (openSession C rt cfg v f job p o).1
  -- `dropSession`
  | .failing job _ _ => ((f.sessions.get job.peerDomain).bind f.transportOf).toList
  | .closing rest => f.closingFirst rest
  | _ => []

def closings (w : World) : Act Call Env → List ℕ
  | .start c _ => startClosings w.fields c
  | .resume i v =>
    match w.calls[i]? with
    | some ⟨_,.awaiting t⟩ => resumeClosings C rt cfg v w.fields t
    | _ => []

/-- A run whose every step meets `ok`, with the transports that it closed. -/
inductive Run (ok : World → Act Call Env → Prop) (envelopes : ℕ → Members) :
    World → List ℕ → Prop
  | initial : Run ok envelopes (World.initial envelopes) []
  | step {w w' : World} {closed : List ℕ} {a : Act Call Env} (h : Run ok envelopes w closed)
      (hok : ok w a) (hs : Tasks.step (forwarder C rt cfg) w a = some w') :
      Run ok envelopes w' (closed++closings C rt cfg w a)

end Code

def CloseCalled (w : World) : Prop := ∃ c ∈ w.calls, c.args = .close

/-- No request is started once `close` was called. -/
def NoneAfter (w : World) : Act Call Env → Prop
  | .start (.request _) _ => ¬CloseCalled w
  | _ => True

/-- What a waiting call has to close. -/
def Fields.pending (f : Fields) : Waiting → List ℕ
  | .opening _ _ o => o.held
  | .closing rest => rest.filterMap f.transportOf
  | _ => []

/-- A cached session has the transport. -/
def Fields.Cached (f : Fields) (x : ℕ) : Prop :=
  ∃ d s, f.sessions.get d = some s ∧ f.transportOf s = some x

/-- Once `close` was called no handshake completes, and a constructor does not throw behind a
dial. -/
def Quiet (C : Crypto) (rt : Runtime) (cfg : ForwarderConfig) (w : World) : Act Call Env → Prop
  | .start _ _ => True
  | .resume i v => ∀ c job p o, w.calls[i]? = some ⟨c,.awaiting (.opening job p o)⟩ →
      (∀ t i acceptedBytes session, o = .accepted t i → CloseCalled w →
        v.received = .ok (some acceptedBytes) →
        FederationInitiator.takeAccepted C rt i acceptedBytes ≠ .ok session) ∧
      ∀ peerPub e, o = .dial peerPub → v.dialed = .ok () →
        FederationInitiator.new C (initiatorConfig cfg job.peerDomain peerPub) ≠ .error e

/-- Nothing is cached, and every transport that was dialled was closed. -/
structure ShutDown (w : World) (closed : List ℕ) : Prop where
  uncached : w.fields.sessions.entries = []
  closed : ∀ x < w.fields.transports, x ∈ closed

section Frames
variable {C : Crypto} {rt : Runtime} {cfg : ForwarderConfig} {f f' f'' : Fields}

/-- Neither the sessions nor the transports change. -/
structure Frame (f f' : Fields) : Prop where
  sessions : f'.sessions = f.sessions
  transports : f'.transports = f.transports
  transportOf : f'.transportOf = f.transportOf

theorem Frame.refl (f : Fields) : Frame f f := ⟨rfl,rfl,rfl⟩

theorem Frame.trans (h : Frame f f') (h' : Frame f' f'') : Frame f f'' :=
  ⟨h'.sessions.trans h.sessions,h'.transports.trans h.transports,
    h'.transportOf.trans h.transportOf⟩

theorem frame_record (f : Fields) (e : Event) : Frame f (f.record e) := ⟨rfl,rfl,rfl⟩

theorem frame_setLocked (f : Fields) (s : ℕ) (b : Bool) : Frame f (f.setLocked s b) := by
  refine ⟨rfl,rfl,funext fun i => ?_⟩
  rw [Fields.transportOf,Fields.transportOf,Fields.setLocked,List.getElem?_modify]
  cases f.opened[i]? with
  | none => rfl
  | some c =>
    by_cases hi : s = i
    · simp [hi]
    · simp [hi]

theorem frame_wireFor (f : Fields) (session : FederationInitiatorSession) (request : Request) :
    Frame f (wireFor C cfg f session request).2 := by
  cases request <;> exact ⟨rfl,rfl,rfl⟩

theorem frame_send (f : Fields) (s : ℕ) (request : Request) (wire : Bytes) (now : ℤ) :
    Frame f (f.send s request wire now) := by
  have h := frame_setLocked f s true
  exact ⟨h.sessions,h.transports,h.transportOf⟩

theorem frame_fail (f : Fields) (job : Job) (s : ℕ) (e : Thrown) (ev : Event) :
    Frame f (fail job s e (f.record ev)).2 := (frame_record f ev).trans (frame_setLocked _ s false)

theorem frame_settle (f : Fields) (d : JsString) (p : ℕ) (r : Js ℕ) : Frame f (f.settle d p r) :=
  ⟨rfl,rfl,rfl⟩

theorem frame_connect (f : Fields) (job : Job) : Frame f (f.connect job) := ⟨rfl,rfl,rfl⟩

end Frames

/-- A call that opens a session to a peer finds none cached. -/
def Uncached (f : Fields) (t : Waiting) : Prop :=
  ∀ job p o, t = .opening job p o → f.sessions.get job.peerDomain = none

/-- What a call had to close, what was cached and what was dialled is closed, or the call has to
close it, or it is cached. -/
structure Balance (f : Fields) (had closed : List ℕ) (r : Result × Fields) : Prop where
  keeps : ∀ s x, f.transportOf s = some x → r.2.transportOf s = some x
  moves : ∀ x, x ∈ had ∨ f.Cached x ∨ f.transports ≤ x ∧ x < r.2.transports →
    x ∈ closed ∨ x ∈ r.1.list r.2.pending ∨ r.2.Cached x

section Balances
variable {C : Crypto} {rt : Runtime} {cfg : ForwarderConfig} {f f' : Fields} {v : Env}
  {had closed : List ℕ} {r : Result}

theorem Frame.cached (h : Frame f f') {x : ℕ} : f'.Cached x ↔ f.Cached x := by
  rw [Fields.Cached,Fields.Cached,h.sessions,h.transportOf]

/-- Within a frame the call has to close what it had to, or closes it. -/
theorem Frame.balance (h : Frame f f') (hhad : ∀ x ∈ had, x ∈ closed ∨ x ∈ r.list f'.pending) :
    Balance f had closed (r,f') := by
  refine ⟨fun s x hx => h.transportOf ▸ hx,fun x hx => ?_⟩
  obtain hx | hx | ⟨hle,hlt⟩ := hx
  · exact (hhad x hx).imp_right .inl
  · exact .inr (.inr (h.cached.mpr hx))
  · rw [h.transports] at hlt
    exact absurd hlt (not_lt.mpr hle)

theorem balance_cache {d : JsString} {t : ℕ} {session : FederationInitiatorSession} {now : ℤ}
    (hfree : f.sessions.get d = none) : Balance f [t] [] (r,f.cache d t session now) := by
  have hkeeps (s x : ℕ) (hx : f.transportOf s = some x) :
      (f.cache d t session now).transportOf s = some x := by
    obtain ⟨c,hc,rfl⟩ := Option.map_eq_some_iff.mp hx
    rw [Fields.transportOf,Fields.cache,
      List.getElem?_append_left (List.getElem?_eq_some_iff.mp hc).1,hc]
    rfl
  refine ⟨hkeeps,fun x hx => .inr (.inr ?_)⟩
  obtain hx | ⟨d',s,hs,hx⟩ | ⟨hle,hlt⟩ := hx
  · obtain rfl := List.mem_singleton.mp hx
    refine ⟨d,f.opened.length,JsMap.get_set_self,?_⟩
    rw [Fields.transportOf,Fields.cache,List.getElem?_append_right le_rfl,Nat.sub_self]
    rfl
  · have hd : d' ≠ d := by
      rintro rfl
      cases hfree.symm.trans hs
    exact ⟨d',s,(JsMap.get_set_ne hd).trans hs,hkeeps s x hx⟩
  · exact absurd hlt (not_lt.mpr hle)

/-- A dial hands its transport on. -/
theorem balance_dial (h : ∀ x, x = f.transports →
      x ∈ closed ∨ x ∈ r.list (f.dial (f.transports+1)).pending) :
    Balance f [] closed (r,f.dial (f.transports+1)) := by
  refine ⟨fun _ _ hx => hx,fun x hx => ?_⟩
  obtain hx | hx | ⟨hle,hlt⟩ := hx
  · cases hx
  · exact .inr (.inr hx)
  · have hlt : x < f.transports+1 := hlt
    exact (h x (by omega)).imp_right .inl

/-- An opening that goes on has its transport, and one that fails closes it. -/
theorem openSession_balance {job : Job} {p : ℕ} (o : Opening)
    (hfree : f.sessions.get job.peerDomain = none)
    (hnew : ∀ peerPub e, o = .dial peerPub → v.dialed = .ok () →
      FederationInitiator.new C (initiatorConfig cfg job.peerDomain peerPub) ≠ .error e) :
    Balance f o.held (resumeClosings C rt cfg v f (.opening job p o))
      (openSession C rt cfg v f job p o) := by
  have hsame {had closed : List ℕ} {r : Result}
      (hhad : ∀ x ∈ had, x ∈ closed ∨ x ∈ r.list f.pending) : Balance f had closed (r,f) :=
    (Frame.refl f).balance hhad
  suffices h : ∀ r, openSession C rt cfg v f job p o = r →
      Balance f o.held (o.closings f r.1) r from h _ rfl
  intro r hr
  cases o with
  | endpoint =>
    rw [openSession] at hr
    split at hr
    · exact hr ▸ hsame (List.forall_mem_nil _)
    · split at hr <;> exact hr ▸ hsame (List.forall_mem_nil _)
  | peerPub =>
    rw [openSession] at hr
    split at hr
    · exact hr ▸ hsame (List.forall_mem_nil _)
    · split at hr <;> exact hr ▸ hsame (List.forall_mem_nil _)
  | dial peerPub =>
    rw [openSession] at hr
    cases hd : v.dialed with
    | error e =>
      rw [hd] at hr
      exact hr ▸ hsame (List.forall_mem_nil _)
    | ok u =>
      rw [hd] at hr
      cases hn : FederationInitiator.new C (initiatorConfig cfg job.peerDomain peerPub) with
      | error e => exact absurd hn (hnew peerPub e rfl hd)
      | ok i =>
        rw [hn] at hr
        dsimp only at hr
        split at hr
        · exact hr ▸ balance_dial fun x hx => .inl (List.mem_singleton.mpr hx)
        · exact hr ▸ balance_dial fun x hx => .inr (List.mem_singleton.mpr hx)
  | initSent t i =>
    rw [openSession] at hr
    split at hr
    · exact hr ▸ hsame fun x hx => .inl hx
    · exact hr ▸ hsame fun x hx => .inr hx
  | response t i =>
    rw [openSession] at hr
    split at hr
    · exact hr ▸ hsame fun x hx => .inl hx
    · exact hr ▸ hsame fun x hx => .inl hx
    · split at hr
      · exact hr ▸ hsame fun x hx => .inl hx
      · exact hr ▸ hsame fun x hx => .inr hx
  | confirmSent t i =>
    rw [openSession] at hr
    split at hr
    · exact hr ▸ hsame fun x hx => .inl hx
    · exact hr ▸ hsame fun x hx => .inr hx
  | accepted t i =>
    rw [openSession] at hr
    split at hr
    · exact hr ▸ hsame fun x hx => .inl hx
    · exact hr ▸ hsame fun x hx => .inl hx
    · split at hr
      · exact hr ▸ hsame fun x hx => .inl hx
      · exact hr ▸ balance_cache hfree
  | closed e => exact hr ▸ hsame (List.forall_mem_nil _)

/-- `dropSession` closes the session that it removes. -/
theorem dropSession_balance (f : Fields) (job : Job) (s : ℕ) (e : Thrown) (r : Result) :
    Balance f [] (resumeClosings C rt cfg v f (.failing job s e))
      (r,f.dropSession job.peerDomain s) := by
  rw [resumeClosings]
  cases hg : f.sessions.get job.peerDomain with
  | none =>
    rw [Fields.dropSession,hg]
    exact (Frame.refl f).balance (List.forall_mem_nil _)
  | some g =>
    rw [dropSession_of_get hg]
    refine ⟨fun _ _ hx => hx,fun x hx => ?_⟩
    obtain hx | ⟨d,s',hs',hx⟩ | ⟨hle,hlt⟩ := hx
    · cases hx
    · by_cases hd : d = job.peerDomain
      · obtain rfl : g = s' := Option.some.inj (hg.symm.trans (hd ▸ hs'))
        exact .inl (by simp [hx])
      · exact .inr (.inr ⟨d,s',(JsMap.get_delete_ne hd).trans hs',hx⟩)
    · exact absurd hlt (not_lt.mpr hle)

/-- The sessions of a list are closed one after the other. -/
theorem closing_list (hkeeps : ∀ s x, f.transportOf s = some x → f'.transportOf s = some x)
    {ss : List ℕ} {s x : ℕ} (hs : s ∈ ss) (hx : f.transportOf s = some x) :
    x ∈ f.closingFirst ss ∨ x ∈ (closeNext ss).list f'.pending := by
  cases ss with
  | nil => cases hs
  | cons g rest =>
    obtain rfl | hs := List.mem_cons.mp hs
    · exact .inl (by simp [Fields.closingFirst,hx])
    · exact .inr (List.mem_filterMap.mpr ⟨s,hs,hkeeps s x hx⟩)

theorem start_balance (c : Call) :
    Balance f [] (startClosings f c) (start v f c) := by
  refine start_cases (P := fun c r => Balance f [] (startClosings f c) r) c ?_ ?_ ?_ ?_
  · intro job s _
    exact (frame_record f _).balance nofun
  · intro job p _ _
    exact (Frame.refl f).balance (List.forall_mem_nil _)
  · intro job _ _
    exact (frame_connect f job).balance nofun
  · refine ⟨fun _ _ hx => hx,fun x hx => ?_⟩
    obtain hx | ⟨d,s,hs,hx⟩ | ⟨hle,hlt⟩ := hx
    · cases hx
    · exact (closing_list (fun _ _ h => h) (JsMap.mem_values.mpr ⟨d,hs⟩) hx).imp_right .inl
    · exact absurd hlt (not_lt.mpr hle)

theorem Entering.pending {t : Waiting} {job : Job} {s : ℕ} (he : Entering f t job s) :
    f.pending t = [] := by
  obtain rfl | ⟨p,d,rfl,_⟩ := he
  · rfl
  · rfl

theorem resume_balance (t : Waiting) (hfree : Uncached f t)
    (hnew : ∀ job p peerPub e, t = .opening job p (.dial peerPub) → v.dialed = .ok () →
      FederationInitiator.new C (initiatorConfig cfg job.peerDomain peerPub) ≠ .error e) :
    Balance f (f.pending t) (resumeClosings C rt cfg v f t) (resume C rt cfg v f t) := by
  by_cases hopening : ∃ job p o, t = .opening job p o
  · obtain ⟨job,p,o,rfl⟩ := hopening
    exact openSession_balance o (hfree job p o rfl) fun peerPub e ho hd =>
      hnew job p peerPub e (by rw [ho]) hd
  revert hopening
  have hfail (job : Job) (s : ℕ) (e : Thrown) (ev : Event) {closed : List ℕ} :
      Balance f [] closed (fail job s e (f.record ev)) :=
    (frame_fail f job s e ev).balance nofun
  refine resume_cases (P := fun t r => (¬∃ job p o, t = .opening job p o) →
    Balance f (f.pending t) (resumeClosings C rt cfg v f t) r) t
    ?connects ?refuses ?opens ?settles ?joins ?rejects ?waits ?unsigned ?sends ?unsent ?carries
    ?loses ?rejectsAnswer ?answers ?drops ?closes
  case connects => exact fun job p o _ _ h => absurd ⟨job,p,o,rfl⟩ h
  case refuses => exact fun job p o _ _ h => absurd ⟨job,p,o,rfl⟩ h
  case opens => exact fun job p _ _ _ _ _ _ h => absurd ⟨job,p,_,rfl⟩ h
  case settles => exact fun job p r _ => (frame_settle f _ p r).balance nofun
  case joins => exact fun _ _ _ _ => (Frame.refl f).balance (List.forall_mem_nil _)
  case rejects => exact fun _ _ _ _ _ _ => (Frame.refl f).balance (List.forall_mem_nil _)
  case waits =>
    intro t job s he _ _
    rw [he.pending]
    exact (Frame.refl f).balance (List.forall_mem_nil _)
  case unsigned =>
    intro t job s c e he _ _ _ _
    rw [he.pending]
    exact (frame_wireFor f _ _).balance nofun
  case sends =>
    intro t job s c wire he _ _ _ _
    rw [he.pending]
    exact ((frame_wireFor f _ _).trans (frame_send _ s _ wire _)).balance nofun
  case unsent => exact fun _ _ _ _ _ _ => hfail _ _ _ _
  case carries => exact fun _ _ _ _ _ => (frame_record f _).balance nofun
  case loses => exact fun _ _ _ _ _ => hfail _ _ _ _
  case rejectsAnswer => exact fun _ _ _ _ _ _ _ _ => hfail _ _ _ _
  case answers =>
    intro job s n respBytes ms _ _ _
    exact ((frame_record f _).trans (frame_setLocked _ s false)).balance nofun
  case drops => exact fun job s e _ => dropSession_balance f job s e _
  case closes =>
    intro rest _
    refine ⟨fun _ _ hx => hx,fun x hx => ?_⟩
    obtain hx | hx | ⟨hle,hlt⟩ := hx
    · obtain ⟨s,hs,hx⟩ := List.mem_filterMap.mp hx
      exact (closing_list (fun _ _ h => h) hs hx).imp_right .inl
    · exact .inr (.inr hx)
    · exact absurd hlt (not_lt.mpr hle)

end Balances

section Sessions
variable {C : Crypto} {rt : Runtime} {cfg : ForwarderConfig} {f : Fields} {v : Env}

/-- A handshake with the peer completes. -/
def Completes (C : Crypto) (rt : Runtime) (v : Env) (t : Waiting) (d : JsString) (r : Result) :
    Prop :=
  ∃ job p transport i acceptedBytes session s, t = .opening job p (.accepted transport i) ∧
    v.received = .ok (some acceptedBytes) ∧
    FederationInitiator.takeAccepted C rt i acceptedBytes = .ok session ∧
    job.peerDomain = d ∧ r = .awaiting (.settling job p (.ok s))

theorem Frame.uncached {f' : Fields} (h : Frame f f') {d : JsString}
    (hd : f.sessions.get d = none) : f'.sessions.get d = none := by
  rw [h.sessions]
  exact hd

theorem uncached_dropSession (f : Fields) (d' : JsString) (own : ℕ) {d : JsString}
    (hd : f.sessions.get d = none) : (f.dropSession d' own).sessions.get d = none := by
  cases hg : (f.dropSession d' own).sessions.get d with
  | none => rfl
  | some g => cases hd.symm.trans ((same_dropSession f d' own).sessions d g hg)

/-- A session is cached only where a handshake completes. -/
theorem resume_uncached (C : Crypto) (rt : Runtime) (cfg : ForwarderConfig) (v : Env) (t : Waiting)
    {d : JsString} (hd : f.sessions.get d = none) :
    (resume C rt cfg v f t).2.sessions.get d = none ∨
      Completes C rt v t d (resume C rt cfg v f t).1 := by
  refine resume_cases (P := fun t r => r.2.sessions.get d = none ∨ Completes C rt v t d r.1) t
    ?connects ?refuses ?opens ?settles ?joins ?rejects ?waits ?unsigned ?sends ?unsent ?carries
    ?loses ?rejectsAnswer ?answers ?drops ?closes
  case opens =>
    intro job p transport i acceptedBytes session hreceived haccepted
    by_cases hne : d = job.peerDomain
    · exact .inr ⟨job,p,transport,i,acceptedBytes,session,_,rfl,hreceived,haccepted,hne.symm,rfl⟩
    · exact .inl ((JsMap.get_set_ne hne).trans hd)
  case unsigned => exact fun _ _ _ _ _ _ _ _ _ => .inl ((frame_wireFor f _ _).uncached hd)
  case sends =>
    exact fun _ _ s _ wire _ _ _ _ =>
      .inl (((frame_wireFor f _ _).trans (frame_send _ s _ wire _)).uncached hd)
  case drops => exact fun job s _ => .inl (uncached_dropSession f job.peerDomain s hd)
  all_goals
    intros
    exact .inl hd

/-- A call that opens a session has opened it before. -/
theorem resume_opening (t : Waiting) {job : Job} {p : ℕ} {o : Opening}
    (h : (resume C rt cfg v f t).1 = .awaiting (.opening job p o)) :
    ∃ o', t = .opening job p o' := by
  revert h
  refine resume_cases (P := fun t r => r.1 = .awaiting (.opening job p o) →
    ∃ o', t = .opening job p o') t ?connects ?refuses ?opens ?settles ?joins ?rejects ?waits
    ?unsigned ?sends ?unsent ?carries ?loses ?rejectsAnswer ?answers ?drops ?closes
  case connects =>
    rintro job' p' o₀ o₁ n h
    cases h
    exact ⟨o₀,rfl⟩
  case closes =>
    intro rest h
    cases rest <;> cases h
  all_goals
    intros
    rename_i h
    cases h

theorem start_uncached (c : Call) {d : JsString} (hd : f.sessions.get d = none) :
    (start v f c).2.sessions.get d = none := by
  refine start_cases (P := fun _ r => r.2.sessions.get d = none) c ?_ ?_ ?_ ?_
  · exact fun _ _ _ => hd
  · exact fun _ _ _ _ => hd
  · exact fun _ _ _ => hd
  · rfl

theorem start_opening (c : Call) : (start v f c).1.All (Uncached (start v f c).2) := by
  refine start_cases (P := fun _ r => r.1.All (Uncached r.2)) c ?_ ?_ ?_ ?_
  · exact fun _ _ _ _ _ _ h => by cases h
  · exact fun _ _ _ _ _ _ _ h => by cases h
  · intro job hd _ job' p o h
    cases h
    exact hd
  · cases f.sessions.values with
    | nil => trivial
    | cons s rest => exact fun _ _ _ h => by cases h

end Sessions

/-- What holds once the steps so far closed these transports. -/
structure Tidy (w : World) (closed : List ℕ) : Prop where
  peers : peerLock.Safe w
  opening : Every (fun _ => Uncached w.fields) w
  accounted : ∀ x < w.fields.transports,
    x ∈ closed ∨ x ∈ gather w.fields.pending w ∨ w.fields.Cached x
  shut : CloseCalled w → ∀ d, w.fields.sessions.get d = none

section Runs
variable {C : Crypto} {rt : Runtime} {cfg : ForwarderConfig} {envelopes : ℕ → Members}
  {w : World} {closed : List ℕ}

theorem tidy_initial (envelopes : ℕ → Members) : Tidy (World.initial envelopes) [] where
  peers := ⟨fun _ => Nat.zero_le _,fun _ _ => rfl,fun _ _ _ h => by simp [World.initial] at h⟩
  opening _ _ _ h := by simp [World.initial] at h
  accounted _ hx := by cases hx
  shut := by
    rintro ⟨c,hc,_⟩
    cases hc

theorem closeCalled_started {c : Call} {r : Result × Fields} (h : CloseCalled (w.started c r)) :
    CloseCalled w ∨ c = .close := by
  obtain ⟨x,hx,hclose⟩ := h
  obtain hx | hx := List.mem_append.mp hx
  · exact .inl ⟨x,hx,hclose⟩
  · obtain rfl := List.mem_singleton.mp hx
    exact .inr hclose

theorem closeCalled_resumed {i : ℕ} {c : Call} {t : Waiting} {r : Result × Fields}
    (hi : w.calls[i]? = some ⟨c,.awaiting t⟩) (h : CloseCalled (w.resumed i c r)) :
    CloseCalled w := by
  obtain ⟨x,hx,hclose⟩ := h
  obtain hx | rfl := List.mem_or_eq_of_mem_set hx
  · exact ⟨x,hx,hclose⟩
  · exact ⟨_,List.mem_of_getElem? hi,hclose⟩

/-- What a waiting call has to close it still has where the sessions keep their transports. -/
theorem pending_mono {f f' : Fields}
    (hkeeps : ∀ s x, f.transportOf s = some x → f'.transportOf s = some x) {t : Waiting} {x : ℕ}
    (hx : x ∈ f.pending t) : x ∈ f'.pending t := by
  cases t with
  | opening job p o => exact hx
  | closing rest =>
    obtain ⟨s,hs,hx⟩ := List.mem_filterMap.mp hx
    exact List.mem_filterMap.mpr ⟨s,hs,hkeeps s x hx⟩
  | _ => cases hx

/-- The other calls keep what they have to close. -/
theorem Tidy.balanced (h : Tidy w closed) {w' : World} {had now : List ℕ} {r : Result}
    (hb : Balance w.fields had now (r,w'.fields))
    (hothers : ∀ x ∈ gather w.fields.pending w, x ∈ had ∨ x ∈ gather w.fields.pending w')
    (hown : ∀ x ∈ r.list w'.fields.pending, x ∈ gather w'.fields.pending w') :
    ∀ x < w'.fields.transports,
      x ∈ closed++now ∨ x ∈ gather w'.fields.pending w' ∨ w'.fields.Cached x := by
  intro x hx
  have hmoves (hx : x ∈ had ∨ w.fields.Cached x ∨
      w.fields.transports ≤ x ∧ x < w'.fields.transports) :
      x ∈ closed++now ∨ x ∈ gather w'.fields.pending w' ∨ w'.fields.Cached x :=
    (hb.moves x hx).imp (List.mem_append_right _) (.imp_left (hown x))
  by_cases hlt : x < w.fields.transports
  · obtain hx | hx | hx := h.accounted x hlt
    · exact .inl (List.mem_append_left _ hx)
    · obtain hx | hx := hothers x hx
      · exact hmoves (.inl hx)
      · obtain ⟨j,c,t,hj,hx⟩ := (mem_gather _).mp hx
        exact .inr (.inl ((mem_gather _).mpr ⟨j,c,t,hj,pending_mono hb.keeps hx⟩))
    · exact hmoves (.inr (.inl hx))
  · exact hmoves (.inr (.inr ⟨not_lt.mp hlt,hx⟩))

theorem Tidy.started (h : Tidy w closed) (c : Call) (v : Env) :
    Tidy (w.started c (start v w.fields c)) (closed++closings C rt cfg w (.start c v)) where
  peers := peers_start h.peers c
  opening := by
    have hothers : Every (fun _ => Uncached (start v w.fields c).2) w :=
      h.opening.mono fun _ _ ht job p o heq => start_uncached c (ht job p o heq)
    exact hothers.started c (start_opening c)
  accounted := by
    have hb : Balance w.fields [] (startClosings w.fields c) (start v w.fields c) :=
      start_balance c
    refine h.balanced hb ?_ ?_
    · exact fun x hx => .inr ((mem_gather_started _).mpr (.inl hx))
    · exact fun x hx => (mem_gather_started _).mpr (.inr hx)
  shut hclose d := by
    obtain hclose | rfl := closeCalled_started hclose
    · exact start_uncached c (h.shut hclose d)
    · rfl

theorem Tidy.resumed (h : Tidy w closed) {i : ℕ} {c : Call} {t : Waiting}
    (hi : w.calls[i]? = some ⟨c,.awaiting t⟩) {v : Env} (hok : Quiet C rt cfg w (.resume i v)) :
    Tidy (w.resumed i c (resume C rt cfg v w.fields t))
      (closed++closings C rt cfg w (.resume i v)) where
  peers := peers_resume h.peers hi
  opening := by
    refine every_resumed_of_others
      (P := fun _ => Uncached (resume C rt cfg v w.fields t).2) ?_ ?_
    · rintro j d t' hne hj job p o rfl
      obtain hnone | ⟨job',p',transport,n,bytes,session,s,rfl,-,-,hd,-⟩ :=
        resume_uncached C rt cfg v t (h.opening j d _ hj job p o rfl)
      · exact hnone
      · -- two calls that open a session to one peer
        have hheld : peerLock.holds (.opening job p o) = some job.peerDomain := rfl
        have hheld' : peerLock.holds (.opening job' p' (.accepted transport n)) =
            some job.peerDomain := congrArg some hd
        exact absurd (index_unique (h.peers.alone _) hj hi (Lock.count_eq_one.mpr hheld).ge
          (Lock.count_eq_one.mpr hheld').ge) hne
    · cases hr : (resume C rt cfg v w.fields t).1 with
      | done r => trivial
      | awaiting t' =>
        rintro job p o rfl
        obtain ⟨o',rfl⟩ := resume_opening t hr
        obtain hnone | ⟨_,_,_,_,_,_,_,-,-,-,-,hsettling⟩ :=
          resume_uncached C rt cfg v _ (h.opening i c _ hi job p o' rfl)
        · exact hnone
        · cases hr.symm.trans hsettling
  accounted := by
    have hclosings : closings C rt cfg w (.resume i v) = resumeClosings C rt cfg v w.fields t := by
      rw [closings,hi]
    rw [hclosings]
    have hb : Balance w.fields (w.fields.pending t) (resumeClosings C rt cfg v w.fields t)
        (resume C rt cfg v w.fields t) := by
      refine resume_balance t (h.opening i c t hi) ?_
      rintro job p peerPub e rfl hdialed
      exact (hok c job p _ hi).2 peerPub e rfl hdialed
    refine h.balanced hb ?_ ?_
    · exact fun x hx => mem_gather_resumed_or _ hi _ hx
    · exact fun x hx => mem_gather_resumed _ hi hx
  shut hclose d := by
    have hcalled := closeCalled_resumed hi hclose
    obtain hnone | ⟨job,p,transport,n,bytes,session,s,rfl,hreceived,haccepted,-,-⟩ :=
      resume_uncached C rt cfg v t (h.shut hcalled d)
    · exact hnone
    · exact absurd haccepted
        ((hok c job p _ hi).1 transport n bytes session rfl hcalled hreceived)

theorem Run.tidy
    (h : Run C rt cfg (fun w a => NoneAfter w a ∧ Quiet C rt cfg w a) envelopes w closed) :
    Tidy w closed := by
  induction h with
  | initial => exact tidy_initial envelopes
  | @step w w' closed a _ hok hs ih =>
    revert hok
    refine step_cases hs (C := fun a w' => (NoneAfter w a ∧ Quiet C rt cfg w a) →
      Tidy w' (closed++closings C rt cfg w a)) ?_ ?_
    · exact fun c v _ => ih.started c v
    · exact fun i v c t hi hok => ih.resumed hi hok.2

/-- Where no handshake completes once `close` was called, and no constructor throws behind a dial,
`close` and the calls before it leave nothing cached and nothing open, in any order of steps. -/
theorem shutDown_run
    (h : Run C rt cfg (fun w a => NoneAfter w a ∧ Quiet C rt cfg w a) envelopes w closed)
    (hclose : CloseCalled w) (hidle : Idle w) : ShutDown w closed := by
  have ht := h.tidy
  have hnone := ht.shut hclose
  refine ⟨?_,fun x hx => ?_⟩
  · rw [List.eq_nil_iff_forall_not_mem]
    rintro ⟨d,s⟩ hmem
    cases (hnone d).symm.trans (JsMap.get_eq_some.mpr hmem)
  · obtain hx | hx | ⟨d,s,hs,-⟩ := ht.accounted x hx
    · exact hx
    · obtain ⟨i,c,t,hi,-⟩ := (mem_gather _).mp hx
      exact (hidle i c t hi).elim
    · cases (hnone d).symm.trans hs

theorem run_of_reached {ok : World → Act Call Env → Prop}
    (h : Reached (forwarder C rt cfg) ok (World.initial envelopes) w) :
    ∃ closed, Run C rt cfg ok envelopes w closed := by
  induction h with
  | refl => exact ⟨[],.initial⟩
  | tail _ hok hs ih =>
    obtain ⟨closed,hrun⟩ := ih
    exact ⟨_,hrun.step hok hs⟩

end Runs

section Samples
variable {C : Crypto} {rt : Runtime} {cfg : ForwarderConfig}

/-- Neither the dial nor the last message of a handshake is awaited. -/
def Waiting.quiet : Waiting → Bool
  | .opening _ _ (.dial _) => false
  | .opening _ _ (.accepted _ _) => false
  | _ => true

theorem quiet_resume {w : World} {i : ℕ} {c : Call} {t : Waiting} {v : Env}
    (hi : w.calls[i]? = some ⟨c,.awaiting t⟩) (ht : t.quiet = true) :
    NoneAfter w (.resume i v) ∧ Quiet C rt cfg w (.resume i v) := by
  refine ⟨trivial,fun c' job p o hi' => ?_⟩
  cases hi.symm.trans hi'
  constructor
  · rintro _ _ _ _ rfl
    cases ht
  · rintro _ _ rfl
    cases ht

/-- The transport is lost after the dial, and then `close` is called. -/
theorem lost_dial {d : JsString} {session : FederationInitiatorSession} {peerPub : Bytes}
    {entropy : InitiatorEntropy} {response accepted : Bytes} (request : Json)
    (envelopes : ℕ → Members)
    (ha : Agrees C rt cfg d session peerPub entropy response accepted) :
    ∃ w, Reached (forwarder C rt cfg) (fun w a => NoneAfter w a ∧ Quiet C rt cfg w a)
        (World.initial envelopes) w ∧ CloseCalled w ∧ Idle w ∧ w.fields.transports = 1 := by
  obtain ⟨i₀,i₁,_,_,_,hnew,hinit,_,_⟩ := ha.answers
  let job : Job := ⟨d,.keys request⟩
  let e : Thrown := .error (js "connection lost")
  let v := given 0 entropy peerPub none
  let f₁ := (Fields.initial envelopes).connect job
  let f₂ := f₁.dial 1
  let f₃ := f₂.settle d 0 (.error e)
  have h₀ : Reached (forwarder C rt cfg) (fun w a => NoneAfter w a ∧ Quiet C rt cfg w a)
      (World.initial envelopes) (World.initial envelopes) := .refl
  have hnone : ¬CloseCalled (World.initial envelopes) := fun ⟨_,hc,_⟩ => by cases hc
  have h₁ := h₀.start (c := .request job) (v := v) ⟨hnone,trivial⟩
    (r := (.awaiting (.opening job 0 .endpoint),f₁)) rfl
  have h₂ := h₁.resume (i := 0) rfl (v := v) (quiet_resume rfl rfl)
    (r := (.awaiting (.opening job 0 .peerPub),f₁)) rfl
  have h₃ := h₂.resume (i := 0) rfl (v := v) (quiet_resume rfl rfl)
    (r := (.awaiting (.opening job 0 (.dial peerPub)),f₁)) (if_neg ha.key)
  have hdial : Quiet C rt cfg ⟨f₁,[⟨.request job,.awaiting (.opening job 0 (.dial peerPub))⟩]⟩
      (.resume 0 v) := by
    intro c job' p o hi
    cases hi
    constructor
    · rintro _ _ _ _ ho
      cases ho
    · rintro peerPub' e' ho _ he
      cases ho
      cases hnew.symm.trans he
  have h₄ := h₃.resume (i := 0) rfl (v := v) ⟨trivial,hdial⟩
    (r := (.awaiting (.opening job 0 (.initSent 0 i₁)),f₂)) (by
      change openSession C rt cfg v f₁ job 0 (.dial peerPub) = _
      simp only [openSession,v,given,hnew,job,hinit]
      rfl)
  have h₅ := h₄.resume (i := 0) rfl (v := lost 0) (quiet_resume rfl rfl)
    (r := (.awaiting (.opening job 0 (.closed e)),f₂)) rfl
  have h₆ := h₅.resume (i := 0) rfl (v := v) (quiet_resume rfl rfl)
    (r := (.awaiting (.settling job 0 (.error e)),f₂)) rfl
  have h₇ := h₆.resume (i := 0) rfl (v := v) (quiet_resume rfl rfl)
    (r := (.awaiting (.joining job 0),f₃)) rfl
  have h₈ := h₇.resume (i := 0) rfl (v := v) (quiet_resume rfl rfl)
    (r := (.done (.error e),f₃)) rfl
  have h₉ := h₈.start (c := .close) (v := v) ⟨trivial,trivial⟩
    (r := (.done (.ok .closed),f₃)) rfl
  exact ⟨_,h₉,⟨_,List.mem_of_getElem? (i := 1) rfl,rfl⟩,idle_of_all rfl,rfl⟩

theorem shutDown_sample : ∃ w closed, w.fields.transports = 1 ∧ ShutDown w closed := by
  obtain ⟨response,accepted,session,ha,-⟩ := sampleDialog_ok
  obtain ⟨w,hreached,hclose,hidle,hdialled⟩ := lost_dial .null (fun _ => []) ha
  obtain ⟨closed,hrun⟩ := run_of_reached hreached
  exact ⟨w,closed,hdialled,shutDown_run hrun hclose hidle⟩

/-- A handshake that completes after `close` was called leaves its session cached. -/
theorem late_session {d : JsString} {session : FederationInitiatorSession} {peerPub : Bytes}
    {entropy : InitiatorEntropy} {response accepted respBytes : Bytes} {ms : Members}
    (request : Json) (envelopes : ℕ → Members)
    (ha : Agrees C rt cfg d session peerPub entropy response accepted)
    (hresponse : parseResponse (.keys request) respBytes = .ok ms) :
    ∃ w, Reached (forwarder C rt cfg) NoneAfter (World.initial envelopes) w ∧ CloseCalled w ∧
      Idle w ∧ w.fields.sessions.get d = some 0 := by
  let job : Job := ⟨d,.keys request⟩
  let v := given 0 entropy peerPub (some respBytes)
  let f₁ := (Fields.initial envelopes).connect job
  let f₂ := (f₁.dial 1).cache d 0 session 0
  let f₃ := f₂.settle d 0 (.ok 0)
  let f₄ := f₃.send 0 job.request (Utf8.textEncode (JsonText.stringify request)) 0
  let f₅ := f₄.record (.carried 0 0)
  let f₆ := (f₅.record (.answered 0 0 0 (.ok ms))).setLocked 0 false
  have h₀ : Reached (forwarder C rt cfg) NoneAfter (World.initial envelopes)
      (World.initial envelopes) := .refl
  have h₁ := h₀.start (c := .request job) (v := v) (fun ⟨_,hc,_⟩ => by cases hc)
    (r := (.awaiting (.opening job 0 .endpoint),f₁)) rfl
  have h₂ := h₁.start (c := .close) (v := v) trivial (r := (.done (.ok .closed),f₁)) rfl
  have h₃ := reached_open 0 (fun _ _ _ _ _ _ _ _ _ => trivial) ha h₂ (i := 0) rfl
  have h₄ := h₃.resume (i := 0) rfl trivial (v := v) (r := (.awaiting (.joining job 0),f₃)) rfl
  have h₅ := h₄.resume (i := 0) rfl trivial (v := v) (r := (.awaiting (.sending job 0 0),f₄)) rfl
  have h₆ := h₅.resume (i := 0) rfl trivial (v := v) (r := (.awaiting (.receiving job 0 0),f₅)) rfl
  have h₇ := h₆.resume (i := 0) rfl trivial (v := v) (r := (.done (.ok (.response ms)),f₆)) (by
    change resume C rt cfg v f₅ (.receiving job 0 0) = _
    simp only [resume,v,given,job,hresponse]
    rfl)
  exact ⟨_,h₇,⟨_,List.mem_of_getElem? (i := 1) rfl,rfl⟩,idle_of_all rfl,JsMap.get_set_self⟩

/-- Not every order of the steps leaves nothing cached. -/
theorem not_shutDown : ¬∀ (C : Crypto) (rt : Runtime) (cfg : ForwarderConfig)
    (envelopes : ℕ → Members) (w : World) (closed : List ℕ),
      Run C rt cfg NoneAfter envelopes w closed → CloseCalled w → Idle w →
        ShutDown w closed := by
  intro h
  obtain ⟨response,accepted,session,ha,-⟩ := sampleDialog_ok
  have hresponse : parseResponse (.keys .null) (Utf8.textEncode (JsonText.stringify (.obj []))) =
      .ok [] := by
    rw [parseResponse,JsonText.textDecode_stringify,parseJson_stringify (by simp [Json.WF])]
    rfl
  obtain ⟨w,hreached,hclose,hidle,hcached⟩ := late_session .null (fun _ => []) ha hresponse
  obtain ⟨closed,hrun⟩ := run_of_reached hreached
  have hnone := (h _ _ _ _ w closed hrun hclose hidle).uncached
  have hmem := JsMap.get_eq_some.mp hcached
  rw [hnone] at hmem
  cases hmem

end Samples
end Forwarder
end Semp
