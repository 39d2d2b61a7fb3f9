import Semp.ForwarderRun
import Semp.History

/-! How old a session of the forwarder is when it is used. -/
namespace Semp
namespace Forwarder
open Tasks History

/-- `session_ttl` seconds have passed since the session was opened. -/
def Expired (session : FederationInitiatorSession) (openedAt now : ℤ) : Prop :=
  ∃ x, toNumber session.sessionTTL = .ok x ∧ x.isFinite ∧ openedAt+x.toRat*1000 ≤ now

/-- The session was opened and has not expired. -/
def Live (log : List Event) (s : ℕ) (now : ℤ) : Prop :=
  ∃ d session openedAt, .opened d s session openedAt ∈ log ∧ ¬Expired session openedAt now

/-- A call is given no expired session, and no request is sent on one. -/
def Timely (pre : List Event) : Event → Prop
  | .found s now => Live pre s now
  | .sent s _ _ _ now => Live pre s now
  | _ => True

section Expiry
variable {C : Crypto} {rt : Runtime} {cfg : ForwarderConfig} {f f' : Fields} {v : Env} {w : World}
  {t : Waiting} {job job' : Job} {s s' : ℕ}

variable (C cfg) in
/-- The session is free, and the request can be signed for it. -/
def Fields.Sendable (f : Fields) (job : Job) (s : ℕ) : Prop :=
  ∃ c, f.opened[s]? = some c ∧ c.locked = false ∧
    ∃ wire, (wireFor C cfg f c.session job.request).1 = .ok wire

variable (C cfg) in
/-- No expired session of the peer is cached when a call starts, and none is free when a call
that has it comes to its wire. -/
def FindsLive (w : World) : Act Call Env → Prop
  | .start (.request job) v =>
    ∀ s, w.fields.sessions.get job.peerDomain = some s → Live w.fields.log s v.now
  | .start .close _ => True
  | .resume i v => ∀ c t job s, w.calls[i]? = some ⟨c,.awaiting t⟩ → Entering w.fields t job s →
      w.fields.Sendable C cfg job s → Live w.fields.log s v.now

theorem Entering.unique (h : Entering f t job s) (h' : Entering f t job' s') :
    job' = job ∧ s' = s := by
  obtain rfl | ⟨p,d,rfl,hp⟩ := h
  · obtain h' | ⟨p',d',h',-⟩ := h'
    · cases h'
      exact ⟨rfl,rfl⟩
    · cases h'
  · obtain h' | ⟨p',d',h',hp'⟩ := h'
    · cases h'
    · cases h'
      cases hp.symm.trans hp'
      exact ⟨rfl,rfl⟩

theorem timely_of_log {e : Event} (hlog : f'.log = f.log++[e]) (he : Timely f.log e) :
    Justified Timely f'.log ↔ Justified Timely f.log := by
  rw [hlog,justified_concat]
  exact and_iff_left he

theorem timely_start (c : Call) :
    Justified Timely (start v f c).2.log ↔ Justified Timely f.log ∧ ∀ job s, c = .request job →
      f.sessions.get job.peerDomain = some s → Live f.log s v.now := by
  refine start_cases (P := fun c r => Justified Timely r.2.log ↔ Justified Timely f.log ∧
    ∀ job s, c = .request job → f.sessions.get job.peerDomain = some s → Live f.log s v.now) c
    ?finds ?joins ?connects ?closes
  case finds =>
    intro job s hs
    refine justified_concat.trans (and_congr_right fun _ => ?_)
    constructor
    · rintro hlive job' s' heq hs'
      cases heq
      obtain rfl := Option.some.inj (hs.symm.trans hs')
      exact hlive
    · intro hall
      exact hall job s rfl hs
  case joins =>
    intro job p hno _
    refine (and_iff_left fun job' s heq hs => ?_).symm
    cases heq
    cases hno.symm.trans hs
  case connects =>
    intro job hno _
    refine (and_iff_left fun job' s heq hs => ?_).symm
    cases heq
    cases hno.symm.trans hs
  case closes =>
    refine (and_iff_left fun job s heq => ?_).symm
    cases heq

theorem timely_resume (t : Waiting) :
    Justified Timely (resume C rt cfg v f t).2.log ↔ Justified Timely f.log ∧
      ∀ job s, Entering f t job s → f.Sendable C cfg job s → Live f.log s v.now := by
  have hother {t : Waiting} (hne : ∀ job s, ¬Entering f t job s) :
      ∀ job s, Entering f t job s → f.Sendable C cfg job s → Live f.log s v.now :=
    fun job s he => absurd he (hne job s)
  refine resume_cases (P := fun t r => Justified Timely r.2.log ↔ Justified Timely f.log ∧
    ∀ job s, Entering f t job s → f.Sendable C cfg job s → Live f.log s v.now) t ?connects ?refuses
    ?opens ?settles ?joins ?rejects ?waits ?unsigned ?sends ?unsent ?carries ?loses ?rejectsAnswer
    ?answers ?drops ?closes
  case joins =>
    intro job p hno
    refine (and_iff_left (hother fun job' s => ?_)).symm
    rintro (h | ⟨p',d,h,hp⟩) <;> cases h
    exact hno d s hp
  case rejects =>
    intro job p d e hp
    refine (and_iff_left (hother fun job' s => ?_)).symm
    rintro (h | ⟨p',d',h,hp'⟩) <;> cases h
    cases hp.symm.trans hp'
  case waits =>
    intro t job s he hlocked
    refine (and_iff_left ?_).symm
    rintro job' s' he' ⟨c,hc,hfree,-⟩
    obtain ⟨rfl,rfl⟩ := he.unique he'
    rw [hlocked c hc] at hfree
    cases hfree
  case unsigned =>
    intro t job s c e he hc _ hr
    rw [wireFor_log]
    refine (and_iff_left ?_).symm
    rintro job' s' he' ⟨c',hc',-,wire,hw⟩
    obtain ⟨rfl,rfl⟩ := he.unique he'
    obtain rfl := Option.some.inj (hc.symm.trans hc')
    cases hr.symm.trans hw
  case sends =>
    intro t job s c wire he hc hfree hw
    have hlog : ((wireFor C cfg f c.session job.request).2.send s job.request wire v.now).log =
        f.log++[.sent s (wireFor C cfg f c.session job.request).2.requests job.request wire v.now] :=
      congrArg (·++_) (wireFor_log c.session job.request)
    rw [hlog,justified_concat]
    refine and_congr_right fun _ => ?_
    constructor
    · intro hlive job' s' he' _
      obtain ⟨rfl,rfl⟩ := he.unique he'
      exact hlive
    · intro hall
      exact hall job s he ⟨c,hc,hfree,wire,hw⟩
  case opens =>
    intro job p t i acceptedBytes session _ _
    rw [and_iff_left (hother (by simp [Entering]))]
    exact timely_of_log rfl trivial
  case carries =>
    intro job s n _
    rw [and_iff_left (hother (by simp [Entering]))]
    exact timely_of_log rfl trivial
  case unsent =>
    intro job s n e _
    rw [and_iff_left (hother (by simp [Entering]))]
    exact timely_of_log (f := f) rfl trivial
  case loses =>
    intro job s n e
    rw [and_iff_left (hother (by simp [Entering]))]
    exact timely_of_log (f := f) rfl trivial
  case rejectsAnswer =>
    intro job s n respBytes e _ _
    rw [and_iff_left (hother (by simp [Entering]))]
    exact timely_of_log (f := f) rfl trivial
  case answers =>
    intro job s n respBytes ms _ _
    rw [and_iff_left (hother (by simp [Entering]))]
    exact timely_of_log (f := f) rfl trivial
  case drops =>
    intro job s e
    rw [and_iff_left (hother (by simp [Entering])),Fields.dropSession]
    split
    · exact Iff.rfl
    · exact timely_of_log rfl trivial
  all_goals
    intros
    exact (and_iff_left (hother (by simp [Entering]))).symm

theorem timely_step {a : Act Call Env} {w' : World}
    (hs : step (forwarder C rt cfg) w a = some w') :
    Justified Timely w'.fields.log ↔ Justified Timely w.fields.log ∧ FindsLive C cfg w a := by
  refine step_cases hs (C := fun a w' =>
    Justified Timely w'.fields.log ↔ Justified Timely w.fields.log ∧ FindsLive C cfg w a) ?_ ?_
  · intro c v
    refine (timely_start c).trans (and_congr_right fun _ => ?_)
    cases c with
    | request job =>
      constructor
      · exact fun hlive s hs => hlive job s rfl hs
      · rintro hlive job' s heq hs
        cases heq
        exact hlive s hs
    | close => exact iff_of_true (fun job s heq => by cases heq) trivial
  · intro i v c t hi
    refine (timely_resume t).trans (and_congr_right fun _ => ?_)
    constructor
    · intro hlive c' t' job s hi' he hsend
      obtain ⟨-,ht⟩ := Call.mk.inj (Option.some.inj (hi.symm.trans hi'))
      cases ht
      exact hlive job s he hsend
    · intro hlive job s he hsend
      exact hlive c t job s hi he hsend

/-- The runs in which no expired session is used. -/
theorem timely_iff (envelopes : ℕ → Members) :
    Reached (forwarder C rt cfg) (FindsLive C cfg) (World.initial envelopes) w ↔
      Reached (forwarder C rt cfg) (fun _ _ => True) (World.initial envelopes) w ∧
        Justified Timely w.fields.log := by
  refine reached_iff (I := fun _ => True) (G := fun w => Justified Timely w.fields.log) trivial ?_
    (fun _ _ _ _ _ => trivial) fun _ _ _ _ hs => timely_step hs
  exact justified_nil

end Expiry

section Samples
variable {C : Crypto} {rt : Runtime} {cfg : ForwarderConfig}

/-- A session is opened, and a request that comes at any later time is sent on it. -/
theorem found_whenever {d : JsString} {session : FederationInitiatorSession} {peerPub : Bytes}
    {entropy : InitiatorEntropy} {response accepted : Bytes} (request : Json) (now : ℤ)
    (envelopes : ℕ → Members)
    (ha : Agrees C rt cfg d session peerPub entropy response accepted) :
    ∃ w, Reached (forwarder C rt cfg) (fun _ _ => True) (World.initial envelopes) w ∧
      w.fields.log = [.opened d 0 session 0,.found 0 now,
        .sent 0 0 (.keys request) (Utf8.textEncode (JsonText.stringify request)) now] := by
  let job : Job := ⟨d,.keys request⟩
  let v := given 0 entropy peerPub none
  let late := given now entropy peerPub none
  let f₁ := (Fields.initial envelopes).connect job
  let f₂ := (f₁.dial 1).cache d 0 session 0
  let f₃ := f₂.record (.found 0 now)
  let f₄ := f₃.send 0 job.request (Utf8.textEncode (JsonText.stringify request)) now
  have h₀ : Reached (forwarder C rt cfg) (fun _ _ => True) (World.initial envelopes)
      (World.initial envelopes) := .refl
  have h₁ := h₀.start (c := .request job) (v := v) trivial
    (r := (.awaiting (.opening job 0 .endpoint),f₁)) rfl
  have h₂ := reached_open 0 (fun _ _ _ _ _ _ _ _ _ => trivial) ha h₁ (i := 0) rfl
  have h₃ := h₂.start (c := .request job) (v := late) trivial
    (r := (.awaiting (.entering job 0),f₃)) (by
      have hfound : f₂.sessions.get d = some 0 := JsMap.get_set_self
      change start late f₂ (.request job) = _
      simp only [start,job,hfound]
      rfl)
  have h₄ := h₃.resume (i := 1) rfl trivial (v := late)
    (r := (.awaiting (.sending job 0 0),f₄)) rfl
  exact ⟨_,h₄,rfl⟩

/-- Not every run stops using a session when it expires. -/
theorem not_timely : ¬∀ (C : Crypto) (rt : Runtime) (cfg : ForwarderConfig)
    (envelopes : ℕ → Members) (w : World),
      Reached (forwarder C rt cfg) (fun _ _ => True) (World.initial envelopes) w →
        Justified Timely w.fields.log := by
  intro h
  obtain ⟨response,accepted,session,ha,httl⟩ := sampleDialog_ok
  obtain ⟨w,hreached,hlog⟩ := found_whenever .null 3600000 (fun _ => []) ha
  have htimely := h _ _ _ _ w hreached
  rw [hlog] at htimely
  have hsent := htimely [.opened (js "b") 0 session 0,.found 0 3600000] _ (List.prefix_refl _)
  obtain ⟨d,session',openedAt,hopened,hlive⟩ := hsent
  obtain ⟨rfl,-,rfl,rfl⟩ : d = js "b" ∧ True ∧ session' = session ∧ openedAt = 0 := by
    simpa using hopened
  refine hlive ⟨_,httl,Number.isFinite_ofNat (by norm_num),?_⟩
  rw [Number.toRat_ofNat (by norm_num)]
  norm_num

end Samples

end Forwarder
end Semp
