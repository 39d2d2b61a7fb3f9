import Semp.Forwarder
import Semp.FederationResponder

/-! Runs of the forwarder: which sessions are known, and which of them a failed request drops. -/
namespace Semp
namespace Forwarder
open Handshake Tasks

/-- The session was opened to the peer. -/
def Fields.Opened (f : Fields) (peerDomain : JsString) (s : ℕ) : Prop :=
  ∃ session now, .opened peerDomain s session now ∈ f.log

/-- The promise is one for the peer. -/
def Fields.Promised (f : Fields) (peerDomain : JsString) (p : ℕ) : Prop :=
  ∃ settled, f.promises[p]? = some ⟨peerDomain,settled⟩

/-- The sessions and promises a call holds are those of its peer. -/
def Holds (f : Fields) : Waiting → Prop
  | .opening job p _ => f.Promised job.peerDomain p
  | .settling job p r =>
    f.Promised job.peerDomain p ∧ ∀ s, r = .ok s → f.Opened job.peerDomain s
  | .joining job p => f.Promised job.peerDomain p
  | .entering job s => f.Opened job.peerDomain s
  | .sending job s _ => f.Opened job.peerDomain s
  | .receiving job s _ => f.Opened job.peerDomain s
  | .failing job s _ => f.Opened job.peerDomain s
  | .closing _ => True

structure Known (f : Fields) : Prop where
  fresh : ∀ d s, f.Opened d s → s < f.opened.length
  latest : ∀ d g, f.sessions.get d = some g → f.Opened d g ∧ ∀ s, f.Opened d s → s ≤ g
  connecting : ∀ d p, f.connecting.get d = some p → f.Promised d p
  settled : ∀ (p : ℕ) (d : JsString) (s : ℕ),
    f.promises[p]? = some ⟨d,some (.ok s)⟩ → f.Opened d s

/-- What was opened or promised stays so. -/
structure Extends (f f' : Fields) : Prop where
  opened : ∀ d s, f.Opened d s → f'.Opened d s
  promised : ∀ d p, f.Promised d p → f'.Promised d p

section Steps
variable {C : Crypto} {rt : Runtime} {cfg : ForwarderConfig} {f f' : Fields} {w : World}

theorem Holds.mono {t : Waiting} (h : Holds f t) (he : Extends f f') : Holds f' t := by
  cases t with
  | opening job p o => exact he.promised _ _ h
  | settling job p r => exact ⟨he.promised _ _ h.1,fun s hs => he.opened _ _ (h.2 s hs)⟩
  | joining job p => exact he.promised _ _ h
  | closing rest => trivial
  | _ => exact he.opened _ _ h

/-- Nothing is opened or promised, and no session is cached. -/
structure Same (f f' : Fields) : Prop where
  sessions : ∀ d g, f'.sessions.get d = some g → f.sessions.get d = some g
  connecting : f'.connecting = f.connecting
  promises : f'.promises = f.promises
  length : f'.opened.length = f.opened.length
  opened : ∀ d s, f'.Opened d s ↔ f.Opened d s

theorem Same.extends (h : Same f f') : Extends f f' :=
  ⟨fun d s => (h.opened d s).mpr,fun d p => by
    rintro ⟨settled,hp⟩
    exact ⟨settled,h.promises ▸ hp⟩⟩

theorem Known.same (h : Known f) (hs : Same f f') : Known f' where
  fresh d s ho := hs.length ▸ h.fresh d s ((hs.opened d s).mp ho)
  latest d g hg := by
    obtain ⟨ho,hmax⟩ := h.latest d g (hs.sessions d g hg)
    exact ⟨(hs.opened d g).mpr ho,fun s hs' => hmax s ((hs.opened d s).mp hs')⟩
  connecting d p hp := hs.extends.promised d p (h.connecting d p (hs.connecting ▸ hp))
  settled p d s hp := (hs.opened d s).mpr (h.settled p d s (hs.promises ▸ hp))

theorem same_record (f : Fields) (e : Event) (h : ∀ d s x t, e ≠ .opened d s x t) :
    Same f (f.record e) where
  sessions _ _ := id
  connecting := rfl
  promises := rfl
  length := rfl
  opened d s := by
    refine exists_congr fun x => exists_congr fun t => ?_
    rw [Fields.record,List.mem_append,List.mem_singleton]
    exact or_iff_left fun heq => h d s x t heq.symm

theorem same_setLocked (f : Fields) (s : ℕ) (b : Bool) : Same f (f.setLocked s b) :=
  ⟨fun _ _ => id,rfl,rfl,List.length_modify ..,fun _ _ => Iff.rfl⟩

theorem same_dial (f : Fields) (n : ℕ) : Same f (f.dial n) :=
  ⟨fun _ _ => id,rfl,rfl,rfl,fun _ _ => Iff.rfl⟩

theorem same_wireFor (f : Fields) (session : FederationInitiatorSession) (request : Request) :
    Same f (wireFor C cfg f session request).2 := by
  cases request <;> exact ⟨fun _ _ => id,rfl,rfl,rfl,fun _ _ => Iff.rfl⟩

theorem Same.trans {f'' : Fields} (h : Same f f') (h' : Same f' f'') : Same f f'' where
  sessions d g hg := h.sessions d g (h'.sessions d g hg)
  connecting := h'.connecting.trans h.connecting
  promises := h'.promises.trans h.promises
  length := h'.length.trans h.length
  opened d s := (h'.opened d s).trans (h.opened d s)

theorem same_send (f : Fields) (s : ℕ) (request : Request) (wire : Bytes) (now : ℤ) :
    Same f (f.send s request wire now) := by
  have h := same_setLocked f s true
  have hcounted : Same f { f.setLocked s true with requests := f.requests+1 } :=
    ⟨h.sessions,h.connecting,h.promises,h.length,h.opened⟩
  refine hcounted.trans (same_record _ _ ?_)
  intro d s x t h
  cases h

theorem same_dropSession (f : Fields) (d : JsString) (own : ℕ) : Same f (f.dropSession d own) := by
  rw [Fields.dropSession]
  split
  · exact ⟨fun _ _ => id,rfl,rfl,rfl,fun _ _ => Iff.rfl⟩
  next s hs =>
    have hdeleted : Same f { f with sessions := f.sessions.delete d } :=
      ⟨fun _ _ hg => (JsMap.get_delete_eq_some.mp hg).2,rfl,rfl,rfl,fun _ _ => Iff.rfl⟩
    refine hdeleted.trans (same_record _ _ ?_)
    intro d s x t h
    cases h

theorem opened_cache {f : Fields} {d d' : JsString} {transport s : ℕ}
    {session : FederationInitiatorSession} {now : ℤ} :
    (f.cache d transport session now).Opened d' s ↔
      f.Opened d' s ∨ d' = d ∧ s = f.opened.length := by
  simp only [Fields.Opened,Fields.cache,List.mem_append,List.mem_singleton,Event.opened.injEq]
  constructor
  · rintro ⟨x,t,h | ⟨rfl,rfl,-,-⟩⟩
    · exact .inl ⟨x,t,h⟩
    · exact .inr ⟨rfl,rfl⟩
  · rintro (⟨x,t,h⟩ | ⟨rfl,rfl⟩)
    · exact ⟨x,t,.inl h⟩
    · exact ⟨session,now,.inr ⟨rfl,rfl,rfl,rfl⟩⟩

theorem Known.cache (h : Known f) (d : JsString) (transport : ℕ)
    (session : FederationInitiatorSession) (now : ℤ) :
    Known (f.cache d transport session now) where
  fresh d' s ho := by
    rw [Fields.cache,List.length_append,List.length_singleton]
    obtain ho | ⟨-,rfl⟩ := opened_cache.mp ho
    · exact Nat.lt_succ_of_lt (h.fresh d' s ho)
    · exact Nat.lt_succ_self _
  latest d' g hg := by
    by_cases hd : d' = d
    · subst hd
      rw [Fields.cache,JsMap.get_set_self] at hg
      obtain rfl := Option.some.inj hg
      refine ⟨opened_cache.mpr (.inr ⟨rfl,rfl⟩),fun s hs => ?_⟩
      obtain hs | ⟨-,rfl⟩ := opened_cache.mp hs
      · exact (h.fresh d' s hs).le
      · exact le_rfl
    · rw [Fields.cache,JsMap.get_set_ne hd] at hg
      obtain ⟨ho,hmax⟩ := h.latest d' g hg
      refine ⟨opened_cache.mpr (.inl ho),fun s hs => ?_⟩
      obtain hs | ⟨heq,-⟩ := opened_cache.mp hs
      · exact hmax s hs
      · exact absurd heq hd
  connecting := h.connecting
  settled p d' s hp := opened_cache.mpr (.inl (h.settled p d' s hp))

theorem extends_cache (f : Fields) (d : JsString) (transport : ℕ)
    (session : FederationInitiatorSession) (now : ℤ) :
    Extends f (f.cache d transport session now) :=
  ⟨fun _ _ ho => opened_cache.mpr (.inl ho),fun _ _ => id⟩

theorem extends_connect (f : Fields) (job : Job) : Extends f (f.connect job) :=
  ⟨fun _ _ => id,fun _ _ ⟨settled,hp⟩ => ⟨settled,by
    rw [Fields.connect,List.getElem?_append_left (List.getElem?_eq_some_iff.mp hp).1,hp]⟩⟩

theorem promised_connect (f : Fields) (job : Job) :
    (f.connect job).Promised job.peerDomain f.promises.length :=
  ⟨none,by simp [Fields.connect]⟩

theorem Known.connect (h : Known f) (job : Job) : Known (f.connect job) where
  fresh := h.fresh
  latest := h.latest
  connecting d p hp := by
    by_cases hd : d = job.peerDomain
    · subst hd
      rw [Fields.connect,JsMap.get_set_self] at hp
      obtain rfl := Option.some.inj hp
      exact promised_connect f job
    · rw [Fields.connect,JsMap.get_set_ne hd] at hp
      exact (extends_connect f job).promised d p (h.connecting d p hp)
  settled p d s hp := by
    rw [Fields.connect,List.getElem?_append] at hp
    split_ifs at hp
    · exact h.settled p d s hp
    · rw [List.getElem?_singleton] at hp
      split_ifs at hp
      cases hp

theorem extends_settle {d : JsString} {p : ℕ} (h : f.Promised d p) (r : Js ℕ) :
    Extends f (f.settle d p r) := by
  refine ⟨fun _ _ => id,?_⟩
  rintro d' p' ⟨settled,hp⟩
  by_cases heq : p = p'
  · subst heq
    obtain ⟨settled',hp'⟩ := h
    obtain ⟨rfl,-⟩ := Connecting.mk.inj (Option.some.inj (hp'.symm.trans hp))
    exact ⟨some r,by simp [Fields.settle,(List.getElem?_eq_some_iff.mp hp).1]⟩
  · exact ⟨settled,by rw [Fields.settle,List.getElem?_set_ne heq,hp]⟩

theorem Known.settle (h : Known f) {d : JsString} {p : ℕ} {r : Js ℕ} (hp : f.Promised d p)
    (hr : ∀ s, r = .ok s → f.Opened d s) : Known (f.settle d p r) where
  fresh := h.fresh
  latest := h.latest
  connecting d' p' hp' :=
    (extends_settle hp r).promised d' p'
      (h.connecting d' p' (JsMap.get_delete_eq_some.mp hp').2)
  settled p' d' s hp' := by
    rw [Fields.settle,List.getElem?_set] at hp'
    split_ifs at hp'
    · obtain ⟨rfl,hs⟩ := Connecting.mk.inj (Option.some.inj hp')
      exact hr s (Option.some.inj hs)
    · exact h.settled p' d' s hp'

theorem Same.refl (f : Fields) : Same f f := ⟨fun _ _ => id,rfl,rfl,rfl,fun _ _ => Iff.rfl⟩

/-- What a call came to, and the fields it left. -/
structure Advances (f : Fields) (r : Result × Fields) : Prop where
  known : Known r.2
  kept : Extends f r.2
  holds : r.1.All (Holds r.2)

theorem Same.advances (hs : Same f f') (h : Known f) {r : Result} (hr : r.All (Holds f)) :
    Advances f (r,f') :=
  ⟨h.same hs,hs.extends,hr.mono fun _ ht => ht.mono hs.extends⟩

theorem holds_closeNext (rest : List ℕ) : (closeNext rest).All (Holds f) := by
  cases rest <;> trivial

theorem Entering.opened {t : Waiting} {job : Job} {s : ℕ} (he : Entering f t job s) (h : Known f)
    (ht : Holds f t) : f.Opened job.peerDomain s := by
  obtain rfl | ⟨p,d,rfl,hp⟩ := he
  · exact ht
  · obtain ⟨settled,hp'⟩ := ht
    obtain ⟨rfl,-⟩ := Connecting.mk.inj (Option.some.inj (hp'.symm.trans hp))
    exact h.settled p _ s hp

theorem start_advances {v : Env} (h : Known f) (c : Call) : Advances f (start v f c) := by
  refine start_cases (P := fun _ r => Advances f r) c ?finds ?joins ?connects ?closes
  case finds =>
    intro job s hs
    have hsame : Same f (f.record (.found s v.now)) := same_record f _ (by intros; simp)
    exact hsame.advances h (h.latest _ _ hs).1
  case joins =>
    intro job p _ hp
    exact (Same.refl f).advances h (h.connecting _ _ hp)
  case connects =>
    intro job _ _
    exact ⟨h.connect job,extends_connect f job,promised_connect f job⟩
  case closes =>
    have hsame : Same f { f with sessions := .empty } :=
      ⟨fun _ _ hg => by simp at hg,rfl,rfl,rfl,fun _ _ => Iff.rfl⟩
    exact hsame.advances h (holds_closeNext _)

theorem fail_advances {job : Job} {s : ℕ} {e : Thrown} (h : Known f) (hs : Same f f')
    (ht : f.Opened job.peerDomain s) : Advances f (fail job s e f') :=
  (hs.trans (same_setLocked f' s false)).advances h ht

theorem resume_advances {v : Env} (h : Known f) {t : Waiting} (ht : Holds f t) :
    Advances f (resume C rt cfg v f t) := by
  revert ht
  refine resume_cases (P := fun t r => Holds f t → Advances f r) t ?connects ?refuses ?opens
    ?settles ?joins ?rejects ?waits ?unsigned ?sends ?unsent ?carries ?loses ?rejectsAnswer
    ?answers ?drops ?closes
  case connects =>
    intro job p o o' n ht
    exact (same_dial f n).advances h ht
  case refuses =>
    intro job p o e n ht
    exact (same_dial f n).advances h ⟨ht,fun s hs => by cases hs⟩
  case opens =>
    intro job p t i acceptedBytes session _ _ ht
    refine ⟨h.cache _ _ _ _,extends_cache _ _ _ _ _,ht,fun s hs => ?_⟩
    obtain rfl := Except.ok.inj hs
    exact opened_cache.mpr (.inr ⟨rfl,rfl⟩)
  case settles =>
    intro job p r ht
    exact ⟨h.settle ht.1 ht.2,extends_settle ht.1 r,(extends_settle ht.1 r).promised _ _ ht.1⟩
  case joins =>
    intro job p _ ht
    exact (Same.refl f).advances h ht
  case rejects =>
    intro job p d e _ _
    exact (Same.refl f).advances h trivial
  case waits =>
    intro t job s he _ ht
    exact (Same.refl f).advances h (he.opened h ht)
  case unsigned =>
    intro t job s c e he _ _ _ ht
    exact (same_wireFor f _ _).advances h (he.opened h ht)
  case sends =>
    intro t job s c wire he _ _ _ ht
    exact ((same_wireFor f _ _).trans (same_send _ _ _ _ _)).advances h (he.opened h ht)
  case unsent =>
    intro job s n e _ ht
    exact fail_advances h (same_record f _ (by intros; simp)) ht
  case carries =>
    intro job s n _ ht
    exact (same_record f _ (by intros; simp)).advances h ht
  case loses =>
    intro job s n e ht
    exact fail_advances h (same_record f _ (by intros; simp)) ht
  case rejectsAnswer =>
    intro job s n respBytes e _ _ ht
    exact fail_advances h (same_record f _ (by intros; simp)) ht
  case answers =>
    intro job s n respBytes ms _ _ _
    have hsame := same_record f (.answered s n v.answers (.ok ms)) (by intros; simp)
    exact (hsame.trans (same_setLocked _ s false)).advances h trivial
  case drops =>
    intro job s e _
    exact (same_dropSession f _ s).advances h trivial
  case closes =>
    intro rest _
    exact (Same.refl f).advances h (holds_closeNext rest)

/-- The fields are known, and the calls hold the sessions and promises of their peers. -/
structure Guarded (w : World) : Prop where
  known : Known w.fields
  holds : Every (fun _ t => Holds w.fields t) w

theorem guarded_initial (envelopes : ℕ → Members) : Guarded (World.initial envelopes) := by
  refine ⟨⟨?_,?_,?_,?_⟩,?_⟩
  · rintro d s ⟨session,now,h⟩
    cases h
  · intro d g h
    simp [World.initial,Fields.initial] at h
  · intro d p h
    simp [World.initial,Fields.initial] at h
  · intro p d s h
    simp [World.initial,Fields.initial] at h
  · intro i c t h
    simp [World.initial] at h

theorem Guarded.step {a : Act Call Env} {w' : World} (h : Guarded w)
    (hs : step (forwarder C rt cfg) w a = some w') : Guarded w' := by
  refine step_cases hs (C := fun _ w' => Guarded w') ?_ ?_
  · intro c v
    have ha : Advances w.fields (start v w.fields c) := start_advances h.known c
    exact ⟨ha.known,(h.holds.mono fun _ _ ht => ht.mono ha.kept).started c ha.holds⟩
  · intro i v c t hi
    have ha : Advances w.fields (resume C rt cfg v w.fields t) :=
      resume_advances h.known (h.holds i c t hi)
    exact ⟨ha.known,(h.holds.mono fun _ _ ht => ht.mono ha.kept).resumed i c ha.holds⟩

end Steps

/-- A failed request dropped no session but its own. -/
def OwnDropped (f : Fields) : Prop := ∀ own s, .dropped own s ∈ f.log → s = own

/-- No session to the peer is cached, or none was opened after `own`. -/
def Fields.Current (f : Fields) (peerDomain : JsString) (own : ℕ) : Prop :=
  f.sessions.get peerDomain = none ∨ ∀ s, f.Opened peerDomain s → s ≤ own

/-- A call whose request failed goes on before its session is replaced. -/
def DropsCurrent (w : World) : Act Call Env → Prop
  | .start _ _ => True
  | .resume i _ => ∀ c job s e, w.calls[i]? = some ⟨c,.awaiting (.failing job s e)⟩ →
      w.fields.Current job.peerDomain s

section Dropping
variable {C : Crypto} {rt : Runtime} {cfg : ForwarderConfig} {f f' : Fields} {v : Env} {w : World}

theorem ownDropped_of_log {e : Event} (hlog : f'.log = f.log++[e])
    (he : ∀ own s, e ≠ .dropped own s) : OwnDropped f' ↔ OwnDropped f := by
  unfold OwnDropped
  rw [hlog]
  refine forall_congr' fun own => forall_congr' fun s => ?_
  rw [List.mem_append,List.mem_singleton,or_iff_left (he own s).symm]

theorem ownDropped_start (c : Call) : OwnDropped (start v f c).2 ↔ OwnDropped f := by
  refine start_cases (P := fun _ r => OwnDropped r.2 ↔ OwnDropped f) c ?_ ?_ ?_ ?_
  · intro job s _
    exact ownDropped_of_log rfl (by intros; simp)
  all_goals intros; exact Iff.rfl

theorem ownDropped_wireFor (session : FederationInitiatorSession) (request : Request) :
    OwnDropped (wireFor C cfg f session request).2 ↔ OwnDropped f := by
  cases request <;> exact Iff.rfl

theorem Entering.not_failing {t : Waiting} {job : Job} {s : ℕ} (he : Entering f t job s)
    (job' : Job) (s' : ℕ) (e : Thrown) : t ≠ .failing job' s' e := by
  rintro rfl
  obtain h | ⟨p,d,h,-⟩ := he <;> cases h

theorem dropSession_of_get {f : Fields} {d : JsString} {own g : ℕ} (hg : f.sessions.get d = some g) :
    f.dropSession d own =
      { f with sessions := f.sessions.delete d }.record (.dropped own g) := by
  rw [Fields.dropSession,hg]

/-- The cached session is the last one opened to its peer, so it is the call's own or newer. -/
theorem ownDropped_dropSession (h : Known f) {d : JsString} {own : ℕ} (ho : f.Opened d own) :
    OwnDropped (f.dropSession d own) ↔ OwnDropped f ∧ f.Current d own := by
  cases hg : f.sessions.get d with
  | none =>
    rw [Fields.dropSession,hg]
    exact (and_iff_left (.inl hg)).symm
  | some g =>
    obtain ⟨hopened,hlast⟩ := h.latest d g hg
    unfold OwnDropped
    rw [dropSession_of_get hg,Fields.record]
    constructor
    · intro hall
      obtain rfl : g = own := hall own g (by simp)
      exact ⟨fun a b hab => hall a b (List.mem_append_left _ hab),.inr hlast⟩
    · rintro ⟨hall,hno | hcur⟩ a b hab
      · exact absurd (hg.symm.trans hno) (by simp)
      obtain hab | hab := List.mem_append.mp hab
      · exact hall a b hab
      · obtain ⟨rfl,rfl⟩ := Event.dropped.inj (List.mem_singleton.mp hab)
        exact le_antisymm (hcur _ hopened) (hlast _ ho)

theorem ownDropped_resume (h : Known f) {t : Waiting} (ht : Holds f t) :
    OwnDropped (resume C rt cfg v f t).2 ↔
      OwnDropped f ∧ ∀ job s e, t = .failing job s e → f.Current job.peerDomain s := by
  have hother {t : Waiting} (hne : ∀ job s e, t ≠ .failing job s e) :
      ∀ job s e, t = .failing job s e → f.Current job.peerDomain s :=
    fun job s e heq => absurd heq (hne job s e)
  revert ht
  refine resume_cases (P := fun t r => Holds f t → (OwnDropped r.2 ↔ OwnDropped f ∧
    ∀ job s e, t = .failing job s e → f.Current job.peerDomain s)) t ?connects ?refuses ?opens
    ?settles ?joins ?rejects ?waits ?unsigned ?sends ?unsent ?carries ?loses ?rejectsAnswer
    ?answers ?drops ?closes
  case waits =>
    intro t job s he _ _
    exact (and_iff_left (hother he.not_failing)).symm
  case unsigned =>
    intro t job s c e he _ _ _ _
    rw [and_iff_left (hother he.not_failing)]
    exact ownDropped_wireFor _ _
  case sends =>
    intro t job s c wire he _ _ _ _
    rw [and_iff_left (hother he.not_failing)]
    exact (ownDropped_of_log rfl (by intros; simp)).trans (ownDropped_wireFor c.session job.request)
  case drops =>
    intro job s e ht
    rw [ownDropped_dropSession h ht]
    simp
  case opens =>
    intro job p t i acceptedBytes session _ _ _
    rw [and_iff_left (hother (by simp))]
    exact ownDropped_of_log rfl (by intros; simp)
  case carries =>
    intro job s n _ _
    rw [and_iff_left (hother (by simp))]
    exact ownDropped_of_log rfl (by intros; simp)
  case unsent =>
    intro job s n e _ _
    rw [and_iff_left (hother (by simp))]
    exact ownDropped_of_log (f := f) rfl (by intros; simp)
  case loses =>
    intro job s n e _
    rw [and_iff_left (hother (by simp))]
    exact ownDropped_of_log (f := f) rfl (by intros; simp)
  case rejectsAnswer =>
    intro job s n respBytes e _ _ _
    rw [and_iff_left (hother (by simp))]
    exact ownDropped_of_log (f := f) rfl (by intros; simp)
  case answers =>
    intro job s n respBytes ms _ _ _
    rw [and_iff_left (hother (by simp))]
    exact ownDropped_of_log (f := f) rfl (by intros; simp)
  all_goals
    intros
    exact (and_iff_left (hother (by simp))).symm

theorem ownDropped_step {a : Act Call Env} {w' : World} (h : Guarded w)
    (hs : step (forwarder C rt cfg) w a = some w') :
    OwnDropped w'.fields ↔ OwnDropped w.fields ∧ DropsCurrent w a := by
  refine step_cases hs
    (C := fun a w' => OwnDropped w'.fields ↔ OwnDropped w.fields ∧ DropsCurrent w a) ?_ ?_
  · intro c v
    exact (ownDropped_start c).trans (and_iff_left trivial).symm
  · intro i v c t hi
    refine (ownDropped_resume h.known (h.holds i c t hi)).trans (and_congr_right fun _ => ?_)
    constructor
    · intro hcur c' job s e hi'
      obtain ⟨-,ht⟩ := Call.mk.inj (Option.some.inj (hi.symm.trans hi'))
      exact hcur job s e (Stage.awaiting.inj ht)
    · rintro hcur job s e rfl
      exact hcur c job s e hi

/-- The runs in which a failed request drops only the session it was made on. -/
theorem dropped_own_iff (envelopes : ℕ → Members) :
    Reached (forwarder C rt cfg) DropsCurrent (World.initial envelopes) w ↔
      Reached (forwarder C rt cfg) (fun _ _ => True) (World.initial envelopes) w ∧
        ∀ own s, .dropped own s ∈ w.fields.log → s = own := by
  refine reached_iff (G := fun w => OwnDropped w.fields) (guarded_initial envelopes) ?_
    (fun _ _ _ h hs => h.step hs) fun _ _ _ h hs => ownDropped_step h hs
  intro own s hlog
  cases hlog

end Dropping

section Handshakes
variable {C : Crypto} {rt : Runtime} {cfg : ForwarderConfig}

/-- A handshake with the peer that leads to the session. -/
structure Agrees (C : Crypto) (rt : Runtime) (cfg : ForwarderConfig) (peerDomain : JsString)
    (session : FederationInitiatorSession) (peerPub : Bytes) (entropy : InitiatorEntropy)
    (response accepted : Bytes) : Prop where
  key : peerPub ≠ []
  answers : ∃ i₀ i₁ i₂ init confirm,
    FederationInitiator.new C (initiatorConfig cfg peerDomain peerPub) = .ok i₀ ∧
    (FederationInitiator.init C entropy).call i₀ = (.ok init,i₁) ∧
    (FederationInitiator.onResponse C rt response).call i₁ = (.ok confirm,i₂) ∧
    FederationInitiator.takeAccepted C rt i₂ accepted = .ok session

/-- The environment of a step that is given what it awaits. -/
def given (now : ℤ) (entropy : InitiatorEntropy) (peerPub : Bytes) (received : Option Bytes) : Env where
  now := now
  entropy := entropy
  endpoint := .ok (js "wss")
  peerPub := .ok peerPub
  dialed := .ok ()
  sent := .ok ()
  through := false
  received := .ok received
  answers := 0

theorem reached_open {ok : World → Act Call Env → Prop} {w₀ : World} {f : Fields}
    {cs : List (Tasks.Call Call Waiting (Js Returned))} {i p : ℕ} {c : Call} {job : Job}
    {session : FederationInitiatorSession} {peerPub : Bytes} {entropy : InitiatorEntropy}
    {response accepted : Bytes} (now : ℤ)
    (hok : ∀ f i v c job p o (cs : List (Tasks.Call Call Waiting (Js Returned))),
      cs[i]? = some ⟨c,.awaiting (.opening job p o)⟩ → ok ⟨f,cs⟩ (.resume i v))
    (ha : Agrees C rt cfg job.peerDomain session peerPub entropy response accepted)
    (h : Reached (forwarder C rt cfg) ok w₀ ⟨f,cs⟩)
    (hi : cs[i]? = some ⟨c,.awaiting (.opening job p .endpoint)⟩) :
    Reached (forwarder C rt cfg) ok w₀
      ⟨(f.dial (f.transports+1)).cache job.peerDomain f.transports session now,
        cs.set i ⟨c,.awaiting (.settling job p (.ok f.opened.length))⟩⟩ := by
  obtain ⟨i₀,i₁,i₂,init,confirm,hnew,hinit,hresponse,haccepted⟩ := ha.answers
  have hlt := (List.getElem?_eq_some_iff.mp hi).1
  have hset (st : Stage Waiting (Js Returned)) : (cs.set i ⟨c,st⟩)[i]? = some ⟨c,st⟩ := by
    simp [hlt]
  have h₁ := h.resume hi (hok _ _ _ _ _ _ _ _ hi)
    (r := (.awaiting (.opening job p .peerPub),f)) (v := given now entropy peerPub none) rfl
  have h₂ := h₁.resume (hset _) (hok _ _ _ _ _ _ _ _ (hset _)) (v := given now entropy peerPub none)
    (r := (.awaiting (.opening job p (.dial peerPub)),f)) (if_neg ha.key)
  rw [List.set_set] at h₂
  have h₃ := h₂.resume (hset _) (hok _ _ _ _ _ _ _ _ (hset _)) (v := given now entropy peerPub none)
    (r := (.awaiting (.opening job p (.initSent f.transports i₁)),f.dial (f.transports+1))) (by
      change openSession C rt cfg (given now entropy peerPub none) f job p (.dial peerPub) = _
      simp only [openSession,given,hnew,hinit]
      rfl)
  rw [List.set_set] at h₃
  have h₄ := h₃.resume (hset _) (hok _ _ _ _ _ _ _ _ (hset _)) (v := given now entropy peerPub none)
    (r := (.awaiting (.opening job p (.response f.transports i₁)),f.dial (f.transports+1))) rfl
  rw [List.set_set] at h₄
  have h₅ := h₄.resume (hset _) (hok _ _ _ _ _ _ _ _ (hset _))
    (v := given now entropy peerPub (some response))
    (r := (.awaiting (.opening job p (.confirmSent f.transports i₂)),f.dial (f.transports+1))) (by
      change openSession C rt cfg (given now entropy peerPub (some response)) _ job p
        (.response f.transports i₁) = _
      simp only [openSession,given,hresponse])
  rw [List.set_set] at h₅
  have h₆ := h₅.resume (hset _) (hok _ _ _ _ _ _ _ _ (hset _)) (v := given now entropy peerPub none)
    (r := (.awaiting (.opening job p (.accepted f.transports i₂)),f.dial (f.transports+1))) rfl
  rw [List.set_set] at h₆
  have h₇ := h₆.resume (hset _) (hok _ _ _ _ _ _ _ _ (hset _))
    (v := given now entropy peerPub (some accepted))
    (r := (.awaiting (.settling job p (.ok f.opened.length)),
      (f.dial (f.transports+1)).cache job.peerDomain f.transports session now)) (by
      change openSession C rt cfg (given now entropy peerPub (some accepted)) _ job p
        (.accepted f.transports i₂) = _
      simp only [openSession,given,Method.call_bind,FederationInitiator.onAccepted_call,haccepted]
      rfl)
  rw [List.set_set] at h₇
  exact h₇


/-- The sending of the request fails. -/
def lost (now : ℤ) : Env :=
  { given now ⟨[],[],[]⟩ [] none with sent := raise (js "connection lost") }

/-- A request is sent, fails and drops the session; another opens a newer one, which the second
request on the first session drops when it fails. -/
theorem newer_dropped {d : JsString} {session : FederationInitiatorSession} {peerPub : Bytes}
    {entropy : InitiatorEntropy} {response accepted : Bytes} (request : Json)
    (envelopes : ℕ → Members)
    (ha : Agrees C rt cfg d session peerPub entropy response accepted) :
    ∃ w, Reached (forwarder C rt cfg) (fun _ _ => True) (World.initial envelopes) w ∧
      .dropped 0 1 ∈ w.fields.log := by
  let job : Job := ⟨d,.keys request⟩
  let wire := Utf8.textEncode (JsonText.stringify request)
  let e : Thrown := .error (js "connection lost")
  let v := given 0 entropy peerPub none
  let f₁ := (Fields.initial envelopes).connect job
  let f₂ := (f₁.dial 1).cache d 0 session 0
  let f₃ := f₂.record (.found 0 0)
  let f₄ := f₃.settle d 0 (.ok 0)
  let f₅ := f₄.send 0 job.request wire 0
  let f₆ := (f₅.record (.failed 0 0 false)).setLocked 0 false
  let f₇ := { f₆ with sessions := f₆.sessions.delete d }.record (.dropped 0 0)
  let f₈ := f₇.connect job
  let f₉ := (f₈.dial 2).cache d 1 session 0
  let f₁₀ := f₉.send 0 job.request wire 0
  let f₁₁ := (f₁₀.record (.failed 0 1 false)).setLocked 0 false
  let f₁₂ := { f₁₁ with sessions := f₁₁.sessions.delete d }.record (.dropped 0 1)
  have h₀ : Reached (forwarder C rt cfg) (fun _ _ => True) (World.initial envelopes)
      (World.initial envelopes) := .refl
  have h₁ := h₀.start (c := .request job) (v := v) trivial
    (r := (.awaiting (.opening job 0 .endpoint),f₁)) rfl
  have h₂ := reached_open 0 (fun _ _ _ _ _ _ _ _ _ => trivial) ha h₁ (i := 0) rfl
  have h₃ := h₂.start (c := .request job) (v := v) trivial
    (r := (.awaiting (.entering job 0),f₃)) (by
      change start v f₂ (.request job) = _
      simp [start,f₂,job,Fields.cache,v,given,f₃,Fields.initial,Fields.connect,f₁,Fields.dial])
  have h₄ := h₃.resume (i := 0) rfl trivial (v := v) (r := (.awaiting (.joining job 0),f₄)) rfl
  have h₅ := h₄.resume (i := 0) rfl trivial (v := v) (r := (.awaiting (.sending job 0 0),f₅)) rfl
  have h₆ := h₅.resume (i := 0) rfl trivial (v := lost 0)
    (r := (.awaiting (.failing job 0 e),f₆)) rfl
  have h₇ := h₆.resume (i := 0) rfl trivial (v := v) (r := (.done (.error e),f₇))
    (congrArg (Prod.mk _) (dropSession_of_get JsMap.get_set_self))
  have h₈ := h₇.start (c := .request job) (v := v) trivial
    (r := (.awaiting (.opening job 1 .endpoint),f₈)) (by
      have hsessions : f₇.sessions.get d = none := JsMap.get_delete_self
      have hconnecting : f₇.connecting.get d = none := JsMap.get_delete_self
      change start v f₇ (.request job) = _
      simp only [start,job,hsessions,hconnecting]
      rfl)
  have h₉ := reached_open 0 (fun _ _ _ _ _ _ _ _ _ => trivial) ha h₈ (i := 2) rfl
  have h₁₀ := h₉.resume (i := 1) rfl trivial (v := v) (r := (.awaiting (.sending job 0 1),f₁₀)) rfl
  have h₁₁ := h₁₀.resume (i := 1) rfl trivial (v := lost 0)
    (r := (.awaiting (.failing job 0 e),f₁₁)) rfl
  have h₁₂ := h₁₁.resume (i := 1) rfl trivial (v := v) (r := (.done (.error e),f₁₂))
    (congrArg (Prod.mk _) (dropSession_of_get JsMap.get_set_self))
  exact ⟨_,h₁₂,List.mem_append_right _ List.mem_cons_self⟩
end Handshakes

section Samples

def sampleKey : Bytes := List.replicate 32 7

def sampleForwarder : ForwarderConfig where
  localDomain := js "a"
  localServerID := js "a"
  localDomainSeed := sampleKey
  capabilities := none
  suite := none
  policyAcceptor := none

def sampleResponder : FederationResponderConfig where
  suite := js "x25519-chacha20-poly1305"
  capabilities := ⟨[js "x25519-chacha20-poly1305"],[]⟩
  localDomain := js "b"
  localServerID := js "b"
  localDomainSeed := sampleKey
  peerDomainPubLookup := fun _ => .ok (sampleKey)
  verifier := none
  policy := ⟨js "7d",.denied,true⟩
  sessionTTL := none
  responderEphemeralPriv := none
  responderHybridRandomness := none
  responderNonce := none

/-- What a method gives, with the object it leaves. -/
def kept {σ α : Type} (r : Except Thrown α × σ) : Js (α × σ) :=
  match r with
  | (.ok a,s) => .ok (a,s)
  | (.error e,_) => .error e

def sampleEntropy : InitiatorEntropy := ⟨List.replicate 32 1,[],List.replicate 32 2⟩

/-- What the responder answers, and the session of the initiator, which lasts an hour. -/
def sampleDialog : Js (Bytes × Bytes × FederationInitiatorSession) := do
  let i ← FederationInitiator.new Sample.crypto (initiatorConfig sampleForwarder (js "b") sampleKey)
  let init ← kept ((FederationInitiator.init Sample.crypto sampleEntropy).call i)
  let r ← FederationResponder.new Sample.crypto sampleResponder
  let response ← kept ((FederationResponder.onInit Sample.crypto Sample.runtime
    ⟨js "s",List.replicate 32 3,List.replicate 32 4,[],[]⟩ init.1).call r)
  let confirm ← kept ((FederationInitiator.onResponse Sample.crypto Sample.runtime
    response.1).call init.2)
  let accepted ← kept ((FederationResponder.onConfirm Sample.crypto Sample.runtime none
    confirm.1).call response.2)
  let session ← FederationInitiator.takeAccepted Sample.crypto Sample.runtime confirm.2 accepted.1
  let ttl ← toNumber session.sessionTTL
  require (ttl = .ofNat 3600) (js "not the default")
  .ok (response.1,accepted.1,session)

theorem kept_eq_ok {σ α : Type} {r : Except Thrown α × σ} {x : α × σ} :
    kept r = .ok x ↔ r = (.ok x.1,x.2) := by
  obtain ⟨_ | a,s⟩ := r
  · simp [kept]
  · simp [kept,Prod.ext_iff]

theorem sampleDialog_ok : ∃ response accepted session,
    Agrees Sample.crypto Sample.runtime sampleForwarder (js "b") session sampleKey sampleEntropy
      response accepted ∧ toNumber session.sessionTTL = .ok (.ofNat 3600) := by
  have hok : sampleDialog.toBool = true := by decide +kernel
  cases hs : sampleDialog with
  | error err =>
    rw [hs] at hok
    cases hok
  | ok r =>
    obtain ⟨i,hnew,hs⟩ := Semp.bind_eq_ok.mp hs
    obtain ⟨init,hinit,hs⟩ := Semp.bind_eq_ok.mp hs
    obtain ⟨_,-,hs⟩ := Semp.bind_eq_ok.mp hs
    obtain ⟨response,-,hs⟩ := Semp.bind_eq_ok.mp hs
    obtain ⟨confirm,hresponse,hs⟩ := Semp.bind_eq_ok.mp hs
    obtain ⟨accepted,-,hs⟩ := Semp.bind_eq_ok.mp hs
    obtain ⟨session,haccepted,hs⟩ := Semp.bind_eq_ok.mp hs
    obtain ⟨ttl,httl,hs⟩ := Semp.bind_eq_ok.mp hs
    obtain ⟨_,hhour,-⟩ := Semp.bind_eq_ok.mp hs
    obtain rfl := require_eq_ok.mp hhour
    exact ⟨_,_,_,⟨by decide,i,_,_,_,_,hnew,kept_eq_ok.mp hinit,kept_eq_ok.mp hresponse,
      haccepted⟩,httl⟩

/-- Not every order of the calls keeps a newer session. -/
theorem not_dropped_own : ¬∀ (C : Crypto) (rt : Runtime) (cfg : ForwarderConfig)
    (envelopes : ℕ → Members) (w : World),
      Reached (forwarder C rt cfg) (fun _ _ => True) (World.initial envelopes) w →
        ∀ own s, .dropped own s ∈ w.fields.log → s = own := by
  intro h
  obtain ⟨response,accepted,session,ha,-⟩ := sampleDialog_ok
  obtain ⟨w,hreached,hdropped⟩ := newer_dropped .null (fun _ => []) ha
  have := h _ _ _ _ w hreached 0 1 hdropped
  cases this

end Samples

end Forwarder
end Semp
