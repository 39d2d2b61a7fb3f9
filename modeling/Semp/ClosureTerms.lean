import Semp.ClosureRun
import Semp.History

/-! The terms of a closure: no account is finalized before the grace period of its request is
over, one request of a user is pending at a time, and a finalized account stays so for the
retention time. -/
namespace Semp
namespace Closure
open Handshake
open TransparencyLog (isText)
open Tasks
open History

section Records
variable {other : JsString → JsDate} {r : Members} {now : JsDate}

theorem requireGracePeriod_eq_ok {x : Number}
    (h : requireGracePeriod (some (.num x)) = .ok ()) : ∃ n : ℕ, x.isFinite ∧ x.toRat = n ∧
      minGracePeriodSeconds ≤ n ∧ n ≤ maxGracePeriodSeconds := by
  simp only [requireGracePeriod,bind_eq_ok,require_eq_ok,exists_const] at h
  obtain ⟨hint,hmin,hmax⟩ := h
  obtain ⟨hfin,z,hz⟩ := Number.toRat_of_isInteger hint
  have hlow : minGracePeriodSeconds < 2^53 := by decide
  have hhigh : maxGracePeriodSeconds < 2^53 := by decide
  rw [Number.lt_fin hfin (Number.isFinite_ofNat hlow),decide_eq_false_iff_not,
    Number.toRat_ofNat hlow,hz,not_lt] at hmin
  rw [Number.lt_fin (Number.isFinite_ofNat hhigh) hfin,decide_eq_false_iff_not,
    Number.toRat_ofNat hhigh,hz,not_lt] at hmax
  have hz0 : (minGracePeriodSeconds : ℤ) ≤ z := by exact_mod_cast hmin
  have hz1 : z ≤ maxGracePeriodSeconds := by exact_mod_cast hmax
  have hcast : ((z.toNat : ℕ) : ℤ) = z := Int.toNat_of_nonneg (by omega)
  refine ⟨z.toNat,hfin,?_,by omega,by omega⟩
  rw [hz]
  exact_mod_cast hcast.symm

theorem valid_request (h : validateClosureRecord other r false = .ok ())
    (hreq : isRequest r = true) : (∃ t, requestedAt other r = some t) ∧
    ∃ n : ℕ, (gracePeriodSeconds r).isFinite ∧ (gracePeriodSeconds r).toRat = n ∧
      minGracePeriodSeconds ≤ n ∧ n ≤ maxGracePeriodSeconds := by
  simp only [validateClosureRecord,bind_eq_ok,require_eq_ok,exists_const,hreq,if_true] at h
  obtain ⟨-,-,-,-,-,hat,-,_,hgrace,-⟩ := h
  refine ⟨Option.isSome_iff_exists.mp hat,?_⟩
  rw [gracePeriodSeconds]
  cases hg : lookup r (js "grace_period_seconds") with
  | none =>
    rw [hg] at hgrace
    cases hgrace
  | some v =>
    rw [hg] at hgrace
    cases v with
    | num x => exact requireGracePeriod_eq_ok hgrace
    | _ => cases hgrace

theorem userId_ne_nil (h : validateClosureRecord other r false = .ok ()) : userId r ≠ [] := by
  simp only [validateClosureRecord,bind_eq_ok,require_eq_ok,exists_const] at h
  obtain ⟨-,-,-,htext,-⟩ := h
  rw [userId]
  unfold isText at htext
  split at htext
  next c s hs =>
    rw [hs]
    exact List.cons_ne_nil c s
  · cases htext

/-- By its record, a closure may be finalized at `now`. -/
def Ripe (other : JsString → JsDate) (r : Members) (now : JsDate) : Prop :=
  ∃ (t u : ℤ) (n : ℕ), requestedAt other r = some t ∧ (gracePeriodSeconds r).toRat = n ∧
    minGracePeriodSeconds ≤ n ∧ now = some u ∧ t+n*1000 ≤ u

theorem ripe_of_finalizable (hother : ∀ s t, other s = some t → |t| ≤ JsDate.maxTime)
    (hvalid : validateClosureRecord other r false = .ok ())
    (hfin : isFinalizable other r now = .ok true) : Ripe other r now := by
  rw [isFinalizable] at hfin
  split_ifs at hfin with hreq
  · obtain ⟨⟨t,ht⟩,n,hnum,hn,hmin,hmax⟩ := valid_request hvalid hreq
    have hrange : |t| ≤ JsDate.maxTime := by
      rw [requestedAt] at ht
      split at ht
      · exact JsDate.parseText_range hother ht
      · cases ht
    obtain ⟨hmul,hprod⟩ := Number.toRat_mul_of_nat hnum (Number.isFinite_ofNat (by norm_num)) hn
      (Number.toRat_ofNat (n := 1000) (by norm_num))
      (by unfold maxGracePeriodSeconds at hmax; omega)
    have hplus := JsDate.plus_of_int (k := (n*1000 : ℕ)) hrange
      (by simp only [JsDate.maxTime,abs_le,maxGracePeriodSeconds] at hrange hmax; omega) hmul
      (by rw [hprod]; rfl)
    rw [reached,finalizationAt,ht] at hfin
    change Except.ok (JsDate.le (JsDate.plus (some t) _) now) = _ at hfin
    obtain ⟨d,u,hd,rfl,hle⟩ := JsDate.le_eq_true.mp (Except.ok.inj hfin)
    rw [hplus] at hd
    split_ifs at hd
    obtain rfl := Option.some.inj hd
    exact ⟨t,u,n,ht,hn,hmin,rfl,by push_cast at hle; exact hle⟩
  · cases hfin

end Records

/-- What a tick has still to look at. -/
def Waiting.rest : Waiting → List (JsString × Pending)
  | .sweep _ rest _ => rest
  | .remove _ _ rest _ => rest
  | _ => []

/-- The request was accepted under its number. -/
def Fields.Accepted (f : Fields) (e : JsString × Pending) : Prop :=
  ∃ a, .accepted (e.1,e.2.number) a e.2.record ∈ f.log

/-- A closure is finalized when its request, accepted before, lets it be. -/
def Graced (other : JsString → JsDate) (pre : List Event) : Event → Prop
  | .finalized id now => ∃ a r, .accepted id a r ∈ pre ∧ Ripe other r now
  | _ => True

structure Terms (other : JsString → JsDate) (f : Fields) : Prop where
  fresh : ∀ id a r, .accepted id a r ∈ f.log → id.2 < f.opened
  valid : ∀ id a r, .accepted id a r ∈ f.log →
    id.1 = userId r ∧ validateClosureRecord other r false = .ok ()
  unique : ∀ id a r a' r', .accepted id a r ∈ f.log → .accepted id a' r' ∈ f.log →
    a' = a ∧ r' = r
  pending : ∀ u c, f.pending.get u = some c → f.Accepted (u,c)
  graced : Justified (Graced other) f.log

namespace Terms
variable {other : JsString → JsDate} {f f' : Fields}

/-- Nothing new is accepted or pending. -/
theorem mono (h : Terms other f)
    (haccepted : ∀ id a r, .accepted id a r ∈ f'.log ↔ .accepted id a r ∈ f.log)
    (hpending : ∀ u c, f'.pending.get u = some c → f.pending.get u = some c)
    (hopened : f'.opened = f.opened) (hgraced : Justified (Graced other) f'.log) :
    Terms other f' where
  fresh id a r hr := hopened ▸ h.fresh id a r ((haccepted id a r).mp hr)
  valid id a r hr := h.valid id a r ((haccepted id a r).mp hr)
  unique id a r a' r' hr hr' :=
    h.unique id a r a' r' ((haccepted id a r).mp hr) ((haccepted id a' r').mp hr')
  pending u c hc := by
    obtain ⟨a,ha⟩ := h.pending u c (hpending u c hc)
    exact ⟨a,(haccepted _ a _).mpr ha⟩
  graced := hgraced

theorem accept (h : Terms other f) (now : JsDate) {r : Members}
    (hvalid : validateClosureRecord other r false = .ok ()) : Terms other (f.accept now r) := by
  have hmem {id : Ref} {a : JsDate} {r' : Members}
      (hr : .accepted id a r' ∈ (f.accept now r).log) :
      .accepted id a r' ∈ f.log ∨ id = (userId r,f.opened) ∧ a = now ∧ r' = r := by
    rw [Fields.accept,List.mem_append,List.mem_singleton] at hr
    obtain hr | hr := hr
    · exact .inl hr
    · exact .inr (Event.accepted.inj hr)
  have hnew {id : Ref} {a : JsDate} {r' : Members} (hr : .accepted id a r' ∈ f.log) :
      id ≠ (userId r,f.opened) := by
    rintro rfl
    exact lt_irrefl _ (h.fresh _ a r' hr)
  constructor
  · intro id a r' hr
    obtain hr | ⟨rfl,-,-⟩ := hmem hr
    · exact Nat.lt_succ_of_lt (h.fresh id a r' hr)
    · exact Nat.lt_succ_self _
  · intro id a r' hr
    obtain hr | ⟨rfl,-,rfl⟩ := hmem hr
    · exact h.valid id a r' hr
    · exact ⟨rfl,hvalid⟩
  · intro id a r' a' r'' hr hr'
    obtain hr | ⟨hid,ha,hrec⟩ := hmem hr
    · obtain hr' | ⟨hid,-⟩ := hmem hr'
      · exact h.unique id a r' a' r'' hr hr'
      · exact absurd hid (hnew hr)
    · obtain hr' | ⟨-,ha',hrec'⟩ := hmem hr'
      · exact absurd hid (hnew hr')
      · exact ⟨ha'.trans ha.symm,hrec'.trans hrec.symm⟩
  · intro u c hc
    by_cases hu : u = userId r
    · subst hu
      rw [Fields.accept,JsMap.get_set_self] at hc
      obtain rfl := Option.some.inj hc
      exact ⟨now,List.mem_append_right _ List.mem_cons_self⟩
    · rw [Fields.accept,JsMap.get_set_ne hu] at hc
      obtain ⟨a,ha⟩ := h.pending u c hc
      exact ⟨a,List.mem_append_left _ ha⟩
  · exact justified_concat.mpr ⟨h.graced,trivial⟩

theorem finalize (h : Terms other f) {e : JsString × Pending} {now : JsDate}
    (hother : ∀ s t, other s = some t → |t| ≤ JsDate.maxTime) (he : f.Accepted e)
    (hfin : isFinalizable other e.2.record now = .ok true) : Terms other (f.finalize e now) := by
  obtain ⟨a,ha⟩ := he
  refine h.mono ?_ (fun _ _ => id) rfl ?_
  · simp [Fields.finalize]
  · exact justified_concat.mpr
      ⟨h.graced,a,_,ha,ripe_of_finalizable hother (h.valid _ a _ ha).2 hfin⟩

theorem delete (h : Terms other f) (user : JsString) : Terms other (f.deletePending user) :=
  h.mono (fun _ _ _ => Iff.rfl) (fun _ _ hc => (JsMap.get_delete_eq_some.mp hc).2) rfl h.graced

theorem cancel (h : Terms other f) (user : JsString) (existing : Pending) :
    Terms other (f.cancel user existing) :=
  h.mono (by simp [Fields.cancel]) (fun _ _ hc => (JsMap.get_delete_eq_some.mp hc).2) rfl
    (justified_concat.mpr ⟨h.graced,trivial⟩)

theorem prune (h : Terms other f) (x : Number) (now : JsDate) :
    Terms other (f.pruneFinalized x now).2 :=
  h.mono (by simp [Fields.pruneFinalized]) (fun _ _ => id) rfl
    (justified_concat.mpr ⟨h.graced,trivial⟩)

end Terms

section Grace
variable {other : JsString → JsDate} {w : World}

/-- The requests that a tick listed were accepted too. -/
def Lawful (other : JsString → JsDate) (w : World) : Prop :=
  Terms other w.fields ∧ ∀ e ∈ gather Waiting.rest w, w.fields.Accepted e

theorem lawful_started (h : Lawful other w) {c : Call} {r : Result × Fields}
    (hterms : Terms other r.2) (hlog : w.fields.log ⊆ r.2.log)
    (hrest : ∀ e ∈ r.1.list Waiting.rest, r.2.Accepted e) : Lawful other (w.started c r) := by
  refine ⟨hterms,fun e he => ?_⟩
  obtain he | he := (mem_gather_started _).mp he
  · exact (h.2 e he).imp fun _ ha => hlog ha
  · exact hrest e he

/-- The call that went on has nothing new to look at. -/
theorem lawful_resumed (h : Lawful other w) {i : ℕ} {c : Call} {t : Waiting}
    {r : Result × Fields} (hi : w.calls[i]? = some ⟨c,.awaiting t⟩) (hterms : Terms other r.2)
    (hlog : w.fields.log ⊆ r.2.log) (hrest : r.1.list Waiting.rest ⊆ t.rest) :
    Lawful other (w.resumed i c r) := by
  refine ⟨hterms,fun e he => ?_⟩
  obtain he | he := of_mem_gather_resumed _ hi he
  · exact (h.2 e he).imp fun _ ha => hlog ha
  · exact (h.2 e ((mem_gather _).mpr ⟨i,c,t,hi,hrest he⟩)).imp fun _ ha => hlog ha

theorem lawful_start (h : Lawful other w) (c : Call) (now : JsDate) :
    Lawful other (w.started c (start other now w.fields c)) := by
  refine start_cases (C := fun c r => Lawful other (w.started c r)) c
    ?ended ?accept ?refuse ?find ?list ?prune
  case ended => exact fun c r => lawful_started h h.1 (List.Subset.refl _) (by simp)
  case accept =>
    intro r hvalid _ _
    exact lawful_started h (h.1.accept now hvalid) (List.subset_append_left _ _)
      (by simp [Waiting.rest])
  case refuse =>
    exact fun r _ _ _ => lawful_started h h.1 (List.Subset.refl _) (by simp [Waiting.rest])
  case find =>
    exact fun r _ _ => lawful_started h h.1 (List.Subset.refl _) (by simp [Waiting.rest])
  case list =>
    intro due hdue
    exact lawful_started h h.1 (List.Subset.refl _) fun e he =>
      h.1.pending e.1 e.2 (of_mem_duePending hdue he)
  case prune =>
    exact fun x => lawful_started h (h.1.prune x now) (List.subset_append_left _ _) (by simp)

theorem lawful_resume (hother : ∀ s t, other s = some t → |t| ≤ JsDate.maxTime)
    (h : Lawful other w) {i : ℕ} {c : Call} {t : Waiting}
    (hi : w.calls[i]? = some ⟨c,.awaiting t⟩) :
    Lawful other (w.resumed i c (resume other w.fields t)) := by
  revert hi
  refine resume_cases (C := fun t r => w.calls[i]? = some ⟨c,.awaiting t⟩ →
    Lawful other (w.resumed i c r)) t ?ended ?cancel ?finalize ?delete
  case ended =>
    exact fun t r _ hi => lawful_resumed h hi h.1 (List.Subset.refl _) (List.nil_subset _)
  case cancel =>
    intro user existing hi
    exact lawful_resumed h hi (h.1.cancel user existing) (List.subset_append_left _ _)
      (List.nil_subset _)
  case finalize =>
    intro now rest out r post hpost hfin _ hi
    have he : w.fields.Accepted r :=
      h.2 r ((mem_gather _).mpr ⟨i,c,_,hi,hpost.subset List.mem_cons_self⟩)
    exact lawful_resumed h hi (h.1.finalize hother he hfin) (List.subset_append_left _ _)
      (List.Subset.trans (List.subset_cons_self r post) hpost.subset)
  case delete =>
    exact fun now r rest out hi => lawful_resumed h hi (h.1.delete r.1) (List.Subset.refl _)
      (List.Subset.refl _)

theorem lawful_of_reached (hother : ∀ s t, other s = some t → |t| ≤ JsDate.maxTime)
    (h : Reached (driver other) (fun _ _ => True) World.initial w) : Lawful other w := by
  refine h.inv ?_ ?_
  · refine ⟨?_,by simp [World.initial,gather]⟩
    constructor <;> simp [World.initial,Fields.initial,justified_nil]
  · intro u a u' hu _ hs
    refine step_cases hs (C := fun _ u' => Lawful other u') ?_ ?_
    · exact fun c now => lawful_start hu c now
    · exact fun i now c t hi => lawful_resume hother hu hi

/-- The request was dated before the driver took it. -/
def Backdated (other : JsString → JsDate) (r : Members) (accepted : JsDate) : Prop :=
  ∃ t s, requestedAt other r = some t ∧ accepted = some s ∧ t < s

/-- The minimum grace period has passed. -/
def Delayed (accepted now : JsDate) : Prop :=
  ∀ s u, accepted = some s → now = some u → s+minGracePeriodSeconds*1000 ≤ u

theorem delayed_of_ripe {r : Members} {accepted now : JsDate} (h : Ripe other r now)
    (hdate : ¬Backdated other r accepted) : Delayed accepted now := by
  obtain ⟨t,u,n,ht,-,hmin,rfl,hle⟩ := h
  rintro s u' rfl hu
  obtain rfl := Option.some.inj hu
  have hts : s ≤ t := not_lt.mp fun hlt => hdate ⟨t,s,ht,rfl,hlt⟩
  have : (minGracePeriodSeconds : ℤ) ≤ n := by exact_mod_cast hmin
  omega

/-- A closure is finalized when the grace period has passed since the date of its request,
which the driver accepted before. -/
theorem finalized_after_grace (hother : ∀ s t, other s = some t → |t| ≤ JsDate.maxTime)
    (h : Reached (driver other) (fun _ _ => True) World.initial w) {pre : List Event} {id : Ref}
    {now : JsDate} (hlog : pre++[.finalized id now] <+: w.fields.log) :
    ∃ accepted r, .accepted id accepted r ∈ pre ∧
      (∀ a r', .accepted id a r' ∈ w.fields.log → a = accepted ∧ r' = r) ∧
      Ripe other r now ∧ (Backdated other r accepted ∨ Delayed accepted now) := by
  obtain ⟨hterms,-⟩ := lawful_of_reached hother h
  obtain ⟨a,r,ha,hripe⟩ := hterms.graced pre _ hlog
  have hmem : .accepted id a r ∈ w.fields.log :=
    hlog.subset (List.mem_append_left _ ha)
  refine ⟨a,r,ha,fun a' r' h' => hterms.unique id a r a' r' hmem h',hripe,?_⟩
  exact or_iff_not_imp_left.mpr (delayed_of_ripe hripe)

namespace Sample

/-- The request is dated a grace period before it is sent. -/
def backdated : List (Act Call JsDate) :=
  [.start (.submit (record (js "request") epoch)) due,.resume 0 none,.start .tick due,
    .resume 1 none]

theorem backdated_runs : (run (driver noOther) World.initial backdated).isSome := by
  decide +kernel

/-- When the one closure was accepted and finalized. -/
def closedOnce : List Event → Option (JsDate × JsDate)
  | [.accepted id s _,.finalized id' u] => if id = id' then some (s,u) else none
  | _ => none

theorem closedOnce_eq_some {log : List Event} {s u : JsDate} (h : closedOnce log = some (s,u)) :
    ∃ id r, log = [.accepted id s r,.finalized id u] := by
  rw [closedOnce.eq_def] at h
  split at h
  next id s' r id' u' =>
    split_ifs at h with hid
    obtain ⟨rfl,rfl⟩ := Prod.mk.inj (Option.some.inj h)
    exact ⟨id,r,by rw [hid]⟩
  · cases h

/-- The request has the date of its day. -/
def timely : List (Act Call JsDate) :=
  [request,.resume 0 none,.start .tick due,.resume 1 none]

theorem timely_runs : (run (driver noOther) World.initial timely).isSome := by decide +kernel

end Sample

theorem not_delayed : ¬ ∀ w, Reached (driver Sample.noOther) (fun _ _ => True) World.initial w →
    ∀ pre id now, pre++[.finalized id now] <+: w.fields.log →
      ∃ accepted r, .accepted id accepted r ∈ pre ∧ Delayed accepted now := by
  intro h
  have hruns := h _ (reached_get Sample.backdated_runs fun _ _ _ => trivial)
  have honce : Sample.closedOnce ((run (driver Sample.noOther) World.initial Sample.backdated).get
      Sample.backdated_runs).fields.log = some (Sample.due,Sample.due) := by decide +kernel
  obtain ⟨id,r,hlog⟩ := Sample.closedOnce_eq_some honce
  rw [hlog] at hruns
  obtain ⟨a,r',hmem,hle⟩ := hruns [.accepted id Sample.due r] id Sample.due (List.prefix_refl _)
  obtain ⟨-,rfl,-⟩ := Event.accepted.inj (List.mem_singleton.mp hmem)
  have := hle _ _ rfl rfl
  simp [minGracePeriodSeconds] at this

theorem finalized_after_grace_sample : ∃ (w : World) (pre : List Event) (id : Ref) (r : Members),
    pre++[.finalized id Sample.due] <+: w.fields.log ∧ Ripe Sample.noOther r Sample.due := by
  have hreach : Reached (driver Sample.noOther) (fun _ _ => True) World.initial _ :=
    reached_get Sample.timely_runs fun _ _ _ => trivial
  have honce : Sample.closedOnce ((run (driver Sample.noOther) World.initial Sample.timely).get
      Sample.timely_runs).fields.log = some (some 0,Sample.due) := by decide +kernel
  obtain ⟨id,r,hlog⟩ := Sample.closedOnce_eq_some honce
  have hpre : [Event.accepted id (some 0) r]++[.finalized id Sample.due] <+:
      ((run (driver Sample.noOther) World.initial Sample.timely).get
        Sample.timely_runs).fields.log := by
    rw [hlog]
    exact List.prefix_refl _
  obtain ⟨a,r',-,-,hripe,-⟩ := finalized_after_grace (fun s t h => by cases h) hreach hpre
  exact ⟨_,_,id,r',hpre,hripe⟩

end Grace

section Lifecycle
variable {other : JsString → JsDate} {w : World} {user : JsString}

/-- What an event makes of the time at which an account was finalized. -/
def stand (user : JsString) (at_ : Option JsDate) : Event → Option JsDate
  | .finalized id now => if id.1 = user then some now else at_
  | .pruned gone _ => if user ∈ keys gone then none else at_
  | _ => at_

/-- When the account was last finalized, unless that was pruned. -/
def standing (user : JsString) (log : List Event) : Option JsDate :=
  log.foldl (stand user) none

@[simp] theorem standing_concat (log : List Event) (e : Event) :
    standing user (log++[e]) = stand user (standing user log) e := by
  simp [standing]

/-- A prune evicts finalizations that stand and are older than the retention time. -/
def Retained (pre : List Event) : Event → Prop
  | .pruned gone now => ∀ e ∈ gone, standing e.1 pre = some e.2 ∧
      ∃ t n : ℤ, e.2 = some t ∧ now = some n ∧ t+minRetentionMs < n
  | _ => True

/-- A date has its time in the range of dates. -/
def InRange (d : JsDate) : Prop := ∀ t, d = some t → |t| ≤ JsDate.maxTime

structure Ledger (f : Fields) : Prop where
  keyed : ∀ u c, f.pending.get u = some c → userId c.record = u
  stands : ∀ u, f.finalized.get u = standing u f.log
  dated : ∀ u d, f.finalized.get u = some d → InRange d
  retained : Justified Retained f.log

/-- What is raised to a bound is not below it. -/
theorem clamp_lt {x b : Number} (hb : b.isFinite) : (if x.lt b then b else x).lt b = false := by
  split_ifs with h
  · rw [Number.lt_fin hb hb]
    simp
  · exact Bool.eq_false_of_not_eq_true h

/-- Only a finite number can be taken from one that stays above another. -/
theorem isFinite_of_lt_sub {a b y m : Number} (ha : a.isFinite) (hb : b.isFinite)
    (hm : m.isFinite) (hy : y.lt m = false) (h : a.lt (b.sub y) = true) : y.isFinite := by
  cases y with
  | fin s i => rfl
  | nan => cases a <;> cases b <;> simp_all [Number.isFinite,Number.sub,Number.lt]
  | inf s => cases a <;> cases b <;> cases m <;> simp_all [Number.isFinite,Number.sub,Number.lt]

/-- Below a difference, whatever the sign of a zero. -/
theorem lt_sub {a x y : Number} (hx : x.isFinite) (hy : y.isFinite) :
    a.lt (x.sub y) = a.lt (.ofRat (x.toRat-y.toRat)) := by
  cases x with
  | fin s i =>
    cases y with
    | fin t j =>
      rw [Number.sub]
      split_ifs with hd
      · rw [hd,Number.ofRat_zero]
        generalize (s && i.val == 0 && !t) = c
        cases a <;> cases c <;> simp [Number.lt,Number.zero,Number.toRat]
      · rfl
    | _ => cases hy
  | _ => cases hx

theorem older_of_evicts {x : Number} {now d : JsDate} (hnow : InRange now) (hd : InRange d)
    (h : Fields.evicts x now d = true) :
    ∃ t n : ℤ, d = some t ∧ now = some n ∧ t+minRetentionMs < n := by
  have hsmall {t : ℤ} (ht : |t| ≤ JsDate.maxTime) : t.natAbs < 2^53 := by
    simp only [JsDate.maxTime,abs_le] at ht
    omega
  have hmin : (Number.ofNat minRetentionMs).isFinite := Number.isFinite_ofNat (by decide)
  rw [Fields.evicts,Fields.cutoff] at h
  have hclamp := clamp_lt (x := x) hmin
  generalize (if x.lt (.ofNat minRetentionMs) then Number.ofNat minRetentionMs else x) = y
    at h hclamp
  cases d with
  | none => cases h
  | some t =>
    obtain ⟨htfin,ht⟩ := Number.toRat_ofInt (hsmall (hd t rfl))
    cases now with
    | none =>
      rw [JsDate.getTime,JsDate.getTime] at h
      cases hn : Number.ofInt t <;> simp [hn,Number.sub,Number.lt] at h
    | some n =>
      refine ⟨t,n,rfl,rfl,?_⟩
      obtain ⟨hnfin,hn⟩ := Number.toRat_ofInt (hsmall (hnow n rfl))
      rw [JsDate.getTime,JsDate.getTime] at h
      have hy := isFinite_of_lt_sub htfin hnfin hmin hclamp h
      rw [Number.lt_fin hy hmin,decide_eq_false_iff_not,Number.toRat_ofNat (by decide)] at hclamp
      have hle : (n : ℚ)-y.toRat ≤ ((n-minRetentionMs : ℤ) : ℚ) := by
        push_cast
        linarith [not_lt.mp hclamp]
      have hsmallcut : (n-minRetentionMs : ℤ).natAbs < 2^53 := by
        have := abs_le.mp (hnow n rfl)
        simp only [JsDate.maxTime,minRetentionMs] at this ⊢
        omega
      have hlt := Number.lt_of_lt_ofRat (x := .ofInt t) (q := n-y.toRat) (n := n-minRetentionMs)
        hsmallcut hle htfin ?_
      · rw [ht] at hlt
        have : t < n-minRetentionMs := by exact_mod_cast hlt
        omega
      · rw [← hn,← lt_sub hnfin hy]
        exact h

namespace Ledger
variable {f f' : Fields}

/-- Nothing new is pending and no finalization changes. -/
theorem mono (h : Ledger f)
    (hpending : ∀ u c, f'.pending.get u = some c → f.pending.get u = some c)
    (hfinalized : f'.finalized = f.finalized)
    (hstanding : ∀ u, standing u f'.log = standing u f.log)
    (hretained : Justified Retained f'.log) : Ledger f' where
  keyed u c hc := h.keyed u c (hpending u c hc)
  stands u := by rw [hfinalized,hstanding,h.stands]
  dated := hfinalized ▸ h.dated
  retained := hretained

theorem accept (h : Ledger f) (now : JsDate) (r : Members) : Ledger (f.accept now r) where
  keyed u c hc := by
    by_cases hu : u = userId r
    · subst hu
      rw [Fields.accept,JsMap.get_set_self] at hc
      obtain rfl := Option.some.inj hc
      rfl
    · rw [Fields.accept,JsMap.get_set_ne hu] at hc
      exact h.keyed u c hc
  stands u := by
    rw [Fields.accept,standing_concat]
    exact h.stands u
  dated := h.dated
  retained := justified_concat.mpr ⟨h.retained,trivial⟩

theorem delete (h : Ledger f) (user : JsString) : Ledger (f.deletePending user) :=
  h.mono (fun _ _ hc => (JsMap.get_delete_eq_some.mp hc).2) rfl (fun _ => rfl) h.retained

theorem cancel (h : Ledger f) (user : JsString) (existing : Pending) :
    Ledger (f.cancel user existing) :=
  h.mono (fun _ _ hc => (JsMap.get_delete_eq_some.mp hc).2) rfl
    (fun _ => by rw [Fields.cancel,standing_concat]; rfl)
    (justified_concat.mpr ⟨h.retained,trivial⟩)

theorem finalize (h : Ledger f) (r : JsString × Pending) {now : JsDate} (hnow : InRange now) :
    Ledger (f.finalize r now) where
  keyed := h.keyed
  stands u := by
    rw [Fields.finalize,standing_concat,stand]
    by_cases hu : u = r.1
    · rw [hu,JsMap.get_set_self,if_pos rfl]
    · rw [JsMap.get_set_ne hu,if_neg (Ne.symm hu)]
      exact h.stands u
  dated u d hd := by
    by_cases hu : u = r.1
    · rw [Fields.finalize,hu,JsMap.get_set_self] at hd
      obtain rfl := Option.some.inj hd
      exact hnow
    · rw [Fields.finalize,JsMap.get_set_ne hu] at hd
      exact h.dated u d hd
  retained := justified_concat.mpr ⟨h.retained,trivial⟩

theorem prune (h : Ledger f) (x : Number) {now : JsDate} (hnow : InRange now) :
    Ledger (f.pruneFinalized x now).2 := by
  have hgone {e : JsString × JsDate} :
      e ∈ f.finalized.entries.filter (fun e => Fields.evicts x now e.2) ↔
        f.finalized.get e.1 = some e.2 ∧ Fields.evicts x now e.2 = true := by
    rw [List.mem_filter,JsMap.get_eq_some]
  constructor
  · exact h.keyed
  · intro u
    rw [Fields.pruneFinalized,standing_concat,stand,← h.stands u]
    refine Option.ext fun d => ?_
    rw [JsMap.get_sweep_eq_some]
    split_ifs with hu
    · obtain ⟨e,he,rfl⟩ := List.mem_map.mp hu
      obtain ⟨hget,hev⟩ := hgone.mp he
      simp only [hget,Option.some.injEq,iff_false,not_and]
      rintro rfl
      rw [hev]
      simp
    · constructor
      · exact fun hd => hd.1
      · intro hd
        refine ⟨hd,Bool.eq_false_of_not_eq_true fun hev => hu ?_⟩
        exact List.mem_map.mpr ⟨(u,d),hgone.mpr ⟨hd,hev⟩,rfl⟩
  · intro u d hd
    exact h.dated u d (JsMap.get_sweep_eq_some.mp hd).1
  · refine justified_concat.mpr ⟨h.retained,fun e he => ?_⟩
    obtain ⟨hget,hev⟩ := hgone.mp he
    exact ⟨h.stands e.1 ▸ hget,older_of_evicts hnow (h.dated e.1 e.2 hget) hev⟩

end Ledger

/-- The clock of a call that starts is a date. -/
def Dated (_ : World) : Act Call JsDate → Prop
  | .start _ now => InRange now
  | .resume _ _ => True

/-- The clock a tick read. -/
def Waiting.clock : Waiting → JsDate
  | .sweep now _ _ => now
  | .remove now _ _ _ => now
  | _ => none

theorem inRange_none : InRange none := nofun

def Orderly (w : World) : Prop := Ledger w.fields ∧ Every (fun _ t => InRange t.clock) w

theorem orderly_start (h : Orderly w) (c : Call) {now : JsDate} (hnow : InRange now) :
    Orderly (w.started c (start other now w.fields c)) := by
  refine start_cases (C := fun c r => Orderly (w.started c r)) c
    ?ended ?accept ?refuse ?find ?list ?prune
  case ended => exact fun c r => ⟨h.1,h.2.started c trivial⟩
  case accept => exact fun r _ _ _ => ⟨h.1.accept now r,h.2.started _ inRange_none⟩
  case refuse => exact fun r _ _ _ => ⟨h.1,h.2.started _ inRange_none⟩
  case find => exact fun r _ _ => ⟨h.1,h.2.started _ inRange_none⟩
  case list => exact fun due _ => ⟨h.1,h.2.started _ hnow⟩
  case prune => exact fun x => ⟨h.1.prune x hnow,h.2.started _ trivial⟩

theorem orderly_resume (h : Orderly w) {i : ℕ} {c : Call} {t : Waiting}
    (hi : w.calls[i]? = some ⟨c,.awaiting t⟩) :
    Orderly (w.resumed i c (resume other w.fields t)) := by
  have hclock := h.2 i c t hi
  revert hclock
  refine resume_cases (C := fun t r => InRange t.clock → Orderly (w.resumed i c r)) t
    ?ended ?cancel ?finalize ?delete
  case ended => exact fun t r _ _ => ⟨h.1,h.2.resumed i c trivial⟩
  case cancel =>
    exact fun user existing _ => ⟨h.1.cancel user existing,h.2.resumed i c inRange_none⟩
  case finalize =>
    exact fun now rest out r post _ _ _ hnow => ⟨h.1.finalize r hnow,h.2.resumed i c hnow⟩
  case delete => exact fun now r rest out hnow => ⟨h.1.delete r.1,h.2.resumed i c hnow⟩

theorem orderly_of_reached (h : Reached (driver other) Dated World.initial w) : Orderly w := by
  refine h.inv ?_ ?_
  · refine ⟨?_,by simp [Every,World.initial]⟩
    constructor <;> simp [World.initial,Fields.initial,justified_nil,standing]
  · intro u a u' hu hok hs
    revert hok
    refine step_cases hs (C := fun a u' => Dated u a → Orderly u') ?_ ?_
    · exact fun c now hnow => orderly_start hu c hnow
    · exact fun i now c t hi _ => orderly_resume hu hi

/-- Every user has one pending closure at most. -/
def Fields.OnePending (f : Fields) : Prop :=
  ∀ c ∈ f.pending.values, ∀ c' ∈ f.pending.values,
    userId c.record = userId c'.record → c = c'

/-- An account stays finalized until a prune, after the retention time at the earliest. -/
def Fields.StaysFinalized (f : Fields) : Prop :=
  (∀ u, f.finalized.get u = standing u f.log) ∧ Justified Retained f.log

/-- A request is accepted exactly if its user has no pending closure. -/
def Fields.AcceptsUnlessPending (other : JsString → JsDate) (f : Fields) : Prop :=
  ∀ r now, validateClosureRecord other r false = .ok () → isRequest r = true →
    ((start other now f (.submit r)).1 = .awaiting (.answer .accepted) ↔
      f.pending.get (userId r) = none)

theorem onePending_of_keyed {f : Fields}
    (h : ∀ u c, f.pending.get u = some c → userId c.record = u) : f.OnePending := by
  intro c hc c' hc' heq
  obtain ⟨u,hu⟩ := JsMap.mem_values.mp hc
  obtain ⟨u',hu'⟩ := JsMap.mem_values.mp hc'
  rw [h u c hu,h u' c' hu'] at heq
  subst heq
  exact Option.some.inj (hu.symm.trans hu')

theorem acceptsUnlessPending (f : Fields) : f.AcceptsUnlessPending other := by
  intro r now hvalid hreq
  rw [start,hvalid]
  dsimp only
  rw [if_pos hreq,Fields.putPending,if_neg (userId_ne_nil hvalid)]
  cases hget : f.pending.get (userId r) with
  | none =>
    rw [if_neg (by rw [JsMap.has_eq_false.mpr hget]; simp)]
    simp
  | some c =>
    rw [if_pos (JsMap.has_iff.mpr ⟨c,hget⟩)]
    simp

theorem lifecycle (h : Reached (driver other) Dated World.initial w) :
    w.fields.OnePending ∧ w.fields.StaysFinalized ∧ w.fields.AcceptsUnlessPending other := by
  obtain ⟨hledger,-⟩ := orderly_of_reached h
  exact ⟨onePending_of_keyed hledger.keyed,⟨hledger.stands,hledger.retained⟩,
    acceptsUnlessPending w.fields⟩

/-- No request is accepted for an account that is finalized. -/
def Unfinalized (pre : List Event) : Event → Prop
  | .accepted id _ _ => standing id.1 pre = none
  | _ => True

/-- Calls do not overlap. -/
def Alone (w : World) : Act Call JsDate → Prop
  | .start _ now => Idle w ∧ InRange now
  | .resume _ _ => True

namespace Sample

/-- The account is closed, and a request comes again. -/
def again : List (Act Call JsDate) :=
  [request,.resume 0 none,.start .tick due,.resume 1 none,.resume 1 none,.resume 1 none,
    .start (.submit (record (js "request") epoch)) due]

def alone (w : World) : Act Call JsDate → Bool
  | .start _ (some t) => checkEvery (fun _ _ => false) w && |t| ≤ JsDate.maxTime
  | .start _ none => false
  | .resume .. => true

theorem again_runs : (checkedRun (driver noOther) alone World.initial again).isSome := by
  decide +kernel

theorem alone_of_check (w : World) (a : Act Call JsDate) (h : alone w a = true) : Alone w a := by
  cases a with
  | resume i now => trivial
  | start c now =>
    cases now with
    | none => cases h
    | some t =>
      rw [alone,Bool.and_eq_true,decide_eq_true_eq] at h
      refine ⟨every_of_check (fun _ _ hfalse => Bool.noConfusion hfalse) h.1,?_⟩
      rintro t' ht
      obtain rfl := Option.some.inj ht
      exact h.2

/-- A closure of the account is finalized and another one accepted. -/
def reopened : List Event → Bool
  | [.accepted _ _ _,.finalized id _,.accepted id' _ _] => id.1 = id'.1
  | _ => false

end Sample

theorem not_unfinalized : ¬ ∀ w, Reached (driver Sample.noOther) Alone World.initial w →
    w.fields.OnePending ∧ w.fields.StaysFinalized ∧ Justified Unfinalized w.fields.log := by
  intro h
  obtain ⟨-,-,hlog⟩ := h _ (reached_of_checked (Option.some_get Sample.again_runs).symm
    Sample.alone_of_check)
  have hagain : Sample.reopened ((checkedRun (driver Sample.noOther) Sample.alone World.initial
      Sample.again).get Sample.again_runs).fields.log = true := by decide +kernel
  rw [Sample.reopened.eq_def] at hagain
  split at hagain
  next id₀ a₀ r₀ id now id' a r heq =>
    rw [heq] at hlog
    have hnone := hlog [.accepted id₀ a₀ r₀,.finalized id now] (.accepted id' a r)
      (List.prefix_refl _)
    have hid := of_decide_eq_true hagain
    simp [Unfinalized,standing,stand,hid] at hnone
  · cases hagain

theorem lifecycle_sample : ∃ w : World, w.fields.log ≠ [] ∧ w.fields.OnePending ∧
    w.fields.StaysFinalized ∧ w.fields.AcceptsUnlessPending Sample.noOther := by
  have hdated : ∀ u a, Alone u a → Dated u a := by
    intro u a ha
    cases a with
    | start c now => exact ha.2
    | resume i now => trivial
  have hreach := (reached_of_checked (Option.some_get Sample.again_runs).symm
    Sample.alone_of_check).mono hdated
  refine ⟨_,?_,lifecycle hreach⟩
  decide +kernel

end Lifecycle

end Closure
end Semp
