import Semp.JsMap
import Semp.IsoDate

/-! The registry of the local parts that are locked out while a migration notice is served,
and what a caller can tell of its entries that have expired. -/
namespace Semp
namespace Lockout

structure LockoutReservation where
  localpart : JsString
  /-- `until`, ISO 8601 UTC -/
  untilText : JsString
  recordId : JsString
  deriving DecidableEq, Repr

structure InMemoryLockoutRegistry where
  entries : JsMap LockoutReservation

section Registry
variable (lower : JsString → JsString) (other : JsString → JsDate)

/-- `Number.isNaN(untilMs) || untilMs <= now.getTime()` -/
def LockoutReservation.expired (r : LockoutReservation) (now : JsDate) : Bool :=
  (JsDate.parseText other r.untilText).isNone || JsDate.le (JsDate.parseText other r.untilText) now

namespace InMemoryLockoutRegistry
variable (s : InMemoryLockoutRegistry)

def empty : InMemoryLockoutRegistry := ⟨.empty⟩

/-- The registry after a reservation that does not throw. -/
def reserve (localpart : JsString) (untilDate : JsDate) (recordId : JsString) :
    Js InMemoryLockoutRegistry :=
  if localpart = [] then raise (js "migration: empty localpart")
  else
    match s.entries.get (lower localpart) with
    | some existing =>
      raise (js "migration: localpart "++JsonText.quote localpart++js " already locked out until "++
        existing.untilText++js " (record "++existing.recordId++js ")")
    | none => do
      let untilText ← untilDate.toISOString
      .ok ⟨s.entries.set (lower localpart) ⟨localpart,untilText,recordId⟩⟩

def isLockedOut (localpart : JsString) (now : JsDate) :
    Option LockoutReservation × InMemoryLockoutRegistry :=
  match s.entries.get (lower localpart) with
  | none => (none,s)
  | some r =>
    if r.expired other now then (none,⟨s.entries.delete (lower localpart)⟩) else (some r,s)

def release (localpart : JsString) : InMemoryLockoutRegistry := ⟨s.entries.delete (lower localpart)⟩

def pruneExpired (now : JsDate) : ℕ × InMemoryLockoutRegistry :=
  (s.entries.values.countP (·.expired other now),⟨s.entries.sweep (·.expired other now)⟩)

end InMemoryLockoutRegistry

inductive LockoutCall
  | reserve (localpart : JsString) (untilDate : JsDate) (recordId : JsString)
  | release (localpart : JsString)
  | isLockedOut (localpart : JsString)
  | pruneExpired

inductive LockoutResult
  | reserved (r : Js Unit)
  | released
  | lockedOut (r : Option LockoutReservation)
  | pruned (count : ℕ)

/-- A call that asks or tidies up. -/
def LockoutCall.IsQuery : LockoutCall → Prop
  | isLockedOut _ | pruneExpired => True
  | _ => False

/-- The result of a call at a time, and the registry after it. -/
def perform (now : ℤ) (s : InMemoryLockoutRegistry) :
    LockoutCall → LockoutResult × InMemoryLockoutRegistry
  | .reserve localpart untilDate recordId =>
    match s.reserve lower localpart untilDate recordId with
    | .ok s' => (.reserved (.ok ()),s')
    | .error e => (.reserved (.error e),s)
  | .release localpart => (.released,s.release lower localpart)
  | .isLockedOut localpart =>
    let r := s.isLockedOut lower other localpart (some now)
    (.lockedOut r.1,r.2)
  | .pruneExpired =>
    let r := s.pruneExpired other (some now)
    (.pruned r.1,r.2)

/-- A call at the time of its clock; `own` is false for one that was put in besides. -/
structure Entry where
  now : ℤ
  call : LockoutCall
  own : Bool

/-- The registry after the calls. -/
def after (s : InMemoryLockoutRegistry) (h : List Entry) : InMemoryLockoutRegistry :=
  h.foldl (fun s e => (perform lower other e.now s e.call).2) s

/-- What is seen of a call: its result, but not how much a call to prune found. -/
def seen (e : Entry) (r : LockoutResult) : Option LockoutResult :=
  match r with
  | .pruned _ => none
  | r => if e.own then some r else none

/-- The results of the calls of the history itself. -/
def observed (s : InMemoryLockoutRegistry) : List Entry → List LockoutResult
  | [] => []
  | e::h =>
    let r := perform lower other e.now s e.call
    (seen e r.1).toList++observed r.2 h

/-- The clock does not run backwards. -/
def Ordered (h : List Entry) : Prop := h.Pairwise fun a b => a.now ≤ b.now

/-- `h'` is `h` with further queries put in. -/
structure Extends (h' h : List Entry) : Prop where
  own : h'.filter (·.own) = h
  query : ∀ e ∈ h', e.own = false → e.call.IsQuery
  ordered : Ordered h'

/-- Queries put in change no result. -/
def Unobservable (s : InMemoryLockoutRegistry) (h : List Entry) : Prop :=
  ∀ h', Extends h' h → observed lower other s h' = observed lower other s h

/-- Every reservation that can be made at all is made exactly if the local part is not
locked out at its time. -/
def ReservedWhenFree (s : InMemoryLockoutRegistry) (h : List Entry) : Prop :=
  ∀ past later now localpart untilDate recordId own,
    h = past++⟨now,.reserve localpart untilDate recordId,own⟩::later → localpart ≠ [] →
      untilDate ≠ none →
        ((∃ s', (after lower other s past).reserve lower localpart untilDate recordId = .ok s') ↔
          ((after lower other s past).isLockedOut lower other localpart (some now)).1 = none)

/-- A call that is no reservation which finds an entry that has expired. -/
def Clear (s : InMemoryLockoutRegistry) (now : ℤ) (c : LockoutCall) : Prop :=
  ∀ localpart untilDate recordId, c = .reserve localpart untilDate recordId → localpart ≠ [] →
    ∀ r, s.entries.get (lower localpart) = some r → r.expired other (some now) = false

/-- No reservation finds an entry that has expired. -/
def Pruned (s : InMemoryLockoutRegistry) (h : List Entry) : Prop :=
  ∀ past e later, h = past++e::later →
    Clear lower other (after lower other s past) e.now e.call

end Registry

section Histories
variable {lower : JsString → JsString} {other : JsString → JsDate}
  {s t u : InMemoryLockoutRegistry} {now later : ℤ} {h h' : List Entry}

theorem LockoutReservation.expired_mono {r : LockoutReservation}
    (h : r.expired other (some now) = true) (hle : now ≤ later) :
    r.expired other (some later) = true := by
  simp only [expired,Bool.or_eq_true,JsDate.le_eq_true] at h ⊢
  obtain h | ⟨a,b,ha,hb,hab⟩ := h
  · exact .inl h
  · obtain rfl := Option.some.inj hb
    exact .inr ⟨a,later,ha,rfl,hab.trans hle⟩

namespace InMemoryLockoutRegistry

theorem isLockedOut_fst (localpart : JsString) (now : JsDate) :
    (s.isLockedOut lower other localpart now).1 =
      (s.entries.get (lower localpart)).filter fun r => !r.expired other now := by
  unfold isLockedOut
  cases s.entries.get (lower localpart) with
  | none => rfl
  | some r => cases hr : r.expired other now <;> simp [Option.filter,hr]

theorem get_isLockedOut (localpart : JsString) (now : JsDate) (k : JsString) :
    (s.isLockedOut lower other localpart now).2.entries.get k =
      if k = lower localpart then (s.entries.get k).filter fun r => !r.expired other now
      else s.entries.get k := by
  unfold isLockedOut
  by_cases hk : k = lower localpart
  · subst hk
    rw [if_pos rfl]
    cases hr : s.entries.get (lower localpart) with
    | none => exact hr
    | some r => cases he : r.expired other now <;> simp [Option.filter,he,hr]
  · rw [if_neg hk]
    cases s.entries.get (lower localpart) with
    | none => rfl
    | some r => cases he : r.expired other now <;> simp [he,JsMap.get_delete_ne hk]

theorem get_pruneExpired (now : JsDate) (k : JsString) :
    (s.pruneExpired other now).2.entries.get k =
      (s.entries.get k).filter fun r => !r.expired other now := by
  refine Option.ext fun r => ?_
  rw [pruneExpired,JsMap.get_sweep_eq_some,Option.filter_eq_some_iff]
  simp

end InMemoryLockoutRegistry

/-- `u` is `s` without some of the entries that have expired. -/
def Lacks (other : JsString → JsDate) (now : ℤ) (s u : InMemoryLockoutRegistry) : Prop :=
  ∀ k, u.entries.get k = s.entries.get k ∨ (u.entries.get k = none ∧
    ∃ r, s.entries.get k = some r ∧ r.expired other (some now) = true)

theorem Lacks.refl (now : ℤ) (s : InMemoryLockoutRegistry) : Lacks other now s s :=
  fun _ => .inl rfl

theorem Lacks.mono (h : Lacks other now s u) (hle : now ≤ later) : Lacks other later s u :=
  fun k => (h k).imp_right fun ⟨hu,r,hr,he⟩ => ⟨hu,r,hr,LockoutReservation.expired_mono he hle⟩

theorem Lacks.trans (h : Lacks other now s t) (h' : Lacks other now t u) : Lacks other now s u := by
  intro k
  obtain ht | ⟨ht,hr⟩ := h k
  · rw [← ht]
    exact h' k
  · obtain hu | ⟨hu,-⟩ := h' k
    · exact .inr ⟨hu.trans ht,hr⟩
    · exact .inr ⟨hu,hr⟩

theorem filter_expired (o : Option LockoutReservation) (now : ℤ) :
    (o.filter fun r => !r.expired other (some now)) = o ∨
      ((o.filter fun r => !r.expired other (some now)) = none ∧
        ∃ r, o = some r ∧ r.expired other (some now) = true) := by
  cases o with
  | none => exact .inl rfl
  | some r => cases he : r.expired other (some now) <;> simp [Option.filter,he]

/-- A query deletes nothing else. -/
theorem lacks_query {c : LockoutCall} (hc : c.IsQuery) :
    Lacks other now s (perform lower other now s c).2 := by
  intro k
  cases c with
  | reserve localpart untilDate recordId => cases hc
  | release localpart => cases hc
  | isLockedOut localpart =>
    rw [perform,InMemoryLockoutRegistry.get_isLockedOut]
    split_ifs with hk
    · exact filter_expired _ now
    · exact .inl rfl
  | pruneExpired =>
    rw [perform,InMemoryLockoutRegistry.get_pruneExpired]
    exact filter_expired _ now

/-- What is seen of a call does not depend on entries that have expired, unless it is a
reservation that finds one. -/
theorem Lacks.perform (h : Lacks other now s u) (c : LockoutCall)
    (hc : Clear lower other s now c) :
    seen ⟨now,c,true⟩ (Lockout.perform lower other now u c).1 =
        seen ⟨now,c,true⟩ (Lockout.perform lower other now s c).1 ∧
      Lacks other now (Lockout.perform lower other now s c).2
        (Lockout.perform lower other now u c).2 := by
  cases c with
  | reserve localpart untilDate recordId =>
    by_cases hl : localpart = []
    · subst hl
      exact ⟨rfl,h⟩
    · have hget : u.entries.get (lower localpart) = s.entries.get (lower localpart) := by
        obtain hget | ⟨-,r,hr,he⟩ := h (lower localpart)
        · exact hget
        · rw [hc _ _ _ rfl hl r hr] at he
          cases he
      simp only [Lockout.perform,InMemoryLockoutRegistry.reserve,if_neg hl,hget]
      cases s.entries.get (lower localpart) with
      | some existing => exact ⟨rfl,h⟩
      | none =>
        cases untilDate with
        | none => exact ⟨rfl,h⟩
        | some t =>
          refine ⟨rfl,fun k => ?_⟩
          by_cases hk : k = lower localpart
          · subst hk
            exact .inl (JsMap.get_set_self.trans JsMap.get_set_self.symm)
          · simpa only [JsDate.toISOString,ok_bind,JsMap.get_set_ne hk] using h k
  | release localpart =>
    refine ⟨rfl,fun k => ?_⟩
    by_cases hk : k = lower localpart
    · subst hk
      exact .inl (JsMap.get_delete_self.trans JsMap.get_delete_self.symm)
    · simpa only [Lockout.perform,InMemoryLockoutRegistry.release,JsMap.get_delete_ne hk] using h k
  | isLockedOut localpart =>
    have hsame (k : JsString) : (u.entries.get k).filter (fun r => !r.expired other (some now)) =
        (s.entries.get k).filter fun r => !r.expired other (some now) := by
      obtain hget | ⟨hu,r,hr,he⟩ := h k
      · rw [hget]
      · simp [Option.filter,hu,hr,he]
    refine ⟨?_,fun k => ?_⟩
    · simp only [Lockout.perform,InMemoryLockoutRegistry.isLockedOut_fst,hsame]
    · simp only [Lockout.perform,InMemoryLockoutRegistry.get_isLockedOut]
      split_ifs with hk
      · exact .inl (hsame k)
      · exact h k
  | pruneExpired =>
    refine ⟨rfl,fun k => .inl ?_⟩
    simp only [Lockout.perform,InMemoryLockoutRegistry.get_pruneExpired]
    obtain hget | ⟨hu,r,hr,he⟩ := h k
    · rw [hget]
    · simp [Option.filter,hu,hr,he]

theorem Pruned.tail {e : Entry} (hp : Pruned lower other s (e::h)) :
    Pruned lower other (perform lower other e.now s e.call).2 h :=
  fun past x later heq => hp (e::past) x later (congrArg (e::·) heq)

theorem pruned_cons {e : Entry} (hc : Clear lower other s e.now e.call)
    (hp : Pruned lower other (perform lower other e.now s e.call).2 h) :
    Pruned lower other s (e::h) := by
  intro past x later heq
  cases past with
  | nil =>
    obtain ⟨rfl,-⟩ := List.cons.inj heq
    exact hc
  | cons y past =>
    obtain ⟨rfl,rfl⟩ := List.cons.inj heq
    exact hp past x later rfl

theorem seen_of_not_own {e : Entry} (he : e.own = false) (r : LockoutResult) : seen e r = none := by
  cases r <;> simp [seen,he]

/-- The induction is on the longer history; the clock of its head bounds what has expired. -/
theorem observed_eq (hq : ∀ e ∈ h', e.own = false → e.call.IsQuery) (ho : Ordered h')
    (hnow : ∀ e ∈ h', now ≤ e.now) (hl : Lacks other now s u)
    (hp : Pruned lower other s (h'.filter (·.own))) :
    observed lower other u h' = observed lower other s (h'.filter (·.own)) := by
  induction h' generalizing s u now with
  | nil => rfl
  | cons e h' ih =>
    have hl := hl.mono (hnow e List.mem_cons_self)
    have hq' : ∀ e ∈ h', e.own = false → e.call.IsQuery := fun x hx => hq x (.tail _ hx)
    obtain ⟨hnow',ho'⟩ := List.pairwise_cons.mp ho
    rw [observed]
    cases hown : e.own with
    | false =>
      have hfilter : (e::h').filter (·.own) = h'.filter (·.own) :=
        List.filter_cons_of_neg (by simp [hown])
      rw [hfilter] at hp ⊢
      rw [seen_of_not_own hown]
      exact ih hq' ho' hnow' (hl.trans (lacks_query (hq e List.mem_cons_self hown))) hp
    | true =>
      have hfilter : (e::h').filter (·.own) = e::h'.filter (·.own) := List.filter_cons_of_pos hown
      rw [hfilter] at hp ⊢
      obtain ⟨now',c,own⟩ := e
      obtain rfl : own = true := hown
      obtain ⟨hseen,hl'⟩ := hl.perform c (hp [] _ _ rfl)
      rw [observed,hseen,ih hq' ho' hnow' hl' hp.tail]

theorem observed_append (past later : List Entry) : observed lower other s (past++later) =
    observed lower other s past++observed lower other (after lower other s past) later := by
  induction past generalizing s with
  | nil => rfl
  | cons e past ih =>
    simp only [List.cons_append,observed,ih,after,List.foldl_cons,List.append_assoc]

theorem extends_inserted {past later : List Entry} {e q : Entry}
    (hown : ∀ x ∈ past++e::later, x.own = true) (ho : Ordered (past++e::later))
    (hq : q.call.IsQuery) (hnot : q.own = false) (hnow : q.now = e.now) :
    Extends (past++q::e::later) (past++e::later) where
  own := by
    have hpast : past.filter (·.own) = past :=
      List.filter_eq_self.mpr fun x hx => hown x (by simp [hx])
    have hlater : (e::later).filter (·.own) = e::later :=
      List.filter_eq_self.mpr fun x hx => hown x (List.mem_append_right _ hx)
    rw [List.filter_append,List.filter_cons_of_neg (by simp [hnot]),hpast,hlater]
  query x hx hx' := by
    simp only [List.mem_append,List.mem_cons] at hx hown
    obtain hx | rfl | hx := hx
    · simp [hown x (.inl hx)] at hx'
    · exact hq
    · simp [hown x (.inr hx)] at hx'
  ordered := by
    obtain ⟨hpast,hlater,hcross⟩ := List.pairwise_append.mp ho
    refine List.pairwise_append.mpr ⟨hpast,List.pairwise_cons.mpr ⟨fun x hx => ?_,hlater⟩,?_⟩
    · obtain rfl | hx := List.mem_cons.mp hx
      · exact hnow.le
      · exact hnow.le.trans ((List.pairwise_cons.mp hlater).1 x hx)
    · intro a ha b hb
      obtain rfl | hb := List.mem_cons.mp hb
      · exact (hcross a ha e List.mem_cons_self).trans hnow.ge
      · exact hcross a ha b hb

/-- A reservation that finds an expired entry ends otherwise after the entries are pruned. -/
theorem pruned_of_unobservable (hown : ∀ e ∈ h, e.own = true) (ho : Ordered h)
    (hu : Unobservable lower other s h) : Pruned lower other s h := by
  rintro past ⟨now,_,own⟩ later rfl localpart untilDate recordId rfl hl r hr
  by_contra he
  rw [Bool.not_eq_false] at he
  have howne : own = true := hown _ (List.mem_append_right _ List.mem_cons_self)
  subst howne
  have hext := extends_inserted (q := ⟨now,.pruneExpired,false⟩) hown ho trivial rfl rfl
  have hobs := hu _ hext
  rw [observed_append,observed_append,List.append_cancel_left_eq] at hobs
  have hnone : ((after lower other s past).pruneExpired other (some now)).2.entries.get
      (lower localpart) = none := by
    rw [InMemoryLockoutRegistry.get_pruneExpired,hr]
    simp [Option.filter,he]
  cases untilDate <;>
    simp [observed,seen,perform,InMemoryLockoutRegistry.reserve,hl,hr,hnone,raise,
      JsDate.toISOString] at hobs

theorem reserve_ok_iff {localpart recordId : JsString} {untilDate : JsDate} (hl : localpart ≠ [])
    (hd : untilDate ≠ none) : (∃ s', s.reserve lower localpart untilDate recordId = .ok s') ↔
      s.entries.get (lower localpart) = none := by
  obtain ⟨t,rfl⟩ := Option.ne_none_iff_exists'.mp hd
  rw [InMemoryLockoutRegistry.reserve,if_neg hl]
  cases s.entries.get (lower localpart) <;> simp [JsDate.toISOString,raise]

theorem reservedWhenFree_of_pruned (hp : Pruned lower other s h) :
    ReservedWhenFree lower other s h := by
  intro past later now localpart untilDate recordId own heq hl hd
  rw [reserve_ok_iff hl hd,InMemoryLockoutRegistry.isLockedOut_fst]
  cases hr : (after lower other s past).entries.get (lower localpart) with
  | none => simp
  | some r => simp [Option.filter,hp past _ later heq _ _ _ rfl hl r hr]

/-- Queries put into a history change none of its results, and reservations are made just
where nothing is locked out, if and only if no reservation finds an entry that has expired. -/
theorem unobservable_iff (lower : JsString → JsString) (other : JsString → JsDate)
    (s : InMemoryLockoutRegistry) (h : List Entry) (hown : ∀ e ∈ h, e.own = true)
    (ho : Ordered h) :
    (Unobservable lower other s h ∧ ReservedWhenFree lower other s h) ↔ Pruned lower other s h := by
  constructor
  · rintro ⟨hu,-⟩
    exact pruned_of_unobservable hown ho hu
  · intro hp
    refine ⟨fun h' hext => ?_,reservedWhenFree_of_pruned hp⟩
    cases h' with
    | nil =>
      obtain rfl := hext.own
      rfl
    | cons e h' =>
      have hnow : ∀ x ∈ e::h', e.now ≤ x.now := by
        intro x hx
        obtain rfl | hx := List.mem_cons.mp hx
        · exact le_rfl
        · exact (List.pairwise_cons.mp hext.ordered).1 x hx
      have hobs := observed_eq hext.query hext.ordered hnow (Lacks.refl e.now s)
        (by rwa [hext.own])
      rw [hobs,hext.own]

end Histories

/-! A local part that is reserved again after its first reservation has expired. -/
def firstEntry : Entry := ⟨0,.reserve (js "alice") (some 1000) (js "m1"),true⟩

def secondEntry : Entry := ⟨2000,.reserve (js "alice") (some 5000) (js "m2"),true⟩

theorem unobservable_iff_sample : Unobservable id (fun _ => none) .empty
      [firstEntry,⟨2000,.isLockedOut (js "alice"),true⟩,secondEntry] ∧
    ReservedWhenFree id (fun _ => none) .empty
      [firstEntry,⟨2000,.isLockedOut (js "alice"),true⟩,secondEntry] := by
  refine (unobservable_iff id (fun _ => none) .empty _ (by simp [firstEntry,secondEntry])
    (by simp [Ordered,firstEntry,secondEntry])).mpr ?_
  refine pruned_cons (fun _ _ _ _ _ r hr => by cases hr) (pruned_cons nofun (pruned_cons ?_ ?_))
  · rintro localpart untilDate recordId hc - r hr
    obtain ⟨rfl,-,-⟩ := LockoutCall.reserve.inj hc
    have hnone : ((after id (fun _ => none) .empty [firstEntry,
        ⟨2000,.isLockedOut (js "alice"),true⟩]).entries.get (js "alice")) = none := by decide +kernel
    cases hnone.symm.trans hr
  · intro past e later heq
    cases past <;> cases heq

/-- Whether somebody asked in between decides whether the second reservation is made. -/
theorem not_unobservable : ¬∀ (lower : JsString → JsString) (other : JsString → JsDate)
    (h : List Entry), (∀ e ∈ h, e.own = true) → Ordered h → Unobservable lower other .empty h := by
  intro hall
  have ho : Ordered [firstEntry,secondEntry] := by simp [Ordered,firstEntry,secondEntry]
  have hown : ∀ e ∈ [firstEntry,secondEntry], e.own = true := by simp [firstEntry,secondEntry]
  have hp := pruned_of_unobservable hown ho (hall id (fun _ => none) _ hown ho)
  have hr : (after id (fun _ => none) .empty [firstEntry]).entries.get (js "alice") =
      some ⟨js "alice",IsoDate.text 1000,js "m1"⟩ := rfl
  have he := hp [firstEntry] _ [] rfl _ _ _ rfl (by decide) _ hr
  revert he
  decide +kernel

end Lockout
end Semp
