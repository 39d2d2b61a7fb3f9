import Semp.Closure

/-! Runs of the closure driver: what becomes of a closure that was canceled, when a closure is
finalized, and how long an account stays finalized. -/
namespace Semp
namespace Closure
open Tasks

/-- The closure is pending. -/
def Fields.Holds (f : Fields) (id : Ref) : Prop :=
  ∃ c, f.pending.get id.1 = some c ∧ c.number = id.2

def Fields.Canceled (f : Fields) (id : Ref) : Prop := .canceled id ∈ f.log

def Fields.Finalized (f : Fields) (id : Ref) : Prop := ∃ now, .finalized id now ∈ f.log

def refs (es : List (JsString × Pending)) : List Ref := es.map fun e => (e.1,e.2.number)

/-- The due closures that a tick has still to deal with. -/
def Waiting.due : Waiting → List Ref
  | .sweep _ rest _ => refs rest
  | .remove _ r rest _ => refs (r::rest)
  | _ => []

/-- The closure that a tick has finalized and not yet removed. -/
def Waiting.removing : Waiting → List Ref
  | .remove _ r _ _ => refs [r]
  | _ => []

/-- The closure that a cancellation found and has not yet removed. -/
def Waiting.canceling : Waiting → List Ref
  | .cancel user (some c) => [(user,c.number)]
  | _ => []

/-- What the closures that were canceled, or are about to be, have in common: no tick deals
with them. -/
structure Kept (f : Fields) (due canceling removing : Set Ref) : Prop where
  fresh : ∀ id, f.Holds id ∨ id ∈ due ∨ id ∈ canceling ∨ f.Canceled id ∨ f.Finalized id →
    id.2 < f.opened
  of_canceled : ∀ id, f.Canceled id → ¬f.Holds id ∧ id ∉ due ∧ ¬f.Finalized id
  of_canceling : ∀ id ∈ canceling, id ∉ due ∧ ¬f.Finalized id
  of_finalized : ∀ id, f.Finalized id → f.Holds id → id ∈ removing
  removing_due : removing ⊆ due

namespace Kept
variable {f f' : Fields} {due due' canceling canceling' removing removing' : Set Ref} {id : Ref}

/-- Lists that lose something, and fields in which no closure is new. -/
theorem mono (h : Kept f due canceling removing) (hholds : ∀ id, f'.Holds id → f.Holds id)
    (hcanceled : ∀ id, f'.Canceled id → f.Canceled id)
    (hfinalized : ∀ id, f'.Finalized id → f.Finalized id) (hopened : f'.opened = f.opened)
    (hdue : due' ⊆ due) (hcanceling : canceling' ⊆ canceling) (hsub : removing' ⊆ due')
    (hremoving : ∀ id ∈ removing, f'.Holds id → id ∈ removing') :
    Kept f' due' canceling' removing' where
  fresh id hid := by
    rw [hopened]
    refine h.fresh id ?_
    obtain hid | hid | hid | hid | hid := hid
    · exact .inl (hholds id hid)
    · exact .inr (.inl (hdue hid))
    · exact .inr (.inr (.inl (hcanceling hid)))
    · exact .inr (.inr (.inr (.inl (hcanceled id hid))))
    · exact .inr (.inr (.inr (.inr (hfinalized id hid))))
  of_canceled id hid := by
    obtain ⟨hno,hdue',hfin⟩ := h.of_canceled id (hcanceled id hid)
    exact ⟨fun hh => hno (hholds id hh),fun hd => hdue' (hdue hd),fun hf => hfin (hfinalized id hf)⟩
  of_canceling id hid := by
    obtain ⟨hdue',hfin⟩ := h.of_canceling id (hcanceling hid)
    exact ⟨fun hd => hdue' (hdue hd),fun hf => hfin (hfinalized id hf)⟩
  of_finalized id hfin hhold :=
    hremoving id (h.of_finalized id (hfinalized id hfin) (hholds id hhold)) hhold
  removing_due := hsub

/-- A request that is accepted has a number that no closure had. -/
theorem accept (h : Kept f due canceling removing) (now : JsDate) (r : Members) :
    Kept (f.accept now r) due canceling removing := by
  have hold {id : Ref} (hid : (f.accept now r).Holds id) :
      id = (userId r,f.opened) ∨ f.Holds id := by
    obtain ⟨c,hc,hn⟩ := hid
    rw [Fields.accept] at hc
    by_cases hu : id.1 = userId r
    · rw [hu,JsMap.get_set_self] at hc
      obtain rfl := Option.some.inj hc
      exact .inl (Prod.ext hu hn.symm)
    · rw [JsMap.get_set_ne hu] at hc
      exact .inr ⟨c,hc,hn⟩
  have hnew {id : Ref} (hlt : id.2 < f.opened) : id ≠ (userId r,f.opened) := by
    rintro rfl
    exact lt_irrefl _ hlt
  have hcanceled (id : Ref) : (f.accept now r).Canceled id ↔ f.Canceled id := by
    simp [Fields.Canceled,Fields.accept]
  have hfinalized (id : Ref) : (f.accept now r).Finalized id ↔ f.Finalized id := by
    simp [Fields.Finalized,Fields.accept]
  constructor
  · intro id hid
    rw [hcanceled,hfinalized] at hid
    obtain hid | hid := hid
    · obtain rfl | hid := hold hid
      · exact Nat.lt_succ_self _
      · exact Nat.lt_succ_of_lt (h.fresh id (.inl hid))
    · exact Nat.lt_succ_of_lt (h.fresh id (.inr hid))
  · intro id hid
    rw [hcanceled] at hid
    rw [hfinalized]
    obtain ⟨hno,hd,hfin⟩ := h.of_canceled id hid
    refine ⟨fun hh => ?_,hd,hfin⟩
    obtain heq | hh := hold hh
    · exact hnew (h.fresh id (.inr (.inr (.inr (.inl hid))))) heq
    · exact hno hh
  · intro id hid
    rw [hfinalized]
    exact h.of_canceling id hid
  · intro id hfin hhold
    rw [hfinalized] at hfin
    obtain heq | hhold := hold hhold
    · exact absurd heq (hnew (h.fresh id (.inr (.inr (.inr (.inr hfin))))))
    · exact h.of_finalized id hfin hhold
  · exact h.removing_due

/-- A cancellation that finds a closure which no tick deals with. -/
theorem find (h : Kept f due canceling removing) (hid : f.Holds id) (hdue : id ∉ due) :
    Kept f due (canceling ∪ {id}) removing where
  fresh x hx := by
    refine h.fresh x ?_
    obtain hx | hx | (hx | rfl) | hx := hx
    · exact .inl hx
    · exact .inr (.inl hx)
    · exact .inr (.inr (.inl hx))
    · exact .inl hid
    · exact .inr (.inr (.inr hx))
  of_canceled := h.of_canceled
  of_canceling x hx := by
    obtain hx | rfl := hx
    · exact h.of_canceling x hx
    · exact ⟨hdue,fun hfin => hdue (h.removing_due (h.of_finalized x hfin hid))⟩
  of_finalized := h.of_finalized
  removing_due := h.removing_due

/-- A tick that lists pending closures which no cancellation found. -/
theorem list (h : Kept f due canceling removing) {listed : Set Ref}
    (hholds : ∀ id ∈ listed, f.Holds id) (hno : ∀ id ∈ listed, id ∉ canceling) :
    Kept f (due ∪ listed) canceling removing where
  fresh x hx := by
    refine h.fresh x ?_
    obtain hx | (hx | hx) | hx := hx
    · exact .inl hx
    · exact .inr (.inl hx)
    · exact .inl (hholds x hx)
    · exact .inr (.inr hx)
  of_canceled x hx := by
    obtain ⟨hhold,hdue,hfin⟩ := h.of_canceled x hx
    refine ⟨hhold,?_,hfin⟩
    rintro (hd | hl)
    · exact hdue hd
    · exact hhold (hholds x hl)
  of_canceling x hx := by
    obtain ⟨hdue,hfin⟩ := h.of_canceling x hx
    refine ⟨?_,hfin⟩
    rintro (hd | hl)
    · exact hdue hd
    · exact hno x hl hx
  of_finalized := h.of_finalized
  removing_due := h.removing_due.trans Set.subset_union_left

theorem cancel (h : Kept f due canceling removing) {user : JsString} {c : Pending}
    (hid : (user,c.number) ∈ canceling) : Kept (f.cancel user c) due canceling removing := by
  have hold {id : Ref} (hid : (f.cancel user c).Holds id) : id.1 ≠ user ∧ f.Holds id := by
    obtain ⟨c',hc,hn⟩ := hid
    obtain ⟨hne,hc⟩ := JsMap.get_delete_eq_some.mp hc
    exact ⟨hne,c',hc,hn⟩
  have hcanceled {id : Ref} (hid : (f.cancel user c).Canceled id) :
      f.Canceled id ∨ id = (user,c.number) := by
    simpa [Fields.Canceled,Fields.cancel] using hid
  have hfinalized (id : Ref) : (f.cancel user c).Finalized id ↔ f.Finalized id := by
    simp [Fields.Finalized,Fields.cancel]
  constructor
  · intro id hid'
    rw [hfinalized] at hid'
    refine h.fresh id ?_
    obtain hx | hx | hx | hx | hx := hid'
    · exact .inl (hold hx).2
    · exact .inr (.inl hx)
    · exact .inr (.inr (.inl hx))
    · obtain hx | rfl := hcanceled hx
      · exact .inr (.inr (.inr (.inl hx)))
      · exact .inr (.inr (.inl hid))
    · exact .inr (.inr (.inr (.inr hx)))
  · intro id hid'
    rw [hfinalized]
    obtain hx | rfl := hcanceled hid'
    · obtain ⟨hno,hd,hfin⟩ := h.of_canceled id hx
      exact ⟨fun hh => hno (hold hh).2,hd,hfin⟩
    · obtain ⟨hd,hfin⟩ := h.of_canceling _ hid
      exact ⟨fun hh => (hold hh).1 rfl,hd,hfin⟩
  · intro id hid'
    rw [hfinalized]
    exact h.of_canceling id hid'
  · intro id hfin hhold
    rw [hfinalized] at hfin
    exact h.of_finalized id hfin (hold hhold).2
  · exact h.removing_due

/-- A tick finalizes a closure from its list. -/
theorem finalize (h : Kept f due canceling removing) {r : JsString × Pending} {now : JsDate}
    (hid : (r.1,r.2.number) ∈ due) :
    Kept (f.finalize r now) due canceling (removing ∪ {(r.1,r.2.number)}) := by
  have hhold (id : Ref) : (f.finalize r now).Holds id ↔ f.Holds id := Iff.rfl
  have hcanceled (id : Ref) : (f.finalize r now).Canceled id ↔ f.Canceled id := by
    simp [Fields.Canceled,Fields.finalize]
  have hfinalized {id : Ref} (hx : (f.finalize r now).Finalized id) :
      f.Finalized id ∨ id = (r.1,r.2.number) := by
    obtain ⟨t,ht⟩ := hx
    rw [Fields.finalize,List.mem_append,List.mem_singleton] at ht
    obtain ht | ht := ht
    · exact .inl ⟨t,ht⟩
    · exact .inr (Event.finalized.inj ht).1
  constructor
  · intro id hx
    rw [hhold,hcanceled] at hx
    refine h.fresh id ?_
    obtain hx | hx | hx | hx | hx := hx
    · exact .inl hx
    · exact .inr (.inl hx)
    · exact .inr (.inr (.inl hx))
    · exact .inr (.inr (.inr (.inl hx)))
    · obtain hx | rfl := hfinalized hx
      · exact .inr (.inr (.inr (.inr hx)))
      · exact .inr (.inl hid)
  · intro id hx
    rw [hcanceled] at hx
    rw [hhold]
    obtain ⟨hno,hd,hfin⟩ := h.of_canceled id hx
    refine ⟨hno,hd,fun hf => ?_⟩
    obtain hf | rfl := hfinalized hf
    · exact hfin hf
    · exact hd hid
  · intro id hx
    obtain ⟨hd,hfin⟩ := h.of_canceling id hx
    refine ⟨hd,fun hf => ?_⟩
    obtain hf | rfl := hfinalized hf
    · exact hfin hf
    · exact hd hid
  · intro id hfin hx
    rw [hhold] at hx
    obtain hfin | rfl := hfinalized hfin
    · exact .inl (h.of_finalized id hfin hx)
    · exact .inr rfl
  · exact Set.union_subset h.removing_due (Set.singleton_subset_iff.mpr hid)

end Kept

section Interleaving
variable {other : JsString → JsDate} {w w' : World}

/-- A closure whose cancellation was accepted is not finalized. -/
def Fields.Held (f : Fields) : Prop := ∀ id, f.Canceled id → ¬f.Finalized id

/-- No cancellation starts on a closure that a tick deals with, and no tick lists a closure that
a cancellation found and has still to remove. -/
def Apart (other : JsString → JsDate) (w : World) : Act Call JsDate → Prop
  | .start (.submit r) _ =>
    validateClosureRecord other r false = .ok () → isRequest r = false →
      ∀ c, w.fields.pending.get (userId r) = some c → (userId r,c.number) ∉ gather Waiting.due w
  | .start .tick now =>
    ∀ due, duePending other w.fields now = .ok due →
      ∀ id ∈ refs due, id ∉ gather Waiting.canceling w
  | _ => True

def Guarded (w : World) : Prop :=
  Kept w.fields {id | id ∈ gather Waiting.due w} {id | id ∈ gather Waiting.canceling w}
    {id | id ∈ gather Waiting.removing w}

theorem removing_subset_due (w : World) :
    {id | id ∈ gather Waiting.removing w} ⊆ {id | id ∈ gather Waiting.due w} := by
  intro id hid
  obtain ⟨i,c,t,hi,hid⟩ := (mem_gather _).mp hid
  refine (mem_gather _).mpr ⟨i,c,t,hi,?_⟩
  cases t with
  | remove now r rest out =>
    obtain rfl := List.mem_singleton.mp hid
    exact List.mem_cons_self
  | _ => cases hid

theorem setOf_gather_started {α : Type} (g : Waiting → List α) (c : Call) (r : Result × Fields) :
    {x | x ∈ gather g (w.started c r)} = {x | x ∈ gather g w} ∪ {x | x ∈ r.1.list g} :=
  Set.ext fun _ => mem_gather_started g

theorem guarded_start (h : Guarded w) {c : Call} {now : JsDate}
    (hok : Apart other w (.start c now)) :
    Guarded (w.started c (start other now w.fields c)) := by
  revert hok
  rw [Guarded] at h
  refine start_cases (C := fun c r => Apart other w (.start c now) → Guarded (w.started c r)) c
    ?ended ?accept ?refuse ?find ?list ?prune
  all_goals simp only [Guarded,setOf_gather_started]
  case ended =>
    intro c r _
    simpa [World.started] using h
  case accept =>
    intro r _ _ _ _
    simpa [World.started,Waiting.due,Waiting.canceling,Waiting.removing] using h.accept now r
  case refuse =>
    intro r _ _ _ _
    simpa [World.started,Waiting.due,Waiting.canceling,Waiting.removing] using h
  case find =>
    intro r hvalid hreq hok
    cases hc : w.fields.pending.get (userId r) with
    | none => simpa [World.started,Waiting.due,Waiting.canceling,Waiting.removing] using h
    | some c =>
      have hid : w.fields.Holds (userId r,c.number) := ⟨c,hc,rfl⟩
      have := h.find hid (hok hvalid hreq c hc)
      simpa [World.started,Waiting.due,Waiting.canceling,Waiting.removing,Set.union_def] using this
  case list =>
    intro due hdue hok
    have hholds : ∀ id ∈ {id | id ∈ refs due}, w.fields.Holds id := by
      intro id hid
      obtain ⟨e,he,rfl⟩ := List.mem_map.mp hid
      exact ⟨e.2,of_mem_duePending hdue he,rfl⟩
    have := h.list hholds (hok due hdue)
    simpa [World.started,Waiting.due,Waiting.canceling,Waiting.removing] using this
  case prune =>
    intro x _
    have hcanceled (id : Ref) : (w.fields.pruneFinalized x now).2.Canceled id →
        w.fields.Canceled id := by
      simp [Fields.Canceled,Fields.pruneFinalized]
    have hfinalized (id : Ref) : (w.fields.pruneFinalized x now).2.Finalized id →
        w.fields.Finalized id := by
      simp [Fields.Finalized,Fields.pruneFinalized]
    have : Kept (w.fields.pruneFinalized x now).2 _ _ _ := h.mono (fun _ => id) hcanceled
      hfinalized rfl subset_rfl subset_rfl h.removing_due fun _ hid _ => hid
    simpa [World.started] using this

/-- A call that went on got nothing new in its lists, and removed what it no longer has. -/
theorem guarded_resumed {i : ℕ} {c : Call} {t : Waiting} {r : Result × Fields}
    {removing : Set Ref} (hi : w.calls[i]? = some ⟨c,.awaiting t⟩)
    (h : Kept r.2 {id | id ∈ gather Waiting.due w} {id | id ∈ gather Waiting.canceling w} removing)
    (hdue : ∀ id ∈ r.1.list Waiting.due, id ∈ t.due)
    (hcanceling : r.1.list Waiting.canceling = [])
    (hremoving : ∀ id ∈ removing, r.2.Holds id →
      id ∈ gather Waiting.removing w ∧ id ∉ t.removing ∨ id ∈ r.1.list Waiting.removing) :
    Guarded (w.resumed i c r) := by
  refine h.mono (fun _ => id) (fun _ => id) (fun _ => id) rfl ?_ ?_ (removing_subset_due _) ?_
  · intro id hid
    obtain hid | hid := of_mem_gather_resumed _ hi hid
    · exact hid
    · exact (mem_gather _).mpr ⟨i,c,t,hi,hdue id hid⟩
  · intro id hid
    obtain hid | hid := of_mem_gather_resumed _ hi hid
    · exact hid
    · rw [hcanceling] at hid
      cases hid
  · intro id hid hhold
    obtain ⟨hid,hno⟩ | hid := hremoving id hid hhold
    · exact (mem_gather_resumed_or _ hi r hid).resolve_left hno
    · exact mem_gather_resumed _ hi hid

theorem guarded_resume (h : Guarded w) {i : ℕ} {c : Call} {t : Waiting}
    (hi : w.calls[i]? = some ⟨c,.awaiting t⟩) :
    Guarded (w.resumed i c (resume other w.fields t)) := by
  revert hi
  refine resume_cases (C := fun t r => w.calls[i]? = some ⟨c,.awaiting t⟩ →
    Guarded (w.resumed i c r)) t ?ended ?cancel ?finalize ?delete
  case ended =>
    intro t r hno hi
    refine guarded_resumed hi h (by simp) rfl fun id hid _ => .inl ⟨hid,?_⟩
    cases t with
    | remove now r rest out => exact absurd rfl (hno now r rest out)
    | _ => exact List.not_mem_nil
  case cancel =>
    intro user existing hi
    have hmem : (user,existing.number) ∈ gather Waiting.canceling w :=
      (mem_gather _).mpr ⟨i,c,_,hi,List.mem_singleton.mpr rfl⟩
    exact guarded_resumed hi (Kept.cancel h hmem) (by simp [Waiting.due]) rfl
      fun id hid _ => .inl ⟨hid,List.not_mem_nil⟩
  case finalize =>
    intro now rest out r post hpost _ _ hi
    have hsub : refs (r::post) ⊆ refs rest := List.map_subset _ hpost.subset
    have hmem : (r.1,r.2.number) ∈ gather Waiting.due w :=
      (mem_gather _).mpr ⟨i,c,_,hi,hsub List.mem_cons_self⟩
    refine guarded_resumed hi (Kept.finalize h hmem) (fun id hid => hsub hid) rfl ?_
    rintro id (hid | rfl) _
    · exact .inl ⟨hid,List.not_mem_nil⟩
    · exact .inr (List.mem_singleton.mpr rfl)
  case delete =>
    intro now r rest out hi
    have hno {id : Ref} (hid : (w.fields.deletePending r.1).Holds id) :
        id.1 ≠ r.1 ∧ w.fields.Holds id := by
      obtain ⟨c',hc,hn⟩ := hid
      obtain ⟨hne,hc⟩ := JsMap.get_delete_eq_some.mp hc
      exact ⟨hne,c',hc,hn⟩
    have hkept : Kept (w.fields.deletePending r.1) _ _ _ := Kept.mono h
      (fun _ hid => (hno hid).2) (fun _ => id) (fun _ => id) rfl subset_rfl subset_rfl
      h.removing_due fun _ hid _ => hid
    refine guarded_resumed hi hkept (fun id hid => List.mem_cons_of_mem _ hid) rfl ?_
    intro id hid hhold
    refine .inl ⟨hid,fun heq => (hno hhold).1 ?_⟩
    rw [List.mem_singleton.mp heq]

theorem guarded_of_reached (h : Reached (driver other) (Apart other) World.initial w) :
    Guarded w := by
  refine h.inv ?_ ?_
  · constructor <;> simp [World.initial,gather,Fields.initial,Fields.Holds,Fields.Canceled,
      Fields.Finalized]
  · intro u a u' hu hok hs
    revert hok
    refine step_cases hs (C := fun a u' => Apart other u a → Guarded u') ?_ ?_
    · exact fun c now hok => guarded_start hu hok
    · exact fun i now c t hi _ => guarded_resume hu hi

theorem held_of_apart (h : Reached (driver other) (Apart other) World.initial w) :
    w.fields.Held :=
  fun id hid => ((guarded_of_reached h).of_canceled id hid).2.2

end Interleaving

namespace Sample

def noOther : JsString → JsDate := fun _ => none

def record (step requestedAt : JsString) : Members :=
  [(js "type",.str recordType),(js "step",.str step),(js "version",.str (js "1.0.0")),
    (js "user_id",.str (js "alice@a.test")),(js "requested_at",.str requestedAt),
    (js "issued_by",.str (js "device")),
    (js "grace_period_seconds",.num (.ofNat minGracePeriodSeconds)),
    (js "signature",.obj [(js "algorithm",.str (js "ed25519")),(js "key_id",.str (js "k")),
      (js "value",.str (js "AA=="))])]

def epoch : JsString := js "1970-01-01T00:00:00Z"

def request : Act Call JsDate := .start (.submit (record (js "request") epoch)) (some 0)

/-- The grace period after the epoch. -/
def due : JsDate := some 604800000

def cancel : Act Call JsDate := .start (.submit (record (js "cancel") epoch)) due

def id : Ref := (js "alice@a.test",0)

def cancels : Event → Bool
  | .canceled c => c = id
  | _ => false

def finalizes : Event → Bool
  | .finalized c _ => c = id
  | _ => false

theorem canceled_of_any {f : Fields} (h : f.log.any cancels = true) : f.Canceled id := by
  obtain ⟨e,he,hc⟩ := List.any_eq_true.mp h
  cases e with
  | canceled c => exact of_decide_eq_true hc ▸ he
  | _ => cases hc

theorem finalized_of_any {f : Fields} (h : f.log.any finalizes = true) : f.Finalized id := by
  obtain ⟨e,he,hc⟩ := List.any_eq_true.mp h
  cases e with
  | finalized c now => exact ⟨now,of_decide_eq_true hc ▸ he⟩
  | _ => cases hc

/-- The closure is canceled after a tick listed it. -/
def canceledLate : List (Act Call JsDate) :=
  [request,.start .tick due,cancel,.resume 2 none,.resume 2 none,.resume 1 none]

theorem canceledLate_runs : (run (driver noOther) World.initial canceledLate).isSome := by
  decide +kernel

def canceledEarly : List (Act Call JsDate) := [request,cancel,.resume 1 none,.start .tick due]

/-- No call waits in the middle of what it does. -/
def quiet (w : World) : Act Call JsDate → Bool
  | .start .. => (gather Waiting.due w).isEmpty && (gather Waiting.canceling w).isEmpty
  | .resume .. => true

theorem canceledEarly_runs :
    (checkedRun (driver noOther) quiet World.initial canceledEarly).isSome := by decide +kernel

theorem apart_of_quiet (w : World) (a : Act Call JsDate) (h : quiet w a = true) :
    Apart noOther w a := by
  cases a with
  | resume i now => trivial
  | start c now =>
    simp only [quiet,Bool.and_eq_true,List.isEmpty_iff] at h
    cases c with
    | submit r =>
      intro _ _ c _
      rw [h.1]
      exact List.not_mem_nil
    | tick =>
      intro due _ id _
      rw [h.2]
      exact List.not_mem_nil
    | prune x => trivial

end Sample

theorem not_held :
    ¬ ∀ w, Reached (driver Sample.noOther) (fun _ _ => True) World.initial w → w.fields.Held := by
  intro h
  have hheld := h _ (reached_get Sample.canceledLate_runs fun _ _ _ => trivial)
  exact hheld Sample.id (Sample.canceled_of_any (by decide +kernel))
    (Sample.finalized_of_any (by decide +kernel))

theorem held_of_apart_sample : ∃ w : World, w.fields.Canceled Sample.id ∧ w.fields.Held :=
  ⟨_,Sample.canceled_of_any (f := ((checkedRun (driver Sample.noOther) Sample.quiet World.initial
      Sample.canceledEarly).get Sample.canceledEarly_runs).fields) (by decide +kernel),
    held_of_apart (reached_of_checked (Option.some_get Sample.canceledEarly_runs).symm
      Sample.apart_of_quiet)⟩

end Closure
end Semp
