import Mathlib.Algebra.BigOperators.Group.List.Basic
import Mathlib.Algebra.Order.BigOperators.Group.List
import Mathlib.Tactic.Linarith

/-! Calls of an object's asynchronous methods.  A call runs without interruption to its
next `await`, where any other call may go on or start; what it keeps across the `await` is
its own.  A run is any order of starts and resumptions. -/
namespace Semp
namespace Tasks

/-- A call waits with what it keeps, or has ended. -/
inductive Stage (τ ρ : Type)
  | awaiting (t : τ)
  | done (r : ρ)
  deriving DecidableEq, Repr

structure Call (κ τ ρ : Type) where
  args : κ
  stage : Stage τ ρ
  deriving DecidableEq, Repr

structure World (σ κ τ ρ : Type) where
  fields : σ
  calls : List (Call κ τ ρ)
  deriving DecidableEq, Repr

/-- `ν` is what the environment gives a call that starts or goes on. -/
inductive Act (κ ν : Type)
  | start (c : κ) (v : ν)
  | resume (i : ℕ) (v : ν)

structure Object (σ κ τ ν ρ : Type) where
  start : κ → ν → σ → Stage τ ρ × σ
  resume : τ → ν → σ → Stage τ ρ × σ

variable {σ κ τ ν ρ : Type}

/-- One more call, which came to a stage and left these fields. -/
def World.started (w : World σ κ τ ρ) (c : κ) (r : Stage τ ρ × σ) : World σ κ τ ρ :=
  ⟨r.2,w.calls++[⟨c,r.1⟩]⟩

/-- Call `i` went on to a stage and left these fields. -/
def World.resumed (w : World σ κ τ ρ) (i : ℕ) (c : κ) (r : Stage τ ρ × σ) : World σ κ τ ρ :=
  ⟨r.2,w.calls.set i ⟨c,r.1⟩⟩

def step (o : Object σ κ τ ν ρ) (w : World σ κ τ ρ) : Act κ ν → Option (World σ κ τ ρ)
  | .start c v => some (w.started c (o.start c v w.fields))
  | .resume i v =>
    match w.calls[i]? with
    | some ⟨c,.awaiting t⟩ => some (w.resumed i c (o.resume t v w.fields))
    | _ => none

def run (o : Object σ κ τ ν ρ) (w : World σ κ τ ρ) (as : List (Act κ ν)) :
    Option (World σ κ τ ρ) :=
  as.foldlM (step o) w

/-- The states of the runs from `w` whose every step meets `ok`. -/
inductive Reached (o : Object σ κ τ ν ρ) (ok : World σ κ τ ρ → Act κ ν → Prop)
    (w : World σ κ τ ρ) : World σ κ τ ρ → Prop
  | refl : Reached o ok w w
  | tail {mid w' : World σ κ τ ρ} {a : Act κ ν} (h : Reached o ok w mid) (hok : ok mid a)
    (hs : step o mid a = some w') : Reached o ok w w'

/-- What a waiting call counts for; one that has ended counts for nothing. -/
def weight (f : τ → ℕ) : Stage τ ρ → ℕ
  | .awaiting t => f t
  | .done _ => 0

/-- A count over all the calls. -/
def tally (g : Call κ τ ρ → ℕ) (w : World σ κ τ ρ) : ℕ := (w.calls.map g).sum

/-- A count over the calls that wait. -/
def total (f : τ → ℕ) (w : World σ κ τ ρ) : ℕ := tally (fun c => weight f c.stage) w

/-- What a waiting call has in its list; one that has ended has nothing. -/
def Stage.list {α : Type} (f : τ → List α) : Stage τ ρ → List α
  | .awaiting t => f t
  | .done _ => []

/-- What the waiting calls have in their lists. -/
def gather {α : Type} (f : τ → List α) (w : World σ κ τ ρ) : List α :=
  w.calls.flatMap fun c => c.stage.list f

/-- Every call that waits keeps something that `P` allows it. -/
def Every (P : κ → τ → Prop) (w : World σ κ τ ρ) : Prop :=
  ∀ (i : ℕ) (c : κ) (t : τ), w.calls[i]? = some ⟨c,.awaiting t⟩ → P c t

/-- A check of every call that waits. -/
def checkEvery (b : κ → τ → Bool) (w : World σ κ τ ρ) : Bool :=
  w.calls.all fun c => match c.stage with
    | .awaiting t => b c.args t
    | .done _ => true

def Stage.All (P : τ → Prop) : Stage τ ρ → Prop
  | .awaiting t => P t
  | .done _ => True

/-- No call waits. -/
def Idle (w : World σ κ τ ρ) : Prop := Every (fun _ _ => False) w

@[simp] theorem weight_awaiting (f : τ → ℕ) (t : τ) :
    weight f (.awaiting t : Stage τ ρ) = f t := rfl

@[simp] theorem weight_done (f : τ → ℕ) (r : ρ) : weight f (.done r : Stage τ ρ) = 0 := rfl

@[simp] theorem all_awaiting (P : τ → Prop) (t : τ) :
    (Stage.awaiting t : Stage τ ρ).All P ↔ P t := Iff.rfl

@[simp] theorem all_done (P : τ → Prop) (r : ρ) : (Stage.done r : Stage τ ρ).All P := trivial

theorem Stage.All.mono {P Q : τ → Prop} {r : Stage τ ρ} (h : r.All P) (hi : ∀ t, P t → Q t) :
    r.All Q := by
  cases r with
  | awaiting t => exact hi t h
  | done r => trivial

section Steps
variable {o : Object σ κ τ ν ρ} {w w' : World σ κ τ ρ}

theorem step_resume {i : ℕ} {v : ν} : step o w (.resume i v) = some w' ↔
    ∃ c t, w.calls[i]? = some ⟨c,.awaiting t⟩ ∧ w' = w.resumed i c (o.resume t v w.fields) := by
  unfold step
  dsimp only
  split
  next c t hi =>
    constructor
    · intro h
      exact ⟨c,t,hi,(Option.some.inj h).symm⟩
    · rintro ⟨c',t',hi',rfl⟩
      obtain ⟨rfl,rfl⟩ : c = c' ∧ t = t' := by simpa [hi] using hi'
      rfl
  next hno =>
    constructor
    · intro h
      cases h
    · rintro ⟨c,t,hi,-⟩
      exact absurd hi (hno c t)

/-- A step is a start or a resumption. -/
theorem step_cases {a : Act κ ν} (h : step o w a = some w') {C : Act κ ν → World σ κ τ ρ → Prop}
    (hstart : ∀ c v, C (.start c v) (w.started c (o.start c v w.fields)))
    (hresume : ∀ i v c t, w.calls[i]? = some ⟨c,.awaiting t⟩ →
      C (.resume i v) (w.resumed i c (o.resume t v w.fields))) : C a w' := by
  cases a with
  | start c v =>
    obtain rfl := Option.some.inj h
    exact hstart c v
  | resume i v =>
    obtain ⟨c,t,hi,rfl⟩ := step_resume.mp h
    exact hresume i v c t hi

end Steps

section Runs
variable {o : Object σ κ τ ν ρ} {ok : World σ κ τ ρ → Act κ ν → Prop}
  {w mid w' : World σ κ τ ρ}

/-- What holds at first and is kept by each step of the run holds in every state. -/
theorem Reached.inv {I : World σ κ τ ρ → Prop} (h : Reached o ok w w') (hw : I w)
    (hstep : ∀ u a u', I u → ok u a → step o u a = some u' → I u') : I w' := by
  induction h with
  | refl => exact hw
  | tail _ hok hs ih => exact hstep _ _ _ ih hok hs

theorem Reached.trans (h : Reached o ok w mid) (h' : Reached o ok mid w') :
    Reached o ok w w' := by
  induction h' with
  | refl => exact h
  | tail _ hok hs ih => exact ih.tail hok hs

theorem Reached.mono {ok' : World σ κ τ ρ → Act κ ν → Prop} (h : Reached o ok w w')
    (hi : ∀ u a, ok u a → ok' u a) : Reached o ok' w w' := by
  induction h with
  | refl => exact .refl
  | tail _ hok hs ih => exact ih.tail (hi _ _ hok) hs

/-- Where `G` holds after a step just when it held before and the step meets `ok`, the runs whose
every step meets `ok` are those that end in `G`. -/
theorem reached_iff {I G : World σ κ τ ρ → Prop} (hI : I w) (hG : G w)
    (hinv : ∀ u a u', I u → step o u a = some u' → I u')
    (hstep : ∀ u a u', I u → step o u a = some u' → (G u' ↔ G u ∧ ok u a)) :
    Reached o ok w w' ↔ Reached o (fun _ _ => True) w w' ∧ G w' := by
  constructor
  · intro h
    refine ⟨h.mono fun _ _ _ => trivial,(h.inv (I := fun u => I u ∧ G u) ⟨hI,hG⟩ ?_).2⟩
    intro u a u' hu hok hs
    exact ⟨hinv u a u' hu.1 hs,(hstep u a u' hu.1 hs).mpr ⟨hu.2,hok⟩⟩
  · rintro ⟨h,hg⟩
    induction h with
    | refl => exact .refl
    | @tail mid w' a hmid _ hs ih =>
      have hu : I mid := hmid.inv hI fun u a u' hu _ hs => hinv u a u' hu hs
      obtain ⟨hg',hok⟩ := (hstep mid a w' hu hs).mp hg
      exact (ih hg').tail hok hs

theorem Reached.start {f : σ} {cs : List (Call κ τ ρ)} (h : Reached o ok w ⟨f,cs⟩) {c : κ} {v : ν}
    (hok : ok ⟨f,cs⟩ (.start c v)) {r : Stage τ ρ × σ} (hr : o.start c v f = r) :
    Reached o ok w ⟨r.2,cs++[⟨c,r.1⟩]⟩ := by
  subst hr
  exact h.tail hok rfl

theorem Reached.resume {f : σ} {cs : List (Call κ τ ρ)} (h : Reached o ok w ⟨f,cs⟩) {i : ℕ} {c : κ}
    {t : τ} (hi : cs[i]? = some ⟨c,.awaiting t⟩) {v : ν} (hok : ok ⟨f,cs⟩ (.resume i v))
    {r : Stage τ ρ × σ} (hr : o.resume t v f = r) : Reached o ok w ⟨r.2,cs.set i ⟨c,r.1⟩⟩ := by
  subst hr
  exact h.tail hok (step_resume.mpr ⟨c,t,hi,rfl⟩)

theorem reached_of_run {as : List (Act κ ν)} (h : run o w as = some w')
    (hok : ∀ u a, a ∈ as → ok u a) : Reached o ok w w' := by
  induction as generalizing w with
  | nil =>
    obtain rfl := Option.some.inj h
    exact .refl
  | cons a as ih =>
    obtain ⟨mid,hs,hr⟩ := Option.bind_eq_some_iff.mp h
    have hone : Reached o ok w mid := Reached.refl.tail (hok _ _ List.mem_cons_self) hs
    exact hone.trans (ih hr fun u b hb => hok u b (List.mem_cons_of_mem _ hb))

/-- A run that goes on as long as a check allows each step. -/
def checkedRun (o : Object σ κ τ ν ρ) (b : World σ κ τ ρ → Act κ ν → Bool) (w : World σ κ τ ρ)
    (as : List (Act κ ν)) : Option (World σ κ τ ρ) :=
  as.foldlM (fun u a => if b u a then step o u a else none) w

theorem reached_of_checked {b : World σ κ τ ρ → Act κ ν → Bool} {as : List (Act κ ν)}
    (h : checkedRun o b w as = some w') (hb : ∀ u a, b u a = true → ok u a) :
    Reached o ok w w' := by
  induction as generalizing w with
  | nil =>
    obtain rfl := Option.some.inj h
    exact .refl
  | cons a as ih =>
    obtain ⟨mid,hs,hr⟩ := Option.bind_eq_some_iff.mp h
    dsimp only at hs
    by_cases hc : b w a = true
    · rw [if_pos hc] at hs
      exact (Reached.refl.tail (hb w a hc) hs).trans (ih hr)
    · rw [if_neg hc] at hs
      cases hs

/-- The state after a run that goes through. -/
theorem reached_get {as : List (Act κ ν)} (h : (run o w as).isSome) (hok : ∀ u a, a ∈ as → ok u a) :
    Reached o ok w ((run o w as).get h) :=
  reached_of_run (Option.some_get h).symm hok

end Runs

section Totals
variable (f : τ → ℕ) (g : Call κ τ ρ → ℕ) {w : World σ κ τ ρ}

theorem tally_started (c : κ) (r : Stage τ ρ × σ) :
    tally g (w.started c r) = tally g w+g ⟨c,r.1⟩ := by
  simp [tally,World.started]

theorem total_started (c : κ) (r : Stage τ ρ × σ) :
    total f (w.started c r) = total f w+weight f r.1 := tally_started _ c r

theorem sum_set {cs : List (Call κ τ ρ)} {i : ℕ} {c : Call κ τ ρ} (c' : Call κ τ ρ)
    (hi : cs[i]? = some c) : ((cs.set i c').map g).sum+g c = (cs.map g).sum+g c' := by
  induction cs generalizing i with
  | nil => simp at hi
  | cons d cs ih =>
    cases i with
    | zero =>
      obtain rfl : d = c := by simpa using hi
      simp only [List.set_cons_zero,List.map_cons,List.sum_cons]
      omega
    | succ i =>
      have := ih (by simpa using hi)
      simp only [List.set_cons_succ,List.map_cons,List.sum_cons]
      omega

variable {i : ℕ} {c : κ} {t : τ}

/-- The call that went on is the only one that counts differently. -/
theorem tally_resumed (r : Stage τ ρ × σ) (hi : w.calls[i]? = some ⟨c,.awaiting t⟩) :
    tally g (w.resumed i c r)+g ⟨c,.awaiting t⟩ = tally g w+g ⟨c,r.1⟩ :=
  sum_set g ⟨c,r.1⟩ hi

theorem total_resumed (r : Stage τ ρ × σ) (hi : w.calls[i]? = some ⟨c,.awaiting t⟩) :
    total f (w.resumed i c r)+f t = total f w+weight f r.1 := tally_resumed _ r hi

theorem le_tally {x : Call κ τ ρ} (hi : w.calls[i]? = some x) : g x ≤ tally g w :=
  List.single_le_sum (by simp) _ (List.mem_map.mpr ⟨_,List.mem_of_getElem? hi,rfl⟩)

theorem le_total (hi : w.calls[i]? = some ⟨c,.awaiting t⟩) : f t ≤ total f w :=
  le_tally (fun c => weight f c.stage) hi

theorem total_eq_zero : total f w = 0 ↔ Every (fun _ t => f t = 0) w := by
  constructor
  · intro h i c t hi
    exact Nat.le_zero.mp (h ▸ le_total f hi)
  · intro h
    rw [total,tally,List.sum_eq_zero]
    intro n hn
    obtain ⟨⟨c,s⟩,hc,rfl⟩ := List.mem_map.mp hn
    obtain ⟨i,hi⟩ := List.mem_iff_getElem?.mp hc
    cases s with
    | awaiting t => exact h i c t hi
    | done r => rfl

theorem sum_of_others {cs : List (Call κ τ ρ)} (hi : cs[i]? = some ⟨c,.awaiting t⟩)
    (h : ∀ j c' t', j ≠ i → cs[j]? = some ⟨c',.awaiting t'⟩ → f t' = 0) :
    (cs.map fun c => weight f c.stage).sum = f t := by
  induction cs generalizing i with
  | nil => simp at hi
  | cons d cs ih =>
    simp only [List.map_cons,List.sum_cons]
    cases i with
    | zero =>
      obtain rfl : d = ⟨c,.awaiting t⟩ := by simpa using hi
      have hzero : total f (⟨(),cs⟩ : World Unit κ τ ρ) = 0 := by
        rw [total_eq_zero]
        exact fun j c' t' hj => h (j+1) c' t' (by omega) (by simpa using hj)
      rw [weight_awaiting,show (cs.map fun c => weight f c.stage).sum = 0 from hzero,add_zero]
    | succ i =>
      have hd : weight f d.stage = 0 := by
        obtain ⟨c',_ | r⟩ := d
        · exact h 0 c' _ (by omega) rfl
        · rfl
      rw [hd,zero_add]
      exact ih (by simpa using hi) fun j c' t' hne hj => h (j+1) c' t' (by omega) (by simpa using hj)

/-- The others count for nothing. -/
theorem total_of_others (hi : w.calls[i]? = some ⟨c,.awaiting t⟩)
    (h : ∀ j c' t', j ≠ i → w.calls[j]? = some ⟨c',.awaiting t'⟩ → f t' = 0) :
    total f w = f t := sum_of_others f hi h

theorem index_unique {g} (h : tally g w ≤ 1) {i j : ℕ} {x y : Call κ τ ρ}
    (hi : w.calls[i]? = some x) (hj : w.calls[j]? = some y) (hx : 1 ≤ g x) (hy : 1 ≤ g y) :
    i = j := by
  obtain ⟨fs,cs⟩ := w
  unfold tally at h
  dsimp only at h hi hj
  induction cs generalizing i j with
  | nil => simp at hi
  | cons d cs ih =>
    have hle {k : ℕ} {z : Call κ τ ρ} (hk : cs[k]? = some z) : g z ≤ (cs.map g).sum :=
      le_tally (w := ⟨fs,cs⟩) g hk
    simp only [List.map_cons,List.sum_cons] at h
    cases i with
    | zero =>
      obtain rfl : d = x := by simpa using hi
      cases j with
      | zero => rfl
      | succ j =>
        have := hle (by simpa using hj : cs[j]? = some y)
        omega
    | succ i =>
      have hx' := hle (by simpa using hi : cs[i]? = some x)
      cases j with
      | zero =>
        obtain rfl : d = y := by simpa using hj
        omega
      | succ j =>
        exact congrArg (·+1) (ih (by omega) (by simpa using hi) (by simpa using hj))

end Totals

section Gathered
variable {α : Type} (f : τ → List α) {w : World σ κ τ ρ}

@[simp] theorem list_awaiting (t : τ) : (Stage.awaiting t : Stage τ ρ).list f = f t := rfl

@[simp] theorem list_done (r : ρ) : (Stage.done r : Stage τ ρ).list f = [] := rfl

theorem gather_started (c : κ) (r : Stage τ ρ × σ) :
    gather f (w.started c r) = gather f w++r.1.list f := by
  simp [gather,World.started]

/-- The call that went on is the only one whose list changes. -/
theorem gather_resumed {i : ℕ} {c : κ} {t : τ} (hi : w.calls[i]? = some ⟨c,.awaiting t⟩) :
    ∃ pre post, gather f w = pre++f t++post ∧
      ∀ r, gather f (w.resumed i c r) = pre++r.1.list f++post := by
  obtain ⟨fs,cs⟩ := w
  unfold gather World.resumed
  dsimp only at hi ⊢
  induction cs generalizing i with
  | nil => simp at hi
  | cons d cs ih =>
    cases i with
    | zero =>
      obtain rfl : d = ⟨c,.awaiting t⟩ := by simpa using hi
      exact ⟨[],cs.flatMap fun c => c.stage.list f,by simp,by simp⟩
    | succ i =>
      obtain ⟨pre,post,hw,hset⟩ := ih (by simpa using hi)
      refine ⟨d.stage.list f++pre,post,by simp [hw],?_⟩
      intro r
      simp [hset r]

theorem mem_gather {x : α} : x ∈ gather f w ↔
    ∃ (i : ℕ) (c : κ) (t : τ), w.calls[i]? = some ⟨c,.awaiting t⟩ ∧ x ∈ f t := by
  rw [gather,List.mem_flatMap]
  constructor
  · rintro ⟨⟨c,s⟩,hc,hx⟩
    obtain ⟨i,hi⟩ := List.mem_iff_getElem?.mp hc
    cases s with
    | awaiting t => exact ⟨i,c,t,hi,hx⟩
    | done r => cases hx
  · rintro ⟨i,c,t,hi,hx⟩
    exact ⟨_,List.mem_of_getElem? hi,hx⟩

theorem mem_gather_started {x : α} {c : κ} {r : Stage τ ρ × σ} :
    x ∈ gather f (w.started c r) ↔ x ∈ gather f w ∨ x ∈ r.1.list f := by
  rw [gather_started,List.mem_append]

section Resumed
variable {i : ℕ} {c : κ} {t : τ} {r : Stage τ ρ × σ} {x : α}

/-- What the call that went on has in its list, the calls have. -/
theorem mem_gather_resumed (hi : w.calls[i]? = some ⟨c,.awaiting t⟩) (hx : x ∈ r.1.list f) :
    x ∈ gather f (w.resumed i c r) := by
  obtain ⟨pre,post,-,hr⟩ := gather_resumed f hi
  rw [hr]
  exact List.mem_append_left _ (List.mem_append_right _ hx)

/-- What the calls have in their lists they keep, but for the one that goes on. -/
theorem mem_gather_resumed_or (hi : w.calls[i]? = some ⟨c,.awaiting t⟩) (r : Stage τ ρ × σ)
    (hx : x ∈ gather f w) : x ∈ f t ∨ x ∈ gather f (w.resumed i c r) := by
  obtain ⟨pre,post,hw,hr⟩ := gather_resumed f hi
  rw [hw,List.mem_append,List.mem_append] at hx
  rw [hr,List.mem_append,List.mem_append]
  obtain (hx | hx) | hx := hx
  · exact .inr (.inl (.inl hx))
  · exact .inl hx
  · exact .inr (.inr hx)

/-- What the calls have in their lists after one went on, it had before or that one got it. -/
theorem of_mem_gather_resumed (hi : w.calls[i]? = some ⟨c,.awaiting t⟩)
    (hx : x ∈ gather f (w.resumed i c r)) : x ∈ gather f w ∨ x ∈ r.1.list f := by
  obtain ⟨pre,post,hw,hr⟩ := gather_resumed f hi
  rw [hr,List.mem_append,List.mem_append] at hx
  rw [hw,List.mem_append,List.mem_append]
  obtain (hx | hx) | hx := hx
  · exact .inl (.inl (.inl hx))
  · exact .inr hx
  · exact .inl (.inr hx)

end Resumed

end Gathered

section Waiting
variable {P Q : κ → τ → Prop} {w : World σ κ τ ρ} {r : Stage τ ρ × σ}

theorem Every.mono (h : Every P w) (hi : ∀ c t, P c t → Q c t) : Every Q w :=
  fun i c t hc => hi c t (h i c t hc)

theorem Every.started (h : Every P w) (c : κ) (hr : r.1.All (P c)) : Every P (w.started c r) := by
  intro i d t hi
  rw [World.started,List.getElem?_append] at hi
  split at hi
  · exact h i d t hi
  · obtain ⟨-,hc⟩ : i-w.calls.length = 0 ∧ (⟨c,r.1⟩ : Call κ τ ρ) = ⟨d,.awaiting t⟩ := by
      simpa [List.getElem?_singleton] using hi
    obtain ⟨rfl,hstage⟩ := Call.mk.inj hc
    rw [hstage] at hr
    exact hr

theorem every_resumed_of_others {i : ℕ} {c : κ}
    (h : ∀ j d t, j ≠ i → w.calls[j]? = some ⟨d,.awaiting t⟩ → P d t) (hr : r.1.All (P c)) :
    Every P (w.resumed i c r) := by
  intro j d t hj
  rw [World.resumed,List.getElem?_set] at hj
  split at hj
  · split at hj
    · obtain ⟨rfl,hstage⟩ := Call.mk.inj (Option.some.inj hj)
      rw [hstage] at hr
      exact hr
    · cases hj
  next hne => exact h j d t (Ne.symm hne) hj

theorem Every.resumed (h : Every P w) (i : ℕ) (c : κ) (hr : r.1.All (P c)) :
    Every P (w.resumed i c r) :=
  every_resumed_of_others (fun j d t _ hj => h j d t hj) hr

/-- With one call at most that waits, only the one that went on can still wait. -/
theorem every_resumed_of_alone {i : ℕ} {c : κ} {t : τ} (h : total (fun _ => 1) w ≤ 1)
    (hi : w.calls[i]? = some ⟨c,.awaiting t⟩) (hr : r.1.All (P c)) : Every P (w.resumed i c r) :=
  every_resumed_of_others
    (fun _ _ _ hne hj => absurd (index_unique h hj hi (Nat.le_refl 1) (Nat.le_refl 1)) hne) hr

theorem every_of_check {b : κ → τ → Bool} (hb : ∀ c t, b c t = true → P c t)
    (h : checkEvery b w = true) : Every P w := by
  intro i c t hi
  exact hb c t (List.all_eq_true.mp h _ (List.mem_of_getElem? hi))

theorem idle_of_all (h : w.calls.all fun c => c.stage matches .done _) : Idle w := by
  intro i c t hi
  have := List.all_eq_true.mp h _ (List.mem_of_getElem? hi)
  cases this

end Waiting

end Tasks
end Semp
