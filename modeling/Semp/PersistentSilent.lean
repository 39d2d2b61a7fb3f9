import Semp.Cells
import Semp.JsMap
import Semp.JsDate

/-! How often in a row a recipient has not answered, and since when: the ledger a sender keeps to
shorten its deadlines.  For every run of the ledger the counter of a recipient tells of the
silent outcomes since the last answer. -/
namespace Semp
namespace PersistentSilent

/-- What a caller may set. -/
structure PersistentSilentConfig where
  threshold : Option Number
  observationWindowMs : Option Number
  shortDeadlineMs : Option Number
  idleExpiryMs : Option Number

structure Resolved where
  threshold : Number
  observationWindowMs : Number
  shortDeadlineMs : Number
  idleExpiryMs : Number

def persistentSilentDefaults : Resolved :=
  ⟨.ofNat 5,.ofNat (24*60*60*1000),.ofNat (4*60*60*1000),.ofNat (30*24*60*60*1000)⟩

/-- `x && x > 0 ? x : fallback` -/
def positiveOr (x : Option Number) (fallback : Number) : Number :=
  match x with
  | some x => if Number.lt (.zero false) x then x else fallback
  | none => fallback

def PersistentSilentConfig.resolve (cfg : PersistentSilentConfig) : Resolved where
  threshold := positiveOr cfg.threshold persistentSilentDefaults.threshold
  observationWindowMs :=
    positiveOr cfg.observationWindowMs persistentSilentDefaults.observationWindowMs
  shortDeadlineMs := positiveOr cfg.shortDeadlineMs persistentSilentDefaults.shortDeadlineMs
  idleExpiryMs := positiveOr cfg.idleExpiryMs persistentSilentDefaults.idleExpiryMs

structure PersistentSilentEntry where
  count : ℕ
  firstSeenMs : Number
  lastSeenMs : Number

abbrev Entries := JsMap PersistentSilentEntry

section Code
variable (cfg : Resolved) (entries : Entries)

/-- The running count, and the entries after it. -/
def inc (recipient : JsString) (now : JsDate) : ℕ × Entries :=
  if recipient = [] then (0,entries)
  else
    let t := now.getTime
    match entries.get recipient with
    | none => (1,entries.set recipient ⟨1,t,t⟩)
    | some e => (e.count+1,entries.set recipient ⟨e.count+1,e.firstSeenMs,t⟩)

def reset (recipient : JsString) : Entries := entries.delete recipient

def effective (recipient : JsString) (now : JsDate) : Option Number :=
  match entries.get recipient with
  | none => none
  | some e =>
    if (Number.ofNat e.count).lt cfg.threshold then none
    else if (now.getTime.sub e.firstSeenMs).lt cfg.observationWindowMs then none
    else some cfg.shortDeadlineMs

def count (recipient : JsString) : ℕ :=
  match entries.get recipient with
  | none => 0
  | some e => e.count

/-- The recipient was last silent too long ago. -/
def idle (now : JsDate) (lastSeenMs : Number) : Bool :=
  cfg.idleExpiryMs.le (now.getTime.sub lastSeenMs)

/-- How many entries are dropped, and the others. -/
def pruneExpired (now : JsDate) : ℕ × Entries :=
  let expired := fun e : PersistentSilentEntry => idle cfg now e.lastSeenMs
  ((entries.entries.filter fun e => expired e.2).length,entries.sweep expired)

end Code

/-- A call that writes to the ledger. -/
inductive Event
  | inc (recipient : JsString) (now : JsDate)
  | reset (recipient : JsString)
  | pruneExpired (now : JsDate)

def step (cfg : Resolved) (entries : Entries) : Event → Entries
  | .inc recipient now => (inc entries recipient now).2
  | .reset recipient => reset entries recipient
  | .pruneExpired now => (pruneExpired cfg entries now).2

/-- The ledger after a run of calls. -/
def run (cfg : Resolved) (es : List Event) : Entries := es.foldl (step cfg) .empty

/-- What a call does to the entry of `recipient`. -/
def entryCell (cfg : Resolved) (recipient : JsString) : Cell Event PersistentSilentEntry where
  create e :=
    match e with
    | .inc r now => if r = recipient ∧ r ≠ [] then some ⟨1,now.getTime,now.getTime⟩ else none
    | _ => none
  next e v :=
    match e with
    | .inc r now =>
      if r = recipient ∧ r ≠ [] then some ⟨v.count+1,v.firstSeenMs,now.getTime⟩ else some v
    | .reset r => if r = recipient then none else some v
    | .pruneExpired now => if idle cfg now v.lastSeenMs then none else some v

/-- A call acts on each entry by itself. -/
theorem get_step (cfg : Resolved) (entries : Entries) (e : Event) (recipient : JsString) :
    (step cfg entries e).get recipient =
      (entryCell cfg recipient).step (entries.get recipient) e := by
  cases e with
  | inc r now =>
    rw [step,inc,entryCell]
    by_cases hr : r = []
    · rw [if_pos hr]
      cases entries.get recipient <;> simp [Cell.step,hr]
    · rw [if_neg hr]
      by_cases heq : r = recipient
      · subst heq
        cases hg : entries.get r <;> simp [Cell.step,hr]
      · have hne : recipient ≠ r := Ne.symm heq
        have hkeep : (match entries.get r with
            | none => (1,entries.set r ⟨1,now.getTime,now.getTime⟩)
            | some e => (e.count+1,entries.set r ⟨e.count+1,e.firstSeenMs,now.getTime⟩)).2.get
              recipient = entries.get recipient := by
          split <;> exact JsMap.get_set_ne hne
        dsimp only
        rw [hkeep]
        cases entries.get recipient <;> simp [Cell.step,heq]
  | reset r =>
    by_cases heq : r = recipient
    · subst heq
      cases entries.get r <;> simp [step,reset,entryCell,Cell.step]
    · rw [step,reset,JsMap.get_delete_ne (Ne.symm heq)]
      cases entries.get recipient <;> simp [entryCell,Cell.step,heq]
  | pruneExpired now =>
    refine Option.ext fun v => ?_
    rw [step,pruneExpired,JsMap.get_sweep_eq_some]
    cases entries.get recipient with
    | none => simp [entryCell,Cell.step]
    | some e =>
      simp only [entryCell,Cell.step,Option.some.injEq]
      by_cases h : idle cfg now e.lastSeenMs = true
      · rw [if_pos h]
        simp only [reduceCtorEq,iff_false,not_and]
        rintro rfl
        simp [h]
      · rw [if_neg h]
        simp only [Bool.not_eq_true] at h
        constructor
        · rintro ⟨rfl,-⟩
          rfl
        · intro he
          obtain rfl := Option.some.inj he
          exact ⟨rfl,h⟩

def store (cfg : Resolved) : CellStore Entries JsString Event PersistentSilentEntry where
  get := JsMap.get
  step := step cfg
  cell := entryCell cfg
  get_step := get_step cfg

theorem get_run (cfg : Resolved) (es : List Event) (recipient : JsString) :
    (run cfg es).get recipient = (entryCell cfg recipient).run es :=
  (store cfg).get_run (s:=.empty) (k:=recipient) rfl es

section Silents
variable {cfg : Resolved} {recipient : JsString}

/-- The times of the silent outcomes of a recipient. -/
def silents (recipient : JsString) (es : List Event) : List Number :=
  es.filterMap fun e => match e with
    | .inc r now => if r = recipient then some now.getTime else none
    | _ => none

/-- No answer of the recipient came after its silent outcome at `t`, and it was not idle at any
pruning. -/
structure Silent (cfg : Resolved) (recipient : JsString) (t : Number) (es : List Event) : Prop where
  unanswered : Event.reset recipient ∉ es
  kept : ∀ pre now post, es = pre++.pruneExpired now::post →
    idle cfg now ((silents recipient pre).getLast?.getD t) = false

theorem silents_concat (recipient : JsString) (es : List Event) (e : Event) :
    silents recipient (es++[e]) = silents recipient es++silents recipient [e] :=
  List.filterMap_append ..

theorem silent_concat {t : Number} {es : List Event} {e : Event} :
    Silent cfg recipient t (es++[e]) ↔ Silent cfg recipient t es ∧ e ≠ .reset recipient ∧
      ∀ now, e = .pruneExpired now → idle cfg now ((silents recipient es).getLast?.getD t) = false := by
  constructor
  · intro h
    refine ⟨⟨fun hmem => h.unanswered (List.mem_append_left _ hmem),?_⟩,?_,?_⟩
    · rintro pre now post rfl
      exact h.kept pre now (post++[e]) (by simp)
    · rintro rfl
      exact h.unanswered (by simp)
    · rintro now rfl
      exact h.kept es now [] rfl
  · rintro ⟨h,hne,hlast⟩
    refine ⟨?_,fun pre now post hsplit => ?_⟩
    · rw [List.mem_append,List.mem_singleton,not_or]
      exact ⟨h.unanswered,Ne.symm hne⟩
    · rcases List.eq_nil_or_concat post with rfl | ⟨post,d,rfl⟩
      · obtain ⟨rfl,hde⟩ := List.append_inj' hsplit rfl
        exact hlast now (by simpa using hde)
      · rw [List.concat_eq_append,← List.cons_append,← List.append_assoc] at hsplit
        obtain ⟨rfl,-⟩ := List.append_inj' hsplit rfl
        exact h.kept pre now post rfl

/-- The entry that the silent outcomes since one at `t` add up to. -/
def entryOf (t : Number) (later : List Number) : PersistentSilentEntry :=
  ⟨later.length+1,t,later.getLast?.getD t⟩

theorem keep_eq_some (hr : recipient ≠ []) {t : Number} {es : List Event}
    {v : PersistentSilentEntry} :
    (entryCell cfg recipient).keep ⟨1,t,t⟩ es = some v ↔
      Silent cfg recipient t es ∧ entryOf t (silents recipient es) = v := by
  induction es using List.reverseRecOn generalizing v with
  | nil =>
    have hnil : Silent cfg recipient t [] := ⟨by simp,fun pre now post h => by simp at h⟩
    simp [hnil,silents,entryOf]
  | append_singleton es e ih =>
    have hbind : ((entryCell cfg recipient).keep ⟨1,t,t⟩ es).bind
        ((entryCell cfg recipient).next e) = some v ↔ Silent cfg recipient t es ∧
          (entryCell cfg recipient).next e (entryOf t (silents recipient es)) = some v := by
      rw [Option.bind_eq_some_iff]
      constructor
      · rintro ⟨u,hu,hv⟩
        obtain ⟨h,rfl⟩ := ih.mp hu
        exact ⟨h,hv⟩
      · rintro ⟨h,hv⟩
        exact ⟨_,ih.mpr ⟨h,rfl⟩,hv⟩
    rw [Cell.keep_concat,hbind,silent_concat,silents_concat,and_assoc]
    refine and_congr_right fun _ => ?_
    cases e with
    | inc r now =>
      by_cases heq : r = recipient
      · subst heq
        simp [entryCell,hr,entryOf,silents]
      · simp [entryCell,heq,silents]
    | reset r =>
      by_cases heq : r = recipient
      · simp [entryCell,heq]
      · simp [entryCell,heq,silents]
    | pruneExpired now =>
      by_cases hidle : idle cfg now ((silents recipient es).getLast?.getD t) = true
      · simp [entryCell,entryOf,hidle]
      · simp [entryCell,entryOf,silents]

/-- The recipient has been silent since a call at `t`, with these outcomes after it. -/
def SilentSince (cfg : Resolved) (recipient : JsString) (es : List Event) (t : Number)
    (later : List Number) : Prop :=
  ∃ pre now post, es = pre++.inc recipient now::post ∧ recipient ≠ [] ∧
    count (run cfg pre) recipient = 0 ∧ t = now.getTime ∧ Silent cfg recipient t post ∧
    later = silents recipient post

/-- No entry counts nothing. -/
theorem count_eq_zero {es : List Event} :
    count (run cfg es) recipient = 0 ↔ (run cfg es).get recipient = none := by
  rw [count]
  cases h : (run cfg es).get recipient with
  | none => simp
  | some v =>
    rw [get_run,Cell.run_eq_some] at h
    obtain ⟨pre,e,post,u,-,-,hcreate,hkeep⟩ := h
    cases e with
    | inc r now =>
      simp only [entryCell] at hcreate
      split_ifs at hcreate with hr
      obtain ⟨rfl,hne⟩ := hr
      obtain rfl := Option.some.inj hcreate
      obtain ⟨-,rfl⟩ := (keep_eq_some hne).mp hkeep
      simp [entryOf]
    | reset r => cases hcreate
    | pruneExpired now => cases hcreate

theorem get_run_eq_some {es : List Event} {v : PersistentSilentEntry} :
    (run cfg es).get recipient = some v ↔
      ∃ t later, SilentSince cfg recipient es t later ∧ entryOf t later = v := by
  rw [get_run,Cell.run_eq_some]
  constructor
  · rintro ⟨pre,e,post,u,rfl,hpre,hcreate,hkeep⟩
    cases e with
    | inc r now =>
      simp only [entryCell] at hcreate
      split_ifs at hcreate with h
      obtain ⟨rfl,hr⟩ := h
      obtain rfl := Option.some.inj hcreate
      obtain ⟨hsilent,rfl⟩ := (keep_eq_some hr).mp hkeep
      exact ⟨_,_,⟨pre,now,post,rfl,hr,count_eq_zero.mpr (by rw [get_run,hpre]),rfl,hsilent,rfl⟩,rfl⟩
    | reset r => cases hcreate
    | pruneExpired now => cases hcreate
  · rintro ⟨t,later,⟨pre,now,post,rfl,hr,hpre,rfl,hsilent,rfl⟩,rfl⟩
    rw [count_eq_zero,get_run] at hpre
    exact ⟨pre,_,post,_,rfl,hpre,by simp [entryCell,hr],(keep_eq_some hr).mpr ⟨hsilent,rfl⟩⟩

/-- The counter of a recipient is the number of silent outcomes in the stretch it is in, and the
deadline is shortened when there are enough of them and the first is old enough. -/
theorem counted_run (config : PersistentSilentConfig) (es : List Event) (recipient : JsString)
    (now : JsDate) :
    let cfg := config.resolve
    let entries := run cfg es
    (∀ n, 0 < n → (count entries recipient = n ↔
      ∃ t later, SilentSince cfg recipient es t later ∧ later.length+1 = n)) ∧
    (∀ ms, effective cfg entries recipient now = some ms ↔ ms = cfg.shortDeadlineMs ∧
      ∃ t later, SilentSince cfg recipient es t later ∧
        (Number.ofNat (later.length+1)).lt cfg.threshold = false ∧
        (now.getTime.sub t).lt cfg.observationWindowMs = false) ∧
    (inc entries recipient now).1 =
      count (run cfg (es++[.inc recipient now])) recipient := by
  intro cfg entries
  have hget {v : PersistentSilentEntry} : entries.get recipient = some v ↔
      ∃ t later, SilentSince cfg recipient es t later ∧ entryOf t later = v := get_run_eq_some
  refine ⟨fun n hn => ?_,fun ms => ?_,?_⟩
  · constructor
    · intro hcount
      cases hv : entries.get recipient with
      | none =>
        rw [count,hv] at hcount
        exact absurd hcount hn.ne
      | some v =>
        obtain ⟨t,later,hsince,rfl⟩ := hget.mp hv
        rw [count,hv] at hcount
        exact ⟨t,later,hsince,hcount⟩
    · rintro ⟨t,later,hsince,rfl⟩
      rw [count,hget.mpr ⟨t,later,hsince,rfl⟩]
      rfl
  · constructor
    · intro heffective
      cases hv : entries.get recipient with
      | none =>
        rw [effective,hv] at heffective
        cases heffective
      | some v =>
        obtain ⟨t,later,hsince,rfl⟩ := hget.mp hv
        rw [effective,hv] at heffective
        dsimp only at heffective
        split_ifs at heffective with hfew hearly
        exact ⟨(Option.some.inj heffective).symm,t,later,hsince,by simpa [entryOf] using hfew,
          by simpa [entryOf] using hearly⟩
    · rintro ⟨rfl,t,later,hsince,hfew,hearly⟩
      rw [effective,hget.mpr ⟨t,later,hsince,rfl⟩]
      simp [entryOf,hfew,hearly]
  · have hstep : run cfg (es++[.inc recipient now]) = (inc entries recipient now).2 := by
      rw [run,List.foldl_append]
      rfl
    rw [hstep,count,inc]
    split_ifs with hr
    · subst hr
      have hnone : entries.get [] = none := by
        refine Option.eq_none_iff_forall_ne_some.mpr fun v hv => ?_
        obtain ⟨t,later,⟨-,-,-,-,hne,-⟩,-⟩ := hget.mp hv
        exact hne rfl
      rw [hnone]
    · dsimp only
      cases entries.get recipient <;> simp

end Silents
end PersistentSilent
end Semp
