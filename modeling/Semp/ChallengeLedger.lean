import Semp.Crypto
import Semp.History
import Semp.JsDate
import Semp.JsMap
import Semp.Method

/-! The ledger of proof-of-work challenges.  Each call has its reading of the clock as an
argument. -/
namespace Semp
namespace PoW

/-- `algorithm` is a constant. -/
structure PoWChallenge where
  id : JsString
  prefixBytes : Bytes
  difficulty : Number
  expires : JsDate

structure Entry where
  challenge : PoWChallenge
  redeemed : Bool

structure ChallengeLedger where
  entries : JsMap Entry
  lastSweep : Number
  sweepIntervalMs : Number

/-- `nowMs >= e.challenge.expires.getTime()` -/
def Entry.expiredAt (now : JsDate) (e : Entry) : Bool := JsDate.le e.challenge.expires now

namespace ChallengeLedger

def new (sweepIntervalMs : Number) : ChallengeLedger := ⟨.empty,.ofNat 0,sweepIntervalMs⟩

def sweepNow (s : ChallengeLedger) (now : JsDate) : ChallengeLedger :=
  {s with entries := s.entries.sweep (·.expiredAt now), lastSweep := now.getTime}

def maybeSweep (s : ChallengeLedger) (now : JsDate) : ChallengeLedger :=
  if s.sweepIntervalMs.le (now.getTime.sub s.lastSweep) then s.sweepNow now else s

def record (c : PoWChallenge) (now : JsDate) : Method Thrown ChallengeLedger Unit := do
  let s ← get
  if c.id = [] then liftM (raise (js "reputation: challenge id is empty") : Js Unit)
  else if s.entries.has c.id then
    liftM (raise (js "reputation: challenge "++c.id++js " already recorded") : Js Unit)
  else set ({s with entries := s.entries.set c.id ⟨c,false⟩}.maybeSweep now)

def redeem (id : JsString) (now : JsDate) : Method Thrown ChallengeLedger PoWChallenge := do
  let s ← get
  match s.entries.get id with
  | none => liftM (raise (js "reputation: challenge "++id++js " not found") : Js PoWChallenge)
  | some e =>
    if e.redeemed then
      liftM (raise (js "reputation: challenge "++id++js " already used") : Js PoWChallenge)
    else if e.expiredAt now then do
      set {s with entries := s.entries.delete id}
      liftM (raise (js "reputation: challenge "++id++js " has expired") : Js PoWChallenge)
    else do
      set {s with entries := s.entries.set id {e with redeemed := true}}
      return e.challenge

def sweep (now : JsDate) : Method Thrown ChallengeLedger Unit := modify (·.sweepNow now)

end ChallengeLedger

inductive Call
  | record (c : PoWChallenge) (now : JsDate)
  | redeem (id : JsString) (now : JsDate)
  | sweep (now : JsDate)

/-- When the call reads the clock. -/
def Call.now : Call → JsDate
  | record _ now | redeem _ now | sweep now => now

/-- A call, which returns a challenge when it redeems one. -/
def Call.perform : Call → Method Thrown ChallengeLedger (Option PoWChallenge)
  | record c now => do
    ChallengeLedger.record c now
    return none
  | redeem id now => some <$> ChallengeLedger.redeem id now
  | sweep now => do
    ChallengeLedger.sweep now
    return none

/-- A call and what came of it. -/
abbrev Event := Call × Except Thrown (Option PoWChallenge)

/-- The calls on a new ledger with what came of them, in order. -/
def history (sweepIntervalMs : Number) (calls : List Call) : List Event :=
  (Method.run Call.perform calls (.new sweepIntervalMs)).1

def Recorded (c : PoWChallenge) (e : Event) : Prop := ∃ now, e = (.record c now,.ok none)

def Redeemed (id : JsString) (c : PoWChallenge) (now : JsDate) (e : Event) : Prop :=
  e = (.redeem id now,.ok (some c))

section Effect
variable {s : ChallengeLedger} {id : JsString} {now : JsDate} {c : PoWChallenge}

theorem maybeSweep_entries : (s.maybeSweep now).entries = s.entries ∨
    (s.maybeSweep now).entries = s.entries.sweep (·.expiredAt now) := by
  unfold ChallengeLedger.maybeSweep
  split_ifs
  · exact .inr rfl
  · exact .inl rfl

/-- What a record does: it throws and changes nothing, or there is a new entry, after which the
ledger may be swept. -/
theorem record_cases (s : ChallengeLedger) (c : PoWChallenge) (now : JsDate) :
    (∃ err, (Call.record c now).perform.call s = (.error err,s) ∧
      (c.id = [] ∨ s.entries.has c.id = true)) ∨
    ∃ s', (Call.record c now).perform.call s = (.ok none,s') ∧ s.entries.get c.id = none ∧
      (s'.entries = s.entries.set c.id ⟨c,false⟩ ∨
        s'.entries = (s.entries.set c.id ⟨c,false⟩).sweep (·.expiredAt now)) := by
  rw [Call.perform,Method.call_bind,ChallengeLedger.record,Method.get_bind]
  by_cases hid : c.id = []
  · rw [if_pos hid]
    exact .inl ⟨_,rfl,.inl hid⟩
  rw [if_neg hid]
  by_cases hhas : s.entries.has c.id = true
  · rw [if_pos hhas]
    exact .inl ⟨_,rfl,.inr hhas⟩
  · rw [if_neg hhas]
    exact .inr ⟨_,rfl,JsMap.has_eq_false.mp (Bool.eq_false_iff.mpr hhas),
      maybeSweep_entries (s := {s with entries := s.entries.set c.id ⟨c,false⟩})⟩

/-- What a redeem does. -/
theorem redeem_cases (s : ChallengeLedger) (id : JsString) (now : JsDate) :
    (∃ c s', s.entries.get id = some ⟨c,false⟩ ∧ Entry.expiredAt now ⟨c,false⟩ = false ∧
      (Call.redeem id now).perform.call s = (.ok (some c),s') ∧
      s'.entries = s.entries.set id ⟨c,true⟩) ∨
    (∃ err s' e, s.entries.get id = some e ∧ e.redeemed = false ∧ e.expiredAt now = true ∧
      (Call.redeem id now).perform.call s = (.error err,s') ∧
      s'.entries = s.entries.delete id) ∨
    ∃ err, (Call.redeem id now).perform.call s = (.error err,s) ∧
      ∀ e, s.entries.get id = some e → e.redeemed = true := by
  rw [Call.perform,Method.call_map,ChallengeLedger.redeem,Method.get_bind]
  cases he : s.entries.get id with
  | none => exact .inr (.inr ⟨_,rfl,nofun⟩)
  | some e =>
    obtain ⟨c,_ | _⟩ := e
    · cases hexp : Entry.expiredAt now ⟨c,false⟩ with
      | true =>
        simp only [hexp,if_true]
        exact .inr (.inl ⟨_,_,_,rfl,rfl,hexp,rfl,rfl⟩)
      | false =>
        simp only [hexp]
        exact .inl ⟨c,_,rfl,hexp,rfl,rfl⟩
    · refine .inr (.inr ⟨_,rfl,?_⟩)
      rintro e he'
      obtain rfl := Option.some.inj he'
      rfl

end Effect

section SingleUse
variable {log : List Event} {id : JsString} {e : Entry} {c : PoWChallenge} {s : ChallengeLedger}

/-- The entry has the challenge of the latest record under the id, which was not redeemed since
unless the entry says so. -/
def Standing (log : List Event) (id : JsString) (e : Entry) : Prop :=
  ∃ before r after, log = before++r::after ∧ Recorded e.challenge r ∧ e.challenge.id = id ∧
    (∀ x ∈ after, ∀ d, Recorded d x → d.id ≠ id) ∧
    (e.redeemed = false → ∀ x ∈ after, ∀ d now, ¬ Redeemed id d now x)

theorem Standing.concat (h : Standing log id e) {x : Event} {b : Bool}
    (hrec : ∀ d, Recorded d x → d.id ≠ id) (hb : b = false → e.redeemed = false)
    (hred : b = false → ∀ d now, ¬ Redeemed id d now x) :
    Standing (log++[x]) id ⟨e.challenge,b⟩ := by
  obtain ⟨before,r,after,rfl,hr,hid,hrecs,hreds⟩ := h
  refine ⟨before,r,after++[x],by simp,hr,hid,?_,?_⟩
  · intro y hy
    obtain hy | hy := List.mem_append.mp hy
    · exact hrecs y hy
    · exact List.mem_singleton.mp hy ▸ hrec
  · intro hfalse y hy
    obtain hy | hy := List.mem_append.mp hy
    · exact hreds (hb hfalse) y hy
    · exact List.mem_singleton.mp hy ▸ hred hfalse

theorem Standing.of_record {x : Event} (hr : Recorded c x) (hid : c.id = id) :
    Standing (log++[x]) id ⟨c,false⟩ :=
  ⟨log,x,[],rfl,hr,hid,fun _ hy => absurd hy List.not_mem_nil,
    fun _ _ hy => absurd hy List.not_mem_nil⟩

/-- A redeem that succeeds had the latest record to go by, not redeemed since, in time. -/
def Due (past : List Event) (x : Event) : Prop := ∀ id c now, Redeemed id c now x →
  Standing past id ⟨c,false⟩ ∧ Entry.expiredAt now ⟨c,false⟩ = false

/-- What holds of a ledger and the calls so far. -/
structure Kept (log : List Event) (s : ChallengeLedger) : Prop where
  standing : ∀ id e, s.entries.get id = some e → Standing log id e
  due : History.Justified Due log

theorem not_recorded {call : Call} {r : Except Thrown (Option PoWChallenge)}
    (h : ∀ c now, call ≠ .record c now) (d : PoWChallenge) : ¬ Recorded d (call,r) := by
  rintro ⟨now,heq⟩
  exact h d now (Prod.mk.inj heq).1

theorem not_redeemed {call : Call} {r : Except Thrown (Option PoWChallenge)}
    (h : ∀ id now, call ≠ .redeem id now) (id : JsString) (d : PoWChallenge) (now : JsDate) :
    ¬ Redeemed id d now (call,r) := fun heq => h id now (Prod.mk.inj heq).1

/-- A call that failed adds nothing. -/
theorem Standing.failed (h : Standing log id e) (call : Call) (err : Thrown) :
    Standing (log++[(call,.error err)]) id e :=
  h.concat (fun _ hd => by obtain ⟨_,heq⟩ := hd; cases (Prod.mk.inj heq).2) (fun hb => hb)
    fun _ _ _ heq => by cases (Prod.mk.inj heq).2

theorem Due.failed (past : List Event) (call : Call) (err : Thrown) :
    Due past (call,.error err) := fun _ _ _ heq => by cases (Prod.mk.inj heq).2

theorem Kept.step (h : Kept log s) (call : Call) :
    Kept (log++[(call,(call.perform.call s).1)]) (call.perform.call s).2 := by
  cases call with
  | record c now =>
    obtain ⟨err,hcall,-⟩ | ⟨s',hcall,hfree,hs'⟩ := record_cases s c now
    · rw [hcall]
      exact ⟨fun id e he => (h.standing id e he).failed _ _,
        History.justified_concat.mpr ⟨h.due,Due.failed _ _ _⟩⟩
    · rw [hcall]
      refine ⟨fun id e he => ?_,History.justified_concat.mpr
        ⟨h.due,fun id d now' hd => absurd hd (not_redeemed (by simp) id d now')⟩⟩
      have he' : (s.entries.set c.id ⟨c,false⟩).get id = some e := by
        obtain hs' | hs' := hs'
        · rwa [hs'] at he
        · rw [hs',JsMap.get_sweep_eq_some] at he
          exact he.1
      by_cases hid : id = c.id
      · subst hid
        rw [JsMap.get_set_self] at he'
        obtain rfl := Option.some.inj he'
        exact .of_record ⟨now,rfl⟩ rfl
      · rw [JsMap.get_set_ne hid] at he'
        refine (h.standing id e he').concat (fun d hd => ?_) (fun hb => hb)
          fun _ d now' => not_redeemed (by simp) id d now'
        obtain ⟨_,heq⟩ := hd
        obtain ⟨rfl,-⟩ := Call.record.inj (Prod.mk.inj heq).1
        exact Ne.symm hid
  | redeem id now =>
    obtain ⟨c,s',hget,hexp,hcall,hs'⟩ | ⟨err,s',e,hget,hred,-,hcall,hs'⟩ | ⟨err,hcall,-⟩ :=
      redeem_cases s id now
    · rw [hcall]
      have hstanding := h.standing id _ hget
      refine ⟨fun id' e he => ?_,History.justified_concat.mpr ⟨h.due,fun id' d now' hd => ?_⟩⟩
      · by_cases hid : id' = id
        · subst hid
          rw [hs',JsMap.get_set_self] at he
          obtain rfl := Option.some.inj he
          exact hstanding.concat (fun d hd => absurd hd (not_recorded (by simp) d)) nofun nofun
        · rw [hs',JsMap.get_set_ne hid] at he
          refine (h.standing id' e he).concat (fun d hd => absurd hd (not_recorded (by simp) d))
            (fun hb => hb) fun _ d now' hd => hid ?_
          exact (Call.redeem.inj (Prod.mk.inj hd).1).1.symm
      · obtain ⟨rfl,rfl⟩ := Call.redeem.inj (Prod.mk.inj hd).1
        obtain rfl := Option.some.inj (Except.ok.inj (Prod.mk.inj hd).2)
        exact ⟨hstanding,hexp⟩
    · rw [hcall]
      refine ⟨fun id' e' he => ?_,History.justified_concat.mpr ⟨h.due,Due.failed _ _ _⟩⟩
      rw [hs',JsMap.get_delete_eq_some] at he
      exact (h.standing id' e' he.2).failed _ _
    · rw [hcall]
      exact ⟨fun id' e he => (h.standing id' e he).failed _ _,
        History.justified_concat.mpr ⟨h.due,Due.failed _ _ _⟩⟩
  | sweep now =>
    refine ⟨fun id e he => ?_,History.justified_concat.mpr
      ⟨h.due,fun id d now' hd => absurd hd (not_redeemed (by simp) id d now')⟩⟩
    exact (h.standing id e (JsMap.get_sweep_eq_some.mp he).1).concat
      (fun d hd => absurd hd (not_recorded (by simp) d)) (fun hb => hb)
      fun _ d now' => not_redeemed (by simp) id d now'

theorem kept_run (interval : Number) (calls : List Call) :
    Kept (history interval calls) (Method.run Call.perform calls (.new interval)).2 :=
  Method.run_inv (P := Kept) (fun _ _ call h => h.step call)
    ⟨fun _ _ h => (by cases h),History.justified_nil⟩ calls

/-- Between two redeems of an id that succeed there is a record of it that does. -/
def SingleUse (log : List Event) : Prop :=
  ∀ before x mid y after, log = before++x::(mid++y::after) → ∀ id c now d now',
    Redeemed id c now x → Redeemed id d now' y → ∃ r ∈ mid, ∃ e, Recorded e r ∧ e.id = id

theorem singleUse_of_due (h : History.Justified Due log) : SingleUse log := by
  rintro before x mid y after rfl id c now d now' hx hy
  have hclash {e : PoWChallenge} : ¬ Recorded e x := by
    rw [hx]
    exact not_recorded (by simp) e
  obtain ⟨⟨pre,r,post,heq,hr,hid,-,hposts⟩,-⟩ :=
    h (before++x::mid) y ⟨after,by simp⟩ id d now' hy
  obtain ⟨as,-,hx'⟩ | ⟨bs,-,hr'⟩ := List.append_eq_append_iff.mp heq
  · cases as with
    | nil =>
      obtain ⟨rfl,-⟩ := List.cons.inj hx'
      exact absurd hr hclash
    | cons a as =>
      obtain ⟨-,rfl⟩ := List.cons.inj hx'
      exact ⟨r,by simp,_,hr,hid⟩
  · cases bs with
    | nil =>
      obtain ⟨rfl,-⟩ := List.cons.inj hr'
      exact absurd hr hclash
    | cons b bs =>
      obtain ⟨-,rfl⟩ := List.cons.inj hr'
      exact absurd hx (hposts rfl x (by simp) c now)

end SingleUse

section Agree
variable {t now : JsDate} {m n k : JsMap Entry} {id : JsString} {e : Entry}

/-- The two maps have the same entries that are not expired. -/
def Agree (t : JsDate) (m n : JsMap Entry) : Prop :=
  ∀ id e, e.expiredAt t = false → (m.get id = some e ↔ n.get id = some e)

theorem Agree.refl (t : JsDate) (m : JsMap Entry) : Agree t m m := fun _ _ _ => Iff.rfl

theorem Agree.symm (h : Agree t m n) : Agree t n m := fun id e he => (h id e he).symm

theorem Agree.trans (h : Agree t m n) (h' : Agree t n k) : Agree t m k :=
  fun id e he => (h id e he).trans (h' id e he)

theorem expired_mono (h : JsDate.le now t = true) (he : e.expiredAt t = false) :
    e.expiredAt now = false := by
  refine Bool.eq_false_iff.mpr fun hnow => Bool.eq_false_iff.mp he ?_
  obtain ⟨a,b,ha,hb,hab⟩ := JsDate.le_eq_true.mp hnow
  obtain ⟨b',c,hb',hc,hbc⟩ := JsDate.le_eq_true.mp h
  obtain rfl := Option.some.inj (hb.symm.trans hb')
  exact JsDate.le_eq_true.mpr ⟨a,c,ha,hc,hab.trans hbc⟩

theorem agree_sweep (h : JsDate.le now t = true) : Agree t (m.sweep (·.expiredAt now)) m := by
  intro id e he
  rw [JsMap.get_sweep_eq_some]
  exact and_iff_left (expired_mono h he)

theorem Agree.set (h : Agree t m n) (id : JsString) (e : Entry) :
    Agree t (m.set id e) (n.set id e) := by
  intro id' e' he
  by_cases hid : id' = id
  · subst hid
    rw [JsMap.get_set_self,JsMap.get_set_self]
  · rw [JsMap.get_set_ne hid,JsMap.get_set_ne hid]
    exact h id' e' he

theorem agree_delete (hget : m.get id = some e) (hexp : e.expiredAt t = true) :
    Agree t (m.delete id) m := by
  intro id' e' he
  rw [JsMap.get_delete_eq_some]
  refine and_iff_right_of_imp fun hget' => ?_
  rintro rfl
  obtain rfl := Option.some.inj (hget.symm.trans hget')
  rw [hexp] at he
  cases he

end Agree

/-- What a redeem returned, with its id. -/
def outcome : Event → Option (JsString × Option PoWChallenge)
  | (.redeem id _,r) => some (id,r.toOption.join)
  | _ => none

/-- What the redeems of a run returned, in order. -/
def redeems (log : List Event) : List (JsString × Option PoWChallenge) := log.filterMap outcome

def Call.recordedId : Call → Option JsString
  | .record c _ => some c.id
  | _ => none

def recordedIds (calls : List Call) : List JsString := calls.filterMap Call.recordedId

/-- The second list has some more sweeps. -/
inductive Inserts : List Call → List Call → Prop
  | nil : Inserts [] []
  | keep {calls calls' : List Call} (call : Call) (h : Inserts calls calls') :
      Inserts (call::calls) (call::calls')
  | sweep {calls calls' : List Call} (now : JsDate) (h : Inserts calls calls') :
      Inserts calls (.sweep now::calls')

/-- The clock never goes back. -/
def Clocked (calls : List Call) : Prop :=
  (calls.map Call.now).Pairwise fun t u => JsDate.le t u = true

section Step
variable {s s' : ChallengeLedger} {call : Call} {id : JsString} {t : JsDate}

/-- A redeem finds its entry unused and in time, and marks it; any other changes nothing that is
not expired. -/
theorem redeem_live (now : JsDate) {c : PoWChallenge} (hget : s.entries.get id = some ⟨c,false⟩)
    (hexp : Entry.expiredAt now ⟨c,false⟩ = false) :
    ∃ s', (Call.redeem id now).perform.call s = (.ok (some c),s') ∧
      s'.entries = s.entries.set id ⟨c,true⟩ := by
  obtain ⟨d,s',hget',-,hcall,hs'⟩ | ⟨_,_,e,hget',-,hexp',-⟩ | ⟨_,-,hused⟩ :=
    redeem_cases s id now
  · obtain ⟨rfl,-⟩ := Entry.mk.inj (Option.some.inj (hget.symm.trans hget'))
    exact ⟨s',hcall,hs'⟩
  · obtain rfl := Option.some.inj (hget.symm.trans hget')
    rw [hexp] at hexp'
    cases hexp'
  · cases hused _ hget

theorem redeem_dead (now : JsDate) (h : ∀ c, s.entries.get id = some ⟨c,false⟩ →
    Entry.expiredAt now ⟨c,false⟩ = true) :
    ∃ err s', (Call.redeem id now).perform.call s = (.error err,s') ∧
      ∀ t, JsDate.le now t = true → Agree t s'.entries s.entries := by
  obtain ⟨c,_,hget,hexp,-⟩ | ⟨err,s',e,hget,-,hexp,hcall,hs'⟩ | ⟨err,hcall,-⟩ :=
    redeem_cases s id now
  · rw [h c hget] at hexp
    cases hexp
  · refine ⟨err,s',hcall,fun t ht => ?_⟩
    rw [hs']
    refine agree_delete hget (Bool.eq_true_of_not_eq_false fun hlive => ?_)
    rw [expired_mono ht hlive] at hexp
    cases hexp
  · exact ⟨err,s,hcall,fun t _ => .refl t _⟩

theorem record_entries {c : PoWChallenge} (now : JsDate) (hfree : s.entries.get c.id = none)
    (ht : JsDate.le now t = true) :
    Agree t ((Call.record c now).perform.call s).2.entries
      (if c.id = [] then s.entries else s.entries.set c.id ⟨c,false⟩) := by
  obtain ⟨err,hcall,hid | hhas⟩ | ⟨s',hcall,-,hs'⟩ := record_cases s c now
  · rw [hcall,if_pos hid]
    exact .refl t _
  · rw [JsMap.has_eq_false.mpr hfree] at hhas
    cases hhas
  · rw [hcall,if_neg]
    · obtain hs' | hs' := hs'
      · rw [hs']
        exact .refl t _
      · rw [hs']
        exact agree_sweep ht
    · intro hid
      rw [Call.perform,Method.call_bind,ChallengeLedger.record,Method.get_bind,if_pos hid] at hcall
      cases (Prod.mk.inj hcall).1

/-- One call on two ledgers that agree. -/
theorem step_agree (hnow : Agree call.now s.entries s'.entries)
    (hfree : ∀ id ∈ call.recordedId, s.entries.get id = none ∧ s'.entries.get id = none) :
    outcome (call,(call.perform.call s).1) = outcome (call,(call.perform.call s').1) ∧
      ∀ t, JsDate.le call.now t = true → Agree t s.entries s'.entries →
        Agree t (call.perform.call s).2.entries (call.perform.call s').2.entries := by
  cases call with
  | record c now =>
    obtain ⟨hs,hs'⟩ := hfree c.id rfl
    refine ⟨rfl,fun t ht hag => ((record_entries now hs ht).trans ?_).trans
      (record_entries now hs' ht).symm⟩
    by_cases hid : c.id = []
    · rwa [if_pos hid,if_pos hid]
    · rw [if_neg hid,if_neg hid]
      exact hag.set c.id _
  | redeem id now =>
    by_cases hlive : ∃ c, s.entries.get id = some ⟨c,false⟩ ∧ Entry.expiredAt now ⟨c,false⟩ = false
    · obtain ⟨c,hget,hexp⟩ := hlive
      obtain ⟨m,hm,hms⟩ := redeem_live now hget hexp
      obtain ⟨m',hm',hms'⟩ := redeem_live now ((hnow id _ hexp).mp hget) hexp
      rw [hm,hm',hms,hms']
      exact ⟨rfl,fun t _ hag => hag.set id _⟩
    · have hdead (c : PoWChallenge) (hget : s.entries.get id = some ⟨c,false⟩) :
          Entry.expiredAt now ⟨c,false⟩ = true :=
        Bool.eq_true_of_not_eq_false fun hexp => hlive ⟨c,hget,hexp⟩
      have hdead' (c : PoWChallenge) (hget : s'.entries.get id = some ⟨c,false⟩) :
          Entry.expiredAt now ⟨c,false⟩ = true :=
        Bool.eq_true_of_not_eq_false fun hexp => hlive ⟨c,(hnow id _ hexp).mpr hget,hexp⟩
      obtain ⟨_,m,hm,hms⟩ := redeem_dead now hdead
      obtain ⟨_,m',hm',hms'⟩ := redeem_dead now hdead'
      rw [hm,hm']
      exact ⟨rfl,fun t ht hag => ((hms t ht).trans hag).trans (hms' t ht).symm⟩
  | sweep now =>
    exact ⟨rfl,fun t ht hag => ((agree_sweep ht).trans hag).trans (agree_sweep ht).symm⟩

/-- An id that the call does not record stays unknown. -/
theorem step_unknown (hid : id ∉ call.recordedId) (h : s.entries.get id = none) :
    (call.perform.call s).2.entries.get id = none := by
  have hnarrow {m : JsMap Entry} {now : JsDate} (hm : m.get id = none) :
      (m.sweep (·.expiredAt now)).get id = none :=
    Option.eq_none_iff_forall_ne_some.mpr fun e he => by
      rw [(JsMap.get_sweep_eq_some.mp he).1] at hm
      cases hm
  cases call with
  | record c now =>
    have hne : id ≠ c.id := fun heq => hid (heq ▸ rfl)
    obtain ⟨err,hcall,-⟩ | ⟨s',hcall,-,hs' | hs'⟩ := record_cases s c now
    · rwa [hcall]
    · rw [hcall,hs',JsMap.get_set_ne hne,h]
    · rw [hcall,hs']
      exact hnarrow (by rw [JsMap.get_set_ne hne,h])
  | redeem id' now =>
    obtain ⟨c,s',hget,-,hcall,hs'⟩ | ⟨err,s',e,-,-,-,hcall,hs'⟩ | ⟨err,hcall,-⟩ :=
      redeem_cases s id' now
    · have hne : id ≠ id' := by
        rintro rfl
        rw [h] at hget
        cases hget
      rw [hcall,hs',JsMap.get_set_ne hne,h]
    · rw [hcall,hs']
      refine Option.eq_none_iff_forall_ne_some.mpr fun e he => ?_
      rw [(JsMap.get_delete_eq_some.mp he).2] at h
      cases h
    · rwa [hcall]
  | sweep now => exact hnarrow h

end Step

theorem redeems_cons (e : Event) (log : List Event) :
    redeems (e::log) = (outcome e).toList++redeems log := by
  rw [redeems,List.filterMap_cons]
  cases outcome e <;> rfl

theorem recordedIds_cons (call : Call) (calls : List Call) :
    recordedIds (call::calls) = call.recordedId.toList++recordedIds calls := by
  rw [recordedIds,List.filterMap_cons]
  cases call.recordedId <;> rfl

/-- More sweeps change no redeem, from ledgers that agree at every later reading. -/
theorem redeems_inserts {calls calls' : List Call} (h : Inserts calls calls') :
    ∀ s s' : ChallengeLedger, Clocked calls' → (recordedIds calls).Nodup →
      (∀ call ∈ calls', Agree call.now s.entries s'.entries) →
      (∀ id ∈ recordedIds calls, s.entries.get id = none ∧ s'.entries.get id = none) →
      redeems (Method.run Call.perform calls s).1 =
        redeems (Method.run Call.perform calls' s').1 := by
  induction h with
  | nil => exact fun _ _ _ _ _ _ => rfl
  | @sweep calls calls' now h ih =>
    intro s s' hclock hids hag hfree
    obtain ⟨hfirst,hclock⟩ := List.pairwise_cons.mp hclock
    rw [Method.run,redeems_cons]
    refine ih s (s'.sweepNow now) hclock hids (fun call hcall => ?_) fun id hid => ?_
    · exact (hag call (List.mem_cons_of_mem _ hcall)).trans
        (agree_sweep (hfirst _ (List.mem_map_of_mem hcall))).symm
    · exact ⟨(hfree id hid).1,
        step_unknown (show id ∉ (Call.sweep now).recordedId from Option.not_mem_none id) (hfree id hid).2⟩
  | @keep calls calls' call h ih =>
    intro s s' hclock hids hag hfree
    obtain ⟨hfirst,hclock⟩ := List.pairwise_cons.mp hclock
    have hhead : ∀ id ∈ call.recordedId, s.entries.get id = none ∧ s'.entries.get id = none :=
      fun id hid => hfree id (List.mem_filterMap.mpr ⟨call,List.mem_cons_self,hid⟩)
    obtain ⟨hout,hstep⟩ := step_agree (hag call List.mem_cons_self) hhead
    rw [Method.run,Method.run,redeems_cons,redeems_cons,hout]
    rw [recordedIds_cons] at hids hfree
    refine congrArg _ (ih _ _ hclock hids.of_append_right (fun call' hcall' => ?_) fun id hid => ?_)
    · exact hstep _ (hfirst _ (List.mem_map_of_mem hcall'))
        (hag call' (List.mem_cons_of_mem _ hcall'))
    · have hne : id ∉ call.recordedId := fun hmem =>
        List.disjoint_of_nodup_append hids (Option.mem_toList.mpr hmem) hid
      obtain ⟨hs,hs'⟩ := hfree id (List.mem_append_right _ hid)
      exact ⟨step_unknown hne hs,step_unknown hne hs'⟩

/-- What a ledger is for. -/
structure Sound (interval : Number) (calls : List Call) : Prop where
  single : SingleUse (history interval calls)
  /-- A redeem that succeeds returns the challenge of the latest record, not redeemed since. -/
  latest : ∀ past x, past++[x] <+: history interval calls → ∀ id c now, Redeemed id c now x →
    Standing past id ⟨c,false⟩
  inTime : ∀ x ∈ history interval calls, ∀ id c now, Redeemed id c now x →
    JsDate.lt now c.expires = true
  sweeps : ∀ calls', Inserts calls calls' → Clocked calls' → (recordedIds calls).Nodup →
    redeems (history interval calls') = redeems (history interval calls)

/-- A challenge that is recorded has a date of expiry, and a redeem reads a date. -/
def Call.Dated : Call → Prop
  | .record c _ => c.expires ≠ none
  | .redeem _ now => now ≠ none
  | .sweep _ => True

theorem mem_history {interval : Number} {calls : List Call} {x : Event}
    (h : x ∈ history interval calls) : x.1 ∈ calls := by
  rw [← Method.map_fst_run Call.perform calls (.new interval)]
  exact List.mem_map_of_mem h

/-- With dates that are dates, a ledger does what it is for. -/
theorem sound_of_dated (interval : Number) {calls : List Call} (h : ∀ call ∈ calls, call.Dated) :
    Sound interval calls := by
  have hdue := (kept_run interval calls).due
  refine ⟨singleUse_of_due hdue,fun past x hpast id c now hx => (hdue past x hpast id c now hx).1,
    fun x hx id c now hred => ?_,fun calls' hins hclock hids => ?_⟩
  · obtain ⟨past,later,heq⟩ := List.append_of_mem hx
    obtain ⟨⟨before,r,after,rfl,hr,-⟩,hexp⟩ :=
      hdue past x ⟨later,by simp [heq]⟩ id c now hred
    have hr' := mem_history (heq ▸ by simp : r ∈ history interval calls)
    have hx' := mem_history hx
    obtain ⟨earlier,rfl⟩ := hr
    obtain rfl := hred
    obtain ⟨t,ht⟩ := Option.ne_none_iff_exists'.mp (h _ hr')
    obtain ⟨u,hu⟩ := Option.ne_none_iff_exists'.mp (h _ hx')
    obtain rfl : now = some u := hu
    have hlate : ¬ t ≤ u := fun hle =>
      Bool.eq_false_iff.mp hexp (JsDate.le_eq_true.mpr ⟨t,u,ht,rfl,hle⟩)
    exact JsDate.lt_eq_true.mpr ⟨u,t,rfl,ht,not_le.mp hlate⟩
  · exact (redeems_inserts hins _ _ hclock hids (fun call _ => .refl call.now _)
      fun id _ => ⟨rfl,rfl⟩).symm

/-- A recorded challenge is redeemed, when it is not expired. -/
theorem redeemed_of_live (interval : Number) {c : PoWChallenge} (hid : c.id ≠ []) {t now : JsDate}
    (ht : Entry.expiredAt t ⟨c,false⟩ = false) (hnow : Entry.expiredAt now ⟨c,false⟩ = false) :
    (.redeem c.id now,.ok (some c)) ∈ history interval [.record c t,.redeem c.id now] := by
  obtain ⟨s,hs,hget⟩ : ∃ s, (Call.record c t).perform.call (.new interval) = (.ok none,s) ∧
      s.entries.get c.id = some ⟨c,false⟩ := by
    obtain ⟨_,-,hempty | hhas⟩ | ⟨s,hcall,-,hs | hs⟩ := record_cases (.new interval) c t
    · exact absurd hempty hid
    · cases hhas
    · exact ⟨s,hcall,by rw [hs,JsMap.get_set_self]⟩
    · exact ⟨s,hcall,by rw [hs,JsMap.get_sweep_eq_some,JsMap.get_set_self]; exact ⟨rfl,ht⟩⟩
  obtain ⟨s',hs',-⟩ := redeem_live now hget hnow
  rw [history,Method.run,Method.run,hs,hs']
  simp

/-! A challenge whose time to live is infinite has no date of expiry. -/
def sampleChallenge (expires : JsDate) : PoWChallenge :=
  ⟨js "01HZZZZZZZZZZZZZZZZZZZZZZZ",[],.ofNat 20,expires⟩

def sampleCalls (expires : JsDate) : List Call :=
  [.record (sampleChallenge expires) (some 0),
    .redeem (js "01HZZZZZZZZZZZZZZZZZZZZZZZ") (some 299999)]

theorem sound_of_dated_sample : Sound (.ofNat 60000) (sampleCalls (some 300000)) :=
  sound_of_dated (.ofNat 60000) (by
    intro call hcall
    obtain rfl | hcall := List.mem_cons.mp hcall
    · exact nofun
    · obtain rfl := List.mem_singleton.mp hcall
      exact nofun)

/-- A challenge without a date of expiry is redeemed at any time. -/
theorem not_sound : ¬ ∀ interval calls, Sound interval calls := by
  intro h
  have hredeemed : Redeemed (sampleChallenge none).id (sampleChallenge none) (some 299999)
      (.redeem (sampleChallenge none).id (some 299999),.ok (some (sampleChallenge none))) := rfl
  have htime := (h (.ofNat 60000) (sampleCalls none)).inTime _
    (redeemed_of_live _ (List.cons_ne_nil _ _) rfl rfl) _ _ _ hredeemed
  cases htime

end PoW
end Semp
