import Semp.Reputation
import Semp.Blocklist
import Semp.JsMap
import Mathlib.Algebra.Order.Field.Rat
import Mathlib.Tactic.Linarith
import Mathlib.Tactic.NormNum
import Mathlib.Tactic.Positivity
import Mathlib.Tactic.FieldSimp

/-! The ledger of what was seen of a domain, and the verdict on it.  The rates are exact. -/
namespace Semp

/-- `a / b` -/
def Number.div : Number → Number → Number
  | nan, _ | _, nan => nan
  | inf _, inf _ => nan
  | inf a, fin b _ => inf (xor a b)
  | fin a _, inf b => zero (xor a b)
  | fin a i, fin b j =>
    if j.val = 0 then if i.val = 0 then nan else inf (xor a b)
    else ofMag (xor a b) (Binary64.value i/Binary64.value j)

namespace Reputation

structure DomainCounters where
  handshakes_completed : ℕ
  handshakes_rejected : ℕ
  envelopes_accepted : ℕ
  envelopes_rejected : ℕ
  abuse_reports : ℕ
  abuse_categories : List JsString

def noSignals : DomainCounters := ⟨0,0,0,0,0,[]⟩

/-- The dates of a domain that no signal was recorded for are absent. -/
structure Score where
  domain : JsString
  total_envelopes : ℕ
  abuse_rate : ℚ
  reject_rate : ℚ
  handshake_reject_rate : ℚ
  first_seen : Option JsDate
  age_days : Number
  assessment : Assessment

structure ObservationStore where
  domains : JsMap DomainCounters
  firstSeen : JsMap JsDate

def ObservationStore.new : ObservationStore := ⟨.empty,.empty⟩

def classifyScore (s : Score) : Assessment :=
  if 5/100 ≤ s.abuse_rate ∨ 5/10 ≤ s.reject_rate then .hostile
  else if 1/100 ≤ s.abuse_rate ∨ 2/10 ≤ s.reject_rate then .suspicious
  else if 100 ≤ s.total_envelopes ∧ s.abuse_rate = 0 ∧ s.reject_rate < 5/100 then .trusted
  else .neutral

/-- `total > 0 ? part / total : 0` -/
def rate (part total : ℕ) : ℚ := if total > 0 then part/total else 0

def countHandshake (ok : Bool) (c : DomainCounters) : DomainCounters :=
  if ok then {c with handshakes_completed := c.handshakes_completed+1}
  else {c with handshakes_rejected := c.handshakes_rejected+1}

def countEnvelope (accepted : Bool) (c : DomainCounters) : DomainCounters :=
  if accepted then {c with envelopes_accepted := c.envelopes_accepted+1}
  else {c with envelopes_rejected := c.envelopes_rejected+1}

def countAbuseReport (category : JsString) (c : DomainCounters) : DomainCounters :=
  {c with
    abuse_reports := c.abuse_reports+1
    abuse_categories := if category = [] then c.abuse_categories
      else c.abuse_categories++[category]}

section Code
variable (lc : Locale)

def normalize (domain : JsString) : JsString := lc.toLowerCase (trim domain)

/-- Writes to the counters that `touch` gives; `now` is the reading of the clock. -/
def touch (domain : JsString) (now : JsDate) (write : DomainCounters → DomainCounters)
    (s : ObservationStore) : ObservationStore :=
  let d := normalize lc domain
  match s.domains.get d with
  | some c => {s with domains := s.domains.set d (write c)}
  | none => ⟨s.domains.set d (write noSignals),s.firstSeen.set d now⟩

def recordHandshake (domain : JsString) (ok : Bool) (now : JsDate) :
    ObservationStore → ObservationStore := touch lc domain now (countHandshake ok)

def recordEnvelope (domain : JsString) (accepted : Bool) (now : JsDate) :
    ObservationStore → ObservationStore := touch lc domain now (countEnvelope accepted)

def recordAbuseReport (domain category : JsString) (now : JsDate) :
    ObservationStore → ObservationStore := touch lc domain now (countAbuseReport category)

def reset (domain : JsString) (s : ObservationStore) : ObservationStore :=
  let d := normalize lc domain
  ⟨s.domains.delete d,s.firstSeen.delete d⟩

def score (s : ObservationStore) (domain : JsString) (now : JsDate) : Score :=
  let d := normalize lc domain
  let firstSeen := s.firstSeen.get d
  let ageDays := match firstSeen with
    | none => .ofInt (-1)
    | some first =>
      (((JsDate.getTime now).sub (JsDate.getTime first)).div (.ofNat (1000*60*60*24))).floor
  match s.domains.get d with
  | none => {
      domain := domain
      total_envelopes := 0
      abuse_rate := 0
      reject_rate := 0
      handshake_reject_rate := 0
      first_seen := firstSeen
      age_days := ageDays
      assessment := .neutral }
  | some c =>
    let total := c.envelopes_accepted+c.envelopes_rejected
    let handshakes := c.handshakes_completed+c.handshakes_rejected
    let score : Score := {
      domain := domain
      total_envelopes := total
      abuse_rate := rate c.abuse_reports total
      reject_rate := rate c.envelopes_rejected total
      handshake_reject_rate := rate c.handshakes_rejected handshakes
      first_seen := firstSeen
      age_days := ageDays
      assessment := .neutral }
    {score with assessment := classifyScore score}

inductive Signal
  | handshake (domain : JsString) (ok : Bool) (now : JsDate)
  | envelope (domain : JsString) (accepted : Bool) (now : JsDate)
  | abuseReport (domain category : JsString) (now : JsDate)
  | reset (domain : JsString)

def Signal.record : Signal → ObservationStore → ObservationStore
  | handshake domain ok now => recordHandshake lc domain ok now
  | envelope domain accepted now => recordEnvelope lc domain accepted now
  | abuseReport domain category now => recordAbuseReport lc domain category now
  | reset domain => Reputation.reset lc domain

/-- The store after these calls. -/
def recorded (signals : List Signal) : ObservationStore :=
  signals.foldl (fun s signal => signal.record lc s) .new

/-- The domain of a signal, and what it counts. -/
def Signal.domain : Signal → JsString
  | handshake domain _ _ | envelope domain _ _ | abuseReport domain _ _ | reset domain => domain

def Signal.count : Signal → DomainCounters → DomainCounters
  | handshake _ ok _ => countHandshake ok
  | envelope _ accepted _ => countEnvelope accepted
  | abuseReport _ category _ => countAbuseReport category
  | reset _ => fun _ => noSignals

/-- What the signals say of a domain since the last time it was reset. -/
def signalsOf (domain : JsString) (signals : List Signal) : DomainCounters :=
  signals.foldl (fun c signal =>
    if normalize lc signal.domain = normalize lc domain then signal.count c else c) noSignals

end Code

section Counters
variable {lc : Locale} {s : ObservationStore} {domain d : JsString} {now : JsDate}

/-- The counters of a domain, all zero before the first signal. -/
def ObservationStore.countersOf (lc : Locale) (s : ObservationStore) (domain : JsString) :
    DomainCounters := (s.domains.get (normalize lc domain)).getD noSignals

theorem touch_countersOf (write : DomainCounters → DomainCounters) :
    (touch lc d now write s).countersOf lc domain =
      if normalize lc d = normalize lc domain then write (s.countersOf lc domain)
      else s.countersOf lc domain := by
  have hset (c : DomainCounters) : (s.domains.set (normalize lc d) c).get (normalize lc domain) =
      if normalize lc d = normalize lc domain then some c
      else s.domains.get (normalize lc domain) := by
    split_ifs with h
    · rw [h,JsMap.get_set_self]
    · exact JsMap.get_set_ne (Ne.symm h)
  rw [ObservationStore.countersOf,ObservationStore.countersOf,touch]
  cases hget : s.domains.get (normalize lc d) with
  | some c =>
    simp only [hset]
    split_ifs with h
    · rw [← h,hget]
      rfl
    · rfl
  | none =>
    simp only [hset]
    split_ifs with h
    · rw [← h,hget]
      rfl
    · rfl

theorem record_countersOf (signal : Signal) :
    (signal.record lc s).countersOf lc domain =
      if normalize lc signal.domain = normalize lc domain then
        signal.count (s.countersOf lc domain)
      else s.countersOf lc domain := by
  cases signal with
  | handshake d ok now => exact touch_countersOf _
  | envelope d accepted now => exact touch_countersOf _
  | abuseReport d category now => exact touch_countersOf _
  | reset d =>
    change (Option.getD ((s.domains.delete (normalize lc d)).get (normalize lc domain)) noSignals) =
      if normalize lc d = normalize lc domain then noSignals else s.countersOf lc domain
    split_ifs with h
    · rw [h,JsMap.get_delete_self]
      rfl
    · rw [JsMap.get_delete_ne (Ne.symm h)]
      rfl

/-- The store counts the signals of each domain. -/
theorem recorded_countersOf (lc : Locale) (signals : List Signal) (domain : JsString) :
    (recorded lc signals).countersOf lc domain = signalsOf lc domain signals := by
  induction signals using List.reverseRecOn with
  | nil => rfl
  | append_singleton signals signal ih =>
    rw [recorded,List.foldl_concat,← recorded,record_countersOf,ih,signalsOf,signalsOf,
      List.foldl_concat]

end Counters

/-- The assessments from the worst to the best. -/
def Assessment.rank : Assessment → ℕ
  | hostile => 0
  | suspicious => 1
  | neutral => 2
  | trusted => 3

def DomainCounters.total (c : DomainCounters) : ℕ := c.envelopes_accepted+c.envelopes_rejected

/-- The curve without divisions. -/
def DomainCounters.assess (c : DomainCounters) : Assessment :=
  if 0 < c.total ∧ (c.total ≤ 20*c.abuse_reports ∨ c.total ≤ 2*c.envelopes_rejected) then .hostile
  else if 0 < c.total ∧ (c.total ≤ 100*c.abuse_reports ∨ c.total ≤ 5*c.envelopes_rejected) then
    .suspicious
  else if 100 ≤ c.total ∧ c.abuse_reports = 0 ∧ 20*c.envelopes_rejected < c.total then .trusted
  else .neutral

section Rates
variable {part total m : ℕ}

theorem rate_zero (part : ℕ) : rate part 0 = 0 := if_neg (lt_irrefl 0)

theorem rate_of_pos (h : 0 < total) : rate part total = (part : ℚ)/total := if_pos h

theorem le_rate (h : 0 < total) (hm : 0 < m) : 1/(m : ℚ) ≤ rate part total ↔ total ≤ m*part := by
  have ht : (0 : ℚ) < total := by exact_mod_cast h
  have hm' : (0 : ℚ) < m := by exact_mod_cast hm
  rw [rate_of_pos h,div_le_div_iff₀ hm' ht,one_mul,mul_comm]
  exact_mod_cast Iff.rfl

theorem rate_eq_zero (h : 0 < total) : rate part total = 0 ↔ part = 0 := by
  have ht : (total : ℚ) ≠ 0 := by exact_mod_cast h.ne'
  rw [rate_of_pos h,div_eq_zero_iff,or_iff_left ht]
  exact_mod_cast Iff.rfl

theorem rate_mem (h : part ≤ total) : 0 ≤ rate part total ∧ rate part total ≤ 1 := by
  obtain rfl | ht := Nat.eq_zero_or_pos total
  · rw [rate_zero]
    norm_num
  · have ht' : (0 : ℚ) < total := by exact_mod_cast ht
    rw [rate_of_pos ht,div_le_one ht']
    exact ⟨by positivity,by exact_mod_cast h⟩

end Rates

section Claim
variable {lc : Locale} {s : ObservationStore} {domain : JsString} {now : JsDate}

/-- The thresholds as fractions with numerator one. -/
theorem classifyScore_eq {x : Score} {c : DomainCounters} (ht : x.total_envelopes = c.total)
    (ha : x.abuse_rate = rate c.abuse_reports c.total)
    (hr : x.reject_rate = rate c.envelopes_rejected c.total) : classifyScore x = c.assess := by
  rw [classifyScore,DomainCounters.assess,ht,ha,hr,
    show (5/100 : ℚ) = 1/(20 : ℕ) by norm_num,show (5/10 : ℚ) = 1/(2 : ℕ) by norm_num,
    show (1/100 : ℚ) = 1/(100 : ℕ) by norm_num,show (2/10 : ℚ) = 1/(5 : ℕ) by norm_num]
  obtain hzero | hpos := Nat.eq_zero_or_pos c.total
  · rw [hzero,rate_zero,rate_zero]
    norm_num
  · have hle {part m : ℕ} (hm : 0 < m) : 1/(m : ℚ) ≤ rate part c.total ↔ c.total ≤ m*part :=
      le_rate hpos hm
    have hlt {part m : ℕ} (hm : 0 < m) : rate part c.total < 1/(m : ℚ) ↔ m*part < c.total := by
      rw [← not_le,hle hm,not_le]
    simp only [hle (show 0 < 20 by norm_num),hle (show 0 < 2 by norm_num),
      hle (show 0 < 100 by norm_num),hle (show 0 < 5 by norm_num),
      hlt (show 0 < 20 by norm_num),rate_eq_zero hpos,hpos,true_and]

/-- The assessment depends on the counters only. -/
theorem score_assessment : (score lc s domain now).assessment =
    (s.countersOf lc domain).assess := by
  rw [score,ObservationStore.countersOf]
  cases s.domains.get (normalize lc domain) with
  | none => rfl
  | some c => exact classifyScore_eq rfl rfl rfl

theorem score_rates : (score lc s domain now).reject_rate =
      rate (s.countersOf lc domain).envelopes_rejected (s.countersOf lc domain).total ∧
    (score lc s domain now).handshake_reject_rate =
      rate (s.countersOf lc domain).handshakes_rejected
        ((s.countersOf lc domain).handshakes_completed+
          (s.countersOf lc domain).handshakes_rejected) := by
  rw [score,ObservationStore.countersOf]
  cases s.domains.get (normalize lc domain) with
  | none => exact ⟨rfl,rfl⟩
  | some c => exact ⟨rfl,rfl⟩

end Claim

/-- The rank for so many abuse reports, rejected envelopes and envelopes. -/
def level (reports rejected total : ℕ) : ℕ :=
  if 0 < total ∧ (total ≤ 20*reports ∨ total ≤ 2*rejected) then 0
  else if 0 < total ∧ (total ≤ 100*reports ∨ total ≤ 5*rejected) then 1
  else if 100 ≤ total ∧ reports = 0 ∧ 20*rejected < total then 3
  else 2

theorem level_report (reports rejected total : ℕ) :
    level (reports+1) rejected total ≤ level reports rejected total := by
  unfold level
  rw [if_neg (c := 100 ≤ total ∧ reports+1 = 0 ∧ _) (by simp)]
  split_ifs <;> omega

/-- One more rejected envelope is better when it takes the last abuse report below a threshold or
makes the domain known well enough. -/
theorem level_reject {reports rejected total : ℕ} (h : rejected ≤ total) :
    level reports rejected total < level reports (rejected+1) (total+1) ↔
      (0 < reports ∧ total = 20*reports ∧ 2*(rejected+1) < total+1) ∨
      (0 < reports ∧ total = 100*reports ∧ 5*(rejected+1) < total+1) ∨
      (reports = 0 ∧ total = 99 ∧ rejected ≤ 3) := by
  unfold level
  split_ifs <;> omega

/-- The counters for which one more rejected envelope is better. -/
def DomainCounters.Diluted (c : DomainCounters) : Prop :=
  (0 < c.abuse_reports ∧ c.total = 20*c.abuse_reports ∧ 2*(c.envelopes_rejected+1) < c.total+1) ∨
  (0 < c.abuse_reports ∧ c.total = 100*c.abuse_reports ∧ 5*(c.envelopes_rejected+1) < c.total+1) ∨
  (c.abuse_reports = 0 ∧ c.total = 99 ∧ c.envelopes_rejected ≤ 3)

section Steps
variable (c : DomainCounters)

theorem rank_assess :
    c.assess.rank = level c.abuse_reports c.envelopes_rejected c.total := by
  rw [DomainCounters.assess,level]
  split_ifs <;> rfl

theorem assess_countHandshake (ok : Bool) : (countHandshake ok c).assess = c.assess := by
  cases ok <;> rfl

/-- One more abuse report is never better. -/
theorem assess_countAbuseReport (category : JsString) :
    (countAbuseReport category c).assess.rank ≤ c.assess.rank := by
  rw [rank_assess,rank_assess]
  exact level_report _ _ _

theorem assess_countEnvelope :
    c.assess.rank < (countEnvelope false c).assess.rank ↔ c.Diluted := by
  rw [rank_assess,rank_assess]
  exact level_reject (Nat.le_add_left _ _)

end Steps

/-- After any signals: the shares of rejected envelopes and handshakes are shares, a rejected
handshake or an abuse report is never better for a domain, and a rejected envelope is when it
dilutes. -/
theorem score_monotone (lc : Locale) (signals : List Signal) (domain other : JsString)
    (hdomain : normalize lc other = normalize lc domain) (now later at' : JsDate) :
    let s := recorded lc signals
    let before := score lc s domain now
    (0 ≤ before.reject_rate ∧ before.reject_rate ≤ 1) ∧
    (0 ≤ before.handshake_reject_rate ∧ before.handshake_reject_rate ≤ 1) ∧
    (score lc (recordHandshake lc other false at' s) domain later).assessment =
      before.assessment ∧
    (∀ category, (score lc (recordAbuseReport lc other category at' s) domain
      later).assessment.rank ≤ before.assessment.rank) ∧
    (before.assessment.rank <
        (score lc (recordEnvelope lc other false at' s) domain later).assessment.rank ↔
      (signalsOf lc domain signals).Diluted) := by
  intro s before
  have hcounters : s.countersOf lc domain = signalsOf lc domain signals :=
    recorded_countersOf lc signals domain
  have hwrite (write : DomainCounters → DomainCounters) :
      (touch lc other at' write s).countersOf lc domain = write (s.countersOf lc domain) := by
    rw [touch_countersOf,if_pos hdomain]
  obtain ⟨hreject,hhandshake⟩ := @score_rates lc s domain now
  refine ⟨?_,?_,?_,fun category => ?_,?_⟩
  · rw [hreject]
    exact rate_mem (Nat.le_add_left _ _)
  · rw [hhandshake]
    exact rate_mem (Nat.le_add_left _ _)
  · rw [score_assessment,score_assessment,recordHandshake,hwrite,assess_countHandshake]
  · rw [score_assessment,score_assessment,recordAbuseReport,hwrite]
    exact assess_countAbuseReport _ category
  · rw [score_assessment,score_assessment,recordEnvelope,hwrite,assess_countEnvelope,hcounters]

/-- Another spelling of a domain after one handshake. -/
theorem score_monotone_sample :
    let lc : Locale := ⟨⟨fun _ => .nan,fun _ => raiseType⟩,id⟩
    let s := recorded lc [.handshake (js "a.example") true (some 0)]
    (score lc (recordAbuseReport lc (js " a.example") (js "spam") (some 1) s) (js "a.example")
      (some 2)).assessment.rank ≤ (score lc s (js "a.example") (some 0)).assessment.rank :=
  (score_monotone _ [.handshake (js "a.example") true (some 0)] (js "a.example")
    (js " a.example") (by decide) (some 0) (some 2) (some 1)).2.2.2.1 (js "spam")

/-- A hundredth envelope that is rejected makes a neutral domain trusted. -/
theorem not_score_monotone : ¬∀ (lc : Locale) (signals : List Signal) (domain : JsString)
    (now : JsDate), (score lc (recordEnvelope lc domain false now (recorded lc signals)) domain
      now).assessment.rank ≤ (score lc (recorded lc signals) domain now).assessment.rank := by
  intro h
  have hle := h ⟨⟨fun _ => .nan,fun _ => raiseType⟩,id⟩
    (List.replicate 99 (.envelope (js "a.example") true (some 0))) (js "a.example") (some 0)
  rw [score_assessment,score_assessment,recordEnvelope,touch_countersOf,if_pos rfl,
    ← not_lt,assess_countEnvelope,recorded_countersOf] at hle
  exact hle (.inr (.inr (by decide)))

end Reputation
end Semp
