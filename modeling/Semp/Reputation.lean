import Semp.SigningKinds
import Semp.Method

/-! The records of the reputation protocol and the rounding of their counts.  A record is signed
over its canonical bytes after its counts are rounded up to powers of two. -/
namespace Semp
namespace Reputation
open Handshake (JsObject)

structure ReputationSignature where
  algorithm : JsString
  key_id : JsString
  value : JsString

def ReputationSignature.members (s : ReputationSignature) : Members :=
  [(js "algorithm",.str s.algorithm),(js "key_id",.str s.key_id),(js "value",.str s.value)]

structure Window where
  start : JsString
  stop : JsString

/-- The end of the window is its member `end`. -/
def Window.members (w : Window) : Members := [(js "start",.str w.start),(js "end",.str w.stop)]

inductive Assessment
  | trusted
  | neutral
  | suspicious
  | hostile
  deriving DecidableEq, Repr

def Assessment.name : Assessment → JsString
  | trusted => js "trusted"
  | neutral => js "neutral"
  | suspicious => js "suspicious"
  | hostile => js "hostile"

structure Metrics where
  envelopes_received : Number
  envelopes_rejected : Number
  abuse_reports : Number
  abuse_categories : Option (List JsString)
  unique_senders_observed : Option Number
  handshakes_completed : Option Number
  handshakes_rejected : Option Number

def Metrics.members (m : Metrics) : Members :=
  definedMembers [(js "envelopes_received",some (.num m.envelopes_received)),
    (js "envelopes_rejected",some (.num m.envelopes_rejected)),
    (js "abuse_reports",some (.num m.abuse_reports)),
    (js "abuse_categories",m.abuse_categories.map fun cats => .arr (cats.map .str)),
    (js "unique_senders_observed",m.unique_senders_observed.map .num),
    (js "handshakes_completed",m.handshakes_completed.map .num),
    (js "handshakes_rejected",m.handshakes_rejected.map .num)]

structure EvidenceHash where
  algorithm : JsString
  value : JsString

def EvidenceHash.members (h : EvidenceHash) : Members :=
  [(js "algorithm",.str h.algorithm),(js "value",.str h.value)]

structure Observation where
  type : JsString
  version : JsString
  id : JsString
  observer : JsString
  subject : JsString
  window : Window
  metrics : Metrics
  assessment : Assessment
  evidence_available : Bool
  evidence_uri : Option JsString
  evidence_hash : Option EvidenceHash
  timestamp : JsString
  expires : JsString
  signature : ReputationSignature
  /-- Signing sets them if they are not there. -/
  extensions : Option JsObject

def Observation.members (obs : Observation) : Members :=
  definedMembers [(js "type",some (.str obs.type)),(js "version",some (.str obs.version)),
    (js "id",some (.str obs.id)),(js "observer",some (.str obs.observer)),
    (js "subject",some (.str obs.subject)),(js "window",some (.obj obs.window.members)),
    (js "metrics",some (.obj obs.metrics.members)),
    (js "assessment",some (.str obs.assessment.name)),
    (js "evidence_available",some (.bool obs.evidence_available)),
    (js "evidence_uri",obs.evidence_uri.map .str),
    (js "evidence_hash",obs.evidence_hash.map fun h => .obj h.members),
    (js "timestamp",some (.str obs.timestamp)),(js "expires",some (.str obs.expires)),
    (js "signature",some (.obj obs.signature.members)),
    (js "extensions",obs.extensions.map fun e => .obj e.val)]

def maxMetricBucket : ℕ := 2^20

/-- `while (b < n) b <<= 1`.  For an `n` below the last bucket twenty rounds are enough. -/
def doubleUpTo (n : Number) : ℕ → ℕ → ℕ
  | 0, b => b
  | rounds+1, b => if (Number.ofNat b).lt n then doubleUpTo n rounds (2*b) else b

def bucketize (n : Number) : Number :=
  if !n.isFinite || n.le (.ofNat 0) then .ofNat 0
  else if (Number.ofNat maxMetricBucket).le n then .ofNat maxMetricBucket
  else .ofNat (doubleUpTo n 20 1)

/-- The loop over the categories, with the set of those it has seen. -/
def distinctFrom (seen : List JsString) : List JsString → List JsString
  | [] => []
  | c::cats =>
    if c = [] then distinctFrom seen cats
    else if c ∈ seen then distinctFrom seen cats
    else c::distinctFrom (c::seen) cats

def dedupeAbuseCategories : Option (List JsString) → Option (List JsString)
  | none => none
  | some cats =>
    match distinctFrom [] cats with
    | [] => none
    | out => some out

def applyBucketing (m : Metrics) : Metrics where
  envelopes_received := bucketize m.envelopes_received
  envelopes_rejected := bucketize m.envelopes_rejected
  abuse_reports := bucketize m.abuse_reports
  abuse_categories := dedupeAbuseCategories m.abuse_categories
  unique_senders_observed := m.unique_senders_observed.map bucketize
  handshakes_completed := m.handshakes_completed.map bucketize
  handshakes_rejected := m.handshakes_rejected.map bucketize

def signatureAlgorithmEd25519 : JsString := js "ed25519"

/-- The records sign their canonical bytes, with the value of `signature` blank. -/
def canonicalRecordBytes (obj : Members) : Js Bytes := marshalView [] reputationView obj

/-- What signing writes to a record before it looks at the bytes. -/
def prepared (observerKeyId : JsString) (obs : Observation) : Observation :=
  {obs with
    extensions := some (obs.extensions.getD ⟨[],Json.wf_empty⟩)
    metrics := applyBucketing obs.metrics
    signature := ⟨signatureAlgorithmEd25519,observerKeyId,[]⟩}

def signObservation (C : Crypto) (observerPriv : Bytes) (observerKeyId : JsString) :
    Method Thrown Observation JsString := do
  if observerKeyId = [] then
    liftM (raise (js "reputation: empty observer key_id") : Js Unit)
  modify (prepared observerKeyId)
  let obs ← get
  let canonicalBytes ← canonicalRecordBytes obs.members
  let sig ← sign C observerPriv canonicalBytes
  let sigB64 := Base64.encode sig
  modify fun obs => {obs with signature := {obs.signature with value := sigB64}}
  return sigB64

/-- The counts that are published: 0 and the powers of two up to the last bucket. -/
def IsBucket (b : ℕ) : Prop := b = 0 ∨ ∃ k ≤ 20, b = 2^k

/-- The least bucket that is no smaller than `m`. -/
structure LeastBucket (m b : ℕ) : Prop where
  bucket : IsBucket b
  le : m ≤ b
  least : ∀ c, IsBucket c → m ≤ c → b ≤ c

/-- The number `x` is the non-negative integer `m`. -/
def Counts (x : Number) (m : ℕ) : Prop := x.isFinite = true ∧ x.toRat = m

section Buckets
variable {x y : Number} {m n b : ℕ}

theorem IsBucket.le (h : IsBucket b) : b ≤ maxMetricBucket := by
  obtain rfl | ⟨k,hk,rfl⟩ := h
  · exact Nat.zero_le _
  · exact Nat.pow_le_pow_right (by norm_num) hk

theorem IsBucket.lt (h : IsBucket b) : b < 2^53 := h.le.trans_lt (by decide)

theorem LeastBucket.unique {c : ℕ} (hb : LeastBucket m b) (hc : LeastBucket m c) : b = c :=
  (hb.least c hc.bucket hc.le).antisymm (hc.least b hb.bucket hb.le)

theorem IsBucket.leastBucket (h : IsBucket b) : LeastBucket b b := ⟨h,le_rfl,fun _ _ hc => hc⟩

theorem counts_ofNat (h : b < 2^53) : Counts (.ofNat b) b :=
  ⟨Number.isFinite_ofNat h,Number.toRat_ofNat h⟩

/-- The loop ends at a power of two. -/
theorem doubleUpTo_pow (x : Number) (rounds k : ℕ) :
    ∃ j ≤ k+rounds, doubleUpTo x rounds (2^k) = 2^j := by
  induction rounds generalizing k with
  | zero => exact ⟨k,le_rfl,rfl⟩
  | succ rounds ih =>
    rw [doubleUpTo,← pow_succ']
    split_ifs
    · obtain ⟨j,hj,he⟩ := ih (k+1)
      exact ⟨j,by omega,he⟩
    · exact ⟨k,by omega,rfl⟩

/-- It is the first one that is large enough. -/
theorem doubleUpTo_least (hx : Counts x m) (hle : m ≤ maxMetricBucket) {rounds k : ℕ}
    (hk : k+rounds = 20) : ∃ j ≤ 20, doubleUpTo x rounds (2^k) = 2^j ∧ m ≤ 2^j ∧
      ∀ i, k ≤ i → m ≤ 2^i → j ≤ i := by
  induction rounds generalizing k with
  | zero =>
    obtain rfl : k = 20 := hk
    exact ⟨20,le_rfl,rfl,hle,fun i hi _ => hi⟩
  | succ rounds ih =>
    have hpow : 2^k < 2^53 := Nat.pow_lt_pow_right (by norm_num) (by omega)
    rw [doubleUpTo,← pow_succ',Number.lt_fin (Number.isFinite_ofNat hpow) hx.1,hx.2,
      Number.toRat_ofNat hpow]
    by_cases h : 2^k < m
    · rw [if_pos (by simpa using mod_cast h)]
      obtain ⟨j,hj,he,hm,hleast⟩ := ih (show (k+1)+rounds = 20 by omega)
      refine ⟨j,hj,he,hm,fun i hi hmi => hleast i ?_ hmi⟩
      obtain rfl | hlt := hi.eq_or_lt
      · exact absurd h (not_lt.mpr hmi)
      · exact hlt
    · rw [if_neg (by simpa using mod_cast not_lt.mp h)]
      exact ⟨k,by omega,rfl,not_lt.mp h,fun i hi _ => hi⟩

/-- Whatever the number is, its bucket is one. -/
theorem bucketize_bucket (x : Number) : ∃ b, IsBucket b ∧ bucketize x = .ofNat b := by
  unfold bucketize
  split_ifs
  · exact ⟨0,.inl rfl,rfl⟩
  · exact ⟨maxMetricBucket,.inr ⟨20,le_rfl,rfl⟩,rfl⟩
  · obtain ⟨j,hj,he⟩ := doubleUpTo_pow x 20 0
    exact ⟨2^j,.inr ⟨j,by omega,rfl⟩,by rw [← he,pow_zero]⟩

/-- The bucket of a count is the least one that is large enough, or the last. -/
theorem bucketize_counts (hx : Counts x m) : ∃ b, IsBucket b ∧ bucketize x = .ofNat b ∧
    (m ≤ maxMetricBucket → LeastBucket m b) ∧ (maxMetricBucket ≤ m → b = maxMetricBucket) := by
  have hlast : IsBucket maxMetricBucket := .inr ⟨20,le_rfl,rfl⟩
  have hzero : x.le (.ofNat 0) = decide (m ≤ 0) := by
    rw [Number.le_fin hx.1 (Number.isFinite_ofNat (by norm_num)),hx.2,
      Number.toRat_ofNat (by norm_num)]
    simp
  have hcap : (Number.ofNat maxMetricBucket).le x = decide (maxMetricBucket ≤ m) := by
    rw [Number.le_fin (Number.isFinite_ofNat (by decide)) hx.1,hx.2,
      Number.toRat_ofNat (by decide)]
    simp
  rw [bucketize,hx.1,hzero,hcap]
  by_cases hm : m = 0
  · subst hm
    exact ⟨0,.inl rfl,rfl,fun _ => ⟨.inl rfl,le_rfl,fun _ _ _ => Nat.zero_le _⟩,
      fun h => absurd h (by decide)⟩
  rw [if_neg (by simpa using hm)]
  by_cases hge : maxMetricBucket ≤ m
  · rw [if_pos (decide_eq_true hge)]
    exact ⟨_,hlast,rfl,fun hle => ⟨hlast,hle,fun c _ hc => hge.trans hc⟩,fun _ => rfl⟩
  · rw [if_neg (by simpa using hge)]
    obtain ⟨j,hj,he,hle,hleast⟩ :=
      doubleUpTo_least hx (not_le.mp hge).le (show 0+20 = 20 from rfl)
    refine ⟨2^j,.inr ⟨j,hj,rfl⟩,by rw [← he,pow_zero],fun _ => ⟨.inr ⟨j,hj,rfl⟩,hle,?_⟩,
      fun h => absurd h hge⟩
    rintro c (rfl | ⟨i,-,rfl⟩) hc
    · exact absurd (Nat.le_zero.mp hc) hm
    · exact Nat.pow_le_pow_right (by norm_num) (hleast i (Nat.zero_le _) hc)

theorem bucketize_eq (hx : Counts x m) (h : LeastBucket m b) : bucketize x = .ofNat b := by
  obtain ⟨c,-,he,hleast,-⟩ := bucketize_counts hx
  rw [he,(hleast (h.le.trans h.bucket.le)).unique h]

theorem bucketize_ofNat (h : IsBucket b) : bucketize (.ofNat b) = .ofNat b :=
  bucketize_eq (counts_ofNat h.lt) h.leastBucket

theorem bucketize_bucketize (x : Number) : bucketize (bucketize x) = bucketize x := by
  obtain ⟨b,hb,he⟩ := bucketize_bucket x
  rw [he,bucketize_ofNat hb]

theorem bucketize_mono (hx : Counts x m) (hy : Counts y n) (h : m ≤ n) :
    (bucketize x).le (bucketize y) = true := by
  obtain ⟨b,hb,heb,hleastb,-⟩ := bucketize_counts hx
  obtain ⟨c,hc,hec,hleastc,hlast⟩ := bucketize_counts hy
  rw [heb,hec,Number.le_ofNat hb.lt hc.lt,decide_eq_true_eq]
  obtain hn | hn := le_total n maxMetricBucket
  · exact (hleastb (h.trans hn)).least c hc (h.trans (hleastc hn).le)
  · rw [hlast hn]
    exact hb.le

end Buckets

section Categories
variable {seen cats : List JsString} {m m' : Metrics}

/-- The categories that are left are those that were not seen, in the order in which they are
met first. -/
theorem distinctFrom_eq (seen cats : List JsString) :
    distinctFrom seen cats = (cats.filter fun c => decide (c ≠ [] ∧ c ∉ seen)).eraseDups := by
  induction cats generalizing seen with
  | nil => rfl
  | cons c cats ih =>
    rw [distinctFrom]
    by_cases hc : c = []
    · rw [if_pos hc,List.filter_cons_of_neg (by simp [hc]),ih]
    rw [if_neg hc]
    by_cases hs : c ∈ seen
    · rw [if_pos hs,List.filter_cons_of_neg (by simp [hs]),ih]
    rw [if_neg hs,List.filter_cons_of_pos (by simp [hc,hs]),List.eraseDups_cons,ih,
      List.filter_filter]
    congr 2
    refine List.filter_congr fun d _ => ?_
    by_cases hd : d = c <;> simp [hd]

theorem mem_distinctFrom {c : JsString} (h : c ∈ distinctFrom seen cats) : c ≠ [] ∧ c ∉ seen := by
  rw [distinctFrom_eq,List.mem_eraseDups] at h
  exact of_decide_eq_true (List.mem_filter.mp h).2

theorem nodup_distinctFrom (seen cats : List JsString) : (distinctFrom seen cats).Nodup := by
  induction cats generalizing seen with
  | nil => exact .nil
  | cons c cats ih =>
    rw [distinctFrom]
    split_ifs
    · exact ih seen
    · exact ih seen
    · exact List.nodup_cons.mpr ⟨fun h => (mem_distinctFrom h).2 List.mem_cons_self,ih _⟩

theorem distinctFrom_of_nodup (hn : cats.Nodup) (h : ∀ c ∈ cats, c ≠ [] ∧ c ∉ seen) :
    distinctFrom seen cats = cats := by
  induction cats generalizing seen with
  | nil => rfl
  | cons c cats ih =>
    obtain ⟨hc,hs⟩ := h c List.mem_cons_self
    obtain ⟨hnot,hn⟩ := List.nodup_cons.mp hn
    rw [distinctFrom,if_neg hc,if_neg hs,ih hn fun d hd => ⟨(h d (List.mem_cons_of_mem _ hd)).1,?_⟩]
    rw [List.mem_cons,not_or]
    exact ⟨fun he => hnot (he ▸ hd),(h d (List.mem_cons_of_mem _ hd)).2⟩

theorem dedupe_dedupe (o : Option (List JsString)) :
    dedupeAbuseCategories (dedupeAbuseCategories o) = dedupeAbuseCategories o := by
  cases o with
  | none => rfl
  | some cats =>
    have hagain : distinctFrom [] (distinctFrom [] cats) = distinctFrom [] cats :=
      distinctFrom_of_nodup (nodup_distinctFrom [] cats) fun c hc => mem_distinctFrom hc
    rw [dedupeAbuseCategories]
    split
    · rfl
    · next out hout =>
      rw [dedupeAbuseCategories,hagain]
      split
      · contradiction
      · rfl

end Categories

/-- The metrics differ in counts of equal buckets and in repetitions of categories only. -/
structure Alike (m m' : Metrics) : Prop where
  envelopes_received : bucketize m.envelopes_received = bucketize m'.envelopes_received
  envelopes_rejected : bucketize m.envelopes_rejected = bucketize m'.envelopes_rejected
  abuse_reports : bucketize m.abuse_reports = bucketize m'.abuse_reports
  /-- The same categories are met first in the same order. -/
  abuse_categories : ((m.abuse_categories.getD []).filter (· ≠ [])).eraseDups =
    ((m'.abuse_categories.getD []).filter (· ≠ [])).eraseDups
  unique_senders_observed : m.unique_senders_observed.map bucketize =
    m'.unique_senders_observed.map bucketize
  handshakes_completed : m.handshakes_completed.map bucketize =
    m'.handshakes_completed.map bucketize
  handshakes_rejected : m.handshakes_rejected.map bucketize = m'.handshakes_rejected.map bucketize

section Records
variable {C : Crypto} {obs : Observation} {observerPriv : Bytes} {observerKeyId : JsString}
  {m m' : Metrics}

theorem dedupe_eq (o : Option (List JsString)) : dedupeAbuseCategories o =
    match ((o.getD []).filter (· ≠ [])).eraseDups with
    | [] => none
    | out => some out := by
  cases o with
  | none => rfl
  | some cats =>
    have h := distinctFrom_eq [] cats
    simp only [List.not_mem_nil,not_false_eq_true,and_true] at h
    rw [dedupeAbuseCategories,h]
    rfl

/-- Metrics that are alike are published alike. -/
theorem applyBucketing_alike (h : Alike m m') : applyBucketing m = applyBucketing m' := by
  rw [applyBucketing,applyBucketing,h.envelopes_received,h.envelopes_rejected,h.abuse_reports,
    dedupe_eq,dedupe_eq,h.abuse_categories,h.unique_senders_observed,h.handshakes_completed,
    h.handshakes_rejected]

theorem map_bucketize_bucketize (o : Option Number) :
    (o.map bucketize).map bucketize = o.map bucketize := by
  cases o with
  | none => rfl
  | some x => exact congrArg some (bucketize_bucketize x)

theorem applyBucketing_applyBucketing (m : Metrics) :
    applyBucketing (applyBucketing m) = applyBucketing m := by
  simp only [applyBucketing,bucketize_bucketize,dedupe_dedupe,map_bucketize_bucketize]

/-- The bytes that are signed for an observation. -/
def signedBytes (observerKeyId : JsString) (obs : Observation) : Js Bytes :=
  canonicalRecordBytes (prepared observerKeyId obs).members

/-- What signing returns and writes. -/
theorem signObservation_call (hid : observerKeyId ≠ []) :
    (signObservation C observerPriv observerKeyId).call obs =
      match signedBytes observerKeyId obs >>= sign C observerPriv with
      | .ok sig => (.ok (Base64.encode sig),{prepared observerKeyId obs with
          signature := ⟨signatureAlgorithmEd25519,observerKeyId,Base64.encode sig⟩})
      | .error e => (.error e,prepared observerKeyId obs) := by
  rw [signObservation,if_neg hid,Method.modify_bind,Method.get_bind,Method.call_bind,
    Method.call_lift,signedBytes]
  cases canonicalRecordBytes (prepared observerKeyId obs).members with
  | error e => rfl
  | ok canonicalBytes =>
    dsimp only
    rw [Method.call_bind,Method.call_lift,ok_bind]
    cases sign C observerPriv canonicalBytes <;> rfl

/-- A record that was prepared is prepared again as it is, whatever its signature. -/
theorem prepared_prepared (obs : Observation) (s : ReputationSignature) :
    prepared observerKeyId {prepared observerKeyId obs with signature := s} =
      prepared observerKeyId obs := by
  simp only [prepared,applyBucketing_applyBucketing,Option.getD_some]

theorem signObservation_again (C : Crypto) (observerPriv : Bytes) (observerKeyId : JsString)
    (obs : Observation) :
    (signObservation C observerPriv observerKeyId).call
        ((signObservation C observerPriv observerKeyId).call obs).2 =
      (signObservation C observerPriv observerKeyId).call obs := by
  by_cases hid : observerKeyId = []
  · rw [signObservation,if_pos hid]
    rfl
  have hcall (s : ReputationSignature) : (signObservation C observerPriv observerKeyId).call
      {prepared observerKeyId obs with signature := s} =
        (signObservation C observerPriv observerKeyId).call obs := by
    rw [signObservation_call hid,signObservation_call hid,signedBytes,prepared_prepared,signedBytes]
  have hobs : (signObservation C observerPriv observerKeyId).call obs = _ :=
    signObservation_call hid
  cases hsig : signedBytes observerKeyId obs >>= sign C observerPriv with
  | ok sig =>
    rw [hsig] at hobs
    rw [hobs]
    exact (hcall _).trans hobs
  | error e =>
    rw [hsig] at hobs
    rw [hobs]
    exact (hcall ⟨signatureAlgorithmEd25519,observerKeyId,[]⟩).trans hobs

/-- Metrics that are alike lead to one record. -/
theorem prepared_alike {obs : Observation} (h : Alike obs.metrics m') :
    prepared observerKeyId {obs with metrics := m'} = prepared observerKeyId obs := by
  rw [prepared,prepared,applyBucketing_alike h]

theorem signObservation_alike {obs : Observation} (hid : observerKeyId ≠ [])
    (h : Alike obs.metrics m') :
    (signObservation C observerPriv observerKeyId).call {obs with metrics := m'} =
      (signObservation C observerPriv observerKeyId).call obs := by
  rw [signObservation_call hid,signObservation_call hid,signedBytes,prepared_alike h,signedBytes]

end Records

/-- Counts are published as the least bucket that is large enough, and signing publishes no more
than the buckets and the distinct categories. -/
theorem bucketing_hides (C : Crypto) (observerPriv : Bytes) (observerKeyId : JsString) :
    (∀ x m, Counts x m → ∃ b, bucketize x = .ofNat b ∧
      (m ≤ maxMetricBucket → LeastBucket m b) ∧ (maxMetricBucket ≤ m → b = maxMetricBucket)) ∧
    (∀ x y m n, Counts x m → Counts y n → m ≤ n → (bucketize x).le (bucketize y) = true) ∧
    (∀ x, bucketize (bucketize x) = bucketize x) ∧
    (∀ obs, (signObservation C observerPriv observerKeyId).call
        ((signObservation C observerPriv observerKeyId).call obs).2 =
      (signObservation C observerPriv observerKeyId).call obs) ∧
    ∀ obs m', Alike obs.metrics m' →
      signedBytes observerKeyId {obs with metrics := m'} = signedBytes observerKeyId obs ∧
      (observerKeyId ≠ [] →
        (signObservation C observerPriv observerKeyId).call {obs with metrics := m'} =
          (signObservation C observerPriv observerKeyId).call obs) := by
  refine ⟨fun x m hx => ?_,fun x y m n hx hy => bucketize_mono hx hy,bucketize_bucketize,
    signObservation_again C observerPriv observerKeyId,fun obs m' h => ⟨?_,fun hid => ?_⟩⟩
  · obtain ⟨b,-,he,hleast,hlast⟩ := bucketize_counts hx
    exact ⟨b,he,hleast,hlast⟩
  · rw [signedBytes,prepared_alike h,signedBytes]
  · exact signObservation_alike hid h

/-! Two observations of one bucket. -/
def sampleMetrics (received : ℕ) (cats : List JsString) : Metrics where
  envelopes_received := .ofNat received
  envelopes_rejected := .ofNat 0
  abuse_reports := .ofNat 2
  abuse_categories := some cats
  unique_senders_observed := none
  handshakes_completed := none
  handshakes_rejected := none

def sampleObservation : Observation where
  type := js "SEMP_TRUST_OBSERVATION"
  version := js "1.0.0"
  id := js "o-1"
  observer := js "observer.example"
  subject := js "subject.example"
  window := ⟨js "2026-05-01T00:00:00Z",js "2026-05-02T00:00:00Z"⟩
  metrics := sampleMetrics 3 [js "spam",js "phishing",js "spam"]
  assessment := .neutral
  evidence_available := false
  evidence_uri := none
  evidence_hash := none
  timestamp := js "2026-05-02T00:00:00Z"
  expires := js "2026-06-02T00:00:00Z"
  signature := ⟨[],[],[]⟩
  extensions := none

theorem leastBucket_four {m : ℕ} (hlow : 2 < m) (hhigh : m ≤ 4) : LeastBucket m 4 where
  bucket := .inr ⟨2,by norm_num,by norm_num⟩
  le := hhigh
  least := by
    rintro c (rfl | ⟨k,-,rfl⟩) hc
    · omega
    · rcases k with _ | _ | k
      · omega
      · omega
      · have := Nat.one_le_two_pow (n := k)
        rw [pow_add]
        omega

theorem bucketize_three : bucketize (.ofNat 3) = bucketize (.ofNat 4) := by
  have h3 : bucketize (.ofNat 3) = .ofNat 4 :=
    bucketize_eq (counts_ofNat (by norm_num)) (leastBucket_four (by norm_num) (by norm_num))
  have h4 : bucketize (.ofNat 4) = .ofNat 4 :=
    bucketize_eq (counts_ofNat (by norm_num)) (leastBucket_four (by norm_num) (by norm_num))
  exact h3.trans h4.symm

theorem sample_alike :
    Alike sampleObservation.metrics (sampleMetrics 4 [js "spam",js "spam",js "phishing"]) where
  envelopes_received := by
    simp only [sampleObservation,sampleMetrics]
    exact bucketize_three
  envelopes_rejected := rfl
  abuse_reports := rfl
  abuse_categories := by decide
  unique_senders_observed := rfl
  handshakes_completed := rfl
  handshakes_rejected := rfl

/-- Three and four envelopes are signed as one count. -/
theorem bucketing_hides_sample :
    (bucketize (.ofNat 3)).le (bucketize (.ofNat 4)) = true ∧
    signedBytes (js "k") {sampleObservation with
        metrics := sampleMetrics 4 [js "spam",js "spam",js "phishing"]} =
      signedBytes (js "k") sampleObservation :=
  ⟨(bucketing_hides Sample.crypto [] (js "k")).2.1 _ _ 3 4 (counts_ofNat (by norm_num))
    (counts_ofNat (by norm_num)) (by norm_num),
    ((bucketing_hides Sample.crypto [] (js "k")).2.2.2.2 sampleObservation _ sample_alike).1⟩

end Reputation
end Semp
