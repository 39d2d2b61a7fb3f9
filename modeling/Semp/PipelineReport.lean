import Semp.NumberOrder
import Semp.PipelineSafety

/-! What the results of the receive pipeline say about the inboxes.  The inbox of a recipient
should get one copy when a result for the recipient reports `delivered`, and none otherwise.
The list that the sender wrote may name an address twice, and the entry of a block list may
ask for `delivered`. -/
namespace Semp

namespace Inbox

theorem sameKey_symm {a b : Json} (h : sameKey a b = true) : sameKey b a = true := by
  cases a <;> cases b <;> simp_all [sameKey,strictEq,Number.eq_symm]

theorem sameKey_trans {a b c : Json} (h : sameKey a b = true) (h' : sameKey b c = true) :
    sameKey a c = true := by
  cases a <;> cases b <;> cases c <;> simp_all [sameKey,strictEq]
  exact Number.eq_trans h h'

end Inbox

/-- A list without repetition has one entry with `p` when it has one and no two. -/
theorem countP_eq_one {α : Type} {l : List α} (hl : l.Nodup) {p : α → Bool} :
    l.countP p = 1 ↔ (∃ a ∈ l, p a = true) ∧ ∀ a ∈ l, ∀ b ∈ l, p a = true → p b = true → a = b := by
  have hmem (a : α) : a ∈ l.filter p ↔ a ∈ l ∧ p a = true := List.mem_filter
  rw [List.countP_eq_length_filter]
  constructor
  · intro h
    obtain ⟨a,ha⟩ := List.length_eq_one_iff.mp h
    simp only [ha,List.mem_singleton] at hmem
    refine ⟨⟨a,(hmem a).mp rfl⟩,fun b hb c hc hpb hpc => ?_⟩
    rw [(hmem b).mpr ⟨hb,hpb⟩,(hmem c).mpr ⟨hc,hpc⟩]
  · rintro ⟨⟨a,ha,hpa⟩,hone⟩
    have hfilter : (l.filter p).Nodup := hl.filter p
    rcases hf : l.filter p with _ | ⟨b,_ | ⟨c,cs⟩⟩
    · have := (hmem a).mpr ⟨ha,hpa⟩
      simp [hf] at this
    · rfl
    · have hb := (hmem b).mp (by simp [hf])
      have hc := (hmem c).mp (by simp [hf])
      rw [hf,hone b hb.1 c hc.1 hb.2 hc.2] at hfilter
      simp at hfilter

namespace Pipeline
open Envelope

/-- Two recipients of one list have the same inbox: they are at one position, or their
values are one key.  An array or an object is a key of its own. -/
def sameInbox (i : ℕ) (r : Json) (j : ℕ) (r' : Json) : Bool := i == j || Inbox.sameKey r r'

theorem sameInbox_symm {i j : ℕ} {r r' : Json} (h : sameInbox i r j r' = true) :
    sameInbox j r' i r = true := by
  simp only [sameInbox,Bool.or_eq_true,beq_iff_eq] at h ⊢
  exact h.imp Eq.symm Inbox.sameKey_symm

theorem sameInbox_trans {rs : List Json} {i j k : ℕ} {r r' r'' : Json} (hi : rs[i]? = some r)
    (hj : rs[j]? = some r') (hk : rs[k]? = some r'') (h : sameInbox i r j r' = true)
    (h' : sameInbox j r' k r'' = true) : sameInbox i r k r'' = true := by
  simp only [sameInbox,Bool.or_eq_true,beq_iff_eq] at h h' ⊢
  rcases h with rfl | h
  · cases hi.symm.trans hj
    exact h'
  rcases h' with rfl | h'
  · cases hj.symm.trans hk
    exact .inr h
  · exact .inr (Inbox.sameKey_trans h h')

section Report
variable (lc : Locale) (p : Pipeline) (env : Env) (brief : Json)

/-- The recipient is local, and neither its policy nor its block list is against it. -/
def Admitted (i : ℕ) (r : Json) : Prop :=
  p.cfg.isLocal i r = .ok true ∧ p.gate i r = .ok .delivered ∧ p.blocked lc env brief i r = .ok none

/-- What is against a local recipient has the acknowledgment `delivered`.  A policy cannot
say so in the types of the source; the entry of a block list can. -/
def Excused (i : ℕ) (r : Json) : Prop :=
  p.cfg.isLocal i r = .ok true ∧
    ((∃ reasonCode reason, p.gate i r = .ok (.refused .delivered reasonCode reason)) ∨
      p.gate i r = .ok .delivered ∧
        ∃ e, p.blocked lc env brief i r = .ok (some e) ∧ e.acknowledgment = .delivered)

/-- No inbox is the one of two recipients that are admitted, and the inbox of a recipient
that is excused is the one of a recipient that is admitted. -/
structure ServedOnce (recipients : List Json) : Prop where
  once : ∀ i r j r', recipients[i]? = some r → recipients[j]? = some r' →
    Admitted lc p env brief i r → Admitted lc p env brief j r' → sameInbox i r j r' = true → i = j
  kept : ∀ i r, recipients[i]? = some r → Excused lc p env brief i r →
    ∃ j r', recipients[j]? = some r' ∧ Admitted lc p env brief j r' ∧ sameInbox i r j r' = true

end Report

/-- The number of copies that the inbox of a recipient was given. -/
def copies (stores : List Stored) (i : ℕ) (r : Json) : ℕ :=
  stores.countP fun s => sameInbox i r s.position s.recipient

/-- Some result for the recipient reports `delivered`. -/
def Reported (results : List SubmissionResult) (i : ℕ) (r : Json) : Prop :=
  ∃ j result, results[j]? = some result ∧ sameInbox i r j result.recipient = true ∧
    result.status = .delivered

/-- Every recipient of the brief gets one copy when it is reported, and otherwise none. -/
def ReportedMeansStored (recipients : List Json) (results : List SubmissionResult)
    (stores : List Stored) : Prop :=
  ∀ i r, recipients[i]? = some r → (Reported results i r → copies stores i r = 1) ∧
    (¬ Reported results i r → copies stores i r = 0)

section Deliver
variable {lc : Locale} {p : Pipeline} {env : Env} {brief : Json} {wire : Bytes}

theorem refusal_reports {i : ℕ} {r : Json} {result : SubmissionResult}
    (h : p.refusal lc env brief i r = .ok (some result)) :
    result.recipient = r ∧ (result.status = .delivered ↔ Excused lc p env brief i r) := by
  obtain ⟨isLocal,hlocal,h⟩ := bind_eq_ok.mp h
  cases isLocal with
  | false =>
    cases h
    exact ⟨rfl,nofun,fun he => by cases hlocal.symm.trans he.1⟩
  | true =>
    obtain ⟨verdict,hgate,h⟩ := bind_eq_ok.mp h
    cases verdict with
    | refused ack reasonCode reason =>
      cases h
      refine ⟨rfl,?_,?_⟩
      · rintro rfl
        exact ⟨hlocal,.inl ⟨_,_,hgate⟩⟩
      · rintro ⟨-,⟨_,_,hgate'⟩ | ⟨hgate',-⟩⟩
        · cases hgate.symm.trans hgate'
          rfl
        · cases hgate.symm.trans hgate'
    | delivered =>
      obtain ⟨_ | e,hblocked,h⟩ := bind_eq_ok.mp h
      · cases h
      · cases h
        refine ⟨rfl,fun hack => ⟨hlocal,.inr ⟨hgate,e,hblocked,hack⟩⟩,?_⟩
        rintro ⟨-,⟨_,_,hgate'⟩ | ⟨-,e',hblocked',hack⟩⟩
        · cases hgate.symm.trans hgate'
        · cases hblocked.symm.trans hblocked'
          exact hack

/-- A recipient that is admitted is stored to and reported, and any other leaves the inbox
and is reported when it is excused. -/
theorem deliverOne_reports (hinbox : p.cfg.inbox = true) {i : ℕ} {r : Json} {f f' : Fields}
    {result : SubmissionResult}
    (h : (p.deliverOne lc env brief wire i r).call f = (.ok result,f')) :
    result.recipient = r ∧
      (result.status = .delivered ↔ Admitted lc p env brief i r ∨ Excused lc p env brief i r) ∧
      (Admitted lc p env brief i r ∧ f'.stores = f.stores++[⟨i,r,wire⟩] ∨
        ¬ Admitted lc p env brief i r ∧ f'.stores = f.stores) := by
  have hadmitted : Admitted lc p env brief i r ↔ p.refusal lc env brief i r = .ok none :=
    refusal_eq_none.symm
  rw [deliverOne,Method.call_bind,Method.call_lift] at h
  rcases href : p.refusal lc env brief i r with e | _ | refused
  · rw [href] at h
    cases h
  · rw [hadmitted,href]
    rw [href] at h
    simp only [store,hinbox,if_true,Method.call_bind,Method.call_get,Method.call_lift] at h
    rcases hstore : f.inbox.store r wire with e | inbox
    · rw [hstore] at h
      cases h
    · rw [hstore] at h
      cases h
      exact ⟨rfl,iff_of_true rfl (.inl rfl),.inl ⟨rfl,rfl⟩⟩
  · rw [href] at h
    cases h
    obtain ⟨hr,hstatus⟩ := refusal_reports href
    rw [hadmitted,href]
    exact ⟨hr,by simp [hstatus],.inr ⟨fun hnone => (by cases hnone),rfl⟩⟩

/-- What the loop from position `i` on gives: a result for each recipient, and what it
stored, in the order of the recipients. -/
structure Reports (lc : Locale) (p : Pipeline) (env : Env) (brief : Json) (wire : Bytes) (i : ℕ)
    (recipients : List Json) (results : List SubmissionResult) (stored : List Stored) : Prop where
  addressees : results.map (·.recipient) = recipients
  status : ∀ n result, results[n]? = some result → (result.status = .delivered ↔
    Admitted lc p env brief (i+n) result.recipient ∨ Excused lc p env brief (i+n) result.recipient)
  sorted : stored.Pairwise fun s s' => s.position < s'.position
  stored : ∀ s, s ∈ stored ↔ ∃ n r, recipients[n]? = some r ∧ s = ⟨i+n,r,wire⟩ ∧
    Admitted lc p env brief (i+n) r

theorem Reports.first_le {i : ℕ} {recipients : List Json} {results : List SubmissionResult}
    {stored : List Stored} (h : Reports lc p env brief wire i recipients results stored) {s : Stored}
    (hs : s ∈ stored) : i ≤ s.position := by
  obtain ⟨n,r,-,rfl,-⟩ := (h.stored s).mp hs
  exact Nat.le_add_right i n

/-- What is stored for a list, from what is stored for its rest. -/
theorem stored_cons {i : ℕ} {r : Json} {recipients : List Json} {s : Stored} :
    (∃ n r', (r::recipients)[n]? = some r' ∧ s = ⟨i+n,r',wire⟩ ∧
        Admitted lc p env brief (i+n) r') ↔
      s = ⟨i,r,wire⟩ ∧ Admitted lc p env brief i r ∨
      ∃ n r', recipients[n]? = some r' ∧ s = ⟨i+1+n,r',wire⟩ ∧
        Admitted lc p env brief (i+1+n) r' := by
  have hshift (n : ℕ) : i+1+n = i+(n+1) := by omega
  constructor
  · rintro ⟨_ | n,r',hr,hs,ha⟩
    · cases hr
      exact .inl ⟨hs,ha⟩
    · refine .inr ⟨n,r',hr,?_,?_⟩
      · rw [hs,hshift]
      · rwa [hshift]
  · rintro (⟨hs,ha⟩ | ⟨n,r',hr,hs,ha⟩)
    · exact ⟨0,r,rfl,hs,ha⟩
    · rw [hshift] at hs ha
      exact ⟨n+1,r',hr,hs,ha⟩

theorem deliverAll_reports (hinbox : p.cfg.inbox = true) {i : ℕ} {recipients : List Json}
    {f f' : Fields} {results : List SubmissionResult}
    (h : (p.deliverAll lc env brief wire i recipients).call f = (.ok results,f')) :
    ∃ stored, f'.stores = f.stores++stored ∧
      Reports lc p env brief wire i recipients results stored := by
  induction recipients generalizing i f results with
  | nil =>
    cases h
    exact ⟨[],(List.append_nil _).symm,rfl,nofun,.nil,by simp⟩
  | cons r recipients ih =>
    rw [deliverAll,Method.call_bind] at h
    rcases hone : (p.deliverOne lc env brief wire i r).call f with ⟨e | result,f₁⟩
    · rw [hone] at h
      cases h
    rw [hone] at h
    simp only [Method.call_bind] at h
    rcases hrest : (p.deliverAll lc env brief wire (i+1) recipients).call f₁ with
      ⟨e | results',f₂⟩
    · rw [hrest] at h
      cases h
    rw [hrest] at h
    cases h
    obtain ⟨rfl,hstatus,hstored⟩ := deliverOne_reports hinbox hone
    obtain ⟨stored,hstores,hreports⟩ := ih hrest
    have hstatuses : ∀ n result', (result::results')[n]? = some result' →
        (result'.status = .delivered ↔ Admitted lc p env brief (i+n) result'.recipient ∨
          Excused lc p env brief (i+n) result'.recipient) := by
      rintro (_ | n) result' hr
      · cases hr
        exact hstatus
      · rw [show i+(n+1) = i+1+n by omega]
        exact hreports.status n result' hr
    rcases hstored with ⟨ha,hf⟩ | ⟨hna,hf⟩
    · refine ⟨⟨i,result.recipient,wire⟩::stored,by rw [hstores,hf]; simp,{
        addressees := by rw [List.map_cons,hreports.addressees]
        status := hstatuses
        sorted := .cons (fun s hs => hreports.first_le hs) hreports.sorted
        stored := fun s => ?_ }⟩
      rw [stored_cons,List.mem_cons,hreports.stored s]
      simp [ha]
    · refine ⟨stored,by rw [hstores,hf],{
        addressees := by rw [List.map_cons,hreports.addressees]
        status := hstatuses
        sorted := hreports.sorted
        stored := fun s => ?_ }⟩
      rw [stored_cons,hreports.stored s]
      simp [hna]

/-- A loop over the whole list reports what it stored exactly when it served each inbox
once. -/
theorem Reports.meansStored_iff {recipients : List Json} {results : List SubmissionResult}
    {stored : List Stored} (h : Reports lc p env brief wire 0 recipients results stored) :
    ReportedMeansStored recipients results stored ↔ ServedOnce lc p env brief recipients := by
  have hnodup : stored.Nodup := h.sorted.imp fun hlt heq => by
    rw [heq] at hlt
    exact lt_irrefl _ hlt
  have hmem (s : Stored) : s ∈ stored ↔ ∃ n r, recipients[n]? = some r ∧ s = ⟨n,r,wire⟩ ∧
      Admitted lc p env brief n r := by simpa only [Nat.zero_add] using h.stored s
  have hreported (i : ℕ) (r : Json) : Reported results i r ↔ ∃ j r', recipients[j]? = some r' ∧
      sameInbox i r j r' = true ∧
      (Admitted lc p env brief j r' ∨ Excused lc p env brief j r') := by
    rw [← h.addressees]
    constructor
    · rintro ⟨j,result,hj,hsame,hstatus⟩
      have hwhy := (h.status j result hj).mp hstatus
      rw [Nat.zero_add] at hwhy
      exact ⟨j,result.recipient,by rw [List.getElem?_map,hj]; rfl,hsame,hwhy⟩
    · rintro ⟨j,r',hj,hsame,hwhy⟩
      obtain ⟨result,hresult,rfl⟩ : ∃ result, results[j]? = some result ∧ result.recipient = r' := by
        simpa [List.getElem?_map] using hj
      refine ⟨j,result,hresult,hsame,(h.status j result hresult).mpr ?_⟩
      rwa [Nat.zero_add]
  constructor
  · intro hall
    refine ⟨fun i r j r' hi hj hai haj hsame => ?_,fun i r hi hexcused => ?_⟩
    · have hone := (hall i r hi).1 ((hreported i r).mpr ⟨i,r,hi,by simp [sameInbox],.inl hai⟩)
      have heq := ((countP_eq_one hnodup).mp hone).2 ⟨i,r,wire⟩ ((hmem _).mpr ⟨i,r,hi,rfl,hai⟩)
        ⟨j,r',wire⟩ ((hmem _).mpr ⟨j,r',hj,rfl,haj⟩) (by simp [sameInbox]) hsame
      cases heq
      rfl
    · have hone := (hall i r hi).1 ((hreported i r).mpr ⟨i,r,hi,by simp [sameInbox],.inr hexcused⟩)
      obtain ⟨s,hs,hsame⟩ := ((countP_eq_one hnodup).mp hone).1
      obtain ⟨j,r',hj,rfl,haj⟩ := (hmem s).mp hs
      exact ⟨j,r',hj,haj,hsame⟩
  · intro hserved i r hi
    constructor
    · intro hr
      obtain ⟨j,r',hj,hsame,hwhy⟩ := (hreported i r).mp hr
      obtain ⟨k,r'',hk,hak,hsame'⟩ : ∃ k r'', recipients[k]? = some r'' ∧
          Admitted lc p env brief k r'' ∧ sameInbox i r k r'' = true := by
        rcases hwhy with ha | he
        · exact ⟨j,r',hj,ha,hsame⟩
        · obtain ⟨k,r'',hk,hak,hsame'⟩ := hserved.kept j r' hj he
          exact ⟨k,r'',hk,hak,sameInbox_trans hi hj hk hsame hsame'⟩
      refine (countP_eq_one hnodup).mpr ⟨⟨⟨k,r'',wire⟩,(hmem _).mpr ⟨k,r'',hk,rfl,hak⟩,hsame'⟩,?_⟩
      intro a ha b hb hpa hpb
      obtain ⟨m,rm,hm,rfl,ham⟩ := (hmem a).mp ha
      obtain ⟨n,rn,hn,rfl,han⟩ := (hmem b).mp hb
      obtain rfl := hserved.once m rm n rn hm hn ham han
        (sameInbox_trans hm hi hn (sameInbox_symm hpa) hpb)
      cases hm.symm.trans hn
      rfl
    · intro hr
      rw [copies,List.countP_eq_zero]
      intro s hs hsame
      obtain ⟨j,r',hj,rfl,haj⟩ := (hmem s).mp hs
      exact hr ((hreported i r).mpr ⟨j,r',hj,hsame,.inl haj⟩)

end Deliver

section Run
variable {C : Crypto} {lc : Locale} {rt : Runtime} {p : Pipeline} {env : Env} {inbox : Inbox}

theorem run_reports (hinbox : p.cfg.inbox = true) {result : PipelineResult} {f : Fields}
    (h : p.run C lc rt env inbox = (.ok result,f)) {brief : Json} {recipients : List Json}
    (hs : (p.screen C lc rt env).run = .ok (.ok brief)) (hrs : Recipients brief recipients) :
    Reports lc p env brief (encodeEnvelope env) 0 recipients result.results f.stores := by
  rw [run,process,Method.call_bind,Method.call_lift,hs] at h
  simp only at h
  rw [deliver_recipients hrs] at h
  rcases hall : (p.deliverAll lc env brief (encodeEnvelope env) 0 recipients).call ⟨inbox,[]⟩ with
    ⟨e | results,f'⟩
  · rw [hall] at h
    cases h
  · rw [hall] at h
    cases h
    obtain ⟨stored,hstores,hreports⟩ := deliverAll_reports hinbox hall
    rw [List.nil_append] at hstores
    exact hstores ▸ hreports

/-- A call that returns reports what it stored exactly when it served each inbox once. -/
theorem reportedMeansStored_iff (hinbox : p.cfg.inbox = true) {result : PipelineResult} {f : Fields}
    (h : p.run C lc rt env inbox = (.ok result,f)) :
    (∀ brief recipients, (p.screen C lc rt env).run = .ok (.ok brief) →
      Recipients brief recipients → ReportedMeansStored recipients result.results f.stores) ↔
    ∀ brief recipients, (p.screen C lc rt env).run = .ok (.ok brief) →
      Recipients brief recipients → ServedOnce lc p env brief recipients := by
  constructor
  · exact fun hall brief recipients hs hrs =>
      (run_reports hinbox h hs hrs).meansStored_iff.mp (hall brief recipients hs hrs)
  · exact fun hall brief recipients hs hrs =>
      (run_reports hinbox h hs hrs).meansStored_iff.mpr (hall brief recipients hs hrs)

end Run

section Sample
variable {env : Env} {brief : Json} {recipients : List Json} {entries : List BlockEntry}

/-- With hooks that do not throw and a brief without a sender a call returns. -/
theorem sample_returns
    (hs : ((samplePipeline entries).screen Sample.crypto sampleLocale Sample.runtime env).run =
      .ok (.ok brief)) (hrs : Recipients brief recipients) (hread : SenderReadable brief)
    (hne : ∀ r ∈ recipients, r ≠ .str []) : ∃ result f, (samplePipeline entries).run Sample.crypto
      sampleLocale Sample.runtime env (Inbox.new 0) = (.ok result,f) := by
  have hquiet := samplePipeline_quiet entries
  obtain ⟨ms,addresses,copied,rfl,hto,rfl,hcc⟩ := id hrs
  have hreturns : ∃ result, ((samplePipeline entries).run Sample.crypto sampleLocale Sample.runtime
      env (Inbox.new 0)).1 = .ok result := by
    refine (run_returns ⟨_,hs⟩).mpr fun brief' hs' => ?_
    cases hs.symm.trans hs'
    refine ⟨⟨nofun,fun _ _ _ _ => ⟨_,hrs⟩⟩,fun recipients' hrs' i r hr => ?_⟩
    obtain rfl := recipients_unique hrs hrs'
    rw [hquiet.throws_iff,not_not]
    exact fun _ _ => ⟨fun _ => hread,fun _ h => absurd h (hne r (List.mem_of_getElem? hr))⟩
  obtain ⟨result,hresult⟩ := hreturns
  exact ⟨result,_,Prod.ext hresult rfl⟩

theorem senderReadable_of_none {ms : Members} (h : lookup ms (js "from") = none) :
    SenderReadable (.obj ms) := by
  intro ms' v heq hv
  cases heq
  cases h.symm.trans hv

/-- A list with one recipient that is admitted is served once. -/
theorem servedOnce_sample : ServedOnce sampleLocale (samplePipeline []) env plainBrief
    [.str (js "r@b")] where
  once := by
    rintro (_ | i) r (_ | j) r' hi hj - - -
    · rfl
    · cases hj
    · cases hi
    · cases hi
  kept := by
    rintro i r - ⟨-,⟨_,_,hgate⟩ | ⟨-,e,hblocked,-⟩⟩
    · cases hgate
    · cases hblocked

/-- A plain envelope is in the inbox of the recipient that is reported. -/
theorem reportedMeansStored_sample : ∃ env result f, (samplePipeline []).run Sample.crypto
    sampleLocale Sample.runtime env (Inbox.new 0) = (.ok result,f) ∧
      ReportedMeansStored [.str (js "r@b")] result.results f.stores := by
  obtain ⟨env,-,hs⟩ := sample_plain
  obtain ⟨result,f,h⟩ := sample_returns (hs []) plainBrief_recipients (senderReadable_of_none rfl)
    (by simpa using sampleAddress_ne)
  refine ⟨env,result,f,h,(reportedMeansStored_iff rfl h).mpr ?_ plainBrief _ (hs [])
    plainBrief_recipients⟩
  intro brief recipients hs' hrs'
  cases (hs []).symm.trans hs'
  obtain rfl := recipients_unique plainBrief_recipients hrs'
  exact servedOnce_sample

/-- The address is in `to` and in `cc`. -/
def repeatedBrief : Json :=
  .obj [(js "cc",.arr [.str (js "r@b")]),(js "to",.arr [.str (js "r@b")])]

/-- An entry that blocks the domain of the sender, to be acknowledged as delivered. -/
def excusingBlock : BlockEntry := { sampleBlock with acknowledgment := .delivered }

/-- An address in `to` and in `cc` gets two copies; one whose block list excuses the sender
gets none, and is reported. -/
theorem not_reportedMeansStored :
    (∃ env result f, (samplePipeline []).run Sample.crypto sampleLocale Sample.runtime env
        (Inbox.new 0) = (.ok result,f) ∧ Recipients repeatedBrief [.str (js "r@b"),.str (js "r@b")] ∧
      ((samplePipeline []).screen Sample.crypto sampleLocale Sample.runtime env).run =
        .ok (.ok repeatedBrief) ∧
      ¬ ReportedMeansStored [.str (js "r@b"),.str (js "r@b")] result.results f.stores) ∧
    ∃ env result f, (samplePipeline [excusingBlock]).run Sample.crypto sampleLocale Sample.runtime env
        (Inbox.new 0) = (.ok result,f) ∧ Recipients plainBrief [.str (js "r@b")] ∧
      ((samplePipeline [excusingBlock]).screen Sample.crypto sampleLocale Sample.runtime env).run =
        .ok (.ok plainBrief) ∧
      ¬ ReportedMeansStored [.str (js "r@b")] result.results f.stores := by
  constructor
  · have hwf : repeatedBrief.WF :=
      Json.wf_of_keys [js "cc",js "to"] rfl (by decide) (by simp [Json.WF])
    have hfin : repeatedBrief.Finite := by simp [repeatedBrief,Json.Finite]
    obtain ⟨env,-,hs⟩ := sample_screen hwf hfin
    have hsame : repeatedBrief.norm.reparse = repeatedBrief := rfl
    rw [hsame] at hs
    have hrs : Recipients repeatedBrief [.str (js "r@b"),.str (js "r@b")] :=
      ⟨_,[.str (js "r@b")],[.str (js "r@b")],rfl,rfl,rfl,rfl⟩
    obtain ⟨result,f,h⟩ := sample_returns (hs []) hrs (senderReadable_of_none rfl)
      (by simpa using sampleAddress_ne)
    refine ⟨env,result,f,h,hrs,hs [],fun hall => ?_⟩
    have hserved := (run_reports rfl h (hs []) hrs).meansStored_iff.mp hall
    exact absurd (hserved.once 0 _ 1 _ rfl rfl ⟨rfl,rfl,rfl⟩ ⟨rfl,rfl,rfl⟩ rfl) (by decide)
  · obtain ⟨env,hdomain,hs⟩ := sample_plain
    obtain ⟨result,f,h⟩ := sample_returns (hs [excusingBlock]) plainBrief_recipients
      (senderReadable_of_none rfl) (by simpa using sampleAddress_ne)
    refine ⟨env,result,f,h,plainBrief_recipients,hs [excusingBlock],fun hall => ?_⟩
    have hserved := (run_reports rfl h (hs [excusingBlock]) plainBrief_recipients).meansStored_iff.mp
      hall
    have hblocked : (samplePipeline [excusingBlock]).blocked sampleLocale env plainBrief 0
        (.str (js "r@b")) = .ok (some excusingBlock) := by
      have hsender : blockListSender env plainBrief = .ok ⟨some [],some (js "a"),none,none⟩ := by
        rw [← hdomain]
        rfl
      simp only [blocked,samplePipeline,hsender,ok_bind]
      exact congrArg _ (by decide)
    obtain ⟨j,r,hj,ha,-⟩ := hserved.kept 0 _ rfl ⟨rfl,.inr ⟨rfl,excusingBlock,hblocked,rfl⟩⟩
    have hzero : j = 0 ∧ r = .str (js "r@b") := by
      rcases j with _ | j
      · cases hj
        exact ⟨rfl,rfl⟩
      · cases hj
    rw [hzero.1,hzero.2] at ha
    cases hblocked.symm.trans ha.2.2

end Sample
end Pipeline
end Semp
