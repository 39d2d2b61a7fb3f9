import Semp.Pipeline

/-! What a run of the receive pipeline stores, and when it throws.  The results for one
recipient depend on the envelope, its brief and the hooks alone, so a run is described by
the recipients that are stored to and the recipients that throw. -/
namespace Semp
namespace Pipeline
open Envelope

/-- The recipients of a brief: the entries of `to`, then the ones of `cc`.  A text counts as
the list of its code points. -/
def Recipients (brief : Json) (recipients : List Json) : Prop :=
  ∃ ms addresses copies, brief = .obj ms ∧ lookup ms (js "to") = some (.arr addresses) ∧
    recipients = addresses++copies ∧
    match lookup ms (js "cc") with
    | none | some .null => copies = []
    | some (.arr vs) => copies = vs
    | some (.str s) => copies = (codePoints s).map .str
    | some _ => False

theorem recipients_unique {brief : Json} {rs rs' : List Json} (h : Recipients brief rs)
    (h' : Recipients brief rs') : rs = rs' := by
  obtain ⟨ms,addresses,copies,rfl,hto,rfl,hcc⟩ := h
  obtain ⟨ms',addresses',copies',heq,hto',rfl,hcc'⟩ := h'
  cases heq
  cases hto.symm.trans hto'
  split at hcc <;> simp_all

section Code
variable (lc : Locale) (p : Pipeline) (env : Env) (brief : Json)

def Stores (i : ℕ) (recipient : Json) : Prop :=
  p.refusal lc env brief i recipient = .ok none ∧ p.cfg.inbox = true ∧ recipient ≠ .str []

def Throws (i : ℕ) (recipient : Json) : Prop :=
  (∃ e, p.refusal lc env brief i recipient = .error e) ∨
    p.refusal lc env brief i recipient = .ok none ∧ p.cfg.inbox = true ∧ recipient = .str []

end Code

section Deliver
variable {lc : Locale} {p : Pipeline} {env : Env} {brief : Json} {wire : Bytes}

theorem inbox_store_ok (inbox : Inbox) {address : Json} (h : address ≠ .str []) (payload : Bytes) :
    ∃ inbox', inbox.store address payload = .ok inbox' := by
  have hne : isStr (some address) [] = false := by
    rw [← Bool.not_eq_true,isStr_iff]
    simpa using h
  rw [Inbox.store,if_neg (by simp [hne])]
  split
  · exact ⟨_,rfl⟩
  · exact ⟨_,rfl⟩

/-- A recipient throws and nothing is stored, or it gets a result; then it is stored to or
the inbox stays. -/
theorem deliverOne_cases (lc : Locale) (p : Pipeline) (env : Env) (brief : Json) (wire : Bytes)
    (i : ℕ) (recipient : Json) (f : Fields) :
    (Throws lc p env brief i recipient ∧ ¬ Stores lc p env brief i recipient ∧
      ∃ e, (p.deliverOne lc env brief wire i recipient).call f = (.error e,f)) ∨
    (¬ Throws lc p env brief i recipient ∧ ¬ Stores lc p env brief i recipient ∧
      ∃ result, (p.deliverOne lc env brief wire i recipient).call f = (.ok result,f)) ∨
    (¬ Throws lc p env brief i recipient ∧ Stores lc p env brief i recipient ∧
      ∃ result inbox, f.inbox.store recipient wire = .ok inbox ∧
        (p.deliverOne lc env brief wire i recipient).call f =
          (.ok result,⟨inbox,f.stores++[⟨i,recipient,wire⟩]⟩)) := by
  rw [deliverOne,Method.call_bind,Method.call_lift]
  rcases href : p.refusal lc env brief i recipient with e | _ | result
  · exact .inl ⟨.inl ⟨e,href⟩,by simp [Stores,href],e,rfl⟩
  · cases hinbox : p.cfg.inbox with
    | false =>
      refine .inr (.inl ⟨by simp [Throws,href,hinbox],by simp [Stores,hinbox],
        ⟨recipient,.delivered,none,none⟩,?_⟩)
      simp only [store,hinbox]
      rfl
    | true =>
      by_cases hr : recipient = .str []
      · subst hr
        refine .inl ⟨.inr ⟨href,hinbox,rfl⟩,by simp [Stores],
          .error (js "delivery: inbox.store empty address"),?_⟩
        simp only [store,hinbox]
        rfl
      · obtain ⟨inbox,hstore⟩ := inbox_store_ok f.inbox hr wire
        refine .inr (.inr ⟨by simp [Throws,href,hr],⟨href,hinbox,hr⟩,
          ⟨recipient,.delivered,none,none⟩,inbox,hstore,?_⟩)
        simp only [store,hinbox,if_true,Method.call_bind,Method.call_get,Method.call_lift,hstore]
        rfl
  · exact .inr (.inl ⟨by simp [Throws,href],by simp [Stores,href],result,rfl⟩)

/-- What the loop writes is what storing each payload in turn makes of the inbox. -/
theorem deliverAll_written (lc : Locale) (p : Pipeline) (env : Env) (brief : Json) (wire : Bytes)
    (i : ℕ) (recipients : List Json) (f : Fields) :
    ∃ stored : List Stored,
      ((p.deliverAll lc env brief wire i recipients).call f).2.stores = f.stores++stored ∧
      stored.foldlM (fun inbox s => inbox.store s.recipient s.payload) f.inbox =
        .ok ((p.deliverAll lc env brief wire i recipients).call f).2.inbox := by
  induction recipients generalizing i f with
  | nil => exact ⟨[],(List.append_nil _).symm,rfl⟩
  | cons recipient recipients ih =>
    rw [deliverAll,Method.call_bind]
    rcases deliverOne_cases lc p env brief wire i recipient f with
      ⟨-,-,e,hc⟩ | ⟨-,-,result,hc⟩ | ⟨-,-,result,inbox,hstore,hc⟩
    · exact ⟨[],by rw [hc,List.append_nil],by rw [hc]; rfl⟩
    · rw [hc]
      simpa [Method.call_map] using ih (i+1) f
    · obtain ⟨stored,hs,hfold⟩ := ih (i+1) ⟨inbox,f.stores++[⟨i,recipient,wire⟩]⟩
      rw [hc]
      refine ⟨⟨i,recipient,wire⟩::stored,?_,?_⟩
      · simpa [Method.call_map] using hs
      · rw [List.foldlM_cons,hstore]
        simpa [Method.call_map] using hfold

theorem forall_positions_cons {P : ℕ → Json → Prop} {i : ℕ} {recipient : Json}
    {recipients : List Json} :
    (∀ n r, (recipient::recipients)[n]? = some r → P (i+n) r) ↔
      P i recipient ∧ ∀ n r, recipients[n]? = some r → P (i+1+n) r := by
  constructor
  · intro h
    refine ⟨h 0 recipient rfl,fun n r hr => ?_⟩
    rw [Nat.add_assoc,Nat.add_comm 1]
    exact h (n+1) r hr
  · rintro ⟨h,hs⟩ n r hr
    cases n with
    | zero => exact Option.some.inj hr ▸ h
    | succ n =>
      rw [Nat.add_comm n,← Nat.add_assoc]
      exact hs n r hr

/-- The loop from position `i` on stores `s`: no recipient before it throws. -/
def StoredFrom (lc : Locale) (p : Pipeline) (env : Env) (brief : Json) (wire : Bytes) (i : ℕ)
    (recipients : List Json) (s : Stored) : Prop :=
  ∃ n recipient, recipients[n]? = some recipient ∧ s = ⟨i+n,recipient,wire⟩ ∧
    Stores lc p env brief (i+n) recipient ∧
    ∀ m < n, ∀ r, recipients[m]? = some r → ¬ Throws lc p env brief (i+m) r

theorem storedFrom_cons {i : ℕ} {recipient : Json} {recipients : List Json} {s : Stored} :
    StoredFrom lc p env brief wire i (recipient::recipients) s ↔
      s = ⟨i,recipient,wire⟩ ∧ Stores lc p env brief i recipient ∨
      ¬ Throws lc p env brief i recipient ∧
        StoredFrom lc p env brief wire (i+1) recipients s := by
  constructor
  · rintro ⟨_ | n,r,hr,rfl,hstores,hbefore⟩
    · obtain rfl := Option.some.inj hr
      exact .inl ⟨rfl,hstores⟩
    · have hshift : i+(n+1) = i+1+n := by omega
      refine .inr ⟨hbefore 0 (by omega) recipient rfl,n,r,hr,by rw [hshift],by rwa [← hshift],?_⟩
      intro m hm r' hr'
      have := hbefore (m+1) (by omega) r' hr'
      rwa [show i+1+m = i+(m+1) by omega]
  · rintro (⟨rfl,hstores⟩ | ⟨hfirst,n,r,hr,rfl,hstores,hbefore⟩)
    · exact ⟨0,recipient,rfl,rfl,hstores,by omega⟩
    · have hshift : i+(n+1) = i+1+n := by omega
      refine ⟨n+1,r,hr,by rw [hshift],by rwa [hshift],?_⟩
      rintro (_ | m) hm r' hr'
      · exact Option.some.inj hr' ▸ hfirst
      · rw [show i+(m+1) = i+1+m by omega]
        exact hbefore m (by omega) r' hr'

/-- The loop stores to the recipients before the first one that throws. -/
theorem mem_stores_deliverAll (i : ℕ) (recipients : List Json) (f : Fields) (s : Stored) :
    s ∈ ((p.deliverAll lc env brief wire i recipients).call f).2.stores ↔
      s ∈ f.stores ∨ StoredFrom lc p env brief wire i recipients s := by
  induction recipients generalizing i f with
  | nil => simp [deliverAll,StoredFrom]
  | cons recipient recipients ih =>
    rw [deliverAll,Method.call_bind,storedFrom_cons]
    rcases deliverOne_cases lc p env brief wire i recipient f with
      ⟨hthrows,hstores,e,hc⟩ | ⟨hthrows,hstores,result,hc⟩ | ⟨hthrows,hstores,result,inbox,-,hc⟩
    · simp [hc,hthrows,hstores]
    · simp [hc,hthrows,hstores,Method.call_map,ih]
    · simp [hc,hthrows,hstores,Method.call_map,ih,or_assoc]

/-- The loop returns when no recipient throws. -/
theorem deliverAll_ok (wire : Bytes) (i : ℕ) (recipients : List Json) (f : Fields) :
    (∃ results, ((p.deliverAll lc env brief wire i recipients).call f).1 = .ok results) ↔
      ∀ n r, recipients[n]? = some r → ¬ Throws lc p env brief (i+n) r := by
  induction recipients generalizing i f with
  | nil => simp [deliverAll]
  | cons recipient recipients ih =>
    have hgo (f' : Fields) (result : SubmissionResult) :
        (∃ results, ((do
            let results ← p.deliverAll lc env brief wire (i+1) recipients
            return result::results).call f').1 = .ok results) ↔
          ∃ results, ((p.deliverAll lc env brief wire (i+1) recipients).call f').1 =
            .ok results := by
      rw [Method.call_bind]
      rcases (p.deliverAll lc env brief wire (i+1) recipients).call f' with ⟨_ | _,_⟩ <;> simp
    rw [deliverAll,Method.call_bind,forall_positions_cons (P := fun i r =>
      ¬ Throws lc p env brief i r)]
    rcases deliverOne_cases lc p env brief wire i recipient f with
      ⟨hthrows,-,e,hc⟩ | ⟨hthrows,-,result,hc⟩ | ⟨hthrows,-,result,inbox,-,hc⟩
    · simp [hc,hthrows]
    · rw [hc,hgo,ih,and_iff_right hthrows]
    · rw [hc,hgo,ih,and_iff_right hthrows]

theorem deliver_recipients {recipients : List Json} (h : Recipients brief recipients)
    (f : Fields) : (p.deliver lc env brief).call f =
      (((p.deliverAll lc env brief (encodeEnvelope env) 0 recipients).call f).1.map
        fun results => ⟨env.postmark.id,some brief,results,none⟩,
        ((p.deliverAll lc env brief (encodeEnvelope env) 0 recipients).call f).2) := by
  obtain ⟨ms,addresses,copies,rfl,hto,rfl,hcc⟩ := h
  have hrecipients : recipientsOf (.obj ms) addresses = .ok (addresses++copies) := by
    rw [recipientsOf,getProp_obj,ok_bind]
    rcases hlookup : lookup ms (js "cc") with _ | (_ | _ | _ | _ | _ | _) <;> rw [hlookup] at hcc
    all_goals first | exact hcc.elim | (rw [hcc]; rfl)
  rw [deliver,getProp_obj,hto,Method.call_bind,Method.call_lift]
  simp only
  rw [hrecipients,Method.call_bind,Method.call_lift]
  simp only
  rw [Method.call_bind]
  rcases (p.deliverAll lc env (.obj ms) (encodeEnvelope env) 0 (addresses++copies)).call f with
    ⟨_ | _,_⟩ <;> rfl

/-- A brief whose recipients can be read: it is not `null`, and next to an array `to` there
is nothing in `cc` that cannot be spread. -/
def Readable (brief : Json) : Prop :=
  brief ≠ .null ∧ ∀ ms addresses, brief = .obj ms → lookup ms (js "to") = some (.arr addresses) →
    ∃ recipients, Recipients brief recipients

/-- Without recipients nothing is written, and the call returns for a readable brief. -/
theorem deliver_otherwise (h : ¬ ∃ recipients, Recipients brief recipients) (f : Fields) :
    ((p.deliver lc env brief).call f).2 = f ∧
      ((∃ result, ((p.deliver lc env brief).call f).1 = .ok result) ↔ Readable brief) := by
  rw [deliver,Method.call_bind,Method.call_lift]
  cases brief with
  | null => exact ⟨rfl,by simp [getProp,raiseType,Readable]⟩
  | obj ms =>
    rw [getProp_obj]
    by_cases hto : ∃ addresses, lookup ms (js "to") = some (.arr addresses)
    · obtain ⟨addresses,hto⟩ := hto
      have hthrows : recipientsOf (.obj ms) addresses = raiseType := by
        rw [recipientsOf,getProp_obj,ok_bind]
        rcases hcc : lookup ms (js "cc") with _ | (_ | _ | _ | s | vs | _)
        · exact absurd ⟨_,ms,addresses,[],rfl,hto,rfl,by rw [hcc]⟩ h
        · exact absurd ⟨_,ms,addresses,[],rfl,hto,rfl,by rw [hcc]⟩ h
        · rfl
        · rfl
        · exact absurd ⟨_,ms,addresses,(codePoints s).map .str,rfl,hto,rfl,by rw [hcc]⟩ h
        · exact absurd ⟨_,ms,addresses,vs,rfl,hto,rfl,by rw [hcc]⟩ h
        · rfl
      have hnot : ¬ Readable (.obj ms) := fun hr => h (hr.2 ms addresses rfl hto)
      simp only [hto,hthrows,hnot,iff_false]
      exact ⟨rfl,by rintro ⟨_,hr⟩; cases hr⟩
    · have hreadable : Readable (.obj ms) := by
        refine ⟨fun hnull => (by cases hnull),fun ms' addresses heq hto' => absurd ⟨addresses,?_⟩ hto⟩
        rwa [← Json.obj.inj heq] at hto'
      simp only [hreadable,iff_true]
      split
      · next addresses heq => exact absurd ⟨addresses,heq⟩ hto
      · exact ⟨rfl,_,rfl⟩
  | _ =>
    have hreadable : ∀ v : Json, v ≠ .null → (∀ ms, v ≠ .obj ms) → Readable v :=
      fun v hnull hobj => ⟨hnull,fun ms _ heq => absurd heq (hobj ms)⟩
    exact ⟨rfl,fun _ => hreadable _ (fun hnull => by cases hnull) (fun _ hobj => by cases hobj),
      fun _ => ⟨_,rfl⟩⟩

end Deliver

section Run
variable {C : Crypto} {lc : Locale} {rt : Runtime} {p : Pipeline} {env : Env} {brief : Json}

/-- A run throws or rejects before the brief is open, or goes on with the brief. -/
theorem run_cases (C : Crypto) (lc : Locale) (rt : Runtime) (p : Pipeline) (env : Env)
    (inbox : Inbox) :
    (∃ e, (p.screen C lc rt env).run = .error e ∧
      p.run C lc rt env inbox = (.error e,⟨inbox,[]⟩)) ∨
    (∃ rejection, (p.screen C lc rt env).run = .ok (.error rejection) ∧
      p.run C lc rt env inbox = (.ok ⟨env.postmark.id,none,[],some rejection⟩,⟨inbox,[]⟩)) ∨
    ∃ brief, (p.screen C lc rt env).run = .ok (.ok brief) ∧
      p.run C lc rt env inbox = (p.deliver lc env brief).call ⟨inbox,[]⟩ := by
  rw [run,process]
  rcases hs : (p.screen C lc rt env).run with e | rejection | brief
  · exact .inl ⟨e,rfl,rfl⟩
  · exact .inr (.inl ⟨rejection,rfl,rfl⟩)
  · exact .inr (.inr ⟨brief,rfl,rfl⟩)

/-- What a run stores, and in whose inbox. -/
theorem mem_stores_run {inbox : Inbox} {s : Stored} :
    s ∈ (p.run C lc rt env inbox).2.stores ↔
      ∃ brief recipients, (p.screen C lc rt env).run = .ok (.ok brief) ∧
        Recipients brief recipients ∧
        StoredFrom lc p env brief (encodeEnvelope env) 0 recipients s := by
  rcases run_cases C lc rt p env inbox with ⟨e,hs,hrun⟩ | ⟨rejection,hs,hrun⟩ | ⟨brief,hs,hrun⟩
  · simp [hrun,hs]
  · simp [hrun,hs]
  rw [hrun,hs]
  by_cases hr : ∃ recipients, Recipients brief recipients
  · obtain ⟨recipients,hr⟩ := hr
    rw [deliver_recipients hr,mem_stores_deliverAll]
    constructor
    · rintro (hs | hs)
      · cases hs
      · exact ⟨brief,recipients,rfl,hr,hs⟩
    · rintro ⟨brief',recipients',hb,hr',hs⟩
      cases hb
      exact .inr (recipients_unique hr hr' ▸ hs)
  · rw [(deliver_otherwise hr _).1]
    constructor
    · nofun
    · rintro ⟨brief',recipients,hb,hr',-⟩
      cases hb
      exact absurd ⟨recipients,hr'⟩ hr

theorem run_written (inbox : Inbox) :
    (p.run C lc rt env inbox).2.stores.foldlM (fun inbox s => inbox.store s.recipient s.payload)
      inbox = .ok (p.run C lc rt env inbox).2.inbox := by
  rcases run_cases C lc rt p env inbox with ⟨e,hs,hrun⟩ | ⟨rejection,hs,hrun⟩ | ⟨brief,hs,hrun⟩
  · rw [hrun]
    rfl
  · rw [hrun]
    rfl
  rw [hrun]
  by_cases hr : ∃ recipients, Recipients brief recipients
  · obtain ⟨recipients,hr⟩ := hr
    obtain ⟨stored,hstores,hfold⟩ := deliverAll_written lc p env brief (encodeEnvelope env) 0
      recipients ⟨inbox,[]⟩
    rw [deliver_recipients hr,hstores]
    exact hfold
  · rw [(deliver_otherwise hr _).1]
    rfl

theorem run_rejected {inbox : Inbox} {result : PipelineResult}
    (h : (p.run C lc rt env inbox).1 = .ok result) (hrej : result.rejection ≠ none) :
    (p.run C lc rt env inbox).2 = ⟨inbox,[]⟩ := by
  rcases run_cases C lc rt p env inbox with ⟨e,hs,hrun⟩ | ⟨rejection,hs,hrun⟩ | ⟨brief,hs,hrun⟩
  · rw [hrun]
  · rw [hrun]
  by_cases hr : ∃ recipients, Recipients brief recipients
  · obtain ⟨recipients,hr⟩ := hr
    rw [hrun,deliver_recipients hr] at h
    cases hd : ((p.deliverAll lc env brief (encodeEnvelope env) 0 recipients).call ⟨inbox,[]⟩).1 with
    | error e =>
      rw [hd] at h
      cases h
    | ok results =>
      rw [hd] at h
      cases h
      exact absurd rfl hrej
  · rw [hrun,(deliver_otherwise hr _).1]

/-- A run whose screening answers returns when the brief can be read and no recipient
throws. -/
theorem run_returns {inbox : Inbox} (hs : ∃ r, (p.screen C lc rt env).run = .ok r) :
    (∃ result, (p.run C lc rt env inbox).1 = .ok result) ↔
      ∀ brief, (p.screen C lc rt env).run = .ok (.ok brief) → Readable brief ∧
        ∀ recipients, Recipients brief recipients → ∀ i recipient,
          recipients[i]? = some recipient → ¬ Throws lc p env brief i recipient := by
  rcases run_cases C lc rt p env inbox with ⟨e,he,hrun⟩ | ⟨rejection,he,hrun⟩ | ⟨brief,he,hrun⟩
  · simp [he] at hs
  · simp [hrun,he]
  rw [hrun,he]
  have hbrief (P : Json → Prop) :
      (∀ b, (.ok (.ok brief) : Js (Except PipelineRejection Json)) = .ok (.ok b) → P b) ↔
        P brief := by
    constructor
    · exact fun h => h brief rfl
    · rintro h b hb
      cases hb
      exact h
  rw [hbrief]
  by_cases hr : ∃ recipients, Recipients brief recipients
  · obtain ⟨recipients,hr⟩ := hr
    have hread : Readable brief := by
      obtain ⟨ms,addresses,copies,rfl,-⟩ := id hr
      exact ⟨nofun,fun _ _ _ _ => ⟨recipients,hr⟩⟩
    have hall : (∀ rs, Recipients brief rs → ∀ i r, rs[i]? = some r → ¬ Throws lc p env brief i r) ↔
        ∀ i r, recipients[i]? = some r → ¬ Throws lc p env brief (0+i) r := by
      simp only [Nat.zero_add]
      exact ⟨fun h => h recipients hr,fun h rs hrs => recipients_unique hrs hr ▸ h⟩
    rw [deliver_recipients hr,and_iff_right hread,hall,
      ← deliverAll_ok (encodeEnvelope env) 0 recipients ⟨inbox,[]⟩]
    rcases (p.deliverAll lc env brief (encodeEnvelope env) 0 recipients).call ⟨inbox,[]⟩ with
      ⟨_ | _,_⟩ <;> simp [Except.map]
  · rw [(deliver_otherwise hr _).2,iff_self_and]
    exact fun _ rs hrs => absurd ⟨rs,hrs⟩ hr

end Run
end Pipeline
end Semp
