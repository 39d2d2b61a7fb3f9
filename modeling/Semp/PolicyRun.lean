import Semp.PolicyState

/-! What a policy state does with messages: a message that is refused changes nothing, those
that are accepted come in the order of their versions and times, and the entries after a
message are those of its operations. -/
namespace Semp
namespace PolicyState
open Number

section Entries

/-- The copy a JSON text makes of a value. -/
def reparsed (v : JsonValue) : JsonValue :=
  ⟨v.val.reparse,JsonText.parse_wf (JsonText.parse_stringify v.property)⟩

theorem reparsed_reparsed (v : JsonValue) : reparsed (reparsed v) = reparsed v :=
  Subtype.ext (Json.reparse_reparse v.val)

theorem deepClone_eq (v : Option JsonValue) : deepClone v = .ok (v.map reparsed) := by
  unfold deepClone
  split
  · rfl
  · rfl
  next w hw _ =>
    have hparse := JsonText.parse_stringify hw
    split
    next x hx =>
      have hx : x = w.reparse := Option.some.inj (hx.symm.trans hparse)
      exact congrArg (fun v => Except.ok (some v)) (Subtype.ext hx)
    next hx => cases hx.symm.trans hparse

/-- The entry under an id, whatever it is. -/
def entryAt (s : PolicyState) (kind id : JsString) : Option (Option JsonValue) :=
  (s.listEntriesMap.get kind).bind (·.entries.get id)

theorem cloneEntry_call (op : PolicyOperation) (s : PolicyState) :
    (cloneEntry op).call s = (.ok (op.entry.map reparsed),s) := by
  rw [cloneEntry,deepClone_eq]
  rfl

/-- What stays when a bucket is put under its kind. -/
structure SameBut (kind : JsString) (s s' : PolicyState) : Prop where
  entries : ∀ k id, k ≠ kind → s'.entryAt k id = s.entryAt k id
  singletons : s'.singletonsMap = s.singletonsMap

theorem openBucket_call (kind : JsString) (s : PolicyState) :
    ∃ bucket s', (openBucket kind).call s = (.ok bucket,s') ∧ SameBut kind s s' ∧
      (∀ id, s'.entryAt kind id = s.entryAt kind id) ∧
      ∀ id, bucket.entries.get id = s.entryAt kind id := by
  rw [openBucket]
  simp only [Method.get_bind]
  cases h : s.listEntriesMap.get kind with
  | some bucket =>
    refine ⟨bucket,s,rfl,⟨fun _ _ _ => rfl,rfl⟩,fun _ => rfl,fun id => ?_⟩
    rw [entryAt,h]
    rfl
  | none =>
    refine ⟨.empty,_,rfl,⟨fun k id hk => ?_,rfl⟩,fun id => ?_,fun id => ?_⟩
    · rw [entryAt,entryAt,JsMap.get_set_ne hk]
    · rw [entryAt,entryAt,JsMap.get_set_self,h]
      rfl
    · rw [entryAt,h]
      rfl

/-- What the validation of a message says of an operation. -/
structure OpValid (op : PolicyOperation) : Prop where
  verb : op.op = opAdd ∨ op.op = opRemove ∨ op.op = opModify
  removed : op.op = opRemove → ∃ u id, op.entryId = some (u::id)
  first : op.kind = policyKindFirstContact → op.op = opModify

/-- The operation is on the entry of a list under this id. -/
def Names (op : PolicyOperation) (kind id : JsString) : Prop :=
  op.kind = kind ∧ kind ≠ policyKindFirstContact ∧ entryIdFor op = id ∧ id ≠ []

instance (op : PolicyOperation) (kind id : JsString) : Decidable (Names op kind id) :=
  inferInstanceAs (Decidable (_ ∧ _ ∧ _ ∧ _))

/-- What an operation leaves: its own entry is set or gone, the others are as they were. -/
structure Wrote (op : PolicyOperation) (s s' : PolicyState) : Prop where
  entries : ∀ kind id, s'.entryAt kind id =
    if Names op kind id then
      if op.op = opRemove then none else some (op.entry.map reparsed)
    else s.entryAt kind id
  singletons : s'.singletonsMap =
    if op.kind = policyKindFirstContact then
      s.singletonsMap.set op.kind (op.entry.map reparsed)
    else s.singletonsMap

variable {op : PolicyOperation} {s s' : PolicyState}

theorem putBucket_call {kind : JsString} {b : Bucket} {s₁ : PolicyState}
    (same : SameBut kind s s₁) : ∃ s', (putBucket kind b).call s₁ = (.ok (),s') ∧
      SameBut kind s s' ∧ ∀ id, s'.entryAt kind id = b.entries.get id := by
  refine ⟨_,rfl,⟨fun k id hk => ?_,same.singletons⟩,fun id => ?_⟩
  · rw [← same.entries k id hk,entryAt,entryAt,JsMap.get_set_ne hk]
  · rw [entryAt,JsMap.get_set_self]
    rfl

/-- A list operation that leaves the other kinds alone, and in its own the other ids. -/
theorem wrote_of_same (hkind : op.kind ≠ policyKindFirstContact) (same : SameBut op.kind s s')
    (h : ∀ id, s'.entryAt op.kind id =
      if Names op op.kind id then if op.op = opRemove then none else some (op.entry.map reparsed)
      else s.entryAt op.kind id) : Wrote op s s' where
  entries kind id := by
    by_cases hk : kind = op.kind
    · obtain rfl := hk
      exact h id
    · rw [if_neg fun hn => hk hn.1.symm,same.entries kind id hk]
  singletons := by rw [if_neg hkind,same.singletons]

theorem applyOp_spec (hv : OpValid op) (s : PolicyState) :
    ∃ s', (applyOp op).call s = (.ok (),s') ∧ Wrote op s s' := by
  rw [applyOp]
  by_cases hkind : op.kind = policyKindFirstContact
  · rw [if_pos hkind]
    refine ⟨_,Method.bind_of_ok (cloneEntry_call op s) _,fun kind id => ?_,(if_pos hkind).symm⟩
    exact (if_neg fun hn => hn.2.1 (hn.1 ▸ hkind)).symm
  rw [if_neg hkind]
  obtain ⟨bucket,s₁,hopen,same,hsame,hbucket⟩ := openBucket_call op.kind s
  rw [Method.bind_of_ok hopen]
  have unchanged (hnone : ∀ id, ¬Names op op.kind id) :
      ∃ s', (pure () : Method ApplyError PolicyState Unit).call s₁ = (.ok (),s') ∧
        Wrote op s s' :=
    ⟨s₁,rfl,wrote_of_same hkind same fun id => by rw [if_neg (hnone id),hsame]⟩
  split_ifs with hput hid hremove
  · obtain ⟨s',hcall,hsame',hget⟩ := putBucket_call
      (b := bucket.set (entryIdFor op) (op.entry.map reparsed) hid) same
    refine ⟨s',?_,wrote_of_same hkind hsame' fun id => ?_⟩
    · rw [Method.bind_of_ok (cloneEntry_call op s₁),hcall]
    · rw [hget,Bucket.set]
      by_cases hn : entryIdFor op = id
      · subst hn
        have hnot : op.op ≠ opRemove := by
          rintro h
          rw [h] at hput
          exact absurd hput (by decide)
        rw [if_pos ⟨rfl,hkind,rfl,hid⟩,if_neg hnot]
        exact JsMap.get_set_self
      · rw [if_neg fun h => hn h.2.2.1,← hbucket]
        exact JsMap.get_set_ne (Ne.symm hn)
  · exact unchanged fun id hn => hn.2.2.2 (hn.2.2.1 ▸ not_not.mp hid)
  · obtain ⟨u,id₀,hentry⟩ := hv.removed hremove
    have hname : entryIdFor op = u::id₀ := by rw [entryIdFor,hentry]
    obtain ⟨s',hcall,hsame',hget⟩ := putBucket_call
      (b := bucket.delete (u::id₀)) same
    refine ⟨s',?_,wrote_of_same hkind hsame' fun id => ?_⟩
    · rw [hentry]
      exact hcall
    · rw [hget,Bucket.delete]
      by_cases hn : entryIdFor op = id
      · subst hn
        rw [if_pos ⟨rfl,hkind,rfl,by simp [hname]⟩,if_pos hremove,hname]
        exact JsMap.get_delete_self
      · rw [if_neg fun h => hn h.2.2.1,← hbucket]
        exact JsMap.get_delete_ne (hname ▸ Ne.symm hn)
  · exact absurd (hv.verb.imp_right fun h => h.resolve_left hremove) hput

theorem opValid_of_ok {i : ℕ} (h : validateOp op i = .ok ()) : OpValid op := by
  unfold validateOp at h
  dsimp only at h
  split_ifs at h with hverb _ hfirst _ _ hremove
  refine ⟨?_,fun hop => ?_,fun hkind => by_contra fun hne => hfirst ⟨hkind,hne⟩⟩
  · by_contra hne
    simp only [not_or] at hne
    exact hverb hne
  · cases hid : op.entryId with
    | none => exact absurd ⟨hop,by rw [hid]; rfl⟩ hremove
    | some id =>
      cases id with
      | nil => exact absurd ⟨hop,by rw [hid]; rfl⟩ hremove
      | cons u id => exact ⟨u,id,rfl⟩

theorem opsValid_of_ok {i : ℕ} {ops : List PolicyOperation} (h : validateOps i ops = .ok ()) :
    ∀ op ∈ ops, OpValid op := by
  induction ops generalizing i with
  | nil => simp
  | cons op ops ih =>
    rw [validateOps] at h
    cases hop : validateOp op i with
    | error e =>
      rw [hop] at h
      cases h
    | ok u =>
      rw [hop] at h
      exact List.forall_mem_cons.mpr ⟨opValid_of_ok hop,ih h⟩

/-- What a message that passes the validation holds. -/
structure Valid (host : Host) (m : UserPolicyMessage) : Prop where
  version : m.policyVersion.isInteger
  named : m.timestamp ≠ []
  date : (host.dateParse m.timestamp).isNaN = false
  ops : ∀ op ∈ m.operations, OpValid op

theorem valid_of_ok {host : Host} {m : UserPolicyMessage} {skip : Bool} {u : Unit}
    (h : validateUserPolicyMessage host m skip = .ok u) : Valid host m := by
  unfold validateUserPolicyMessage at h
  cases hops : validateOps 0 m.operations with
  | error e =>
    rw [hops] at h
    split_ifs at h <;> cases h
  | ok u =>
    rw [hops] at h
    split_ifs at h with _ _ _ _ hversion hnamed hdate
    · cases h
    · simp only [Bool.or_eq_true,Bool.not_eq_true',not_or,Bool.not_eq_false] at hversion
      exact ⟨hversion.1,hnamed,Bool.eq_false_of_not_eq_true hdate,opsValid_of_ok hops⟩

end Entries

section Apply
variable {host : Host} {m : UserPolicyMessage} {s s' : PolicyState}

/-- The operations of a valid message are all written, each after those before it. -/
theorem applyOps_spec {ops : List PolicyOperation} (hv : ∀ op ∈ ops, OpValid op)
    (s : PolicyState) : ∃ s', (applyOps ops).call s = (.ok (),s') := by
  induction ops generalizing s with
  | nil => exact ⟨s,rfl⟩
  | cons op ops ih =>
    obtain ⟨hop,hops⟩ := List.forall_mem_cons.mp hv
    obtain ⟨s₁,hcall,-⟩ := applyOp_spec hop s
    obtain ⟨s₂,hrest⟩ := ih hops s₁
    exact ⟨s₂,by rw [applyOps,Method.bind_of_ok hcall,hrest]⟩

/-- The two things a call may do: refuse the message and leave the state, or take a valid
message that is not stale and write all of it. -/
theorem apply_cases (host : Host) (m : UserPolicyMessage) (s : PolicyState) :
    (∃ e, (apply host m).call s = (.error e,s)) ∨
      Valid host m ∧ isStale host s m = false ∧ ∃ s₁, (applyOps m.operations).call s = (.ok (),s₁) ∧
        (apply host m).call s = (.ok (),{s₁ with
          policyVersionValue := m.policyVersion, lastTimestampValue := m.timestamp}) := by
  rw [apply]
  split
  · split
    · exact .inl ⟨_,rfl⟩
    · exact .inl ⟨_,rfl⟩
  next hvalid =>
    have hv := valid_of_ok hvalid
    rw [Method.get_bind]
    split_ifs with huser hstale
    · exact .inl ⟨_,rfl⟩
    · exact .inl ⟨_,rfl⟩
    split
    · exact .inl ⟨_,rfl⟩
    · obtain ⟨s₁,hcall⟩ := applyOps_spec hv.ops s
      refine .inr ⟨hv,Bool.eq_false_of_not_eq_true hstale,s₁,hcall,?_⟩
      rw [Method.bind_of_ok hcall]
      rfl

/-- The version and the time of a state. -/
def stamp (host : Host) (s : PolicyState) : Number × Number :=
  (s.policyVersionValue,s.lastTime host)

def UserPolicyMessage.stamp (host : Host) (m : UserPolicyMessage) : Number × Number :=
  (m.policyVersion,host.dateParse m.timestamp)

theorem Valid.comparable (h : Valid host m) : Comparable (m.stamp host) :=
  ⟨isNaN_of_isInteger h.version,h.date⟩

theorem apply_ok (h : (apply host m).call s = (.ok (),s')) : Valid host m ∧
    isStale host s m = false ∧ s'.stamp host = m.stamp host ∧
      ∃ s₁, (applyOps m.operations).call s = (.ok (),s₁) ∧
        s'.listEntriesMap = s₁.listEntriesMap ∧ s'.singletonsMap = s₁.singletonsMap := by
  obtain ⟨e,he⟩ | ⟨hv,hfresh,s₁,hcall,hok⟩ := apply_cases host m s
  · rw [he] at h
    cases h
  · rw [hok] at h
    obtain rfl := (Prod.mk.inj h).2
    exact ⟨hv,hfresh,Prod.ext rfl (if_neg hv.named),s₁,hcall,rfl,rfl⟩

theorem apply_error {e : ApplyError} (h : (apply host m).call s = (.error e,s')) : s' = s := by
  obtain ⟨e',he⟩ | ⟨-,-,s₁,-,hok⟩ := apply_cases host m s
  · rw [he] at h
    exact (Prod.mk.inj h).2.symm
  · rw [hok] at h
    cases h

/-- A message that is accepted comes after the state it is applied to. -/
theorem before_of_fresh (hs : Comparable (s.stamp host)) (hm : Valid host m)
    (h : isStale host s m = false) : Before (s.stamp host) (m.stamp host) := by
  rw [isStale,Bool.or_eq_false_iff] at h
  exact before_of_not hs hm.comparable h.1 h.2

theorem new_stamp {userId : JsString} {kinds : Option (List JsString)}
    (h : new userId kinds = .ok s) : s.stamp host = (.zero false,.inf true) := by
  unfold new at h
  dsimp only at h
  split_ifs at h
  · cases h
  · cases h
  · obtain rfl := Except.ok.inj h
    rfl

/-- A sequence of messages: those that are accepted come after the state they are applied to
and after one another. -/
theorem run_spec (ms : List UserPolicyMessage) (hs : Comparable (s.stamp host)) :
    Comparable ((run host s ms).2.stamp host) ∧
      (∀ m ∈ (run host s ms).1, Comparable (m.stamp host) ∧
        Before (s.stamp host) (m.stamp host)) ∧
      (run host s ms).1.Pairwise fun a b => Before (a.stamp host) (b.stamp host) := by
  induction ms generalizing s with
  | nil => exact ⟨hs,by simp [run],.nil⟩
  | cons m ms ih =>
    rw [run]
    split
    next u s' hcall =>
      obtain ⟨hv,hfresh,hstamp,-⟩ := apply_ok hcall
      have hlater := before_of_fresh hs hv hfresh
      obtain ⟨hend,hall,hpairs⟩ := ih (hstamp ▸ hv.comparable)
      rw [hstamp] at hall
      refine ⟨hend,List.forall_mem_cons.mpr ⟨⟨hv.comparable,hlater⟩,fun m' hm' => ?_⟩,
        List.pairwise_cons.mpr ⟨fun m' hm' => (hall m' hm').2,hpairs⟩⟩
      obtain ⟨hc,hb⟩ := hall m' hm'
      exact ⟨hc,hlater.trans hs hv.comparable hc hb⟩
    next e s' hcall =>
      obtain rfl := apply_error hcall
      exact ih hs

/-- Over every sequence of messages in any order: a message that is refused leaves the state
as it is, one that is accepted raises its version and time, and no message is accepted twice
or after a newer one. -/
theorem apply_atomic (host : Host) (userId : JsString) (kinds : Option (List JsString))
    (s₀ : PolicyState) (h₀ : new userId kinds = .ok s₀) (ms : List UserPolicyMessage) :
    let r := run host s₀ ms
    (∀ m e s', (apply host m).call r.2 = (.error e,s') → s' = r.2) ∧
    (∀ m s', (apply host m).call r.2 = (.ok (),s') →
      Before (r.2.stamp host) (s'.stamp host)) ∧
    (r.1.Pairwise fun a b => Before (a.stamp host) (b.stamp host)) ∧ r.1.Nodup := by
  have hs₀ : Comparable (s₀.stamp host) := by
    rw [new_stamp h₀]
    exact ⟨rfl,rfl⟩
  obtain ⟨hend,hall,hpairs⟩ := run_spec ms hs₀
  refine ⟨fun m e s' h => apply_error h,fun m s' h => ?_,hpairs,?_⟩
  · obtain ⟨hv,hfresh,hstamp,-⟩ := apply_ok h
    rw [hstamp]
    exact before_of_fresh hend hv hfresh
  · refine hpairs.imp_of_mem fun {a b} ha hb hab heq => ?_
    subst heq
    exact Before.irrefl (hall a ha).1 hab

def sampleHost : Host := ⟨fun _ => .zero false,fun _ => .ok []⟩

def sampleState : PolicyState :=
  ⟨js "alice@a.example",defaultPolicyKinds,.zero false,[],.empty,.empty⟩

/-- An entry to block a sender, without an id. -/
def sampleEntry : JsonValue :=
  ⟨.obj [(js "pattern",.str (js "eve"))],Json.wf_obj.mpr ⟨by decide,by simp⟩⟩

def sampleMessage : UserPolicyMessage where
  type := userPolicyType
  step := userPolicyStep
  version := js "1.0.0"
  userId := js "alice@a.example"
  deviceId := js "d1"
  policyVersion := .ofNat 1
  timestamp := js "2026-01-01T00:00:00Z"
  operations := [⟨opAdd,policyKindBlock,none,some sampleEntry⟩]
  signature := ⟨js "ed25519",js "k",js "v"⟩

theorem apply_sampleMessage :
    ∃ s', (apply sampleHost sampleMessage).call sampleState = (.ok (),s') := by
  have hok : ((apply sampleHost sampleMessage).call sampleState).1.isOk = true := by
    decide +kernel
  rcases h : (apply sampleHost sampleMessage).call sampleState with ⟨_ | u,s'⟩
  · rw [h] at hok
    cases hok
  · exact ⟨s',rfl⟩

theorem apply_atomic_sample :
    ((run sampleHost sampleState [sampleMessage,sampleMessage]).1.Pairwise fun a b =>
        Before (a.stamp sampleHost) (b.stamp sampleHost)) ∧
      (run sampleHost sampleState [sampleMessage,sampleMessage]).1.Nodup :=
  (apply_atomic sampleHost (js "alice@a.example") none sampleState rfl
    [sampleMessage,sampleMessage]).2.2

end Apply
end PolicyState
end Semp
