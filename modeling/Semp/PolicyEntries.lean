import Semp.PolicyRun

/-! The entries after a message that was accepted: which of its operations show in them. -/
namespace Semp
namespace PolicyState

section Reading
variable {s : PolicyState} {kind id : JsString}

theorem cloneEntries_eq (es : List (JsString × Option JsonValue)) :
    cloneEntries es = .ok (es.map fun e => (e.1,e.2.map reparsed)) := by
  induction es with
  | nil => rfl
  | cons e es ih =>
    rw [cloneEntries,deepClone_eq,ih]
    rfl

theorem lookup_foldl_setOwn {es : List (JsString × Option JsonValue)} (h : (keys es).Nodup)
    (out : List (JsString × Option JsonValue)) (id : JsString) :
    lookup (es.foldl setOwn out) id =
      if id = js "__proto__" then lookup out id else (lookup es id).or (lookup out id) := by
  induction es generalizing out with
  | nil => simp [lookup]
  | cons e es ih =>
    obtain ⟨hnot,hes⟩ := List.nodup_cons.mp h
    rw [List.foldl_cons,ih hes]
    by_cases hid : id = js "__proto__"
    · rw [if_pos hid,if_pos hid,setOwn]
      split_ifs with he
      · rfl
      · exact lookup_assign_ne _ fun heq => he (heq.symm.trans hid)
    · rw [if_neg hid,if_neg hid,lookup,setOwn]
      by_cases he : e.1 = id
      · subst he
        rw [if_neg hid,if_pos rfl,lookup_eq_none.mpr hnot,lookup_assign_self]
        rfl
      · rw [if_neg he]
        split_ifs
        · rfl
        · rw [lookup_assign_ne _ (Ne.symm he)]

/-- Which properties the object of `listEntries` has. -/
theorem listEntries_eq (s : PolicyState) (kind : JsString) :
    ∃ es, s.listEntries kind = .ok es ∧ ∀ id, lookup es id =
      if id = js "__proto__" then none else (s.entryAt kind id).map (·.map reparsed) := by
  rw [listEntries]
  cases h : s.listEntriesMap.get kind with
  | none =>
    refine ⟨[],rfl,fun id => ?_⟩
    rw [entryAt,h]
    split_ifs <;> rfl
  | some bucket =>
    dsimp only
    rw [cloneEntries_eq]
    refine ⟨_,rfl,fun id => ?_⟩
    have hnodup : (keys (bucket.entries.entries.map fun e => (e.1,e.2.map reparsed))).Nodup := by
      rw [keys,List.map_map]
      exact bucket.entries.nodup
    rw [lookup_foldl_setOwn hnodup,lookup_map,entryAt,h]
    split_ifs
    · rfl
    · exact Option.or_none

end Reading

/-- A later operation on the entry of an earlier one. -/
def Supersedes (later op : PolicyOperation) : Prop :=
  later.kind = op.kind ∧
    (op.kind = policyKindFirstContact ∨ entryIdFor later = entryIdFor op)

/-- What an add or a modify wrote can be read: in the singleton of its kind, or in the list of
its kind under its id. -/
def Reflected (s : PolicyState) (op : PolicyOperation) : Prop :=
  ∃ v, deepClone op.entry = .ok v ∧
    if op.kind = policyKindFirstContact then s.singleton op.kind = .ok v
    else ∃ es, s.listEntries op.kind = .ok es ∧ lookup es (entryIdFor op) = some v

def Absent (s : PolicyState) (op : PolicyOperation) : Prop :=
  ∃ es, s.listEntries op.kind = .ok es ∧ lookup es (entryIdFor op) = none

/-- Every operation of a message shows in the entries after it, but for those a later one
replaced. -/
def Lossless (s : PolicyState) (m : UserPolicyMessage) : Prop :=
  ∀ pre op post, m.operations = pre++op::post → (∀ later ∈ post, ¬Supersedes later op) →
    if op.op = opRemove then Absent s op else Reflected s op

/-- Each entry that is put into a list, and not replaced, has an id of its own. -/
def Identified (m : UserPolicyMessage) : Prop :=
  ∀ pre op post, m.operations = pre++op::post → (∀ later ∈ post, ¬Supersedes later op) →
    op.op ≠ opRemove → op.kind ≠ policyKindFirstContact →
      entryIdFor op ≠ [] ∧ entryIdFor op ≠ js "__proto__"

section Writing
variable {ops pre post : List PolicyOperation} {op : PolicyOperation} {s s' : PolicyState}
variable {kind id : JsString}

theorem applyOps_append (h : (applyOps (pre++post)).call s = (.ok (),s')) :
    ∃ mid, (applyOps pre).call s = (.ok (),mid) ∧ (applyOps post).call mid = (.ok (),s') := by
  induction pre generalizing s with
  | nil => exact ⟨s,rfl,h⟩
  | cons op pre ih =>
    rw [List.cons_append,applyOps] at h
    obtain ⟨u,s₁,hop,hrest⟩ := Method.bind_eq_ok.mp h
    obtain ⟨mid,hpre,hpost⟩ := ih hrest
    exact ⟨mid,by rw [applyOps,Method.bind_of_ok hop,hpre],hpost⟩

theorem wrote_of_call (hv : OpValid op) (h : (applyOp op).call s = (.ok (),s')) :
    Wrote op s s' := by
  obtain ⟨s₁,hcall,hwrote⟩ := applyOp_spec hv s
  obtain rfl := (Prod.mk.inj (hcall.symm.trans h)).2
  exact hwrote

/-- Operations on other entries leave an entry alone. -/
theorem applyOps_frame (kind id : JsString) (hv : ∀ op ∈ ops, OpValid op)
    (h : (applyOps ops).call s = (.ok (),s')) :
    ((∀ op ∈ ops, ¬Names op kind id) → s'.entryAt kind id = s.entryAt kind id) ∧
      ((∀ op ∈ ops, op.kind ≠ policyKindFirstContact) → s'.singletonsMap = s.singletonsMap) := by
  induction ops generalizing s with
  | nil =>
    obtain rfl := (Prod.mk.inj h).2
    exact ⟨fun _ => rfl,fun _ => rfl⟩
  | cons op ops ih =>
    obtain ⟨hop,hops⟩ := List.forall_mem_cons.mp hv
    rw [applyOps] at h
    obtain ⟨u,s₁,hcall,hrest⟩ := Method.bind_eq_ok.mp h
    have hwrote := wrote_of_call hop hcall
    obtain ⟨hentry,hsingle⟩ := ih hops hrest
    refine ⟨fun hnot => ?_,fun hnot => ?_⟩
    · obtain ⟨hn,hns⟩ := List.forall_mem_cons.mp hnot
      rw [hentry hns,hwrote.entries,if_neg hn]
    · obtain ⟨hn,hns⟩ := List.forall_mem_cons.mp hnot
      rw [hsingle hns,hwrote.singletons,if_neg hn]

/-- What the operations leave of one that none of the later ones supersedes. -/
theorem applyOps_last (hv : ∀ o ∈ pre++op::post, OpValid o)
    (h : (applyOps (pre++op::post)).call s = (.ok (),s'))
    (hlast : ∀ later ∈ post, ¬Supersedes later op) :
    (op.kind ≠ policyKindFirstContact → entryIdFor op ≠ [] →
      s'.entryAt op.kind (entryIdFor op) =
        if op.op = opRemove then none else some (op.entry.map reparsed)) ∧
    (op.kind = policyKindFirstContact →
      s'.singletonsMap.get op.kind = some (op.entry.map reparsed)) := by
  obtain ⟨mid,-,hrest⟩ := applyOps_append h
  rw [applyOps] at hrest
  obtain ⟨u,s₁,hcall,hpost⟩ := Method.bind_eq_ok.mp hrest
  have hwrote := wrote_of_call (hv op (by simp)) hcall
  obtain ⟨hentry,hsingle⟩ := applyOps_frame op.kind (entryIdFor op)
    (fun later hl => hv later (by simp [hl])) hpost
  refine ⟨fun hkind hid => ?_,fun hkind => ?_⟩
  · rw [hentry fun later hl hn => hlast later hl ⟨hn.1,.inr hn.2.2.1⟩,hwrote.entries,
      if_pos ⟨rfl,hkind,rfl,hid⟩]
  · rw [hsingle fun later hl hl' => hlast later hl ⟨hl'.trans hkind.symm,.inl hkind⟩,
      hwrote.singletons,if_pos hkind,JsMap.get_set_self]

end Writing

section Lost
variable {host : Host} {s s' : PolicyState} {m : UserPolicyMessage}

theorem identified_of_lossless (hl : Lossless s' m) : Identified m := by
  have hempty (kind : JsString) : s'.entryAt kind [] = none := by
    rw [entryAt]
    cases s'.listEntriesMap.get kind with
    | none => rfl
    | some bucket => exact bucket.named
  intro pre op post hm hlast hop hkind
  have hreflected := hl pre op post hm hlast
  rw [if_neg hop] at hreflected
  obtain ⟨v,-,hread⟩ := hreflected
  rw [if_neg hkind] at hread
  obtain ⟨es,hes,hlook⟩ := hread
  obtain ⟨es',hes',hall⟩ := listEntries_eq s' op.kind
  obtain rfl : es = es' := Except.ok.inj (hes.symm.trans hes')
  rw [hall] at hlook
  refine ⟨fun hid => ?_,fun hid => ?_⟩
  · rw [hid,hempty,if_neg (by decide)] at hlook
    cases hlook
  · rw [if_pos hid] at hlook
    cases hlook

theorem lossless_of_identified (h : (apply host m).call s = (.ok (),s')) (hi : Identified m) :
    Lossless s' m := by
  obtain ⟨hv,-,-,s₁,hops,hlist,hsingle⟩ := apply_ok h
  have hat (kind id : JsString) : s'.entryAt kind id = s₁.entryAt kind id := by
    rw [entryAt,entryAt,hlist]
  intro pre op post hm hlast
  have hvalid := hv.ops
  rw [hm] at hvalid hops
  have hop := hvalid op (by simp)
  obtain ⟨hentry,hfirst⟩ := applyOps_last hvalid hops hlast
  obtain ⟨es,hes,hall⟩ := listEntries_eq s' op.kind
  split_ifs with hremove
  · obtain ⟨u,id,hid⟩ := hop.removed hremove
    have hname : entryIdFor op ≠ [] := by
      rw [entryIdFor,hid]
      exact List.cons_ne_nil u id
    refine ⟨es,hes,?_⟩
    by_cases hkind : op.kind = policyKindFirstContact
    · exact absurd ((hop.first hkind).symm.trans hremove) (by decide)
    · rw [hall,hat,hentry hkind hname,if_pos hremove]
      split_ifs <;> rfl
  · refine ⟨op.entry.map reparsed,deepClone_eq _,?_⟩
    split_ifs with hkind
    · rw [singleton,hsingle,hfirst hkind]
      change deepClone _ = _
      rw [deepClone_eq,Option.map_map]
      exact congrArg (fun f => Except.ok (op.entry.map f)) (funext reparsed_reparsed)
    · obtain ⟨hne,hproto⟩ := hi pre op post hm hlast hremove hkind
      refine ⟨es,hes,?_⟩
      rw [hall,if_neg hproto,hat,hentry hkind hne,if_neg hremove,Option.map_some,Option.map_map]
      exact congrArg (fun f => some (op.entry.map f)) (funext reparsed_reparsed)

end Lost

/-- A message that is accepted shows in the entries as a whole exactly if each entry it puts
into a list, and does not replace itself, has an id: one of its own or one inside the entry,
and not the name `__proto__`.  Any other entry is skipped while the version advances. -/
theorem lossless_iff (host : Host) (s s' : PolicyState) (m : UserPolicyMessage)
    (h : (apply host m).call s = (.ok (),s')) : Lossless s' m ↔ Identified m :=
  ⟨identified_of_lossless,lossless_of_identified h⟩

theorem lossless_iff_sample : ∃ s', (apply sampleHost sampleMessage).call sampleState = (.ok (),s') ∧
    (Lossless s' sampleMessage ↔ Identified sampleMessage) := by
  obtain ⟨s',h⟩ := apply_sampleMessage
  exact ⟨s',h,lossless_iff sampleHost sampleState s' sampleMessage h⟩

/-- An entry without an id is accepted and lost. -/
theorem not_lossless : ¬∀ host s s' m, (apply host m).call s = (.ok (),s') → Lossless s' m := by
  intro h
  obtain ⟨s',hcall⟩ := apply_sampleMessage
  have hid := identified_of_lossless (h _ _ _ _ hcall) [] _ [] rfl (by simp) (by decide) (by decide)
  exact hid.1 rfl

end PolicyState
end Semp
