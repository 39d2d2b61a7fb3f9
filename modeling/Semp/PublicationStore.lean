import Semp.Blocklist
import Semp.Handshake
import Semp.JsMap
import Semp.Method

/-! The store of published migration records: each record under its id and under the address it
is about. -/
namespace Semp
namespace Migration
open Handshake (require)

/-- A record is a JSON object with its id and its address. -/
structure MigrationRecord where
  members : Members
  wf : (Json.obj members).WF
  record_id : JsString
  old_address : JsString
  has_record_id : lookup members (js "record_id") = some (.str record_id)
  has_old_address : lookup members (js "old_address") = some (.str old_address)

def MigrationRecord.json (r : MigrationRecord) : Json := .obj r.members

structure PublicationStore where
  byRecordId : JsMap Json
  byOldAddress : JsMap Json

def PublicationStore.empty : PublicationStore := ⟨.empty,.empty⟩

def cloned (v : Json) : Js Json := parseJson (JsonText.stringify v)

section Code
variable (lc : Locale)

def putRecord (r : MigrationRecord) : Method Thrown PublicationStore Unit := do
  require (r.record_id ≠ []) (js "migration: empty record_id")
  require (r.old_address ≠ []) (js "migration: empty old_address")
  let cp ← cloned r.json
  modify fun s => {s with byRecordId := s.byRecordId.set r.record_id cp}
  -- The most recent put wins, also where it repeats an old record.
  modify fun s => {s with byOldAddress := s.byOldAddress.set (lc.toLowerCase r.old_address) cp}

def getByOldAddress (s : PublicationStore) (oldAddress : JsString) : Js (Option Json) :=
  match s.byOldAddress.get (lc.toLowerCase oldAddress) with
  | none => .ok none
  | some r => (cloned r).map some

def getByRecordId (s : PublicationStore) (recordId : JsString) : Js (Option Json) :=
  match s.byRecordId.get recordId with
  | none => .ok none
  | some r => (cloned r).map some

/-- The store after these puts. -/
def stored (puts : List MigrationRecord) : PublicationStore :=
  (Method.run (putRecord lc) puts .empty).2

end Code

/-- A put of it is accepted. -/
def MigrationRecord.Publishable (r : MigrationRecord) : Prop :=
  r.record_id ≠ [] ∧ r.old_address ≠ []

instance (r : MigrationRecord) : Decidable r.Publishable := inferInstanceAs (Decidable (_ ∧ _))

/-- A put of a new id publishes the record. -/
def noted (published : List MigrationRecord) (r : MigrationRecord) : List MigrationRecord :=
  if r.Publishable ∧ r.record_id ∉ published.map MigrationRecord.record_id then published++[r]
  else published

/-- The records that were put for the first time, in order. -/
def published (puts : List MigrationRecord) : List MigrationRecord := puts.foldl noted []

/-- The put repeats a record that was put before. -/
def Repeats (puts : List MigrationRecord) (r : MigrationRecord) : Prop :=
  r.Publishable ∧ r.record_id ∈ (published puts).map MigrationRecord.record_id

instance (puts : List MigrationRecord) (r : MigrationRecord) : Decidable (Repeats puts r) :=
  inferInstanceAs (Decidable (_ ∧ _))

/-- What a call answers, up to the order of members. -/
def answer (x : Js (Option Json)) : Js (Option Json) := x.map (Option.map Json.norm)

section Law
variable (lc : Locale)

/-- The record of an address in lower case that was published last. -/
def latest (puts : List MigrationRecord) (address : JsString) : Option MigrationRecord :=
  ((published puts).filter fun r => lc.toLowerCase r.old_address = address).getLast?

/-- The lookups give what was published last. -/
structure Current (puts : List MigrationRecord) : Prop where
  byOldAddress : ∀ oldAddress, answer (getByOldAddress lc (stored lc puts) oldAddress) =
    .ok ((latest lc puts (lc.toLowerCase oldAddress)).map fun r => r.json.norm)
  byRecordId : ∀ address r, latest lc puts address = some r →
    answer (getByRecordId (stored lc puts) r.record_id) = .ok (some r.json.norm)

/-- No lookup tells the stores apart. -/
structure Unchanged (s s' : PublicationStore) : Prop where
  byOldAddress : ∀ oldAddress,
    answer (getByOldAddress lc s' oldAddress) = answer (getByOldAddress lc s oldAddress)
  byRecordId : ∀ recordId, answer (getByRecordId s' recordId) = answer (getByRecordId s recordId)

/-- The lookups are current after every put, and no repeated one changes any. -/
structure Lawful (puts : List MigrationRecord) : Prop where
  current : ∀ before, before <+: puts → Current lc before
  idempotent : ∀ before r, before++[r] <+: puts → Repeats before r →
    Unchanged lc (stored lc before) (stored lc (before++[r]))

/-- A repeated put is one of the record that was published last for its address. -/
def Harmless (before : List MigrationRecord) (r : MigrationRecord) : Prop :=
  Repeats before r → ∃ last, latest lc before (lc.toLowerCase r.old_address) = some last ∧
    last.json.norm = r.json.norm

end Law

section Steps
variable {lc : Locale} {puts : List MigrationRecord} {r : MigrationRecord}

theorem cloned_json (r : MigrationRecord) : cloned r.json = .ok r.json.reparse :=
  parseJson_stringify r.wf

theorem wf_reparse {v : Json} (h : v.WF) : v.reparse.WF :=
  JsonText.parse_wf (JsonText.parse_stringify h)

theorem putRecord_ok (s : PublicationStore) (h : r.Publishable) : ((putRecord lc r).call s).2 =
    ⟨s.byRecordId.set r.record_id r.json.reparse,
      s.byOldAddress.set (lc.toLowerCase r.old_address) r.json.reparse⟩ := by
  simp only [putRecord,require,h.1,h.2,ne_eq,not_false_eq_true,if_true,Method.call_bind,
    Method.call_lift,cloned_json,Method.call_modify]

theorem putRecord_rejected (s : PublicationStore) (h : ¬r.Publishable) :
    ((putRecord lc r).call s).2 = s := by
  by_cases hid : r.record_id = []
  · simp only [putRecord,require,hid,ne_eq,not_true_eq_false,if_false,Method.call_bind,
      Method.call_lift,raise]
  · have haddr : r.old_address = [] := by
      by_contra haddr
      exact h ⟨hid,haddr⟩
    simp only [putRecord,require,hid,haddr,ne_eq,not_true_eq_false,not_false_eq_true,if_true,
      if_false,Method.call_bind,Method.call_lift,raise]

theorem stored_concat : stored lc (puts++[r]) = ((putRecord lc r).call (stored lc puts)).2 := by
  rw [stored,Method.run_concat]
  rfl

theorem published_concat : published (puts++[r]) = noted (published puts) r := by
  rw [published,List.foldl_concat]
  rfl

theorem published_new (hp : r.Publishable)
    (hid : r.record_id ∉ (published puts).map MigrationRecord.record_id) :
    published (puts++[r]) = published puts++[r] := by
  rw [published_concat,noted,if_pos ⟨hp,hid⟩]

theorem published_old (h : ¬r.Publishable ∨ Repeats puts r) :
    published (puts++[r]) = published puts := by
  rw [published_concat,noted,if_neg]
  rintro ⟨hp,hid⟩
  exact h.elim (absurd hp) fun hr => hid hr.2

theorem latest_new (hp : r.Publishable)
    (hid : r.record_id ∉ (published puts).map MigrationRecord.record_id) (address : JsString) :
    latest lc (puts++[r]) address =
      if lc.toLowerCase r.old_address = address then some r else latest lc puts address := by
  rw [latest,published_new hp hid,List.filter_append]
  split_ifs with haddr
  · rw [List.filter_cons_of_pos (by simpa using haddr),List.filter_nil,List.getLast?_concat]
  · rw [List.filter_cons_of_neg (by simpa using haddr),List.filter_nil,List.append_nil,latest]

theorem latest_old (h : ¬r.Publishable ∨ Repeats puts r) (address : JsString) :
    latest lc (puts++[r]) address = latest lc puts address := by
  rw [latest,published_old h,latest]

theorem latest_published {address : JsString} (h : latest lc puts address = some r) :
    r.record_id ∈ (published puts).map MigrationRecord.record_id :=
  List.mem_map_of_mem (List.mem_of_mem_filter (List.mem_of_getLast? h))

/-- Records that differ in the order of members only have one id. -/
theorem record_id_of_norm {r r' : MigrationRecord} (h : r.json.norm = r'.json.norm) :
    r.record_id = r'.record_id := by
  have hk := (Json.norm_obj_eq_iff r.wf r'.wf).mp h (js "record_id")
  rw [r.has_record_id,r'.has_record_id,Option.map_some,Option.map_some,Option.some.injEq] at hk
  exact Json.str.inj (Json.norm_eq_str.mp hk)

end Steps

/-- What is stored can be cloned. -/
structure Cloneable (s : PublicationStore) : Prop where
  byRecordId : ∀ k v, s.byRecordId.get k = some v → v.WF
  byOldAddress : ∀ k v, s.byOldAddress.get k = some v → v.WF

section Lookups
variable {lc : Locale} {puts : List MigrationRecord} {r : MigrationRecord} {s : PublicationStore}

theorem cloneable_set {m : JsMap Json} (h : ∀ k v, m.get k = some v → v.WF) (l : JsString)
    (r : MigrationRecord) : ∀ k v, (m.set l r.json.reparse).get k = some v → v.WF := by
  intro k v hv
  by_cases hk : k = l
  · subst hk
    rw [JsMap.get_set_self] at hv
    cases hv
    exact wf_reparse r.wf
  · rw [JsMap.get_set_ne hk] at hv
    exact h k v hv

theorem cloneable_stored (lc : Locale) (puts : List MigrationRecord) :
    Cloneable (stored lc puts) := by
  induction puts using List.reverseRecOn with
  | nil => exact ⟨nofun,nofun⟩
  | append_singleton puts r ih =>
    rw [stored_concat]
    by_cases hp : r.Publishable
    · rw [putRecord_ok _ hp]
      exact ⟨cloneable_set ih.byRecordId _ r,cloneable_set ih.byOldAddress _ r⟩
    · rw [putRecord_rejected _ hp]
      exact ih

theorem answer_get {m : JsMap Json} (h : ∀ k v, m.get k = some v → v.WF) (k : JsString) :
    answer (match m.get k with
      | none => .ok none
      | some r => (cloned r).map some) = .ok ((m.get k).map Json.norm) := by
  cases hv : m.get k with
  | none => rfl
  | some v =>
    simp only [cloned,parseJson_stringify (h k v hv)]
    exact congrArg (fun v => Except.ok (some v)) (Json.norm_reparse v)

theorem answer_getByOldAddress (lc : Locale) (puts : List MigrationRecord) (a : JsString) :
    answer (getByOldAddress lc (stored lc puts) a) =
      .ok (((stored lc puts).byOldAddress.get (lc.toLowerCase a)).map Json.norm) :=
  answer_get (cloneable_stored lc puts).byOldAddress _

theorem answer_getByRecordId (lc : Locale) (puts : List MigrationRecord) (i : JsString) :
    answer (getByRecordId (stored lc puts) i) =
      .ok (((stored lc puts).byRecordId.get i).map Json.norm) :=
  answer_get (cloneable_stored lc puts).byRecordId _

theorem get_set_norm (m : JsMap Json) (l k : JsString) (r : MigrationRecord) :
    ((m.set l r.json.reparse).get k).map Json.norm =
      if k = l then some r.json.norm else (m.get k).map Json.norm := by
  split_ifs with hk
  · rw [hk,JsMap.get_set_self,Option.map_some,Json.norm_reparse]
  · rw [JsMap.get_set_ne hk]

/-- After an accepted put both indexes have the record. -/
theorem answers_concat (hp : r.Publishable) (key : JsString) :
    answer (getByOldAddress lc (stored lc (puts++[r])) key) =
      (if lc.toLowerCase key = lc.toLowerCase r.old_address then .ok (some r.json.norm)
        else answer (getByOldAddress lc (stored lc puts) key)) ∧
    answer (getByRecordId (stored lc (puts++[r])) key) =
      if key = r.record_id then .ok (some r.json.norm)
        else answer (getByRecordId (stored lc puts) key) := by
  rw [answer_getByOldAddress,answer_getByOldAddress,answer_getByRecordId,answer_getByRecordId,
    stored_concat,putRecord_ok _ hp,get_set_norm,get_set_norm]
  exact ⟨by split_ifs <;> rfl,by split_ifs <;> rfl⟩

end Lookups

section Law
variable {lc : Locale} {puts : List MigrationRecord} {r : MigrationRecord}

/-- A repeat of what is current changes nothing. -/
theorem Current.unchanged (h : Current lc puts) (hr : Repeats puts r) (hharm : Harmless lc puts r) :
    Unchanged lc (stored lc puts) (stored lc (puts++[r])) := by
  obtain ⟨last,hlast,hnorm⟩ := hharm hr
  refine ⟨fun a => ?_,fun i => ?_⟩
  · rw [(answers_concat hr.1 a).1]
    split_ifs with ha
    · rw [h.byOldAddress,ha,hlast,Option.map_some,hnorm]
    · rfl
  · rw [(answers_concat hr.1 i).2]
    split_ifs with hi
    · rw [hi,← record_id_of_norm hnorm,h.byRecordId _ _ hlast,hnorm]
    · rfl

theorem Current.put (h : Current lc puts) (hharm : Harmless lc puts r) :
    Current lc (puts++[r]) := by
  by_cases hp : r.Publishable
  · by_cases hid : r.record_id ∈ (published puts).map MigrationRecord.record_id
    · have hsame := h.unchanged ⟨hp,hid⟩ hharm
      refine ⟨fun a => ?_,fun a r' hr' => ?_⟩
      · rw [hsame.byOldAddress,h.byOldAddress,latest_old (.inr ⟨hp,hid⟩)]
      · rw [latest_old (.inr ⟨hp,hid⟩)] at hr'
        rw [hsame.byRecordId,h.byRecordId _ _ hr']
    · refine ⟨fun a => ?_,fun a r' hr' => ?_⟩
      · rw [(answers_concat hp a).1,latest_new hp hid]
        by_cases ha : lc.toLowerCase a = lc.toLowerCase r.old_address
        · rw [if_pos ha,if_pos ha.symm]
          rfl
        · rw [if_neg ha,if_neg (Ne.symm ha),h.byOldAddress]
      · rw [latest_new hp hid] at hr'
        rw [(answers_concat hp _).2]
        split_ifs at hr' with ha
        · cases hr'
          rw [if_pos rfl]
        · -- A record that was published before has another id.
          have hne : r'.record_id ≠ r.record_id := fun heq => hid (heq ▸ latest_published hr')
          rw [if_neg hne,h.byRecordId _ _ hr']
  · have hsame : stored lc (puts++[r]) = stored lc puts := by
      rw [stored_concat,putRecord_rejected _ hp]
    refine ⟨fun a => ?_,fun a r' hr' => ?_⟩
    · rw [hsame,h.byOldAddress,latest_old (.inl hp)]
    · rw [latest_old (.inl hp)] at hr'
      rw [hsame,h.byRecordId _ _ hr']

/-- Lookups that are current after a repeat were of the repeated record before. -/
theorem Current.harmless (h : Current lc (puts++[r])) : Harmless lc puts r := by
  intro hr
  have hput := h.byOldAddress r.old_address
  rw [(answers_concat hr.1 _).1,if_pos rfl,latest_old (.inr hr)] at hput
  obtain ⟨last,hlast,hnorm⟩ := Option.map_eq_some_iff.mp (Except.ok.inj hput).symm
  exact ⟨last,hlast,hnorm⟩

theorem current_nil (lc : Locale) : Current lc [] := ⟨fun _ => rfl,nofun⟩

theorem current_run (h : ∀ before r, before++[r] <+: puts → Harmless lc before r) :
    ∀ before, before <+: puts → Current lc before := by
  intro before hbefore
  induction before using List.reverseRecOn with
  | nil => exact current_nil lc
  | append_singleton before r ih =>
    exact (ih ((List.prefix_append before [r]).trans hbefore)).put (h before r hbefore)

/-- A run of puts is lawful exactly when what it repeats is current. -/
theorem lawful_iff (lc : Locale) (puts : List MigrationRecord) :
    Lawful lc puts ↔ ∀ before r, before++[r] <+: puts → Harmless lc before r := by
  constructor
  · intro h before r hbefore
    exact (h.current _ hbefore).harmless
  · intro h
    refine ⟨current_run h,fun before r hbefore hr => ?_⟩
    exact (current_run h before ((List.prefix_append before [r]).trans hbefore)).unchanged hr
      (h before r hbefore)

end Law

namespace Sample

def letters : Locale := ⟨⟨fun _ => .nan,fun _ => raiseType⟩,id⟩

def signatureBlock (keyId : JsString) : Json :=
  .obj [(js "algorithm",.str (js "ed25519")),(js "key_id",.str keyId),(js "value",.str (js "AAAA"))]

/-- A record of `alice@old.example` under an id. -/
def record (id : JsString) : MigrationRecord where
  members := [(js "type",.str (js "SEMP_MIGRATION")),(js "version",.str (js "1.0.0")),
    (js "record_id",.str id),(js "old_address",.str (js "alice@old.example")),
    (js "new_address",.str (js "alice@new.example")),(js "old_identity_key_id",.str (js "k1")),
    (js "new_identity_key_id",.str (js "k2")),(js "new_identity_public_key",.str (js "AAAA")),
    (js "migrated_at",.str (js "2026-01-01T00:00:00Z")),(js "notice_window_until",.null),
    (js "mode",.str (js "unilateral")),(js "old_identity_signature",signatureBlock (js "k1")),
    (js "new_identity_signature",signatureBlock (js "k2")),
    (js "new_domain_signature",signatureBlock (js "k3")),(js "old_domain_signature",.null)]
  wf := by
    have hblock (keyId : JsString) : (signatureBlock keyId).WF :=
      Json.wf_of_keys [js "algorithm",js "key_id",js "value"] rfl (by decide) (by simp)
    exact Json.wf_of_keys [js "type",js "version",js "record_id",js "old_address",js "new_address",
      js "old_identity_key_id",js "new_identity_key_id",js "new_identity_public_key",
      js "migrated_at",js "notice_window_until",js "mode",js "old_identity_signature",
      js "new_identity_signature",js "new_domain_signature",js "old_domain_signature"] rfl
      (by decide) (by simp [hblock])
  record_id := id
  old_address := js "alice@old.example"
  has_record_id := rfl
  has_old_address := rfl

end Sample

/-- A repeat of the first of two records brings it back. -/
theorem not_lawful :
    ¬Lawful Sample.letters [Sample.record (js "01A"),Sample.record (js "01B"),
      Sample.record (js "01A")] := by
  intro h
  have hcur := h.current ([Sample.record (js "01A"),Sample.record (js "01B")]++
    [Sample.record (js "01A")]) List.prefix_rfl
  obtain ⟨last,hlast,hnorm⟩ := hcur.harmless (by decide)
  have hlatest : latest Sample.letters [Sample.record (js "01A"),Sample.record (js "01B")]
      (js "alice@old.example") = some (Sample.record (js "01B")) := rfl
  obtain rfl := Option.some.inj (hlatest.symm.trans hlast)
  exact absurd (record_id_of_norm hnorm) (by decide)

end Migration
end Semp
