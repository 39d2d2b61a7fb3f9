import Mathlib.Data.List.Chain
import Semp.Handshake
import Semp.JsDate
import Semp.JsMap
import Semp.Method
import Semp.NumberGrowth

/-! The in-memory store of backup bundles: the current bundle of a user and those it superseded.
A call that reads the clock has the reading as an argument. -/
namespace Semp
namespace Recovery
open Handshake (require require_eq_ok reparsed reparsed_wf reparse_obj)

def minSupersededRetentionMs : ℕ := 30*24*60*60*1000

/-- A bundle is a JSON object. -/
abbrev BackupBundle := {ms : Members // (Json.obj ms).WF}

def BackupBundle.json (b : BackupBundle) : Json := .obj b.val

structure BundleRecord where
  bundle : Json
  /-- `""` while the bundle is current. -/
  supersededAt : Option ℤ

def BundleRecord.isCurrent (r : BundleRecord) : Bool := r.supersededAt.isNone

abbrev BundleStore := JsMap (List BundleRecord)

def deepClone (v : Json) : Js Json := parseJson (JsonText.stringify v)

/-- `current.supersededAt = second`, for the record that `find` gives. -/
def supersede (second : ℤ) : List BundleRecord → List BundleRecord
  | [] => []
  | r::rs =>
    if r.isCurrent then {r with supersededAt := some second}::rs else r::supersede second rs

/-- The bundles of the user, with the current one superseded. -/
def makeRoom (userId : JsString) (supersedes : Option Json) (supersededAt : JsDate)
    (existing : List BundleRecord) : Js (List BundleRecord) :=
  match existing.find? BundleRecord.isCurrent with
  | none => do
    require (strictEq supersedes (some .null) = true ∨ isStr supersedes [] = true)
      (js "recovery: initial bundle for "++userId++js " sets supersedes="++
        stringifyText supersedes++js "; expected null")
    .ok existing
  | some current => do
    let currentId ← getProp (some current.bundle) (js "bundle_id")
    require (strictEq supersedes currentId = true)
      (js "recovery: bundle.supersedes "++stringifyText supersedes++
        js " does not match current bundle id "++stringifyText currentId)
    let second ← JsDate.isoSecond supersededAt
    .ok (supersede second existing)

/-- The checks of a put. -/
def checkPut (userId : JsString) (bundle : BackupBundle) (supersededAt : JsDate)
    (existing : List BundleRecord) : Js (List BundleRecord) := do
  require (userId ≠ []) (js "recovery: empty userId")
  let user := lookup bundle.val (js "user_id")
  require (strictEq user (some (.str userId)) = true)
    (js "recovery: bundle.user_id "++stringifyText user++js " does not match "++
      JsonText.quote userId)
  makeRoom userId (lookup bundle.val (js "supersedes")) supersededAt existing

def putCurrent (userId : JsString) (bundle : BackupBundle) (supersededAt : JsDate) :
    Method Thrown BundleStore Unit := do
  let s ← get
  let next ← checkPut userId bundle supersededAt ((s.get userId).getD [])
  -- The list of the map is written to before the bundle is cloned.
  modify fun s => if s.has userId then s.set userId next else s
  let clone ← deepClone bundle.json
  modify fun s => s.set userId (next++[⟨clone,none⟩])

def getCurrent (s : BundleStore) (userId : JsString) : Js (Option Json) :=
  match s.get userId with
  | none => .ok none
  | some list =>
    match list.find? BundleRecord.isCurrent with
    | none => .ok none
    | some cur => (deepClone cur.bundle).map some

def deleteAll (userId : JsString) : Method Thrown BundleStore Unit := modify (·.delete userId)

/-- What the filter of a prune retains. -/
def retained (cutoff : Number) (r : BundleRecord) : Bool :=
  match r.supersededAt with
  | none => true
  | some second =>
    let ts := (JsDate.parse second).getTime
    if ts.isNaN then true else !ts.lt cutoff

def clampRetention (retainForMs : Number) : Number :=
  if retainForMs.lt (.ofNat minSupersededRetentionMs) then .ofNat minSupersededRetentionMs
  else retainForMs

def prunedList (cutoff : Number) (list : List BundleRecord) : Option (List BundleRecord) :=
  let next := list.filter (retained cutoff)
  if next = [] then none else some next

/-- Gives the number of those that were pruned. -/
def pruneSuperseded (retainForMs : Number) (now : JsDate) : Method Thrown BundleStore ℕ := do
  let s ← get
  let cutoff := now.getTime.sub (clampRetention retainForMs)
  set (s.rewrite (prunedList cutoff))
  return (s.values.map fun list => (list.filter (!retained cutoff ·)).length).sum

inductive Call
  | putCurrent (userId : JsString) (bundle : BackupBundle) (supersededAt : JsDate)
  | deleteAll (userId : JsString)
  | pruneSuperseded (retainForMs : Number) (now : JsDate)

def Call.perform : Call → Method Thrown BundleStore ℕ
  | putCurrent userId bundle supersededAt => do
    Recovery.putCurrent userId bundle supersededAt
    return 0
  | deleteAll userId => do
    Recovery.deleteAll userId
    return 0
  | pruneSuperseded retainForMs now => Recovery.pruneSuperseded retainForMs now

/-- A call and what came of it. -/
abbrev Event := Call × Except Thrown ℕ

/-- The bundles that were put for a user since the last `deleteAll`, after one more event. -/
def track (user : JsString) (puts : List BackupBundle) : Event → List BackupBundle
  | (.putCurrent u b _,.ok _) => if u = user then puts++[b] else puts
  | (.deleteAll u,_) => if u = user then [] else puts
  | _ => puts

def putsOf (user : JsString) (log : List Event) : List BackupBundle := log.foldl (track user) []

theorem putsOf_concat (user : JsString) (log : List Event) (e : Event) :
    putsOf user (log++[e]) = track user (putsOf user log) e := by
  rw [putsOf,List.foldl_concat]
  rfl

/-- The id of a bundle, as its clone has it. -/
def BackupBundle.storedId (b : BackupBundle) : Option Json :=
  (lookup b.val (js "bundle_id")).map Json.reparse

/-- The second bundle says that it supersedes the first. -/
def Names (b b' : BackupBundle) : Prop :=
  strictEq (lookup b'.val (js "supersedes")) b.storedId = true

section Put
variable {s : BundleStore} {userId : JsString} {b : BackupBundle} {supersededAt : JsDate}
  {existing next : List BundleRecord}

/-- The bundle as a JSON text gives it back. -/
def BackupBundle.clone (b : BackupBundle) : Json := .obj (reparsed b.val)

theorem deepClone_json (b : BackupBundle) : deepClone b.json = .ok b.clone := by
  rw [deepClone,BackupBundle.json,parseJson_stringify b.property,reparse_obj,BackupBundle.clone]

theorem deepClone_clone (b : BackupBundle) : deepClone b.clone = .ok b.clone := by
  rw [deepClone,BackupBundle.clone,parseJson_stringify (reparsed_wf b.property),← reparse_obj,
    Json.reparse_reparse]

theorem getProp_clone (b : BackupBundle) :
    getProp (some b.clone) (js "bundle_id") = .ok b.storedId := by
  rw [BackupBundle.clone,getProp_obj,reparsed,lookup_map,BackupBundle.storedId]

/-- What a put does: it throws and changes nothing, or the list of the user ends with the
bundle. -/
theorem putCurrent_cases (s : BundleStore) (userId : JsString) (b : BackupBundle)
    (supersededAt : JsDate) :
    (∃ err, (putCurrent userId b supersededAt).call s = (.error err,s)) ∨
    ∃ next s', checkPut userId b supersededAt ((s.get userId).getD []) = .ok next ∧
      (putCurrent userId b supersededAt).call s = (.ok (),s') ∧
      ∀ user, s'.get user = if user = userId then some (next++[⟨b.clone,none⟩])
        else s.get user := by
  rw [putCurrent,Method.get_bind,Method.call_bind,Method.call_lift]
  cases hroom : checkPut userId b supersededAt ((s.get userId).getD []) with
  | error err => exact .inl ⟨err,rfl⟩
  | ok next =>
    refine .inr ⟨next,(if s.has userId then s.set userId next else s).set userId
      (next++[⟨b.clone,none⟩]),rfl,?_,?_⟩
    · simp only [Method.call_bind,Method.call_lift,deepClone_json,Method.call_modify]
    · intro user
      by_cases huser : user = userId
      · subst huser
        rw [if_pos rfl,JsMap.get_set_self]
      · rw [if_neg huser,JsMap.get_set_ne huser]
        split_ifs
        · exact JsMap.get_set_ne huser
        · rfl

theorem checkPut_eq_ok : checkPut userId b supersededAt existing = .ok next ↔ userId ≠ [] ∧
    strictEq (lookup b.val (js "user_id")) (some (.str userId)) = true ∧
    makeRoom userId (lookup b.val (js "supersedes")) supersededAt existing = .ok next := by
  rw [checkPut]
  simp only [bind_eq_ok,require_eq_ok,exists_const]

/-- A list without a current record. -/
theorem find?_kept {kept : List BundleRecord} (h : ∀ r ∈ kept, r.isCurrent = false)
    (cur : BundleRecord) (hcur : cur.isCurrent = true) :
    (kept++[cur]).find? BundleRecord.isCurrent = some cur := by
  rw [List.find?_append,List.find?_eq_none.mpr fun r hr => by simp [h r hr]]
  simp [hcur]

theorem supersede_kept {kept : List BundleRecord} (h : ∀ r ∈ kept, r.isCurrent = false)
    (cur : BundleRecord) (hcur : cur.isCurrent = true) (second : ℤ) :
    supersede second (kept++[cur]) = kept++[{cur with supersededAt := some second}] := by
  induction kept with
  | nil => rw [List.nil_append,supersede,if_pos hcur,List.nil_append]
  | cons r kept ih =>
    rw [List.cons_append,supersede,if_neg (by simp [h r List.mem_cons_self]),
      ih fun r' hr' => h r' (List.mem_cons_of_mem _ hr')]
    rfl

end Put

/-- The list of a user for whom these bundles were put: the last is current, and of the others
some are there, in order. -/
inductive Holds : List BackupBundle → Option (List BundleRecord) → Prop
  | absent : Holds [] none
  | listed {older : List BackupBundle} {last : BackupBundle} {kept : List BundleRecord}
      (hkept : ∀ r ∈ kept, r.isCurrent = false)
      (hsub : (kept.map BundleRecord.bundle).Sublist (older.map BackupBundle.clone)) :
      Holds (older++[last]) (some (kept++[⟨last.clone,none⟩]))

section Steps
variable {puts : List BackupBundle} {o : Option (List BundleRecord)} {userId : JsString}
  {b : BackupBundle} {supersededAt : JsDate} {next : List BundleRecord}

/-- A put appends, and names the bundle before. -/
theorem Holds.put (h : Holds puts o)
    (hnext : checkPut userId b supersededAt (o.getD []) = .ok next) :
    Holds (puts++[b]) (some (next++[⟨b.clone,none⟩])) ∧ ∀ last ∈ puts.getLast?, Names last b := by
  obtain ⟨-,-,hroom⟩ := checkPut_eq_ok.mp hnext
  cases h with
  | absent =>
    rw [Option.getD_none,makeRoom,List.find?_nil] at hroom
    obtain ⟨_,-,hroom⟩ := bind_eq_ok.mp hroom
    obtain rfl := Except.ok.inj hroom
    exact ⟨@Holds.listed [] b [] nofun .slnil,nofun⟩
  | @listed older last kept hkept hsub =>
    rw [Option.getD_some,makeRoom,find?_kept hkept _ rfl] at hroom
    simp only [getProp_clone,ok_bind,bind_eq_ok,require_eq_ok,exists_const] at hroom
    obtain ⟨hnames,second,-,hroom⟩ := hroom
    obtain rfl := Except.ok.inj hroom
    rw [supersede_kept hkept _ rfl]
    refine ⟨.listed (fun r hr => ?_) ?_,fun l hl => ?_⟩
    · obtain hr | hr := List.mem_append.mp hr
      · exact hkept r hr
      · rw [List.mem_singleton.mp hr]
        rfl
    · rw [List.map_append,List.map_append]
      exact hsub.append (.refl _)
    · rw [List.getLast?_concat] at hl
      obtain rfl := Option.some.inj hl
      exact hnames

theorem Holds.prune (h : Holds puts o) (cutoff : Number) :
    Holds puts (o.bind (prunedList cutoff)) := by
  cases h with
  | absent => exact .absent
  | @listed older last kept hkept hsub =>
    have hfilter : (kept++[(⟨last.clone,none⟩ : BundleRecord)]).filter (retained cutoff) =
        kept.filter (retained cutoff)++[⟨last.clone,none⟩] := by
      rw [List.filter_append]
      rfl
    rw [Option.bind_some,prunedList]
    simp only [hfilter]
    rw [if_neg (by simp)]
    exact .listed (fun r hr => hkept r (List.mem_of_mem_filter hr))
      ((List.filter_sublist.map _).trans hsub)

end Steps

/-- What holds of the store after these events, for every user. -/
structure Kept (log : List Event) (s : BundleStore) : Prop where
  holds : ∀ user, Holds (putsOf user log) (s.get user)
  linked : ∀ user, (putsOf user log).IsChain Names

theorem Kept.step {log : List Event} {s : BundleStore} (h : Kept log s) (call : Call) :
    Kept (log++[(call,(call.perform.call s).1)]) (call.perform.call s).2 := by
  cases call with
  | putCurrent userId b supersededAt =>
    rw [Call.perform,Method.call_bind]
    obtain ⟨err,hcall⟩ | ⟨next,s',hnext,hcall,hs'⟩ := putCurrent_cases s userId b supersededAt
    · rw [hcall]
      exact ⟨fun user => by rw [putsOf_concat]; exact h.holds user,
        fun user => by rw [putsOf_concat]; exact h.linked user⟩
    · rw [hcall]
      have hput := (h.holds userId).put hnext
      refine ⟨fun user => ?_,fun user => ?_⟩
      · change Holds (putsOf user (log++[(.putCurrent userId b supersededAt,.ok 0)])) (s'.get user)
        rw [putsOf_concat,hs']
        by_cases huser : user = userId
        · subst huser
          rw [if_pos rfl,track,if_pos rfl]
          exact hput.1
        · rw [if_neg huser,track,if_neg (Ne.symm huser)]
          exact h.holds user
      · change (putsOf user (log++[(.putCurrent userId b supersededAt,.ok 0)])).IsChain Names
        rw [putsOf_concat]
        by_cases huser : user = userId
        · subst huser
          rw [track,if_pos rfl]
          refine List.isChain_append.mpr ⟨h.linked user,.singleton b,fun l hl b' hb' => ?_⟩
          obtain rfl := Option.some.inj hb'
          exact hput.2 l hl
        · rw [track,if_neg (Ne.symm huser)]
          exact h.linked user
  | deleteAll userId =>
    refine ⟨fun user => ?_,fun user => ?_⟩
    · change Holds (putsOf user (log++[_])) ((s.delete userId).get user)
      rw [putsOf_concat,track]
      by_cases huser : user = userId
      · subst huser
        rw [if_pos rfl,JsMap.get_delete_self]
        exact .absent
      · rw [if_neg (Ne.symm huser),JsMap.get_delete_ne huser]
        exact h.holds user
    · rw [putsOf_concat,track]
      split_ifs
      · exact .nil
      · exact h.linked user
  | pruneSuperseded retainForMs now =>
    refine ⟨fun user => ?_,fun user => ?_⟩
    · change Holds (putsOf user (log++[_])) ((s.rewrite _).get user)
      rw [putsOf_concat,JsMap.get_rewrite]
      exact (h.holds user).prune _
    · rw [putsOf_concat]
      exact h.linked user

/-- The calls on a new store with what came of them, and the store after them. -/
def history (calls : List Call) : List Event := (Method.run Call.perform calls .empty).1
def stored (calls : List Call) : BundleStore := (Method.run Call.perform calls .empty).2

theorem kept_run (calls : List Call) : Kept (history calls) (stored calls) :=
  Method.run_inv (P := Kept) (fun _ _ call h => h.step call)
    ⟨fun _ => by rw [JsMap.get_empty]; exact .absent,fun _ => .nil⟩ calls

section Prune
variable {second t : ℤ} {retainForMs : Number}

theorem clampRetention_floor (retainForMs : Number) :
    (clampRetention retainForMs).lt (.ofNat minSupersededRetentionMs) = false := by
  unfold clampRetention
  split_ifs with h
  · rw [Number.lt_ofNat (by decide) (by decide)]
    rfl
  · exact Bool.eq_false_iff.mpr h

/-- A prune retains what was superseded less than thirty days before. -/
theorem retained_recent (ht : |t| ≤ JsDate.maxTime) (retainForMs : Number)
    {r : BundleRecord} (hr : r.supersededAt = some second)
    (h : t-second*1000 < minSupersededRetentionMs) :
    retained ((JsDate.getTime (some t)).sub (clampRetention retainForMs)) r = true := by
  have habs : t.natAbs < 2^53 := by
    simp only [JsDate.maxTime,abs_le] at ht
    omega
  rw [retained,hr]
  change (if (Number.ofInt (second*1000)).isNaN = true then true else
    !(Number.ofInt (second*1000)).lt ((Number.ofInt t).sub (clampRetention retainForMs))) = true
  by_cases hnan : (Number.ofInt (second*1000)).isNaN = true
  · rw [if_pos hnan]
  · rw [if_neg hnan,Bool.not_eq_true']
    refine Bool.eq_false_iff.mpr fun hlt => ?_
    have := Number.lt_sub_span habs (by decide) (clampRetention_floor retainForMs) hlt
    omega

end Prune

/-- What a store of bundles is for. -/
structure Sound (log : List Event) (s : BundleStore) : Prop where
  one_current : ∀ user list, s.get user = some list →
    ∃ cur, list.filter BundleRecord.isCurrent = [cur]
  /-- The current bundle is the last that was put since the user's bundles were deleted. -/
  current : ∀ user, getCurrent s user = .ok ((putsOf user log).getLast?.map BackupBundle.clone)
  linked : ∀ user, (putsOf user log).IsChain Names
  bundles : ∀ user list, s.get user = some list →
    (list.map BundleRecord.bundle).Sublist ((putsOf user log).map BackupBundle.clone)
  rejected : ∀ user b supersededAt err s',
    (putCurrent user b supersededAt).call s = (.error err,s') → s' = s
  retains : ∀ retainForMs now user list r, s.get user = some list → r ∈ list →
    r.isCurrent = true ∨ (∃ second t, r.supersededAt = some second ∧ now = some t ∧
      |t| ≤ JsDate.maxTime ∧ t-second*1000 < minSupersededRetentionMs) →
    ∃ list', ((pruneSuperseded retainForMs now).call s).2.get user = some list' ∧ r ∈ list'

theorem Holds.current {puts : List BackupBundle} {s : BundleStore} {user : JsString}
    (h : Holds puts (s.get user)) :
    getCurrent s user = .ok (puts.getLast?.map BackupBundle.clone) := by
  unfold getCurrent
  generalize s.get user = o at h
  cases h with
  | absent => rfl
  | @listed older last kept hkept hsub =>
    simp only [find?_kept hkept ⟨last.clone,none⟩ rfl,deepClone_clone,List.getLast?_concat]
    rfl

/-- After any calls the store is as it should be. -/
theorem sound_run (calls : List Call) : Sound (history calls) (stored calls) := by
  have h := kept_run calls
  refine ⟨fun user list hlist => ?_,fun user => (h.holds user).current,h.linked,
    fun user list hlist => ?_,fun user b supersededAt err s' hput => ?_,
    fun retainForMs now user list r hlist hr hkeep => ?_⟩
  · have hu := h.holds user
    rw [hlist] at hu
    generalize putsOf user (history calls) = puts at hu
    cases hu with
    | @listed older last kept hkept hsub =>
      refine ⟨⟨last.clone,none⟩,?_⟩
      rw [List.filter_append,List.filter_eq_nil_iff.mpr fun r hr => by simp [hkept r hr]]
      rfl
  · have hu := h.holds user
    rw [hlist] at hu
    generalize putsOf user (history calls) = puts at hu
    cases hu with
    | @listed older last kept hkept hsub =>
      rw [List.map_append,List.map_append]
      exact hsub.append (.refl _)
  · obtain ⟨_,hcall⟩ | ⟨_,_,-,hcall,-⟩ := putCurrent_cases (stored calls) user b supersededAt
    · exact (Prod.mk.inj (hput.symm.trans hcall)).2
    · cases (Prod.mk.inj (hput.symm.trans hcall)).1
  · have hretained : retained ((JsDate.getTime now).sub (clampRetention retainForMs)) r = true := by
      obtain hcur | ⟨second,t,hsecond,rfl,ht,hrecent⟩ := hkeep
      · rw [retained,Option.isNone_iff_eq_none.mp hcur]
      · exact retained_recent ht retainForMs hsecond hrecent
    have hmem := List.mem_filter.mpr ⟨hr,hretained⟩
    refine ⟨_,?_,hmem⟩
    change ((stored calls).rewrite _).get user = _
    rw [JsMap.get_rewrite,hlist,Option.bind_some,prunedList]
    exact if_neg (List.ne_nil_of_mem hmem)

end Recovery
end Semp
