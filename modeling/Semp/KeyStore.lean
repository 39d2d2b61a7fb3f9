import Semp.Method
import Semp.JsValue

/-! The in-memory store of public key records.  A record is what the caller's object holds
when it is put: an object that was stored when its key was revoked carries the revocation
from then on. -/
namespace Semp

inductive KeyType
  | domain
  | identity
  | encryption
  | device
  deriving DecidableEq, Repr

structure Revocation where
  reason : JsString
  revoked_at : JsString
  replacement_key_id : Option JsString
  deriving DecidableEq, Repr

structure KeyStoreRecord where
  address : Option JsString
  key_type : KeyType
  algorithm : JsString
  public_key : JsString
  key_id : JsString
  created : JsString
  expires : Option JsString
  revocation : Option Revocation
  deriving DecidableEq, Repr

/-- The record with a revocation of this key written into it. -/
def KeyStoreRecord.revoke (r : KeyStoreRecord) (keyId : JsString) (rev : Revocation) :
    KeyStoreRecord := if r.key_id = keyId then {r with revocation := some rev} else r

@[simp] theorem KeyStoreRecord.revoke_key_id (r : KeyStoreRecord) (keyId : JsString)
    (rev : Revocation) : (r.revoke keyId rev).key_id = r.key_id := by
  unfold revoke
  split_ifs <;> rfl

/-- Both maps are in insertion order. -/
structure InMemoryKeyStore where
  domainKeys : List (JsString × KeyStoreRecord)
  userKeys : List (JsString × List KeyStoreRecord)

namespace InMemoryKeyStore

def new : InMemoryKeyStore := ⟨[],[]⟩

def putDomainRecord (domain : JsString) (rec : KeyStoreRecord) :
    Method Thrown InMemoryKeyStore Unit :=
  modify fun s => {s with domainKeys := assign s.domainKeys domain rec}

def lookupDomainKey (s : InMemoryKeyStore) (domain : JsString) : Option KeyStoreRecord :=
  lookup s.domainKeys domain

def lookupUserKeys (s : InMemoryKeyStore) (address : JsString) (keyTypes : Option (List KeyType)) :
    List KeyStoreRecord :=
  let all := (lookup s.userKeys address).getD []
  match keyTypes with
  | none | some [] => all
  | some want => all.filter fun r => decide (r.key_type ∈ want)

def setUserKeys (s : InMemoryKeyStore) (address : JsString) (list : List KeyStoreRecord) :
    InMemoryKeyStore := {s with userKeys := assign s.userKeys address list}

/-- A record that is no user key is passed over. -/
def putRecord (rec : KeyStoreRecord) : Method Thrown InMemoryKeyStore Unit :=
  if rec.key_type = .domain then pure ()
  else
    match rec.address with
    | none | some [] => liftM (raise (js "keys: putRecord on user key requires address") : Js Unit)
    | some address => modify fun s =>
      match lookup s.userKeys address with
      | none => s.setUserKeys address [rec]
      | some list => s.setUserKeys address (list++[rec])

def putRevocation (keyId : JsString) (rev : Revocation) : Method Thrown InMemoryKeyStore Unit :=
  modify fun s => {
    userKeys := s.userKeys.map fun m => (m.1,m.2.map fun r => r.revoke keyId rev)
    domainKeys := s.domainKeys.map fun m => (m.1,m.2.revoke keyId rev) }

/-- The calls that write. -/
inductive Call
  | putRecord (rec : KeyStoreRecord)
  | putDomainRecord (domain : JsString) (rec : KeyStoreRecord)
  | putRevocation (keyId : JsString) (rev : Revocation)

def write : Call → Method Thrown InMemoryKeyStore Unit
  | .putRecord rec => putRecord rec
  | .putDomainRecord domain rec => putDomainRecord domain rec
  | .putRevocation keyId rev => putRevocation keyId rev

/-- The record that a call stores. -/
def Call.stores : Call → Option KeyStoreRecord
  | .putRecord rec =>
    if rec.key_type = .domain ∨ rec.address = none ∨ rec.address = some [] then none else some rec
  | .putDomainRecord _ rec => some rec
  | .putRevocation .. => none

/-- The store after these calls; one that throws leaves it as it was. -/
def after (calls : List Call) : InMemoryKeyStore := (Method.run write calls new).2

/-- The key was revoked by one of the calls. -/
def Revoked (calls : List Call) (keyId : JsString) : Prop := ∃ rev, .putRevocation keyId rev ∈ calls

/-- Every lookup that returns a record of a revoked key returns it with a revocation. -/
structure Sticks (calls : List Call) : Prop where
  user : ∀ address keyTypes, ∀ r ∈ (after calls).lookupUserKeys address keyTypes,
    Revoked calls r.key_id → r.revocation.isSome
  domain : ∀ domain, ∀ r ∈ (after calls).lookupDomainKey domain,
    Revoked calls r.key_id → r.revocation.isSome

/-- No record of a revoked key is stored without a revocation of its own. -/
def Marked (calls : List Call) : Prop := ∀ before c later, calls = before++c::later →
  ∀ r ∈ c.stores, Revoked before r.key_id → r.revocation.isSome

/-- The store holds the record. -/
def Has (s : InMemoryKeyStore) (r : KeyStoreRecord) : Prop :=
  (∃ address list, lookup s.userKeys address = some list ∧ r ∈ list) ∨
    ∃ domain, lookup s.domainKeys domain = some r

theorem mem_lookupUserKeys {s : InMemoryKeyStore} {address : JsString}
    {keyTypes : Option (List KeyType)} {r : KeyStoreRecord}
    (h : r ∈ s.lookupUserKeys address keyTypes) : s.Has r := by
  have hall : r ∈ (lookup s.userKeys address).getD [] := by
    unfold lookupUserKeys at h
    split at h
    · exact h
    · exact h
    · exact List.mem_of_mem_filter h
  cases hl : lookup s.userKeys address with
  | none => simp [hl] at hall
  | some list => exact .inl ⟨address,list,hl,by simpa [hl] using hall⟩

theorem sticks_iff {calls : List Call} : Sticks calls ↔
    ∀ r, (after calls).Has r → Revoked calls r.key_id → r.revocation.isSome := by
  constructor
  · rintro h r (⟨address,list,hl,hr⟩ | ⟨domain,hd⟩)
    · refine h.user address none r ?_
      rw [lookupUserKeys,hl]
      exact hr
    · exact h.domain domain r hd
  · exact fun h => ⟨fun _ _ r hr => h r (mem_lookupUserKeys hr),fun d r hr => h r (.inr ⟨d,hr⟩)⟩

section Writes
variable {s : InMemoryKeyStore} {r : KeyStoreRecord}

theorem has_putDomainRecord {domain : JsString} {rec : KeyStoreRecord}
    (h : ((putDomainRecord domain rec).call s).2.Has r) : r = rec ∨ s.Has r := by
  obtain h | ⟨d,hd⟩ := h
  · exact .inr (.inl h)
  · by_cases hk : d = domain
    · subst hk
      exact .inl (Option.some.inj (hd.symm.trans (lookup_assign_self ..)))
    · exact .inr (.inr ⟨d,(lookup_assign_ne _ hk).symm.trans hd⟩)

/-- A list of user keys that was written. -/
theorem has_assign {address : JsString} {list : List KeyStoreRecord}
    (h : (s.setUserKeys address list).Has r) : r ∈ list ∨ s.Has r := by
  obtain ⟨a,l,hl,hr⟩ | h := h
  · by_cases hk : a = address
    · subst hk
      obtain rfl := Option.some.inj (hl.symm.trans (lookup_assign_self ..))
      exact .inl hr
    · exact .inr (.inl ⟨a,l,(lookup_assign_ne _ hk).symm.trans hl,hr⟩)
  · exact .inr (.inr h)

/-- What a put of a user key does: nothing, or one more record under its address. -/
theorem putRecord_cases (rec : KeyStoreRecord) :
    (Call.putRecord rec).stores = none ∧ ((putRecord rec).call s).2 = s ∨
      ∃ address, (Call.putRecord rec).stores = some rec ∧ ((putRecord rec).call s).2 =
        s.setUserKeys address ((lookup s.userKeys address).getD []++[rec]) := by
  unfold putRecord
  rw [Call.stores]
  by_cases htype : rec.key_type = .domain
  · rw [if_pos htype,if_pos (.inl htype)]
    exact .inl ⟨rfl,rfl⟩
  rw [if_neg htype]
  cases haddress : rec.address with
  | none => exact .inl ⟨if_pos (.inr (.inl rfl)),rfl⟩
  | some address =>
    cases address with
    | nil => exact .inl ⟨if_pos (.inr (.inr rfl)),rfl⟩
    | cons u us =>
      refine .inr ⟨u::us,if_neg (by simp [htype]),?_⟩
      rw [Method.call_modify]
      cases hl : lookup s.userKeys (u::us) <;> rfl

/-- What a store holds after a put: the record that was put, or what it held before. -/
theorem has_putRecord {rec : KeyStoreRecord} (h : ((putRecord rec).call s).2.Has r) :
    r ∈ (Call.putRecord rec).stores ∨ s.Has r := by
  obtain ⟨-,hs⟩ | ⟨address,hstores,hs⟩ := putRecord_cases (s := s) rec
  · rw [hs] at h
    exact .inr h
  · rw [hs] at h
    obtain hr | h := has_assign h
    · obtain hr | hr := List.mem_append.mp hr
      · cases hl : lookup s.userKeys address with
        | none => simp [hl] at hr
        | some list => exact .inr (.inl ⟨address,list,hl,by simpa [hl] using hr⟩)
      · rw [hstores,List.mem_singleton.mp hr]
        exact .inl rfl
    · exact .inr h

theorem has_putRevocation {keyId : JsString} {rev : Revocation}
    (h : ((putRevocation keyId rev).call s).2.Has r) :
    ∃ r', s.Has r' ∧ r = r'.revoke keyId rev := by
  rw [putRevocation,Method.call_modify] at h
  obtain ⟨a,l,hl,hr⟩ | ⟨d,hd⟩ := h
  · rw [lookup_map,Option.map_eq_some_iff] at hl
    obtain ⟨list,hlist,rfl⟩ := hl
    obtain ⟨r',hr',rfl⟩ := List.mem_map.mp hr
    exact ⟨r',.inl ⟨a,list,hlist,hr'⟩,rfl⟩
  · have hmap := lookup_map (KeyStoreRecord.revoke · keyId rev) s.domainKeys d
    rw [hmap,Option.map_eq_some_iff] at hd
    obtain ⟨r',hr',rfl⟩ := hd
    exact ⟨r',.inr ⟨d,hr'⟩,rfl⟩

/-- The record of a put is held after it. -/
theorem stores_has {c : Call} (h : r ∈ c.stores) : ((write c).call s).2.Has r := by
  cases c with
  | putRecord rec =>
    obtain ⟨hnone,-⟩ | ⟨address,hstores,hs⟩ := putRecord_cases (s := s) rec
    · rw [hnone] at h
      cases h
    · rw [hstores] at h
      obtain rfl := Option.some.inj h
      rw [write,hs]
      exact .inl ⟨address,_,lookup_assign_self ..,List.mem_append_right _ (by simp)⟩
  | putDomainRecord domain rec =>
    obtain rfl := Option.some.inj h
    exact .inr ⟨domain,lookup_assign_self ..⟩
  | putRevocation keyId rev => cases h

end Writes

theorem after_concat (calls : List Call) (c : Call) :
    after (calls++[c]) = ((write c).call (after calls)).2 := by
  rw [after,Method.run_concat]
  rfl

theorem Revoked.mono {calls : List Call} {keyId : JsString} (h : Revoked calls keyId)
    (c : Call) : Revoked (calls++[c]) keyId := by
  obtain ⟨rev,hrev⟩ := h
  exact ⟨rev,List.mem_append_left _ hrev⟩

theorem revoked_concat {calls : List Call} {c : Call} {keyId : JsString}
    (h : Revoked (calls++[c]) keyId) :
    Revoked calls keyId ∨ ∃ rev, c = .putRevocation keyId rev := by
  obtain ⟨rev,hrev⟩ := h
  obtain hrev | hrev := List.mem_append.mp hrev
  · exact .inl ⟨rev,hrev⟩
  · exact .inr ⟨rev,(List.mem_singleton.mp hrev).symm⟩

/-- One more call keeps the revocations, when a record that it puts is marked. -/
theorem Sticks.step {calls : List Call} (h : Sticks calls) (c : Call)
    (hc : ∀ r ∈ c.stores, Revoked calls r.key_id → r.revocation.isSome) : Sticks (calls++[c]) := by
  rw [sticks_iff] at h ⊢
  intro r hr hrev
  rw [after_concat] at hr
  -- a put revokes nothing, so the record was marked already, or is the one that is put
  have hput (hno : ∀ keyId rev, c ≠ .putRevocation keyId rev)
      (hold : r ∈ c.stores ∨ (after calls).Has r) : r.revocation.isSome := by
    obtain hrev | ⟨rev,rfl⟩ := revoked_concat hrev
    · exact hold.elim (hc r · hrev) (h r · hrev)
    · exact absurd rfl (hno _ _)
  cases c with
  | putRecord rec => exact hput nofun (has_putRecord hr)
  | putDomainRecord domain rec =>
    refine hput nofun ?_
    obtain rfl | hr := has_putDomainRecord hr
    · exact .inl rfl
    · exact .inr hr
  | putRevocation keyId rev =>
    obtain ⟨r',hr',rfl⟩ := has_putRevocation hr
    rw [KeyStoreRecord.revoke_key_id] at hrev
    unfold KeyStoreRecord.revoke
    split_ifs with hk
    · rfl
    · obtain hrev | ⟨rev',heq⟩ := revoked_concat hrev
      · exact h r' hr' hrev
      · exact absurd (Call.putRevocation.inj heq).1.symm hk

theorem Marked.of_append {before later : List Call} (h : Marked (before++later)) :
    Marked before := by
  rintro front c rest rfl
  exact h front c (rest++later) (by simp)

theorem sticks_nil : Sticks [] := sticks_iff.mpr fun r hr => by
  obtain ⟨_,_,h,-⟩ | ⟨_,h⟩ := hr <;> cases h

theorem Marked.sticks {calls : List Call} (h : Marked calls) : Sticks calls := by
  induction calls using List.reverseRecOn with
  | nil => exact sticks_nil
  | append_singleton calls c ih => exact (ih h.of_append).step c (h calls c [] rfl)

/-- Revocations stick in every state of a run exactly when no record of a revoked key is put
without one. -/
theorem sticks_run_iff (calls : List Call) :
    (∀ before later, calls = before++later → Sticks before) ↔ Marked calls := by
  constructor
  · rintro h before c later rfl r hr hrev
    have hs := sticks_iff.mp (h (before++[c]) later (by simp))
    refine hs r ?_ (hrev.mono c)
    rw [after_concat]
    exact stores_has hr
  · rintro h before later rfl
    exact h.of_append.sticks

/-- A key is revoked, and then its record is fetched again. -/
theorem not_sticks_refetched :
    let fetched : KeyStoreRecord := ⟨some (js "alice@example.com"),.encryption,js "x25519",
      js "AAAA",js "enc-1",js "2026-05-08T10:00:00Z",none,none⟩
    let rev : Revocation := ⟨js "key_compromise",js "2026-05-08T11:00:00Z",none⟩
    ¬ Sticks [.putRecord fetched,.putRevocation (js "enc-1") rev,.putRecord fetched] := by
  intro fetched rev h
  have hsome := h.user (js "alice@example.com") none fetched (by decide +kernel)
    ⟨rev,List.mem_cons_of_mem _ List.mem_cons_self⟩
  cases hsome

end InMemoryKeyStore
end Semp
