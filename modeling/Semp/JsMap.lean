import Semp.Json

/-! `Map<string, V>`: the entries in insertion order, under distinct keys. -/
namespace Semp

structure JsMap (α : Type) where
  entries : List (JsString × α)
  nodup : (keys entries).Nodup

namespace JsMap
variable {α : Type} (m : JsMap α) (k l : JsString)

def empty : JsMap α := ⟨[],List.nodup_nil⟩

def get : Option α := lookup m.entries k

def has : Bool := (m.get k).isSome

def values : List α := m.entries.map Prod.snd

theorem nodup_filter {ms : List (JsString × α)} (h : (keys ms).Nodup)
    (p : JsString × α → Bool) : (keys (ms.filter p)).Nodup :=
  h.sublist (List.filter_sublist.map Prod.fst)

def set (v : α) : JsMap α := ⟨assign m.entries k v,nodup_keys_assign m.nodup k v⟩

def delete : JsMap α := ⟨m.entries.filter (·.1 ≠ k),nodup_filter m.nodup _⟩

/-- A loop over the entries that deletes those which `p` holds of. -/
def sweep (p : α → Bool) : JsMap α := ⟨m.entries.filter (!p ·.2),nodup_filter m.nodup _⟩

/-- A loop over the entries that writes a new value for each or deletes it. -/
def rewrite (f : α → Option α) : JsMap α where
  entries := m.entries.filterMap fun e => (f e.2).map (e.1,·)
  nodup := by
    refine m.nodup.sublist ?_
    induction m.entries with
    | nil => exact List.Sublist.slnil
    | cons e es ih =>
      obtain ⟨k,v⟩ := e
      cases h : f v with
      | none => simpa [keys,h] using ih.cons k
      | some w => simpa [keys,h] using ih

variable {m k l} {v w : α}

@[ext] theorem ext {m n : JsMap α} (h : m.entries = n.entries) : m = n := by
  cases m
  cases n
  obtain rfl := h
  rfl

theorem get_eq_some : m.get k = some v ↔ (k,v) ∈ m.entries := lookup_eq_some m.nodup

theorem has_iff : m.has k = true ↔ ∃ v, m.get k = some v := Option.isSome_iff_exists

theorem has_eq_false : m.has k = false ↔ m.get k = none := Option.isSome_eq_false_iff.trans
  Option.isNone_iff_eq_none

theorem mem_values : v ∈ m.values ↔ ∃ k, m.get k = some v := by
  simp only [values,List.mem_map,Prod.exists,exists_eq_right,get_eq_some]

@[simp] theorem get_empty : (empty : JsMap α).get k = none := rfl

@[simp] theorem get_set_self : (m.set k v).get k = some v := lookup_assign_self ..

theorem get_set_ne (h : l ≠ k) : (m.set k v).get l = m.get l := lookup_assign_ne v h

theorem get_delete_eq_some : (m.delete k).get l = some v ↔ l ≠ k ∧ m.get l = some v := by
  simp [get_eq_some,delete,and_comm]

@[simp] theorem get_delete_self : (m.delete k).get k = none :=
  Option.eq_none_iff_forall_ne_some.mpr fun _ h => (get_delete_eq_some.mp h).1 rfl

theorem get_delete_ne (h : l ≠ k) : (m.delete k).get l = m.get l :=
  Option.ext fun v => by simp [get_delete_eq_some,h]

theorem get_sweep_eq_some {p : α → Bool} :
    (m.sweep p).get k = some v ↔ m.get k = some v ∧ p v = false := by
  simp [get_eq_some,sweep]

theorem get_rewrite {f : α → Option α} : (m.rewrite f).get k = (m.get k).bind f := by
  refine Option.ext fun w => ?_
  simp only [Option.bind_eq_some_iff,get_eq_some,rewrite,List.mem_filterMap,Option.map_eq_some_iff,
    Prod.exists,Prod.mk.injEq]
  constructor
  · rintro ⟨_,v,hv,_,hw,rfl,rfl⟩
    exact ⟨v,hv,hw⟩
  · rintro ⟨v,hv,hw⟩
    exact ⟨k,v,hv,w,hw,rfl,rfl⟩

end JsMap
end Semp
