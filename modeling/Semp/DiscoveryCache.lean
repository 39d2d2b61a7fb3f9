import Semp.Cells
import Semp.JsMap
import Semp.Blocklist

/-! The cache of discovery results.  Addresses that differ in case share an entry; an entry is
dropped by the first read that finds it expired, and not before. -/
namespace Semp
namespace DiscoveryCache

variable {τ : Type}

structure Entry (τ : Type) where
  value : τ
  expiresAt : Number

abbrev Entries (τ : Type) := JsMap (Entry τ)

def Entry.expired (entry : Entry τ) (now : JsDate) : Bool :=
  (Number.ofNat 0).lt entry.expiresAt && entry.expiresAt.lt now.getTime

/-- Without a positive time to live an entry does not expire. -/
def expiryOf (ttlMs : Number) (now : JsDate) : Number :=
  if (Number.ofNat 0).lt ttlMs then now.getTime.add ttlMs else .ofNat 0

section Code
variable (lc : Locale) (entries : Entries τ) (address : JsString)

/-- The answer, and the entries after it; `now` is the reading of the clock. -/
def get (now : JsDate) : Option τ × Entries τ :=
  let k := lc.toLowerCase address
  match entries.get k with
  | none => (none,entries)
  | some entry =>
    if entry.expired now then (none,entries.delete k)
    else (some entry.value,entries)

def put (value : τ) (ttlMs : Number) (now : JsDate) : Entries τ :=
  entries.set (lc.toLowerCase address) ⟨value,expiryOf ttlMs now⟩

def invalidate : Entries τ := entries.delete (lc.toLowerCase address)

end Code

inductive Event (τ : Type)
  | get (address : JsString) (now : JsDate)
  | put (address : JsString) (value : τ) (ttlMs : Number) (now : JsDate)
  | invalidate (address : JsString)

section Runs
variable (lc : Locale)

def step (entries : Entries τ) : Event τ → Entries τ
  | .get address now => (get lc entries address now).2
  | .put address value ttlMs now => put lc entries address value ttlMs now
  | .invalidate address => invalidate lc entries address

def run (es : List (Event τ)) : Entries τ := es.foldl (step lc) .empty

/-- What a call does to the entry under a key. -/
def entryCell (key : JsString) : Cell (Event τ) (Entry τ) where
  create e :=
    match e with
    | .put address value ttlMs now =>
      if lc.toLowerCase address = key then some ⟨value,expiryOf ttlMs now⟩ else none
    | _ => none
  next e v :=
    match e with
    | .get address now => if lc.toLowerCase address = key ∧ v.expired now then none else some v
    | .put address value ttlMs now =>
      if lc.toLowerCase address = key then some ⟨value,expiryOf ttlMs now⟩ else some v
    | .invalidate address => if lc.toLowerCase address = key then none else some v

/-- A call acts on each entry by itself. -/
theorem get_step (entries : Entries τ) (e : Event τ) (key : JsString) :
    (step lc entries e).get key = (entryCell lc key).step (entries.get key) e := by
  cases e with
  | get address now =>
    rw [step]
    by_cases hkey : lc.toLowerCase address = key
    · subst hkey
      rw [get]
      cases hg : entries.get (lc.toLowerCase address) with
      | none => simp [hg,Cell.step,entryCell]
      | some v =>
        dsimp only
        split_ifs with hexpired
        · simp [Cell.step,entryCell,hexpired]
        · simp [hg,Cell.step,entryCell,hexpired]
    · have hother : (get lc entries address now).2.get key = entries.get key := by
        rw [get]
        cases entries.get (lc.toLowerCase address) with
        | none => rfl
        | some v =>
          dsimp only
          split_ifs
          · exact JsMap.get_delete_ne (Ne.symm hkey)
          · rfl
      rw [hother]
      cases entries.get key <;> simp [Cell.step,entryCell,hkey]
  | put address value ttlMs now =>
    rw [step,put]
    by_cases hkey : lc.toLowerCase address = key
    · subst hkey
      cases entries.get (lc.toLowerCase address) <;> simp [Cell.step,entryCell]
    · rw [JsMap.get_set_ne (Ne.symm hkey)]
      cases entries.get key <;> simp [Cell.step,entryCell,hkey]
  | invalidate address =>
    rw [step,invalidate]
    by_cases hkey : lc.toLowerCase address = key
    · subst hkey
      cases entries.get (lc.toLowerCase address) <;> simp [Cell.step,entryCell]
    · rw [JsMap.get_delete_ne (Ne.symm hkey)]
      cases entries.get key <;> simp [Cell.step,entryCell,hkey]

def store (τ : Type) : CellStore (Entries τ) JsString (Event τ) (Entry τ) where
  get := JsMap.get
  step := step lc
  cell := entryCell lc
  get_step := get_step lc

variable {lc}

theorem get_run (es : List (Event τ)) (key : JsString) :
    (run lc es).get key = (entryCell lc key).run es :=
  (store lc τ).get_run (s:=.empty) (k:=key) rfl es

theorem entryCell_overwriting (key : JsString) :
    (entryCell lc key : Cell (Event τ) (Entry τ)).Overwriting where
  write e v w h := by
    cases e with
    | put address value ttlMs now =>
      simp only [entryCell] at h ⊢
      split_ifs at h ⊢
      exact h
    | get => cases h
    | invalidate => cases h
  fixed e v w hcreate h := by
    cases e with
    | put address value ttlMs now =>
      simp only [entryCell] at h hcreate
      split_ifs at h hcreate
      exact (Option.some.inj h).symm
    | get address now =>
      simp only [entryCell] at h
      split_ifs at h
      exact (Option.some.inj h).symm
    | invalidate address =>
      simp only [entryCell] at h
      split_ifs at h
      exact (Option.some.inj h).symm

/-- The call neither writes nor drops the entry of `address`; a read may find it, unexpired. -/
def Spares (lc : Locale) (address : JsString) (entry : Entry τ) : Event τ → Prop
  | .get other now =>
    lc.toLowerCase other = lc.toLowerCase address → entry.expired now = false
  | .put other .. => lc.toLowerCase other ≠ lc.toLowerCase address
  | .invalidate other => lc.toLowerCase other ≠ lc.toLowerCase address

theorem spares_iff {address : JsString} {v : Entry τ} {e : Event τ} :
    Spares lc address v e ↔ (entryCell lc (lc.toLowerCase address)).create e = none ∧
      (entryCell lc (lc.toLowerCase address)).next e v = some v := by
  cases e with
  | get other now => simp [Spares,entryCell]
  | put other value ttlMs now =>
    by_cases h : lc.toLowerCase other = lc.toLowerCase address <;> simp [Spares,entryCell,h]
  | invalidate other => simp [Spares,entryCell]

/-- A read gives the value that was put last under the address in any case, as long as it was not
invalidated since, and no read, this one included, came after it expired. -/
theorem cached_run (es : List (Event τ)) (address : JsString) (now : JsDate) (value : τ) :
    (get lc (run lc es) address now).1 = some value ↔ ∃ pre other ttlMs put post,
      es = pre++.put other value ttlMs put::post ∧
      lc.toLowerCase other = lc.toLowerCase address ∧
      ∀ e ∈ post++[.get address now], Spares lc address ⟨value,expiryOf ttlMs put⟩ e := by
  have hread : (get lc (run lc es) address now).1 = some value ↔ ∃ v,
      (run lc es).get (lc.toLowerCase address) = some v ∧ v.expired now = false ∧
        v.value = value := by
    rw [get]
    cases (run lc es).get (lc.toLowerCase address) with
    | none => simp
    | some v =>
      dsimp only
      split_ifs with h
      · simp [h]
      · simp [h]
  simp only [hread,get_run,(entryCell_overwriting _).run_eq_some,List.forall_mem_append]
  constructor
  · rintro ⟨v,⟨pre,e,post,rfl,hcreate,hpost⟩,hfresh,rfl⟩
    cases e with
    | put other x ttlMs put =>
      simp only [entryCell] at hcreate
      split_ifs at hcreate with h
      obtain rfl := Option.some.inj hcreate
      refine ⟨pre,other,ttlMs,put,post,rfl,h,fun e he => spares_iff.mpr (hpost e he),?_⟩
      exact List.forall_mem_singleton.mpr fun _ => hfresh
    | get => cases hcreate
    | invalidate => cases hcreate
  · rintro ⟨pre,other,ttlMs,put,post,rfl,h,hpost,hfresh⟩
    exact ⟨⟨value,expiryOf ttlMs put⟩,⟨pre,_,post,rfl,by simp [entryCell,h],
      fun e he => spares_iff.mp (hpost e he)⟩,List.forall_mem_singleton.mp hfresh rfl,rfl⟩

end Runs
end DiscoveryCache
end Semp
