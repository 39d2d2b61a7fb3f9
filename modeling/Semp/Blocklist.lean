import Semp.DeliveryQueue

/-! The block list of a recipient, and the entry of it that matches a sender: one about the
user before one about the server before one about the domain. -/
namespace Semp

abbrev Acknowledgment := AttemptStatus

structure BlocklistEntity where
  /-- `user`, `server` or `domain`; any other type is ignored. -/
  type : JsString
  address : Option JsString
  domain : Option JsString
  hostname : Option JsString
  deriving DecidableEq, Repr

structure BlockEntry where
  entity : BlocklistEntity
  acknowledgment : Acknowledgment
  reason : Option JsString
  /-- `all`, `direct` or `group`; missing and empty count as `all`. -/
  scope : Option JsString
  expires_at : Option JsString
  deriving DecidableEq, Repr

structure BlockList where
  entries : List BlockEntry
  deriving DecidableEq, Repr

structure BlockListSender where
  address : Option JsString
  domain : Option JsString
  server : Option JsString
  isGroup : Option Bool
  deriving DecidableEq, Repr

/-- The case mapping of the language, and the reading of dates. -/
structure Locale extends Host where
  /-- `s.toLowerCase()` -/
  toLowerCase : JsString → JsString

namespace Blocklist
variable (lc : Locale)

def rankDomain : ℕ := 1
def rankServer : ℕ := 2
def rankUser : ℕ := 3

def isExpired (e : BlockEntry) (now : JsDate) : Bool :=
  match e.expires_at with
  | none | some [] => false
  | some t =>
    let exp := lc.dateParse t
    !exp.isNaN && exp.le now.getTime

def scopeApplies (scope : Option JsString) (isGroup : Bool) : Bool :=
  match scope with
  | none => true
  | some s =>
    if s = js "all" then true
    else if s = js "direct" then !isGroup
    else if s = js "group" then isGroup
    else s = []

/-- `(s ?? "").toLowerCase()` -/
def lowered (s : Option JsString) : JsString := lc.toLowerCase (s.getD [])

/-- Whether an entity names this part of the sender. -/
def names (part : JsString) (field : Option JsString) : Bool :=
  part ≠ [] && lowered lc field = part

/-- The rank of an entry that matches, and 0 for one that does not. -/
def rank (sender : BlockListSender) (e : BlocklistEntity) : ℕ :=
  if e.type = js "user" then
    if names lc (lowered lc sender.address) e.address then rankUser else 0
  else if e.type = js "server" then
    if names lc (lowered lc sender.server) e.hostname then rankServer else 0
  else if e.type = js "domain" then
    if names lc (lowered lc sender.domain) e.domain then rankDomain else 0
  else 0

/-- The loop of `matchBlockList` from the next entry on. -/
def bestMatch (sender : BlockListSender) (now : JsDate) :
    List BlockEntry → ℕ → Option BlockEntry → Option BlockEntry
  | [], _, bestEntry => bestEntry
  | entry::entries, bestRank, bestEntry =>
    if isExpired lc entry now then bestMatch sender now entries bestRank bestEntry
    else if !scopeApplies entry.scope (sender.isGroup.getD false) then
      bestMatch sender now entries bestRank bestEntry
    else if bestRank < rank lc sender entry.entity then
      if rank lc sender entry.entity = rankUser then some entry
      else bestMatch sender now entries (rank lc sender entry.entity) (some entry)
    else bestMatch sender now entries bestRank bestEntry

def matchBlockList (list : Option BlockList) (sender : BlockListSender) (now : JsDate) :
    Option BlockEntry :=
  match list with
  | none => none
  | some list => bestMatch lc sender now list.entries 0 none

/-- An entry that is in force, applies to the sender's kind of mail and names the sender. -/
def Applies (sender : BlockListSender) (now : JsDate) (e : BlockEntry) : Prop :=
  isExpired lc e now = false ∧ scopeApplies e.scope (sender.isGroup.getD false) = true ∧
    0 < rank lc sender e.entity

variable {lc} {sender : BlockListSender} {now : JsDate}

/-- An entry about all mail of the sender's domain applies while it is in force. -/
theorem applies_domain {e : BlockEntry} (hexp : isExpired lc e now = false)
    (hscope : e.scope = some (js "all")) (htype : e.entity.type = js "domain")
    (hname : names lc (lowered lc sender.domain) e.entity.domain = true) :
    Applies lc sender now e := by
  have huser : js "domain" ≠ js "user" := by decide
  have hserver : js "domain" ≠ js "server" := by decide
  refine ⟨hexp,by rw [hscope]; rfl,?_⟩
  rw [rank,htype,if_neg huser,if_neg hserver,if_pos rfl,if_pos hname]
  exact Nat.one_pos

theorem bestMatch_some (entries : List BlockEntry) (n : ℕ) (e : BlockEntry) :
    (bestMatch lc sender now entries n (some e)).isSome = true := by
  induction entries generalizing n e with
  | nil => rfl
  | cons entry entries ih =>
    unfold bestMatch
    split
    · exact ih n e
    split
    · exact ih n e
    split
    · split
      · rfl
      · exact ih _ entry
    · exact ih n e

theorem bestMatch_eq_none {entries : List BlockEntry} :
    bestMatch lc sender now entries 0 none = none ↔
      ∀ e ∈ entries, ¬ Applies lc sender now e := by
  induction entries with
  | nil => simp [bestMatch]
  | cons entry entries ih =>
    rw [List.forall_mem_cons,bestMatch]
    by_cases he : isExpired lc entry now = true
    · have hnot : ¬ Applies lc sender now entry := fun h => by simp [h.1] at he
      rw [if_pos he,ih,iff_and_self]
      exact fun _ => hnot
    rw [if_neg he]
    by_cases hs : scopeApplies entry.scope (sender.isGroup.getD false) = true
    · rw [if_neg (by simp [hs])]
      by_cases hr : 0 < rank lc sender entry.entity
      · have happlies : Applies lc sender now entry := ⟨by simpa using he,hs,hr⟩
        have hsome : (bestMatch lc sender now entries (rank lc sender entry.entity)
          (some entry)).isSome = true := bestMatch_some _ _ _
        rw [if_pos hr]
        constructor
        · intro h
          split at h
          · cases h
          · rw [h] at hsome
            cases hsome
        · exact fun h => absurd happlies h.1
      · rw [if_neg hr,ih,iff_and_self]
        exact fun _ h => hr h.2.2
    · rw [if_pos (by simpa using hs),ih,iff_and_self]
      exact fun _ h => hs h.2.1

/-- No entry is returned exactly when none applies. -/
theorem matchBlockList_eq_none {list : Option BlockList} :
    matchBlockList lc list sender now = none ↔
      ∀ l ∈ list, ∀ e ∈ l.entries, ¬ Applies lc sender now e := by
  cases list with
  | none => simp [matchBlockList]
  | some l => simpa [matchBlockList] using bestMatch_eq_none

end Blocklist
end Semp
