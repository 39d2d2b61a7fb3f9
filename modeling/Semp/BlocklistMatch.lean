import Semp.Blocklist
import Semp.FirstMax

/-! The meaning of a block list: which entries block a sender, at which precedence, and that
`matchBlockList` finds the first of the highest precedence whatever the order of the rest. -/
namespace Semp.Blocklist
variable (lc : Locale)

/-- Entries without an expiry, or with one no date can be read from, stay in force. -/
def Unexpired (e : BlockEntry) (now : JsDate) : Prop :=
  ∀ t ∈ e.expires_at, t ≠ [] →
    (lc.dateParse t).isNaN = true ∨ (lc.dateParse t).le now.getTime = false

/-- The kinds of mail a scope covers. -/
def InScope (scope : Option JsString) (isGroup : Bool) : Prop :=
  scope = none ∨ scope = some [] ∨ scope = some (js "all") ∨
    (scope = some (js "direct") ∧ isGroup = false) ∨
    (scope = some (js "group") ∧ isGroup = true)

/-- The part of the sender is known and equals the field of the entity up to case. -/
def SameText (part field : Option JsString) : Prop :=
  lowered lc part ≠ [] ∧ lowered lc field = lowered lc part

/-- The precedence at which an entity matches a sender. -/
inductive MatchesAt (sender : BlockListSender) (e : BlocklistEntity) : ℕ → Prop
  | user (htype : e.type = js "user") (h : SameText lc sender.address e.address) :
      MatchesAt sender e rankUser
  | server (htype : e.type = js "server") (h : SameText lc sender.server e.hostname) :
      MatchesAt sender e rankServer
  | domain (htype : e.type = js "domain") (h : SameText lc sender.domain e.domain) :
      MatchesAt sender e rankDomain

/-- The entry blocks the sender at precedence `p`. -/
def Blocks (sender : BlockListSender) (now : JsDate) (e : BlockEntry) (p : ℕ) : Prop :=
  Unexpired lc e now ∧ InScope e.scope (sender.isGroup.getD false) ∧
    MatchesAt lc sender e.entity p

/-- The rank an entry contributes to the loop, 0 where it is skipped. -/
def weight (sender : BlockListSender) (now : JsDate) (e : BlockEntry) : ℕ :=
  if isExpired lc e now then 0
  else if !scopeApplies e.scope (sender.isGroup.getD false) then 0
  else rank lc sender e.entity

/-- The entry that decides over the sender: of the highest precedence, the first. -/
def Decides (sender : BlockListSender) (now : JsDate) (entries : List BlockEntry)
    (e : BlockEntry) : Prop :=
  ∃ p before after, entries = before++e::after ∧ Blocks lc sender now e p ∧
    (∀ b ∈ before, ∀ q, Blocks lc sender now b q → q < p) ∧
    ∀ b ∈ after, ∀ q, Blocks lc sender now b q → q ≤ p

variable {lc} {sender : BlockListSender} {now : JsDate} {e : BlockEntry}
  {entries : List BlockEntry}

theorem isExpired_eq_false : isExpired lc e now = false ↔ Unexpired lc e now := by
  unfold isExpired Unexpired
  cases e.expires_at with
  | none => simp
  | some t =>
    cases t with
    | nil => simp
    | cons c t =>
      cases (lc.dateParse (c::t)).isNaN <;> cases h : (lc.dateParse (c::t)).le now.getTime <;>
        simp [h]

theorem scopeApplies_iff {scope : Option JsString} {isGroup : Bool} :
    scopeApplies scope isGroup = true ↔ InScope scope isGroup := by
  have hall : js "all" ≠ [] := by decide
  have hdirect : js "direct" ≠ [] ∧ js "direct" ≠ js "all" := by decide
  have hgroup : js "group" ≠ [] ∧ js "group" ≠ js "all" ∧ js "group" ≠ js "direct" := by decide
  cases scope with
  | none => simp [scopeApplies,InScope]
  | some s =>
    unfold scopeApplies InScope
    dsimp only
    by_cases ha : s = js "all"
    · simp [ha]
    by_cases hd : s = js "direct"
    · subst hd
      simp [hdirect.1,hdirect.2,hgroup.2.2.symm]
    by_cases hg : s = js "group"
    · subst hg
      simp [hgroup.1,hgroup.2.1,hgroup.2.2]
    · simp [ha,hd,hg]

theorem names_iff {part field : Option JsString} :
    names lc (lowered lc part) field = true ↔ SameText lc part field := by
  simp [names,SameText]

theorem matchesAt_iff {e : BlocklistEntity} {p : ℕ} :
    MatchesAt lc sender e p ↔ 0 < p ∧ rank lc sender e = p := by
  have hserver : js "server" ≠ js "user" := by decide
  have hdomain : js "domain" ≠ js "user" ∧ js "domain" ≠ js "server" := by decide
  constructor
  · intro h
    cases h with
    | user htype h => simp [rank,htype,names_iff.mpr h,rankUser]
    | server htype h => simp [rank,htype,hserver,names_iff.mpr h,rankServer]
    | domain htype h => simp [rank,htype,hdomain,names_iff.mpr h,rankDomain]
  · rintro ⟨hpos,rfl⟩
    unfold rank at hpos ⊢
    split_ifs at hpos ⊢ with hu hn hs hn hd hn
    · exact .user hu (names_iff.mp hn)
    · exact absurd hpos (lt_irrefl 0)
    · exact .server hs (names_iff.mp hn)
    · exact absurd hpos (lt_irrefl 0)
    · exact .domain hd (names_iff.mp hn)
    · exact absurd hpos (lt_irrefl 0)
    · exact absurd hpos (lt_irrefl 0)

/-- An entry blocks at the precedence it contributes. -/
theorem blocks_iff {p : ℕ} : Blocks lc sender now e p ↔ 0 < p ∧ weight lc sender now e = p := by
  rw [Blocks,← isExpired_eq_false,← scopeApplies_iff,matchesAt_iff,weight]
  cases isExpired lc e now with
  | true => simp; omega
  | false =>
    cases scopeApplies e.scope (sender.isGroup.getD false) with
    | false => simp; omega
    | true => simp

theorem weight_eq_zero : weight lc sender now e = 0 ↔ ∀ p, ¬ Blocks lc sender now e p := by
  constructor
  · intro h p hp
    have hw : 0 < p ∧ weight lc sender now e = p := blocks_iff.mp hp
    omega
  · intro h
    by_contra hne
    exact h _ (blocks_iff.mpr ⟨Nat.pos_of_ne_zero hne,rfl⟩)

theorem weight_le (e : BlockEntry) : weight lc sender now e ≤ rankUser := by
  unfold weight rank
  split_ifs <;> decide

/-- The loop is the pass for the first entry of the greatest weight. -/
theorem bestMatch_eq_scan (entries : List BlockEntry) (n : ℕ) (best : Option BlockEntry) :
    bestMatch lc sender now entries n best =
      FirstMax.scan (weight lc sender now) rankUser entries n best := by
  induction entries generalizing n best with
  | nil => rfl
  | cons entry entries ih =>
    rw [bestMatch,FirstMax.scan,weight]
    split_ifs with hexp hzero
    all_goals first
      | exact ih _ _
      | rfl
      | omega

theorem decides_iff :
    Decides lc sender now entries e ↔ FirstMax.IsFirst (weight lc sender now) entries e := by
  constructor
  · rintro ⟨p,before,after,rfl,hp,hbefore,hafter⟩
    obtain ⟨hpos,rfl⟩ := blocks_iff.mp hp
    refine ⟨before,after,rfl,hpos,fun b hb => ?_,fun b hb => ?_⟩
    · by_cases hzero : weight lc sender now b = 0
      · omega
      · exact hbefore b hb _ (blocks_iff.mpr ⟨Nat.pos_of_ne_zero hzero,rfl⟩)
    · by_cases hzero : weight lc sender now b = 0
      · omega
      · exact hafter b hb _ (blocks_iff.mpr ⟨Nat.pos_of_ne_zero hzero,rfl⟩)
  · rintro ⟨before,after,rfl,hpos,hbefore,hafter⟩
    refine ⟨_,before,after,rfl,blocks_iff.mpr ⟨hpos,rfl⟩,fun b hb q hq => ?_,
      fun b hb q hq => ?_⟩
    · obtain ⟨-,rfl⟩ := blocks_iff.mp hq
      exact hbefore b hb
    · obtain ⟨-,rfl⟩ := blocks_iff.mp hq
      exact hafter b hb

/-- The entries of a list that may be missing. -/
def entriesOf : Option BlockList → List BlockEntry
  | none => []
  | some list => list.entries

theorem matchBlockList_eq_scan (list : Option BlockList) :
    matchBlockList lc list sender now =
      FirstMax.scan (weight lc sender now) rankUser (entriesOf list) 0 none := by
  cases list with
  | none => rfl
  | some list => exact bestMatch_eq_scan list.entries 0 none

/-- The entry `matchBlockList` returns is the one that decides, there is none exactly when no
entry blocks the sender, and reordering the list changes neither whether nor at which precedence
the sender is blocked. -/
theorem matchBlockList_decides (lc : Locale) (list : Option BlockList)
    (sender : BlockListSender) (now : JsDate) :
    (∀ e, matchBlockList lc list sender now = some e ↔
      Decides lc sender now (entriesOf list) e) ∧
    (matchBlockList lc list sender now = none ↔
      ∀ e ∈ entriesOf list, ∀ p, ¬ Blocks lc sender now e p) ∧
    ∀ list', (entriesOf list').Perm (entriesOf list) → ∀ p,
      (∃ e, matchBlockList lc list' sender now = some e ∧ Blocks lc sender now e p) ↔
      ∃ e, matchBlockList lc list sender now = some e ∧ Blocks lc sender now e p := by
  refine ⟨fun e => ?_,?_,fun list' hperm p => ?_⟩
  · rw [matchBlockList_eq_scan,FirstMax.scan_eq_some weight_le,decides_iff]
  · rw [matchBlockList_eq_scan,FirstMax.scan_eq_none weight_le]
    exact forall₂_congr fun e _ => weight_eq_zero
  · have hweight := FirstMax.scan_map_congr (w:=weight lc sender now) weight_le
      (fun b => hperm.mem_iff (a:=b))
    rw [← matchBlockList_eq_scan,← matchBlockList_eq_scan] at hweight
    have hat : ∀ list : Option BlockList,
        (∃ e, matchBlockList lc list sender now = some e ∧ Blocks lc sender now e p) ↔
        0 < p ∧ (matchBlockList lc list sender now).map (weight lc sender now) = some p := by
      intro list
      cases matchBlockList lc list sender now with
      | none => simp
      | some e => simp [blocks_iff]
    rw [hat,hat,hweight]

end Semp.Blocklist
