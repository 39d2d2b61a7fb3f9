import Semp.JsDynamic
import Semp.JsSlice
import Semp.NumberGrowth

/-! The partition record of a domain: items of a text record, each read into a field of the
configuration, and the presence of one of them looked up in the text itself. -/
namespace Semp
namespace Discovery

def semicolon : UInt16 := 59
def equalsSign : UInt16 := 61

inductive PartitionStrategy
  | alpha
  | hash
  | lookup
  deriving DecidableEq, Repr

def PartitionStrategy.name : PartitionStrategy → JsString
  | .alpha => js "alpha"
  | .hash => js "hash"
  | .lookup => js "lookup"

def strategyOf (val : JsString) : Option PartitionStrategy :=
  if val = js "alpha" then some .alpha
  else if val = js "hash" then some .hash
  else if val = js "lookup" then some .lookup
  else none

/-- What a record sets. -/
structure PartitionConfig where
  version : JsString
  strategy : PartitionStrategy
  servers : Option Number
  algorithm : Option JsString
  domain : JsString

abbrev Item := JsString × JsString

/-- The trimmed key and value around the first equals sign. -/
def itemOf (kv : JsString) : Option Item :=
  (cutAt equalsSign (trim kv)).map fun p => (trim p.1,trim p.2)

def countDigit (n : Number) (c : UInt16) : Number :=
  (n.mul (.ofNat 10)).add (.ofNat (c.toNat-0x30))

def readCount (val : JsString) : Js Number :=
  val.foldlM (fun n c =>
    if c.toNat < 0x30 ∨ 0x39 < c.toNat then
      raise (js "discovery: invalid servers count "++JsonText.stringify (.str val))
    else .ok (countDigit n c)) (.ofNat 0)

def PartitionConfig.set (cfg : PartitionConfig) (i : Item) : Js PartitionConfig :=
  let (key,val) := i
  if key = js "v" then .ok {cfg with version := val}
  else if key = js "strategy" then
    match strategyOf val with
    | none => raise (js "discovery: invalid partition strategy "++JsonText.stringify (.str val))
    | some strategy => .ok {cfg with strategy := strategy}
  else if key = js "servers" then do
    let n ← readCount val
    .ok {cfg with servers := some n}
  else if key = js "algorithm" then .ok {cfg with algorithm := some val}
  else .ok cfg

def readItem (cfg : PartitionConfig) (kv : JsString) : Js PartitionConfig :=
  match itemOf kv with
  | none => .ok cfg
  | some i => cfg.set i

def parsePartitionTXT (domain txt : JsString) : Js PartitionConfig :=
  if trim txt = [] then raise (js "discovery: empty partition TXT record")
  else do
    let cfg ← (txt.splitOn semicolon).foldlM readItem ⟨[],.alpha,none,none,domain⟩
    if cfg.version = [] then raise (js "discovery: partition TXT missing version (v=)")
    -- The text is searched, not the items.
    else if ¬js "strategy=" <:+: txt then
      raise (js "discovery: partition TXT missing strategy")
    else .ok cfg

/-- The items of a record. -/
def itemsOf (txt : JsString) : List Item := (txt.splitOn semicolon).filterMap itemOf

/-- The last value of a key. -/
def lastOf (key : JsString) (items : List Item) : Option JsString :=
  (items.filterMap fun i => if i.1 = key then some i.2 else none).getLast?

/-- The number that digits are counted to. -/
def countOf (val : JsString) : Number := val.foldl countDigit (.ofNat 0)

structure Admissible (i : Item) : Prop where
  strategy : i.1 = js "strategy" → i.2 ∈ [js "alpha",js "hash",js "lookup"]
  servers : i.1 = js "servers" → ∀ c ∈ i.2, NumberText.isDigit c = true

/-- What is asked of the items, up to the presence of a strategy. -/
structure Otherwise (items : List Item) : Prop where
  version : ∃ val, lastOf (js "v") items = some val ∧ val ≠ []
  admissible : ∀ i ∈ items, Admissible i

def HasStrategy (items : List Item) : Prop := ∃ i ∈ items, i.1 = js "strategy"

structure Grammar (items : List Item) : Prop extends Otherwise items where
  strategy : HasStrategy items

/-- Every field is the last value of its key; a number of servers is counted in doubles. -/
structure Carries (domain : JsString) (items : List Item) (cfg : PartitionConfig) : Prop where
  version : lastOf (js "v") items = some cfg.version
  strategy : lastOf (js "strategy") items = some cfg.strategy.name
  servers : cfg.servers = (lastOf (js "servers") items).map countOf
  exactly : ∀ val, lastOf (js "servers") items = some val → NumberText.readDigits val < 2^53 →
    cfg.servers = some (.ofNat (NumberText.readDigits val))
  algorithm : cfg.algorithm = lastOf (js "algorithm") items
  domain : cfg.domain = domain

section Count

/-- Digits are counted exactly below 2^53. -/
theorem countDigit_ofNat {n : ℕ} {c : UInt16} (hc : NumberText.isDigit c = true)
    (h : n*10+(c.toNat-48) < 2^53) :
    countDigit (.ofNat n) c = .ofNat (n*10+(c.toNat-48)) := by
  have hd : c.toNat-48 < 10 := by
    have hc := of_decide_eq_true hc
    omega
  have hzero : ∀ d < 10, ((Number.ofNat 0).mul (.ofNat 10)).add (.ofNat d) = .ofNat d := by
    decide +kernel
  rw [countDigit,show (0x30 : ℕ) = 48 from rfl]
  obtain rfl | hpos := Nat.eq_zero_or_pos n
  · rw [hzero _ hd,Nat.zero_mul,Nat.zero_add]
  · rw [Number.mul_ofNat (by omega) (by norm_num) (by omega) (by omega)]
    have hsum : (Number.ofNat (n*10)).toRat+(Number.ofNat (c.toNat-48)).toRat =
        ((n*10+(c.toNat-48) : ℕ) : ℤ) := by
      rw [Number.toRat_ofNat (by omega),Number.toRat_ofNat (by omega)]
      push_cast
      rfl
    obtain ⟨hfin,hrat⟩ := Number.isFinite_toRat_add
      (Number.isFinite_ofNat (n:=n*10) (by omega))
      (Number.isFinite_ofNat (n:=c.toNat-48) (by omega))
    obtain ⟨hfin',hrat'⟩ := Number.toRat_ofInt (z:=((n*10+(c.toNat-48) : ℕ) : ℤ)) h
    rw [hsum] at hfin hrat
    refine Number.eq_ofNat_of_toRat (hfin.trans hfin') ?_ h (by omega)
    rw [hrat]
    exact_mod_cast hrat'

theorem countOf_eq {val : JsString} (hd : ∀ c ∈ val, NumberText.isDigit c = true)
    (h : NumberText.readDigits val < 2^53) : countOf val = .ofNat (NumberText.readDigits val) := by
  induction val using List.reverseRecOn with
  | nil => rfl
  | append_singleton val c ih =>
    have hread : NumberText.readDigits (val++[c]) = NumberText.readDigits val*10+(c.toNat-48) := by
      rw [NumberText.readDigits,List.foldl_append,← NumberText.readDigits]
      rfl
    rw [hread] at h ⊢
    rw [countOf,List.foldl_append,← countOf,
      ih (fun c hc => hd c (List.mem_append_left _ hc)) (by omega)]
    exact countDigit_ofNat (hd c (by simp)) h

theorem readCount_eq_ok {val : JsString} {n : Number} :
    readCount val = .ok n ↔ (∀ c ∈ val, NumberText.isDigit c = true) ∧ n = countOf val := by
  have hdigit (c : UInt16) : NumberText.isDigit c = true ↔ ¬(c.toNat < 0x30 ∨ 0x39 < c.toNat) := by
    rw [NumberText.isDigit,decide_eq_true_iff]
    omega
  have hrun (ds : JsString) (m : Number) :
      (ds.foldlM (fun n c =>
        if c.toNat < 0x30 ∨ 0x39 < c.toNat then
          raise (js "discovery: invalid servers count "++JsonText.stringify (.str val))
        else .ok (countDigit n c)) m : Js Number) = .ok n ↔
      (∀ c ∈ ds, NumberText.isDigit c = true) ∧ n = ds.foldl countDigit m := by
    induction ds generalizing m with
    | nil => exact ⟨fun h => ⟨List.forall_mem_nil _,(Except.ok.inj h).symm⟩,fun h => h.2 ▸ rfl⟩
    | cons c ds ih =>
      rw [List.foldlM_cons,List.forall_mem_cons,hdigit]
      split_ifs with hc
      · exact ⟨fun h => (by cases h),fun h => absurd hc h.1.1⟩
      · rw [and_iff_right hc]
        exact ih _
  exact hrun val _

end Count

section Items
variable {cfg cfg' : PartitionConfig} {i : Item} {items : List Item} {key : JsString}

theorem lastOf_nil : lastOf key [] = none := rfl

theorem lastOf_cons :
    lastOf key (i::items) = (lastOf key items).or (if i.1 = key then some i.2 else none) := by
  rw [lastOf,List.filterMap_cons,lastOf]
  split_ifs with h
  · rw [List.getLast?_cons]
    cases (items.filterMap fun i => if i.1 = key then some i.2 else none).getLast? <;> rfl
  · exact Option.or_none.symm

theorem lastOf_eq_some {val : JsString} (h : lastOf key items = some val) : (key,val) ∈ items := by
  obtain ⟨i,hi,hval⟩ := List.mem_filterMap.mp (List.mem_of_getLast? h)
  split_ifs at hval with hkey
  cases hval
  exact hkey ▸ hi

theorem exists_lastOf (h : ∃ i ∈ items, i.1 = key) : ∃ val, lastOf key items = some val := by
  obtain ⟨i,hi,hkey⟩ := h
  refine Option.ne_none_iff_exists'.mp fun hnone => ?_
  have hnil := List.filterMap_eq_nil_iff.mp (List.getLast?_eq_none_iff.mp hnone) i hi
  rw [if_pos hkey] at hnil
  cases hnil

theorem strategyOf_isSome {val : JsString} :
    (∃ s, strategyOf val = some s) ↔ val ∈ [js "alpha",js "hash",js "lookup"] := by
  rw [List.mem_cons,List.mem_cons,List.mem_singleton]
  unfold strategyOf
  split_ifs with h₁ h₂ h₃
  · exact ⟨fun _ => .inl h₁,fun _ => ⟨_,rfl⟩⟩
  · exact ⟨fun _ => .inr (.inl h₂),fun _ => ⟨_,rfl⟩⟩
  · exact ⟨fun _ => .inr (.inr h₃),fun _ => ⟨_,rfl⟩⟩
  · exact ⟨nofun,fun h => absurd h (by simp [h₁,h₂,h₃])⟩

theorem name_strategyOf {val : JsString} {s : PartitionStrategy} (h : strategyOf val = some s) :
    s.name = val := by
  unfold strategyOf at h
  split_ifs at h with h₁ h₂ h₃
  all_goals
    cases h
    exact Eq.symm (by assumption)

/-- The configuration with the last values of the items. -/
def PartitionConfig.after (cfg : PartitionConfig) (items : List Item) : PartitionConfig where
  version := (lastOf (js "v") items).getD cfg.version
  strategy := ((lastOf (js "strategy") items).bind strategyOf).getD cfg.strategy
  servers := ((lastOf (js "servers") items).map countOf).or cfg.servers
  algorithm := (lastOf (js "algorithm") items).or cfg.algorithm
  domain := cfg.domain

/-- One item is accepted when its value is admissible, and sets the field of its key. -/
theorem set_eq_ok : cfg.set i = .ok cfg' ↔ Admissible i ∧ cfg' = cfg.after [i] := by
  obtain ⟨key,val⟩ := i
  have hone (k : JsString) : lastOf k [(key,val)] = if key = k then some val else none := by
    rw [lastOf_cons,lastOf_nil,Option.none_or]
  have hne : js "v" ≠ js "strategy" ∧ js "v" ≠ js "servers" ∧ js "v" ≠ js "algorithm" ∧
      js "strategy" ≠ js "servers" ∧ js "strategy" ≠ js "algorithm" ∧
      js "servers" ≠ js "algorithm" := by decide
  obtain ⟨hvs,hvn,hva,hsn,hsa,hna⟩ := hne
  simp only [PartitionConfig.set,PartitionConfig.after,hone]
  by_cases hv : key = js "v"
  · subst hv
    have hadm : Admissible (js "v",val) := ⟨fun h => absurd h hvs,fun h => absurd h hvn⟩
    simp [hadm,hvs,hvn,hva,eq_comm]
  by_cases hs : key = js "strategy"
  · subst hs
    have hadm : Admissible (js "strategy",val) ↔ ∃ s, strategyOf val = some s :=
      ⟨fun h => strategyOf_isSome.mpr (h.strategy rfl),
        fun h => ⟨fun _ => strategyOf_isSome.mp h,fun h => absurd h hsn⟩⟩
    cases hval : strategyOf val with
    | none => simp [hadm,hval,hv]
    | some s => simp [hadm,hval,hv,hsn,hsa,eq_comm]
  by_cases hn : key = js "servers"
  · subst hn
    have hadm : Admissible (js "servers",val) ↔ ∀ c ∈ val, NumberText.isDigit c = true :=
      ⟨fun h => h.servers rfl,fun h => ⟨fun h => absurd h hs,fun _ => h⟩⟩
    simp only [hadm,bind_eq_ok,readCount_eq_ok,hv,hs,hna,if_true,if_false]
    constructor
    · rintro ⟨n,⟨hd,rfl⟩,hcfg⟩
      exact ⟨hd,(Except.ok.inj hcfg).symm⟩
    · rintro ⟨hd,rfl⟩
      exact ⟨_,⟨hd,rfl⟩,rfl⟩
  · have hadm : Admissible (key,val) := ⟨fun h => absurd h hs,fun h => absurd h hn⟩
    by_cases ha : key = js "algorithm"
    · subst ha
      simp [hadm,hv,hs,hn,eq_comm]
    · simp only [hadm,hv,hs,hn,ha,if_false,Except.ok.injEq,true_and]
      exact eq_comm

theorem after_nil : cfg.after [] = cfg := rfl

theorem after_cons (h : ∀ i ∈ items, Admissible i) :
    (cfg.after [i]).after items = cfg.after (i::items) := by
  have hcons (key : JsString) : lastOf key (i::items) =
      (lastOf key items).or (if i.1 = key then some i.2 else none) := lastOf_cons
  have hone (key : JsString) : lastOf key [i] =
      (lastOf key []).or (if i.1 = key then some i.2 else none) := lastOf_cons
  simp only [PartitionConfig.after,hcons,hone,lastOf_nil,Option.none_or]
  congr 1
  · cases lastOf (js "v") items <;> rfl
  · cases hlast : lastOf (js "strategy") items with
    | none => rfl
    | some val =>
      obtain ⟨s,hs⟩ := strategyOf_isSome.mpr ((h _ (lastOf_eq_some hlast)).strategy rfl)
      simp [hs]
  · cases lastOf (js "servers") items <;> rfl
  · cases lastOf (js "algorithm") items <;> rfl

/-- The items are accepted when each of them is admissible, and the last values stand. -/
theorem readItems_eq_ok {kvs : List JsString} :
    kvs.foldlM readItem cfg = .ok cfg' ↔
      (∀ i ∈ kvs.filterMap itemOf, Admissible i) ∧ cfg' = cfg.after (kvs.filterMap itemOf) := by
  induction kvs generalizing cfg with
  | nil => simp [pure,Except.pure,after_nil,eq_comm]
  | cons kv kvs ih =>
    rw [List.foldlM_cons,bind_eq_ok,readItem]
    cases hitem : itemOf kv with
    | none =>
      rw [List.filterMap_cons_none hitem,← ih]
      exact ⟨fun ⟨_,hcfg,h⟩ => by cases hcfg; exact h,fun h => ⟨cfg,rfl,h⟩⟩
    | some i =>
      rw [List.filterMap_cons_some hitem,List.forall_mem_cons]
      constructor
      · rintro ⟨mid,hmid,h⟩
        obtain ⟨hi,rfl⟩ := set_eq_ok.mp hmid
        obtain ⟨hall,rfl⟩ := ih.mp h
        exact ⟨⟨hi,hall⟩,after_cons hall⟩
      · rintro ⟨⟨hi,hall⟩,rfl⟩
        exact ⟨cfg.after [i],set_eq_ok.mpr ⟨hi,rfl⟩,ih.mpr ⟨hall,(after_cons hall).symm⟩⟩

end Items

section Parse
variable {domain txt : JsString} {cfg : PartitionConfig}

theorem isSpace_of_trim {s : JsString} (h : trim s = []) : ∀ u ∈ s, isSpace u = true := by
  have hrest := List.dropWhile_eq_nil_iff.mp (List.reverse_eq_nil_iff.mp h)
  intro u hu
  rw [← List.takeWhile_append_dropWhile (p:=isSpace) (l:=s)] at hu
  obtain hu | hu := List.mem_append.mp hu
  · exact List.mem_takeWhile_imp hu
  · exact hrest u (List.mem_reverse.mpr hu)

theorem not_blank (h : js "strategy=" <:+: txt) : trim txt ≠ [] := by
  intro hblank
  have hs : (115 : UInt16) ∈ txt := h.subset (by decide)
  exact absurd (isSpace_of_trim hblank _ hs) (by decide)

theorem parsePartitionTXT_eq_ok : parsePartitionTXT domain txt = .ok cfg ↔
    Otherwise (itemsOf txt) ∧ js "strategy=" <:+: txt ∧
      cfg = PartitionConfig.after ⟨[],.alpha,none,none,domain⟩ (itemsOf txt) := by
  have hversion : (∃ val, lastOf (js "v") (itemsOf txt) = some val ∧ val ≠ []) ↔
      (PartitionConfig.after ⟨[],.alpha,none,none,domain⟩ (itemsOf txt)).version ≠ [] := by
    rw [PartitionConfig.after]
    cases lastOf (js "v") (itemsOf txt) <;> simp
  constructor
  · intro h
    by_cases hblank : trim txt = []
    · rw [parsePartitionTXT,if_pos hblank] at h
      cases h
    · rw [parsePartitionTXT,if_neg hblank] at h
      obtain ⟨mid,hmid,h⟩ := bind_eq_ok.mp h
      obtain ⟨hall,rfl⟩ := readItems_eq_ok.mp hmid
      split_ifs at h with hv hs
      all_goals cases h
      exact ⟨⟨hversion.mpr hv,hall⟩,hs,rfl⟩
  · rintro ⟨hother,hs,rfl⟩
    rw [parsePartitionTXT,if_neg (not_blank hs)]
    refine bind_eq_ok.mpr ⟨_,readItems_eq_ok.mpr ⟨hother.admissible,rfl⟩,?_⟩
    rw [← itemsOf,if_neg (hversion.mp hother.version),if_neg (not_not.mpr hs)]

/-- With an item for it the strategy is the last one. -/
theorem carries_after (h : Grammar (itemsOf txt)) : Carries domain (itemsOf txt)
    (PartitionConfig.after ⟨[],.alpha,none,none,domain⟩ (itemsOf txt)) := by
  obtain ⟨v,hv,-⟩ := h.version
  obtain ⟨val,hval⟩ := exists_lastOf h.strategy
  obtain ⟨s,hs⟩ := strategyOf_isSome.mpr ((h.admissible _ (lastOf_eq_some hval)).strategy rfl)
  refine ⟨?_,?_,Option.or_none,fun n hn hlt => ?_,Option.or_none,rfl⟩
  · rw [PartitionConfig.after,hv]
    rfl
  · simp [PartitionConfig.after,hval,hs,name_strategyOf hs]
  · rw [PartitionConfig.after,hn,
      ← countOf_eq ((h.admissible _ (lastOf_eq_some hn)).servers rfl) hlt]
    rfl

/-- The accepted texts are those of the grammar, with the last values, exactly when the text has
the mark of a strategy where an item has one, or fails another check. -/
theorem parsePartitionTXT_grammar_iff (domain txt : JsString) :
    (((∃ cfg, parsePartitionTXT domain txt = .ok cfg) ↔ Grammar (itemsOf txt)) ∧
      ∀ cfg, parsePartitionTXT domain txt = .ok cfg → Carries domain (itemsOf txt) cfg) ↔
      (Otherwise (itemsOf txt) → (js "strategy=" <:+: txt ↔ HasStrategy (itemsOf txt))) := by
  constructor
  · rintro ⟨hiff,-⟩ hother
    constructor
    · intro hs
      exact (hiff.mp ⟨_,parsePartitionTXT_eq_ok.mpr ⟨hother,hs,rfl⟩⟩).strategy
    · intro hs
      obtain ⟨cfg,hcfg⟩ := hiff.mpr ⟨hother,hs⟩
      exact (parsePartitionTXT_eq_ok.mp hcfg).2.1
  · intro h
    refine ⟨⟨?_,?_⟩,?_⟩
    · rintro ⟨cfg,hcfg⟩
      obtain ⟨hother,hs,-⟩ := parsePartitionTXT_eq_ok.mp hcfg
      exact ⟨hother,(h hother).mp hs⟩
    · intro hg
      exact ⟨_,parsePartitionTXT_eq_ok.mpr ⟨hg.toOtherwise,(h hg.toOtherwise).mpr hg.strategy,rfl⟩⟩
    · intro cfg hcfg
      obtain ⟨hother,hs,rfl⟩ := parsePartitionTXT_eq_ok.mp hcfg
      exact carries_after ⟨hother,(h hother).mp hs⟩

end Parse

/-- Another key that ends in the mark makes a record without a strategy pass. -/
theorem not_parsePartitionTXT_grammar :
    ¬(((∃ cfg, parsePartitionTXT (js "example.com") (js "v=semp1;xstrategy=foo") = .ok cfg) ↔
      Grammar (itemsOf (js "v=semp1;xstrategy=foo"))) ∧
      ∀ cfg, parsePartitionTXT (js "example.com") (js "v=semp1;xstrategy=foo") = .ok cfg →
        Carries (js "example.com") (itemsOf (js "v=semp1;xstrategy=foo")) cfg) := by
  rintro ⟨⟨hmp,-⟩,-⟩
  have hok : (parsePartitionTXT (js "example.com") (js "v=semp1;xstrategy=foo")).toBool = true := by
    decide +kernel
  obtain ⟨cfg,hcfg⟩ : ∃ cfg,
      parsePartitionTXT (js "example.com") (js "v=semp1;xstrategy=foo") = .ok cfg := by
    cases hp : parsePartitionTXT (js "example.com") (js "v=semp1;xstrategy=foo") with
    | ok cfg => exact ⟨cfg,rfl⟩
    | error e =>
      rw [hp] at hok
      cases hok
  obtain ⟨i,hi,hkey⟩ := (hmp ⟨cfg,hcfg⟩).strategy
  have hnone : ∀ i ∈ itemsOf (js "v=semp1;xstrategy=foo"), i.1 ≠ js "strategy" := by
    decide +kernel
  exact hnone i hi hkey

end Discovery
end Semp
