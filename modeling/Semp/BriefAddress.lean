import Semp.PartitionRouting
import Semp.Pipeline
import Semp.DeviceCertificate

/-! Addresses.  What passes the check is a local part and a host name in lower case, in one way;
every place of the program that takes an address apart then finds the same two parts. -/
namespace Semp
namespace Brief

/-- What the language and `tr46` know of Unicode; `toASCII` is nontransitional. -/
structure Unicode where
  normalizeNFC : JsString → JsString
  toLowerCase : JsString → JsString
  toASCII : JsString → Option JsString

def maxAddressLength : ℕ := 254
def maxLocalPartLength : ℕ := 64
def maxDomainLength : ℕ := 253
def maxDomainLabelLength : ℕ := 63

def atSign : UInt16 := 64
def dot : UInt16 := 46
def hyphen : UInt16 := 45
def space : UInt16 := 32
def tab : UInt16 := 9

/-- Both slices around `addr.lastIndexOf("@")`. -/
def cutLast (addr : JsString) : Option (JsString × JsString) :=
  (cutAt atSign addr.reverse).map fun p => (p.2.reverse,p.1.reverse)

def addressLocal (addr : JsString) : JsString :=
  match cutLast addr with
  | none => addr
  | some p => p.1

def addressDomain (addr : JsString) : JsString :=
  match cutLast addr with
  | none => []
  | some p => p.2

def isControl (u : UInt16) : Bool :=
  decide (u.toNat < 0x20) || decide (u.toNat = 0x7f) ||
    decide (0x80 ≤ u.toNat ∧ u.toNat ≤ 0x9f)

def upperHexDigit (n : ℕ) : UInt16 := UInt16.ofNat (if n < 10 then 48+n else 55+n)

def controlError (field : JsString) (u : UInt16) (i : ℕ) : Js Unit :=
  raise (js "brief: "++field++js " contains control character U+00"++
    [upperHexDigit (u.toNat/16),upperHexDigit (u.toNat%16)]++js " at byte "++natText i)

/-- The loop of `rejectControlChars` from place `i` on; it steps over the second half of a pair. -/
def rejectControlsFrom (field : JsString) (i : ℕ) : JsString → Js Unit
  | [] => .ok ()
  | [u] => if isControl u then controlError field u i else .ok ()
  | u::v::s =>
    if isControl u then controlError field u i
    else if Utf8.isHigh u && Utf8.isLow v then rejectControlsFrom field (i+2) s
    else rejectControlsFrom field (i+1) (v::s)

def rejectControlChars (s field : JsString) : Js Unit := rejectControlsFrom field 0 s

def checkOctets : JsString → Js Unit
  | [] => .ok ()
  | u::s =>
    if 0x7f < u.toNat then
      raise (js "brief: domain contains non-ASCII octet (A-label required on the wire)")
    else if 0x41 ≤ u.toNat ∧ u.toNat ≤ 0x5a then
      raise (js "brief: domain contains uppercase letters (must be lowercase on the wire)")
    else checkOctets s

/-- `domain.includes("..")` -/
def includesDots : JsString → Bool
  | u::v::s => (u == dot && v == dot) || includesDots (v::s)
  | _ => false

def checkLabel (label : JsString) : Js Unit :=
  if label = [] then raise (js "brief: domain has empty label")
  else if maxDomainLabelLength < label.length then
    raise (js "brief: domain label "++JsonText.stringify (.str label)++js " exceeds "++
      natText maxDomainLabelLength++js " bytes")
  else if label.head? = some hyphen ∨ label.getLast? = some hyphen then
    raise (js "brief: domain label "++JsonText.stringify (.str label)++
      js " has leading or trailing hyphen")
  else if label.any fun u => u == atSign || u == space || u == tab then
    raise (js "brief: domain label "++JsonText.stringify (.str label)++
      js " contains disallowed character")
  else .ok ()

def checkLabels : List JsString → Js Unit
  | [] => .ok ()
  | label::labels => do
    checkLabel label
    checkLabels labels

def validateDomain (domain : JsString) : Js Unit :=
  if domain = [] then raise (js "brief: address has empty domain")
  else if maxDomainLength < domain.length then
    raise (js "brief: domain exceeds "++natText maxDomainLength++js " bytes")
  else do
    checkOctets domain
    if domain.head? = some dot ∨ domain.getLast? = some dot then
      raise (js "brief: domain has leading or trailing dot")
    else if includesDots domain then
      raise (js "brief: domain has empty label (consecutive dots)")
    else checkLabels (domain.splitOn dot)

section Code
variable (un : Unicode)

/-- Both slices around the only `@`. -/
def splitAddress (addr : JsString) : Js (JsString × JsString) :=
  match cutAt atSign addr with
  | none => raise (js "brief: address missing '@' separator")
  | some p =>
    if atSign ∈ p.2 then raise (js "brief: address contains multiple '@' separators") else .ok p

def validateAddress (addr : JsString) : Js Unit :=
  if addr = [] then raise (js "brief: empty address")
  else if maxAddressLength < (utf8 addr).length then
    raise (js "brief: address exceeds "++natText maxAddressLength++js " bytes")
  else do
    rejectControlChars addr (js "address")
    let p ← splitAddress addr
    if p.1 = [] then raise (js "brief: address has empty local part")
    else if maxLocalPartLength < (utf8 p.1).length then
      raise (js "brief: local part exceeds "++natText maxLocalPartLength++js " bytes")
    else if un.normalizeNFC p.1 ≠ p.1 then
      raise (js "brief: local part is not in Unicode Normalization Form C")
    else validateDomain p.2

def canonicalizeAddress (addr : JsString) : Js JsString :=
  if addr = [] then raise (js "brief: empty address")
  else do
    let p ← splitAddress addr
    let aLabel := (un.toASCII p.2).getD []
    if aLabel = [] then
      raise (js "brief: domain "++JsonText.stringify (.str p.2)++
        js " cannot be converted to A-label")
    else .ok (un.normalizeNFC p.1++atSign::un.toLowerCase aLabel)

/-- What cannot be canonicalized equals nothing. -/
def addressEqual (a b : JsString) : Bool :=
  match canonicalizeAddress un a,canonicalizeAddress un b with
  | .ok aa,.ok bb => aa == bb
  | _,_ => false

end Code

/-- What a label of a host name is made of: visible ASCII without capitals and separators. -/
def IsLabelUnit (u : UInt16) : Prop :=
  0x20 < u.toNat ∧ u.toNat < 0x7f ∧ ¬(0x41 ≤ u.toNat ∧ u.toNat ≤ 0x5a) ∧ u ≠ dot ∧ u ≠ atSign

structure IsLabel (label : JsString) : Prop where
  ne : label ≠ []
  size : label.length ≤ maxDomainLabelLength
  first : label.head? ≠ some hyphen
  last : label.getLast? ≠ some hyphen
  units : ∀ u ∈ label, IsLabelUnit u

def domainText (labels : List JsString) : JsString := [dot].intercalate labels

/-- A valid address, in its parts. -/
@[ext] structure Address (un : Unicode) where
  localPart : JsString
  labels : List JsString
  localPart_ne : localPart ≠ []
  localPart_at : atSign ∉ localPart
  localPart_controls : ∀ u ∈ localPart, isControl u = false
  localPart_size : (utf8 localPart).length ≤ maxLocalPartLength
  localPart_nfc : un.normalizeNFC localPart = localPart
  labels_ne : labels ≠ []
  isLabel : ∀ label ∈ labels, IsLabel label
  domain_size : (domainText labels).length ≤ maxDomainLength
  size : (utf8 (localPart++atSign::domainText labels)).length ≤ maxAddressLength

namespace Address
variable {un : Unicode}

def domain (p : Address un) : JsString := domainText p.labels

def text (p : Address un) : JsString := p.localPart++atSign::p.domain

end Address

section Checks
variable {field : JsString} {i : ℕ} {s : JsString} {labels : List JsString}

theorem isControl_of_isLow {u : UInt16} (h : Utf8.isLow u = true) : isControl u = false := by
  rw [Utf8.isLow_iff] at h
  simp only [isControl,Bool.or_eq_false_iff,decide_eq_false_iff_not]
  omega

theorem controlError_ne {u : UInt16} : controlError field u i ≠ .ok () := raise_ne_ok _ _

theorem rejectControlsFrom_eq_ok :
    rejectControlsFrom field i s = .ok () ↔ ∀ u ∈ s, isControl u = false := by
  fun_induction rejectControlsFrom field i s with
  | case1 => simp
  | case2 i u h => simp [h,controlError_ne]
  | case3 i u h => simp [h]
  | case4 i u v s h => simp [h,controlError_ne]
  | case5 i u v s h hpair ih =>
    rw [Bool.and_eq_true] at hpair
    simp [ih,h,isControl_of_isLow hpair.2]
  | case6 i u v s h hpair ih => simp [ih,h]

theorem checkOctets_eq_ok : checkOctets s = .ok () ↔
    ∀ u ∈ s, u.toNat ≤ 0x7f ∧ ¬(0x41 ≤ u.toNat ∧ u.toNat ≤ 0x5a) := by
  induction s with
  | nil => simp [checkOctets]
  | cons u s ih =>
    rw [checkOctets,List.forall_mem_cons,← ih]
    split_ifs with hascii hupper
    · simp [raise_ne_ok,hascii]
    · simp [raise_ne_ok,hupper]
    · simp [hupper,not_lt.mp hascii]

theorem checkLabel_eq_ok {label : JsString} : checkLabel label = .ok () ↔
    label ≠ [] ∧ label.length ≤ maxDomainLabelLength ∧ label.head? ≠ some hyphen ∧
      label.getLast? ≠ some hyphen ∧ ∀ u ∈ label, u ≠ atSign ∧ u ≠ space ∧ u ≠ tab := by
  rw [checkLabel]
  split_ifs with hne hsize hhyphen hunits
  · simp [raise_ne_ok,hne]
  · simp [raise_ne_ok,hsize]
  · simp only [raise_ne_ok,false_iff]
    tauto
  · simp only [raise_ne_ok,false_iff]
    rintro ⟨-,-,-,-,h⟩
    obtain ⟨u,hu,hbad⟩ := List.any_eq_true.mp hunits
    have hok := h u hu
    simp [hok] at hbad
  · rw [not_or] at hhyphen
    simp only [true_iff]
    refine ⟨hne,not_lt.mp hsize,hhyphen.1,hhyphen.2,fun u hu => ?_⟩
    have hgood := List.any_eq_false.mp (Bool.not_eq_true _ ▸ hunits) u hu
    simpa [not_or,and_assoc] using hgood

theorem checkLabels_eq_ok :
    checkLabels labels = .ok () ↔ ∀ label ∈ labels, checkLabel label = .ok () := by
  induction labels with
  | nil => simp [checkLabels]
  | cons label labels ih =>
    rw [checkLabels,bind_eq_ok,List.forall_mem_cons,← ih]
    exact ⟨fun ⟨_,h⟩ => h,fun h => ⟨(),h⟩⟩

end Checks

section Labels
variable {s : JsString} {labels : List JsString} {label : JsString} {u : UInt16}

/-- The labels hold the units of the name but its dots. -/
theorem of_mem_splitOn (hl : label ∈ s.splitOn dot) (hu : u ∈ label) : u ∈ s ∧ u ≠ dot := by
  induction s generalizing label with
  | nil =>
    rw [List.splitOn_nil,List.mem_singleton] at hl
    simp [hl] at hu
  | cons v s ih =>
    rw [List.splitOn_cons_eq_if_modifyHead] at hl
    by_cases hv : v = dot
    · rw [if_pos (by simp [hv])] at hl
      rcases List.mem_cons.mp hl with rfl | hl
      · simp at hu
      · obtain ⟨hs,hdot⟩ := ih hl hu
        exact ⟨List.mem_cons_of_mem _ hs,hdot⟩
    · rw [if_neg (by simp [hv])] at hl
      cases hsplit : s.splitOn dot with
      | nil => simp [hsplit] at hl
      | cons first rest =>
        rw [hsplit] at ih hl
        rw [List.modifyHead_cons] at hl
        rcases List.mem_cons.mp hl with rfl | hl
        · rcases List.mem_cons.mp hu with rfl | hu
          · exact ⟨List.mem_cons_self,hv⟩
          · obtain ⟨hs,hdot⟩ := ih List.mem_cons_self hu
            exact ⟨List.mem_cons_of_mem _ hs,hdot⟩
        · obtain ⟨hs,hdot⟩ := ih (List.mem_cons_of_mem _ hl) hu
          exact ⟨List.mem_cons_of_mem _ hs,hdot⟩

theorem mem_splitOn_of_mem (hu : u ∈ s) : u = dot ∨ ∃ label ∈ s.splitOn dot, u ∈ label := by
  induction s with
  | nil => simp at hu
  | cons v s ih =>
    rw [List.splitOn_cons_eq_if_modifyHead]
    by_cases hv : v = dot
    · rw [if_pos (by simp [hv])]
      rcases List.mem_cons.mp hu with rfl | hu
      · exact .inl hv
      · rcases ih hu with h | ⟨label,hl,h⟩
        · exact .inl h
        · exact .inr ⟨label,List.mem_cons_of_mem _ hl,h⟩
    · rw [if_neg (by simp [hv])]
      cases hsplit : s.splitOn dot with
      | nil => simp at hsplit
      | cons first rest =>
        rw [hsplit] at ih
        rw [List.modifyHead_cons]
        rcases List.mem_cons.mp hu with rfl | hu
        · exact .inr ⟨u::first,List.mem_cons_self,List.mem_cons_self⟩
        · rcases ih hu with h | ⟨label,hl,h⟩
          · exact .inl h
          · rcases List.mem_cons.mp hl with rfl | hl
            · exact .inr ⟨v::label,List.mem_cons_self,List.mem_cons_of_mem _ h⟩
            · exact .inr ⟨label,List.mem_cons_of_mem _ hl,h⟩

/-- What stands before a name leaves the labels after the first. -/
theorem tail_splitOn_cons (u : UInt16) (s : JsString) : ((u::s).splitOn dot).tail =
    if u = dot then s.splitOn dot else (s.splitOn dot).tail := by
  rw [List.splitOn_cons_eq_if_modifyHead]
  by_cases hu : u = dot <;> simp [hu,List.tail_modifyHead]

theorem blank_of_head (h : s.head? = some dot) : [] ∈ s.splitOn dot := by
  cases s with
  | nil => cases h
  | cons u s =>
    obtain rfl : u = dot := Option.some.inj h
    rw [List.splitOn_cons_eq_if_modifyHead,if_pos (by simp)]
    exact List.mem_cons_self

theorem blank_of_getLast (h : s.getLast? = some dot) : [] ∈ (s.splitOn dot).tail := by
  induction s with
  | nil => cases h
  | cons u s ih =>
    rw [tail_splitOn_cons]
    cases s with
    | nil =>
      obtain rfl : u = dot := Option.some.inj h
      simp
    | cons v s =>
      have hrest := ih (by rwa [List.getLast?_cons_cons] at h)
      split_ifs
      · exact List.mem_of_mem_tail hrest
      · exact hrest

theorem blank_of_includes (h : includesDots s = true) : [] ∈ (s.splitOn dot).tail := by
  fun_induction includesDots s with
  | case1 u v s ih =>
    rw [tail_splitOn_cons]
    rw [Bool.or_eq_true,Bool.and_eq_true] at h
    rcases h with ⟨hu,hv⟩ | h
    · rw [if_pos (by simpa using hu)]
      exact blank_of_head (by simpa using hv)
    · split_ifs
      · exact List.mem_of_mem_tail (ih h)
      · exact ih h
  | case2 s h' => cases h

theorem splitOn_domainText (hne : labels ≠ []) (h : ∀ label ∈ labels, IsLabel label) :
    (domainText labels).splitOn dot = labels :=
  List.splitOn_intercalate dot (fun label hl hdot => (h label hl).units dot hdot |>.2.2.2.1 rfl) hne

theorem isLabelUnit_of_mem (hne : labels ≠ []) (h : ∀ label ∈ labels, IsLabel label)
    (hu : u ∈ domainText labels) : u = dot ∨ IsLabelUnit u := by
  rcases mem_splitOn_of_mem hu with hdot | ⟨label,hl,hmem⟩
  · exact .inl hdot
  · rw [splitOn_domainText hne h] at hl
    exact .inr ((h label hl).units u hmem)

/-- A domain passes when it is a host name. -/
theorem validateDomain_eq_ok {domain : JsString} (hc : ∀ u ∈ domain, isControl u = false) :
    validateDomain domain = .ok () ↔ ∃ labels, labels ≠ [] ∧ (∀ label ∈ labels, IsLabel label) ∧
      domainText labels = domain ∧ domain.length ≤ maxDomainLength := by
  rw [validateDomain]
  constructor
  · intro h
    by_cases hne : domain = []
    · rw [if_pos hne] at h
      cases h
    by_cases hsize : maxDomainLength < domain.length
    · rw [if_neg hne,if_pos hsize] at h
      cases h
    rw [if_neg hne,if_neg hsize] at h
    obtain ⟨u,hoctets,h⟩ := bind_eq_ok.mp h
    split_ifs at h with hends hdots
    · cases h
    · cases h
    rw [checkLabels_eq_ok] at h
    rw [checkOctets_eq_ok] at hoctets
    refine ⟨domain.splitOn dot,List.splitOn_ne_nil _ _,fun label hl => ?_,
      List.intercalate_splitOn dot,not_lt.mp hsize⟩
    obtain ⟨hlne,hlsize,hfirst,hlast,hunits⟩ := checkLabel_eq_ok.mp (h label hl)
    refine ⟨hlne,hlsize,hfirst,hlast,fun u hu => ?_⟩
    obtain ⟨hmem,hdot⟩ := of_mem_splitOn hl hu
    obtain ⟨hat,hspace,-⟩ := hunits u hu
    obtain ⟨hascii,hupper⟩ := hoctets u hmem
    have hcontrol := hc u hmem
    simp only [isControl,Bool.or_eq_false_iff,decide_eq_false_iff_not] at hcontrol
    have hne : u.toNat ≠ 0x20 := fun h20 => hspace (UInt16.toNat_inj.mp h20)
    exact ⟨by omega,by omega,hupper,hdot,hat⟩
  · rintro ⟨labels,hne,hlabels,rfl,hsize⟩
    have hsplit := splitOn_domainText hne hlabels
    have hblank : [] ∉ (domainText labels).splitOn dot := by
      rw [hsplit]
      exact fun hmem => (hlabels [] hmem).ne rfl
    have hdomain : domainText labels ≠ [] := by
      intro hnil
      rw [hnil,List.splitOn_nil] at hblank
      simp at hblank
    have hends : ¬((domainText labels).head? = some dot ∨ (domainText labels).getLast? = some dot) := by
      rintro (h | h)
      · exact hblank (blank_of_head h)
      · exact hblank (List.mem_of_mem_tail (blank_of_getLast h))
    have hdots : ¬includesDots (domainText labels) = true :=
      fun h => hblank (List.mem_of_mem_tail (blank_of_includes h))
    have hoctets : checkOctets (domainText labels) = .ok () := by
      refine checkOctets_eq_ok.mpr fun u hu => ?_
      rcases isLabelUnit_of_mem hne hlabels hu with rfl | ⟨-,hlt,hupper,-⟩
      · decide
      · exact ⟨by omega,hupper⟩
    rw [if_neg hdomain,if_neg (not_lt.mpr hsize),hoctets,ok_bind,if_neg hends,if_neg hdots,
      checkLabels_eq_ok,hsplit]
    intro label hl
    obtain ⟨hlne,hlsize,hfirst,hlast,hunits⟩ := hlabels label hl
    refine checkLabel_eq_ok.mpr ⟨hlne,hlsize,hfirst,hlast,fun u hu => ?_⟩
    obtain ⟨hlow,-,-,-,hat⟩ := hunits u hu
    refine ⟨hat,?_,?_⟩
    · rintro rfl
      exact absurd hlow (by decide)
    · rintro rfl
      exact absurd hlow (by decide)

end Labels

section Grammar
variable {un : Unicode} {addr : JsString}

theorem cutAt_text (p : Address un) : cutAt atSign p.text = some (p.localPart,p.domain) :=
  cutAt_eq_some.mpr ⟨rfl,p.localPart_at⟩

theorem atSign_notMem_domain (p : Address un) : atSign ∉ p.domain := by
  intro hat
  rcases isLabelUnit_of_mem p.labels_ne p.isLabel hat with h | h
  · exact absurd h (by decide)
  · exact h.2.2.2.2 rfl

theorem isControl_text (p : Address un) : ∀ u ∈ p.text, isControl u = false := by
  intro u hu
  rcases List.mem_append.mp hu with hu | hu
  · exact p.localPart_controls u hu
  · rcases List.mem_cons.mp hu with rfl | hu
    · decide
    · rcases isLabelUnit_of_mem p.labels_ne p.isLabel hu with rfl | ⟨hlow,hhigh,-⟩
      · decide
      · simp only [isControl,Bool.or_eq_false_iff,decide_eq_false_iff_not]
        omega

theorem splitAddress_text (p : Address un) :
    splitAddress p.text = .ok (p.localPart,p.domain) := by
  rw [splitAddress,cutAt_text]
  exact if_neg (atSign_notMem_domain p)

theorem text_ne (p : Address un) : p.text ≠ [] := by simp [Address.text]

theorem splitAddress_eq_ok {l d : JsString} : splitAddress addr = .ok (l,d) ↔
    addr = l++atSign::d ∧ atSign ∉ l ∧ atSign ∉ d := by
  rw [splitAddress]
  constructor
  · intro h
    cases hcut : cutAt atSign addr with
    | none =>
      rw [hcut] at h
      cases h
    | some p =>
      rw [hcut] at h
      dsimp only at h
      split_ifs at h with hat
      · cases h
      obtain rfl := Except.ok.inj h
      obtain ⟨haddr,hl⟩ := cutAt_eq_some.mp hcut
      exact ⟨haddr,hl,hat⟩
  · rintro ⟨rfl,hl,hd⟩
    rw [cutAt_eq_some.mpr ⟨rfl,hl⟩]
    exact if_neg hd

/-- What passes the check has the parts of a valid address. -/
theorem validateAddress_eq_ok : validateAddress un addr = .ok () ↔ ∃ p : Address un, p.text = addr := by
  constructor
  · intro h
    rw [validateAddress] at h
    by_cases hne : addr = []
    · rw [if_pos hne] at h
      cases h
    by_cases hsize : maxAddressLength < (utf8 addr).length
    · rw [if_neg hne,if_pos hsize] at h
      cases h
    rw [if_neg hne,if_neg hsize] at h
    obtain ⟨u,hcontrols,h⟩ := bind_eq_ok.mp h
    obtain ⟨⟨l,d⟩,hsplit,hparts⟩ := bind_eq_ok.mp h
    obtain ⟨rfl,hl,-⟩ := splitAddress_eq_ok.mp hsplit
    have hc := rejectControlsFrom_eq_ok.mp hcontrols
    by_cases hlne : l = []
    · rw [if_pos hlne] at hparts
      cases hparts
    by_cases hlsize : maxLocalPartLength < (utf8 l).length
    · rw [if_neg hlne,if_pos hlsize] at hparts
      cases hparts
    by_cases hnfc : un.normalizeNFC l = l
    · rw [if_neg hlne,if_neg hlsize,if_neg (not_not.mpr hnfc)] at hparts
      obtain ⟨labels,hlabels,hisLabel,rfl,hdsize⟩ := (validateDomain_eq_ok fun u hu =>
        hc u (List.mem_append_right _ (List.mem_cons_of_mem _ hu))).mp hparts
      exact ⟨⟨l,labels,hlne,hl,fun u hu => hc u (List.mem_append_left _ hu),not_lt.mp hlsize,hnfc,
        hlabels,hisLabel,hdsize,not_lt.mp hsize⟩,rfl⟩
    · rw [if_neg hlne,if_neg hlsize,if_pos hnfc] at hparts
      cases hparts
  · rintro ⟨p,rfl⟩
    have hdomain : validateDomain p.domain = .ok () :=
      (validateDomain_eq_ok fun u hu => isControl_text p u
        (List.mem_append_right _ (List.mem_cons_of_mem _ hu))).mpr
          ⟨p.labels,p.labels_ne,p.isLabel,rfl,p.domain_size⟩
    have hsize : (utf8 p.text).length ≤ maxAddressLength := p.size
    rw [validateAddress,if_neg (text_ne p),if_neg (not_lt.mpr hsize),rejectControlChars,
      rejectControlsFrom_eq_ok.mpr (isControl_text p),ok_bind,splitAddress_text,ok_bind]
    dsimp only
    rw [if_neg p.localPart_ne,if_neg (not_lt.mpr p.localPart_size),
      if_neg (not_not.mpr p.localPart_nfc),hdomain]

theorem text_injective {p q : Address un} (h : p.text = q.text) : p = q := by
  have hcut := cutAt_text q
  rw [← h,cutAt_text] at hcut
  obtain ⟨hlocal,hdomain⟩ := Prod.mk.inj (Option.some.inj hcut)
  have hlabels := congrArg (List.splitOn dot) hdomain
  rw [Address.domain,Address.domain,splitOn_domainText p.labels_ne p.isLabel,
    splitOn_domainText q.labels_ne q.isLabel] at hlabels
  exact Address.ext hlocal hlabels

theorem cutLast_text (p : Address un) : cutLast p.text = some (p.localPart,p.domain) := by
  have hcut : cutAt atSign p.text.reverse = some (p.domain.reverse,p.localPart.reverse) := by
    refine cutAt_eq_some.mpr ⟨by simp [Address.text],?_⟩
    rw [List.mem_reverse]
    exact atSign_notMem_domain p
  rw [cutLast,hcut,Option.map_some,List.reverse_reverse,List.reverse_reverse]

theorem splitOn_text (p : Address un) : p.text.splitOn atSign = [p.localPart,p.domain] := by
  rw [Address.text,List.splitOn_append_cons_self_of_not_mem p.localPart_at,
    List.splitOn_eq_singleton (atSign_notMem_domain p)]

theorem partition_localPart (p : Address un) : Discovery.localPart p.text = p.localPart := by
  have hrev : p.text.reverse = p.domain.reverse++atSign::p.localPart.reverse := by
    simp [Address.text]
  have hall : ∀ u ∈ p.domain.reverse, u ≠ Discovery.atSign := by
    rintro u hu rfl
    exact atSign_notMem_domain p (List.mem_reverse.mp hu)
  rw [Discovery.localPart,if_pos (by simp [Address.text,Discovery.atSign,atSign]),hrev,
    List.dropWhile_append_of_pos (by simpa using hall),List.dropWhile_cons_of_neg (by
      simp [Discovery.atSign,atSign]),List.tail_cons,List.reverse_reverse]

/-- The text that stands for a valid address, if its domain has an A-label. -/
theorem canonicalizeAddress_text (p : Address un) (canonical : JsString) :
    canonicalizeAddress un p.text = .ok canonical ↔ ∃ a, un.toASCII p.domain = some a ∧ a ≠ [] ∧
      canonical = p.localPart++atSign::un.toLowerCase a := by
  rw [canonicalizeAddress,if_neg (text_ne p),splitAddress_text,ok_bind]
  dsimp only
  rw [p.localPart_nfc]
  cases un.toASCII p.domain with
  | none => simp [raise_ne_ok]
  | some a =>
    rw [Option.getD_some]
    split_ifs with ha
    · simp [raise_ne_ok,ha]
    · simp [ha,eq_comm]

theorem addressEqual_eq_true {a b : JsString} : addressEqual un a b = true ↔
    ∃ c, canonicalizeAddress un a = .ok c ∧ canonicalizeAddress un b = .ok c := by
  rw [addressEqual]
  cases canonicalizeAddress un a with
  | error e => simp
  | ok aa =>
    cases canonicalizeAddress un b with
    | error e => simp
    | ok bb =>
      rw [beq_iff_eq]
      exact ⟨fun h => ⟨aa,rfl,congrArg _ h.symm⟩,fun ⟨c,ha,hb⟩ =>
        (Except.ok.inj ha).trans (Except.ok.inj hb).symm⟩

/-- Two addresses are equal when their local parts are and their domains have one A-label. -/
theorem addressEqual_iff (p q : Address un) : addressEqual un p.text q.text = true ↔
    p.localPart = q.localPart ∧ ∃ a b, un.toASCII p.domain = some a ∧ un.toASCII q.domain = some b ∧
      a ≠ [] ∧ b ≠ [] ∧ un.toLowerCase a = un.toLowerCase b := by
  rw [addressEqual_eq_true]
  simp only [canonicalizeAddress_text]
  constructor
  · rintro ⟨c,⟨a,ha,hane,rfl⟩,b,hb,hbne,he⟩
    have hcut : cutAt atSign (p.localPart++atSign::un.toLowerCase a) =
        some (q.localPart,un.toLowerCase b) := cutAt_eq_some.mpr ⟨he,q.localPart_at⟩
    rw [cutAt_eq_some.mpr ⟨rfl,p.localPart_at⟩,Option.some.injEq,Prod.mk.injEq] at hcut
    exact ⟨hcut.1,a,b,ha,hb,hane,hbne,hcut.2⟩
  · rintro ⟨hlocal,a,b,ha,hb,hane,hbne,he⟩
    exact ⟨_,⟨a,ha,hane,rfl⟩,b,hb,hbne,by rw [hlocal,he]⟩

/-- The check accepts the texts of valid addresses, each of which has its parts in one way; the
four ways in which the program takes an address apart find them, and two valid addresses count
as equal when their local parts are the same and their domains have A-labels that differ in
case only. -/
theorem address_grammar (un : Unicode) :
    (∀ addr, validateAddress un addr = .ok () ↔ ∃ p : Address un, p.text = addr) ∧
    ∀ p : Address un, (∀ q : Address un, q.text = p.text → q = p) ∧
      addressLocal p.text = p.localPart ∧ addressDomain p.text = p.domain ∧
      Discovery.localPart p.text = p.localPart ∧ Pipeline.addressDomain p.text = p.domain ∧
      DeviceCertificates.peerDomain p.text = p.domain ∧
      ∀ q : Address un, addressEqual un p.text q.text = true ↔ p.localPart = q.localPart ∧
        ∃ a b, un.toASCII p.domain = some a ∧ un.toASCII q.domain = some b ∧ a ≠ [] ∧ b ≠ [] ∧
          un.toLowerCase a = un.toLowerCase b := by
  refine ⟨fun addr => validateAddress_eq_ok,fun p => ?_⟩
  have hsplit : p.text.splitOn 64 = [p.localPart,p.domain] := splitOn_text p
  have hmem : (64 : UInt16) ∈ p.text := by simp [Address.text,atSign]
  refine ⟨fun q hq => text_injective hq,?_,?_,partition_localPart p,?_,?_,addressEqual_iff p⟩
  · rw [addressLocal,cutLast_text]
  · rw [addressDomain,cutLast_text]
  · rw [Pipeline.addressDomain,hsplit]
    rfl
  · rw [DeviceCertificates.peerDomain,if_pos hmem,hsplit]
    rfl

/-- Letters of both cases and a dot in the local part, a hyphen in the domain. -/
example : (validateAddress ⟨id,id,some⟩ (js "A.b@x-y.example")).toOption = some () := by decide

end Grammar
end Brief
end Semp
