import Semp.Crypto
import Semp.JsMap
import Semp.JsDynamic
import Semp.JsonSize

/-! Validation of a map of extensions: the keys in sorted order, each with its entry, and then
the size of the serialised map. -/
namespace Semp

namespace JsonSize
open JsonText

/-- An item, with the comma or bracket after it. -/
theorem utf8Size_items (v : Json) (vs : List Json) :
    utf8Size (stringifyItems (v::vs)++[closeBracket]) =
      ((v::vs).map fun v => jsonSize v+1).sum := by
  induction vs generalizing v with
  | nil =>
    rw [stringifyItems,utf8Size_append (isWellFormed_stringify _),utf8Size_singleton (by decide)]
    rfl
  | cons w vs ih =>
    rw [stringifyItems,List.append_assoc,utf8Size_append (isWellFormed_stringify _),
      List.cons_append,utf8Size_cons (by decide),ih w]
    simp only [List.map_cons,List.sum_cons,jsonSize]
    omega

theorem jsonSize_arr {vs : List Json} (h : vs ≠ []) :
    jsonSize (.arr vs) = 1+(vs.map fun v => jsonSize v+1).sum := by
  cases vs with
  | nil => exact absurd rfl h
  | cons v vs => rw [jsonSize,stringify,List.cons_append,utf8Size_cons (by decide),utf8Size_items]

/-- The size does not depend on the order of members, at any level. -/
theorem jsonSize_sortKeys (v : Json) : jsonSize v.sortKeys = jsonSize v := by
  induction v with
  | arr vs ih =>
    rw [Json.sortKeys,Json.sortItems_eq]
    by_cases hvs : vs = []
    · rw [hvs]
      rfl
    · rw [jsonSize_arr (by simpa using hvs),jsonSize_arr hvs,List.map_map]
      congr 2
      exact List.map_congr_left fun v hv => by rw [Function.comp_apply,ih v hv]
  | obj ms ih =>
    rw [Json.sortKeys,Json.sortEach_eq]
    by_cases hms : ms = []
    · rw [hms]
      rfl
    · have hperm := sortMembers_perm (ms.map fun m => (m.1,m.2.sortKeys))
      have hne : sortMembers (ms.map fun m => (m.1,m.2.sortKeys)) ≠ [] := fun h =>
        hms (List.map_eq_nil_iff.mp (List.nil_perm.mp (h ▸ hperm)))
      rw [jsonSize_obj hne,jsonSize_obj hms,(hperm.map memberSize).sum_eq,List.map_map]
      congr 2
      exact List.map_congr_left fun m hm => by
        rw [Function.comp_apply,memberSize,memberSize,ih m hm]
  | _ => rfl

end JsonSize

namespace Extensions

inductive Layer
  | postmark
  | seal
  | brief
  | enclosure
  deriving DecidableEq, Repr

def Layer.name : Layer → JsString
  | .postmark => js "postmark"
  | .seal => js "seal"
  | .brief => js "brief"
  | .enclosure => js "enclosure"

def maxBytesFor : Layer → ℕ
  | .postmark => 4096
  | .seal => 4096
  | .brief => 16384
  | .enclosure => 65536

structure RegistryEntry where
  identifier : JsString
  layers : List Layer

abbrev Registry := JsMap RegistryEntry

def Registry.register (r : Registry) (entry : RegistryEntry) : Registry :=
  r.set entry.identifier entry

def Registry.lookup (r : Registry) (identifier : JsString) : Option RegistryEntry :=
  r.get identifier

/-- The errors that are returned. -/
inductive Rejection
  | unsupported (key : JsString) (layer : Layer)
  | size (layer : Layer) (size limit : ℕ)
  | key (key : JsString) (layer : Layer) (reason : JsString)
  deriving DecidableEq, Repr

def Rejection.message : Rejection → JsString
  | .unsupported k layer => js "extensions: "++layer.name++
      js " layer required extension \""++k++js "\" is not supported"
  | .size layer bytes limit => js "extensions: "++layer.name++js " layer extensions object "++
      natText bytes++js " bytes exceeds limit "++natText limit
  | .key k layer reason => js "extensions: "++layer.name++js " layer key \""++k++js "\": "++reason

def Rejection.reasonCode : Rejection → Option JsString
  | .unsupported .. => some (js "extension_unsupported")
  | .size .. => some (js "extension_size_exceeded")
  | .key .. => none

def maxKeyLength : ℕ := 128

def slash : UInt16 := 47

def isPrintable (code : UInt16) : Bool := decide (0x21 ≤ code.toNat ∧ code.toNat ≤ 0x7e)

/-- The reason against a key. -/
def validateKey (key : JsString) : Option JsString :=
  if key.length = 0 then some (js "empty key")
  else if key.length > maxKeyLength then
    some (js "key length "++natText key.length++js " exceeds "++natText maxKeyLength)
  else
    match key.findIdx? fun code => !isPrintable code with
    | some i => some (js "non-printable-ASCII byte at offset "++natText i)
    | none =>
      if ¬js "x-" <+: key ∧ slash ∉ key then
        some (js "expected \x60<vendor>/<name>\x60 or \x60x-<name>\x60")
      else none

/-- A map that is not there or has no keys passes. -/
def validateSize (layer : Layer) (m : Option Members) : Option Rejection :=
  match m with
  | none | some [] => none
  | some m =>
    let limit := maxBytesFor layer
    let bytes := JsonSize.jsonSize (.obj m)
    if bytes > limit then some (.size layer bytes limit) else none

/-- One round of the loop over the keys: what it returns, if it does. -/
def checkKey (registry : Option Registry) (layer : Layer) (m : Members) (k : JsString) :
    Js (Option Rejection) :=
  match validateKey k with
  | some reason => .ok (some (.key k layer reason))
  | none =>
    match lookup m k with
    | none => .ok none
    | some entry => do
      -- `entry` is null when the text has null there, and reading it throws.
      let required ← getProp (some entry) (js "required")
      if !truthy required then .ok none
      else
        match registry with
        | none => .ok (some (.unsupported k layer))
        | some registry =>
          match registry.lookup k with
          | none => .ok (some (.unsupported k layer))
          | some reg => .ok (if layer ∈ reg.layers then none else some (.unsupported k layer))

def checkKeys (registry : Option Registry) (layer : Layer) (m : Members) :
    List JsString → Js (Option Rejection)
  | [] => .ok none
  | k::ks => do
    match ← checkKey registry layer m k with
    | some rejection => .ok (some rejection)
    | none => checkKeys registry layer m ks

section Equations
-- Its equations are made here, and not by each of the proofs that use them.
attribute [local simp] checkKeys
end Equations

def validate (registry : Option Registry) (layer : Layer) (m : Option Members) :
    Js (Option Rejection) :=
  match m with
  | none | some [] => .ok none
  | some m => do
    match ← checkKeys registry layer m (keys (sortMembers m)) with
    | some rejection => .ok (some rejection)
    | none => .ok (validateSize layer (some m))

/-- A JSON object. -/
abbrev ExtensionMap := {ms : Members // (Json.obj ms).WF}

structure WellFormedKey (key : JsString) : Prop where
  nonempty : key ≠ []
  short : key.length ≤ 128
  printable : ∀ u ∈ key, 0x21 ≤ u.toNat ∧ u.toNat ≤ 0x7e
  named : js "x-" <+: key ∨ slash ∈ key

/-- An entry that asks to be understood. -/
def Marked (entry : Json) : Prop :=
  ∃ es, entry = .obj es ∧ truthy (lookup es (js "required")) = true

def Registered (registry : Option Registry) (layer : Layer) (key : JsString) : Prop :=
  ∃ r reg, registry = some r ∧ r.get key = some reg ∧ layer ∈ reg.layers

/-- What is asked of one member. -/
structure Passes (registry : Option Registry) (layer : Layer) (m : JsString × Json) : Prop where
  key : WellFormedKey m.1
  registered : Marked m.2 → Registered registry layer m.1

/-- Null stands as the entry of a well-formed key, and every member before it passes. -/
def Stumbles (registry : Option Registry) (layer : Layer) (ms : Members) : Prop :=
  ∃ before k after, ms = before++(k,.null)::after ∧ WellFormedKey k ∧
    ∀ m ∈ before, Passes registry layer m

section Key
variable {key : JsString}

theorem validateKey_eq_none : validateKey key = none ↔ WellFormedKey key := by
  have hprint : (key.findIdx? fun code => !isPrintable code) = none ↔
      ∀ u ∈ key, 0x21 ≤ u.toNat ∧ u.toNat ≤ 0x7e := by
    simp [List.findIdx?_eq_none_iff,isPrintable]
  constructor
  · intro h
    rw [validateKey] at h
    by_cases hempty : key.length = 0
    · rw [if_pos hempty] at h
      cases h
    by_cases hlong : key.length > maxKeyLength
    · rw [if_neg hempty,if_pos hlong] at h
      cases h
    rw [if_neg hempty,if_neg hlong] at h
    cases hfind : key.findIdx? fun code => !isPrintable code with
    | some i =>
      rw [hfind] at h
      cases h
    | none =>
      rw [hfind] at h
      simp only at h
      split_ifs at h with hname
      refine ⟨fun hnil => hempty (by rw [hnil]; rfl),not_lt.mp hlong,hprint.mp hfind,?_⟩
      rw [not_and_or,not_not,not_not] at hname
      exact hname
  · intro h
    rw [validateKey,if_neg (fun hlen => h.nonempty (List.length_eq_zero_iff.mp hlen)),
      if_neg (show ¬key.length > maxKeyLength from not_lt.mpr h.short),hprint.mpr h.printable]
    exact if_neg fun hname => h.named.elim hname.1 hname.2

end Key

section Checks
variable {registry : Option Registry} {layer : Layer} {m : Members} {k : JsString} {v : Json}

theorem not_marked_null : ¬Marked .null := fun ⟨_,h,_⟩ => nomatch h

theorem passes_null : Passes registry layer (k,.null) ↔ WellFormedKey k :=
  ⟨fun h => h.key,fun h => ⟨h,fun hm => absurd hm not_marked_null⟩⟩

theorem getProp_required (hv : v ≠ .null) :
    ∃ required, getProp (some v) (js "required") = .ok required ∧
      (truthy required = true ↔ Marked v) := by
  cases v with
  | null => exact absurd rfl hv
  | obj es => exact ⟨_,rfl,fun h => ⟨es,rfl,h⟩,fun ⟨es',h,ht⟩ => by cases h; exact ht⟩
  | _ => exact ⟨none,rfl,nofun,fun ⟨_,h,_⟩ => nomatch h⟩

theorem checkKey_ok (hl : lookup m k = some v) (hv : v ≠ .null)
    (hp : Passes registry layer (k,v)) : checkKey registry layer m k = .ok none := by
  obtain ⟨required,hget,hreq⟩ := getProp_required hv
  unfold checkKey
  rw [validateKey_eq_none.mpr hp.key,hl]
  simp only [hget,ok_bind]
  by_cases ht : truthy required = true
  · obtain ⟨r,reg,rfl,hreg,hmem⟩ := hp.registered (hreq.mp ht)
    simp only [ht,Registry.lookup,hreg,hmem,if_true]
    rfl
  · rw [Bool.not_eq_true] at ht
    rw [ht]
    rfl

theorem checkKey_fails (hl : lookup m k = some v) (hp : ¬Passes registry layer (k,v)) :
    ∃ rejection, checkKey registry layer m k = .ok (some rejection) := by
  unfold checkKey
  cases hkey : validateKey k with
  | some reason => exact ⟨_,rfl⟩
  | none =>
    have hwf := validateKey_eq_none.mp hkey
    have hv : v ≠ .null := by
      rintro rfl
      exact hp (passes_null.mpr hwf)
    obtain ⟨required,hget,hreq⟩ := getProp_required hv
    have hmarked : Marked v := by
      by_contra hnot
      exact hp ⟨hwf,fun hm => absurd hm hnot⟩
    have hnot : ¬Registered registry layer k := fun hr => hp ⟨hwf,fun _ => hr⟩
    simp only [hl,hget,ok_bind,hreq.mpr hmarked]
    cases registry with
    | none => exact ⟨_,rfl⟩
    | some r =>
      cases hreg : r.lookup k with
      | none => exact ⟨.unsupported k layer,by simp [hreg]⟩
      | some reg =>
        have hmem : layer ∉ reg.layers := fun h => hnot ⟨r,reg,rfl,hreg,h⟩
        exact ⟨.unsupported k layer,by simp [hreg,hmem]⟩

theorem checkKey_null (hl : lookup m k = some .null) (hk : WellFormedKey k) :
    checkKey registry layer m k = raiseType := by
  unfold checkKey
  rw [validateKey_eq_none.mpr hk,hl]
  rfl

theorem stumbles_cons {e : JsString × Json} {ms : Members} :
    Stumbles registry layer (e::ms) ↔
      e.2 = .null ∧ WellFormedKey e.1 ∨ Passes registry layer e ∧ Stumbles registry layer ms := by
  constructor
  · rintro ⟨before,k,after,hms,hk,hbefore⟩
    cases before with
    | nil =>
      cases hms
      exact .inl ⟨rfl,hk⟩
    | cons e' before =>
      cases hms
      obtain ⟨he,hbefore⟩ := List.forall_mem_cons.mp hbefore
      exact .inr ⟨he,before,k,after,rfl,hk,hbefore⟩
  · rintro (⟨hnull,hk⟩ | ⟨he,before,k,after,rfl,hk,hbefore⟩)
    · exact ⟨[],e.1,ms,by rw [← hnull]; rfl,hk,nofun⟩
    · exact ⟨e::before,k,after,rfl,hk,List.forall_mem_cons.mpr ⟨he,hbefore⟩⟩

/-- The loop throws at a null entry that it reaches, and passes when no member stops it. -/
theorem checkKeys_spec {ms : Members} (hms : ∀ e ∈ ms, lookup m e.1 = some e.2) :
    ((∃ r, checkKeys registry layer m (keys ms) = .ok r) ↔ ¬Stumbles registry layer ms) ∧
      (checkKeys registry layer m (keys ms) = .ok none ↔
        ∀ e ∈ ms, e.2 ≠ .null ∧ Passes registry layer e) := by
  induction ms with
  | nil =>
    refine ⟨⟨fun _ ⟨before,_,_,h,_⟩ => ?_,fun _ => ⟨_,rfl⟩⟩,fun _ => nofun,fun _ => rfl⟩
    cases before <;> cases h
  | cons e ms ih =>
    obtain ⟨k,v⟩ := e
    obtain ⟨hl,hms⟩ := List.forall_mem_cons.mp hms
    obtain ⟨ihok,ihnone⟩ := ih hms
    rw [stumbles_cons,List.forall_mem_cons,keys_cons,checkKeys]
    by_cases hp : Passes registry layer (k,v)
    · by_cases hv : v = .null
      · subst hv
        rw [checkKey_null hl hp.key]
        exact ⟨⟨nofun,fun h => absurd (.inl ⟨rfl,hp.key⟩) h⟩,nofun,fun h => absurd rfl h.1.1⟩
      · rw [checkKey_ok hl hv hp]
        exact ⟨ihok.trans ⟨fun h => by simp [hv,hp,h],fun h hs => h (.inr ⟨hp,hs⟩)⟩,
          ihnone.trans (and_iff_right ⟨hv,hp⟩).symm⟩
    · obtain ⟨rejection,hreject⟩ := checkKey_fails hl hp
      rw [hreject]
      refine ⟨⟨fun _ h => ?_,fun _ => ⟨_,rfl⟩⟩,nofun,fun h => absurd h.1.2 hp⟩
      obtain ⟨rfl,hk⟩ | ⟨hp',-⟩ := h
      · exact hp (passes_null.mpr hk)
      · exact hp hp'

end Checks

/-- The members of the value sorted at every level. -/
def sorted (ms : Members) : Members := sortMembers (ms.map fun m => (m.1,m.2.sortKeys))

section Order
variable {registry : Option Registry} {layer : Layer} {ms : Members} {v : Json}

theorem sortKeys_obj (ms : Members) : (Json.obj ms).sortKeys = .obj (sorted ms) := by
  rw [Json.sortKeys,Json.sortEach_eq,sorted]

theorem nodup_map (h : (keys ms).Nodup) : (keys (ms.map fun m => (m.1,m.2.sortKeys))).Nodup := by
  rw [Json.keys_map_snd]
  exact h

theorem lookup_sorted (h : (keys ms).Nodup) (k : JsString) :
    lookup (sorted ms) k = (lookup ms k).map Json.sortKeys := by
  have hk := nodup_map h
  rw [← lookup_map,sorted]
  exact (perm_iff_lookup (nodup_keys_sortMembers.mpr hk) hk).mp (sortMembers_perm _) k

theorem keys_sorted (ms : Members) : keys (sortMembers (sorted ms)) = keys (sortMembers ms) := by
  rw [sorted,sortMembers_sorted,
    sortMembers_map (fun m : JsString × Json => (m.1,m.2.sortKeys)) fun _ => rfl,Json.keys_map_snd]

theorem truthy_sortKeys (v : Json) : truthy (some v.sortKeys) = truthy (some v) := by
  cases v <;> rfl

/-- Reading a property tells the order of members in no way. -/
theorem truthy_getProp (h : v.WF) (k : JsString) :
    (getProp (some v.sortKeys) k).map truthy = (getProp (some v) k).map truthy := by
  cases v with
  | obj es =>
    rw [sortKeys_obj,getProp_obj,getProp_obj,lookup_sorted (Json.wf_obj.mp h).1]
    cases lookup es k with
    | none => rfl
    | some w => exact congrArg Except.ok (truthy_sortKeys w)
  | _ => rfl

theorem checkKey_sorted (h : (Json.obj ms).WF) (k : JsString) :
    checkKey registry layer (sorted ms) k = checkKey registry layer ms k := by
  have hbind (x : Js (Option Json)) (f : Bool → Js (Option Rejection)) :
      (x >>= fun required => f (truthy required)) = x.map truthy >>= f := by
    cases x <;> rfl
  unfold checkKey
  rw [lookup_sorted (Json.wf_obj.mp h).1]
  cases validateKey k with
  | some reason => rfl
  | none =>
    cases hv : lookup ms k with
    | none => rfl
    | some v =>
      simp only [Option.map_some]
      rw [hbind _ fun b => if !b then .ok none else _,hbind _ fun b => if !b then .ok none else _,
        truthy_getProp (Json.wf_of_lookup h hv)]

theorem checkKeys_sorted (h : (Json.obj ms).WF) (ks : List JsString) :
    checkKeys registry layer (sorted ms) ks = checkKeys registry layer ms ks := by
  induction ks with
  | nil => rfl
  | cons k ks ih => rw [checkKeys,checkKeys,checkKey_sorted h,ih]

end Order

/-- What is left after the loop. -/
def conclude (layer : Layer) (ms : Members) : Option Rejection → Js (Option Rejection)
  | some rejection => .ok (some rejection)
  | none => .ok (if JsonSize.jsonSize (.obj ms) > maxBytesFor layer then
      some (.size layer (JsonSize.jsonSize (.obj ms)) (maxBytesFor layer)) else none)

theorem validate_eq (registry : Option Registry) (layer : Layer) {ms : Members} (h : ms ≠ []) :
    validate registry layer (some ms) =
      checkKeys registry layer ms (keys (sortMembers ms)) >>= conclude layer ms := by
  cases ms with
  | nil => exact absurd rfl h
  | cons m ms =>
    change (checkKeys registry layer (m::ms) (keys (sortMembers (m::ms))) >>= fun r =>
      match r with
      | some rejection => .ok (some rejection)
      | none => .ok (validateSize layer (some (m::ms)))) = _
    congr 1

theorem validate_sorted (registry : Option Registry) (layer : Layer) {ms : Members}
    (h : (Json.obj ms).WF) :
    validate registry layer (some (sorted ms)) = validate registry layer (some ms) := by
  by_cases hms : ms = []
  · subst hms
    rfl
  · have hne : sorted ms ≠ [] := fun hnil =>
      hms (List.map_eq_nil_iff.mp
        (List.perm_nil.mp ((sortMembers_perm _).symm.trans (.of_eq hnil))))
    have hsize : conclude layer (sorted ms) = conclude layer ms := by
      funext r
      cases r with
      | some rejection => rfl
      | none => rw [conclude,conclude,← sortKeys_obj,JsonSize.jsonSize_sortKeys]
    rw [validate_eq _ _ hne,validate_eq _ _ hms,keys_sorted,checkKeys_sorted h,hsize]

/-- What is asked of a map. -/
structure Accepted (registry : Option Registry) (layer : Layer) (ms : Members) : Prop where
  passes : ∀ m ∈ ms, Passes registry layer m
  fits : JsonSize.jsonSize (.obj ms) ≤ maxBytesFor layer

/-- The call returns, null exactly for what is to be accepted, and the same for the same members
in any order, at any level. -/
structure Verdict (registry : Option Registry) (layer : Layer) (m : ExtensionMap) : Prop where
  returns : ∃ r, validate registry layer (some m.val) = .ok r
  accepts : validate registry layer (some m.val) = .ok none ↔ Accepted registry layer m.val
  orderless : ∀ m' : ExtensionMap, (Json.obj m.val).sortKeys = (Json.obj m'.val).sortKeys →
    validate registry layer (some m'.val) = validate registry layer (some m.val)

/-- The verdict is sound unless a null entry is reached in the order of the keys. -/
theorem verdict_iff (registry : Option Registry) (layer : Layer) (m : ExtensionMap) :
    Verdict registry layer m ↔ ¬Stumbles registry layer (sortMembers m.val) := by
  obtain ⟨ms,hwf⟩ := m
  have hnodup := (Json.wf_obj.mp hwf).1
  have hfind : ∀ e ∈ sortMembers ms, lookup ms e.1 = some e.2 :=
    fun e he => (lookup_eq_some hnodup).mpr (mem_sortMembers.mp he)
  obtain ⟨hok,hnone⟩ : ((∃ r, checkKeys registry layer ms (keys (sortMembers ms)) = .ok r) ↔ _) ∧
      (checkKeys registry layer ms (keys (sortMembers ms)) = .ok none ↔ _) := checkKeys_spec hfind
  have hreturns : (∃ r, validate registry layer (some ms) = .ok r) ↔
      ¬Stumbles registry layer (sortMembers ms) := by
    rw [← hok]
    by_cases hms : ms = []
    · subst hms
      exact ⟨fun _ => ⟨_,rfl⟩,fun _ => ⟨_,rfl⟩⟩
    · rw [validate_eq _ _ hms]
      constructor
      · rintro ⟨r,hr⟩
        obtain ⟨r',hr',-⟩ := bind_eq_ok.mp hr
        exact ⟨r',hr'⟩
      · rintro ⟨r,hr⟩
        rw [hr]
        cases r <;> exact ⟨_,rfl⟩
  refine ⟨fun h => hreturns.mp h.returns,fun h => ⟨hreturns.mpr h,?_,?_⟩⟩
  · -- Where all members pass there is no null entry, or the first one is reached.
    have hpass : (∀ e ∈ sortMembers ms, e.2 ≠ .null ∧ Passes registry layer e) ↔
        ∀ e ∈ ms, Passes registry layer e := by
      refine ⟨fun hall e he => (hall e (mem_sortMembers.mpr he)).2,
        fun hall e he => ⟨fun hnull => ?_,
        hall e (mem_sortMembers.mp he)⟩⟩
      obtain ⟨before,after,hsplit⟩ := List.append_of_mem he
      refine h ⟨before,e.1,after,?_,(hall e (mem_sortMembers.mp he)).key,fun e' he' =>
        hall e' (mem_sortMembers.mp ?_)⟩
      · rw [hsplit,← hnull]
      · rw [hsplit]
        exact List.mem_append_left _ he'
    rw [hpass] at hnone
    by_cases hms : ms = []
    · subst hms
      have hfits : ∀ layer, JsonSize.jsonSize (.obj []) ≤ maxBytesFor layer := by
        intro layer
        cases layer <;> decide
      exact ⟨fun _ => ⟨nofun,hfits layer⟩,fun _ => rfl⟩
    · rw [validate_eq _ _ hms,bind_eq_ok]
      constructor
      · rintro ⟨r,hr,hc⟩
        cases r with
        | some rejection => cases hc
        | none =>
          rw [conclude] at hc
          split_ifs at hc with hsize
          · cases hc
          · exact ⟨hnone.mp hr,not_lt.mp hsize⟩
      · intro hacc
        exact ⟨none,hnone.mpr hacc.passes,by rw [conclude,if_neg (not_lt.mpr hacc.fits)]⟩
  · intro m' heq
    rw [sortKeys_obj,sortKeys_obj] at heq
    rw [← validate_sorted registry layer m'.2,← validate_sorted registry layer hwf,
      Json.obj.inj heq]

/-- A null entry under an experimental key makes the call throw. -/
theorem not_verdict : ¬Verdict none .postmark ⟨[(js "x-a",.null)],Json.wf_obj.mpr
    ⟨List.nodup_singleton _,List.forall_mem_singleton.mpr trivial⟩⟩ := by
  intro h
  obtain ⟨r,hr⟩ := h.returns
  cases hr

end Extensions
end Semp
