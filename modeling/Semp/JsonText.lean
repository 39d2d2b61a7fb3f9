import Semp.Json
import Semp.NumberText

/-! The text of a JSON value: `JSON.stringify` without spacing and `JSON.parse`.
The grammar of the texts is stated as a relation; the parser decides it, writing
derives it, and a reading before further text consumes the same part of it. -/
namespace Semp
namespace JsonText

def quoteUnit : UInt16 := 34
def backslash : UInt16 := 92
def comma : UInt16 := 44
def colon : UInt16 := 58
def openBracket : UInt16 := 91
def closeBracket : UInt16 := 93
def openBrace : UInt16 := 123
def closeBrace : UInt16 := 125
def unicodeMark : UInt16 := 117

def isBlank (u : UInt16) : Bool := u == 32 || u == 9 || u == 10 || u == 13

def skipWs (s : JsString) : JsString := s.dropWhile isBlank

def hexDigit (n : ℕ) : UInt16 := UInt16.ofNat (if n < 10 then 48+n else 87+n)

def hexValue (u : UInt16) : Option ℕ :=
  if 48 ≤ u.toNat ∧ u.toNat ≤ 57 then some (u.toNat-48)
  else if 97 ≤ u.toNat ∧ u.toNat ≤ 102 then some (u.toNat-87)
  else if 65 ≤ u.toNat ∧ u.toNat ≤ 70 then some (u.toNat-55)
  else none

/-- The letter of a two-unit escape. -/
def shortEscape (u : UInt16) : Option UInt16 :=
  if u = 8 then some 98
  else if u = 9 then some 116
  else if u = 10 then some 110
  else if u = 12 then some 102
  else if u = 13 then some 114
  else if u = quoteUnit then some quoteUnit
  else if u = backslash then some backslash
  else none

def unicodeEscape (u : UInt16) : JsString :=
  [backslash,unicodeMark,hexDigit (u.toNat/4096),hexDigit (u.toNat/256%16),
    hexDigit (u.toNat/16%16),hexDigit (u.toNat%16)]

def escapeUnit (u : UInt16) : JsString :=
  match shortEscape u with
  | some e => [backslash,e]
  | none =>
    if u.toNat < 32 || Utf8.isHigh u || Utf8.isLow u then unicodeEscape u else [u]

/-- A surrogate is escaped unless it is half of a pair. -/
def escape : JsString → JsString
  | [] => []
  | [u] => escapeUnit u
  | u::l::rest =>
    if Utf8.isHigh u && Utf8.isLow l then u::l::escape rest
    else escapeUnit u++escape (l::rest)

def quote (s : JsString) : JsString := quoteUnit::escape s++[quoteUnit]

mutual
/-- `JSON.stringify(v)` -/
def stringify : Json → JsString
  | .null => js "null"
  | .bool b => if b then js "true" else js "false"
  | .num x => if x.isFinite then NumberText.toText x else js "null"
  | .str s => quote s
  | .arr vs => openBracket::stringifyItems vs++[closeBracket]
  | .obj ms => openBrace::stringifyMembers ms++[closeBrace]
def stringifyItems : List Json → JsString
  | [] => []
  | [v] => stringify v
  | v::w::vs => stringify v++comma::stringifyItems (w::vs)
def stringifyMembers : Members → JsString
  | [] => []
  | [(k,v)] => quote k++colon::stringify v
  | (k,v)::m::ms => quote k++colon::stringify v++comma::stringifyMembers (m::ms)
end

def unescape (e : UInt16) : Option UInt16 :=
  if e = 98 then some 8
  else if e = 116 then some 9
  else if e = 110 then some 10
  else if e = 102 then some 12
  else if e = 114 then some 13
  else if e = quoteUnit ∨ e = backslash ∨ e = 47 then some e
  else none

def hexUnit (a b c d : UInt16) : Option UInt16 := do
  let a ← hexValue a
  let b ← hexValue b
  let c ← hexValue c
  let d ← hexValue d
  some (UInt16.ofNat (((a*16+b)*16+c)*16+d))

/-- The rest of a string literal after its opening quote. -/
def parseString : JsString → Option (JsString × JsString)
  | [] => none
  | u::s =>
    if u = quoteUnit then some ([],s)
    else if u = backslash then
      match s with
      | [] => none
      | e::s =>
        if e = unicodeMark then
          match s with
          | a::b::c::d::s =>
            (hexUnit a b c d).bind fun x => (parseString s).map fun r => (x::r.1,r.2)
          | _ => none
        else (unescape e).bind fun x => (parseString s).map fun r => (x::r.1,r.2)
    else if u.toNat < 32 then none
    else (parseString s).map fun r => (u::r.1,r.2)

def parseLiteral (word : JsString) (v : Json) (s : JsString) : Option (Json × JsString) :=
  if word <+: s then some (v,s.drop word.length) else none

/-- A member's key and its colon. -/
def parseKey (s : JsString) : Option (JsString × JsString) :=
  match skipWs s with
  | [] => none
  | u::t =>
    if u = quoteUnit then
      (parseString t).bind fun r =>
        if (skipWs r.2).head? = some colon then some (r.1,(skipWs r.2).tail) else none
    else none

/-- A later member of a key replaces the value of an earlier one. -/
def ofPairs (pairs : Members) : Members := pairs.foldl (fun ms m => assign ms m.1 m.2) []

mutual
def parseValue : ℕ → JsString → Option (Json × JsString)
  | 0, _ => none
  | fuel+1, s =>
    match skipWs s with
    | [] => none
    | u::t =>
      if u = quoteUnit then (parseString t).map fun r => (.str r.1,r.2)
      else if u = openBracket then
        if (skipWs t).head? = some closeBracket then some (.arr [],(skipWs t).tail)
        else (parseItems fuel t).map fun r => (.arr r.1,r.2)
      else if u = openBrace then
        if (skipWs t).head? = some closeBrace then some (.obj [],(skipWs t).tail)
        else (parseMembers fuel t).map fun r => (.obj (ofPairs r.1),r.2)
      else if u = 110 then parseLiteral (js "null") .null (u::t)
      else if u = 116 then parseLiteral (js "true") (.bool true) (u::t)
      else if u = 102 then parseLiteral (js "false") (.bool false) (u::t)
      else (NumberText.parse (u::t)).map fun r => (.num r.1,r.2)
def parseItems : ℕ → JsString → Option (List Json × JsString)
  | 0, _ => none
  | fuel+1, s =>
    match parseValue fuel s with
    | none => none
    | some (v,t) =>
      match skipWs t with
      | [] => none
      | u::t =>
        if u = comma then (parseItems fuel t).map fun r => (v::r.1,r.2)
        else if u = closeBracket then some ([v],t)
        else none
def parseMembers : ℕ → JsString → Option (Members × JsString)
  | 0, _ => none
  | fuel+1, s =>
    match parseKey s with
    | none => none
    | some (k,t) =>
      match parseValue fuel t with
      | none => none
      | some (v,t) =>
        match skipWs t with
        | [] => none
        | u::t =>
          if u = comma then (parseMembers fuel t).map fun r => ((k,v)::r.1,r.2)
          else if u = closeBrace then some ([(k,v)],t)
          else none
end

section Equations
-- Their equations are made here, and not by each of the proofs that use them.
attribute [local simp] escape stringify stringifyItems stringifyMembers parseString
  parseValue parseItems parseMembers
end Equations

/-- `JSON.parse(text)` -/
def parse (text : JsString) : Option Json :=
  match parseValue (2*text.length+1) text with
  | some (v,rest) => if skipWs rest = [] then some v else none
  | none => none

theorem hexValue_hexDigit {n : ℕ} (h : n < 16) : hexValue (hexDigit n) = some n := by
  have hn : (hexDigit n).toNat = if n < 10 then 48+n else 87+n := by
    rw [hexDigit,Utf8.toNat_ofNat_unit]
    split <;> omega
  by_cases hd : n < 10
  · rw [if_pos hd] at hn
    rw [hexValue,hn,if_pos (by omega)]
    simp
  · rw [if_neg hd] at hn
    rw [hexValue,hn,if_neg (by omega),if_pos (by omega)]
    simp

theorem hexUnit_digits (u : UInt16) :
    hexUnit (hexDigit (u.toNat/4096)) (hexDigit (u.toNat/256%16)) (hexDigit (u.toNat/16%16))
      (hexDigit (u.toNat%16)) = some u := by
  have hu := u.toNat_lt
  have ha : u.toNat/4096 < 16 := by omega
  have hsum : ((u.toNat/4096*16+u.toNat/256%16)*16+u.toNat/16%16)*16+u.toNat%16 = u.toNat := by
    omega
  have hd (n : ℕ) : hexValue (hexDigit (n%16)) = some (n%16) :=
    hexValue_hexDigit (Nat.mod_lt _ (by norm_num))
  simp only [hexUnit,hexValue_hexDigit ha,hd,Option.bind_eq_bind,Option.bind_some,hsum]
  rw [UInt16.ofNat_toNat]

@[simp] theorem parseString_quote (s : JsString) :
    parseString (quoteUnit::s) = some ([],s) := by
  unfold parseString
  rfl

theorem parseString_hex (a b c d : UInt16) (s : JsString) :
    parseString (backslash::unicodeMark::a::b::c::d::s) =
      (hexUnit a b c d).bind fun x => (parseString s).map fun r => (x::r.1,r.2) := by
  conv_lhs => unfold parseString
  rfl

theorem parseString_short {e : UInt16} (he : e ≠ unicodeMark) (s : JsString) :
    parseString (backslash::e::s) =
      (unescape e).bind fun x => (parseString s).map fun r => (x::r.1,r.2) := by
  conv_lhs => unfold parseString
  dsimp only
  rw [if_neg (by decide),if_pos rfl,if_neg he]

theorem parseString_cons {u : UInt16} (hq : u ≠ quoteUnit) (hb : u ≠ backslash)
    (hc : ¬u.toNat < 32) (s : JsString) :
    parseString (u::s) = (parseString s).map fun r => (u::r.1,r.2) := by
  conv_lhs => unfold parseString
  simp [hq,hb,hc]

theorem shortEscape_spec {u e : UInt16} (h : shortEscape u = some e) :
    unescape e = some u ∧ e ≠ unicodeMark := by
  unfold shortEscape at h
  split_ifs at h <;> subst_vars <;> simp only [Option.some.injEq] at h <;> subst_vars <;> decide

/-- Reading an escaped unit gives the unit. -/
theorem parseString_escapeUnit (u : UInt16) (s : JsString) :
    parseString (escapeUnit u++s) = (parseString s).map fun r => (u::r.1,r.2) := by
  unfold escapeUnit
  cases he : shortEscape u with
  | some e =>
    obtain ⟨h,hm⟩ := shortEscape_spec he
    simp only [List.cons_append,List.nil_append]
    rw [parseString_short hm,h,Option.bind_some]
  | none =>
    have hq : u ≠ quoteUnit ∧ u ≠ backslash := by
      constructor <;> rintro rfl <;> exact absurd he (by decide)
    dsimp only
    split_ifs with hc
    · simp only [unicodeEscape,List.cons_append,List.nil_append]
      rw [parseString_hex,hexUnit_digits,Option.bind_some]
    · simp only [Bool.or_eq_true,decide_eq_true_eq,not_or] at hc
      exact parseString_cons hq.1 hq.2 hc.1.1 s

theorem surrogate_plain {u : UInt16} (h : Utf8.isHigh u ∨ Utf8.isLow u) :
    u ≠ quoteUnit ∧ u ≠ backslash ∧ ¬u.toNat < 32 := by
  have hu : 0xD800 ≤ u.toNat := by
    rw [Utf8.isHigh_iff,Utf8.isLow_iff] at h
    omega
  refine ⟨?_,?_,by omega⟩ <;> rintro rfl <;> revert hu <;> decide

theorem parseString_escape (s rest : JsString) :
    parseString (escape s++quoteUnit::rest) = some (s,rest) := by
  fun_induction escape s with
  | case1 => exact parseString_quote rest
  | case2 u => rw [parseString_escapeUnit,parseString_quote]; rfl
  | case3 u l s h ih =>
    rw [Bool.and_eq_true] at h
    obtain ⟨hu,hu',hu''⟩ := surrogate_plain (.inl h.1)
    obtain ⟨hl,hl',hl''⟩ := surrogate_plain (.inr h.2)
    rw [List.cons_append,List.cons_append,parseString_cons hu hu' hu'',
      parseString_cons hl hl' hl'',ih]
    rfl
  | case4 u l s h ih =>
    rw [List.append_assoc,parseString_escapeUnit,ih]
    rfl

/-- A string literal ends at its quote, whatever follows. -/
theorem parseString_stable {s x r : JsString} (h : parseString s = some (x,r)) :
    r.length < s.length ∧ ∀ t, parseString (s++t) = some (x,r++t) := by
  fun_induction parseString s generalizing x with
  | case1 => simp at h
  | case2 s =>
    simp only [Option.some.injEq,Prod.mk.injEq] at h
    obtain ⟨rfl,rfl⟩ := h
    exact ⟨by simp,fun t => parseString_quote (s++t)⟩
  | case3 => simp at h
  | case4 hq a b c d s ih =>
    simp only [Option.bind_eq_some_iff,Option.map_eq_some_iff,Prod.exists,Prod.mk.injEq] at h
    obtain ⟨u,hu,y,r',hr,rfl,rfl⟩ := h
    obtain ⟨hl,ht⟩ := ih hr
    refine ⟨by simp; omega,fun t => ?_⟩
    simp only [List.cons_append]
    rw [parseString_hex,hu,Option.bind_some,ht]
    rfl
  | case5 => simp at h
  | case6 hq e he s ih =>
    simp only [Option.bind_eq_some_iff,Option.map_eq_some_iff,Prod.exists,Prod.mk.injEq] at h
    obtain ⟨u,hu,y,r',hr,rfl,rfl⟩ := h
    obtain ⟨hl,ht⟩ := ih hr
    refine ⟨by simp; omega,fun t => ?_⟩
    simp only [List.cons_append]
    rw [parseString_short he,hu,Option.bind_some,ht]
    rfl
  | case7 => simp at h
  | case8 u s hq hb hc ih =>
    simp only [Option.map_eq_some_iff,Prod.exists,Prod.mk.injEq] at h
    obtain ⟨y,r',hr,rfl,rfl⟩ := h
    obtain ⟨hl,ht⟩ := ih hr
    refine ⟨by simp; omega,fun t => ?_⟩
    rw [List.cons_append,parseString_cons hq hb hc,ht]
    rfl

theorem foldl_assign_of_nodup {ms ns : Members} (h : (keys (ms++ns)).Nodup) :
    ns.foldl (fun ms m => assign ms m.1 m.2) ms = ms++ns := by
  induction ns generalizing ms with
  | nil => simp
  | cons n ns ih =>
    have hn : n.1 ∉ keys ms := by
      intro hk
      simp only [keys,List.map_append,List.map_cons,List.nodup_append] at h
      exact h.2.2 n.1 hk n.1 (by simp) rfl
    rw [List.foldl_cons,assign_of_notMem hn,ih (by simpa using h)]
    simp

theorem ofPairs_of_nodup {ms : Members} (h : (keys ms).Nodup) : ofPairs ms = ms :=
  foldl_assign_of_nodup (by simpa using h)

theorem ofPairs_wf {ps : Members} (h : ∀ m ∈ ps, m.2.WF) : (Json.obj (ofPairs ps)).WF := by
  have step (ms : Members) (k : JsString) (v : Json) (hms : (Json.obj ms).WF) (hv : v.WF) :
      (Json.obj (assign ms k v)).WF := by
    rw [Json.wf_obj] at hms ⊢
    have hnd := nodup_keys_assign hms.1 k v
    refine ⟨hnd,fun m hm => ?_⟩
    have hl := (lookup_eq_some hnd).mpr hm
    by_cases hk : m.1 = k
    · rw [hk,lookup_assign_self,Option.some.injEq] at hl
      rwa [← hl]
    · rw [lookup_assign_ne v hk,lookup_eq_some hms.1] at hl
      exact hms.2 _ hl
  suffices hs : ∀ ms : Members, (Json.obj ms).WF →
      (Json.obj (ps.foldl (fun ms m => assign ms m.1 m.2) ms)).WF from hs [] (by simp [Json.wf_obj])
  induction ps with
  | nil => exact fun ms hms => hms
  | cons p ps ih =>
    intro ms hms
    exact ih (fun m hm => h m (by simp [hm])) _ (step ms _ _ hms (h p (by simp)))

/-- What a stretch of text can stand for. -/
inductive Part
  | value (v : Json)
  | items (vs : List Json)
  | members (ms : Members)

def Part.WF : Part → Prop
  | value v => v.WF
  | items vs => ∀ v ∈ vs, v.WF
  | members ms => ∀ m ∈ ms, m.2.WF

/-- The parser reads the part at the head of `s`. -/
def Part.Parsed (fuel : ℕ) (s rest : JsString) : Part → Prop
  | value v => parseValue (fuel+1) s = some (v,rest)
  | items vs => parseItems (fuel+2) s = some (vs,rest)
  | members ms => parseMembers (fuel+2) s = some (ms,rest)

def literals : List (JsString × Json) :=
  [(js "null",.null),(js "true",.bool true),(js "false",.bool false)]

/-- The grammar: `s` starts with the text of a part and `rest` follows it.
Items and members are read up to their closing bracket. -/
inductive Reads : JsString → Part → JsString → Prop
  | str {s t x rest} (h : skipWs s = quoteUnit::t) (hx : parseString t = some (x,rest)) :
      Reads s (.value (.str x)) rest
  | literal {s w v rest} (hw : (w,v) ∈ literals) (h : skipWs s = w++rest) :
      Reads s (.value v) rest
  | num {s u t x rest} (h : skipWs s = u::t) (hx : NumberText.parse (u::t) = some (x,rest)) :
      Reads s (.value (.num x)) rest
  | emptyArr {s t rest} (h : skipWs s = openBracket::t) (hc : skipWs t = closeBracket::rest) :
      Reads s (.value (.arr [])) rest
  | arr {s t vs rest} (h : skipWs s = openBracket::t) (hi : Reads t (.items vs) rest) :
      Reads s (.value (.arr vs)) rest
  | emptyObj {s t rest} (h : skipWs s = openBrace::t) (hc : skipWs t = closeBrace::rest) :
      Reads s (.value (.obj [])) rest
  | obj {s t ms rest} (h : skipWs s = openBrace::t) (hm : Reads t (.members ms) rest) :
      Reads s (.value (.obj (ofPairs ms))) rest
  | lastItem {s v t rest} (hv : Reads s (.value v) t) (h : skipWs t = closeBracket::rest) :
      Reads s (.items [v]) rest
  | item {s v t t' vs rest} (hv : Reads s (.value v) t) (h : skipWs t = comma::t')
      (hi : Reads t' (.items vs) rest) : Reads s (.items (v::vs)) rest
  | lastMember {s k t v t' rest} (hk : parseKey s = some (k,t)) (hv : Reads t (.value v) t')
      (h : skipWs t' = closeBrace::rest) : Reads s (.members [(k,v)]) rest
  | member {s k t v t' t'' ms rest} (hk : parseKey s = some (k,t))
      (hv : Reads t (.value v) t') (h : skipWs t' = comma::t'') (hm : Reads t'' (.members ms) rest) :
      Reads s (.members ((k,v)::ms)) rest

theorem skipWs_length {s t : JsString} {u : UInt16} (h : skipWs s = u::t) :
    t.length < s.length := by
  have := List.length_dropWhile_le isBlank s
  rw [← skipWs,h,List.length_cons] at this
  omega

theorem skipWs_append {s t : JsString} {u : UInt16} (h : skipWs s = u::t) (r : JsString) :
    skipWs (s++r) = u::(t++r) := by
  rw [skipWs] at h ⊢
  rw [List.dropWhile_append,if_neg (by simp [h]),h,List.cons_append]

theorem skipWs_cons {u : UInt16} (h : isBlank u = false) (s : JsString) : skipWs (u::s) = u::s := by
  simp [skipWs,h]

theorem parseKey_eq_some {s k rest : JsString} : parseKey s = some (k,rest) ↔
    ∃ t t', skipWs s = quoteUnit::t ∧ parseString t = some (k,t') ∧ skipWs t' = colon::rest := by
  unfold parseKey
  cases hs : skipWs s with
  | nil => simp
  | cons u t =>
    by_cases hu : u = quoteUnit
    · subst hu
      simp only [if_true,Option.bind_eq_some_iff,List.cons.injEq,true_and]
      constructor
      · rintro ⟨⟨x,t'⟩,hx,h⟩
        split_ifs at h with hc
        simp only [Option.some.injEq,Prod.mk.injEq] at h
        obtain ⟨rfl,rfl⟩ := h
        exact ⟨t,t',rfl,hx,List.eq_cons_of_mem_head? hc⟩
      · rintro ⟨_,t',rfl,hx,hc⟩
        exact ⟨(k,t'),hx,by simp [hc]⟩
    · simp [hu]

theorem parseKey_stable {s k rest : JsString} (h : parseKey s = some (k,rest)) :
    rest.length+2 ≤ s.length ∧ ∀ t, parseKey (s++t) = some (k,rest++t) := by
  obtain ⟨a,b,ha,hk,hb⟩ := parseKey_eq_some.mp h
  obtain ⟨hl,ht⟩ := parseString_stable hk
  have := skipWs_length ha
  have := skipWs_length hb
  exact ⟨by omega,fun t => parseKey_eq_some.mpr ⟨_,_,skipWs_append ha t,ht t,skipWs_append hb t⟩⟩

theorem literal_length {word : JsString} {v : Json} (h : (word,v) ∈ literals) :
    4 ≤ word.length := by
  revert h
  simp only [literals,List.mem_cons,Prod.mk.injEq,List.not_mem_nil,or_false]
  rintro (⟨rfl,-⟩ | ⟨rfl,-⟩ | ⟨rfl,-⟩) <;> decide

namespace Reads

theorem length_lt {s : JsString} {p : Part} {rest : JsString} (h : Reads s p rest) :
    rest.length < s.length := by
  induction h with
  | str h hx =>
    have := skipWs_length h
    have := (parseString_stable hx).1
    omega
  | @literal s w v rest hw h =>
    have hl := congrArg List.length h
    have := literal_length hw
    have := List.length_dropWhile_le isBlank s
    rw [List.length_append] at hl
    rw [← skipWs] at this
    omega
  | num h hx =>
    have := skipWs_length h
    have := (NumberText.parse_stable hx).2.1
    simp only [List.length_cons] at this
    omega
  | emptyArr h hc | emptyObj h hc =>
    have := skipWs_length h
    have := skipWs_length hc
    omega
  | arr h _ ih | obj h _ ih =>
    have := skipWs_length h
    omega
  | lastItem _ h ih =>
    have := skipWs_length h
    omega
  | item _ h _ ih ih' =>
    have := skipWs_length h
    omega
  | lastMember hk _ h ih =>
    have := skipWs_length h
    have := (parseKey_stable hk).1
    omega
  | member hk _ h _ ih ih' =>
    have := skipWs_length h
    have := (parseKey_stable hk).1
    omega

/-- Before further text a reading takes the same part.  Only a number could have
gone on, and only when nothing was left after it. -/
theorem append {s : JsString} {p : Part} {rest : JsString} (h : Reads s p rest)
    (hp : rest ≠ [] ∨ ∀ x, p ≠ .value (.num x)) (r : JsString) : Reads (s++r) p (rest++r) := by
  induction h with
  | str h hx => exact .str (skipWs_append h r) ((parseString_stable hx).2 r)
  | @literal s w v rest hw h =>
    obtain ⟨u,t,rfl⟩ : ∃ u t, w = u::t := List.exists_cons_of_length_pos
      (by have := literal_length hw; omega)
    exact .literal hw (by rw [skipWs_append h r]; simp)
  | num h hx =>
    have hr := hp.resolve_right (by simp)
    exact .num (skipWs_append h r) ((NumberText.parse_stable hx).2.2 hr r)
  | emptyArr h hc => exact .emptyArr (skipWs_append h r) (skipWs_append hc r)
  | arr h _ ih => exact .arr (skipWs_append h r) (ih (.inr (by simp)))
  | emptyObj h hc => exact .emptyObj (skipWs_append h r) (skipWs_append hc r)
  | obj h _ ih => exact .obj (skipWs_append h r) (ih (.inr (by simp)))
  | lastItem _ h ih =>
    exact .lastItem (ih (.inl (by rintro rfl; simp [skipWs] at h))) (skipWs_append h r)
  | item _ h _ ih ih' =>
    exact .item (ih (.inl (by rintro rfl; simp [skipWs] at h))) (skipWs_append h r)
      (ih' (.inr (by simp)))
  | lastMember hk _ h ih =>
    exact .lastMember ((parseKey_stable hk).2 r) (ih (.inl (by rintro rfl; simp [skipWs] at h)))
      (skipWs_append h r)
  | member hk _ h _ ih ih' =>
    exact .member ((parseKey_stable hk).2 r) (ih (.inl (by rintro rfl; simp [skipWs] at h)))
      (skipWs_append h r) (ih' (.inr (by simp)))

/-- What is read is well-formed, whatever keys the text repeats. -/
theorem wf {s : JsString} {p : Part} {rest : JsString} (h : Reads s p rest) : p.WF := by
  induction h with
  | str | num => trivial
  | literal hw =>
    simp only [literals,List.mem_cons,Prod.mk.injEq,List.not_mem_nil,or_false] at hw
    obtain ⟨-,rfl⟩ | ⟨-,rfl⟩ | ⟨-,rfl⟩ := hw <;> trivial
  | emptyArr => exact Json.wf_arr.mpr (by simp)
  | arr _ _ ih => exact Json.wf_arr.mpr ih
  | emptyObj => exact Json.wf_obj.mpr (by simp)
  | obj _ _ ih => exact ofPairs_wf ih
  | lastItem _ _ ih => exact List.forall_mem_singleton.mpr ih
  | item _ _ _ ih ih' => exact List.forall_mem_cons.mpr ⟨ih,ih'⟩
  | lastMember _ _ _ ih => exact List.forall_mem_singleton.mpr ih
  | member _ _ _ _ ih ih' => exact List.forall_mem_cons.mpr ⟨ih,ih'⟩

theorem literal_head {word : JsString} {v : Json} (h : (word,v) ∈ literals) :
    ∃ u t, word = u::t ∧ u ≠ closeBracket := by
  simp only [literals,List.mem_cons,Prod.mk.injEq,List.not_mem_nil,or_false] at h
  obtain ⟨rfl,-⟩ | ⟨rfl,-⟩ | ⟨rfl,-⟩ := h <;> exact ⟨_,_,rfl,by decide⟩

/-- The first unit of an item's text is not the closing bracket. -/
theorem head {s : JsString} {p : Part} {rest : JsString} (h : Reads s p rest) :
    (∃ ms, p = .members ms) ∨ (skipWs s).head? ≠ some closeBracket := by
  induction h with
  | literal hw h =>
    obtain ⟨u,t,rfl,hu⟩ := literal_head hw
    simp [h,hu]
  | num h hx =>
    right
    rw [h,List.head?_cons]
    rintro ⟨rfl⟩
    exact absurd (NumberText.parse_stable hx).1 (by decide)
  | str h | emptyArr h | arr h | emptyObj h | obj h =>
    right
    rw [h,List.head?_cons]
    decide
  | lastItem _ _ ih | item _ _ _ ih =>
    exact .inr (ih.resolve_left (by simp))
  | lastMember | member => exact .inl ⟨_,rfl⟩

theorem members_head {s : JsString} {ms : Members} {rest : JsString}
    (h : Reads s (.members ms) rest) : (skipWs s).head? ≠ some closeBrace := by
  have key (k t : JsString) (hk : parseKey s = some (k,t)) :
      (skipWs s).head? ≠ some closeBrace := by
    obtain ⟨_,_,hs,-⟩ := parseKey_eq_some.mp hk
    rw [hs,List.head?_cons]
    decide
  cases h with
  | lastMember hk | member hk => exact key _ _ hk

theorem number_head {u : UInt16} {t rest : JsString} {x : Number}
    (h : NumberText.parse (u::t) = some (x,rest)) :
    u ≠ quoteUnit ∧ u ≠ openBracket ∧ u ≠ openBrace ∧ u ≠ 110 ∧ u ≠ 116 ∧ u ≠ 102 := by
  have hu := (NumberText.parse_stable h).1
  refine ⟨?_,?_,?_,?_,?_,?_⟩ <;> rintro rfl <;> exact absurd hu (by decide)

/-- The parser finds every reading, given two steps of fuel for each unit. -/
theorem complete {s : JsString} {p : Part} {rest : JsString} (h : Reads s p rest) (fuel : ℕ)
    (hf : 2*s.length ≤ fuel) : p.Parsed fuel s rest := by
  induction h generalizing fuel with
  | str h hx => simp [Part.Parsed,parseValue,h,hx]
  | literal hw h =>
    simp only [literals,List.mem_cons,Prod.mk.injEq,List.not_mem_nil,or_false] at hw
    obtain ⟨rfl,rfl⟩ | ⟨rfl,rfl⟩ | ⟨rfl,rfl⟩ := hw
    all_goals simp [Part.Parsed,parseValue,h,js,parseLiteral,quoteUnit,openBracket,openBrace]
  | num h hx =>
    obtain ⟨h1,h2,h3,h4,h5,h6⟩ := number_head hx
    simp [Part.Parsed,parseValue,h,hx,h1,h2,h3,h4,h5,h6]
  | emptyArr h hc => simp [Part.Parsed,parseValue,h,hc,quoteUnit,openBracket]
  | arr h hi ih =>
    have hl := skipWs_length h
    obtain ⟨f,rfl⟩ : ∃ f, fuel = f+2 := ⟨fuel-2,by omega⟩
    have hne := hi.head.resolve_left (by simp)
    have hp : parseItems (f+2) _ = _ := ih f (by omega)
    simp [Part.Parsed,parseValue,h,hne,hp,quoteUnit,openBracket]
  | emptyObj h hc => simp [Part.Parsed,parseValue,h,hc,quoteUnit,openBracket,openBrace]
  | obj h hm ih =>
    have hl := skipWs_length h
    obtain ⟨f,rfl⟩ : ∃ f, fuel = f+2 := ⟨fuel-2,by omega⟩
    have hp : parseMembers (f+2) _ = _ := ih f (by omega)
    simp [Part.Parsed,parseValue,h,hm.members_head,hp,quoteUnit,openBracket,openBrace]
  | lastItem hv h ih =>
    have hp : parseValue (fuel+1) _ = _ := ih fuel hf
    rw [Part.Parsed,parseItems,hp]
    simp [h,comma,closeBracket]
  | item hv h _ ih ih' =>
    have hl := hv.length_lt
    have hl' := skipWs_length h
    obtain ⟨f,rfl⟩ : ∃ f, fuel = f+1 := ⟨fuel-1,by omega⟩
    have hp : parseValue (f+2) _ = _ := ih (f+1) hf
    have hp' : parseItems (f+2) _ = _ := ih' f (by omega)
    rw [Part.Parsed,parseItems,hp]
    simp [h,hp']
  | lastMember hk hv h ih =>
    have hl := (parseKey_stable hk).1
    have hp : parseValue (fuel+1) _ = _ := ih fuel (by omega)
    rw [Part.Parsed,parseMembers,hk]
    simp [hp,h,comma,closeBrace]
  | member hk hv h _ ih ih' =>
    have hl := (parseKey_stable hk).1
    have hl' := hv.length_lt
    have hl'' := skipWs_length h
    obtain ⟨f,rfl⟩ : ∃ f, fuel = f+1 := ⟨fuel-1,by omega⟩
    have hp : parseValue (f+2) _ = _ := ih (f+1) (by omega)
    have hp' : parseMembers (f+2) _ = _ := ih' f (by omega)
    rw [Part.Parsed,parseMembers,hk]
    simp [hp,h,hp']

theorem parseLiteral_eq_some {word s rest : JsString} {v w : Json} :
    parseLiteral word v s = some (w,rest) ↔ w = v ∧ s = word++rest := by
  rw [parseLiteral]
  constructor
  · intro h
    split_ifs at h with hp
    obtain ⟨t,rfl⟩ := hp
    simp_all
  · rintro ⟨rfl,rfl⟩
    simp

/-- What the parser returns is a reading. -/
theorem sound (fuel : ℕ) (s rest : JsString) :
    (∀ v, parseValue fuel s = some (v,rest) → Reads s (.value v) rest) ∧
    (∀ vs, parseItems fuel s = some (vs,rest) → Reads s (.items vs) rest) ∧
    (∀ ms, parseMembers fuel s = some (ms,rest) → Reads s (.members ms) rest) := by
  induction fuel generalizing s rest with
  | zero => simp [parseValue,parseItems,parseMembers]
  | succ fuel ih =>
    refine ⟨fun v h => ?_,fun vs h => ?_,fun ms h => ?_⟩
    · rw [parseValue] at h
      cases hs : skipWs s with
      | nil => simp [hs] at h
      | cons u t =>
        simp only [hs] at h
        split_ifs at h with hq hb hc hb' hc' hn ht hf
        · simp only [Option.map_eq_some_iff,Prod.exists,Prod.mk.injEq] at h
          obtain ⟨x,_,hx,rfl,rfl⟩ := h
          exact .str (hq ▸ hs) hx
        · simp only [Option.some.injEq,Prod.mk.injEq] at h
          obtain ⟨rfl,rfl⟩ := h
          exact .emptyArr (hb ▸ hs) (List.eq_cons_of_mem_head? hc)
        · simp only [Option.map_eq_some_iff,Prod.exists,Prod.mk.injEq] at h
          obtain ⟨x,_,hx,rfl,rfl⟩ := h
          exact .arr (hb ▸ hs) ((ih _ _).2.1 _ hx)
        · simp only [Option.some.injEq,Prod.mk.injEq] at h
          obtain ⟨rfl,rfl⟩ := h
          exact .emptyObj (hb' ▸ hs) (List.eq_cons_of_mem_head? hc')
        · simp only [Option.map_eq_some_iff,Prod.exists,Prod.mk.injEq] at h
          obtain ⟨x,_,hx,rfl,rfl⟩ := h
          exact .obj (hb' ▸ hs) ((ih _ _).2.2 _ hx)
        · obtain ⟨rfl,he⟩ := parseLiteral_eq_some.mp h
          exact .literal (by simp [literals]) (hs.trans he)
        · obtain ⟨rfl,he⟩ := parseLiteral_eq_some.mp h
          exact .literal (w := js "true") (by simp [literals]) (hs.trans he)
        · obtain ⟨rfl,he⟩ := parseLiteral_eq_some.mp h
          exact .literal (w := js "false") (by simp [literals]) (hs.trans he)
        · simp only [Option.map_eq_some_iff,Prod.exists,Prod.mk.injEq] at h
          obtain ⟨x,_,hx,rfl,rfl⟩ := h
          exact .num hs hx
    · rw [parseItems] at h
      cases hv : parseValue fuel s with
      | none => simp [hv] at h
      | some r =>
        obtain ⟨v,t⟩ := r
        cases ht : skipWs t with
        | nil => simp [hv,ht] at h
        | cons u t' =>
          simp only [hv,ht] at h
          split_ifs at h with hc hb
          · simp only [Option.map_eq_some_iff,Prod.exists,Prod.mk.injEq] at h
            obtain ⟨x,_,hx,rfl,rfl⟩ := h
            exact .item ((ih _ _).1 _ hv) (hc ▸ ht) ((ih _ _).2.1 _ hx)
          · simp only [Option.some.injEq,Prod.mk.injEq] at h
            obtain ⟨rfl,rfl⟩ := h
            exact .lastItem ((ih _ _).1 _ hv) (hb ▸ ht)
    · rw [parseMembers] at h
      cases hk : parseKey s with
      | none => simp [hk] at h
      | some r =>
        obtain ⟨k,t⟩ := r
        cases hv : parseValue fuel t with
        | none => simp [hk,hv] at h
        | some r =>
          obtain ⟨v,t'⟩ := r
          cases ht : skipWs t' with
          | nil => simp [hk,hv,ht] at h
          | cons u t'' =>
            simp only [hk,hv,ht] at h
            split_ifs at h with hc hb
            · simp only [Option.map_eq_some_iff,Prod.exists,Prod.mk.injEq] at h
              obtain ⟨x,_,hx,rfl,rfl⟩ := h
              exact .member hk ((ih _ _).1 _ hv) (hc ▸ ht) ((ih _ _).2.2 _ hx)
            · simp only [Option.some.injEq,Prod.mk.injEq] at h
              obtain ⟨rfl,rfl⟩ := h
              exact .lastMember hk ((ih _ _).1 _ hv) (hb ▸ ht)

/-- A text has at most one reading as a value. -/
theorem unique {s r r' : JsString} {v v' : Json} (h : Reads s (.value v) r)
    (h' : Reads s (.value v') r') : v = v' ∧ r = r' := by
  have hp : parseValue (2*s.length+1) s = some (v,r) := h.complete _ le_rfl
  have hp' : parseValue (2*s.length+1) s = some (v',r') := h'.complete _ le_rfl
  simpa [hp] using hp'

end Reads

/-- `JSON.parse` decides the grammar. -/
theorem parse_eq_some {text : JsString} {v : Json} :
    parse text = some v ↔ ∃ rest, Reads text (.value v) rest ∧ skipWs rest = [] := by
  rw [parse]
  constructor
  · intro h
    cases hp : parseValue (2*text.length+1) text with
    | none => simp [hp] at h
    | some r =>
      obtain ⟨w,rest⟩ := r
      simp only [hp] at h
      split_ifs at h with hr
      obtain rfl := Option.some.inj h
      exact ⟨rest,(Reads.sound _ _ _).1 _ hp,hr⟩
  · rintro ⟨rest,h,hr⟩
    have hp : parseValue (2*text.length+1) text = some (v,rest) := h.complete _ le_rfl
    simp [hp,hr]

theorem parse_wf {text : JsString} {v : Json} (h : parse text = some v) : v.WF := by
  obtain ⟨rest,hr,-⟩ := parse_eq_some.mp h
  exact hr.wf

theorem skipWs_blank {s : JsString} (h : skipWs s = []) (t : JsString) :
    skipWs (s++t) = skipWs t := by
  induction s with
  | nil => rfl
  | cons u s ih =>
    unfold skipWs at *
    rw [List.dropWhile_cons] at h
    split_ifs at h with hu
    rw [List.cons_append,List.dropWhile_cons,if_pos hu,ih h]

/-- After a whole object no other value can begin. -/
theorem parse_append_brace {text : JsString} {ms : Members} (h : parse text = some (.obj ms))
    (rest : JsString) : parse (text++openBrace::rest) = none := by
  obtain ⟨tail,hr,hblank⟩ := parse_eq_some.mp h
  refine Option.eq_none_iff_forall_not_mem.mpr fun v hv => ?_
  obtain ⟨tail',hr',hblank'⟩ := parse_eq_some.mp hv
  obtain ⟨-,rfl⟩ := (hr.append (.inr (by simp)) (openBrace::rest)).unique hr'
  rw [skipWs_blank hblank,skipWs_cons (by decide)] at hblank'
  simp at hblank'

theorem ends_cons {u : UInt16} (hd : NumberText.isDigit u = false) (h1 : u ≠ NumberText.dotUnit)
    (h2 : u ≠ NumberText.expUnit) (h3 : u ≠ NumberText.expUpperUnit) (rest : JsString) :
    NumberText.Ends (u::rest) := by
  intro v hv
  obtain rfl : u = v := by simpa using hv
  exact ⟨hd,h1,h2,h3⟩

theorem ends_comma (rest : JsString) : NumberText.Ends (comma::rest) :=
  ends_cons (by decide) (by decide) (by decide) (by decide) rest

theorem ends_closeBracket (rest : JsString) : NumberText.Ends (closeBracket::rest) :=
  ends_cons (by decide) (by decide) (by decide) (by decide) rest

theorem ends_closeBrace (rest : JsString) : NumberText.Ends (closeBrace::rest) :=
  ends_cons (by decide) (by decide) (by decide) (by decide) rest

theorem toText_head {x : Number} (h : x.isFinite) :
    ∃ u t, NumberText.toText x = u::t ∧ isBlank u = false := by
  have blank (u : UInt16) (hu : NumberText.isDigit u = true) : isBlank u = false := by
    by_contra hb
    simp only [Bool.not_eq_false,isBlank,Bool.or_eq_true,beq_iff_eq] at hb
    obtain ((rfl | rfl) | rfl) | rfl := hb <;> exact absurd hu (by decide)
  cases x with
  | fin neg i =>
    obtain ⟨u,ds,hu,hd⟩ := NumberText.magText_head i.val
    rw [NumberText.toText]
    split_ifs
    · exact ⟨_,_,rfl,by decide⟩
    · exact ⟨u,ds,hu,blank u hd⟩
  | _ => simp [Number.isFinite] at h

theorem parseKey_quote (k rest : JsString) : parseKey (quote k++colon::rest) = some (k,rest) := by
  rw [parseKey_eq_some]
  refine ⟨escape k++quoteUnit::(colon::rest),colon::rest,?_,parseString_escape _ _,?_⟩
  · rw [quote,List.cons_append,List.cons_append,skipWs_cons (by decide)]
    simp
  · exact skipWs_cons (by decide) rest

theorem reads_literal {w : JsString} {v : Json} (h : (w,v) ∈ literals) (rest : JsString) :
    Reads (w++rest) (.value v) rest := by
  refine .literal h ?_
  simp only [literals,List.mem_cons,Prod.mk.injEq,List.not_mem_nil,or_false] at h
  obtain ⟨rfl,-⟩ | ⟨rfl,-⟩ | ⟨rfl,-⟩ := h <;> exact skipWs_cons (by decide) _

/-- Reading a value's text gives the value, whatever may follow it. -/
theorem reads_stringify {v : Json} (h : v.WF) {rest : JsString} (hr : NumberText.Ends rest) :
    Reads (stringify v++rest) (.value v.reparse) rest := by
  induction v generalizing rest with
  | null => exact reads_literal (w := js "null") (by simp [literals]) rest
  | bool b =>
    cases b
    · exact reads_literal (w := js "false") (by simp [literals]) rest
    · exact reads_literal (w := js "true") (by simp [literals]) rest
  | num x =>
    by_cases hx : x.isFinite
    · obtain ⟨u,t,hu,hb⟩ := toText_head hx
      have hp := NumberText.parse_toText hx hr
      rw [hu,List.cons_append] at hp
      rw [stringify,if_pos hx,hu,Json.reparse,if_pos hx,List.cons_append]
      exact .num (skipWs_cons hb _) hp
    · rw [stringify,if_neg hx,Json.reparse,if_neg hx]
      exact reads_literal (by simp [literals]) rest
  | str s =>
    have hs := parseString_escape s rest
    rw [stringify,quote,Json.reparse_str]
    refine .str (t := escape s++quoteUnit::rest) ?_ hs
    rw [List.cons_append,List.cons_append,skipWs_cons (by decide)]
    simp
  | arr vs ih =>
    rw [Json.wf_arr] at h
    have items (vs : List Json) (hne : vs ≠ []) (hvs : ∀ v ∈ vs, ∀ rest, NumberText.Ends rest →
        Reads (stringify v++rest) (.value v.reparse) rest) :
        Reads (stringifyItems vs++closeBracket::rest) (.items (vs.map Json.reparse)) rest := by
      induction vs with
      | nil => exact absurd rfl hne
      | cons v vs ih =>
        cases vs with
        | nil =>
          exact .lastItem (hvs v (by simp) _ (ends_closeBracket rest)) (skipWs_cons (by decide) _)
        | cons w vs =>
          rw [stringifyItems,List.append_assoc,List.cons_append]
          exact .item (hvs v (by simp) _ (ends_comma _)) (skipWs_cons (by decide) _)
            (ih (by simp) fun x hx => hvs x (by simp [hx]))
    rw [stringify,Json.reparse,Json.reparseItems_eq]
    by_cases hne : vs = []
    · subst hne
      exact .emptyArr (skipWs_cons (by decide) _) (skipWs_cons (by decide) _)
    · have hi := items vs hne fun v hv r hr => ih v hv (h v hv) hr
      refine .arr (t := stringifyItems vs++closeBracket::rest) ?_ hi
      rw [List.cons_append,List.cons_append,skipWs_cons (by decide)]
      simp
  | obj ms ih =>
    rw [Json.wf_obj] at h
    have members (ms : Members) (hne : ms ≠ []) (hms : ∀ m ∈ ms, ∀ rest, NumberText.Ends rest →
        Reads (stringify m.2++rest) (.value m.2.reparse) rest) :
        Reads (stringifyMembers ms++closeBrace::rest)
          (.members (ms.map fun m => (m.1,m.2.reparse))) rest := by
      induction ms with
      | nil => exact absurd rfl hne
      | cons m ms ih =>
        obtain ⟨k,v⟩ := m
        cases ms with
        | nil =>
          rw [stringifyMembers,List.append_assoc,List.cons_append]
          exact .lastMember (parseKey_quote k _) (hms (k,v) (by simp) _ (ends_closeBrace rest))
            (skipWs_cons (by decide) _)
        | cons m ms =>
          rw [stringifyMembers,List.append_assoc,List.cons_append,List.append_assoc,
            List.cons_append]
          exact .member (parseKey_quote k _) (hms (k,v) (by simp) _ (ends_comma _))
            (skipWs_cons (by decide) _) (ih (by simp) fun x hx => hms x (by simp [hx]))
    rw [stringify,Json.reparse,Json.reparseMembers_eq]
    by_cases hne : ms = []
    · subst hne
      exact .emptyObj (skipWs_cons (by decide) _) (skipWs_cons (by decide) _)
    · have hm := members ms hne fun m hm r hr => ih m hm (h.2 m hm) hr
      have hnd : (keys (ms.map fun m => (m.1,m.2.reparse))).Nodup := by
        rw [Json.keys_map_snd]
        exact h.1
      rw [← ofPairs_of_nodup hnd]
      refine .obj (t := stringifyMembers ms++closeBrace::rest) ?_ hm
      rw [List.cons_append,List.cons_append,skipWs_cons (by decide)]
      simp

/-- `JSON.parse(JSON.stringify(v))` -/
theorem parse_stringify {v : Json} (h : v.WF) : parse (stringify v) = some v.reparse := by
  have he : NumberText.Ends [] := by simp [NumberText.Ends]
  have hr := reads_stringify h he
  rw [List.append_nil] at hr
  exact parse_eq_some.mpr ⟨[],hr,rfl⟩

theorem ascii_escapeUnit {u : UInt16} (h : u.toNat < 32 ∨ Utf8.isHigh u ∨ Utf8.isLow u ∨
    (shortEscape u).isSome ∨ u.toNat < 128) : ∀ v ∈ escapeUnit u, v.toNat < 128 := by
  have hhex {n : ℕ} (hn : n < 16) : (hexDigit n).toNat < 128 := by
    rw [hexDigit,Utf8.toNat_ofNat_unit] <;> split <;> omega
  unfold escapeUnit
  cases he : shortEscape u with
  | some e =>
    have hlt : e.toNat < 128 := by
      unfold shortEscape at he
      split_ifs at he <;> simp only [Option.some.injEq] at he <;> subst he <;> decide
    simpa [hlt] using (by decide : backslash.toNat < 128)
  | none =>
    dsimp only
    split_ifs with hc
    · have hu := u.toNat_lt
      simp only [unicodeEscape,List.forall_mem_cons]
      exact ⟨by decide,by decide,hhex (by omega),hhex (by omega),hhex (by omega),hhex (by omega),
        by simp⟩
    · simp only [Bool.or_eq_true,decide_eq_true_eq,not_or] at hc
      simp only [he,Option.isSome_none,Bool.false_eq_true,false_or] at h
      simp only [List.forall_mem_singleton]
      exact (h.resolve_left hc.1.1).resolve_left hc.1.2 |>.resolve_left hc.2

/-- Escaping leaves no lone surrogate. -/
theorem isWellFormed_escape (s : JsString) : Utf8.isWellFormed (escape s) := by
  have unit (u : UInt16) : Utf8.isWellFormed (escapeUnit u) := by
    by_cases h : u.toNat < 32 ∨ Utf8.isHigh u ∨ Utf8.isLow u ∨ (shortEscape u).isSome
    · exact Utf8.isWellFormed_ascii (ascii_escapeUnit (by tauto))
    · push Not at h
      obtain ⟨h1,h2,h3,h4⟩ := h
      have hn : shortEscape u = none := by simpa using h4
      simp only [escapeUnit,hn]
      rw [if_neg (by simp [h1,h2,h3])]
      simp [Utf8.isWellFormed,h2,h3]
  fun_induction escape s with
  | case1 => rfl
  | case2 u => exact unit u
  | case3 u l s h ih =>
    rw [Bool.and_eq_true] at h
    simp [Utf8.isWellFormed,h.1,h.2,ih]
  | case4 u l s h ih => exact Utf8.isWellFormed_append (unit u) ih

/-- What holds of the pieces of a text and of what is put together from such pieces, holds
of the text. -/
theorem stringify_ind {P : JsString → Prop} (nil : P []) (append : ∀ s t, P s → P t → P (s++t))
    (mark : ∀ u ∈ [openBracket,closeBracket,openBrace,closeBrace,comma,colon], P [u])
    (null : P (js "null")) (bool : ∀ b, P (stringify (.bool b)))
    (number : ∀ x, P (NumberText.toText x)) (quoted : ∀ s, P (quote s)) (v : Json) :
    P (stringify v) := by
  have cons {u : UInt16} {s : JsString}
      (hu : u ∈ [openBracket,closeBracket,openBrace,closeBrace,comma,colon]) (hs : P s) :
      P (u::s) :=
    append [u] s (mark u hu) hs
  induction v with
  | null => exact null
  | bool b => exact bool b
  | num x =>
    rw [stringify]
    split_ifs
    · exact number x
    · exact null
  | str s => exact quoted s
  | arr vs ih =>
    have items : P (stringifyItems vs) := by
      induction vs with
      | nil => exact nil
      | cons v vs ihvs =>
        have htail := ihvs fun x hx => ih x (by simp [hx])
        cases vs with
        | nil => exact ih v (by simp)
        | cons w vs => exact append _ _ (ih v (by simp)) (cons (by simp) htail)
    exact append _ _ (cons (by simp) items) (mark _ (by simp))
  | obj ms ih =>
    have members : P (stringifyMembers ms) := by
      induction ms with
      | nil => exact nil
      | cons m ms ihms =>
        obtain ⟨k,v⟩ := m
        have htail := ihms fun x hx => ih x (by simp [hx])
        have hv := ih (k,v) (by simp)
        cases ms with
        | nil => exact append _ _ (quoted k) (cons (by simp) hv)
        | cons m ms =>
          rw [stringifyMembers]
          exact append _ _ (append _ _ (quoted k) (cons (by simp) hv)) (cons (by simp) htail)
    exact append _ _ (cons (by simp) members) (mark _ (by simp))

theorem isWellFormed_stringify (v : Json) : Utf8.isWellFormed (stringify v) := by
  refine stringify_ind (P := fun s => Utf8.isWellFormed s) rfl
    (fun s t => Utf8.isWellFormed_append) (forall_of_all (by decide)) (by decide)
    (fun b => by cases b <;> decide) (fun x => Utf8.isWellFormed_ascii fun u hu =>
      (NumberText.toText_ascii x u hu).2) (fun s => ?_) v
  exact Utf8.isWellFormed_append (Utf8.isWellFormed_append (s := [quoteUnit]) (by decide)
    (isWellFormed_escape s)) (by decide)

/-- Escaping leaves no NUL. -/
theorem escape_ne_zero (s : JsString) : ∀ u ∈ escape s, u ≠ 0 := by
  have hhex {n : ℕ} (hn : n < 16) : hexDigit n ≠ 0 := by
    intro h
    have := congrArg UInt16.toNat h
    rw [hexDigit,Utf8.toNat_ofNat_unit] at this <;> split at * <;> simp_all <;> omega
  have unit (u : UInt16) : ∀ v ∈ escapeUnit u, v ≠ 0 := by
    unfold escapeUnit
    cases he : shortEscape u with
    | some e =>
      have hne : e ≠ 0 := by
        unfold shortEscape at he
        split_ifs at he <;> simp only [Option.some.injEq] at he <;> subst he <;> decide
      simpa [hne] using (by decide : backslash ≠ 0)
    | none =>
      dsimp only
      split_ifs with hc
      · have hu := u.toNat_lt
        simp only [unicodeEscape,List.forall_mem_cons]
        exact ⟨by decide,by decide,hhex (by omega),hhex (by omega),hhex (by omega),
          hhex (by omega),by simp⟩
      · rw [List.forall_mem_singleton]
        rintro rfl
        exact hc (by decide)
  fun_induction escape s with
  | case1 => simp
  | case2 u => exact unit u
  | case3 u l s h ih =>
    rw [Bool.and_eq_true] at h
    refine List.forall_mem_cons.mpr ⟨?_,List.forall_mem_cons.mpr ⟨?_,ih⟩⟩
    · rintro rfl
      exact absurd h.1 (by decide)
    · rintro rfl
      exact absurd h.2 (by decide)
  | case4 u l s h ih => exact List.forall_mem_append.mpr ⟨unit u,ih⟩

/-- No text of a JSON value has a NUL. -/
theorem stringify_ne_zero (v : Json) : ∀ u ∈ stringify v, u ≠ 0 := by
  refine stringify_ind (P := fun s => ∀ u ∈ s, u ≠ 0) (by simp)
    (fun s t hs ht => List.forall_mem_append.mpr ⟨hs,ht⟩)
    (fun u hu => List.forall_mem_singleton.mpr
      (forall_of_all (p := fun v => v ≠ 0) (by decide) u hu))
    (forall_of_all (by decide)) (fun b => by cases b <;> exact forall_of_all (by decide))
    (fun x u hu => (NumberText.toText_ascii x u hu).1) (fun s => ?_) v
  exact List.forall_mem_append.mpr ⟨List.forall_mem_cons.mpr ⟨by decide,escape_ne_zero s⟩,
    List.forall_mem_singleton.mpr (by decide)⟩

/-- A text never starts with a byte order mark. -/
theorem stringify_head (v : Json) : (stringify v).head? ≠ some 0xFEFF := by
  have hnull : (js "null").head? ≠ some 0xFEFF := by decide
  cases v with
  | null => exact hnull
  | bool b => cases b <;> decide
  | num x =>
    rw [stringify]
    split_ifs
    · intro h
      exact absurd (NumberText.toText_ascii x _ (List.mem_of_mem_head? h)).2 (by decide)
    · exact hnull
  | _ => simp [stringify,quote,quoteUnit,openBracket,openBrace]

theorem textDecode_stringify (v : Json) :
    Utf8.textDecode (Utf8.textEncode (stringify v)) = stringify v :=
  Utf8.textDecode_textEncode (isWellFormed_stringify v) (stringify_head v)

end JsonText
end Semp
