import Semp.Canonical
import Semp.Crypto

/-! Documents that carry their own Ed25519 signature.  The signature value is
blanked, the canonical bytes are signed behind a prefix, and the value is written
back; the verifier blanks it again. -/
namespace Semp
namespace SignedDoc

def dot : UInt16 := 46

/-- `path.split(".")` -/
def splitDots : JsString → List JsString
  | [] => [[]]
  | u::s =>
    if u = dot then []::splitDots s
    else
      match splitDots s with
      | [] => [[u]]
      | part::parts => (u::part)::parts

def deepCloneJSON (v : Members) : Js Members := do
  match ← parseJson (JsonText.stringify (.obj v)) with
  | .obj ms => .ok ms
  | _ => raiseType

section Path
variable (path : JsString)

/-- The object below `key`; `site` is the function that throws. -/
def descend (site key : JsString) (m : Members) : Js Members :=
  match lookup m key with
  | some (.obj next) => .ok next
  | _ => raise (site++js ": path "++path++js ": segment "++key++js " is not an object")

def setParts (value : JsString) : List JsString → Members → Js Members
  | [], _ => raise (js "signSignedDoc: path "++path++js " is empty")
  | [leaf], m => .ok (assign m leaf (.str value))
  | key::part::parts, m => do
    let next ← descend path (js "signSignedDoc") key m
    let next ← setParts value (part::parts) next
    .ok (assign m key (.obj next))

/-- The string at the end of the path, and the object with it blanked. -/
def pluckParts : List JsString → Members → Js (JsString × Members)
  | [], _ => raise (js "verifySignedDoc: path "++path++js " is empty")
  | [leaf], m =>
    if leaf = [] then raise (js "verifySignedDoc: path "++path++js " is empty")
    else
      match lookup m leaf with
      | some (.str value) => .ok (value,assign m leaf (.str []))
      | _ => raise (js "verifySignedDoc: path "++path++js ": leaf is not a string")
  | key::part::parts, m =>
    if key = [] then raise (js "verifySignedDoc: empty path segment in "++path)
    else do
      let next ← descend path (js "verifySignedDoc") key m
      let plucked ← pluckParts (part::parts) next
      .ok (plucked.1,assign m key (.obj plucked.2))

end Path

section Equations
-- Their equations are made here, and not by each of the proofs that use them.
attribute [local simp] setParts pluckParts
end Equations

def setPath (m : Members) (path value : JsString) : Js Members :=
  setParts path value (splitDots path) m

def pluckAndBlankPath (m : Members) (path : JsString) : Js (JsString × Members) :=
  pluckParts path (splitDots path) m

structure SignSpec where
  preSignJSON : Members
  seed : Bytes
  signaturePath : JsString
  domain : JsString

structure SignResult where
  signedJSON : Members
  canonicalBlanked : Bytes
  signatureB64 : JsString

structure VerifySpec where
  signedJSON : Members
  publicKey : Bytes
  signaturePath : JsString
  domain : JsString

structure VerifyResult where
  ok : Bool
  canonicalBlanked : Bytes

section Code
variable (C : Crypto)

def signSignedDoc (spec : SignSpec) : Js SignResult := do
  let clone ← deepCloneJSON spec.preSignJSON
  let clone ← setPath clone spec.signaturePath []
  let blanked ← Canonical.marshal (.obj clone)
  let sig ← sign C spec.seed (utf8 spec.domain++blanked)
  let sigB64 := Base64.encode sig
  let clone ← setPath clone spec.signaturePath sigB64
  .ok ⟨clone,blanked,sigB64⟩

def verifySignedDoc (spec : VerifySpec) : Js VerifyResult := do
  let clone ← deepCloneJSON spec.signedJSON
  let plucked ← pluckAndBlankPath clone spec.signaturePath
  let sig := Base64.decode plucked.1
  let blanked ← Canonical.marshal (.obj plucked.2)
  .ok ⟨verify C spec.publicKey sig (utf8 spec.domain++blanked),blanked⟩

end Code

theorem deepCloneJSON_eq {v : Members} (h : (Json.obj v).WF) :
    deepCloneJSON v = .ok (v.map fun m => (m.1,m.2.reparse)) := by
  rw [deepCloneJSON,parseJson_stringify h,Json.reparse,Json.reparseMembers_eq]
  rfl

section Parts
variable {path : JsString}

theorem descend_eq_ok {site key : JsString} {m next : Members} :
    descend path site key m = .ok next ↔ lookup m key = some (.obj next) := by
  unfold descend
  split <;> simp_all

theorem setParts_cons {value key : JsString} {parts : List JsString} {m m' : Members}
    (hp : parts ≠ []) : setParts path value (key::parts) m = .ok m' ↔
      ∃ next next', lookup m key = some (.obj next) ∧ setParts path value parts next = .ok next' ∧
        m' = assign m key (.obj next') := by
  obtain ⟨part,parts,rfl⟩ := List.exists_cons_of_ne_nil hp
  rw [setParts,bind_eq_ok]
  constructor
  · rintro ⟨next,hn,h⟩
    obtain ⟨next',hs,h⟩ := bind_eq_ok.mp h
    exact ⟨next,next',descend_eq_ok.mp hn,hs,(Except.ok.inj h).symm⟩
  · rintro ⟨next,next',hn,hs,rfl⟩
    exact ⟨next,descend_eq_ok.mpr hn,by rw [hs]; rfl⟩

/-- Members beside the path keep their values. -/
theorem lookup_setParts {value key k : JsString} {parts : List JsString} {m m' : Members}
    (h : setParts path value (key::parts) m = .ok m') (hk : k ≠ key) :
    lookup m' k = lookup m k := by
  by_cases hp : parts = []
  · subst hp
    obtain rfl := Except.ok.inj h
    exact lookup_assign_ne _ hk
  · obtain ⟨next,next',-,-,rfl⟩ := (setParts_cons hp).mp h
    exact lookup_assign_ne _ hk

theorem setParts_wf {value : JsString} {parts : List JsString} {m m' : Members}
    (h : setParts path value parts m = .ok m') (hm : (Json.obj m).WF) : (Json.obj m').WF := by
  induction parts generalizing m m' with
  | nil => simp [setParts] at h
  | cons key parts ih =>
    by_cases hp : parts = []
    · subst hp
      obtain rfl := Except.ok.inj h
      exact Json.wf_assign hm (show (Json.str value).WF from trivial) key
    · obtain ⟨next,next',hn,hs,rfl⟩ := (setParts_cons hp).mp h
      exact Json.wf_assign hm (ih hs (Json.wf_of_lookup hm hn)) key

/-- Writing a value behind another one at the same place. -/
theorem setParts_again {value : JsString} (value' : JsString) {parts : List JsString}
    {m m' : Members} (h : setParts path value parts m = .ok m') :
    ∃ m'', setParts path value' parts m = .ok m'' ∧ setParts path value' parts m' = .ok m'' := by
  induction parts generalizing m m' with
  | nil => simp [setParts] at h
  | cons key parts ih =>
    by_cases hp : parts = []
    · subst hp
      obtain rfl := Except.ok.inj h
      exact ⟨_,rfl,by rw [setParts,assign_assign]⟩
    · obtain ⟨next,next',hn,hs,rfl⟩ := (setParts_cons hp).mp h
      obtain ⟨next'',hs₁,hs₂⟩ := ih hs
      exact ⟨_,(setParts_cons hp).mpr ⟨next,next'',hn,hs₁,rfl⟩,
        (setParts_cons hp).mpr ⟨next',next'',lookup_assign_self .. ,hs₂,(assign_assign ..).symm⟩⟩

/-- What was written is plucked, and blanking gives what writing a blank does. -/
theorem pluckParts_setParts {value : JsString} {parts : List JsString} {m m' : Members}
    (h : setParts path value parts m = .ok m') (hp : ∀ part ∈ parts, part ≠ []) :
    ∃ m'', setParts path [] parts m = .ok m'' ∧ pluckParts path parts m' = .ok (value,m'') := by
  induction parts generalizing m m' with
  | nil => simp [setParts] at h
  | cons key parts ih =>
    have hkey : key ≠ [] := hp key (by simp)
    by_cases hne : parts = []
    · subst hne
      obtain rfl := Except.ok.inj h
      exact ⟨_,rfl,by simp [pluckParts,hkey]⟩
    · obtain ⟨next,next',hn,hs,rfl⟩ := (setParts_cons hne).mp h
      obtain ⟨next'',hs₁,hs₂⟩ := ih hs fun part hpart => hp part (by simp [hpart])
      refine ⟨_,(setParts_cons hne).mpr ⟨next,next'',hn,hs₁,rfl⟩,?_⟩
      obtain ⟨part,parts,rfl⟩ := List.exists_cons_of_ne_nil hne
      rw [pluckParts,if_neg hkey,descend_eq_ok.mpr (lookup_assign_self ..),ok_bind,hs₂,ok_bind,
        assign_assign]

/-- A value that survives cloning still does after a string is written into it. -/
theorem setParts_reparse {value : JsString} {parts : List JsString} {m m' : Members}
    (h : setParts path value parts m = .ok m') (hm : (Json.obj m).reparse = .obj m) :
    (Json.obj m').reparse = .obj m' := by
  have hobj (ns : Members) : (Json.obj ns).reparse = .obj (ns.map fun m => (m.1,m.2.reparse)) := by
    rw [Json.reparse,Json.reparseMembers_eq]
  induction parts generalizing m m' with
  | nil => simp [setParts] at h
  | cons key parts ih =>
    have hmap : (m.map fun m => (m.1,m.2.reparse)) = m := by
      rw [hobj] at hm
      exact Json.obj.inj hm
    by_cases hp : parts = []
    · subst hp
      obtain rfl := Except.ok.inj h
      rw [hobj,map_assign,hmap,Json.reparse_str]
    · obtain ⟨next,next',hn,hs,rfl⟩ := (setParts_cons hp).mp h
      have hnext : (Json.obj next).reparse = .obj next := by
        have := lookup_map Json.reparse m key
        rw [hmap,hn] at this
        exact (Option.some.inj this).symm
      rw [hobj,map_assign,hmap,ih hs hnext]

end Parts

section Laws
variable {C : Crypto}

theorem signSignedDoc_eq_ok {spec : SignSpec} {r : SignResult}
    (h : signSignedDoc C spec = .ok r) (hwf : (Json.obj spec.preSignJSON).WF) :
    ∃ blank sig, setPath (spec.preSignJSON.map fun m => (m.1,m.2.reparse)) spec.signaturePath [] =
        .ok blank ∧ r.canonicalBlanked = Canonical.canonicalBytes (.obj blank) ∧
      sign C spec.seed (utf8 spec.domain++r.canonicalBlanked) = .ok sig ∧
      r.signatureB64 = Base64.encode sig ∧
      setPath (spec.preSignJSON.map fun m => (m.1,m.2.reparse)) spec.signaturePath
        r.signatureB64 = .ok r.signedJSON := by
  have hreparse := JsonText.parse_wf (JsonText.parse_stringify hwf)
  rw [Json.reparse,Json.reparseMembers_eq] at hreparse
  rw [signSignedDoc,deepCloneJSON_eq hwf,ok_bind] at h
  obtain ⟨blank,hblank,h⟩ := bind_eq_ok.mp h
  rw [Canonical.marshal_eq (setParts_wf hblank hreparse),ok_bind] at h
  obtain ⟨sig,hsig,h⟩ := bind_eq_ok.mp h
  obtain ⟨signed,hsigned,h⟩ := bind_eq_ok.mp h
  obtain rfl := Except.ok.inj h
  obtain ⟨again,h₁,h₂⟩ := setParts_again (Base64.encode sig) hblank
  obtain rfl : again = signed := Except.ok.inj (h₂.symm.trans hsigned)
  exact ⟨blank,sig,hblank,rfl,hsig,rfl,h₁⟩

theorem signSignedDoc_ok (laws : SignLaws C) {s : SignSpec} {blank : Members}
    (hwf : (Json.obj s.preSignJSON).WF) (hseed : s.seed.length = 32)
    (hblank : setPath (s.preSignJSON.map fun m => (m.1,m.2.reparse)) s.signaturePath [] =
      .ok blank) : ∃ r, signSignedDoc C s = .ok r := by
  have hreparse := JsonText.parse_wf (JsonText.parse_stringify hwf)
  rw [Json.reparse,Json.reparseMembers_eq] at hreparse
  obtain ⟨sig,hsig⟩ := sign_ok laws hseed
    (utf8 s.domain++Canonical.canonicalBytes (.obj blank))
  obtain ⟨signed,-,hsigned⟩ := setParts_again (Base64.encode sig) hblank
  have hs : setPath blank s.signaturePath (Base64.encode sig) = .ok signed := hsigned
  refine ⟨⟨signed,Canonical.canonicalBytes (.obj blank),Base64.encode sig⟩,?_⟩
  simp only [signSignedDoc,deepCloneJSON_eq hwf,ok_bind,hblank,
    Canonical.marshal_eq (setParts_wf hblank hreparse),hsig,hs]

/-- A signed document verifies under the public key of its seed. -/
theorem verifySignedDoc_signSignedDoc (laws : SignLaws C) {spec : SignSpec} {r : SignResult}
    (h : signSignedDoc C spec = .ok r) (hwf : (Json.obj spec.preSignJSON).WF)
    (hpath : ∀ part ∈ splitDots spec.signaturePath, part ≠ []) {pk : Bytes}
    (hpk : publicKeyFromSeed C spec.seed = .ok pk) :
    verifySignedDoc C ⟨r.signedJSON,pk,spec.signaturePath,spec.domain⟩ =
      .ok ⟨true,r.canonicalBlanked⟩ := by
  have hreparse := JsonText.parse_wf (JsonText.parse_stringify hwf)
  have hstable := Json.reparse_reparse (Json.obj spec.preSignJSON)
  rw [Json.reparse,Json.reparseMembers_eq] at hreparse hstable
  obtain ⟨blank,sig,hblank,hbytes,hsig,hb64,hsigned⟩ := signSignedDoc_eq_ok h hwf
  have hwfs := setParts_wf hsigned hreparse
  have hclone : deepCloneJSON r.signedJSON = .ok r.signedJSON := by
    have hs := setParts_reparse hsigned hstable
    rw [Json.reparse,Json.reparseMembers_eq] at hs
    rw [deepCloneJSON_eq hwfs,Json.obj.inj hs]
  obtain ⟨blank',hblank',hpluck⟩ := pluckParts_setParts hsigned hpath
  obtain rfl : blank = blank' := Except.ok.inj (hblank.symm.trans hblank')
  have hp : pluckAndBlankPath r.signedJSON spec.signaturePath = .ok (r.signatureB64,blank) := hpluck
  have hwfb := setParts_wf hblank hreparse
  simp only [verifySignedDoc,hclone,ok_bind,hp,Canonical.marshal_eq hwfb,← hbytes]
  rw [hb64,Base64.decode_encode,verify_sign laws hpk hsig]

end Laws
end SignedDoc
end Semp
