import Semp.SignedDoc

/-! What a signed document is signed over.  The signature's place is blank there whatever
was in it, and every other change of the document shows. -/
namespace Semp
namespace SignedDoc

/-- The path goes through objects that are there, and its last segment can be written as a
property of the object's own: an assignment to `__proto__` makes none. -/
def Reaches : List JsString → Members → Prop
  | [],_ => False
  | [leaf],m => leaf ≠ [] ∧ (leaf = js "__proto__" → (lookup m leaf).isSome)
  | key::part::parts,m => key ≠ [] ∧
      ∃ next, lookup m key = some (.obj next) ∧ Reaches (part::parts) next

/-- The documents say the same everywhere but at the end of the path. -/
def AgreeOutside : List JsString → Members → Members → Prop
  | [],_,_ => False
  | [leaf],m,n => ∀ k, k ≠ leaf → (lookup m k).map Json.norm = (lookup n k).map Json.norm
  | key::part::parts,m,n =>
    (∀ k, k ≠ key → (lookup m k).map Json.norm = (lookup n k).map Json.norm) ∧
      ∃ m' n', lookup m key = some (.obj m') ∧ lookup n key = some (.obj n') ∧
        AgreeOutside (part::parts) m' n'

/-- The bytes that `signSignedDoc` signs. -/
def signingInput (domain path : JsString) (m : Members) : Js Bytes := do
  let clone ← deepCloneJSON m
  let blank ← setPath clone path []
  let blanked ← Canonical.marshal (.obj blank)
  .ok (utf8 domain++blanked)

section Paths
variable {path : JsString} {parts : List JsString} {m n : Members}

theorem Reaches.segments (h : Reaches parts m) : ∀ part ∈ parts, part ≠ [] := by
  induction parts generalizing m with
  | nil => exact nofun
  | cons key parts ih =>
    cases parts with
    | nil =>
      intro part hpart
      rw [List.mem_singleton.mp hpart]
      exact h.1
    | cons part parts =>
      obtain ⟨hkey,next,-,hnext⟩ := h
      exact List.forall_mem_cons.mpr ⟨hkey,ih hnext⟩

theorem wf_clone (hm : (Json.obj m).WF) :
    (Json.obj (m.map fun e => (e.1,e.2.reparse))).WF := by
  have h := JsonText.parse_wf (JsonText.parse_stringify hm)
  rwa [Json.reparse,Json.reparseMembers_eq] at h

theorem lookup_clone_norm (m : Members) (k : JsString) :
    (lookup (m.map fun e => (e.1,e.2.reparse)) k).map Json.norm = (lookup m k).map Json.norm := by
  rw [lookup_map Json.reparse,Option.map_map]
  exact congrArg (fun f => (lookup m k).map f) (funext Json.norm_reparse)

/-- The objects of a clone are the clones of the objects. -/
theorem lookup_clone_obj {k : JsString} :
    lookup (m.map fun e => (e.1,e.2.reparse)) k = some (.obj n) ↔
      ∃ next, lookup m k = some (.obj next) ∧ n = next.map fun e => (e.1,e.2.reparse) := by
  rw [lookup_map Json.reparse,Option.map_eq_some_iff]
  constructor
  · rintro ⟨v,hv,he⟩
    have hnorm : v.norm = (Json.obj n).norm := by rw [← he,Json.norm_reparse]
    obtain ⟨next,rfl⟩ := Json.norm_eq_obj hnorm
    rw [Json.reparse,Json.reparseMembers_eq] at he
    exact ⟨next,hv,(Json.obj.inj he).symm⟩
  · rintro ⟨next,hv,rfl⟩
    exact ⟨_,hv,by rw [Json.reparse,Json.reparseMembers_eq]⟩

/-- Cloning keeps the path. -/
theorem reaches_clone : Reaches parts (m.map fun e => (e.1,e.2.reparse)) ↔ Reaches parts m := by
  induction parts generalizing m with
  | nil => exact Iff.rfl
  | cons key parts ih =>
    cases parts with
    | nil =>
      unfold Reaches
      rw [lookup_map Json.reparse,Option.isSome_map]
    | cons part parts =>
      refine and_congr_right fun _ => ⟨?_,?_⟩
      · rintro ⟨next,hl,hnext⟩
        obtain ⟨next,hclone,rfl⟩ := lookup_clone_obj.mp hl
        exact ⟨next,hclone,ih.mp hnext⟩
      · rintro ⟨next,hl,hnext⟩
        exact ⟨_,lookup_clone_obj.mpr ⟨next,hl,rfl⟩,ih.mpr hnext⟩

/-- Along such a path a value can be written. -/
theorem Reaches.setParts (h : Reaches parts m) (path value : JsString) :
    ∃ m', setParts path value parts m = .ok m' := by
  induction parts generalizing m with
  | nil => exact h.elim
  | cons key parts ih =>
    cases parts with
    | nil => exact ⟨_,rfl⟩
    | cons part parts =>
      obtain ⟨-,next,hl,hnext⟩ := h
      obtain ⟨next',hs⟩ := ih hnext
      exact ⟨_,(setParts_cons (List.cons_ne_nil _ _)).mpr ⟨next,next',hl,hs,rfl⟩⟩

/-- Two documents blank to one exactly when they agree outside the path. -/
theorem blank_eq_iff {value : JsString} {m' n' : Members} (hm : (Json.obj m).WF)
    (hn : (Json.obj n).WF) (hm' : setParts path value parts m = .ok m')
    (hn' : setParts path value parts n = .ok n') :
    (Json.obj m').norm = (Json.obj n').norm ↔ AgreeOutside parts m n := by
  rw [Json.norm_obj_eq_iff (setParts_wf hm' hm) (setParts_wf hn' hn)]
  induction parts generalizing m n m' n' with
  | nil => simp [SignedDoc.setParts] at hm'
  | cons key parts ih =>
    cases parts with
    | nil =>
      obtain rfl := Except.ok.inj hm'
      obtain rfl := Except.ok.inj hn'
      refine forall_congr' fun k => ?_
      by_cases hk : k = key
      · subst hk
        simp
      · rw [lookup_assign_ne _ hk,lookup_assign_ne _ hk]
        simp [hk]
    | cons part parts =>
      obtain ⟨next,next',hl,hs,rfl⟩ := (setParts_cons (List.cons_ne_nil _ _)).mp hm'
      obtain ⟨other,other',hl',hs',rfl⟩ := (setParts_cons (List.cons_ne_nil _ _)).mp hn'
      have hnext := ih (Json.wf_of_lookup hm hl) (Json.wf_of_lookup hn hl') hs hs'
      rw [← Json.norm_obj_eq_iff (setParts_wf hs (Json.wf_of_lookup hm hl))
        (setParts_wf hs' (Json.wf_of_lookup hn hl'))] at hnext
      constructor
      · intro h
        refine ⟨fun k hk => ?_,next,other,hl,hl',hnext.mp ?_⟩
        · have hk' := h k
          rwa [lookup_assign_ne _ hk,lookup_assign_ne _ hk] at hk'
        · simpa using h key
      · rintro ⟨hothers,m',n',hm',hn',h⟩ k
        by_cases hk : k = key
        · subst hk
          obtain rfl : next = m' := by simpa using hl.symm.trans hm'
          obtain rfl : other = n' := by simpa using hl'.symm.trans hn'
          rw [lookup_assign_self,lookup_assign_self,Option.map_some,Option.map_some,hnext.mpr h]
        · rw [lookup_assign_ne _ hk,lookup_assign_ne _ hk]
          exact hothers k hk

/-- Cloning keeps what two documents agree in. -/
theorem agreeOutside_clone :
    AgreeOutside parts (m.map fun e => (e.1,e.2.reparse)) (n.map fun e => (e.1,e.2.reparse)) ↔
      AgreeOutside parts m n := by
  induction parts generalizing m n with
  | nil => exact Iff.rfl
  | cons key parts ih =>
    cases parts with
    | nil => simp only [AgreeOutside,lookup_clone_norm]
    | cons part parts =>
      simp only [AgreeOutside,lookup_clone_norm]
      refine and_congr_right fun _ => ⟨?_,?_⟩
      · rintro ⟨m',n',hm,hn,h⟩
        obtain ⟨next,hl,rfl⟩ := lookup_clone_obj.mp hm
        obtain ⟨next',hl',rfl⟩ := lookup_clone_obj.mp hn
        exact ⟨next,next',hl,hl',ih.mp h⟩
      · rintro ⟨m',n',hm,hn,h⟩
        exact ⟨_,_,lookup_clone_obj.mpr ⟨m',hm,rfl⟩,lookup_clone_obj.mpr ⟨n',hn,rfl⟩,ih.mpr h⟩

/-- What is plucked out of a document leaves what a blank written into it gives. -/
theorem pluckParts_spec {value : JsString} {m' : Members}
    (h : pluckParts path parts m = .ok (value,m')) :
    Reaches parts m ∧ SignedDoc.setParts path [] parts m = .ok m' := by
  induction parts generalizing m m' value with
  | nil => cases h
  | cons key parts ih =>
    cases parts with
    | nil =>
      rw [pluckParts] at h
      split_ifs at h with hkey
      · cases h
      split at h
      · next hl =>
        obtain ⟨-,rfl⟩ := Prod.mk.inj (Except.ok.inj h)
        exact ⟨⟨hkey,fun _ => by rw [hl]; rfl⟩,rfl⟩
      · cases h
    | cons part parts =>
      rw [pluckParts] at h
      split_ifs at h with hkey
      · cases h
      obtain ⟨next,hl,h⟩ := bind_eq_ok.mp h
      obtain ⟨⟨v,next'⟩,hp,h⟩ := bind_eq_ok.mp h
      obtain ⟨rfl,rfl⟩ := Prod.mk.inj (Except.ok.inj h)
      have hl := descend_eq_ok.mp hl
      obtain ⟨hreach,hset⟩ := ih hp
      exact ⟨⟨hkey,next,hl,hreach⟩,
        (setParts_cons (List.cons_ne_nil _ _)).mpr ⟨next,next',hl,hset,rfl⟩⟩

/-- Plucking from a document of the same normal form. -/
theorem pluckParts_congr {value : JsString} {n' : Members} (hm : (Json.obj m).WF)
    (hn : (Json.obj n).WF) (h : (Json.obj m).norm = (Json.obj n).norm)
    (hp : pluckParts path parts n = .ok (value,n')) :
    ∃ m', pluckParts path parts m = .ok (value,m') ∧ (Json.obj m').WF ∧ (Json.obj n').WF ∧
      (Json.obj m').norm = (Json.obj n').norm := by
  have hblank : (Json.str []).WF := trivial
  induction parts generalizing m n n' with
  | nil => simp [pluckParts] at hp
  | cons key parts ih =>
    cases parts with
    | nil =>
      rw [pluckParts] at hp ⊢
      split_ifs at hp ⊢ with hkey
      · cases hp
      split at hp
      · next hl =>
        obtain ⟨rfl,rfl⟩ := Prod.mk.inj (Except.ok.inj hp)
        rw [(Json.lookup_str_of_norm hm hn h).mpr hl]
        exact ⟨_,rfl,Json.wf_assign hm hblank key,Json.wf_assign hn hblank key,
          Json.norm_assign hm hn h hblank hblank rfl key⟩
      · cases hp
    | cons part parts =>
      rw [pluckParts] at hp ⊢
      split_ifs at hp ⊢ with hkey
      · cases hp
      obtain ⟨next,hl,hp⟩ := bind_eq_ok.mp hp
      obtain ⟨⟨v,next'⟩,hpl,hp⟩ := bind_eq_ok.mp hp
      obtain ⟨rfl,rfl⟩ := Prod.mk.inj (Except.ok.inj hp)
      have hl := descend_eq_ok.mp hl
      obtain ⟨other,hlo,hnorm⟩ := Json.lookup_obj_of_norm hm hn h hl
      obtain ⟨other',hplo,hwf,hwf',hnorm'⟩ := ih (Json.wf_of_lookup hm hlo)
        (Json.wf_of_lookup hn hl) hnorm hpl
      refine ⟨_,by rw [descend_eq_ok.mpr hlo,ok_bind,hplo]; rfl,Json.wf_assign hm hwf key,
        Json.wf_assign hn hwf' key,Json.norm_assign hm hn h hwf hwf' hnorm' key⟩

end Paths

section Documents
variable {C : Crypto}

/-- A document of the same normal form verifies as well. -/
theorem verifySignedDoc_congr {m n : Members} (hm : (Json.obj m).WF) (hn : (Json.obj n).WF)
    (h : (Json.obj m).norm = (Json.obj n).norm) {pk : Bytes} {path domain : JsString}
    {r : VerifyResult} (hr : verifySignedDoc C ⟨n,pk,path,domain⟩ = .ok r) :
    verifySignedDoc C ⟨m,pk,path,domain⟩ = .ok r := by
  have hclone (m : Members) :
      (Json.obj (m.map fun e => (e.1,e.2.reparse))).norm = (Json.obj m).norm := by
    have hnorm := Json.norm_reparse (Json.obj m)
    rwa [Json.reparse,Json.reparseMembers_eq] at hnorm
  rw [verifySignedDoc,deepCloneJSON_eq hn,ok_bind] at hr
  obtain ⟨⟨value,n'⟩,hp,hr⟩ := bind_eq_ok.mp hr
  obtain ⟨m',hp',hwf,hwf',hnorm⟩ := pluckParts_congr (wf_clone hm) (wf_clone hn)
    ((hclone m).trans (h.trans (hclone n).symm)) hp
  have hbytes := (Canonical.canonicalBytes_inj hwf hwf').mpr hnorm
  rw [Canonical.marshal_eq hwf',ok_bind,← hbytes] at hr
  have hpluck : pluckAndBlankPath (m.map fun e => (e.1,e.2.reparse)) path = .ok (value,m') := hp'
  rw [verifySignedDoc,deepCloneJSON_eq hm,ok_bind,hpluck,ok_bind,Canonical.marshal_eq hwf,ok_bind]
  exact hr

theorem signingInput_eq (domain : JsString) {path : JsString} {m : Members} (hm : (Json.obj m).WF)
    (hp : Reaches (splitDots path) m) : ∃ blank,
      setParts path [] (splitDots path) (m.map fun e => (e.1,e.2.reparse)) = .ok blank ∧
        (Json.obj blank).WF ∧
        signingInput domain path m = .ok (utf8 domain++Canonical.canonicalBytes (.obj blank)) := by
  obtain ⟨blank,hblank⟩ := (reaches_clone.mpr hp).setParts path []
  have hset : setPath (m.map fun e => (e.1,e.2.reparse)) path [] = .ok blank := hblank
  refine ⟨blank,hblank,setParts_wf hblank (wf_clone hm),?_⟩
  rw [signingInput,deepCloneJSON_eq hm,ok_bind,hset,ok_bind,
    Canonical.marshal_eq (setParts_wf hblank (wf_clone hm)),ok_bind]

theorem verify_true {pk sig message : Bytes} (h : verify C pk sig message = true) :
    C.ed25519Verify sig message pk = .ok true := by
  unfold verify at h
  split_ifs at h
  split at h
  · next hv => rw [hv,h]
  · cases h

/-- The verifier checks the signature over the bytes a signer of the document signs. -/
theorem verifySignedDoc_signingInput {n : Members} (hn : (Json.obj n).WF) {pk : Bytes}
    {path domain : JsString} {r : VerifyResult}
    (h : verifySignedDoc C ⟨n,pk,path,domain⟩ = .ok r) : Reaches (splitDots path) n ∧
      signingInput domain path n = .ok (utf8 domain++r.canonicalBlanked) ∧
      ∃ sig, r.ok = verify C pk sig (utf8 domain++r.canonicalBlanked) := by
  rw [verifySignedDoc,deepCloneJSON_eq hn,ok_bind] at h
  obtain ⟨⟨value,n'⟩,hp,h⟩ := bind_eq_ok.mp h
  obtain ⟨blanked,hb,h⟩ := bind_eq_ok.mp h
  obtain rfl := Except.ok.inj h
  obtain ⟨hreach,hset⟩ := pluckParts_spec hp
  have hset : setPath (n.map fun e => (e.1,e.2.reparse)) path [] = .ok n' := hset
  refine ⟨reaches_clone.mp hreach,?_,Base64.decode value,rfl⟩
  rw [signingInput,deepCloneJSON_eq hn,ok_bind,hset,ok_bind,hb,ok_bind]

/-- Two documents have the same bytes to sign exactly when they agree outside the path. -/
theorem signingInput_eq_iff (domain : JsString) {path : JsString} {m n : Members}
    (hm : (Json.obj m).WF) (hn : (Json.obj n).WF) (hpm : Reaches (splitDots path) m)
    (hpn : Reaches (splitDots path) n) :
    signingInput domain path m = signingInput domain path n ↔
      AgreeOutside (splitDots path) m n := by
  obtain ⟨blank,hblank,hbm,hinput⟩ := signingInput_eq domain hm hpm
  obtain ⟨blank',hblank',hbn,hinput'⟩ := signingInput_eq domain hn hpn
  rw [hinput,hinput',Except.ok.injEq,List.append_cancel_left_eq,
    Canonical.canonicalBytes_inj hbm hbn,blank_eq_iff (wf_clone hm) (wf_clone hn) hblank
      hblank',agreeOutside_clone]

/-- A document that is signed verifies under the public key of the seed, as it is and after
it was serialized and parsed.  Two documents have the same bytes to sign only if they agree
everywhere but at the signature; so where a document that was altered elsewhere is accepted,
the signature it carries is one of other bytes. -/
theorem signSignedDoc_verifies (laws : SignLaws C) (domain path : JsString) (seed pk : Bytes)
    (hseed : seed.length = 32) (hpk : publicKeyFromSeed C seed = .ok pk) (m : Members)
    (hm : (Json.obj m).WF) (hp : Reaches (splitDots path) m) :
    (∀ n, (Json.obj n).WF → Reaches (splitDots path) n →
      (signingInput domain path m = signingInput domain path n ↔
        AgreeOutside (splitDots path) m n)) ∧
    ∃ r, signSignedDoc C ⟨m,seed,path,domain⟩ = .ok r ∧
      signingInput domain path m = .ok (utf8 domain++r.canonicalBlanked) ∧
      (∀ received, (Json.obj received).WF →
        (Json.obj received).norm = (Json.obj r.signedJSON).norm →
          verifySignedDoc C ⟨received,pk,path,domain⟩ = .ok ⟨true,r.canonicalBlanked⟩) ∧
      ∀ altered bytes, (Json.obj altered).WF → ¬AgreeOutside (splitDots path) m altered →
        verifySignedDoc C ⟨altered,pk,path,domain⟩ = .ok ⟨true,bytes⟩ →
          bytes ≠ r.canonicalBlanked ∧
            ∃ sig, C.ed25519Verify sig (utf8 domain++bytes) pk = .ok true := by
  have hsame (n : Members) (hn : (Json.obj n).WF) (hpn : Reaches (splitDots path) n) :=
    signingInput_eq_iff domain hm hn hp hpn
  obtain ⟨blank,hblank,-,hinput⟩ := signingInput_eq domain hm hp
  obtain ⟨r,hr⟩ := signSignedDoc_ok laws (s := ⟨m,seed,path,domain⟩) hm hseed hblank
  obtain ⟨blank',-,hblank',hbytes,-,-,hsigned⟩ := signSignedDoc_eq_ok hr hm
  obtain rfl : blank = blank' := Except.ok.inj (hblank.symm.trans hblank')
  have hverify := verifySignedDoc_signSignedDoc laws hr hm hp.segments hpk
  rw [← hbytes] at hinput
  refine ⟨hsame,r,hr,hinput,fun received hwf hnorm =>
    verifySignedDoc_congr hwf (setParts_wf hsigned (wf_clone hm)) hnorm hverify,?_⟩
  intro altered bytes hwf hne haccepted
  obtain ⟨hpa,hinput',sig,hsig⟩ := verifySignedDoc_signingInput hwf haccepted
  refine ⟨fun heq => hne ((hsame altered hwf hpa).mp ?_),sig,verify_true hsig.symm⟩
  rw [hinput,hinput',heq]

/-- A document with its signature two levels down. -/
def sample : Members :=
  [(js "body",.str (js "hello")),(js "signature",.obj [(js "key_id",.str (js "k"))])]

def samplePath : JsString := js "signature.value"

theorem signSignedDoc_verifies_sample :
    (∀ n, (Json.obj n).WF → Reaches (splitDots samplePath) n →
      (signingInput (js "SEMP-CLOSURE:") samplePath sample =
          signingInput (js "SEMP-CLOSURE:") samplePath n ↔
        AgreeOutside (splitDots samplePath) sample n)) ∧
    ∃ r, signSignedDoc Sample.crypto ⟨sample,List.replicate 32 7,samplePath,js "SEMP-CLOSURE:"⟩ =
        .ok r ∧
      signingInput (js "SEMP-CLOSURE:") samplePath sample =
        .ok (utf8 (js "SEMP-CLOSURE:")++r.canonicalBlanked) ∧
      (∀ received, (Json.obj received).WF →
        (Json.obj received).norm = (Json.obj r.signedJSON).norm →
          verifySignedDoc Sample.crypto
              ⟨received,List.replicate 32 7,samplePath,js "SEMP-CLOSURE:"⟩ =
            .ok ⟨true,r.canonicalBlanked⟩) ∧
      ∀ altered bytes, (Json.obj altered).WF →
        ¬AgreeOutside (splitDots samplePath) sample altered →
        verifySignedDoc Sample.crypto
            ⟨altered,List.replicate 32 7,samplePath,js "SEMP-CLOSURE:"⟩ = .ok ⟨true,bytes⟩ →
          bytes ≠ r.canonicalBlanked ∧ ∃ sig, Sample.crypto.ed25519Verify sig
            (utf8 (js "SEMP-CLOSURE:")++bytes) (List.replicate 32 7) = .ok true := by
  refine signSignedDoc_verifies Sample.laws.sig _ _ _ _ rfl rfl _ ?_ ?_
  · simp [sample,Json.wf_obj,keys,js]
  · have hsplit : splitDots samplePath = [js "signature",js "value"] := by decide +kernel
    rw [hsplit]
    exact ⟨by decide,[(js "key_id",.str (js "k"))],rfl,by decide,fun h => absurd h (by decide)⟩

end Documents

end SignedDoc
end Semp
