import Semp.Pipeline

/-! Opening an envelope with one of several device keys: the seal signature is verified, then
the brief and the enclosure are each opened with the first candidate whose slot opens. -/
namespace Semp.OpenVerified
open Envelope

structure OpenedBrief where
  candidate : RecipientCandidate
  brief : Json

structure OpenedEnclosure where
  candidate : RecipientCandidate
  enclosure : Json

structure OpenAndVerifyInput where
  suite : Suite
  envelope : Env
  candidates : List RecipientCandidate
  /-- `lookupSenderDomainPub`, or the function given in its place. -/
  resolver : JsString → JsString → Js (Option Bytes)

structure OpenAndVerifyResult where
  senderDomainPub : Bytes
  candidate : RecipientCandidate
  brief : Json
  enclosure : Json

section Code
variable (C : Crypto) (rt : Runtime)

def briefWith (suite : Suite) (env : Env) (c : RecipientCandidate) : Js Json :=
  openBriefForRecipient C ⟨suite,env,c.keyId,c.privateKey,c.publicKey⟩

def enclosureWith (suite : Suite) (env : Env) (c : RecipientCandidate) : Js Json :=
  openEnclosureForRecipient C ⟨suite,env,c.keyId,c.privateKey,c.publicKey⟩

/-- Both walks from the next candidate on: `name` and `slot` are the words of the errors. -/
def openAny (name slot : JsString) (recipients : List (JsString × JsString))
    (opens : RecipientCandidate → Js Json) :
    List RecipientCandidate → List JsString → Js (RecipientCandidate × Json)
  | [], [] => raise (js "envelope: "++name++js ": no candidate matches "++slot++
      js " recipient slot")
  | [], errors => raise (js "envelope: "++name++js ": every candidate failed: "++
      (js "; ").intercalate errors)
  | c::candidates, errors =>
    if (lookup recipients c.keyId).isNone then openAny name slot recipients opens candidates errors
    else
      match opens c with
      | .ok v => .ok (c,v)
      | .error err => openAny name slot recipients opens candidates
          (errors++[c.keyId++js ": "++Handshake.thrownText rt err])

def openBriefAny (suite : Suite) (env : Env) (candidates : List RecipientCandidate) :
    Js OpenedBrief :=
  if candidates = [] then raise (js "envelope: openBriefAny: empty candidate list")
  else (openAny rt (js "openBriefAny") (js "a brief") env.sealed.briefRecipients
    (briefWith C suite env) candidates []).map fun o => ⟨o.1,o.2⟩

def openEnclosureAny (suite : Suite) (env : Env) (candidates : List RecipientCandidate) :
    Js OpenedEnclosure :=
  if candidates = [] then raise (js "envelope: openEnclosureAny: empty candidate list")
  else (openAny rt (js "openEnclosureAny") (js "an enclosure") env.sealed.enclosureRecipients
    (enclosureWith C suite env) candidates []).map fun o => ⟨o.1,o.2⟩

/-- A step whose error is thrown again with the step named. -/
def opening {α : Type} (step : String) : Js α → Js α
  | .ok v => .ok v
  | .error err => raise (js "envelope: openAndVerify: open "++js step++js " failed: "++
      Handshake.thrownText rt err)

def openAndVerify (input : OpenAndVerifyInput) : Js OpenAndVerifyResult := do
  let env := input.envelope
  let fromDomain := env.postmark.fromDomain
  let keyId := env.sealed.keyId
  match ← input.resolver fromDomain keyId with
  | none => raise (js "envelope: openAndVerify: resolver returned null for sender domain "++
      JsonText.stringify (.str fromDomain)++js ", key_id "++JsonText.stringify (.str keyId))
  | some pub =>
    match ← verifySealSignature C env pub with
    | false => raise (js "envelope: openAndVerify: seal.signature did not verify under the "++
        js "resolved sender domain key")
    | true => do
      let brief ← opening rt "brief" (openBriefAny C rt input.suite env input.candidates)
      let enclosure ← opening rt "enclosure" (openEnclosureAny C rt input.suite env input.candidates)
      .ok ⟨pub,brief.candidate,brief.brief,enclosure.enclosure⟩

end Code

/-- `c` opens the slot to `v` and no earlier candidate opens it. -/
def FirstOpener (opens : RecipientCandidate → Js Json) (candidates : List RecipientCandidate)
    (c : RecipientCandidate) (v : Json) : Prop :=
  ∃ before after, candidates = before++c::after ∧ opens c = .ok v ∧
    ∀ b ∈ before, ∀ w, opens b ≠ .ok w

variable {C : Crypto} {rt : Runtime} {suite : Suite} {env : Env}
  {candidates : List RecipientCandidate} {c : RecipientCandidate} {v : Json}
  {opens : RecipientCandidate → Js Json}

theorem firstOpener_nil : ¬ FirstOpener opens [] c v := by
  rintro ⟨before,after,h,-⟩
  cases before <;> cases h

theorem firstOpener_cons {d : RecipientCandidate} :
    FirstOpener opens (d::candidates) c v ↔
      (d = c ∧ opens d = .ok v) ∨ (∀ w, opens d ≠ .ok w) ∧ FirstOpener opens candidates c v := by
  constructor
  · rintro ⟨before,after,h,hopen,hnone⟩
    cases before with
    | nil =>
      obtain ⟨rfl,-⟩ := List.cons.inj h
      exact .inl ⟨rfl,hopen⟩
    | cons b before =>
      obtain ⟨rfl,rfl⟩ := List.cons.inj h
      exact .inr ⟨hnone d (by simp),before,after,rfl,hopen,
        fun b hb => hnone b (List.mem_cons_of_mem d hb)⟩
  · rintro (⟨rfl,hopen⟩|⟨hd,before,after,rfl,hopen,hnone⟩)
    · exact ⟨[],candidates,rfl,hopen,by simp⟩
    · refine ⟨d::before,after,rfl,hopen,fun b hb => ?_⟩
      rcases List.mem_cons.mp hb with rfl|hb
      · exact hd
      · exact hnone b hb

/-- The walk returns the first candidate that opens the slot. -/
theorem openAny_eq_ok {name slot : JsString} {recipients : List (JsString × JsString)}
    (hopens : ∀ c v, opens c = .ok v → (lookup recipients c.keyId).isNone = false)
    (errors : List JsString) :
    openAny rt name slot recipients opens candidates errors = .ok (c,v) ↔
      FirstOpener opens candidates c v := by
  induction candidates generalizing errors with
  | nil => cases errors <;> simp [openAny,firstOpener_nil]
  | cons d candidates ih =>
    rw [openAny,firstOpener_cons]
    by_cases hnone : (lookup recipients d.keyId).isNone = true
    · have hd : ∀ w, opens d ≠ .ok w := fun w hw => by simp [hopens d w hw] at hnone
      rw [if_pos hnone,ih]
      simp [hd]
    · rw [if_neg hnone]
      cases hd : opens d with
      | ok w => simp
      | error err => simp [ih]

theorem openSlot_ne_none {o : OpenInput} {slot field : JsString}
    {wrapped : List (JsString × JsString)} (h : openSlot C o slot wrapped field = .ok v) :
    (lookup wrapped o.recipientKeyId).isNone = false := by
  cases hl : lookup wrapped o.recipientKeyId with
  | none =>
    rw [openSlot,hl] at h
    cases h
  | some text => rfl

theorem map_eq_ok {α β : Type} {x : Js α} {f : α → β} {b : β} :
    x.map f = .ok b ↔ ∃ a, x = .ok a ∧ f a = b := by
  cases x <;> simp [Except.map]

/-- A list of candidates is walked unless it is empty. -/
theorem openFirst_eq_ok {α : Type} {name slot message : JsString}
    {recipients : List (JsString × JsString)}
    (hopens : ∀ c v, opens c = .ok v → (lookup recipients c.keyId).isNone = false)
    {f : RecipientCandidate × Json → α} (hf : Function.Injective f) :
    (if candidates = [] then raise message
      else (openAny rt name slot recipients opens candidates []).map f) = .ok (f (c,v)) ↔
      FirstOpener opens candidates c v := by
  split_ifs with hnil
  · rw [hnil]
    exact iff_of_false (raise_ne_ok _ _) firstOpener_nil
  · rw [map_eq_ok,← openAny_eq_ok hopens []]
    constructor
    · rintro ⟨a,h,heq⟩
      exact hf heq ▸ h
    · exact fun h => ⟨_,h,rfl⟩

theorem openBriefAny_eq_ok {o : OpenedBrief} :
    openBriefAny C rt suite env candidates = .ok o ↔
      FirstOpener (briefWith C suite env) candidates o.candidate o.brief :=
  openFirst_eq_ok (fun _ _ => openSlot_ne_none) fun _ _ h => by simpa [Prod.ext_iff] using h

theorem openEnclosureAny_eq_ok {o : OpenedEnclosure} :
    openEnclosureAny C rt suite env candidates = .ok o ↔
      FirstOpener (enclosureWith C suite env) candidates o.candidate o.enclosure :=
  openFirst_eq_ok (fun _ _ => openSlot_ne_none) fun _ _ h => by simpa [Prod.ext_iff] using h

/-- A slot has one first opener, and opens to one value. -/
theorem FirstOpener.unique {c' : RecipientCandidate} {v' : Json}
    (h : FirstOpener opens candidates c v) (h' : FirstOpener opens candidates c' v') :
    c = c' ∧ v = v' := by
  induction candidates with
  | nil => exact absurd h firstOpener_nil
  | cons d candidates ih =>
    rcases firstOpener_cons.mp h with ⟨rfl,hopen⟩|⟨hnone,h⟩
    · rcases firstOpener_cons.mp h' with ⟨rfl,hopen'⟩|⟨hnone',-⟩
      · exact ⟨rfl,Except.ok.inj (hopen.symm.trans hopen')⟩
      · exact absurd hopen (hnone' v)
    · rcases firstOpener_cons.mp h' with ⟨rfl,hopen'⟩|⟨-,h'⟩
      · exact absurd hopen' (hnone v')
      · exact ih h h'

theorem opening_eq_ok {α : Type} {step : String} {x : Js α} {a : α} :
    opening rt step x = .ok a ↔ x = .ok a := by
  cases x <;> simp [opening]

variable {input : OpenAndVerifyInput} {r : OpenAndVerifyResult}

/-- What a call that resolves has done. -/
theorem openAndVerify_eq_ok :
    openAndVerify C rt input = .ok r ↔
      input.resolver input.envelope.postmark.fromDomain input.envelope.sealed.keyId =
        .ok (some r.senderDomainPub) ∧
      verifySealSignature C input.envelope r.senderDomainPub = .ok true ∧
      FirstOpener (briefWith C input.suite input.envelope) input.candidates r.candidate r.brief ∧
      ∃ c, FirstOpener (enclosureWith C input.suite input.envelope) input.candidates c
        r.enclosure := by
  unfold openAndVerify
  simp only [bind_eq_ok]
  constructor
  · rintro ⟨_|pub,hpub,h⟩
    · cases h
    obtain ⟨_|_,hverify,h⟩ := bind_eq_ok.mp h
    · cases h
    simp only [bind_eq_ok,opening_eq_ok] at h
    obtain ⟨brief,hbrief,enclosure,henclosure,h⟩ := h
    cases h
    exact ⟨hpub,hverify,openBriefAny_eq_ok.mp hbrief,_,openEnclosureAny_eq_ok.mp henclosure⟩
  · rintro ⟨hpub,hverify,hbrief,c,henclosure⟩
    refine ⟨_,hpub,?_⟩
    simp only [hverify,ok_bind,bind_eq_ok,opening_eq_ok]
    exact ⟨⟨r.candidate,r.brief⟩,openBriefAny_eq_ok.mpr hbrief,⟨c,r.enclosure⟩,
      openEnclosureAny_eq_ok.mpr henclosure,rfl⟩

variable (C rt) in
/-- The result is of one candidate: the opening of the brief and the opening of the enclosure
both used its keys. -/
structure OneCandidate (input : OpenAndVerifyInput) (r : OpenAndVerifyResult) : Prop where
  verified : verifySealSignature C input.envelope r.senderDomainPub = .ok true
  brief : openBriefAny C rt input.suite input.envelope input.candidates =
    .ok ⟨r.candidate,r.brief⟩
  enclosure : openEnclosureAny C rt input.suite input.envelope input.candidates =
    .ok ⟨r.candidate,r.enclosure⟩

variable (C) in
/-- Some candidate opens both slots and no candidate before it opens either. -/
def SameOpener (input : OpenAndVerifyInput) : Prop :=
  ∃ before c after, input.candidates = before++c::after ∧
    (∃ v, briefWith C input.suite input.envelope c = .ok v) ∧
    (∃ v, enclosureWith C input.suite input.envelope c = .ok v) ∧
    ∀ b ∈ before, ∀ v, briefWith C input.suite input.envelope b ≠ .ok v ∧
      enclosureWith C input.suite input.envelope b ≠ .ok v

/-- The two walks stop at the same place when they stop at the same candidate. -/
theorem FirstOpener.align {opens' : RecipientCandidate → Js Json} {w : Json}
    (h : FirstOpener opens candidates c v) (h' : FirstOpener opens' candidates c w) :
    ∃ before after, candidates = before++c::after ∧ opens c = .ok v ∧ opens' c = .ok w ∧
      ∀ b ∈ before, ∀ u, opens b ≠ .ok u ∧ opens' b ≠ .ok u := by
  induction candidates with
  | nil => exact absurd h firstOpener_nil
  | cons d candidates ih =>
    rcases firstOpener_cons.mp h with ⟨rfl,hopen⟩|⟨hnone,h⟩
    · rcases firstOpener_cons.mp h' with ⟨-,hopen'⟩|⟨hnone',-,-,-,hopen',-⟩
      · exact ⟨[],candidates,rfl,hopen,hopen',by simp⟩
      · exact absurd hopen' (hnone' w)
    · rcases firstOpener_cons.mp h' with ⟨rfl,-⟩|⟨hnone',h'⟩
      · obtain ⟨-,-,-,hopen,-⟩ := h
        exact absurd hopen (hnone v)
      · obtain ⟨before,after,rfl,hopen,hopen',hbefore⟩ := ih h h'
        refine ⟨d::before,after,rfl,hopen,hopen',fun b hb u => ?_⟩
        rcases List.mem_cons.mp hb with rfl|hb
        · exact ⟨hnone u,hnone' u⟩
        · exact hbefore b hb u

/-- A call that resolves returns what one candidate opened exactly when the first candidate
that opens the brief is the first that opens the enclosure. -/
theorem openAndVerify_oneCandidate_iff (h : openAndVerify C rt input = .ok r) :
    OneCandidate C rt input r ↔ SameOpener C input := by
  obtain ⟨-,hverify,hbrief,c,henclosure⟩ := openAndVerify_eq_ok.mp h
  constructor
  · rintro ⟨-,-,hsame⟩
    obtain ⟨before,after,hcs,hopen,hopen',hbefore⟩ :=
      hbrief.align (openEnclosureAny_eq_ok.mp hsame)
    exact ⟨before,r.candidate,after,hcs,⟨_,hopen⟩,⟨_,hopen'⟩,hbefore⟩
  · rintro ⟨before,d,after,hcs,⟨v,hopen⟩,⟨w,hopen'⟩,hbefore⟩
    have hbrief' : FirstOpener (briefWith C input.suite input.envelope) input.candidates d v :=
      ⟨before,after,hcs,hopen,fun b hb u => (hbefore b hb u).1⟩
    have henclosure' : FirstOpener (enclosureWith C input.suite input.envelope)
        input.candidates d w :=
      ⟨before,after,hcs,hopen',fun b hb u => (hbefore b hb u).2⟩
    obtain ⟨rfl,rfl⟩ := hbrief.unique hbrief'
    obtain ⟨rfl,rfl⟩ := henclosure.unique henclosure'
    exact ⟨hverify,openBriefAny_eq_ok.mpr hbrief,openEnclosureAny_eq_ok.mpr henclosure⟩

/-- A second device. -/
def otherRecipient : RecipientKey :=
  ⟨hex (Sample.digest (List.replicate 32 6)).val,List.replicate 32 6⟩

/-- The device of a recipient, whose keys are equal in the sample. -/
def deviceOf (r : RecipientKey) : RecipientCandidate := ⟨r.keyId,r.publicKey,r.publicKey⟩

/-- The brief is for the one device and the enclosure for the device given. -/
def splitInput (e : RecipientKey) : ComposeInput :=
  { sampleInput [(sampleRecipient.keyId,sampleRandomness 1),
      (js "enclosure:"++e.keyId,sampleRandomness 2)] with enclosureRecipients := [e] }

theorem splitInput_json (e : RecipientKey) : JsonInputs (splitInput e) :=
  have h := sample_json []
  { brief_wf := h.brief_wf
    brief_finite := h.brief_finite
    enclosure_wf := h.enclosure_wf
    enclosure_finite := h.enclosure_finite
    postmark_wf := h.postmark_wf
    seal_wf := h.seal_wf
    extensions_wf := h.extensions_wf }

/-- A recipient that the sample can be sealed to, with its one key as both keys. -/
structure Usable (e : RecipientKey) : Prop where
  keys : Seal.KeysMatch Sample.crypto .x25519 e.publicKey e.publicKey
  fingerprint : fingerprint Sample.crypto e.publicKey = .ok e.keyId
  key_ne : sampleRecipient.keyId ≠ js "enclosure:"++e.keyId

theorem usable_sample : Usable sampleRecipient := ⟨rfl,rfl,enclosureKey_ne.symm⟩

theorem usable_other : Usable otherRecipient := ⟨rfl,rfl,by decide +kernel⟩

theorem splitInput_composable {e : RecipientKey} (he : Usable e) :
    Composable Sample.crypto (splitInput e) where
  seed_length := rfl
  kBrief_length := rfl
  kEnclosure_length := rfl
  briefNonce_length := rfl
  enclosureNonce_length := rfl
  brief := by
    intro r hr
    obtain rfl := List.mem_singleton.mp hr
    have hrand : briefRandomness (splitInput e) sampleRecipient.keyId =
        some (sampleRandomness 1) := by
      simp [briefRandomness,splitInput,sampleInput,lookup]
    exact ⟨_,sampleKey,hrand,rfl,List.length_replicate,fun hpq => by cases hpq⟩
  enclosure := by
    intro r hr
    obtain rfl := List.mem_singleton.mp hr
    have hrand : enclosureRandomness (splitInput r) r.keyId = some (sampleRandomness 2) := by
      simp [enclosureRandomness,splitInput,sampleInput,lookup,he.key_ne]
    exact ⟨_,r.publicKey,hrand,he.keys,List.length_replicate,fun hpq => by cases hpq⟩

/-- An envelope of that kind: which devices have which slots, and what these open to. -/
theorem split_envelope {e : RecipientKey} (he : Usable e) : ∃ env v w,
    verifySealSignature Sample.crypto env (List.replicate 32 7) = .ok true ∧
    briefWith Sample.crypto .x25519 env (deviceOf sampleRecipient) = .ok v ∧
    enclosureWith Sample.crypto .x25519 env (deviceOf e) = .ok w ∧
    ∀ c : RecipientCandidate, c.keyId ≠ e.keyId → ∀ u,
      enclosureWith Sample.crypto .x25519 env c ≠ .ok u := by
  have hrs : Recipients Sample.crypto [sampleRecipient] := ⟨List.nodup_singleton _,by
    intro r hr
    obtain rfl := List.mem_singleton.mp hr
    rfl⟩
  have hes : Recipients Sample.crypto [e] := ⟨List.nodup_singleton _,by
    intro r hr
    obtain rfl := List.mem_singleton.mp hr
    exact he.fingerprint⟩
  obtain ⟨hok,hopen⟩ := open_compose Sample.laws (splitInput e) (splitInput_json e) hrs hes
    (List.replicate 32 7) rfl
  obtain ⟨env,calls,h⟩ := hok (splitInput_composable he)
  obtain ⟨hsig,-,hbrief,henclosure⟩ := hopen env calls h
  obtain ⟨v,hv,-⟩ := hbrief sampleRecipient (List.mem_singleton.mpr rfl) sampleKey rfl
  obtain ⟨w,hw,-⟩ := henclosure e (List.mem_singleton.mpr rfl) e.publicKey he.keys
  refine ⟨env,v,w,hsig,hv,hw,fun c hc u hu => ?_⟩
  obtain ⟨s,hs⟩ := compose_eq_ok.mp h
  have hslot : lookup env.sealed.enclosureRecipients c.keyId = none := by
    rw [hs.result]
    exact lookup_wrapAll_ne hs.wrap_enclosure (by simpa [splitInput] using hc)
  have hsome := openSlot_ne_none hu
  rw [hslot] at hsome
  cases hsome

/-- A call with both devices, the first of which the brief is for. -/
def sampleCall (env : Env) : OpenAndVerifyInput :=
  ⟨.x25519,env,[deviceOf sampleRecipient,deviceOf otherRecipient],
    fun _ _ => .ok (some (List.replicate 32 7))⟩

theorem sampleCall_brief {env : Env} {v : Json}
    (hv : briefWith Sample.crypto .x25519 env (deviceOf sampleRecipient) = .ok v) :
    FirstOpener (briefWith Sample.crypto .x25519 env) (sampleCall env).candidates
      (deviceOf sampleRecipient) v :=
  ⟨[],_,rfl,hv,by simp⟩

/-- When the first device has both slots, its keys open both. -/
theorem openAndVerify_oneCandidate_sample : ∃ env r,
    openAndVerify Sample.crypto Sample.runtime (sampleCall env) = .ok r ∧
    (OneCandidate Sample.crypto Sample.runtime (sampleCall env) r ↔
      SameOpener Sample.crypto (sampleCall env)) ∧ SameOpener Sample.crypto (sampleCall env) := by
  obtain ⟨env,v,w,hsig,hv,hw,-⟩ := split_envelope usable_sample
  have hok : openAndVerify Sample.crypto Sample.runtime (sampleCall env) =
      .ok ⟨List.replicate 32 7,deviceOf sampleRecipient,v,w⟩ :=
    openAndVerify_eq_ok.mpr ⟨rfl,hsig,sampleCall_brief hv,_,[],_,rfl,hw,by simp⟩
  exact ⟨env,_,hok,openAndVerify_oneCandidate_iff hok,
    [],deviceOf sampleRecipient,_,rfl,⟨v,hv⟩,⟨w,hw⟩,by simp⟩

/-- When the enclosure is for the second device only, the result names the first device, whose
keys do not open the enclosure at all. -/
theorem openAndVerify_mixes_candidates : ∃ env r,
    openAndVerify Sample.crypto Sample.runtime (sampleCall env) = .ok r ∧
    ¬ OneCandidate Sample.crypto Sample.runtime (sampleCall env) r ∧
    ∀ u, enclosureWith Sample.crypto .x25519 env r.candidate ≠ .ok u := by
  obtain ⟨env,v,w,hsig,hv,hw,hnone⟩ := split_envelope usable_other
  have hne : (deviceOf sampleRecipient).keyId ≠ otherRecipient.keyId := by decide +kernel
  have hok : openAndVerify Sample.crypto Sample.runtime (sampleCall env) =
      .ok ⟨List.replicate 32 7,deviceOf sampleRecipient,v,w⟩ := by
    refine openAndVerify_eq_ok.mpr ⟨rfl,hsig,sampleCall_brief hv,deviceOf otherRecipient,
      [deviceOf sampleRecipient],[],rfl,hw,fun b hb u => ?_⟩
    obtain rfl := List.mem_singleton.mp hb
    exact hnone _ hne u
  refine ⟨env,_,hok,fun hone => ?_,hnone _ hne⟩
  obtain ⟨-,-,-,hopen,-⟩ := openEnclosureAny_eq_ok.mp hone.enclosure
  exact hnone _ hne w hopen

end Semp.OpenVerified
