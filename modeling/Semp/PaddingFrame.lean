import Semp.PaddingLanding

/-! What padding leaves alone.  A run edits the padding before the steps that can fail and
puts back only the proofs, and the padding is part of what the proofs are computed of:
when the rest of the envelope is as it was before, and when the proofs still hold. -/
namespace Semp
namespace Padding

open Envelope JsonText JsonSize

section Throw
variable {cfg : PadConfig} {env env' : Env} {b d : Number} {p : JsString}
  {rand : ℕ → Number → Js Bytes}

theorem withPadding_eq_self : withPadding env p = env ↔ env.padding = some p := by
  cases env
  simp only [withPadding,Env.mk.injEq,true_and]
  exact eq_comm

theorem Positive.toNat_pos (h : Positive d) : 0 < d.toNat := by
  obtain ⟨hfin,z,hz⟩ := Number.toRat_of_isInteger h.isInteger
  have hzero := Number.isFinite_ofNat (show 0 < 2^53 by norm_num)
  have hnonneg := h.nonneg
  have hne := h.ne_zero
  rw [Number.lt_fin hfin hzero,Number.toRat_ofNat (by norm_num),hz,
    decide_eq_false_iff_not] at hnonneg
  rw [Number.eq_fin hfin hzero,Number.toRat_ofNat (by norm_num),hz,
    decide_eq_false_iff_not] at hne
  have h0 : 0 ≤ z := by exact_mod_cast not_lt.mp hnonneg
  have h1 : z ≠ 0 := by exact_mod_cast hne
  rw [Number.toNat,hz,Int.floor_intCast]
  omega

/-- Up to three characters come out as asked for, whatever the source gives. -/
theorem length_buildPaddingValue_short (hd : Positive d) (h4 : d.toNat < 4)
    (h : buildPaddingValue d rand = .ok p) : p.length = d.toNat := by
  have hk : d.toNat/4*3 = 0 := by omega
  have hmod : d.toNat%4 = d.toNat := by omega
  rw [buildPaddingValue_eq hd,hk,hmod,encodedPart,if_neg (lt_irrefl 0)] at h
  obtain ⟨encoded,hencoded,h⟩ := Semp.bind_eq_ok.mp h
  obtain ⟨filler,hfiller,h⟩ := Semp.bind_eq_ok.mp h
  cases hencoded
  cases h
  rw [fillerPart,if_pos hd.toNat_pos] at hfiller
  cases hr : rand 0 (.ofNat d.toNat) with
  | error e => simp [hr,Except.map] at hfiller
  | ok seed =>
    obtain rfl : fillerChars seed d.toNat = filler := by simpa [hr,Except.map] using hfiller
    exact length_fillerChars seed _

theorem nil_of_not_positive (hd : ¬Positive d) (h : buildPaddingValue d rand = .ok p) :
    p = [] := by
  obtain ⟨hint,hneg⟩ := isInteger_of_buildPaddingValue h
  have hzero : d.eq (.ofNat 0) = true := by
    by_contra hne
    exact hd ⟨hint,hneg,Bool.eq_false_iff.mpr hne⟩
  rw [buildPaddingValue,if_neg (by simp [hint,hneg]),if_pos hzero] at h
  exact (Except.ok.inj h).symm

/-- A random source that throws. -/
def mute : ℕ → Number → Js Bytes := fun _ _ => raise (js "no randomness")

theorem buildPaddingValue_mute (h : buildPaddingValue d mute = .ok p) : p = [] := by
  have hencoded {n : ℕ} {e : JsString} (h : encodedPart n mute = .ok e) : e = [] := by
    unfold encodedPart at h
    split_ifs at h
    · cases h
    · cases h
      rfl
  have hfiller {n k : ℕ} {f : JsString} (h : fillerPart n k mute = .ok f) : f = [] := by
    unfold fillerPart at h
    by_cases hk : 0 < k
    · rw [if_pos hk] at h
      cases h
    · rw [if_neg hk] at h
      cases h
      rfl
  unfold buildPaddingValue at h
  split_ifs at h
  · cases h
  · cases h
    rfl
  · obtain ⟨e,he,h⟩ := Semp.bind_eq_ok.mp h
    obtain ⟨f,hf,h⟩ := Semp.bind_eq_ok.mp h
    cases h
    rw [hencoded he,hfiller hf]
    rfl

/-- A random source that gives `3*k` bytes for the bulk, however many it is asked for. -/
def crooked (k : ℕ) : ℕ → Number → Js Bytes := fun i n =>
  .ok (List.replicate (if i = 0 then 3*k else n.toNat) 0)

theorem buildPaddingValue_crooked (hd : Positive d) (h4 : 4 ≤ d.toNat) (k : ℕ) :
    ∃ p, buildPaddingValue d (crooked k) = .ok p ∧ p.length = 4*k+d.toNat%4 := by
  refine ⟨_,buildPaddingValue_long hd h4 rfl rfl,?_⟩
  rw [List.length_append,Base64.length_encode,length_fillerChars,List.length_replicate,if_pos rfl]
  omega

/-- Either no run throws after its first edit or such a run leaves the padding as it was:
the configuration is refused before, or the envelope is on its bucket without padding, or
it has the empty padding and takes no filler but one of three characters at most. -/
def KeepsOnThrow (cfg : PadConfig) (env : Env) : Prop :=
  (∃ e, checkSequence cfg.ceiling cfg.bucketSequence = .error e) ∨
  Picks cfg env (.ofNat (unpaddedSize env)) ∨
  env.padding = some [] ∧ ∀ b, Picks cfg env b → Positive (b.sub (.ofNat (unpaddedSize env))) →
    ∃ t ≤ 3, unpaddedSize env+t ≤ maxTextBytes ∧ b = .ofNat (unpaddedSize env+t)

theorem Picks.unique {b b' : Number} (h : Picks cfg env b) (h' : Picks cfg env b') : b = b' :=
  Except.ok.inj (h.picked.symm.trans h'.picked)

theorem Picks.withRand (h : Picks cfg env b) : Picks (cfg.withRand rand) env b :=
  ⟨h.measured,h.picked⟩

theorem Picks.of_withRand (h : Picks (cfg.withRand rand) env b) : Picks cfg env b :=
  ⟨h.measured,h.picked⟩

/-- Without a sequence of its own, a configuration has the buckets of the curve. -/
theorem picks_curve {cfg : PadConfig} (h : cfg.bucketSequence = none) : Picks cfg env b ↔
    unpaddedSize env ≤ maxTextBytes ∧
      selectSizeBucket (.ofNat (unpaddedSize env)) (some cfg.ceiling) = .ok b := by
  constructor
  · intro hpick
    have hpicked := hpick.picked
    rw [h] at hpicked
    exact ⟨hpick.measured,hpicked⟩
  · rintro ⟨hfits,hpicked⟩
    exact ⟨hfits,by rw [h]; exact hpicked⟩

theorem sub_ofNat_add {n t : ℕ} (h : n+t ≤ maxTextBytes) :
    (Number.ofNat (n+t)).sub (.ofNat n) = .ofNat t := by
  rw [Number.sub_ofNat (by omega) (lt_of_maxTextBytes h),Nat.add_sub_cancel_left]

theorem unchanged_of_keepsOnThrow (hkeeps : KeepsOnThrow cfg env) {e : Thrown}
    (h : (fillPadding (cfg.withRand rand)).call env = (.error e,env')) : env' = env := by
  have hout := fillPadding_outcome (cfg.withRand rand) env
  rw [h] at hout
  cases hout with
  | refused _ => rfl
  | unfilled hcheck hno =>
    obtain ⟨e,he⟩ | hpick | ⟨hpad,-⟩ := hkeeps
    · cases hcheck.symm.trans he
    · exact absurd rfl (hno _ hpick.withRand).1
    · exact withPadding_eq_self.mpr hpad
  | @missed b p e hcheck hpick hne hbuild hmiss =>
    obtain ⟨e,he⟩ | hself | ⟨hpad,hshort⟩ := hkeeps
    · cases hcheck.symm.trans he
    · exact absurd (hpick.of_withRand.unique hself) hne
    by_cases hpos : Positive (b.sub (.ofNat (unpaddedSize env)))
    · obtain ⟨t,ht,hfits,rfl⟩ := hshort _ hpick.of_withRand hpos
      have hsub := sub_ofNat_add hfits
      have htoNat := Number.toNat_ofNat (show t < 2^53 by omega)
      have hlen := length_buildPaddingValue_short hpos (by rw [hsub,htoNat]; omega) hbuild
      rw [hsub,htoNat] at hlen
      exact absurd ⟨hlen.symm ▸ hfits,by rw [hlen]⟩ hmiss
    · rw [nil_of_not_positive hpos hbuild]
      exact withPadding_eq_self.mpr hpad

/-- What is built and changes the padding has to land, or the run throws after it. -/
theorem lands_of_unchanged (hkeeps : ∀ rand e env',
      (fillPadding (cfg.withRand rand)).call env = (.error e,env') → env' = env)
    (hcheck : checkSequence cfg.ceiling cfg.bucketSequence = .ok ()) (hpick : Picks cfg env b)
    (hne : b ≠ .ofNat (unpaddedSize env))
    (hbuild : buildPaddingValue (b.sub (.ofNat (unpaddedSize env))) rand = .ok p)
    (hp : env.padding ≠ some p) :
    unpaddedSize env+p.length ≤ maxTextBytes ∧ b = .ofNat (unpaddedSize env+p.length) := by
  have hout := fillPadding_outcome (cfg.withRand rand) env
  generalize hcall : (fillPadding (cfg.withRand rand)).call env = r at hout
  cases hout with
  | refused h => cases hcheck.symm.trans h
  | unfilled _ hno => exact absurd hbuild ((hno b hpick.withRand).2 p)
  | onBucket _ h => exact absurd (hpick.unique h.of_withRand) hne
  | landed _ h _ hbuild' hfits hlands =>
    obtain rfl := hpick.unique h.of_withRand
    obtain rfl := Except.ok.inj (hbuild.symm.trans hbuild')
    exact ⟨hfits,hlands⟩
  | missed _ h _ hbuild' _ =>
    obtain rfl := hpick.unique h.of_withRand
    obtain rfl := Except.ok.inj (hbuild.symm.trans hbuild')
    exact absurd (withPadding_eq_self.mp (hkeeps rand _ _ hcall)) hp

theorem positive_ne (hpick : Picks cfg env b)
    (hpos : Positive (b.sub (.ofNat (unpaddedSize env)))) : b ≠ .ofNat (unpaddedSize env) := by
  rintro rfl
  have hsub := sub_ofNat_add (n := unpaddedSize env) (t := 0) hpick.measured
  rw [Nat.add_zero] at hsub
  have hne := hpos.ne_zero
  rw [hsub,Number.eq_ofNat (by norm_num) (by norm_num)] at hne
  cases hne

theorem keepsOnThrow_of_unchanged (hkeeps : ∀ rand e env',
      (fillPadding (cfg.withRand rand)).call env = (.error e,env') → env' = env) :
    KeepsOnThrow cfg env := by
  cases hcheck : checkSequence cfg.ceiling cfg.bucketSequence with
  | error e => exact .inl ⟨e,hcheck⟩
  | ok u =>
    by_cases hself : Picks cfg env (.ofNat (unpaddedSize env))
    · exact .inr (.inl hself)
    -- a source that throws leaves the empty padding behind
    have hpad : env.padding = some [] := by
      have hout := fillPadding_outcome (cfg.withRand mute) env
      generalize hcall : (fillPadding (cfg.withRand mute)).call env = r at hout
      cases hout with
      | refused h => cases hcheck.symm.trans h
      | unfilled _ _ => exact withPadding_eq_self.mp (hkeeps _ _ _ hcall)
      | onBucket _ h => exact absurd h.of_withRand hself
      | landed _ _ hne hbuild _ hlands =>
        rw [buildPaddingValue_mute hbuild,List.length_nil,Nat.add_zero] at hlands
        exact absurd hlands hne
      | missed _ _ _ hbuild _ =>
        rw [buildPaddingValue_mute hbuild] at hcall
        exact withPadding_eq_self.mp (hkeeps _ _ _ hcall)
    refine .inr (.inr ⟨hpad,fun b hpick hpos => ?_⟩)
    have hne := positive_ne hpick hpos
    have hlands {rand : ℕ → Number → Js Bytes} {p : JsString}
        (hbuild : buildPaddingValue (b.sub (.ofNat (unpaddedSize env))) rand = .ok p)
        (hlen : 0 < p.length) := lands_of_unchanged hkeeps hcheck hpick hne hbuild (by
      rw [hpad]
      rintro ⟨⟩
      exact absurd hlen (lt_irrefl 0))
    by_cases h4 : 4 ≤ (b.sub (.ofNat (unpaddedSize env))).toNat
    · -- two fillers of different lengths cannot both land
      obtain ⟨p,hbuild,hlen⟩ := buildPaddingValue_crooked hpos h4 1
      obtain ⟨q,hbuild',hlen'⟩ := buildPaddingValue_crooked hpos h4 2
      obtain ⟨hfits,hp⟩ := hlands hbuild (by omega)
      obtain ⟨hfits',hq⟩ := hlands hbuild' (by omega)
      have heq := congrArg Number.toNat (hp.symm.trans hq)
      rw [Number.toNat_ofNat (lt_of_maxTextBytes hfits),
        Number.toNat_ofNat (lt_of_maxTextBytes hfits')] at heq
      omega
    · have hshort : buildPaddingValue (b.sub (.ofNat (unpaddedSize env))) (steady 0) = .ok _ :=
        buildPaddingValue_short hpos hpos.toNat_pos (not_le.mp h4) rfl
      obtain ⟨hfits,hb⟩ := hlands hshort (by rw [length_fillerChars]; exact hpos.toNat_pos)
      rw [length_fillerChars] at hfits hb
      exact ⟨_,by omega,hfits,hb⟩

theorem throws_iff (cfg : PadConfig) (env : Env) :
    (∀ rand e env', (fillPadding (cfg.withRand rand)).call env = (.error e,env') → env' = env) ↔
      KeepsOnThrow cfg env :=
  ⟨keepsOnThrow_of_unchanged,fun h _ _ _ hcall => unchanged_of_keepsOnThrow h hcall⟩

end Throw

/-! The padding is covered by the proofs. -/
section Signed
variable {cfg : PadConfig} {env env' : Env} {p : JsString}

theorem toJson_withPadding (env : Env) (p : JsString) : ∃ ms, env.toJson = .obj ms ∧
    (withPadding env p).toJson = .obj (assign ms (js "padding") (.str p)) ∧
    lookup ms (js "seal") = some (.obj env.sealed.members) ∧
    lookup ms (js "padding") = env.padding.map .str := by
  refine ⟨_,rfl,?_⟩
  obtain ⟨postmark,sealed,brief,enclosure,extensions,padding⟩ := env
  cases extensions <;> cases padding <;> exact ⟨rfl,rfl,rfl⟩

theorem wf_withPadding (hwf : env.toJson.WF) (p : JsString) : (withPadding env p).toJson.WF := by
  obtain ⟨ms,hms,hpadded,-⟩ := toJson_withPadding env p
  rw [hms] at hwf
  rw [hpadded]
  exact Json.wf_assign hwf (Json.wf_str p) _

/-- Envelopes with the same canonical bytes have the same padding. -/
theorem padding_of_envelopeBytes (hwf : env.toJson.WF)
    (h : envelopeBytes (withPadding env p).toJson = envelopeBytes env.toJson) :
    env.padding = some p := by
  have hne : js "padding" ≠ js "seal" := by decide
  obtain ⟨ms,hms,hpadded,hseal,hpad⟩ := toJson_withPadding env p
  have hwf' := wf_withPadding hwf p
  rw [hms] at h hwf
  rw [hpadded] at h hwf'
  have hseal' : lookup (assign ms (js "padding") (.str p)) (js "seal") =
      some (.obj env.sealed.members) := by
    rw [lookup_assign_ne _ hne.symm,hseal]
  have helided := envelopeElider_wf hwf
  have helided' := envelopeElider_wf hwf'
  rw [envelopeBytes_eq,envelopeBytes_eq,Canonical.canonicalBytes_inj helided' helided] at h
  rw [envelopeElider_sealed hseal] at h helided
  rw [envelopeElider_sealed hseal'] at h helided'
  have hk := (Json.norm_obj_eq_iff helided' helided).mp h (js "padding")
  rw [lookup_assign_ne _ hne,lookup_assign_ne _ hne,lookup_assign_self,hpad] at hk
  cases hold : env.padding with
  | none => simp [hold] at hk
  | some q =>
    rw [hold] at hk
    simp only [Option.map_some,Option.some.injEq] at hk
    exact congrArg some (Json.str.inj (Json.norm_eq_str.mp hk.symm))

variable (C : Crypto)

/-- What is relied on of the proofs the envelope carries: the signature is one of a single
message, and no other message has the MAC of these bytes. -/
structure Binding (env : Env) (senderPub kEnvMAC : Bytes) : Prop where
  signature : ∀ m m', verify C senderPub (Base64.decode env.sealed.signature) m = true →
    verify C senderPub (Base64.decode env.sealed.signature) m' = true → m = m'
  sessionMac : ∀ m, computeMAC C kEnvMAC m = computeMAC C kEnvMAC (envelopeBytes env.toJson) →
    m = envelopeBytes env.toJson

variable {C} {senderPub kEnvMAC : Bytes}

theorem verifySealSignature_eq (hwf : env.toJson.WF) :
    verifySealSignature C env senderPub = .ok true ↔ env.sealed.signature ≠ [] ∧
      verify C senderPub (Base64.decode env.sealed.signature)
        (utf8 envelopePrefix++envelopeBytes env.toJson) = true := by
  rw [verifySealSignature]
  split_ifs with h
  · simp [h]
  · simp [canonicalEnvelopeFor_eq hwf,h]

theorem verifySessionMAC_eq (hwf : env.toJson.WF) :
    verifySessionMAC C env kEnvMAC = .ok true ↔ env.sealed.sessionMac ≠ [] ∧
      Base64.decode env.sealed.sessionMac = computeMAC C kEnvMAC (envelopeBytes env.toJson) := by
  rw [verifySessionMAC]
  split_ifs with h
  · simp [h]
  · simp [canonicalEnvelopeFor_eq hwf,h]

theorem padding_of_verifySealSignature (hwf : env.toJson.WF)
    (hbind : Binding C env senderPub kEnvMAC)
    (hbefore : verifySealSignature C env senderPub = .ok true)
    (hafter : verifySealSignature C (withPadding env p) senderPub = .ok true) :
    env.padding = some p := by
  obtain ⟨-,hm⟩ := (verifySealSignature_eq hwf).mp hbefore
  obtain ⟨-,hm'⟩ := (verifySealSignature_eq (wf_withPadding hwf p)).mp hafter
  exact padding_of_envelopeBytes hwf (List.append_cancel_left (hbind.signature _ _ hm' hm))

theorem padding_of_verifySessionMAC (hwf : env.toJson.WF)
    (hbind : Binding C env senderPub kEnvMAC)
    (hbefore : verifySessionMAC C env kEnvMAC = .ok true)
    (hafter : verifySessionMAC C (withPadding env p) kEnvMAC = .ok true) :
    env.padding = some p := by
  obtain ⟨-,hm⟩ := (verifySessionMAC_eq hwf).mp hbefore
  obtain ⟨-,hm'⟩ := (verifySessionMAC_eq (wf_withPadding hwf p)).mp hafter
  exact padding_of_envelopeBytes hwf (hbind.sessionMac _ (hm'.symm.trans hm))

/-- No run returns with another padding: a bucket that is picked and that a text can have is
the size of the envelope with the empty padding it has. -/
def KeepsProofs (cfg : PadConfig) (env : Env) : Prop :=
  ∀ t, checkSequence cfg.ceiling cfg.bucketSequence = .ok () →
    unpaddedSize env+t ≤ maxTextBytes → Picks cfg env (.ofNat (unpaddedSize env+t)) →
      t = 0 ∧ env.padding = some []

/-- What tells one padding from another survives exactly the runs that keep the padding. -/
theorem returns_iff {V : Env → Prop} (hbefore : V env)
    (hpadding : ∀ p, V (withPadding env p) → env.padding = some p) :
    (∀ rand b env', (fillPadding (cfg.withRand rand)).call env = (.ok b,env') → V env') ↔
      KeepsProofs cfg env := by
  constructor
  · intro hall t hcheck hfits hpick
    obtain ⟨p,hrun,hlen,hhead⟩ := fillPadding_steady
      (show (0 : UInt8).toNat/4 = (0 : UInt8).toNat%64 from rfl) hcheck hfits hpick
    obtain ⟨q,hrun',-,hhead'⟩ := fillPadding_steady
      (show (255 : UInt8).toNat/4 = (255 : UInt8).toNat%64 from rfl) hcheck hfits hpick
    have hp := hpadding p (hall _ _ _ hrun)
    have hq := hpadding q (hall _ _ _ hrun')
    obtain rfl : p = q := Option.some.inj (hp.symm.trans hq)
    obtain rfl | hpos := Nat.eq_zero_or_pos t
    · exact ⟨rfl,by rw [hp,List.length_eq_zero_iff.mp hlen]⟩
    · have hsame := (hhead hpos).symm.trans (hhead' hpos)
      exact absurd hsame (by decide)
  · intro hkeeps rand b env' hrun
    obtain ⟨p,rfl,hlanded⟩ := fillPadding_eq_ok hrun
    have hpick := hlanded.picks.of_withRand
    rw [hlanded.lands] at hpick
    obtain ⟨h0,hpad⟩ := hkeeps _ hlanded.checked hlanded.fits hpick
    rw [List.length_eq_zero_iff.mp h0,withPadding_eq_self.mpr hpad]
    exact hbefore

/-- Padding leaves the rest alone, whatever the random source gives: when a run that throws
leaves the envelope as it was, and when the proofs of a signed envelope still hold. -/
theorem fillPadding_frame_iff (cfg : PadConfig) (env : Env) (hwf : env.toJson.WF)
    (hbind : Binding C env senderPub kEnvMAC) :
    ((∀ rand e env', (fillPadding (cfg.withRand rand)).call env = (.error e,env') → env' = env) ↔
      KeepsOnThrow cfg env) ∧
    (verifySealSignature C env senderPub = .ok true →
      ((∀ rand b env', (fillPadding (cfg.withRand rand)).call env = (.ok b,env') →
        verifySealSignature C env' senderPub = .ok true) ↔ KeepsProofs cfg env)) ∧
    (verifySessionMAC C env kEnvMAC = .ok true →
      ((∀ rand b env', (fillPadding (cfg.withRand rand)).call env = (.ok b,env') →
        verifySessionMAC C env' kEnvMAC = .ok true) ↔ KeepsProofs cfg env)) := by
  refine ⟨throws_iff cfg env,fun hsig => ?_,fun hmac => ?_⟩
  · exact returns_iff hsig fun p => padding_of_verifySealSignature hwf hbind hsig
  · exact returns_iff hmac fun p => padding_of_verifySessionMAC hwf hbind hmac

end Signed

/-! A signed envelope without padding, and one that has padding and is over the ceiling. -/
section Sample

def signedEnv : Env := sampleEnv (Base64.encode (List.replicate 64 1))
  (Base64.encode (List.replicate 32 1)) (some [])

/-- The proofs of the signed envelope hold for its bytes and for no others. -/
def signedCrypto : Crypto :=
  { Sample.crypto with
    ed25519Verify := fun sig message _ => .ok (sig == List.replicate 64 1 &&
      message == utf8 envelopePrefix++envelopeBytes signedEnv.toJson)
    hmacSha256 := fun _ message =>
      if message = envelopeBytes signedEnv.toJson then ⟨List.replicate 32 1,rfl⟩
      else ⟨List.replicate 32 0,rfl⟩ }

def noLimits : PadConfig := ⟨none,none,steady 0⟩

theorem wf_signedEnv : signedEnv.toJson.WF := by
  have hseal : (Json.obj signedEnv.sealed.members).WF :=
    Json.wf_of_keys [js "algorithm",js "key_id",js "signature",js "session_mac",
      js "brief_recipients",js "enclosure_recipients"] rfl (by decide)
      (by simp [signedEnv,sampleEnv,SealFields.members,recipientsJson,Envelope.optional,
        Json.wf_obj,keys])
  have hpostmark : signedEnv.postmark.toJson.WF :=
    Json.wf_of_keys [js "id",js "session_id",js "from_domain",js "to_domain",js "expires"] rfl
      (by decide) (by simp [signedEnv,sampleEnv,Envelope.optional])
  refine Json.wf_of_keys [js "type",js "version",js "postmark",js "seal",js "brief",
    js "enclosure",js "padding"] rfl (by decide) ?_
  simp only [signedEnv,sampleEnv,Envelope.optional,Option.map_some,Option.map_none]
  simp [Json.wf_str]
  exact ⟨hpostmark,hseal⟩

theorem binding_signedEnv :
    Binding signedCrypto signedEnv (List.replicate 32 7) (List.replicate 32 9) where
  signature := by
    have hone (m : Bytes) (h : verify signedCrypto (List.replicate 32 7)
        (Base64.decode signedEnv.sealed.signature) m = true) :
        m = utf8 envelopePrefix++envelopeBytes signedEnv.toJson := by
      unfold verify at h
      split_ifs at h
      exact eq_of_beq (Bool.and_eq_true_iff.mp h).2
    intro m m' h h'
    exact (hone m h).trans (hone m' h').symm
  sessionMac := by
    intro m h
    by_contra hne
    simp only [computeMAC,signedCrypto,if_neg hne] at h
    exact absurd h (by decide)

theorem verifySealSignature_signedEnv :
    verifySealSignature signedCrypto signedEnv (List.replicate 32 7) = .ok true := by
  refine (verifySealSignature_eq wf_signedEnv).mpr ⟨?_,?_⟩
  · exact fun h => by cases Base64.encode_eq_nil.mp h
  · have hsig : Base64.decode signedEnv.sealed.signature = List.replicate 64 1 :=
      Base64.decode_encode _
    rw [hsig,verify,if_neg (by simp)]
    exact Bool.and_eq_true_iff.mpr ⟨rfl,beq_self_eq_true _⟩

theorem verifySessionMAC_signedEnv :
    verifySessionMAC signedCrypto signedEnv (List.replicate 32 9) = .ok true := by
  refine (verifySessionMAC_eq wf_signedEnv).mpr ⟨?_,?_⟩
  · exact fun h => by cases Base64.encode_eq_nil.mp h
  · have hmac : Base64.decode signedEnv.sealed.sessionMac = List.replicate 32 1 :=
      Base64.decode_encode _
    rw [hmac]
    simp only [computeMAC,signedCrypto,if_true]

/-- The signed envelope, padded without a limit. -/
theorem fillPadding_frame_sample :
    ((∀ rand e env', (fillPadding (noLimits.withRand rand)).call signedEnv = (.error e,env') →
      env' = signedEnv) ↔ KeepsOnThrow noLimits signedEnv) ∧
    ((∀ rand b env', (fillPadding (noLimits.withRand rand)).call signedEnv = (.ok b,env') →
      verifySealSignature signedCrypto env' (List.replicate 32 7) = .ok true) ↔
        KeepsProofs noLimits signedEnv) ∧
    ((∀ rand b env', (fillPadding (noLimits.withRand rand)).call signedEnv = (.ok b,env') →
      verifySessionMAC signedCrypto env' (List.replicate 32 9) = .ok true) ↔
        KeepsProofs noLimits signedEnv) := by
  obtain ⟨hthrow,hsig,hmac⟩ := fillPadding_frame_iff noLimits signedEnv wf_signedEnv
    binding_signedEnv
  exact ⟨hthrow,hsig verifySealSignature_signedEnv,hmac verifySessionMAC_signedEnv⟩

theorem unpaddedSize_signedEnv : unpaddedSize signedEnv = 445 := by decide +kernel

/-- The signed envelope takes a filler. -/
theorem picks_signedEnv : Picks noLimits signedEnv (.ofNat (unpaddedSize signedEnv+3651)) := by
  have hfits : (445 : ℕ) ≤ maxTextBytes := by norm_num [maxTextBytes]
  have hpos : defaultMaxEnvelopeSize.le (.ofNat 0) = false := by
    rw [defaultMaxEnvelopeSize,Number.le_ofNat (by norm_num) (by norm_num)]
    rfl
  have hsize : defaultMaxEnvelopeSize.lt (.ofNat 445) = false := by
    rw [defaultMaxEnvelopeSize,Number.lt_ofNat (by norm_num) (by norm_num)]
    rfl
  have hpicked : selectSizeBucket (.ofNat 445) (some defaultMaxEnvelopeSize) =
      .ok (.ofNat 4096) := by
    refine (selectSizeBucket_eq_ok hfits).mpr ⟨⟨hpos,hsize⟩,?_⟩
    rw [growBucket,minEnvelopeSizeBucket,Number.lt_ofNat (by norm_num) (by norm_num),
      if_neg (by norm_num)]
  have hceil : noLimits.ceiling = defaultMaxEnvelopeSize := by simp [noLimits,PadConfig.ceiling]
  rw [picks_curve rfl,hceil,unpaddedSize_signedEnv]
  exact ⟨hfits,hpicked⟩

def paddedEnv : Env := sampleEnv [] [] (some (js "AAAA"))

def lowCeiling : PadConfig := ⟨some (.ofNat 256),none,steady 0⟩

theorem unpaddedSize_paddedEnv : unpaddedSize paddedEnv = 445 := unpaddedSize_sample

/-- A run that throws leaves the envelope without the padding it had. -/
theorem not_keepsOnThrow : ¬KeepsOnThrow lowCeiling paddedEnv := by
  rintro (⟨e,he⟩ | hpick | ⟨hpad,-⟩)
  · cases he
  · have hceil : lowCeiling.ceiling = .ofNat 256 := by simp [lowCeiling,PadConfig.ceiling]
    obtain ⟨hfits,hpicked⟩ := (picks_curve rfl).mp hpick
    rw [hceil,unpaddedSize_paddedEnv] at hpicked
    obtain ⟨⟨-,hsize⟩,-⟩ := (selectSizeBucket_eq_ok (unpaddedSize_paddedEnv ▸ hfits)).mp hpicked
    rw [Number.lt_ofNat (by norm_num) (by norm_num)] at hsize
    cases hsize
  · cases hpad

/-- A run that throws can change the envelope, and one that returns the bytes it was signed for. -/
theorem not_frame : (¬∀ cfg env e env', (fillPadding cfg).call env = (.error e,env') → env' = env) ∧
    ¬∀ C cfg env b env' senderPub, (fillPadding cfg).call env = (.ok b,env') →
      verifySealSignature C env senderPub = .ok true →
        verifySealSignature C env' senderPub = .ok true := by
  constructor
  · intro hall
    exact not_keepsOnThrow (keepsOnThrow_of_unchanged fun rand e env' h => hall _ _ e env' h)
  · intro hall
    have hkeeps : KeepsProofs noLimits signedEnv := (returns_iff verifySealSignature_signedEnv
      fun p => padding_of_verifySealSignature wf_signedEnv binding_signedEnv
        verifySealSignature_signedEnv).mp fun rand b env' h =>
          hall signedCrypto _ _ b env' _ h verifySealSignature_signedEnv
    have hfits : unpaddedSize signedEnv+3651 ≤ maxTextBytes := by
      rw [unpaddedSize_signedEnv]
      norm_num [maxTextBytes]
    exact absurd (hkeeps 3651 rfl hfits picks_signedEnv).1 (by norm_num)

end Sample

end Padding
end Semp
