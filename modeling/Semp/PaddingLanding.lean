import Semp.NumberGrowth
import Semp.Padding

/-! Where padding lands.  A run that returns has brought the envelope onto the bucket it
picked, and signing keeps it there; the bucket is at most the ceiling when the first
bucket of the curve is, and when the sequence of the configuration stays below it. -/
namespace Semp
namespace Padding

open Envelope JsonText JsonSize

section Run
variable {cfg : PadConfig} {env env' : Env} {b : Number} {p : JsString}

theorem wireSize_pos (env : Env) : 0 < wireSize env := by
  rw [wireSize,Env.toJson,jsonSize_obj (by simp)]
  omega

@[simp] theorem call_measure (env : Env) :
    measure.call env = (utf8ByteLength (stringify env.toJson),env) := by
  rw [measure,Method.get_bind,Method.call_lift]

theorem utf8ByteLength_of_le (h : wireSize env ≤ maxTextBytes) :
    utf8ByteLength (stringify env.toJson) = .ok (.ofNat (wireSize env)) := if_pos h

theorem utf8ByteLength_of_lt (h : maxTextBytes < wireSize env) :
    utf8ByteLength (stringify env.toJson) = .error (.engine .rangeError) :=
  if_neg (not_le.mpr h)

/-- The size that is padded: with placeholders for missing proofs and without padding. -/
def unpaddedSize (env : Env) : ℕ := wireSize (withPadding (withPlaceholders env) [])

theorem wireSize_padded (env : Env) (hp : ∀ u ∈ p, isPlain u) :
    wireSize (withPadding (withPlaceholders env) p) = unpaddedSize env+p.length :=
  wireSize_withPadding _ hp

theorem lt_of_maxTextBytes {n : ℕ} (h : n ≤ maxTextBytes) : n < 2^53 :=
  h.trans_lt (by norm_num [maxTextBytes])

theorem call_fillPadding_refused {e : Thrown}
    (h : checkSequence cfg.ceiling cfg.bucketSequence = .error e) :
    (fillPadding cfg).call env = (.error e,env) := by
  rw [fillPadding,Method.call_bind,Method.call_lift,h]

theorem call_fillPadding (h : checkSequence cfg.ceiling cfg.bucketSequence = .ok ()) :
    (fillPadding cfg).call env = (((padToBucket cfg).call (withPlaceholders env)).1,
      restoreProofs env ((padToBucket cfg).call (withPlaceholders env)).2) := by
  rw [fillPadding,Method.call_bind,Method.call_lift,h]
  rfl

/-- The proofs are put back as they were. -/
theorem restoreProofs_withPadding (env : Env) (p : JsString) :
    restoreProofs env (withPadding (withPlaceholders env) p) = withPadding env p := by
  have hslot (given filled : JsString) :
      (if given = [] then [] else if given = [] then filled else given) = given := by
    split_ifs with h
    · exact h.symm
    · rfl
  simp only [restoreProofs,withPadding,withPlaceholders,fillProofs,hslot]

/-- The final assertion holds or fails. -/
theorem call_assertLanded (env : Env) (b : Number) :
    wireSize env ≤ maxTextBytes ∧ b = .ofNat (wireSize env) ∧
      (assertLanded b).call env = (.ok b,env) ∨
    ¬(wireSize env ≤ maxTextBytes ∧ b = .ofNat (wireSize env)) ∧
      ∃ e, (assertLanded b).call env = (.error e,env) := by
  rw [assertLanded,Method.call_bind,call_measure]
  obtain h | h := le_or_gt (wireSize env) maxTextBytes
  · rw [utf8ByteLength_of_le h]
    dsimp only
    have hiff := Number.eq_ofNat_iff (x := b) (lt_of_maxTextBytes h) (wireSize_pos env)
    split_ifs with heq
    · exact .inl ⟨h,hiff.mp heq,rfl⟩
    · exact .inr ⟨fun hb => heq (hiff.mpr hb.2),_,rfl⟩
  · rw [utf8ByteLength_of_lt h]
    exact .inr ⟨fun hb => absurd hb.1 (not_le.mpr h),_,rfl⟩

/-- The bucket for the size of the envelope. -/
structure Picks (cfg : PadConfig) (env : Env) (b : Number) : Prop where
  measured : unpaddedSize env ≤ maxTextBytes
  picked : pickBucket (.ofNat (unpaddedSize env)) cfg.ceiling cfg.bucketSequence = .ok b

/-- What a run can do: refuse the configuration, give up before there is a filler, find the
envelope on its bucket, or fill it up and either land on the bucket or miss it. -/
inductive Outcome (cfg : PadConfig) (env : Env) : Js Number × Env → Prop
  | refused {e : Thrown} (h : checkSequence cfg.ceiling cfg.bucketSequence = .error e) :
    Outcome cfg env (.error e,env)
  | unfilled {e : Thrown} (h : checkSequence cfg.ceiling cfg.bucketSequence = .ok ())
    (hno : ∀ b, Picks cfg env b → b ≠ .ofNat (unpaddedSize env) ∧
      ∀ p, buildPaddingValue (b.sub (.ofNat (unpaddedSize env))) cfg.rand ≠ .ok p) :
    Outcome cfg env (.error e,withPadding env [])
  | onBucket (h : checkSequence cfg.ceiling cfg.bucketSequence = .ok ())
    (hpick : Picks cfg env (.ofNat (unpaddedSize env))) :
    Outcome cfg env (.ok (.ofNat (unpaddedSize env)),withPadding env [])
  | landed {b : Number} {p : JsString}
    (h : checkSequence cfg.ceiling cfg.bucketSequence = .ok ()) (hpick : Picks cfg env b)
    (hne : b ≠ .ofNat (unpaddedSize env))
    (hbuild : buildPaddingValue (b.sub (.ofNat (unpaddedSize env))) cfg.rand = .ok p)
    (hfits : unpaddedSize env+p.length ≤ maxTextBytes)
    (hlands : b = .ofNat (unpaddedSize env+p.length)) : Outcome cfg env (.ok b,withPadding env p)
  | missed {b : Number} {p : JsString} {e : Thrown}
    (h : checkSequence cfg.ceiling cfg.bucketSequence = .ok ()) (hpick : Picks cfg env b)
    (hne : b ≠ .ofNat (unpaddedSize env))
    (hbuild : buildPaddingValue (b.sub (.ofNat (unpaddedSize env))) cfg.rand = .ok p)
    (hmiss : ¬(unpaddedSize env+p.length ≤ maxTextBytes ∧
      b = .ofNat (unpaddedSize env+p.length))) : Outcome cfg env (.error e,withPadding env p)

/-- Either a bucket is picked or the run gives up. -/
theorem call_padToBucket (cfg : PadConfig) (env : Env) :
    (∃ b, Picks cfg env b ∧ (padToBucket cfg).call (withPlaceholders env) =
      (landOn cfg.rand (.ofNat (unpaddedSize env)) b).call
        (withPadding (withPlaceholders env) [])) ∨
    (∀ b, ¬Picks cfg env b) ∧ ∃ e, (padToBucket cfg).call (withPlaceholders env) =
      (.error e,withPadding (withPlaceholders env) []) := by
  rw [padToBucket,Method.modify_bind,Method.call_bind,call_measure]
  obtain hfits | hlong := le_or_gt (unpaddedSize env) maxTextBytes
  · have hsize : utf8ByteLength (stringify (withPadding (withPlaceholders env) []).toJson) =
        .ok (.ofNat (unpaddedSize env)) := utf8ByteLength_of_le hfits
    rw [hsize]
    dsimp only
    rw [Method.call_bind,Method.call_lift]
    cases hpick : pickBucket (.ofNat (unpaddedSize env)) cfg.ceiling cfg.bucketSequence with
    | error e =>
      refine .inr ⟨fun b hb => ?_,e,rfl⟩
      rw [hb.picked] at hpick
      cases hpick
    | ok b => exact .inl ⟨b,⟨hfits,hpick⟩,rfl⟩
  · rw [utf8ByteLength_of_lt hlong]
    exact .inr ⟨fun b hb => absurd hb.measured (not_le.mpr hlong),_,rfl⟩

/-- A target that is negative takes no filler, so the check before says nothing more. -/
theorem call_fillBy (rand : ℕ → Number → Js Bytes) (n b d : Number) (s : Env) :
    (∃ p, buildPaddingValue d rand = .ok p ∧
      (fillBy rand n b d).call s = (assertLanded b).call (withPadding s p)) ∨
    (∀ p, buildPaddingValue d rand ≠ .ok p) ∧ ∃ e, (fillBy rand n b d).call s = (.error e,s) := by
  rw [fillBy]
  split_ifs with hneg
  · refine .inr ⟨fun p hbuild => ?_,_,rfl⟩
    rw [(isInteger_of_buildPaddingValue hbuild).2] at hneg
    cases hneg
  · rw [Method.call_bind,Method.call_lift]
    cases hbuild : buildPaddingValue d rand with
    | error e => exact .inr ⟨nofun,e,rfl⟩
    | ok p => exact .inl ⟨p,rfl,Method.modify_bind _ _ _⟩

theorem fillPadding_outcome (cfg : PadConfig) (env : Env) :
    Outcome cfg env ((fillPadding cfg).call env) := by
  cases hcheck : checkSequence cfg.ceiling cfg.bucketSequence with
  | error e =>
    rw [call_fillPadding_refused hcheck]
    exact .refused hcheck
  | ok u =>
    have hrun {r : Js Number} {p : JsString} (h : (padToBucket cfg).call (withPlaceholders env) =
        (r,withPadding (withPlaceholders env) p)) :
        (fillPadding cfg).call env = (r,withPadding env p) := by
      rw [call_fillPadding hcheck,h,restoreProofs_withPadding]
    obtain ⟨b,hpick,hland⟩ | ⟨hno,e,he⟩ := call_padToBucket cfg env
    · rw [landOn] at hland
      have hiff := Number.eq_ofNat_iff (x := b) (lt_of_maxTextBytes hpick.measured)
        (wireSize_pos _)
      split_ifs at hland with heq
      · obtain rfl := hiff.mp heq
        rw [hrun hland]
        exact .onBucket hcheck hpick
      · have hne : b ≠ .ofNat (unpaddedSize env) := fun hb => heq (hiff.mpr hb)
        obtain ⟨p,hbuild,hfill⟩ | ⟨hno,e,he⟩ := call_fillBy cfg.rand (.ofNat (unpaddedSize env)) b
          (b.sub (.ofNat (unpaddedSize env))) (withPadding (withPlaceholders env) [])
        · have hsize := wireSize_padded env (buildPaddingValue_plain hbuild)
          have hfinal := call_assertLanded (withPadding (withPlaceholders env) p) b
          rw [hsize] at hfinal
          obtain ⟨hfits,hb,hok⟩ | ⟨hmiss,e,he⟩ := hfinal
          · rw [hrun (hland.trans (hfill.trans hok))]
            exact .landed hcheck hpick hne hbuild hfits hb
          · rw [hrun (hland.trans (hfill.trans he))]
            exact .missed hcheck hpick hne hbuild hmiss
        · rw [hrun (hland.trans he)]
          refine .unfilled hcheck fun b' hb' => ?_
          obtain rfl : b = b' := Except.ok.inj (hpick.picked.symm.trans hb'.picked)
          exact ⟨hne,hno⟩
    · rw [hrun he]
      exact .unfilled hcheck fun b hb => absurd hb (hno b)

/-- What a run that returned `b` and left the padding `p` has found. -/
structure Landed (cfg : PadConfig) (env : Env) (b : Number) (p : JsString) : Prop where
  checked : checkSequence cfg.ceiling cfg.bucketSequence = .ok ()
  picks : Picks cfg env b
  plain : ∀ u ∈ p, isPlain u
  fits : unpaddedSize env+p.length ≤ maxTextBytes
  lands : b = .ofNat (unpaddedSize env+p.length)

theorem fillPadding_eq_ok (h : (fillPadding cfg).call env = (.ok b,env')) :
    ∃ p, env' = withPadding env p ∧ Landed cfg env b p := by
  have hout := fillPadding_outcome cfg env
  rw [h] at hout
  cases hout with
  | onBucket hcheck hpick =>
    refine ⟨[],rfl,hcheck,hpick,by simp,?_,?_⟩
    · rw [List.length_nil,Nat.add_zero]
      exact hpick.measured
    · rw [List.length_nil,Nat.add_zero]
  | landed hcheck hpick hne hbuild hfits hlands =>
    exact ⟨_,rfl,hcheck,hpick,buildPaddingValue_plain hbuild,hfits,hlands⟩

/-- A steady source brings the envelope onto any bucket that is picked. -/
theorem fillPadding_steady {byte : UInt8} (hbyte : byte.toNat/4 = byte.toNat%64) {t : ℕ}
    (hcheck : checkSequence cfg.ceiling cfg.bucketSequence = .ok ())
    (hfits : unpaddedSize env+t ≤ maxTextBytes)
    (hpick : Picks cfg env (.ofNat (unpaddedSize env+t))) :
    ∃ p, (fillPadding (cfg.withRand (steady byte))).call env =
        (.ok (.ofNat (unpaddedSize env+t)),withPadding env p) ∧ p.length = t ∧
      (0 < t → p.head? = some (Base64.digit (byte.toNat/4))) := by
  have hb := lt_of_maxTextBytes hfits
  have hown : Picks (cfg.withRand (steady byte)) env (.ofNat (unpaddedSize env+t)) :=
    ⟨hpick.measured,hpick.picked⟩
  have hsub : (Number.ofNat (unpaddedSize env+t)).sub (.ofNat (unpaddedSize env)) = .ofNat t := by
    rw [Number.sub_ofNat (by omega) hb,Nat.add_sub_cancel_left]
  have hsame {b : Number} (h : Picks (cfg.withRand (steady byte)) env b) :
      b = .ofNat (unpaddedSize env+t) := Except.ok.inj (h.picked.symm.trans hown.picked)
  have hpos (h : Number.ofNat (unpaddedSize env+t) ≠ .ofNat (unpaddedSize env)) : 0 < t := by
    refine Nat.pos_of_ne_zero fun h0 => h ?_
    rw [h0,Nat.add_zero]
  have hfill (h : 0 < t) := buildPaddingValue_steady h (by omega) hbyte
  have hout := fillPadding_outcome (cfg.withRand (steady byte)) env
  generalize hcall : (fillPadding (cfg.withRand (steady byte))).call env = r at hout
  cases hout with
  | refused h => cases hcheck.symm.trans h
  | unfilled _ hno =>
    obtain ⟨hne,hno⟩ := hno _ hown
    obtain ⟨p,hbuild,-⟩ := hfill (hpos hne)
    rw [hsub] at hno
    exact absurd hbuild (hno p)
  | onBucket _ h =>
    have heq := hsame h
    have h0 : t = 0 := by
      have hv := congrArg Number.toNat heq
      rw [Number.toNat_ofNat (by omega),Number.toNat_ofNat hb] at hv
      omega
    subst h0
    exact ⟨[],rfl,rfl,fun h => absurd h (lt_irrefl 0)⟩
  | landed _ h hne hbuild _ _ =>
    obtain rfl := hsame h
    obtain ⟨p,hp,hlen,hhead⟩ := hfill (hpos hne)
    rw [hsub] at hbuild
    obtain rfl := Except.ok.inj (hbuild.symm.trans hp)
    exact ⟨_,rfl,hlen,fun _ => hhead⟩
  | missed _ h hne hbuild hmiss =>
    obtain rfl := hsame h
    obtain ⟨p,hp,hlen,-⟩ := hfill (hpos hne)
    rw [hsub] at hbuild
    obtain rfl := Except.ok.inj (hbuild.symm.trans hp)
    exact absurd ⟨hlen.symm ▸ hfits,by rw [hlen]⟩ hmiss

end Run

/-! The buckets. -/
section Buckets
variable {c x y : Number} {n : ℕ}

/-- The loop ends on a power of two that is large enough, or on the ceiling that the next
one is beyond. -/
theorem growBucket_cases (hn : n ≤ maxTextBytes) (fuel : ℕ) {k : ℕ} (hk : k ≤ 52)
    (hfuel : 52 ≤ k+fuel) :
    (∃ j ≤ 52, growBucket (.ofNat n) c fuel (.ofNat (2^k)) = .ofNat (2^j) ∧ n ≤ 2^j ∧
      (j = k ∨ c.lt (.ofNat (2^j)) = false)) ∨
    growBucket (.ofNat n) c fuel (.ofNat (2^k)) = c ∧ ∃ j ≤ 52, c.lt (.ofNat (2^j)) = true := by
  have hpow {j : ℕ} (hj : j ≤ 52) : 2^j < 2^53 := Nat.pow_lt_pow_right (by norm_num) (by omega)
  induction fuel generalizing k with
  | zero =>
    refine .inl ⟨k,hk,rfl,hn.trans ?_,.inl rfl⟩
    rw [maxTextBytes,show k = 52 by omega]
  | succ fuel ih =>
    rw [growBucket,Number.lt_ofNat (hpow hk) (lt_of_maxTextBytes hn)]
    by_cases hlt : 2^k < n
    · have hk' : k+1 ≤ 52 := by
        by_contra hge
        rw [show k = 52 by omega] at hlt
        exact absurd (hlt.trans_le hn) (by norm_num [maxTextBytes])
      have hnext : (Number.ofNat (2^k)).mul (.ofNat 2) = .ofNat (2^(k+1)) := by
        rw [Number.mul_ofNat (hpow hk) (by norm_num) (hpow hk') (by positivity),pow_succ]
      rw [if_pos (decide_eq_true hlt),hnext]
      dsimp only
      split_ifs with hceil
      · exact .inr ⟨rfl,k+1,hk',hceil⟩
      · obtain ⟨j,hj,hr,hnj,hcase⟩ | hr := ih hk' (by omega)
        · refine .inl ⟨j,hj,hr,hnj,.inr ?_⟩
          obtain rfl | h := hcase
          · exact Bool.eq_false_iff.mpr hceil
          · exact h
        · exact .inr hr
    · rw [if_neg (by simpa using hlt)]
      exact .inl ⟨k,hk,rfl,not_lt.mp hlt,.inl rfl⟩

theorem minEnvelopeSizeBucket_eq : minEnvelopeSizeBucket = .ofNat (2^12) := rfl

theorem selectSizeBucket_eq_ok {b : Number} (hn : n ≤ maxTextBytes) :
    selectSizeBucket (.ofNat n) (some c) = .ok b ↔
      (c.le (.ofNat 0) = false ∧ c.lt (.ofNat n) = false) ∧
        growBucket (.ofNat n) c 1012 minEnvelopeSizeBucket = b := by
  have hlt := lt_of_maxTextBytes hn
  have hint : (!(Number.ofNat n).isInteger || (Number.ofNat n).lt (.ofNat 0)) = false := by
    rw [Number.isInteger_ofNat hlt,Number.lt_ofNat hlt (by norm_num)]
    simp
  rw [selectSizeBucket,hint,if_neg Bool.false_ne_true]
  dsimp only [Option.getD_some]
  split_ifs with hpos hsize
  · simp [raise,hpos]
  · simp [raise,hsize]
  · simp [hpos,hsize]

/-- From the first bucket on, no bucket of the curve is beyond the ceiling. -/
theorem growBucket_le (hn : n ≤ maxTextBytes) (hc : minEnvelopeSizeBucket.le c = true) :
    (growBucket (.ofNat n) c 1012 minEnvelopeSizeBucket).le c = true := by
  have hnan := Number.isNaN_right hc
  obtain ⟨j,hj,hr,-,hcase⟩ | ⟨hr,-⟩ := growBucket_cases (c := c) hn 1012 (k := 12)
    (by norm_num) (by norm_num)
  · rw [minEnvelopeSizeBucket_eq,hr]
    obtain rfl | h := hcase
    · exact hc
    · exact Number.of_not_lt (Number.isNaN_of_nat (Nat.pow_lt_pow_right (by norm_num) (by omega))) hnan h
  · rw [minEnvelopeSizeBucket_eq,hr]
    exact Number.self_le hnan

/-- Below the first bucket, the bucket of the curve is beyond the ceiling all the same. -/
theorem growBucket_not_le (hn : n ≤ maxTextBytes) (hsize : c.lt (.ofNat n) = false)
    (hc : minEnvelopeSizeBucket.le c = false) : ∃ t, n+t ≤ maxTextBytes ∧
      growBucket (.ofNat n) c 1012 minEnvelopeSizeBucket = .ofNat (n+t) ∧
      (Number.ofNat (n+t)).le c = false := by
  by_cases hnan : c.isNaN = true
  · obtain rfl : c = .nan := by
      cases c with
      | nan => rfl
      | _ => cases hnan
    obtain ⟨j,hj,hr,hnj,-⟩ | ⟨-,j,-,hlt⟩ := growBucket_cases (c := .nan) hn 1012
      (k := 12) (by norm_num) (by norm_num)
    · have hpow : 2^j ≤ 2^52 := Nat.pow_le_pow_right (by norm_num) hj
      refine ⟨2^j-n,?_,?_,?_⟩
      · rw [maxTextBytes]
        omega
      · rw [minEnvelopeSizeBucket_eq,hr,Nat.add_sub_cancel' hnj]
      · cases Number.ofNat (n+(2^j-n)) <;> rfl
    · cases hlt
  · have hc' : c.isNaN = false := Bool.eq_false_iff.mpr hnan
    have hle : (Number.ofNat n).le c = true :=
      Number.of_not_lt (Number.isNaN_of_nat (lt_of_maxTextBytes hn)) hc' hsize
    have hsmall : n < 2^12 := by
      by_contra hge
      have h1 : (Number.ofNat (2^12)).le (.ofNat n) = true := by
        rw [Number.le_ofNat (by norm_num) (lt_of_maxTextBytes hn)]
        exact decide_eq_true (not_lt.mp hge)
      have hnn := Number.isNaN_of_nat (lt_of_maxTextBytes hn)
      rw [Number.le_iff_place (Number.isNaN_of_nat (by norm_num)) hnn] at h1
      rw [Number.le_iff_place hnn hc'] at hle
      have h2 := (Number.le_iff_place (Number.isNaN_of_nat (by norm_num)) hc').mpr (h1.trans hle)
      rw [minEnvelopeSizeBucket_eq,h2] at hc
      cases hc
    refine ⟨2^12-n,by norm_num [maxTextBytes]; omega,?_,?_⟩
    · rw [Nat.add_sub_cancel' hsmall.le,minEnvelopeSizeBucket_eq,growBucket,
        Number.lt_ofNat (by norm_num) (lt_of_maxTextBytes hn),if_neg (by simpa using hsmall.le)]
    · rw [Nat.add_sub_cancel' hsmall.le]
      exact hc

end Buckets

/-! Where a run lands, and when that is within the ceiling. -/
section Landing
variable {cfg : PadConfig} {env env' : Env} {b : Number} {p : JsString}

/-- A run on `env` that returned `b` and left `env'` has landed on its bucket: with proofs
of full length the envelope takes `b` bytes, which is no less than it takes without
padding and no more than the ceiling, and the proofs that are missing can come later. -/
structure Lands (cfg : PadConfig) (env env' : Env) (b : Number) : Prop where
  size : b = .ofNat (wireSize (withPlaceholders env'))
  fits : wireSize (withPlaceholders env') ≤ maxTextBytes
  unpadded_le : unpaddedSize env ≤ wireSize (withPlaceholders env')
  le_ceiling : b.le cfg.ceiling = true
  signature : env.sealed.signature = [] → env'.sealed.signature = []
  sessionMac : env.sealed.sessionMac = [] → env'.sealed.sessionMac = []
  signed : ∀ sig mac : Bytes, sig.length = 64 → mac.length = 32 →
    b = .ofNat (wireSize (fillProofs env' (Base64.encode sig) (Base64.encode mac)))

/-- The bucket for this size is not beyond the ceiling: on the curve the ceiling is not
below the first bucket, unless it refuses the size, and in a sequence that is accepted
the first element that is large enough is at most the ceiling, if a text can have that
size at all. -/
def WithinCeiling (cfg : PadConfig) (size : ℕ) : Prop :=
  match cfg.bucketSequence with
  | none | some [] =>
    cfg.ceiling.le (.ofNat 0) = false → cfg.ceiling.lt (.ofNat size) = false →
      minEnvelopeSizeBucket.le cfg.ceiling = true
  | some sequence => validateBucketSequence sequence cfg.ceiling = .ok () →
    ∀ before bucket after, sequence = before++.ofNat bucket::after →
      (∀ x ∈ before, (Number.ofNat size).le x = false) → size ≤ bucket →
        bucket ≤ maxTextBytes → (Number.ofNat bucket).le cfg.ceiling = true

/-- All that holds of every run that returns. -/
theorem Landed.lands_iff (h : Landed cfg env b p) :
    Lands cfg env (withPadding env p) b ↔ b.le cfg.ceiling = true := by
  have hsize : wireSize (withPlaceholders (withPadding env p)) = unpaddedSize env+p.length :=
    wireSize_padded env h.plain
  refine ⟨Lands.le_ceiling,fun hle => {
    size := by rw [hsize]; exact h.lands
    fits := by rw [hsize]; exact h.fits
    unpadded_le := by rw [hsize]; exact Nat.le_add_right _ _
    le_ceiling := hle
    signature := id
    sessionMac := id
    signed := ?_ }⟩
  intro sig mac hs hm
  rw [wireSize_signed _ hs hm,hsize]
  exact h.lands

/-- What was picked within the ceiling. -/
theorem le_ceiling_of_landed (h : Landed cfg env b p)
    (hwithin : WithinCeiling cfg (unpaddedSize env)) : b.le cfg.ceiling = true := by
  have hcheck := h.checked
  have hpick := h.picks.picked
  have hmeasured := h.picks.measured
  have hcurve (hw : cfg.ceiling.le (.ofNat 0) = false →
      cfg.ceiling.lt (.ofNat (unpaddedSize env)) = false →
        minEnvelopeSizeBucket.le cfg.ceiling = true)
      (hs : selectSizeBucket (.ofNat (unpaddedSize env)) (some cfg.ceiling) = .ok b) :
      b.le cfg.ceiling = true := by
    obtain ⟨⟨hpos,hsize⟩,rfl⟩ := (selectSizeBucket_eq_ok hmeasured).mp hs
    exact growBucket_le hmeasured (hw hpos hsize)
  unfold WithinCeiling at hwithin
  cases hseq : cfg.bucketSequence with
  | none =>
    simp only [hseq] at hwithin hpick
    exact hcurve hwithin hpick
  | some sequence =>
    cases sequence with
    | nil =>
      simp only [hseq] at hwithin hpick
      exact hcurve hwithin hpick
    | cons x rest =>
      simp only [hseq] at hwithin hcheck hpick
      have hb := Except.ok.inj hpick
      cases hfind : (x::rest).find? fun b => (Number.ofNat (unpaddedSize env)).le b with
      | none =>
        rw [hfind,Option.getD_none] at hb
        rw [hb,h.lands]
        exact Number.self_le (Number.isNaN_of_nat (lt_of_maxTextBytes h.fits))
      | some y =>
        rw [hfind,Option.getD_some] at hb
        obtain ⟨-,before,after,hsplit,hbefore⟩ := List.find?_eq_some_iff_append.mp hfind
        rw [hb,h.lands] at hsplit
        rw [h.lands]
        exact hwithin hcheck before _ after hsplit (fun x hx => by simpa using hbefore x hx)
          (Nat.le_add_right _ _) h.fits

/-- The other way: with a steady source, the bucket that is picked is returned. -/
theorem withinCeiling_of_le (hfits : unpaddedSize env ≤ maxTextBytes)
    (hle : ∀ rand b env', (fillPadding (cfg.withRand rand)).call env = (.ok b,env') →
      b.le cfg.ceiling = true) : WithinCeiling cfg (unpaddedSize env) := by
  have hpicked (t : ℕ) (ht : unpaddedSize env+t ≤ maxTextBytes)
      (hcheck : checkSequence cfg.ceiling cfg.bucketSequence = .ok ())
      (hpick : pickBucket (.ofNat (unpaddedSize env)) cfg.ceiling cfg.bucketSequence =
        .ok (.ofNat (unpaddedSize env+t))) :
      (Number.ofNat (unpaddedSize env+t)).le cfg.ceiling = true := by
    obtain ⟨p,hrun,-⟩ := fillPadding_steady
      (show (0 : UInt8).toNat/4 = (0 : UInt8).toNat%64 from rfl) hcheck ht ⟨hfits,hpick⟩
    exact hle _ _ _ hrun
  have hcurve (hcheck : checkSequence cfg.ceiling cfg.bucketSequence = .ok ())
      (hpick : pickBucket (.ofNat (unpaddedSize env)) cfg.ceiling cfg.bucketSequence =
        selectSizeBucket (.ofNat (unpaddedSize env)) (some cfg.ceiling))
      (hpos : cfg.ceiling.le (.ofNat 0) = false)
      (hsize : cfg.ceiling.lt (.ofNat (unpaddedSize env)) = false) :
      minEnvelopeSizeBucket.le cfg.ceiling = true := by
    by_contra hnot
    obtain ⟨t,ht,hgrow,hbeyond⟩ := growBucket_not_le hfits hsize (Bool.eq_false_iff.mpr hnot)
    have hle := hpicked t ht hcheck
      (hpick.trans ((selectSizeBucket_eq_ok hfits).mpr ⟨⟨hpos,hsize⟩,hgrow⟩))
    rw [hbeyond] at hle
    cases hle
  unfold WithinCeiling
  cases hseq : cfg.bucketSequence with
  | none =>
    simp only [hseq] at hcurve
    exact hcurve rfl rfl
  | some sequence =>
    cases sequence with
    | nil =>
      simp only [hseq] at hcurve
      exact hcurve rfl rfl
    | cons x rest =>
      simp only [hseq] at hpicked
      intro hcheck before bucket after hsplit hbefore hlarge hmax
      obtain ⟨t,rfl⟩ := Nat.exists_eq_add_of_le hlarge
      refine hpicked t hmax hcheck (congrArg Except.ok ?_)
      have hfind : ((x::rest).find? fun b => (Number.ofNat (unpaddedSize env)).le b) =
          some (.ofNat (unpaddedSize env+t)) := by
        refine List.find?_eq_some_iff_append.mpr ⟨?_,before,after,hsplit,?_⟩
        · rw [Number.le_ofNat (lt_of_maxTextBytes hfits) (lt_of_maxTextBytes hmax)]
          exact decide_eq_true hlarge
        · intro x hx
          rw [hbefore x hx]
          rfl
      rw [hfind,Option.getD_some]

/-- Padding lands on a bucket, whatever the random source gives, exactly when the bucket
for the size of the envelope is within the ceiling. -/
theorem fillPadding_lands_iff (cfg : PadConfig) (env : Env) :
    (∀ rand b env', (fillPadding (cfg.withRand rand)).call env = (.ok b,env') →
      Lands cfg env env' b) ↔
      (unpaddedSize env ≤ maxTextBytes → WithinCeiling cfg (unpaddedSize env)) := by
  constructor
  · intro hlands hfits
    exact withinCeiling_of_le hfits fun rand b env' hrun => (hlands rand b env' hrun).le_ceiling
  · intro hwithin rand b env' hrun
    obtain ⟨p,rfl,hlanded⟩ := fillPadding_eq_ok hrun
    have hown : Landed cfg env b p := ⟨hlanded.checked,
      ⟨hlanded.picks.measured,hlanded.picks.picked⟩,hlanded.plain,hlanded.fits,hlanded.lands⟩
    exact hown.lands_iff.mpr (le_ceiling_of_landed hown (hwithin hown.picks.measured))

/-- In an increasing sequence of numbers no element is above the last. -/
theorem le_getLast_of_checkIncreasing {i : ℕ} {first : Number} {rest : List Number}
    (h : checkIncreasing i first rest = .ok ()) (hnan : ∀ x ∈ first::rest, x.isNaN = false) :
    ∀ x ∈ first::rest, x.le ((first::rest).getLast (by simp)) = true := by
  induction rest generalizing i first with
  | nil =>
    rw [List.forall_mem_singleton] at hnan ⊢
    exact Number.self_le hnan
  | cons y rest ih =>
    rw [checkIncreasing] at h
    split_ifs at h with hle
    · cases h
    obtain ⟨hfirst,hrest⟩ := List.forall_mem_cons.mp hnan
    have hy := hrest y (by simp)
    have hlast := ih h hrest
    refine List.forall_mem_cons.mpr ⟨?_,hlast⟩
    have hylast := hlast y (by simp)
    have hnlast := hrest _ (List.getLast_mem (by simp))
    rw [Number.le_iff_place hy hfirst,not_le] at hle
    rw [Number.le_iff_place hy hnlast] at hylast
    exact (Number.le_iff_place hfirst hnlast).mpr (hle.le.trans hylast)

/-- Numbers that can be compared, and on the curve a ceiling from the first bucket on. -/
theorem withinCeiling_of_numbers (hceil : cfg.ceiling.isNaN = false)
    (hnan : ∀ x ∈ cfg.bucketSequence.getD [], x.isNaN = false)
    (hfloor : cfg.bucketSequence.getD [] = [] → minEnvelopeSizeBucket.le cfg.ceiling = true)
    (size : ℕ) : WithinCeiling cfg size := by
  unfold WithinCeiling
  cases hseq : cfg.bucketSequence with
  | none => exact fun _ _ => hfloor (by rw [hseq]; rfl)
  | some sequence =>
    cases sequence with
    | nil => exact fun _ _ => hfloor (by rw [hseq]; rfl)
    | cons x rest =>
      rw [hseq] at hnan
      intro hcheck before bucket after hsplit _ _ _
      rw [validateBucketSequence] at hcheck
      split_ifs at hcheck with hfirst hlast
      · cases hcheck
      · obtain ⟨-,-,hcheck⟩ := Semp.bind_eq_ok.mp hcheck
        cases hcheck
      obtain ⟨u,hcheck,-⟩ := Semp.bind_eq_ok.mp hcheck
      have hinc : checkIncreasing 1 x rest = .ok () := hcheck
      have hmem : .ofNat bucket ∈ x::rest := by rw [hsplit]; simp
      have hle := le_getLast_of_checkIncreasing hinc hnan _ hmem
      have hnlast := hnan _ (List.getLast_mem (by simp : x::rest ≠ []))
      rw [List.getLast?_eq_some_getLast (by simp),Option.getD_some,Bool.not_eq_true] at hlast
      have hceiling := Number.of_not_lt hnlast hceil hlast
      rw [Number.le_iff_place (hnan _ hmem) hnlast] at hle
      rw [Number.le_iff_place hnlast hceil] at hceiling
      exact (Number.le_iff_place (hnan _ hmem) hceil).mpr (hle.trans hceiling)

end Landing

/-! An envelope below a ceiling that is below the first bucket. -/
section Sample

def sampleEnv (signature sessionMac : JsString) (padding : Option JsString) : Env where
  postmark := ⟨js "p",js "s",js "a",js "b",js "2026-01-01T00:00:00Z",none⟩
  sealed := ⟨js "x",js "d",signature,sessionMac,[],[],none⟩
  brief := js "AA=="
  enclosure := js "AA=="
  extensions := none
  padding := padding

def smallCeiling : PadConfig := ⟨some (.ofNat 2048),none,steady 0⟩

theorem unpaddedSize_sample : unpaddedSize (sampleEnv [] [] none) = 445 := by decide +kernel

/-- The first bucket is returned above a smaller ceiling. -/
theorem not_lands : ¬∀ cfg env b env', (fillPadding cfg).call env = (.ok b,env') →
    Lands cfg env env' b := by
  intro hall
  have hwithin : WithinCeiling smallCeiling (unpaddedSize (sampleEnv [] [] none)) :=
    withinCeiling_of_le (by rw [unpaddedSize_sample]; norm_num [maxTextBytes])
      fun rand b env' hrun => (hall _ _ b env' hrun).le_ceiling
  rw [unpaddedSize_sample] at hwithin
  simp only [WithinCeiling,smallCeiling,PadConfig.ceiling,Option.getD_some] at hwithin
  have hpos : (Number.ofNat 2048).le (.ofNat 0) = false := by
    rw [Number.le_ofNat (by norm_num) (by norm_num)]
    rfl
  have hfits : (Number.ofNat 2048).lt (.ofNat 445) = false := by
    rw [Number.lt_ofNat (by norm_num) (by norm_num)]
    rfl
  have hle := hwithin hpos hfits
  rw [minEnvelopeSizeBucket,Number.le_ofNat (by norm_num) (by norm_num)] at hle
  cases hle

end Sample

end Padding
end Semp
