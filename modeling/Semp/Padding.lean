import Semp.Envelope
import Semp.JsonSize
import Semp.Method
import Semp.NumberOrder

/-! Padding an envelope to a size bucket.  The envelope is measured without padding and
with proofs of full length, a bucket is chosen for that size, and the filler brings the
envelope onto it. -/
namespace Semp
namespace Padding

open Envelope JsonText JsonSize NumberText

def ed25519SignatureB64Len : ℕ := 88

def hmacSha256B64Len : ℕ := 44

def base64AlphabetFillers : JsString :=
  js "ABCDEFGHIJKLMNOPQRSTUVWXYZabcdefghijklmnopqrstuvwxyz0123456789+/"

def minEnvelopeSizeBucket : Number := .ofNat 4096

def defaultMaxEnvelopeSize : Number := .ofNat (25*1024*1024)

structure PadConfig where
  maxEnvelopeSize : Option Number
  bucketSequence : Option (List Number)
  /-- What the random source answers when it is asked for a number of bytes the first
  time, the second time and so on.  The source of the platform is one of these. -/
  rand : ℕ → Number → Js Bytes

def PadConfig.ceiling (cfg : PadConfig) : Number :=
  cfg.maxEnvelopeSize.getD defaultMaxEnvelopeSize

/-- The configuration with another random source. -/
def PadConfig.withRand (cfg : PadConfig) (rand : ℕ → Number → Js Bytes) : PadConfig :=
  { cfg with rand := rand }

@[simp] theorem PadConfig.ceiling_withRand (cfg : PadConfig) (rand : ℕ → Number → Js Bytes) :
    (cfg.withRand rand).ceiling = cfg.ceiling := rfl

@[simp] theorem PadConfig.bucketSequence_withRand (cfg : PadConfig)
    (rand : ℕ → Number → Js Bytes) :
    (cfg.withRand rand).bucketSequence = cfg.bucketSequence := rfl

@[simp] theorem PadConfig.rand_withRand (cfg : PadConfig) (rand : ℕ → Number → Js Bytes) :
    (cfg.withRand rand).rand = rand := rfl

/-- The loop of `selectSizeBucket`.  After 1012 doublings the bucket is infinite. -/
def growBucket (unpaddedSize ceiling : Number) : ℕ → Number → Number
  | 0, bucket => bucket
  | fuel+1, bucket =>
    if bucket.lt unpaddedSize then
      let next := bucket.mul (.ofNat 2)
      if ceiling.lt next then ceiling else growBucket unpaddedSize ceiling fuel next
    else bucket

def selectSizeBucket (unpaddedSize : Number) (maxEnvelopeSize : Option Number) : Js Number :=
  if !unpaddedSize.isInteger || unpaddedSize.lt (.ofNat 0) then
    raise (js "envelope: invalid unpadded size "++toText unpaddedSize)
  else
    let ceiling := maxEnvelopeSize.getD defaultMaxEnvelopeSize
    if ceiling.le (.ofNat 0) then raise (js "envelope: non-positive ceiling "++toText ceiling)
    else if ceiling.lt unpaddedSize then
      raise (js "envelope: unpadded size "++toText unpaddedSize++
        js " exceeds max_envelope_size "++toText ceiling)
    else .ok (growBucket unpaddedSize ceiling 1012 minEnvelopeSizeBucket)

def pickBucket (unpaddedSize ceiling : Number) : Option (List Number) → Js Number
  | none | some [] => selectSizeBucket unpaddedSize (some ceiling)
  | some sequence => .ok ((sequence.find? fun b => unpaddedSize.le b).getD ceiling)

/-- `${seq[i]}` -/
def elementText : Option Number → JsString
  | none => js "undefined"
  | some x => toText x

/-- The loop of `validateBucketSequence`, at index `i` after the element `before`. -/
def checkIncreasing : ℕ → Number → List Number → Js Unit
  | _, _, [] => .ok ()
  | i, before, x::rest =>
    if x.le before then
      raise (js "envelope: bucket sequence is not strictly increasing at index "++
        toText (.ofNat i))
    else checkIncreasing (i+1) x rest

def validateBucketSequence (seq : List Number) (ceiling : Number) : Js Unit :=
  if (seq.head?.getD (.ofNat 0)).lt minEnvelopeSizeBucket then
    raise (js "envelope: bucket sequence first element "++elementText seq.head?++
      js " is below protocol floor "++toText minEnvelopeSizeBucket)
  else do
    checkIncreasing 1 (seq.head?.getD (.ofNat 0)) seq.tail
    if ceiling.lt (seq.getLast?.getD (.ofNat 0)) then
      raise (js "envelope: bucket sequence last element "++elementText seq.getLast?++
        js " exceeds max_envelope_size "++toText ceiling)
    else .ok ()

/-- The check of the configuration, of a sequence that is there and not empty. -/
def checkSequence (ceiling : Number) : Option (List Number) → Js Unit
  | none | some [] => .ok ()
  | some seq => validateBucketSequence seq ceiling

def fillerChars (seed : Bytes) (fillerCount : ℕ) : JsString :=
  (List.range fillerCount).map fun i =>
    base64AlphabetFillers.getD ((seed.getD i 0).toNat%base64AlphabetFillers.length) 65

/-- The bulk of the filler, if it has one. -/
def encodedPart (inputBytes : ℕ) (rand : ℕ → Number → Js Bytes) : Js JsString :=
  if 0 < inputBytes then (rand 0 (.ofNat inputBytes)).map Base64.encode else .ok []

/-- The characters after the bulk, if there are any. -/
def fillerPart (inputBytes fillerCount : ℕ) (rand : ℕ → Number → Js Bytes) : Js JsString :=
  if 0 < fillerCount then
    (rand (if 0 < inputBytes then 1 else 0) (.ofNat fillerCount)).map (fillerChars · fillerCount)
  else .ok []

def buildPaddingValue (targetLen : Number) (rand : ℕ → Number → Js Bytes) : Js JsString :=
  if !targetLen.isInteger || targetLen.lt (.ofNat 0) then
    raise (js "envelope: negative padding length "++toText targetLen)
  else if targetLen.eq (.ofNat 0) then .ok []
  else do
    let baseChars := targetLen.toNat-targetLen.toNat%4
    let inputBytes := baseChars/4*3
    let encoded ← encodedPart inputBytes rand
    let filler ← fillerPart inputBytes (targetLen.toNat-baseChars) rand
    .ok (encoded++filler)

/-- More than the UTF-8 of any text an engine can hold. -/
def maxTextBytes : ℕ := 2^52

/-- The engine refuses a text that is too long. -/
def utf8ByteLength (s : JsString) : Js Number :=
  if utf8Size s ≤ maxTextBytes then .ok (.ofNat (utf8Size s)) else .error (.engine .rangeError)

def withPadding (env : Env) (padding : JsString) : Env := { env with padding := some padding }

/-- Puts proofs where there are none. -/
def fillProofs (env : Env) (signature sessionMac : JsString) : Env :=
  { env with sealed := { env.sealed with
      signature := if env.sealed.signature = [] then signature else env.sealed.signature
      sessionMac := if env.sealed.sessionMac = [] then sessionMac else env.sealed.sessionMac } }

def placeholder (length : ℕ) : JsString := List.replicate length 65

/-- The envelope with placeholders for the proofs that are not there yet. -/
def withPlaceholders (env : Env) : Env :=
  fillProofs env (placeholder ed25519SignatureB64Len) (placeholder hmacSha256B64Len)

/-- Takes away the proofs that were not there before. -/
def restoreProofs (orig env : Env) : Env :=
  { env with sealed := { env.sealed with
      signature := if orig.sealed.signature = [] then [] else env.sealed.signature
      sessionMac := if orig.sealed.sessionMac = [] then [] else env.sealed.sessionMac } }

/-- `utf8ByteLength(JSON.stringify(env))` -/
def measure : Method Thrown Env Number := do
  let env ← get
  liftM (utf8ByteLength (stringify env.toJson))

/-- The final assertion: the envelope now serializes to exactly the bucket. -/
def assertLanded (bucket : Number) : Method Thrown Env Number := do
  let finalBytes ← measure
  if finalBytes.eq bucket then return bucket
  else
    liftM (raise (js "envelope: padding did not land on bucket "++toText bucket++js " (got "++
      toText finalBytes++js ")") : Js Number)

def fillBy (rand : ℕ → Number → Js Bytes) (baselineBytes bucket targetPadLen : Number) :
    Method Thrown Env Number :=
  if targetPadLen.lt (.ofNat 0) then
    liftM (raise (js "envelope: baseline "++toText baselineBytes++js " exceeds bucket "++
      toText bucket) : Js Number)
  else do
    let padding ← liftM (buildPaddingValue targetPadLen rand)
    modify (withPadding · padding)
    assertLanded bucket

/-- What follows when the bucket is picked. -/
def landOn (rand : ℕ → Number → Js Bytes) (baselineBytes bucket : Number) :
    Method Thrown Env Number :=
  if baselineBytes.eq bucket then return bucket
  else fillBy rand baselineBytes bucket (bucket.sub baselineBytes)

/-- What `fillPadding` tries, with the placeholders in place. -/
def padToBucket (cfg : PadConfig) : Method Thrown Env Number := do
  modify (withPadding · [])
  let baselineBytes ← measure
  let bucket ← liftM (pickBucket baselineBytes cfg.ceiling cfg.bucketSequence)
  landOn cfg.rand baselineBytes bucket

def fillPadding (cfg : PadConfig) : Method Thrown Env Number := do
  liftM (checkSequence cfg.ceiling cfg.bucketSequence)
  let env ← get
  modify withPlaceholders
  (padToBucket cfg).ensure (restoreProofs env)

/-! The size of an envelope. -/
section Size

variable {env : Env} {p : JsString}

def wireSize (env : Env) : ℕ := jsonSize env.toJson

/-- Each character of a filler is a byte of the envelope. -/
theorem wireSize_withPadding (env : Env) (hp : ∀ u ∈ p, isPlain u) :
    wireSize (withPadding env p) = wireSize (withPadding env [])+p.length := by
  have hsize := jsonSize_str hp
  have hnil : jsonSize (.str []) = 2 := jsonSize_str nofun
  rw [wireSize,wireSize,Env.toJson,Env.toJson,jsonSize_obj (by simp),jsonSize_obj (by simp)]
  simp only [withPadding,Envelope.optional,Option.map_some,List.map_append,List.map_cons,
    List.map_nil,List.sum_append,List.sum_cons,List.sum_nil,memberSize,hsize,hnil]
  omega

/-- The proofs count as far as their own texts do. -/
theorem wireSize_withProofs (env : Env) (s m s' m' : JsString) :
    wireSize (env.withProofs s m)+(jsonSize (.str s')+jsonSize (.str m')) =
      wireSize (env.withProofs s' m')+(jsonSize (.str s)+jsonSize (.str m)) := by
  have hseal (s m : JsString) : (env.withProofs s m).sealed.members ≠ [] := by
    simp [SealFields.members]
  rw [wireSize,wireSize,Env.toJson,Env.toJson,jsonSize_obj (by simp),jsonSize_obj (by simp)]
  simp only [List.map_append,List.map_cons,List.map_nil,List.sum_append,List.sum_cons,
    List.sum_nil,memberSize,jsonSize_obj (hseal _ _)]
  simp only [Env.withProofs,SealFields.members,List.map_append,List.map_cons,List.map_nil,
    List.sum_append,List.sum_cons,List.sum_nil,memberSize]
  omega

/-- Proofs of the length of the placeholders leave the size as it is. -/
theorem wireSize_fillProofs (env : Env) {s m s' m' : JsString} (hs : ∀ u ∈ s, isPlain u)
    (hm : ∀ u ∈ m, isPlain u) (hs' : ∀ u ∈ s', isPlain u) (hm' : ∀ u ∈ m', isPlain u)
    (hlen : s.length = s'.length) (hlen' : m.length = m'.length) :
    wireSize (fillProofs env s m) = wireSize (fillProofs env s' m') := by
  have hslot {given x y : JsString} (hx : ∀ u ∈ x, isPlain u) (hy : ∀ u ∈ y, isPlain u)
      (h : x.length = y.length) : jsonSize (.str (if given = [] then x else given)) =
        jsonSize (.str (if given = [] then y else given)) := by
    split_ifs
    · rw [jsonSize_str hx,jsonSize_str hy,h]
    · rfl
  have hsize := wireSize_withProofs env
    (if env.sealed.signature = [] then s else env.sealed.signature)
    (if env.sealed.sessionMac = [] then m else env.sealed.sessionMac)
    (if env.sealed.signature = [] then s' else env.sealed.signature)
    (if env.sealed.sessionMac = [] then m' else env.sealed.sessionMac)
  rw [hslot hs hs' hlen,hslot hm hm' hlen'] at hsize
  exact Nat.add_right_cancel hsize

theorem isPlain_placeholder (n : ℕ) : ∀ u ∈ placeholder n, isPlain u := by
  intro u hu
  rw [List.eq_of_mem_replicate hu]
  rfl

theorem length_signature {sig : Bytes} (h : sig.length = 64) :
    (Base64.encode sig).length = (placeholder ed25519SignatureB64Len).length := by
  rw [Base64.length_encode,h,placeholder,List.length_replicate]
  rfl

theorem length_sessionMac {mac : Bytes} (h : mac.length = 32) :
    (Base64.encode mac).length = (placeholder hmacSha256B64Len).length := by
  rw [Base64.length_encode,h,placeholder,List.length_replicate]
  rfl

/-- Signing later leaves the size as it is. -/
theorem wireSize_signed (env : Env) {sig mac : Bytes} (hs : sig.length = 64)
    (hm : mac.length = 32) : wireSize (fillProofs env (Base64.encode sig) (Base64.encode mac)) =
      wireSize (withPlaceholders env) :=
  wireSize_fillProofs env (Base64.isPlain_encode _) (Base64.isPlain_encode _)
    (isPlain_placeholder _) (isPlain_placeholder _) (length_signature hs) (length_sessionMac hm)

end Size

/-! The filler. -/
section Filler

variable {d : Number} {rand : ℕ → Number → Js Bytes} {p : JsString}

theorem base64AlphabetFillers_getD : ∀ i < 64,
    base64AlphabetFillers.getD i 65 = Base64.digit i := by
  decide

theorem fillerChars_eq (seed : Bytes) (n : ℕ) :
    fillerChars seed n = (List.range n).map fun i => Base64.digit ((seed.getD i 0).toNat%64) := by
  refine List.map_congr_left fun i _ => ?_
  rw [← base64AlphabetFillers_getD _ (Nat.mod_lt _ (by norm_num))]
  rfl

@[simp] theorem length_fillerChars (seed : Bytes) (n : ℕ) : (fillerChars seed n).length = n := by
  simp [fillerChars]

theorem isPlain_fillerChars (seed : Bytes) (n : ℕ) : ∀ u ∈ fillerChars seed n, isPlain u := by
  rw [fillerChars_eq,List.forall_mem_map]
  exact fun i _ => Base64.isPlain_digit (Nat.mod_lt _ (by norm_num))

theorem isPlain_encodedPart {n : ℕ} (h : encodedPart n rand = .ok p) : ∀ u ∈ p, isPlain u := by
  unfold encodedPart at h
  split_ifs at h
  · cases hr : rand 0 (.ofNat n) with
    | error e => simp [hr,Except.map] at h
    | ok buf =>
      obtain rfl : Base64.encode buf = p := by simpa [hr,Except.map] using h
      exact Base64.isPlain_encode buf
  · cases h
    simp

theorem isPlain_fillerPart {n k : ℕ} (h : fillerPart n k rand = .ok p) : ∀ u ∈ p, isPlain u := by
  unfold fillerPart at h
  by_cases hk : 0 < k
  · rw [if_pos hk] at h
    cases hr : rand (if 0 < n then 1 else 0) (.ofNat k) with
    | error e => simp [hr,Except.map] at h
    | ok seed =>
      obtain rfl : fillerChars seed k = p := by simpa [hr,Except.map] using h
      exact isPlain_fillerChars seed k
  · rw [if_neg hk] at h
    cases h
    simp

theorem buildPaddingValue_plain (h : buildPaddingValue d rand = .ok p) : ∀ u ∈ p, isPlain u := by
  unfold buildPaddingValue at h
  split_ifs at h
  · cases h
  · cases h
    simp
  · obtain ⟨encoded,hencoded,h⟩ := Semp.bind_eq_ok.mp h
    obtain ⟨filler,hfiller,h⟩ := Semp.bind_eq_ok.mp h
    cases h
    exact List.forall_mem_append.mpr ⟨isPlain_encodedPart hencoded,isPlain_fillerPart hfiller⟩

/-- A length that is no integer or negative takes no filler. -/
theorem isInteger_of_buildPaddingValue (h : buildPaddingValue d rand = .ok p) :
    d.isInteger = true ∧ d.lt (.ofNat 0) = false := by
  unfold buildPaddingValue at h
  split_ifs at h with hd
  · cases h
  all_goals simpa using hd

/-- A length that takes a filler. -/
structure Positive (d : Number) : Prop where
  isInteger : d.isInteger = true
  nonneg : d.lt (.ofNat 0) = false
  ne_zero : d.eq (.ofNat 0) = false

theorem buildPaddingValue_eq (hd : Positive d) : buildPaddingValue d rand = (do
    let encoded ← encodedPart (d.toNat/4*3) rand
    let filler ← fillerPart (d.toNat/4*3) (d.toNat%4) rand
    .ok (encoded++filler)) := by
  have hbase : (d.toNat-d.toNat%4)/4 = d.toNat/4 := by omega
  have hfill : d.toNat-(d.toNat-d.toNat%4) = d.toNat%4 := by omega
  unfold buildPaddingValue
  rw [if_neg (by simp [hd.isInteger,hd.nonneg]),if_neg (by simp [hd.ne_zero])]
  simp only [hbase,hfill]

/-- Four characters or more: the multiples of four are base64. -/
theorem buildPaddingValue_long {base seed : Bytes} (hd : Positive d) (h4 : 4 ≤ d.toNat)
    (h0 : rand 0 (.ofNat (d.toNat/4*3)) = .ok base)
    (h1 : rand 1 (.ofNat (d.toNat%4)) = .ok seed) :
    buildPaddingValue d rand = .ok (Base64.encode base++fillerChars seed (d.toNat%4)) := by
  have hk : 0 < d.toNat/4*3 := by omega
  have hfill : fillerPart (d.toNat/4*3) (d.toNat%4) rand =
      .ok (fillerChars seed (d.toNat%4)) := by
    rw [fillerPart,if_pos hk,h1]
    split_ifs with hmod
    · rfl
    · rw [show d.toNat%4 = 0 by omega]
      rfl
  rw [buildPaddingValue_eq hd,encodedPart,if_pos hk,h0,hfill]
  rfl

theorem buildPaddingValue_short {seed : Bytes} (hd : Positive d) (hpos : 0 < d.toNat)
    (h4 : d.toNat < 4) (h0 : rand 0 (.ofNat d.toNat) = .ok seed) :
    buildPaddingValue d rand = .ok (fillerChars seed d.toNat) := by
  have hk : d.toNat/4*3 = 0 := by omega
  have hmod : d.toNat%4 = d.toNat := by omega
  rw [buildPaddingValue_eq hd,hk,hmod,encodedPart,fillerPart,if_neg (lt_irrefl 0),if_pos hpos,
    if_neg (lt_irrefl 0),h0]
  rfl

/-- The random source whose bytes are all the same. -/
def steady (b : UInt8) : ℕ → Number → Js Bytes := fun _ n => .ok (List.replicate n.toNat b)

theorem positive_ofNat {t : ℕ} (hpos : 0 < t) (ht : t < 2^53) : Positive (.ofNat t) where
  isInteger := Number.isInteger_ofNat ht
  nonneg := by
    rw [Number.lt_ofNat ht (by norm_num)]
    exact decide_eq_false (Nat.not_lt_zero t)
  ne_zero := by
    rw [Number.eq_ofNat ht (by norm_num)]
    exact decide_eq_false hpos.ne'

/-- A steady source gives a filler of the length asked for, and the byte shows in it. -/
theorem buildPaddingValue_steady {t : ℕ} (hpos : 0 < t) (ht : t < 2^53) {b : UInt8}
    (hb : b.toNat/4 = b.toNat%64) : ∃ p, buildPaddingValue (.ofNat t) (steady b) = .ok p ∧
      p.length = t ∧ p.head? = some (Base64.digit (b.toNat/4)) := by
  have hd := positive_ofNat hpos ht
  have htoNat := Number.toNat_ofNat ht
  have hsteady (i : ℕ) {n : ℕ} (hn : n ≤ t) :
      steady b i (.ofNat n) = .ok (List.replicate n b) := by
    rw [steady,Number.toNat_ofNat (by omega)]
  by_cases h4 : 4 ≤ t
  · obtain ⟨q,hq⟩ : ∃ q, t/4*3 = q+3 := ⟨t/4*3-3,by omega⟩
    have hbuild := buildPaddingValue_long hd (by rw [htoNat]; exact h4)
      (by rw [htoNat]; exact hsteady 0 (by omega)) (by rw [htoNat]; exact hsteady 1 (by omega))
    rw [htoNat] at hbuild
    refine ⟨_,hbuild,?_,?_⟩
    · rw [List.length_append,Base64.length_encode,length_fillerChars,List.length_replicate]
      omega
    · rw [hq]
      simp [List.replicate_succ,Base64.encode]
  · have hbuild := buildPaddingValue_short hd (by rw [htoNat]; exact hpos)
      (by rw [htoNat]; omega) (by rw [htoNat]; exact hsteady 0 le_rfl)
    rw [htoNat] at hbuild
    refine ⟨_,hbuild,length_fillerChars _ t,?_⟩
    obtain ⟨s,rfl⟩ := Nat.exists_eq_succ_of_ne_zero hpos.ne'
    rw [fillerChars_eq,List.range_succ_eq_map,List.map_cons,List.head?_cons,hb]
    rfl

end Filler

end Padding
end Semp
