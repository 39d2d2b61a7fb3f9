import Semp.Blocklist
import Semp.LargeAttachment
import Semp.NumberOrder
import Semp.RecoveryRecords

/-! The recovery of an account.  The key of the backup bundle is derived from a secret of the
user, and split among the devices.  Whoever finds records that verify has the key again, with it
what is in the bundle, and the key under which the successor is signed. -/
namespace Semp
namespace Recovery
open SignedDoc TransparencyLog DeviceRecords Successor KeyRevocation Shamir
open LargeAttachment (Digest512 XAeadLaws)
open TransparencyLog.Log (sampleHost)

inductive SecretForm
  | passphrase
  | recovery_code
  deriving DecidableEq

def minPassphraseBytes : ℕ := 12
def recoverySignKeyInfo : JsString := js "SEMP-RECOVERY-SIGN-KEY-v1"
def blank : UInt16 := 32

/-- `s.normalize("NFKC")`, Argon2id with a salt, passes, memory and lanes, and the HMAC of
SHA-512. -/
structure Platform where
  normalizeNFKC : JsString → JsString
  argon2id : Bytes → Bytes → Number → Number → Number → Js Bytes
  hmacSha512 : Bytes → Bytes → Digest512

/-- `s.trim().split(/\s+/)` without the empty pieces -/
def words (s : JsString) : List JsString :=
  ((trim s).splitOnP isSpace).filter (· ≠ [])

def requireParameter (kdf : Option Json) (field : String) (low : ℕ) : Js Number := do
  let v ← getProp kdf (js field)
  requireInteger v (fun x => x.lt (.ofNat low)) fun text =>
    js "recovery: kdf."++js field++js " "++text++js " below "++natText low++js " minimum"

/-- What a derivation is asked for. -/
structure BundleKDF where
  salt : JsString
  memory_kb : Number
  iterations : Number
  parallelism : Number

def validateKDFParams (kdf : Option Json) : Js BundleKDF := do
  let algorithm ← getProp kdf algorithmKey
  if !isStr algorithm kdfAlgorithmArgon2id then
    raise (js "recovery: kdf.algorithm "++stringifyText algorithm++js ", want argon2id")
  else do
    let salt ← getProp kdf (js "salt")
    let salt ← requireText salt (js "recovery: kdf.salt missing")
    let memory ← requireParameter kdf "memory_kb" minKDFMemoryKB
    let iterations ← requireParameter kdf "iterations" minKDFIterations
    let parallelism ← requireParameter kdf "parallelism" minKDFParallelism
    .ok ⟨salt,memory,iterations,parallelism⟩

def hkdfExpandSHA512 (hmac512 : Bytes → Bytes → Digest512) (prk info : Bytes) (length : ℕ) :
    Js Bytes :=
  let n := (length+63)/64
  if n > 255 then raise (js "recovery: HKDF-Expand requested length too large")
  else .ok ((List.range' 1 n).foldl (LargeAttachment.expandRound hmac512 prk info length)
    ([],[])).2

section Code
variable (C : Crypto) (P : Platform) (lc : Locale)

def normalizeRecoverySecret (form : SecretForm) (raw : JsString) : Js Bytes :=
  match form with
  | .passphrase =>
    let bytes := utf8 (trim (P.normalizeNFKC raw))
    if bytes.length < minPassphraseBytes then
      raise (js "recovery: passphrase length "++natText bytes.length++js " below "++
        natText minPassphraseBytes++js "-byte minimum")
    else .ok bytes
  | .recovery_code =>
    if words raw = [] then raise (js "recovery: recovery code is empty")
    else .ok (utf8 ([blank].intercalate ((words raw).map lc.toLowerCase)))

def deriveBundleKey (secretBytes : Bytes) (kdf : Option Json) : Js Bytes :=
  if secretBytes.length = 0 then raise (js "recovery: empty recovery secret bytes")
  else do
    let p ← validateKDFParams kdf
    let salt := Base64.decode p.salt
    if salt.length < minKDFSaltBytes then
      raise (js "recovery: kdf salt length "++natText salt.length++js " below "++
        natText minKDFSaltBytes++js "-byte minimum")
    else P.argon2id secretBytes salt p.iterations p.memory_kb p.parallelism

/-- The seed and the public key. -/
def deriveRecoverySignKey (bundleKey : Bytes) : Js (Bytes×Bytes) :=
  if bundleKey.length = 0 then raise (js "recovery: empty bundle key")
  else do
    let seed ← hkdfExpandSHA512 P.hmacSha512 bundleKey (utf8 recoverySignKeyInfo) 32
    let verifyPub ← publicKeyFromSeed C seed
    .ok (seed,verifyPub)

def checkLengths (bundleKey nonce : Bytes) : Js Unit :=
  if bundleKey.length ≠ 32 then
    raise (js "recovery: bundle key length "++natText bundleKey.length++js ", want 32")
  else if nonce.length ≠ 24 then
    raise (js "recovery: payload nonce length "++natText nonce.length++js ", want 24")
  else .ok ()

def encryptBundlePayload (bundleKey nonce : Bytes) (payload : Json) : Js Bytes := do
  checkLengths bundleKey nonce
  C.xchachaEncrypt bundleKey nonce [] (utf8 (JsonText.stringify payload))

def decryptBundlePayload (bundleKey nonce ciphertext : Bytes) : Js Json := do
  checkLengths bundleKey nonce
  let plaintext ← C.xchachaDecrypt bundleKey nonce [] ciphertext
  parseJson (Utf8.textDecode plaintext)

end Code

/-- A text that was validated. -/
def textAt (record : Members) (key : JsString) : JsString :=
  match lookup record key with
  | some (.str s) => s
  | _ => []

/-- The share in a record that was validated. -/
def shareOf (s : Members) : ShamirShare where
  index :=
    match lookup s (js "share_index") with
    | some (.num x) => x
    | _ => .nan
  value := Base64.decode (textAt s (js "share_value"))

/-- The bundle is opened with the key. -/
def openBundle (C : Crypto) (b : Members) (key : Bytes) : Js Json :=
  decryptBundlePayload C key (Base64.decode (textAt b (js "payload_nonce")))
    (Base64.decode (textAt b (js "encrypted_payload")))

/-- What a user made: a bundle under a key that is derived from a secret, and the shares of the
key. -/
structure Backup where
  bundleId : JsString
  secret : Bytes
  kdf : Members
  key : Bytes
  payload : Json
  nonce : Bytes
  ciphertext : Bytes
  verifyPub : Bytes
  threshold : Number
  shares : List ShamirShare

structure Backup.Made (C : Crypto) (P : Platform) (B : Backup) : Prop where
  derived : deriveBundleKey P B.secret (some (.obj B.kdf)) = .ok B.key
  encrypted : encryptBundlePayload C B.key B.nonce B.payload = .ok B.ciphertext
  signer : ∃ seed, deriveRecoverySignKey C P B.key = .ok (seed,B.verifyPub)
  split : ∃ totalShares rand, splitSecret B.key B.threshold totalShares rand = .ok B.shares
  wf_kdf : (Json.obj B.kdf).WF
  wf_payload : B.payload.WF

/-- The bundle that the user publishes. -/
structure Backup.Describes (B : Backup) (doc : Members) : Prop where
  kdf : lookup doc (js "kdf") = some (.obj B.kdf)
  nonce : lookup doc (js "payload_nonce") = some (.str (Base64.encode B.nonce))
  ciphertext : lookup doc (js "encrypted_payload") = some (.str (Base64.encode B.ciphertext))
  verifyPub : ∃ ms, lookup doc (js "recovery_verify_pk") = some (.obj ms) ∧
    lookup ms (js "public_key") = some (.str (Base64.encode B.verifyPub))

def OfBundle (doc : Members) (bundleId : JsString) : Prop :=
  lookup doc (js "bundle_id") = some (.str bundleId)

/-- What the user and the devices sign for the bundle is what the user made.  For other bundles,
and as records of other kinds, they sign what they like; `log` has what was signed under a key. -/
structure Backup.Honest (B : Backup) (log : Bytes → List Signed) (identity : Bytes)
    (directory : DirectoryView) : Prop where
  wf : ∀ pub, ∀ x ∈ log pub, x.WF
  bundle : ∀ doc, .record .recoveryBundle doc ∈ log identity → OfBundle doc B.bundleId →
    B.Describes doc
  manifest : ∀ doc, .record .recoveryManifest doc ∈ log identity → OfBundle doc B.bundleId →
    lookup doc (js "threshold") = some (.num B.threshold)
  share : ∀ device doc, (directory.findDevice device).found = true →
    .record .recoveryShare doc ∈ log (Base64.decode (directory.findDevice device).publicKey) →
    OfBundle doc B.bundleId → ∃ s ∈ B.shares,
      lookup doc (js "share_index") = some (.num s.index) ∧
      lookup doc (js "share_value") = some (.str (Base64.encode s.value))

/-- No record that is shown carries a forged signature. -/
def Unforged (C : Crypto) (log : Bytes → List Signed) (shown : List (RecordKind×Members)) : Prop :=
  ∀ r ∈ shown, ∀ pub bytes sig, r.1.signingBytes r.2 = .ok bytes →
    verify C pub sig bytes = true → ∃ x ∈ log pub, x.bytes = .ok bytes

/-- What is read in a recovery. -/
def recordsOf (b m : Members) (rs : List Members) : List (RecordKind×Members) :=
  (.recoveryBundle,b)::(.recoveryManifest,m)::rs.map fun s => (.recoveryShare,s)

/-- The record of a share fits the manifest, and verifies under the key that the manifest has for
its device. -/
structure Accepted (C : Crypto) (m s : Members) : Prop where
  fits : checkShareMatchesManifest s m = .ok true
  verified : ∃ cs c own, lookup m (js "contributors") = some (.arr cs) ∧ c ∈ cs ∧
    readContributor c = .ok own ∧ lookup s (js "device_id") = some (.str own.device_id) ∧
    verifyShareRecord C s (Base64.decode own.public_key) = .ok true

section Numbers

theorem le_toRat {x : Number} {n : ℕ} (hn : n < 2^53) (hint : x.isInteger = true)
    (h : x.lt (.ofNat n) = false) : (n : ℚ) ≤ x.toRat := by
  rw [Number.lt_fin (Number.toRat_of_isInteger hint).1 (Number.isFinite_ofNat hn),
    Number.toRat_ofNat hn,decide_eq_false_iff_not,not_lt] at h
  exact h

theorem toRat_le {x : Number} {n : ℕ} (hn : n < 2^53) (hint : x.isInteger = true)
    (h : (Number.ofNat n).lt x = false) : x.toRat ≤ n := by
  rw [Number.lt_fin (Number.isFinite_ofNat hn) (Number.toRat_of_isInteger hint).1,
    Number.toRat_ofNat hn,decide_eq_false_iff_not,not_lt] at h
  exact h

theorem exists_ofNat {x : Number} {n : ℕ} (hn : n < 2^53) (hint : x.isInteger = true)
    (hlow : 1 ≤ x.toRat) (hhigh : x.toRat ≤ n) : ∃ k : ℕ, k ≤ n ∧ x.toRat = k ∧ x = .ofNat k := by
  obtain ⟨hfin,z,hz⟩ := Number.toRat_of_isInteger hint
  rw [hz] at hlow hhigh
  have hz1 : 1 ≤ z := by exact_mod_cast hlow
  have hzn : z ≤ n := by exact_mod_cast hhigh
  obtain ⟨k,rfl⟩ := Int.eq_ofNat_of_zero_le (show 0 ≤ z by omega)
  have hrat : x.toRat = (k : ℕ) := by exact_mod_cast hz
  exact ⟨k,by omega,hrat,Number.eq_ofNat_of_toRat hfin hrat (by omega) (by omega)⟩

/-- A number from 1 on is read as it was signed. -/
theorem eq_num_of_norm {v : Json} {y : Number} (hint : y.isInteger = true)
    (hlow : y.lt (.ofNat 1) = false) (h : v.norm = (Json.num y).norm) : v = .num y := by
  have hy := (Number.toRat_of_isInteger hint).1
  rcases Json.norm_eq_num h with rfl | ⟨x,rfl⟩
  · rw [Json.norm_number hy] at h
    cases h
  by_cases hx : x.isFinite = true
  swap
  · have hnull : (Json.num x).norm = .null := by simp [Json.norm,Json.reparse,hx,Json.sortKeys]
    rw [hnull,Json.norm_number hy] at h
    cases h
  rw [Json.norm_number hx,Json.norm_number hy,Json.num.injEq,Number.dropNegZero_eq_iff hx hy] at h
  have hlow := le_toRat (by norm_num) hint hlow
  cases x with
  | fin a i =>
    cases y with
    | fin b j =>
      obtain ⟨rfl,rfl | hzero⟩ := Number.toRat_eq_iff.mp h
      · rfl
      · have hrat : (Number.fin b i).toRat = 0 := by simp [Number.toRat,hzero]
        rw [hrat] at hlow
        exact absurd hlow (by norm_num)
    | _ => cases hy
  | _ => cases hx

end Numbers

section Shares
variable {secret : Bytes} {threshold totalShares : Number} {rand : ℕ → Js Bytes}
  {shares chosen : List ShamirShare}

/-- A split that gives shares was asked for a threshold and a number of shares that are small. -/
theorem splitSecret_ok (h : splitSecret secret threshold totalShares rand = .ok shares) :
    ∃ t n randomBuf, threshold = .ofNat t ∧ 2 ≤ t ∧ t ≤ n ∧ n ≤ 16 ∧ secret ≠ [] ∧
      shares = (List.range n).map fun i => share (coefficients t secret randomBuf) (i+1) := by
  have h16 : (16 : ℕ) < 2^53 := by norm_num
  unfold splitSecret at h
  by_cases hsecret : secret = []
  · rw [if_pos hsecret] at h
    cases h
  rw [if_neg hsecret] at h
  by_cases ht : (!threshold.isInteger || threshold.lt (.ofNat minShamirThreshold)) = true
  · rw [if_pos ht] at h
    cases h
  rw [if_neg ht] at h
  by_cases hn : (!totalShares.isInteger || totalShares.lt threshold) = true
  · rw [if_pos hn] at h
    cases h
  rw [if_neg hn] at h
  by_cases hmax : (Number.ofNat maxShamirTotalShares).lt totalShares = true
  · rw [if_pos hmax] at h
    cases h
  rw [if_neg hmax] at h
  obtain ⟨randomBuf,-,h⟩ := bind_eq_ok.mp h
  split_ifs at h with hlen
  · cases h
  simp only [Bool.or_eq_true,Bool.not_eq_true',not_or,Bool.not_eq_false,Bool.not_eq_true] at ht hn
  have htwo := le_toRat (by decide) ht.1 ht.2
  have hle : threshold.toRat ≤ totalShares.toRat := by
    have hlt := hn.2
    rwa [Number.lt_fin (Number.toRat_of_isInteger hn.1).1 (Number.toRat_of_isInteger ht.1).1,
      decide_eq_false_iff_not,not_lt] at hlt
  have hsixteen := toRat_le h16 hn.1 (Bool.eq_false_iff.mpr hmax)
  rw [minShamirThreshold] at htwo
  push_cast at htwo hsixteen
  obtain ⟨t,ht16,htrat,rfl⟩ := exists_ofNat h16 ht.1 (by linarith) (by push_cast; linarith)
  obtain ⟨n,hn16,hnrat,rfl⟩ := exists_ofNat h16 hn.1 (by linarith) (by push_cast; linarith)
  rw [htrat] at htwo hle
  rw [hnrat] at hle
  rw [Number.toNat_ofNat (by omega),Number.toNat_ofNat (by omega)] at h
  exact ⟨t,n,randomBuf,rfl,by exact_mod_cast htwo,by exact_mod_cast hle,hn16,hsecret,
    (Except.ok.inj h).symm⟩

/-- Shares that are combined have different indices. -/
theorem checkShares_differ {secretLen i : ℕ} {seen : List Number}
    (h : checkShares secretLen i seen chosen = .ok ()) :
    (∀ s ∈ chosen, ∀ x ∈ seen, s.index.eq x = false) ∧
      chosen.Pairwise fun a b => b.index.eq a.index = false := by
  induction chosen generalizing i seen with
  | nil => simp
  | cons s rest ih =>
    obtain ⟨u,hs,h⟩ := bind_eq_ok.mp h
    obtain ⟨hseen,hpairwise⟩ := ih h
    have hnew : (seen.any (Number.eq s.index)) = false := by
      unfold checkShare at hs
      dsimp only at hs
      split_ifs at hs with hzero hbounds hany
      · cases hs
      · cases hs
      · cases hs
      all_goals exact Bool.eq_false_iff.mpr hany
    refine ⟨List.forall_mem_cons.mpr ⟨fun x hx => ?_,fun t ht x hx => ?_⟩,
      List.pairwise_cons.mpr ⟨fun t ht => ?_,hpairwise⟩⟩
    · simpa using List.any_eq_false.mp hnew x hx
    · exact hseen t ht x (List.mem_cons_of_mem _ hx)
    · exact hseen t ht _ List.mem_cons_self

theorem combineShares_differ {k : Bytes} (h : combineShares chosen = .ok k) :
    chosen.Pairwise fun a b => b.index.eq a.index = false := by
  unfold combineShares at h
  split at h
  · cases h
  next first rest =>
    dsimp only at h
    split_ifs at h
    · cases h
    obtain ⟨u,hcheck,-⟩ := bind_eq_ok.mp h
    exact (checkShares_differ hcheck).2

/-- As many of the shares as the threshold give the secret or nothing, and the secret if they
differ. -/
theorem combine_split (h : splitSecret secret threshold totalShares rand = .ok shares)
    (hmem : ∀ s ∈ chosen, s ∈ shares) (hcount : threshold.toNat ≤ chosen.length) :
    (∀ k, combineShares chosen = .ok k → k = secret) ∧
      ((chosen.map ShamirShare.index).Nodup → combineShares chosen = .ok secret) := by
  obtain ⟨t,n,randomBuf,rfl,ht,htn,hn,hsecret,rfl⟩ := splitSecret_ok h
  have h16 {k : ℕ} (hk : k ≤ 16) : k < 2^53 := hk.trans_lt (by norm_num)
  rw [Number.toNat_ofNat (h16 (htn.trans hn))] at hcount
  obtain ⟨is,his,rfl⟩ := exists_map hmem
  have hpolys := length_coefficients t secret randomBuf
  rw [List.length_map] at hcount
  have hks : is.map (fun i => share (coefficients t secret randomBuf) (i+1)) =
      (is.map (·+1)).map (share (coefficients t secret randomBuf)) := by rw [List.map_map]; rfl
  have hbound : ∀ k ∈ is.map (·+1), 1 ≤ k ∧ k ≤ 16 := by
    intro k hk
    obtain ⟨i,hi,rfl⟩ := List.mem_map.mp hk
    have hlt := List.mem_range.mp (his i hi)
    omega
  have hcombine (hnodup : (is.map (·+1)).Nodup) :
      combineShares (is.map fun i => share (coefficients t secret randomBuf) (i+1)) =
        .ok secret := by
    have hspec {j : ℕ} {coeffs : List UInt8}
        (hj : (coefficients t secret randomBuf)[j]? = some coeffs) :=
      coefficients_spec (show 1 ≤ t by omega) hj
    rw [hks,combineShares_eq ?_ hbound hnodup ?_ ?_]
    · refine congrArg Except.ok (List.ext_getElem (by simp [hpolys]) fun j h₁ h₂ => ?_)
      have hj : j < (coefficients t secret randomBuf).length := by simpa using h₁
      have hbyte := (hspec (List.getElem?_eq_getElem hj)).1
      rw [List.getElem?_eq_getElem h₂] at hbyte
      simpa using (Option.some.inj hbyte).symm
    · intro hnil
      rw [hnil] at hpolys
      exact hsecret (List.length_eq_zero_iff.mp hpolys.symm)
    · intro coeffs hc
      obtain ⟨j,hj,rfl⟩ := List.getElem_of_mem hc
      have hlen := (hspec (List.getElem?_eq_getElem hj)).2
      rw [List.length_map]
      omega
    · intro hnil
      rw [List.map_eq_nil_iff] at hnil
      rw [hnil,List.length_nil] at hcount
      omega
  refine ⟨fun k hk => ?_,fun hnodup => hcombine ?_⟩
  · have hdiffer := combineShares_differ hk
    rw [hks,List.pairwise_map] at hdiffer
    have hnodup : (is.map (·+1)).Nodup := by
      refine List.Pairwise.imp_of_mem (fun ha _ hab heq => ?_) hdiffer
      subst heq
      have hself : (Number.ofNat _).eq (Number.ofNat _) = false := hab
      rw [Number.eq_ofNat (h16 (hbound _ ha).2) (h16 (hbound _ ha).2),decide_eq_true rfl] at hself
      cases hself
    exact Except.ok.inj (hk.symm.trans (hcombine hnodup))
  · have hindex : (is.map fun i => share (coefficients t secret randomBuf) (i+1)).map
        ShamirShare.index = (is.map (·+1)).map Number.ofNat := by
      rw [List.map_map,List.map_map]
      rfl
    rw [hindex] at hnodup
    exact hnodup.of_map _

end Shares

section Derivation
variable {C : Crypto} {P : Platform}

theorem requireParameter_eq_ok {kdf : Members} {field : String} {low : ℕ} {x : Number} :
    requireParameter (some (.obj kdf)) field low = .ok x ↔
      lookup kdf (js field) = some (.num x) ∧ x.isInteger = true ∧ x.lt (.ofNat low) = false := by
  rw [requireParameter,getProp_obj,ok_bind,requireInteger_eq_ok]

theorem validateKDFParams_eq_ok {kdf : Members} {p : BundleKDF} :
    validateKDFParams (some (.obj kdf)) = .ok p ↔
      lookup kdf algorithmKey = some (.str kdfAlgorithmArgon2id) ∧
      (lookup kdf (js "salt") = some (.str p.salt) ∧ p.salt ≠ []) ∧
      requireParameter (some (.obj kdf)) "memory_kb" minKDFMemoryKB = .ok p.memory_kb ∧
      requireParameter (some (.obj kdf)) "iterations" minKDFIterations = .ok p.iterations ∧
      requireParameter (some (.obj kdf)) "parallelism" minKDFParallelism = .ok p.parallelism := by
  rw [validateKDFParams,getProp_obj,ok_bind]
  constructor
  · intro h
    by_cases halgorithm : isStr (lookup kdf algorithmKey) kdfAlgorithmArgon2id = true
    swap
    · rw [Bool.eq_false_iff.mpr halgorithm,Bool.not_false,if_pos rfl] at h
      cases h
    rw [halgorithm,Bool.not_true,if_neg Bool.false_ne_true,getProp_obj,ok_bind] at h
    obtain ⟨salt,hsalt,h⟩ := bind_eq_ok.mp h
    obtain ⟨memory,hmemory,h⟩ := bind_eq_ok.mp h
    obtain ⟨iterations,hiterations,h⟩ := bind_eq_ok.mp h
    obtain ⟨parallelism,hparallelism,h⟩ := bind_eq_ok.mp h
    obtain rfl := Except.ok.inj h
    exact ⟨isStr_iff.mp halgorithm,requireText_eq_ok.mp hsalt,hmemory,hiterations,hparallelism⟩
  · rintro ⟨halgorithm,hsalt,hmemory,hiterations,hparallelism⟩
    rw [isStr_iff.mpr halgorithm,Bool.not_true,if_neg Bool.false_ne_true,getProp_obj,ok_bind,
      requireText_eq_ok.mpr hsalt,ok_bind,hmemory,ok_bind,hiterations,ok_bind,hparallelism,ok_bind]

theorem lt_one {x : Number} {low : ℕ} (hpos : 1 ≤ low) (hlow : low < 2^53)
    (hint : x.isInteger = true) (h : x.lt (.ofNat low) = false) : x.lt (.ofNat 1) = false := by
  have hle := le_toRat hlow hint h
  have hone : (1 : ℚ) ≤ low := by exact_mod_cast hpos
  rw [Number.lt_fin (Number.toRat_of_isInteger hint).1 (Number.isFinite_ofNat (by norm_num)),
    Number.toRat_ofNat (by norm_num),decide_eq_false_iff_not,not_lt]
  push_cast
  linarith

/-- Parameters that were sent are read as they were. -/
theorem requireParameter_congr {kdf kdf' : Members} (hwf : (Json.obj kdf).WF)
    (hwf' : (Json.obj kdf').WF) (hnorm : (Json.obj kdf').norm = (Json.obj kdf).norm)
    {field : String} {low : ℕ} {x : Number} (hpos : 1 ≤ low) (hlow : low < 2^53)
    (h : requireParameter (some (.obj kdf)) field low = .ok x) :
    requireParameter (some (.obj kdf')) field low = .ok x := by
  obtain ⟨hx,hint,hlt⟩ := requireParameter_eq_ok.mp h
  have hkey := (Json.norm_obj_eq_iff hwf' hwf).mp hnorm (js field)
  rw [hx,Option.map_some,Option.map_eq_some_iff] at hkey
  obtain ⟨v,hv,he⟩ := hkey
  rw [eq_num_of_norm hint (lt_one hpos hlow hint hlt) he] at hv
  exact requireParameter_eq_ok.mpr ⟨hv,hint,hlt⟩

theorem deriveBundleKey_congr {kdf kdf' : Members} (hwf : (Json.obj kdf).WF)
    (hwf' : (Json.obj kdf').WF) (hnorm : (Json.obj kdf').norm = (Json.obj kdf).norm)
    {secret key : Bytes} (h : deriveBundleKey P secret (some (.obj kdf)) = .ok key) :
    deriveBundleKey P secret (some (.obj kdf')) = .ok key := by
  unfold deriveBundleKey at h ⊢
  by_cases hsecret : secret.length = 0
  · rw [if_pos hsecret] at h
    cases h
  rw [if_neg hsecret] at h ⊢
  obtain ⟨p,hp,h⟩ := bind_eq_ok.mp h
  obtain ⟨halgorithm,⟨hsalt,hne⟩,hmemory,hiterations,hparallelism⟩ := validateKDFParams_eq_ok.mp hp
  have hp' : validateKDFParams (some (.obj kdf')) = .ok p := validateKDFParams_eq_ok.mpr
    ⟨(Json.lookup_str_of_norm hwf' hwf hnorm).mpr halgorithm,
      ⟨(Json.lookup_str_of_norm hwf' hwf hnorm).mpr hsalt,hne⟩,
      requireParameter_congr hwf hwf' hnorm (by decide) (by decide) hmemory,
      requireParameter_congr hwf hwf' hnorm (by decide) (by decide) hiterations,
      requireParameter_congr hwf hwf' hnorm (by decide) (by decide) hparallelism⟩
  rw [hp',ok_bind]
  exact h

theorem checkLengths_eq_ok {key nonce : Bytes} :
    checkLengths key nonce = .ok () ↔ key.length = 32 ∧ nonce.length = 24 := by
  unfold checkLengths
  split_ifs with hkey hnonce
  · simp [hkey]
  · simp [hnonce]
  · simp only [true_iff]
    exact ⟨not_not.mp hkey,not_not.mp hnonce⟩

theorem decrypt_encrypt (xlaws : XAeadLaws C) {key nonce ciphertext : Bytes} {payload : Json}
    (hwf : payload.WF) (h : encryptBundlePayload C key nonce payload = .ok ciphertext) :
    decryptBundlePayload C key nonce ciphertext = .ok payload.reparse := by
  obtain ⟨u,hlengths,h⟩ := bind_eq_ok.mp h
  obtain ⟨hkey,hnonce⟩ := checkLengths_eq_ok.mp hlengths
  obtain ⟨ct,hct,hdecrypt⟩ := xlaws.decrypt_encrypt key nonce [] (utf8 (JsonText.stringify payload))
    hkey hnonce
  obtain rfl := Except.ok.inj (h.symm.trans hct)
  rw [decryptBundlePayload,hlengths,ok_bind,hdecrypt,ok_bind,utf8,JsonText.textDecode_stringify,
    parseJson_stringify hwf]

end Derivation

section Recover
variable {C : Crypto} {P : Platform} {host : Host} {B : Backup} {log : Bytes → List Signed}
  {identity : Bytes} {directory : DirectoryView} {userId : JsString}
  {shown : List (RecordKind×Members)} {rs : List Members} {record b m s : Members} {owns : List RecoveryContributor}

/-- A record that verifies says what some record says that was signed. -/
theorem signed_of_verify {spec : RecoverySpec} {pub : Bytes}
    (hlog : ∀ pub, ∀ x ∈ log pub, x.WF) (hforge : Unforged C log shown)
    (hshown : (spec.kind,record) ∈ shown) (hwf : (Json.obj record).WF)
    (hkind : spec.kind ∈ [RecordKind.recoveryBundle,.recoveryManifest,.recoveryShare])
    (h : spec.verify C record pub = .ok true) :
    ∃ own, .record spec.kind own ∈ log pub ∧ ∀ key ∉ spec.kind.blanking.fields,
      (lookup record key).map Json.norm = (lookup own key).map Json.norm := by
  obtain ⟨-,bytes,sig,hbytes,hsig⟩ := RecoverySpec.verify_true hwf h
  obtain ⟨x,hx,hxb⟩ := hforge _ hshown pub bytes sig hbytes hsig
  obtain ⟨own,rfl,hsame⟩ := record_of_bytes (domain_recovery hkind) hwf (hlog pub x hx) hbytes hxb
  exact ⟨own,hx,hsame⟩

theorem fields_bundle : RecordKind.recoveryBundle.blanking.fields = [js "signature"] := by decide

theorem fields_manifest : RecordKind.recoveryManifest.blanking.fields = [js "signature"] := by
  decide

theorem fields_share : RecordKind.recoveryShare.blanking.fields = [js "device_signature"] := by
  decide

/-- A bundle that verifies has what the user put into it. -/
theorem Backup.Honest.bundle_read (honest : B.Honest log identity directory)
    (hforge : Unforged C log shown) (hb : (.recoveryBundle,b) ∈ shown) (hwf : (Json.obj b).WF)
    (h : verifyBundle C host b identity = .ok true) (hid : OfBundle b B.bundleId) :
    (∃ kdf, lookup b (js "kdf") = some (.obj kdf) ∧
      (Json.obj kdf).norm = (Json.obj B.kdf).norm) ∧
    textAt b (js "payload_nonce") = Base64.encode B.nonce ∧
    textAt b (js "encrypted_payload") = Base64.encode B.ciphertext ∧
    ∃ ms ns, lookup b (js "recovery_verify_pk") = some (.obj ms) ∧
      (Json.obj ms).norm = (Json.obj ns).norm ∧
      lookup ns (js "public_key") = some (.str (Base64.encode B.verifyPub)) ∧
      (Json.obj ns).WF := by
  have hverify : (bundleSpec host).verify C b identity = .ok true := h
  obtain ⟨own,hown,hsame⟩ := signed_of_verify honest.wf hforge hb hwf (by simp [bundleSpec]) hverify
  have hsame : ∀ key ≠ js "signature",
      (lookup b key).map Json.norm = (lookup own key).map Json.norm := fun key hkey =>
    hsame key (by simpa [bundleSpec,fields_bundle] using hkey)
  have hownid : OfBundle own B.bundleId :=
    norm_lookup_str (hsame (js "bundle_id") (by decide)).symm hid
  have hdescribes := honest.bundle own hown hownid
  have hnonce := norm_lookup_str (hsame (js "payload_nonce") (by decide)) hdescribes.nonce
  have hct := norm_lookup_str (hsame (js "encrypted_payload") (by decide)) hdescribes.ciphertext
  obtain ⟨ns,hns,hpub⟩ := hdescribes.verifyPub
  obtain ⟨ms,hms,hnorm⟩ := norm_lookup_obj (hsame (js "recovery_verify_pk") (by decide)) hns
  have hownwf : (Json.obj own).WF := honest.wf identity _ hown
  refine ⟨norm_lookup_obj (hsame (js "kdf") (by decide)) hdescribes.kdf,?_,?_,ms,ns,hms,hnorm,hpub,
    Json.wf_of_lookup hownwf hns⟩
  · rw [textAt,hnonce]
  · rw [textAt,hct]

/-- A manifest that verifies has the threshold of the split. -/
theorem Backup.Honest.threshold_read (honest : B.Honest log identity directory)
    (hint : B.threshold.isInteger = true) (hlow : B.threshold.lt (.ofNat 1) = false)
    (hforge : Unforged C log shown) (hm : (.recoveryManifest,m) ∈ shown) (hwf : (Json.obj m).WF)
    (h : verifyManifest C m identity = .ok true) (hid : OfBundle m B.bundleId) :
    lookup m (js "threshold") = some (.num B.threshold) := by
  have hverify : manifestSpec.verify C m identity = .ok true := h
  obtain ⟨own,hown,hsame⟩ := signed_of_verify honest.wf hforge hm hwf (by simp [manifestSpec]) hverify
  have hsame : ∀ key ≠ js "signature",
      (lookup m key).map Json.norm = (lookup own key).map Json.norm := fun key hkey =>
    hsame key (by simpa [manifestSpec,fields_manifest] using hkey)
  have hownid : OfBundle own B.bundleId :=
    norm_lookup_str (hsame (js "bundle_id") (by decide)).symm hid
  have hkey := hsame (js "threshold") (by decide)
  rw [honest.manifest own hown hownid,Option.map_some,Option.map_eq_some_iff] at hkey
  obtain ⟨v,hv,he⟩ := hkey
  rw [hv,eq_num_of_norm hint hlow he]

theorem mem_of_read {cs : List Json} {c : Json} {own : RecoveryContributor}
    (hread : List.Forall₂ (fun c own => readContributor c = .ok own) cs owns) (hc : c ∈ cs)
    (h : readContributor c = .ok own) : own ∈ owns := by
  induction hread with
  | nil => cases hc
  | cons hown _ ih =>
    rcases List.mem_cons.mp hc with rfl | hc
    · obtain rfl := Except.ok.inj (h.symm.trans hown)
      exact List.mem_cons_self
    · exact List.mem_cons_of_mem _ (ih hc)

/-- An accepted record has a share of the split, and the index that the manifest has for its
device. -/
theorem Backup.Honest.share_read (honest : B.Honest log identity directory)
    (hindex : ∀ t ∈ B.shares, ∃ k, 0 < k ∧ k < 2^53 ∧ t.index = .ofNat k)
    (hforge : Unforged C log shown) (hs : (.recoveryShare,s) ∈ shown) (hwf : (Json.obj s).WF)
    (howns : HasContributors m owns) (hmid : OfBundle m B.bundleId)
    (hcross : crossCheckManifestContributors m directory userId = .ok none)
    (h : Accepted C m s) : shareOf s ∈ B.shares ∧ ∃ own ∈ owns,
      own.share_index = (shareOf s).index ∧ textAt s (js "device_id") = own.device_id := by
  obtain ⟨cs,c,own,hcs,hc,hown,hdevice,hverify⟩ := h.verified
  obtain ⟨ds,hds,hread⟩ := howns.read
  obtain rfl := Json.arr.inj (Option.some.inj (hcs.symm.trans hds))
  obtain ⟨hfound,hkey⟩ := (crossCheck_none howns hcross).2 own (mem_of_read hread hc hown)
  obtain ⟨hbundle,other,hother,hholds,hotherdevice⟩ := checkShareMatchesManifest_true howns h.fits
  rw [show lookup m (js "bundle_id") = some (.str B.bundleId) from hmid,strictEq_str] at hbundle
  have hverify : shareSpec.verify C s (Base64.decode own.public_key) = .ok true := hverify
  obtain ⟨doc,hdoc,hsame⟩ := signed_of_verify honest.wf hforge hs hwf (by simp [shareSpec]) hverify
  have hsame : ∀ key ≠ js "device_signature",
      (lookup s key).map Json.norm = (lookup doc key).map Json.norm := fun key hkey =>
    hsame key (by simpa [shareSpec,fields_share] using hkey)
  have hdocid : OfBundle doc B.bundleId :=
    norm_lookup_str (hsame (js "bundle_id") (by decide)).symm hbundle
  rw [← hkey] at hdoc
  obtain ⟨t,ht,htindex,htvalue⟩ := honest.share own.device_id doc hfound hdoc hdocid
  obtain ⟨k,hpos,hlt,hk⟩ := hindex t ht
  have hvalue := norm_lookup_str (hsame (js "share_value") (by decide)) htvalue
  have hnumber := hsame (js "share_index") (by decide)
  rw [htindex,hk,Option.map_some,Option.map_eq_some_iff] at hnumber
  obtain ⟨v,hv,he⟩ := hnumber
  have hone : (Number.ofNat k).lt (.ofNat 1) = false := by
    rw [Number.lt_ofNat hlt (by norm_num),decide_eq_false_iff_not]
    omega
  rw [eq_num_of_norm (Number.isInteger_ofNat hlt) hone he] at hv
  have hshare : shareOf s = t := by
    rw [shareOf,hv,textAt,hvalue]
    simp [Base64.decode_encode,← hk]
  rw [hv] at hholds
  have hsameindex : other.share_index = .ofNat k :=
    (Number.eq_ofNat_iff hlt hpos).mp (Number.eq_symm hholds)
  refine ⟨hshare ▸ ht,other,hother,?_,?_⟩
  · rw [hshare,hk,hsameindex]
  · rw [textAt,hotherdevice]

/-- Two entries with one index are one entry. -/
theorem HasContributors.eq_of_index (h : HasContributors m owns) {own other : RecoveryContributor}
    (hown : own ∈ owns) (hother : other ∈ owns) {k : ℕ} (hk : k < 2^53)
    (hindex : own.share_index = .ofNat k) (hindex' : other.share_index = .ofNat k) :
    own = other := by
  have hself {a c : RecoveryContributor} (ha : a.share_index = .ofNat k)
      (hc : c.share_index = .ofNat k) : ¬c.Differs a := by
    rintro ⟨heq,-⟩
    rw [ha,hc,Number.eq_ofNat hk hk] at heq
    simp at heq
  have hall : ∀ l : List RecoveryContributor, l.Pairwise (fun a c => c.Differs a) → own ∈ l →
      other ∈ l → own = other := by
    intro l hl hownl hotherl
    induction hl with
    | nil => cases hownl
    | cons hhead _ ih =>
      rcases List.mem_cons.mp hownl with ho | ho
      · rcases List.mem_cons.mp hotherl with ho' | ho'
        · exact ho.trans ho'.symm
        · exact absurd (hhead other ho') (ho ▸ hself hindex hindex')
      · rcases List.mem_cons.mp hotherl with ho' | ho'
        · exact absurd (hhead own ho) (ho' ▸ hself hindex' hindex)
        · exact ih ho ho'
  exact hall owns h.differ hown hother

/-- Whoever has a bundle and a manifest that verify, and records of shares that are accepted, at
least as many as the manifest asks for, has the key of the bundle, or none; none only if two of
the records are of one device.  The key is the one that is derived from the secret; it opens the
bundle, and the key for the successor is derived from it. -/
theorem recovered (xlaws : XAeadLaws C) (hmade : B.Made C P)
    (honest : B.Honest log identity directory) (hforge : Unforged C log (recordsOf b m rs))
    (hwf : ∀ record ∈ b::m::rs, (Json.obj record).WF)
    (hb : verifyBundle C host b identity = .ok true) (hbid : OfBundle b B.bundleId)
    (hm : verifyManifest C m identity = .ok true) (hmid : OfBundle m B.bundleId)
    (hcross : crossCheckManifestContributors m directory userId = .ok none)
    (hrs : ∀ s ∈ rs, Accepted C m s)
    (hcount : ∀ x, lookup m (js "threshold") = some (.num x) → x.toNat ≤ rs.length) :
    (∀ key, combineShares (rs.map shareOf) = .ok key → key = B.key) ∧
    ((rs.map fun s => textAt s (js "device_id")).Nodup →
      combineShares (rs.map shareOf) = .ok B.key) ∧
    deriveBundleKey P B.secret (lookup b (js "kdf")) = .ok B.key ∧
    openBundle C b B.key = .ok B.payload.reparse ∧
    ∃ seed verifyPub ms, deriveRecoverySignKey C P B.key = .ok (seed,verifyPub) ∧
      lookup b (js "recovery_verify_pk") = some (.obj ms) ∧
      lookup ms (js "public_key") = some (.str (Base64.encode verifyPub)) := by
  have hbin : (.recoveryBundle,b) ∈ recordsOf b m rs := List.mem_cons_self
  have hmin : (.recoveryManifest,m) ∈ recordsOf b m rs :=
    List.mem_cons_of_mem _ List.mem_cons_self
  have hsin {s : Members} (hs : s ∈ rs) : (.recoveryShare,s) ∈ recordsOf b m rs :=
    List.mem_cons_of_mem _ (List.mem_cons_of_mem _ (List.mem_map_of_mem hs))
  obtain ⟨hbwf,hwf⟩ := List.forall_mem_cons.mp hwf
  obtain ⟨hmwf,hswf⟩ := List.forall_mem_cons.mp hwf
  obtain ⟨totalShares,rand,hsplit⟩ := hmade.split
  obtain ⟨t,n,randomBuf,ht,htwo,htn,hn,-,hshares⟩ := splitSecret_ok hsplit
  have h16 {k : ℕ} (hk : k ≤ 16) : k < 2^53 := hk.trans_lt (by norm_num)
  have hindex : ∀ s ∈ B.shares, ∃ k, 0 < k ∧ k < 2^53 ∧ s.index = .ofNat k := by
    intro s hs
    rw [hshares] at hs
    obtain ⟨i,hi,rfl⟩ := List.mem_map.mp hs
    have hlt := List.mem_range.mp hi
    exact ⟨i+1,by omega,h16 (by omega),rfl⟩
  obtain ⟨owns,howns⟩ := validateManifest_ok (RecoverySpec.verify_true hmwf hm).1
  have hread {s : Members} (hs : s ∈ rs) := honest.share_read hindex hforge (hsin hs)
    (hswf s hs) howns hmid hcross (hrs s hs)
  have hint : B.threshold.isInteger = true := by
    rw [ht]
    exact Number.isInteger_ofNat (h16 (htn.trans hn))
  have hlow : B.threshold.lt (.ofNat 1) = false := by
    rw [ht,Number.lt_ofNat (h16 (htn.trans hn)) (by norm_num),decide_eq_false_iff_not]
    omega
  have hthreshold := honest.threshold_read hint hlow hforge hmin hmwf hm hmid
  have hmem : ∀ s ∈ rs.map shareOf, s ∈ B.shares := by
    intro s hs
    obtain ⟨r,hr,rfl⟩ := List.mem_map.mp hs
    exact (hread hr).1
  obtain ⟨hsound,hcomplete⟩ := combine_split hsplit hmem
    (by rw [List.length_map]; exact hcount _ hthreshold)
  obtain ⟨⟨kdf,hkdf,hnorm⟩,hnonce,hct,ms,ns,hms,hmsnorm,hpub,hns⟩ :=
    honest.bundle_read hforge hbin hbwf hb hbid
  refine ⟨hsound,fun hdevices => hcomplete ?_,?_,?_,?_⟩
  · rw [List.map_map,List.nodup_iff_pairwise_ne,List.pairwise_map]
    rw [List.nodup_iff_pairwise_ne,List.pairwise_map] at hdevices
    refine List.Pairwise.imp_of_mem (fun {s s'} hs hs' hne heq => hne ?_) hdevices
    obtain ⟨hs₁,own,hown,hi,hd⟩ := hread hs
    obtain ⟨-,own',hown',hi',hd'⟩ := hread hs'
    obtain ⟨k,-,hk,hks⟩ := hindex _ hs₁
    have heq : (shareOf s).index = (shareOf s').index := heq
    rw [hd,hd',howns.eq_of_index hown hown' hk (hi.trans hks) (hi'.trans (heq.symm.trans hks))]
  · rw [hkdf]
    exact deriveBundleKey_congr hmade.wf_kdf (Json.wf_of_lookup hbwf hkdf) hnorm
      hmade.derived
  · rw [openBundle,hnonce,hct,Base64.decode_encode,Base64.decode_encode]
    exact decrypt_encrypt xlaws hmade.wf_payload hmade.encrypted
  · obtain ⟨seed,hseed⟩ := hmade.signer
    exact ⟨seed,B.verifyPub,ms,hseed,hms,(Json.lookup_str_of_norm
      (Json.wf_of_lookup hbwf hms) hns hmsnorm).mpr hpub⟩

end Recover

section Example

def samplePlatform : Platform where
  normalizeNFKC := id
  argon2id := fun secret salt _ _ _ => .ok (Sample.digest (secret++salt)).val
  hmacSha512 := fun key message =>
    ⟨Sample.fit 64 (Sample.digest (key++message)).val,Sample.fit_length ..⟩

def sampleKdf : Members :=
  [(algorithmKey,.str kdfAlgorithmArgon2id),
    (js "salt",.str (Base64.encode (List.replicate 16 7))),
    (js "memory_kb",.num (.ofNat 65536)),(js "iterations",.num (.ofNat 2)),
    (js "parallelism",.num (.ofNat 1))]

def sampleSecret : Bytes := utf8 (js "correct horse")
def sampleKey : Bytes := (Sample.digest (sampleSecret++List.replicate 16 7)).val
def samplePayload : Json := .obj [(js "receipts",.arr [])]
def sampleNonce : Bytes := List.replicate 24 3

/-- What a call returns. -/
def returned {α : Type} (default : α) (f : Js α) : α :=
  match f with
  | .ok a => a
  | .error _ => default

def sampleShares : List ShamirShare :=
  returned [] (splitSecret sampleKey (.ofNat 2) (.ofNat 3) fun _ => .ok (List.replicate 32 9))

def sampleSigner : Bytes×Bytes :=
  returned ([],[]) (deriveRecoverySignKey Sample.crypto samplePlatform sampleKey)

def sampleBackup : Backup where
  bundleId := js "b"
  secret := sampleSecret
  kdf := sampleKdf
  key := sampleKey
  payload := samplePayload
  nonce := sampleNonce
  ciphertext := returned [] (encryptBundlePayload Sample.crypto sampleKey sampleNonce samplePayload)
  verifyPub := sampleSigner.2
  threshold := .ofNat 2
  shares := sampleShares

def sampleBundle : Members :=
  [(js "type",.str bundleType),(js "version",.str (js "1.0.0")),(js "user_id",.str (js "u")),
    (js "bundle_id",.str (js "b")),(js "created_at",.str (js "1970-01-01T00:00:00Z")),
    (js "supersedes",.null),(js "kdf",.obj sampleKdf),
    (js "payload_algorithm",.str bundlePayloadAEAD),
    (js "payload_nonce",.str (Base64.encode sampleNonce)),
    (js "encrypted_payload",.str (js "eyJyZWNlaXB0cyI6W1193cGtdoVIJbldXthzbh5Etg==")),
    (js "recovery_verify_pk",.obj [(algorithmKey,.str signatureAlgorithmEd25519),
      (js "public_key",.str (js "FecxveeICB+gHOJ60VpGKRwCViWA2R/dy3vb9hzOkOc="))]),
    (signatureKey,signatureBlock signatureAlgorithmEd25519 (js "k")
      (js "/g+3UqshM26rU0cbMV5TSrA4qvhn15Bf3vl4Gbx92hIA"++
        js "AAAAAAAAAAAAAAAAAAAAAAAAAAAAAAAAAAAAAAAAAA=="))]

/-- The public key of a device, which is also its seed here. -/
def sampleSeed (i : UInt8) : Bytes := List.replicate 32 i

def sampleDevice (i : UInt8) : JsString := js "device-"++[48+i.toUInt16]

def sampleContributor (i : UInt8) : Json :=
  .obj [(js "share_index",.num (.ofNat i.toNat)),(js "device_id",.str (sampleDevice i)),
    (js "device_identity_pubkey",.obj [(algorithmKey,.str signatureAlgorithmEd25519),
      (js "public_key",.str (Base64.encode (sampleSeed i)))])]

def sampleManifest : Members :=
  [(js "type",.str recoverySetManifestType),(js "bundle_id",.str (js "b")),
    (js "threshold",.num (.ofNat 2)),(js "total_shares",.num (.ofNat 3)),
    (js "contributors",.arr [sampleContributor 1,sampleContributor 2,sampleContributor 3]),
    (js "issued_at",.str (js "1970-01-01T00:00:00Z")),
    (signatureKey,signatureBlock signatureAlgorithmEd25519 (js "k")
      (js "gh0zJg8I4kZInceg1dZ5wwoevWfYw7Na3zrTgDGgXD0A"++
        js "AAAAAAAAAAAAAAAAAAAAAAAAAAAAAAAAAAAAAAAAAA=="))]

def sampleShare (i : UInt8) (value signature : JsString) : Members :=
  [(js "type",.str recoveryShareRecordType),(js "bundle_id",.str (js "b")),
    (js "share_index",.num (.ofNat i.toNat)),(js "device_id",.str (sampleDevice i)),
    (js "threshold",.num (.ofNat 2)),(js "total_shares",.num (.ofNat 3)),
    (js "share_value",.str value),
    (js "issued_at",.str (js "1970-01-01T00:00:00Z")),
    (deviceSignatureKey,signatureBlock signatureAlgorithmEd25519 (js "k") signature)]

def firstShare : Members :=
  sampleShare 1 (js "yWJFM9+CcbtXw/PvfQU/c8CGEzHIWVe5a/G8DHkJCQk=") (js "TLd7VnKoOXLL+UntBhVyR5MMGKIR7VA9iyttUf9S2tEA"++
    js "AAAAAAAAAAAAAAAAAAAAAAAAAAAAAAAAAAAAAAAAAA==")

def thirdShare : Members :=
  sampleShare 3 (js "23BXIc2QY6lF0eH9bxctYdKUASPaS0WreeOuHmsbGxs=") (js "Z2kLPwX0ZaMxt9xcCzmE2EA1m+Fcgr4kxc+1ALRFhNAA"++
    js "AAAAAAAAAAAAAAAAAAAAAAAAAAAAAAAAAAAAAAAAAA==")

def sampleDirectory : DirectoryView where
  userId := js "u"
  findDevice := fun d =>
    match [1,2,3].find? fun i => sampleDevice i == d with
    | some i => ⟨signatureAlgorithmEd25519,Base64.encode (sampleSeed i),true⟩
    | none => ⟨[],[],false⟩


theorem returned_eq_ok {α : Type} {default : α} {f : Js α} (h : f.toOption.isSome = true) :
    f = .ok (returned default f) := by
  cases f with
  | ok a => rfl
  | error e => cases h

theorem ok_of_toOption {α : Type} {f : Js α} {a : α} (h : f.toOption = some a) : f = .ok a := by
  cases f with
  | ok b => exact congrArg Except.ok (Option.some.inj h)
  | error e => cases h

/-- What the calls on the sample give, evaluated together. -/
theorem sample_evaluated :
    (verifyBundle Sample.crypto sampleHost sampleBundle (sampleSeed 9)).toOption = some true ∧
    (verifyManifest Sample.crypto sampleManifest (sampleSeed 9)).toOption = some true ∧
    (verifyShareRecord Sample.crypto firstShare (sampleSeed 1)).toOption = some true ∧
    (verifyShareRecord Sample.crypto thirdShare (sampleSeed 3)).toOption = some true ∧
    (checkShareMatchesManifest firstShare sampleManifest).toOption = some true ∧
    (checkShareMatchesManifest thirdShare sampleManifest).toOption = some true ∧
    (splitSecret sampleKey (.ofNat 2) (.ofNat 3) fun _ =>
      .ok (List.replicate 32 9)).toOption.isSome = true ∧
    (encryptBundlePayload Sample.crypto sampleKey sampleNonce samplePayload).toOption.isSome =
      true ∧
    (deriveRecoverySignKey Sample.crypto samplePlatform sampleKey).toOption.isSome = true ∧
    (deriveBundleKey samplePlatform sampleSecret (some (.obj sampleKdf))).toOption =
      some sampleKey ∧
    js "eyJyZWNlaXB0cyI6W1193cGtdoVIJbldXthzbh5Etg==" = Base64.encode sampleBackup.ciphertext ∧
    js "FecxveeICB+gHOJ60VpGKRwCViWA2R/dy3vb9hzOkOc=" = Base64.encode sampleBackup.verifyPub ∧
    (sampleShares.any fun s => s.index == .ofNat 1 &&
      Base64.encode s.value == js "yWJFM9+CcbtXw/PvfQU/c8CGEzHIWVe5a/G8DHkJCQk=") = true ∧
    (sampleShares.any fun s => s.index == .ofNat 3 &&
      Base64.encode s.value == js "23BXIc2QY6lF0eH9bxctYdKUASPaS0WreeOuHmsbGxs=") = true ∧
    ([firstShare,thirdShare].map fun s => textAt s (js "device_id")).Nodup := by
  decide +kernel

theorem wf_sampleKdf : (Json.obj sampleKdf).WF :=
  Json.wf_obj.mpr ⟨by simp only [sampleKdf,keys,List.map]; decide,by simp [sampleKdf]⟩

theorem wf_samplePayload : samplePayload.WF :=
  Json.wf_obj.mpr ⟨List.nodup_singleton _,by simp [Json.wf_arr]⟩

theorem sampleBackup_threshold : sampleBackup.threshold = .ofNat 2 := by rw [sampleBackup]

theorem sample_made : sampleBackup.Made Sample.crypto samplePlatform := by
  obtain ⟨-,-,-,-,-,-,hsplit,hencrypt,hsigner,hkey,-⟩ := sample_evaluated
  have hciphertext : encryptBundlePayload Sample.crypto sampleKey sampleNonce samplePayload =
    .ok (returned [] (encryptBundlePayload Sample.crypto sampleKey sampleNonce samplePayload)) :=
    returned_eq_ok hencrypt
  have hpair : deriveRecoverySignKey Sample.crypto samplePlatform sampleKey = .ok sampleSigner :=
    returned_eq_ok hsigner
  have hshares : splitSecret sampleKey (.ofNat 2) (.ofNat 3)
    (fun _ => .ok (List.replicate 32 9)) = .ok sampleShares := returned_eq_ok hsplit
  exact {
    derived := ok_of_toOption hkey
    encrypted := hciphertext
    signer := ⟨sampleSigner.1,hpair⟩
    split := by
      rw [sampleBackup_threshold]
      exact ⟨_,_,hshares⟩
    wf_kdf := wf_sampleKdf
    wf_payload := wf_samplePayload }

/-- Every key has signed what is shown. -/
def sampleLog (_ : Bytes) : List Signed :=
  (recordsOf sampleBundle sampleManifest [firstShare,thirdShare]).map fun r => .record r.1 r.2

theorem wf_signatureBlock (a b c : JsString) : (signatureBlock a b c).WF :=
  Json.wf_obj.mpr ⟨by simp only [keys,List.map]; decide,by simp [Json.WF]⟩

theorem wf_sampleContributor (i : UInt8) : (sampleContributor i).WF := by
  refine Json.wf_obj.mpr ⟨by simp only [keys,List.map]; decide,?_⟩
  have hkey : (Json.obj [(algorithmKey,.str signatureAlgorithmEd25519),
      (js "public_key",.str (Base64.encode (sampleSeed i)))]).WF :=
    Json.wf_obj.mpr ⟨by simp only [keys,List.map]; decide,by simp [Json.WF]⟩
  simp [hkey]

theorem wf_sampleShare (i : UInt8) (value signature : JsString) :
    (Json.obj (sampleShare i value signature)).WF := by
  refine Json.wf_obj.mpr ⟨by simp only [sampleShare,keys,List.map]; decide,?_⟩
  simp [sampleShare,wf_signatureBlock]

theorem wf_sampleManifest : (Json.obj sampleManifest).WF := by
  refine Json.wf_obj.mpr ⟨by simp only [sampleManifest,keys,List.map]; decide,?_⟩
  simp [sampleManifest,wf_signatureBlock,wf_sampleContributor,Json.wf_arr]

theorem wf_sampleBundle : (Json.obj sampleBundle).WF := by
  refine Json.wf_obj.mpr ⟨by simp only [sampleBundle,keys,List.map]; decide,?_⟩
  have hkey : (Json.obj [(algorithmKey,.str signatureAlgorithmEd25519),
      (js "public_key",.str (js "FecxveeICB+gHOJ60VpGKRwCViWA2R/dy3vb9hzOkOc="))]).WF :=
    Json.wf_obj.mpr ⟨by simp only [keys,List.map]; decide,by simp [Json.WF]⟩
  simp [sampleBundle,wf_signatureBlock,wf_sampleKdf,hkey]

theorem sample_wf : ∀ record ∈ sampleBundle::sampleManifest::[firstShare,thirdShare],
    (Json.obj record).WF := by
  simp only [List.forall_mem_cons,List.not_mem_nil,false_imp_iff,implies_true,and_true]
  exact ⟨wf_sampleBundle,wf_sampleManifest,wf_sampleShare ..,wf_sampleShare ..⟩

theorem mem_sampleLog {pub : Bytes} {kind : RecordKind} {doc : Members}
    (h : .record kind doc ∈ sampleLog pub) : (kind = .recoveryBundle ∧ doc = sampleBundle) ∨
      (kind = .recoveryManifest ∧ doc = sampleManifest) ∨
      (kind = .recoveryShare ∧ (doc = firstShare ∨ doc = thirdShare)) := by
  simp only [sampleLog,recordsOf,List.map_cons,List.map_nil,List.mem_cons,List.not_mem_nil,
    or_false,Signed.record.injEq] at h
  rcases h with h | h | ⟨hkind,h⟩ | ⟨hkind,h⟩
  · exact .inl h
  · exact .inr (.inl h)
  · exact .inr (.inr ⟨hkind,.inl h⟩)
  · exact .inr (.inr ⟨hkind,.inr h⟩)

theorem sample_describes : sampleBackup.Describes sampleBundle := by
  obtain ⟨-,-,-,-,-,-,-,-,-,-,hciphertext,hverifyPub,-⟩ := sample_evaluated
  exact {
    kdf := rfl
    nonce := rfl
    ciphertext := by
      rw [← hciphertext]
      rfl
    verifyPub := by
      rw [← hverifyPub]
      exact ⟨_,rfl,rfl⟩ }

theorem sampleShares_have (i : ℕ) (value : JsString)
    (h : (sampleShares.any fun s => s.index == .ofNat i && Base64.encode s.value == value) =
      true) : ∃ s ∈ sampleBackup.shares, s.index = .ofNat i ∧ Base64.encode s.value = value := by
  obtain ⟨s,hs,h⟩ := List.any_eq_true.mp h
  rw [Bool.and_eq_true,beq_iff_eq,beq_iff_eq] at h
  exact ⟨s,hs,h⟩

theorem lookup_sampleShare (i : UInt8) (value signature : JsString) :
    lookup (sampleShare i value signature) (js "share_index") = some (.num (.ofNat i.toNat)) ∧
      lookup (sampleShare i value signature) (js "share_value") = some (.str value) := ⟨rfl,rfl⟩

theorem sampleManifest_threshold :
    lookup sampleManifest (js "threshold") = some (.num (.ofNat 2)) := by
  rw [sampleManifest]
  rfl

theorem sample_honest : sampleBackup.Honest sampleLog (sampleSeed 9) sampleDirectory where
  wf := by
    intro pub x hx
    obtain ⟨r,hr,rfl⟩ := List.mem_map.mp hx
    refine sample_wf r.2 ?_
    simp only [recordsOf,List.map_cons,List.map_nil,List.mem_cons,List.not_mem_nil,or_false] at hr
    rcases hr with rfl | rfl | rfl | rfl <;> simp
  bundle := by
    intro doc hdoc _
    rcases mem_sampleLog hdoc with ⟨-,rfl⟩ | ⟨hkind,-⟩ | ⟨hkind,-⟩
    · exact sample_describes
    · cases hkind
    · cases hkind
  manifest := by
    intro doc hdoc _
    rcases mem_sampleLog hdoc with ⟨hkind,-⟩ | ⟨-,rfl⟩ | ⟨hkind,-⟩
    · cases hkind
    · rw [sampleBackup_threshold]
      exact sampleManifest_threshold
    · cases hkind
  share := by
    intro device doc _ hdoc _
    obtain ⟨-,-,-,-,-,-,-,-,-,-,-,-,hfirst,hthird,-⟩ := sample_evaluated
    rcases mem_sampleLog hdoc with ⟨hkind,-⟩ | ⟨hkind,-⟩ | ⟨-,rfl | rfl⟩
    · cases hkind
    · cases hkind
    · obtain ⟨s,hs,hindex,hvalue⟩ := sampleShares_have 1 _ hfirst
      exact ⟨s,hs,by rw [hindex]; exact (lookup_sampleShare ..).1,
        by rw [hvalue]; exact (lookup_sampleShare ..).2⟩
    · obtain ⟨s,hs,hindex,hvalue⟩ := sampleShares_have 3 _ hthird
      exact ⟨s,hs,by rw [hindex]; exact (lookup_sampleShare ..).1,
        by rw [hvalue]; exact (lookup_sampleShare ..).2⟩

theorem sample_unforged : Unforged Sample.crypto sampleLog
    (recordsOf sampleBundle sampleManifest [firstShare,thirdShare]) :=
  fun r hr _ _ _ hbytes _ => ⟨.record r.1 r.2,List.mem_map_of_mem hr,hbytes⟩

theorem sample_accepted : ∀ s ∈ [firstShare,thirdShare],
    Accepted Sample.crypto sampleManifest s := by
  simp only [List.forall_mem_cons,List.not_mem_nil,false_imp_iff,implies_true,and_true]
  obtain ⟨-,-,hfirst,hthird,hmatches,hmatches',-⟩ := sample_evaluated
  constructor
  · refine ⟨ok_of_toOption hmatches,_,sampleContributor 1,_,rfl,List.mem_cons_self,rfl,rfl,?_⟩
    rw [Base64.decode_encode]
    exact ok_of_toOption hfirst
  · refine ⟨ok_of_toOption hmatches',_,sampleContributor 3,_,rfl,by simp,rfl,rfl,?_⟩
    rw [Base64.decode_encode]
    exact ok_of_toOption hthird

theorem recovered_sample :
    combineShares ([firstShare,thirdShare].map shareOf) = .ok sampleKey ∧
      openBundle Sample.crypto sampleBundle sampleKey = .ok samplePayload.reparse := by
  have hcross : crossCheckManifestContributors sampleManifest sampleDirectory (js "u") =
      .ok none := by rfl
  have hcount : ∀ x, lookup sampleManifest (js "threshold") = some (.num x) → x.toNat ≤ 2 := by
    intro x hx
    obtain rfl : Number.ofNat 2 = x := Json.num.inj (Option.some.inj hx)
    rw [Number.toNat_ofNat (by norm_num)]
  obtain ⟨hbundle,hmanifest,-,-,-,-,-,-,-,-,-,-,-,-,hdevices⟩ := sample_evaluated
  obtain ⟨-,hkey,-,hopen,-⟩ := recovered LargeAttachment.sample_xlaws sample_made sample_honest
    sample_unforged sample_wf (ok_of_toOption hbundle) rfl (ok_of_toOption hmanifest) rfl hcross
    sample_accepted hcount
  exact ⟨hkey hdevices,hopen⟩

end Example

end Recovery
end Semp
