import Semp.Merkle
import Semp.SignedDoc

/-! The operator's log: entries are checked, hashed and appended, tree heads are
signed, and proofs are computed against the current leaves.  A log keeps its leaf
hashes as a field, so every log is one that appends have built. -/
namespace Semp
namespace TransparencyLog

open Merkle

def transparencySTHPrefix : JsString := js "SEMP-TRANSPARENCY-STH:"
def signatureAlgorithmEd25519 : JsString := js "ed25519"

/-- The source writes `undefined`, `null` and `""` as one condition. -/
def isUnset : Option Json → Bool
  | none | some .null | some (.str []) => true
  | _ => false

def isText : Option Json → Bool
  | some (.str (_::_)) => true
  | _ => false

def requireFields (e : Members) : List JsString → Js Unit
  | [] => .ok ()
  | f::fs =>
    if !isText (lookup e f) then raise (js "transparency: log entry missing "++f)
    else requireFields e fs

section Validation
variable (host : Host)

def requireDate (e : Members) (f : JsString) : Js Unit :=
  match lookup e f with
  | some (.str (u::s)) =>
    if (host.dateParse (u::s)).isNaN then
      raise (js "transparency: log entry missing or invalid "++f)
    else .ok ()
  | _ => raise (js "transparency: log entry missing or invalid "++f)

def validateLogEntry (e : Members) : Js Unit := do
  let event := lookup e (js "event")
  if !isStr event (js "publish") && !isStr event (js "rotate") && !isStr event (js "revoke") then
    raise (js "transparency: log entry event "++stringifyText event++js " is invalid")
  requireFields e [js "user_id",js "key_id",js "algorithm",js "public_key"]
  let keyType := lookup e (js "key_type")
  if !isStr keyType (js "identity") && !isStr keyType (js "encryption") then
    raise (js "transparency: log entry key_type "++stringifyText keyType++js " is invalid")
  requireDate host e (js "created")
  requireDate host e (js "log_timestamp")
  if isStr event (js "rotate") then
    if isUnset (lookup e (js "supersedes")) then
      raise (js "transparency: rotate event MUST set supersedes")
    else .ok ()
  else if isStr event (js "publish") then
    if !isUnset (lookup e (js "supersedes")) then
      raise (js "transparency: publish event MUST NOT set supersedes")
    else .ok ()
  else if isUnset (lookup e (js "revoked_at")) then
    raise (js "transparency: revoke event MUST set revoked_at")
  else if isUnset (lookup e (js "revoked_reason")) then
    raise (js "transparency: revoke event MUST set revoked_reason")
  else .ok ()

/-- `sth.signature?.k` must be a string. -/
def requireSignature (sth : Members) (k : JsString) (message : JsString) : Js Unit := do
  let signature := lookup sth (js "signature")
  let v ← match signature with
    | none | some .null => .ok none
    | some v => getProp (some v) k
  match v with
  | some (.str _) => .ok ()
  | _ => raise message

def validateSTH (sth : Members) : Js Unit := do
  match lookup sth (js "log_size") with
  | some (.num x) =>
    if !x.isInteger || x.lt (.ofNat 0) then
      raise (js "transparency: STH log_size "++NumberText.toText x++js " MUST be >= 0")
  | v =>
    let text ← templateText v
    raise (js "transparency: STH log_size "++text++js " MUST be >= 0")
  if !isText (lookup sth (js "root_hash")) then raise (js "transparency: STH missing root_hash")
  match lookup sth (js "timestamp") with
  | some (.str (u::s)) =>
    if (host.dateParse (u::s)).isNaN then
      raise (js "transparency: STH timestamp is not ISO 8601")
  | _ => raise (js "transparency: STH missing timestamp")
  requireSignature sth (js "algorithm") (js "transparency: STH missing signature.algorithm")
  requireSignature sth (js "key_id") (js "transparency: STH missing signature.key_id")
  requireSignature sth (js "value") (js "transparency: STH signature.value must be a string")

end Validation

def signaturePath : JsString := js "signature.value"

def signatureBlock (algorithm keyId value : JsString) : Json :=
  .obj [(js "algorithm",.str algorithm),(js "key_id",.str keyId),(js "value",.str value)]

/-- The tree head `issueSTH` fills in and hands to `signSTH`. -/
def preSign (logSize : ℕ) (rootHash timestamp : JsString) : Members :=
  [(js "log_size",.num (.ofNat logSize)),(js "root_hash",.str rootHash),
    (js "timestamp",.str timestamp),(js "signature",signatureBlock [] [] [])]

theorem signatureBlock_wf (algorithm keyId value : JsString) :
    (signatureBlock algorithm keyId value).WF :=
  Json.wf_obj.mpr ⟨by simp only [keys,List.map]; decide,by simp [Json.WF]⟩

theorem preSign_wf (logSize : ℕ) (rootHash timestamp : JsString) :
    (Json.obj (preSign logSize rootHash timestamp)).WF :=
  Json.wf_obj.mpr ⟨by simp only [preSign,keys,List.map]; decide,
    by simp [preSign,Json.WF,signatureBlock_wf]⟩

theorem validateSTH_preSign (host : Host) {logSize : ℕ} {rootHash : JsString} {u : UInt16}
    {s : JsString} (hsize : logSize < 2^53) (hroot : rootHash ≠ [])
    (hdate : (host.dateParse (u::s)).isNaN = false) :
    validateSTH host (preSign logSize rootHash (u::s)) = .ok () := by
  have hint : (Number.ofNat logSize).isInteger = true := Number.isInteger_ofNat hsize
  have hlt : (Number.ofNat logSize).lt (.ofNat 0) = false := by
    rw [Number.lt_ofNat hsize (by omega)]
    simp
  have h₁ : lookup (preSign logSize rootHash (u::s)) (js "log_size") =
    some (.num (.ofNat logSize)) := rfl
  have h₂ : lookup (preSign logSize rootHash (u::s)) (js "root_hash") = some (.str rootHash) := rfl
  have h₃ : lookup (preSign logSize rootHash (u::s)) (js "timestamp") = some (.str (u::s)) := rfl
  have h₄ (k message : JsString) (hk : k ∈ [js "algorithm",js "key_id",js "value"]) :
      requireSignature (preSign logSize rootHash (u::s)) k message = .ok () := by
    simp only [List.mem_cons,List.not_mem_nil,or_false] at hk
    rcases hk with rfl | rfl | rfl <;> rfl
  have htext : isText (some (.str rootHash)) = true := by
    obtain ⟨v,t,rfl⟩ := List.exists_cons_of_ne_nil hroot
    rfl
  simp [validateSTH,h₁,h₂,h₃,h₄,hint,hlt,htext,hdate]

structure LogConfig where
  domainSigningSeed : Bytes
  domainKeyId : JsString

section Code
variable (C : Crypto) (host : Host)

def hashLeafFromEntry (entry : Members) : Js Digest := do
  let bytes ← Canonical.marshal (.obj entry)
  .ok (hashLeaf C bytes)

def signSTH (sth : Members) (seed : Bytes) (domainKeyId : JsString) :
    Js SignedDoc.SignResult := do
  if domainKeyId = [] then raise (js "transparency: empty domain key_id")
  validateSTH host sth
  SignedDoc.signSignedDoc C ⟨assign sth (js "signature")
    (signatureBlock signatureAlgorithmEd25519 domainKeyId []),seed,signaturePath,
    transparencySTHPrefix⟩

theorem signSTH_eq_ok {sth : Members} {seed : Bytes} {domainKeyId : JsString}
    {r : SignedDoc.SignResult} (h : signSTH C host sth seed domainKeyId = .ok r) :
    domainKeyId ≠ [] ∧ validateSTH host sth = .ok () ∧ SignedDoc.signSignedDoc C
      ⟨assign sth (js "signature") (signatureBlock signatureAlgorithmEd25519 domainKeyId []),
        seed,signaturePath,transparencySTHPrefix⟩ = .ok r := by
  unfold signSTH at h
  by_cases hk : domainKeyId = []
  · simp [hk] at h
  · rw [if_neg hk] at h
    obtain ⟨_,hv,h⟩ := bind_eq_ok.mp h
    exact ⟨hk,hv,h⟩

theorem signSTH_ok (laws : SignLaws C) {sth : Members} {seed : Bytes} {domainKeyId : JsString}
    (hk : domainKeyId ≠ []) (hv : validateSTH host sth = .ok ()) (hwf : (Json.obj sth).WF)
    (hseed : seed.length = 32) : ∃ r, signSTH C host sth seed domainKeyId = .ok r := by
  have hpath : SignedDoc.splitDots signaturePath = [js "signature",js "value"] := by decide
  have hblank : ∃ blank, SignedDoc.setPath ((assign sth (js "signature") (signatureBlock
      signatureAlgorithmEd25519 domainKeyId [])).map fun m => (m.1,m.2.reparse)) signaturePath [] =
      .ok blank := by
    rw [SignedDoc.setPath,hpath,map_assign]
    refine ⟨_,(SignedDoc.setParts_cons (by simp)).mpr ⟨_,_,lookup_assign_self .. ,rfl,rfl⟩⟩
  obtain ⟨blank,hblank⟩ := hblank
  obtain ⟨r,hr⟩ := SignedDoc.signSignedDoc_ok laws (show (Json.obj (SignedDoc.SignSpec.mk (assign sth (js "signature")
    (signatureBlock signatureAlgorithmEd25519 domainKeyId [])) seed signaturePath
    transparencySTHPrefix).preSignJSON).WF from Json.wf_assign hwf (signatureBlock_wf ..) _) hseed hblank
  exact ⟨r,by simp only [signSTH,if_neg hk,hv,ok_bind,hr]⟩

/-- A log with its configuration; an array holds fewer than 2^32 items. -/
structure Log where
  cfg : LogConfig
  entries : List Members
  leaves : List Digest
  keyId_ne : cfg.domainKeyId ≠ []
  seed_length : cfg.domainSigningSeed.length = 32
  hashed : List.Forall₂ (fun e leaf => hashLeafFromEntry C e = .ok leaf) entries leaves
  bounded : leaves.length < 2^32

namespace Log

/-- `new Log(cfg)` -/
def create (cfg : LogConfig) : Js (Log C) :=
  if hk : cfg.domainKeyId = [] then raise (js "transparency: log requires domainKeyId")
  else if hs : cfg.domainSigningSeed.length ≠ 32 then
    raise (js "transparency: log requires 32-byte domainSigningSeed")
  else .ok ⟨cfg,[],[],hk,not_not.mp hs,.nil,by norm_num⟩

variable {C}

/-- Pushing past the longest array throws. -/
def append (log : Log C) (entry : Members) : Js (ℕ × Log C) :=
  match validateLogEntry host entry with
  | .error e => .error e
  | .ok () =>
    match hleaf : hashLeafFromEntry C entry with
    | .error e => .error e
    | .ok leaf =>
      if hb : log.leaves.length+1 < 2^32 then
        .ok (log.leaves.length,
          { log with
            entries := log.entries++[entry]
            leaves := log.leaves++[leaf]
            hashed := List.rel_append log.hashed (.cons hleaf .nil)
            bounded := by simpa using hb })
      else .error (.engine .rangeError)

/-- The log after a sequence of appends; one that throws leaves it as it is. -/
def appendAll (log : Log C) (entries : List Members) : Log C :=
  entries.foldl (fun log entry =>
    match log.append host entry with
    | .ok r => r.2
    | .error _ => log) log

def size (log : Log C) : ℕ := log.leaves.length

/-- `null` when the index is out of range. -/
def entry (log : Log C) (index : Number) : Option Members :=
  if !index.isInteger || index.lt (.ofNat 0) || Number.le (.ofNat log.entries.length) index then
    none
  else log.entries[index.toNat]?

/-- `iso.replace(/\.\d{3}Z$/, "Z")` -/
def isoSecond (iso : JsString) : JsString :=
  let tail := iso.drop (iso.length-5)
  if 5 ≤ iso.length ∧ tail.head? = some SignedDoc.dot ∧ ((tail.drop 1).take 3).all NumberText.isDigit ∧
      tail.drop 4 = js "Z" then iso.take (iso.length-5)++js "Z"
  else iso

/-- `now` is the time value of the log's clock. -/
def issueSTH (log : Log C) (now : Number) : Js Members := do
  let root := subtreeRoot C log.leaves
  let iso ← host.toISOString now
  let r ← signSTH C host (preSign log.leaves.length (encodeHash root) (isoSecond iso))
    log.cfg.domainSigningSeed log.cfg.domainKeyId
  .ok r.signedJSON

def inclusionProof (log : Log C) (leafIndex treeSize : Number) : Js InclusionProof := do
  if !treeSize.isInteger || treeSize.le (.ofNat 0) then
    raise (js "transparency: invalid treeSize "++NumberText.toText treeSize)
  if Number.lt (.ofNat log.leaves.length) treeSize then
    raise (js "transparency: treeSize "++NumberText.toText treeSize++js " exceeds current size "++
      natText log.leaves.length)
  if !leafIndex.isInteger || leafIndex.lt (.ofNat 0) || treeSize.le leafIndex then
    raise (js "transparency: leafIndex "++NumberText.toText leafIndex++js " out of [0, "++
      NumberText.toText treeSize++js ")")
  let leaves := log.leaves.take treeSize.toNat
  let siblings := auditPath C leafIndex.toNat leaves
  .ok ⟨treeSize,encodeHash (leaves.getD leafIndex.toNat zeroDigest),leafIndex,
    siblings.map encodeHash⟩

def consistencyProof (log : Log C) (firstSize secondSize : Number) : Js ConsistencyProof := do
  if !firstSize.isInteger || !secondSize.isInteger || firstSize.le (.ofNat 0) ||
      secondSize.le (.ofNat 0) then
    raise (js "transparency: invalid sizes ("++NumberText.toText firstSize++js ", "++
      NumberText.toText secondSize++js ")")
  if secondSize.lt firstSize then
    raise (js "transparency: firstSize "++NumberText.toText firstSize++js " > secondSize "++
      NumberText.toText secondSize)
  if Number.lt (.ofNat log.leaves.length) secondSize then
    raise (js "transparency: secondSize "++NumberText.toText secondSize++
      js " exceeds current size "++natText log.leaves.length)
  let second := log.leaves.take secondSize.toNat
  let path ← subproof C firstSize.toNat second true
  .ok ⟨firstSize,secondSize,path.map encodeHash⟩

theorem append_eq_ok {log log' : Log C} {e : Members} {i : ℕ}
    (h : log.append host e = .ok (i,log')) : i = log.leaves.length ∧ log'.cfg = log.cfg ∧
      ∃ leaf, hashLeafFromEntry C e = .ok leaf ∧ log'.entries = log.entries++[e] ∧
        log'.leaves = log.leaves++[leaf] := by
  unfold append at h
  split at h
  · simp at h
  · split at h
    · simp at h
    · next leaf hleaf =>
      split_ifs at h with hb
      obtain ⟨rfl,rfl⟩ := Prod.mk.inj (Except.ok.inj h)
      exact ⟨rfl,rfl,leaf,hleaf,rfl,rfl⟩

/-- Appends never change the leaves that are there. -/
theorem leaves_appendAll (log : Log C) (entries : List Members) :
    log.leaves <+: (log.appendAll host entries).leaves ∧
      (log.appendAll host entries).cfg = log.cfg := by
  induction entries generalizing log with
  | nil => exact ⟨List.prefix_rfl,rfl⟩
  | cons e entries ih =>
    have hstep : log.appendAll host (e::entries) = (match log.append host e with
      | .ok r => r.2
      | .error _ => log).appendAll host entries := rfl
    rw [hstep]
    cases he : log.append host e with
    | error err => exact ih log
    | ok r =>
      obtain ⟨i,log'⟩ := r
      obtain ⟨-,hcfg,leaf,-,-,hleaves⟩ := append_eq_ok host he
      obtain ⟨hp,hc⟩ := ih log'
      refine ⟨List.IsPrefix.trans ?_ hp,hc.trans hcfg⟩
      rw [hleaves]
      exact List.prefix_append _ _

theorem inclusionProof_eq (log : Log C) {n i : ℕ} (hn : n ≤ log.leaves.length) (hi : i < n) :
    log.inclusionProof (.ofNat i) (.ofNat n) = .ok ⟨.ofNat n,
      encodeHash (log.leaves.getD i zeroDigest),.ofNat i,
      (auditPath C i (log.leaves.take n)).map encodeHash⟩ := by
  have hb := log.bounded
  have hget : (log.leaves.take n).getD i zeroDigest = log.leaves.getD i zeroDigest := by
    rw [List.getD_eq_getElem?_getD,List.getElem?_take_of_lt hi,← List.getD_eq_getElem?_getD]
  rw [inclusionProof,Number.isInteger_ofNat (by omega),Number.isInteger_ofNat (by omega),
    Number.le_ofNat (by omega) (by omega),Number.lt_ofNat (by omega) (by omega),
    Number.lt_ofNat (by omega) (by omega),Number.le_ofNat (by omega) (by omega),
    Number.toNat_ofNat (by omega),Number.toNat_ofNat (by omega)]
  rw [if_neg (by simp; omega),if_neg (by simp; omega),if_neg (by simp; omega),← hget]

theorem consistencyProof_eq (log : Log C) {m n : ℕ} (h0 : 0 < m) (hm : m ≤ n)
    (hn : n ≤ log.leaves.length) : ∃ path, subproof C m (log.leaves.take n) true = .ok path ∧
      log.consistencyProof (.ofNat m) (.ofNat n) =
        .ok ⟨.ofNat m,.ofNat n,path.map encodeHash⟩ := by
  have hb := log.bounded
  have hsub := subproof_eq C true h0 (by rw [List.length_take]; omega : m ≤ (log.leaves.take n).length)
  refine ⟨_,hsub,?_⟩
  rw [consistencyProof,Number.isInteger_ofNat (by omega),Number.isInteger_ofNat (by omega),
    Number.le_ofNat (by omega) (by omega),Number.le_ofNat (by omega) (by omega),
    Number.lt_ofNat (by omega) (by omega),Number.lt_ofNat (by omega) (by omega),
    Number.toNat_ofNat (by omega),Number.toNat_ofNat (by omega)]
  rw [if_neg (by simp; omega),if_neg (by simp; omega),if_neg (by simp; omega)]
  simp only [hsub]
  rfl

theorem append_ok (log : Log C) {e : Members} (hv : validateLogEntry host e = .ok ())
    (hwf : (Json.obj e).WF) (hb : log.leaves.length+1 < 2^32) :
    ∃ log', log.append host e = .ok (log.leaves.length,log') := by
  have hhash : hashLeafFromEntry C e = .ok (hashLeaf C (Canonical.canonicalBytes (.obj e))) := by
    rw [hashLeafFromEntry,Canonical.marshal_eq hwf]
    rfl
  unfold append
  rw [hv]
  dsimp only
  split
  · next err herr => rw [hhash] at herr; simp at herr
  · exact ⟨_,dif_pos hb⟩

theorem size_appendAll (log : Log C) (entries : List Members)
    (hv : ∀ e ∈ entries, validateLogEntry host e = .ok () ∧ (Json.obj e).WF)
    (hb : log.size+entries.length < 2^32) :
    (log.appendAll host entries).size = log.size+entries.length := by
  induction entries generalizing log with
  | nil => rfl
  | cons e entries ih =>
    rw [List.length_cons,size] at hb
    obtain ⟨hve,hwf⟩ := hv e (by simp)
    obtain ⟨log',he⟩ := append_ok host log hve hwf (by omega)
    obtain ⟨-,-,leaf,-,-,hleaves⟩ := append_eq_ok host he
    have hsize : log'.size = log.size+1 := by
      rw [size,hleaves,List.length_append]
      rfl
    have hstep : log.appendAll host (e::entries) = log'.appendAll host entries := by
      change (match log.append host e with
        | .ok r => r.2
        | .error _ => log).appendAll host entries = _
      rw [he]
    rw [hstep,ih log' (fun e' he' => hv e' (by simp [he'])) (by rw [hsize,size]; omega),hsize,
      List.length_cons]
    omega

/-- A tree head states the size and the root of the log that signed it. -/
theorem issueSTH_eq_ok {log : Log C} {now : Number} {sth : Members}
    (h : log.issueSTH host now = .ok sth) :
    lookup sth (js "log_size") = some (.num (.ofNat log.size)) ∧
      lookup sth (js "root_hash") = some (.str (encodeHash (subtreeRoot C log.leaves))) := by
  obtain ⟨iso,-,h⟩ := bind_eq_ok.mp h
  obtain ⟨r,hr,h⟩ := bind_eq_ok.mp h
  obtain rfl := Except.ok.inj h
  obtain ⟨-,-,hr⟩ := signSTH_eq_ok C host hr
  have hwf := Json.wf_assign (preSign_wf log.leaves.length (encodeHash (subtreeRoot C log.leaves))
    (isoSecond iso)) (signatureBlock_wf signatureAlgorithmEd25519 log.cfg.domainKeyId [])
    (js "signature")
  obtain ⟨-,-,-,-,-,-,hset⟩ := SignedDoc.signSignedDoc_eq_ok hr hwf
  have hpath : SignedDoc.splitDots signaturePath = [js "signature",js "value"] := by decide
  rw [SignedDoc.setPath,hpath] at hset
  constructor
  · rw [SignedDoc.lookup_setParts hset (by decide),lookup_map,lookup_assign_ne _ (by decide),
      preSign,lookup,if_pos rfl,Option.map_some,Json.reparse,if_pos,Number.dropNegZero_ofNat,size]
    exact Number.isFinite_ofNat (by have := log.bounded; omega)
  · rw [SignedDoc.lookup_setParts hset (by decide),lookup_map,lookup_assign_ne _ (by decide)]
    rfl

/-- A log signs a tree head whenever its clock gives a date. -/
theorem issueSTH_ok (laws : SignLaws C) (log : Log C) (now : Number) {iso : JsString} {u : UInt16}
    {t : JsString} (hiso : host.toISOString now = .ok iso) (ht : isoSecond iso = u::t)
    (hdate : (host.dateParse (u::t)).isNaN = false) : ∃ sth, log.issueSTH host now = .ok sth := by
  have hroot : encodeHash (subtreeRoot C log.leaves) ≠ [] := fun h => by
    have hlen := (subtreeRoot C log.leaves).property
    rw [Base64.encode_eq_nil.mp h] at hlen
    simp at hlen
  have hv := validateSTH_preSign host
    (show log.leaves.length < 2^53 by have := log.bounded; omega) hroot hdate
  have hwf := preSign_wf log.leaves.length (encodeHash (subtreeRoot C log.leaves)) (u::t)
  obtain ⟨r,hr⟩ := signSTH_ok C host laws log.keyId_ne hv hwf log.seed_length
  exact ⟨r.signedJSON,by simp only [issueSTH,hiso,ok_bind,ht,hr]⟩

/-- The start of the epoch, which is the only date the sample host reads. -/
def sampleTime : JsString := js "1970-01-01T00:00:00Z"

def sampleHost : Host where
  dateParse := fun s => if s = sampleTime then .zero false else .nan
  toISOString := fun _ => .ok (js "1970-01-01T00:00:00.000Z")

def sampleEntry (user : JsString) : Members :=
  [(js "event",.str (js "publish")),(js "user_id",.str user),(js "key_id",.str (js "k")),
    (js "key_type",.str (js "identity")),(js "algorithm",.str (js "ed25519")),
    (js "public_key",.str (js "AA==")),(js "created",.str sampleTime),
    (js "log_timestamp",.str sampleTime)]

def sampleConfig : LogConfig := ⟨List.replicate 32 7,js "d"⟩

def sampleEntries : List Members :=
  [sampleEntry (js "a"),sampleEntry (js "b"),sampleEntry (js "c")]

theorem sampleEntry_valid (u : UInt16) (s : JsString) :
    validateLogEntry sampleHost (sampleEntry (u::s)) = .ok () ∧
      (Json.obj (sampleEntry (u::s))).WF := by
  constructor
  · rfl
  · exact Json.wf_obj.mpr ⟨by simp only [sampleEntry,keys,List.map]; decide,
      by simp [sampleEntry,Json.WF]⟩

theorem size_sampleEntries (log : Log Sample.crypto) (h : log.size < 2^31) :
    (log.appendAll sampleHost sampleEntries).size = log.size+3 := by
  refine size_appendAll sampleHost log sampleEntries (fun e he => ?_)
    (by simp only [sampleEntries,List.length_cons,List.length_nil]; omega)
  simp only [sampleEntries,List.mem_cons,List.not_mem_nil,or_false] at he
  rcases he with rfl | rfl | rfl <;> exact sampleEntry_valid _ _

theorem sampleConfig_ok : ∃ log₀ : Log Sample.crypto,
    Log.create Sample.crypto sampleConfig = .ok log₀ ∧ log₀.size = 0 :=
  ⟨_,rfl,rfl⟩

/-- Inclusion completeness: in a log built by any appends, the proof of an entry at
any tree size is accepted against the root of the leaves of that size. -/
theorem inclusionProof_accepted (cfg : LogConfig) (entries : List Members) :
    ∀ log₀ : Log C, Log.create C cfg = .ok log₀ → ∀ n i : ℕ, 1 ≤ n →
      n ≤ (log₀.appendAll host entries).size → n < 2^31 → i < n →
      let log := log₀.appendAll host entries
      ∃ e leaf proof, log.entries[i]? = some e ∧ hashLeafFromEntry C e = .ok leaf ∧
        log.inclusionProof (.ofNat i) (.ofNat n) = .ok proof ∧ proof.leafIndex = .ofNat i ∧
        proof.logSize = .ofNat n ∧ proof.leafHash = encodeHash leaf ∧
        verifyInclusionProof C proof (subtreeRoot C (log.leaves.take n)) = true := by
  intro log₀ _ n i _ hn hlt hi log
  have hlen : i < log.leaves.length := lt_of_lt_of_le hi hn
  have hleaf : log.leaves[i]? = some log.leaves[i] := List.getElem?_eq_getElem hlen
  have hentry : i < log.entries.length := by rwa [log.hashed.length_eq]
  have hhash : hashLeafFromEntry C log.entries[i] = .ok log.leaves[i] :=
    log.hashed.get hentry hlen
  have htake : (log.leaves.take n).length = n := by
    rw [List.length_take]
    exact Nat.min_eq_left hn
  have hget : (log.leaves.take n)[i]? = some log.leaves[i] := by
    rw [List.getElem?_take_of_lt hi,hleaf]
  have hv := verifyInclusionProof_auditPath C (by omega) hget
  rw [htake] at hv
  refine ⟨log.entries[i],log.leaves[i],_,List.getElem?_eq_getElem hentry,hhash,
    inclusionProof_eq log hn hi,rfl,rfl,?_,?_⟩
  · rw [List.getD_eq_getElem?_getD,hleaf]
    rfl
  · rw [List.getD_eq_getElem?_getD,hleaf]
    exact hv

/-- The last of three entries. -/
theorem inclusionProof_accepted_sample : ∃ log₀ : Log Sample.crypto,
    Log.create Sample.crypto sampleConfig = .ok log₀ ∧
      let log := log₀.appendAll sampleHost sampleEntries
      ∃ e leaf proof, log.entries[2]? = some e ∧ hashLeafFromEntry Sample.crypto e = .ok leaf ∧
        log.inclusionProof (.ofNat 2) (.ofNat 3) = .ok proof ∧ proof.leafIndex = .ofNat 2 ∧
        proof.logSize = .ofNat 3 ∧ proof.leafHash = encodeHash leaf ∧
        verifyInclusionProof Sample.crypto proof (subtreeRoot Sample.crypto (log.leaves.take 3)) =
          true := by
  obtain ⟨log₀,hnew,h0⟩ := sampleConfig_ok
  have hsize := size_sampleEntries log₀ (by omega)
  exact ⟨log₀,hnew,inclusionProof_accepted sampleHost sampleConfig sampleEntries log₀ hnew 3 2
    (by omega) (by omega) (by omega) (by omega)⟩

theorem consistencyProof_verifies (log : Log C) {m n : ℕ} (h0 : 0 < m) (hm : m ≤ n)
    (hn : n ≤ log.leaves.length) : ∃ proof,
      log.consistencyProof (.ofNat m) (.ofNat n) = .ok proof ∧
        verifyConsistencyProof C proof (subtreeRoot C (log.leaves.take m))
          (subtreeRoot C (log.leaves.take n)) = true := by
  have hb := log.bounded
  have htake : (log.leaves.take n).length = n := by
    rw [List.length_take]
    exact Nat.min_eq_left hn
  obtain ⟨path,hpath,hproof⟩ := consistencyProof_eq log h0 hm hn
  obtain ⟨path',hpath',hv⟩ := verifyConsistencyProof_subproof C (D := log.leaves.take n) h0
    (by omega) (by omega)
  obtain rfl : path = path' := Except.ok.inj (hpath.symm.trans hpath')
  rw [htake,List.take_take,Nat.min_eq_left hm] at hv
  exact ⟨_,hproof,hv⟩

/-- Consistency completeness: in a log built by any appends, the proof between any
two sizes is accepted, so any two tree heads it signs are provably consistent, by
the log that signed the second one or by any later one. -/
theorem consistencyProof_accepted (cfg : LogConfig) (entries : List Members) :
    ∀ log₀ : Log C, Log.create C cfg = .ok log₀ →
      (∀ m n : ℕ, 1 ≤ m → m ≤ n → n ≤ (log₀.appendAll host entries).size → n < 2^31 →
        let log := log₀.appendAll host entries
        ∃ proof, log.consistencyProof (.ofNat m) (.ofNat n) = .ok proof ∧
          verifyConsistencyProof C proof (subtreeRoot C (log.leaves.take m))
            (subtreeRoot C (log.leaves.take n)) = true) ∧
      ∀ (entries₂ entries₃ : List Members) (now₁ now₂ : Number) (sth₁ sth₂ : Members),
        let log₁ := log₀.appendAll host entries
        let log₂ := log₁.appendAll host entries₂
        let log₃ := log₂.appendAll host entries₃
        log₁.issueSTH host now₁ = .ok sth₁ → log₂.issueSTH host now₂ = .ok sth₂ →
        log₁.size ≠ 0 → log₂.size < 2^31 →
        ∃ size₁ size₂ hash₁ hash₂ root₁ root₂ proof,
          lookup sth₁ (js "log_size") = some (.num size₁) ∧
          lookup sth₂ (js "log_size") = some (.num size₂) ∧
          lookup sth₁ (js "root_hash") = some (.str hash₁) ∧ decodeHash hash₁ = .ok root₁ ∧
          lookup sth₂ (js "root_hash") = some (.str hash₂) ∧ decodeHash hash₂ = .ok root₂ ∧
          log₃.consistencyProof size₁ size₂ = .ok proof ∧
          verifyConsistencyProof C proof root₁ root₂ = true := by
  intro log₀ _
  constructor
  · intro m n hm hmn hn _ log
    exact consistencyProof_verifies log hm hmn hn
  · intro entries₂ entries₃ now₁ now₂ sth₁ sth₂ log₁ log₂ log₃ h₁ h₂ hne _
    obtain ⟨hsize₁,hroot₁⟩ := issueSTH_eq_ok host h₁
    obtain ⟨hsize₂,hroot₂⟩ := issueSTH_eq_ok host h₂
    have hp₁ : log₁.leaves <+: log₂.leaves := (leaves_appendAll host log₁ entries₂).1
    have hp₂ : log₂.leaves <+: log₃.leaves := (leaves_appendAll host log₂ entries₃).1
    have hpos : 0 < log₁.leaves.length := Nat.pos_of_ne_zero hne
    obtain ⟨proof,hproof,hv⟩ := consistencyProof_verifies log₃ hpos hp₁.length_le hp₂.length_le
    rw [← List.prefix_iff_eq_take.mp (hp₁.trans hp₂),← List.prefix_iff_eq_take.mp hp₂] at hv
    exact ⟨_,_,_,_,_,_,proof,hsize₁,hsize₂,hroot₁,decodeHash_encodeHash _,hroot₂,
      decodeHash_encodeHash _,hproof,hv⟩

/-- Sizes 2 and 3 of three entries, and the tree heads at three and six entries,
proved from a later log. -/
theorem consistencyProof_accepted_sample : ∃ log₀ : Log Sample.crypto,
    Log.create Sample.crypto sampleConfig = .ok log₀ ∧
      let log₁ := log₀.appendAll sampleHost sampleEntries
      let log₂ := log₁.appendAll sampleHost sampleEntries
      let log₃ := log₂.appendAll sampleHost sampleEntries
      (∃ proof, log₁.consistencyProof (.ofNat 2) (.ofNat 3) = .ok proof ∧
        verifyConsistencyProof Sample.crypto proof (subtreeRoot Sample.crypto (log₁.leaves.take 2))
          (subtreeRoot Sample.crypto (log₁.leaves.take 3)) = true) ∧
      ∃ sth₁ sth₂, log₁.issueSTH sampleHost (.ofNat 0) = .ok sth₁ ∧
        log₂.issueSTH sampleHost (.ofNat 0) = .ok sth₂ ∧
        ∃ size₁ size₂ hash₁ hash₂ root₁ root₂ proof,
          lookup sth₁ (js "log_size") = some (.num size₁) ∧
          lookup sth₂ (js "log_size") = some (.num size₂) ∧
          lookup sth₁ (js "root_hash") = some (.str hash₁) ∧ decodeHash hash₁ = .ok root₁ ∧
          lookup sth₂ (js "root_hash") = some (.str hash₂) ∧ decodeHash hash₂ = .ok root₂ ∧
          log₃.consistencyProof size₁ size₂ = .ok proof ∧
          verifyConsistencyProof Sample.crypto proof root₁ root₂ = true := by
  obtain ⟨log₀,hnew,h0⟩ := sampleConfig_ok
  have hsize := size_sampleEntries log₀ (by omega)
  have hsize₂ := size_sampleEntries (log₀.appendAll sampleHost sampleEntries) (by omega)
  have hiso : isoSecond (js "1970-01-01T00:00:00.000Z") = sampleTime := by decide
  have hdate : (sampleHost.dateParse sampleTime).isNaN = false := rfl
  obtain ⟨sth₁,h₁⟩ := issueSTH_ok sampleHost Sample.laws.sig
    (log₀.appendAll sampleHost sampleEntries) (.ofNat 0) rfl hiso hdate
  obtain ⟨sth₂,h₂⟩ := issueSTH_ok sampleHost Sample.laws.sig
    ((log₀.appendAll sampleHost sampleEntries).appendAll sampleHost sampleEntries)
    (.ofNat 0) rfl hiso hdate
  obtain ⟨hsizes,hheads⟩ := consistencyProof_accepted sampleHost sampleConfig sampleEntries log₀ hnew
  exact ⟨log₀,hnew,hsizes 2 3 (by omega) (by omega) (by omega) (by omega),sth₁,sth₂,h₁,h₂,
    hheads sampleEntries sampleEntries (.ofNat 0) (.ofNat 0) sth₁ sth₂ h₁ h₂ (by omega) (by omega)⟩

end Log
end Code
end TransparencyLog
end Semp
