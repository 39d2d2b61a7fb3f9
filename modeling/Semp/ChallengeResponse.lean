import Semp.HandshakeClient
import Semp.NumberGrowth
import Semp.Blocklist

/-! Proof of work in a handshake: the client answers a challenge by a search over nonces, a server
checks the solution.  Id and difficulty of a challenge are whatever the signed JSON holds. -/
namespace Semp
namespace Handshake

def maxPoWDifficulty : ℕ := 28

/-- The bits left once those of `bb` are shifted out, of which there are at most `n`. -/
def shiftOut : ℕ → ℕ → ℕ → ℕ
  | 0,_,bits => bits
  | n+1,bb,bits => if bb = 0 then bits else shiftOut n (bb/2) (bits-1)

def leadingZeroBits : Bytes → ℕ
  | [] => 0
  | b::hash => if b = 0 then 8+leadingZeroBits hash else shiftOut 8 b.toNat 8

section Code
variable (C : Crypto)

def challengePreimage (prefixBytes : Bytes) (challengeId : Json) (nonceB64 : JsString) :
    Js Bytes := do
  let id ← templateText (some challengeId)
  .ok (utf8 (Base64.encode prefixBytes++js ":"++id++js ":"++nonceB64))

/-- `null`, or the message of the error.  Every string can be read as base64, so that check of the
nonce refuses none. -/
def verifyChallengeSolution (lc : Locale) (prefixBytes : Bytes) (challengeId : Json)
    (nonceB64 claimedHashHex : JsString) (difficulty : Json) : Js (Option JsString) := do
  let required ← toNumber (some difficulty)
  if required.lt (.zero false) then .ok (some (js "handshake: negative PoW difficulty"))
  else if (Number.ofNat maxPoWDifficulty).lt required then
    .ok (some (js "handshake: PoW difficulty exceeds protocol cap (28)"))
  else if isStr (some challengeId) [] then .ok (some (js "handshake: empty PoW challenge_id"))
  else if nonceB64 = [] then .ok (some (js "handshake: empty PoW nonce"))
  else do
    let preimage ← challengePreimage prefixBytes challengeId nonceB64
    let sum := (C.sha256 preimage).val
    let computedHex := hex sum
    if lc.toLowerCase computedHex ≠ lc.toLowerCase claimedHashHex then
      .ok (some (js "handshake: PoW hash mismatch"))
    else if (Number.ofNat (leadingZeroBits sum)).lt required then
      .ok (some (js "handshake: PoW insufficient difficulty"))
    else .ok none

/-- The last `size` bytes of a number, the highest first. -/
def bigUintToBytes (n : ℕ) : ℕ → Bytes
  | 0 => []
  | size+1 => bigUintToBytes (n/256) size++[UInt8.ofNat (n%256)]

structure Solution where
  nonceB64 : JsString
  hashHex : JsString

/-- One round of the search. -/
def tryNonce (prefixB64 : JsString) (challengeId difficulty : Json) (counter : ℕ) :
    Js (Option Solution) := do
  let nonceB64 := Base64.encode (bigUintToBytes counter 16)
  let id ← templateText (some challengeId)
  let sum := (C.sha256 (utf8 (prefixB64++js ":"++id++js ":"++nonceB64))).val
  let required ← toNumber (some difficulty)
  .ok (if required.le (.ofNat (leadingZeroBits sum)) then some ⟨nonceB64,hex sum⟩ else none)

/-- The loop from a counter on; `none` is a search that has not returned after so many rounds. -/
def searchFrom (prefixB64 : JsString) (challengeId difficulty : Json) :
    ℕ → ℕ → Js (Option Solution)
  | 0,_ => .ok none
  | rounds+1,counter => do
    match ← tryNonce C prefixB64 challengeId difficulty counter with
    | some solution => .ok (some solution)
    | none => searchFrom prefixB64 challengeId difficulty rounds (counter+1)

def solvePoW (prefixBytes : Bytes) (challengeId difficulty : Json) (rounds : ℕ) :
    Js (Option Solution) :=
  searchFrom C (Base64.encode prefixBytes) challengeId difficulty rounds 0

end Code

/-- What a client reads of a challenge: its parameters, and in them the prefix and the
difficulty. -/
def challengeParams (m : Members) : Json := orElse (lookup m (js "parameters")) (.obj [])

def challengeDifficulty (m : Members) : Js Json := do
  let difficulty ← getProp (some (challengeParams m)) (js "difficulty")
  .ok (orElse difficulty (.num (.ofNat 0)))

def challengePrefix (rt : Runtime) (m : Members) : Js Bytes := do
  let text ← getProp (some (challengeParams m)) (js "prefix")
  base64Decode rt (some (orElse text (.str [])))

def challengeId (m : Members) : Json := orElse (lookup m (js "challenge_id")) (.str [])

def challengeResponse (m : Members) (solution : Solution) : Members :=
  definedMembers (header "challenge_response" "client"++
    [(js "challenge_id",lookup m (js "challenge_id")),
      (js "challenge_type",some (.str (js "proof_of_work"))),
      (js "solution",some (.obj [(js "nonce",.str solution.nonceB64),
        (js "hash",.str solution.hashHex)]))])

end Handshake

namespace HandshakeClient
open Handshake

/-- `ChallengeInvalidError` -/
def raiseChallengeInvalid {α : Type} (detail : JsString) : Js α :=
  raise (js "handshake: challenge_invalid: "++detail)

/-- A challenge that says when it expires is refused from then on. -/
def refuseExpired (host : Host) (now : Number) (expires : Option Json) : Js Unit :=
  match expires with
  | some (.str (u::s)) =>
    let ms := host.dateParse (u::s)
    if !ms.isNaN && ms.le now then
      raiseChallengeInvalid (js "challenge already expired: "++u::s)
    else .ok ()
  | _ => .ok ()

def requireDifficulty (difficulty : Json) : Js Unit := do
  let required ← toNumber (some difficulty)
  if (Number.ofNat maxPoWDifficulty).lt required then do
    let text ← templateText (some difficulty)
    raiseChallengeInvalid
      (js "difficulty "++text++js " exceeds protocol cap "++natText maxPoWDifficulty)
  else .ok ()

/-- `none` is a search that has not returned; nothing of the client changes. -/
def onChallenge (C : Crypto) (rt : Runtime) (host : Host) (now : Number) (rounds : ℕ)
    (c : HandshakeClient) (data : Bytes) : Js (Option Bytes) := do
  let _ ← need c.initCanonical (js "handshake: onChallenge before init")
  let v ← parseJson (Utf8.textDecode data)
  let type ← getProp (some v) (js "type")
  let step ← getProp (some v) (js "step")
  require (isStr type messageType && isStr step (js "challenge"))
    (js "handshake: challenge type/step mismatch")
  let kind ← getProp (some v) (js "challenge_type")
  require (isStr kind (js "proof_of_work"))
    (js "handshake: unsupported challenge type "++stringifyText kind)
  match v,← getProp (some v) (js "server_signature") with
  | .obj m,some (.str (u::s)) => do
    let canonical ← Canonical.marshal (.obj (assign m (js "server_signature") (.str [])))
    require (verify C c.serverDomainPub (Base64.decode (u::s)) (utf8 handshakePrefix++canonical))
      (js "handshake: challenge server_signature did not verify")
    let algorithm ← getProp (some (challengeParams m)) (js "algorithm")
    require (isStr algorithm (js "argon2id-pow"))
      (js "handshake: unsupported PoW algorithm "++stringifyText algorithm)
    let difficulty ← challengeDifficulty m
    requireDifficulty difficulty
    refuseExpired host now (lookup m (js "expires"))
    let prefixBytes ← challengePrefix rt m
    match ← solvePoW C prefixBytes (challengeId m) difficulty rounds with
    | some solution => do
      let bytes ← Canonical.marshal (.obj (challengeResponse m solution))
      .ok (some bytes)
    | none => .ok none
  | _,_ => raise (js "handshake: challenge missing server_signature")

end HandshakeClient

namespace Handshake

theorem shiftOut_le (n bb bits : ℕ) : shiftOut n bb bits ≤ bits := by
  induction n generalizing bb bits with
  | zero => exact le_rfl
  | succ n ih =>
    rw [shiftOut]
    split_ifs
    · exact le_rfl
    · exact (ih _ _).trans (Nat.sub_le _ _)

theorem leadingZeroBits_le (hash : Bytes) : leadingZeroBits hash ≤ 8*hash.length := by
  induction hash with
  | nil => exact le_rfl
  | cons b hash ih =>
    rw [leadingZeroBits,List.length_cons]
    split_ifs
    · omega
    · have := shiftOut_le 8 b.toNat 8
      omega

section Search
variable {C : Crypto} {prefixB64 : JsString} {id difficulty : Json} {solution : Solution}

/-- The search returns at the first counter that solves the challenge. -/
theorem searchFrom_eq_some {rounds counter : ℕ} :
    searchFrom C prefixB64 id difficulty rounds counter = .ok (some solution) ↔
      ∃ n < rounds, tryNonce C prefixB64 id difficulty (counter+n) = .ok (some solution) ∧
        ∀ k < n, tryNonce C prefixB64 id difficulty (counter+k) = .ok none := by
  induction rounds generalizing counter with
  | zero => simp [searchFrom]
  | succ rounds ih =>
    rw [searchFrom,bind_eq_ok]
    constructor
    · rintro ⟨o,ho,h⟩
      cases o with
      | some s => exact ⟨0,Nat.succ_pos _,by rw [Nat.add_zero,ho]; exact h,nofun⟩
      | none =>
        obtain ⟨n,hn,hsol,hbefore⟩ := ih.mp h
        refine ⟨n+1,Nat.succ_lt_succ hn,by rw [← hsol]; congr 1; omega,fun k hk => ?_⟩
        cases k with
        | zero => exact ho
        | succ k =>
          rw [← hbefore k (Nat.lt_of_succ_lt_succ hk)]
          congr 1
          omega
    · rintro ⟨n,hn,hsol,hbefore⟩
      cases n with
      | zero => exact ⟨some solution,hsol,rfl⟩
      | succ n =>
        refine ⟨none,hbefore 0 (Nat.succ_pos _),ih.mpr ⟨n,Nat.lt_of_succ_lt_succ hn,?_,?_⟩⟩
        · rw [← hsol]
          congr 1
          omega
        · intro k hk
          rw [← hbefore (k+1) (Nat.succ_lt_succ hk)]
          congr 1
          omega

theorem tryNonce_eq_some {counter : ℕ} :
    tryNonce C prefixB64 id difficulty counter = .ok (some solution) ↔
      ∃ text required, toStringText id = .ok text ∧ toNumber (some difficulty) = .ok required ∧
        let nonceB64 := Base64.encode (bigUintToBytes counter 16)
        let sum := (C.sha256 (utf8 (prefixB64++js ":"++text++js ":"++nonceB64))).val
        required.le (.ofNat (leadingZeroBits sum)) = true ∧ solution = ⟨nonceB64,hex sum⟩ := by
  rw [tryNonce,bind_eq_ok]
  refine exists_congr fun text => ?_
  rw [bind_eq_ok]
  constructor
  · rintro ⟨htext,required,hreq,h⟩
    refine ⟨required,htext,hreq,?_⟩
    have h := Except.ok.inj h
    split_ifs at h with hle
    exact ⟨hle,(Option.some.inj h).symm⟩
  · rintro ⟨required,htext,hreq,hle,rfl⟩
    exact ⟨htext,required,hreq,by rw [if_pos hle]⟩

end Search

section Verify
variable {C : Crypto} {id difficulty : Json} {solution : Solution} {prefixBytes : Bytes}
  {rounds : ℕ} {required : Number}

theorem encode_bigUintToBytes_ne_nil (n : ℕ) : Base64.encode (bigUintToBytes n 16) ≠ [] := by
  rw [Ne,Base64.encode_eq_nil,bigUintToBytes]
  simp

theorem verify_empty_ne {lc : Locale} {nonceB64 claimedHashHex : JsString} :
    verifyChallengeSolution C lc prefixBytes (.str []) nonceB64 claimedHashHex difficulty ≠
      .ok none := by
  intro h
  obtain ⟨required,-,h⟩ := bind_eq_ok.mp h
  split_ifs at h with hneg hcap hid
  · exact absurd (Except.ok.inj h) nofun
  · exact absurd (Except.ok.inj h) nofun
  · exact absurd (Except.ok.inj h) nofun
  · exact hid rfl
  · exact hid rfl

/-- Within the cap, a solution passes unless the id is empty or the difficulty negative. -/
theorem verify_solvePoW_iff (lc : Locale)
    (h : solvePoW C prefixBytes id difficulty rounds = .ok (some solution))
    (hreq : toNumber (some difficulty) = .ok required)
    (hcap : (Number.ofNat maxPoWDifficulty).lt required = false) :
    verifyChallengeSolution C lc prefixBytes id solution.nonceB64 solution.hashHex difficulty =
      .ok none ↔ id ≠ .str [] ∧ required.lt (.zero false) = false := by
  obtain ⟨n,-,hsol,-⟩ := searchFrom_eq_some.mp h
  obtain ⟨text,required',htext,hreq',hle,rfl⟩ := tryNonce_eq_some.mp hsol
  obtain rfl : required' = required := Except.ok.inj (hreq'.symm.trans hreq)
  have hpre : challengePreimage prefixBytes id (Base64.encode (bigUintToBytes (0+n) 16)) =
      .ok (utf8 (Base64.encode prefixBytes++js ":"++text++js ":"++
        Base64.encode (bigUintToBytes (0+n) 16))) := by
    rw [challengePreimage,templateText,htext]
    rfl
  rw [verifyChallengeSolution,hreq,ok_bind]
  cases hneg : required'.lt (.zero false) with
  | true => simp
  | false =>
    rw [if_neg Bool.false_ne_true,hcap,if_neg Bool.false_ne_true]
    by_cases hid : id = .str []
    · subst hid
      simp [isStr]
    · have hstr : isStr (some id) [] = false := by
        rw [← Bool.not_eq_true,isStr_iff]
        exact fun he => hid (Option.some.inj he)
      rw [hstr,if_neg Bool.false_ne_true,if_neg (encode_bigUintToBytes_ne_nil _),hpre,ok_bind,
        if_neg (not_not.mpr rfl),Number.not_lt_of_le hle,if_neg Bool.false_ne_true]
      simp [hid]

end Verify

end Handshake
namespace HandshakeClient
open Handshake

section Accept
variable {C : Crypto} {rt : Runtime} {host : Host} {now : Number} {rounds : ℕ}
  {c : HandshakeClient} {data bytes : Bytes} {m : Members} {solution : Solution}

/-- A challenge passes the checks of the client, with this prefix and difficulty. -/
structure ChallengeOk (C : Crypto) (rt : Runtime) (host : Host) (now : Number)
    (serverDomainPub : Bytes) (m : Members) (prefixBytes : Bytes) (difficulty : Json) : Prop where
  type : lookup m (js "type") = some (.str messageType)
  step : lookup m (js "step") = some (.str (js "challenge"))
  kind : lookup m (js "challenge_type") = some (.str (js "proof_of_work"))
  signed : ∃ sigB64 ≠ [], lookup m (js "server_signature") = some (.str sigB64) ∧
    verify C serverDomainPub (Base64.decode sigB64) (utf8 handshakePrefix++
      Canonical.canonicalBytes (.obj (assign m (js "server_signature") (.str [])))) = true
  algorithm : getProp (some (challengeParams m)) (js "algorithm") =
    .ok (some (.str (js "argon2id-pow")))
  required : challengeDifficulty m = .ok difficulty
  capped : requireDifficulty difficulty = .ok ()
  unexpired : refuseExpired host now (lookup m (js "expires")) = .ok ()
  prefixBytes : challengePrefix rt m = .ok prefixBytes

theorem wf_challengeResponse (hm : (Json.obj m).WF) (solution : Solution) :
    (Json.obj (challengeResponse m solution)).WF := by
  refine wf_literal [js "type",js "step",js "party",js "version",js "challenge_id",
    js "challenge_type",js "solution"] rfl (by decide) fun e he v hv => ?_
  simp only [header,List.cons_append,List.nil_append,List.mem_cons,List.not_mem_nil,or_false] at he
  obtain rfl | rfl | rfl | rfl | rfl | rfl | rfl := he
  on_goal 5 => exact Json.wf_of_lookup hm hv
  on_goal 6 =>
    obtain rfl := Option.some.inj hv
    exact Json.wf_of_keys [js "nonce",js "hash"] rfl (by decide) (by simp)
  all_goals
    obtain rfl := Option.some.inj hv
    exact Json.wf_str _

theorem onChallenge_eq_ok : onChallenge C rt host now rounds c data = .ok (some bytes) ↔
    c.initCanonical ≠ none ∧ ∃ m prefixBytes difficulty solution,
      parseJson (Utf8.textDecode data) = .ok (.obj m) ∧
      ChallengeOk C rt host now c.serverDomainPub m prefixBytes difficulty ∧
      solvePoW C prefixBytes (challengeId m) difficulty rounds = .ok (some solution) ∧
      bytes = Canonical.canonicalBytes (.obj (challengeResponse m solution)) := by
  simp only [onChallenge,bind_eq_ok,need_eq_ok,require_eq_ok,exists_const,Bool.and_eq_true,
    isStr_iff]
  constructor
  · rintro ⟨init,hinit,v,hparse,type,htype,step,hstep,⟨rfl,rfl⟩,kind,hkind,rfl,sig,hsig,h⟩
    obtain ⟨m,rfl,hlookup⟩ := getProp_eq_str.mp htype
    have hwf : (Json.obj m).WF := JsonText.parse_wf (parseJson_eq_ok.mp hparse)
    rw [getProp_obj,Except.ok.injEq] at hstep hkind hsig
    refine ⟨by rw [hinit]; exact Option.some_ne_none _,m,?_⟩
    split at h
    · rename_i m' u s hv
      obtain rfl := Json.obj.inj hv
      simp only [bind_eq_ok,require_eq_ok,exists_const,isStr_iff] at h
      obtain ⟨canonical,hcanonical,hverify,alg,halg,rfl,difficulty,hdifficulty,_,hcap,_,hexp,
        prefixBytes,hbytes,o,hsolve,h⟩ := h
      rw [Canonical.marshal_eq (Json.wf_assign hwf (Json.wf_str _) _),Except.ok.injEq] at hcanonical
      subst hcanonical
      cases o with
      | none => cases h
      | some solution =>
        simp only [Canonical.marshal_eq (wf_challengeResponse hwf solution),ok_bind,
          Except.ok.injEq,Option.some.injEq] at h
        exact ⟨prefixBytes,difficulty,solution,hparse,⟨hlookup,hstep,hkind,
          ⟨u::s,List.cons_ne_nil _ _,hsig,hverify⟩,halg,hdifficulty,hcap,hexp,hbytes⟩,hsolve,
          h.symm⟩
    · simp at h
  · rintro ⟨hinit,m,prefixBytes,difficulty,solution,hparse,hok,hsolve,rfl⟩
    have hwf : (Json.obj m).WF := JsonText.parse_wf (parseJson_eq_ok.mp hparse)
    obtain ⟨init,hinit⟩ := Option.ne_none_iff_exists'.mp hinit
    obtain ⟨sigB64,hne,hsig,hverify⟩ := hok.signed
    obtain ⟨u,s,rfl⟩ := List.exists_cons_of_ne_nil hne
    refine ⟨init,hinit,_,hparse,_,congrArg Except.ok hok.type,_,congrArg Except.ok hok.step,
      ⟨rfl,rfl⟩,_,congrArg Except.ok hok.kind,rfl,_,congrArg Except.ok hsig,?_⟩
    simp only [bind_eq_ok,require_eq_ok,exists_const,isStr_iff]
    refine ⟨_,Canonical.marshal_eq (Json.wf_assign hwf (Json.wf_str _) _),hverify,_,hok.algorithm,
      rfl,difficulty,hok.required,(),hok.capped,(),hok.unexpired,prefixBytes,hok.prefixBytes,_,
      hsolve,?_⟩
    simp only [Canonical.marshal_eq (wf_challengeResponse hwf solution),ok_bind]

theorem requireDifficulty_eq_ok {difficulty : Json} {u : Unit} :
    requireDifficulty difficulty = .ok u ↔ ∃ required, toNumber (some difficulty) = .ok required ∧
      (Number.ofNat maxPoWDifficulty).lt required = false := by
  rw [requireDifficulty,bind_eq_ok]
  refine exists_congr fun required => and_congr_right fun _ => ?_
  cases (Number.ofNat maxPoWDifficulty).lt required with
  | true => simp [bind_eq_ok,raiseChallengeInvalid]
  | false => simp

/-- The solution that answers a challenge passes the check of its prefix, id and difficulty
exactly when there is an id, which is not empty, and the difficulty is not negative. -/
theorem onChallenge_verifies_iff (lc : Locale)
    (h : onChallenge C rt host now rounds c data = .ok (some bytes)) :
    ∃ m prefixBytes difficulty solution, parseJson (Utf8.textDecode data) = .ok (.obj m) ∧
      challengePrefix rt m = .ok prefixBytes ∧ challengeDifficulty m = .ok difficulty ∧
      bytes = Canonical.canonicalBytes (.obj (challengeResponse m solution)) ∧
      (verifyChallengeSolution C lc prefixBytes (challengeId m) solution.nonceB64 solution.hashHex
        difficulty = .ok none ↔ challengeId m ≠ .str [] ∧
          ∀ required, toNumber (some difficulty) = .ok required →
            required.lt (.zero false) = false) := by
  obtain ⟨-,m,prefixBytes,difficulty,solution,hparse,hok,hsolve,hbytes⟩ := onChallenge_eq_ok.mp h
  obtain ⟨required,hreq,hcap⟩ := requireDifficulty_eq_ok.mp hok.capped
  refine ⟨m,prefixBytes,difficulty,solution,hparse,hok.prefixBytes,hok.required,hbytes,?_⟩
  rw [verify_solvePoW_iff lc hsolve hreq hcap,hreq]
  simp

end Accept

/-! A challenge without difficulty and prefix, with an id or without one. -/
def sampleChallenge (id : Option JsString) (value : JsString) : Members :=
  (js "server_signature",.str value)::(js "type",.str messageType)::
    (js "step",.str (js "challenge"))::(js "challenge_type",.str (js "proof_of_work"))::
    (js "parameters",.obj [(js "algorithm",.str (js "argon2id-pow"))])::
    id.toList.map fun s => (js "challenge_id",.str s)

def challengeKey : Bytes := List.replicate 32 1

def challengeSignature (id : Option JsString) : Bytes :=
  Sample.fit 64 (Sample.digest (challengeKey++(utf8 handshakePrefix++
    Canonical.canonicalBytes (.obj (sampleChallenge id []))))).val

def signedChallenge (id : Option JsString) : Members :=
  sampleChallenge id (Base64.encode (challengeSignature id))

def challengeData (id : Option JsString) : Bytes :=
  utf8 (JsonText.stringify (.obj (signedChallenge id)))

/-- A client that has sent its INIT. -/
def waitingClient : HandshakeClient where
  suite := .x25519
  serverDomainPub := challengeKey
  capabilities := defaultClientCapabilities
  transportId := js "ws"
  identity := none
  nonce := none
  ephPriv := none
  ephPub := none
  initCanonical := some []
  sessionId := some (.str [])
  sessionKeys := none
  serverIdProofKeyId := some (.str [])
  serverIdProofSignature := some (.str [])
  finalSession := none

section Samples
variable (id : Option JsString) (host : Host) (now : Number)

theorem parse_challengeData :
    parseJson (Utf8.textDecode (challengeData id)) = .ok (.obj (signedChallenge id)) := by
  have hwf : (Json.obj (signedChallenge id)).WF := by
    have hparams : (Json.obj [(js "algorithm",.str (js "argon2id-pow"))]).WF :=
      Json.wf_of_keys [js "algorithm"] rfl (by decide) (by simp)
    cases id with
    | none =>
      refine Json.wf_of_keys [js "server_signature",js "type",js "step",js "challenge_type",
        js "parameters"] rfl (by decide) ?_
      simpa [signedChallenge,sampleChallenge] using hparams
    | some s =>
      refine Json.wf_of_keys [js "server_signature",js "type",js "step",js "challenge_type",
        js "parameters",js "challenge_id"] rfl (by decide) ?_
      simpa [signedChallenge,sampleChallenge] using hparams
  rw [challengeData,utf8,JsonText.textDecode_stringify,parseJson_stringify hwf]
  cases id <;> simp [signedChallenge,sampleChallenge,Json.reparse]

theorem challengeOk_sample : ChallengeOk Sample.crypto Sample.runtime host now challengeKey
    (signedChallenge id) [] (.num (.ofNat 0)) := by
  have hblank : assign (signedChallenge id) (js "server_signature") (.str []) =
      sampleChallenge id [] := rfl
  have hsigned : verify Sample.crypto challengeKey
      (Base64.decode (Base64.encode (challengeSignature id))) (utf8 handshakePrefix++
        Canonical.canonicalBytes (.obj (sampleChallenge id []))) = true := by
    rw [Base64.decode_encode,verify,if_neg (by simp [challengeKey,challengeSignature])]
    simp [Sample.crypto,challengeSignature]
  have hexpires : lookup (signedChallenge id) (js "expires") = none := by
    cases id <;> rfl
  refine ⟨rfl,rfl,rfl,⟨_,?_,rfl,by rw [hblank]; exact hsigned⟩,rfl,rfl,?_,by rw [hexpires]; rfl,rfl⟩
  · rw [Ne,Base64.encode_eq_nil,← List.length_eq_zero_iff,challengeSignature,Sample.fit_length]
    decide
  · exact requireDifficulty_eq_ok.mpr ⟨_,rfl,by
      rw [Number.lt_ofNat (show maxPoWDifficulty < 2^53 by decide) (by decide)]
      exact decide_eq_false (Nat.not_lt_zero _)⟩

/-- A challenge of difficulty zero is solved by the first nonce. -/
theorem onChallenge_challengeData : ∃ bytes,
    onChallenge Sample.crypto Sample.runtime host now 1 waitingClient (challengeData id) =
      .ok (some bytes) := by
  have hle (d : Digest) : (Number.ofNat 0).le (.ofNat (leadingZeroBits d.val)) = true := by
    have hbits := leadingZeroBits_le d.val
    rw [d.property] at hbits
    rw [Number.le_ofNat (by decide) (hbits.trans_lt (by decide))]
    exact decide_eq_true (Nat.zero_le _)
  have hid : toStringText (challengeId (signedChallenge id)) = .ok (id.getD []) := by
    cases id with
    | none => exact toStringText.eq_4 _
    | some s => exact toStringText.eq_4 _
  have hsolve : solvePoW Sample.crypto [] (challengeId (signedChallenge id)) (.num (.ofNat 0)) 1 =
      .ok (some _) := searchFrom_eq_some.mpr ⟨0,Nat.one_pos,tryNonce_eq_some.mpr
        ⟨_,_,hid,rfl,hle _,rfl⟩,nofun⟩
  exact ⟨_,onChallenge_eq_ok.mpr ⟨nofun,_,_,_,_,parse_challengeData id,
    challengeOk_sample id host now,hsolve,rfl⟩⟩

end Samples

def sampleLocale : Locale := ⟨⟨fun _ => .nan,fun _ => raiseType⟩,fun s => s⟩

/-- A challenge with an id is answered by a solution that passes. -/
theorem onChallenge_verifies_iff_sample : ∃ bytes solution,
    onChallenge Sample.crypto Sample.runtime sampleLocale.toHost (.ofNat 0) 1 waitingClient
      (challengeData (some (js "c-1"))) = .ok (some bytes) ∧
    bytes = Canonical.canonicalBytes
      (.obj (challengeResponse (signedChallenge (some (js "c-1"))) solution)) ∧
    verifyChallengeSolution Sample.crypto sampleLocale [] (.str (js "c-1")) solution.nonceB64
      solution.hashHex (.num (.ofNat 0)) = .ok none := by
  obtain ⟨bytes,h⟩ := onChallenge_challengeData (some (js "c-1")) sampleLocale.toHost (.ofNat 0)
  obtain ⟨m,prefixBytes,difficulty,solution,hparse,hbytes,hdiff,hreply,hiff⟩ :=
    onChallenge_verifies_iff sampleLocale h
  rw [parse_challengeData] at hparse
  obtain rfl := Json.obj.inj (Except.ok.inj hparse)
  obtain rfl := Except.ok.inj hbytes
  obtain rfl := Except.ok.inj hdiff
  refine ⟨bytes,solution,h,hreply,hiff.mpr ⟨fun hid => ?_,fun required hreq => ?_⟩⟩
  · exact absurd (Json.str.inj hid) (by decide)
  · obtain rfl := Except.ok.inj hreq
    decide +kernel

/-- A challenge without an id is answered, and no solution of it passes. -/
theorem not_onChallenge_verifies : ¬∀ (data bytes : Bytes),
    onChallenge Sample.crypto Sample.runtime sampleLocale.toHost (.ofNat 0) 1 waitingClient data =
      .ok (some bytes) →
    ∃ m prefixBytes difficulty solution, parseJson (Utf8.textDecode data) = .ok (.obj m) ∧
      challengePrefix Sample.runtime m = .ok prefixBytes ∧
      challengeDifficulty m = .ok difficulty ∧
      bytes = Canonical.canonicalBytes (.obj (challengeResponse m solution)) ∧
      verifyChallengeSolution Sample.crypto sampleLocale prefixBytes (challengeId m)
        solution.nonceB64 solution.hashHex difficulty = .ok none := by
  intro hall
  obtain ⟨bytes,h⟩ := onChallenge_challengeData none sampleLocale.toHost (.ofNat 0)
  obtain ⟨m,prefixBytes,difficulty,solution,hparse,-,-,-,hpass⟩ := hall _ bytes h
  rw [parse_challengeData] at hparse
  obtain rfl := Json.obj.inj (Except.ok.inj hparse)
  exact verify_empty_ne hpass

end HandshakeClient
end Semp
