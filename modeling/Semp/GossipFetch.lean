import Semp.Reputation
import Semp.HandshakeServer
import Semp.JsonSize

/-! The fetching of the observations an observer has published.  The signature is checked; the
size is counted in code units, and whom the document is by and about is not looked at. -/
namespace Semp
namespace Reputation

def publicationPath : JsString := js "/.well-known/semp/reputation/"

def trustGossipMaxBytes : ℕ := 1*1024*1024

/-- What the fetcher reads of a response. -/
structure Response where
  ok : Bool
  status : ℕ
  /-- `await resp.text()` -/
  text : Js JsString

/-- The options that say what is fetched and how much of it; the timer and the signal only make
the fetch throw. -/
structure FetchTrustObservationsOptions where
  /-- `opts.fetchImpl ?? globalThis.fetch` -/
  fetchImpl : Option (JsString → Js Response)
  urlFn : Option (JsString → JsString → JsString)
  maxBytes : Option Number

/-- The characters that `encodeURIComponent` leaves as they are. -/
def isUnreserved (u : UInt16) : Bool :=
  let n := u.toNat
  decide (48 ≤ n ∧ n ≤ 57) || decide (65 ≤ n ∧ n ≤ 90) || decide (97 ≤ n ∧ n ≤ 122) ||
    (js "-_.!~*'()").contains u

def upperHexDigit (n : ℕ) : UInt16 := UInt16.ofNat (if n < 10 then 48+n else 55+n)

def percentByte (b : UInt8) : JsString :=
  [37,upperHexDigit (b.toNat/16),upperHexDigit (b.toNat%16)]

/-- `encodeURIComponent(s)`, which throws on a lone surrogate. -/
def encodeURIComponent (s : JsString) : Js JsString :=
  if Utf8.isWellFormed s then
    .ok ((codePoints s).flatMap fun c =>
      if c.all isUnreserved then c else (utf8 c).flatMap percentByte)
  else raise (js "URI malformed")

section Code
variable (C : Crypto) (rt : Runtime)

def verifyTrustObservations (resp : Members) (observerPub : Bytes) : Js Bool := do
  let value ← getProp (lookup resp (js "signature")) (js "value")
  if isStr value [] then .ok false
  else
    match base64Decode rt value with
    | .error _ => .ok false
    | .ok sig => do
      let canonicalBytes ← canonicalRecordBytes resp
      .ok (verify C observerPub sig canonicalBytes)

def trustObservationsUrl (opts : FetchTrustObservationsOptions) (observer subject : JsString) :
    Js JsString :=
  match opts.urlFn with
  | some urlFn => .ok (urlFn observer subject)
  | none => do
    let component ← encodeURIComponent subject
    .ok (js "https://"++observer++publicationPath++component)

/-- `opts.maxBytes ?? TrustGossipMaxBytes` -/
def FetchTrustObservationsOptions.cap (opts : FetchTrustObservationsOptions) : Number :=
  opts.maxBytes.getD (.ofNat trustGossipMaxBytes)

/-- What is made of the text of a response. -/
def readTrustObservations (cap : Number) (observerPub : Bytes) (body : JsString) : Js Members :=
  if cap.lt (.ofNat body.length) then
    raise (js "reputation: trust gossip body exceeds "++NumberText.toText cap++
      js " bytes (got "++natText body.length++js ")")
  else
    match parseJson body with
    | .error err => raise (js "reputation: parse trust observations: "++
        Handshake.thrownText rt err)
    | .ok (.obj env) => do
      let verified ← verifyTrustObservations C rt env observerPub
      if !verified then raise (js "reputation: trust observations signature did not verify")
      else .ok env
    | .ok _ => raise (js "reputation: trust observations is not a JSON object")

def fetchTrustObservations (observer subject : JsString) (observerPub : Bytes)
    (opts : FetchTrustObservationsOptions) : Js Members :=
  if observer = [] then raise (js "reputation: empty observer")
  else if subject = [] then raise (js "reputation: empty subject")
  else if observerPub.length = 0 then raise (js "reputation: empty observer public key")
  else do
    let url ← trustObservationsUrl opts observer subject
    match opts.fetchImpl with
    | none =>
      raise (js "reputation: no fetch implementation available "++
        js "(Node 22+ or pass fetchImpl)")
    | some fetchFn => do
      let resp ← fetchFn url
      if !resp.ok then
        raise (js "reputation: "++url++js " returned HTTP "++natText resp.status)
      else do
        let body ← resp.text
        readTrustObservations C rt opts.cap observerPub body

end Code
/-- The document has the size that was asked for, is signed, and is by and about whom was
asked. -/
structure Answers (C : Crypto) (rt : Runtime) (observer subject : JsString) (observerPub : Bytes)
    (cap : Number) (body : JsString) (env : Members) : Prop where
  size : cap.lt (.ofNat (utf8 body).length) = false
  verified : verifyTrustObservations C rt env observerPub = .ok true
  observer : lookup env (js "observer") = some (.str observer)
  subject : lookup env (js "subject") = some (.str subject)

section Claim
variable {C : Crypto} {rt : Runtime} {observer subject body : JsString} {observerPub : Bytes}
  {cap : Number} {opts : FetchTrustObservationsOptions} {env : Members}

theorem readTrustObservations_eq_ok :
    readTrustObservations C rt cap observerPub body = .ok env ↔
      cap.lt (.ofNat body.length) = false ∧ parseJson body = .ok (.obj env) ∧
        verifyTrustObservations C rt env observerPub = .ok true := by
  rw [readTrustObservations]
  by_cases hsize : cap.lt (.ofNat body.length) = true
  · rw [if_pos hsize,hsize]
    simp
  rw [if_neg hsize,Bool.eq_false_iff.mpr hsize]
  cases parseJson body with
  | error err => simp
  | ok v =>
    cases v with
    | obj ms =>
      simp only [bind_eq_ok,true_and,Except.ok.injEq,Json.obj.injEq]
      constructor
      · rintro ⟨b,hb,h⟩
        cases b with
        | false => cases h
        | true =>
          obtain rfl := Except.ok.inj h
          exact ⟨rfl,hb⟩
      · rintro ⟨rfl,hb⟩
        exact ⟨true,hb,rfl⟩
    | _ => simp

/-- The texts that the host answers the request with. -/
def Served (opts : FetchTrustObservationsOptions) (observer subject body : JsString) : Prop :=
  ∃ url fetchFn resp, trustObservationsUrl opts observer subject = .ok url ∧
    opts.fetchImpl = some fetchFn ∧ fetchFn url = .ok resp ∧ resp.ok = true ∧ resp.text = .ok body

theorem Served.unique {body' : JsString} (h : Served opts observer subject body)
    (h' : Served opts observer subject body') : body = body' := by
  obtain ⟨url,fetchFn,resp,hurl,hfetch,hresp,-,htext⟩ := h
  obtain ⟨url',fetchFn',resp',hurl',hfetch',hresp',-,htext'⟩ := h'
  obtain rfl := Except.ok.inj (hurl.symm.trans hurl')
  obtain rfl := Option.some.inj (hfetch.symm.trans hfetch')
  obtain rfl := Except.ok.inj (hresp.symm.trans hresp')
  exact Except.ok.inj (htext.symm.trans htext')

/-- What is returned was read from the text that was served. -/
theorem fetchTrustObservations_eq_ok :
    fetchTrustObservations C rt observer subject observerPub opts = .ok env ↔
      (observer ≠ [] ∧ subject ≠ [] ∧ observerPub.length ≠ 0) ∧
        ∃ body, Served opts observer subject body ∧
          readTrustObservations C rt opts.cap observerPub body = .ok env := by
  rw [fetchTrustObservations]
  by_cases hobserver : observer = []
  · simp [hobserver]
  by_cases hsubject : subject = []
  · simp [hobserver,hsubject]
  by_cases hkey : observerPub.length = 0
  · rw [if_neg hobserver,if_neg hsubject,if_pos hkey]
    simp [hkey]
  rw [if_neg hobserver,if_neg hsubject,if_neg hkey,bind_eq_ok]
  constructor
  · rintro ⟨url,hurl,h⟩
    refine ⟨⟨hobserver,hsubject,hkey⟩,?_⟩
    cases hfetch : opts.fetchImpl with
    | none =>
      rw [hfetch] at h
      cases h
    | some fetchFn =>
      rw [hfetch] at h
      obtain ⟨resp,hresp,h⟩ := bind_eq_ok.mp h
      split_ifs at h with hok
      · cases h
      obtain ⟨body,htext,h⟩ := bind_eq_ok.mp h
      exact ⟨body,⟨url,fetchFn,resp,hurl,hfetch,hresp,by simpa using hok,htext⟩,h⟩
  · rintro ⟨-,body,⟨url,fetchFn,resp,hurl,hfetch,hresp,hok,htext⟩,h⟩
    refine ⟨url,hurl,?_⟩
    simp only [hfetch,hresp,ok_bind,hok,htext,h]
    rfl

/-- A text that passes the checks that are made is no larger in bytes than the cap and is by and
about whom was asked. -/
def ServesFitting (C : Crypto) (rt : Runtime) (observer subject : JsString) (observerPub : Bytes)
    (opts : FetchTrustObservationsOptions) : Prop :=
  ∀ body env, Served opts observer subject body → opts.cap.lt (.ofNat body.length) = false →
    parseJson body = .ok (.obj env) → verifyTrustObservations C rt env observerPub = .ok true →
    opts.cap.lt (.ofNat (utf8 body).length) = false ∧
      lookup env (js "observer") = some (.str observer) ∧
      lookup env (js "subject") = some (.str subject)

/-- Every fetch returns what was asked for exactly when the host serves nothing else that is
signed and short enough in code units. -/
theorem fetchTrustObservations_answers_iff (C : Crypto) (rt : Runtime)
    (observer subject : JsString) (observerPub : Bytes) (opts : FetchTrustObservationsOptions) :
    (∀ env, fetchTrustObservations C rt observer subject observerPub opts = .ok env →
        ∃ body, Served opts observer subject body ∧
          Answers C rt observer subject observerPub opts.cap body env) ↔
      (observer ≠ [] ∧ subject ≠ [] ∧ observerPub.length ≠ 0 →
        ServesFitting C rt observer subject observerPub opts) := by
  constructor
  · intro h hargs body env hserved hsize hparse hverified
    obtain ⟨body',hserved',ha⟩ := h env (fetchTrustObservations_eq_ok.mpr
      ⟨hargs,body,hserved,readTrustObservations_eq_ok.mpr ⟨hsize,hparse,hverified⟩⟩)
    obtain rfl := hserved.unique hserved'
    exact ⟨ha.size,ha.observer,ha.subject⟩
  · intro h env hfetch
    obtain ⟨hargs,body,hserved,hread⟩ := fetchTrustObservations_eq_ok.mp hfetch
    obtain ⟨hsize,hparse,hverified⟩ := readTrustObservations_eq_ok.mp hread
    obtain ⟨hbytes,hobserver,hsubject⟩ := h hargs body env hserved hsize hparse hverified
    exact ⟨body,hserved,hbytes,hverified,hobserver,hsubject⟩

end Claim

/-! A document of the observer about another subject. -/
def sampleDocument (value : JsString) : Members :=
  [(js "signature",.obj [(js "value",.str value),(js "algorithm",.str (js "ed25519")),
      (js "key_id",.str (js "key-0"))]),
    (js "observer",.str (js "a.example")),(js "subject",.str (js "c.example")),
    (js "type",.str (js "SEMP_TRUST_OBSERVATIONS")),(js "version",.str (js "1.0.0")),
    (js "observations",.arr []),(js "timestamp",.str (js "2026-05-08T10:00:00Z"))]

theorem wf_sampleDocument (value : JsString) : (Json.obj (sampleDocument value)).WF := by
  refine Json.wf_of_keys [js "signature",js "observer",js "subject",js "type",js "version",
    js "observations",js "timestamp"] rfl (by decide) fun m hm => ?_
  simp only [sampleDocument,List.mem_cons,List.not_mem_nil,or_false] at hm
  obtain rfl | rfl | rfl | rfl | rfl | rfl | rfl := hm
  · refine Json.wf_of_keys [js "value",js "algorithm",js "key_id"] rfl (by decide) fun m hm => ?_
    simp only [List.mem_cons,List.not_mem_nil,or_false] at hm
    obtain rfl | rfl | rfl := hm <;> exact Json.wf_str _
  · exact Json.wf_str _
  · exact Json.wf_str _
  · exact Json.wf_str _
  · exact Json.wf_str _
  · exact Json.wf_arr.mpr nofun
  · exact Json.wf_str _

theorem canonicalRecordBytes_sampleDocument (value : JsString) :
    canonicalRecordBytes (sampleDocument value) =
      .ok (Canonical.canonicalBytes (.obj (sampleDocument []))) := by
  have hclone : (sampleDocument value).map (fun m => (m.1,m.2.reparse)) = sampleDocument value := by
    simp [sampleDocument,Json.reparse]
  have hview : reputationView (sampleDocument value) = .ok (sampleDocument []) := rfl
  rw [canonicalRecordBytes,marshalView,SignedDoc.deepCloneJSON_eq (wf_sampleDocument value),hclone,
    ok_bind,hview,ok_bind,Canonical.marshal_eq (wf_sampleDocument []),ok_bind]
  rfl

def sampleKey : Bytes := List.replicate 32 1

/-- The signature of the sample document. -/
def sampleSignature : Bytes :=
  Sample.fit 64 (Sample.digest
    (sampleKey++Canonical.canonicalBytes (.obj (sampleDocument [])))).val

def sampleBody : JsString :=
  JsonText.stringify (.obj (sampleDocument (Base64.encode sampleSignature)))

theorem length_sampleBody : sampleBody.length ≤ trustGossipMaxBytes := by
  decide +kernel

/-- The document verifies under the key of the observer. -/
theorem verify_sampleDocument : verifyTrustObservations Sample.crypto Sample.runtime
    (sampleDocument (Base64.encode sampleSignature)) sampleKey = .ok true := by
  have hne : isStr (some (.str (Base64.encode sampleSignature))) [] = false := by decide +kernel
  have hvalue : getProp (lookup (sampleDocument (Base64.encode sampleSignature)) (js "signature"))
      (js "value") = .ok (some (.str (Base64.encode sampleSignature))) := rfl
  rw [verifyTrustObservations,hvalue,ok_bind,if_neg (by rw [hne]; decide),base64Decode_str,
    Base64.decode_encode]
  dsimp only
  rw [canonicalRecordBytes_sampleDocument,ok_bind,verify,if_neg (by decide)]
  simp [Sample.crypto,sampleSignature]

def sampleOptions : FetchTrustObservationsOptions where
  fetchImpl := some fun _ => .ok ⟨true,200,.ok sampleBody⟩
  urlFn := none
  maxBytes := none

/-- A host answers the request for one subject with a signed document about another one, and that
is returned. -/
theorem not_answers : ¬∀ env, fetchTrustObservations Sample.crypto Sample.runtime (js "a.example")
      (js "b.example") sampleKey sampleOptions = .ok env →
    ∃ body, Served sampleOptions (js "a.example") (js "b.example") body ∧
      Answers Sample.crypto Sample.runtime (js "a.example") (js "b.example") sampleKey
        sampleOptions.cap body env := by
  intro h
  have hserved : Served sampleOptions (js "a.example") (js "b.example") sampleBody := by
    refine ⟨_,_,⟨true,200,.ok sampleBody⟩,rfl,rfl,rfl,rfl,rfl⟩
  have hparse : parseJson sampleBody =
      .ok (.obj (sampleDocument (Base64.encode sampleSignature))) := by
    rw [sampleBody,parseJson_stringify (wf_sampleDocument _)]
    simp [sampleDocument,Json.reparse]
  have hsize : sampleOptions.cap.lt (.ofNat sampleBody.length) = false := by
    have hlen := length_sampleBody
    have hcap : trustGossipMaxBytes < 2^53 := by decide
    rw [FetchTrustObservationsOptions.cap,sampleOptions,Option.getD_none,
      Number.lt_ofNat hcap (hlen.trans_lt hcap)]
    simpa using hlen
  obtain ⟨body,-,ha⟩ := h _ (fetchTrustObservations_eq_ok.mpr ⟨⟨by decide,by decide,by decide⟩,
    sampleBody,hserved,readTrustObservations_eq_ok.mpr ⟨hsize,hparse,verify_sampleDocument⟩⟩)
  have hsubject : lookup (sampleDocument (Base64.encode sampleSignature)) (js "subject") =
    some (.str (js "c.example")) := rfl
  have hsame := hsubject.symm.trans ha.subject
  rw [Option.some.injEq,Json.str.injEq] at hsame
  exact absurd hsame (by decide)

end Reputation
end Semp
