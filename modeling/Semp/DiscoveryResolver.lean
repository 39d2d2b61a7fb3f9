import Semp.Blocklist
import Semp.GossipHash

/-! How a server is found: the configuration of its domain is fetched, and from the place that it
names the keys of the domain.  The identifiers of the keys are checked against the keys. -/
namespace Semp
namespace Discovery

def wellKnownPath : JsString := js "/.well-known/semp/configuration"
def configurationType : JsString := js "SEMP_CONFIGURATION"
def wellKnownMaxBytes : ℕ := 64*1024
def domainKeysType : JsString := js "SEMP_DOMAIN_KEYS"
def domainKeysMaxBytes : ℕ := 32*1024
def baselineSuite : JsString := js "x25519-chacha20-poly1305"

def requireString (obj : Members) (key : JsString) : Js JsString :=
  match lookup obj key with
  | some (.str (u::s)) => .ok (u::s)
  | _ => raise (js "configuration: "++key++js ": missing or not a non-empty string")

def requireInt (obj : Members) (key : JsString) : Js Number :=
  match lookup obj key with
  | some (.num x) =>
    if x.isInteger then .ok x
    else raise (js "configuration: "++key++js ": missing or not an integer")
  | _ => raise (js "configuration: "++key++js ": missing or not an integer")

def requireObject (obj : Members) (key : JsString) : Js Members :=
  match lookup obj key with
  | some (.obj ms) => .ok ms
  | _ => raise (js "configuration: "++key++js ": missing or not an object")

/-- The loop over an array of strings from place `i` on. -/
def readStrings (key : JsString) (i : ℕ) : List Json → Js (List JsString)
  | [] => .ok []
  | .str s::vs => do
    let ss ← readStrings key (i+1) vs
    .ok (s::ss)
  | _::_ => raise (js "configuration: "++key++js "["++natText i++js "]: not a string")

def requireStringArray (obj : Members) (key : JsString) : Js (List JsString) :=
  match lookup obj key with
  | some (.arr vs) => readStrings key 0 vs
  | _ => raise (js "configuration: "++key++js ": missing or not an array")

/-- The loop over the transports; the first that is no URL is named. -/
def checkTransports (key : JsString) : Members → Js Unit
  | [] => .ok ()
  | (_,.str (_::_))::ms => checkTransports key ms
  | (k,_)::_ => raise (js "configuration: "++key++js "."++k++js ": not a non-empty string")

/-- The path is a dotted name, of which the last part is looked up. -/
def requireTransportMap (obj : Members) (key : JsString) : Js Members :=
  let leaf := (key.splitOn 46).getLast?.getD key
  match lookup obj leaf with
  | some (.obj ms) => do
    checkTransports key ms
    .ok ms
  | _ => raise (js "configuration: "++key++js ": missing or not an object")

def hasText (obj : Members) (key : JsString) : Bool :=
  match lookup obj key with
  | some (.str (_::_)) => true
  | _ => false

def isBool : Option Json → Bool
  | some (.bool _) => true
  | _ => false

def checkExtensions (i : ℕ) : List Json → Js Unit
  | [] => .ok ()
  | .obj ext::vs =>
    if !hasText ext (js "id") then
      raise (js "configuration: extensions["++natText i++js "].id missing")
    else if !isBool (lookup ext (js "required")) then
      raise (js "configuration: extensions["++natText i++js "].required must be boolean")
    else checkExtensions (i+1) vs
  | _::_ => raise (js "configuration: extensions["++natText i++js "]: not an object")

def checkExtensionList : Option Json → Js Unit
  | none => .ok ()
  | some (.arr vs) => checkExtensions 0 vs
  | some _ => raise (js "configuration: extensions: not an array")

def parseConfiguration (value : Json) : Js Members :=
  match value with
  | .obj value =>
    if !isStr (lookup value (js "type")) configurationType then
      raise (js "configuration: type "++stringifyText (lookup value (js "type"))++js ", want "++
        configurationType)
    else do
      let _ ← requireString value (js "version")
      let _ ← requireString value (js "domain")
      let _ ← requireInt value (js "revision")
      let _ ← requireInt value (js "ttl_seconds")
      let endpoints ← requireObject value (js "endpoints")
      let client ← requireTransportMap endpoints (js "endpoints.client")
      let federation ← requireTransportMap endpoints (js "endpoints.federation")
      if !hasText client (js "h2") then
        raise (js "configuration: endpoints.client.h2 missing (mandatory baseline)")
      else if !hasText federation (js "h2") then
        raise (js "configuration: endpoints.federation.h2 missing (mandatory baseline)")
      else do
        let _ ← requireString endpoints (js "register")
        let _ ← requireString endpoints (js "keys")
        let _ ← requireString endpoints (js "domain_keys")
        let suites ← requireStringArray value (js "suites")
        if baselineSuite ∉ suites then
          raise (js "configuration: suites missing x25519-chacha20-poly1305 "++
            js "(mandatory baseline)")
        else do
          let limits ← requireObject value (js "limits")
          let _ ← requireInt limits (js "max_envelope_size")
          checkExtensionList (lookup value (js "extensions"))
          .ok value
  | _ => raise (js "configuration: not a JSON object")

def validateKeyBlock (obj : Members) (label : JsString) : Js Unit :=
  if !hasText obj (js "algorithm") then
    raise (js "domain_keys: "++label++js ".algorithm: missing")
  else if !hasText obj (js "public_key") then
    raise (js "domain_keys: "++label++js ".public_key: missing")
  else if !hasText obj (js "key_id") then raise (js "domain_keys: "++label++js ".key_id: missing")
  else .ok ()

def checkKeyBlock (value : Members) (label : JsString) : Js Unit :=
  match lookup value label with
  | some (.obj block) => validateKeyBlock block label
  | _ => raise (js "domain_keys: "++label++js ": missing or not an object")

def parseDomainKeys (value : Json) : Js Members :=
  match value with
  | .obj value =>
    if !isStr (lookup value (js "type")) domainKeysType then
      raise (js "domain_keys: type "++stringifyText (lookup value (js "type"))++js ", want "++
        domainKeysType)
    else do
      let _ ← requireString value (js "version")
      let _ ← requireString value (js "domain")
      checkKeyBlock value (js "signing_key")
      checkKeyBlock value (js "encryption_key")
      .ok value
  | _ => raise (js "domain_keys: not a JSON object")

/-- What is read of a response. -/
structure FetchResponse where
  ok : Bool
  status : ℕ
  contentType : Option JsString
  /-- `await resp.text()` -/
  text : Js JsString

/-- The signal and the timer only make a fetch throw. -/
structure ResolveServerOptions where
  /-- `opts.fetchImpl ?? globalThis.fetch`: what the first fetch is answered with, and the second. -/
  fetchImpl : Option (ℕ → JsString → Js FetchResponse)
  configurationUrl : Option JsString

structure ResolvedServer where
  configuration : Members
  domainKeys : Members
  signingPub : Bytes
  signingKeyId : JsString
  encryptionPub : Bytes
  encryptionKeyId : JsString

/-- `block[key]`, of a block that was validated. -/
def blockText (block : Members) (key : JsString) : JsString :=
  match lookup block key with
  | some (.str s) => s
  | _ => []

def keyBlock (domainKeys : Members) (label : JsString) : Members :=
  match lookup domainKeys label with
  | some (.obj block) => block
  | _ => []

def decodeKeyBlockPublic (block : Members) : Bytes :=
  Base64.decode (blockText block (js "public_key"))

def wellKnownUrl (host : JsString) : Js JsString :=
  if host = [] then raise (js "discovery: empty host")
  else .ok (js "https://"++host++wellKnownPath)

/-- `opts.configurationUrl ?? wellKnownUrl(domain)` -/
def configUrlOf (opts : ResolveServerOptions) (domain : JsString) : Js JsString :=
  match opts.configurationUrl with
  | some url => .ok url
  | none => wellKnownUrl domain

section Code
variable (C : Crypto) (rt : Runtime) (lc : Locale)

def verifyDomainKeyFingerprint (block : Members) : Js Bool := do
  let want ← fingerprint C (decodeKeyBlockPublic block)
  .ok (lc.toLowerCase (blockText block (js "key_id")) == want)

/-- A body is taken as JSON unless its header says that it is something else. -/
def acceptableType (ct : JsString) : Bool :=
  decide (ct = []) || decide (js "json" <:+: lc.toLowerCase ct) ||
    decide (js "octet-stream" <:+: lc.toLowerCase ct)

/-- The body of fetch number `n`. -/
def fetchTextBounded (opts : ResolveServerOptions) (n : ℕ) (url : JsString) (maxBytes : ℕ) :
    Js JsString :=
  if url = [] then raise (js "discovery: empty URL")
  else
    match opts.fetchImpl with
    | none => raise (js "discovery: globalThis.fetch is undefined. Pass a fetchImpl option, "++
        js "or run on Node 22+ / a browser.")
    | some fetchImpl => do
      let resp ← fetchImpl n url
      let ct := resp.contentType.getD []
      if !resp.ok then
        raise (js "discovery: GET "++url++js " returned "++natText resp.status)
      else if !acceptableType lc ct then
        raise (js "discovery: GET "++url++js ": unexpected content-type "++ct)
      else do
        let body ← resp.text
        if maxBytes < (utf8 body).length then
          raise (js "discovery: GET "++url++js ": body exceeds "++natText maxBytes++
            js " bytes (got "++natText (utf8 body).length++js ")")
        else .ok body

/-- `JSON.parse(body)`; `subject` stands before the message of its error. -/
def parseBody (subject body : JsString) : Js Json :=
  match parseJson body with
  | .ok v => .ok v
  | .error err => raise (subject++js " parse: "++Handshake.thrownText rt err)

def fetchConfiguration (opts : ResolveServerOptions) (url : JsString) : Js Members := do
  let body ← fetchTextBounded lc opts 0 url wellKnownMaxBytes
  let parsed ← parseBody rt (js "discovery: configuration") body
  parseConfiguration parsed

/-- The document; the keys are decoded from it. -/
def fetchDomainKeys (opts : ResolveServerOptions) (url : JsString) : Js Members := do
  let body ← fetchTextBounded lc opts 1 url domainKeysMaxBytes
  let parsed ← parseBody rt (js "discovery: domain_keys") body
  let domainKeys ← parseDomainKeys parsed
  let signing ← verifyDomainKeyFingerprint C lc (keyBlock domainKeys (js "signing_key"))
  if !signing then
    raise (js "discovery: domain_keys.signing_key.key_id does not match SHA-256(public_key)")
  else do
    let encryption ← verifyDomainKeyFingerprint C lc (keyBlock domainKeys (js "encryption_key"))
    if !encryption then
      raise (js "discovery: domain_keys.encryption_key.key_id does not match SHA-256(public_key)")
    else .ok domainKeys

def resolveServer (opts : ResolveServerOptions) (domain : JsString) : Js ResolvedServer :=
  if domain = [] then raise (js "discovery: empty domain")
  else do
    let configUrl ← configUrlOf opts domain
    let configuration ← fetchConfiguration rt lc opts configUrl
    let endpoints ← getProp (some (.obj configuration)) (js "endpoints")
    match ← getProp endpoints (js "domain_keys") with
    | some (.str (u::url)) =>
      let domainKeys ← fetchDomainKeys C rt lc opts (u::url)
      let signing := keyBlock domainKeys (js "signing_key")
      let encryption := keyBlock domainKeys (js "encryption_key")
      .ok {
        configuration := configuration
        domainKeys := domainKeys
        signingPub := decodeKeyBlockPublic signing
        signingKeyId := blockText signing (js "key_id")
        encryptionPub := decodeKeyBlockPublic encryption
        encryptionKeyId := blockText encryption (js "key_id") }
    | _ => raise (js "discovery: configuration missing endpoints.domain_keys")

end Code

/-- A text that is not empty. -/
def HasText (obj : Members) (key : JsString) : Prop := ∃ s, lookup obj key = some (.str s) ∧ s ≠ []

def HasInt (obj : Members) (key : JsString) : Prop :=
  ∃ x, lookup obj key = some (.num x) ∧ x.isInteger = true

/-- The URLs of the transports of a server; there is one for the baseline. -/
def HasTransports (endpoints : Members) (key : JsString) : Prop :=
  ∃ ms, lookup endpoints key = some (.obj ms) ∧ (∀ p ∈ ms, ∃ s, p.2 = .str s ∧ s ≠ []) ∧
    HasText ms (js "h2")

structure IsEndpoints (endpoints : Members) : Prop where
  client : HasTransports endpoints (js "client")
  federation : HasTransports endpoints (js "federation")
  register : HasText endpoints (js "register")
  keys : HasText endpoints (js "keys")
  domain_keys : HasText endpoints (js "domain_keys")

structure IsExtension (ext : Members) : Prop where
  id : HasText ext (js "id")
  required : ∃ b, lookup ext (js "required") = some (.bool b)

/-- A configuration that the resolver takes. -/
structure IsConfiguration (c : Members) : Prop where
  type : lookup c (js "type") = some (.str configurationType)
  version : HasText c (js "version")
  domain : HasText c (js "domain")
  revision : HasInt c (js "revision")
  ttl_seconds : HasInt c (js "ttl_seconds")
  endpoints : ∃ e, lookup c (js "endpoints") = some (.obj e) ∧ IsEndpoints e
  suites : ∃ ss : List JsString, lookup c (js "suites") = some (.arr (ss.map .str)) ∧
    baselineSuite ∈ ss
  limits : ∃ l, lookup c (js "limits") = some (.obj l) ∧ HasInt l (js "max_envelope_size")
  extensions : lookup c (js "extensions") = none ∨ ∃ es : List Members,
    lookup c (js "extensions") = some (.arr (es.map .obj)) ∧ ∀ ext ∈ es, IsExtension ext

structure IsKeyBlock (block : Members) : Prop where
  algorithm : HasText block (js "algorithm")
  public_key : HasText block (js "public_key")
  key_id : HasText block (js "key_id")

structure IsDomainKeys (d : Members) : Prop where
  type : lookup d (js "type") = some (.str domainKeysType)
  version : HasText d (js "version")
  domain : HasText d (js "domain")
  signing_key : ∃ block, lookup d (js "signing_key") = some (.obj block) ∧ IsKeyBlock block
  encryption_key : ∃ block, lookup d (js "encryption_key") = some (.obj block) ∧ IsKeyBlock block

section Parse
variable {obj c d : Members} {key : JsString} {vs : List Json}

theorem hasText_iff : hasText obj key = true ↔ HasText obj key := by
  rw [hasText,HasText]
  split
  next u s h => simp [h]
  next h =>
    simp only [Bool.false_eq_true,false_iff]
    rintro ⟨_ | ⟨u,s⟩,hs,hne⟩
    · exact hne rfl
    · exact h u s hs

theorem requireString_ok : (∃ s, requireString obj key = .ok s) ↔ HasText obj key := by
  rw [requireString,HasText]
  split
  next u s h => simp [h]
  next h =>
    simp only [raise_ne_ok,exists_false,false_iff]
    rintro ⟨_ | ⟨u,s⟩,hs,hne⟩
    · exact hne rfl
    · exact h u s hs

theorem requireInt_ok : (∃ x, requireInt obj key = .ok x) ↔ HasInt obj key := by
  rw [requireInt,HasInt]
  split
  next x h =>
    rw [h]
    split_ifs with hx
    · simp [hx]
    · simp [hx]
  next h =>
    simp only [raise_ne_ok,exists_false,false_iff]
    rintro ⟨x,hx,-⟩
    exact h x hx

theorem requireObject_eq_ok {ms : Members} :
    requireObject obj key = .ok ms ↔ lookup obj key = some (.obj ms) := by
  rw [requireObject]
  split
  next ns h => simp [h]
  next h =>
    simp only [raise_ne_ok,false_iff]
    exact h ms

theorem readStrings_eq_ok {i : ℕ} {ss : List JsString} :
    readStrings key i vs = .ok ss ↔ vs = ss.map .str := by
  induction vs generalizing i ss with
  | nil => cases ss <;> simp [readStrings]
  | cons v vs ih =>
    cases v with
    | str s =>
      rw [readStrings,bind_eq_ok]
      constructor
      · rintro ⟨rest,hrest,h⟩
        obtain rfl := Except.ok.inj h
        rw [ih.mp hrest,List.map_cons]
      · intro h
        cases ss with
        | nil => cases h
        | cons s' rest =>
          obtain ⟨hs,hrest⟩ := List.cons.inj h
          obtain rfl := Json.str.inj hs
          exact ⟨rest,ih.mpr hrest,rfl⟩
    | _ => cases ss <;> simp [readStrings]

theorem requireStringArray_eq_ok {ss : List JsString} :
    requireStringArray obj key = .ok ss ↔ lookup obj key = some (.arr (ss.map .str)) := by
  rw [requireStringArray]
  split
  next vs h => rw [readStrings_eq_ok,h,Option.some.injEq,Json.arr.injEq]
  next h =>
    simp only [raise_ne_ok,false_iff]
    exact h _

theorem checkTransports_eq_ok {ms : Members} :
    checkTransports key ms = .ok () ↔ ∀ p ∈ ms, ∃ s, p.2 = .str s ∧ s ≠ [] := by
  fun_induction checkTransports key ms with
  | case1 => simp
  | case2 k u s ms ih => simp [ih]
  | case3 k v ms h =>
    simp only [raise_ne_ok,false_iff]
    intro hall
    obtain ⟨_ | ⟨u,s⟩,hs,hne⟩ := hall _ List.mem_cons_self
    · exact hne rfl
    · exact h u s hs

theorem requireTransportMap_eq_ok {leaf : JsString} {ms : Members}
    (hleaf : (key.splitOn 46).getLast?.getD key = leaf) :
    requireTransportMap obj key = .ok ms ↔ lookup obj leaf = some (.obj ms) ∧
      ∀ p ∈ ms, ∃ s, p.2 = .str s ∧ s ≠ [] := by
  rw [requireTransportMap,hleaf]
  split
  next ns h =>
    rw [h,bind_eq_ok,Option.some.injEq,Json.obj.injEq]
    constructor
    · rintro ⟨u,hu,hms⟩
      obtain rfl := Except.ok.inj hms
      exact ⟨rfl,checkTransports_eq_ok.mp hu⟩
    · rintro ⟨rfl,hms⟩
      exact ⟨(),checkTransports_eq_ok.mpr hms,rfl⟩
  next h =>
    simp only [raise_ne_ok,false_iff]
    exact fun hms => h ms hms.1

theorem isBool_iff {v : Option Json} : isBool v = true ↔ ∃ b, v = some (.bool b) := by
  cases v with
  | none => simp [isBool]
  | some v => cases v <;> simp [isBool]

theorem checkExtensions_eq_ok {i : ℕ} : checkExtensions i vs = .ok () ↔
    ∃ es : List Members, vs = es.map .obj ∧ ∀ ext ∈ es, IsExtension ext := by
  induction vs generalizing i with
  | nil => exact ⟨fun _ => ⟨[],rfl,by simp⟩,fun _ => rfl⟩
  | cons v vs ih =>
    cases v with
    | obj ext =>
      rw [checkExtensions]
      constructor
      · intro h
        split_ifs at h with hid hrequired
        · cases h
        · cases h
        obtain ⟨es,rfl,hes⟩ := ih.mp h
        rw [Bool.not_eq_true,Bool.not_eq_false'] at hid hrequired
        exact ⟨ext::es,rfl,List.forall_mem_cons.mpr
          ⟨⟨hasText_iff.mp hid,isBool_iff.mp hrequired⟩,hes⟩⟩
      · rintro ⟨es,h,hes⟩
        cases es with
        | nil => cases h
        | cons e es =>
          obtain ⟨he,hrest⟩ := List.cons.inj h
          obtain rfl := Json.obj.inj he
          obtain ⟨hext,hes⟩ := List.forall_mem_cons.mp hes
          rw [hasText_iff.mpr hext.id,isBool_iff.mpr hext.required]
          exact ih.mpr ⟨es,hrest,hes⟩
    | _ =>
      simp only [checkExtensions,raise_ne_ok,false_iff]
      rintro ⟨_ | ⟨e,es⟩,h,-⟩ <;> cases h

theorem checkExtensionList_eq_ok {v : Option Json} : checkExtensionList v = .ok () ↔
    v = none ∨ ∃ es : List Members, v = some (.arr (es.map .obj)) ∧ ∀ ext ∈ es, IsExtension ext := by
  cases v with
  | none => simp [checkExtensionList]
  | some v => cases v <;> simp [checkExtensionList,checkExtensions_eq_ok]

theorem leaf_client : ((js "endpoints.client").splitOn 46).getLast?.getD (js "endpoints.client") =
    js "client" := by decide

theorem leaf_federation :
    ((js "endpoints.federation").splitOn 46).getLast?.getD (js "endpoints.federation") =
      js "federation" := by decide

theorem parseConfiguration_eq_ok {v : Json} :
    parseConfiguration v = .ok c ↔ v = .obj c ∧ IsConfiguration c := by
  constructor
  · intro h
    cases v with
    | obj ms =>
      rw [parseConfiguration] at h
      by_cases htype : isStr (lookup ms (js "type")) configurationType = true
      swap
      · rw [Bool.eq_false_iff.mpr htype,Bool.not_false,if_pos rfl] at h
        cases h
      rw [htype,Bool.not_true,if_neg Bool.false_ne_true] at h
      obtain ⟨version,hversion,h⟩ := bind_eq_ok.mp h
      obtain ⟨domain,hdomain,h⟩ := bind_eq_ok.mp h
      obtain ⟨revision,hrevision,h⟩ := bind_eq_ok.mp h
      obtain ⟨ttl,httl,h⟩ := bind_eq_ok.mp h
      obtain ⟨e,hendpoints,h⟩ := bind_eq_ok.mp h
      obtain ⟨client,hclient,h⟩ := bind_eq_ok.mp h
      obtain ⟨federation,hfederation,h⟩ := bind_eq_ok.mp h
      by_cases hch : hasText client (js "h2") = true
      swap
      · rw [Bool.eq_false_iff.mpr hch,Bool.not_false,if_pos rfl] at h
        cases h
      by_cases hfh : hasText federation (js "h2") = true
      swap
      · rw [hch,Bool.not_true,if_neg Bool.false_ne_true,Bool.eq_false_iff.mpr hfh,Bool.not_false,
          if_pos rfl] at h
        cases h
      rw [hch,hfh,Bool.not_true,if_neg Bool.false_ne_true,if_neg Bool.false_ne_true] at h
      obtain ⟨register,hregister,h⟩ := bind_eq_ok.mp h
      obtain ⟨keys,hkeys,h⟩ := bind_eq_ok.mp h
      obtain ⟨domainKeys,hdomainKeys,h⟩ := bind_eq_ok.mp h
      obtain ⟨suites,hsuites,h⟩ := bind_eq_ok.mp h
      by_cases hbaseline : baselineSuite ∈ suites
      swap
      · rw [if_pos hbaseline] at h
        cases h
      rw [if_neg (not_not.mpr hbaseline)] at h
      obtain ⟨limits,hlimits,h⟩ := bind_eq_ok.mp h
      obtain ⟨size,hsize,h⟩ := bind_eq_ok.mp h
      obtain ⟨u,hextensions,h⟩ := bind_eq_ok.mp h
      obtain rfl := Except.ok.inj h
      obtain ⟨hclient,hclients⟩ := (requireTransportMap_eq_ok leaf_client).mp hclient
      obtain ⟨hfederation,hfederations⟩ := (requireTransportMap_eq_ok leaf_federation).mp hfederation
      exact ⟨rfl,isStr_iff.mp htype,requireString_ok.mp ⟨_,hversion⟩,requireString_ok.mp ⟨_,hdomain⟩,
        requireInt_ok.mp ⟨_,hrevision⟩,requireInt_ok.mp ⟨_,httl⟩,
        ⟨e,requireObject_eq_ok.mp hendpoints,⟨client,hclient,hclients,hasText_iff.mp hch⟩,
          ⟨federation,hfederation,hfederations,hasText_iff.mp hfh⟩,requireString_ok.mp ⟨_,hregister⟩,
          requireString_ok.mp ⟨_,hkeys⟩,requireString_ok.mp ⟨_,hdomainKeys⟩⟩,
        ⟨suites,requireStringArray_eq_ok.mp hsuites,hbaseline⟩,
        ⟨limits,requireObject_eq_ok.mp hlimits,requireInt_ok.mp ⟨_,hsize⟩⟩,
        checkExtensionList_eq_ok.mp hextensions⟩
    | _ => cases h
  · rintro ⟨rfl,h⟩
    obtain ⟨version,hversion⟩ := requireString_ok.mpr h.version
    obtain ⟨domain,hdomain⟩ := requireString_ok.mpr h.domain
    obtain ⟨revision,hrevision⟩ := requireInt_ok.mpr h.revision
    obtain ⟨ttl,httl⟩ := requireInt_ok.mpr h.ttl_seconds
    obtain ⟨e,he,hendpoints⟩ := h.endpoints
    obtain ⟨client,hclient,hclients,hch⟩ := hendpoints.client
    obtain ⟨federation,hfederation,hfederations,hfh⟩ := hendpoints.federation
    obtain ⟨register,hregister⟩ := requireString_ok.mpr hendpoints.register
    obtain ⟨keys,hkeys⟩ := requireString_ok.mpr hendpoints.keys
    obtain ⟨domainKeys,hdomainKeys⟩ := requireString_ok.mpr hendpoints.domain_keys
    obtain ⟨suites,hsuites,hbaseline⟩ := h.suites
    obtain ⟨limits,hlimits,hsize⟩ := h.limits
    obtain ⟨size,hsize⟩ := requireInt_ok.mpr hsize
    rw [parseConfiguration,isStr_iff.mpr h.type,Bool.not_true,if_neg Bool.false_ne_true,hversion,
      ok_bind,hdomain,ok_bind,hrevision,ok_bind,httl,ok_bind,requireObject_eq_ok.mpr he,ok_bind,
      (requireTransportMap_eq_ok leaf_client).mpr ⟨hclient,hclients⟩,ok_bind,
      (requireTransportMap_eq_ok leaf_federation).mpr ⟨hfederation,hfederations⟩,ok_bind,
      hasText_iff.mpr hch,hasText_iff.mpr hfh,Bool.not_true,if_neg Bool.false_ne_true,
      if_neg Bool.false_ne_true,hregister,ok_bind,hkeys,ok_bind,hdomainKeys,ok_bind,
      requireStringArray_eq_ok.mpr hsuites,ok_bind,if_neg (not_not.mpr hbaseline),
      requireObject_eq_ok.mpr hlimits,ok_bind,hsize,ok_bind,
      checkExtensionList_eq_ok.mpr h.extensions]
    rfl

theorem validateKeyBlock_eq_ok {block : Members} {label : JsString} :
    validateKeyBlock block label = .ok () ↔ IsKeyBlock block := by
  rw [validateKeyBlock]
  constructor
  · intro h
    split_ifs at h with halgorithm hpublic hid
    · cases h
    · cases h
    · cases h
    rw [Bool.not_eq_true,Bool.not_eq_false'] at halgorithm hpublic hid
    exact ⟨hasText_iff.mp halgorithm,hasText_iff.mp hpublic,hasText_iff.mp hid⟩
  · intro h
    rw [hasText_iff.mpr h.algorithm,hasText_iff.mpr h.public_key,hasText_iff.mpr h.key_id]
    rfl

theorem checkKeyBlock_eq_ok {label : JsString} : checkKeyBlock d label = .ok () ↔
    ∃ block, lookup d label = some (.obj block) ∧ IsKeyBlock block := by
  rw [checkKeyBlock]
  split
  next block h => simp [h,validateKeyBlock_eq_ok]
  next h =>
    simp only [raise_ne_ok,false_iff]
    rintro ⟨block,hblock,-⟩
    exact h block hblock

theorem parseDomainKeys_eq_ok {v : Json} :
    parseDomainKeys v = .ok d ↔ v = .obj d ∧ IsDomainKeys d := by
  constructor
  · intro h
    cases v with
    | obj ms =>
      rw [parseDomainKeys] at h
      by_cases htype : isStr (lookup ms (js "type")) domainKeysType = true
      swap
      · rw [Bool.eq_false_iff.mpr htype,Bool.not_false,if_pos rfl] at h
        cases h
      rw [htype,Bool.not_true,if_neg Bool.false_ne_true] at h
      obtain ⟨version,hversion,h⟩ := bind_eq_ok.mp h
      obtain ⟨domain,hdomain,h⟩ := bind_eq_ok.mp h
      obtain ⟨u,hsigning,h⟩ := bind_eq_ok.mp h
      obtain ⟨u',hencryption,h⟩ := bind_eq_ok.mp h
      obtain rfl := Except.ok.inj h
      exact ⟨rfl,isStr_iff.mp htype,requireString_ok.mp ⟨_,hversion⟩,requireString_ok.mp ⟨_,hdomain⟩,
        checkKeyBlock_eq_ok.mp hsigning,checkKeyBlock_eq_ok.mp hencryption⟩
    | _ => cases h
  · rintro ⟨rfl,h⟩
    obtain ⟨version,hversion⟩ := requireString_ok.mpr h.version
    obtain ⟨domain,hdomain⟩ := requireString_ok.mpr h.domain
    rw [parseDomainKeys,isStr_iff.mpr h.type,Bool.not_true,if_neg Bool.false_ne_true,hversion,
      ok_bind,hdomain,ok_bind,checkKeyBlock_eq_ok.mpr h.signing_key,ok_bind,
      checkKeyBlock_eq_ok.mpr h.encryption_key]
    rfl

end Parse

/-- What fetch number `n` is answered with and the resolver reads. -/
def Serves (lc : Locale) (opts : ResolveServerOptions) (n : ℕ) (url : JsString) (maxBytes : ℕ)
    (body : JsString) : Prop :=
  url ≠ [] ∧ ∃ fetchImpl resp, opts.fetchImpl = some fetchImpl ∧ fetchImpl n url = .ok resp ∧
    resp.ok = true ∧ acceptableType lc (resp.contentType.getD []) = true ∧
    resp.text = .ok body ∧ (utf8 body).length ≤ maxBytes

/-- A block of a key and of the identifier that is its fingerprint but for the case. -/
structure NamesKey (C : Crypto) (lc : Locale) (domainKeys : Members) (label : JsString)
    (pub : Bytes) (keyId : JsString) : Prop where
  block : ∃ block s, lookup domainKeys label = some (.obj block) ∧
    lookup block (js "public_key") = some (.str s) ∧ pub = Base64.decode s ∧
    lookup block (js "key_id") = some (.str keyId)
  ne : pub ≠ []
  fingerprint : lc.toLowerCase keyId = hex (C.sha256 pub).val

/-- What a server is resolved to. -/
structure Resolves (C : Crypto) (lc : Locale) (opts : ResolveServerOptions) (domain : JsString)
    (r : ResolvedServer) : Prop where
  asked : domain ≠ []
  configured : ∃ body, Serves lc opts 0
      (opts.configurationUrl.getD (js "https://"++domain++wellKnownPath)) wellKnownMaxBytes body ∧
    parseJson body = .ok (.obj r.configuration)
  isConfiguration : IsConfiguration r.configuration
  keyed : ∃ e url body, lookup r.configuration (js "endpoints") = some (.obj e) ∧
    lookup e (js "domain_keys") = some (.str url) ∧ Serves lc opts 1 url domainKeysMaxBytes body ∧
    parseJson body = .ok (.obj r.domainKeys)
  isDomainKeys : IsDomainKeys r.domainKeys
  signing : NamesKey C lc r.domainKeys (js "signing_key") r.signingPub r.signingKeyId
  encryption : NamesKey C lc r.domainKeys (js "encryption_key") r.encryptionPub r.encryptionKeyId

section Resolve
variable {C : Crypto} {rt : Runtime} {lc : Locale} {opts : ResolveServerOptions}
  {url body domain : JsString} {n maxBytes : ℕ}

theorem fetchTextBounded_eq_ok :
    fetchTextBounded lc opts n url maxBytes = .ok body ↔ Serves lc opts n url maxBytes body := by
  rw [fetchTextBounded,Serves]
  by_cases hurl : url = []
  · rw [if_pos hurl]
    simp [hurl]
  rw [if_neg hurl]
  cases hfetch : opts.fetchImpl with
  | none => simp
  | some fetchImpl =>
    dsimp only
    rw [bind_eq_ok]
    constructor
    · rintro ⟨resp,hresp,h⟩
      by_cases hok : resp.ok = true
      swap
      · rw [Bool.eq_false_iff.mpr hok,Bool.not_false,if_pos rfl] at h
        cases h
      by_cases htype : acceptableType lc (resp.contentType.getD []) = true
      swap
      · rw [hok,Bool.not_true,if_neg Bool.false_ne_true,Bool.eq_false_iff.mpr htype,Bool.not_false,
          if_pos rfl] at h
        cases h
      rw [hok,htype,Bool.not_true,if_neg Bool.false_ne_true,if_neg Bool.false_ne_true] at h
      obtain ⟨text,htext,h⟩ := bind_eq_ok.mp h
      split_ifs at h with hsize
      · cases h
      obtain rfl := Except.ok.inj h
      exact ⟨hurl,fetchImpl,resp,rfl,hresp,hok,htype,htext,not_lt.mp hsize⟩
    · rintro ⟨-,f,resp,hf,hresp,hok,htype,htext,hsize⟩
      obtain rfl := Option.some.inj hf
      refine ⟨resp,hresp,?_⟩
      rw [hok,htype,Bool.not_true,if_neg Bool.false_ne_true,if_neg Bool.false_ne_true,htext,ok_bind,
        if_neg (not_lt.mpr hsize)]

theorem parseBody_eq_ok {subject : JsString} {v : Json} :
    parseBody rt subject body = .ok v ↔ parseJson body = .ok v := by
  rw [parseBody]
  cases parseJson body with
  | ok w => rfl
  | error err => simp

theorem fetchConfiguration_eq_ok {c : Members} : fetchConfiguration rt lc opts url = .ok c ↔
    ∃ body, Serves lc opts 0 url wellKnownMaxBytes body ∧ parseJson body = .ok (.obj c) ∧
      IsConfiguration c := by
  rw [fetchConfiguration,bind_eq_ok]
  constructor
  · rintro ⟨body,hbody,h⟩
    obtain ⟨v,hv,h⟩ := bind_eq_ok.mp h
    obtain ⟨rfl,hc⟩ := parseConfiguration_eq_ok.mp h
    exact ⟨body,fetchTextBounded_eq_ok.mp hbody,parseBody_eq_ok.mp hv,hc⟩
  · rintro ⟨body,hbody,hv,hc⟩
    refine ⟨body,fetchTextBounded_eq_ok.mpr hbody,?_⟩
    rw [parseBody_eq_ok.mpr hv,ok_bind]
    exact parseConfiguration_eq_ok.mpr ⟨rfl,hc⟩

theorem fetchDomainKeys_eq_ok {d : Members} : fetchDomainKeys C rt lc opts url = .ok d ↔
    (∃ body, Serves lc opts 1 url domainKeysMaxBytes body ∧ parseJson body = .ok (.obj d) ∧
      IsDomainKeys d) ∧
    verifyDomainKeyFingerprint C lc (keyBlock d (js "signing_key")) = .ok true ∧
    verifyDomainKeyFingerprint C lc (keyBlock d (js "encryption_key")) = .ok true := by
  rw [fetchDomainKeys,bind_eq_ok]
  constructor
  · rintro ⟨body,hbody,h⟩
    obtain ⟨v,hv,h⟩ := bind_eq_ok.mp h
    obtain ⟨ks,hks,h⟩ := bind_eq_ok.mp h
    obtain ⟨signing,hsigning,h⟩ := bind_eq_ok.mp h
    cases signing with
    | false => cases h
    | true =>
      rw [Bool.not_true,if_neg Bool.false_ne_true] at h
      obtain ⟨encryption,hencryption,h⟩ := bind_eq_ok.mp h
      cases encryption with
      | false => cases h
      | true =>
        obtain rfl : ks = d := Except.ok.inj h
        obtain ⟨rfl,hd⟩ := parseDomainKeys_eq_ok.mp hks
        exact ⟨⟨body,fetchTextBounded_eq_ok.mp hbody,parseBody_eq_ok.mp hv,hd⟩,hsigning,
          hencryption⟩
  · rintro ⟨⟨body,hbody,hv,hd⟩,hsigning,hencryption⟩
    refine ⟨body,fetchTextBounded_eq_ok.mpr hbody,?_⟩
    rw [parseBody_eq_ok.mpr hv,ok_bind,parseDomainKeys_eq_ok.mpr ⟨rfl,hd⟩,ok_bind,hsigning,ok_bind,
      Bool.not_true,if_neg Bool.false_ne_true,hencryption,ok_bind]
    rfl

theorem verifyDomainKeyFingerprint_eq_ok {block : Members} :
    verifyDomainKeyFingerprint C lc block = .ok true ↔ decodeKeyBlockPublic block ≠ [] ∧
      lc.toLowerCase (blockText block (js "key_id")) =
        hex (C.sha256 (decodeKeyBlockPublic block)).val := by
  rw [verifyDomainKeyFingerprint,fingerprint]
  by_cases hpub : decodeKeyBlockPublic block = []
  · rw [if_pos (List.length_eq_zero_iff.mpr hpub)]
    simp [hpub]
  · rw [if_neg (mt List.length_eq_zero_iff.mp hpub),ok_bind,Except.ok.injEq,beq_iff_eq]
    simp [hpub]

/-- A block that was validated names its key exactly when its fingerprint is verified. -/
theorem namesKey_iff {d : Members} {label keyId : JsString} {pub : Bytes}
    (h : ∃ block, lookup d label = some (.obj block) ∧ IsKeyBlock block) :
    NamesKey C lc d label pub keyId ↔
      verifyDomainKeyFingerprint C lc (keyBlock d label) = .ok true ∧
        pub = decodeKeyBlockPublic (keyBlock d label) ∧
        keyId = blockText (keyBlock d label) (js "key_id") := by
  obtain ⟨block,hblock,hkey⟩ := h
  obtain ⟨s,hs,-⟩ := hkey.public_key
  obtain ⟨id,hid,-⟩ := hkey.key_id
  have hpub : decodeKeyBlockPublic block = Base64.decode s := by
    rw [decodeKeyBlockPublic,blockText,hs]
  have hkeyId : blockText block (js "key_id") = id := by rw [blockText,hid]
  have hb : keyBlock d label = block := by rw [keyBlock,hblock]
  rw [hb,verifyDomainKeyFingerprint_eq_ok,hpub,hkeyId]
  constructor
  · rintro ⟨⟨block',s',hblock',hs',rfl,hid'⟩,hne,hfingerprint⟩
    obtain rfl := Json.obj.inj (Option.some.inj (hblock.symm.trans hblock'))
    obtain rfl := Json.str.inj (Option.some.inj (hs.symm.trans hs'))
    obtain rfl := Json.str.inj (Option.some.inj (hid.symm.trans hid'))
    exact ⟨⟨hne,hfingerprint⟩,rfl,rfl⟩
  · rintro ⟨⟨hne,hfingerprint⟩,rfl,rfl⟩
    exact ⟨⟨block,s,hblock,hs,rfl,hid⟩,hne,hfingerprint⟩

theorem configUrlOf_eq_ok (hdomain : domain ≠ []) : configUrlOf opts domain =
    .ok (opts.configurationUrl.getD (js "https://"++domain++wellKnownPath)) := by
  rw [configUrlOf]
  cases opts.configurationUrl with
  | some url => rfl
  | none => rw [wellKnownUrl,if_neg hdomain,Option.getD_none]

theorem resolveServer_eq_ok {r : ResolvedServer} :
    resolveServer C rt lc opts domain = .ok r ↔ Resolves C lc opts domain r := by
  rw [resolveServer]
  by_cases hdomain : domain = []
  · rw [if_pos hdomain]
    simp only [raise_ne_ok,false_iff]
    exact fun h => h.asked hdomain
  rw [if_neg hdomain,configUrlOf_eq_ok hdomain,ok_bind,bind_eq_ok]
  constructor
  · rintro ⟨c,hc,h⟩
    obtain ⟨body,hbody,hparsed,hconf⟩ := fetchConfiguration_eq_ok.mp hc
    obtain ⟨e,he,hendpoints⟩ := hconf.endpoints
    obtain ⟨url,hurl,hne⟩ := hendpoints.domain_keys
    rw [getProp,ok_bind,he,getProp,ok_bind,hurl] at h
    cases url with
    | nil => exact absurd rfl hne
    | cons u url =>
      obtain ⟨d,hd,h⟩ := bind_eq_ok.mp h
      obtain rfl := Except.ok.inj h
      obtain ⟨⟨body',hbody',hparsed',hkeys⟩,hsigning,hencryption⟩ := fetchDomainKeys_eq_ok.mp hd
      exact ⟨hdomain,⟨body,hbody,hparsed⟩,hconf,⟨e,_,body',he,hurl,hbody',hparsed'⟩,hkeys,
        (namesKey_iff hkeys.signing_key).mpr ⟨hsigning,rfl,rfl⟩,
        (namesKey_iff hkeys.encryption_key).mpr ⟨hencryption,rfl,rfl⟩⟩
  · intro h
    obtain ⟨body,hbody,hparsed⟩ := h.configured
    obtain ⟨e,url,body',he,hurl,hbody',hparsed'⟩ := h.keyed
    obtain ⟨hsigning,hpub,hid⟩ := (namesKey_iff h.isDomainKeys.signing_key).mp h.signing
    obtain ⟨hencryption,hpub',hid'⟩ := (namesKey_iff h.isDomainKeys.encryption_key).mp h.encryption
    refine ⟨r.configuration,fetchConfiguration_eq_ok.mpr ⟨body,hbody,hparsed,h.isConfiguration⟩,?_⟩
    rw [getProp,ok_bind,he,getProp,ok_bind,hurl]
    cases url with
    | nil => exact absurd rfl hbody'.1
    | cons u url =>
      refine bind_eq_ok.mpr ⟨r.domainKeys,fetchDomainKeys_eq_ok.mpr
        ⟨⟨body',hbody',hparsed',h.isDomainKeys⟩,hsigning,hencryption⟩,?_⟩
      dsimp only
      rw [← hpub,← hid,← hpub',← hid']

/-- The identifiers that are verified name the keys, up to collisions of the hash. -/
theorem NamesKey.lower_eq_iff {d d' : Members} {label label' id id' : JsString} {pub pub' : Bytes}
    (h : NamesKey C lc d label pub id) (h' : NamesKey C lc d' label' pub' id') :
    lc.toLowerCase id = lc.toLowerCase id' ↔ C.sha256 pub = C.sha256 pub' := by
  rw [h.fingerprint,h'.fingerprint,Reputation.hex_injective.eq_iff,Subtype.val_inj]

end Resolve

/-- The public keys of a server with their identifiers. -/
def ResolvedServer.keys (r : ResolvedServer) : List (Bytes×JsString) :=
  [(r.signingPub,r.signingKeyId),(r.encryptionPub,r.encryptionKeyId)]

theorem Resolves.keys_named {C : Crypto} {lc : Locale} {opts : ResolveServerOptions}
    {domain : JsString} {r : ResolvedServer} (h : Resolves C lc opts domain r) :
    ∀ k ∈ r.keys, ∃ label, NamesKey C lc r.domainKeys label k.1 k.2 := by
  intro k hk
  rw [ResolvedServer.keys,List.mem_pair] at hk
  rcases hk with rfl | rfl
  · exact ⟨_,h.signing⟩
  · exact ⟨_,h.encryption⟩

/-- A server is resolved exactly when its documents are served and keep to the protocol, and to
what they publish; among the keys of all the servers that were ever resolved, two identifiers are
one up to case exactly when the keys have one hash. -/
theorem resolved_keys (C : Crypto) (rt : Runtime) (lc : Locale) :
    (∀ opts domain r, resolveServer C rt lc opts domain = .ok r ↔ Resolves C lc opts domain r) ∧
    ∀ opts domain r opts' domain' r', resolveServer C rt lc opts domain = .ok r →
      resolveServer C rt lc opts' domain' = .ok r' → ∀ k ∈ r.keys, ∀ k' ∈ r'.keys,
        (lc.toLowerCase k.2 = lc.toLowerCase k'.2 ↔ C.sha256 k.1 = C.sha256 k'.1) := by
  refine ⟨fun opts domain r => resolveServer_eq_ok,?_⟩
  intro opts domain r opts' domain' r' hr hr' k hk k' hk'
  obtain ⟨label,hlabel⟩ := (resolveServer_eq_ok.mp hr).keys_named k hk
  obtain ⟨label',hlabel'⟩ := (resolveServer_eq_ok.mp hr').keys_named k' hk'
  exact hlabel.lower_eq_iff hlabel'

end Discovery
end Semp
