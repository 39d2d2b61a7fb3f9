import Semp.Blocklist
import Semp.Handshake

/-! Scoped certificates of delegated devices: their structural checks, and whether the matcher
of a scope admits a peer.  The fields hold values of their types; what the source asks of those
at run time beyond the types is what is checked here. -/
namespace Semp
namespace DeviceCertificates
open Handshake (require)

def deviceCertificateType : JsString := js "SEMP_DEVICE_CERTIFICATE"

def maxScopeMatcherEntries : ℕ := 10000
def maxScopeRateLimitTiers : ℕ := 16
def maxDeviceCertificateLifetimeMs : Number := .ofNat (365*24*3600*1000)

structure ScopeEntry where
  /-- `user`, `domain` or `server`, checked at run time only. -/
  type : JsString
  address : Option JsString
  domain : Option JsString
  server : Option JsString
  deriving DecidableEq, Repr

structure RateLimitTier where
  period_seconds : Number
  amount_allowed : Number
  deriving DecidableEq, Repr

structure ScopeMatcher where
  /-- `unrestricted`, `restricted`, `denylist` or `none`, checked at run time only. -/
  mode : JsString
  allow : Option (List ScopeEntry)
  deny : Option (List ScopeEntry)
  rate_limits : List RateLimitTier
  delivery_stage : Option Number
  deriving DecidableEq, Repr

structure ScopeResource where
  read : Bool
  write : Bool
  rate_limits : List RateLimitTier
  deriving DecidableEq, Repr

structure Scope where
  send : ScopeMatcher
  receive : ScopeMatcher
  blocklist : ScopeResource
  keys : ScopeResource
  devices : ScopeResource
  deriving DecidableEq, Repr

structure CertificateSignature where
  algorithm : JsString
  key_id : JsString
  value : JsString
  deriving DecidableEq, Repr

structure DeviceCertificate where
  type : JsString
  version : JsString
  device_id : JsString
  device_public_key : JsString
  account : JsString
  issued_by : JsString
  issued_at : JsString
  expires_at : JsString
  scope : Scope
  signature : CertificateSignature
  deriving DecidableEq, Repr

/-! The checks, each error under the path of the field it is about. -/

def itemPath (path : JsString) (i : ℕ) : JsString := path++js "["++natText i++js "]"

def validateTiers (path : JsString) : ℕ → List RateLimitTier → Js Unit
  | _, [] => .ok ()
  | i, t::tiers => do
    require (t.period_seconds.isInteger = true ∧ t.period_seconds.lt (.ofNat 1) = false)
      (itemPath path i++js ".period_seconds: "++NumberText.toText t.period_seconds++js " MUST be >= 1")
    require (t.amount_allowed.isInteger = true ∧ t.amount_allowed.lt (.ofNat 0) = false)
      (itemPath path i++js ".amount_allowed: "++NumberText.toText t.amount_allowed++js " MUST be >= 0")
    validateTiers path (i+1) tiers

def validateRateLimits (tiers : List RateLimitTier) (path : JsString) : Js Unit := do
  require (tiers.length ≤ maxScopeRateLimitTiers)
    (path++js ": "++natText tiers.length++js " tiers exceeds cap "++natText maxScopeRateLimitTiers)
  validateTiers path 0 tiers

/-- A text that is there and not empty. -/
def given (s : Option JsString) : Bool := s.getD [] ≠ []

def validateScopeEntry (e : ScopeEntry) (path : JsString) : Js Unit :=
  if e.type = js "user" then require (given e.address) (path++js ": type=user requires address")
  else if e.type = js "domain" then
    require (given e.domain) (path++js ": type=domain requires domain")
  else if e.type = js "server" then
    require (given e.server ∨ given e.domain) (path++js ": type=server requires server or domain")
  else raise (path++js ": invalid entity type "++JsonText.quote e.type)

def validateScopeEntries (path : JsString) : ℕ → List ScopeEntry → Js Unit
  | _, [] => .ok ()
  | i, e::es => do
    validateScopeEntry e (itemPath path i)
    validateScopeEntries path (i+1) es

/-- The `switch` over the mode. -/
def validateMode (m : ScopeMatcher) (path : JsString) : Js Unit :=
  let allow := m.allow.getD []
  let deny := m.deny.getD []
  if m.mode = js "unrestricted" ∨ m.mode = js "none" then
    require (allow = [] ∧ deny = [])
      (path++js ": mode="++m.mode++js " requires allow + deny absent or empty")
  else if m.mode = js "restricted" then do
    require (allow ≠ []) (path++js ": mode=restricted requires non-empty allow")
    require (deny = []) (path++js ": mode=restricted forbids deny")
  else if m.mode = js "denylist" then do
    require (deny ≠ []) (path++js ": mode=denylist requires non-empty deny")
    require (allow = []) (path++js ": mode=denylist forbids allow")
  else raise (path++js ": invalid mode "++JsonText.quote m.mode)

/-- A stage that is set is one that only `scope.receive` may have, a positive integer. -/
def validateDeliveryStage (stage : Option Number) (path : JsString) (allowDeliveryStage : Bool) :
    Js Unit :=
  match stage with
  | none => .ok ()
  | some stage => do
    require (allowDeliveryStage = true) (path++js ": delivery_stage MUST be omitted on send matcher")
    require (stage.isInteger = true ∧ stage.lt (.ofNat 1) = false)
      (path++js ".delivery_stage: "++NumberText.toText stage++js " MUST be a positive integer")

def validateMatcher (m : ScopeMatcher) (path : JsString) (allowDeliveryStage : Bool) : Js Unit := do
  validateRateLimits m.rate_limits (path++js ".rate_limits")
  let allow := m.allow.getD []
  let deny := m.deny.getD []
  validateMode m path
  require (allow.length+deny.length ≤ maxScopeMatcherEntries)
    (path++js ": allow + deny size "++natText (allow.length+deny.length)++js " exceeds cap "++
      natText maxScopeMatcherEntries)
  validateScopeEntries (path++js ".allow") 0 allow
  validateScopeEntries (path++js ".deny") 0 deny
  validateDeliveryStage m.delivery_stage path allowDeliveryStage

def validateResource (r : ScopeResource) (path : JsString) : Js Unit :=
  validateRateLimits r.rate_limits (path++js ".rate_limits")

def validateScope (scope : Scope) : Js Unit := do
  validateMatcher scope.send (js "scope.send") false
  validateMatcher scope.receive (js "scope.receive") true
  validateResource scope.blocklist (js "scope.blocklist")
  validateResource scope.keys (js "scope.keys")
  validateResource scope.devices (js "scope.devices")

/-- The named texts must not be empty. -/
def requireTexts : List (String × JsString) → Js Unit
  | [] => .ok ()
  | f::fs => do
    require (f.2 ≠ []) (js "device certificate: missing "++js f.1)
    requireTexts fs

def validateLifetime (host : Host) (c : DeviceCertificate) : Js Unit := do
  let issued := host.dateParse c.issued_at
  let expires := host.dateParse c.expires_at
  require (issued.isNaN = false)
    (js "device certificate: issued_at is not ISO 8601: "++c.issued_at)
  require (expires.isNaN = false)
    (js "device certificate: expires_at is not ISO 8601: "++c.expires_at)
  require (expires.le issued = false)
    (js "device certificate: expires_at MUST be after issued_at")
  require (maxDeviceCertificateLifetimeMs.lt (expires.sub issued) = false)
    (js "device certificate: lifetime "++NumberText.toText (expires.sub issued)++
      js " ms exceeds 365-day cap (KEY.md §10.3.8)")

def validateDeviceCertificate (host : Host) (c : DeviceCertificate) (skipSignatureCheck : Bool) :
    Js Unit := do
  require (c.type = deviceCertificateType)
    (js "device certificate: type "++JsonText.quote c.type++js ", want "++deviceCertificateType)
  requireTexts [("version",c.version),("device_id",c.device_id),
    ("device_public_key",c.device_public_key),("account",c.account),("issued_by",c.issued_by),
    ("issued_at",c.issued_at),("expires_at",c.expires_at)]
  validateLifetime host c
  validateScope c.scope
  requireTexts [("signature.algorithm",c.signature.algorithm),
    ("signature.key_id",c.signature.key_id)]
  require (skipSignatureCheck = true ∨ c.signature.value ≠ [])
    (js "device certificate: signature.value is empty (unsigned)")

/-! The matchers. -/

structure AddressIdentity where
  address : JsString
  server : Option JsString
  deriving DecidableEq, Repr

section Match
variable (lc : Locale)

/-- `peer.includes("@") ? peer.split("@").pop() ?? "" : ""` -/
def peerDomain (peer : JsString) : JsString :=
  if 64 ∈ peer then (List.splitOn 64 peer).getLast?.getD [] else []

def entryMatches (peer peerServer : JsString) (entry : ScopeEntry) : Bool :=
  if entry.type = js "user" then
    given entry.address && lc.toLowerCase (entry.address.getD []) = peer
  else if entry.type = js "domain" then
    given entry.domain && lc.toLowerCase (entry.domain.getD []) = peerDomain peer
  else if entry.type = js "server" then
    let ent := lc.toLowerCase ((entry.server.or entry.domain).getD [])
    ent ≠ [] && (if peerServer = [] then ent = peerDomain peer else ent = peerServer)
  else false

def matchAny (entries : List ScopeEntry) (addr : AddressIdentity) : Bool :=
  entries.any (entryMatches lc (lc.toLowerCase addr.address) (lc.toLowerCase (addr.server.getD [])))

def scopeAllowsRecipient (matcher : ScopeMatcher) (recipient : AddressIdentity) : Bool :=
  if matcher.mode = js "unrestricted" then true
  else if matcher.mode = js "none" then false
  else if matcher.mode = js "restricted" then matchAny lc (matcher.allow.getD []) recipient
  else if matcher.mode = js "denylist" then !matchAny lc (matcher.deny.getD []) recipient
  else false

def scopeAllowsSender (matcher : ScopeMatcher) (sender : AddressIdentity) : Bool :=
  scopeAllowsRecipient lc matcher sender

end Match

theorem stage_of_matcher {m : ScopeMatcher} {path : JsString} {u : Unit}
    (h : validateMatcher m path true = .ok u) :
    ∀ stage ∈ m.delivery_stage, stage.isInteger = true ∧ stage.lt (.ofNat 1) = false := by
  unfold validateMatcher at h
  obtain ⟨-,-,h⟩ := bind_eq_ok.mp h
  obtain ⟨-,-,h⟩ := bind_eq_ok.mp h
  obtain ⟨-,-,h⟩ := bind_eq_ok.mp h
  obtain ⟨-,-,h⟩ := bind_eq_ok.mp h
  obtain ⟨-,-,h⟩ := bind_eq_ok.mp h
  intro stage hstage
  rw [Option.mem_def.mp hstage] at h
  obtain ⟨-,-,h⟩ := bind_eq_ok.mp h
  exact Handshake.require_eq_ok.mp h

/-- A receiving stage of a valid certificate is a positive integer. -/
theorem stage_of_valid {host : Host} {c : DeviceCertificate} {skip : Bool}
    (h : validateDeviceCertificate host c skip = .ok ()) :
    ∀ stage ∈ c.scope.receive.delivery_stage,
      stage.isInteger = true ∧ stage.lt (.ofNat 1) = false := by
  unfold validateDeviceCertificate at h
  obtain ⟨-,-,h⟩ := bind_eq_ok.mp h
  obtain ⟨-,-,h⟩ := bind_eq_ok.mp h
  obtain ⟨-,-,h⟩ := bind_eq_ok.mp h
  obtain ⟨_,hscope,-⟩ := bind_eq_ok.mp h
  unfold validateScope at hscope
  obtain ⟨-,-,hscope⟩ := bind_eq_ok.mp hscope
  obtain ⟨_,hreceive,-⟩ := bind_eq_ok.mp hscope
  exact stage_of_matcher hreceive

end DeviceCertificates
end Semp
