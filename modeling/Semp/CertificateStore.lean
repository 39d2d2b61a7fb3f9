import Semp.DeviceCertificate
import Semp.Crypto
import Semp.JsMap
import Semp.Method

/-! The certificates of delegated devices in the in-memory key store.  A certificate is stored
under the id of its device, and looked up by the fingerprint of the device's public key. -/
namespace Semp
namespace DeviceCertificates

/-- The field `deviceCerts`, which only these two calls of the class use. -/
abbrev DeviceCerts := JsMap DeviceCertificate

def lookupDeviceCertificate (s : DeviceCerts) (deviceKeyId : JsString) :
    Option DeviceCertificate := s.get deviceKeyId

def putDeviceCertificate (cert : DeviceCertificate) : Method Thrown DeviceCerts Unit :=
  if cert.device_id = [] then
    liftM (raise (js "keys: putDeviceCertificate certificate missing device_id") : Js Unit)
  else modify fun s => s.set cert.device_id cert

/-- The store after these calls; one that throws leaves it as it was. -/
def stored (certs : List DeviceCertificate) : DeviceCerts :=
  (Method.run putDeviceCertificate certs JsMap.empty).2

/-- The device key of a certificate. -/
def DeviceCertificate.deviceKey (cert : DeviceCertificate) : Bytes :=
  Base64.decode cert.device_public_key

/-- The last of the certificates that was stored for a device key. -/
def lastFor (key : Bytes) (certs : List DeviceCertificate) : Option DeviceCertificate :=
  (certs.filter fun c => decide (c.device_id ≠ [] ∧ c.deviceKey = key)).getLast?

section Store
variable {certs : List DeviceCertificate} {c : DeviceCertificate} {id : JsString}

theorem stored_concat (certs : List DeviceCertificate) (c : DeviceCertificate) :
    stored (certs++[c]) = ((putDeviceCertificate c).call (stored certs)).2 := by
  rw [stored,Method.run_concat]
  rfl

theorem putDeviceCertificate_get (s : DeviceCerts) (c : DeviceCertificate) (hid : id ≠ []) :
    ((putDeviceCertificate c).call s).2.get id = if c.device_id = id then some c else s.get id := by
  unfold putDeviceCertificate
  by_cases hc : c.device_id = []
  · rw [if_pos hc,if_neg (by rw [hc]; exact hid.symm)]
    rfl
  · rw [if_neg hc,Method.call_modify]
    by_cases h : c.device_id = id
    · subst h
      rw [if_pos rfl]
      exact JsMap.get_set_self
    · rw [if_neg h]
      exact JsMap.get_set_ne (Ne.symm h)

/-- What is found under an id is the last certificate that names it. -/
theorem lookup_stored (hid : id ≠ []) : lookupDeviceCertificate (stored certs) id =
    (certs.filter (·.device_id = id)).getLast? := by
  induction certs using List.reverseRecOn with
  | nil => rfl
  | append_singleton certs c ih =>
    rw [lookupDeviceCertificate] at ih ⊢
    rw [stored_concat,putDeviceCertificate_get _ _ hid,List.filter_append]
    by_cases h : c.device_id = id
    · rw [if_pos h,List.filter_cons_of_pos (by simpa using h),List.filter_nil]
      exact List.getLast?_concat.symm
    · rw [if_neg h,List.filter_cons_of_neg (by simpa using h),List.filter_nil,List.append_nil,ih]

/-- A list whose last element with a property is `c`, cut there. -/
theorem getLast?_filter_eq_some {p : DeviceCertificate → Bool} :
    (certs.filter p).getLast? = some c ↔ p c = true ∧
      ∃ before later, certs = before++c::later ∧ ∀ d ∈ later, p d = false := by
  rw [List.getLast?_eq_some_iff]
  constructor
  · rintro ⟨front,h⟩
    obtain ⟨l,r,rfl,hl,hr⟩ := List.filter_eq_append_iff.mp h
    obtain ⟨m,later,rfl,hm,hc,hlater⟩ := List.filter_eq_cons_iff.mp hr
    refine ⟨hc,l++m,later,by simp,fun d hd => ?_⟩
    exact Bool.eq_false_iff.mpr (List.filter_eq_nil_iff.mp hlater d hd)
  · rintro ⟨hc,before,later,rfl,hlater⟩
    have hnone : later.filter p = [] := List.filter_eq_nil_iff.mpr fun d hd => by simp [hlater d hd]
    exact ⟨before.filter p,by rw [List.filter_append,List.filter_cons_of_pos hc,hnone]⟩

end Store

section Claim
variable {C : Crypto}

theorem fingerprint_ne_nil {key : Bytes} {id : JsString} (h : fingerprint C key = .ok id) :
    id ≠ [] := by
  unfold fingerprint at h
  split_ifs at h
  · cases h
  · obtain rfl := Except.ok.inj h
    intro hnil
    have hlen := congrArg List.length hnil
    rw [length_hex,(C.sha256 key).property] at hlen
    exact absurd hlen (by decide)

/-- The fingerprint of every device key that a certificate was stored for finds the last one. -/
def Finds (C : Crypto) (certs : List DeviceCertificate) : Prop :=
  ∀ key id c, fingerprint C key = .ok id → lastFor key certs = some c →
    lookupDeviceCertificate (stored certs) id = some c

/-- The last certificate of every device key has the fingerprint of the key for its device id,
and none that was stored after it has that id. -/
def NamedByKey (C : Crypto) (certs : List DeviceCertificate) : Prop :=
  ∀ key id before c later, fingerprint C key = .ok id → certs = before++c::later →
    c.device_id ≠ [] → c.deviceKey = key →
    (∀ d ∈ later, d.device_id ≠ [] → d.deviceKey ≠ key) →
    c.device_id = id ∧ ∀ d ∈ later, d.device_id ≠ id

/-- A stored certificate is found by its key exactly when the ids of the devices are the
fingerprints of their keys. -/
theorem finds_iff (certs : List DeviceCertificate) : Finds C certs ↔ NamedByKey C certs := by
  constructor
  · rintro h key id before c later hid rfl hc hkey hlast
    have hfound := h key id c hid (getLast?_filter_eq_some.mpr
      ⟨by simpa using ⟨hc,hkey⟩,before,later,rfl,fun d hd => by simpa using hlast d hd⟩)
    rw [lookup_stored (fingerprint_ne_nil hid)] at hfound
    have hname : c.device_id = id := by simpa using (getLast?_filter_eq_some.mp hfound).1
    refine ⟨hname,fun d hd hdid => ?_⟩
    -- What is found comes after `c` then, so it would be `c` a second time.
    rw [List.filter_append,List.filter_cons_of_pos (by simpa using hname),
      List.getLast?_append_cons,List.getLast?_cons] at hfound
    have hmem : d ∈ later.filter (·.device_id = id) :=
      List.mem_filter.mpr ⟨hd,by simpa using hdid⟩
    obtain ⟨e,he⟩ := Option.ne_none_iff_exists'.mp
      (mt List.getLast?_eq_none_iff.mp (List.ne_nil_of_mem hmem))
    rw [he,Option.getD_some,Option.some.injEq] at hfound
    subst hfound
    exact hlast e (List.mem_of_mem_filter (List.mem_of_getLast? he)) hc hkey
  · intro h key id c hid hlast
    obtain ⟨hp,before,later,rfl,hlater⟩ := getLast?_filter_eq_some.mp hlast
    obtain ⟨hc,hkey⟩ := of_decide_eq_true hp
    obtain ⟨hname,hothers⟩ := h key id before c later hid rfl hc hkey fun d hd hdid hdkey =>
      of_decide_eq_false (hlater d hd) ⟨hdid,hdkey⟩
    rw [lookup_stored (fingerprint_ne_nil hid),getLast?_filter_eq_some]
    exact ⟨by simpa using hname,before,later,rfl,fun d hd => by simpa using hothers d hd⟩

end Claim

/-! A certificate under the id that its device gave itself. -/
def sampleScope : Scope :=
  let matcher : ScopeMatcher := ⟨js "none",none,none,[],none⟩
  let resource : ScopeResource := ⟨false,false,[]⟩
  ⟨matcher,matcher,resource,resource,resource⟩

def sampleCertificate : DeviceCertificate where
  type := deviceCertificateType
  version := js "1.0.0"
  device_id := js "device-1"
  device_public_key := js "AAAA"
  account := js "alice@example.com"
  issued_by := js "device-0"
  issued_at := js "2026-05-08T10:00:00Z"
  expires_at := js "2026-06-08T10:00:00Z"
  scope := sampleScope
  signature := ⟨js "ed25519",js "key-0",js "AAAA"⟩

/-- The certificate is not found under the fingerprint of the device key, as if there were
none. -/
theorem not_finds : ¬ ∀ certs, Finds Sample.crypto certs := by
  intro h
  have hid : fingerprint Sample.crypto sampleCertificate.deviceKey =
      .ok (hex (Sample.crypto.sha256 sampleCertificate.deviceKey).val) := rfl
  have hfound := h [sampleCertificate] _ _ sampleCertificate hid rfl
  rw [lookup_stored (fingerprint_ne_nil hid),getLast?_filter_eq_some] at hfound
  have hlen := congrArg List.length (of_decide_eq_true hfound.1)
  rw [length_hex,(Sample.crypto.sha256 _).property] at hlen
  exact absurd hlen (by decide)

end DeviceCertificates
end Semp
