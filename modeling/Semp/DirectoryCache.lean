import Semp.DirectoryState

/-! A consumer's record of the highest directory revision it has accepted for each user.
A directory is a value here: nothing changes it while it is checked. -/
namespace Semp

open DeviceRecords

inductive CacheError
  | thrown (e : Thrown)
  /-- `DirectoryRollbackError` -/
  | rollback (userId : JsString) (fetchedRevision cachedRevision : Number)

/-- What the callback does at the entry with this index. -/
abbrev CertificateCheck := ℕ → Option Json → Js Unit

structure DirectoryCache where
  highest : List (JsString × Number)

namespace DirectoryCache

def new : DirectoryCache := ⟨[]⟩

def highestRevision (s : DirectoryCache) (userId : JsString) : Number :=
  (lookup s.highest userId).getD (.ofNat 0)

def thrown {α : Type} (x : Js α) : Except CacheError α := x.mapError .thrown

section Code
variable (C : Crypto) (host : Host) (rt : Runtime)

/-- The callback at a delegated entry, with its error put behind the device. -/
def checkCertificate (certCheck : CertificateCheck) (i : ℕ) (entry : Json) : Js Unit := do
  let role ← getProp (some entry) (js "role")
  let certificate ← getProp (some entry) (js "certificate_id")
  if !isStr role (js "delegated") || strictEq certificate (some .null) then .ok ()
  else
    tryCatch (certCheck i certificate) fun err => do
      let id ← getProp (some entry) (js "device_id")
      let text ← templateText id
      raise (js "keys: directory delegated entry "++text++js ": "++Handshake.thrownText rt err)

def checkCertificates (certCheck : CertificateCheck) : ℕ → List Json → Js Unit
  | _,[] => .ok ()
  | i,entry::entries => do
    checkCertificate rt certCheck i entry
    checkCertificates certCheck (i+1) entries

/-- The devices of a directory that passed the validation are a list. -/
def checkDevices (certCheck : Option CertificateCheck) (devices : Option Json) : Js Unit :=
  match certCheck,devices with
  | none,_ => .ok ()
  | some certCheck,some (.arr entries) => checkCertificates rt certCheck 0 entries
  | some _,_ => raiseType

/-- The user and the revision of a directory that passed the validation. -/
def subject (dir : Option Json) : Js (JsString × Number) := do
  let userId ← getProp dir (js "user_id")
  let revision ← getProp dir (js "revision")
  match userId,revision with
  | some (.str userId),some (.num revision) => .ok (userId,revision)
  | _,_ => raiseType

def requireFresh (cached : Option Number) (userId : JsString) (revision : Number) :
    Except CacheError Unit :=
  match cached with
  | some cached =>
    if revision.lt cached then .error (.rollback userId revision cached) else .ok ()
  | none => .ok ()

/-- The validation and the signature. -/
def authenticate (dir : Option Json) (userIdentityPub : Bytes) : Js Unit :=
  match dir with
  | none | some .null => raise (js "keys: directory cache verify nil directory")
  | some dir => do
    validateDeviceDirectory host (some dir) false
    if userIdentityPub.length = 0 then
      raise (js "keys: directory cache verify missing identity public key")
    else do
      let ok ← verifyDeviceDirectory C host (some dir) userIdentityPub
      if !ok then raise (js "keys: device directory signature did not verify")
      else .ok ()

def verifyAndCache (dir : Option Json) (userIdentityPub : Bytes)
    (certCheck : Option CertificateCheck) : Method CacheError DirectoryCache Unit := do
  liftM (thrown (authenticate C host dir userIdentityPub))
  let r ← liftM (thrown (subject dir))
  let s ← get
  liftM (requireFresh (lookup s.highest r.1) r.1 r.2)
  let devices ← liftM (thrown (getProp dir (js "devices")))
  liftM (thrown (checkDevices rt certCheck devices))
  modify fun s => {highest := assign s.highest r.1 r.2}

end Code

def reset (userId : JsString) : Method CacheError DirectoryCache Unit :=
  modify fun s => {highest := s.highest.filter fun m => m.1 ≠ userId}

theorem thrown_eq_ok {α : Type} {x : Js α} {a : α} : thrown x = .ok a ↔ x = .ok a := by
  cases x <;> simp [thrown,Except.mapError]

section Laws
variable {C : Crypto} {host : Host} {rt : Runtime} {dir : Option Json} {pub : Bytes}
  {certCheck : Option CertificateCheck} {s : DirectoryCache}

theorem authenticate_eq_ok (h : authenticate C host dir pub = .ok ()) :
    validateDeviceDirectory host dir false = .ok () ∧
      verifyDeviceDirectory C host dir pub = .ok true := by
  unfold authenticate at h
  split at h
  · cases h
  · cases h
  · obtain ⟨_,hv,h⟩ := bind_eq_ok.mp h
    by_cases hp : pub.length = 0
    · simp [hp] at h
    · rw [if_neg hp] at h
      obtain ⟨ok,hok,h⟩ := bind_eq_ok.mp h
      cases ok with
      | false => simp at h
      | true => exact ⟨hv,hok⟩

/-- A directory that says which user and revision it is for, as a consumer may trust it. -/
structure Names (dir : Option Json) (userId : JsString) (revision : Number) : Prop where
  subject : subject dir = .ok (userId,revision)
  integer : revision.isInteger = true
  nonneg : revision.lt (.ofNat 0) = false

variable (C host rt dir pub certCheck s) in
/-- The exits of a call: a throw leaves the cache as it is, and the revision that is
written belongs to a directory that was verified. -/
theorem verifyAndCache_cases : (∃ e, (verifyAndCache C host rt dir pub certCheck).call s =
      (.error e,s) ∧ ∀ userId fetched cached, e = .rollback userId fetched cached →
        subject dir = .ok (userId,fetched) ∧ lookup s.highest userId = some cached ∧
          fetched.lt cached = true) ∨
    ∃ userId revision, verifyDeviceDirectory C host dir pub = .ok true ∧
      Names dir userId revision ∧
      (∀ cached, lookup s.highest userId = some cached → revision.lt cached = false) ∧
      (verifyAndCache C host rt dir pub certCheck).call s =
        (.ok (),⟨assign s.highest userId revision⟩) := by
  have herror {α : Type} {x : Js α} {e : CacheError} (h : thrown x = .error e)
      (userId : JsString) (fetched cached : Number) :
      e ≠ .rollback userId fetched cached := by
    cases x with
    | error e' =>
      obtain rfl := Except.error.inj h
      nofun
    | ok a => cases h
  unfold verifyAndCache
  rw [Method.call_bind,Method.call_lift]
  cases hauth : thrown (authenticate C host dir pub) with
  | error e => exact .inl ⟨e,rfl,fun u f c he => absurd he (herror hauth u f c)⟩
  | ok u =>
    obtain ⟨hvalid,hverify⟩ := authenticate_eq_ok (thrown_eq_ok.mp hauth)
    obtain ⟨ms,userId,revision,rfl,huser,hrev,hint,hlt,ds,hds⟩ := of_validateDeviceDirectory hvalid
    have hsubject : subject (some (.obj ms)) = .ok (userId,revision) := by
      simp only [subject,getProp_obj,ok_bind,huser,hrev]
    simp only [Method.call_bind,Method.call_lift,Method.call_get,thrown_eq_ok.mpr hsubject]
    cases hfresh : requireFresh (lookup s.highest userId) userId revision with
    | error e =>
      refine .inl ⟨e,rfl,?_⟩
      intro u f c he
      unfold requireFresh at hfresh
      split at hfresh
      · split_ifs at hfresh with hlt
        cases (Except.error.inj hfresh).trans he
        exact ⟨hsubject,by assumption,hlt⟩
      · cases hfresh
    | ok v =>
      have hfresh' : ∀ cached, lookup s.highest userId = some cached →
          revision.lt cached = false := by
        intro cached hc
        rw [hc,requireFresh] at hfresh
        split_ifs at hfresh with hlt
        exact Bool.eq_false_iff.mpr hlt
      rw [getProp_obj,thrown_eq_ok.mpr rfl]
      simp only
      cases hcheck : thrown (checkDevices rt certCheck (lookup ms (js "devices"))) with
      | error e => exact .inl ⟨e,rfl,fun u f c he => absurd he (herror hcheck u f c)⟩
      | ok w => exact .inr ⟨userId,revision,hverify,⟨hsubject,hint,hlt⟩,hfresh',rfl⟩

end Laws

/-- The calls that write. -/
inductive CacheCall
  | verifyAndCache (dir : Option Json) (userIdentityPub : Bytes)
    (certCheck : Option CertificateCheck)
  | reset (userId : JsString)

section Runs
variable (C : Crypto) (host : Host) (rt : Runtime)

def perform : CacheCall → Method CacheError DirectoryCache Unit
  | .verifyAndCache dir pub certCheck => verifyAndCache C host rt dir pub certCheck
  | .reset userId => reset userId

/-- A new cache after these calls. -/
def after (calls : List CacheCall) : DirectoryCache := (Method.run (perform C host rt) calls new).2

/-- The call presents a directory for the user with this revision, signed with the key that
is passed in. -/
def Presents (c : CacheCall) (userId : JsString) (revision : Number) : Prop :=
  ∃ ms pub certCheck bytes, c = .verifyAndCache (some (.obj ms)) pub certCheck ∧
    lookup ms (js "user_id") = some (.str userId) ∧
    lookup ms (js "revision") = some (.num revision) ∧
    SignedDoc.verifySignedDoc C
      ⟨ms,pub,TransparencyLog.signaturePath,deviceDirectoryPrefix⟩ = .ok ⟨true,bytes⟩

/-- What a call may do to a cache. -/
structure Protected (s : DirectoryCache) (c : CacheCall) : Prop where
  throws : ∀ e s', (perform C host rt c).call s = (.error e,s') → s' = s
  advances : ∀ userId, lookup ((perform C host rt c).call s).2.highest userId ≠
      lookup s.highest userId → c = .reset userId ∨
    ∃ revision, lookup ((perform C host rt c).call s).2.highest userId = some revision ∧
      Presents C c userId revision

/-- Every revision that is cached is a count. -/
def Counts (s : DirectoryCache) : Prop := ∀ userId revision,
  lookup s.highest userId = some revision → revision.isInteger = true ∧
    revision.lt (.ofNat 0) = false

variable {C} {host} {rt} {s : DirectoryCache}

theorem names_iff {dir : Option Json} {userId : JsString} {revision : Number}
    (h : subject dir = .ok (userId,revision)) {ms : Members} (hdir : dir = some (.obj ms)) :
    lookup ms (js "user_id") = some (.str userId) ∧
      lookup ms (js "revision") = some (.num revision) := by
  subst hdir
  simp only [subject,getProp_obj,ok_bind] at h
  split at h
  · obtain ⟨rfl,rfl⟩ := Prod.mk.inj (Except.ok.inj h)
    exact ⟨by assumption,by assumption⟩
  · cases h

theorem protected_call (s : DirectoryCache) (c : CacheCall) : Protected C host rt s c := by
  cases c with
  | reset userId =>
    refine ⟨nofun,fun user hne => .inl ?_⟩
    by_contra hu
    exact hne (lookup_filter_ne _ fun h => hu (h ▸ rfl))
  | verifyAndCache dir pub certCheck =>
    obtain ⟨e,hcall,-⟩ | ⟨userId,revision,hverify,hnames,-,hcall⟩ := verifyAndCache_cases
      C host rt dir pub certCheck s
    · refine ⟨fun e' s' he => (congrArg Prod.snd (hcall.symm.trans he)).symm,fun user hne => ?_⟩
      rw [perform,hcall] at hne
      exact absurd rfl hne
    · refine ⟨fun e s' he => (by cases hcall.symm.trans he),fun user hne => .inr ?_⟩
      rw [perform,hcall] at hne ⊢
      obtain ⟨ms,bytes,hdir,hsigned⟩ := of_verifyDeviceDirectory hverify
      obtain ⟨hu,hr⟩ := names_iff hnames.subject hdir
      obtain rfl : user = userId := by
        by_contra huser
        exact hne (lookup_assign_ne _ huser)
      exact ⟨revision,lookup_assign_self ..,ms,pub,certCheck,bytes,by rw [hdir],hu,hr,hsigned⟩

theorem counts_new : new.Counts := nofun

theorem counts_call (h : s.Counts) (c : CacheCall) :
    ((perform C host rt c).call s).2.Counts := by
  cases c with
  | reset userId =>
    intro user revision hl
    have hu : user ≠ userId := by
      rintro rfl
      simpa using (List.mem_filter.mp (mem_of_lookup hl)).2
    exact h user revision ((lookup_filter_ne _ hu).symm.trans hl)
  | verifyAndCache dir pub certCheck =>
    obtain ⟨e,hcall,-⟩ | ⟨userId,revision,-,hnames,-,hcall⟩ := verifyAndCache_cases
      C host rt dir pub certCheck s
    · rwa [perform,hcall]
    · rw [perform,hcall]
      intro user r hl
      by_cases hu : user = userId
      · subst hu
        obtain rfl := Option.some.inj ((lookup_assign_self ..).symm.trans hl)
        exact ⟨hnames.integer,hnames.nonneg⟩
      · exact h user r ((lookup_assign_ne _ hu).symm.trans hl)

theorem after_concat (calls : List CacheCall) (c : CacheCall) :
    after C host rt (calls++[c]) = ((perform C host rt c).call (after C host rt calls)).2 := by
  rw [after,Method.run_concat]
  rfl

variable (C host rt) in
theorem counts_after (calls : List CacheCall) : (after C host rt calls).Counts := by
  induction calls using List.reverseRecOn with
  | nil => exact counts_new
  | append_singleton calls c ih =>
    rw [after_concat]
    exact counts_call ih c

section Order
variable {x y : Number} (hx : x.isInteger = true) (hy : y.isInteger = true)
include hx hy

theorem le_iff : x.le y = true ↔ x.toRat ≤ y.toRat := by
  have hfin {z : Number} (hz : z.isInteger = true) : z.isFinite := by
    cases z <;> simp_all [Number.isInteger,Number.isFinite]
  rw [Number.le_fin (hfin hx) (hfin hy),decide_eq_true_iff]

theorem le_of_not_lt (h : x.lt y = false) : y.le x = true := by
  have hfin {z : Number} (hz : z.isInteger = true) : z.isFinite := by
    cases z <;> simp_all [Number.isInteger,Number.isFinite]
  rw [Number.lt_fin (hfin hx) (hfin hy)] at h
  rw [le_iff hy hx]
  simpa using h

end Order

theorem highestRevision_counts (h : s.Counts) (userId : JsString) :
    (s.highestRevision userId).isInteger = true ∧
      (s.highestRevision userId).lt (.ofNat 0) = false := by
  rw [highestRevision]
  cases hl : lookup s.highest userId with
  | none => decide +kernel
  | some revision => exact h userId revision hl

variable (C host rt) in
/-- One call never lowers the revision of a user that it does not reset. -/
theorem le_call (h : s.Counts) {c : CacheCall} {userId : JsString} (hc : c ≠ .reset userId) :
    (s.highestRevision userId).le (((perform C host rt c).call s).2.highestRevision userId) =
      true := by
  have hcount := (highestRevision_counts h userId).1
  have hsame : (s.highestRevision userId).le (s.highestRevision userId) = true :=
    (le_iff hcount hcount).mpr le_rfl
  cases c with
  | reset user =>
    have hu : userId ≠ user := fun hu => hc (hu ▸ rfl)
    have hold : (DirectoryCache.mk (s.highest.filter fun m => m.1 ≠ user)).highestRevision userId =
        s.highestRevision userId := by rw [highestRevision,lookup_filter_ne _ hu,highestRevision]
    rwa [perform,reset,Method.call_modify,hold]
  | verifyAndCache dir pub certCheck =>
    obtain ⟨e,hcall,-⟩ | ⟨user,revision,-,hnames,hfresh,hcall⟩ := verifyAndCache_cases
      C host rt dir pub certCheck s
    · rwa [perform,hcall]
    · rw [perform,hcall]
      by_cases hu : userId = user
      · subst hu
        have hnew : (DirectoryCache.mk (assign s.highest userId revision)).highestRevision userId =
            revision := by rw [highestRevision,lookup_assign_self,Option.getD_some]
        rw [hnew]
        refine le_of_not_lt hnames.integer hcount ?_
        rw [highestRevision]
        cases hl : lookup s.highest userId with
        | none => exact hnames.nonneg
        | some cached => exact hfresh cached hl
      · have hold : (DirectoryCache.mk (assign s.highest user revision)).highestRevision userId =
            s.highestRevision userId := by
          rw [highestRevision,lookup_assign_ne _ hu,highestRevision]
        rwa [hold]

theorem le_after (calls more : List CacheCall) {userId : JsString} (h : .reset userId ∉ more) :
    ((after C host rt calls).highestRevision userId).le
      ((after C host rt (calls++more)).highestRevision userId) = true := by
  induction more generalizing calls with
  | nil =>
    have hcount := (highestRevision_counts (counts_after C host rt calls)
      userId).1
    rw [List.append_nil]
    exact (le_iff hcount hcount).mpr le_rfl
  | cons c more ih =>
    have hc : .reset userId ≠ c := fun hc => h (hc ▸ List.mem_cons_self)
    have hmore : .reset userId ∉ more := fun hm => h (List.mem_cons_of_mem _ hm)
    have hcount (calls : List CacheCall) :=
      (highestRevision_counts (counts_after C host rt calls) userId).1
    have hstep := le_call C host rt (counts_after C host rt calls) hc.symm
    have hrest := ih (calls++[c]) hmore
    rw [← after_concat] at hstep
    rw [List.append_assoc] at hrest
    rw [le_iff (hcount _) (hcount _)] at hstep hrest ⊢
    exact hstep.trans hrest

/-- After any calls, whatever directories and callbacks they were given: a call that throws
changes nothing; a user's cached revision changes only by a reset or by a directory for that
user which is signed with the key passed in; and without a reset it never falls. -/
theorem rollback_protection (C : Crypto) (host : Host) (rt : Runtime) (calls : List CacheCall) :
    (∀ c, Protected C host rt (after C host rt calls) c) ∧
      ∀ more userId, .reset userId ∉ more →
        ((after C host rt calls).highestRevision userId).le
          ((after C host rt (calls++more)).highestRevision userId) = true :=
  ⟨fun c => protected_call _ c,fun more _ h => le_after calls more h⟩

end Runs

end DirectoryCache
end Semp
