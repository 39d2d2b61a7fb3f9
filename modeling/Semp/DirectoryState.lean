import Semp.DeviceRecords
import Semp.HandshakeServer
import Semp.Method

/-! A home server's state for the device directory of one account.  Every change of the
device map is followed by a new directory under the next revision. -/
namespace Semp

open DeviceRecords
open TransparencyLog.Log (isoSecond sampleHost sampleTime)

/-- A count in a JavaScript number, where adding one to `2^53` rounds back. -/
structure Counter where
  val : ℕ
  le : val ≤ 2^53
  deriving DecidableEq

namespace Counter

def zero : Counter := ⟨0,by norm_num⟩

def next (c : Counter) : Counter := ⟨min (c.val+1) (2^53),min_le_right _ _⟩

def prev (c : Counter) : Counter := ⟨c.val-1,(Nat.sub_le _ _).trans c.le⟩

theorem val_next {c : Counter} (h : c.val < 2^53) : c.next.val = c.val+1 :=
  min_eq_left h

end Counter

/-- The devices by id, in the order they were added. -/
structure DeviceMap where
  values : List DeviceDirectoryEntry
  nodup : (values.map (·.device_id)).Nodup

namespace DeviceMap

def empty : DeviceMap := ⟨[],List.nodup_nil⟩

def has (m : DeviceMap) (id : JsString) : Bool := decide (id ∈ m.values.map (·.device_id))

/-- `map.set(d.device_id, d)` -/
def set (m : DeviceMap) (d : DeviceDirectoryEntry) : DeviceMap :=
  if h : m.has d.device_id then
    ⟨m.values.map fun e => if e.device_id = d.device_id then d else e,by
      have hids : (m.values.map fun e => if e.device_id = d.device_id then d else e).map
          (·.device_id) = m.values.map (·.device_id) := by
        rw [List.map_map]
        refine List.map_congr_left fun e _ => ?_
        by_cases he : e.device_id = d.device_id <;> simp [he]
      rw [hids]
      exact m.nodup⟩
  else
    ⟨m.values++[d],by
      rw [List.map_append]
      exact m.nodup.append (by simp) (by simpa [has] using h)⟩

def delete (m : DeviceMap) (id : JsString) : DeviceMap :=
  ⟨m.values.filter fun e => e.device_id ≠ id,m.nodup.sublist (List.filter_sublist.map _)⟩

theorem set_values {m : DeviceMap} {d : DeviceDirectoryEntry} (h : m.has d.device_id = false) :
    (m.set d).values = m.values++[d] := by
  rw [set,dif_neg (by simp [h])]

/-- Adding a device changes the map. -/
theorem set_ne {m : DeviceMap} {d : DeviceDirectoryEntry} (h : m.has d.device_id = false) :
    m.set d ≠ m := by
  intro he
  have hlen := congrArg (fun m : DeviceMap => m.values.length) he
  simp [set_values h] at hlen

/-- Deleting a device that is there changes the map. -/
theorem delete_ne {m : DeviceMap} {id : JsString} (h : m.has id = true) : m.delete id ≠ m := by
  intro he
  obtain ⟨d,hd,rfl⟩ := List.mem_map.mp (of_decide_eq_true h)
  rw [← he] at hd
  exact of_decide_eq_true (List.mem_filter.mp hd).2 rfl

end DeviceMap

/-- `a.device_id < b.device_id ? -1 : …` puts the one before the other. -/
def EntryLe (a b : DeviceDirectoryEntry) : Prop := keyLe a.device_id b.device_id = true

instance : DecidableRel EntryLe := fun a b =>
  inferInstanceAs (Decidable (keyLe a.device_id b.device_id = true))

instance : Std.Total EntryLe := ⟨fun a b => keyLe_total a.device_id b.device_id⟩

instance : IsTrans DeviceDirectoryEntry EntryLe := ⟨fun _ _ _ => keyLe_trans⟩

def sortEntries (ds : List DeviceDirectoryEntry) : List DeviceDirectoryEntry :=
  ds.insertionSort EntryLe

theorem sortEntries_perm (ds : List DeviceDirectoryEntry) : (sortEntries ds).Perm ds :=
  List.perm_insertionSort _ _

theorem sortEntries_sorted (ds : List DeviceDirectoryEntry) :
    (sortEntries ds).Pairwise EntryLe := List.pairwise_insertionSort _ _

structure DirectoryStateConfig where
  userId : JsString
  identitySeed : Bytes
  identityKeyId : JsString
  initial : Option (List DeviceDirectoryEntry)

structure DirectoryState where
  userId : JsString
  identitySeed : Bytes
  identityKeyId : JsString
  devices : DeviceMap
  revisionCounter : Counter
  currentDir : Option DeviceDirectory
  userId_ne : userId ≠ []
  identityKeyId_ne : identityKeyId ≠ []

namespace DirectoryState

/-- The directory of the devices that are in the map, before it is signed. -/
def draft (s : DirectoryState) (issuedAt : JsString) : DeviceDirectory :=
  ⟨s.userId,s.revisionCounter.val,issuedAt,sortEntries s.devices.values,⟨[],[],[]⟩⟩

section Code
variable (C : Crypto) (host : Host) (rt : Runtime)

/-- The revision is taken back when signing fails, not when the clock does. -/
def emit (now : Js Number) : Method Thrown DirectoryState Unit := do
  modify fun s => {s with revisionCounter := s.revisionCounter.next}
  let s ← get
  let date ← liftM now
  let iso ← liftM (host.toISOString date)
  let dir := s.draft (isoSecond iso)
  match signDeviceDirectory C host dir s.identitySeed s.identityKeyId with
  | .error err => do
    modify fun s => {s with revisionCounter := s.revisionCounter.prev}
    throw (.error (js "keys: sign device directory: "++Handshake.thrownText rt err))
  | .ok dir => modify fun s => {s with currentDir := some dir}

/-- The devices the constructor starts with. -/
def seedDevices : DeviceMap → List DeviceDirectoryEntry → Js DeviceMap
  | devices,[] => .ok devices
  | devices,d::ds =>
    if d.device_id = [] then
      raise (js "keys: directory initial seed entry missing device_id")
    else if devices.has d.device_id then
      raise (js "keys: directory initial seed has duplicate device_id "++
        JsonText.stringify (.str d.device_id))
    else seedDevices (devices.set d) ds

/-- `new DirectoryState(cfg)` -/
def create (cfg : DirectoryStateConfig) (now : Js Number) : Js DirectoryState :=
  if hu : cfg.userId = [] then raise (js "keys: directory state missing user_id")
  else if hk : cfg.identitySeed = [] ∨ cfg.identityKeyId = [] then
    raise (js "keys: directory state missing identity key")
  else do
    let devices ← seedDevices .empty (cfg.initial.getD [])
    let s := ⟨cfg.userId,cfg.identitySeed,cfg.identityKeyId,devices,.zero,none,hu,
      (not_or.mp hk).2⟩
    if devices.values = [] then .ok s
    else do
      let r ← (emit C host rt now).proceed s
      .ok r.2

/-- What `addDevice` asks of an entry. -/
def requireEntry (entry : DeviceDirectoryEntry) : Js Unit :=
  if entry.device_id = [] then raise (js "keys: directory entry missing device_id")
  else if entry.device_public_key = [] then
    raise (js "keys: directory entry missing device_public_key")
  else if entry.role = js "full_access" ∧ entry.certificate_id ≠ none then
    raise (js "keys: directory entry full_access MUST have certificate_id = null")
  else if entry.role = js "delegated" ∧
      (entry.certificate_id = none ∨ entry.certificate_id = some []) then
    raise (js "keys: directory entry delegated MUST set certificate_id")
  else .ok ()

def addDevice (entry : DeviceDirectoryEntry) (now : Js Number) :
    Method Thrown DirectoryState (Option DeviceDirectory) := do
  liftM (requireEntry entry)
  let s ← get
  if s.devices.has entry.device_id then
    throw (.error (js "keys: directory already contains device_id "++
      JsonText.stringify (.str entry.device_id)))
  else do
    modify fun s => {s with devices := s.devices.set entry}
    emit C host rt now
    let s ← get
    pure s.currentDir

/-- The directory, and whether the device was there. -/
def revokeDevice (deviceId : JsString) (now : Js Number) :
    Method Thrown DirectoryState (Option DeviceDirectory × Bool) := do
  if deviceId = [] then throw (.error (js "keys: directory revoke missing device_id"))
  else do
    let s ← get
    if !s.devices.has deviceId then pure (s.currentDir,false)
    else do
      modify fun s => {s with devices := s.devices.delete deviceId}
      emit C host rt now
      let s ← get
      pure (s.currentDir,true)

end Code

/-- A directory of the devices can be issued: the clock gives a time with a text that reads
back as a date, the seed has its length, and every device passes the validation. -/
def Issuable (host : Host) (s : DirectoryState) (devices : DeviceMap) (now : Js Number) : Prop :=
  ∃ date iso, now = .ok date ∧ host.toISOString date = .ok iso ∧
    isoSecond iso ≠ [] ∧
    (host.dateParse (isoSecond iso)).isNaN = false ∧
    s.identitySeed.length = 32 ∧ ∀ d ∈ devices.values, d.Valid

section Emit
variable {C : Crypto} {host : Host} {rt : Runtime} {s : DirectoryState} {now : Js Number}

/-- The state with the revision that an emission takes. -/
def bumped (s : DirectoryState) : DirectoryState :=
  {s with revisionCounter := s.revisionCounter.next}

/-- A directory that an emission published. -/
structure Issued (s : DirectoryState) (dir : DeviceDirectory) : Prop where
  user_id : dir.user_id = s.userId
  revision : dir.revision = s.revisionCounter.next.val
  devices : dir.devices = sortEntries s.devices.values

theorem draft_valid {issuedAt : JsString} :
    validateDeviceDirectory host (some (s.bumped.draft issuedAt).toJson) true = .ok () ↔
      issuedAt ≠ [] ∧ (host.dateParse issuedAt).isNaN = false ∧
        ∀ d ∈ s.devices.values, d.Valid := by
  have hperm := sortEntries_perm s.devices.values
  rw [validateDeviceDirectory_eq_ok (show (s.bumped.draft issuedAt).revision ≤ 2^53 from
    s.revisionCounter.next.le)]
  constructor
  · intro h
    exact ⟨h.issued_at,h.date,fun d hd => h.devices d (hperm.mem_iff.mpr hd)⟩
  · rintro ⟨hi,hdate,hd⟩
    exact ⟨s.userId_ne,hi,hdate,fun d h => hd d (hperm.mem_iff.mp h),
      (hperm.map (·.device_id)).nodup_iff.mpr s.devices.nodup⟩

/-- The directory that an emission signs. -/
def Signs (C : Crypto) (host : Host) (s : DirectoryState) (now : Js Number)
    (dir : DeviceDirectory) : Prop :=
  ∃ date iso, now = .ok date ∧ host.toISOString date = .ok iso ∧
    signDeviceDirectory C host (s.bumped.draft (isoSecond iso))
      s.identitySeed s.identityKeyId = .ok dir

variable (C host rt s now) in
/-- The exits of an emission: a throw writes the revision at most. -/
theorem emit_cases : (∃ e counter, (emit C host rt now).call s =
      (.error e,{s with revisionCounter := counter}) ∧ ∀ dir, ¬s.Signs C host now dir) ∨
    ∃ dir, s.Signs C host now dir ∧
      (emit C host rt now).call s = (.ok (),{s.bumped with currentDir := some dir}) := by
  unfold emit
  rw [Method.modify_bind,Method.get_bind]
  cases now with
  | error e =>
    refine .inl ⟨e,_,rfl,?_⟩
    rintro dir ⟨date,-,hnow,-⟩
    cases hnow
  | ok date =>
    cases hiso : host.toISOString date with
    | error e =>
      refine .inl ⟨e,s.revisionCounter.next,?_,?_⟩
      · simp only [Method.call_bind,Method.call_lift,hiso]
      · rintro dir ⟨date',iso,hnow,hiso',-⟩
        obtain rfl := Except.ok.inj hnow
        cases hiso.symm.trans hiso'
    | ok iso =>
      simp only [Method.call_bind,Method.call_lift,hiso]
      cases hsign : signDeviceDirectory C host
          (s.bumped.draft (isoSecond iso)) s.identitySeed s.identityKeyId with
      | error err =>
        refine .inl ⟨.error (js "keys: sign device directory: "++Handshake.thrownText rt err),
          s.revisionCounter.next.prev,?_,?_⟩
        · rw [bumped] at hsign
          rw [hsign]
          rfl
        · rintro dir ⟨date',iso',hnow,hiso',hsign'⟩
          obtain rfl := Except.ok.inj hnow
          obtain rfl := Except.ok.inj (hiso.symm.trans hiso')
          cases hsign.symm.trans hsign'
      | ok dir =>
        refine .inr ⟨dir,⟨date,iso,rfl,hiso,hsign⟩,?_⟩
        rw [bumped] at hsign
        rw [hsign]
        rfl

theorem Signs.issuable {dir : DeviceDirectory} (h : s.Signs C host now dir) :
    s.Issuable host s.devices now := by
  obtain ⟨date,iso,hnow,hiso,hsign⟩ := h
  obtain ⟨-,hv,hseed,-⟩ := signDeviceDirectory_eq_ok hsign
  obtain ⟨hne,hdate,hd⟩ := draft_valid.mp hv
  exact ⟨date,iso,hnow,hiso,hne,hdate,hseed,hd⟩

theorem Issuable.signs (laws : SignLaws C) (h : s.Issuable host s.devices now) :
    ∃ dir, s.Signs C host now dir := by
  obtain ⟨date,iso,hnow,hiso,hne,hdate,hseed,hd⟩ := h
  obtain ⟨dir,hdir⟩ := signDeviceDirectory_ok laws s.identityKeyId_ne
    (draft_valid.mpr ⟨hne,hdate,hd⟩) hseed
  exact ⟨dir,date,iso,hnow,hiso,hdir⟩

theorem Signs.issued {dir : DeviceDirectory} (h : s.Signs C host now dir) : s.Issued dir := by
  obtain ⟨date,iso,-,-,hsign⟩ := h
  obtain ⟨-,-,-,value,rfl⟩ := signDeviceDirectory_eq_ok hsign
  exact ⟨rfl,rfl,rfl⟩

end Emit

inductive DirectoryCall
  | addDevice (entry : DeviceDirectoryEntry) (now : Js Number)
  | revokeDevice (deviceId : JsString) (now : Js Number)

/-- What a call returns. -/
inductive DirectoryResult
  | added (directory : Option DeviceDirectory)
  | revoked (directory : Option DeviceDirectory) (removed : Bool)
  deriving DecidableEq, Repr

/-- The directory that a call has published. -/
def DirectoryResult.emission : DirectoryResult → Option DeviceDirectory
  | added directory => directory
  | revoked directory removed => if removed then directory else none

section Calls
variable (C : Crypto) (host : Host) (rt : Runtime)

def perform : DirectoryCall → Method Thrown DirectoryState DirectoryResult
  | .addDevice entry now => .added <$> addDevice C host rt entry now
  | .revokeDevice deviceId now => do
    let r ← revokeDevice C host rt deviceId now
    pure (.revoked r.1 r.2)

/-- The call is refused, or finds nothing to do, before it writes anything. -/
def Idle (s : DirectoryState) : DirectoryCall → Prop
  | .addDevice entry _ => requireEntry entry ≠ .ok () ∨ s.devices.has entry.device_id = true
  | .revokeDevice deviceId _ => deviceId = [] ∨ s.devices.has deviceId = false

/-- The devices after a call that is not idle, whether it returns or throws. -/
def changed (s : DirectoryState) : DirectoryCall → DeviceMap
  | .addDevice entry _ => s.devices.set entry
  | .revokeDevice deviceId _ => s.devices.delete deviceId

def DirectoryCall.now : DirectoryCall → Js Number
  | addDevice _ now => now
  | revokeDevice _ now => now

/-- The result of a call after its emission. -/
def DirectoryCall.published (dir : Option DeviceDirectory) : DirectoryCall → DirectoryResult
  | addDevice _ _ => .added dir
  | revokeDevice _ _ => .revoked dir true

end Calls

section Perform
variable {C : Crypto} {host : Host} {rt : Runtime} {s : DirectoryState} {c : DirectoryCall}

@[simp] theorem emission_published (dir : Option DeviceDirectory) :
    (c.published dir).emission = dir := by cases c <;> rfl

theorem changed_ne (h : ¬s.Idle c) : s.changed c ≠ s.devices := by
  cases c with
  | addDevice entry now => exact DeviceMap.set_ne (Bool.eq_false_iff.mpr (not_or.mp h).2)
  | revokeDevice deviceId now => exact DeviceMap.delete_ne (by simpa using (not_or.mp h).2)

variable (C host rt) in
/-- A call that is idle throws, or was asked to revoke a device that is not there. -/
theorem perform_idle (h : s.Idle c) : (∃ e, (perform C host rt c).call s = (.error e,s)) ∨
    ∃ deviceId now, c = .revokeDevice deviceId now ∧ s.devices.has deviceId = false ∧
      (perform C host rt c).call s = (.ok (.revoked s.currentDir false),s) := by
  cases c with
  | addDevice entry now =>
    rw [perform,addDevice]
    cases hr : requireEntry entry with
    | error e => exact .inl ⟨e,rfl⟩
    | ok u =>
      have hhas : s.devices.has entry.device_id = true := h.resolve_left (by simp [hr])
      simp only [Method.call_map,Method.call_bind,Method.call_lift,Method.call_get,hhas]
      exact .inl ⟨_,rfl⟩
  | revokeDevice deviceId now =>
    rw [perform,revokeDevice]
    by_cases hid : deviceId = []
    · rw [if_pos hid]
      exact .inl ⟨_,rfl⟩
    · have hhas := h.resolve_left hid
      rw [if_neg hid]
      simp only [Method.call_bind,Method.call_get,hhas]
      exact .inr ⟨deviceId,now,rfl,hhas,rfl⟩

theorem perform_idle_state (h : s.Idle c) : ((perform C host rt c).call s).2 = s := by
  obtain ⟨e,he⟩ | ⟨_,_,-,-,he⟩ := perform_idle C host rt h <;> rw [he]

variable (C host rt s) in
/-- A change of the fields with the emission after it. -/
theorem call_change {α : Type} (f : DirectoryState → DirectoryState) (now : Js Number)
    (g : Option DeviceDirectory → α) : (do
      modify f
      emit C host rt now
      let s ← get
      pure (g s.currentDir) : Method Thrown DirectoryState α).call s =
    match (emit C host rt now).call (f s) with
    | (.ok _,s') => (.ok (g s'.currentDir),s')
    | (.error e,s') => (.error e,s') := by
  rw [Method.modify_bind,Method.call_bind]
  rcases (emit C host rt now).call (f s) with ⟨_ | _,s'⟩ <;> rfl

/-- A call that is not idle changes the devices and emits. -/
theorem perform_busy (h : ¬s.Idle c) : (perform C host rt c).call s =
    match (emit C host rt c.now).call {s with devices := s.changed c} with
    | (.ok _,s') => (.ok (c.published s'.currentDir),s')
    | (.error e,s') => (.error e,s') := by
  cases c with
  | addDevice entry now =>
    obtain ⟨hr,hhas⟩ := not_or.mp h
    have hc := call_change C host rt s
      (fun s => {s with devices := s.devices.set entry}) now fun dir => dir
    beta_reduce at hc
    rw [perform,addDevice,Method.call_map,not_not.mp hr,
      Method.bind_of_ok (Method.call_lift (.ok ()) s),Method.get_bind,if_neg hhas,hc]
    change _ = match (emit C host rt now).call {s with devices := s.devices.set entry} with
      | (.ok _,s') => _
      | (.error e,s') => _
    rcases (emit C host rt now).call {s with devices := s.devices.set entry} with ⟨_ | _,s'⟩ <;> rfl
  | revokeDevice deviceId now =>
    obtain ⟨hid,hhas⟩ := not_or.mp h
    have hc := call_change C host rt s
      (fun s => {s with devices := s.devices.delete deviceId}) now fun dir => (dir,true)
    beta_reduce at hc
    have hin : ¬(!s.devices.has deviceId) = true := by simpa using hhas
    rw [perform,revokeDevice,if_neg hid,Method.call_bind,Method.get_bind,if_neg hin,hc]
    change _ = match (emit C host rt now).call {s with devices := s.devices.delete deviceId} with
      | (.ok _,s') => _
      | (.error e,s') => _
    rcases (emit C host rt now).call {s with devices := s.devices.delete deviceId} with
      ⟨_ | _,s'⟩ <;> rfl

/-- A change that cannot fail half-way: the call writes nothing, or the directory of the
changed devices can be issued. -/
def Clean (host : Host) (s : DirectoryState) (c : DirectoryCall) : Prop :=
  s.Idle c ∨ s.Issuable host (s.changed c) c.now

variable (rt) in
theorem perform_clean (laws : SignLaws C) (h : ¬s.Idle c)
    (hi : s.Issuable host (s.changed c) c.now) :
    ∃ dir, Issued {s with devices := s.changed c} dir ∧ (perform C host rt c).call s =
      (.ok (c.published (some dir)),
        {s with devices := s.changed c, revisionCounter := s.revisionCounter.next,
                currentDir := some dir}) := by
  obtain ⟨dir,hsigns⟩ := Issuable.signs (s := {s with devices := s.changed c}) laws hi
  obtain ⟨e,_,-,hno⟩ | ⟨dir',hsigns',hcall⟩ := emit_cases C host rt
    {s with devices := s.changed c} c.now
  · exact absurd hsigns (hno dir)
  · exact ⟨dir',hsigns'.issued,by rw [perform_busy h,hcall]; rfl⟩

variable (C rt) in
/-- A change whose directory cannot be issued throws, and is there afterwards. -/
theorem perform_dirty (h : ¬s.Clean host c) : ∃ e counter, (perform C host rt c).call s =
    (.error e,{s with devices := s.changed c, revisionCounter := counter}) := by
  obtain ⟨hbusy,hno⟩ := not_or.mp h
  obtain ⟨e,counter,hemit,-⟩ | ⟨dir,hsigns,-⟩ := emit_cases C host rt
    {s with devices := s.changed c} c.now
  · exact ⟨e,counter,by rw [perform_busy hbusy,hemit]⟩
  · exact absurd hsigns.issuable hno

/-- A call that throws leaves the devices, the revision and the published directory as they
were exactly when the change is clean. -/
theorem throws_unchanged_iff (laws : SignLaws C) (s : DirectoryState) (c : DirectoryCall) :
    (∀ e s', (perform C host rt c).call s = (.error e,s') → s' = s) ↔ s.Clean host c := by
  constructor
  · intro h
    by_contra hc
    obtain ⟨e,counter,hcall⟩ := perform_dirty C rt hc
    exact changed_ne (not_or.mp hc).1 (congrArg DirectoryState.devices (h _ _ hcall))
  · rintro (hidle | hi) e s' he
    · exact (congrArg Prod.snd he).symm.trans (perform_idle_state hidle)
    · by_cases hidle : s.Idle c
      · exact (congrArg Prod.snd he).symm.trans (perform_idle_state hidle)
      · obtain ⟨dir,-,hcall⟩ := perform_clean rt laws hidle hi
        cases hcall.symm.trans he

end Perform

def sampleDevice (id name : JsString) : DeviceDirectoryEntry :=
  ⟨id,js "AA==",js "ed25519",js "full_access",none,sampleTime,name,js "phone"⟩

def sampleState (devices : DeviceMap) : DirectoryState :=
  ⟨js "u",List.replicate 32 7,js "k",devices,.zero,none,by decide,by decide⟩

def sampleAdd (id name : JsString) : DirectoryCall :=
  .addDevice (sampleDevice id name) (.ok (.ofNat 0))

theorem sampleDevice_valid {id name : JsString} (hid : id ≠ []) :
    (sampleDevice id name).Valid ↔ name ≠ [] := by
  constructor
  · exact fun h => h.device_name
  · intro hname
    have hkey : js "AA==" ≠ [] := by decide
    have halg : js "ed25519" ≠ [] := by decide
    have htime : sampleTime ≠ [] := by decide
    have htype : js "phone" ≠ [] := by decide
    exact ⟨hid,hkey,halg,htime,hname,htype,.inl ⟨rfl,rfl⟩⟩

theorem sample_issuable {s : DirectoryState} {devices : DeviceMap}
    (hseed : s.identitySeed.length = 32) (h : ∀ d ∈ devices.values, d.Valid) :
    s.Issuable sampleHost devices (.ok (.ofNat 0)) := by
  have hiso : isoSecond (js "1970-01-01T00:00:00.000Z") = sampleTime := by decide
  refine ⟨_,_,rfl,rfl,?_,?_,hseed,h⟩
  · rw [hiso]
    decide
  · rw [hiso]
    decide

theorem throws_unchanged_sample :
    ((∀ e s', (perform Sample.crypto sampleHost Sample.runtime
      (sampleAdd (js "a") (js "n"))).call (sampleState .empty) = (.error e,s') →
        s' = sampleState .empty) ↔
      (sampleState .empty).Clean sampleHost (sampleAdd (js "a") (js "n"))) ∧
    (sampleState .empty).Clean sampleHost (sampleAdd (js "a") (js "n")) := by
  refine ⟨throws_unchanged_iff Sample.laws.sig _ _,.inr (sample_issuable rfl ?_)⟩
  intro d hd
  obtain rfl := List.mem_singleton.mp (show d ∈ [sampleDevice (js "a") (js "n")] from hd)
  exact (sampleDevice_valid (by decide)).mpr (by decide)

/-- A map with a device that has no name allows no new directory. -/
theorem not_clean_nameless {s : DirectoryState} {c : DirectoryCall} (h : ¬s.Idle c)
    (hx : sampleDevice (js "x") [] ∈ (s.changed c).values) : ¬s.Clean sampleHost c := by
  rintro (hidle | ⟨_,_,-,-,-,-,-,hd⟩)
  · exact h hidle
  · exact (sampleDevice_valid (by decide)).mp (hd _ hx) rfl

/-- A device without a name is refused when the directory is validated, and stays in the
map: the next call, with a good device, fails as well. -/
theorem nameless_device_stays : ∃ e s', (perform Sample.crypto sampleHost Sample.runtime
    (sampleAdd (js "x") [])).call (sampleState .empty) = (.error e,s') ∧
      (sampleState .empty).devices.values = [] ∧
      s'.devices.values = [sampleDevice (js "x") []] ∧
    ∃ e' s'', (perform Sample.crypto sampleHost Sample.runtime
      (sampleAdd (js "a") (js "n"))).call s' = (.error e',s'') := by
  have hx : ¬(sampleState .empty).Idle (sampleAdd (js "x") []) := by
    refine not_or.mpr ⟨not_not.mpr rfl,?_⟩
    decide
  obtain ⟨e,counter,hcall⟩ := perform_dirty Sample.crypto Sample.runtime
    (not_clean_nameless hx List.mem_cons_self)
  have hbusy : ¬({sampleState .empty with
      devices := (sampleState .empty).changed (sampleAdd (js "x") []),
      revisionCounter := counter} : DirectoryState).Idle (sampleAdd (js "a") (js "n")) := by
    refine not_or.mpr ⟨not_not.mpr rfl,Bool.eq_false_iff.mp ?_⟩
    change ((sampleState .empty).changed (sampleAdd (js "x") [])).has (js "a") = false
    decide
  obtain ⟨e',_,hcall'⟩ := perform_dirty Sample.crypto Sample.runtime
    (not_clean_nameless hbusy List.mem_cons_self)
  exact ⟨e,_,hcall,rfl,rfl,e',_,hcall'⟩

end DirectoryState
end Semp
