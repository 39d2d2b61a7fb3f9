import Semp.DirectoryCache

/-! A publisher's run and the consumers that follow it: which directories the calls on one
state publish, and what a cache makes of them. -/
namespace Semp
namespace DirectoryState

open DeviceRecords
open TransparencyLog.Log (sampleHost)

/-- A call with what came of it. -/
abbrev Done := DirectoryCall × Except Thrown DirectoryResult

/-- The directory that a call published. -/
def Done.emission (m : Done) : Option DeviceDirectory := m.2.toOption.bind DirectoryResult.emission

/-- The directories that a run published. -/
def emitted (past : List Done) : List DeviceDirectory := past.filterMap Done.emission

/-- The devices that are authorized after a call: only a call that returns changes them. -/
def authorize (devices : List DeviceDirectoryEntry) : Done → List DeviceDirectoryEntry
  | (.addDevice entry _,.ok _) => devices++[entry]
  | (.revokeDevice deviceId _,.ok _) => devices.filter fun d => d.device_id ≠ deviceId
  | (_,.error _) => devices

def authorized (devices : List DeviceDirectoryEntry) (past : List Done) :
    List DeviceDirectoryEntry := past.foldl authorize devices

/-- The directory lists these devices, by id and without a repetition. -/
structure Lists (dir : DeviceDirectory) (devices : List DeviceDirectoryEntry) : Prop where
  perm : dir.devices.Perm devices
  sorted : dir.devices.Pairwise fun a b => EntryLe a b ∧ a.device_id ≠ b.device_id

/-- What a run from `s` published: one revision after the other, each with the devices that
are authorized at that point. -/
structure Publication (s : DirectoryState) (past : List Done) : Prop where
  revisions : (emitted past).map (·.revision) =
    List.range' (s.revisionCounter.val+1) (emitted past).length
  lists : ∀ before m later, past = before++m::later → ∀ dir ∈ m.emission,
    Lists dir (authorized s.devices.values (before++[m]))

section Runs
variable (C : Crypto) (host : Host) (rt : Runtime)

def run (calls : List DirectoryCall) (s : DirectoryState) : List Done × DirectoryState :=
  Method.run (perform C host rt) calls s

/-- Every call of the run is clean where it is made. -/
def CleanRun (s : DirectoryState) (calls : List DirectoryCall) : Prop :=
  ∀ before c later, calls = before++c::later → Clean host (run C host rt before s).2 c

end Runs

theorem sortEntries_lists {devices : DeviceMap} {dir : DeviceDirectory}
    (h : dir.devices = sortEntries devices.values) : Lists dir devices.values := by
  have hperm := sortEntries_perm devices.values
  rw [← h] at hperm
  have hnodup := (hperm.map (·.device_id)).nodup_iff.mpr devices.nodup
  have hsorted := sortEntries_sorted devices.values
  rw [← h] at hsorted
  exact ⟨hperm,hsorted.and (List.pairwise_map.mp hnodup)⟩

/-- What holds after a clean run: the state is the one that the published directories tell. -/
structure Told (s : DirectoryState) (past : List Done) (s' : DirectoryState) : Prop where
  publication : Publication s past
  user : s'.userId = s.userId
  users : ∀ dir ∈ emitted past, dir.user_id = s.userId
  revision : s'.revisionCounter.val = s.revisionCounter.val+(emitted past).length
  devices : s'.devices.values = authorized s.devices.values past

theorem emitted_concat (past : List Done) (m : Done) :
    emitted (past++[m]) = emitted past++m.emission.toList := by
  rw [emitted,List.filterMap_append,← emitted]
  cases h : m.emission <;> simp [h]

theorem authorized_concat (devices : List DeviceDirectoryEntry) (past : List Done) (m : Done) :
    authorized devices (past++[m]) = authorize (authorized devices past) m := by
  rw [authorized,List.foldl_append,← authorized]
  rfl

/-- The places of a list with one more item. -/
theorem concat_eq_append {α : Type} {xs before later : List α} {x y : α}
    (h : xs++[x] = before++y::later) :
    (later = [] ∧ before = xs ∧ y = x) ∨ ∃ rest, later = rest++[x] ∧ xs = before++y::rest := by
  rcases List.eq_nil_or_concat later with rfl | ⟨rest,z,rfl⟩
  · obtain ⟨h₁,h₂⟩ := List.append_inj' h rfl
    exact .inl ⟨rfl,h₁.symm,(List.singleton_inj.mp h₂).symm⟩
  · rw [List.concat_eq_append,← List.cons_append,← List.append_assoc] at h
    obtain ⟨h₁,h₂⟩ := List.append_inj' h rfl
    exact .inr ⟨rest,by rw [List.concat_eq_append,List.singleton_inj.mp h₂],h₁⟩

section Step
variable {C : Crypto} {host : Host} {rt : Runtime} {s s' : DirectoryState} {past : List Done}
  {c : DirectoryCall}

/-- One more call that publishes nothing and leaves the devices. -/
theorem Told.quiet (h : Told s past s') {m : Done} (hm : m.emission = none)
    (hdevices : authorize s'.devices.values m = s'.devices.values) : Told s (past++[m]) s' := by
  have hemitted : emitted (past++[m]) = emitted past := by simp [emitted_concat,hm]
  refine ⟨⟨by rw [hemitted]; exact h.publication.revisions,?_⟩,h.user,
    by rw [hemitted]; exact h.users,by rw [hemitted]; exact h.revision,?_⟩
  · intro before m' later heq dir hdir
    obtain ⟨-,rfl,rfl⟩ | ⟨rest,-,hpast⟩ := concat_eq_append heq
    · rw [hm] at hdir
      cases hdir
    · exact h.publication.lists before m' rest hpast dir hdir
  · rw [authorized_concat,← h.devices,hdevices]

/-- One more call that publishes a directory. -/
theorem Told.published (h : Told s past s') {m : Done} {dir : DeviceDirectory}
    {devices : DeviceMap} (hm : m.emission = some dir) (hcount : s'.revisionCounter.val < 2^53)
    (hdevices : authorize s'.devices.values m = devices.values)
    (hissued : Issued {s' with devices := devices} dir) :
    Told s (past++[m]) {s' with devices := devices, revisionCounter := s'.revisionCounter.next,
                                currentDir := some dir} := by
  have hemitted : emitted (past++[m]) = emitted past++[dir] := by simp [emitted_concat,hm]
  have hnext := Counter.val_next hcount
  have hauth : authorized s.devices.values (past++[m]) = devices.values := by
    rw [authorized_concat,← h.devices,hdevices]
  refine ⟨⟨?_,?_⟩,h.user,?_,?_,hauth.symm⟩
  · rw [hemitted,List.map_append,h.publication.revisions,List.length_append,
      List.length_singleton,List.range'_concat]
    have hrev : dir.revision = s.revisionCounter.val+1+1*(emitted past).length := by
      rw [hissued.revision]
      change s'.revisionCounter.next.val = _
      rw [hnext,h.revision]
      omega
    rw [List.map_singleton,hrev]
  · intro before m' later heq dir' hdir'
    obtain ⟨-,rfl,rfl⟩ | ⟨rest,-,hpast⟩ := concat_eq_append heq
    · obtain rfl : dir = dir' := Option.some.inj (hm.symm.trans hdir')
      rw [hauth]
      exact sortEntries_lists hissued.devices
    · exact h.publication.lists before m' rest hpast dir' hdir'
  · rw [hemitted]
    intro d hd
    obtain hd | hd := List.mem_append.mp hd
    · exact h.users d hd
    · rw [List.mem_singleton.mp hd,hissued.user_id]
      exact h.user
  · change s'.revisionCounter.next.val = _
    rw [hnext,hemitted,h.revision,List.length_append]
    rfl

theorem authorize_changed (h : ¬s.Idle c) (r : DirectoryResult) :
    authorize s.devices.values (c,.ok r) = (s.changed c).values := by
  cases c with
  | addDevice entry now =>
    exact (DeviceMap.set_values (Bool.eq_false_iff.mpr (not_or.mp h).2)).symm
  | revokeDevice deviceId now => rfl

theorem Told.step (laws : SignLaws C) (h : Told s past s') (hclean : s'.Clean host c)
    (hcount : s'.revisionCounter.val < 2^53) :
    Told s (past++[(c,((perform C host rt c).call s').1)]) ((perform C host rt c).call s').2 := by
  by_cases hidle : s'.Idle c
  · obtain ⟨e,he⟩ | ⟨deviceId,now,rfl,hhas,he⟩ := perform_idle C host rt hidle
    · rw [he]
      exact h.quiet rfl (by cases c <;> rfl)
    · rw [he]
      refine h.quiet rfl (List.filter_eq_self.mpr fun d hd => decide_eq_true ?_)
      rintro rfl
      exact absurd (List.mem_map_of_mem hd) (of_decide_eq_false hhas)
  · obtain ⟨dir,hissued,hcall⟩ := perform_clean rt laws hidle (hclean.resolve_left hidle)
    rw [hcall]
    refine h.published ?_ hcount (authorize_changed hidle _) hissued
    exact emission_published _

end Step

theorem told_nil (s : DirectoryState) : Told s [] s :=
  ⟨⟨rfl,by simp⟩,rfl,nofun,rfl,rfl⟩

section Run
variable {C : Crypto} {host : Host} {rt : Runtime} {s : DirectoryState}
  {calls : List DirectoryCall}

theorem length_run : (run C host rt calls s).1.length = calls.length := by
  induction calls generalizing s with
  | nil => rfl
  | cons c calls ih => exact congrArg (·+1) ih

theorem told_run (laws : SignLaws C) (h : CleanRun C host rt s calls)
    (hcount : s.revisionCounter.val+calls.length ≤ 2^53) :
    Told s (run C host rt calls s).1 (run C host rt calls s).2 := by
  induction calls using List.reverseRecOn with
  | nil => exact told_nil s
  | append_singleton calls c ih =>
    rw [List.length_append,List.length_singleton] at hcount
    have hclean : CleanRun C host rt s calls :=
      fun before c' later heq => h before c' (later++[c]) (by simp [heq])
    have htold := ih hclean (by omega)
    have hle : (emitted (run C host rt calls s).1).length ≤ calls.length :=
      (List.length_filterMap_le ..).trans length_run.le
    have hroom : (run C host rt calls s).2.revisionCounter.val < 2^53 := by
      rw [htold.revision]
      omega
    rw [run,Method.run_concat]
    exact htold.step laws (h calls c [] rfl) hroom

/-- Following a count upwards. -/
theorem lt_mono {a b : ℕ} (hab : a ≤ b) (hb : b < 2^53) {x : Number}
    (h : (Number.ofNat a).lt x = false) : (Number.ofNat b).lt x = false := by
  have ha := hab.trans_lt hb
  by_cases hx : x.isFinite
  · rw [Number.lt_fin (Number.isFinite_ofNat ha) hx,Number.toRat_ofNat ha] at h
    rw [Number.lt_fin (Number.isFinite_ofNat hb) hx,Number.toRat_ofNat hb]
    have hcast : (a : ℚ) ≤ b := Nat.cast_le.mpr hab
    exact decide_eq_false (not_lt.mpr ((not_lt.mp (of_decide_eq_false h)).trans hcast))
  · rw [Number.ofNat_eq ha] at h
    rw [Number.ofNat_eq hb]
    cases x with
    | fin neg i => exact absurd rfl hx
    | nan => rfl
    | inf neg => exact h

/-- A cache that is given directories of one user with one revision after the other. -/
theorem no_rollback {dirs : List DeviceDirectory} {userId : JsString} {n : ℕ}
    (huser : ∀ dir ∈ dirs, dir.user_id = userId)
    (hrev : dirs.map (·.revision) = List.range' n dirs.length) (hb : n+dirs.length ≤ 2^53)
    {cache : DirectoryCache}
    (hcache : ∀ x, lookup cache.highest userId = some x → (Number.ofNat n).lt x = false)
    (pub : Bytes) (certCheck : DeviceDirectory → Option CertificateCheck) :
    ∀ m ∈ (Method.run (fun dir => DirectoryCache.verifyAndCache C host rt
      (some (DeviceDirectory.toJson dir)) pub (certCheck dir)) dirs cache).1,
      ∀ user fetched cached, m.2 ≠ .error (.rollback user fetched cached) := by
  induction dirs generalizing n cache with
  | nil =>
    intro m hm
    cases hm
  | cons dir dirs ih =>
    obtain ⟨hn,hrev⟩ := List.cons.inj (hrev.trans List.range'_succ)
    rw [List.length_cons] at hb
    have hsubject : DirectoryCache.subject (some dir.toJson) = .ok (userId,.ofNat n) := by
      rw [← huser dir List.mem_cons_self,← hn]
      rfl
    have hrest := fun d hd => huser d (List.mem_cons_of_mem _ hd)
    have hroom {cache : DirectoryCache} {m} (hm : m ∈ (Method.run (fun dir =>
        DirectoryCache.verifyAndCache C host rt (some (DeviceDirectory.toJson dir)) pub
          (certCheck dir)) dirs cache).1) : n+1 < 2^53 := by
      cases dirs with
      | nil => cases hm
      | cons d ds =>
        rw [List.length_cons] at hb
        omega
    intro m hm
    rw [Method.run] at hm
    obtain ⟨e,hcall,he⟩ | ⟨user,revision,-,hnames,-,hcall⟩ :=
      DirectoryCache.verifyAndCache_cases C host rt (some dir.toJson) pub (certCheck dir) cache
    · rw [hcall] at hm
      obtain rfl | hm := List.mem_cons.mp hm
      · rintro user fetched cached heq
        obtain ⟨hsub,hl,hlt⟩ := he user fetched cached (Except.error.inj heq)
        obtain ⟨rfl,rfl⟩ := Prod.mk.inj (Except.ok.inj (hsubject.symm.trans hsub))
        rw [hcache cached hl] at hlt
        cases hlt
      · refine ih hrest hrev (by omega) (fun x hx => ?_) m hm
        exact lt_mono (Nat.le_succ n) (hroom hm) (hcache x hx)
    · rw [hcall] at hm
      obtain ⟨rfl,rfl⟩ := Prod.mk.inj (Except.ok.inj (hsubject.symm.trans hnames.subject))
      obtain rfl | hm := List.mem_cons.mp hm
      · intro user fetched cached heq
        cases heq
      · refine ih hrest hrev (by omega) (fun x hx => ?_) m hm
        obtain rfl := Option.some.inj ((lookup_assign_self ..).symm.trans hx)
        rw [Number.lt_ofNat (hroom hm) (by omega)]
        simp

/-- A run whose calls are all clean publishes one revision after the other, each with
exactly the devices that are authorized then, in order and without a repetition; and a cache
that has seen no later revision of this user never reports a rollback when it is given the
directories in their order. -/
theorem publication_of_clean (laws : SignLaws C) (s : DirectoryState) (calls : List DirectoryCall)
    (h : CleanRun C host rt s calls) (hcount : s.revisionCounter.val+calls.length < 2^53) :
    Publication s (run C host rt calls s).1 ∧
      ∀ (cache : DirectoryCache) (pub : Bytes)
        (certCheck : DeviceDirectory → Option CertificateCheck),
        (∀ x, lookup cache.highest s.userId = some x →
          (Number.ofNat (s.revisionCounter.val+1)).lt x = false) →
        ∀ m ∈ (Method.run (fun dir => DirectoryCache.verifyAndCache C host rt
            (some (DeviceDirectory.toJson dir)) pub (certCheck dir))
            (emitted (run C host rt calls s).1) cache).1,
          ∀ user fetched cached, m.2 ≠ .error (.rollback user fetched cached) := by
  have htold := told_run laws h hcount.le
  have hle : (emitted (run C host rt calls s).1).length ≤ calls.length :=
    (List.length_filterMap_le ..).trans length_run.le
  refine ⟨htold.publication,fun cache pub certCheck hcache => ?_⟩
  exact no_rollback htold.users htold.publication.revisions (by omega) hcache pub certCheck

end Run

section Sample

theorem cleanRun_nil (C : Crypto) (host : Host) (rt : Runtime) (s : DirectoryState) :
    CleanRun C host rt s [] := by simp [CleanRun]

theorem cleanRun_cons {C : Crypto} {host : Host} {rt : Runtime} {s : DirectoryState}
    {c : DirectoryCall} {calls : List DirectoryCall} (hc : s.Clean host c)
    (h : CleanRun C host rt ((perform C host rt c).call s).2 calls) :
    CleanRun C host rt s (c::calls) := by
  intro before d later heq
  cases before with
  | nil =>
    obtain ⟨rfl,-⟩ := List.cons.inj heq
    exact hc
  | cons b before =>
    obtain ⟨rfl,hcalls⟩ := List.cons.inj heq
    exact h before d later hcalls

theorem sampleAdd_clean : (sampleState .empty).Clean sampleHost (sampleAdd (js "a") (js "n")) := by
  refine .inr (sample_issuable rfl fun d hd => ?_)
  obtain rfl := List.mem_singleton.mp (show d ∈ [sampleDevice (js "a") (js "n")] from hd)
  exact (sampleDevice_valid (by decide)).mpr (by decide)

def revokeCall (deviceId : JsString) : DirectoryCall := .revokeDevice deviceId (.ok (.ofNat 0))

/-- A device is added and revoked. -/
theorem publication_of_clean_sample : Publication (sampleState .empty) (run Sample.crypto sampleHost
    Sample.runtime [sampleAdd (js "a") (js "n"),revokeCall (js "a")]
      (sampleState .empty)).1 := by
  refine (publication_of_clean Sample.laws.sig _ _ (cleanRun_cons sampleAdd_clean
    (cleanRun_cons (.inr ?_) (cleanRun_nil _ _ _ _))) (by decide)).1
  obtain ⟨dir,-,hcall⟩ := perform_clean Sample.runtime Sample.laws.sig
    (show ¬(sampleState .empty).Idle (sampleAdd (js "a") (js "n")) from
      not_or.mpr ⟨not_not.mpr rfl,by decide⟩) (sampleAdd_clean.resolve_left
        (not_or.mpr ⟨not_not.mpr rfl,by decide⟩))
  rw [hcall]
  exact sample_issuable rfl fun d hd => absurd (show d ∈ [] from hd) List.not_mem_nil

/-- A nameless device is refused and stays in the map; the good device is taken out by a
revocation that fails; when the nameless one is revoked the next directory is empty, though
no call that returned has revoked the good device. -/
theorem publication_lost : ¬ Publication (sampleState .empty) (run Sample.crypto sampleHost
    Sample.runtime [sampleAdd (js "a") (js "n"),sampleAdd (js "x") [],revokeCall (js "a"),
      revokeCall (js "x")] (sampleState .empty)).1 := by
  let good := sampleDevice (js "a") (js "n")
  let nameless := sampleDevice (js "x") []
  let both := (DeviceMap.empty.set good).set nameless
  have hkept : nameless ∈ (both.delete (js "a")).values := by decide
  have hlast : ((both.delete (js "a")).delete (js "x")).values = [] := by decide
  have hadd : ¬(sampleState .empty).Idle (sampleAdd (js "a") (js "n")) :=
    not_or.mpr ⟨not_not.mpr rfl,by decide⟩
  obtain ⟨dir,-,h₁⟩ := perform_clean Sample.runtime Sample.laws.sig hadd
    (sampleAdd_clean.resolve_left hadd)
  set s₁ : DirectoryState := {sampleState .empty with
    devices := (sampleState .empty).changed (sampleAdd (js "a") (js "n")),
    revisionCounter := (sampleState .empty).revisionCounter.next, currentDir := some dir}
  have hnew : ¬s₁.Idle (sampleAdd (js "x") []) :=
    not_or.mpr ⟨not_not.mpr rfl,(by decide : (DeviceMap.empty.set good).has (js "x") ≠ true)⟩
  obtain ⟨e₂,counter₂,h₂⟩ := perform_dirty Sample.crypto Sample.runtime
    (not_clean_nameless hnew (by decide : nameless ∈ both.values))
  set s₂ : DirectoryState := {s₁ with
    devices := s₁.changed (sampleAdd (js "x") []), revisionCounter := counter₂}
  have ha : ¬s₂.Idle (revokeCall (js "a")) :=
    not_or.mpr ⟨by decide,(by decide : both.has (js "a") ≠ false)⟩
  obtain ⟨e₃,counter₃,h₃⟩ := perform_dirty Sample.crypto Sample.runtime
    (not_clean_nameless ha hkept)
  set s₃ : DirectoryState := {s₂ with
    devices := s₂.changed (revokeCall (js "a")), revisionCounter := counter₃}
  have hx : ¬s₃.Idle (revokeCall (js "x")) :=
    not_or.mpr ⟨by decide,(by decide : (both.delete (js "a")).has (js "x") ≠ false)⟩
  have hclean : s₃.Issuable sampleHost (s₃.changed (revokeCall (js "x"))) (.ok (.ofNat 0)) :=
    sample_issuable rfl fun d hd => absurd (hlast ▸ hd) List.not_mem_nil
  obtain ⟨dir',hissued,h₄⟩ := perform_clean Sample.runtime Sample.laws.sig hx hclean
  have hrun : (run Sample.crypto sampleHost Sample.runtime [sampleAdd (js "a") (js "n"),
      sampleAdd (js "x") [],revokeCall (js "a"),revokeCall (js "x")] (sampleState .empty)).1 =
      [(sampleAdd (js "a") (js "n"),.ok (.added (some dir))),(sampleAdd (js "x") [],.error e₂),
        (revokeCall (js "a"),.error e₃),(revokeCall (js "x"),.ok (.revoked (some dir') true))] := by
    simp only [run,Method.run,h₁,h₂,h₃,h₄]
    rfl
  intro h
  rw [hrun] at h
  have hlists := h.lists [_,_,_] _ [] rfl dir' rfl
  have hlength := hlists.perm.length_eq
  rw [hissued.devices] at hlength
  change (sortEntries ((both.delete (js "a")).delete (js "x")).values).length =
    ([good].filter fun d : DeviceDirectoryEntry => d.device_id ≠ js "x").length at hlength
  rw [hlast] at hlength
  exact absurd hlength (by decide)

end Sample

end DirectoryState
end Semp
