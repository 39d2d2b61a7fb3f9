import Semp.DeviceCertificate
import Semp.DeviceRecords
import Semp.Grouping
import Semp.NumberGrowth
import Semp.StagedRunnerRun

/-! The stages an envelope is delivered in: the delegated devices at the stages of their
certificates, and the full-access devices at one stage after them. -/
namespace Semp.StagePartition
open DeviceCertificates DeviceRecords

structure PartitionInput where
  directory : DeviceDirectory
  certificateProvider : JsString → Option DeviceCertificate
  enclosureRecipients : List JsString
  senderAddress : AddressIdentity

/-- The variables of the loop over the devices; a device is listed with its stage. -/
structure Tally where
  eligible : List (Number × JsString)
  fullAccessIds : List JsString
  maxDelegateMode : Number

def fullAccess : JsString := js "full_access"

def wanted (input : PartitionInput) (dev : DeviceDirectoryEntry) : Bool :=
  input.enclosureRecipients.contains dev.device_public_key

/-- The stage of a delegated device, the first one without a stage of its own. -/
def stageOf (receive : ScopeMatcher) : Number :=
  let stage := receive.delivery_stage.getD (.zero false)
  if stage.lt (.ofNat 1) then .ofNat 1 else stage

/-- The tally of the greatest stage; a matcher without a stage counts as 0. -/
def tallyStage (max : Number) (receive : ScopeMatcher) : Number :=
  let stage := receive.delivery_stage.getD (.zero false)
  if max.lt stage then stage else max

section Code
variable (lc : Locale)

/-- The body of the loop. -/
def visit (input : PartitionInput) (t : Tally) (dev : DeviceDirectoryEntry) : Tally :=
  let recipientWanted := wanted input dev
  if dev.role = fullAccess then
    if recipientWanted then { t with fullAccessIds := t.fullAccessIds++[dev.device_id] } else t
  else
    match input.certificateProvider dev.device_id with
    | none => t
    | some cert =>
      let receive := cert.scope.receive
      let t := if receive.mode ≠ js "none" then
          { t with maxDelegateMode := tallyStage t.maxDelegateMode receive }
        else t
      if !recipientWanted then t
      else if receive.mode = js "none" then t
      else if !scopeAllowsSender lc receive input.senderAddress then t
      else { t with eligible := t.eligible++[(stageOf receive,dev.device_id)] }

def fullAccessStage (maxDelegateMode : Number) : Number :=
  if (Number.zero false).lt maxDelegateMode then maxDelegateMode.add (.ofNat 1) else .ofNat 1

/-- The order that `(a, b) => a - b` sorts by. -/
def StageLe (a b : Number) : Prop := (Number.zero false).lt (a.sub b) = false

instance : DecidableRel StageLe := fun a b =>
  inferInstanceAs (Decidable ((Number.zero false).lt (a.sub b) = false))

def sortIds (ids : List JsString) : List JsString := ids.insertionSort fun a b => keyLe a b = true

/-- The eligible devices with their stages. -/
def eligibleDevices (input : PartitionInput) : List (Number × JsString) :=
  let t := input.directory.devices.foldl (visit lc input) ⟨[],[],.zero false⟩
  t.eligible++t.fullAccessIds.map (fullAccessStage t.maxDelegateMode,·)

def partitionStages (input : PartitionInput) : List (StagedHeldStage Number) :=
  let eligible := eligibleDevices lc input
  if eligible = [] then []
  else
    let byStage := Grouping.group eligible
    ((byStage.map Prod.fst).insertionSort StageLe).map fun s =>
      ⟨s,sortIds (Grouping.get byStage s),[]⟩

end Code

/-! What the loop collects. -/

/-- The matcher of a delegated device that may receive at all. -/
def matcherOf (input : PartitionInput) (dev : DeviceDirectoryEntry) : Option ScopeMatcher :=
  if dev.role = fullAccess then none
  else (input.certificateProvider dev.device_id).bind fun cert =>
    if cert.scope.receive.mode = js "none" then none else some cert.scope.receive

/-- The entry of a delegated device that is delivered to. -/
def entryOf (lc : Locale) (input : PartitionInput) (dev : DeviceDirectoryEntry) :
    Option (Number × JsString) :=
  (matcherOf input dev).bind fun receive =>
    if wanted input dev && scopeAllowsSender lc receive input.senderAddress then
      some (stageOf receive,dev.device_id)
    else none

/-- A full-access device that is delivered to. -/
def isFull (input : PartitionInput) (dev : DeviceDirectoryEntry) : Bool :=
  decide (dev.role = fullAccess) && wanted input dev

variable {lc : Locale} {input : PartitionInput}

theorem visit_eq (t : Tally) (dev : DeviceDirectoryEntry) : visit lc input t dev =
    { eligible := t.eligible++(entryOf lc input dev).toList
      fullAccessIds := t.fullAccessIds++if isFull input dev then [dev.device_id] else []
      maxDelegateMode := (matcherOf input dev).elim t.maxDelegateMode
        (tallyStage t.maxDelegateMode) } := by
  unfold visit entryOf matcherOf isFull
  by_cases hrole : dev.role = fullAccess
  · cases hw : wanted input dev <;> simp [hrole]
  · cases hc : input.certificateProvider dev.device_id with
    | none => simp [hrole]
    | some cert =>
      by_cases hmode : cert.scope.receive.mode = js "none"
      · simp [hrole,hmode]
      · cases hw : wanted input dev
        · simp [hrole,hmode]
        · cases hs : scopeAllowsSender lc cert.scope.receive input.senderAddress <;>
            simp [hrole,hmode,hs]

/-- The tally of a whole list of devices. -/
theorem foldl_visit (devices : List DeviceDirectoryEntry) (t : Tally) :
    devices.foldl (visit lc input) t =
      { eligible := t.eligible++devices.filterMap (entryOf lc input)
        fullAccessIds := t.fullAccessIds++
          (devices.filter (isFull input)).map DeviceDirectoryEntry.device_id
        maxDelegateMode := (devices.filterMap (matcherOf input)).foldl tallyStage
          t.maxDelegateMode } := by
  induction devices generalizing t with
  | nil => simp
  | cons dev devices ih =>
    rw [List.foldl_cons,visit_eq,ih,List.filterMap_cons,List.filterMap_cons,List.filter_cons]
    cases entryOf lc input dev <;> cases matcherOf input dev <;> cases isFull input dev <;> simp

theorem eligibleDevices_eq : eligibleDevices lc input =
    input.directory.devices.filterMap (entryOf lc input)++
      (input.directory.devices.filter (isFull input)).map fun dev =>
        (fullAccessStage ((input.directory.devices.filterMap (matcherOf input)).foldl tallyStage
          (.zero false)),dev.device_id) := by
  simp only [eligibleDevices,foldl_visit,List.nil_append,List.map_map]
  rfl

/-! What the stages are for. -/

/-- A delegated device of the account whose matcher lets it receive from someone. -/
structure Delegated (input : PartitionInput) (dev : DeviceDirectoryEntry)
    (receive : ScopeMatcher) : Prop where
  listed : dev ∈ input.directory.devices
  role : dev.role ≠ fullAccess
  certificate : ∃ cert, input.certificateProvider dev.device_id = some cert ∧
    cert.scope.receive = receive
  mode : receive.mode ≠ js "none"

/-- The envelope is sealed to the device, which has full access or admits the sender. -/
def Eligible (lc : Locale) (input : PartitionInput) (dev : DeviceDirectoryEntry) : Prop :=
  dev ∈ input.directory.devices ∧ dev.device_public_key ∈ input.enclosureRecipients ∧
    (dev.role = fullAccess ∨ ∃ receive, Delegated input dev receive ∧
      scopeAllowsSender lc receive input.senderAddress = true)

/-- The numbers stages are, which are in line. -/
abbrev StageNumber := {x : Number // (Number.ofNat 1).le x = true}

instance : LinearOrder StageNumber :=
  LinearOrder.lift' (fun x => x.val.place) fun x y h =>
    Subtype.ext (Number.place_inj x.property y.property h)

/-- The stages as `hold` takes them. -/
def numbered (st : StagedHeldStage StageNumber) : StagedHeldStage Number :=
  ⟨st.stage.val,st.pending_device_ids,st.dispositions⟩

/-- A partition is as the staged delivery needs it. -/
structure WellPartitioned (lc : Locale) (input : PartitionInput)
    (out : List (StagedHeldStage Number)) : Prop where
  increasing : out.Pairwise fun a b => a.stage.lt b.stage = true
  nonempty : ∀ st ∈ out, st.pending_device_ids ≠ []
  disjoint : out.Pairwise fun a b => List.Disjoint a.pending_device_ids b.pending_device_ids
  accepted : out ≠ [] → ∃ stages, stages.map numbered = out ∧
    ∀ (s : StagedRunner StageNumber) (f : StagedRunner.Fields StageNumber) (envelopeId : JsString),
      envelopeId ≠ [] → f.heldMap.has envelopeId = false →
        s.checkHold f envelopeId stages = .ok stages
  exact : ∀ id, (∃ st ∈ out, id ∈ st.pending_device_ids) ↔
    ∃ dev, Eligible lc input dev ∧ dev.device_id = id
  delegated : ∀ st ∈ out, ∀ dev receive, Delegated input dev receive →
    dev.device_id ∈ st.pending_device_ids → st.stage = stageOf receive
  later : ∀ st ∈ out, ∀ dev ∈ input.directory.devices, dev.role = fullAccess →
    dev.device_id ∈ st.pending_device_ids → ∀ delegate receive, Delegated input delegate receive →
      (stageOf receive).lt st.stage = true

/-- There is a stage after those of the delegated devices: the envelope goes to no full-access
device, or no delegated device may receive, or one of those that may has a greatest stage of
its own, to which one can be added. -/
def LeavesRoom (input : PartitionInput) : Prop :=
  (∀ dev ∈ input.directory.devices, dev.role = fullAccess →
      dev.device_public_key ∉ input.enclosureRecipients) ∨
    (∀ dev receive, ¬ Delegated input dev receive) ∨
    ∃ dev receive stage, Delegated input dev receive ∧ receive.delivery_stage = some stage ∧
      (∀ dev' receive', Delegated input dev' receive' →
        ∀ stage' ∈ receive'.delivery_stage, stage'.le stage = true) ∧
      stage.lt (stage.add (.ofNat 1)) = true

/-- The certificates have passed their checks. -/
def Certified (host : Host) (input : PartitionInput) : Prop :=
  ∀ id cert, input.certificateProvider id = some cert →
    ∃ skip, validateDeviceCertificate host cert skip = .ok ()

theorem matcherOf_eq_some {dev : DeviceDirectoryEntry} {receive : ScopeMatcher}
    (hdev : dev ∈ input.directory.devices) :
    matcherOf input dev = some receive ↔ Delegated input dev receive := by
  unfold matcherOf
  constructor
  · intro h
    split_ifs at h with hrole
    obtain ⟨cert,hcert,h⟩ := Option.bind_eq_some_iff.mp h
    split_ifs at h with hmode
    cases h
    exact ⟨hdev,hrole,⟨cert,hcert,rfl⟩,hmode⟩
  · rintro ⟨-,hrole,⟨cert,hcert,rfl⟩,hmode⟩
    rw [if_neg hrole,hcert,Option.bind_some,if_neg hmode]

/-- The matchers of all delegated devices that may receive. -/
def matchers (input : PartitionInput) : List ScopeMatcher :=
  input.directory.devices.filterMap (matcherOf input)

theorem mem_matchers {receive : ScopeMatcher} :
    receive ∈ matchers input ↔ ∃ dev, Delegated input dev receive := by
  rw [matchers,List.mem_filterMap]
  constructor
  · rintro ⟨dev,hdev,h⟩
    exact ⟨dev,(matcherOf_eq_some hdev).mp h⟩
  · rintro ⟨dev,h⟩
    exact ⟨dev,h.listed,(matcherOf_eq_some h.listed).mpr h⟩

/-- A stage that is set is at least one. -/
def StagesPositive (ms : List ScopeMatcher) : Prop :=
  ∀ receive ∈ ms, ∀ stage ∈ receive.delivery_stage, (Number.ofNat 1).le stage = true

theorem stagesPositive {host : Host} (h : Certified host input) :
    StagesPositive (matchers input) := by
  intro receive hr stage hstage
  obtain ⟨dev,hdev⟩ := mem_matchers.mp hr
  obtain ⟨cert,hcert,rfl⟩ := hdev.certificate
  obtain ⟨skip,hvalid⟩ := h _ cert hcert
  obtain ⟨hint,hlt⟩ := stage_of_valid hvalid stage hstage
  exact Number.of_not_lt (Number.isNaN_of_nat (by norm_num)) (Number.isNaN_of_isInteger hint) hlt

theorem one_le_stageOf {receive : ScopeMatcher}
    (h : ∀ stage ∈ receive.delivery_stage, (Number.ofNat 1).le stage = true) :
    (Number.ofNat 1).le (stageOf receive) = true := by
  unfold stageOf
  dsimp only
  cases hs : receive.delivery_stage with
  | none =>
    rw [Option.getD_none,Number.zero_eq_ofNat,if_pos (by
      rw [Number.lt_ofNat (by norm_num) (by norm_num)]; rfl)]
    exact Number.ofNat_le_ofNat le_rfl
  | some stage =>
    have hle := h stage hs
    rw [Option.getD_some,if_neg (by rw [Number.not_lt_of_le hle]; exact Bool.false_ne_true)]
    exact hle

/-- The greatest stage that is set, and 0 without one. -/
inductive Greatest (ms : List ScopeMatcher) : Number → Prop
  | nothing (h : ∀ receive ∈ ms, receive.delivery_stage = none) : Greatest ms (.zero false)
  | found (receive : ScopeMatcher) (stage : Number) (hr : receive ∈ ms)
      (hs : receive.delivery_stage = some stage)
      (hmax : ∀ receive ∈ ms, ∀ stage' ∈ receive.delivery_stage, stage'.le stage = true) :
      Greatest ms stage

theorem zero_lt_of_one_le {x : Number} (h : (Number.ofNat 1).le x = true) :
    (Number.zero false).lt x = true := by
  refine Number.lt_chain_le ?_ h
  rw [Number.zero_eq_ofNat,Number.lt_ofNat (by norm_num) (by norm_num)]
  rfl

theorem zero_lt_zero : (Number.zero false).lt (.zero false) = false := by
  rw [Number.zero_eq_ofNat,Number.lt_ofNat (by norm_num) (by norm_num)]
  rfl

theorem Greatest.none {ms : List ScopeMatcher} {receive : ScopeMatcher} {m : Number}
    (h : Greatest ms m) (hs : receive.delivery_stage = none) : Greatest (ms++[receive]) m := by
  cases h with
  | nothing hnone => exact .nothing (List.forall_mem_append.mpr ⟨hnone,by simpa using hs⟩)
  | found r m hr hm hmax =>
    refine .found r m (List.mem_append_left _ hr) hm (List.forall_mem_append.mpr ⟨hmax,?_⟩)
    rw [List.forall_mem_singleton,hs]
    exact nofun

theorem Greatest.keep {ms : List ScopeMatcher} {receive : ScopeMatcher} {m stage : Number}
    (h : Greatest ms m) (hne : m ≠ .zero false) (hs : receive.delivery_stage = some stage)
    (hle : stage.le m = true) : Greatest (ms++[receive]) m := by
  cases h with
  | nothing hnone => exact absurd rfl hne
  | found r m hr hm hmax =>
    refine .found r m (List.mem_append_left _ hr) hm (List.forall_mem_append.mpr ⟨hmax,?_⟩)
    rw [List.forall_mem_singleton,hs]
    rintro stage' ⟨⟩
    exact hle

theorem Greatest.replace {ms : List ScopeMatcher} {receive : ScopeMatcher} {m stage : Number}
    (h : Greatest ms m) (hs : receive.delivery_stage = some stage)
    (hlt : m.lt stage = true) : Greatest (ms++[receive]) stage := by
  have hself : stage.le stage = true := Number.self_le (Number.isNaN_of_lt hlt).2
  refine .found receive stage (List.mem_append_right _ (List.mem_singleton.mpr rfl)) hs
    (List.forall_mem_append.mpr ⟨?_,?_⟩)
  · intro r hr stage' hstage'
    cases h with
    | nothing hnone =>
      rw [hnone r hr] at hstage'
      cases hstage'
    | found _ m _ _ hmax => exact Number.chain_le (hmax r hr stage' hstage') (Number.weaken_lt hlt)
  · rw [List.forall_mem_singleton,hs]
    rintro stage' ⟨⟩
    exact hself

/-- The tally keeps the greatest stage. -/
theorem greatest_tally {ms : List ScopeMatcher} (h : StagesPositive ms) :
    Greatest ms (ms.foldl tallyStage (.zero false)) := by
  induction ms using List.reverseRecOn with
  | nil => exact .nothing (by simp)
  | append_singleton ms receive ih =>
    have hms := ih fun r hr => h r (List.mem_append_left _ hr)
    have hlast := h receive (List.mem_append_right _ (List.mem_singleton.mpr rfl))
    have hpos : ms.foldl tallyStage (.zero false) = .zero false ∨
        (Number.ofNat 1).le (ms.foldl tallyStage (.zero false)) = true := by
      generalize ms.foldl tallyStage (.zero false) = m at hms ⊢
      cases hms with
      | nothing => exact .inl rfl
      | found r m hr hm => exact .inr (h r (List.mem_append_left _ hr) m hm)
    rw [List.foldl_concat]
    generalize ms.foldl tallyStage (.zero false) = m at hms hpos ⊢
    unfold tallyStage
    dsimp only
    cases hs : receive.delivery_stage with
    | none =>
      have hnlt : m.lt (.zero false) = false := by
        rcases hpos with rfl|hpos
        · exact zero_lt_zero
        · exact Number.not_lt_of_le (Number.weaken_lt (zero_lt_of_one_le hpos))
      rw [Option.getD_none,if_neg (by rw [hnlt]; exact Bool.false_ne_true)]
      exact hms.none hs
    | some stage =>
      have hstage := hlast stage hs
      rw [Option.getD_some]
      by_cases hlt : m.lt stage = true
      · rw [if_pos hlt]
        exact hms.replace hs hlt
      · rw [if_neg hlt]
        rcases hpos with rfl|hpos
        · exact absurd (zero_lt_of_one_le hstage) hlt
        · refine hms.keep ?_ hs (Number.of_not_lt (Number.isNaN_right hstage)
            (Number.isNaN_right hpos) (Bool.eq_false_iff.mpr hlt))
          rintro rfl
          have hone := zero_lt_of_one_le hpos
          rw [zero_lt_zero] at hone
          cases hone

/-- The stage of the full-access devices. -/
def lastStage (input : PartitionInput) : Number :=
  fullAccessStage ((matchers input).foldl tallyStage (.zero false))

theorem one_le_lastStage (h : StagesPositive (matchers input)) :
    (Number.ofNat 1).le (lastStage input) = true := by
  have hg := greatest_tally h
  unfold lastStage fullAccessStage
  generalize (matchers input).foldl tallyStage (.zero false) = m at hg ⊢
  split_ifs with hpos
  · cases hg with
    | nothing hnone =>
      rw [zero_lt_zero] at hpos
      cases hpos
    | found r m hr hm hmax =>
      have hone := h r hr _ hm
      exact Number.chain_le hone (Number.le_add_one hone)
  · exact Number.ofNat_le_ofNat le_rfl

section Devices
variable {s : Number} {id : JsString}

/-- The entries of the devices: the delegated ones that admit the sender at their stages, and
the full-access ones at the last stage. -/
theorem mem_eligibleDevices : (s,id) ∈ eligibleDevices lc input ↔
    ∃ dev ∈ input.directory.devices, dev.device_public_key ∈ input.enclosureRecipients ∧
      dev.device_id = id ∧ ((dev.role = fullAccess ∧ s = lastStage input) ∨
        ∃ receive, Delegated input dev receive ∧
          scopeAllowsSender lc receive input.senderAddress = true ∧ s = stageOf receive) := by
  have hwanted : ∀ dev, wanted input dev = true ↔
      dev.device_public_key ∈ input.enclosureRecipients := fun dev => List.contains_iff_mem
  rw [eligibleDevices_eq,List.mem_append,List.mem_filterMap,List.mem_map]
  constructor
  · rintro (⟨dev,hdev,h⟩|⟨dev,hdev,h⟩)
    · obtain ⟨receive,hr,h⟩ := Option.bind_eq_some_iff.mp h
      split_ifs at h with hcond
      obtain ⟨rfl,rfl⟩ := Prod.mk.inj (Option.some.inj h)
      obtain ⟨hw,hs⟩ := Bool.and_eq_true_iff.mp hcond
      exact ⟨dev,hdev,(hwanted dev).mp hw,rfl,
        .inr ⟨receive,(matcherOf_eq_some hdev).mp hr,hs,rfl⟩⟩
    · obtain ⟨hdev,hfull⟩ := List.mem_filter.mp hdev
      obtain ⟨rfl,rfl⟩ := Prod.mk.inj h
      obtain ⟨hrole,hw⟩ := Bool.and_eq_true_iff.mp hfull
      exact ⟨dev,hdev,(hwanted dev).mp hw,rfl,.inl ⟨of_decide_eq_true hrole,rfl⟩⟩
  · rintro ⟨dev,hdev,hw,rfl,⟨hrole,rfl⟩|⟨receive,hr,hs,rfl⟩⟩
    · refine .inr ⟨dev,List.mem_filter.mpr ⟨hdev,?_⟩,rfl⟩
      exact Bool.and_eq_true_iff.mpr ⟨decide_eq_true hrole,(hwanted dev).mpr hw⟩
    · refine .inl ⟨dev,hdev,?_⟩
      rw [entryOf,(matcherOf_eq_some hdev).mpr hr,Option.bind_some,(hwanted dev).mpr hw,hs]
      rfl

/-- With distinct devices, each is listed once. -/
theorem nodup_eligibleDevices
    (hnd : (input.directory.devices.map DeviceDirectoryEntry.device_id).Nodup) :
    ((eligibleDevices lc input).map Prod.snd).Nodup := by
  have hentry : ∀ devices : List DeviceDirectoryEntry,
      ((devices.filterMap (entryOf lc input)).map Prod.snd).Sublist
        ((devices.filter fun dev => !decide (dev.role = fullAccess)).map
          DeviceDirectoryEntry.device_id) := by
    intro devices
    induction devices with
    | nil => exact List.Sublist.refl _
    | cons dev devices ih =>
      rw [List.filterMap_cons,List.filter_cons]
      by_cases hrole : dev.role = fullAccess
      · have hnone : entryOf lc input dev = none := by simp [entryOf,matcherOf,hrole]
        simpa [hnone,hrole] using ih
      · cases he : entryOf lc input dev with
        | none => simpa [hrole] using ih.cons dev.device_id
        | some p =>
          have hid : p.2 = dev.device_id := by
            obtain ⟨receive,-,he⟩ := Option.bind_eq_some_iff.mp he
            split_ifs at he
            cases he
            rfl
          simpa [hrole,hid] using ih.cons_cons dev.device_id
  have hfull : ((input.directory.devices.filter (isFull input)).map
      DeviceDirectoryEntry.device_id).Sublist
      ((input.directory.devices.filter fun dev => decide (dev.role = fullAccess)).map
        DeviceDirectoryEntry.device_id) := by
    refine List.Sublist.map _ (List.monotone_filter_right _ fun dev hdev => ?_)
    exact (Bool.and_eq_true_iff.mp hdev).1
  have hperm : (input.directory.devices.map DeviceDirectoryEntry.device_id).Perm
      ((input.directory.devices.filter fun dev => decide (dev.role = fullAccess)).map
          DeviceDirectoryEntry.device_id++
        (input.directory.devices.filter fun dev => !decide (dev.role = fullAccess)).map
          DeviceDirectoryEntry.device_id) := by
    rw [← List.map_append]
    exact (List.filter_append_perm _ _).symm.map _
  have hids := hperm.nodup_iff.mp hnd
  have hswap := List.perm_append_comm.nodup_iff.mp hids
  rw [eligibleDevices_eq,List.map_append,List.map_map]
  exact hswap.sublist ((hentry _).append hfull)

end Devices

/-- The group of a stage. -/
def stageGroup (lc : Locale) (input : PartitionInput) (s : Number) : StagedHeldStage Number :=
  ⟨s,sortIds (Grouping.valuesOf (eligibleDevices lc input) s),[]⟩

/-- The stages in their order. -/
def stageNumbers (lc : Locale) (input : PartitionInput) : List Number :=
  ((Grouping.group (eligibleDevices lc input)).map Prod.fst).insertionSort StageLe

theorem partitionStages_eq :
    partitionStages lc input = (stageNumbers lc input).map (stageGroup lc input) := by
  have hgrouped := Grouping.grouped_group (eligibleDevices lc input)
  unfold partitionStages
  dsimp only
  split_ifs with hnil
  · rw [stageNumbers,hnil]
    rfl
  · exact List.map_congr_left fun s _ => by rw [stageGroup,hgrouped.get]

theorem mem_stageNumbers {s : Number} :
    s ∈ stageNumbers lc input ↔ ∃ id, (s,id) ∈ eligibleDevices lc input := by
  rw [stageNumbers,List.mem_insertionSort]
  exact (Grouping.grouped_group (eligibleDevices lc input)).keys s

theorem mem_stageGroup {s : Number} {id : JsString} :
    id ∈ (stageGroup lc input s).pending_device_ids ↔ (s,id) ∈ eligibleDevices lc input := by
  rw [stageGroup,sortIds,List.mem_insertionSort,Grouping.mem_valuesOf]

/-- A device is listed at a stage of the partition exactly with that stage. -/
theorem mem_partitionStages {st : StagedHeldStage Number} {id : JsString}
    (hst : st ∈ partitionStages lc input) :
    id ∈ st.pending_device_ids ↔ (st.stage,id) ∈ eligibleDevices lc input := by
  rw [partitionStages_eq] at hst
  obtain ⟨s,-,rfl⟩ := List.mem_map.mp hst
  exact mem_stageGroup

theorem exists_stage {s : Number} {id : JsString} (h : (s,id) ∈ eligibleDevices lc input) :
    ∃ st ∈ partitionStages lc input, st.stage = s ∧ id ∈ st.pending_device_ids := by
  rw [partitionStages_eq]
  exact ⟨_,List.mem_map_of_mem (mem_stageNumbers.mpr ⟨id,h⟩),rfl,mem_stageGroup.mpr h⟩

theorem one_le_stage (h : StagesPositive (matchers input)) {s : Number}
    (hs : s ∈ stageNumbers lc input) : (Number.ofNat 1).le s = true := by
  obtain ⟨id,hid⟩ := mem_stageNumbers.mp hs
  obtain ⟨dev,-,-,-,⟨-,rfl⟩|⟨receive,hr,-,rfl⟩⟩ := mem_eligibleDevices.mp hid
  · exact one_le_lastStage h
  · exact one_le_stageOf (h receive (mem_matchers.mpr ⟨dev,hr⟩))

theorem stageLe_iff {a b : Number} (ha : a.isNaN = false) (hb : b.isNaN = false) :
    StageLe a b ↔ a.place ≤ b.place := by
  rw [StageLe,Number.zero_lt_sub,← Bool.not_eq_true,Number.lt_iff_place hb ha,not_lt]

/-- The stages increase. -/
theorem pairwise_stageNumbers (h : StagesPositive (matchers input)) :
    (stageNumbers lc input).Pairwise fun a b => a.lt b = true := by
  have hone : ∀ s ∈ stageNumbers lc input, (Number.ofNat 1).le s = true :=
    fun s hs => one_le_stage h hs
  have hnan : ∀ s ∈ (Grouping.group (eligibleDevices lc input)).map Prod.fst,
      s.isNaN = false := fun s hs =>
    Number.isNaN_right (hone s ((List.mem_insertionSort StageLe).mpr hs))
  have hsorted : (stageNumbers lc input).Pairwise fun a b => a.place ≤ b.place := by
    rw [← List.pairwise_map (f:=Number.place) (R:=(· ≤ ·)),stageNumbers,
      List.map_insertionSort StageLe (· ≤ ·) Number.place _ fun a ha b hb =>
        stageLe_iff (hnan a ha) (hnan b hb)]
    exact List.pairwise_insertionSort _ _
  have hnodup : (stageNumbers lc input).Nodup :=
    (List.perm_insertionSort StageLe _).nodup_iff.mpr
      (Grouping.grouped_group (eligibleDevices lc input)).nodup
  refine (hsorted.and hnodup).imp_of_mem fun {a b} ha hb hab => ?_
  rw [Number.lt_iff_place (Number.isNaN_right (hone a ha)) (Number.isNaN_right (hone b hb))]
  exact lt_of_le_of_ne hab.1 fun heq => hab.2 (Number.place_inj (hone a ha) (hone b hb) heq)

theorem increasing (h : StagesPositive (matchers input)) :
    (partitionStages lc input).Pairwise fun a b => a.stage.lt b.stage = true := by
  rw [partitionStages_eq,List.pairwise_map]
  exact pairwise_stageNumbers h

theorem nonempty : ∀ st ∈ partitionStages lc input, st.pending_device_ids ≠ [] := by
  intro st hst
  rw [partitionStages_eq] at hst
  obtain ⟨s,hs,rfl⟩ := List.mem_map.mp hst
  obtain ⟨id,hid⟩ := mem_stageNumbers.mp hs
  exact List.ne_nil_of_mem (mem_stageGroup.mpr hid)

theorem no_dispositions {st : StagedHeldStage Number} (hst : st ∈ partitionStages lc input) :
    st.dispositions = [] := by
  rw [partitionStages_eq] at hst
  obtain ⟨s,-,rfl⟩ := List.mem_map.mp hst
  rfl

/-- What `hold` makes of the partition. -/
theorem accepted (h : StagesPositive (matchers input)) (hne : partitionStages lc input ≠ []) :
    ∃ stages, stages.map numbered = partitionStages lc input ∧
      ∀ (s : StagedRunner StageNumber) (f : StagedRunner.Fields StageNumber)
        (envelopeId : JsString), envelopeId ≠ [] → f.heldMap.has envelopeId = false →
          s.checkHold f envelopeId stages = .ok stages := by
  have hone : ∀ st ∈ partitionStages lc input, (Number.ofNat 1).le st.stage = true := by
    intro st hst
    rw [partitionStages_eq] at hst
    obtain ⟨s,hs,rfl⟩ := List.mem_map.mp hst
    exact one_le_stage h hs
  let stages : List (StagedHeldStage StageNumber) := (partitionStages lc input).pmap
    (fun st hst => ⟨⟨st.stage,hst⟩,st.pending_device_ids,st.dispositions⟩) hone
  have hmap : stages.map numbered = partitionStages lc input := by
    simp [stages,List.map_pmap,numbered]
  have hmem : ∀ st ∈ stages, numbered st ∈ partitionStages lc input := fun st hst => by
    rw [← hmap]
    exact List.mem_map_of_mem hst
  have hclean : StagedRunner.clean stages = stages := by
    have hfilter : stages.filter (·.pending_device_ids ≠ []) = stages :=
      List.filter_eq_self.mpr fun st hst => decide_eq_true (nonempty _ (hmem st hst))
    rw [StagedRunner.clean,hfilter]
    refine (List.map_congr_left fun st hst => ?_).trans (List.map_id _)
    have hnil : st.dispositions = [] := no_dispositions (hmem st hst)
    rw [StagedRunner.fresh,← hnil,id]
  refine ⟨stages,hmap,fun s f envelopeId hid hheld => ?_⟩
  rw [StagedRunner.checkHold_eq_ok,hclean]
  refine ⟨hid,rfl,?_,?_,hheld⟩
  · intro hnil
    rw [hnil] at hmap
    exact hne hmap.symm
  · have hlt : (partitionStages lc input).Pairwise fun a b => a.stage.lt b.stage = true :=
      increasing h
    rw [← hmap,List.pairwise_map] at hlt
    exact hlt.imp fun {a b} hab =>
      (Number.lt_iff_place (Number.isNaN_right a.stage.property)
        (Number.isNaN_right b.stage.property)).mp hab

/-- A stage of the full-access devices comes after every delegated one exactly when there is
room for it. -/
theorem lastStage_iff (h : StagesPositive (matchers input)) :
    (∀ dev receive, Delegated input dev receive →
      (stageOf receive).lt (lastStage input) = true) ↔
    (∀ dev receive, ¬ Delegated input dev receive) ∨
      ∃ dev receive stage, Delegated input dev receive ∧ receive.delivery_stage = some stage ∧
        (∀ dev' receive', Delegated input dev' receive' →
          ∀ stage' ∈ receive'.delivery_stage, stage'.le stage = true) ∧
        stage.lt (stage.add (.ofNat 1)) = true := by
  have hg := greatest_tally h
  have hone : ∀ dev receive, Delegated input dev receive →
      (Number.ofNat 1).le (stageOf receive) = true := fun dev receive hd =>
    one_le_stageOf (h receive (mem_matchers.mpr ⟨dev,hd⟩))
  have hset : ∀ dev receive stage, Delegated input dev receive →
      receive.delivery_stage = some stage → stageOf receive = stage := by
    intro dev receive stage hd hs
    have hle := h receive (mem_matchers.mpr ⟨dev,hd⟩) stage hs
    rw [stageOf,hs]
    exact if_neg (by rw [Option.getD_some,Number.not_lt_of_le hle]; exact Bool.false_ne_true)
  unfold lastStage fullAccessStage
  generalize (matchers input).foldl tallyStage (.zero false) = m at hg ⊢
  cases hg with
  | nothing hnone =>
    have hunset : ∀ dev receive, Delegated input dev receive → receive.delivery_stage = none :=
      fun dev receive hd => hnone receive (mem_matchers.mpr ⟨dev,hd⟩)
    rw [if_neg (by rw [zero_lt_zero]; exact Bool.false_ne_true)]
    constructor
    · intro hlt
      refine .inl fun dev receive hd => ?_
      have hnot := Number.not_lt_of_le (hone dev receive hd)
      rw [hlt dev receive hd] at hnot
      cases hnot
    · rintro (hempty|⟨dev,receive,stage,hd,hs,-⟩)
      · exact fun dev receive hd => absurd hd (hempty dev receive)
      · rw [hunset dev receive hd] at hs
        cases hs
  | found r m hr hm hmax =>
    obtain ⟨d,hd⟩ := mem_matchers.mp hr
    have hpos := h r hr m hm
    rw [if_pos (zero_lt_of_one_le hpos)]
    constructor
    · intro hlt
      refine .inr ⟨d,r,m,hd,hm,fun dev' receive' hd' => ?_,?_⟩
      · exact hmax receive' (mem_matchers.mpr ⟨dev',hd'⟩)
      · have hself := hlt d r hd
        rwa [hset d r m hd hm] at hself
    · rintro (hempty|⟨dev,receive,stage,hd',hs,hgreat,hroom⟩)
      · exact absurd hd (hempty d r)
      · have hle := hmax receive (mem_matchers.mpr ⟨dev,hd'⟩) stage hs
        have hge := hgreat d r hd m hm
        obtain rfl : stage = m := Number.place_inj
          (h receive (mem_matchers.mpr ⟨dev,hd'⟩) stage hs) hpos
          (le_antisymm (Number.place_le hle) (Number.place_le hge))
        intro dev' receive' hd'
        refine Number.chain_lt ?_ hroom
        cases hs' : receive'.delivery_stage with
        | none =>
          rw [stageOf,hs',Option.getD_none,if_pos (zero_lt_of_one_le (Number.ofNat_le_ofNat le_rfl))]
          exact hpos
        | some stage' =>
          rw [hset dev' receive' stage' hd' hs']
          exact hgreat dev' receive' hd' stage' hs'

/-- With distinct devices, those at two stages differ. -/
theorem stage_unique (hnd : (input.directory.devices.map DeviceDirectoryEntry.device_id).Nodup)
    {s t : Number} {id : JsString} (hs : (s,id) ∈ eligibleDevices lc input)
    (ht : (t,id) ∈ eligibleDevices lc input) : s = t :=
  congrArg Prod.fst (List.inj_on_of_nodup_map (nodup_eligibleDevices hnd) hs ht rfl)

theorem eligible_iff {id : JsString} :
    (∃ s, (s,id) ∈ eligibleDevices lc input) ↔
      ∃ dev, Eligible lc input dev ∧ dev.device_id = id := by
  constructor
  · rintro ⟨s,hs⟩
    obtain ⟨dev,hdev,hw,rfl,⟨hrole,-⟩|⟨receive,hr,hallow,-⟩⟩ := mem_eligibleDevices.mp hs
    · exact ⟨dev,⟨hdev,hw,.inl hrole⟩,rfl⟩
    · exact ⟨dev,⟨hdev,hw,.inr ⟨receive,hr,hallow⟩⟩,rfl⟩
  · rintro ⟨dev,⟨hdev,hw,hrole|⟨receive,hr,hallow⟩⟩,rfl⟩
    · exact ⟨_,mem_eligibleDevices.mpr ⟨dev,hdev,hw,rfl,.inl ⟨hrole,rfl⟩⟩⟩
    · exact ⟨_,mem_eligibleDevices.mpr ⟨dev,hdev,hw,rfl,.inr ⟨receive,hr,hallow,rfl⟩⟩⟩

/-- A device that is listed with a stage has it by its role. -/
theorem stage_cases (hnd : (input.directory.devices.map DeviceDirectoryEntry.device_id).Nodup)
    {s : Number} {dev : DeviceDirectoryEntry} (hdev : dev ∈ input.directory.devices)
    (h : (s,dev.device_id) ∈ eligibleDevices lc input) :
    dev.device_public_key ∈ input.enclosureRecipients ∧
      ((dev.role = fullAccess ∧ s = lastStage input) ∨
        ∃ receive, Delegated input dev receive ∧ s = stageOf receive) := by
  obtain ⟨dev',hdev',hw,hid,hcase⟩ := mem_eligibleDevices.mp h
  obtain rfl : dev' = dev := List.inj_on_of_nodup_map hnd hdev' hdev hid
  exact ⟨hw,hcase.imp id fun ⟨receive,hr,_,hs⟩ => ⟨receive,hr,hs⟩⟩

/-- The partition is as it should be exactly when the certificates leave a stage for the
full-access devices. -/
theorem wellPartitioned_iff {host : Host}
    (hnd : (input.directory.devices.map DeviceDirectoryEntry.device_id).Nodup)
    (hcert : Certified host input) :
    WellPartitioned lc input (partitionStages lc input) ↔ LeavesRoom input := by
  have hpos := stagesPositive hcert
  constructor
  · intro h
    by_cases hfull : ∃ dev ∈ input.directory.devices, dev.role = fullAccess ∧
        dev.device_public_key ∈ input.enclosureRecipients
    · obtain ⟨dev,hdev,hrole,hw⟩ := hfull
      obtain ⟨st,hst,hs,hid⟩ : ∃ st ∈ partitionStages lc input, _ := exists_stage
        (mem_eligibleDevices.mpr ⟨dev,hdev,hw,rfl,.inl ⟨hrole,rfl⟩⟩)
      refine .inr ((lastStage_iff hpos).mp fun delegate receive hd => ?_)
      rw [← hs]
      exact h.later st hst dev hdev hrole hid delegate receive hd
    · exact .inl fun dev hdev hrole hw => hfull ⟨dev,hdev,hrole,hw⟩
  · intro hroom
    refine {
      increasing := increasing hpos
      nonempty := nonempty
      disjoint := ?_
      accepted := accepted hpos
      exact := ?_
      delegated := ?_
      later := ?_ }
    · refine (increasing hpos).imp_of_mem fun {a b} ha hb hab id hida hidb => ?_
      have heq : a.stage = b.stage :=
        stage_unique hnd ((mem_partitionStages ha).mp hida) ((mem_partitionStages hb).mp hidb)
      have hnan := Number.isNaN_of_lt hab
      rw [Number.lt_iff_place hnan.1 hnan.2,heq] at hab
      exact lt_irrefl _ hab
    · intro id
      rw [← eligible_iff]
      constructor
      · rintro ⟨st,hst,hid⟩
        exact ⟨st.stage,(mem_partitionStages hst).mp hid⟩
      · rintro ⟨s,hs⟩
        obtain ⟨st,hst,-,hid⟩ := exists_stage hs
        exact ⟨st,hst,hid⟩
    · intro st hst dev receive hd hid
      obtain ⟨-,⟨hrole,-⟩|⟨receive',hd',hs⟩⟩ :=
        stage_cases hnd hd.listed ((mem_partitionStages hst).mp hid)
      · exact absurd hrole hd.role
      · have hsame := ((matcherOf_eq_some hd.listed).mpr hd).symm.trans
          ((matcherOf_eq_some hd.listed).mpr hd')
        rw [hs,Option.some.inj hsame]
    · intro st hst dev hdev hrole hid delegate receive hd
      obtain ⟨hw,⟨-,hs⟩|⟨receive',hd',-⟩⟩ :=
        stage_cases hnd hdev ((mem_partitionStages hst).mp hid)
      · rw [hs]
        rcases hroom with hnone|hroom
        · exact absurd hw (hnone dev hdev hrole)
        · exact (lastStage_iff hpos).mpr hroom delegate receive hd
      · exact absurd hrole hd'.role

/-! One full-access device and one delegated device. -/

def openMatcher (deliveryStage : Option Number) : ScopeMatcher :=
  ⟨js "unrestricted",none,none,[],deliveryStage⟩

def sampleCertificate (deliveryStage : Option Number) : DeviceCertificate where
  type := deviceCertificateType
  version := js "1.0.0"
  device_id := js "d"
  device_public_key := js "D"
  account := js "a@b"
  issued_by := js "f"
  issued_at := js "2026-01-01T00:00:00Z"
  expires_at := js "2026-01-02T00:00:00Z"
  scope := ⟨openMatcher none,openMatcher deliveryStage,⟨true,false,[]⟩,⟨true,false,[]⟩,
    ⟨true,false,[]⟩⟩
  signature := ⟨js "ed25519",js "k",js "AA=="⟩

/-- The dates of the certificate. -/
def sampleDates : Host where
  dateParse t :=
    if t = js "2026-01-01T00:00:00Z" then .ofNat 1767225600000
    else if t = js "2026-01-02T00:00:00Z" then .ofNat 1767312000000
    else .nan
  toISOString _ := .ok []

/-- All texts of the sample are lower case. -/
def sampleTexts : Locale := { sampleDates with toLowerCase := id }

def sampleDevice (id key role : String) (certificate : Option JsString) : DeviceDirectoryEntry :=
  ⟨js id,js key,js "ed25519",js role,certificate,js "2026-01-01T00:00:00Z",js id,js "phone"⟩

def sampleInput (deliveryStage : Option Number) : PartitionInput where
  directory := ⟨js "a@b",1,js "2026-01-01T00:00:00Z",
    [sampleDevice "f" "F" "full_access" none,sampleDevice "d" "D" "delegated" (some (js "c"))],
    ⟨js "ed25519",js "k",js "AA=="⟩⟩
  certificateProvider id := if id = js "d" then some (sampleCertificate deliveryStage) else none
  enclosureRecipients := [js "F",js "D"]
  senderAddress := ⟨js "s@x",none⟩

theorem sampleInput_nodup (stage : Option Number) :
    ((sampleInput stage).directory.devices.map DeviceDirectoryEntry.device_id).Nodup := by
  have hids : (sampleInput stage).directory.devices.map DeviceDirectoryEntry.device_id =
    [js "f",js "d"] := rfl
  rw [hids]
  decide

theorem sampleInput_certified {stage : Option Number}
    (h : (validateDeviceCertificate sampleDates (sampleCertificate stage) false).isOk = true) :
    Certified sampleDates (sampleInput stage) := by
  intro id cert hcert
  rw [sampleInput] at hcert
  dsimp only at hcert
  split_ifs at hcert
  cases hcert
  refine ⟨false,?_⟩
  cases hv : validateDeviceCertificate sampleDates (sampleCertificate stage) false with
  | ok u => rfl
  | error err =>
    rw [hv] at h
    cases h

/-- With a stage of its own, the delegated device comes before the other. -/
theorem wellPartitioned_sample : WellPartitioned sampleTexts (sampleInput (some (.ofNat 1)))
      (partitionStages sampleTexts (sampleInput (some (.ofNat 1)))) ↔
    LeavesRoom (sampleInput (some (.ofNat 1))) :=
  wellPartitioned_iff (sampleInput_nodup _) (sampleInput_certified (by decide +kernel))

/-- Without one, both devices are at the first stage. -/
theorem partition_collides : Certified sampleDates (sampleInput none) ∧
    ((sampleInput none).directory.devices.map DeviceDirectoryEntry.device_id).Nodup ∧
    partitionStages sampleTexts (sampleInput none) =
      [⟨.ofNat 1,[js "d",js "f"],[]⟩] ∧
    ¬ WellPartitioned sampleTexts (sampleInput none)
      (partitionStages sampleTexts (sampleInput none)) := by
  have hout : partitionStages sampleTexts (sampleInput none) =
      [⟨.ofNat 1,[js "d",js "f"],[]⟩] := by decide +kernel
  refine ⟨sampleInput_certified (by decide +kernel),sampleInput_nodup none,hout,fun h => ?_⟩
  rw [hout] at h
  have hdelegated : Delegated (sampleInput none)
      (sampleDevice "d" "D" "delegated" (some (js "c"))) (openMatcher none) :=
    ⟨by simp [sampleInput],by decide,⟨sampleCertificate none,rfl,rfl⟩,by decide⟩
  have hlater := h.later _ (List.mem_singleton.mpr rfl) (sampleDevice "f" "F" "full_access" none)
    (by simp [sampleInput]) rfl (by simp [sampleDevice]) _ _ hdelegated
  exact absurd hlater (by decide +kernel)

end Semp.StagePartition
