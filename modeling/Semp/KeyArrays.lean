import Semp.Session
import Semp.Tasks

/-! The key arrays of a session as arrays that are written to, so that whoever kept a reference
sees the zeros, and the calls of the session in any order. -/
namespace Semp
namespace KeyArrays
open Handshake Tasks

/-- The keys of a session, each by the number of its array. -/
structure KeyRefs where
  encC2S : ℕ
  encS2C : ℕ
  macC2S : ℕ
  macS2C : ℕ
  envMAC : ℕ
  resumption : Option ℕ
  deriving DecidableEq, Repr

/-- In the order in which they are zeroed. -/
def KeyRefs.arrays (k : KeyRefs) : List ℕ :=
  [k.encC2S,k.encS2C,k.macC2S,k.macS2C,k.envMAC]++k.resumption.toList

/-- The fields of a session that its calls write to, and what the arrays hold. -/
structure Fields where
  sessionId : Option Json
  keys : Option KeyRefs
  closed : Bool
  heap : List Bytes

/-- Arrays that nobody has yet. -/
def allocate (k : SessionKeys) (heap : List Bytes) : KeyRefs × List Bytes :=
  let n := heap.length
  (⟨n,n+1,n+2,n+3,n+4,k.resumption.map fun _ => n+5⟩,
    heap++([k.encC2S,k.encS2C,k.macC2S,k.macS2C,k.envMAC]++k.resumption.toList))

def zeroArray (heap : List Bytes) (b : ℕ) : List Bytes := heap.modify b zero

def zeroKeys (heap : List Bytes) (k : KeyRefs) : List Bytes := k.arrays.foldl zeroArray heap

def applyRekey (newSessionId : Option Json) (newKeys : SessionKeys) (s : Fields) : Js Fields := do
  let prev ← need s.keys (js "session: applyRekey after erase")
  require (s.closed = false) (js "session: applyRekey on closed session")
  let (refs,heap) := allocate newKeys s.heap
  .ok {s with keys := some refs,sessionId := newSessionId,heap := zeroKeys heap prev}

/-- What `erase` does once the session is closed. -/
def eraseKeys (s : Fields) : Fields :=
  match s.keys with
  | none => s
  | some k => {s with keys := none,heap := zeroKeys s.heap k}

/-- The getter `keys`. -/
def liveKeys (s : Fields) : Js KeyRefs := need s.keys (js "session: keys have been erased")

inductive Op
  | send (message : Bytes)
  | receive
  | applyRekey (newSessionId : Option Json) (newKeys : SessionKeys)
  | close
  | erase

/-- What a call waits for. -/
inductive Waiting
  | sending
  | receiving
  | closing
  | erasing
  deriving DecidableEq, Repr

/-- What a promise of the transport comes to; one that throws at once does so when the call
starts. -/
inductive Event
  | pending
  | resolves (message : Option Bytes)
  | throws (err : Thrown)

def closedError : Js (Option Bytes) := raise (js "session: closed")

/-- A call of the transport. -/
def begun (t : Waiting) : Event → Stage Waiting (Js (Option Bytes))
  | .throws err => .done (.error err)
  | _ => .awaiting t

/-- A call of the transport whose error is caught. -/
def swallowed (t : Waiting) : Event → Stage Waiting (Js (Option Bytes))
  | .throws _ => .done (.ok none)
  | _ => .awaiting t

def start : Op → Event → Fields → Stage Waiting (Js (Option Bytes)) × Fields
  | .send _,v,s => if s.closed then (.done closedError,s) else (begun .sending v,s)
  | .receive,v,s => if s.closed then (.done closedError,s) else (begun .receiving v,s)
  | .applyRekey newSessionId newKeys,_,s =>
    match applyRekey newSessionId newKeys s with
    | .error err => (.done (.error err),s)
    | .ok s' => (.done (.ok none),s')
  | .close,v,s =>
    if s.closed then (.done (.ok none),s) else (swallowed .closing v,{s with closed := true})
  -- `close()` has come to its own `await`, or has returned; either way the call waits.
  | .erase,_,s => (.awaiting .erasing,{s with closed := true})

def resume : Waiting → Event → Fields → Stage Waiting (Js (Option Bytes)) × Fields
  | t,.pending,s => (.awaiting t,s)
  | .sending,.resolves _,s => (.done (.ok none),s)
  | .receiving,.resolves message,s => (.done (.ok message),s)
  | .sending,.throws err,s | .receiving,.throws err,s => (.done (.error err),s)
  | .closing,_,s => (.done (.ok none),s)
  | .erasing,_,s => (.done (.ok none),eraseKeys s)

abbrev Live := World Fields Op Waiting (Js (Option Bytes))

def session : Object Fields Op Waiting Event (Js (Option Bytes)) := ⟨start,resume⟩

/-- A session that was just opened. -/
def opened (sessionId : Option Json) (keys : SessionKeys) : Live :=
  ⟨⟨sessionId,some (allocate keys []).1,false,(allocate keys []).2⟩,[]⟩

/-- The array is there and all its bytes are zero. -/
def ZeroAt (heap : List Bytes) (i : ℕ) : Prop := ∃ b, heap[i]? = some b ∧ ∀ x ∈ b, x = 0

/-- All the arrays are all-zero. -/
def Zeroed (heap : List Bytes) (k : KeyRefs) : Prop := ∀ i ∈ k.arrays, ZeroAt heap i

section Heap
variable {heap : List Bytes} {i j : ℕ} {k : KeyRefs}

theorem ZeroAt.zeroArray (h : ZeroAt heap i) (j : ℕ) : ZeroAt (zeroArray heap j) i := by
  obtain ⟨b,hb,hzero⟩ := h
  rw [ZeroAt,KeyArrays.zeroArray,List.getElem?_modify,hb]
  by_cases hj : j = i
  · exact ⟨zero b,by simp [hj],fun x hx => (List.mem_replicate.mp hx).2⟩
  · exact ⟨b,by simp [hj],hzero⟩

theorem zeroAt_self (h : i < heap.length) : ZeroAt (zeroArray heap i) i := by
  rw [ZeroAt,zeroArray,List.getElem?_modify,List.getElem?_eq_getElem h]
  exact ⟨zero heap[i],by simp,fun x hx => (List.mem_replicate.mp hx).2⟩

theorem ZeroAt.append (h : ZeroAt heap i) (more : List Bytes) : ZeroAt (heap++more) i := by
  obtain ⟨b,hb,hzero⟩ := h
  exact ⟨b,(List.getElem?_append_left (List.getElem?_eq_some_iff.mp hb).1).trans hb,hzero⟩

theorem length_zeroArray (heap : List Bytes) (i : ℕ) :
    (zeroArray heap i).length = heap.length := List.length_modify ..

theorem length_zeroAll (is : List ℕ) (heap : List Bytes) :
    (is.foldl zeroArray heap).length = heap.length := by
  induction is generalizing heap with
  | nil => rfl
  | cons i is ih => rw [List.foldl_cons,ih,length_zeroArray]

theorem ZeroAt.zeroAll (h : ZeroAt heap i) (is : List ℕ) :
    ZeroAt (is.foldl KeyArrays.zeroArray heap) i := by
  induction is generalizing heap with
  | nil => exact h
  | cons j is ih => exact ih (h.zeroArray j)

theorem zeroAll_spec {is : List ℕ} (h : ∀ i ∈ is, i < heap.length) :
    ∀ i ∈ is, ZeroAt (is.foldl zeroArray heap) i := by
  induction is generalizing heap with
  | nil => exact nofun
  | cons j is ih =>
    obtain ⟨hj,his⟩ := List.forall_mem_cons.mp h
    refine List.forall_mem_cons.mpr ⟨(zeroAt_self hj).zeroAll is,ih fun i hi => ?_⟩
    rw [length_zeroArray]
    exact his i hi

theorem arrays_allocate (k : SessionKeys) (heap : List Bytes) :
    ∀ i ∈ (allocate k heap).1.arrays, i < (allocate k heap).2.length := by
  intro i hi
  cases hr : k.resumption with
  | none =>
    simp [allocate,hr,KeyRefs.arrays] at hi ⊢
    omega
  | some r =>
    simp [allocate,hr,KeyRefs.arrays] at hi ⊢
    omega

end Heap

/-- The keys of the session are arrays that are there. -/
def Owned (s : Fields) : Prop := ∀ k, s.keys = some k → ∀ i ∈ k.arrays, i < s.heap.length

/-- What any call leaves as it was: arrays of zeros, that the session is closed, that its keys
are erased. -/
structure Keeps (s s' : Fields) : Prop where
  owned : Owned s → Owned s'
  zeroAt : ∀ i, ZeroAt s.heap i → ZeroAt s'.heap i
  closed : s.closed = true → s'.closed = true
  erased : s.keys = none → s'.keys = none

section Steps
variable {s s' s'' : Fields}

theorem Keeps.refl (s : Fields) : Keeps s s := ⟨id,fun _ => id,id,id⟩

theorem Keeps.trans (h : Keeps s s') (h' : Keeps s' s'') : Keeps s s'' :=
  ⟨h'.owned ∘ h.owned,fun i hi => h'.zeroAt i (h.zeroAt i hi),h'.closed ∘ h.closed,
    h'.erased ∘ h.erased⟩

theorem keeps_close (s : Fields) : Keeps s {s with closed := true} :=
  ⟨id,fun _ => id,fun _ => rfl,id⟩

theorem applyRekey_eq_ok {newSessionId : Option Json} {newKeys : SessionKeys} :
    applyRekey newSessionId newKeys s = .ok s' ↔ s.closed = false ∧ ∃ prev, s.keys = some prev ∧
      s' = {s with
        keys := some (allocate newKeys s.heap).1
        sessionId := newSessionId
        heap := zeroKeys (allocate newKeys s.heap).2 prev} := by
  simp only [applyRekey,bind_eq_ok,need_eq_ok,require_eq_ok,exists_const,Except.ok.injEq,
    eq_comm (b:=s')]
  constructor
  · rintro ⟨prev,hk,hc,h⟩
    exact ⟨hc,prev,hk,h⟩
  · rintro ⟨hc,prev,hk,h⟩
    exact ⟨prev,hk,hc,h⟩

/-- The arrays of the keys before are zeroed. -/
theorem keeps_applyRekey {newSessionId : Option Json} {newKeys : SessionKeys}
    (h : applyRekey newSessionId newKeys s = .ok s') :
    Keeps s s' ∧ (Owned s → ∀ k, s.keys = some k → Zeroed s'.heap k) := by
  obtain ⟨hopen,prev,hprev,rfl⟩ := applyRekey_eq_ok.mp h
  refine ⟨⟨fun _ k hk i hi => ?_,fun i hi => (hi.append _).zeroAll _,fun hc => ?_,fun hn => ?_⟩,
    fun howned k hk => ?_⟩
  · obtain rfl := Option.some.inj hk
    rw [zeroKeys,length_zeroAll]
    exact arrays_allocate newKeys s.heap i hi
  · rw [hopen] at hc
    cases hc
  · rw [hprev] at hn
    cases hn
  · obtain rfl := Option.some.inj (hprev.symm.trans hk)
    refine zeroAll_spec fun i hi => ?_
    rw [allocate,List.length_append]
    exact Nat.lt_add_right _ (howned prev hprev i hi)

theorem keeps_eraseKeys (s : Fields) :
    Keeps s (eraseKeys s) ∧ (Owned s → ∀ k, s.keys = some k → Zeroed (eraseKeys s).heap k) ∧
      (eraseKeys s).keys = none := by
  cases hk : s.keys with
  | none =>
    have hsame : eraseKeys s = s := by rw [eraseKeys,hk]
    rw [hsame]
    exact ⟨.refl s,fun _ k h => (nomatch h),hk⟩
  | some prev =>
    rw [eraseKeys,hk]
    refine ⟨⟨fun _ k h => (nomatch h),fun i hi => hi.zeroAll _,id,fun _ => rfl⟩,
      fun howned k h => ?_,rfl⟩
    obtain rfl := Option.some.inj h
    exact zeroAll_spec (howned _ hk)

theorem keeps_start (op : Op) (v : Event) (s : Fields) : Keeps s (start op v s).2 := by
  cases op with
  | send message =>
    rw [start]
    split <;> exact .refl s
  | receive =>
    rw [start]
    split <;> exact .refl s
  | applyRekey newSessionId newKeys =>
    rw [start]
    cases h : applyRekey newSessionId newKeys s with
    | error err => exact .refl s
    | ok s' => exact (keeps_applyRekey h).1
  | close =>
    rw [start]
    split
    · exact .refl s
    · exact keeps_close s
  | erase => exact keeps_close s

theorem keeps_resume (t : Waiting) (v : Event) (s : Fields) : Keeps s (resume t v s).2 := by
  cases t <;> cases v
  case erasing.resolves | erasing.throws => exact (keeps_eraseKeys s).1
  all_goals exact .refl s

/-- A call that starts on a closed session fails at once. -/
theorem start_closed (h : s.closed = true) {op : Op} (hop : op ≠ .close) (hop' : op ≠ .erase)
    (v : Event) : ∃ err, (start op v s).1 = .done (.error err) := by
  cases op with
  | send message => exact ⟨_,by rw [start,if_pos h]; rfl⟩
  | receive => exact ⟨_,by rw [start,if_pos h]; rfl⟩
  | applyRekey newSessionId newKeys =>
    rw [start]
    cases hr : applyRekey newSessionId newKeys s with
    | error err => exact ⟨err,rfl⟩
    | ok s' =>
      rw [(applyRekey_eq_ok.mp hr).1] at h
      cases h
  | close => exact absurd rfl hop
  | erase => exact absurd rfl hop'

end Steps

/-- What the arrays hold. -/
def contents (heap : List Bytes) (k : KeyRefs) : Option SessionKeys := do
  let encC2S ← heap[k.encC2S]?
  let encS2C ← heap[k.encS2C]?
  let macC2S ← heap[k.macC2S]?
  let macS2C ← heap[k.macS2C]?
  let envMAC ← heap[k.envMAC]?
  match k.resumption with
  | none => some ⟨encC2S,encS2C,macC2S,macS2C,envMAC,none⟩
  | some r => (heap[r]?).map fun b => ⟨encC2S,encS2C,macC2S,macS2C,envMAC,some b⟩

/-- The fields are those of a session whose keys are values. -/
structure Shows (f : Fields) (s : Session) : Prop where
  owned : Owned f
  sessionId : f.sessionId = s.sessionId
  closed : f.closed = s.closed
  keys : f.keys.map (contents f.heap) = s.keys.map some

section Values
variable {f f' : Fields} {s : Session} {heap heap' : List Bytes}

theorem contents_congr {k : KeyRefs} (h : ∀ i ∈ k.arrays, heap'[i]? = heap[i]?) :
    contents heap' k = contents heap k := by
  have hat {i : ℕ} (hi : i ∈ [k.encC2S,k.encS2C,k.macC2S,k.macS2C,k.envMAC]) :
      heap'[i]? = heap[i]? := h i (List.mem_append_left _ hi)
  unfold contents
  rw [hat (i:=k.encC2S) (by simp),hat (i:=k.encS2C) (by simp),hat (i:=k.macC2S) (by simp),
    hat (i:=k.macS2C) (by simp),hat (i:=k.envMAC) (by simp)]
  cases hr : k.resumption with
  | none => rfl
  | some r =>
    have hlast : heap'[r]? = heap[r]? := h r (List.mem_append_right _ (by rw [hr]; simp))
    simp only [hlast]

theorem contents_allocate (keys : SessionKeys) (heap : List Bytes) :
    contents (allocate keys heap).2 (allocate keys heap).1 = some keys := by
  obtain ⟨encC2S,encS2C,macC2S,macS2C,envMAC,_ | r⟩ := keys <;>
    simp [contents,allocate,List.getElem?_append_right]

/-- The other arrays are left as they are. -/
theorem getElem?_zeroAll {is : List ℕ} {i : ℕ} (h : i ∉ is) (heap : List Bytes) :
    (is.foldl zeroArray heap)[i]? = heap[i]? := by
  induction is generalizing heap with
  | nil => rfl
  | cons j is ih =>
    rw [List.mem_cons,not_or] at h
    rw [List.foldl_cons,ih h.2,zeroArray,List.getElem?_modify]
    simp only [if_neg (Ne.symm h.1)]
    exact id_map _

theorem le_arrays_allocate (keys : SessionKeys) (heap : List Bytes) :
    ∀ i ∈ (allocate keys heap).1.arrays, heap.length ≤ i := by
  intro i hi
  cases hr : keys.resumption with
  | none =>
    simp [allocate,hr,KeyRefs.arrays] at hi
    omega
  | some r =>
    simp [allocate,hr,KeyRefs.arrays] at hi
    omega

/-- A rekey of the arrays is one of the values. -/
theorem Shows.applyRekey (h : Shows f s) (newSessionId : Option Json) (newKeys : SessionKeys) :
    (∀ f', KeyArrays.applyRekey newSessionId newKeys f = .ok f' →
      ∃ s', s.applyRekey ⟨newSessionId,newKeys⟩ = .ok s' ∧ Shows f' s') ∧
    ∀ err, KeyArrays.applyRekey newSessionId newKeys f = .error err →
      s.applyRekey ⟨newSessionId,newKeys⟩ = .error err := by
  have hkeys := h.keys
  cases hk : s.keys with
  | none =>
    rw [hk,Option.map_none,Option.map_eq_none_iff] at hkeys
    simp only [KeyArrays.applyRekey,Session.applyRekey,hkeys,hk]
    exact ⟨fun _ hok => (by cases hok),fun err herr =>
      congrArg Except.error (Except.error.inj herr)⟩
  | some v =>
    rw [hk] at hkeys
    obtain ⟨k,hf,-⟩ := Option.map_eq_some_iff.mp hkeys
    cases hc : s.closed with
    | true =>
      simp only [KeyArrays.applyRekey,Session.applyRekey,hf,hk,h.closed,hc]
      exact ⟨fun _ hok => (by cases hok),fun err herr =>
      congrArg Except.error (Except.error.inj herr)⟩
    | false =>
      refine ⟨fun f' hok => ?_,fun err herr => ?_⟩
      · have hs : s.applyRekey ⟨newSessionId,newKeys⟩ = .ok {s with
            keys := some newKeys
            sessionId := newSessionId
            retired := s.retired++[v.zeroed]} := by
          simp only [Session.applyRekey,hk,hc]
          rfl
        refine ⟨_,hs,?_⟩
        have howned := (keeps_applyRekey hok).1.owned h.owned
        obtain ⟨-,prev,hprev,rfl⟩ := applyRekey_eq_ok.mp hok
        refine ⟨howned,rfl,h.closed,?_⟩
        -- The arrays that are zeroed come before the new ones.
        have hframe : contents (zeroKeys (allocate newKeys f.heap).2 prev)
            (allocate newKeys f.heap).1 = some newKeys := by
          rw [← contents_allocate newKeys f.heap]
          refine contents_congr fun i hi => getElem?_zeroAll (fun hmem => ?_) _
          exact absurd (h.owned prev hprev i hmem) (not_lt.mpr (le_arrays_allocate newKeys _ i hi))
        exact congrArg some hframe
      · simp only [KeyArrays.applyRekey,hf,h.closed,hc] at herr
        cases herr

/-- So is an erase. -/
theorem Shows.erase (h : Shows f s) : Shows (eraseKeys {f with closed := true}) s.erase := by
  have hclosed : Shows {f with closed := true} s.closeSession :=
    ⟨h.owned,h.sessionId,rfl,h.keys⟩
  have hkeys := h.keys
  cases hk : s.keys with
  | none =>
    rw [hk,Option.map_none,Option.map_eq_none_iff] at hkeys
    rw [eraseKeys,Session.erase,hk]
    simp only [hkeys]
    exact hkeys ▸ hclosed
  | some v =>
    rw [hk] at hkeys
    obtain ⟨k,hf,-⟩ := Option.map_eq_some_iff.mp hkeys
    rw [eraseKeys,Session.erase,hk]
    simp only [hf]
    refine ⟨fun k hk => ?_,h.sessionId,rfl,rfl⟩
    cases hk

end Values

/-- Nothing is asked of a step. -/
abbrev Any : Live → Act Op Event → Prop := fun _ _ => True

/-- An erase waits to erase. -/
def ErasesLast (w : Live) : Prop := Every (fun op t => op = .erase → t = .erasing) w

section Runs
variable {w w' w'' : Live}

theorem keeps_step {a : Act Op Event} (h : step session w a = some w') :
    Keeps w.fields w'.fields :=
  step_cases h (C:=fun _ w' => Keeps w.fields w'.fields) (fun c v => keeps_start c v w.fields)
    fun _ v _ t _ => keeps_resume t v w.fields

theorem keeps_run (h : Reached session Any w w') : Keeps w.fields w'.fields :=
  h.inv (I:=fun u => Keeps w.fields u.fields) (.refl _) fun _ _ _ hu _ hs =>
    hu.trans (keeps_step hs)

theorem owned_opened (sessionId : Option Json) (keys : SessionKeys) :
    Owned (opened sessionId keys).fields := by
  intro k hk
  obtain rfl := Option.some.inj hk
  exact arrays_allocate keys []

theorem resume_stage (t : Waiting) (v : Event) (s : Fields) :
    (resume t v s).1 = .awaiting t ∨ ∃ r, (resume t v s).1 = .done r := by
  cases t <;> cases v
  all_goals first | exact .inl rfl | exact .inr ⟨_,rfl⟩

theorem erasesLast_step {a : Act Op Event} (hw : ErasesLast w) (h : step session w a = some w') :
    ErasesLast w' := by
  refine step_cases h (C:=fun _ w' => ErasesLast w')
    (fun c v => hw.started c ?_) fun i v c t hi => hw.resumed i c ?_
  · cases hc : (session.start c v w.fields).1 with
    | done r => exact all_done _ r
    | awaiting t =>
      intro hop
      subst hop
      cases hc
      rfl
  · obtain ht | ⟨r,hr⟩ := resume_stage t v w.fields
    · change ((resume t v w.fields).1).All _
      rw [ht]
      exact hw i c t hi
    · change ((resume t v w.fields).1).All _
      rw [hr]
      exact all_done _ r

theorem erasesLast_run {sessionId : Option Json} {keys : SessionKeys}
    (h : Reached session Any (opened sessionId keys) w) : ErasesLast w :=
  h.inv (fun i c t hi => by simp [opened] at hi) fun _ _ _ hu _ hs => erasesLast_step hu hs

end Runs

/-- What holds after a step of a run, whatever follows it. -/
structure Hygiene (w : Live) (a : Act Op Event) (w' w'' : Live) : Prop where
  /-- The arrays that a rekey replaced are all-zero. -/
  replaced : ∀ newSessionId newKeys v, a = .start (.applyRekey newSessionId newKeys) v →
    (session.start (.applyRekey newSessionId newKeys) v w.fields).1 = .done (.ok none) →
    ∃ prev, w.fields.keys = some prev ∧ Zeroed w''.fields.heap prev
  /-- Those that are there when an erase completes are, and the getter throws. -/
  erased : ∀ i v t r, a = .resume i v → w.calls[i]? = some ⟨.erase,.awaiting t⟩ →
    w'.calls[i]? = some ⟨.erase,.done r⟩ →
    (∀ k, w.fields.keys = some k → Zeroed w''.fields.heap k) ∧
      liveKeys w''.fields = raise (js "session: keys have been erased")
  /-- What is started after a close fails at once. -/
  closed : ∀ v, a = .start .close v ∨ a = .start .erase v → ∀ op v', op ≠ .close → op ≠ .erase →
    ∃ err, (session.start op v' w''.fields).1 = .done (.error err)

/-- In every run the keys of a session are handled so. -/
theorem hygiene_run (sessionId : Option Json) (keys : SessionKeys) {w w' w'' : Live}
    {a : Act Op Event} (h : Reached session Any (opened sessionId keys) w)
    (hs : step session w a = some w') (h' : Reached session Any w' w'') :
    Hygiene w a w' w'' := by
  have howned := (keeps_run h).owned (owned_opened sessionId keys)
  have hkeeps := keeps_run h'
  refine ⟨?_,?_,?_⟩
  · rintro newSessionId newKeys v rfl hdone
    cases hr : applyRekey newSessionId newKeys w.fields with
    | error err =>
      change (start _ _ _).1 = _ at hdone
      rw [start,hr] at hdone
      cases hdone
    | ok s' =>
      obtain ⟨-,prev,hprev,-⟩ := applyRekey_eq_ok.mp hr
      have hfields : w'.fields = s' := by
        obtain rfl := Option.some.inj hs
        change (start _ _ _).2 = _
        rw [start,hr]
      refine ⟨prev,hprev,fun i hi => hkeeps.zeroAt i ?_⟩
      rw [hfields]
      exact (keeps_applyRekey hr).2 howned prev hprev i hi
  · rintro i v t r rfl hi hdone
    obtain rfl := erasesLast_run h i _ t hi rfl
    obtain ⟨c,t',hi',rfl⟩ := step_resume.mp hs
    obtain ⟨rfl,ht⟩ := Call.mk.inj (Option.some.inj (hi.symm.trans hi'))
    obtain rfl := Stage.awaiting.inj ht
    obtain ⟨-,hzero,hnone⟩ := keeps_eraseKeys w.fields
    have hlt : i < w.calls.length := (List.getElem?_eq_some_iff.mp hi).1
    -- The call has ended, so the promise it waited for had come to something.
    have herase : (resume .erasing v w.fields).2 = eraseKeys w.fields := by
      cases v with
      | pending =>
        rw [World.resumed,List.getElem?_set_self hlt] at hdone
        cases hdone
      | _ => rfl
    have hfields : (w.resumed i .erase (session.resume .erasing v w.fields)).fields =
        eraseKeys w.fields := herase
    rw [hfields] at hkeeps
    refine ⟨fun k hk j hj => hkeeps.zeroAt j (hzero howned k hk j hj),?_⟩
    rw [liveKeys,hkeeps.erased hnone]
    rfl
  · intro v ha op v' hop hop'
    refine start_closed (hkeeps.closed ?_) hop hop' v'
    obtain rfl | rfl := ha
    · obtain rfl := Option.some.inj hs
      change (start .close v w.fields).2.closed = true
      rw [start]
      split_ifs with hc
      · exact hc
      · rfl
    · obtain rfl := Option.some.inj hs
      rfl

def sampleKeys (b : UInt8) : SessionKeys :=
  let key := List.replicate 32 b
  ⟨key,key,key,key,key,some key⟩

/-- A rekey, and an erase after it. -/
theorem hygiene_sample : ∃ w' w'', w''.fields.keys = none ∧
    Hygiene (opened none (sampleKeys 1)) (.start (.applyRekey none (sampleKeys 2)) .pending) w'
      w'' :=
  ⟨_,_,rfl,hygiene_run none (sampleKeys 1) .refl rfl
    ((Reached.refl.tail (a:=.start .erase .pending) trivial rfl).tail
      (a:=.resume 1 (.resolves none)) trivial rfl)⟩

end KeyArrays
end Semp
