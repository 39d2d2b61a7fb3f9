import Mathlib.Data.List.DropRight
import Semp.History
import Semp.PipelineRun

/-! An inbox while pipelines put envelopes into it and its owners empty their queues.  A queue
that is full drops its oldest payload. -/
namespace Semp

namespace Inbox

/-- The key of a queue that belongs to this address. -/
def isOf (address : JsString) (key : Json) : Bool := sameKey (.str address) key

/-- `this.queues.get(address) ?? []` -/
def held (inbox : Inbox) (address : JsString) : List Bytes :=
  ((inbox.queues.find? fun q => isOf address q.1).map Prod.snd).getD []

def drain (inbox : Inbox) (address : JsString) : List Bytes × Inbox :=
  (inbox.held address,{inbox with queues := inbox.queues.filter fun q => !isOf address q.1})

def pending (inbox : Inbox) (address : JsString) : ℕ := (inbox.held address).length

theorem isOf_iff {address : JsString} {key : Json} :
    isOf address key = true ↔ key = .str address := by
  cases key <;> simp [isOf,sameKey,strictEq]
  exact eq_comm

theorem sameKey_str {key : Json} {address : JsString} :
    sameKey key (.str address) = true ↔ key = .str address := by
  cases key <;> simp [sameKey,strictEq]

theorem new_maxDepth_pos (maxDepth : ℤ) : 0 < (new maxDepth).maxDepth := by
  rw [new]
  dsimp only
  split_ifs
  · decide
  · omega

theorem store_maxDepth {inbox inbox' : Inbox} {key : Json} {payload : Bytes}
    (h : inbox.store key payload = .ok inbox') : inbox'.maxDepth = inbox.maxDepth := by
  rw [store] at h
  split_ifs at h
  · cases h
  · cases h
    rfl
  · cases h
    rfl

theorem append_rtake {depth : ℕ} (h : 0 < depth) (payloads : List Bytes) (payload : Bytes) :
    append depth (payloads.rtake depth) payload = (payloads++[payload]).rtake depth := by
  obtain ⟨n,rfl⟩ := Nat.exists_eq_succ_of_ne_zero h.ne'
  rw [List.rtake_concat_succ,append]
  congr 1
  rw [List.rtake,List.length_drop,List.rtake]
  split_ifs with hle
  · rw [List.tail_drop]
    congr 1
    omega
  · congr 1
    omega

/-- The queue of an address after a store: one payload more when the store was for it. -/
theorem held_store {inbox inbox' : Inbox} {key : Json} {payload : Bytes}
    (h : inbox.store key payload = .ok inbox') (address : JsString) : inbox'.held address =
      if isOf address key then append inbox.maxDepth (inbox.held address) payload
      else inbox.held address := by
  have hsame : ∀ q : Json × List Bytes, isOf address q.1 = true →
      sameKey key q.1 = isOf address key := by
    intro q hq
    rw [isOf_iff.mp hq,Bool.eq_iff_iff,sameKey_str,isOf_iff]
  rw [store] at h
  split_ifs at h with hempty hany
  · cases h
  · obtain rfl := Except.ok.inj h
    have hkeys : (fun q : Json × List Bytes => isOf address q.1) ∘ (fun q =>
        if sameKey key q.1 then (q.1,append inbox.maxDepth q.2 payload) else q) =
        fun q => isOf address q.1 := by
      funext q
      dsimp only [Function.comp]
      split_ifs <;> rfl
    simp only [held,List.find?_map,hkeys]
    cases hq : inbox.queues.find? fun q => isOf address q.1 with
    | none =>
      split_ifs with hk
      · rw [isOf_iff.mp hk] at hany
        rw [List.find?_eq_none] at hq
        obtain ⟨q,hmem,hkey⟩ := List.any_eq_true.mp hany
        exact absurd hkey (hq q hmem)
      · rfl
    | some q =>
      have hq := List.find?_some hq
      simp only [Option.map_some,Option.getD_some,hsame q hq]
      split_ifs <;> rfl
  · obtain rfl := Except.ok.inj h
    simp only [held,List.find?_append]
    cases hk : isOf address key with
    | true =>
      have hnone : inbox.queues.find? (fun q => isOf address q.1) = none := by
        rw [List.find?_eq_none]
        intro q hmem hq
        refine hany (List.any_eq_true.mpr ⟨q,hmem,?_⟩)
        rw [hsame q hq,hk]
      simp only [hnone,List.find?_singleton,hk,if_true]
      simp [append]
    | false => simp [hk]

theorem held_drain (inbox : Inbox) (address other : JsString) :
    (inbox.drain address).2.held other = if other = address then [] else inbox.held other := by
  rw [drain,held]
  dsimp only
  split_ifs with h
  · rw [List.find?_eq_none.mpr]
    · rfl
    · intro q hq
      rw [h]
      simpa using (List.mem_filter.mp hq).2
  · rw [List.find?_filter,held]
    congr 3
    funext q
    cases hq : isOf other q.1 with
    | false => simp
    | true =>
      have hne : isOf address q.1 = false := by
        rw [← Bool.not_eq_true,isOf_iff,isOf_iff.mp hq]
        exact fun heq => h (Json.str.inj heq)
      rw [hne]
      rfl

end Inbox

namespace InboxRun
open Inbox

/-- What was done to the queues: a payload was put into the one of a recipient, or an address
emptied its own and was given this list. -/
inductive Entry
  | stored (recipient : Json) (payload : Bytes)
  | drained (address : JsString) (list : List Bytes)

/-- A call of a pipeline that writes to the inbox, or of the inbox itself. -/
inductive Call
  | process (lc : Locale) (rt : Runtime) (p : Pipeline) (env : Envelope.Env)
  | store (recipient : Json) (payload : Bytes)
  | drain (address : JsString)

structure State where
  inbox : Inbox
  log : List Entry

def step (C : Crypto) (s : State) : Call → State
  | .process lc rt p env =>
    let f := (p.run C lc rt env s.inbox).2
    ⟨f.inbox,s.log++f.stores.map fun x => .stored x.recipient x.payload⟩
  | .store recipient payload =>
    match s.inbox.store recipient payload with
    | .ok inbox => ⟨inbox,s.log++[.stored recipient payload]⟩
    | .error _ => s
  | .drain address =>
    let r := s.inbox.drain address
    ⟨r.2,s.log++[.drained address r.1]⟩

def run (C : Crypto) (maxDepth : ℤ) (calls : List Call) : State :=
  calls.foldl (step C) ⟨.new maxDepth,[]⟩

/-- What was put into the queue of an address since it was last emptied. -/
def since (address : JsString) (log : List Entry) : List Bytes :=
  log.foldl (fun payloads e =>
    match e with
    | .stored recipient payload =>
      if isOf address recipient then payloads++[payload] else payloads
    | .drained other _ => if address = other then [] else payloads) []

/-- A queue that is emptied gives the last payloads that were put into it, as many as it
holds. -/
def Given (depth : ℕ) (before : List Entry) : Entry → Prop
  | .stored _ _ => True
  | .drained address list => list = (since address before).rtake depth

/-- The queues hold what the log says. -/
structure Holds (depth : ℕ) (s : State) : Prop where
  maxDepth : s.inbox.maxDepth = depth
  held : ∀ address, s.inbox.held address = (since address s.log).rtake depth
  given : History.Justified (Given depth) s.log

namespace Holds
variable {depth : ℕ} {s : State}

theorem stored (h : Holds depth s) (hd : 0 < depth) {recipient : Json} {payload : Bytes}
    {inbox : Inbox} (hs : s.inbox.store recipient payload = .ok inbox) :
    Holds depth ⟨inbox,s.log++[.stored recipient payload]⟩ where
  maxDepth := (store_maxDepth hs).trans h.maxDepth
  held address := by
    rw [since,List.foldl_concat,← since]
    dsimp only
    rw [held_store hs,h.maxDepth,h.held]
    split_ifs
    · exact append_rtake hd _ _
    · rfl
  given := History.justified_concat.mpr ⟨h.given,trivial⟩

theorem storedAll (h : Holds depth s) (hd : 0 < depth) {stores : List Pipeline.Stored}
    {inbox : Inbox} (hs : stores.foldlM (fun inbox x => inbox.store x.recipient x.payload)
      s.inbox = .ok inbox) :
    Holds depth ⟨inbox,s.log++stores.map fun x => .stored x.recipient x.payload⟩ := by
  induction stores generalizing s with
  | nil =>
    obtain rfl := Except.ok.inj hs
    rw [List.map_nil,List.append_nil]
    exact h
  | cons x stores ih =>
    rw [List.foldlM_cons] at hs
    obtain ⟨mid,hx,hs⟩ := bind_eq_ok.mp hs
    have hrest := ih (h.stored hd hx) hs
    rwa [List.append_assoc] at hrest

theorem drained (h : Holds depth s) (address : JsString) :
    Holds depth ⟨(s.inbox.drain address).2,
      s.log++[.drained address (s.inbox.drain address).1]⟩ where
  maxDepth := h.maxDepth
  held other := by
    rw [since,List.foldl_concat,← since]
    dsimp only
    rw [held_drain,h.held]
    split_ifs
    · rw [List.rtake_nil]
    · rfl
  given := History.justified_concat.mpr ⟨h.given,h.held address⟩

theorem step (h : Holds depth s) (hd : 0 < depth) (C : Crypto) (call : Call) :
    Holds depth (step C s call) := by
  cases call with
  | process lc rt p env => exact h.storedAll hd (Pipeline.run_written s.inbox)
  | store recipient payload =>
    rw [InboxRun.step]
    cases hs : s.inbox.store recipient payload with
    | error e => exact h
    | ok inbox => exact h.stored hd hs
  | drain address => exact h.drained address

end Holds

/-- While pipelines deliver and owners fetch in any order, a fetch gives the payloads that
were stored for its address since the last one, in their order, and of more than the depth
the newest ones; no other fetch gives them. -/
theorem fetched_run (C : Crypto) (maxDepth : ℤ) (calls : List Call) :
    History.Justified (Given (Inbox.new maxDepth).maxDepth) (run C maxDepth calls).log ∧
    ∀ address, (run C maxDepth calls).inbox.pending address =
      min (Inbox.new maxDepth).maxDepth (since address (run C maxDepth calls).log).length := by
  have h : Holds (Inbox.new maxDepth).maxDepth (run C maxDepth calls) := by
    induction calls using List.reverseRecOn with
    | nil =>
      refine ⟨rfl,fun address => ?_,History.justified_nil⟩
      rw [since]
      exact (List.rtake_nil _).symm
    | append_singleton calls call ih =>
      rw [run,List.foldl_concat]
      exact ih.step (new_maxDepth_pos maxDepth) C call
  refine ⟨h.given,fun address => ?_⟩
  rw [pending,h.held,List.rtake,List.length_drop]
  omega

end InboxRun
end Semp
