import Semp.HandshakeServer
import Semp.Method

/-! The message loop of a session: each frame that is received is handed to the handler of its
type.  The loop sees of the session what its calls of `receive` give. -/
namespace Semp.Dispatcher

/-- What a call of `session.receive` gives the loop. -/
inductive Arrival
  | frame (frame : Bytes)
  /-- The peer is done: `null`. -/
  | eof
  | failed (err : Thrown)

inductive Handled
  | rekey
  | envelope
  | keys
  | fetch
  | discovery
  | delivery
  deriving DecidableEq, Repr

/-- A call of one of the callbacks. -/
inductive Called
  | handler (handler : Handled) (frame : Bytes) (parsed : Json)
  | unknown (type : JsString) (frame : Bytes)
  | handlerError (err : Thrown) (type : JsString)
  | fatal (err : Thrown)

/-- The answer of a callback may depend on all calls that were made before. -/
abbrev Answer := List Called → Js Unit

abbrev Handler := Bytes → Json → Answer

structure DispatchHandlers where
  onRekey : Option Handler
  onEnvelope : Option Handler
  onKeys : Option Handler
  onFetch : Option Handler
  onDiscovery : Option Handler
  onDelivery : Option Handler
  onUnknown : Option (JsString → Bytes → Answer)
  onHandlerError : Option (Thrown → JsString → Answer)
  onFatal : Option (Thrown → Answer)

/-- Whether the loop has ended or waits for another frame. -/
inductive Status
  | resolved
  | waiting
  deriving DecidableEq, Repr

abbrev Loop := Method Thrown (List Called)

def invoke (called : Called) (answer : Answer) : Loop Unit := do
  let before ← get
  set (before++[called])
  liftM (answer before)

section Code
variable (rt : Runtime) (handlers : DispatchHandlers)

/-- The handler that is registered for a type. -/
def handlerOf (type : JsString) : Option (Handled × Handler) :=
  if type = js "SEMP_REKEY" then handlers.onRekey.map (.rekey,·)
  else if type = js "SEMP_ENVELOPE" then handlers.onEnvelope.map (.envelope,·)
  else if type = js "SEMP_KEYS" then handlers.onKeys.map (.keys,·)
  else if type = js "SEMP_FETCH" then handlers.onFetch.map (.fetch,·)
  else if type = js "SEMP_DISCOVERY" then handlers.onDiscovery.map (.discovery,·)
  else if type = js "SEMP_DELIVERY_ACK" then handlers.onDelivery.map (.delivery,·)
  else if type = js "SEMP_DELIVERY_RECEIPT" then handlers.onDelivery.map (.delivery,·)
  else none

def dispatchOne (type : JsString) (frame : Bytes) (parsed : Json) : Loop Unit :=
  match handlerOf handlers type with
  | some (name,handler) => invoke (.handler name frame parsed) (handler frame parsed)
  | none =>
    match handlers.onUnknown with
    | some onUnknown => invoke (.unknown type frame) (onUnknown type frame)
    | none => pure ()

/-- `typeof parsed.type === "string" ? parsed.type : ""` -/
def typeOf (parsed : Json) : Js JsString := do
  match ← getProp (some parsed) (js "type") with
  | some (.str type) => .ok type
  | _ => .ok []

/-- `handlers.onFatal?.(err)`, after which the loop ends. -/
def fatal (err : Thrown) : Loop Status := do
  match handlers.onFatal with
  | some onFatal => invoke (.fatal err) (onFatal err)
  | none => pure ()
  return .resolved

/-- `handlers.onHandlerError?.(err,type)` -/
def handlerError (type : JsString) (err : Thrown) : Loop Unit :=
  match handlers.onHandlerError with
  | some onHandlerError => invoke (.handlerError err type) (onHandlerError err type)
  | none => pure ()

/-- The decoded frame: `JSON.parse(new TextDecoder().decode(frame))`. -/
def parseFrame (frame : Bytes) : Js Json := parseJson (Utf8.textDecode frame)

def malformed (err : Thrown) : Thrown :=
  .error (js "dispatcher: malformed frame: "++Handshake.thrownText rt err)

/-- The loop from the next call of `receive` on. -/
def runDispatcher : List Arrival → Loop Status
  | [] => return .waiting
  | .failed err::_ => fatal handlers err
  | .eof::_ => return .resolved
  | .frame frame::arrivals =>
    match parseFrame frame with
    | .error err => fatal handlers (malformed rt err)
    | .ok parsed => do
      let type ← liftM (typeOf parsed)
      tryCatch (dispatchOne handlers type frame parsed) (handlerError handlers type)
      runDispatcher arrivals

end Code

/-! What a loop that never rejects does. -/

/-- The well-formed frames up to the end of the stream or the first fatal error. -/
def frames : List Arrival → List (Bytes × Json)
  | .frame frame::arrivals =>
    match parseFrame frame with
    | .ok parsed => (frame,parsed)::frames arrivals
    | .error _ => []
  | _ => []

/-- How the stream ends: not yet, cleanly or with an error. -/
inductive Ending
  | open
  | clean
  | error (err : Thrown)

def ending (rt : Runtime) : List Arrival → Ending
  | [] => .open
  | .failed err::_ => .error err
  | .eof::_ => .clean
  | .frame frame::arrivals =>
    match parseFrame frame with
    | .ok _ => ending rt arrivals
    | .error err => .error (malformed rt err)

def Ending.status : Ending → Status
  | .open => .waiting
  | _ => .resolved

/-- The string in the `type` member of a frame, empty without one. -/
def frameType : Json → JsString
  | .obj ms =>
    match lookup ms (js "type") with
    | some (.str type) => type
    | _ => []
  | _ => []

section Calls
variable (handlers : DispatchHandlers)

/-- The one callback a frame is for; a frame of no handler is dropped without `onUnknown`. -/
def callOf (received : Bytes × Json) : Option Called :=
  match handlerOf handlers (frameType received.2) with
  | some (name,_) => some (.handler name received.1 received.2)
  | none => handlers.onUnknown.map fun _ => .unknown (frameType received.2) received.1

def fatalCalls : Ending → List Called
  | .error err => if handlers.onFatal.isSome then [.fatal err] else []
  | _ => []

/-- The error callbacks do not throw. -/
structure Quiet : Prop where
  onHandlerError : ∀ f ∈ handlers.onHandlerError, ∀ err type log, f err type log = .ok ()
  onFatal : ∀ f ∈ handlers.onFatal, ∀ err log, f err log = .ok ()

end Calls

def Called.isDispatch : Called → Bool
  | .handler .. | .unknown .. => true
  | _ => false

def Called.isFatal : Called → Bool
  | .fatal _ => true
  | _ => false

/-- The loop does not reject: it hands each well-formed frame in order to its callback, and ends
with the stream, after reporting the error that ended it. -/
structure Robust (rt : Runtime) (handlers : DispatchHandlers) (arrivals : List Arrival) : Prop where
  status : ((runDispatcher rt handlers arrivals).call []).1 = .ok (ending rt arrivals).status
  calls : ∃ body, ((runDispatcher rt handlers arrivals).call []).2 =
      body++fatalCalls handlers (ending rt arrivals) ∧
    body.filter Called.isDispatch = (frames arrivals).filterMap (callOf handlers) ∧
    ∀ c ∈ body, c.isFatal = false

variable {rt : Runtime} {handlers : DispatchHandlers} {arrivals : List Arrival}

theorem call_invoke (called : Called) (answer : Answer) (log : List Called) :
    (invoke called answer).call log = (answer log,log++[called]) := by
  cases h : answer log with
  | ok u => simp [invoke,Method.call_bind,h]
  | error err => simp [invoke,Method.call_bind,h]

theorem typeOf_eq {parsed : Json} (h : parsed ≠ .null) : typeOf parsed = .ok (frameType parsed) := by
  cases parsed with
  | null => exact absurd rfl h
  | obj ms =>
    simp only [typeOf,getProp,ok_bind,frameType]
    split <;> rfl
  | _ => rfl

theorem typeOf_null : typeOf .null = raiseType := rfl

theorem call_fatal (hq : Quiet handlers) (err : Thrown) (log : List Called) :
    (fatal handlers err).call log = (.ok .resolved,log++fatalCalls handlers (.error err)) := by
  cases hf : handlers.onFatal with
  | none => simp [fatal,fatalCalls,hf]
  | some f => simp [fatal,fatalCalls,hf,call_invoke,hq.onFatal f hf,Except.map]

/-- A frame causes its call, and an error of the handler one more call. -/
theorem call_dispatchOne (hq : Quiet handlers) (frame : Bytes) (parsed : Json)
    (log : List Called) : ∃ errors,
    (tryCatch (dispatchOne handlers (frameType parsed) frame parsed)
        (handlerError handlers (frameType parsed))).call log =
      (.ok (),log++((callOf handlers (frame,parsed)).toList++errors)) ∧
    ∀ c ∈ errors, ∃ err type, c = .handlerError err type := by
  have hcaught : ∀ (c : Called) (err : Thrown), ∃ errors,
      (handlerError handlers (frameType parsed) err).call (log++[c]) =
        (.ok (),log++([c]++errors)) ∧
      ∀ c ∈ errors, ∃ err type, c = .handlerError err type := by
    intro c err
    cases hf : handlers.onHandlerError with
    | none => exact ⟨[],by simp [handlerError,hf],by simp⟩
    | some f =>
      exact ⟨[.handlerError err (frameType parsed)],
        by simp [handlerError,hf,call_invoke,hq.onHandlerError f hf],by simp⟩
  have hinvoke : ∀ (c : Called) (answer : Answer), ∃ errors,
      (tryCatch (invoke c answer) (handlerError handlers (frameType parsed))).call log =
        (.ok (),log++([c]++errors)) ∧
      ∀ c ∈ errors, ∃ err type, c = .handlerError err type := by
    intro c answer
    rw [Method.call_tryCatch,call_invoke]
    cases answer log with
    | ok u => exact ⟨[],by simp,by simp⟩
    | error err => exact hcaught c err
  unfold dispatchOne callOf
  cases handlerOf handlers (frameType parsed) with
  | some p => exact hinvoke (.handler p.1 frame parsed) (p.2 frame parsed)
  | none =>
    cases handlers.onUnknown with
    | some f => exact hinvoke (.unknown (frameType parsed) frame) (f (frameType parsed) frame)
    | none => exact ⟨[],by simp [Method.call_tryCatch],by simp⟩

/-- The loop from any point on, while no frame is `null`. -/
theorem call_runDispatcher (hq : Quiet handlers)
    (hnull : ∀ received ∈ frames arrivals, received.2 ≠ .null) (log : List Called) : ∃ body,
    (runDispatcher rt handlers arrivals).call log = (.ok (ending rt arrivals).status,
      log++(body++fatalCalls handlers (ending rt arrivals))) ∧
    body.filter Called.isDispatch = (frames arrivals).filterMap (callOf handlers) ∧
    ∀ c ∈ body, c.isFatal = false := by
  induction arrivals generalizing log with
  | nil => exact ⟨[],by simp [runDispatcher,ending,Ending.status,fatalCalls],rfl,by simp⟩
  | cons arrival arrivals ih =>
    cases arrival with
    | failed err => exact ⟨[],call_fatal hq err log,rfl,by simp⟩
    | eof => exact ⟨[],by simp [runDispatcher,ending,Ending.status,fatalCalls],rfl,by simp⟩
    | frame frame =>
      cases hparse : parseFrame frame with
      | error err =>
        refine ⟨[],?_,by simp [frames,hparse],by simp⟩
        simp only [runDispatcher,ending,hparse]
        exact call_fatal hq (malformed rt err) log
      | ok parsed =>
        have hframes : frames (.frame frame::arrivals) = (frame,parsed)::frames arrivals := by
          simp only [frames,hparse]
        have hending : ending rt (.frame frame::arrivals) = ending rt arrivals := by
          simp only [ending,hparse]
        rw [hframes,List.forall_mem_cons] at hnull
        obtain ⟨errors,hcall,herrors⟩ := call_dispatchOne hq frame parsed log
        obtain ⟨body,hrest,hbody,hfatal⟩ := ih hnull.2
          (log++((callOf handlers (frame,parsed)).toList++errors))
        have hcalled : ∀ c ∈ callOf handlers (frame,parsed),
            c.isDispatch = true ∧ c.isFatal = false := by
          intro c hc
          unfold callOf at hc
          split at hc
          · cases hc
            exact ⟨rfl,rfl⟩
          · obtain ⟨f,-,rfl⟩ := Option.map_eq_some_iff.mp hc
            exact ⟨rfl,rfl⟩
        refine ⟨(callOf handlers (frame,parsed)).toList++errors++body,?_,?_,?_⟩
        · simp only [runDispatcher,hparse,typeOf_eq hnull.1]
          rw [Method.bind_of_ok (Method.call_lift _ _),Method.bind_of_ok hcall,hrest,hending]
          simp only [List.append_assoc]
        · have hdrop : errors.filter Called.isDispatch = [] := by
            rw [List.filter_eq_nil_iff]
            intro c hc
            obtain ⟨err,type,rfl⟩ := herrors c hc
            exact Bool.false_ne_true
          rw [hframes,List.filter_append,List.filter_append,hdrop,List.append_nil,hbody,
            List.filterMap_cons]
          cases hc : callOf handlers (frame,parsed) with
          | none => simp
          | some c => simp [(hcalled c hc).1]
        · intro c hc
          rw [List.mem_append,List.mem_append] at hc
          rcases hc with (hc|hc)|hc
          · exact (hcalled c (Option.mem_toList.mp hc)).2
          · obtain ⟨err,type,rfl⟩ := herrors c hc
            rfl
          · exact hfatal c hc

/-- A frame that is `null` is a type error outside of every guard. -/
theorem call_runDispatcher_null (hq : Quiet handlers)
    (hnull : ∃ received ∈ frames arrivals, received.2 = .null) (log : List Called) :
    ((runDispatcher rt handlers arrivals).call log).1 = raiseType := by
  induction arrivals generalizing log with
  | nil => simp [frames] at hnull
  | cons arrival arrivals ih =>
    cases arrival with
    | failed err => simp [frames] at hnull
    | eof => simp [frames] at hnull
    | frame frame =>
      cases hparse : parseFrame frame with
      | error err => simp [frames,hparse] at hnull
      | ok parsed =>
        simp only [runDispatcher,hparse]
        by_cases hp : parsed = .null
        · rw [hp,typeOf_null,Method.call_bind,Method.call_lift]
          rfl
        · have hrest : ∃ received ∈ frames arrivals, received.2 = .null := by
            simpa [frames,hparse,hp] using hnull
          obtain ⟨errors,hcall,-⟩ := call_dispatchOne hq frame parsed log
          rw [typeOf_eq hp,Method.bind_of_ok (Method.call_lift _ _),Method.bind_of_ok hcall]
          exact ih hrest _

/-- The loop is robust exactly when it meets no frame that is `null`. -/
theorem runDispatcher_robust_iff (hq : Quiet handlers) :
    Robust rt handlers arrivals ↔ ∀ received ∈ frames arrivals, received.2 ≠ .null := by
  constructor
  · intro h received hr hnull
    have hthrown : ((runDispatcher rt handlers arrivals).call []).1 = raiseType :=
      call_runDispatcher_null hq ⟨received,hr,hnull⟩ []
    rw [h.status] at hthrown
    cases hthrown
  · intro h
    obtain ⟨body,hcall,hbody,hfatal⟩ : ∃ body, (runDispatcher rt handlers arrivals).call [] = _ ∧ _ :=
      call_runDispatcher hq h []
    exact ⟨by rw [hcall],body,by rw [hcall]; rfl,hbody,hfatal⟩

/-- Only envelopes are handled, by a handler that always throws, and the rest is noted. -/
def sampleHandlers : DispatchHandlers where
  onRekey := none
  onEnvelope := some fun _ _ _ => raise (js "no")
  onKeys := none
  onFetch := none
  onDiscovery := none
  onDelivery := none
  onUnknown := some fun _ _ _ => .ok ()
  onHandlerError := some fun _ _ _ => .ok ()
  onFatal := some fun _ _ => .ok ()

theorem sampleHandlers_quiet : Quiet sampleHandlers where
  onHandlerError := by
    rintro f ⟨⟩ err type log
    rfl
  onFatal := by
    rintro f ⟨⟩ err log
    rfl

/-- The text of a frame. -/
def sampleFrame (text : String) : Arrival := .frame (utf8 (js text))

/-- An envelope whose handler throws, a frame of no type, and bytes that are no JSON. -/
def sampleArrivals : List Arrival :=
  [sampleFrame "\x7b\"type\":\"SEMP_ENVELOPE\"\x7d",sampleFrame "[1]",sampleFrame "?"]

theorem runDispatcher_robust_sample : Robust Sample.runtime sampleHandlers sampleArrivals ↔
    ∀ received ∈ frames sampleArrivals, received.2 ≠ .null :=
  runDispatcher_robust_iff sampleHandlers_quiet

/-- A peer that sends `null` makes the loop reject, and nothing is reported. -/
theorem runDispatcher_null_rejects :
    Quiet sampleHandlers ∧
      (runDispatcher Sample.runtime sampleHandlers [sampleFrame "null",.eof]).call [] =
        (raiseType,[]) ∧
      ¬ Robust Sample.runtime sampleHandlers [sampleFrame "null",.eof] := by
  have hparse : parseFrame (utf8 (js "null")) = .ok .null := by rfl
  have hcall : (runDispatcher Sample.runtime sampleHandlers [sampleFrame "null",.eof]).call [] =
      (raiseType,[]) := by
    rw [sampleFrame,runDispatcher,hparse]
    rfl
  refine ⟨sampleHandlers_quiet,hcall,fun h => ?_⟩
  have hstatus := h.status
  rw [hcall] at hstatus
  cases hstatus

end Semp.Dispatcher
