import Mathlib.Data.List.ReduceOption
import Semp.Crypto
import Semp.Method
import Semp.Sse
import Semp.Utf8Cuts

/-! The session stream: the bytes of a response come in chunks of any sizes, are decoded as
they come and read as events.  What `receive` gives does not depend on the chunks. -/
namespace Semp
namespace EventStream
open Sse Utf8 Method

/-- `new TextDecoder("utf-8")`, when every call of `decode` is made with `stream: true`. -/
structure StreamDecoder where
  pending : Pending
  bomSeen : Bool

/-- The units of the bytes, and the character that is still open after them. -/
def units (p : Pending) : Bytes → JsString × Pending
  | [] => ([],p)
  | b::bs =>
    let rest := units (Utf8.step p b.toNat).2 bs
    ((Utf8.step p b.toNat).1++rest.1,rest.2)

namespace StreamDecoder

def new : StreamDecoder := ⟨idle,false⟩

/-- A byte order mark is dropped when it is the first unit of the whole stream. -/
def decode (d : StreamDecoder) (chunk : Bytes) : JsString × StreamDecoder :=
  let r := units d.pending chunk
  if d.bomSeen then (r.1,⟨r.2,true⟩)
  else
    match r.1 with
    | [] => ([],⟨r.2,false⟩)
    | u::rest => (if u = 0xFEFF then rest else u::rest,⟨r.2,true⟩)

end StreamDecoder

/-- A turn of the body's iterator gives a chunk, or an undefined value. -/
structure EventReader where
  decoder : SSEDecoder
  utf8 : StreamDecoder
  done : Bool
  incoming : List (Option Bytes)

def createEventReader (body : List (Option Bytes)) : EventReader := ⟨.new,.new,false,body⟩

/-- A turn of the loop of `read` after the body has ended. -/
def finish (d : SSEDecoder) : Option JsString × SSEDecoder :=
  match d.next with
  | (some event,d') => (some event,d')
  | (none,d') => d'.flush

/-- The loop of `read`. -/
def readFrom (d : SSEDecoder) (utf8 : StreamDecoder) :
    List (Option Bytes) → Option JsString × EventReader
  | [] =>
    match d.next with
    | (some event,d') => (some event,⟨d',utf8,false,[]⟩)
    | (none,d') => ((finish d').1,⟨(finish d').2,utf8,true,[]⟩)
  | chunk::incoming =>
    match d.next with
    | (some event,d') => (some event,⟨d',utf8,false,chunk::incoming⟩)
    | (none,d') =>
      match chunk with
      | none => readFrom d' utf8 incoming
      | some bytes => readFrom (d'.push (utf8.decode bytes).1) (utf8.decode bytes).2 incoming

namespace EventReader

def read (r : EventReader) : Option JsString × EventReader :=
  if r.done then ((finish r.decoder).1,{r with decoder := (finish r.decoder).2})
  else readFrom r.decoder r.utf8 r.incoming

def close (r : EventReader) : EventReader := {r with done := true}

end EventReader

structure Response where
  ok : Bool
  status : ℕ
  body : Option (List (Option Bytes))

def httpReason (status : ℕ) : JsString :=
  if status = 400 then js "malformed SEMP message"
  else if status = 413 then js "payload exceeds max_envelope_size"
  else if status = 429 then js "transport-level rate limit"
  else if status = 503 then js "server temporarily unavailable"
  else js "HTTP "++natText status

structure Session where
  eventReader : EventReader
  closed : Bool
  /-- The messages that were posted to the session's URL. -/
  posted : List Bytes

/-- The transport, once the first request was answered. -/
def dialH2Session (sessionUrl : JsString) (resp : Response) : Except JsString Session :=
  if sessionUrl = [] then .error (js "h2: empty sessionUrl")
  else if !resp.ok then
    .error (js "h2: session POST "++sessionUrl++js " "++httpReason resp.status++js " ("++
      natText resp.status++js ")")
  else
    match resp.body with
    | none => .error (js "h2: session response has no body")
    | some body => .ok ⟨createEventReader body,false,[]⟩

/-- A send, and how it was answered when it was. -/
def send (message : Bytes) (answer : Except JsString Response) :
    Method JsString Session Unit := do
  let s ← get
  if s.closed then throw (js "h2: session transport closed")
  set {s with posted := s.posted++[message]}
  let r ← liftM answer
  if !r.ok then
    throw (js "h2: session send "++httpReason r.status++js " ("++natText r.status++js ")")

def receive : Method JsString Session (Option Bytes) := do
  let s ← get
  if s.closed then return none
  let r := s.eventReader.read
  match r.1 with
  | none =>
    set {s with eventReader := r.2, closed := true}
    return none
  | some event =>
    set {s with eventReader := r.2}
    return some (textEncode event)

def close : Method JsString Session Unit := do
  let s ← get
  if !s.closed then set {s with closed := true, eventReader := s.eventReader.close}

inductive Call
  | send (message : Bytes) (answer : Except JsString Response)
  | receive
  | close

def Call.isReceive : Call → Bool
  | receive => true
  | _ => false

def Call.isClose : Call → Bool
  | close => true
  | _ => false

/-- What the receives among the calls give, each call made when the one before it has ended. -/
def received (s : Session) : List Call → List (Except JsString (Option Bytes))
  | [] => []
  | .send message answer::calls => received ((send message answer).call s).2 calls
  | .receive::calls => (receive.call s).1::received (receive.call s).2 calls
  | .close::calls => received (close.call s).2 calls

/-- How many receives were called before the transport was closed, and how many after. -/
def askedBefore (calls : List Call) : ℕ := (calls.takeWhile (!·.isClose)).countP Call.isReceive
def askedAfter (calls : List Call) : ℕ := (calls.dropWhile (!·.isClose)).countP Call.isReceive

/-- The text of a whole stream. -/
def streamText (body : List (Option Bytes)) : JsString :=
  (StreamDecoder.new.decode body.reduceOption.flatten).1

section Decoder

theorem units_append (p : Pending) (a b : Bytes) : units p (a++b) =
    ((units p a).1++(units (units p a).2 b).1,(units (units p a).2 b).2) := by
  induction a generalizing p with
  | nil => rfl
  | cons x a ih =>
    rw [List.cons_append,units,ih]
    simp only [units,List.append_assoc]

/-- Chunks may end within a character. -/
theorem decode_append (d : StreamDecoder) (a b : Bytes) : d.decode (a++b) =
    ((d.decode a).1++((d.decode a).2.decode b).1,((d.decode a).2.decode b).2) := by
  obtain ⟨p,_ | _⟩ := d
  · simp only [StreamDecoder.decode,units_append,Bool.false_eq_true,if_false]
    rcases units p a with ⟨_ | ⟨u,rest⟩,q⟩
    · simp only [List.nil_append,Bool.false_eq_true,if_false]
    · simp only [List.cons_append,if_true]
      split_ifs <;> rfl
  · simp only [StreamDecoder.decode,units_append,if_true]

theorem decode_nil (d : StreamDecoder) : d.decode [] = ([],d) := by
  obtain ⟨p,_ | _⟩ := d <;> rfl

/-- Decoding at once marks a character that is left open; in a stream it may go on. -/
theorem decodeFrom_eq (p : Pending) (bs : Bytes) : decodeFrom p bs =
    (units p bs).1++if (units p bs).2.needed = 0 then [] else [UInt16.ofNat replacement] := by
  induction bs generalizing p with
  | nil => rfl
  | cons b bs ih => rw [decodeFrom,ih,units,List.append_assoc]

theorem units_textEncode {s : JsString} (hs : isWellFormed s)
    (hend : s.getLast? ≠ some (UInt16.ofNat replacement)) : (units idle (textEncode s)).1 = s := by
  have h := decodeFrom_eq idle (textEncode s)
  rw [decodeFrom_textEncode hs] at h
  split_ifs at h
  · exact (h.trans (List.append_nil _)).symm
  · rw [h,List.getLast?_concat] at hend
    exact absurd rfl hend

theorem decode_textEncode {s : JsString} (hs : isWellFormed s) (hb : s.head? ≠ some 0xFEFF)
    (hend : s.getLast? ≠ some (UInt16.ofNat replacement)) :
    (StreamDecoder.new.decode (textEncode s)).1 = s := by
  have h := units_textEncode hs hend
  rw [StreamDecoder.new,StreamDecoder.decode]
  dsimp only
  rw [h,if_neg Bool.false_ne_true]
  cases s with
  | nil => rfl
  | cons u rest => exact if_neg fun hu => hb (congrArg some hu)

end Decoder

section Events
variable {d d' : SSEDecoder} {event : JsString}

/-- The events a decoder gives when nothing more is pushed, the unended last one included. -/
def closing (d : SSEDecoder) : List JsString := (pending d).1++(pending d).2.flush.1.toList

theorem decodeSSE_eq (text : JsString) : decodeSSE text = closing (SSEDecoder.new.push text) := by
  rw [decodeSSE,drain_eq,closing]
  cases h : (pending (SSEDecoder.new.push text)).2.flush.1 with
  | none => simp
  | some trailing => simp

/-- An event that `next` gives comes first, whatever is pushed after. -/
theorem closing_next (h : d.next = (some event,d')) (text : JsString) :
    closing (d.push text) = event::closing (d'.push text) := by
  have hnext := (pending_next d).1
  rw [h] at hnext
  rw [closing,pending_push,hnext,closing,pending_push]
  rfl

theorem next_idle (h : d.next = (none,d')) : cutAt lf d'.buffer = none := by
  fun_induction SSEDecoder.next d with
  | case1 d hcut =>
    obtain rfl := (Prod.mk.inj h).2
    exact hcut
  | case2 d line rest hcut event dataLines hturn => cases h
  | case3 d line rest hcut dataLines hturn ih => exact ih h

/-- Where `next` gives nothing, it has only dropped what holds no event. -/
theorem closing_idle (h : d.next = (none,d')) (text : JsString) :
    closing (d.push text) = closing (d'.push text) := by
  have hnext := (pending_next d).1
  rw [h] at hnext
  rw [closing,pending_push,hnext,closing,pending_push]
  rfl

theorem push_nil (d : SSEDecoder) : d.push [] = d := by
  rw [SSEDecoder.push,List.append_nil]

theorem finish_spec (d : SSEDecoder) :
    (finish d).1 = (closing d).head? ∧ closing (finish d).2 = (closing d).tail := by
  unfold finish
  rcases h : d.next with ⟨_ | event,d'⟩
  · have hcut := next_idle h
    have hd : closing d = closing d' := by
      have heq := closing_idle h []
      rwa [push_nil,push_nil] at heq
    have hclosing : ∀ lines, closing ⟨d'.buffer,lines⟩ =
        (SSEDecoder.flush ⟨d'.buffer,lines⟩).1.toList := by
      intro lines
      rw [closing,pending_idle (by exact hcut)]
      rfl
    have hd' := hclosing d'.dataLines
    rw [hd,hd']
    change d'.flush.1 = _ ∧ closing d'.flush.2 = _
    by_cases hlines : d'.dataLines.length = 0
    · have hflush : d'.flush = (none,d') := if_pos hlines
      rw [hflush]
      refine ⟨rfl,hd'.trans ?_⟩
      exact congrArg (Option.toList ·.1) hflush
    · have hflush : d'.flush = (some ([lf].intercalate d'.dataLines),⟨d'.buffer,[]⟩) :=
        if_neg hlines
      rw [hflush]
      exact ⟨rfl,hclosing []⟩
  · have heq := closing_next h []
    rw [push_nil,push_nil] at heq
    rw [heq]
    exact ⟨rfl,rfl⟩

end Events

/-- The events a reader still gives. -/
def left (r : EventReader) : List JsString :=
  closing (r.decoder.push
    (if r.done then [] else (r.utf8.decode r.incoming.reduceOption.flatten).1))

theorem readFrom_spec (d : SSEDecoder) (utf8 : StreamDecoder) (incoming : List (Option Bytes)) :
    (readFrom d utf8 incoming).1 = (left ⟨d,utf8,false,incoming⟩).head? ∧
      left (readFrom d utf8 incoming).2 = (left ⟨d,utf8,false,incoming⟩).tail := by
  induction incoming generalizing d utf8 with
  | nil =>
    rw [readFrom]
    rcases h : d.next with ⟨_ | event,d'⟩
    · have hd := closing_idle h []
      rw [push_nil,push_nil] at hd
      have hfinish := finish_spec d'
      simp only [left,List.reduceOption_nil,List.flatten_nil,decode_nil,push_nil,if_true,
        Bool.false_eq_true,if_false]
      rwa [hd]
    · have hd := closing_next h []
      simp only [left,List.reduceOption_nil,List.flatten_nil,decode_nil,Bool.false_eq_true,
        if_false]
      rw [hd]
      exact ⟨rfl,rfl⟩
  | cons chunk incoming ih =>
    rw [readFrom]
    rcases h : d.next with ⟨_ | event,d'⟩
    · cases chunk with
      | none =>
        dsimp only
        have hleft : left ⟨d,utf8,false,none::incoming⟩ = left ⟨d',utf8,false,incoming⟩ := by
          simp only [left,List.reduceOption_cons_of_none]
          exact closing_idle h _
        rw [hleft]
        exact ih d' utf8
      | some bytes =>
        dsimp only
        have hleft : left ⟨d,utf8,false,some bytes::incoming⟩ =
            left ⟨d'.push (utf8.decode bytes).1,(utf8.decode bytes).2,false,incoming⟩ := by
          simp only [left,List.reduceOption_cons_of_some,List.flatten_cons,decode_append,
            Bool.false_eq_true,if_false,closing_idle h]
          simp only [SSEDecoder.push,List.append_assoc]
        rw [hleft]
        exact ih _ _
    · have hleft : left ⟨d,utf8,false,chunk::incoming⟩ =
          event::left ⟨d',utf8,false,chunk::incoming⟩ := closing_next h _
      rw [hleft]
      exact ⟨rfl,rfl⟩

theorem read_spec (r : EventReader) :
    r.read.1 = (left r).head? ∧ left r.read.2 = (left r).tail := by
  unfold EventReader.read
  cases h : r.done with
  | true =>
    have hfinish := finish_spec r.decoder
    simp only [left,h,if_true,push_nil]
    exact hfinish
  | false =>
    have hread := readFrom_spec r.decoder r.utf8 r.incoming
    simp only [Bool.false_eq_true,if_false]
    rw [← h] at hread
    exact hread

section Messages

theorem isWellFormed_of_cons {u : UInt16} {b : JsString} (hh : isHigh u = false)
    (hl : isLow u = false) (h : isWellFormed (u::b)) : isWellFormed b := by
  cases b with
  | nil => rfl
  | cons v b =>
    simp only [isWellFormed,hh,hl,Bool.false_eq_true,if_false,Bool.not_false,Bool.true_and] at h
    exact h

theorem isWellFormed_left {u : UInt16} (hl : isLow u = false) {a b : JsString}
    (h : isWellFormed (a++u::b)) : isWellFormed a := by
  fun_induction isWellFormed a with
  | case1 => rfl
  | case2 v =>
    simp only [List.cons_append,List.nil_append,isWellFormed,hl,Bool.false_and] at h
    split_ifs at h with hv
    · simp only [Bool.and_eq_true] at h
      rw [Bool.not_eq_true] at hv
      rw [hv,h.1]
      rfl
  | case3 v l rest hv ih =>
    simp only [List.cons_append,isWellFormed,hv,if_true,Bool.and_eq_true] at h
    rw [h.1,ih h.2]
    rfl
  | case4 v l rest hv ih =>
    simp only [List.cons_append,isWellFormed,hv,Bool.false_eq_true,if_false,
      Bool.and_eq_true] at h
    rw [h.1,ih h.2]
    rfl

/-- A text that is cut at a line end falls into well-formed lines. -/
theorem isWellFormed_splitFrom {line s l : JsString} (h : isWellFormed (line++s))
    (hl : l ∈ splitFrom line s) : isWellFormed l := by
  have hends : ∀ c, ¬(c ≠ cr ∧ c ≠ lf) → isHigh c = false ∧ isLow c = false := by
    intro c hc
    by_cases hcr : c = cr
    · rw [hcr]
      decide
    · have hlf : c = lf := not_not.mp fun hx => hc ⟨hcr,hx⟩
      rw [hlf]
      decide
  fun_induction splitFrom line s with
  | case1 line =>
    rw [List.mem_singleton.mp hl]
    rwa [List.append_nil] at h
  | case2 line c hc ih => exact ih (by rwa [List.append_assoc]) hl
  | case3 line c hc =>
    obtain rfl | hl := List.mem_cons.mp hl
    · exact isWellFormed_left (hends c hc).2 h
    · rw [List.mem_singleton.mp hl]
      rfl
  | case4 line c d rest hc ih => exact ih (by rwa [List.append_assoc]) hl
  | case5 line c d rest hc hcrlf ih =>
    obtain rfl | hl := List.mem_cons.mp hl
    · exact isWellFormed_left (hends c hc).2 h
    · refine ih ?_ hl
      have hd := isWellFormed_of_cons (hends c hc).1 (hends c hc).2
        (isWellFormed_of_append_cons (hends c hc).2 h)
      rw [hcrlf.2] at hd
      exact isWellFormed_of_cons (by decide) (by decide) hd
  | case6 line c d rest hc hcrlf ih =>
    obtain rfl | hl := List.mem_cons.mp hl
    · exact isWellFormed_left (hends c hc).2 h
    · exact ih (isWellFormed_of_cons (hends c hc).1 (hends c hc).2
        (isWellFormed_of_append_cons (hends c hc).2 h)) hl

theorem isWellFormed_flatMap {γ : Type} {f : γ → JsString} {l : List γ}
    (h : ∀ x ∈ l, isWellFormed (f x)) : isWellFormed (l.flatMap f) := by
  induction l with
  | nil => rfl
  | cons x l ih =>
    rw [List.flatMap_cons]
    exact isWellFormed_append (h x List.mem_cons_self)
      (ih fun y hy => h y (List.mem_cons_of_mem x hy))

theorem isWellFormed_encodeSSE {m : JsString} (h : isWellFormed m) :
    isWellFormed (encodeSSE m) := by
  rw [encodeSSE,splitSSELines_eq]
  refine isWellFormed_append (isWellFormed_flatMap fun l hl => ?_) (by decide)
  exact isWellFormed_append (isWellFormed_append (by decide)
    (isWellFormed_splitFrom (show isWellFormed ([]++m) from h) hl))
    (by decide)

theorem getLast?_encodeSSE (m : JsString) : (encodeSSE m).getLast? = some lf := by
  rw [encodeSSE,List.getLast?_concat]

theorem head?_encodeSSE (m : JsString) : (encodeSSE m).head? = some 0x64 := by
  rw [encodeSSE,splitSSELines_eq]
  obtain ⟨l,lines,hl⟩ := List.exists_cons_of_ne_nil (splitFrom_ne_nil [] m)
  rw [hl]
  rfl

/-- What a server frames is the text that the chunks carry. -/
theorem streamText_messages {messages : List JsString} {incoming : List (Option Bytes)}
    (hm : ∀ m ∈ messages, isWellFormed m)
    (h : incoming.reduceOption.flatten = textEncode (messages.flatMap encodeSSE)) :
    streamText incoming = messages.flatMap encodeSSE := by
  rw [streamText,h]
  refine decode_textEncode (isWellFormed_flatMap fun m hmem => isWellFormed_encodeSSE (hm m hmem))
    ?_ ?_
  · cases messages with
    | nil => simp
    | cons m messages =>
      rw [List.flatMap_cons,List.head?_append,head?_encodeSSE]
      simp
  · obtain rfl | ⟨init,m,rfl⟩ := List.eq_nil_or_concat messages
    · simp
    · rw [List.concat_eq_append,List.flatMap_append,List.flatMap_singleton,List.getLast?_append,
        getLast?_encodeSSE]
      exact fun hlast => absurd (Option.some.inj hlast) (by decide)

end Messages

/-- What the receives of a session still give. -/
def rest (s : Session) : List Bytes :=
  if s.closed then [] else (left s.eventReader).map textEncode

theorem rest_send (s : Session) (message : Bytes) (answer : Except JsString Response) :
    rest ((send message answer).call s).2 = rest s := by
  rw [send,get_bind]
  cases hc : s.closed with
  | true => simp only [if_true,call_bind,call_throw]
  | false =>
    simp only [Bool.false_eq_true,if_false,call_bind,call_set]
    have hrest : rest ⟨s.eventReader,false,s.posted++[message]⟩ = rest s := by
      rw [rest,rest,hc]
    cases answer with
    | error e => exact hrest
    | ok r =>
      simp only [call_lift]
      cases r.ok <;> exact hrest

theorem receive_spec (s : Session) :
    (receive.call s).1 = .ok (rest s).head? ∧ rest (receive.call s).2 = (rest s).tail := by
  obtain ⟨hhead,htail⟩ := read_spec s.eventReader
  rw [receive,get_bind,rest]
  cases hc : s.closed with
  | true =>
    simp only [if_true,call_pure]
    refine ⟨rfl,?_⟩
    rw [rest,hc]
    rfl
  | false =>
    simp only [Bool.false_eq_true,if_false]
    cases hl : left s.eventReader with
    | nil =>
      rw [hl] at hhead
      simp only [hhead,List.head?_nil,call_bind,call_set,call_pure]
      exact ⟨rfl,rfl⟩
    | cons event events =>
      rw [hl] at hhead htail
      simp only [hhead,List.head?_cons,call_bind,call_set,call_pure]
      refine ⟨rfl,?_⟩
      change (left s.eventReader.read.2).map textEncode = _
      rw [htail]
      rfl

theorem rest_close (s : Session) : rest (close.call s).2 = [] := by
  rw [close,get_bind]
  cases hc : s.closed with
  | true => exact if_pos hc
  | false => rfl

theorem map_range_nil (n : ℕ) :
    (List.range n).map (fun i => (.ok ([] : List Bytes)[i]? : Except JsString (Option Bytes))) =
      List.replicate n (.ok none) := by
  rw [List.eq_replicate_iff]
  refine ⟨by rw [List.length_map,List.length_range],fun x hx => ?_⟩
  obtain ⟨i,-,rfl⟩ := List.mem_map.mp hx
  rfl

theorem received_eq (s : Session) (calls : List Call) : received s calls =
    (List.range (askedBefore calls)).map (fun i => .ok (rest s)[i]?)++
      List.replicate (askedAfter calls) (.ok none) := by
  induction calls generalizing s with
  | nil => rfl
  | cons call calls ih =>
    cases call with
    | send message answer =>
      rw [received,ih,rest_send]
      rfl
    | receive =>
      obtain ⟨hhead,htail⟩ := receive_spec s
      have hasked : askedBefore (.receive::calls) = askedBefore calls+1 := List.countP_cons_of_pos rfl
      have hafter : askedAfter (.receive::calls) = askedAfter calls := rfl
      rw [received,ih,hhead,htail,hasked,hafter]
      cases hrest : rest s with
      | nil =>
        rw [List.tail_nil,map_range_nil,map_range_nil,List.replicate_succ]
        rfl
      | cons m ms =>
        rw [List.range_succ_eq_map,List.map_cons,List.map_map]
        rfl
    | close =>
      have hasked : askedBefore (.close::calls) = 0 := rfl
      have hafter : askedAfter (.close::calls) = calls.countP Call.isReceive := rfl
      have hsum : askedBefore calls+askedAfter calls = calls.countP Call.isReceive := by
        rw [askedBefore,askedAfter,← List.countP_append,List.takeWhile_append_dropWhile]
      rw [received,ih,rest_close,hasked,hafter,← hsum,map_range_nil,List.replicate_append_replicate]
      rfl

/-- However the bytes that a server framed are cut into chunks, the receives before the
transport is closed give its messages in their order, and then null. -/
theorem receives_messages (messages : List JsString) (incoming : List (Option Bytes))
    (calls : List Call) (url : JsString) (status : ℕ) (hurl : url ≠ [])
    (hm : ∀ m ∈ messages, isWellFormed m)
    (h : incoming.reduceOption.flatten = textEncode (messages.flatMap encodeSSE)) :
    (do let s ← dialH2Session url ⟨true,status,some incoming⟩; return received s calls) =
      Except.ok ((List.range (askedBefore calls)).map (fun i =>
          .ok (messages.map (textEncode ∘ normalizeLineEnds))[i]?)++
        List.replicate (askedAfter calls) (.ok none)) := by
  have hleft : left (createEventReader incoming) = messages.map normalizeLineEnds := by
    have htext := streamText_messages hm h
    rw [streamText] at htext
    have hstream : left (createEventReader incoming) =
        closing (SSEDecoder.new.push (messages.flatMap encodeSSE)) := by
      rw [← htext]
      rfl
    have hpending : pending (SSEDecoder.new.push (messages.flatMap encodeSSE)) =
        (messages.map normalizeLineEnds,.new) := feed_messages messages
    rw [hstream,closing,hpending]
    exact List.append_nil _
  have hrest : rest ⟨createEventReader incoming,false,[]⟩ =
      messages.map (textEncode ∘ normalizeLineEnds) := by
    rw [rest,if_neg Bool.false_ne_true,hleft,List.map_map]
  have hdial : dialH2Session url ⟨true,status,some incoming⟩ =
      .ok ⟨createEventReader incoming,false,[]⟩ := by
    rw [dialH2Session,if_neg hurl]
    rfl
  rw [hdial,← hrest]
  exact congrArg Except.ok (received_eq _ calls)

/-- A byte at a time, and so with a cut within a character. -/
theorem receives_messages_sample :
    (do let s ← dialH2Session (js "https://h") ⟨true,200,
          some ((textEncode ([[0x7B,0xE9,0x7D]].flatMap encodeSSE)).map fun b => some [b])⟩
        return received s [.receive,.receive]) =
      Except.ok [.ok (some [0x7B,0xC3,0xA9,0x7D]),.ok none] :=
  receives_messages [[0x7B,0xE9,0x7D]] _ [.receive,.receive] (js "https://h") 200 (by decide)
    (by decide) (by decide)

end EventStream
end Semp
