import Semp.JsSlice
import Semp.Transducer

/-! Server-sent events: a message is written as `data:` lines and a blank line, and a
decoder reads events from a buffer that grows by chunks.  The decoder does what a
transducer of single units does, so its events do not depend on the chunks. -/
namespace Semp
namespace Sse
open Transducer

def cr : UInt16 := 0x0D
def lf : UInt16 := 0x0A
def colon : UInt16 := 0x3A
def space : UInt16 := 0x20

/-- The loop of `splitSSELines`; `line` is what stands between `start` and `i`. -/
def splitFrom : JsString → JsString → List JsString
  | line,[] => [line]
  | line,[c] => if c ≠ cr ∧ c ≠ lf then splitFrom (line++[c]) [] else [line,[]]
  | line,c::d::rest =>
    if c ≠ cr ∧ c ≠ lf then splitFrom (line++[c]) (d::rest)
    else if c = cr ∧ d = lf then line::splitFrom [] rest
    else line::splitFrom [] (d::rest)

def splitSSELines (s : JsString) : List JsString := if s = [] then [[]] else splitFrom [] s

def encodeSSE (message : JsString) : JsString :=
  (splitSSELines message).flatMap (fun line => js "data: "++line++[lf])++[lf]

/-- The field and the value of a line; one space after the colon is dropped. -/
def parseField (line : JsString) : JsString × JsString :=
  match cutAt colon line with
  | none => (line,[])
  | some (field,value) => (field,if value.head? = some space then value.tail else value)

/-- One turn of the loop of `next`, on a line that was cut off the buffer: an event when a
blank line ends one, and the data lines after it. -/
def takeLine (dataLines : List JsString) (line : JsString) : Option JsString × List JsString :=
  let line := if line.getLast? = some cr then line.dropLast else line
  if line = [] then
    if 0 < dataLines.length then (some ([lf].intercalate dataLines),[]) else (none,dataLines)
  else if line.head? = some colon then (none,dataLines)
  else if (parseField line).1 ≠ js "data" then (none,dataLines)
  else (none,dataLines++[(parseField line).2])

structure SSEDecoder where
  buffer : JsString
  dataLines : List JsString
  deriving DecidableEq, Repr

namespace SSEDecoder

def new : SSEDecoder := ⟨[],[]⟩

def push (d : SSEDecoder) (chunk : JsString) : SSEDecoder := ⟨d.buffer++chunk,d.dataLines⟩

def next (d : SSEDecoder) : Option JsString × SSEDecoder :=
  match _h : cutAt lf d.buffer with
  | none => (none,d)
  | some (line,rest) =>
    match takeLine d.dataLines line with
    | (some event,dataLines) => (some event,⟨rest,dataLines⟩)
    | (none,dataLines) => next ⟨rest,dataLines⟩
termination_by d.buffer.length
decreasing_by
  rw [(cutAt_eq_some.mp _h).1,List.length_append,List.length_cons]
  omega

def flush (d : SSEDecoder) : Option JsString × SSEDecoder :=
  if d.dataLines.length = 0 then (none,d) else (some ([lf].intercalate d.dataLines),⟨d.buffer,[]⟩)

theorem length_next {d d' : SSEDecoder} {event : JsString} (h : d.next = (some event,d')) :
    d'.buffer.length < d.buffer.length := by
  fun_induction next d with
  | case1 d hcut => cases h
  | case2 d line rest hcut event' dataLines hturn =>
    obtain rfl := (Prod.mk.inj h).2
    rw [(cutAt_eq_some.mp hcut).1,List.length_append,List.length_cons]
    exact Nat.lt_add_left _ (Nat.lt_succ_self _)
  | case3 d line rest hcut dataLines hturn ih =>
    have hlt := ih h
    rw [(cutAt_eq_some.mp hcut).1,List.length_append,List.length_cons]
    change d'.buffer.length < rest.length at hlt
    omega

/-- The loop of `decodeSSE`: the events up to the first `null`. -/
def drain (d : SSEDecoder) : List JsString × SSEDecoder :=
  match _h : d.next with
  | (none,d') => ([],d')
  | (some event,d') =>
    let rest := drain d'
    (event::rest.1,rest.2)
termination_by d.buffer.length
decreasing_by exact length_next _h

end SSEDecoder

def decodeSSE (blob : JsString) : List JsString :=
  let r := (SSEDecoder.new.push blob).drain
  match r.2.flush.1 with
  | none => r.1
  | some trailing => r.1++[trailing]

/-- A call of a reader. -/
inductive Call
  | push (chunk : JsString)
  | next

/-- The events a reader gets from its calls, and the decoder after them. -/
def run : SSEDecoder → List Call → List JsString × SSEDecoder
  | d,[] => ([],d)
  | d,.push chunk::calls => run (d.push chunk) calls
  | d,.next::calls =>
    let turn := d.next
    let rest := run turn.2 calls
    (turn.1.toList++rest.1,rest.2)

def Call.pushed : Call → JsString
  | push chunk => chunk
  | next => []

/-- The text a reader pushed. -/
def pushed (calls : List Call) : JsString := calls.flatMap Call.pushed

/-- CR and CRLF become LF. -/
def normalizeLineEnds : JsString → JsString
  | [] => []
  | [c] => [if c = cr then lf else c]
  | c::d::rest =>
    if c = cr then
      if d = lf then lf::normalizeLineEnds rest else lf::normalizeLineEnds (d::rest)
    else c::normalizeLineEnds (d::rest)

section Lines

theorem splitFrom_ne_nil (line s : JsString) : splitFrom line s ≠ [] := by
  fun_induction splitFrom line s with
  | case1 | case3 | case5 | case6 => simp
  | case2 _ _ _ ih => exact ih
  | case4 _ _ _ _ _ ih => exact ih

theorem intercalate_cons {line : JsString} {lines : List JsString} (h : lines ≠ []) :
    [lf].intercalate (line::lines) = line++lf::[lf].intercalate lines := by
  cases lines with
  | nil => exact absurd rfl h
  | cons l lines => simp [List.intercalate,List.intersperse]

theorem intercalate_splitFrom (line s : JsString) :
    [lf].intercalate (splitFrom line s) = line++normalizeLineEnds s := by
  fun_induction splitFrom line s with
  | case1 line => simp [normalizeLineEnds,List.intercalate]
  | case2 line c h ih =>
    rw [ih]
    simp [normalizeLineEnds,h.1]
  | case3 line c h =>
    rw [intercalate_cons (by simp),normalizeLineEnds]
    have hc : (if c = cr then lf else c) = lf := by
      split_ifs with hcr
      · rfl
      · exact not_not.mp fun hlf => h ⟨hcr,hlf⟩
    rw [hc]
    rfl
  | case4 line c d rest h ih =>
    rw [ih,normalizeLineEnds,if_neg h.1,List.append_assoc]
    rfl
  | case5 line c d rest h hcrlf ih =>
    rw [intercalate_cons (splitFrom_ne_nil _ _),ih,normalizeLineEnds,if_pos hcrlf.1,
      if_pos hcrlf.2,List.nil_append]
  | case6 line c d rest h hcrlf ih =>
    rw [intercalate_cons (splitFrom_ne_nil _ _),ih,normalizeLineEnds,List.nil_append]
    by_cases hcr : c = cr
    · rw [if_pos hcr,if_neg fun hlf => hcrlf ⟨hcr,hlf⟩]
    · obtain rfl : c = lf := not_not.mp fun hlf => h ⟨hcr,hlf⟩
      rw [if_neg hcr]

/-- No line of a message holds a line end. -/
theorem splitFrom_clean {line s l : JsString} (hline : cr ∉ line ∧ lf ∉ line)
    (h : l ∈ splitFrom line s) : cr ∉ l ∧ lf ∉ l := by
  have hnil : cr ∉ ([] : JsString) ∧ lf ∉ ([] : JsString) := by simp
  have hadd {line : JsString} {c : UInt16} (hline : cr ∉ line ∧ lf ∉ line)
      (hc : c ≠ cr ∧ c ≠ lf) : cr ∉ line++[c] ∧ lf ∉ line++[c] := by
    simp only [List.mem_append,List.mem_singleton,not_or]
    exact ⟨⟨hline.1,Ne.symm hc.1⟩,hline.2,Ne.symm hc.2⟩
  fun_induction splitFrom line s with
  | case1 line =>
    obtain rfl := List.mem_singleton.mp h
    exact hline
  | case2 line c hc ih => exact ih (hadd hline hc) h
  | case3 line c hc =>
    obtain rfl | h := List.mem_cons.mp h
    · exact hline
    · obtain rfl := List.mem_singleton.mp h
      exact hnil
  | case4 line c d rest hc ih => exact ih (hadd hline hc) h
  | case5 line c d rest hc hcrlf ih =>
    obtain rfl | h := List.mem_cons.mp h
    · exact hline
    · exact ih hnil h
  | case6 line c d rest hc hcrlf ih =>
    obtain rfl | h := List.mem_cons.mp h
    · exact hline
    · exact ih hnil h

theorem splitSSELines_eq (s : JsString) : splitSSELines s = splitFrom [] s := by
  unfold splitSSELines
  split_ifs with h
  · rw [h,splitFrom]
  · rfl

/-- What `encodeSSE` writes for a line is read as this line. -/
theorem takeLine_data (dataLines : List JsString) {line : JsString} (h : cr ∉ line) :
    takeLine dataLines (js "data: "++line) = (none,dataLines++[line]) := by
  have hdata : js "data: "++line = js "data"++colon::space::line := rfl
  have hlast : (js "data: "++line).getLast? ≠ some cr := by
    intro hlast
    have hmem := List.mem_of_getLast? hlast
    rw [List.mem_append] at hmem
    exact hmem.elim (by decide) h
  have hcut : cutAt colon (js "data: "++line) = some (js "data",space::line) :=
    cutAt_eq_some.mpr ⟨hdata,by decide⟩
  have hfield : parseField (js "data: "++line) = (js "data",line) := by
    rw [parseField,hcut]
    rfl
  have hne : js "data: "++line ≠ [] := by simp [js]
  have hhead : (js "data: "++line).head? ≠ some colon := by
    rw [hdata]
    exact fun h => absurd (Option.some.inj h) (by decide)
  simp only [takeLine]
  rw [if_neg hlast,if_neg hne,if_neg hhead,hfield,if_neg (not_not.mpr rfl)]

end Lines

section Decoding

/-- The decoder as a transducer of units: an LF ends the line in the buffer. -/
def step (d : SSEDecoder) (c : UInt16) : Option JsString × SSEDecoder :=
  if c = lf then
    let turn := takeLine d.dataLines d.buffer
    (turn.1,⟨[],turn.2⟩)
  else (none,⟨d.buffer++[c],d.dataLines⟩)

/-- The events a decoder still holds, and what is left of it after them. -/
def pending (d : SSEDecoder) : List JsString × SSEDecoder := feed step ⟨[],d.dataLines⟩ d.buffer

variable {d : SSEDecoder} {line rest : JsString} {dataLines : List JsString}

theorem feed_line (start : JsString) (h : lf ∉ line) :
    feed step ⟨start,dataLines⟩ line = ([],⟨start++line,dataLines⟩) := by
  induction line generalizing start with
  | nil => simp
  | cons c line ih =>
    rw [List.mem_cons,not_or] at h
    have hstep : step ⟨start,dataLines⟩ c = (none,⟨start++[c],dataLines⟩) :=
      if_neg (Ne.symm h.1)
    rw [feed_quiet hstep,ih _ h.2,List.append_assoc]
    rfl

/-- The transducer on a whole line does one turn of the loop of `next`. -/
theorem feed_turn (h : lf ∉ line) : feed step ⟨[],dataLines⟩ (line++lf::rest) =
    ((takeLine dataLines line).1.toList++(feed step ⟨[],(takeLine dataLines line).2⟩ rest).1,
      (feed step ⟨[],(takeLine dataLines line).2⟩ rest).2) := by
  rw [feed_append,feed_line [] h,List.nil_append,List.nil_append,feed_cons]
  rfl

theorem pending_cut (h : cutAt lf d.buffer = some (line,rest)) :
    pending d = ((takeLine d.dataLines line).1.toList++
      (pending ⟨rest,(takeLine d.dataLines line).2⟩).1,
      (pending ⟨rest,(takeLine d.dataLines line).2⟩).2) := by
  obtain ⟨hbuffer,hline⟩ := cutAt_eq_some.mp h
  rw [pending,hbuffer,feed_turn hline]
  rfl

theorem pending_idle (h : cutAt lf d.buffer = none) : pending d = ([],d) := by
  rw [pending,feed_line [] (cutAt_eq_none.mp h)]
  rfl

/-- `next` gives the first pending event, and `null` only when there is none. -/
theorem pending_next (d : SSEDecoder) :
    pending d = (d.next.1.toList++(pending d.next.2).1,(pending d.next.2).2) ∧
      (d.next.1 = none → pending d.next.2 = ([],d.next.2)) := by
  fun_induction SSEDecoder.next d with
  | case1 d h => exact ⟨rfl,fun _ => pending_idle h⟩
  | case2 d line rest hcut event dataLines hturn =>
    refine ⟨?_,nofun⟩
    rw [pending_cut hcut,hturn]
  | case3 d line rest hcut dataLines hturn ih =>
    refine ⟨?_,ih.2⟩
    rw [pending_cut hcut,hturn,Option.toList_none,List.nil_append]
    exact ih.1

theorem drain_eq (d : SSEDecoder) : d.drain = pending d := by
  fun_induction SSEDecoder.drain d with
  | case1 d d' h =>
    have hnext := pending_next d
    rw [h] at hnext
    rw [hnext.1,hnext.2 rfl]
    rfl
  | case2 d event d' h rest ih =>
    have hnext := (pending_next d).1
    rw [h] at hnext
    rw [hnext,← ih]
    rfl

theorem pending_push (d : SSEDecoder) (chunk : JsString) : pending (d.push chunk) =
    ((pending d).1++(feed step (pending d).2 chunk).1,(feed step (pending d).2 chunk).2) :=
  feed_append _ d.buffer chunk

/-- However a text is cut and whenever a reader asks, the events it gets and those it can
still get are the events of the text pushed at once. -/
theorem run_pending (d : SSEDecoder) (calls : List Call) : pending (d.push (pushed calls)) =
    ((run d calls).1++(pending (run d calls).2).1,(pending (run d calls).2).2) := by
  induction calls generalizing d with
  | nil =>
    rw [pending_push]
    simp [pushed,run]
  | cons call calls ih =>
    cases call with
    | push chunk =>
      have hpush : d.push (pushed (.push chunk::calls)) = (d.push chunk).push (pushed calls) := by
        simp [SSEDecoder.push,pushed,Call.pushed]
      rw [hpush,ih]
      rfl
    | next =>
      have hnext := ih d.next.2
      rw [pending_push] at hnext
      obtain ⟨hevents,hrest⟩ := Prod.mk.inj hnext
      have hpushed : pushed (.next::calls) = pushed calls := rfl
      rw [hpushed,pending_push,(pending_next d).1]
      simp only [run,List.append_assoc]
      rw [hevents,hrest]

end Decoding

section RoundTrip

theorem feed_lines {lines : List JsString} (h : ∀ l ∈ lines, cr ∉ l ∧ lf ∉ l)
    (dataLines : List JsString) :
    feed step ⟨[],dataLines⟩ (lines.flatMap fun line => js "data: "++line++[lf]) =
      ([],⟨[],dataLines++lines⟩) := by
  induction lines generalizing dataLines with
  | nil => simp
  | cons line lines ih =>
    obtain ⟨hline,hlines⟩ := List.forall_mem_cons.mp h
    have hlf : lf ∉ js "data: "++line := by
      rw [List.mem_append]
      exact fun hmem => hmem.elim (by decide) hline.2
    rw [List.flatMap_cons,List.append_assoc,List.singleton_append,feed_turn hlf,
      takeLine_data _ hline.1,ih hlines]
    simp

/-- An encoded message is one event, and leaves nothing behind. -/
theorem feed_encodeSSE (message : JsString) :
    feed step .new (encodeSSE message) = ([normalizeLineEnds message],.new) := by
  have hclean : ∀ l ∈ splitSSELines message, cr ∉ l ∧ lf ∉ l := by
    rw [splitSSELines_eq]
    exact fun l hl => splitFrom_clean (by simp) hl
  have hpos : 0 < (splitSSELines message).length := by
    rw [splitSSELines_eq]
    exact List.length_pos_of_ne_nil (splitFrom_ne_nil _ _)
  have hevent : [lf].intercalate (splitSSELines message) = normalizeLineEnds message := by
    rw [splitSSELines_eq,intercalate_splitFrom,List.nil_append]
  have hblank : takeLine (splitSSELines message) [] = (some (normalizeLineEnds message),[]) := by
    rw [← hevent]
    exact if_pos hpos
  rw [encodeSSE,feed_append,SSEDecoder.new,feed_lines hclean,List.nil_append,List.nil_append,
    feed_cons]
  simp [step,hblank]

theorem feed_messages (messages : List JsString) :
    feed step .new (messages.flatMap encodeSSE) = (messages.map normalizeLineEnds,.new) := by
  induction messages with
  | nil => rfl
  | cons message messages ih =>
    rw [List.flatMap_cons,feed_append,feed_encodeSSE,ih]
    rfl

/-- What was encoded is decoded with its line ends normalised.  A decoder that gets a text in
any chunks, between calls of `next` at any places, gives the events of the text as it is
pushed at once: those it gave so far are the first of them, and draining it gives the rest
and leaves the same decoder. -/
theorem framing (messages : List JsString) :
    decodeSSE (messages.flatMap encodeSSE) = messages.map normalizeLineEnds ∧
    (∀ calls, let whole := (SSEDecoder.new.push (pushed calls)).drain
      let r := run .new calls
      r.1++r.2.drain.1 = whole.1 ∧ r.2.drain.2 = whole.2) ∧
    ∀ calls, pushed calls = messages.flatMap encodeSSE → let r := run .new calls
      r.1++r.2.drain.1 = messages.map normalizeLineEnds ∧ r.2.drain.2 = .new := by
  have hwhole : (SSEDecoder.new.push (messages.flatMap encodeSSE)).drain =
      (messages.map normalizeLineEnds,.new) := by
    rw [drain_eq]
    exact feed_messages messages
  have hrun (calls : List Call) : (SSEDecoder.new.push (pushed calls)).drain =
      ((run .new calls).1++(run .new calls).2.drain.1,(run .new calls).2.drain.2) := by
    rw [drain_eq,run_pending,← drain_eq]
  refine ⟨?_,fun calls => ?_,fun calls h => ?_⟩
  · simp only [decodeSSE,hwhole]
    rfl
  · obtain ⟨hevents,hrest⟩ := Prod.mk.inj (hrun calls)
    exact ⟨hevents.symm,hrest.symm⟩
  · rw [← h,hrun] at hwhole
    exact Prod.mk.inj hwhole

end RoundTrip
end Sse
end Semp
