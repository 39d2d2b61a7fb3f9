import Semp.JsonText

/-! Thrown values and dynamic property access.  `none` is `undefined`. -/
namespace Semp

/-- Errors the engine raises itself. -/
inductive EngineError
  | typeError
  | syntaxError
  | rangeError
  deriving DecidableEq, Repr

inductive Thrown
  /-- `new Error(message)` -/
  | error (message : JsString)
  | engine (kind : EngineError)
  /-- `HandshakeRejectedError` -/
  | handshakeRejected (sessionId reasonCode reason : Option Json)
  /-- `HandshakeServerRejectionError` -/
  | handshakeServerRejection (reasonCode : JsString) (reason : Option JsString)
    (rejectedBytes : Bytes)
  deriving Repr

abbrev Js := Except Thrown

def raise {α : Type} (message : JsString) : Js α := .error (.error message)

def raiseType {α : Type} : Js α := .error (.engine .typeError)

/-- `JSON.parse(text)` -/
def parseJson (text : JsString) : Js Json :=
  match JsonText.parse text with
  | some v => .ok v
  | none => .error (.engine .syntaxError)

mutual
/-- `ToString` of a JSON value.  An own `toString` member is not callable, and what is
left to try then is no primitive. -/
def toStringText : Json → Js JsString
  | .null => .ok (js "null")
  | .bool b => .ok (if b then js "true" else js "false")
  | .num x => .ok (NumberText.toText x)
  | .str s => .ok s
  | .arr vs => (elementTexts vs).map fun texts => [JsonText.comma].intercalate texts
  | .obj ms => if (lookup ms (js "toString")).isNone then .ok (js "[object Object]") else raiseType
/-- The texts `join` puts commas between; `null` is written as the empty string. -/
def elementTexts : List Json → Js (List JsString)
  | [] => .ok []
  | .null::vs => (elementTexts vs).map ([]::·)
  | v::vs => do
    let text ← toStringText v
    let texts ← elementTexts vs
    .ok (text::texts)
end

/-- `${v}` -/
def templateText : Option Json → Js JsString
  | none => .ok (js "undefined")
  | some v => toStringText v

/-- `${JSON.stringify(v)}` -/
def stringifyText : Option Json → JsString
  | none => js "undefined"
  | some v => JsonText.stringify v

/-- `v[k]`, for a name that no prototype has. -/
def getProp (v : Option Json) (k : JsString) : Js (Option Json) :=
  match v with
  | none | some .null => raiseType
  | some (.obj ms) => .ok (lookup ms k)
  | _ => .ok none

/-- What the language leaves to its host: the reading of dates, and the text of a time. -/
structure Host where
  /-- `Date.parse(s)` -/
  dateParse : JsString → Number
  /-- `new Date(t).toISOString()` -/
  toISOString : Number → Js JsString

/-- `a === b` against a string. -/
def isStr (v : Option Json) (s : JsString) : Bool :=
  match v with
  | some (.str t) => t == s
  | _ => false

theorem bind_eq_ok {α β : Type} {x : Js α} {f : α → Js β} {b : β} :
    (x >>= f) = .ok b ↔ ∃ a, x = .ok a ∧ f a = .ok b := by
  cases x with
  | error e => simp [bind,Except.bind]
  | ok a => simp [bind,Except.bind]

@[simp] theorem ok_bind {α β : Type} (a : α) (f : α → Js β) :
    ((.ok a : Js α) >>= f) = f a := rfl

@[simp] theorem error_bind {α β : Type} (e : Thrown) (f : α → Js β) :
    ((.error e : Js α) >>= f) = .error e := rfl

@[simp] theorem raise_bind {α β : Type} (message : JsString) (f : α → Js β) :
    (raise message >>= f) = raise message := rfl

@[simp] theorem raise_ne_ok {α : Type} (message : JsString) (a : α) :
    (raise message : Js α) ≠ .ok a := nofun

@[simp] theorem raiseType_ne_ok {α : Type} (a : α) : (raiseType : Js α) ≠ .ok a := nofun

@[simp] theorem parseJson_stringify {v : Json} (h : v.WF) :
    parseJson (JsonText.stringify v) = .ok v.reparse := by
  simp [parseJson,JsonText.parse_stringify h]

theorem parseJson_eq_ok {text : JsString} {v : Json} :
    parseJson text = .ok v ↔ JsonText.parse text = some v := by
  unfold parseJson
  cases JsonText.parse text <;> simp

@[simp] theorem getProp_obj (ms : Members) (k : JsString) :
    getProp (some (.obj ms)) k = .ok (lookup ms k) := rfl

@[simp] theorem isStr_iff {v : Option Json} {s : JsString} :
    isStr v s = true ↔ v = some (.str s) := by
  unfold isStr
  split <;> simp_all

end Semp
