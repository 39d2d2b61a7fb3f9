import Semp.DeviceRecords
import Semp.JsMap
import Semp.JsSlice
import Semp.Method
import Semp.NumberOrder

/-! The policy of one user: a message carries operations on entries of several kinds, and a
state takes a message as a whole or not at all.  What a message is accepted for, what it
writes, and in which order messages are accepted. -/
namespace Semp

/-- A JSON value of the program: no object has a member twice. -/
abbrev JsonValue := {v : Json // v.WF}

namespace PolicyState

def userPolicyType : JsString := js "SEMP_USER_POLICY"
def userPolicyStep : JsString := js "update"
def policyKindBlock : JsString := js "semp.dev/block"
def policyKindAcceptedSender : JsString := js "semp.dev/accepted_sender"
def policyKindFirstContact : JsString := js "semp.dev/first_contact"

def opAdd : JsString := js "add"
def opRemove : JsString := js "remove"
def opModify : JsString := js "modify"

structure PolicyOperation where
  op : JsString
  kind : JsString
  entryId : Option JsString
  entry : Option JsonValue

structure UserPolicyMessage where
  type : JsString
  step : JsString
  version : JsString
  userId : JsString
  deviceId : JsString
  policyVersion : Number
  timestamp : JsString
  operations : List PolicyOperation
  signature : DeviceRecords.KeysSignature

/-- `PolicyApplyError`, and any other error. -/
inductive ApplyError
  | policyKindUnsupported (kind : JsString) (opIndex : ℕ)
  | policyOpInvalid (kind : JsString) (opIndex : ℕ) (detail : JsString)
  | policyVersionStale (submittedVersion currentVersion : Number)
  | other (error : Thrown)

def quoted (s : JsString) : JsString := JsonText.stringify (.str s)

/-- `messageFor` -/
def ApplyError.message : ApplyError → Option JsString
  | policyKindUnsupported kind opIndex => some (js "delivery: policy operation["++natText opIndex++
      js "] kind "++quoted kind++js " is not supported")
  | policyOpInvalid _ opIndex detail =>
    let text := js "delivery: policy operation["++natText opIndex++js "] is invalid"
    some (if detail = [] then text else text++js ": "++detail)
  | policyVersionStale submitted current => some (js "delivery: submitted policy_version "++
      NumberText.toText submitted++js " is not greater than current "++NumberText.toText current)
  | other (.error message) => some message
  | other _ => none

def isAbsent : Option JsonValue → Bool
  | none | some ⟨.null,_⟩ => true
  | _ => false

/-- `s === undefined || s === ""` -/
def isBlank (s : Option JsString) : Bool := s.getD [] = []

def validateOp (op : PolicyOperation) (i : ℕ) : Except JsString Unit :=
  let site := js "delivery: user policy operations["++natText i++js "]"
  let singleton := site++js " singleton kind "++quoted op.kind
  if op.op ≠ opAdd ∧ op.op ≠ opRemove ∧ op.op ≠ opModify then
    .error (site++js " op "++quoted op.op++
      js " is not in the closed set \x7badd, remove, modify\x7d")
  else if op.kind = [] then .error (site++js " missing kind")
  else if op.kind = policyKindFirstContact ∧ op.op ≠ opModify then
    .error (singleton++js " accepts only modify, got "++op.op)
  else if op.kind = policyKindFirstContact ∧ !isBlank op.entryId then
    .error (singleton++js " MUST NOT carry entry_id")
  else if op.kind = policyKindFirstContact ∧ isAbsent op.entry then
    .error (singleton++js " modify MUST carry entry")
  else if op.op = opRemove ∧ isBlank op.entryId then
    .error (site++js " remove op MUST set entry_id")
  else if op.op = opAdd ∧ isAbsent op.entry then .error (site++js " add op MUST carry entry")
  else .ok ()

def validateOps : ℕ → List PolicyOperation → Except JsString Unit
  | _,[] => .ok ()
  | i,op::ops => do
    validateOp op i
    validateOps (i+1) ops

/-- The index and the rest of a message of `validateOp`, with the kind of the operation. -/
def classifyOpInvalid (message : JsString) (m : UserPolicyMessage) :
    Option (ℕ × JsString × JsString) :=
  let head := js "delivery: user policy operations["
  if !head.isPrefixOf message then none
  else
    match cutAt JsonText.closeBracket (message.drop head.length) with
    | none => none
    | some (idxStr,rest) =>
      if idxStr.length < 1 || !idxStr.all NumberText.isDigit then none
      else
        let idx := NumberText.readDigits idxStr
        match m.operations[idx]? with
        | none => none
        | some op => some (idx,op.kind,if rest.head? = some 32 then rest.tail else rest)

def deepClone : Option JsonValue → Js (Option JsonValue)
  | none => .ok none
  | some ⟨.null,h⟩ => .ok (some ⟨.null,h⟩)
  | some ⟨v,_⟩ =>
    match h : JsonText.parse (JsonText.stringify v) with
    | some w => .ok (some ⟨w,JsonText.parse_wf h⟩)
    | none => .error (.engine .syntaxError)

/-- The entry id of an operation on a list: its own, or the `id` of its entry. -/
def entryIdFor (op : PolicyOperation) : JsString :=
  match op.entryId with
  | some (u::id) => u::id
  | _ =>
    match op.entry with
    | some ⟨.obj ms,_⟩ =>
      match lookup ms (js "id") with
      | some (.str id) => id
      | _ => []
    | _ => []

/-- The entries of a kind; none is kept under the empty id. -/
structure Bucket where
  entries : JsMap (Option JsonValue)
  named : entries.get [] = none

def Bucket.empty : Bucket := ⟨.empty,rfl⟩

def Bucket.set (b : Bucket) (id : JsString) (v : Option JsonValue) (h : id ≠ []) : Bucket :=
  ⟨b.entries.set id v,(JsMap.get_set_ne h.symm).trans b.named⟩

def Bucket.delete (b : Bucket) (id : JsString) : Bucket where
  entries := b.entries.delete id
  named := by
    rw [Option.eq_none_iff_forall_ne_some]
    exact fun v hv => Option.eq_none_iff_forall_ne_some.mp b.named v
      (JsMap.get_delete_eq_some.mp hv).2

end PolicyState

structure PolicyState where
  userIdValue : JsString
  supportedKinds : List JsString
  policyVersionValue : Number
  lastTimestampValue : JsString
  listEntriesMap : JsMap PolicyState.Bucket
  singletonsMap : JsMap (Option JsonValue)

namespace PolicyState

def defaultPolicyKinds : List JsString :=
  [policyKindBlock,policyKindAcceptedSender,policyKindFirstContact]

def new (userId : JsString) (kinds : Option (List JsString)) : Js PolicyState :=
  let ks := match kinds with
    | none | some [] => defaultPolicyKinds
    | some ks => ks
  if userId = [] then raise (js "delivery: policy state requires user_id")
  else if [] ∈ ks then raise (js "delivery: policy state cannot register empty kind")
  else .ok ⟨userId,ks,.zero false,[],.empty,.empty⟩

/-- `deepClone(op.entry)` -/
def cloneEntry (op : PolicyOperation) : Method ApplyError PolicyState (Option JsonValue) :=
  liftM ((deepClone op.entry).mapError ApplyError.other)

/-- The bucket of a kind, which is made if there is none. -/
def openBucket (kind : JsString) : Method ApplyError PolicyState Bucket := do
  let s ← get
  match s.listEntriesMap.get kind with
  | some bucket => pure bucket
  | none => do
    set {s with listEntriesMap := s.listEntriesMap.set kind .empty}
    pure .empty

def putBucket (kind : JsString) (bucket : Bucket) : Method ApplyError PolicyState Unit :=
  modify fun s => {s with listEntriesMap := s.listEntriesMap.set kind bucket}

def applyOp (op : PolicyOperation) : Method ApplyError PolicyState Unit :=
  if op.kind = policyKindFirstContact then do
    let entry ← cloneEntry op
    modify fun s => {s with singletonsMap := s.singletonsMap.set op.kind entry}
  else do
    let bucket ← openBucket op.kind
    if op.op = opAdd ∨ op.op = opModify then
      -- an operation without an id writes nothing
      if h : entryIdFor op ≠ [] then do
        let entry ← cloneEntry op
        putBucket op.kind (bucket.set (entryIdFor op) entry h)
      else pure ()
    else if op.op = opRemove then
      match op.entryId with
      | some (u::id) => putBucket op.kind (bucket.delete (u::id))
      | _ => pure ()
    else pure ()

def applyOps : List PolicyOperation → Method ApplyError PolicyState Unit
  | [] => pure ()
  | op::ops => do
    applyOp op
    applyOps ops

/-- The first operation of a kind that is not registered, with its index. -/
def firstUnsupported (kinds : List JsString) : ℕ → List PolicyOperation → Option (JsString × ℕ)
  | _,[] => none
  | i,op::ops => if op.kind ∈ kinds then firstUnsupported kinds (i+1) ops else some (op.kind,i)

section Code
variable (host : Host)

def validateUserPolicyMessage (m : UserPolicyMessage) (skipSignatureCheck : Bool) :
    Except JsString Unit :=
  if m.type ≠ userPolicyType then
    .error (js "delivery: user policy type "++quoted m.type++js ", want "++userPolicyType)
  else if m.step ≠ userPolicyStep then
    .error (js "delivery: user policy step "++quoted m.step++js ", want "++userPolicyStep)
  else if m.userId = [] then .error (js "delivery: user policy missing user_id")
  else if m.deviceId = [] then .error (js "delivery: user policy missing device_id")
  else if !m.policyVersion.isInteger || m.policyVersion.lt (.ofNat 1) then
    .error (js "delivery: user policy policy_version "++NumberText.toText m.policyVersion++
      js " MUST be >= 1")
  else if m.timestamp = [] then .error (js "delivery: user policy missing timestamp")
  else if (host.dateParse m.timestamp).isNaN then
    .error (js "delivery: user policy timestamp is not ISO 8601")
  else if m.operations.length = 0 then
    .error (js "delivery: user policy operations MUST be non-empty")
  else do
    validateOps 0 m.operations
    if !skipSignatureCheck && m.signature.value = [] then
      .error (js "delivery: user policy is unsigned")
    else .ok ()

/-- `lastTime`: minus infinity before the first message. -/
def lastTime (s : PolicyState) : Number :=
  if s.lastTimestampValue = [] then .inf true else host.dateParse s.lastTimestampValue

def isStale (s : PolicyState) (m : UserPolicyMessage) : Bool :=
  m.policyVersion.lt s.policyVersionValue ||
    (m.policyVersion.eq s.policyVersionValue && (host.dateParse m.timestamp).le (s.lastTime host))

def apply (m : UserPolicyMessage) : Method ApplyError PolicyState Unit := do
  match validateUserPolicyMessage host m false with
  | .error message =>
    match classifyOpInvalid message m with
    | some (opIndex,kind,detail) => throw (.policyOpInvalid kind opIndex detail)
    | none => throw (.other (.error (js "delivery: policy validate: "++message)))
  | .ok _ =>
    let s ← get
    if m.userId ≠ s.userIdValue then
      throw (.other (.error (js "delivery: policy message user_id "++quoted m.userId++
        js " does not match state user_id "++quoted s.userIdValue)))
    else if isStale host s m then
      throw (.policyVersionStale m.policyVersion s.policyVersionValue)
    else
      match firstUnsupported s.supportedKinds 0 m.operations with
      | some (kind,i) => throw (.policyKindUnsupported kind i)
      | none =>
        applyOps m.operations
        modify fun s =>
          {s with policyVersionValue := m.policyVersion, lastTimestampValue := m.timestamp}

/-- The messages of a sequence that are accepted, and the state after it. -/
def run : PolicyState → List UserPolicyMessage → List UserPolicyMessage × PolicyState
  | s,[] => ([],s)
  | s,m::ms =>
    match (apply host m).call s with
    | (.ok _,s') =>
      let rest := run s' ms
      (m::rest.1,rest.2)
    | (.error _,s') => run s' ms

end Code

def cloneEntries : List (JsString × Option JsonValue) → Js (List (JsString × Option JsonValue))
  | [] => .ok []
  | e::es => do
    let v ← deepClone e.2
    let es ← cloneEntries es
    .ok ((e.1,v)::es)

/-- `out[id] = v` on a plain object: the name `__proto__` makes no property of its own. -/
def setOwn (out : List (JsString × Option JsonValue)) (e : JsString × Option JsonValue) :
    List (JsString × Option JsonValue) :=
  if e.1 = js "__proto__" then out else assign out e.1 e.2

/-- The properties of the object that is returned. -/
def listEntries (s : PolicyState) (kind : JsString) : Js (List (JsString × Option JsonValue)) :=
  match s.listEntriesMap.get kind with
  | none => .ok []
  | some bucket => do
    let es ← cloneEntries bucket.entries.entries
    .ok (es.foldl setOwn [])

def singleton (s : PolicyState) (kind : JsString) : Js (Option JsonValue) :=
  match s.singletonsMap.get kind with
  | none => .ok none
  | some v => deepClone v

end PolicyState
end Semp
