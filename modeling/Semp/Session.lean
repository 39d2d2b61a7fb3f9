import Semp.Handshake
import Semp.Method

/-! A live session and the transport it owns.  The transport is a script: the frames the
peer, or whoever sits between, delivers, and the frames sent so far; at the end of the
script `receive` gives `null`.  Key arrays a session no longer refers to are kept as
they are afterwards. -/
namespace Semp

structure Transport where
  inbox : List Bytes
  sent : List Bytes
  closed : Bool
  deriving DecidableEq, Repr

namespace Transport

def send (message : Bytes) : Method Thrown Transport Unit := do
  let t ← get
  Handshake.require (t.closed = false) (js "memory transport: send after close")
  set {t with sent := t.sent++[message]}

def receive : Method Thrown Transport (Option Bytes) := do
  let t ← get
  set {t with inbox := t.inbox.tail}
  return t.inbox.head?

def close : Method Thrown Transport Unit := modify fun t => {t with closed := true}

/-- `try { body } catch (err) { close; throw err }` -/
def closeOnError {α : Type} (body : Method Thrown Transport α) : Method Thrown Transport α :=
  tryCatch body fun err => do
    close
    throw err

end Transport

inductive Role
  | client
  | server
  deriving DecidableEq, Repr

/-- `SameValueZero` on values of one iteration: no two objects are the same. -/
def sameValueZero (v w : Json) : Bool :=
  strictEq (some v) (some w) ||
    match v, w with
    | .num x, .num y => x.isNaN && y.isNaN
    | _, _ => false

/-- `new Set(v)` -/
def newSet : Option Json → Js (List Json)
  | none | some .null => .ok []
  | some v => (iterate v).map fun vs =>
    vs.foldl (fun set v => if set.any (sameValueZero v) then set else set++[v]) []

/-- The own properties that `{ ...v }` copies. -/
def spread : Option Json → Members
  | some (.obj ms) => ms
  | some (.arr vs) => vs.mapIdx fun i v => (natText i,v)
  | some (.str s) => s.mapIdx fun i u => (natText i,.str [u])
  | _ => []

structure SessionConfig where
  role : Role
  sessionId : Option Json
  sessionTTL : Option Json
  permissions : Option Json
  keys : SessionKeys
  resumptionTicket : Option Json
  serverIdentityProofKeyId : Option Json
  serverIdentityProofSignature : Option Json
  extensions : Option Json

/-- The fields of a session beside its transport and its clock. -/
structure Session where
  role : Role
  sessionId : Option Json
  sessionTTL : Option Json
  permissions : List Json
  resumptionTicket : Option Json
  serverIdentityProofKeyId : Option Json
  serverIdentityProofSignature : Option Json
  extensions : Members
  keys : Option SessionKeys
  closed : Bool
  /-- The key arrays that were replaced or erased, with what they hold since. -/
  retired : List SessionKeys

/-- `{ newSessionId, newKeys }` -/
structure RekeyApply where
  newSessionId : Option Json
  newKeys : SessionKeys

/-- Every byte of the array zero. -/
def zero (b : Bytes) : Bytes := List.replicate b.length 0

def SessionKeys.zeroed (k : SessionKeys) : SessionKeys where
  encC2S := zero k.encC2S
  encS2C := zero k.encS2C
  macC2S := zero k.macC2S
  macS2C := zero k.macS2C
  envMAC := zero k.envMAC
  resumption := k.resumption.map zero

/-- All bytes of all its keys are zero. -/
def SessionKeys.AllZero (k : SessionKeys) : Prop :=
  ∀ b ∈ [k.encC2S,k.encS2C,k.macC2S,k.macS2C,k.envMAC]++k.resumption.toList, ∀ x ∈ b, x = 0

namespace Session
open Handshake

def new (config : SessionConfig) : Js Session := do
  let permissions ← newSet config.permissions
  .ok {
    role := config.role
    sessionId := config.sessionId
    sessionTTL := config.sessionTTL
    permissions := permissions
    resumptionTicket := config.resumptionTicket
    serverIdentityProofKeyId := config.serverIdentityProofKeyId
    serverIdentityProofSignature := config.serverIdentityProofSignature
    extensions := spread config.extensions
    keys := some config.keys
    closed := false
    retired := [] }

/-- The getter `keys`. -/
def liveKeys (s : Session) : Js SessionKeys :=
  need s.keys (js "session: keys have been erased")

def applyRekey (s : Session) (apply : RekeyApply) : Js Session := do
  let prev ← need s.keys (js "session: applyRekey after erase")
  require (s.closed = false) (js "session: applyRekey on closed session")
  .ok {s with
    keys := some apply.newKeys
    sessionId := apply.newSessionId
    retired := s.retired++[prev.zeroed]}

def closeSession (s : Session) : Session := {s with closed := true}

def erase (s : Session) : Session :=
  match s.keys with
  | none => s.closeSession
  | some k => {s.closeSession with keys := none, retired := s.retired++[k.zeroed]}

end Session

@[simp] theorem SessionKeys.zeroed_allZero (k : SessionKeys) : k.zeroed.AllZero := by
  intro b hb x hx
  simp only [zeroed,zero,List.mem_append,List.mem_cons,List.not_mem_nil,or_false,
    Option.mem_toList,Option.map_eq_some_iff] at hb
  rcases hb with (rfl | rfl | rfl | rfl | rfl) | ⟨_,-,rfl⟩ <;>
    exact (List.mem_replicate.mp hx).2

namespace Transport
variable {t t' : Transport}

theorem send_eq_ok {message : Bytes} {u : Unit} : (send message).call t = (.ok u,t') ↔
    t.closed = false ∧ t' = {t with sent := t.sent++[message]} := by
  rw [send,Method.get_bind,Method.lift_bind_eq_ok]
  simp only [Handshake.require_eq_ok,exists_const]
  refine and_congr_right fun _ => ?_
  change (_,_) = (_,_) ↔ _
  rw [Prod.mk.injEq,eq_comm (b := t')]
  simp

theorem call_receive : receive.call t = (.ok t.inbox.head?,{t with inbox := t.inbox.tail}) := rfl

/-- What the body returns is returned. -/
theorem closeOnError_eq_ok {α : Type} {body : Method Thrown Transport α} {a : α} :
    (closeOnError body).call t = (.ok a,t') ↔ body.call t = (.ok a,t') := by
  rw [closeOnError,Method.call_tryCatch]
  rcases body.call t with ⟨_ | a,mid⟩
  · simp [Method.call_bind,close]
  · rfl

end Transport
end Semp
