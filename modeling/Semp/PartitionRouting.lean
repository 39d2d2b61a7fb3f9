import Semp.Partition
import Semp.Blocklist
import Semp.SignedDoc

/-! Which server of a partitioned domain an address goes to.  The letters are dealt out to the
servers in runs as even as can be, or the address is hashed; the server's name is then asked
for, and the first answer of the least priority is taken. -/
namespace Semp
namespace Discovery

section Split
variable {letters servers i j : ℕ}

/-- Where run `i` starts when letters are dealt out evenly; the first runs take the rest. -/
def bound (letters servers i : ℕ) : ℕ := i*(letters/servers)+min i (letters%servers)

end Split

/-- A run of first letters, and the server for it. -/
structure AlphaRange where
  start_char : JsString
  end_char : JsString
  server : Option JsString
  deriving DecidableEq, Repr

structure SRVRecord where
  priority : ℕ
  weight : ℕ
  port : ℕ
  target : JsString
  deriving DecidableEq, Repr

def atSign : UInt16 := 64

/-- The part before the last `@`. -/
def localPart (address : JsString) : JsString :=
  if atSign ∈ address then (address.reverse.dropWhile (· ≠ atSign)).tail.reverse else address

/-- An empty bound compares as `NaN` does. -/
def AlphaRange.holds (c : ℕ) (r : AlphaRange) : Bool :=
  match r.start_char,r.end_char with
  | a::_,b::_ => a.toNat ≤ c && c ≤ b.toNat
  | _,_ => false

/-- `target.replace(/\.$/, "")` -/
def withoutDot (target : JsString) : JsString :=
  if target.getLast? = some SignedDoc.dot then target.dropLast else target

def srvName (service domain : JsString) : JsString := js "_"++service++js "._tcp."++domain

/-- The records in the order of their priorities; equal ones keep their places. -/
def sortRecords (records : List SRVRecord) : List SRVRecord :=
  records.insertionSort fun r r' => r.priority ≤ r'.priority

def AlphaRange.service (r : AlphaRange) : JsString :=
  js "semp-partition-"++r.start_char++js "-"++r.end_char

section Code
variable (C : Crypto) (lc : Locale) (config : RoutedConfig) (rc : PartitionResolverConfig)

end Code

section Ranges
variable {servers i c : ℕ}

variable {r : AlphaRange} {rs : List AlphaRange}

end Ranges

section Records

/-- What the names of the domain answer about a service: the first of the sorted records. -/
def answer (lookupSRV : JsString → Js (List SRVRecord)) (domain service : JsString) :
    Js JsString := do
  let records ← lookupSRV (srvName service domain)
  match (sortRecords records).head? with
  | none => raise (js "discovery: no SRV records for "++srvName service domain)
  | some r => .ok (withoutDot r.target)

end Records

section Routing
variable {C : Crypto} {lc : Locale} {config : RoutedConfig} {rc : PartitionResolverConfig}
  {lookupSRV : JsString → Js (List SRVRecord)} {x : Number} {n : ℕ} {address : JsString}

end Routing
end Discovery
end Semp
