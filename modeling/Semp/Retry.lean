import Semp.JsDate

/-! The retry schedule: its bounds, the jittered backoff and the effective deadline. -/
namespace Semp

namespace Retry

def MinRetryInitialIntervalMs : Number := .ofNat 60000

def MinRetryMultiplier : Number := .ofNat 2

def MaxRetryIntervalMs : Number := .ofNat (6*60*60*1000)

/-- The double nearest to 0.10. -/
def MinRetryJitterFraction : Number := .ofRat (1/10)

def MinJitterFloorMs : Number := .ofNat 30000

def DefaultMaxRetryHorizonMs : Number := .ofNat (72*60*60*1000)

def MaxRetryHorizonCapMs : Number := .ofNat (7*24*60*60*1000)

end Retry

open Retry

structure RetryConfig where
  initialIntervalMs : Option Number
  multiplier : Option Number
  maxIntervalMs : Option Number
  jitterFraction : Option Number
  deriving DecidableEq

structure EffectiveRetryConfig where
  initialIntervalMs : Number
  multiplier : Number
  maxIntervalMs : Number
  jitterFraction : Number
  deriving DecidableEq

/-- A sanitized policy is a policy again. -/
def EffectiveRetryConfig.toConfig (eff : EffectiveRetryConfig) : RetryConfig :=
  ⟨some eff.initialIntervalMs,some eff.multiplier,some eff.maxIntervalMs,some eff.jitterFraction⟩

namespace Retry

def sanitizeRetry (cfg : RetryConfig) : EffectiveRetryConfig :=
  let maxIntervalMs := cfg.maxIntervalMs.getD (.zero false)
  { initialIntervalMs := (cfg.initialIntervalMs.getD (.zero false)).max MinRetryInitialIntervalMs
    multiplier := (cfg.multiplier.getD (.zero false)).max MinRetryMultiplier
    maxIntervalMs :=
      if maxIntervalMs.le (.zero false) || MaxRetryIntervalMs.lt maxIntervalMs then
        MaxRetryIntervalMs
      else maxIntervalMs
    jitterFraction := (cfg.jitterFraction.getD (.zero false)).max MinRetryJitterFraction }

/-- The loop of `baseIntervalMs`, with the rounds left. -/
def grow (eff : EffectiveRetryConfig) : ℕ → Number → Number
  | 0, d => d
  | n+1, d =>
    let next := d.mul eff.multiplier
    if eff.maxIntervalMs.lt next then eff.maxIntervalMs else grow eff n next

def baseIntervalMs (cfg : RetryConfig) (attempt : ℕ) : Number :=
  let eff := sanitizeRetry cfg
  (grow eff attempt eff.initialIntervalMs).min eff.maxIntervalMs

/-- `rand` is what the random source returned. -/
def jitterIntervalMs (cfg : RetryConfig) (baseMs rand : Number) : Js Number := do
  let eff := sanitizeRetry cfg
  if baseMs.le (.zero false) then raise (js "delivery: non-positive base interval")
  if rand.lt (.zero false) || (Number.ofNat 1).le rand then
    raise (js "delivery: jitter random source returned out-of-range value")
  let m := ((Number.ofNat 1).sub eff.jitterFraction).add
    (((Number.ofNat 2).mul eff.jitterFraction).mul rand)
  return ((baseMs.mul m).floor).max MinJitterFloorMs

/-- The default random source, from 32 random bits. -/
def defaultRandFloat (bits : UInt32) : Number := .ofRat (bits.toNat/0x100000000)

def nextAttemptAt (cfg : RetryConfig) (previous : JsDate) (attempt : ℕ) (rand : Number) :
    Js JsDate := do
  if previous.isNone then raise (js "delivery: previous attempt time is invalid")
  let jittered ← jitterIntervalMs cfg (baseIntervalMs cfg attempt) rand
  return previous.plus jittered

def recoverableReasons : List JsString :=
  [js "handshake_invalid",js "handshake_expired",js "no_session",js "server_unavailable",
    js "rate_limited",js "server_at_capacity"]

def isRecoverableReason (reasonCode : JsString) : Bool := recoverableReasons.contains reasonCode

def effectiveDeadline (postmarkExpires : Option JsDate) (queuedAt : JsDate)
    (horizonMs : Option Number) : JsDate :=
  let h := horizonMs.getD (.zero false)
  let h := if h.le (.zero false) then DefaultMaxRetryHorizonMs else h
  let h := if MaxRetryHorizonCapMs.lt h then MaxRetryHorizonCapMs else h
  let horizonDeadline := JsDate.plus queuedAt h
  match postmarkExpires with
  | none => horizonDeadline
  | some expires => if expires.lt horizonDeadline then expires else horizonDeadline

end Retry
end Semp
