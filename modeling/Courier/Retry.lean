import Courier.Decimal.Integer
import Courier.Header
import Courier.Quantity
/-!
Retry policies: how often a request is tried, after which answers, and how long to wait in between.
The delays grow by a factor up to a bound and are then spread evenly to both sides; a server that
names a number of seconds is obeyed instead.
-/
namespace Courier

/-- When and how to try again. -/
structure RetryPolicy (α : Type) where
  /-- attempts in all, the first one included -/
  maxAttempts : Nat
  initialDelay : Span
  /-- bound on a delay before it is spread -/
  maxDelay : Span
  multiplier : α
  /-- how far a delay is spread, as a part of it -/
  jitter : α
  /-- statuses after which a request is tried again, in order -/
  statuses : List Nat
deriving Repr

namespace RetryPolicy

/-- Statuses of answers that may be better next time. -/
def defaultStatuses : List Nat := [408, 429, 502, 503, 504]

/-- Put a status into an ordered list without repeats. -/
def insertStatus (status : Nat) : List Nat → List Nat
  | [] => [status]
  | s :: rest =>
      if status = s then s :: rest
      else if status < s then status :: s :: rest
      else s :: insertStatus status rest

def orderStatuses (statuses : List Nat) : List Nat :=
  statuses.foldl (fun acc status => insertStatus status acc) []

/-- Three attempts, half a second apart at first, then twice as long each time. -/
def standard : RetryPolicy Float :=
  { maxAttempts := 3
    initialDelay := Span.ofMillis 500
    maxDelay := Span.ofSeconds 30
    multiplier := 2.0
    jitter := 0.1
    statuses := defaultStatuses }

def single : RetryPolicy Float :=
  { standard with
    maxAttempts := 1, initialDelay := 0, maxDelay := 0, multiplier := 1.0, jitter := 0.0 }

/-- A part of a whole: between 0 and 1, and 0 when it is no number. -/
def clampPart {α : Type} [Quantity α] (x : α) : α :=
  let zero : α := Quantity.ofNat 0
  let one : α := Quantity.ofNat 1
  if !Quantity.isFinite x then zero
  else if !Quantity.le zero x then zero
  else if !Quantity.le x one then one
  else x

def withJitter (policy : RetryPolicy Float) (jitter : Float) : RetryPolicy Float :=
  { policy with jitter := clampPart jitter }

def retries {α : Type} (policy : RetryPolicy α) (status : Nat) : Bool :=
  policy.statuses.contains status

/-- The most attempts that are made, one at least. -/
def attempts {α : Type} (policy : RetryPolicy α) : Nat :=
  max 1 policy.maxAttempts

section Backoff

variable {α : Type} [Quantity α]

/-- The delay after an attempt before it is spread: the first delay times a power of the factor, at
most the bound, in whole nanoseconds. -/
def baseDelay (policy : RetryPolicy α) (attempt : Nat) : Span :=
  if policy.initialDelay = 0 then 0
  else
    let bound : α := Quantity.ofNat policy.maxDelay
    let curve := Quantity.ofNat policy.initialDelay *
      Quantity.power policy.multiplier (max attempt 1 - 1)
    Quantity.whole (Quantity.atMost curve bound)

/-- A delay spread by a part of itself: `draw` goes from 0, the shortest, to 1, the longest. -/
def spread (delay : Span) (part draw : α) : Span :=
  let nanos : α := Quantity.ofNat delay
  let range := nanos * part
  Quantity.whole (nanos - range + draw * Quantity.ofNat 2 * range)

/-- The delay after an attempt, spread by a draw from 0 to 1. -/
def backoffWith (policy : RetryPolicy α) (attempt : Nat) (draw : α) : Span :=
  let delay := policy.baseDelay attempt
  let part := clampPart policy.jitter
  if Quantity.le part (Quantity.ofNat 0) || delay = 0 then delay else spread delay part draw

end Backoff

/-- The fraction that 64 random bits stand for: the first 53 of them. -/
def drawOfBits (bits : Nat) : Float :=
  Decimal.floatOfRatio (bits / Nat.pow 2 11) (Nat.pow 2 53)

/-- The seconds of a `Retry-After` value: a positive whole number. -/
def parseRetryAfter (s : String) : Option Span :=
  match Decimal.readInt Decimal.maxSigned64 s with
  | .ok seconds => if 0 < seconds then some (Span.ofSeconds seconds.toNat) else none
  | .error _ => none

/-- The delay that an answer asks for. -/
def retryAfter (headers : Headers) : Option Span :=
  (headers.get? .retryAfter).bind fun value => value.visible?.bind parseRetryAfter

end RetryPolicy

/-- What to do after an attempt that failed. -/
inductive RetryDecision
  | retry (delay : Span)
  | stop
deriving Repr, DecidableEq

namespace RetryPolicy

def afterFailure (policy : RetryPolicy Float) (attempt : Nat) (draw : Float) : RetryDecision :=
  if policy.maxAttempts ≤ attempt then .stop
  else .retry (policy.backoffWith attempt draw)

def afterStatus (policy : RetryPolicy Float) (attempt status : Nat) (headers : Headers)
    (draw : Float) : RetryDecision :=
  if policy.maxAttempts ≤ attempt || !policy.retries status then .stop
  else .retry ((retryAfter headers).getD (policy.backoffWith attempt draw))

end RetryPolicy
end Courier
