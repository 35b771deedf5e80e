import Courier.Decimal.Read
import Courier.Json.Shape
import Courier.Settings
import Courier.Text.Ascii
/-!
Configurations: what files and variables say about a client.  Configurations are layered; a field
that the upper layer sets wins.
-/
namespace Courier

/-- How to try again; what is not set is as in the standard policy. -/
structure Config.Retry where
  maxAttempts : Option Nat := none
  initialDelayMillis : Option Nat := none
  maxDelayMillis : Option Nat := none
  multiplier : Option Float := none
  jitter : Option Float := none
  statuses : Option (List Nat) := none
deriving Repr, Inhabited

/-- So many permits in so many milliseconds. -/
structure Config.Limit where
  permits : Nat
  windowMillis : Nat
deriving Repr, DecidableEq, Inhabited

/-- What is said about a client; headers are ordered by name. -/
structure Config where
  baseUrl : Option String := none
  timeoutMillis : Option Nat := none
  userAgent : Option String := none
  contentType : Option String := none
  headers : List (String × String) := []
  retry : Option Config.Retry := none
  limit : Option Config.Limit := none
deriving Repr, Inhabited

namespace Config

def Retry.merge (lower upper : Retry) : Retry :=
  { maxAttempts := upper.maxAttempts.or lower.maxAttempts
    initialDelayMillis := upper.initialDelayMillis.or lower.initialDelayMillis
    maxDelayMillis := upper.maxDelayMillis.or lower.maxDelayMillis
    multiplier := upper.multiplier.or lower.multiplier
    jitter := upper.jitter.or lower.jitter
    statuses := upper.statuses.or lower.statuses }

/-- The policy: the standard one with what is set. -/
def Retry.policy (retry : Retry) : RetryPolicy Float :=
  let standard := RetryPolicy.standard
  { maxAttempts := retry.maxAttempts.getD standard.maxAttempts
    initialDelay := (retry.initialDelayMillis.map Span.ofMillis).getD standard.initialDelay
    maxDelay := (retry.maxDelayMillis.map Span.ofMillis).getD standard.maxDelay
    multiplier := retry.multiplier.getD standard.multiplier
    jitter := (retry.jitter.map RetryPolicy.clampPart).getD standard.jitter
    statuses := (retry.statuses.map RetryPolicy.orderStatuses).getD standard.statuses }

def Limit.rate (limit : Limit) : Rate :=
  ⟨limit.permits, Span.ofMillis limit.windowMillis⟩

/-- Read `N/SECONDS`; the window is rounded to whole milliseconds. -/
def Limit.parse (text : String) : Except SetupError Limit :=
  match Text.splitOnce '/' text with
  | none => .error (.rateText text)
  | some (permits, seconds) =>
      match Decimal.readNat Decimal.max32 (Text.trim permits),
          Decimal.readFloat (Text.trim seconds) with
      | .ok permits, .ok seconds =>
          if permits = 0 || !seconds.isFinite || seconds <= 0.0 then .error (.rateText text)
          else .ok ⟨permits, wholeNearest (seconds * 1000.0)⟩
      | _, _ => .error (.rateText text)

/-- One layer on top of another. -/
def merge (lower upper : Config) : Config :=
  { baseUrl := upper.baseUrl.or lower.baseUrl
    timeoutMillis := upper.timeoutMillis.or lower.timeoutMillis
    userAgent := upper.userAgent.or lower.userAgent
    contentType := upper.contentType.or lower.contentType
    headers := upper.headers.foldl (fun acc h => Fields.insert h.1 h.2 acc) lower.headers
    retry :=
      match lower.retry, upper.retry with
      | some lower, some upper => some (lower.merge upper)
      | lower, upper => upper.or lower
    limit := upper.limit.or lower.limit }

end Config
end Courier
