import Courier.Quantity
/-!
Token buckets: so many permits in each window of time.  A bucket starts full, fills at a steady rate
up to its capacity, and a grant takes one token out of it.  It is brought up to date only when it is
looked at.
-/
namespace Courier

/-- So many permits per window. -/
structure Rate where
  permits : Nat
  window : Span
deriving Repr, DecidableEq, Inhabited

/-- What is wrong with a rate. -/
inductive RateError
  | noPermits
  | emptyWindow
deriving Repr, DecidableEq

def RateError.detail : RateError → String
  | .noPermits => "permits must be greater than zero"
  | .emptyWindow => "window must be greater than zero"

def RateError.message (e : RateError) : String :=
  s!"Rate limit configuration error: {e.detail}"

namespace Rate

def perSecond (permits : Nat) : Rate := ⟨permits, Span.ofSeconds 1⟩

def perMinute (permits : Nat) : Rate := ⟨permits, Span.ofSeconds 60⟩

/-- A rate that admits something in a window that has a length. -/
def check (rate : Rate) : Except RateError Unit :=
  if rate.permits = 0 then .error .noPermits
  else if rate.window = 0 then .error .emptyWindow
  else .ok ()

/-- Tokens restored in a second. -/
def perSecondOf (α : Type) [Quantity α] (rate : Rate) : α :=
  Quantity.ofNat rate.permits / Quantity.seconds rate.window

end Rate

/-- A bucket of tokens, as it was at the moment `refilledAt`. -/
structure TokenBucket (α : Type) where
  tokens : α
  capacity : α
  rate : α
  refilledAt : Moment
deriving Repr

namespace TokenBucket

variable {α : Type} [Quantity α]

def full (rate : Rate) (now : Moment) : TokenBucket α :=
  { tokens := Quantity.ofNat rate.permits
    capacity := Quantity.ofNat rate.permits
    rate := rate.perSecondOf α
    refilledAt := now }

/-- The bucket brought up to date. -/
def refill (bucket : TokenBucket α) (now : Moment) : TokenBucket α :=
  let elapsed : α := Quantity.seconds (now - bucket.refilledAt)
  { bucket with
    tokens := Quantity.atMost (bucket.tokens + elapsed * bucket.rate) bucket.capacity
    refilledAt := now }

/-- The time until one token is there. -/
def wait (bucket : TokenBucket α) : Span :=
  (Quantity.secondsToSpan? ((Quantity.ofNat 1 - bucket.tokens) / bucket.rate)).getD Span.longest

/-- Take one token, or say how long it takes until one is there. -/
def take (bucket : TokenBucket α) (now : Moment) : Except Span Unit × TokenBucket α :=
  let bucket := bucket.refill now
  if Quantity.le (Quantity.ofNat 1) bucket.tokens then
    (.ok (), { bucket with tokens := bucket.tokens - Quantity.ofNat 1 })
  else (.error bucket.wait, bucket)

end TokenBucket
end Courier
