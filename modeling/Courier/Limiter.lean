import Courier.TokenBucket
import Courier.World
/-!
Limiters: a token bucket that all requests of a client share.  Who finds no token waits as long as
one takes to come and then tries again; others may have been faster.
-/
namespace Courier

/-- A bucket in a part of the world that reports and random draws leave alone. -/
structure Limiter (σ : Type) [World σ] (α : Type := Float) where
  rate : Rate
  bucket : Cell σ (TokenBucket α)
  get_record : ∀ event s, bucket.get (World.record event s) = bucket.get s := by intros; rfl
  get_random : ∀ s, bucket.get (World.random s).2 = bucket.get s := by intros; rfl

namespace Limiter

variable {σ α : Type} [World σ] [Quantity α]

/-- Take a token without waiting, or say how long the wait is. -/
def tryTake (limiter : Limiter σ α) (now : Moment) (s : σ) : Except Span Unit × σ :=
  let (answer, bucket) := (limiter.bucket.get s).take now
  (answer, limiter.bucket.set bucket s)

/-- One try inside a scope: the end of the scope comes before a token. -/
def attempt (limiter : Limiter σ α) (scope : Scope) (now : Moment) (s : σ) :
    Poll (Except Interruption Unit) × σ :=
  match scope.ended? now with
  | some reason => (.ready (.error reason), s)
  | none =>
      match limiter.tryTake now s with
      | (.ok (), s) => (.ready (.ok ()), s)
      | (.error wait, s) =>
          (.later (scope.cap (now.wakeAfter wait)), World.record (.waiting wait) s)

/-- Wait for a token until the scope ends. -/
def acquire (limiter : Limiter σ α) (scope : Scope) : Flow σ (Except Interruption Unit) :=
  .await (limiter.attempt scope) .done

/-- The tokens in the bucket, which is brought up to date. -/
def tokens (limiter : Limiter σ α) (now : Moment) (s : σ) : α × σ :=
  let bucket := (limiter.bucket.get s).refill now
  (bucket.tokens, limiter.bucket.set bucket s)

end Limiter
end Courier
