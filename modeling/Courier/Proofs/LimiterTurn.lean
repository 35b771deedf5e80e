import Courier.Limiter
import Courier.Proofs.ScopeEnd
/-!
What visitors do to the bucket of a limiter.  Who is granted a token brings the bucket up to date and
leaves it with one token less; who is refused brings it up to date; who finds the scope over does not
touch it.
-/
namespace Courier

namespace TokenBucket

variable {α : Type} [Quantity α]

/-- The bucket without one of its tokens. -/
def debit (bucket : TokenBucket α) : TokenBucket α :=
  { bucket with tokens := bucket.tokens - Quantity.ofNat 1 }

end TokenBucket

namespace Limiter

variable {σ α : Type} [World σ] [Quantity α] {limiter : Limiter σ α} {scope : Scope} {t : Moment}
  {s s₁ : σ}

/-- Who gets a token leaves the bucket with one token less. -/
theorem get_of_tryTake_ok (h : limiter.tryTake t s = (.ok (), s₁)) :
    limiter.bucket.get s₁ = ((limiter.bucket.get s).refill t).debit := by
  simp only [tryTake, TokenBucket.take] at h
  split at h
  · simp only [Prod.mk.injEq, true_and] at h
    rw [← h, limiter.bucket.get_set]
    rfl
  · simp at h

/-- Who gets none leaves the bucket as it is at that moment. -/
theorem get_of_tryTake_error {wait : Span} (h : limiter.tryTake t s = (.error wait, s₁)) :
    limiter.bucket.get s₁ = (limiter.bucket.get s).refill t := by
  simp only [tryTake, TokenBucket.take] at h
  split at h
  · simp at h
  · simp only [Prod.mk.injEq] at h
    rw [← h.2, limiter.bucket.get_set]

/-- There is a token for somebody if there is one in the bucket. -/
theorem tryTake_ok_iff :
    (limiter.tryTake t s).1 = .ok () ↔
      Quantity.le (Quantity.ofNat 1) ((limiter.bucket.get s).refill t).tokens = true := by
  simp only [tryTake, TokenBucket.take]
  split
  · rename_i hle
    simp [hle]
  · rename_i hle
    simp [hle]

/-- One try that pays no heed to a scope. -/
def turn (limiter : Limiter σ α) (now : Moment) (s : σ) : Poll Unit × σ :=
  match limiter.tryTake now s with
  | (.ok (), s) => (.ready (), s)
  | (.error wait, s) => (.later (now.wakeAfter wait), World.record (.waiting wait) s)

/-- The end of the scope comes before a token. -/
theorem attempt_eq_guardPoll (limiter : Limiter σ α) (scope : Scope) :
    limiter.attempt scope = Flow.guardPoll scope limiter.turn := by
  funext now s
  unfold attempt Flow.guardPoll turn
  rcases scope.ended? now with _ | reason
  · rcases limiter.tryTake now s with ⟨_ | _, s₁⟩ <;> rfl
  · rfl

/-- To wait for a token inside a scope is to try again and again as long as the scope lasts. -/
theorem acquire_eq_guarded (limiter : Limiter σ α) (scope : Scope) :
    limiter.acquire scope = Flow.guarded scope (.await limiter.turn .done) := by
  rw [acquire, Flow.guarded, attempt_eq_guardPoll]
  congr 1
  funext r
  cases r <;> rfl

/-- Who waits for a token changes nothing but the bucket and what the reports change. -/
theorem leaves_acquire {γ : Type} {cell : Cell σ γ}
    (hrecord : ∀ event s, cell.get (World.record event s) = cell.get s)
    (htokens : ∀ bucket s, cell.get (limiter.bucket.set bucket s) = cell.get s) (scope : Scope) :
    (limiter.acquire scope).Leaves cell := by
  rw [acquire_eq_guarded]
  refine Flow.Leaves.guarded ⟨fun t s => ?_, fun _ => trivial⟩
  unfold turn tryTake
  rcases (limiter.bucket.get s).take t with ⟨wait | _, bucket⟩
  · exact (hrecord _ _).trans (htokens _ _)
  · exact htokens _ _

theorem tryTake_of_turn_ready {u : Unit} (h : limiter.turn t s = (.ready u, s₁)) :
    limiter.tryTake t s = (.ok (), s₁) := by
  unfold turn at h
  rcases htake : limiter.tryTake t s with ⟨wait | _, s₂⟩
  · simp [htake] at h
  · simp only [htake, Prod.mk.injEq, true_and] at h
    rw [h]

theorem tryTake_of_turn_later {wake : Moment} (h : limiter.turn t s = (.later wake, s₁)) :
    ∃ wait s₂, limiter.tryTake t s = (.error wait, s₂) ∧
      s₁ = World.record (.waiting wait) s₂ := by
  unfold turn at h
  rcases htake : limiter.tryTake t s with ⟨wait | _, s₂⟩
  · simp only [htake, Prod.mk.injEq] at h
    exact ⟨wait, s₂, rfl, h.2.symm⟩
  · simp [htake] at h

end Limiter
end Courier
