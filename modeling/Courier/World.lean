import Courier.Event
import Courier.Flow
/-!
What requests need from the world around them: a journal for their events and random bits.  Parts of
a world that belong to one thing, such as the tokens of a limiter, are cells.
-/
namespace Courier

/-- A world with a journal and a source of random bits. -/
class World (σ : Type) where
  record : Event → σ → σ
  /-- 64 random bits -/
  random : σ → Nat × σ

namespace World

variable {σ : Type} [World σ]

def report (event : Event) : Flow σ Unit :=
  .update (record event)

/-- Draw 64 random bits. -/
def draw : Flow σ Nat :=
  .act fun _ s => random s

end World

/-- A part of a world. -/
structure Cell (σ α : Type) where
  get : σ → α
  set : α → σ → σ
  get_set : ∀ a s, get (set a s) = a := by intros; rfl
  set_get : ∀ s, set (get s) s = s := by intros; rfl
  set_set : ∀ a b s, set a (set b s) = set a s := by intros; rfl

end Courier
