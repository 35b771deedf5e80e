import Courier.Scope
/-!
Flows: computations over a shared world that may wait.  A flow is a chain of polls.  A poll looks at
the moment and the world, may change the world, and either is ready with an answer or names the
moment at which it wants to be polled again; so a loop that tries again after each wait is one poll.
Between two polls of one flow that are both ready, no time passes and nobody else acts.

Several flows share a world by taking turns: each goes on until it has to wait, and the clock moves
only when all of them wait.  A flow `within` a scope is asked first whether the scope is over, each
time it is polled; so of two things that fall on one moment, the end of the scope wins.
-/
namespace Courier

inductive Poll (β : Type)
  | ready (b : β)
  | later (wake : Moment)

/-- A computation over the world `σ` that may wait and ends with an `α`. -/
inductive Flow (σ : Type) (α : Type) : Type 1
  | done (a : α)
  | await {β : Type} (poll : Moment → σ → Poll β × σ) (next : β → Flow σ α)

namespace Flow

variable {σ α β : Type}

def bind : Flow σ α → (α → Flow σ β) → Flow σ β
  | .done a, k => k a
  | .await poll next, k => .await poll fun b => (next b).bind k

instance : Monad (Flow σ) where
  pure := .done
  bind := .bind

/-- An action that needs no time. -/
def act (f : Moment → σ → α × σ) : Flow σ α :=
  .await (fun now s => (.ready (f now s).1, (f now s).2)) .done

def now : Flow σ Moment :=
  act fun t s => (t, s)

def update (f : σ → σ) : Flow σ Unit :=
  act fun _ s => ((), f s)

def sleepUntil (wake : Moment) : Flow σ Unit :=
  .await (fun now s => (if wake ≤ now then .ready () else .later wake, s)) .done

def sleep (d : Span) : Flow σ Unit :=
  now.bind fun t => sleepUntil (t.wakeAfter d)

/-- Poll only while the scope lasts, and wake at its end at the latest. -/
def guardPoll (scope : Scope) (poll : Moment → σ → Poll β × σ) (now : Moment) (s : σ) :
    Poll (Except Interruption β) × σ :=
  match scope.ended? now with
  | some reason => (.ready (.error reason), s)
  | none =>
      match poll now s with
      | (.ready b, s) => (.ready (.ok b), s)
      | (.later wake, s) => (.later (scope.cap wake), s)

/-- A flow that is given up as soon as the scope is over at one of its polls. -/
def guarded (scope : Scope) : Flow σ α → Flow σ (Except Interruption α)
  | .done a => .done (.ok a)
  | .await poll next =>
      .await (guardPoll scope poll) fun
        | .error reason => .done (.error reason)
        | .ok b => guarded scope (next b)

/-- A flow inside a scope: not begun when the scope is over, given up when the scope ends. -/
def within (scope : Scope) (flow : Flow σ α) : Flow σ (Except Interruption α) :=
  .await (fun now s => (.ready (scope.ended? now), s)) fun
    | some reason => .done (.error reason)
    | none => guarded scope flow

/-- How far a flow comes at one moment: to its end, or to a poll that has to wait. -/
inductive Progress (σ : Type) (α : Type) : Type 1
  | finished (a : α)
  | waiting (wake : Moment) (rest : Flow σ α)

/-- Go on until the end or the next wait. -/
def advance (now : Moment) : Flow σ α → σ → Progress σ α × σ
  | .done a, s => (.finished a, s)
  | .await poll next, s =>
      match poll now s with
      | (.ready b, s) => advance now (next b) s
      | (.later wake, s) => (.waiting wake (.await poll next), s)

/-- A flow that ended: when, with what, and the world it left. -/
structure Outcome (σ : Type) (α : Type) where
  value : α
  moment : Moment
  world : σ

/-- Run a flow that is alone in its world.  Each unit of fuel allows one wait. -/
def run (now : Moment) (flow : Flow σ α) (s : σ) : Nat → Option (Outcome σ α)
  | 0 => none
  | fuel + 1 =>
      match advance now flow s with
      | (.finished a, s) => some ⟨a, now, s⟩
      | (.waiting wake rest, s) => run (max now wake).tick rest s fuel

/-- One of several flows: still to be polled at a moment, or ended. -/
inductive Member (σ : Type) (α : Type) : Type 1
  | pending (wake : Moment) (flow : Flow σ α)
  | ended (moment : Moment) (value : α)

/-- Let every member that is due go on, the first of them first. -/
def turn (now : Moment) : List (Member σ α) → σ → List (Member σ α) × σ
  | [], s => ([], s)
  | .ended t a :: rest, s =>
      let (rest, s) := turn now rest s
      (.ended t a :: rest, s)
  | .pending wake flow :: rest, s =>
      if wake ≤ now then
        match advance now flow s with
        | (.finished a, s) =>
            let (rest, s) := turn now rest s
            (.ended now a :: rest, s)
        | (.waiting wake' flow, s) =>
            let (rest, s) := turn now rest s
            (.pending wake' flow :: rest, s)
      else
        let (rest, s) := turn now rest s
        (.pending wake flow :: rest, s)

/-- The first moment at which a member is due. -/
def nextWake : List (Member σ α) → Option Moment
  | [] => none
  | .ended _ _ :: rest => nextWake rest
  | .pending wake _ :: rest => Scope.earlier (some wake) (nextWake rest)

def results : List (Member σ α) → List (Moment × α)
  | [] => []
  | .ended t a :: rest => (t, a) :: results rest
  | .pending _ _ :: rest => results rest

/-- Run several flows in one world until all have ended.  Each unit of fuel allows one move of the
clock. -/
def runAll (now : Moment) (members : List (Member σ α)) (s : σ) :
    Nat → Option (Outcome σ (List (Moment × α)))
  | 0 => none
  | fuel + 1 =>
      let (members, s) := turn now members s
      match nextWake members with
      | none => some ⟨results members, now, s⟩
      | some wake => runAll (max now wake).tick members s fuel

def startAll (now : Moment) (flows : List (Flow σ α)) : List (Member σ α) :=
  flows.map fun flow => .pending now flow

end Flow
end Courier
