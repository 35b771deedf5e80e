import Courier.Client
import Courier.Delivery
import Courier.Rehearsal.Stage
/-!
Sessions: one thing after another on a stage, with a clock that jumps from wait to wait and with
contexts that go by a name.
-/
namespace Courier.Rehearsal

/-- A session, as it stands between two steps. -/
structure Session where
  clock : Moment := 0
  stage : Stage
  cancellations : Cancellations := {}
  contexts : List (String × Context) := []

structure ContextView where
  deadline : Option Moment
  remaining : Option Span
  ended : Option Interruption

namespace Session

/-- More waits than any step makes. -/
def patience : Nat := 1000000

def start (stage : Stage) : Session := { stage }

/-- The context of a name, a new one where there is none. -/
def context (session : Session) (name : Option String) : Context × Session :=
  match name.bind fun name => session.contexts.lookup name with
  | some context => (context, session)
  | none =>
      let (context, cancellations) := session.cancellations.root
      (context, { session with cancellations })

/-- Make a context and give it a name: below another or new, with a time to live or a deadline. -/
def openContext (session : Session) (name : String) (parent : Option String)
    (timeout : Option Span) (deadline : Option Moment) : Session :=
  let (above, session) := session.context parent
  let cs := session.cancellations
  let (context, cancellations) :=
    match timeout, deadline with
    | some d, _ => cs.childWithTimeout above session.clock d
    | none, some t => cs.childWithDeadline above t
    | none, none => if parent.isSome then cs.child above else (above, cs)
  { session with cancellations, contexts := assign name context session.contexts }

def scope (session : Session) (name : Option String) : Scope × Session :=
  let (context, session) := session.context name
  (session.cancellations.scope context, session)

def view (session : Session) (name : String) : ContextView :=
  let (scope, _) := session.scope (some name)
  { deadline := scope.deadline
    remaining := scope.deadline.map fun t => t - session.clock
    ended := scope.ended? session.clock }

/-- Cancel a context, now or when somebody who sleeps for a while from now wakes. -/
def cancel (session : Session) (name : String) (after : Span) : Session :=
  let (context, session) := session.context (some name)
  { session with
    cancellations := session.cancellations.cancel context (Moment.tick (session.clock + after)) }

/-- Run a flow to its end; `none` when it does not end. -/
def play {α : Type} (session : Session) (flow : Flow Stage α) : Option α × Session :=
  match flow.run session.clock session.stage patience with
  | none => (none, session)
  | some outcome =>
      (some outcome.value, { session with clock := outcome.moment, stage := outcome.world })

/-- Run several flows side by side; each answer comes with the moment of its end. -/
def playAll {α : Type} (session : Session) (flows : List (Flow Stage α)) :
    List (Moment × α) × Session :=
  match Flow.runAll session.clock (Flow.startAll session.clock flows) session.stage patience with
  | none => ([], session)
  | some outcome =>
      (outcome.value, { session with clock := outcome.moment, stage := outcome.world })

def advance (session : Session) (d : Span) : Session :=
  (session.play (Flow.sleep d)).2

/-- Work inside a context for a while: how it ended, and whether it was begun. -/
def work (session : Session) (name : String) (d : Option Span) :
    Option (Except Interruption Unit) × Bool × Session :=
  let (scope, session) := session.scope (some name)
  let begun := (scope.ended? session.clock).isNone
  let (answer, session) := session.play (Flow.within scope (Stage.delay d))
  (answer, begun, session)

/-- Wait for the end of a context, but not longer than for a span. -/
def awaitEnd (session : Session) (name : String) (limit : Span) :
    Option (Option Interruption) × Session :=
  let (scope, session) := session.scope (some name)
  session.play do
    let now ← Flow.now
    Flow.sleepUntil (scope.cap (now.wakeAfter limit))
    return scope.ended? (← Flow.now)

/-- Run several flows side by side; their answers come in the order of their ends and, where
several end at once, in the order of `le`. -/
def race {α : Type} (session : Session) (le : α → α → Bool) (flows : List (Flow Stage α)) :
    List (Moment × α) × Session :=
  let (ends, session) := session.playAll flows
  (ends.mergeSort fun a b => decide (a.1 < b.1) || (a.1 == b.1 && le a.2 b.2), session)

/-- What a step left behind. -/
structure Trail where
  events : List Event
  marks : List String
  requests : List WireRequest

/-- Forget what earlier steps left in journal and trace. -/
def clear (session : Session) : Session :=
  { session with stage := { session.stage with journal := [], trace := [] } }

/-- What was left since the session was as `before`. -/
def trailSince (session before : Session) : Trail :=
  { events := session.stage.journal.reverse
    marks := session.stage.trace.reverse
    requests := session.stage.stub.requests.drop before.stage.stub.requests.length }

end Session

/-- Where the requests of a client go that is tried out. -/
inductive Ground
  /-- to the stub of the stage -/
  | stub
  /-- to a network that knows none of the schemes -/
  | nowhere

def Ground.transport : Ground → Handler Stage
  | .stub => Stage.transport
  | .nowhere => fun request => .done (.error request.refusal)

def client (settings : Settings) (middlewares : List (Middleware Stage))
    (authenticator : Option (Authenticator Stage)) (ground : Ground) : Client Stage :=
  { settings, middlewares, authenticator
    limiter := settings.rate.map Stage.limiter
    transport := ground.transport }

/-- The stage for a client with some settings. -/
def stageFor (settings : Settings) (stub : Stub) : Stage :=
  let stage := { Stage.empty with stub }
  match settings.rate with
  | some rate => stage.withRate rate
  | none => stage

end Courier.Rehearsal
