import Courier.Limiter
import Courier.Middleware
import Courier.Request
/-!
Clients.  A request is prepared once; then it waits for a token of the limiter; then its time begins,
and it is sent again and again from one and the same wire request until an attempt succeeds, or is
not to be repeated, or the time is over.  An attempt signs the request and hands it through the
middleware to the transport.
-/
namespace Courier

structure Client (σ : Type) [World σ] where
  settings : Settings
  limiter : Option (Limiter σ) := none
  middlewares : List (Middleware σ) := []
  authenticator : Option (Authenticator σ) := none
  transport : Handler σ

inductive Outcome
  | answered (response : WireResponse)
  | unsigned (cause : AuthError)
  | failed (cause : TransportFailure)
deriving Repr

/-- What an attempt means for the request. -/
inductive Verdict
  | success (response : Response)
  | failure (failure : Failure) (decision : RetryDecision)
deriving Repr

namespace Client

variable {σ : Type} [World σ]

/-- The most attempts that a request gets. -/
def attempts (client : Client σ) : Nat :=
  match client.settings.retry with
  | some policy => policy.attempts
  | none => 1

def handler (client : Client σ) : Handler σ :=
  Middleware.around client.middlewares client.transport

def send (client : Client σ) (scope : Scope) (request : WireRequest) : Flow σ Outcome := do
  match ← Flow.within scope (client.handler request) with
  | .ok (.ok response) => return .answered response
  | .ok (.error cause) => return .failed cause
  | .error reason => return .failed (.interrupted reason)

/-- One attempt: sign, then send. -/
def attempt (client : Client σ) (scope : Scope) (request : WireRequest) : Flow σ Outcome :=
  match client.authenticator with
  | none => client.send scope request
  | some sign => do
      match ← Flow.within scope (sign request) with
      | .ok (.ok signed) => client.send scope signed
      | .ok (.error cause) => return .unsigned cause
      | .error reason => return .failed (.interrupted reason)

/-- What to do after an outcome that is no success; without a policy nothing is tried again. -/
def decide (client : Client σ) (attempt : Nat) (draw : Float) (outcome : Outcome) :
    RetryDecision :=
  match client.settings.retry, outcome with
  | none, _ => .stop
  | some policy, .answered response =>
      policy.afterStatus attempt response.status response.headers draw
  | some policy, .failed _ => policy.afterFailure attempt draw
  | some _, .unsigned _ => .stop

/-- What an outcome means for a request that was prepared as `wire`. -/
def judge (client : Client σ) (wire : WireRequest) (attempt : Nat) (draw : Float)
    (outcome : Outcome) : Verdict :=
  match outcome with
  | .answered answer =>
      let response := Response.ofWire answer wire.url attempt
      if Status.isFailure answer.status then
        .failure (.ofResponse wire.method response) (client.decide attempt draw outcome)
      else .success response
  | .unsigned cause =>
      .failure (.ofSigning wire.method wire.url.toText attempt cause)
        (client.decide attempt draw outcome)
  | .failed cause =>
      .failure (.ofTransport wire.method wire.url.toText attempt cause)
        (client.decide attempt draw outcome)

/-- Wait before the next attempt, unless the scope ends before. -/
def pause (scope : Scope) (wire : WireRequest) (attempt : Nat) (delay : Span)
    (failure : Failure) : Flow σ (Except Interruption Unit) := do
  match scope.ended? (← Flow.now) with
  | some reason => return .error reason
  | none =>
      World.report (.retrying wire.method wire.url.toText attempt delay failure.message)
      Flow.within scope (Flow.sleep delay)

def tryOnce (client : Client σ) (scope : Scope) (wire : WireRequest) (attempt : Nat) :
    Flow σ Verdict := do
  World.report (.sending wire.method wire.url.toText attempt client.attempts)
  let outcome ← client.attempt scope wire
  let bits ← World.draw
  return client.judge wire attempt (RetryPolicy.drawOfBits bits) outcome

/-- Attempts from one on, with at most `more` after it. -/
def attemptFrom (client : Client σ) (scope : Scope) (wire : WireRequest) (attempt : Nat) :
    (more : Nat) → Flow σ (Except Failure Response)
  | 0 => do
      match ← client.tryOnce scope wire attempt with
      | .success response => return .ok response
      | .failure failure _ => return .error failure
  | more + 1 => do
      match ← client.tryOnce scope wire attempt with
      | .success response => return .ok response
      | .failure failure .stop => return .error failure
      | .failure failure (.retry delay) =>
          match ← pause scope wire attempt delay failure with
          | .ok () => client.attemptFrom scope wire (attempt + 1) more
          | .error reason =>
              return .error (.ofInterruption wire.method wire.url.toText attempt reason
                failure.response)

def awaitToken (client : Client σ) (scope : Scope) : Flow σ (Except Interruption Unit) :=
  match client.limiter with
  | none => pure (.ok ())
  | some limiter => limiter.acquire scope

/-- The scope of a request that was admitted at a moment. -/
def scopeOf (client : Client σ) (scope : Scope) (request : Request) (now : Moment) : Scope :=
  match request.timeout.or client.settings.timeout with
  | some d => scope.withTimeout now d
  | none => scope

def execute (client : Client σ) (scope : Scope) (request : Request) :
    Flow σ (Except Failure Response) :=
  match request.prepare client.settings with
  | .error failure => pure (.error failure)
  | .ok wire => do
      match ← client.awaitToken scope with
      | .error reason =>
          return .error (request.failBefore client.settings .rateLimit (.admission reason))
      | .ok () =>
          let scope := client.scopeOf scope request (← Flow.now)
          client.attemptFrom scope wire 1 (client.attempts - 1)

/-- Send a request and read the body of the answer, if it has one, as a document of a shape. -/
def executeJson (client : Client σ) (scope : Scope) (request : Request) (shape : Json.Shape) :
    Flow σ (Except Failure (Response × Option Json)) := do
  match ← client.execute scope request with
  | .error failure => return .error failure
  | .ok response =>
      if response.body.isEmpty then return .ok (response, none)
      else
        match response.json shape with
        | .ok document => return .ok (response, some document)
        | .error e => return .error (.ofDocument request.method response e)

end Client
end Courier
