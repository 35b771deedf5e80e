import Courier.Credentials
import Courier.Middleware
import Courier.Limiter
import Courier.Stub
/-!
Stages: worlds in which clients can be tried out without a network and without waiting.  A stage has
a stub in the place of the network, one bucket for a limiter, a journal and a trace; its random bits
are a count.
-/
namespace Courier.Rehearsal

/-- A world to try a client in. -/
structure Stage where
  stub : Stub := {}
  bucket : TokenBucket Float
  /-- events since it was last emptied, the latest first -/
  journal : List Event := []
  /-- marks that middleware left, the latest first -/
  trace : List String := []
  /-- the scripts that were asked, each as often as it was -/
  asked : List Nat := []
  drawn : Nat := 0

namespace Stage

def empty : Stage := { bucket := .full (.perSecond 1) 0 }

instance : World Stage where
  record event stage := { stage with journal := event :: stage.journal }
  random stage := (stage.drawn, { stage with drawn := stage.drawn + 1 })

def bucketCell : Cell Stage (TokenBucket Float) where
  get := bucket
  set bucket stage := { stage with bucket }

/-- A limiter of its own for a stage. -/
def limiter (rate : Rate) : Limiter Stage where
  rate
  bucket := bucketCell

/-- The stage with a full bucket for a rate. -/
def withRate (stage : Stage) (rate : Rate) : Stage := { stage with bucket := .full rate 0 }

def mark (text : String) : Flow Stage Unit :=
  .update fun stage => { stage with trace := text :: stage.trace }

def transport : Handler Stage := fun request =>
  .act fun _ stage =>
    let (answer, stub) := stage.stub.answer request
    (answer, { stage with stub })

/-- The next line of a script; the last one is said over and over. -/
def nextLine {α : Type} (script : Nat) (first : α) (rest : List α) : Flow Stage α :=
  .act fun _ stage =>
    let line := ((first :: rest)[stage.asked.count script]?).getD ((first :: rest).getLast (by simp))
    (line, { stage with asked := script :: stage.asked })

/-- Wait, if there is a time to wait. -/
def delay : Option Span → Flow Stage Unit
  | none => pure ()
  | some d => Flow.sleep d

end Stage

/-- What a script says when it is asked to answer a request. -/
inductive Reply
  | fail (failure : TransportFailure)
  /-- let the request go on -/
  | pass
  | answer (response : WireResponse)

/-- A line of a script, said after a while. -/
structure Line (α : Type) where
  delay : Option Span := none
  speech : α

/-- Answers from a script. -/
def script (id : Nat) (first : Line Reply) (rest : List (Line Reply)) : Middleware Stage :=
  fun inner request => do
    let line ← Stage.nextLine id first rest
    Stage.delay line.delay
    match line.speech with
    | .fail failure => return .error failure
    | .pass => inner request
    | .answer response => return .ok response

/-- Tokens from a script. -/
def tokenSource (id : Nat) (first : Line (Except Wrapped String))
    (rest : List (Line (Except Wrapped String))) : TokenSource Stage :=
  (Stage.nextLine id first rest).bind fun line =>
    (Stage.delay line.delay).bind fun _ => .done line.speech

/-- Leave a mark before and after a request. -/
def tag (name : String) : Middleware Stage := fun inner request => do
  Stage.mark (name ++ ":before")
  let answer ← inner request
  match answer with
  | .ok response => Stage.mark (name ++ ":after:" ++ toString response.status)
  | .error _ => Stage.mark (name ++ ":after:error")
  return answer

def setHeader (name : HeaderName) (value : HeaderValue) : Middleware Stage := fun inner request =>
  inner { request with headers := request.headers.insert name value }

def addHeader (name value : String) : Middleware Stage := fun inner request => do
  return (← inner request).map fun response => response.addHeader name value

/-- Send every request twice and drop the first answer. -/
def twice : Middleware Stage := fun inner request => do
  let _ ← inner request
  inner request

end Courier.Rehearsal
