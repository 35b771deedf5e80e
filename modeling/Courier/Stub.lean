import Courier.Datum
import Courier.Exchange
import Courier.Text.Ascii
/-!
Stubs: answers without a network.  A stub records every request.  For a path it first gives the
answers of a sequence, one after the other, until they are used up; then it asks the handler for
method and path, and then the handler for the path alone.
-/
namespace Courier

namespace WireResponse

/-- A status that can be sent; any other number counts as an internal error. -/
def clampStatus (status : Nat) : Nat :=
  if 100 ≤ status ∧ status ≤ 999 then status else 500

def ofStatus (status : Nat) : WireResponse :=
  { status := clampStatus status }

def ofDatum (status : Nat) (value : Datum) : WireResponse :=
  let text :=
    match value.toJsonText with
    | .ok text => text
    | .error _ => "\x7b\"error\":\"marshal failed\"\x7d"
  { (ofStatus status).addHeader "content-type" "application/json" with
    body := Octets.ofText text }

def ofError (status : Nat) (message : String) : WireResponse :=
  ofDatum status (.ofJson (.ofFields [("error", .string message)]))

def ofPlainText (status : Nat) (text : String) : WireResponse :=
  { (ofStatus status).addHeader "content-type" "text/plain; charset=utf-8" with
    body := Octets.ofText text }

end WireResponse

/-- Put a value under a key, in the place of the one that is there. -/
def assign {κ α : Type} [DecidableEq κ] (key : κ) (value : α) : List (κ × α) → List (κ × α)
  | [] => [(key, value)]
  | entry :: rest =>
      if entry.1 = key then (key, value) :: rest else entry :: assign key value rest

/-- Answers that are given one after the other. -/
structure Stub.Sequence where
  answers : List WireResponse
  given : Nat := 0
deriving Repr, Inhabited

/-- Answers a request from what it says. -/
abbrev Stub.Handler := WireRequest → Except TransportFailure WireResponse

/-- Answers for requests, and the requests that came. -/
structure Stub where
  handlers : List (String × Stub.Handler) := []
  methodHandlers : List ((Method × String) × Stub.Handler) := []
  sequences : List (String × Stub.Sequence) := []
  requests : List WireRequest := []
deriving Inhabited

namespace Stub

/-- Answer every request for a path. -/
def addHandler (stub : Stub) (path : String) (handler : Handler) : Stub :=
  { stub with handlers := assign path handler stub.handlers }

def addAnswer (stub : Stub) (path : String) (status : Nat) (value : Datum) : Stub :=
  stub.addHandler path fun _ => .ok (.ofDatum status value)

/-- Answer the requests of one method for a path with a document. -/
def addAnswerFor (stub : Stub) (method : Method) (path : String) (status : Nat)
    (value : Datum) : Stub :=
  { stub with
    methodHandlers :=
      assign (method, path) (fun _ => .ok (.ofDatum status value)) stub.methodHandlers }

/-- Answer the next requests for a path one after the other. -/
def addSequence (stub : Stub) (path : String) (answers : List WireResponse) : Stub :=
  { stub with sequences := assign path { answers } stub.sequences }

/-- Break the connection at every request for a path. -/
def addNetworkError (stub : Stub) (path detail : String) : Stub :=
  stub.addHandler path fun _ => .error (.connection detail)

/-- Send the body back, and say in a header what was asked for. -/
def echo : Handler := fun request =>
  .ok
    { (WireResponse.ofStatus 200).addHeader "x-echo"
        (request.method.token ++ " " ++ request.url.target) with
      body := request.body.getD [] }

/-- How many requests came for a path. -/
def callCount (stub : Stub) (path : String) : Nat :=
  stub.requests.countP fun request => request.url.pathText = path

/-- Forget the requests and start all sequences again. -/
def reset (stub : Stub) : Stub :=
  { stub with
    requests := []
    sequences := stub.sequences.map fun entry => (entry.1, { entry.2 with given := 0 }) }

def nextOfSequence (stub : Stub) (path : String) : Option (WireResponse × Stub) :=
  match stub.sequences.lookup path with
  | none => none
  | some sequence =>
      sequence.answers[sequence.given]?.map fun answer =>
        (answer,
          { stub with
            sequences := assign path { sequence with given := sequence.given + 1 }
              stub.sequences })

def handlerFor (stub : Stub) (method : Method) (path : String) : Option Handler :=
  (stub.methodHandlers.lookup (method, path)).or (stub.handlers.lookup path)

/-- Record a request and answer it. -/
def answer (stub : Stub) (request : WireRequest) :
    Except TransportFailure WireResponse × Stub :=
  let path := request.url.pathText
  let stub := { stub with requests := stub.requests ++ [request] }
  match stub.nextOfSequence path with
  | some (response, stub) => (.ok response, stub)
  | none =>
      match stub.handlerFor request.method path with
      | some handler => (handler request, stub)
      | none =>
          (.error (.other s!"mock: no handler registered for {request.method.token} {path}"), stub)

/-- A summary that shows only sizes. -/
def summary (stub : Stub) : String :=
  "MockTransport \x7b " ++
    Text.join ", "
      [s!"handlers: {stub.handlers.length}", s!"method_routes: {stub.methodHandlers.length}",
        s!"sequences: {stub.sequences.length}", s!"requests: {stub.requests.length}"] ++
    " \x7d"

end Stub
end Courier
