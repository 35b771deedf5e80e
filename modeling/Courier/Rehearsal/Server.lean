import Courier.Command.Run
import Courier.Redirect
import Courier.Rehearsal.Files
import Courier.Rehearsal.Session
import Courier.Rehearsal.Transcript
/-!
A network with one server that answers from a script, and the command run against it.  No other
address can be reached.
-/
namespace Courier.Rehearsal

/-- A server that answers the requests one after the other. -/
structure Server where
  host : String
  port : Nat
  /-- what it says, the last line over and over -/
  script : List (Line WireResponse)

namespace Server

def isMeant (server : Server) (request : WireRequest) : Bool :=
  request.url.scheme == "http" &&
    match request.url.authority with
    | some a => a.host.toText == server.host && a.port.getD 80 == server.port
    | none => false

/-- Is there no body in the answer, whatever the script has? -/
def isBodiless (method : Method) (status : Nat) : Bool :=
  method = .head || status == 204 || status == 304

def note (request : WireRequest) : Flow Stage Unit :=
  .update fun stage =>
    { stage with stub := { stage.stub with requests := stage.stub.requests ++ [request] } }

/-- Carry one request over the network. -/
def carry (server : Server) : Handler Stage := fun request =>
  if !request.isSendable then .done (.error request.refusal)
  else
    match server.isMeant request, server.script with
    | true, first :: rest => do
        note request
        let line ← Stage.nextLine 0 first rest
        Stage.delay line.delay
        let answer := line.speech
        return .ok
          (if isBodiless request.method answer.status then { answer with body := [] } else answer)
    | _, _ => .done (.error (request.isolation []))

def transport (server : Server) : Handler Stage :=
  Middleware.following server.carry

end Server

/-- How a run of the command ended, and what the server got. -/
structure Performance where
  ending : Command.Ending
  deliveries : List Delivery

/-- Run the command among files and variables. -/
def perform (server : Server) (files : Files) (environment : Environment) (words : List String) :
    Performance :=
  match Command.begin { environment, look := files.look } words with
  | .over ending => { ending, deliveries := [] }
  | .ready run =>
      let start := Session.start (stageFor run.settings {})
      match start.play (run.send Stage.limiter server.transport) with
      | (none, _) => { ending := { status := 1 }, deliveries := [] }
      | (some result, session) =>
          let trail := session.trailSince start
          { ending := run.ending result trail.events
            deliveries := trail.requests.map WireRequest.delivery }

end Courier.Rehearsal
