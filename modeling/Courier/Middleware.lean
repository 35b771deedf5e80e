import Courier.Exchange
import Courier.Redaction.Body
import Courier.Uuid
import Courier.World
/-!
Middleware: what stands between a client and the transport.  A handler answers a request; a
middleware makes one handler of another, so it may look at and change the request and the answer,
answer by itself, or ask more than once.  Of several the first is the outermost.
-/
namespace Courier

/-- Answers requests. -/
abbrev Handler (σ : Type) := WireRequest → Flow σ (Except TransportFailure WireResponse)

abbrev Middleware (σ : Type) := Handler σ → Handler σ

namespace Middleware

variable {σ : Type}

/-- All of them around a handler, the first outermost. -/
def around (middlewares : List (Middleware σ)) (handler : Handler σ) : Handler σ :=
  middlewares.foldr (fun middleware inner => middleware inner) handler

variable [World σ]

/-- Give every request an identifier under a header, unless it has one there. -/
def requestId (header : HeaderName) : Middleware σ := fun inner request =>
  if request.headers.contains header then inner request
  else do
    let high ← World.draw
    let low ← World.draw
    let value : HeaderValue := ⟨Octets.ofText (Uuid.ofRandom high low), false⟩
    inner { request with headers := request.headers.insert header value }

def requestIdHeader : HeaderName := ⟨"x-request-id"⟩

/-- Report a body where bodies are reported and this one is to be shown. -/
def reportBody (policy : RedactionPolicy) (limits : Option LogLimits) (event : String → Event)
    (headers : Headers) (body : Octets) : Flow σ Unit :=
  let contentType := ((headers.get? .contentType).bind HeaderValue.visible?).getD ""
  match limits.bind fun limits => limits.showBody policy contentType body with
  | some text => World.report (event text)
  | none => pure ()

/-- Report every request and its answer, without what the policy hides. -/
def logging (policy : RedactionPolicy) (bodies : Option LogLimits) : Middleware σ :=
  fun inner request => do
    let url := policy.showUrl request.url
    World.report (.request request.method url (policy.showHeaders request.headers))
    match request.body with
    | some body => reportBody policy bodies .requestBody request.headers body
    | none => pure ()
    let answer ← inner request
    match answer with
    | .ok response =>
        World.report
          (.response request.method url response.status (policy.showHeaders response.headers))
        reportBody policy bodies .responseBody response.headers response.body
    | .error e =>
        World.report (.failed request.method url (Redaction.maskCredentials e.message))
    pure answer

end Middleware
end Courier
