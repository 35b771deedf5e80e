import Courier.Exchange
import Courier.Json.Basic
import Courier.Text.Quoted
/-!
What a client reports about its work while it goes on.  Every report is one event with a level, a
message and named fields.
-/
namespace Courier

/-- How much an event matters. -/
inductive Level
  | trace
  | debug
  | info
  | warning
  | error
deriving Repr, DecidableEq, Inhabited

namespace Level

def label : Level → String
  | .trace => "TRACE"
  | .debug => "DEBUG"
  | .info => "INFO"
  | .warning => "WARN"
  | .error => "ERROR"

/-- The greater the more it matters. -/
def rank : Level → Nat
  | .trace => 0
  | .debug => 1
  | .info => 2
  | .warning => 3
  | .error => 4

end Level

/-- An event in the life of a request. -/
inductive Event
  /-- no token was there; the request waits for one -/
  | waiting (wait : Span)
  | sending (method : Method) (url : String) (attempt attempts : Nat)
  | retrying (method : Method) (url : String) (attempt : Nat) (delay : Span) (reason : String)
  | request (method : Method) (url : String) (headers : List (String × String))
  | requestBody (text : String)
  | response (method : Method) (url : String) (status : Nat) (headers : List (String × String))
  | responseBody (text : String)
  | failed (method : Method) (url : String) (error : String)
deriving Repr, DecidableEq, Inhabited

namespace Event

def level : Event → Level
  | .waiting _ => .trace
  | .sending .. => .debug
  | .retrying .. => .warning
  | .request .. => .info
  | .requestBody _ => .debug
  | .response .. => .info
  | .responseBody _ => .debug
  | .failed .. => .warning

def message : Event → String
  | .waiting _ => "Waiting for rate limit token"
  | .sending .. => "Sending request"
  | .retrying .. => "Retrying request"
  | .request .. => "HTTP request"
  | .requestBody _ => "HTTP request body"
  | .response .. => "HTTP response"
  | .responseBody _ => "HTTP response body"
  | .failed .. => "HTTP request failed"

/-- A span in milliseconds, in a word of 64 bits. -/
def millis (d : Span) : Json :=
  .nat (Span.millis d % Nat.pow 2 64)

/-- Pairs of texts between braces. -/
def showPairs (pairs : List (String × String)) : String :=
  let shown := pairs.map fun pair => Text.Quoted.encode pair.1 ++ ": " ++ Text.Quoted.encode pair.2
  "\x7b" ++ Text.join ", " shown ++ "\x7d"

def fields : Event → List (String × Json)
  | .waiting wait => [("wait_ms", millis wait)]
  | .sending method url attempt attempts =>
      [("method", .string method.token), ("url", .string url), ("attempt", .nat attempt),
        ("max_attempts", .nat attempts)]
  | .retrying method url attempt delay reason =>
      [("method", .string method.token), ("url", .string url), ("attempt", .nat attempt),
        ("delay_ms", millis delay), ("reason", .string reason)]
  | .request method url headers =>
      [("method", .string method.token), ("url", .string url),
        ("headers", .string (showPairs headers))]
  | .requestBody text => [("body", .string text)]
  | .response method url status headers =>
      [("method", .string method.token), ("url", .string url), ("status", .nat status),
        ("headers", .string (showPairs headers))]
  | .responseBody text => [("body", .string text)]
  | .failed method url error =>
      [("method", .string method.token), ("url", .string url), ("error", .string error)]

def document (event : Event) : Json :=
  .ofFields
    (event.fields ++
      [("message", .string event.message), ("level", .string event.level.label)])

end Event
end Courier
