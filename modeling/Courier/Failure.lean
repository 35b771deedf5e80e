import Courier.Body
import Courier.Credentials
import Courier.Response
import Courier.Retry
/-!
Failures of requests.  Every request that fails does so with one failure, whose kind says what went
wrong; it keeps the last answer where there is one, and the cause where the answer itself is not the
cause.
-/
namespace Courier

/-- What went wrong, in a word. -/
inductive FailureKind
  | unknown
  | timeout
  | network
  | http
  | parse
  | rateLimit
deriving Repr, DecidableEq, Inhabited

namespace FailureKind

def label : FailureKind → String
  | .unknown => "unknown"
  | .timeout => "timeout"
  | .network => "network"
  | .http => "http"
  | .parse => "parse"
  | .rateLimit => "rate_limit"

def all : List FailureKind := [.unknown, .timeout, .network, .http, .parse, .rateLimit]

def parse? (s : String) : Option FailureKind :=
  all.find? fun kind => kind.label = s

/-- The kind of a failure whose scope was over. -/
def ofInterruption : Interruption → FailureKind
  | .deadlineExceeded => .timeout
  | .cancelled => .network

/-- The kind of a failure without an answer. -/
def ofTransport : TransportFailure → FailureKind
  | .interrupted reason => ofInterruption reason
  | .unreachable .. => .network
  | .connection _ => .network
  | .refused _ | .endless _ | .middleware _ | .other _ => .unknown

/-- The names of the kinds as the shape of a document. -/
def shape : Json.Shape := .choice (all.map label)

end FailureKind

/-- What a failure goes back to. -/
inductive FailureCause
  | encoding (e : EncodeError)
  | header (e : HeaderError)
  | admission (reason : Interruption)
  | signing (e : AuthError)
  | transport (e : TransportFailure)
  | interruption (reason : Interruption)
  | document (e : Json.ReadError)
deriving Repr

namespace FailureCause

def message : FailureCause → String
  | .encoding e => e.message
  | .header e => e.message
  | .admission reason => s!"rate limit wait aborted: {reason.message}"
  | .signing e => e.message
  | .transport e => e.message
  | .interruption reason => reason.message
  | .document e => e.message

def causes : FailureCause → List String
  | .encoding e => e.causes
  | .header _ => []
  | .admission reason => [reason.message]
  | .signing e => e.causes
  | .transport e => e.causes
  | .interruption _ => []
  | .document _ => []

end FailureCause

structure Failure where
  kind : FailureKind
  method : Method
  url : String
  /-- the attempts that were made -/
  attempts : Nat := 0
  /-- the last answer -/
  response : Option Response := none
  cause : Option FailureCause := none
deriving Repr

namespace Failure

/-- An answer whose status says that the request failed. -/
def ofResponse (method : Method) (response : Response) : Failure :=
  { kind := .http, method, url := response.url.toText, attempts := response.attempts,
    response := some response }

def ofTransport (method : Method) (url : String) (attempt : Nat) (e : TransportFailure) :
    Failure :=
  { kind := .ofTransport e, method, url, attempts := attempt, cause := some (.transport e) }

def ofSigning (method : Method) (url : String) (attempt : Nat) (e : AuthError) : Failure :=
  { kind := .unknown, method, url, attempts := attempt, cause := some (.signing e) }

/-- A request whose scope was over between two attempts; the answer of the last one is kept. -/
def ofInterruption (method : Method) (url : String) (attempt : Nat) (reason : Interruption)
    (response : Option Response) : Failure :=
  { kind := .ofInterruption reason, method, url, attempts := attempt, response,
    cause := some (.interruption reason) }

/-- An answer whose body is not the document that was wanted. -/
def ofDocument (method : Method) (response : Response) (e : Json.ReadError) : Failure :=
  { kind := .parse, method, url := response.url.toText, attempts := response.attempts,
    response := some response, cause := some (.document e) }

/-- What went wrong, in its own words. -/
def reason (failure : Failure) : String :=
  match failure.cause, failure.response with
  | some cause, _ => cause.message
  | none, some response => response.statusText
  | none, none => s!"{failure.kind.label} error"

def message (failure : Failure) : String :=
  s!"{failure.method.token} {failure.url}: {failure.reason}"

def causes (failure : Failure) : List String :=
  match failure.cause with
  | some cause => cause.message :: cause.causes
  | none => []

def status? (failure : Failure) : Option Nat :=
  failure.response.map (·.status)

/-- Does the last answer satisfy a test on its status? -/
def statusIs (failure : Failure) (p : Nat → Bool) : Bool :=
  (failure.status?.map p).getD false

/-- May the same request succeed later? -/
def isRetryable (failure : Failure) : Bool :=
  match failure.kind with
  | .timeout | .network => true
  | .http => failure.statusIs fun status => RetryPolicy.defaultStatuses.contains status
  | _ => false

def isClientError (failure : Failure) : Bool :=
  failure.statusIs Status.isClientError

def isServerError (failure : Failure) : Bool :=
  failure.statusIs Status.isServerError

end Failure
end Courier
