import Courier.Header
import Courier.Retry
import Courier.Text.Blank
import Courier.TokenBucket
import Courier.Url.Reader
/-!
The settings of a client: drafts, in which anything may stand, and what is left after the check.
-/
namespace Courier

def version : String := "0.1.0"

/-- How the client introduces itself. -/
def userAgent : String := s!"sendify/{version}"

/-- Why there is no client for some settings. -/
inductive SetupError
  | baseMissing
  | baseEmpty
  | baseInvalid (text : String) (cause : Url.UrlError)
  | baseFlat (text : String)
  | noTimeout
  | noContentType
  | emptyHeaderName
  | header (cause : HeaderError)
  | rate (cause : RateError)
  | rateText (text : String)
  | timeoutVariable (name : String) (cause : Decimal.IntegerError)
  | attemptsVariable (name : String) (cause : Decimal.IntegerError)
  | variableNotFound (name : String)
deriving Repr

namespace SetupError

def detail : SetupError → String
  | .baseMissing => "base URL is required: call ClientBuilder::base_url"
  | .baseEmpty => "base URL cannot be empty"
  | .baseInvalid text cause => s!"Invalid base URL '{text}': {cause.message}"
  | .baseFlat text => s!"base URL '{text}' cannot have paths joined onto it"
  | .noTimeout => "timeout must be positive"
  | .noContentType => "content type cannot be empty"
  | .emptyHeaderName => "header key cannot be empty"
  | .header cause => cause.message
  | .rate cause => cause.message
  | .rateText text => s!"invalid rate limit '{text}': expected N/SECONDS, e.g. 10/1"
  | .timeoutVariable name _ => s!"{name} must be a whole number of milliseconds"
  | .attemptsVariable name _ => s!"{name} must be a positive integer"
  | .variableNotFound name => s!"Environment variable {name} not found"

def message (e : SetupError) : String :=
  match e with
  | .baseInvalid .. | .header _ | .rate _ => e.detail
  | _ => s!"Configuration error: {e.detail}"

def causes : SetupError → List String
  | .baseInvalid _ cause => [cause.message]
  | .timeoutVariable _ cause | .attemptsVariable _ cause => [cause.message]
  | _ => []

end SetupError

/-- Settings before the check. -/
structure Draft where
  baseUrl : Option String := none
  /-- bound on a whole request, its attempts and waits included -/
  timeout : Option Span := some (Span.ofSeconds 30)
  headers : List (String × String) := []
  /-- content type of bodies that have none of their own -/
  contentType : String := "application/json"
  retry : Option (RetryPolicy Float) := none
  /-- rate of a limiter that the client is to have for itself -/
  rate : Option Rate := none
  /-- rate of a limiter that it shares with others, which comes first -/
  sharedRate : Option Rate := none
deriving Repr

/-- Settings that make a client. -/
structure Settings where
  base : Url
  timeout : Option Span
  headers : Headers
  contentType : HeaderValue
  retry : Option (RetryPolicy Float)
  rate : Option Rate
deriving Repr

namespace Draft

def addHeader (draft : Draft) (name value : String) : Draft :=
  { draft with headers := draft.headers ++ [(name, value)] }

def addHeaders (draft : Draft) (headers : List (String × String)) : Draft :=
  { draft with headers := draft.headers ++ headers }

/-- Introduce the client as somebody else. -/
def withUserAgent (draft : Draft) (agent : String) : Draft :=
  draft.addHeader HeaderName.userAgent.text agent

/-- The URL that all paths are joined to. -/
def checkBase (draft : Draft) : Except SetupError Url :=
  match draft.baseUrl with
  | none => .error .baseMissing
  | some text =>
      let trimmed := Text.trim text
      if trimmed.isEmpty then .error .baseEmpty
      else
        match Url.parse trimmed with
        | .error cause => .error (.baseInvalid text cause)
        | .ok url => if url.cannotBeBase then .error (.baseFlat text) else .ok url

/-- The content type of bodies that have none of their own. -/
def checkContentType (draft : Draft) : Except SetupError HeaderValue :=
  if (Text.trim draft.contentType).isEmpty then .error .noContentType
  else
    match HeaderValue.ofText? draft.contentType with
    | some value => .ok value
    | none => .error (.header (.badValue HeaderName.contentType.text))

/-- The headers of a client that sets none. -/
def builtInHeaders : Headers :=
  ⟨[(.accept, ⟨Octets.ofText "application/json", false⟩),
    (.userAgent, ⟨Octets.ofText userAgent, false⟩)]⟩

/-- Put headers on top of others, each in the place of all of its name. -/
def overlay (headers : Headers) : List (String × String) → Except SetupError Headers
  | [] => .ok headers
  | (name, value) :: rest =>
      if (Text.trim name).isEmpty then .error .emptyHeaderName
      else
        match HeaderName.parseField name value with
        | .error cause => .error (.header cause)
        | .ok (n, v) => overlay (headers.insert n v) rest

/-- The rate of the limiter; one that is shared was checked when it was made. -/
def checkRate (draft : Draft) : Except SetupError (Option Rate) :=
  match draft.sharedRate, draft.rate with
  | some rate, _ => .ok (some rate)
  | none, none => .ok none
  | none, some rate =>
      match rate.check with
      | .ok _ => .ok (some rate)
      | .error cause => .error (.rate cause)

/-- The settings, or the first thing that is wrong with them. -/
def check (draft : Draft) : Except SetupError Settings := do
  let base ← draft.checkBase
  if draft.timeout = some 0 then throw .noTimeout
  let contentType ← draft.checkContentType
  let headers ← overlay builtInHeaders draft.headers
  let rate ← draft.checkRate
  return { base, timeout := draft.timeout, headers, contentType, retry := draft.retry, rate }

end Draft
end Courier
