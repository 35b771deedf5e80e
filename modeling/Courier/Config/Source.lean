import Courier.Config.Basic
import Courier.Config.Placeholder
/-!
Where configurations come from and what becomes of them: variables, documents, and drafts of
settings.
-/
namespace Courier.Config

def baseUrlVariable : String := "SENDIFY_BASE_URL"
def timeoutVariable : String := "SENDIFY_TIMEOUT_MS"
def userAgentVariable : String := "SENDIFY_USER_AGENT"
def attemptsVariable : String := "SENDIFY_MAX_ATTEMPTS"
def limitVariable : String := "SENDIFY_RATE_LIMIT"

def readVariable {α ε : Type} (lookup : String → Option String) (name : String)
    (read : String → Except ε α) (wrap : ε → SetupError) : Except SetupError (Option α) :=
  match lookup name with
  | none => .ok none
  | some text =>
      match read text with
      | .ok value => .ok (some value)
      | .error e => .error (wrap e)

/-- What variables say. -/
def ofLookup (lookup : String → Option String) : Except SetupError Config := do
  let timeoutMillis ← readVariable lookup timeoutVariable
    (fun s => Decimal.readNat Decimal.max64 (Text.trim s)) (.timeoutVariable timeoutVariable)
  let maxAttempts ← readVariable lookup attemptsVariable
    (fun s => Decimal.readNat Decimal.max32 (Text.trim s)) (.attemptsVariable attemptsVariable)
  let limit ← readVariable lookup limitVariable Limit.parse id
  return {
    baseUrl := lookup baseUrlVariable
    timeoutMillis
    userAgent := lookup userAgentVariable
    retry := maxAttempts.map fun n => { maxAttempts := some n }
    limit }

open Json.Shape in
def Retry.shape : Json.Shape :=
  .record "RetrySettings"
    [optionalField "max_attempts" (.unsigned 32), optionalField "initial_delay_ms" (.unsigned 64),
      optionalField "max_delay_ms" (.unsigned 64), optionalField "multiplier" .float,
      optionalField "jitter" .float, optionalField "retryable_statuses" (.list (.unsigned 16))]

open Json.Shape in
def Limit.shape : Json.Shape :=
  .record "RateLimitSettings"
    [required "permits" (.unsigned 32), required "window_ms" (.unsigned 64)]

open Json.Shape in
/-- The shape of a document that configures a client. -/
def shape : Json.Shape :=
  .record "ClientConfig"
    [optionalField "base_url" .text, optionalField "timeout_ms" (.unsigned 64),
      optionalField "user_agent" .text, optionalField "default_content_type" .text,
      withDefault "headers" (.dict .text) (.object []), optionalField "retry" Retry.shape,
      optionalField "rate_limit" Limit.shape]

/-- A document that is there at all. -/
def given? (document : Json) : Option Json :=
  if document.isNull then none else some document

def Retry.ofJson (document : Json) : Retry :=
  { maxAttempts := (document.getD "max_attempts").nat?
    initialDelayMillis := (document.getD "initial_delay_ms").nat?
    maxDelayMillis := (document.getD "max_delay_ms").nat?
    multiplier := (document.getD "multiplier").float?
    jitter := (document.getD "jitter").float?
    statuses := (document.getD "retryable_statuses").array?.map fun items =>
      items.filterMap Json.nat? }

def Limit.ofJson (document : Json) : Limit :=
  ⟨((document.getD "permits").nat?).getD 0, ((document.getD "window_ms").nat?).getD 0⟩

/-- What a document says that has the shape. -/
def ofJson (document : Json) : Config :=
  { baseUrl := (document.getD "base_url").string?
    timeoutMillis := (document.getD "timeout_ms").nat?
    userAgent := (document.getD "user_agent").string?
    contentType := (document.getD "default_content_type").string?
    headers := ((document.getD "headers").object?.getD []).filterMap fun field =>
      field.2.string?.map fun value => (field.1, value)
    retry := (given? (document.getD "retry")).map Retry.ofJson
    limit := (given? (document.getD "rate_limit")).map Limit.ofJson }

/-- Headers with the values of variables in the place of placeholders. -/
def expandHeaders (lookup : String → Option String) :
    List (String × String) → Except SetupError (List (String × String))
  | [] => .ok []
  | (name, value) :: rest => do
      let value ← expand lookup value
      let rest ← expandHeaders lookup rest
      return (name, value) :: rest

/-- A draft of the settings that a configuration asks for. -/
def draft (lookup : String → Option String) (config : Config) : Except SetupError Draft := do
  let agent := (config.userAgent.map fun agent => (HeaderName.userAgent.text, agent)).toList
  let headers ← expandHeaders lookup config.headers
  let plain : Draft := {}
  return {
    baseUrl := config.baseUrl
    timeout := (config.timeoutMillis.map Span.ofMillis).or plain.timeout
    headers := agent ++ headers
    contentType := config.contentType.getD plain.contentType
    retry := config.retry.map Retry.policy
    rate := config.limit.map Limit.rate }

end Courier.Config
