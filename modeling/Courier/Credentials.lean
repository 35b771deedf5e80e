import Courier.Exchange
import Courier.Flow
import Courier.Text.Base64
/-!
Credentials: how a request is signed before each attempt.  Headers that carry credentials are marked
sensitive.
-/
namespace Courier

/-- Why a request could not be signed. -/
inductive AuthError
  | missingCredentials (detail : String)
  | invalidHeader (name : String)
  | variableNotFound (name : String)
  | tokenSource (cause : Wrapped)
deriving Repr, DecidableEq, Inhabited

namespace AuthError

def message : AuthError → String
  | .missingCredentials detail => s!"Missing credentials: {detail}"
  | .invalidHeader name => s!"Invalid authentication header '{name}'"
  | .variableNotFound name => s!"Environment variable not found: {name}"
  | .tokenSource cause => s!"Token source failed: {cause.outermost}"

def causes : AuthError → List String
  | .tokenSource cause => cause.outermost :: cause.inner
  | _ => []

end AuthError

/-- Signs a request; this may take time and may fail. -/
abbrev Authenticator (σ : Type) := WireRequest → Flow σ (Except AuthError WireRequest)

inductive Credentials
  | bearer (token : String)
  | basic (user password : String)
  | apiKey (header key : String)
  /-- a key in the query, in the place of any value the parameter had -/
  | apiKeyQuery (parameter key : String)
deriving Repr, DecidableEq, Inhabited

/-- Where a bearer token comes from that is asked for before each attempt. -/
abbrev TokenSource (σ : Type) := Flow σ (Except Wrapped String)

namespace Credentials

/-- A value that must not be shown; `header` names it in the error. -/
def sensitiveValue (header value : String) : Except AuthError HeaderValue :=
  match HeaderValue.ofText? value with
  | some value => .ok { value with sensitive := true }
  | none => .error (.invalidHeader header)

/-- Put a header in the place of all of its name. -/
def setHeader (request : WireRequest) (name : HeaderName) (value : HeaderValue) : WireRequest :=
  { request with headers := request.headers.insert name value }

/-- The request with an `Authorization` header. -/
def authorize (request : WireRequest) (value : String) : Except AuthError WireRequest :=
  (sensitiveValue "Authorization" value).map (setHeader request .authorization)

/-- A URL whose query has the parameter once, at its end. -/
def setParameter (url : Url) (parameter key : String) : Url :=
  let kept := url.pairs.filter fun pair => pair.1 != parameter
  { url with query := some (Url.Query.encode (kept ++ [(parameter, key)])) }

def sign (credentials : Credentials) (request : WireRequest) : Except AuthError WireRequest :=
  match credentials with
  | .bearer token => authorize request ("Bearer " ++ token)
  | .basic user password =>
      authorize request ("Basic " ++ Text.Base64.encode (Octets.ofText (user ++ ":" ++ password)))
  | .apiKey header key =>
      match HeaderName.parse? header with
      | none => .error (.invalidHeader header)
      | some name => (sensitiveValue header key).map (setHeader request name)
  | .apiKeyQuery parameter key =>
      .ok { request with url := setParameter request.url parameter key }

/-- Are there credentials at all? -/
def validate : Credentials → Except AuthError Unit
  | .bearer token =>
      if token.isEmpty then .error (.missingCredentials "bearer token is empty") else .ok ()
  | .apiKey header key =>
      if key.isEmpty then
        .error (.missingCredentials s!"API key for header {header} is empty")
      else .ok ()
  | _ => .ok ()

def authenticator {σ : Type} (credentials : Credentials) : Authenticator σ :=
  fun request => .done (credentials.sign request)

def fromVariable (lookup : String → Option String) (name : String) : Except AuthError String :=
  match lookup name with
  | some value => .ok value
  | none => .error (.variableNotFound name)

end Credentials

def TokenSource.authenticator {σ : Type} (source : TokenSource σ) : Authenticator σ :=
  fun request => do
    match ← source with
    | .error cause => pure (.error (.tokenSource cause))
    | .ok token => pure (Credentials.authorize request ("Bearer " ++ token))

end Courier
