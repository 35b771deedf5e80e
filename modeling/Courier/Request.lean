import Courier.Failure
import Courier.Settings
/-!
Requests as callers describe them, and how one becomes a request for the wire.  The path is joined to
the path of the base URL.  Of headers with one name the last to be said counts: the client's come
first, then those of the body, then those of the request.  The content type is settled after them.
-/
namespace Courier

structure Request where
  method : Method
  path : String
  body : Option Body := none
  headers : List (String × String) := []
  query : Url.Pairs := []
  timeout : Option Span := none
  contentType : Option String := none
deriving Inhabited

def dropLeadingSlashes (s : String) : String :=
  String.ofList (s.toList.dropWhile (· == '/'))

def dropTrailingSlashes (s : String) : String :=
  String.ofList (s.toList.reverse.dropWhile (· == '/')).reverse

/-- A URL below another one; the query of the base stays in front. -/
def Url.below (base : Url) (path : String) (query : Url.Pairs) : Url :=
  let relative := dropLeadingSlashes path
  let url :=
    if relative.isEmpty then base
    else base.setPath (dropTrailingSlashes base.pathText ++ "/" ++ relative)
  if query.isEmpty then url else url.appendPairs query

namespace Request

/-- The body's octets with their content type and headers. -/
def encodeBody (request : Request) : Except EncodeError (Option EncodedBody) :=
  match request.body with
  | none => .ok none
  | some body => body.encode.map some

/-- The content type of a request: the one it asks for, else that of its body, else that of the
client if there is a body. -/
def settleContentType (request : Request) (settings : Settings) (encoded : Option EncodedBody) :
    Except HeaderError (Option HeaderValue) :=
  match request.contentType, encoded with
  | some text, _ =>
      match HeaderValue.ofText? text with
      | some value => .ok (some value)
      | none => .error (.badValue HeaderName.contentType.text)
  | none, some { contentType := some text, .. } => .ok (some ⟨Octets.ofText text, false⟩)
  | none, some _ => .ok (some settings.contentType)
  | none, none => .ok none

/-- The headers of a request, one value for each name. -/
def settleHeaders (request : Request) (settings : Settings) (encoded : Option EncodedBody) :
    Except HeaderError Headers := do
  let ofBody := (encoded.map (·.headers)).getD .empty
  let headers ← (settings.headers.insertAll ofBody).insertTexts request.headers
  match ← request.settleContentType settings encoded with
  | some value => return headers.insert .contentType value
  | none => return headers

def url (request : Request) (settings : Settings) : Url :=
  settings.base.below request.path request.query

/-- A failure before the first attempt. -/
def failBefore (request : Request) (settings : Settings) (kind : FailureKind)
    (cause : FailureCause) : Failure :=
  { kind, method := request.method, url := (request.url settings).toText, cause := some cause }

/-- The request as it is sent at every attempt. -/
def prepare (request : Request) (settings : Settings) : Except Failure WireRequest :=
  match request.encodeBody with
  | .error e => .error (request.failBefore settings .unknown (.encoding e))
  | .ok encoded =>
      match request.settleHeaders settings encoded with
      | .error e => .error (request.failBefore settings .unknown (.header e))
      | .ok headers =>
          .ok
            { method := request.method, url := request.url settings, headers
              body := encoded.map (·.bytes) }

end Request
end Courier
