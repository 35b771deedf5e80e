import Courier.Exchange
import Courier.Text.Base64
/-!
How a request goes to a server.  Only `http` and `https` are known; the user information of the URL
stays behind and becomes a header, unless the request is signed already; and a body that is not empty
is announced by its length.
-/
namespace Courier

/-- The user and the password in a URL, escapes resolved. -/
def Url.credentials? (url : Url) : Option (String × Option String) := do
  let authority ← url.authority
  guard !(authority.username.isEmpty && authority.password.isEmpty)
  let user ← (Percent.decode (Octets.ofText authority.username)).toText?
  let password :=
    if authority.password.isEmpty then none
    else (Percent.decode (Octets.ofText authority.password)).toText?
  if user.isEmpty && password.isNone then none else some (user, password)

def Url.withoutUserInfo (url : Url) : Url :=
  { url with authority := url.authority.map fun a => { a with username := "", password := "" } }

/-- A request as a server gets it. -/
structure Delivery where
  method : Method
  target : String
  headers : Headers
  body : Octets
deriving Repr, DecidableEq, Inhabited

namespace WireRequest

def destination (request : WireRequest) : Url :=
  if request.url.credentials?.isSome then request.url.withoutUserInfo else request.url

/-- The value of the header for a user and a password. -/
def userHeader (user : String) (password : Option String) : HeaderValue :=
  ⟨Octets.ofText ("Basic " ++ Text.Base64.encode (Octets.ofText (user ++ ":" ++ password.getD ""))),
    true⟩

/-- The headers with the user information of the URL. -/
def signedHeaders (request : WireRequest) : Headers :=
  match request.url.credentials? with
  | some (user, password) =>
      if request.headers.contains .authorization then request.headers
      else request.headers.insert .authorization (userHeader user password)
  | none => request.headers

def delivery (request : WireRequest) : Delivery :=
  let body := request.body.getD []
  let length : HeaderValue := ⟨Octets.ofText (toString body.length), false⟩
  { method := request.method, target := request.url.target
    headers :=
      if body.isEmpty then request.signedHeaders
      else request.signedHeaders.insert .contentLength length
    body }

/-- Is the scheme one under which requests are sent? -/
def isSendable (request : WireRequest) : Bool :=
  request.url.scheme == "http" || request.url.scheme == "https"

/-- The failure of a request whose scheme is not known. -/
def refusal (request : WireRequest) : TransportFailure :=
  .refused request.destination.toText

/-- The failure of a request whose server cannot be reached. -/
def isolation (request : WireRequest) (causes : List String) : TransportFailure :=
  .unreachable request.destination.toText causes

end WireRequest
end Courier
