import Courier.Delivery
import Courier.Middleware
import Courier.Url.Join
/-!
Redirects: answers that name another URL, and the requests that go there in their turn.  A request
changes as little as its answer allows: it loses its body where it becomes a question, and its
credentials where it goes to another host.
-/
namespace Courier

namespace Status

def isRedirect (status : Nat) : Bool :=
  [301, 302, 303, 307, 308].contains status

/-- Does a redirected request become a question without a body? -/
def asksAnew (status : Nat) (method : Method) : Bool :=
  status = 303 || ((status = 301 || status = 302) && method = .post)

end Status

/-- Is it one host that both URLs go to? -/
def Url.sharesHost (a b : Url) : Bool :=
  let site (url : Url) := url.authority.map fun authority =>
    (authority.host, authority.port.or (defaultPort? url.scheme))
  site a == site b

/-- The URL as it is told to the next host; what was asked in private is not told in the open. -/
def Url.referer? (url next : Url) : Option HeaderValue :=
  if url.scheme == "https" && next.scheme == "http" then none
  else some ⟨Octets.ofText { url.withoutUserInfo with fragment := none }.toText, false⟩

namespace WireRequest

def bodyHeaders : List HeaderName :=
  [.contentType, .contentLength, .contentEncoding, .transferEncoding]

/-- Headers that another host must not see. -/
def privateHeaders : List HeaderName :=
  [.authorization, .cookie, ⟨"cookie2"⟩, .proxyAuthorization, ⟨"www-authenticate"⟩]

/-- The request as a question without a body. -/
def question (request : WireRequest) : WireRequest :=
  { request with
    method := if request.method = .head then .head else .get
    headers := request.headers.without bodyHeaders
    body := none }

def readdressed (request : WireRequest) (url : Url) : WireRequest :=
  let headers :=
    if request.url.sharesHost url then request.headers else request.headers.without privateHeaders
  { request with
    url := url.withoutUserInfo
    headers :=
      match request.url.referer? url with
      | some value => headers.insert .referer value
      | none => headers }

/-- The request that an answer asks for instead. -/
def redirected? (request : WireRequest) (answer : WireResponse) : Option WireRequest := do
  guard (Status.isRedirect answer.status)
  let location ← (← answer.headers.get? .location).octets.toText?
  let request := { request with url := request.destination, headers := request.signedHeaders }
  let url ← (request.url.join location).toOption
  let request :=
    if Status.asksAnew answer.status request.method then request.question else request
  return request.readdressed url

end WireRequest

namespace Middleware

variable {σ : Type}

/-- Follow an answer that redirects, and the answers after it, but only so many. -/
def followFrom (inner : Handler σ) (request : WireRequest) :
    (hops : Nat) → Flow σ (Except TransportFailure WireResponse)
  | 0 => do
      match ← inner request with
      | .error e => return .error e
      | .ok answer =>
          return if (request.redirected? answer).isSome then .error (.endless request.url.toText)
            else .ok answer
  | hops + 1 => do
      match ← inner request with
      | .error e => return .error e
      | .ok answer =>
          match request.redirected? answer with
          | none => return .ok answer
          | some next =>
              if next.isSendable then followFrom inner next hops else return .error next.refusal

/-- Go where redirects point, ten times at most. -/
def following : Middleware σ := fun inner request =>
  followFrom inner request 10

end Middleware
end Courier
