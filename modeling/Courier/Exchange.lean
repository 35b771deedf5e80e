import Courier.Header
import Courier.Scope
import Courier.Url.Basic
/-!
What goes over the wire: requests and answers as they are sent and received, and the failures below
the status line, where no answer came back.
-/
namespace Courier

/-- The method of a request; letter case matters. -/
structure Method where
  token : String
deriving Repr, DecidableEq, Inhabited

namespace Method

def get : Method := ⟨"GET"⟩

def head : Method := ⟨"HEAD"⟩

def post : Method := ⟨"POST"⟩

/-- Read a method: any token. -/
def parse? (s : String) : Option Method :=
  if isToken s then some ⟨s⟩ else none

end Method

namespace Status

/-- The standard reason phrases. -/
def reasons : List (Nat × String) :=
  [(100, "Continue"), (101, "Switching Protocols"), (102, "Processing"), (103, "Early Hints"),
   (200, "OK"), (201, "Created"), (202, "Accepted"), (203, "Non Authoritative Information"),
   (204, "No Content"), (205, "Reset Content"), (206, "Partial Content"), (207, "Multi-Status"),
   (208, "Already Reported"), (226, "IM Used"), (300, "Multiple Choices"),
   (301, "Moved Permanently"), (302, "Found"), (303, "See Other"), (304, "Not Modified"),
   (305, "Use Proxy"), (307, "Temporary Redirect"), (308, "Permanent Redirect"),
   (400, "Bad Request"), (401, "Unauthorized"), (402, "Payment Required"), (403, "Forbidden"),
   (404, "Not Found"), (405, "Method Not Allowed"), (406, "Not Acceptable"),
   (407, "Proxy Authentication Required"), (408, "Request Timeout"), (409, "Conflict"),
   (410, "Gone"), (411, "Length Required"), (412, "Precondition Failed"),
   (413, "Payload Too Large"), (414, "URI Too Long"), (415, "Unsupported Media Type"),
   (416, "Range Not Satisfiable"), (417, "Expectation Failed"), (418, "I'm a teapot"),
   (421, "Misdirected Request"), (422, "Unprocessable Entity"), (423, "Locked"),
   (424, "Failed Dependency"), (425, "Too Early"), (426, "Upgrade Required"),
   (428, "Precondition Required"), (429, "Too Many Requests"),
   (431, "Request Header Fields Too Large"), (451, "Unavailable For Legal Reasons"),
   (500, "Internal Server Error"), (501, "Not Implemented"), (502, "Bad Gateway"),
   (503, "Service Unavailable"), (504, "Gateway Timeout"), (505, "HTTP Version Not Supported"),
   (506, "Variant Also Negotiates"), (507, "Insufficient Storage"), (508, "Loop Detected"),
   (510, "Not Extended"), (511, "Network Authentication Required")]

/-- The status as a line of text: the number, and its phrase where it has one. -/
def line (status : Nat) : String :=
  match reasons.lookup status with
  | some reason => s!"{status} {reason}"
  | none => toString status

def isSuccess (status : Nat) : Bool := 200 ≤ status && status < 300

def isClientError (status : Nat) : Bool := 400 ≤ status && status < 500

def isServerError (status : Nat) : Bool := 500 ≤ status && status < 600

/-- Statuses that say the request failed. -/
def isFailure (status : Nat) : Bool := 400 ≤ status

end Status

/-- A request ready to be sent. -/
structure WireRequest where
  method : Method
  url : Url
  headers : Headers := .empty
  body : Option Octets := none
deriving Repr, DecidableEq, Inhabited

/-- An answer, its body read in full. -/
structure WireResponse where
  status : Nat
  headers : Headers := .empty
  body : Octets := []
deriving Repr, DecidableEq, Inhabited

/-- One more header, if name and value are fit for the wire. -/
def Headers.appendText (headers : Headers) (name value : String) : Headers :=
  match HeaderName.parse? name, HeaderValue.ofText? value with
  | some name, some value => headers.append name value
  | _, _ => headers

/-- The answer with one more header, if name and value are fit for the wire. -/
def WireResponse.addHeader (response : WireResponse) (name value : String) : WireResponse :=
  { response with headers := response.headers.appendText name value }

/-- A message wrapped in others: the outermost and those inside it, down to the root. -/
structure Wrapped where
  outermost : String
  inner : List String := []
deriving Repr, DecidableEq, Inhabited

/-- Why no answer came back. -/
inductive TransportFailure
  /-- nothing is sent under this scheme -/
  | refused (url : String)
  /-- no connection to the host -/
  | unreachable (url : String) (causes : List String)
  /-- one server sends the request to the next, and so on -/
  | endless (url : String)
  | interrupted (reason : Interruption)
  | connection (detail : String)
  | middleware (cause : Wrapped)
  | other (text : String)
deriving Repr, DecidableEq, Inhabited

namespace TransportFailure

def message : TransportFailure → String
  | .refused url => s!"builder error for url ({url})"
  | .unreachable url _ => s!"error sending request for url ({url})"
  | .endless url => s!"error following redirect for url ({url})"
  | .interrupted reason => reason.message
  | .connection detail => s!"connection failed: {detail}"
  | .middleware cause => s!"middleware failed: {cause.outermost}"
  | .other text => text

/-- The messages of the causes, the nearest first. -/
def causes : TransportFailure → List String
  | .refused _ => ["URL scheme is not allowed"]
  | .unreachable _ causes => causes
  | .endless _ => ["too many redirects"]
  | .middleware cause => cause.outermost :: cause.inner
  | _ => []

def isTimeout : TransportFailure → Bool
  | .interrupted .deadlineExceeded => true
  | _ => false

end TransportFailure
end Courier
