import Courier.Exchange
import Courier.Json.Reader
import Courier.Soap
/-!
Answers as callers see them: the answer of the last attempt, the URL that was asked for, and how many
attempts it took.
-/
namespace Courier

structure Response where
  status : Nat
  headers : Headers
  body : Octets
  url : Url
  attempts : Nat
deriving Repr, DecidableEq, Inhabited

namespace Response

/-- What came back at an attempt. -/
def ofWire (wire : WireResponse) (url : Url) (attempt : Nat) : Response :=
  { status := wire.status, headers := wire.headers, body := wire.body, url, attempts := attempt }

def statusText (response : Response) : String :=
  Status.line response.status

/-- The first value of a header, if it can be shown. -/
def header? (response : Response) (name : String) : Option String :=
  response.headers.text? name

/-- The body as text; what is not text is replaced. -/
def text (response : Response) : String :=
  Text.Utf8.decodeLenient response.body

def json (response : Response) (shape : Json.Shape) : Except Json.ReadError Json :=
  Json.readAs shape response.body

/-- The body as markup that holds a value of a shape. -/
def xml (response : Response) (shape : Json.Shape) : Except Soap.ReadError Json :=
  Soap.readDocument shape response.body

/-- The payload of the envelope in the body. -/
def soap (response : Response) (shape : Json.Shape) : Except Soap.ReadError Json :=
  Soap.readPayload shape response.body

/-- The fault that the body reports. -/
def soapFault (response : Response) : Option Soap.Fault :=
  Soap.readFault response.body

end Response
end Courier
