import Courier.Header
import Courier.Url.Query
import Courier.Xml.Printer
/-!
Request bodies.  A body is encoded once for a request; every attempt sends the same octets.  Encoding
also says what the content type is, where the kind of the body settles it, and which headers belong
to the body.
-/
namespace Courier

/-- The two versions of SOAP, which differ in namespace and content type. -/
inductive SoapVersion
  | v11
  | v12
deriving Repr, DecidableEq, Inhabited

namespace SoapVersion

def envelopeNamespace : SoapVersion → String
  | .v11 => "http://schemas.xmlsoap.org/soap/envelope/"
  | .v12 => "http://www.w3.org/2003/05/soap-envelope"

def contentType : SoapVersion → String
  | .v11 => "text/xml; charset=utf-8"
  | .v12 => "application/soap+xml; charset=utf-8"

def label : SoapVersion → String
  | .v11 => "Soap11"
  | .v12 => "Soap12"

end SoapVersion

/-- What a request carries. -/
inductive Body
  | octets (bytes : Octets)
  | text (s : String)
  | form (pairs : Url.Pairs)
  | json (value : Datum)
  /-- markup, in an element `root` where that is given, behind a declaration where that is wanted -/
  | xml (value : Datum) (root : Option String) (declaration : Bool)
  /-- markup inside an envelope -/
  | soap (value : Datum) (version : SoapVersion) (action : Option String)
deriving Inhabited

/-- Why a body cannot be encoded. -/
inductive EncodeError
  | json (cause : Datum.JsonError)
  | xml (cause : Xml.WriteError)
  | invalidHeader (name : String)
deriving Repr, DecidableEq, Inhabited

namespace EncodeError

def message : EncodeError → String
  | .json cause => s!"failed to encode JSON body: {cause.message}"
  | .xml cause => s!"failed to serialize XML: {cause.message}"
  | .invalidHeader name => s!"invalid body header '{name}'"

def causes : EncodeError → List String
  | .json cause => [cause.message]
  | .xml cause => [cause.message]
  | .invalidHeader _ => []

end EncodeError

structure EncodedBody where
  bytes : Octets
  contentType : Option String := none
  headers : Headers := .empty
deriving Repr, DecidableEq, Inhabited

namespace Body

/-- The line in front of a document. -/
def xmlDeclaration : String :=
  "<?xml version=\"1.0\" encoding=\"UTF-8\"?>"

/-- Markup inside a root element, if one is given. -/
def inRoot (root : Option String) (inner : String) : String :=
  match root with
  | some name => "<" ++ name ++ ">" ++ inner ++ "</" ++ name ++ ">"
  | none => inner

def envelope (version : SoapVersion) (inner : String) : String :=
  xmlDeclaration ++ "\n<soap:Envelope xmlns:soap=\"" ++ version.envelopeNamespace ++
    "\"><soap:Body>" ++ inner ++ "</soap:Body></soap:Envelope>"

/-- The header that names the action, unless the action is empty. -/
def actionHeaders (action : Option String) : Except EncodeError Headers :=
  match action with
  | none => .ok .empty
  | some action =>
      if action.isEmpty then .ok .empty
      else
        match HeaderValue.ofText? ("\"" ++ action ++ "\"") with
        | some value => .ok (Headers.empty.insert .soapAction value)
        | none => .error (.invalidHeader "SOAPAction")

/-- The octets of a body with its content type and headers. -/
def encode : Body → Except EncodeError EncodedBody
  | .octets bytes => .ok { bytes }
  | .text s => .ok { bytes := Octets.ofText s }
  | .form pairs =>
      .ok
        { bytes := Octets.ofText (Url.Query.encode pairs)
          contentType := some "application/x-www-form-urlencoded" }
  | .json value =>
      match value.toJsonText with
      | .ok s => .ok { bytes := Octets.ofText s, contentType := some "application/json" }
      | .error cause => .error (.json cause)
  | .xml value root declaration =>
      match Xml.write value with
      | .ok inner =>
          let start := if declaration then xmlDeclaration else ""
          .ok
            { bytes := Octets.ofText (start ++ inRoot root inner)
              contentType := some "application/xml" }
      | .error cause => .error (.xml cause)
  | .soap value version action =>
      match Xml.write value with
      | .ok inner =>
          (actionHeaders action).map fun headers =>
            { bytes := Octets.ofText (envelope version inner)
              contentType := some version.contentType
              headers }
      | .error cause => .error (.xml cause)

/-- A text that may be absent, as shown in a summary. -/
def showOption : Option String → String
  | some s => s!"Some({Text.Quoted.encode s})"
  | none => "None"

/-- A summary of a body that shows no content. -/
def summary : Body → String
  | .octets bytes => s!"Body::Bytes({bytes.length} bytes)"
  | .text s => s!"Body::Text({s.utf8ByteSize} bytes)"
  | .form pairs => s!"Body::Form({pairs.length} pairs)"
  | .json _ => "Body::Json"
  | .xml _ root declaration =>
      "Body::XmlBody \x7b root: " ++ showOption root ++ ", declaration: " ++
        (if declaration then "true" else "false") ++ ", .. \x7d"
  | .soap _ version action =>
      "Body::SoapBody \x7b action: " ++ showOption action ++ ", version: " ++ version.label ++
        ", .. \x7d"

end Body
end Courier
