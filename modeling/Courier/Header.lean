import Courier.Text.Ascii
import Courier.Text.Utf8
/-!
Header fields.  Names are tokens in lower case; values are octets without control characters but the
tab.  A map of headers is the list of its fields in the order in which they came; one name may have
several values.
-/
namespace Courier

/-- May this character stand in a token? -/
def isTokenChar (c : Char) : Bool :=
  c.isAlphanum || "!#$%&'*+-.^_`|~".toList.contains c

/-- A token: at least one character, and none that separates. -/
def isToken (s : String) : Bool :=
  !s.toList.isEmpty && s.toList.all isTokenChar

/-- The name of a header, in lower case. -/
structure HeaderName where
  text : String
deriving Repr, DecidableEq, Inhabited, BEq, Ord

namespace HeaderName

def maxLength : Nat := 65535

/-- Read a name; letter case does not matter. -/
def parse? (s : String) : Option HeaderName :=
  if isToken s && s.length ≤ maxLength then some ⟨Text.lowerAscii s⟩ else none

def accept : HeaderName := ⟨"accept"⟩
def authorization : HeaderName := ⟨"authorization"⟩
def contentEncoding : HeaderName := ⟨"content-encoding"⟩
def contentLength : HeaderName := ⟨"content-length"⟩
def contentType : HeaderName := ⟨"content-type"⟩
def cookie : HeaderName := ⟨"cookie"⟩
def location : HeaderName := ⟨"location"⟩
def proxyAuthorization : HeaderName := ⟨"proxy-authorization"⟩
def referer : HeaderName := ⟨"referer"⟩
def retryAfter : HeaderName := ⟨"retry-after"⟩
def soapAction : HeaderName := ⟨"soapaction"⟩
def transferEncoding : HeaderName := ⟨"transfer-encoding"⟩
def userAgent : HeaderName := ⟨"user-agent"⟩

end HeaderName

/-- The value of a header; a sensitive one must not be shown. -/
structure HeaderValue where
  octets : Octets
  sensitive : Bool := false
deriving Repr, DecidableEq, Inhabited

namespace HeaderValue

/-- May this octet stand in a value? -/
def isValueOctet (b : UInt8) : Bool :=
  b == 0x09 || (0x20 ≤ b && b != 0x7F)

def parse? (octets : Octets) : Option HeaderValue :=
  if octets.all isValueOctet then some { octets } else none

def ofText? (s : String) : Option HeaderValue :=
  parse? (Octets.ofText s)

/-- The value as a text, if it has nothing but visible ASCII, blanks and tabs. -/
def visible? (value : HeaderValue) : Option String :=
  if value.octets.all fun b => b == 0x09 || (0x20 ≤ b && b ≤ 0x7E) then
    some (String.ofList (value.octets.map fun b => Char.ofNat b.toNat))
  else none

end HeaderValue

/-- Why two texts are no header field; the name stands as it was given. -/
inductive HeaderError
  | badName (name : String)
  | badValue (name : String)
deriving Repr, DecidableEq, Inhabited

def HeaderError.message : HeaderError → String
  | .badName name => s!"Invalid header '{name}': invalid HTTP header name"
  | .badValue name => s!"Invalid header '{name}': failed to parse header value"

/-- A header field given as two texts. -/
def HeaderName.parseField (name value : String) :
    Except HeaderError (HeaderName × HeaderValue) :=
  match parse? name, HeaderValue.ofText? value with
  | none, _ => .error (.badName name)
  | some _, none => .error (.badValue name)
  | some n, some v => .ok (n, v)

/-- Header fields in order. -/
structure Headers where
  fields : List (HeaderName × HeaderValue) := []
deriving Repr, DecidableEq, Inhabited

namespace Headers

def empty : Headers := ⟨[]⟩

/-- All values of a name, in order. -/
def getAll (headers : Headers) (name : HeaderName) : List HeaderValue :=
  (headers.fields.filter fun field => field.1 = name).map (·.2)

/-- The first value of a name. -/
def get? (headers : Headers) (name : HeaderName) : Option HeaderValue :=
  (headers.getAll name).head?

def contains (headers : Headers) (name : HeaderName) : Bool :=
  headers.fields.any fun field => field.1 = name

/-- Add one more value to a name. -/
def append (headers : Headers) (name : HeaderName) (value : HeaderValue) : Headers :=
  ⟨headers.fields ++ [(name, value)]⟩

/-- Put a value in the place of the first field of a name and drop the others of that name. -/
def replaceIn (name : HeaderName) (value : HeaderValue) :
    List (HeaderName × HeaderValue) → List (HeaderName × HeaderValue)
  | [] => [(name, value)]
  | field :: rest =>
      if field.1 = name then (name, value) :: rest.filter fun other => other.1 ≠ name
      else field :: replaceIn name value rest

/-- Make a value the only one of its name. -/
def insert (headers : Headers) (name : HeaderName) (value : HeaderValue) : Headers :=
  ⟨replaceIn name value headers.fields⟩

/-- Without the fields of some names. -/
def without (headers : Headers) (names : List HeaderName) : Headers :=
  ⟨headers.fields.filter fun field => !names.contains field.1⟩

/-- Insert all fields of another map, one after the other. -/
def insertAll (headers other : Headers) : Headers :=
  other.fields.foldl (fun acc field => acc.insert field.1 field.2) headers

/-- Insert fields given as texts, one after the other. -/
def insertTexts (headers : Headers) : List (String × String) → Except HeaderError Headers
  | [] => .ok headers
  | (name, value) :: rest =>
      match HeaderName.parseField name value with
      | .error e => .error e
      | .ok (n, v) => insertTexts (headers.insert n v) rest

/-- Names in the order of their first field. -/
def names (headers : Headers) : List HeaderName :=
  (headers.fields.map (·.1)).eraseDups

/-- The text of the first value of a name, if the name is one and the value can be shown. -/
def text? (headers : Headers) (name : String) : Option String :=
  (HeaderName.parse? name).bind fun name => (headers.get? name).bind HeaderValue.visible?

end Headers
end Courier
