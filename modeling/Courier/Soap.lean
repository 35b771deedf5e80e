import Courier.Xml.Decode
/-!
Answers in SOAP envelopes: the payload, which is the first element in the first `Body`, and the fault,
whose parts have other names in the two versions.  A fault counts only when its `Fault` element is a
child of a `Body`; each part keeps the last text that is met at its place.
-/
namespace Courier.Soap

/-- A fault that a service reports. -/
structure Fault where
  code : String := ""
  reason : String := ""
  detail : String := ""
deriving Repr, DecidableEq, Inhabited

def Fault.message (fault : Fault) : String :=
  s!"SOAP fault {fault.code}: {fault.reason}"

inductive Part
  | code
  | reason
  | detail
deriving Repr, DecidableEq

/-- The part at a place below the `Fault` element, given by local names from the outside in. -/
def partAt? : List (List Char) → Option Part
  | [a] =>
      if a = "faultcode".toList then some .code
      else if a = "faultstring".toList then some .reason
      else if a = "detail".toList then some .detail
      else none
  | [a, b] =>
      if a = "Code".toList ∧ b = "Value".toList then some .code
      else if a = "Reason".toList ∧ b = "Text".toList then some .reason
      else none
  | _ => none

/-- The part that a text at this path belongs to; the path is looked at from its first `Fault` on,
which must stand in a `Body`. -/
def partOfPath? (path : List (List Char)) : Option Part :=
  let above := path.takeWhile (· != "Fault".toList)
  match path.drop above.length with
  | [] => none
  | _ :: below => if above.getLast? = some "Body".toList then partAt? below else none

def Fault.set (fault : Fault) (part : Part) (text : String) : Fault :=
  match part with
  | .code => { fault with code := text }
  | .reason => { fault with reason := text }
  | .detail => { fault with detail := text }

def trimText (cs : List Char) : List Char :=
  Text.stripBy Text.isMarkupBlank cs

/-- Go through events; `path` holds the local names of the open elements, the innermost first.
`none` when a reference cannot be resolved. -/
def collect (path : List (List Char)) (fault : Fault) : List Xml.Event → Option Fault
  | [] => some fault
  | .start name _ :: rest => collect (Xml.localName name :: path) fault rest
  | .stop _ :: rest => collect path.tail fault rest
  | .text raw :: rest =>
      let trimmed := trimText raw
      if trimmed.isEmpty then collect path fault rest
      else
        match Xml.unescape trimmed with
        | .error _ => none
        | .ok cs => collect path (place path fault cs) rest
  | .cdata content :: rest => collect path (place path fault content) rest
  | .empty _ _ :: rest => collect path fault rest
  | .aside :: rest => collect path fault rest
where
  /-- The fault with a text put where its path says. -/
  place (path : List (List Char)) (fault : Fault) (cs : List Char) : Fault :=
    match partOfPath? path.reverse with
    | some part => fault.set part (String.ofList cs)
    | none => fault

/-- The fault in an envelope; a body that is not markup to its end has none. -/
def readFault (body : Octets) : Option Fault :=
  match body.toText? with
  | none => none
  | some text =>
      if !Text.contains text "Fault" then none
      else
        let scan := Xml.scan text.toList
        if scan.defect.isSome then none
        else
          match collect [] {} (scan.tokens.map (·.event)) with
          | none => none
          | some fault => if fault.code.isEmpty && fault.reason.isEmpty then none else some fault

/-- Why no payload can be read. -/
inductive ReadError
  | notText (cause : Text.Utf8.Defect)
  | markup (cause : Xml.Defect)
  | decode (cause : Xml.DecodeError)
  | missingBody
deriving Repr, Inhabited

def ReadError.message : ReadError → String
  | .notText cause => s!"XML is not valid UTF-8: {cause.message}"
  | .markup cause => s!"malformed XML: {cause.message}"
  | .decode cause => s!"failed to deserialize XML: {cause.message}"
  | .missingBody => "SOAP envelope has no Body element"

/-- Where the element ends whose start tag has been passed: the position in front of its end tag.
`depth` counts the elements of its name open inside it. -/
def endOf (name : List Char) (depth : Nat) : List Xml.Token → Option Nat
  | [] => none
  | token :: rest =>
      match token.event with
      | .start other _ => endOf name (if other = name then depth + 1 else depth) rest
      | .stop other =>
          if other = name then
            if depth = 0 then some token.before else endOf name (depth - 1) rest
          else endOf name depth rest
      | _ => endOf name depth rest

/-- The first element with the local name `Body`: its name, the position behind its start tag, and
the tokens that follow. -/
def findBody : List Xml.Token → Option (List Char × Nat × List Xml.Token)
  | [] => none
  | token :: rest =>
      match token.event with
      | .start name _ =>
          if Xml.localName name = "Body".toList then some (name, token.after, rest)
          else findBody rest
      | _ => findBody rest

/-- The text that positions are cut from.  Positions are counted from behind a byte order mark, but
the cut is made from its front, where the mark takes three places. -/
def cutSource (cs : List Char) : List Char :=
  match cs with
  | c :: rest => if c = Xml.byteOrderMark then c :: c :: c :: rest else c :: rest
  | [] => []

/-- The text inside the first `Body`. -/
def bodyText (cs : List Char) : Except ReadError (List Char) :=
  let scan := Xml.scan cs
  match findBody scan.tokens with
  | none =>
      match scan.defect with
      | some defect => .error (.markup defect)
      | none => .error .missingBody
  | some (name, start, rest) =>
      match endOf name 0 rest with
      | some stop => .ok (((cutSource cs).drop start).take (stop - start))
      | none =>
          match scan.defect with
          | some defect => .error (.markup defect)
          | none => .error (.markup (.missingEnd (String.ofList name)))

/-- The payload of an envelope as a value of a shape. -/
def readPayload (shape : Json.Shape) (body : Octets) : Except ReadError Json :=
  match Text.Utf8.read body with
  | .error cause => .error (.notText cause)
  | .ok cs => do
      let inner ← bodyText cs
      (Xml.readAs shape (Text.stripBy Text.isBlank inner)).mapError .decode

/-- A whole body as a value of a shape. -/
def readDocument (shape : Json.Shape) (body : Octets) : Except ReadError Json :=
  match Text.Utf8.read body with
  | .error cause => .error (.notText cause)
  | .ok cs => (Xml.readAs shape cs).mapError .decode

end Courier.Soap
