import Courier.Datum
import Courier.Xml.Name
/-!
Values as markup.  A record is an element named after it; its fields are child elements in order, but
a field whose name begins with `@` is an attribute, and `$text` and `$value` are content without an
element of their own.  A list repeats its element; in an attribute or a text its items stand between
blanks.  What has no name cannot be the root.
-/
namespace Courier.Xml

/-- Why a value cannot be written as markup. -/
inductive WriteError
  | noRoot (kind : String)
  | nameStart (c : Char) (name : String)
  | nameChar (c : Char) (name : String)
  | inSimple (kind : String)
  | inText (kind : String)
  | inItem (kind : String)
  | inTag (kind : String)
  | inContent (kind : String)
  | octets
  | adjacentText
  | custom (reason : String)
deriving Repr, DecidableEq, Inhabited

def WriteError.message : WriteError → String
  | .custom reason => reason
  | e => "unsupported value: " ++ (match e with
      | .noRoot kind => s!"cannot serialize {kind} without defined root tag"
      | .nameStart c name =>
          s!"character `{c}` is not allowed at the start of an XML name `{name}`"
      | .nameChar c name => s!"character `{c}` is not allowed in an XML name `{name}`"
      | .inSimple kind => s!"cannot serialize {kind} as an attribute or text content value"
      | .inText kind => s!"cannot serialize {kind} as text content value"
      | .inItem kind => s!"cannot serialize {kind} as an `xs:list` item"
      | .inTag kind => s!"cannot serialize {kind} as an XML tag name"
      | .inContent kind => s!"serialization of {kind} is not supported in `$value` field"
      | .octets => "`serialize_bytes` not supported yet"
      | .adjacentText =>
          "consequent primitives would be serialized without delimiter and cannot be " ++
            "deserialized back"
      | .custom reason => reason)

abbrev Written := Except WriteError (List Char)

/-- A name that markup allows. -/
def checkName (name : String) : Written :=
  let cs := name.toList
  match cs.find? (fun c => !isNameChar c), cs with
  | _, [] => .ok []
  | bad, c :: _ =>
      if !isNameStart c then .error (.nameStart c name)
      else
        match bad with
        | some b => .error (.nameChar b name)
        | none => .ok cs

/-- Where a text stands: between tags or between double quotes. -/
inductive Place
  | text
  | quotes
deriving DecidableEq

def escapeChar (place : Place) (c : Char) : List Char :=
  if c = '<' then "&lt;".toList
  else if c = '>' then "&gt;".toList
  else if c = '&' then "&amp;".toList
  else if c = '"' ∧ place = .quotes then "&quot;".toList
  else [c]

def escape (place : Place) (s : String) : List Char :=
  s.toList.flatMap (escapeChar place)

/-- One character of an item in a list between blanks. -/
def escapeItemChar (place : Place) (c : Char) : List Char :=
  if c = ' ' then "&#32;".toList
  else if c = '\t' then "&#9;".toList
  else if c = '\n' then "&#10;".toList
  else if c = '\r' then "&#13;".toList
  else escapeChar place c

def wholeText (n : Int) : List Char :=
  Json.Printer.wholeNumber n

def boolText (b : Bool) : List Char :=
  (if b then "true" else "false").toList

/-- An item of a list between blanks; `none` when it leaves no trace. -/
def item (place : Place) : Datum → Except WriteError (Option (List Char))
  | .bool b => .ok (some (boolText b))
  | .whole n => .ok (some (wholeText n))
  | .real x => .ok (some (Decimal.plain x).toList)
  | .text s | .choice _ s =>
      .ok (if s.isEmpty then none else some (s.toList.flatMap (escapeItemChar place)))
  | .char c => .ok (some (escapeItemChar place c))
  | .absent => .ok none
  | .given inner => item place inner
  | .wrapper _ inner => item place inner
  | .unit => .error (.inItem "unit type `()`")
  | .unitRecord name => .error (.inItem s!"unit struct `{name}`")
  | .octets _ => .error .octets
  | .list _ => .error (.inItem "sequence")
  | .map _ => .error (.inItem "map")
  | .record name _ => .error (.inItem s!"struct `{name}`")
  | .failing reason => .error (.custom reason)

/-- Items with a blank between any two. -/
def itemList (place : Place) (items : List Datum) : Written := do
  let parts ← items.mapM (item place)
  .ok (Json.Printer.joinWith [' '] (parts.filterMap id))

/-- A value without structure, in a text or an attribute. -/
def simple (place : Place) : Datum → Written
  | .bool b => .ok (boolText b)
  | .whole n => .ok (wholeText n)
  | .real x => .ok (Decimal.plain x).toList
  | .text s | .choice _ s => .ok (escape place s)
  | .char c => .ok (escapeChar place c)
  | .absent | .unit | .unitRecord _ => .ok []
  | .given inner => simple place inner
  | .wrapper _ inner => simple place inner
  | .list items => itemList place items
  | .octets _ => .error .octets
  | .map _ => .error (.inSimple "map")
  | .record name _ => .error (.inSimple s!"struct `{name}`")
  | .failing reason => .error (.custom reason)

/-- The content of a `$text` field. -/
def textContent : Datum → Written
  | .given inner => textContent inner
  | .wrapper _ inner => textContent inner
  | .map _ => .error (.inText "map")
  | .record name _ => .error (.inText s!"struct `{name}`")
  | .choice _ "$text" => .ok []
  | value => simple .text value

/-- The name that a key of a map stands for. -/
def keyName : Datum → Except WriteError String
  | .bool b => .ok (String.ofList (boolText b))
  | .whole n => .ok (String.ofList (wholeText n))
  | .real x => .ok (Decimal.plain x)
  | .text s | .choice _ s => .ok s
  | .char c => .ok (String.singleton c)
  | .absent => .ok ""
  | .given inner => keyName inner
  | .wrapper _ inner => keyName inner
  | .unit => .error (.inTag "unit type `()`")
  | .unitRecord name => .error (.inTag s!"unit struct `{name}`")
  | .octets _ => .error .octets
  | .list _ => .error (.inTag "sequence")
  | .map _ => .error (.inTag "map")
  | .record name _ => .error (.inTag s!"struct `{name}`")
  | .failing reason => .error (.custom reason)

def emptyElement (name : List Char) : List Char :=
  '<' :: (name ++ ['/', '>'])

def wrapped (name content : List Char) : List Char :=
  '<' :: (name ++ '>' :: (content ++ '<' :: '/' :: (name ++ ['>'])))

/-- An element with attributes; without content it is closed at once. -/
def assembled (name attributes content : List Char) : List Char :=
  if content.isEmpty then '<' :: (name ++ attributes ++ ['/', '>'])
  else '<' :: (name ++ attributes ++ '>' :: (content ++ '<' :: '/' :: (name ++ ['>'])))

/-- What the content of a `$value` field came to: nothing, bare text, or an element. -/
inductive Trace
  | nothing
  | bare
  | element
deriving DecidableEq

def attributeText (name : String) (value : Datum) : Written := do
  let name ← checkName name
  let text ← simple .quotes value
  .ok (' ' :: (name ++ '=' :: '"' :: (text ++ ['"'])))

/-- The name of an attribute behind its mark. -/
def attributeName? (name : String) : Option String :=
  match name.toList with
  | '@' :: rest => some (String.ofList rest)
  | _ => none

mutual

/-- A value as the element `key`. -/
def element (key : List Char) : Datum → Written
  | .absent | .unit | .unitRecord _ => .ok (emptyElement key)
  | .text s => if s.isEmpty then .ok (emptyElement key) else .ok (wrapped key (escape .text s))
  | .given inner => element key inner
  | .wrapper _ inner => element key inner
  | .list items => elements key items
  | .map entries => do
      let (attributes, content) ← entryParts entries
      .ok (assembled key attributes content)
  | .record _ fields => do
      let (attributes, content) ← fieldParts fields
      .ok (assembled key attributes content)
  | .bool b => (simple .text (.bool b)).map (wrapped key)
  | .whole n => (simple .text (.whole n)).map (wrapped key)
  | .real x => (simple .text (.real x)).map (wrapped key)
  | .char c => (simple .text (.char c)).map (wrapped key)
  | .choice e name => (simple .text (.choice e name)).map (wrapped key)
  | .octets bytes => (simple .text (.octets bytes)).map (wrapped key)
  | .failing reason => .error (.custom reason)

/-- Items as so many elements `key`. -/
def elements (key : List Char) : List Datum → Written
  | [] => .ok []
  | item :: rest => do
      let first ← element key item
      let others ← elements key rest
      .ok (first ++ others)

/-- The content of a `$value` field; `afterText` says that bare text stands before it. -/
def content (afterText : Bool) : Datum → Except WriteError (List Char × Trace)
  | .absent | .unit => .ok ([], .nothing)
  | .given inner => content afterText inner
  | .unitRecord name | .choice _ name => do
      let name ← checkName name
      .ok (emptyElement name, .element)
  | .wrapper name inner => do
      let name ← checkName name
      let text ← element name inner
      .ok (text, .element)
  | .list items => contents afterText items
  | .map _ => .error (.inContent "map types")
  | .record name _ => .error (.inContent s!"struct `{name}`")
  | .failing reason => .error (.custom reason)
  | .bool b => bare afterText (.bool b)
  | .whole n => bare afterText (.whole n)
  | .real x => bare afterText (.real x)
  | .text s => bare afterText (.text s)
  | .char c => bare afterText (.char c)
  | .octets bytes => bare afterText (.octets bytes)

/-- Bare text, which may not follow bare text. -/
def bare (afterText : Bool) (value : Datum) : Except WriteError (List Char × Trace) :=
  if afterText then .error .adjacentText
  else (simple .text value).map fun text => (text, .bare)

def contents (afterText : Bool) : List Datum → Except WriteError (List Char × Trace)
  | [] => .ok ([], .nothing)
  | item :: rest => do
      let (first, trace) ← content afterText item
      let (others, last) ← contents (trace = .bare) rest
      .ok (first ++ others, if rest.isEmpty then trace else last)

/-- Attributes and content of the fields of a record. -/
def fieldParts : List (String × Datum) → Except WriteError (List Char × List Char)
  | [] => .ok ([], [])
  | (name, value) :: rest => do
      let (attributes, text) ← fieldPart name value
      let (moreAttributes, moreText) ← fieldParts rest
      .ok (attributes ++ moreAttributes, text ++ moreText)

/-- Attributes and content of the entries of a map. -/
def entryParts : List (Datum × Datum) → Except WriteError (List Char × List Char)
  | [] => .ok ([], [])
  | (key, value) :: rest => do
      let name ← keyName key
      let (attributes, text) ← fieldPart name value
      let (moreAttributes, moreText) ← entryParts rest
      .ok (attributes ++ moreAttributes, text ++ moreText)

/-- One field: an attribute, or content. -/
def fieldPart (name : String) (value : Datum) : Except WriteError (List Char × List Char) :=
  match attributeName? name with
  | some bareName => (attributeText bareName value).map fun text => (text, [])
  | none =>
      if name = "$text" then (textContent value).map fun text => ([], text)
      else if name = "$value" then (content false value).map fun (text, _) => ([], text)
      else do
        let key ← checkName name
        let text ← element key value
        .ok ([], text)

end

def root : Datum → Written
  | .absent => .ok []
  | .given inner => root inner
  | .record name fields => do
      let key ← checkName name
      element key (.record name fields)
  | .unitRecord name | .choice _ name => (checkName name).map emptyElement
  | .wrapper name inner => do
      let key ← checkName name
      element key inner
  | .unit => .error (.noRoot "`()`")
  | .bool _ => .error (.noRoot "`bool`")
  | .whole n => .error (.noRoot (if 0 ≤ n then "`u64`" else "`i64`"))
  | .real _ => .error (.noRoot "`f64`")
  | .text _ => .error (.noRoot "`&str`")
  | .char _ => .error (.noRoot "`char`")
  | .octets _ => .error (.noRoot "`&[u8]`")
  | .list _ => .error (.noRoot "sequence")
  | .map _ => .error (.noRoot "map")
  | .failing reason => .error (.custom reason)

def write (value : Datum) : Except WriteError String :=
  (root value).map String.ofList

end Courier.Xml
