import Courier.Decimal.Read
import Courier.Json.Error
import Courier.Json.Shape
import Courier.Xml.Attribute
/-!
Documents out of markup.  An element with attributes or children is an object: `@name` for each
attribute, the local name of each child, `$text` for bare text.  Texts are trimmed where they touch a
tag; comments do not divide them.  A record takes its fields from attributes and children, and a list
the elements of one name that follow one another.  What stands behind the value is not looked at.
-/
namespace Courier.Xml

/-- Why no value can be read from markup. -/
inductive DecodeError
  | defect (cause : Defect)
  | content (cause : Json.Cause)
  | unexpectedStart (name : String)
  | unexpectedEnd
deriving Repr, Inhabited

def DecodeError.message : DecodeError → String
  | .defect cause => cause.message
  | .content cause => cause.message
  | .unexpectedStart name => s!"unexpected `Event::Start({name})`"
  | .unexpectedEnd => "unexpected `Event::Eof`"

/-- A part of a text: one with references, or character data taken as it is. -/
inductive Piece
  | raw (cs : List Char)
  | verbatim (cs : List Char)
deriving Repr, DecidableEq, Inhabited

/-- What a document is read from: tags and the texts between them. -/
inductive Node
  | start (name tag : List Char)
  | stop (name : List Char)
  | text (pieces : List Piece)
deriving Repr, DecidableEq, Inhabited

/-- Nodes up to the end or the first defect. -/
structure Source where
  nodes : List Node
  defect : Option Defect
deriving Repr, DecidableEq, Inhabited

namespace Source

/-- A tag or a part of a text; elements closed in their own tag have an end like any other. -/
inductive Part
  | node (n : Node)
  | piece (p : Piece)

def partsOf : Event → List Part
  | .start name tag => [.node (.start name tag)]
  | .empty name tag => [.node (.start name tag), .node (.stop name)]
  | .stop name => [.node (.stop name)]
  | .text raw => [.piece (.raw raw)]
  | .cdata content => [.piece (.verbatim content)]
  | .aside => []

/-- Drop blanks behind a tag, and a text that is nothing else. -/
def trimStarts (afterTag : Bool) : List Part → List Part
  | [] => []
  | .node n :: rest => .node n :: trimStarts true rest
  | .piece (.verbatim cs) :: rest => .piece (.verbatim cs) :: trimStarts false rest
  | .piece (.raw cs) :: rest =>
      let kept := if afterTag then cs.dropWhile Text.isMarkupBlank else cs
      if kept.isEmpty && afterTag then trimStarts afterTag rest
      else .piece (.raw kept) :: trimStarts false rest

/-- Drop blanks in front of a tag. -/
def trimLast : List Piece → List Piece
  | [] => []
  | [.raw cs] => [.raw (trimEnd cs)]
  | piece :: rest => piece :: trimLast rest

/-- The text node of the pieces between two tags; a lone piece of blanks is none. -/
def textNode (pieces : List Piece) : List Node :=
  match trimLast pieces with
  | [] => []
  | [.raw []] => []
  | trimmed => [.text trimmed]

/-- Join the pieces between two tags; `before` holds those passed, in reverse. -/
def joinPieces (before : List Piece) : List Part → List Node
  | [] => textNode before.reverse
  | .piece p :: rest => joinPieces (p :: before) rest
  | .node n :: rest => textNode before.reverse ++ n :: joinPieces [] rest

def ofScan (s : Scan) : Source :=
  ⟨joinPieces [] (trimStarts true (s.tokens.flatMap fun token => partsOf token.event)), s.defect⟩

end Source

/-- A step of reading a value. -/
abbrev Decoder := StateT Source (Except DecodeError)

namespace Decoder

def fail {α : Type} (e : DecodeError) : Decoder α :=
  fun _ => .error e

def refuse {α : Type} (cause : Json.Cause) : Decoder α :=
  fail (.content cause)

def resolvePiece : Piece → Except DecodeError (List Char)
  | .verbatim cs => .ok cs
  | .raw cs => (unescape cs).mapError fun cause => .defect (.reference cause)

def resolvePieces (pieces : List Piece) : Except DecodeError String :=
  (pieces.mapM resolvePiece).map fun parts => String.ofList parts.flatten

inductive Upcoming
  | start (name tag : List Char)
  | stop (name : List Char)
  | text (s : String)
  | nothing

def peek : Decoder Upcoming :=
  fun source =>
    match source.nodes with
    | .start name tag :: _ => .ok (.start name tag, source)
    | .stop name :: _ => .ok (.stop name, source)
    | .text pieces :: _ => (resolvePieces pieces).map fun s => (.text s, source)
    | [] =>
        match source.defect with
        | some defect => .error (.defect defect)
        | none => .ok (.nothing, source)

def skip : Decoder Unit :=
  fun source => .ok ((), { source with nodes := source.nodes.drop 1 })

def next : Decoder Upcoming := do
  let upcoming ← peek
  skip
  pure upcoming

def missingEnd {α : Type} (name : List Char) : Decoder α :=
  fail (.defect (.missingEnd (String.ofList name)))

/-- The text inside an element whose start tag has been read. -/
def elementText (name : List Char) : Decoder String := do
  match ← next with
  | .text s =>
      match ← next with
      | .stop _ => pure s
      | .start inner _ => fail (.unexpectedStart (String.ofList inner))
      | _ => missingEnd name
  | .stop _ => pure ""
  | .start inner _ => fail (.unexpectedStart (String.ofList inner))
  | .nothing => missingEnd name

/-- A bare text, or the text of an element. -/
def textValue : Decoder String := do
  match ← next with
  | .text s => pure s
  | .start name _ => elementText name
  | _ => fail .unexpectedEnd

/-- Pass over the rest of an element; `depth` counts the elements of its name open inside it. -/
def skipElement (name : List Char) (depth : Nat) : Nat → Decoder Unit
  | 0 => missingEnd name
  | fuel + 1 =>
      fun source =>
        match source.nodes with
        | [] =>
            match source.defect with
            | some defect => .error (.defect defect)
            | none => missingEnd name source
        | .start other _ :: rest =>
            let depth := if other = name then depth + 1 else depth
            skipElement name depth fuel { source with nodes := rest }
        | .stop other :: rest =>
            if other = name then
              if depth = 0 then .ok ((), { source with nodes := rest })
              else skipElement name (depth - 1) fuel { source with nodes := rest }
            else skipElement name depth fuel { source with nodes := rest }
        | .text _ :: rest => skipElement name depth fuel { source with nodes := rest }

/-- A plain value out of a text. -/
def plain (shape : Json.Shape) (s : String) : Decoder Json :=
  let wrong : Decoder Json := refuse (.wrongKind (.text s) shape.expected)
  match shape with
  | .any | .text => pure (.string s)
  | .unsigned bits =>
      match Decimal.readNat (2 ^ bits - 1) s with
      | .ok n => pure (.nat n)
      | .error _ => wrong
  | .signed =>
      match Decimal.readInt Decimal.maxSigned64 s with
      | .ok n => pure (.number (.whole n))
      | .error _ => wrong
  | .float =>
      match Decimal.readFloat s with
      | .ok x => pure (.float x)
      | .error _ => wrong
  | .optional inner => if s.isEmpty then pure .null else plain inner s
  | _ => wrong

def attributeValue (shape : Json.Shape) (raw : List Char) : Decoder Json := do
  match unescape raw with
  | .ok cs => plain shape (String.ofList cs)
  | .error cause => fail (.defect (.reference cause))

def failOn (defect : Option Defect) : Decoder Unit :=
  match defect with
  | some d => fail (.defect d)
  | none => pure ()

/-- The attributes of a tag as fields of an object. -/
def anyAttributes : List (List Char × List Char) → Decoder (List (String × Json))
  | [] => pure []
  | (name, raw) :: rest => do
      let v ← attributeValue .any raw
      let others ← anyAttributes rest
      pure ((Attributes.fieldName name, v) :: others)

/-- The attributes of a tag that are fields of a record. -/
def knownAttributes (fields : List Json.Shape.Field) (found : List (String × Json)) :
    List (List Char × List Char) → Decoder (List (String × Json))
  | [] => pure found
  | (name, raw) :: rest =>
      let field := Attributes.fieldName name
      match fields.lookup field with
      | none => knownAttributes fields found rest
      | some (shape, _) =>
          if (found.lookup field).isSome then refuse (.duplicateField field)
          else do
            let v ← attributeValue shape raw
            knownAttributes fields ((field, v) :: found) rest

/-- The fields of a record in order, the missing ones by their defaults. -/
def complete (fields : List Json.Shape.Field) (found : List (String × Json)) :
    Decoder (List (String × Json)) :=
  fields.mapM fun (name, _, absence) =>
    match found.lookup name, absence with
    | some v, _ => pure (name, v)
    | none, .refused => refuse (.missingField name)
    | none, .nullable => pure (name, .null)
    | none, .default v => pure (name, v)

mutual

/-- A value of the shape. -/
def value (shape : Json.Shape) : Nat → Decoder Json
  | 0 => fail .unexpectedEnd
  | fuel + 1 =>
      match shape with
      | .any => do
          match ← next with
          | .text s => pure (.string s)
          | .start name tag =>
              let attributes := Attributes.read tag
              let fields ← anyAttributes attributes.pairs
              failOn attributes.defect
              let fields ← anyChildren name (Fields.ofList fields) fuel
              pure (.object fields)
          | _ => fail .unexpectedEnd
      | .record title fields => do
          match ← next with
          | .text s => refuse (.wrongKind (.text s) (Json.Shape.record title fields).expected)
          | .start name tag =>
              let attributes := Attributes.read tag
              let found ← knownAttributes fields [] attributes.pairs
              failOn attributes.defect
              let found ← knownChildren name fields found fuel
              let values ← complete fields found
              pure (Json.ofFields values)
          | _ => fail .unexpectedEnd
      | .list item => do
          match ← peek with
          | .start name _ =>
              let items ← itemsOf name item [] fuel
              pure (.array items)
          | _ => fail .unexpectedEnd
      | .optional inner => do
          match ← peek with
          | .text "" => pure .null
          | .nothing => pure .null
          | _ => value inner fuel
      | plainShape => do
          let s ← textValue
          plain plainShape s
termination_by structural fuel => fuel

/-- The texts and children of the element `parent` as fields of an object. -/
def anyChildren (parent : List Char) (fields : List (String × Json)) :
    Nat → Decoder (List (String × Json))
  | 0 => missingEnd parent
  | fuel + 1 => do
      match ← peek with
      | .text s =>
          skip
          anyChildren parent (Fields.insert "$text" (.string s) fields) fuel
      | .start name _ =>
          let v ← value .any fuel
          anyChildren parent (Fields.insert (String.ofList (localName name)) v fields) fuel
      | .stop _ =>
          skip
          pure fields
      | .nothing => missingEnd parent
termination_by structural fuel => fuel

/-- The children of the element `parent` that are fields of a record. -/
def knownChildren (parent : List Char) (fields : List Json.Shape.Field)
    (found : List (String × Json)) : Nat → Decoder (List (String × Json))
  | 0 => missingEnd parent
  | fuel + 1 => do
      match ← peek with
      | .text s =>
          match fields.lookup "$text" with
          | none =>
              skip
              knownChildren parent fields found fuel
          | some (shape, _) =>
              if (found.lookup "$text").isSome then refuse (.duplicateField "$text")
              else
                skip
                let v ← plain shape s
                knownChildren parent fields (("$text", v) :: found) fuel
      | .start name _ =>
          let field := String.ofList (localName name)
          match fields.lookup field with
          | none =>
              skip
              skipElement name 0 fuel
              knownChildren parent fields found fuel
          | some (shape, _) =>
              if (found.lookup field).isSome then refuse (.duplicateField field)
              else
                let v ← value shape fuel
                knownChildren parent fields ((field, v) :: found) fuel
      | .stop _ =>
          skip
          pure found
      | .nothing => missingEnd parent
termination_by structural fuel => fuel

/-- Elements of one name that follow one another, with the texts between them. -/
def itemsOf (name : List Char) (item : Json.Shape) (done : List Json) :
    Nat → Decoder (List Json)
  | 0 => missingEnd name
  | fuel + 1 => do
      match ← peek with
      | .start other _ =>
          if other = name then
            let v ← value item fuel
            itemsOf name item (v :: done) fuel
          else pure done.reverse
      | .text s =>
          skip
          let v ← plain item s
          itemsOf name item (v :: done) fuel
      | _ => pure done.reverse
termination_by structural fuel => fuel

end

end Decoder

def readAs (shape : Json.Shape) (cs : List Char) : Except DecodeError Json :=
  let source := Source.ofScan (scan cs)
  ((Decoder.value shape (2 * source.nodes.length + 4)).run source).map (·.1)

end Courier.Xml
