import Courier.Xml.Event
/-!
Attributes of a start tag: names, each followed by `=` and a value between quotes.  They are read in
order up to the first defect; positions in defects count octets from the start of the tag.
-/
namespace Courier.Xml

/-- The attributes of a tag up to the first defect. -/
structure Attributes where
  pairs : List (List Char × List Char)
  defect : Option Defect
deriving Repr, DecidableEq, Inhabited

namespace Attributes

/-- A position in a tag: how many octets come before, and what follows. -/
structure Cursor where
  position : Nat
  rest : List Char

def Cursor.skip (p : Char → Bool) (c : Cursor) : List Char × Cursor :=
  let taken := c.rest.takeWhile p
  (taken, ⟨c.position + octetCount taken, c.rest.drop taken.length⟩)

def Cursor.next (c : Cursor) : Cursor :=
  match c.rest with
  | [] => c
  | d :: rest => ⟨c.position + d.utf8Size, rest⟩

/-- A name, which begins at the cursor, with the place behind its `=`. -/
def readName (c : Cursor) : Except Defect (List Char × Cursor) :=
  match c.rest with
  | [] => .error (.attributeEquals c.position)
  | first :: _ =>
      let (more, c) := c.next.skip fun d => d != '=' && !Text.isMarkupBlank d
      let c := (c.skip Text.isMarkupBlank).2
      match c.rest with
      | '=' :: _ => .ok (first :: more, c.next)
      | _ => .error (.attributeEquals c.position)

/-- A value between quotes, with the place behind it. -/
def readValue (c : Cursor) : Except Defect (List Char × Cursor) :=
  let c := (c.skip Text.isMarkupBlank).2
  match c.rest with
  | [] => .error (.attributeValue c.position)
  | quote :: _ =>
      if quote = '"' ∨ quote = '\'' then
        let (value, c) := c.next.skip (· != quote)
        if c.rest.isEmpty then .error (.attributeOpen c.position quote)
        else .ok (value, c.next)
      else .error (.attributeUnquoted c.position)

/-- Read on; `seen` holds the names so far and where they began. -/
def readFrom (seen : List (List Char × Nat)) (c : Cursor) : Nat → Attributes
  | 0 => ⟨[], none⟩
  | fuel + 1 =>
      let c := (c.skip Text.isMarkupBlank).2
      if c.rest.isEmpty then ⟨[], none⟩
      else
        match readName c with
        | .error defect => ⟨[], some defect⟩
        | .ok (name, behind) =>
            match seen.lookup name with
            | some first => ⟨[], some (.attributeTwice c.position first)⟩
            | none =>
                match readValue behind with
                | .error defect => ⟨[], some defect⟩
                | .ok (value, behind) =>
                    let more := readFrom ((name, c.position) :: seen) behind fuel
                    ⟨(name, value) :: more.pairs, more.defect⟩

/-- The attributes in a tag, behind its name. -/
def read (tag : List Char) : Attributes :=
  let name := tagName tag
  readFrom [] ⟨octetCount name, tag.drop name.length⟩ (tag.length + 1)

def isNamespace (name : List Char) : Bool :=
  name == "xmlns".toList || "xmlns:".toList.isPrefixOf name

def fieldName (name : List Char) : String :=
  String.ofList ('@' :: if isNamespace name then name else localName name)

end Attributes
end Courier.Xml
