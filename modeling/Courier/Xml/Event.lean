import Courier.Text.Ascii
import Courier.Text.Blank
import Courier.Xml.Escape
import Courier.Xml.Name
/-!
Markup as a run of events: tags, texts, and what stands between them for other readers.  The scan
goes on until the end or the first defect.  End tags must match; elements that are still open at the
end are no defect of the scan.
-/
namespace Courier.Xml

/-- A piece of markup, or a text between two of them. -/
inductive Event
  /-- a start tag: the name, and all that stands between the brackets -/
  | start (name tag : List Char)
  /-- an element closed in its own tag -/
  | empty (name tag : List Char)
  | stop (name : List Char)
  | text (raw : List Char)
  | cdata (content : List Char)
  /-- comments, declarations and instructions -/
  | aside
deriving Repr, DecidableEq, Inhabited

inductive Defect
  | openTag
  | openComment
  | openCdata
  | openDoctype
  | openInstruction
  | unknownMarkup
  | noDoctypeName
  | mismatchedEnd (expected found : String)
  | unmatchedEnd (name : String)
  | missingEnd (name : String)
  | attributeEquals (position : Nat)
  | attributeValue (position : Nat)
  | attributeUnquoted (position : Nat)
  | attributeOpen (position : Nat) (quote : Char)
  | attributeTwice (position first : Nat)
  | reference (cause : ReferenceError)
deriving Repr, DecidableEq, Inhabited

def Defect.message : Defect → String
  | .openTag => "syntax error: tag not closed: `>` not found before end of input"
  | .openComment => "syntax error: comment not closed: `-->` not found before end of input"
  | .openCdata => "syntax error: CDATA not closed: `]]>` not found before end of input"
  | .openDoctype => "syntax error: DOCTYPE not closed: `>` not found before end of input"
  | .openInstruction =>
      "syntax error: processing instruction or xml declaration not closed: `?>` not found " ++
        "before end of input"
  | .unknownMarkup => "syntax error: unknown or missed symbol in markup"
  | .noDoctypeName =>
      "ill-formed document: `<!DOCTYPE>` declaration does not contain a name of a document type"
  | .mismatchedEnd expected found =>
      s!"ill-formed document: expected `</{expected}>`, but `</{found}>` was found"
  | .unmatchedEnd name =>
      s!"ill-formed document: close tag `</{name}>` does not match any open tag"
  | .missingEnd name =>
      s!"ill-formed document: start tag not closed: `</{name}>` not found before end of input"
  | .attributeEquals p =>
      s!"error while parsing attribute: position {p}: attribute key must be directly followed " ++
        "by `=` or space"
  | .attributeValue p =>
      s!"error while parsing attribute: position {p}: `=` must be followed by an attribute value"
  | .attributeUnquoted p =>
      s!"error while parsing attribute: position {p}: attribute value must be enclosed in " ++
        "`\"` or `'`"
  | .attributeOpen p quote =>
      s!"error while parsing attribute: position {p}: missing closing quote `{quote}` in " ++
        "attribute value"
  | .attributeTwice p first =>
      s!"error while parsing attribute: position {p}: duplicated attribute, previous " ++
        s!"declaration at position {first}"
  | .reference cause => cause.message

/-- An event and where it stands: the counts of characters before it and up to its end. -/
structure Token where
  event : Event
  before : Nat
  after : Nat
deriving Repr, DecidableEq, Inhabited

/-- Markup without its brackets, with what follows it. -/
abbrev Cut := Option (List Char × List Char)

/-- Cut in front of the first `>` that stands outside quotes. -/
def cutTag (quote : Option Char) : List Char → Cut
  | [] => none
  | c :: rest =>
      if c = '>' ∧ quote = none then some ([], rest)
      else
        let quote' :=
          match quote with
          | some q => if c = q then none else some q
          | none => if c = '"' ∨ c = '\'' then some c else none
        (cutTag quote' rest).map fun (tag, tail) => (c :: tag, tail)

/-- Cut in front of the first `>` before which the characters passed satisfy a test; they are given
in reverse. -/
def cutWhere (test : List Char → Bool) (passed : List Char) : List Char → Cut
  | [] => none
  | c :: rest =>
      if c = '>' ∧ test passed = true then some (passed.reverse, rest)
      else cutWhere test (c :: passed) rest

/-- Cut in front of the `>` that closes as many `<` as were opened. -/
def cutBalanced (depth : Nat) : List Char → Cut
  | [] => none
  | c :: rest =>
      if c = '>' ∧ depth = 0 then some ([], rest)
      else
        let depth' := if c = '<' then depth + 1 else if c = '>' then depth - 1 else depth
        (cutBalanced depth' rest).map fun (tag, tail) => (c :: tag, tail)

/-- Do the characters, in reverse, end a comment that began with `!--`? -/
def endsComment (passed : List Char) : Bool :=
  4 < passed.length && "--".toList.isPrefixOf passed

def endsCdata (passed : List Char) : Bool :=
  "]]".toList.isPrefixOf passed

def endsInstruction (passed : List Char) : Bool :=
  passed.head? = some '?'

/-- Does a text begin with another, whatever the letter case? -/
def beginsWith (start cs : List Char) : Bool :=
  start.isPrefixOf ((cs.take start.length).map Char.toUpper)

/-- What is behind a `<`: an event, how many characters it takes, and what follows it. -/
structure Found where
  event : Event
  length : Nat
  rest : List Char

/-- A comment, character data or a document type, from its `!` on. -/
def scanBang (cs : List Char) : Except Defect Found :=
  match cs with
  | '!' :: '-' :: _ =>
      match cutWhere endsComment [] cs with
      | some (tag, rest) =>
          if beginsWith "!--".toList tag then .ok ⟨.aside, tag.length + 1, rest⟩
          else .error .openComment
      | none => .error .openComment
  | '!' :: '[' :: _ =>
      match cutWhere endsCdata [] cs with
      | some (tag, rest) =>
          if beginsWith "![CDATA[".toList tag then
            .ok ⟨.cdata ((tag.drop 8).take (tag.length - 10)), tag.length + 1, rest⟩
          else .error .openCdata
      | none => .error .openCdata
  | '!' :: d :: _ =>
      if d = 'D' ∨ d = 'd' then
        match cutBalanced 0 cs with
        | some (tag, rest) =>
            if !beginsWith "!DOCTYPE".toList tag then .error .openDoctype
            else if (tag.drop 8).all Text.isMarkupBlank then .error .noDoctypeName
            else .ok ⟨.aside, tag.length + 1, rest⟩
        | none => .error .openDoctype
      else .error .unknownMarkup
  | _ => .error .unknownMarkup

def tagName (tag : List Char) : List Char :=
  tag.takeWhile fun c => !Text.isMarkupBlank c

def trimEnd (cs : List Char) : List Char :=
  (cs.reverse.dropWhile Text.isMarkupBlank).reverse

/-- The name in an end tag; blanks behind it do not count, unless there is nothing else. -/
def endName (content : List Char) : List Char :=
  if content.all Text.isMarkupBlank then content else trimEnd content

/-- Markup from behind its `<`, inside the open elements, the innermost of them first. -/
def scanMarkup (opened : List (List Char)) (cs : List Char) :
    Except Defect (Found × List (List Char)) :=
  match cs with
  | [] => .error .openTag
  | '!' :: _ => (scanBang cs).map fun found => (found, opened)
  | '?' :: _ =>
      match cutWhere endsInstruction [] cs with
      | some (tag, rest) =>
          if 1 < tag.length then .ok (⟨.aside, tag.length + 1, rest⟩, opened)
          else .error .openInstruction
      | none => .error .openInstruction
  | '/' :: _ =>
      match cutTag none cs with
      | none => .error .openTag
      | some (tag, rest) =>
          let name := endName (tag.drop 1)
          match opened with
          | [] => .error (.unmatchedEnd (String.ofList name))
          | expected :: outer =>
              if name = expected then .ok (⟨.stop name, tag.length + 1, rest⟩, outer)
              else .error (.mismatchedEnd (String.ofList expected) (String.ofList name))
  | _ =>
      match cutTag none cs with
      | none => .error .openTag
      | some (tag, rest) =>
          let length := tag.length + 1
          if tag.getLast? = some '/' then
            let tag := tag.dropLast
            .ok (⟨.empty (tagName tag) tag, length, rest⟩, opened)
          else .ok (⟨.start (tagName tag) tag, length, rest⟩, tagName tag :: opened)

/-- The events of a text up to its end or its first defect. -/
structure Scan where
  tokens : List Token
  defect : Option Defect
deriving Repr, DecidableEq, Inhabited

/-- Scan on from a position, inside the open elements. -/
def scanFrom (position : Nat) (opened : List (List Char)) : Nat → List Char → Scan
  | 0, _ => ⟨[], none⟩
  | _ + 1, [] => ⟨[], none⟩
  | fuel + 1, '<' :: rest =>
      match scanMarkup opened rest with
      | .error defect => ⟨[], some defect⟩
      | .ok (found, opened) =>
          let next := position + 1 + found.length
          let more := scanFrom next opened fuel found.rest
          ⟨⟨found.event, position, next⟩ :: more.tokens, more.defect⟩
  | fuel + 1, c :: rest =>
      let text := (c :: rest).takeWhile (· != '<')
      let next := position + text.length
      let more := scanFrom next opened fuel ((c :: rest).dropWhile (· != '<'))
      ⟨⟨.text text, position, next⟩ :: more.tokens, more.defect⟩

/-- The mark at the front of a text that only says how the text is encoded. -/
def byteOrderMark : Char := '\uFEFF'

def withoutMark : List Char → List Char
  | c :: rest => if c = byteOrderMark then rest else c :: rest
  | [] => []

def scan (cs : List Char) : Scan :=
  let cs := withoutMark cs
  scanFrom 0 [] (cs.length + 1) cs

end Courier.Xml
