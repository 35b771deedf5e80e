import Courier.Toml.Scalar
import Courier.Toml.Table
import Courier.Toml.Text
/-!
Documents read line by line: headers, entries, comments and empty lines.
-/
namespace Courier.Toml

/-- How deep brackets may be nested, and how many parts a dotted name may have. -/
def depthLimit : Nat := 79

def isBareChar (c : Char) : Bool :=
  c.isAlphanum || c == '-' || c == '_'

def isWordChar (c : Char) : Bool :=
  isBareChar c || c == '+' || c == '.' || c == ':'

def namePart (cs : List Char) : Option (String × List Char) :=
  match cs with
  | '"' :: rest => shortText '"' rest
  | '\'' :: rest => shortText '\'' rest
  | cs =>
      let name := cs.takeWhile isBareChar
      if name.isEmpty then none else some (String.ofList name, cs.dropWhile isBareChar)

/-- A name whose parts are separated by dots; so many more parts may come. -/
def dottedName : Nat → List Char → Option (List String × List Char)
  | 0, _ => none
  | more + 1, cs => do
      let (name, cs) ← namePart (skipInline cs)
      match skipInline cs with
      | '.' :: cs => do
          let (names, cs) ← dottedName more cs
          return (name :: names, cs)
      | cs => return ([name], cs)

/-- What follows blanks, line ends and comments. -/
def skipGaps (inComment : Bool) : List Char → List Char
  | [] => []
  | c :: rest =>
      if c = '\n' then skipGaps false rest
      else if c = '\r' ∧ rest.head? = some '\n' then skipGaps false rest
      else if inComment then if isPlain c then skipGaps true rest else c :: rest
      else if isInlineBlank c then skipGaps false rest
      else if c = '#' then skipGaps true rest
      else c :: rest

/-- The items of a list, after the bracket that opens it; a comma may follow the last. -/
def listItems (item : List Char → Option (Toml × List Char)) :
    Nat → List Char → Option (List Toml × List Char)
  | 0, _ => none
  | fuel + 1, cs =>
      match skipGaps false cs with
      | ']' :: rest => some ([], rest)
      | cs => do
          let (first, cs) ← item cs
          match skipGaps false cs with
          | ',' :: cs => do
              let (rest, cs) ← listItems item fuel cs
              return (first :: rest, cs)
          | ']' :: cs => some ([first], cs)
          | _ => none

def entry (item : List Char → Option (Toml × List Char)) (cs : List Char) :
    Option ((List String × Toml) × List Char) := do
  let (path, cs) ← dottedName depthLimit cs
  let (value, cs) ← item (skipInline (← after? '=' cs))
  return ((path, value), skipInline cs)

/-- The entries of an inline table up to the brace that closes it; it stands on one line, and no
comma follows the last entry. -/
def tableEntries (item : List Char → Option (Toml × List Char)) :
    Nat → List Char → Option (List (List String × Toml) × List Char)
  | 0, _ => none
  | fuel + 1, cs => do
      let (first, cs) ← entry item cs
      match cs with
      | ',' :: cs => do
          let (rest, cs) ← tableEntries item fuel cs
          return (first :: rest, cs)
      | '\x7d' :: cs => some ([first], cs)
      | _ => none

/-- A date and a time of day with a blank between them. -/
def spacedMoment? (word rest : List Char) : Option (Toml × List Char) :=
  match afterDate? word, rest with
  | some [], ' ' :: rest =>
      let time := rest.takeWhile isWordChar
      if (afterTime? time).map isOffset == some true then
        some (.moment (String.ofList (word ++ ' ' :: time)), rest.dropWhile isWordChar)
      else none
  | _, _ => none

/-- A value with brackets nested at most so deep. -/
def value : Nat → List Char → Option (Toml × List Char)
  | _, '"' :: rest => (quotedText '"' rest).map fun r => (.text r.1, r.2)
  | _, '\'' :: rest => (quotedText '\'' rest).map fun r => (.text r.1, r.2)
  | 0, '[' :: _ => none
  | depth + 1, '[' :: rest =>
      (listItems (value depth) (rest.length + 1) rest).map fun r => (.list r.1, r.2)
  | 0, '\x7b' :: _ => none
  | depth + 1, '\x7b' :: rest =>
      match skipInline rest with
      | '\x7d' :: rest => some (.table [], rest)
      | rest => do
          let (pairs, rest) ← tableEntries (value depth) (rest.length + 1) rest
          return (← (ofPairs pairs).toOption, rest)
  | _, cs =>
      let word := cs.takeWhile isWordChar
      let rest := cs.dropWhile isWordChar
      (spacedMoment? word rest).or ((ofWord? word).map fun v => (v, rest))

def lineEnd? (cs : List Char) : Option (List Char) :=
  let cs := skipInline cs
  let cs := if cs.head? = some '#' then cs.dropWhile isPlain else cs
  match cs with
  | [] => some []
  | '\n' :: rest => some rest
  | '\r' :: '\n' :: rest => some rest
  | _ => none

/-- One line, if it says something, and the text after it. -/
def line? (cs : List Char) : Option (Option Line × List Char) :=
  match skipInline cs with
  | '[' :: '[' :: rest => do
      let (path, rest) ← dottedName depthLimit rest
      return (some (.next path), ← lineEnd? (← after? ']' (← after? ']' rest)))
  | '[' :: rest => do
      let (path, rest) ← dottedName depthLimit rest
      return (some (.header path), ← lineEnd? (← after? ']' rest))
  | cs =>
      match lineEnd? cs with
      | some rest => some (none, rest)
      | none => do
          let ((path, value), rest) ← entry (value depthLimit) cs
          return (some (.entry path value), ← lineEnd? rest)

/-- All lines that say something, from the line of this number on. -/
def readLines (number : Nat) : Nat → List Char → Except Fault (List Line)
  | _, [] => .ok []
  | 0, _ => .error (.malformed number)
  | fuel + 1, cs =>
      match line? cs with
      | none => .error (.malformed number)
      | some (line, rest) => do
          let ends := cs.count '\n' - rest.count '\n'
          return line.toList ++ (← readLines (number + ends) fuel rest)

/-- Read a document; a byte order mark may stand in front. -/
def read (text : String) : Except Fault Toml := do
  let cs :=
    match text.toList with
    | '\uFEFF' :: rest => rest
    | cs => cs
  ofLines (← readLines 1 (cs.length + 1) cs)

end Courier.Toml
