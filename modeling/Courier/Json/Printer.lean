import Courier.Decimal.Format
import Courier.Json.Basic
import Courier.Text.Quoted
/-!
Documents as text: the compact form without blanks, and the spread form with one item a line.  Only
quotes, backslashes and control characters are escaped; floats have their shortest digits.
-/
namespace Courier.Json.Printer

/-- One character inside a string. -/
def escapeChar (c : Char) : List Char :=
  if c = '"' then ['\\', '"']
  else if c = '\\' then ['\\', '\\']
  else if c = '\n' then ['\\', 'n']
  else if c = '\r' then ['\\', 'r']
  else if c = '\t' then ['\\', 't']
  else if c = '\x08' then ['\\', 'b']
  else if c = '\x0c' then ['\\', 'f']
  else if c.toNat < 0x20 then ['\\', 'u', '0', '0'] ++ Text.hexByte c.toNat.toUInt8
  else [c]

def quoted (s : String) : List Char :=
  '"' :: (s.toList.flatMap escapeChar ++ ['"'])

def wholeNumber : Int → List Char
  | .ofNat n => Nat.toDigits 10 n
  | .negSucc n => '-' :: Nat.toDigits 10 (n + 1)

def number : Number → List Char
  | .whole n => wholeNumber n
  | .real x => if x.isFinite then (Decimal.compact x).toList else "null".toList

/-- Join parts with a separator between any two. -/
def joinWith (separator : List Char) : List (List Char) → List Char
  | [] => []
  | [part] => part
  | part :: rest => part ++ separator ++ joinWith separator rest

mutual

/-- The compact form. -/
def compact : Json → List Char
  | .null => "null".toList
  | .bool true => "true".toList
  | .bool false => "false".toList
  | .number n => number n
  | .string s => quoted s
  | .array items => '[' :: (joinWith [','] (compactItems items) ++ [']'])
  | .object fields => '{' :: (joinWith [','] (compactFields fields) ++ ['}'])

def compactItems : List Json → List (List Char)
  | [] => []
  | item :: rest => compact item :: compactItems rest

def compactFields : List (String × Json) → List (List Char)
  | [] => []
  | (name, value) :: rest => (quoted name ++ ':' :: compact value) :: compactFields rest

end

/-- A line end followed by two blanks for each level. -/
def lineAt (level : Nat) : List Char :=
  '\n' :: List.replicate (2 * level) ' '

mutual

/-- The spread form inside `level` brackets. -/
def spread (level : Nat) : Json → List Char
  | .array [] => ['[', ']']
  | .array (item :: rest) =>
      '[' :: (lineAt (level + 1) ++
        joinWith (',' :: lineAt (level + 1)) (spreadItems (level + 1) (item :: rest)) ++
        lineAt level ++ [']'])
  | .object [] => ['{', '}']
  | .object (field :: rest) =>
      '{' :: (lineAt (level + 1) ++
        joinWith (',' :: lineAt (level + 1)) (spreadFields (level + 1) (field :: rest)) ++
        lineAt level ++ ['}'])
  | .null => "null".toList
  | .bool true => "true".toList
  | .bool false => "false".toList
  | .number n => number n
  | .string s => quoted s

def spreadItems (level : Nat) : List Json → List (List Char)
  | [] => []
  | item :: rest => spread level item :: spreadItems level rest

def spreadFields (level : Nat) : List (String × Json) → List (List Char)
  | [] => []
  | (name, value) :: rest =>
      (quoted name ++ [':', ' '] ++ spread level value) :: spreadFields level rest

end

end Printer

/-- The compact text of a document. -/
def compact (document : Json) : String :=
  String.ofList (Printer.compact document)

/-- The text of a document with one item a line. -/
def pretty (document : Json) : String :=
  String.ofList (Printer.spread 0 document)

end Courier.Json
