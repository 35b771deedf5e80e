import Courier.Json.Printer
/-!
Values that a caller hands over to be sent: records, lists, maps and plain values, before it is
settled in which format they are written.  A value may refuse to be written at all.
-/
namespace Courier

/-- A value to be written. -/
inductive Datum
  /-- an absent value -/
  | absent
  /-- a value that may be absent and is there -/
  | given (inner : Datum)
  | unit
  | bool (b : Bool)
  | whole (n : Int)
  | real (x : Float)
  | text (s : String)
  | char (c : Char)
  | octets (bytes : Octets)
  | list (items : List Datum)
  | map (entries : List (Datum × Datum))
  | record (name : String) (fields : List (String × Datum))
  | unitRecord (name : String)
  /-- one value under a name of its own -/
  | wrapper (name : String) (inner : Datum)
  /-- one of the names of an enumeration -/
  | choice (enumeration name : String)
  /-- a value that cannot be written, with the reason it gives -/
  | failing (reason : String)
deriving Inhabited

namespace Datum

mutual

def ofJson : Json → Datum
  | .null => .unit
  | .bool b => .bool b
  | .number (.whole n) => .whole n
  | .number (.real x) => .real x
  | .string s => .text s
  | .array items => .list (ofItems items)
  | .object fields => .map (ofFields fields)

def ofItems : List Json → List Datum
  | [] => []
  | item :: rest => ofJson item :: ofItems rest

def ofFields : List (String × Json) → List (Datum × Datum)
  | [] => []
  | (name, value) :: rest => (.text name, ofJson value) :: ofFields rest

end

/-- Why a value has no JSON text. -/
inductive JsonError
  | keyNotString
  | keyNotFinite
  | custom (reason : String)
deriving Repr, DecidableEq, Inhabited

def JsonError.message : JsonError → String
  | .keyNotString => "key must be a string"
  | .keyNotFinite => "float key must be finite (got NaN or +/-inf)"
  | .custom reason => reason

open Json.Printer in
/-- The text of a key: plain values stand between quotes. -/
def keyText : Datum → Except JsonError (List Char)
  | .text s => .ok (quoted s)
  | .char c => .ok (quoted (String.singleton c))
  | .bool b => .ok (quoted (if b then "true" else "false"))
  | .whole n => .ok ('"' :: (wholeNumber n ++ ['"']))
  | .real x => if x.isFinite then .ok (quoted (Decimal.compact x)) else .error .keyNotFinite
  | .choice _ name => .ok (quoted name)
  | .given inner => keyText inner
  | .wrapper _ inner => keyText inner
  | .failing reason => .error (.custom reason)
  | _ => .error .keyNotString

open Json.Printer in
mutual

/-- The JSON text of a value; fields and entries keep their order. -/
def jsonChars : Datum → Except JsonError (List Char)
  | .absent | .unit | .unitRecord _ => .ok "null".toList
  | .given inner => jsonChars inner
  | .wrapper _ inner => jsonChars inner
  | .bool b => .ok (if b then "true".toList else "false".toList)
  | .whole n => .ok (wholeNumber n)
  | .real x => .ok (number (.real x))
  | .text s => .ok (quoted s)
  | .char c => .ok (quoted (String.singleton c))
  | .choice _ name => .ok (quoted name)
  | .octets bytes =>
      .ok ('[' :: (joinWith [','] (bytes.map fun b => Nat.toDigits 10 b.toNat) ++ [']']))
  | .list items => do
      let parts ← jsonItems items
      .ok ('[' :: (joinWith [','] parts ++ [']']))
  | .map entries => do
      let parts ← jsonEntries entries
      .ok ('{' :: (joinWith [','] parts ++ ['}']))
  | .record _ fields => do
      let parts ← jsonFields fields
      .ok ('{' :: (joinWith [','] parts ++ ['}']))
  | .failing reason => .error (.custom reason)

def jsonItems : List Datum → Except JsonError (List (List Char))
  | [] => .ok []
  | item :: rest => do
      let part ← jsonChars item
      let parts ← jsonItems rest
      .ok (part :: parts)

def jsonEntries : List (Datum × Datum) → Except JsonError (List (List Char))
  | [] => .ok []
  | (key, value) :: rest => do
      let name ← keyText key
      let part ← jsonChars value
      let parts ← jsonEntries rest
      .ok ((name ++ ':' :: part) :: parts)

def jsonFields : List (String × Datum) → Except JsonError (List (List Char))
  | [] => .ok []
  | (name, value) :: rest => do
      let part ← jsonChars value
      let parts ← jsonFields rest
      .ok ((quoted name ++ ':' :: part) :: parts)

end

def toJsonText (value : Datum) : Except JsonError String :=
  value.jsonChars.map String.ofList

end Datum
end Courier
