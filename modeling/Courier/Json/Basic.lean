import Courier.Decimal.Nearest
import Courier.Text.Utf8
/-!
JSON documents.  A number is a whole number or a float, and the two stay apart: `1` is no `1.0`.
The fields of an object are kept in the order of their names, one for each name.
-/
namespace Courier

/-- A number of a document. -/
inductive Json.Number
  | whole (n : Int)
  | real (x : Float)
deriving Repr, BEq, Inhabited

/-- A JSON document. -/
inductive Json
  | null
  | bool (b : Bool)
  | number (n : Json.Number)
  | string (s : String)
  | array (items : List Json)
  | object (fields : List (String × Json))
deriving Repr, BEq, Inhabited

namespace Json

/-- The whole number `n` as a document. -/
def nat (n : Nat) : Json :=
  .number (.whole n)

/-- A float as a document; what is not finite has no number and becomes `null`. -/
def float (x : Float) : Json :=
  if x.isFinite then .number (.real x) else .null

/-- `null` for an absent value. -/
def ofOption {α : Type} (f : α → Json) : Option α → Json
  | none => .null
  | some a => f a

end Json

namespace Fields

variable {α : Type}

/-- Put a field into a list ordered by name; an earlier field of that name gives way. -/
def insert (key : String) (value : α) : List (String × α) → List (String × α)
  | [] => [(key, value)]
  | (k, v) :: rest =>
      if key = k then (key, value) :: rest
      else if key < k then (key, value) :: (k, v) :: rest
      else (k, v) :: insert key value rest

/-- Order fields by name; of several with one name the last stays. -/
def ofList (fields : List (String × α)) : List (String × α) :=
  fields.foldl (fun acc field => insert field.1 field.2 acc) []

/-- The value of a field. -/
def get? (key : String) (fields : List (String × α)) : Option α :=
  fields.lookup key

end Fields

namespace Json

/-- The object with these fields, the last of a name winning. -/
def ofFields (fields : List (String × Json)) : Json :=
  .object (Fields.ofList fields)

/-- The field of an object. -/
def get? (key : String) : Json → Option Json
  | .object fields => Fields.get? key fields
  | _ => none

/-- The field of an object, `null` where it is absent. -/
def getD (document : Json) (key : String) : Json :=
  (document.get? key).getD .null

def isNull : Json → Bool
  | .null => true
  | _ => false

def string? : Json → Option String
  | .string s => some s
  | _ => none

def bool? : Json → Option Bool
  | .bool b => some b
  | _ => none

def int? : Json → Option Int
  | .number (.whole n) => some n
  | _ => none

def nat? : Json → Option Nat
  | .number (.whole n) => if 0 ≤ n then some n.toNat else none
  | _ => none

def float? : Json → Option Float
  | .number (.whole n) => some (Decimal.floatOfInt n)
  | .number (.real x) => some x
  | _ => none

def array? : Json → Option (List Json)
  | .array items => some items
  | _ => none

def object? : Json → Option (List (String × Json))
  | .object fields => some fields
  | _ => none

end Json
end Courier
