import Courier.Json.Shape
/-!
Configuration documents in TOML, and how one becomes a document of a wanted shape.  Whole numbers
serve as floats but not the other way round; names that the shape does not know are passed over.
-/
namespace Courier

/-- A value of a configuration document. -/
inductive Toml
  | text (s : String)
  | whole (n : Int)
  | real (x : Float)
  | truth (b : Bool)
  /-- a date, a time of day or both, as written -/
  | moment (s : String)
  | list (items : List Toml)
  | table (fields : List (String × Toml))
deriving Repr, BEq, Inhabited

namespace Toml

mutual

def toJson : Toml → Json
  | .text s => .string s
  | .whole n => .number (.whole n)
  | .real x => .float x
  | .truth b => .bool b
  | .moment s => .string s
  | .list items => .array (toJsonItems items)
  | .table fields => .ofFields (toJsonFields fields)

def toJsonItems : List Toml → List Json
  | [] => []
  | item :: rest => toJson item :: toJsonItems rest

def toJsonFields : List (String × Toml) → List (String × Json)
  | [] => []
  | (name, value) :: rest => (name, toJson value) :: toJsonFields rest

end

/-- The value of a field that is missing from a table. -/
def missingField : Json.Absence → Option Json
  | .refused => none
  | .nullable => some .null
  | .default value => some value

/-- The value of a field that is missing from a list. -/
def missingItem : Json.Absence → Option Json
  | .default value => some value
  | _ => none

mutual

/-- The value in the normal form of a shape, if it has the shape. -/
def conform : Json.Shape → Toml → Option Json
  | .any, value => some value.toJson
  | .unsigned bits, .whole n =>
      if 0 ≤ n ∧ n < 2 ^ bits then some (.number (.whole n)) else none
  | .signed, .whole n => some (.number (.whole n))
  | .float, .whole n => some (.number (.whole n))
  | .float, .real x => some (.number (.real x))
  | .text, .text s => some (.string s)
  | .optional inner, value => conform inner value
  | .list item, .list values => (values.mapM fun value => conform item value).map .array
  | .dict inner, .table fields =>
      (fields.mapM fun field => (conform inner field.2).map fun value => (field.1, value)).map
        .ofFields
  | .record _ shapes, .table fields => (conformFields shapes fields).map .ofFields
  | .record _ shapes, .list values => (conformItems shapes values).map .ofFields
  | .choice variants, .text s => if variants.contains s then some (.string s) else none
  | _, _ => none

/-- The fields of a record from a table. -/
def conformFields : List (String × Json.Shape × Json.Absence) → List (String × Toml) →
    Option (List (String × Json))
  | [], _ => some []
  | (name, shape, absence) :: rest, fields => do
      let value ←
        match fields.lookup name with
        | some value => conform shape value
        | none => missingField absence
      return (name, value) :: (← conformFields rest fields)

/-- The fields of a record from a list of their values. -/
def conformItems : List (String × Json.Shape × Json.Absence) → List Toml →
    Option (List (String × Json))
  | [], _ => some []
  | (name, shape, _) :: rest, value :: values => do
      let value ← conform shape value
      return (name, value) :: (← conformItems rest values)
  | (name, _, absence) :: rest, [] => do
      let value ← missingItem absence
      return (name, value) :: (← conformItems rest [])

end

end Toml
end Courier
