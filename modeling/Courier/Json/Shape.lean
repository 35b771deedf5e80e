import Courier.Json.Basic
/-!
The shape a document is wanted in.  A document that has it is brought to a normal form: every field
of a record is present, a missing one with its default, and unknown fields are gone.
-/
namespace Courier.Json

/-- What becomes of a field that is missing: it is an error, it is `null` in a record written as an
object but an error in one written as a list, or it has a default. -/
inductive Absence
  | refused
  | nullable
  | default (value : Json)
deriving Repr, Inhabited

/-- What a document has to look like. -/
inductive Shape
  | any
  /-- a whole number from 0 with this many bits -/
  | unsigned (bits : Nat)
  /-- a whole number of 64 bits with a sign -/
  | signed
  | float
  | text
  /-- the shape or `null` -/
  | optional (inner : Shape)
  | list (item : Shape)
  /-- an object with any names -/
  | dict (value : Shape)
  /-- an object with these fields, or the list of their values -/
  | record (name : String) (fields : List (String × Shape × Absence))
  /-- one of these names -/
  | choice (variants : List String)
deriving Inhabited

abbrev Shape.Field := String × Shape × Absence

namespace Shape

/-- How error texts name the shape. -/
def expected : Shape → String
  | .any => "any valid JSON value"
  | .unsigned bits => s!"u{bits}"
  | .signed => "i64"
  | .float => "f64"
  | .text => "a string"
  | .optional inner => inner.expected
  | .list _ => "a sequence"
  | .dict _ => "a map"
  | .record name _ => s!"struct {name}"
  | .choice _ => "variant identifier"

mutual

/-- The number of parts of a shape. -/
def size : Shape → Nat
  | .optional inner => inner.size + 1
  | .list item => item.size + 1
  | .dict value => value.size + 1
  | .record _ fields => sizeOfFields fields + 1
  | _ => 1

def sizeOfFields : List (String × Shape × Absence) → Nat
  | [] => 1
  | (_, shape, _) :: rest => shape.size + sizeOfFields rest + 1

end

def required (name : String) (shape : Shape) : Field :=
  (name, shape, .refused)

/-- A field that may be missing from an object, or `null`. -/
def maybe (name : String) (shape : Shape) : Field :=
  (name, .optional shape, .nullable)

/-- A field that may be missing altogether, or `null`. -/
def optionalField (name : String) (shape : Shape) : Field :=
  (name, .optional shape, .default .null)

def withDefault (name : String) (shape : Shape) (value : Json) : Field :=
  (name, shape, .default value)

/-- The least and the greatest whole number of a shape of whole numbers. -/
def wholeBound : Shape → Int × Int
  | .unsigned bits => (0, Nat.pow 2 bits - 1)
  | .signed => (-(Nat.pow 2 63), Nat.pow 2 63 - 1)
  | _ => (0, 0)

end Shape
end Courier.Json
