import Courier.Decimal.Integer
import Courier.Decimal.Nearest
/-!
Floats read from text, rounded to the nearest.  The mantissa has at least one digit, before or after
an optional point; an exponent may follow; `inf`, `infinity` and `nan` stand for themselves in any
case; and one sign may stand in front of everything.
-/
namespace Courier.Decimal

/-- Why a text is no float. -/
inductive FloatError
  | empty
  | invalid
deriving Repr, DecidableEq

def FloatError.message : FloatError → String
  | .empty => "cannot parse float from empty string"
  | .invalid => "invalid float literal"

def floatNaN : Float := 0.0 / 0.0

def floatInf : Float := 1.0 / 0.0

def digitsValue (digits : List Char) : Nat :=
  digits.foldl (fun n c => 10 * n + (c.toNat - '0'.toNat)) 0

/-- The float nearest to `digits · 10 ^ exponent`.  Beyond 400 places the answer is zero or
infinite. -/
def nearest (digits : Nat) (exponent : Int) : Float :=
  let places := Int.ofNat (Nat.toDigits 10 digits).length + exponent
  if digits = 0 then 0.0
  else if 400 < places then floatInf
  else if places < -400 then 0.0
  else floatOfRatio (digits * Nat.pow 10 exponent.toNat) (Nat.pow 10 (-exponent).toNat)

/-- The exponent part: nothing, or a mark, an optional sign and digits. -/
def readExponent? : List Char → Option Int
  | [] => some 0
  | mark :: rest =>
      if mark = 'e' ∨ mark = 'E' then
        let (negative, digits) :=
          match rest with
          | '-' :: tail => (true, tail)
          | '+' :: tail => (false, tail)
          | tail => (false, tail)
        if digits.isEmpty || !digits.all Char.isDigit then none
        else
          let n := Int.ofNat (digitsValue digits)
          some (if negative then -n else n)
      else none

/-- A float without its sign. -/
def readMagnitude? (cs : List Char) : Option Float :=
  let word := String.ofList (cs.map Char.toLower)
  if word = "inf" || word = "infinity" then some floatInf
  else if word = "nan" then some floatNaN
  else
    let whole := cs.takeWhile Char.isDigit
    let rest := cs.dropWhile Char.isDigit
    let (places, rest) :=
      match rest with
      | '.' :: tail => (tail.takeWhile Char.isDigit, tail.dropWhile Char.isDigit)
      | tail => ([], tail)
    if whole.isEmpty && places.isEmpty then none
    else
      (readExponent? rest).map fun exponent =>
        nearest (digitsValue (whole ++ places)) (exponent - places.length)

def readFloat (s : String) : Except FloatError Float :=
  match s.toList with
  | [] => .error .empty
  | c :: rest =>
      let answer :=
        if c = '-' then (readMagnitude? rest).map (fun x => -x)
        else if c = '+' then readMagnitude? rest
        else readMagnitude? (c :: rest)
      match answer with
      | some x => .ok x
      | none => .error .invalid

end Courier.Decimal
