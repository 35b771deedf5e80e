import Courier.Decimal.Shortest
/-!
Two ways to write a float with its shortest digits: in full, however many zeros that takes, and
with an exponent for very large and very small magnitudes.
-/
namespace Courier.Decimal

def digitsOf (n : Nat) : List Char :=
  Nat.toDigits 10 n

/-- Digits with a point among or before them; `point` counts the digits in front of the point, and
may lie outside the digits. -/
def placePoint (digits : List Char) (point : Int) : List Char :=
  if point ≤ 0 then
    '0' :: '.' :: (List.replicate (-point).toNat '0' ++ digits)
  else if digits.length ≤ point.toNat then
    digits ++ List.replicate (point.toNat - digits.length) '0'
  else digits.take point.toNat ++ '.' :: digits.drop point.toNat

/-- A number in full, without an exponent and without a point after a whole number. -/
def Scientific.plain (s : Scientific) : List Char :=
  if s.digits = 0 then ['0']
  else
    let digits := digitsOf s.digits
    placePoint digits (digits.length + s.exponent)

/-- A float in full: `1`, `0.25`, `-0`, `NaN`, `inf`. -/
def plain (x : Float) : String :=
  if x.isNaN then "NaN"
  else
    let body := if x.isInf then "inf" else String.ofList (shortest x).plain
    if isNegative x then "-" ++ body else body

/-- A float in full that shows by a point that it is none of the whole numbers: `1.0`. -/
def plainPointed (x : Float) : String :=
  let s := plain x
  if x.isFinite && !s.toList.contains '.' then s ++ ".0" else s

/-- A positive number with an exponent unless its point falls within 16 digits to the right or 5
zeros to the left of the first digit; a whole number keeps one zero after its point. -/
def Scientific.compact (s : Scientific) : List Char :=
  if s.digits = 0 then "0.0".toList
  else
    let digits := digitsOf s.digits
    let point : Int := digits.length + s.exponent
    if 0 ≤ s.exponent ∧ point ≤ 16 then placePoint digits point ++ ".0".toList
    else if -5 < point ∧ point ≤ 16 then placePoint digits point
    else
      let power := point - 1
      let mark := if power < 0 then ['e', '-'] else ['e', '+']
      placePoint digits 1 ++ mark ++ digitsOf power.natAbs

/-- A finite float in the form of data files: `1.0`, `1e-7`, `1e+16`. -/
def compact (x : Float) : String :=
  let body := (shortest x).compact
  String.ofList (if isNegative x then '-' :: body else body)

end Courier.Decimal
