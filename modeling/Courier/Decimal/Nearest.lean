/-!
The float nearest to a ratio of whole numbers.  The mantissa is found in exact arithmetic, a half
goes to the even neighbour, and what is too small for a full mantissa keeps the least exponent.
-/
namespace Courier.Decimal

/-- Divide and round to the nearest whole number, a half going to the even neighbour. -/
def divNearest (num den : Nat) : Nat :=
  let q := num / den
  let r := num % den
  if 2 * r < den then q
  else if den < 2 * r then q + 1
  else if q % 2 = 0 then q
  else q + 1

/-- The exponent of the unit in which a positive ratio has a mantissa of 53 bits; never below that of
the least float. -/
def unitExponent (num den : Nat) : Int :=
  let guess := Int.ofNat num.log2 - Int.ofNat den.log2 - 53
  let full := num * Nat.pow 2 (-guess).toNat < Nat.pow 2 53 * (den * Nat.pow 2 guess.toNat)
  max (if full then guess else guess + 1) (-1074)

/-- The bits of the float nearest to a positive ratio. -/
def nearestBits (num den : Nat) : Nat :=
  let e := unitExponent num den
  let mantissa := divNearest (num * Nat.pow 2 (-e).toNat) (den * Nat.pow 2 e.toNat)
  min ((e + 1074).toNat * Nat.pow 2 52 + mantissa) (2047 * Nat.pow 2 52)

/-- The float nearest to `num / den`. -/
def floatOfRatio (num den : Nat) : Float :=
  if num = 0 then 0.0 else Float.ofBits (nearestBits num den).toUInt64

def floatOfNat (n : Nat) : Float :=
  floatOfRatio n 1

/-- The float nearest to a whole number with a sign. -/
def floatOfInt : Int → Float
  | .ofNat n => floatOfNat n
  | .negSucc n => -(floatOfNat (n + 1))

end Courier.Decimal
