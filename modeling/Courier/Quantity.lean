import Courier.Clock
import Courier.Decimal.Nearest
import Courier.Decimal.Shortest
/-!
Quantities: the arithmetic in which rates and delays are computed.  Programs run with floats; the
same formulas read over the rationals say what the floats approximate.
-/
namespace Courier

/-- An arithmetic for rates and delays. -/
class Quantity (α : Type) extends Add α, Sub α, Mul α, Div α where
  ofNat : Nat → α
  le : α → α → Bool
  /-- Is it a number, and one that is not beyond all others? -/
  isFinite : α → Bool
  power : α → Nat → α
  /-- The whole part, from 0 to `2 ^ 64 - 1`; what lies outside goes to the nearer end. -/
  whole : α → Nat
  /-- So many seconds as a span, to the nearest nanosecond with halves to the even one; `none` when
  there is no such span. -/
  secondsToSpan? : α → Option Span

namespace Quantity

variable {α : Type} [Quantity α]

/-- The lesser of two quantities. -/
def atMost (x cap : α) : α :=
  if le x cap then x else cap

def seconds (d : Span) : α :=
  ofNat d.seconds + ofNat d.subsecond / ofNat 1000000000

end Quantity

/-- So many seconds, given as a ratio, as a span. -/
def spanOfRatio? (num den : Nat) : Option Span :=
  let nanos := Decimal.divNearest (num * 1000000000) den
  if nanos ≤ Span.longest then some nanos else none

/-- So many seconds as a span. -/
def spanOfFloat? (x : Float) : Option Span :=
  if !x.isFinite || (Decimal.isNegative x && x != 0.0) then none
  else
    let d := Decimal.Dyadic.ofBits (x.toBits.toNat % Nat.pow 2 63)
    spanOfRatio? (d.mantissa * Nat.pow 2 d.exponent.toNat) (Nat.pow 2 (-d.exponent).toNat)

/-- The whole number nearest to a float, a half going up, from 0 to `2 ^ 64 - 1`; what lies outside goes
to the nearer end.  What comes after the bits of infinity is below zero or no number. -/
def wholeNearest (x : Float) : Nat :=
  if 2047 * Nat.pow 2 52 < x.toBits.toNat then 0
  else
    let d := Decimal.Dyadic.ofBits x.toBits.toNat
    let num := d.mantissa * Nat.pow 2 d.exponent.toNat
    let den := Nat.pow 2 (-d.exponent).toNat
    min ((2 * num + den) / (2 * den)) (Nat.pow 2 64 - 1)

instance : Quantity Float where
  ofNat := Decimal.floatOfNat
  le x y := x <= y
  isFinite := Float.isFinite
  power x n := Float.pow x (Decimal.floatOfNat n)
  whole x := x.toUInt64.toNat
  secondsToSpan? := spanOfFloat?

instance : Quantity Rat where
  ofNat n := n
  le x y := decide (x ≤ y)
  isFinite _ := true
  power x n := x ^ n
  whole x := if x < 0 then 0 else min x.floor.toNat (Nat.pow 2 64 - 1)
  secondsToSpan? x := if x < 0 then none else spanOfRatio? x.num.toNat x.den

end Courier
