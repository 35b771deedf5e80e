/-!
The shortest decimal digits of a binary number: the fewest digits that read back as the same
number, and of those the nearest.  A finite positive float is `m · 2 ^ q`; the reals that round to
it form an interval, whose ends belong to it when `m` is even.  On the grid of decimals with `n`
digits only the two neighbours of the value have to be tried.
-/
namespace Courier.Decimal

/-- A decimal number `digits · 10 ^ exponent`. -/
structure Scientific where
  digits : Nat
  exponent : Int
deriving Repr, DecidableEq

/-- A positive binary number `mantissa · 2 ^ exponent`; `edge` marks the smallest mantissa of its
exponent, below which the numbers lie twice as close. -/
structure Dyadic where
  mantissa : Nat
  exponent : Int
  edge : Bool
deriving Repr, DecidableEq

/-- The magnitude of a finite float, taken from its bits. -/
def Dyadic.ofBits (bits : Nat) : Dyadic :=
  let fraction := bits % Nat.pow 2 52
  let field := bits / Nat.pow 2 52 % Nat.pow 2 11
  if field = 0 then ⟨fraction, -1074, false⟩
  else ⟨Nat.pow 2 52 + fraction, Int.ofNat field - 1075, fraction = 0 && 1 < field⟩

/-- How many decimal digits a number has; zero has none. -/
def digitCount (n : Nat) : Nat :=
  if n = 0 then 0 else (Nat.toDigits 10 n).length

/-- The least `k` with `num / den < 10 ^ k`. -/
def pointAfter (num den : Nat) : Int :=
  if den ≤ num then digitCount (num / den) else 1 - Int.ofNat (digitCount ((den - 1) / num))

/-- Four times the value with the two ends of its interval, over a common denominator. -/
structure Dyadic.Interval where
  low : Nat
  value : Nat
  high : Nat
  den : Nat
  closed : Bool
deriving Repr, DecidableEq

def Dyadic.interval (d : Dyadic) : Dyadic.Interval :=
  let scale := Nat.pow 2 d.exponent.toNat
  { low := (4 * d.mantissa - (if d.edge then 1 else 2)) * scale
    value := 4 * d.mantissa * scale
    high := (4 * d.mantissa + 2) * scale
    den := 4 * Nat.pow 2 (-d.exponent).toNat
    closed := d.mantissa % 2 == 0 }

/-- Does `digits · 10 ^ exponent` lie in the interval? -/
def Dyadic.Interval.contains (i : Dyadic.Interval) (digits : Nat) (exponent : Int) : Bool :=
  let x := digits * Nat.pow 10 exponent.toNat * i.den
  let unit := Nat.pow 10 (-exponent).toNat
  if i.closed then i.low * unit ≤ x && x ≤ i.high * unit
  else i.low * unit < x && x < i.high * unit

/-- The nearest of the two neighbours of the value on the grid of multiples of `10 ^ exponent`, if
one lies in the interval. -/
def Dyadic.Interval.onGrid? (i : Dyadic.Interval) (exponent : Int) : Option Nat :=
  let num := i.value * Nat.pow 10 (-exponent).toNat
  let den := i.den * Nat.pow 10 exponent.toNat
  let below := num / den
  let rest := num % den
  let nearBelow := 2 * rest < den || (2 * rest == den && below % 2 == 0)
  let (first, second) := if nearBelow then (below, below + 1) else (below + 1, below)
  if i.contains first exponent then some first
  else if i.contains second exponent then some second
  else none

/-- Try grids with ever more digits, at most `fuel` of them. -/
def Dyadic.Interval.search (i : Dyadic.Interval) (exponent : Int) : Nat → Scientific
  | 0 => ⟨i.value / i.den, 0⟩
  | fuel + 1 =>
      match i.onGrid? exponent with
      | some digits => ⟨digits, exponent⟩
      | none => i.search (exponent - 1) fuel

/-- Move trailing zeros of the digits into the exponent, at most `fuel` of them. -/
def Scientific.dropZeros (s : Scientific) : Nat → Scientific
  | 0 => s
  | fuel + 1 =>
      if s.digits ≠ 0 ∧ s.digits % 10 = 0 then
        Scientific.dropZeros ⟨s.digits / 10, s.exponent + 1⟩ fuel
      else s

/-- The shortest digits that read back as this number. -/
def Dyadic.shortest (d : Dyadic) : Scientific :=
  if d.mantissa = 0 then ⟨0, 0⟩
  else
    let i := d.interval
    (i.search (pointAfter i.value i.den - 1) 17).dropZeros 20

/-- The shortest digits of the magnitude of a finite float. -/
def shortest (x : Float) : Scientific :=
  (Dyadic.ofBits (x.toBits.toNat % Nat.pow 2 63)).shortest

/-- Is the sign bit set? -/
def isNegative (x : Float) : Bool :=
  Nat.pow 2 63 ≤ x.toBits.toNat

end Courier.Decimal
