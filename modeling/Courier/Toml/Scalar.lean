import Courier.Decimal.Read
import Courier.Toml.Basic
/-!
Values without quotes or brackets: truth values, numbers, dates and times of day.  Digits may be
grouped by underscores, each between two digits.
-/
namespace Courier.Toml

/-- Digits without the underscores between them. -/
def ungroup? (isDigit : Char → Bool) : List Char → Option (List Char)
  | [] => none
  | [c] => if isDigit c then some [c] else none
  | c :: d :: rest =>
      if !isDigit c then none
      else if d == '_' then (ungroup? isDigit rest).map (c :: ·)
      else (ungroup? isDigit (d :: rest)).map (c :: ·)

/-- The digits of a decimal number: no zero in front of others. -/
def decimalDigits? (cs : List Char) : Option (List Char) :=
  match cs with
  | ['0'] => some ['0']
  | '0' :: _ => none
  | cs => ungroup? Char.isDigit cs

/-- A text without its sign, and whether the sign was a minus. -/
def splitSign : List Char → Bool × List Char
  | '-' :: rest => (true, rest)
  | '+' :: rest => (false, rest)
  | cs => (false, cs)

/-- The number that digits of a base write, if it has at most 63 bits. -/
def basedNumber? (base : Nat) (cs : List Char) : Option Toml := do
  let value (c : Char) : Nat :=
    if c.isDigit then c.toNat - '0'.toNat else c.toLower.toNat - 'a'.toNat + 10
  let digits ← ungroup? (fun c => c.isAlphanum && value c < base) cs
  let n := digits.foldl (fun n c => base * n + value c) 0
  if n < Nat.pow 2 63 then some (.whole n) else none

/-- A whole number of 64 bits with a sign. -/
def whole? (cs : List Char) : Option Toml :=
  match cs with
  | '0' :: 'x' :: digits => basedNumber? 16 digits
  | '0' :: 'o' :: digits => basedNumber? 8 digits
  | '0' :: 'b' :: digits => basedNumber? 2 digits
  | cs => do
      let (negative, digits) := splitSign cs
      let n := Decimal.digitsValue (← decimalDigits? digits)
      if negative then
        if n ≤ Nat.pow 2 63 then some (.whole (-n)) else none
      else if n < Nat.pow 2 63 then some (.whole n)
      else none

/-- The exponent of a float with its mark, its digits ungrouped. -/
def exponent? (cs : List Char) : Option (List Char) :=
  match cs with
  | [] => some []
  | mark :: rest =>
      if mark == 'e' || mark == 'E' then
        let (negative, digits) := splitSign rest
        (ungroup? Char.isDigit digits).map fun digits =>
          'e' :: ((if negative then ['-'] else []) ++ digits)
      else none

/-- A float: digits with a point, an exponent or both.  One too great for a float is refused. -/
def real? (cs : List Char) : Option Toml := do
  let (negative, cs) := splitSign cs
  let sign (x : Float) : Float := if negative then -x else x
  if cs == "inf".toList then some (.real (sign Decimal.floatInf))
  else if cs == "nan".toList then some (.real (sign Decimal.floatNaN))
  else
    let isPart (c : Char) : Bool := c.isDigit || c == '_'
    let whole ← decimalDigits? (cs.takeWhile isPart)
    let digits ←
      match cs.dropWhile isPart with
      | '.' :: rest => do
          let places ← ungroup? Char.isDigit (rest.takeWhile isPart)
          let exponent ← exponent? (rest.dropWhile isPart)
          some (whole ++ '.' :: places ++ exponent)
      | [] => none
      | rest => (exponent? rest).map (whole ++ ·)
    let x ← (Decimal.readFloat (String.ofList digits)).toOption
    if x.isFinite || negative then some (.real (sign x)) else none

/-- A number of two digits within bounds, and the rest. -/
def twoDigits? (least greatest : Nat) : List Char → Option (Nat × List Char)
  | a :: b :: rest =>
      if a.isDigit && b.isDigit then
        let n := Decimal.digitsValue [a, b]
        if least ≤ n ∧ n ≤ greatest then some (n, rest) else none
      else none
  | _ => none

def after? (c : Char) : List Char → Option (List Char)
  | d :: rest => if d = c then some rest else none
  | [] => none

def daysIn (year month : Nat) : Nat :=
  if month = 2 then
    if year % 4 = 0 ∧ (year % 100 ≠ 0 ∨ year % 400 = 0) then 29 else 28
  else if month = 4 ∨ month = 6 ∨ month = 9 ∨ month = 11 then 30
  else 31

def afterDate? (cs : List Char) : Option (List Char) := do
  let year := cs.take 4
  guard (year.length = 4 ∧ year.all Char.isDigit)
  let (month, cs) ← twoDigits? 1 12 (← after? '-' (cs.drop 4))
  let (_, cs) ← twoDigits? 1 (daysIn (Decimal.digitsValue year) month) (← after? '-' cs)
  return cs

def afterTime? (cs : List Char) : Option (List Char) := do
  let (_, cs) ← twoDigits? 0 23 cs
  let (_, cs) ← twoDigits? 0 59 (← after? ':' cs)
  let (_, cs) ← twoDigits? 0 60 (← after? ':' cs)
  match cs with
  | '.' :: rest => if (rest.head?.map Char.isDigit) == some true then
      some (rest.dropWhile Char.isDigit) else none
  | cs => some cs

/-- Nothing, or the distance of a time of day from the universal one. -/
def isOffset (cs : List Char) : Bool :=
  match cs with
  | [] => true
  | [c] => c == 'Z' || c == 'z'
  | c :: rest =>
      (c == '+' || c == '-') &&
        ((do
          let (_, cs) ← twoDigits? 0 23 rest
          let (_, cs) ← twoDigits? 0 59 (← after? ':' cs)
          guard cs.isEmpty) : Option Unit).isSome

/-- A date, a time of day, or both with a letter between them. -/
def isMoment (cs : List Char) : Bool :=
  match afterDate? cs with
  | some [] => true
  | some (c :: rest) => (c == 'T' || c == 't') && ((afterTime? rest).map isOffset == some true)
  | none => afterTime? cs == some []

def ofWord? (word : List Char) : Option Toml :=
  if word == "true".toList then some (.truth true)
  else if word == "false".toList then some (.truth false)
  else if isMoment word then some (.moment (String.ofList word))
  else (real? word).or (whole? word)

end Courier.Toml
