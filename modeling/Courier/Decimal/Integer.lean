/-!
Whole numbers in decimal: an optional sign and at least one ASCII digit, with a bound.  Reading goes
from the left and reports the first thing that is wrong.
-/
namespace Courier.Decimal

/-- Why a text is no whole number of the wanted range. -/
inductive IntegerError
  | empty
  | invalidDigit
  | tooLarge
  | tooSmall
deriving Repr, DecidableEq

def IntegerError.message : IntegerError → String
  | .empty => "cannot parse integer from empty string"
  | .invalidDigit => "invalid digit found in string"
  | .tooLarge => "number too large to fit in target type"
  | .tooSmall => "number too small to fit in target type"

def digitValue? (c : Char) : Option Nat :=
  if c.isDigit then some (c.toNat - '0'.toNat) else none

/-- Read digits in front of the value `n` of those already read; passing the bound is the error
`overflow`. -/
def readDigits (bound : Nat) (overflow : IntegerError) (n : Nat) :
    List Char → Except IntegerError Nat
  | [] => .ok n
  | c :: rest =>
      match digitValue? c with
      | none => .error .invalidDigit
      | some d =>
          if 10 * n + d ≤ bound then readDigits bound overflow (10 * n + d) rest
          else .error overflow

/-- A whole number from 0 to `bound`; a plus sign may stand in front. -/
def readNat (bound : Nat) (s : String) : Except IntegerError Nat :=
  match s.toList with
  | [] => .error .empty
  | ['+'] => .error .invalidDigit
  | '+' :: digits => readDigits bound .tooLarge 0 digits
  | digits => readDigits bound .tooLarge 0 digits

/-- A whole number from `-(bound + 1)` to `bound`; a sign may stand in front. -/
def readInt (bound : Nat) (s : String) : Except IntegerError Int :=
  match s.toList with
  | [] => .error .empty
  | ['+'] => .error .invalidDigit
  | ['-'] => .error .invalidDigit
  | '+' :: digits => Int.ofNat <$> readDigits bound .tooLarge 0 digits
  | '-' :: digits => (fun n => -Int.ofNat n) <$> readDigits (bound + 1) .tooSmall 0 digits
  | digits => Int.ofNat <$> readDigits bound .tooLarge 0 digits

abbrev max16 : Nat := Nat.pow 2 16 - 1
abbrev max32 : Nat := Nat.pow 2 32 - 1
abbrev max64 : Nat := Nat.pow 2 64 - 1
abbrev maxSigned64 : Nat := Nat.pow 2 63 - 1

end Courier.Decimal
