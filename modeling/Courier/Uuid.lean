import Courier.Text.Quoted
/-!
Random identifiers: 128 bits in groups of hexadecimal digits.  Six of the bits say that the others
are random.
-/
namespace Courier.Uuid

/-- The last `n` hexadecimal digits of a number. -/
def digits (n : Nat) (bits : Nat) : List Char :=
  match n with
  | 0 => []
  | n + 1 => digits n (bits / 16) ++ [Nat.digitChar (bits % 16)]

/-- The identifier made of two words of random bits. -/
def ofRandom (high low : Nat) : String :=
  let first := digits 8 (high / Nat.pow 2 32)
  let second := digits 4 (high / Nat.pow 2 16)
  let third := '4' :: digits 3 high
  let fourth := Nat.digitChar (8 + low / Nat.pow 2 60 % 4) :: digits 3 (low / Nat.pow 2 48)
  String.ofList
    (first ++ '-' :: second ++ '-' :: third ++ '-' :: fourth ++ '-' :: digits 12 low)

end Courier.Uuid
