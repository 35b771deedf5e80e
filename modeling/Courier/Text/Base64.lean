import Courier.Text.Utf8
/-!
Base64 with padding, in the standard alphabet.
-/
namespace Courier.Text.Base64

def alphabet : List Char :=
  "ABCDEFGHIJKLMNOPQRSTUVWXYZabcdefghijklmnopqrstuvwxyz0123456789+/".toList

/-- The sign of a number below 64. -/
def digit (n : Nat) : Char :=
  alphabet.getD (n % 64) '='

/-- Three octets make four signs; a shorter rest is filled up with `=`. -/
def encodeChars : Octets → List Char
  | [] => []
  | [a] =>
      let n := a.toNat * 0x10000
      [digit (n / 0x40000), digit (n / 0x1000), '=', '=']
  | [a, b] =>
      let n := a.toNat * 0x10000 + b.toNat * 0x100
      [digit (n / 0x40000), digit (n / 0x1000), digit (n / 0x40), '=']
  | a :: b :: c :: rest =>
      let n := a.toNat * 0x10000 + b.toNat * 0x100 + c.toNat
      digit (n / 0x40000) :: digit (n / 0x1000) :: digit (n / 0x40) :: digit n ::
        encodeChars rest

def encode (octets : Octets) : String :=
  String.ofList (encodeChars octets)

end Courier.Text.Base64
