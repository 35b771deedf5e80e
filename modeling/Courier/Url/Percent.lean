import Courier.Text.Quoted
import Courier.Text.Utf8
/-!
Percent-encoding.  Each part of a URL has a class of octets that are written as `%` and two
hexadecimal digits; octets beyond ASCII belong to every class.  Form encoding, used for the pairs
of a query, has a class of its own and writes a blank as `+`.
-/
namespace Courier.Url.Percent

/-- A class of octets that must be escaped. -/
abbrev EscapeClass := UInt8 → Bool

def isOneOf (chars : String) (b : UInt8) : Bool :=
  chars.toList.contains (Char.ofNat b.toNat) && b < 0x80

def inControls : EscapeClass := fun b => b < 0x20 || 0x7F ≤ b

def inFragment : EscapeClass := fun b => inControls b || isOneOf " \"<>`" b

def inPath : EscapeClass := fun b => inFragment b || isOneOf "#?\x7b\x7d" b

def inUserInfo : EscapeClass := fun b => inPath b || isOneOf "/:;=@[\\]^|" b

def inQuery : EscapeClass := fun b => inControls b || isOneOf " \"#<>" b

def inSpecialQuery : EscapeClass := fun b => inQuery b || b == 0x27

/-- An upper-case hexadecimal digit. -/
def upperHex (n : Nat) : Char :=
  (Nat.digitChar n).toUpper

def escape (b : UInt8) : List Char :=
  ['%', upperHex (b.toNat / 16), upperHex (b.toNat % 16)]

/-- An octet, escaped if it has to be. -/
def encodeOctet (mustEscape : EscapeClass) (b : UInt8) : List Char :=
  if mustEscape b then escape b else [Char.ofNat b.toNat]

def encode (mustEscape : EscapeClass) (cs : List Char) : List Char :=
  (Text.Utf8.encodeChars cs).flatMap (encodeOctet mustEscape)

def hexDigit? (c : UInt8) : Option Nat :=
  if 0x30 ≤ c && c ≤ 0x39 then some (c.toNat - 0x30)
  else if 0x41 ≤ c && c ≤ 0x46 then some (c.toNat - 0x37)
  else if 0x61 ≤ c && c ≤ 0x66 then some (c.toNat - 0x57)
  else none

/-- Resolve escapes; a `%` without two hexadecimal digits stands for itself. -/
def decode : Octets → Octets
  | 0x25 :: a :: b :: rest =>
      match hexDigit? a, hexDigit? b with
      | some x, some y => (16 * x + y).toUInt8 :: decode rest
      | _, _ => 0x25 :: decode (a :: b :: rest)
  | c :: rest => c :: decode rest
  | [] => []
termination_by octets => octets.length

/-- Octets that form encoding leaves as they are. -/
def isFormPlain (b : UInt8) : Bool :=
  (0x30 ≤ b && b ≤ 0x39) || (0x41 ≤ b && b ≤ 0x5A) || (0x61 ≤ b && b ≤ 0x7A) ||
    isOneOf "*-._" b

def encodeFormOctet (b : UInt8) : List Char :=
  if isFormPlain b then [Char.ofNat b.toNat]
  else if b = 0x20 then ['+']
  else escape b

/-- One half of a pair in form encoding. -/
def encodeForm (s : String) : List Char :=
  (Octets.ofText s).flatMap encodeFormOctet

/-- Resolve `+` and escapes; octets that are no UTF-8 become replacement characters. -/
def decodeForm (octets : Octets) : String :=
  Text.Utf8.decodeLenient (decode (octets.map fun b => if b = 0x2B then 0x20 else b))

end Courier.Url.Percent
