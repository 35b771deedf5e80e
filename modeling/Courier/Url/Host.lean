import Courier.Text.Ascii
import Courier.Text.Quoted
import Courier.Url.Idna
import Courier.Url.Percent
/-!
Hosts: names, the two kinds of addresses, and how they are read.  A name whose last label is a
number is read as an address of four octets, each part in decimal, octal or hexadecimal.
-/
namespace Courier.Url

/-- What makes a text no URL. -/
inductive UrlError
  | relativeWithoutBase
  | emptyHost
  | invalidPort
  | invalidIpv4
  | invalidIpv6
  | invalidInternationalName
  | invalidDomainCharacter
deriving Repr, DecidableEq, Inhabited

def UrlError.message : UrlError → String
  | .relativeWithoutBase => "relative URL without a base"
  | .emptyHost => "empty host"
  | .invalidPort => "invalid port number"
  | .invalidIpv4 => "invalid IPv4 address"
  | .invalidIpv6 => "invalid IPv6 address"
  | .invalidInternationalName => "invalid international domain name"
  | .invalidDomainCharacter => "invalid domain character"

inductive Host
  | domain (text : String)
  | ipv4 (address : Nat)
  | ipv6 (groups : List Nat)
deriving Repr, DecidableEq, Inhabited

namespace Host

/-! ### Addresses of four octets -/

/-- A part of an address: no number, a number too large, or a number. -/
inductive Part
  | notNumber
  | tooLarge
  | number (n : Nat)
deriving Repr, DecidableEq

def digitIn (radix : Nat) (c : Char) : Option Nat :=
  match Percent.hexDigit? c.toNat.toUInt8 with
  | some d => if c.toNat < 0x80 && d < radix then some d else none
  | none => none

/-- Read a part in decimal, in octal after `0`, in hexadecimal after `0x`. -/
def readPart (cs : List Char) : Part :=
  let (radix, digits) :=
    match cs with
    | '0' :: 'x' :: rest => (16, rest)
    | '0' :: 'X' :: rest => (16, rest)
    | '0' :: d :: rest => (8, d :: rest)
    | other => (10, other)
  if cs.isEmpty then .notNumber
  else
    match digits.mapM (digitIn radix) with
    | none => .notNumber
    | some ds =>
        let n := ds.foldl (fun n d => n * radix + d) 0
        if n < Nat.pow 2 32 then .number n else .tooLarge

/-- The parts between points, without an empty one at the end. -/
def dottedParts (cs : List Char) : List (List Char) :=
  let parts := Text.splitList (· == '.') cs
  if parts.getLast? = some [] then parts.dropLast else parts

/-- Does the name end in a number, so that it must be an address? -/
def endsInNumber (cs : List Char) : Bool :=
  match (dottedParts cs).getLast? with
  | none => false
  | some last =>
      (!last.isEmpty && last.all Char.isDigit) || readPart last != .notNumber

/-- Add up the parts: all but the last are one octet each, the last fills the rest. -/
def assemble (numbers : List Nat) : Option Nat :=
  match numbers.reverse with
  | [] => none
  | last :: front =>
      let front := front.reverse
      if Nat.pow 256 (4 - front.length) ≤ last || front.any (255 < ·) then none
      else some (front.zipIdx.foldl (fun sum (n, i) => sum + n * Nat.pow 256 (3 - i)) last)

def readIpv4 (cs : List Char) : Except UrlError Nat :=
  let parts := dottedParts cs
  if 4 < parts.length then .error .invalidIpv4
  else
    match parts.mapM fun part =>
      match readPart part with
      | .number n => some n
      | _ => none with
    | none => .error .invalidIpv4
    | some numbers =>
        match assemble numbers with
        | some address => .ok address
        | none => .error .invalidIpv4

/-! ### Addresses of eight groups -/

/-- A decimal octet without leading zeros. -/
def readOctet? (cs : List Char) : Option Nat :=
  if cs.isEmpty || !cs.all Char.isDigit || (1 < cs.length && cs.head? = some '0') then none
  else
    let n := cs.foldl (fun n c => 10 * n + (c.toNat - 48)) 0
    if n < 256 then some n else none

/-- The last two groups, written as four octets. -/
def readTail? (cs : List Char) : Option (List Nat) :=
  match (Text.splitList (· == '.') cs).mapM readOctet? with
  | some [a, b, c, d] => some [a * 256 + b, c * 256 + d]
  | _ => none

/-- One group of up to four hexadecimal digits. -/
def readGroup? (cs : List Char) : Option Nat :=
  if cs.isEmpty || 4 < cs.length then none
  else (cs.mapM (digitIn 16)).map fun ds => ds.foldl (fun n d => n * 16 + d) 0

/-- Groups between colons; the last part may be four octets. -/
def readGroups? : List (List Char) → Option (List Nat)
  | [] => some []
  | [last] => if last.contains '.' then readTail? last else (readGroup? last).map ([·])
  | part :: rest => do
      let n ← readGroup? part
      let ns ← readGroups? rest
      some (n :: ns)

/-- The parts of a side of the double colon; an empty side has none. -/
def groupParts (cs : List Char) : List (List Char) :=
  if cs.isEmpty then [] else Text.splitList (· == ':') cs

/-- The text before and after the first double colon. -/
def splitDouble : List Char → Option (List Char × List Char)
  | ':' :: ':' :: rest => some ([], rest)
  | c :: rest => (splitDouble rest).map fun (a, b) => (c :: a, b)
  | [] => none

def readIpv6 (cs : List Char) : Except UrlError (List Nat) :=
  let answer :=
    match splitDouble cs with
    | none => (readGroups? (groupParts cs)).bind fun ns => if ns.length = 8 then some ns else none
    | some (left, right) =>
        if left.contains '.' then none
        else
          match readGroups? (groupParts left), readGroups? (groupParts right) with
          | some a, some b =>
              if a.length + b.length ≤ 7 then
                some (a ++ List.replicate (8 - a.length - b.length) 0 ++ b)
              else none
          | _, _ => none
  match answer with
  | some groups => .ok groups
  | none => .error .invalidIpv6

def zeroRun (groups : List Nat) : Nat :=
  (groups.takeWhile (· == 0)).length

/-- The start and the length of the first of the longest runs of zeros. -/
def longestZeros (groups : List Nat) : Nat × Nat :=
  (List.range groups.length).foldl (fun best i =>
    let n := zeroRun (groups.drop i)
    if best.2 < n then (i, n) else best) (0, 0)

def joinColons (groups : List Nat) : String :=
  Text.join ":" (groups.map fun n => String.ofList (Text.hexDigits n))

def showIpv6 (groups : List Nat) : String :=
  let (start, length) := longestZeros groups
  if length < 2 then joinColons groups
  else joinColons (groups.take start) ++ "::" ++ joinColons (groups.drop (start + length))

/-! ### Hosts -/

def toText : Host → String
  | .domain text => text
  | .ipv4 a => s!"{a / 0x1000000}.{a / 0x10000 % 256}.{a / 0x100 % 256}.{a % 256}"
  | .ipv6 groups => "[" ++ showIpv6 groups ++ "]"

/-- An address between brackets, if the text begins with one. -/
def bracketed? (cs : List Char) : Option (Except UrlError Host) :=
  match cs with
  | '[' :: rest =>
      if rest.getLast? = some ']' then some (.ipv6 <$> readIpv6 rest.dropLast)
      else some (.error .invalidIpv6)
  | _ => none

/-- The host of a scheme with known rules. -/
def read (cs : List Char) : Except UrlError Host :=
  match bracketed? cs with
  | some answer => answer
  | none =>
      match (Percent.decode (Text.Utf8.encodeChars cs)).toText?.bind Idna.toAscii? with
      | none => .error .invalidInternationalName
      | some name =>
          if name.isEmpty then .error .emptyHost
          else if endsInNumber name.toList then .ipv4 <$> readIpv4 name.toList
          else .ok (.domain name)

def isRefused (c : Char) : Bool :=
  "\x00\t\n\x0d #/:<>?@[\\]^|".toList.contains c

/-- The host of any other scheme, which is kept as it is. -/
def readVerbatim (cs : List Char) : Except UrlError Host :=
  match bracketed? cs with
  | some answer => answer
  | none =>
      if cs.any isRefused then .error .invalidDomainCharacter
      else .ok (.domain (String.ofList (Percent.encode Percent.inControls cs)))

end Host
end Courier.Url
