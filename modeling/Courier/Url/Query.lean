import Courier.Text.Ascii
import Courier.Url.Percent
/-!
The pairs of a query: names and values with `=` between them and `&` between the pairs.  Writing
pairs and reading them back gives the same pairs.
-/
namespace Courier.Url

/-- Names and values, in order. -/
abbrev Pairs := List (String × String)

namespace Query

def encodePair (pair : String × String) : List Char :=
  Percent.encodeForm pair.1 ++ '=' :: Percent.encodeForm pair.2

def joinAmp : List (List Char) → List Char
  | [] => []
  | [part] => part
  | part :: rest => part ++ '&' :: joinAmp rest

def encodeChars (pairs : Pairs) : List Char :=
  joinAmp (pairs.map encodePair)

def encode (pairs : Pairs) : String :=
  String.ofList (encodeChars pairs)

/-- Read one pair; without a `=` all of it is the name. -/
def decodePair (part : Octets) : String × String :=
  (Percent.decodeForm (part.takeWhile (· != 0x3D)),
    Percent.decodeForm ((part.dropWhile (· != 0x3D)).drop 1))

/-- Read the pairs of a query; empty parts are no pairs. -/
def decodeOctets (octets : Octets) : Pairs :=
  ((Text.splitList (· == 0x26) octets).filter fun part => !part.isEmpty).map decodePair

def decode (s : String) : Pairs :=
  decodeOctets (Octets.ofText s)

/-- A query with more pairs at its end. -/
def append (query : Option String) (pairs : Pairs) : String :=
  match query with
  | some q => if q.isEmpty || pairs.isEmpty then q ++ encode pairs else q ++ "&" ++ encode pairs
  | none => encode pairs

end Query
end Courier.Url
