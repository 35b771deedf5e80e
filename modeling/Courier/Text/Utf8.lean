/-!
Texts and their octets in UTF-8.  Reading is strict or lenient; the lenient reader puts one
replacement character for every maximal ill-formed part.  The strict reader says where the first
ill-formed part begins.
-/
namespace Courier

/-- A run of bytes. -/
abbrev Octets := List UInt8

namespace Text.Utf8

def encodeChar (c : Char) : Octets :=
  let n := c.toNat
  if n < 0x80 then [n.toUInt8]
  else if n < 0x800 then [(0xC0 + n / 0x40).toUInt8, (0x80 + n % 0x40).toUInt8]
  else if n < 0x10000 then
    [(0xE0 + n / 0x1000).toUInt8, (0x80 + n / 0x40 % 0x40).toUInt8, (0x80 + n % 0x40).toUInt8]
  else
    [(0xF0 + n / 0x40000).toUInt8, (0x80 + n / 0x1000 % 0x40).toUInt8,
      (0x80 + n / 0x40 % 0x40).toUInt8, (0x80 + n % 0x40).toUInt8]

def encodeChars (cs : List Char) : Octets :=
  cs.flatMap encodeChar

def encode (s : String) : Octets :=
  encodeChars s.toList

/-- What stands at the front of a run of octets: a character with the number of octets after the
first that belong to it, an ill-formed part with the same number, or a character cut off by the
end. -/
inductive Lead
  | char (c : Char) (more : Nat)
  | invalid (more : Nat)
  | incomplete
deriving Repr, DecidableEq

/-- May this octet continue a character? -/
def isContinuation (b : UInt8) : Bool :=
  0x80 ≤ b && b ≤ 0xBF

/-- The two bounds on the second octet, which shut out overlong forms, surrogates and numbers past
the last character. -/
def secondBounds (first : UInt8) : UInt8 × UInt8 :=
  if first = 0xE0 then (0xA0, 0xBF)
  else if first = 0xED then (0x80, 0x9F)
  else if first = 0xF0 then (0x90, 0xBF)
  else if first = 0xF4 then (0x80, 0x8F)
  else (0x80, 0xBF)

/-- How many octets a character with this first octet has. -/
def width (first : UInt8) : Nat :=
  if first < 0x80 then 1
  else if first < 0xC2 then 0
  else if first < 0xE0 then 2
  else if first < 0xF0 then 3
  else if first < 0xF5 then 4
  else 0

/-- The low six bits of a continuation octet. -/
def payload (b : UInt8) : Nat :=
  b.toNat % 0x40

/-- Look at the front of the octets `first :: rest`. -/
def lead (first : UInt8) (rest : Octets) : Lead :=
  let bounds := secondBounds first
  match width first with
  | 1 => .char (Char.ofNat first.toNat) 0
  | 2 =>
      match rest with
      | [] => .incomplete
      | b :: _ =>
          if isContinuation b then
            .char (Char.ofNat ((first.toNat - 0xC0) * 0x40 + payload b)) 1
          else .invalid 0
  | 3 =>
      match rest with
      | [] => .incomplete
      | b :: tail =>
          if bounds.1 ≤ b && b ≤ bounds.2 then
            match tail with
            | [] => .incomplete
            | c :: _ =>
                if isContinuation c then
                  .char (Char.ofNat
                    ((first.toNat - 0xE0) * 0x1000 + payload b * 0x40 + payload c)) 2
                else .invalid 1
          else .invalid 0
  | 4 =>
      match rest with
      | [] => .incomplete
      | b :: tail =>
          if bounds.1 ≤ b && b ≤ bounds.2 then
            match tail with
            | [] => .incomplete
            | c :: tail =>
                if isContinuation c then
                  match tail with
                  | [] => .incomplete
                  | d :: _ =>
                      if isContinuation d then
                        .char (Char.ofNat ((first.toNat - 0xF0) * 0x40000 +
                          payload b * 0x1000 + payload c * 0x40 + payload d)) 3
                      else .invalid 2
                else .invalid 1
          else .invalid 0
  | _ => .invalid 0

/-- Where and how a run of octets stops being UTF-8. -/
inductive Defect
  | invalid (length index : Nat)
  | incomplete (index : Nat)
deriving Repr, DecidableEq

/-- The number of octets before the defect. -/
def Defect.index : Defect → Nat
  | .invalid _ index => index
  | .incomplete index => index

def Defect.message : Defect → String
  | .invalid length index => s!"invalid utf-8 sequence of {length} bytes from index {index}"
  | .incomplete index => s!"incomplete utf-8 byte sequence from index {index}"

/-- Read characters in front of the ones already read, kept in reverse. -/
def decodeFrom (done : List Char) (index : Nat) : Octets → Except Defect (List Char)
  | [] => .ok done.reverse
  | first :: rest =>
      match lead first rest with
      | .char c more => decodeFrom (c :: done) (index + more + 1) (rest.drop more)
      | .invalid more => .error (.invalid (more + 1) index)
      | .incomplete => .error (.incomplete index)
termination_by octets => octets.length
decreasing_by simp only [List.length_drop, List.length_cons]; omega

/-- Read octets as characters, or say where they stop being UTF-8. -/
def read (octets : Octets) : Except Defect (List Char) :=
  decodeFrom [] 0 octets

def decode? (octets : Octets) : Option String :=
  match read octets with
  | .ok cs => some (String.ofList cs)
  | .error _ => none

def replacement : Char := '\uFFFD'

def decodeLenientFrom (done : List Char) : Octets → List Char
  | [] => done.reverse
  | first :: rest =>
      match lead first rest with
      | .char c more => decodeLenientFrom (c :: done) (rest.drop more)
      | .invalid more => decodeLenientFrom (replacement :: done) (rest.drop more)
      | .incomplete => (replacement :: done).reverse
termination_by octets => octets.length
decreasing_by all_goals simp only [List.length_drop, List.length_cons]; omega

/-- Read octets as a text, a replacement character standing for each ill-formed part. -/
def decodeLenient (octets : Octets) : String :=
  String.ofList (decodeLenientFrom [] octets)

end Text.Utf8

abbrev Octets.ofText (s : String) : Octets :=
  Text.Utf8.encode s

/-- The text of well-formed octets. -/
abbrev Octets.toText? (octets : Octets) : Option String :=
  Text.Utf8.decode? octets

end Courier
