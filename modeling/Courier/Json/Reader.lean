import Courier.Decimal.Read
import Courier.Json.Error
import Courier.Json.Shape
/-!
Reading JSON.  The reader moves over the octets from the left, is told the shape it has to find,
and stops at the first defect: of the grammar, or of the shape.  Fields that a record does not know
are passed over with a lighter check of their grammar and at any depth; all other values may be
nested to a depth of 127.
-/
namespace Courier.Json

/-- The octets still to be read and the number of those before them. -/
structure Cursor where
  rest : Octets
  index : Nat

/-- A defect and the number of octets before the place that is to blame. -/
structure Stop where
  cause : Cause
  index : Nat

/-- A step of reading. -/
abbrev Reader := StateT Cursor (Except Stop)

namespace Reader

/-- Stop at the current place. -/
def failHere {α : Type} (cause : Cause) : Reader α :=
  fun c => .error ⟨cause, c.index⟩

/-- Stop at the next octet. -/
def failNext {α : Type} (cause : Cause) : Reader α :=
  fun c => .error ⟨cause, if c.rest.isEmpty then c.index else c.index + 1⟩

def peek : Reader (Option UInt8) :=
  fun c => .ok (c.rest.head?, c)

def skip : Reader Unit :=
  fun c =>
    match c.rest with
    | [] => .ok ((), c)
    | _ :: rest => .ok ((), ⟨rest, c.index + 1⟩)

def next : Reader (Option UInt8) :=
  fun c =>
    match c.rest with
    | [] => .ok (none, c)
    | b :: rest => .ok (some b, ⟨rest, c.index + 1⟩)

/-- Take octets while they are of a class. -/
def takeWhile (p : UInt8 → Bool) : Reader Octets :=
  fun c =>
    let taken := c.rest.takeWhile p
    .ok (taken, ⟨c.rest.dropWhile p, c.index + taken.length⟩)

def isBlank (b : UInt8) : Bool :=
  b == 0x20 || b == 0x0A || b == 0x09 || b == 0x0D

def isDigit (b : UInt8) : Bool :=
  0x30 ≤ b && b ≤ 0x39

/-- Pass over blanks and look at what follows. -/
def skipBlank : Reader (Option UInt8) := do
  let _ ← takeWhile isBlank
  peek

def ascii (c : Char) : UInt8 :=
  c.toNat.toUInt8

/-- Read the rest of a word whose first letter has been read. -/
def word : List Char → Reader Unit
  | [] => pure ()
  | c :: rest => do
      match ← next with
      | none => failHere .endInValue
      | some b => if b = ascii c then word rest else failHere .expectedWord

/-! ### Numbers -/

/-- Take in digits while the value keeps within 64 bits; the answer counts the digits taken. -/
def absorb (n taken : Nat) : Octets → Nat × Nat
  | [] => (n, taken)
  | b :: rest =>
      let m := 10 * n + (b.toNat - 0x30)
      if m ≤ Decimal.max64 then absorb m (taken + 1) rest else (n, taken)

/-- Multiply by a power of ten, the powers that are too small taken in steps of 308; `none` when the
result is infinite. -/
def scale (x : Float) (exponent : Int) : Nat → Option Float
  | 0 => some x
  | fuel + 1 =>
      if exponent.natAbs ≤ 308 then
        let power := Decimal.floatOfNat (Nat.pow 10 exponent.natAbs)
        if 0 ≤ exponent then
          let y := x * power
          if y.isInf then none else some y
        else some (x / power)
      else if x == 0.0 then some x
      else if 0 ≤ exponent then none
      else scale (x / Decimal.floatOfNat (Nat.pow 10 308)) (exponent + 308) fuel

/-- The float made of a significand, an exponent and a sign. -/
def floatOfParts (negative : Bool) (significand : Nat) (exponent : Int) : Reader Number :=
  match scale (Decimal.floatOfNat significand) exponent 8 with
  | none => failHere .numberOutOfRange
  | some x => pure (.real (if negative then -x else x))

/-- The largest exponent that is counted. -/
def exponentBound : Nat := Nat.pow 2 31 - 1

/-- Read digits of an exponent in front of the value `n`; `none` when it passes the bound, at the
digit that does it. -/
def exponentDigits (n : Nat) : Nat → Reader (Option Nat)
  | 0 => pure (some n)
  | fuel + 1 => do
      match ← peek with
      | some b =>
          if isDigit b then
            skip
            let m := 10 * n + (b.toNat - 0x30)
            if m ≤ exponentBound then exponentDigits m fuel else pure none
          else pure (some n)
      | none => pure (some n)

/-- The rest of a number from its exponent mark on. -/
def exponentPart (negative : Bool) (significand : Nat) (before : Int) : Reader Number := do
  skip
  let sign ← peek
  let minus := sign == some 0x2D
  if sign == some 0x2B || minus then skip
  match ← next with
  | none => failHere .endInValue
  | some b =>
      if isDigit b then
        let c ← get
        match ← exponentDigits (b.toNat - 0x30) c.rest.length with
        | some n =>
            floatOfParts negative significand (if minus then before - n else before + n)
        | none =>
            if significand ≠ 0 && !minus then failHere .numberOutOfRange
            else
              let _ ← takeWhile isDigit
              pure (.real (if negative then -0.0 else 0.0))
      else failHere .invalidNumber

def isExponentMark (b : Option UInt8) : Bool :=
  b == some 0x65 || b == some 0x45

/-- The rest of a number from its point on. -/
def decimalPart (negative : Bool) (significand : Nat) (before : Int) : Reader Number := do
  skip
  let digits ← takeWhile isDigit
  if digits.isEmpty then
    match ← peek with
    | some _ => failNext .invalidNumber
    | none => failNext .endInValue
  else
    let (n, taken) := absorb significand 0 digits
    let exponent := before - taken
    if isExponentMark (← peek) then exponentPart negative n exponent
    else floatOfParts negative n exponent

def magnitude (negative : Bool) : Reader Number := do
  match ← next with
  | none => failHere .endInValue
  | some first =>
      if first = 0x30 then
        match ← peek with
        | some b => if isDigit b then failNext .invalidNumber else pure ()
        | none => pure ()
      else if !isDigit first then failHere .invalidNumber
      let digits ← takeWhile isDigit
      let (n, taken) := absorb 0 0 (first :: digits)
      let dropped : Int := (digits.length + 1 - taken : Nat)
      let follows ← peek
      if follows == some 0x2E then decimalPart negative n dropped
      else if isExponentMark follows then exponentPart negative n dropped
      else if dropped ≠ 0 then floatOfParts negative n dropped
      else if !negative then pure (.whole n)
      else if n = 0 || Nat.pow 2 63 < n then pure (.real (-(Decimal.floatOfNat n)))
      else pure (.whole (-(n : Int)))

/-- A number whose first octet has been looked at. -/
def number (first : UInt8) : Reader Number := do
  if first = 0x2D then
    skip
    magnitude true
  else magnitude false

/-! ### Strings -/

def hexValue? (b : UInt8) : Option Nat :=
  if isDigit b then some (b.toNat - 0x30)
  else if 0x41 ≤ b && b ≤ 0x46 then some (b.toNat - 0x37)
  else if 0x61 ≤ b && b ≤ 0x66 then some (b.toNat - 0x57)
  else none

def hexQuad : Reader Nat :=
  fun c =>
    match c.rest with
    | a :: b :: d :: e :: rest =>
        match hexValue? a, hexValue? b, hexValue? d, hexValue? e with
        | some a, some b, some d, some e =>
            .ok (((a * 16 + b) * 16 + d) * 16 + e, ⟨rest, c.index + 4⟩)
        | _, _, _, _ => .error ⟨.invalidEscape, c.index + 4⟩
    | short => .error ⟨.endInString, c.index + short.length⟩

/-- The next octet inside a string, which stays. -/
def peekInString : Reader UInt8 := do
  match ← peek with
  | some b => pure b
  | none => failHere .endInString

def codePoint (n : Nat) : Octets :=
  Text.Utf8.encodeChar (Char.ofNat n)

/-- The character of a numbered escape; two escapes make one character beyond the first plane. -/
def unicodeEscape : Reader Octets := do
  let n ← hexQuad
  if 0xDC00 ≤ n && n ≤ 0xDFFF then failHere .loneSurrogate
  else if n < 0xD800 || 0xDBFF < n then pure (codePoint n)
  else
    let backslash ← peekInString
    skip
    if backslash ≠ 0x5C then failHere .unfinishedEscape
    let mark ← peekInString
    skip
    if mark ≠ 0x75 then failHere .unfinishedEscape
    let low ← hexQuad
    if low < 0xDC00 || 0xDFFF < low then failHere .loneSurrogate
    else pure (codePoint ((n - 0xD800) * 0x400 + (low - 0xDC00) + 0x10000))

/-- The octet of an escape of one letter. -/
def plainEscape? (b : UInt8) : Option UInt8 :=
  if b = 0x22 then some 0x22
  else if b = 0x5C then some 0x5C
  else if b = 0x2F then some 0x2F
  else if b = 0x62 then some 0x08
  else if b = 0x66 then some 0x0C
  else if b = 0x6E then some 0x0A
  else if b = 0x72 then some 0x0D
  else if b = 0x74 then some 0x09
  else none

def isPlain (b : UInt8) : Bool :=
  b != 0x22 && b != 0x5C && 0x20 ≤ b

/-- The rest of a string after its opening quote; `done` holds the octets read, in reverse. -/
def stringFrom (done : Octets) : Nat → Reader Octets
  | 0 => failHere .endInString
  | fuel + 1 => do
      let run ← takeWhile isPlain
      let done := run.reverseAux done
      match ← next with
      | none => failHere .endInString
      | some b =>
          if b = 0x22 then pure done.reverse
          else if b = 0x5C then
            match ← next with
            | none => failHere .endInString
            | some e =>
                if e = 0x75 then
                  let octets ← unicodeEscape
                  stringFrom (octets.reverseAux done) fuel
                else
                  match plainEscape? e with
                  | some o => stringFrom (o :: done) fuel
                  | none => failHere .invalidEscape
          else failHere .controlCharacter

/-- A string after its opening quote.  Octets that are no text are to blame from the first of them
on. -/
def string : Reader String := do
  let start ← get
  let octets ← stringFrom [] (start.rest.length + 1)
  match octets.toText? with
  | some s => pure s
  | none =>
      let stop ← get
      match Text.Utf8.read (start.rest.take (stop.index - start.index - 1)) with
      | .error defect => fun _ => .error ⟨.invalidCodePoint, start.index + defect.index + 1⟩
      | .ok _ => failHere .invalidCodePoint

/-! ### Values of no interest -/

def ignoreString : Nat → Reader Unit
  | 0 => failHere .endInString
  | fuel + 1 => do
      let _ ← takeWhile isPlain
      match ← peek with
      | none => failHere .endInString
      | some b =>
          if b = 0x22 then skip
          else if b = 0x5C then
            skip
            match ← next with
            | none => failHere .endInString
            | some e =>
                if e = 0x75 then
                  let _ ← hexQuad
                  ignoreString fuel
                else if (plainEscape? e).isSome then ignoreString fuel
                else failHere .invalidEscape
          else failHere .controlCharacter

def ignoreExponent : Reader Unit := do
  skip
  let sign ← peek
  if sign == some 0x2B || sign == some 0x2D then skip
  match ← next with
  | none => failHere .invalidNumber
  | some b =>
      if isDigit b then
        let _ ← takeWhile isDigit
      else failHere .invalidNumber

def ignoreMagnitude : Reader Unit := do
  match ← next with
  | none => failHere .invalidNumber
  | some first =>
      if first = 0x30 then
        match ← peek with
        | some b => if isDigit b then failNext .invalidNumber else pure ()
        | none => pure ()
      else if isDigit first then
        let _ ← takeWhile isDigit
      else failHere .invalidNumber
      let follows ← peek
      if follows == some 0x2E then
        skip
        let digits ← takeWhile isDigit
        if digits.isEmpty then failNext .invalidNumber
        if isExponentMark (← peek) then ignoreExponent
      else if isExponentMark follows then ignoreExponent

/-- A bracket that is open: of a list or of an object. -/
inductive Frame
  | list
  | object
deriving DecidableEq

/-- Pass over the name of a field and its colon. -/
def ignoreKey : Reader Unit := do
  match ← skipBlank with
  | none => failNext .endInObject
  | some b =>
      if b ≠ 0x22 then failNext .keyNotString
      skip
      let c ← get
      ignoreString (c.rest.length + 1)
      match ← skipBlank with
      | none => failNext .endInObject
      | some b => if b = 0x3A then skip else failNext .expectedColon

/-- Close brackets as long as they close; answers the brackets open before the next value, or `none`
when the outermost is closed. -/
def ignoreClosings (comma : Bool) : List Frame → Reader (Option (List Frame))
  | [] => pure none
  | frame :: outer => do
      match ← skipBlank with
      | none => failNext (if frame = .list then .endInList else .endInObject)
      | some b =>
          if b = 0x2C && comma then
            skip
            pure (some (frame :: outer))
          else if b = 0x5D && frame = .list || b = 0x7D && frame = .object then
            skip
            ignoreClosings true outer
          else if comma then
            failNext (if frame = .list then .expectedListEnd else .expectedObjectEnd)
          else pure (some (frame :: outer))

/-- Pass over a value inside the open brackets, and over all that follows it in them. -/
def ignoreFrom (open_ : List Frame) : Nat → Reader Unit
  | 0 => failHere .endInValue
  | fuel + 1 => do
      let opened ← (do
        match ← skipBlank with
        | none => failNext .endInValue
        | some b =>
            if b = 0x6E then skip; word "ull".toList; pure none
            else if b = 0x74 then skip; word "rue".toList; pure none
            else if b = 0x66 then skip; word "alse".toList; pure none
            else if b = 0x2D then skip; ignoreMagnitude; pure none
            else if isDigit b then ignoreMagnitude; pure none
            else if b = 0x22 then
              skip
              let c ← get
              ignoreString (c.rest.length + 1)
              pure none
            else if b = 0x5B then skip; pure (some Frame.list)
            else if b = 0x7B then skip; pure (some Frame.object)
            else failNext .expectedValue : Reader (Option Frame))
      let frames :=
        match opened with
        | some frame => frame :: open_
        | none => open_
      match ← ignoreClosings opened.isNone frames with
      | none => pure ()
      | some frames =>
          if frames.head? = some .object then ignoreKey
          ignoreFrom frames fuel

def ignore : Reader Unit := do
  let c ← get
  ignoreFrom [] (c.rest.length + 1)

/-! ### Lists and objects -/

/-- Is there another item?  Passes over the comma before it. -/
def hasItem (first : Bool) : Reader Bool := do
  match ← skipBlank with
  | none => failNext .endInList
  | some b =>
      if b = 0x5D then pure false
      else if first then pure true
      else if b = 0x2C then
        skip
        match ← skipBlank with
        | none => failNext .endInValue
        | some b => if b = 0x5D then failNext .trailingComma else pure true
      else failNext .expectedListEnd

/-- Is there another field?  Passes over the comma before it. -/
def hasField (first : Bool) : Reader Bool := do
  match ← skipBlank with
  | none => failNext .endInObject
  | some b =>
      if b = 0x7D then pure false
      else if first then
        if b = 0x22 then pure true else failNext .keyNotString
      else if b = 0x2C then
        skip
        match ← skipBlank with
        | none => failNext .endInValue
        | some b =>
            if b = 0x22 then pure true
            else if b = 0x7D then failNext .trailingComma
            else failNext .keyNotString
      else failNext .expectedObjectEnd

def colon : Reader Unit := do
  match ← skipBlank with
  | none => failNext .endInObject
  | some b => if b = 0x3A then skip else failNext .expectedColon

def closeList : Reader Unit := do
  match ← skipBlank with
  | none => failNext .endInList
  | some b =>
      if b = 0x5D then skip
      else if b = 0x2C then
        skip
        match ← skipBlank with
        | some b => if b = 0x5D then failNext .trailingComma else failNext .trailingCharacters
        | none => failNext .trailingCharacters
      else failNext .trailingCharacters

def closeObject : Reader Unit := do
  match ← skipBlank with
  | none => failNext .endInObject
  | some b =>
      if b = 0x7D then skip
      else if b = 0x2C then failNext .trailingComma
      else failNext .trailingCharacters

/-- Stop behind the bracket that would close the list, if it is next. -/
def failInList {α : Type} (cause : Cause) : Reader α := do
  match ← skipBlank with
  | some b =>
      if b = 0x5D then skip
      else if b = 0x2C then
        skip
        let _ ← skipBlank
  | none => pure ()
  failHere cause

/-- Stop behind the bracket that would close the object, if it is next. -/
def failInObject {α : Type} (cause : Cause) : Reader α := do
  if (← skipBlank) == some 0x7D then skip
  failHere cause

/-! ### Values -/

/-- Say what stands here in place of the expected. -/
def wrongKind {α : Type} (expected : String) : Reader α := do
  match ← peek with
  | none => failNext .expectedValue
  | some b =>
      if b = 0x6E then
        skip; word "ull".toList; failHere (.wrongKind .null expected)
      else if b = 0x74 then
        skip; word "rue".toList; failHere (.wrongKind (.bool true) expected)
      else if b = 0x66 then
        skip; word "alse".toList; failHere (.wrongKind (.bool false) expected)
      else if b = 0x2D || isDigit b then
        match ← number b with
        | .whole n => failHere (.wrongKind (.whole n) expected)
        | .real x => failHere (.wrongKind (.real x) expected)
      else if b = 0x22 then
        skip
        let s ← string
        failHere (.wrongKind (.text s) expected)
      else if b = 0x5B then failHere (.wrongKind .sequence expected)
      else if b = 0x7B then failHere (.wrongKind .map expected)
      else failNext .expectedValue

def numberOf (shape : Shape) (n : Number) : Reader Json :=
  match shape, n with
  | .float, .whole n => pure (.number (.real (Decimal.floatOfInt n)))
  | .float, .real x => pure (.number (.real x))
  | _, .real x => failHere (.wrongKind (.real x) shape.expected)
  | _, .whole n =>
      if shape.wholeBound.1 ≤ n && n ≤ shape.wholeBound.2 then pure (.number (.whole n))
      else failHere (.wrongValue (.whole n) shape.expected)

/-- A bracket may be opened when this many levels, itself included, are left. -/
def enter (levels : Nat) : Reader Unit :=
  if levels ≤ 1 then failNext .tooDeep else skip

/-- The value of a field that is missing. -/
def missing (field : Shape.Field) : Reader Json :=
  match field.2.2 with
  | .refused => failInObject (.missingField field.1)
  | .nullable => pure .null
  | .default value => pure value

def variant (variants : List String) : Reader String := do
  match ← skipBlank with
  | none => failNext .endInValue
  | some b =>
      if b = 0x22 then
        skip
        let s ← string
        if variants.contains s then pure s else failHere (.unknownVariant s variants)
      else wrongKind "variant identifier"

mutual

/-- A value of the shape, with so many levels of nesting left. -/
def value (shape : Shape) (levels : Nat) : Nat → Reader Json
  | 0 => failHere .tooDeep
  | fuel + 1 => do
      match ← skipBlank with
      | none => failNext .endInValue
      | some b =>
          match shape with
          | .any =>
              if b = 0x6E then skip; word "ull".toList; pure .null
              else if b = 0x74 then skip; word "rue".toList; pure (.bool true)
              else if b = 0x66 then skip; word "alse".toList; pure (.bool false)
              else if b = 0x2D || isDigit b then
                let n ← number b
                pure (.number n)
              else if b = 0x22 then
                skip
                let s ← string
                pure (.string s)
              else if b = 0x5B then
                enter levels
                let items ← itemsFrom .any (levels - 1) [] fuel
                closeList
                pure (.array items)
              else if b = 0x7B then
                enter levels
                let fields ← fieldsFrom .any (levels - 1) true [] fuel
                closeObject
                pure (.object fields)
              else failNext .expectedValue
          | .optional inner =>
              if b = 0x6E then skip; word "ull".toList; pure .null
              else value inner levels fuel
          | .list item =>
              if b = 0x5B then
                enter levels
                let items ← itemsFrom item (levels - 1) [] fuel
                closeList
                pure (.array items)
              else wrongKind shape.expected
          | .dict item =>
              if b = 0x7B then
                enter levels
                let fields ← fieldsFrom item (levels - 1) true [] fuel
                closeObject
                pure (.object fields)
              else wrongKind shape.expected
          | .text =>
              if b = 0x22 then
                skip
                let s ← string
                pure (.string s)
              else wrongKind shape.expected
          | .unsigned _ | .signed | .float =>
              if b = 0x2D || isDigit b then
                let n ← number b
                numberOf shape n
              else wrongKind shape.expected
          | .record name fields =>
              if b = 0x5B then
                enter levels
                let values ← positionsFrom name fields (levels - 1) 0 [] fuel
                closeList
                pure (Json.ofFields values)
              else if b = 0x7B then
                enter levels
                let found ← namesFrom fields (levels - 1) true [] fuel
                let values ← fields.mapM fun field =>
                  match Fields.get? field.1 found with
                  | some v => pure (field.1, v)
                  | none => do
                      let v ← missing field
                      pure (field.1, v)
                closeObject
                pure (Json.ofFields values)
              else wrongKind shape.expected
          | .choice variants =>
              if b = 0x22 then
                let name ← variant variants
                pure (.string name)
              else if b = 0x7B then
                enter levels
                let name ← variant variants
                colon
                match ← skipBlank with
                | none => failNext .endInValue
                | some b =>
                    if b = 0x6E then skip; word "ull".toList else wrongKind "unit"
                match ← skipBlank with
                | none => failHere .endInObject
                | some b =>
                    if b = 0x7D then
                      skip
                      pure (.string name)
                    else failHere .expectedValue
              else failNext .expectedValue
termination_by structural fuel => fuel

/-- The items of a list; `done` holds those before, in reverse. -/
def itemsFrom (item : Shape) (levels : Nat) (done : List Json) : Nat → Reader (List Json)
  | 0 => failHere .tooDeep
  | fuel + 1 => do
      if ← hasItem done.isEmpty then
        let v ← value item levels fuel
        itemsFrom item levels (v :: done) fuel
      else pure done.reverse
termination_by structural fuel => fuel

/-- The fields of an object with any names. -/
def fieldsFrom (item : Shape) (levels : Nat) (first : Bool) (done : List (String × Json)) :
    Nat → Reader (List (String × Json))
  | 0 => failHere .tooDeep
  | fuel + 1 => do
      if ← hasField first then
        skip
        let name ← string
        colon
        let v ← value item levels fuel
        fieldsFrom item levels false (Fields.insert name v done) fuel
      else pure done
termination_by structural fuel => fuel

/-- The fields of a record, by name. -/
def namesFrom (fields : List Shape.Field) (levels : Nat) (first : Bool)
    (done : List (String × Json)) : Nat → Reader (List (String × Json))
  | 0 => failHere .tooDeep
  | fuel + 1 => do
      if ← hasField first then
        skip
        let name ← string
        match fields.lookup name with
        | none =>
            colon
            ignore
            namesFrom fields levels false done fuel
        | some (shape, _) =>
            if (Fields.get? name done).isSome then failInObject (.duplicateField name)
            else
              colon
              let v ← value shape levels fuel
              namesFrom fields levels false ((name, v) :: done) fuel
      else pure done
termination_by structural fuel => fuel

/-- The fields of a record written as a list, by position. -/
def positionsFrom (name : String) (fields : List Shape.Field) (levels : Nat)
    (index : Nat) (done : List (String × Json)) : Nat → Reader (List (String × Json))
  | 0 => failHere .tooDeep
  | fuel + 1 => do
      match fields[index]? with
      | none => pure done
      | some (field, shape, absence) =>
          if ← hasItem (index == 0) then
            let v ← value shape levels fuel
            positionsFrom name fields levels (index + 1) ((field, v) :: done) fuel
          else
            match absence with
            | .default v =>
                positionsFrom name fields levels (index + 1) ((field, v) :: done) fuel
            | _ =>
                let count := fields.length
                failInList (.wrongLength index
                  s!"struct {name} with {count} elements")
termination_by structural fuel => fuel

end

/-- A whole text: one value and nothing but blanks after it. -/
def document (shape : Shape) : Reader Json := do
  let c ← get
  let v ← value shape 128 (2 * c.rest.length + shape.size + 4)
  match ← skipBlank with
  | none => pure v
  | some _ => failNext .trailingCharacters

end Reader

/-- The line, and the column in it, of a place before which stand these octets. -/
def placeAfter (before : Octets) : Nat × Nat :=
  let line := 1 + before.count 0x0A
  let column := (before.reverse.takeWhile (· != 0x0A)).length
  (line, column)

def readAs (shape : Shape) (octets : Octets) : Except ReadError Json :=
  match (Reader.document shape).run ⟨octets, 0⟩ with
  | .ok (document, _) => .ok document
  | .error stop =>
      let place := placeAfter (octets.take stop.index)
      .error ⟨stop.cause, place.1, place.2⟩

def read (octets : Octets) : Except ReadError Json :=
  readAs .any octets

end Courier.Json
