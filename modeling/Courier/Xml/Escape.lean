import Courier.Decimal.Integer
import Courier.Text.Quoted
import Courier.Text.Utf8
/-!
References in markup: the five named ones, and characters by number.  A reference begins with `&` and
ends with `;`; errors give the octets between which it stands.
-/
namespace Courier.Xml

/-- Why a character cannot be had by its number. -/
inductive NumberError
  | sign
  | digits (cause : Decimal.IntegerError)
  | noCharacter (n : Nat)
  | notPermitted (n : Nat)
deriving Repr, DecidableEq, Inhabited

def NumberError.message : NumberError → String
  | .sign => "unexpected number sign"
  | .digits cause => cause.message
  | .noCharacter n => s!"`{n}` is not a valid codepoint"
  | .notPermitted n =>
      "0x" ++ String.ofList (Text.hexDigits n) ++ " character is not permitted in XML"

/-- Why a text with references cannot be read. -/
inductive ReferenceError
  | unknown (start stop : Nat) (name : String)
  | unterminated (start stop : Nat)
  | number (cause : NumberError)
deriving Repr, DecidableEq, Inhabited

def ReferenceError.message : ReferenceError → String
  | .unknown start stop name => s!"at {start}..{stop}: unrecognized entity `{name}`"
  | .unterminated start stop =>
      s!"Error while escaping character at range {start}..{stop}: Cannot find ';' after '&'"
  | .number cause => s!"invalid character reference: {cause.message}"

def named : List (List Char × Char) :=
  [("lt".toList, '<'), ("gt".toList, '>'), ("amp".toList, '&'), ("apos".toList, '\''),
   ("quot".toList, '"')]

def radixDigit? (radix : Nat) (c : Char) : Option Nat :=
  let d :=
    if c.isDigit then some (c.toNat - 48)
    else if 'a' ≤ c ∧ c ≤ 'f' then some (c.toNat - 87)
    else if 'A' ≤ c ∧ c ≤ 'F' then some (c.toNat - 55)
    else none
  d.filter (· < radix)

/-- Read digits in front of the value `n`, up to 32 bits. -/
def readRadix (radix n : Nat) : List Char → Except NumberError Nat
  | [] => .ok n
  | c :: rest =>
      match radixDigit? radix c with
      | none => .error (.digits .invalidDigit)
      | some d =>
          if radix * n + d ≤ Decimal.max32 then readRadix radix (radix * n + d) rest
          else .error (.digits .tooLarge)

/-- A number without a sign. -/
def readNumber (radix : Nat) (cs : List Char) : Except NumberError Nat :=
  match cs with
  | [] => .error (.digits .empty)
  | c :: _ => if c = '+' ∨ c = '-' then .error .sign else readRadix radix 0 cs

/-- The character with the number in a reference. -/
def readCharacter (cs : List Char) : Except NumberError Char := do
  let n ←
    match cs with
    | 'x' :: digits => readNumber 16 digits
    | digits => readNumber 10 digits
  if n = 0 then .error (.notPermitted n)
  else if n.isValidChar then .ok (Char.ofNat n)
  else .error (.noCharacter n)

def octetCount (cs : List Char) : Nat :=
  cs.foldl (fun n c => n + c.utf8Size) 0

/-- The name of a reference behind its `&`, with what follows its `;`. -/
def splitReference (cs : List Char) : Option (List Char × List Char) :=
  let name := cs.takeWhile fun c => c != ';' && c != '&'
  match cs.drop name.length with
  | ';' :: rest => some (name, rest)
  | _ => none

/-- The character that a reference stands for. -/
def resolve (start : Nat) (name : List Char) : Except ReferenceError Char :=
  match name with
  | '#' :: number => (readCharacter number).mapError .number
  | _ =>
      match named.lookup name with
      | some c => .ok c
      | none => .error (.unknown start (start + octetCount name) (String.ofList name))

/-- Resolve the references of a text of which `offset` octets have been passed. -/
def unescapeFrom (offset : Nat) : Nat → List Char → Except ReferenceError (List Char)
  | 0, _ => .ok []
  | _ + 1, [] => .ok []
  | fuel + 1, c :: rest =>
      if c = '&' then
        match splitReference rest with
        | none => .error (.unterminated offset (offset + 1 + octetCount rest))
        | some (name, tail) => do
            let d ← resolve (offset + 1) name
            let ds ← unescapeFrom (offset + octetCount name + 2) fuel tail
            .ok (d :: ds)
      else (unescapeFrom (offset + c.utf8Size) fuel rest).map (c :: ·)

def unescape (cs : List Char) : Except ReferenceError (List Char) :=
  unescapeFrom 0 cs.length cs

end Courier.Xml
