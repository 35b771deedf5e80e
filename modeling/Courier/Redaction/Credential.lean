import Courier.Text.Blank
/-!
Credentials in free text: a word that announces one, a separator, and a value of at least three
characters.  The search goes from the left; each value found is replaced and the search goes on
behind it.  Letter case does not matter, and the Kelvin sign and the long s count as a k and an s.
-/
namespace Courier.Redaction

/-- The text in the place of what must not be shown. -/
def redacted : String := "[REDACTED]"

namespace Credential

/-- The letter that a character counts as. -/
def fold (c : Char) : Char :=
  if c = '\u212A' then 'k' else if c = '\u017F' then 's' else c.toLower

/-- The words that announce a credential; of two that begin alike the first is tried first. -/
def keywords : List (List Char) :=
  ["api_key", "api-key", "apikey", "token", "bearer", "secret", "password", "passwd"].map
    String.toList

/-- The length of the keyword at the front of a text. -/
def keywordLength? (cs : List Char) : Option Nat :=
  (keywords.find? fun word => word.isPrefixOf ((cs.take word.length).map fold)).map List.length

def isQuote (c : Char) : Bool :=
  c == '"' || c == '\''

def isValueChar (c : Char) : Bool :=
  !Text.isBlank c && !isQuote c && c != '&' && c != ',' && c != ';'

/-- The length of a quote at the front. -/
def quoteLength : List Char → Nat
  | c :: _ => if isQuote c then 1 else 0
  | [] => 0

def blankLength (cs : List Char) : Nat :=
  (cs.takeWhile Text.isBlank).length

/-- The length of a separator with `=` or `:`; blanks and one quote may stand on each side. -/
def signLength? (cs : List Char) : Option Nat :=
  let before := quoteLength cs
  let before := before + blankLength (cs.drop before)
  match cs.drop before with
  | c :: rest =>
      if c = '=' ∨ c = ':' then
        let after := blankLength rest
        some (before + 1 + after + quoteLength (rest.drop after))
      else none
  | [] => none

/-- The length of the value at the front of a text, if it is long enough to be one. -/
def valueLength? (cs : List Char) : Option Nat :=
  let n := (cs.takeWhile isValueChar).length
  if 3 ≤ n then some n else none

/-- Where a credential is: how many characters come before its value, and how many it has. -/
structure Place where
  before : Nat
  length : Nat
deriving Repr, DecidableEq

/-- The place of a value behind a separator of some length. -/
def placeAfter (keyword separator : Nat) (cs : List Char) : Option Place :=
  (valueLength? (cs.drop (keyword + separator))).map fun n => ⟨keyword + separator, n⟩

/-- The credential at the front of a text: a sign as separator is tried before mere blanks. -/
def atFront? (cs : List Char) : Option Place := do
  let keyword ← keywordLength? cs
  let rest := cs.drop keyword
  let bySign := (signLength? rest).bind fun separator => placeAfter keyword separator cs
  match bySign with
  | some place => some place
  | none =>
      let blanks := blankLength rest
      if blanks = 0 then none else placeAfter keyword blanks cs

theorem pos_length_of_atFront? {cs : List Char} {place : Place} (h : atFront? cs = some place) :
    0 < place.length ∧ cs ≠ [] := by
  have aux : ∀ {k s : Nat} {p : Place}, placeAfter k s cs = some p → 0 < p.length ∧ cs ≠ [] := by
    intro k s p hp
    unfold placeAfter valueLength? at hp
    simp only [Option.map_eq_some_iff] at hp
    obtain ⟨n, hn, rfl⟩ := hp
    split at hn
    · simp only [Option.some.injEq] at hn
      subst hn
      refine ⟨by simp only; omega, ?_⟩
      rintro rfl
      simp at *
    · cases hn
  unfold atFront? at h
  simp only [Option.bind_eq_bind, Option.bind_eq_some_iff] at h
  obtain ⟨k, _, h⟩ := h
  split at h
  · rename_i p heq
    simp only [Option.some.injEq] at h
    subst h
    obtain ⟨s, _, hs⟩ := Option.bind_eq_some_iff.mp heq
    exact aux hs
  · split at h
    · cases h
    · exact aux h

/-- Mask every credential of a text. -/
def maskChars (cs : List Char) : List Char :=
  match h : atFront? cs with
  | some place =>
      have := pos_length_of_atFront? h
      cs.take place.before ++ redacted.toList ++ maskChars (cs.drop (place.before + place.length))
  | none =>
      match cs with
      | [] => []
      | c :: rest => c :: maskChars rest
termination_by cs.length
decreasing_by
  · have := List.length_pos_iff.mpr this.2
    simp only [List.length_drop]
    omega
  · simp

end Credential

def maskCredentials (s : String) : String :=
  String.ofList (Credential.maskChars s.toList)

end Courier.Redaction
