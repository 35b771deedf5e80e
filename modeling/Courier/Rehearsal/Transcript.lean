import Courier.Uuid
/-!
Transcripts of rehearsals.  Random identifiers are written down by their numbers, so that two sessions
that differ only in what was drawn have the same transcript.
-/
namespace Courier.Uuid

/-- Is this a hexadecimal digit, its letter in lower case? -/
def isDigit (c : Char) : Bool :=
  c.isDigit || ('a' ≤ c && c ≤ 'f')

/-- What may stand in the places of a random identifier. -/
def places : List (Char → Bool) :=
  let dash : Char → Bool := (· == '-')
  let digits (n : Nat) : List (Char → Bool) := List.replicate n isDigit
  digits 8 ++ dash :: digits 4 ++ dash :: (· == '4') :: digits 3 ++
    dash :: (fun c => "89ab".toList.contains c) :: digits 3 ++ dash :: digits 12

/-- Does a text begin with characters of these classes? -/
def beginsWith : List (Char → Bool) → List Char → Bool
  | [], _ => true
  | _ :: _, [] => false
  | p :: ps, c :: cs => p c && beginsWith ps cs

/-- The number of an identifier: its place among those seen, to which a new one is added. -/
def number (seen : List String) (id : String) : Nat × List String :=
  match seen.findIdx? (· == id) with
  | some i => (i + 1, seen)
  | none => (seen.length + 1, seen ++ [id])

/-- The text behind the next `skipped` characters, with a number for each random identifier. -/
def renumberChars (seen : List String) : (skipped : Nat) → List Char → List Char × List String
  | _, [] => ([], seen)
  | skipped + 1, _ :: cs => renumberChars seen skipped cs
  | 0, c :: cs =>
      if beginsWith places (c :: cs) then
        let (n, seen) := number seen (String.ofList ((c :: cs).take places.length))
        let (tail, seen) := renumberChars seen (places.length - 1) cs
        (s!"<uuid-{n}>".toList ++ tail, seen)
      else
        let (tail, seen) := renumberChars seen 0 cs
        (c :: tail, seen)

def renumber (seen : List String) (s : String) : String × List String :=
  let (cs, seen) := renumberChars seen 0 s.toList
  (String.ofList cs, seen)

end Courier.Uuid
