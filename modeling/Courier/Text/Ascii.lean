/-!
Texts compared without regard to the case of ASCII letters, and searched for other texts.
-/
namespace Courier.Text

/-- A text with its ASCII letters in lower case. -/
def lowerAscii (s : String) : String :=
  String.ofList (s.toList.map Char.toLower)

/-- Does `needle` occur in `hay` as a run? -/
def occursIn {α : Type} [BEq α] (needle : List α) : List α → Bool
  | [] => needle.isEmpty
  | a :: hay => needle.isPrefixOf (a :: hay) || occursIn needle hay

def contains (hay needle : String) : Bool :=
  occursIn needle.toList hay.toList

def startsWith (s start : String) : Bool :=
  start.toList.isPrefixOf s.toList

/-- The parts of a text before and after the first place where a character occurs. -/
def splitOnce (sep : Char) (s : String) : Option (String × String) :=
  let cs := s.toList
  if cs.contains sep then
    some (String.ofList (cs.takeWhile (· != sep)), String.ofList ((cs.dropWhile (· != sep)).drop 1))
  else none

/-- The parts of a list between separators. -/
def splitList {α : Type} (p : α → Bool) : List α → List (List α)
  | [] => [[]]
  | a :: rest =>
      if p a then [] :: splitList p rest
      else
        match splitList p rest with
        | [] => [[a]]
        | part :: parts => (a :: part) :: parts

def join (separator : String) (parts : List String) : String :=
  separator.intercalate parts

end Courier.Text
