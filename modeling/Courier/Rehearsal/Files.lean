import Courier.Command.Loading
/-!
Files that are only said to be there: paths from the root with what the files hold.  Every folder on
the way to a file is there too.
-/
namespace Courier.Rehearsal

/-- Files, each under the parts of its path, and the folder in which a command starts. -/
structure Files where
  files : List (List String × Octets)
  start : List String

namespace Files

def parts (path : String) : List String :=
  (Text.splitList (· == '/') path.toList).map String.ofList

/-- What is found under the parts of a path from the root. -/
def find? (files : Files) (place : List String) : Option Command.Found :=
  match files.files.lookup place with
  | some octets => some (.file octets)
  | none =>
      if place.isPrefixOf files.start || files.files.any fun file => place.isPrefixOf file.1 then
        some .folder
      else none

/-- Follow the parts of a path from a folder on. -/
def walk (files : Files) : (place : List String) → List String → Option Command.Found
  | place, [] => files.find? place
  | place, part :: rest =>
      match files.find? place with
      | some .folder =>
          if part = "" ∨ part = "." then walk files place rest
          else if part = ".." then walk files place.dropLast rest
          else walk files (place ++ [part]) rest
      | _ => none

def look (files : Files) (path : String) : Option Command.Found :=
  if path.isEmpty then none
  else if Text.startsWith path "/" then files.walk [] (parts path)
  else files.walk files.start (parts path)

end Files
end Courier.Rehearsal
