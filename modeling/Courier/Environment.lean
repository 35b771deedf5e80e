import Courier.Text.Ascii
import Courier.Text.Blank
import Courier.Text.Utf8
/-!
The variables that a command sees: those that it is started with and those of a file of assignments,
one a line.  A value may be quoted, may name other variables after a dollar sign, and may be followed
by a comment.  The first line that is no assignment ends the file.
-/
namespace Courier

/-- Variables with their values; of several with one name the first counts. -/
structure Environment where
  entries : List (String × String) := []
deriving Repr, Inhabited

namespace Environment

def get? (environment : Environment) (name : String) : Option String :=
  environment.entries.lookup name

/-- Set a variable that is not set yet. -/
def define (environment : Environment) (name value : String) : Environment :=
  if (environment.get? name).isSome then environment
  else ⟨environment.entries ++ [(name, value)]⟩

/-- What is being read of a value. -/
inductive Mode
  | text
  /-- the character after a backslash -/
  | escaped
  /-- text between single quotes -/
  | literal
  /-- the name after a dollar sign, of ASCII letters and digits, latest character first -/
  | name (read : List Char)
  /-- a name between braces, latest character first -/
  | braced (read : List Char)
  /-- blanks after the value -/
  | ended
  /-- a comment after the value -/
  | comment
deriving Repr, DecidableEq

/-- A value as far as it is read: the mode, whether double quotes are open, and the characters, the
latest first. -/
structure Reading where
  mode : Mode := .text
  quoted : Bool := false
  read : List Char := []
deriving Repr, DecidableEq

/-- Put the value of a variable behind what is read; one that is not set has none. -/
def Reading.expand (environment : Environment) (value : Reading) (name : List Char) : Reading :=
  let text := (environment.get? (String.ofList name.reverse)).getD ""
  { value with mode := .text, read := text.toList.reverse ++ value.read }

def Reading.push (value : Reading) (c : Char) : Reading :=
  { value with mode := .text, read := c :: value.read }

/-- What a character after a backslash stands for. -/
def escaped? (c : Char) : Option Char :=
  if c = 'n' then some '\n'
  else if c = '\\' ∨ c = '\'' ∨ c = '"' ∨ c = '$' ∨ c = ' ' then some c
  else none

/-- Read a character that is neither escaped nor in a name. -/
def Reading.readPlain (value : Reading) (c : Char) : Reading :=
  if c = '$' then { value with mode := .name [] }
  else if c = '\\' then { value with mode := .escaped }
  else if c = '"' then { value with quoted := !value.quoted }
  else if value.quoted then value.push c
  else if c = '\'' then { value with mode := .literal }
  else if c = ' ' ∨ c = '\t' then { value with mode := .ended }
  else value.push c

def Reading.step (environment : Environment) (value : Reading) (c : Char) : Option Reading :=
  match value.mode with
  | .text => some (value.readPlain c)
  | .escaped => (escaped? c).map value.push
  | .literal =>
      some (if c = '\'' then { value with mode := .text }
        else { value with read := c :: value.read })
  | .name read =>
      if c.isAlphanum then some { value with mode := .name (c :: read) }
      else if c = '\x7b' ∧ read.isEmpty then some { value with mode := .braced [] }
      else
        let value := value.expand environment read
        some (if c = '$' then { value with mode := .name [] } else value.push c)
  | .braced read =>
      some (if c = '\x7d' then value.expand environment read
        else { value with mode := .braced (c :: read) })
  | .ended =>
      if c = ' ' ∨ c = '\t' then some value
      else if c = '#' then some { value with mode := .comment }
      else none
  | .comment => some value

/-- The value, when the line ends here; quotes and braces have to be closed. -/
def Reading.finish (environment : Environment) (value : Reading) : Option String :=
  let text (value : Reading) : String := String.ofList value.read.reverse
  if value.quoted then none
  else
    match value.mode with
    | .literal => none
    | .braced _ => none
    | .name read => some (text (value.expand environment read))
    | _ => some (text value)

def readValue (environment : Environment) (cs : List Char) : Option String := do
  (← cs.foldlM (fun value c => value.step environment c) ({} : Reading)).finish environment

def skipBlanks (cs : List Char) : List Char :=
  cs.dropWhile Text.isBlank

/-- The name at the front of a line, and what follows it and the blanks after it. -/
def readName (cs : List Char) : Option (String × List Char) :=
  let isPart (c : Char) : Bool := c.isAlphanum || c == '_' || c == '.'
  match cs with
  | [] => none
  | c :: _ =>
      if c.isAlpha || c == '_' then
        some (String.ofList (cs.takeWhile isPart), skipBlanks (cs.dropWhile isPart))
      else none

/-- What follows the sign of equality. -/
def afterEquals? : List Char → Option (List Char)
  | '=' :: rest => some (skipBlanks rest)
  | _ => none

/-- The name of an assignment, before which `export` may stand, and the text of its value. -/
def readTarget (cs : List Char) : Option (String × List Char) := do
  let (name, rest) ← readName cs
  match afterEquals? rest with
  | some value => return (name, value)
  | none =>
      guard (name = "export")
      let (name, rest) ← readName rest
      return (name, ← afterEquals? rest)

/-- What a line says: nothing, or that a variable has a value. -/
def readLine (environment : Environment) (line : String) : Option (Option (String × String)) :=
  let cs := skipBlanks (Text.trim line).toList
  if cs.isEmpty || cs.head? == some '#' then some none
  else do
    let (name, value) ← readTarget cs
    if value.isEmpty || value.head? == some '#' then return some (name, "")
    else return some (name, ← readValue environment value)

/-- Take in assignments line by line, up to the first line that is none. -/
def loadLines (environment : Environment) : List Octets → Environment
  | [] => environment
  | line :: rest =>
      match line.toText?.bind (readLine environment) with
      | none => environment
      | some none => loadLines environment rest
      | some (some (name, value)) => loadLines (environment.define name value) rest

def load (environment : Environment) (file : Octets) : Environment :=
  environment.loadLines (Text.splitList (· == 10) file)

end Environment
end Courier
