import Courier.Text.Utf8
/-!
Quoted text in configuration documents: between double quotes with escapes or between single quotes
without, and in each kind on one line or between three quotes over several.
-/
namespace Courier.Toml

def isInlineBlank (c : Char) : Bool :=
  c == ' ' || c == '\t'

def skipInline (cs : List Char) : List Char :=
  cs.dropWhile isInlineBlank

/-- A character that may stand in comments and quoted text: the tab and all that is no control
character. -/
def isPlain (c : Char) : Bool :=
  c == '\t' || (0x20 ≤ c.toNat && c != '\x7f')

def hexDigit? (c : Char) : Option Nat :=
  if c.isDigit then some (c.toNat - '0'.toNat)
  else if 'a' ≤ c ∧ c ≤ 'f' then some (c.toNat - 'a'.toNat + 10)
  else if 'A' ≤ c ∧ c ≤ 'F' then some (c.toNat - 'A'.toNat + 10)
  else none

def hexNumber? (digits : List Char) : Option Nat :=
  digits.foldlM (fun n c => (hexDigit? c).map (16 * n + ·)) 0

/-- The character that so many hexadecimal digits at the front name. -/
def namedChar? (count : Nat) (cs : List Char) : Option Char := do
  let digits := cs.take count
  guard (digits.length = count)
  let n ← hexNumber? digits
  if n.isValidChar then some (Char.ofNat n) else none

def escaped? (c : Char) : Option Char :=
  if c = 'b' then some '\x08'
  else if c = 't' then some '\t'
  else if c = 'n' then some '\n'
  else if c = 'f' then some '\x0c'
  else if c = 'r' then some '\r'
  else if c = '"' then some '"'
  else if c = '\\' then some '\\'
  else none

/-- Resolve escapes.  In text over several lines a backslash at the end of a line takes the line end
and all blanks after it away. -/
def unescape (long : Bool) (cs : List Char) : Option (List Char) :=
  match cs with
  | [] => some []
  | '\\' :: rest =>
      let after := skipInline rest
      if long && after.head? == some '\n' then
        unescape long (after.dropWhile fun c => isInlineBlank c || c == '\n')
      else
        match rest with
        | [] => none
        | 'u' :: rest => do
            let c ← namedChar? 4 rest
            return c :: (← unescape long (rest.drop 4))
        | 'U' :: rest => do
            let c ← namedChar? 8 rest
            return c :: (← unescape long (rest.drop 8))
        | c :: rest => do
            let c ← escaped? c
            return c :: (← unescape long rest)
  | c :: rest => do return c :: (← unescape long rest)
termination_by cs.length
decreasing_by
  · have h₁ := ((List.dropWhile_suffix (l := rest) isInlineBlank).length_le)
    have h₂ := ((List.dropWhile_suffix (l := skipInline rest)
      (fun c => isInlineBlank c || c == '\n')).length_le)
    simp only [skipInline, List.length_cons] at h₁ h₂ ⊢
    omega
  all_goals
    simp only [List.length_cons, List.length_drop]
    omega

/-- Text up to the quote that closes it, on one line, as written. -/
def shortRun (quote : Char) (escapes : Bool) : List Char → Option (List Char × List Char)
  | [] => none
  | [c] => if c = quote then some ([], []) else none
  | c :: d :: rest =>
      if c = quote then some ([], d :: rest)
      else if escapes && c == '\\' then
        if isPlain d then (shortRun quote escapes rest).map fun r => (c :: d :: r.1, r.2) else none
      else if isPlain c then (shortRun quote escapes (d :: rest)).map fun r => (c :: r.1, r.2)
      else none

/-- Text up to the three quotes that close it; one or two more may stand directly before them.  Line
ends become line feeds. -/
def longRun (quote : Char) (escapes : Bool) : List Char → Option (List Char × List Char)
  | [] => none
  | [_] => none
  | c :: d :: rest =>
      if c = quote then
        let count := ((c :: d :: rest).takeWhile (· == quote)).length
        if 3 ≤ count then
          let taken := min count 5
          some (List.replicate (taken - 3) quote, (c :: d :: rest).drop taken)
        else (longRun quote escapes (d :: rest)).map fun r => (c :: r.1, r.2)
      else if escapes && c == '\\' && (d == '\\' || d == quote) then
        (longRun quote escapes rest).map fun r => (c :: d :: r.1, r.2)
      else if c = '\r' then
        if d = '\n' then longRun quote escapes (d :: rest) else none
      else if c = '\n' || isPlain c then
        (longRun quote escapes (d :: rest)).map fun r => (c :: r.1, r.2)
      else none

def dropLineEnd : List Char → List Char
  | '\r' :: '\n' :: rest => rest
  | '\n' :: rest => rest
  | cs => cs

/-- Quoted text on one line, after the quote that opens it. -/
def shortText (quote : Char) (cs : List Char) : Option (String × List Char) := do
  let (run, rest) ← shortRun quote (quote == '"') cs
  let cs ← if quote == '"' then unescape false run else some run
  return (String.ofList cs, rest)

/-- Quoted text over several lines, after the quotes that open it. -/
def longText (quote : Char) (cs : List Char) : Option (String × List Char) := do
  let (run, rest) ← longRun quote (quote == '"') (dropLineEnd cs)
  let cs ← if quote == '"' then unescape true run else some run
  return (String.ofList cs, rest)

/-- Quoted text of any kind, after the first quote. -/
def quotedText (quote : Char) (cs : List Char) : Option (String × List Char) :=
  match cs with
  | a :: b :: rest => if a = quote ∧ b = quote then longText quote rest else shortText quote cs
  | cs => shortText quote cs

end Courier.Toml
