import Courier.Toml.Basic
/-!
How the lines of a document make its tables.  A table is opened by its own header once, in whatever
order headers come; dotted names open tables of their own; and a value, an inline table among them, is
closed for good.
-/
namespace Courier.Toml

inductive Fault
  /-- the text breaks off or goes wrong at a line -/
  | malformed (line : Nat)
  /-- a name is given a second meaning -/
  | redefined (name : String)
deriving Repr, DecidableEq, Inhabited

def Fault.message : Fault → String
  | .malformed line => "TOML parse error at line " ++ toString line
  | .redefined name => "duplicate key " ++ name

/-- How a table came to be. -/
inductive Origin
  /-- by its own header -/
  | header
  /-- on the way to another header -/
  | passed
  /-- by a dotted name -/
  | dotted
deriving Repr, DecidableEq

/-- What a name stands for while a document is read. -/
inductive Node
  | value (v : Toml)
  | table (origin : Origin) (fields : List (String × Node))
  /-- tables in a row, the latest first -/
  | tables (items : List (List (String × Node)))

/-- Named nodes, ordered by name. -/
abbrev Nodes := List (String × Node)

/-- Give a value to a dotted name inside a table. -/
def assignPath (value : Toml) : List String → Nodes → Except Fault Nodes
  | [], nodes => .ok nodes
  | [name], nodes =>
      if (nodes.lookup name).isSome then .error (.redefined name)
      else .ok (Fields.insert name (.value value) nodes)
  | name :: rest, nodes =>
      match nodes.lookup name with
      | none => do return Fields.insert name (.table .dotted (← assignPath value rest [])) nodes
      | some (.table .dotted inner) => do
          return Fields.insert name (.table .dotted (← assignPath value rest inner)) nodes
      | some (.table .passed inner) =>
          if rest.length = 1 then .error (.redefined name)
          else do return Fields.insert name (.table .passed (← assignPath value rest inner)) nodes
      | some (.tables (latest :: earlier)) =>
          if rest.length = 1 then .error (.redefined name)
          else do
            return Fields.insert name (.tables ((← assignPath value rest latest) :: earlier)) nodes
      | some _ => .error (.redefined name)

/-- Change the table that a header names; tables on the way come to be as they are needed, and of
tables in a row the latest is meant. -/
def inside (change : Nodes → Except Fault Nodes) : List String → Nodes → Except Fault Nodes
  | [], nodes => change nodes
  | name :: rest, nodes =>
      match nodes.lookup name with
      | none => do return Fields.insert name (.table .passed (← inside change rest [])) nodes
      | some (.table origin inner) => do
          return Fields.insert name (.table origin (← inside change rest inner)) nodes
      | some (.tables (latest :: earlier)) => do
          return Fields.insert name (.tables ((← inside change rest latest) :: earlier)) nodes
      | some _ => .error (.redefined name)

def openTable (name : String) (nodes : Nodes) : Except Fault Nodes :=
  match nodes.lookup name with
  | none => .ok (Fields.insert name (.table .header []) nodes)
  | some (.table .passed inner) => .ok (Fields.insert name (.table .header inner) nodes)
  | some _ => .error (.redefined name)

def openNext (name : String) (nodes : Nodes) : Except Fault Nodes :=
  match nodes.lookup name with
  | none => .ok (Fields.insert name (.tables [[]]) nodes)
  | some (.tables items) => .ok (Fields.insert name (.tables ([] :: items)) nodes)
  | some _ => .error (.redefined name)

/-- A line that says something. -/
inductive Line
  | entry (path : List String) (value : Toml)
  | header (path : List String)
  /-- the header of the next table of a row -/
  | next (path : List String)
deriving Repr, Inhabited

/-- The tables so far, and the table that entries go to. -/
structure Progress where
  nodes : Nodes := []
  current : List String := []

def Progress.add (progress : Progress) : Line → Except Fault Progress
  | .entry path value => do
      return { progress with
        nodes := ← inside (assignPath value path) progress.current progress.nodes }
  | .header path => do
      let nodes ← inside (openTable (path.getLastD "")) path.dropLast progress.nodes
      return { nodes, current := path }
  | .next path => do
      let nodes ← inside (openNext (path.getLastD "")) path.dropLast progress.nodes
      return { nodes, current := path }

mutual

def Node.close : Node → Toml
  | .value v => v
  | .table _ fields => .table (closeAll fields)
  | .tables items => .list (closeItems items).reverse

def closeAll : List (String × Node) → List (String × Toml)
  | [] => []
  | (name, node) :: rest => (name, node.close) :: closeAll rest

def closeItems : List (List (String × Node)) → List Toml
  | [] => []
  | fields :: rest => .table (closeAll fields) :: closeItems rest

end

/-- The document that lines make. -/
def ofLines (lines : List Line) : Except Fault Toml := do
  let progress ← lines.foldlM Progress.add {}
  return .table (closeAll progress.nodes)

/-- An inline table. -/
def ofPairs (pairs : List (List String × Toml)) : Except Fault Toml := do
  let nodes ← pairs.foldlM (fun nodes pair => assignPath pair.2 pair.1 nodes) []
  return .table (closeAll nodes)

end Courier.Toml
