import Courier.Decimal.Integer
import Courier.Environment
import Courier.Event
/-!
Which events a command writes into its log.  Every event comes from a part of the program; a filter
says, part by part, from which level on events are let through, and for each event the most specific
directive decides.
-/
namespace Courier.Command

structure LogEntry where
  /-- the part of the program that it comes from -/
  target : String
  level : Level
  message : String
deriving Repr, DecidableEq, Inhabited

namespace LogEntry

/-- The part of a client that reports an event. -/
def targetOf : Event → String
  | .waiting _ => "sendify_http::http::rate_limit"
  | .sending .. | .retrying .. => "sendify_http::http::client"
  | _ => "sendify_http::http::middleware"

def ofEvent (event : Event) : LogEntry :=
  ⟨targetOf event, event.level, event.message⟩

end LogEntry

/-- From which level on events are let through; without one none is. -/
abbrev Threshold := Option Level

/-- Read a threshold: a level's name in any case, or a number. -/
def readThreshold? (word : String) : Option Threshold :=
  match Decimal.readNat Decimal.max64 word with
  | .ok n =>
      [none, some Level.error, some .warning, some .info, some .debug, some .trace][n]?
  | .error _ =>
      let word := Text.lowerAscii word
      if word = "off" then some none
      else
        ([Level.error, .warning, .info, .debug, .trace].find? fun level =>
          Text.lowerAscii level.label = word).map some

/-- Lets events of one part of the program through from a level on. -/
structure Directive where
  /-- what the names of the part begin with -/
  target : String := ""
  threshold : Threshold
deriving Repr, DecidableEq, Inhabited

namespace Directive

/-- May a directive begin with the character? -/
def isStart (c : Char) : Bool :=
  c.isAlphanum || c == '-' || c == ':' || c == '_' || 0x80 ≤ c.toNat

/-- Read a directive: a level, a part of the program, or both with a sign of equality. -/
def read? (text : String) : Option Directive := do
  let text := Text.trim text
  let first ← text.toList.head?
  guard (isStart first)
  match Text.splitOnce '=' text with
  | none =>
      match readThreshold? text with
      | some threshold => return { threshold }
      | none => return { target := text, threshold := some .trace }
  | some (target, "") => return { target, threshold := some .trace }
  | some (target, level) => return { target, threshold := ← readThreshold? level }

def covers (directive : Directive) (target : String) : Bool :=
  Text.startsWith target directive.target

def allows (directive : Directive) (level : Level) : Bool :=
  match directive.threshold with
  | none => false
  | some threshold => threshold.rank ≤ level.rank

end Directive

/-- Directives, of which the later counts among those for one part. -/
abbrev Filter := List Directive

namespace Filter

/-- The more specific of two directives, the second of two that are equally specific. -/
def pick (a b : Directive) : Directive :=
  if b.target.length < a.target.length then a else b

/-- The most specific directive for a part of the program. -/
def directiveFor? (filter : Filter) (target : String) : Option Directive :=
  (filter.filter fun directive => directive.covers target).foldl
    (fun best directive => some ((best.map fun best => pick best directive).getD directive)) none

def allows (filter : Filter) (entry : LogEntry) : Bool :=
  ((filter.directiveFor? entry.target).map fun d => d.allows entry.level).getD false

/-- Read directives between commas; without any, errors are let through. -/
def read? (text : String) : Option Filter :=
  if text.isEmpty then some [{ threshold := some Level.error }]
  else
    (Text.splitList (· == ',') text.toList).mapM fun part => Directive.read? (String.ofList part)

end Filter

inductive LogFormat
  | compact
  | full
  | json
deriving Repr, DecidableEq, Inhabited

/-- The log of a command; without a filter there is none. -/
structure Logging where
  filter : Option Filter
  format : LogFormat
  /-- what is wrong with the variables that set the log up -/
  complaints : List String := []
deriving Repr, Inhabited

namespace Logging

def filterVariable : String := "RUST_LOG"
def formatVariable : String := "SENDIFY_LOG_FORMAT"

/-- The level that goes with so many flags. -/
def levelOf : Nat → String
  | 0 => "warn"
  | 1 => "info"
  | 2 => "debug"
  | _ => "trace"

def formatOf? (name : String) : Option LogFormat :=
  match Text.lowerAscii name with
  | "compact" => some .compact
  | "full" => some .full
  | "json" => some .json
  | _ => none

/-- Set the log up.  A quiet command logs errors only, whatever the variables say. -/
def setUp (environment : Environment) (verbosity : Nat) (quiet : Bool) : Logging :=
  let standard : LogFormat := if verbosity < 3 then .compact else .full
  let (format, complaints) :=
    match environment.get? formatVariable with
    | none => (standard, [])
    | some name =>
        match formatOf? name with
        | some format => (format, [])
        | none => (standard, [s!"Invalid log format: {name}, using default"])
  let directives :=
    if quiet then "error" else (environment.get? filterVariable).getD (levelOf verbosity)
  match Filter.read? directives with
  | some filter => { filter := some filter, format, complaints }
  | none =>
      { filter := none, format,
        complaints := complaints ++
          [s!"Failed to initialize logging: Invalid log level '{directives}'"] }

def select (logging : Logging) (entries : List LogEntry) : List LogEntry :=
  match logging.filter with
  | none => []
  | some filter => entries.filter filter.allows

end Logging
end Courier.Command
