import Courier.Decimal.Integer
import Courier.Settings
/-!
The words after the name of the program.  Some flags stand on two levels, before the word `request`
and after it; the inner one counts.  A flag may have one letter or a name, a value may be joined to
it, and after two dashes no word is a flag.
-/
namespace Courier.Command

inductive Flag
  | verbose
  | quiet
  | config
  | help
  | version
  | baseUrl
  | method
  | header
  | query
  | data
  | json
  | retries
  | rateLimit
  | timeout
deriving Repr, DecidableEq, Inhabited

/-- Before the word `request`, or after it. -/
inductive Position
  | outer
  | inner
deriving Repr, DecidableEq

namespace Flag

def all : List Flag :=
  [.verbose, .quiet, .config, .help, .version, .baseUrl, .method, .header, .query, .data, .json,
    .retries, .rateLimit, .timeout]

def name : Flag → String
  | .verbose => "verbose"
  | .quiet => "quiet"
  | .config => "config"
  | .help => "help"
  | .version => "version"
  | .baseUrl => "base-url"
  | .method => "method"
  | .header => "header"
  | .query => "query"
  | .data => "data"
  | .json => "json"
  | .retries => "retries"
  | .rateLimit => "rate-limit"
  | .timeout => "timeout-ms"

def letter? : Flag → Option Char
  | .verbose => some 'v'
  | .config => some 'c'
  | .help => some 'h'
  | .version => some 'V'
  | .method => some 'X'
  | .header => some 'H'
  | .query => some 'q'
  | .data => some 'd'
  | _ => none

def isKnown (flag : Flag) : Position → Bool
  | .outer => [Flag.verbose, .quiet, .config, .help, .version].contains flag
  | .inner => true

def wantsValue (flag : Flag) : Bool :=
  !([Flag.verbose, .quiet, .help, .version, .json].contains flag)

def isRepeatable (flag : Flag) : Bool :=
  [Flag.verbose, .header, .query].contains flag

def ofName? (position : Position) (name : String) : Option Flag :=
  all.find? fun flag => flag.isKnown position && flag.name = name

def ofLetter? (position : Position) (c : Char) : Option Flag :=
  all.find? fun flag => flag.isKnown position && flag.letter? = some c

end Flag

inductive Misuse
  | unknownFlag (word : String)
  | missingValue (flag : Flag)
  | unwantedValue (flag : Flag)
  | badValue (flag : Flag) (value : String)
  | repeatedFlag (flag : Flag)
  | strayWord (word : String)
  | contradiction
  | noCommand
  | noPath
deriving Repr, DecidableEq

def Misuse.message : Misuse → String
  | .unknownFlag word => s!"unexpected argument '{word}' found"
  | .missingValue flag => s!"a value is required for '--{flag.name}' but none was supplied"
  | .unwantedValue flag => s!"unexpected value for '--{flag.name}' found; no more were expected"
  | .badValue flag value => s!"invalid value '{value}' for '--{flag.name}'"
  | .repeatedFlag flag => s!"the argument '--{flag.name}' cannot be used multiple times"
  | .strayWord word => s!"unexpected argument '{word}' found"
  | .contradiction => "the argument '--quiet' cannot be used with '--verbose'"
  | .noCommand => "a subcommand is required but one was not provided"
  | .noPath => "the required argument <PATH> was not provided"

/-- Why the words ask for no request. -/
inductive Halt
  | help
  | version (position : Position)
  | misuse (cause : Misuse)
deriving Repr, DecidableEq

/-- What was given at one position. -/
structure Given where
  flags : List (Flag × String) := []
  words : List String := []
deriving Repr, DecidableEq, Inhabited

namespace Given

def has (given : Given) (flag : Flag) : Bool :=
  given.flags.any fun entry => entry.1 = flag

def all (given : Given) (flag : Flag) : List String :=
  (given.flags.filter fun entry => entry.1 = flag).map (·.2)

def value? (given : Given) (flag : Flag) : Option String :=
  given.flags.lookup flag

end Given

/-- The least value of a flag is zero; a sign may stand in front. -/
def readAttempts? (value : String) : Option Nat :=
  match Decimal.readInt Decimal.maxSigned64 value with
  | .ok n => if 0 ≤ n ∧ n ≤ Decimal.max32 then some n.toNat else none
  | .error _ => none

def readMillis? (value : String) : Option Nat :=
  (Decimal.readNat Decimal.max64 value).toOption

def Flag.accepts (flag : Flag) (value : String) : Bool :=
  match flag with
  | .config => !value.isEmpty
  | .retries => (readAttempts? value).isSome
  | .timeout => (readMillis? value).isSome
  | _ => true

/-- Note a flag with its value. -/
def Given.addFlag (given : Given) (position : Position) (flag : Flag) (value : String) :
    Except Halt Given :=
  match flag with
  | .help => .error .help
  | .version => .error (.version position)
  | flag =>
      if given.has flag && !flag.isRepeatable then .error (.misuse (.repeatedFlag flag))
      else if flag.accepts value then .ok { given with flags := given.flags ++ [(flag, value)] }
      else .error (.misuse (.badValue flag value))

/-- Note a word that is no flag; there is one at most, and only after the command. -/
def Given.addWord (given : Given) (position : Position) (word : String) : Except Halt Given :=
  match position, given.words with
  | .inner, [] => .ok { given with words := [word] }
  | _, _ => .error (.misuse (.strayWord word))

/-- Letters behind one dash; the last may be a flag that still waits for its value. -/
def readLetters (position : Position) (given : Given) :
    List Char → Except Halt (Given × Option Flag)
  | [] => .ok (given, none)
  | c :: rest =>
      match Flag.ofLetter? position c with
      | none => .error (.misuse (.unknownFlag ("-" ++ c.toString)))
      | some flag =>
          if flag.wantsValue then
            match rest with
            | [] => .ok (given, some flag)
            | '=' :: value => do
                return (← given.addFlag position flag (String.ofList value), none)
            | value => do
                return (← given.addFlag position flag (String.ofList value), none)
          else do readLetters position (← given.addFlag position flag "") rest

/-- A name behind two dashes, with or without a value joined to it. -/
def readNamed (position : Position) (given : Given) (word : String) :
    Except Halt (Given × Option Flag) :=
  let (name, value) :=
    match Text.splitOnce '=' word with
    | some (name, value) => (name, some value)
    | none => (word, none)
  match Flag.ofName? position name with
  | none => .error (.misuse (.unknownFlag ("--" ++ name)))
  | some flag =>
      match flag.wantsValue, value with
      | true, some value => do return (← given.addFlag position flag value, none)
      | true, none => .ok (given, some flag)
      | false, none => do return (← given.addFlag position flag "", none)
      | false, some _ => .error (.misuse (.unwantedValue flag))

/-- A word that looks like flags: two dashes and a name, or one dash and letters. -/
def readFlags? (position : Position) (given : Given) (word : String) :
    Option (Except Halt (Given × Option Flag)) :=
  match word.toList with
  | '-' :: '-' :: name => some (readNamed position given (String.ofList name))
  | '-' :: c :: letters => some (readLetters position given (c :: letters))
  | _ => none

/-- Words of which none is a flag. -/
def readRest (position : Position) (given : Given) (words : List String) : Except Halt Given :=
  words.foldlM (fun given word => given.addWord position word) given

/-- What the words after `help` ask for: help on the whole, or on one command. -/
def readHelp : List String → Halt
  | [] => .help
  | [word] =>
      if word = "request" ∨ word = "help" then .help else .misuse (.strayWord word)
  | _ :: word :: _ => .misuse (.strayWord word)

/-- Read the words at a position.  At the outer one the command ends them, and the words after it
are left. -/
def readWords (position : Position) (given : Given) (pending : Option Flag) :
    List String → Except Halt (Given × Option (List String))
  | [] =>
      match pending with
      | some flag => .error (.misuse (.missingValue flag))
      | none => .ok (given, none)
  | word :: rest =>
      match pending with
      | some flag =>
          if (readFlags? position given word).isSome then .error (.misuse (.missingValue flag))
          else do readWords position (← given.addFlag position flag word) none rest
      | none =>
          if position = .outer ∧ word = "request" then .ok (given, some rest)
          else if position = .outer ∧ word = "help" then .error (readHelp rest)
          else if word = "--" then do return (← readRest position given rest, none)
          else
            match readFlags? position given word with
            | some (.error halt) => .error halt
            | some (.ok (given, pending)) => readWords position given pending rest
            | none => do readWords position (← given.addWord position word) none rest

/-- What the words ask for. -/
structure Options where
  /-- how much is to be said, more with every flag -/
  verbosity : Nat := 0
  quiet : Bool := false
  config : Option String := none
  path : String
  baseUrl : Option String := none
  method : String := "GET"
  headers : List String := []
  query : List String := []
  data : Option String := none
  json : Bool := false
  attempts : Option Nat := none
  rateLimit : Option String := none
  timeoutMillis : Option Nat := none
deriving Repr, DecidableEq, Inhabited

/-- Flags that contradict each other may not stand at one position. -/
def Given.checkHarmony (given : Given) : Except Halt Unit :=
  if given.has .quiet && given.has .verbose then .error (.misuse .contradiction) else .ok ()

/-- The configuration file from the variable for it, at a position where no flag names one. -/
def Given.checkFallback (given : Given) (fallback : Option String) : Except Halt Unit :=
  if !given.has .config && fallback == some "" then .error (.misuse (.badValue .config ""))
  else .ok ()

/-- Read the words after the program's name.  `fallback` is the configuration file to take when no
flag names one. -/
def Options.read (fallback : Option String) (words : List String) : Except Halt Options := do
  let (outer, command) ← readWords .outer {} none words
  let some rest := command | throw (.misuse .noCommand)
  let (inner, _) ← readWords .inner {} none rest
  inner.checkFallback fallback
  inner.checkHarmony
  let some path := inner.words.head? | throw (.misuse .noPath)
  outer.checkFallback fallback
  outer.checkHarmony
  let loud := if inner.has .verbose then inner else outer
  return {
    verbosity := (loud.all .verbose).length
    quiet := inner.has .quiet || outer.has .quiet
    config := ((inner.value? .config).or (outer.value? .config)).or fallback
    path
    baseUrl := inner.value? .baseUrl
    method := (inner.value? .method).getD "GET"
    headers := inner.all .header
    query := inner.all .query
    data := inner.value? .data
    json := inner.has .json
    attempts := (inner.value? .retries).bind readAttempts?
    rateLimit := inner.value? .rateLimit
    timeoutMillis := (inner.value? .timeout).bind readMillis? }

/-- How much is said. -/
def Options.loudness (options : Options) : Nat :=
  if options.quiet then 0 else options.verbosity

end Courier.Command
