import Courier.Failure
import Courier.Settings
import Courier.Toml.Table
/-!
Why a command fails, what it says about it, and the status with which it ends.
-/
namespace Courier.Command

inductive FileFault
  | folder
  | notText
deriving Repr, DecidableEq

def FileFault.message : FileFault → String
  | .folder => "Is a directory (os error 21)"
  | .notText => "stream did not contain valid UTF-8"

/-- Why words are no part of a request. -/
inductive ArgumentFault
  | method (word : String)
  | headerForm (word : String)
  | headerName (word : String)
  | queryForm (word : String)
  | queryKey (word : String)
deriving Repr, DecidableEq

def ArgumentFault.message : ArgumentFault → String
  | .method word => s!"invalid HTTP method '{word}'"
  | .headerForm word => s!"header '{word}' must look like 'Name: value'"
  | .headerName word => s!"header '{word}' has an empty name"
  | .queryForm word => s!"query parameter '{word}' must look like key=value"
  | .queryKey word => s!"query parameter '{word}' has an empty key"

/-- Why a configuration file does not configure a client. -/
inductive ConfigFault
  | text (cause : Toml.Fault)
  /-- the document does not have the shape of a configuration -/
  | shape
deriving Repr, DecidableEq

def ConfigFault.message : ConfigFault → String
  | .text cause => cause.message
  | .shape => "unexpected type of a value"

inductive CommandError
  | unreadable (cause : FileFault)
  | missing (path : String)
  | malformed (path : String) (cause : ConfigFault)
  | setup (cause : SetupError)
  | argument (cause : ArgumentFault)
  | data (cause : Json.ReadError)
  | request (cause : Failure)

namespace CommandError

def message : CommandError → String
  | .unreadable cause => s!"IO error: {cause.message}"
  | .missing path => s!"File not found: {path}"
  | .malformed path cause => s!"Invalid file format for {path}: {cause.message}"
  | .setup cause => cause.message
  | .argument cause => s!"Invalid arguments: {cause.message}"
  | .data cause => s!"JSON error: {cause.message}"
  | .request cause => s!"{cause.message} [{cause.kind.label}]"

/-- The messages of the causes that the message does not tell. -/
def causes : CommandError → List String
  | .unreadable cause => [cause.message]
  | .setup cause => cause.causes
  | .data cause => [cause.message]
  | .request cause => cause.causes.drop 1
  | _ => []

/-- The status with which a failed request ends the command. -/
def statusOf : FailureKind → Nat
  | .timeout => 20
  | .network => 21
  | .http => 22
  | .parse => 23
  | .rateLimit => 24
  | .unknown => 25

def status : CommandError → Nat
  | .unreadable _ => 1
  | .missing _ => 3
  | .malformed .. => 4
  | .setup _ => 5
  | .argument _ => 6
  | .data _ => 12
  | .request cause => statusOf cause.kind

/-- What is said about the failure, line by line. -/
def lines (e : CommandError) : List String :=
  let hint :=
    match e with
    | .argument _ => ["", "For more information, try '--help'"]
    | _ => []
  (s!"Error: {e.message}" :: e.causes.map fun cause => s!"  caused by: {cause}") ++ hint

/-- The answer that came although the request failed. -/
def response? : CommandError → Option Response
  | .request cause => cause.response
  | _ => none

end CommandError
end Courier.Command
