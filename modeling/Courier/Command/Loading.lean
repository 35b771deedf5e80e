import Courier.Command.Error
import Courier.Config.Source
import Courier.Environment
import Courier.Toml.Reader
/-!
Where a command finds its configuration: in the file that it is told to take or else in the first of
the usual places that exists, and in the variables, which go before the file.
-/
namespace Courier.Command

inductive Found
  | file (octets : Octets)
  | folder
deriving Repr, DecidableEq

/-- What a command finds when it starts. -/
structure Surroundings where
  environment : Environment
  look : String → Option Found

namespace Surroundings

def configVariable : String := "SENDIFY_CONFIG"

/-- The file whose assignments are read like variables. -/
def assignments : String := ".env"

/-- The folder for the configuration of programs. -/
def configFolder? (environment : Environment) : Option String :=
  match environment.get? "XDG_CONFIG_HOME" with
  | some folder =>
      if Text.startsWith folder "/" then some folder
      else (environment.get? "HOME").map (· ++ "/.config")
  | none => (environment.get? "HOME").map (· ++ "/.config")

/-- The places where a configuration file is looked for. -/
def usualPlaces (environment : Environment) : List String :=
  [".sendify.toml", "sendify.toml"] ++
    ((configFolder? environment).map (· ++ "/sendify/config.toml")).toList

def places (environment : Environment) (chosen : Option String) : List String :=
  assignments :: chosen.toList ++ usualPlaces environment

/-- The configuration file, unless there is none: the chosen one, or the first in the usual places
that exists. -/
def configPath? (surroundings : Surroundings) (chosen : Option String) : Option String :=
  chosen.or
    ((usualPlaces surroundings.environment).find? fun path => (surroundings.look path).isSome)

def readConfig (surroundings : Surroundings) (path : String) : Except CommandError Config :=
  match surroundings.look path with
  | none => .error (.missing path)
  | some .folder => .error (.unreadable .folder)
  | some (.file octets) =>
      match octets.toText? with
      | none => .error (.unreadable .notText)
      | some text =>
          match Toml.read text with
          | .error cause => .error (.malformed path (.text cause))
          | .ok document =>
              match Toml.conform Config.shape document with
              | none => .error (.malformed path .shape)
              | some document => .ok (.ofJson document)

/-- The variables together with the assignments of the file for them. -/
def allVariables (surroundings : Surroundings) : Environment :=
  match surroundings.look assignments with
  | some (.file octets) => surroundings.environment.load octets
  | _ => surroundings.environment

/-- The configuration from file and variables. -/
def config (surroundings : Surroundings) (chosen : Option String) : Except CommandError Config := do
  let file ←
    match surroundings.configPath? chosen with
    | some path => surroundings.readConfig path
    | none => .ok {}
  let assigned ← (Config.ofLookup surroundings.allVariables.get?).mapError .setup
  return file.merge assigned

end Surroundings
end Courier.Command
