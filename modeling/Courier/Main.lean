import Courier.Command.Run
import Courier.Delivery
/-!
The command line.  Everything is decided by `Command.begin` and `Command.Ready`; here files and
variables are fetched, flows are carried out in real time, and answers are printed.  No network is
linked into this program, so no server can be reached.
-/
namespace Courier.Main

/-- The world of one run. -/
structure Terminal where
  bucket : TokenBucket Float
  /-- events, the latest first -/
  journal : List Event := []
  generator : StdGen

instance : World Terminal where
  record event terminal := { terminal with journal := event :: terminal.journal }
  random terminal :=
    let (high, generator) := stdNext terminal.generator
    let (middle, generator) := stdNext generator
    let (low, generator) := stdNext generator
    (((high * Nat.pow 2 31 + middle) * Nat.pow 2 31 + low) % Nat.pow 2 64, { terminal with generator })

def limiter (rate : Rate) : Limiter Terminal where
  rate
  bucket := { get := Terminal.bucket, set := fun bucket terminal => { terminal with bucket } }

/-- A network without servers. -/
def transport : Handler Terminal := fun request =>
  .done (.error
    (if request.isSendable then request.isolation ["no network is linked into this program"]
      else request.refusal))

/-- The variables that the program is started with. -/
def readVariables : IO Environment := do
  let octets ← try IO.FS.readBinFile "/proc/self/environ" catch _ => pure .empty
  let entries := (Text.splitList (· == 0) octets.toList).filterMap fun (entry : Octets) =>
    entry.toText?.bind (Text.splitOnce '=')
  return ⟨entries⟩

def find (path : String) : IO (Option Command.Found) := do
  try
    return some (.file (← IO.FS.readBinFile path).toList)
  catch
    | .noFileOrDirectory .. => return none
    | _ => return some .folder

/-- Carry a flow out; moments are counted from `origin`. -/
partial def perform {α : Type} (origin : Nat) (terminal : Terminal) :
    Flow Terminal α → IO (α × Terminal)
  | .done a => return (a, terminal)
  | .await poll next => do
      let now := (← IO.monoNanosNow) - origin
      match poll now terminal with
      | (.ready b, terminal) => perform origin terminal (next b)
      | (.later wake, terminal) => do
          IO.sleep ((wake - now) / 1000000 + 1).toUInt32
          perform origin terminal (.await poll next)

/-- An entry of the log as a line. -/
def logLine (format : Command.LogFormat) (entry : Command.LogEntry) : String :=
  match format with
  | .json =>
      (Json.ofFields [("level", .string entry.level.label), ("target", .string entry.target),
        ("message", .string entry.message)]).compact
  | _ => s!"{entry.level.label} {entry.target}: {entry.message}"

/-- Print what a run comes to. -/
def finish (ending : Command.Ending) : IO UInt32 := do
  let stdout ← IO.getStdout
  let stderr ← IO.getStderr
  for entry in ending.log do
    stderr.putStrLn (logLine ending.format entry)
  stdout.write ⟨ending.output.toArray⟩
  stdout.flush
  for line in ending.complaints do
    stderr.putStrLn line
  return ending.status.toUInt32

def run (words : List String) : IO UInt32 := do
  let environment ← readVariables
  let fallback := environment.get? Command.Surroundings.configVariable
  let chosen := (Command.Options.read fallback words).toOption.bind fun options => options.config
  let found ← (Command.Surroundings.places environment chosen).mapM fun path => do
    return (path, ← find path)
  match Command.begin { environment, look := fun path => (found.lookup path).join } words with
  | .over ending => finish ending
  | .ready run => do
      let origin ← IO.monoNanosNow
      let bucket : TokenBucket Float := .full (run.settings.rate.getD (.perSecond 1)) 0
      let start : Terminal := { bucket, generator := mkStdGen (← IO.rand 0 (Nat.pow 2 62)) }
      let (result, terminal) ← perform origin start (run.send limiter transport)
      finish (run.ending result terminal.journal.reverse)

end Courier.Main

def main (words : List String) : IO UInt32 :=
  Courier.Main.run words
