import Courier.Client
import Courier.Command.Arguments
import Courier.Command.Loading
import Courier.Command.Logging
import Courier.Json.Printer
/-!
One run of the command: from its words and surroundings to a request, and from what becomes of the
request to what is printed and the status at the end.
-/
namespace Courier.Command

structure Ending where
  status : Nat
  /-- what is printed -/
  output : Octets := []
  /-- what is said about failures, line by line -/
  complaints : List String := []
  /-- what is written into the log -/
  log : List LogEntry := []
  format : LogFormat := .compact
deriving Repr, Inhabited

namespace Options

/-- What the words say about the client. -/
def overrides (options : Options) : Except SetupError Config := do
  let limit ←
    match options.rateLimit with
    | none => .ok none
    | some text => (Config.Limit.parse text).map some
  return {
    baseUrl := options.baseUrl
    timeoutMillis := options.timeoutMillis
    retry := options.attempts.map fun n => { maxAttempts := some n }
    limit }

/-- Split `Name: value`. -/
def splitHeader (word : String) : Except ArgumentFault (String × String) :=
  match Text.splitOnce ':' word with
  | none => .error (.headerForm word)
  | some (name, value) =>
      let name := Text.trim name
      if name.isEmpty then .error (.headerName word) else .ok (name, Text.trim value)

/-- Split `key=value`. -/
def splitPair (word : String) : Except ArgumentFault (String × String) :=
  match Text.splitOnce '=' word with
  | none => .error (.queryForm word)
  | some (key, value) => if key.isEmpty then .error (.queryKey word) else .ok (key, value)

/-- The body of the request: text as it is, or the document that it writes. -/
def body (options : Options) : Except Json.ReadError (Option Body) :=
  match options.data with
  | none => .ok none
  | some data =>
      if options.json then
        (Json.read (Octets.ofText data)).map fun document => some (.json (.ofJson document))
      else .ok (some (.text data))

def request (options : Options) : Except CommandError Request := do
  let some method := Method.parse? (String.ofList (options.method.toList.map Char.toUpper))
    | throw (.argument (.method options.method))
  let headers ← (options.headers.mapM splitHeader).mapError .argument
  let query ← (options.query.mapM splitPair).mapError .argument
  let body ← options.body.mapError .data
  return { method, path := options.path, headers, query, body }

/-- What a body is printed as: a document is spread over lines where that is wanted. -/
def page (options : Options) (body : Octets) : Octets :=
  if body.isEmpty then []
  else
    match options.json, Json.read body with
    | true, .ok document => Octets.ofText (document.pretty ++ "\n")
    | _, _ => if body.getLast? = some 10 then body else body ++ [10]

def report (options : Options) (response : Response) : Octets :=
  let head :=
    if options.quiet then ""
    else if 1 < response.attempts then
      s!"{response.statusText}\nattempts: {response.attempts}\n"
    else s!"{response.statusText}\n"
  Octets.ofText head ++ options.page response.body

end Options

structure Ready where
  options : Options
  settings : Settings
  request : Request
  logging : Logging
  /-- what the log already says -/
  entries : List LogEntry

/-- How a run begins: it is over before any request, or there is one to send. -/
inductive Beginning
  | over (ending : Ending)
  | ready (run : Ready)

/-- What `--help` prints. -/
def usage : String :=
  "Usage: sendify [OPTIONS] request [OPTIONS] <PATH>\n"

def Halt.ending : Halt → Ending
  | .help => { status := 0, output := Octets.ofText usage }
  | .version .outer => { status := 0, output := Octets.ofText s!"sendify {Courier.version}\n" }
  | .version .inner =>
      { status := 0, output := Octets.ofText s!"sendify-request {Courier.version}\n" }
  | .misuse cause => { status := 2, complaints := [s!"error: {cause.message}"] }

def plan (surroundings : Surroundings) (options : Options) :
    Except CommandError (Settings × Request) := do
  let config ← surroundings.config options.config
  let config := config.merge (← options.overrides.mapError .setup)
  let draft ← (config.draft surroundings.allVariables.get?).mapError .setup
  let settings ← draft.check.mapError .setup
  return (settings, ← options.request)

/-- What the log says before the request is sent. -/
def openingEntries (surroundings : Surroundings) (options : Options) : List LogEntry :=
  let found :=
    if options.config.isNone && (surroundings.configPath? none).isSome then
      [⟨"sendify::config", .debug, "Loading configuration"⟩]
    else []
  [⟨"sendify::logging", .debug, "Logging system initialized"⟩,
    ⟨"sendify", .debug, "Loading configuration"⟩] ++ found

/-- Read the words after the program's name and prepare what they ask for. -/
def begin (surroundings : Surroundings) (words : List String) : Beginning :=
  match Options.read (surroundings.environment.get? Surroundings.configVariable) words with
  | .error halt => .over halt.ending
  | .ok options =>
      let logging := Logging.setUp surroundings.environment options.loudness options.quiet
      let entries := openingEntries surroundings options
      match plan surroundings options with
      | .ok (settings, request) => .ready { options, settings, request, logging, entries }
      | .error e =>
          .over
            { status := e.status, complaints := logging.complaints ++ e.lines
              log := logging.select entries, format := logging.format }

namespace Ready

/-- The middleware of the command's client; bodies are logged when much is to be said. -/
def middlewares {σ : Type} [World σ] (run : Ready) : List (Middleware σ) :=
  [.requestId Middleware.requestIdHeader,
    .logging .standard (if 2 ≤ run.options.loudness then some {} else none)]

def send {σ : Type} [World σ] (run : Ready) (limiter : Rate → Limiter σ) (transport : Handler σ) :
    Flow σ (Except Failure Response) :=
  let client : Client σ :=
    { settings := run.settings, limiter := run.settings.rate.map limiter
      middlewares := run.middlewares, transport }
  client.execute .unbounded run.request

/-- How the run ends with what became of the request and the events on the way. -/
def ending (run : Ready) (result : Except Failure Response) (events : List Event) :
    Ending :=
  let log := run.logging.select (run.entries ++ events.map LogEntry.ofEvent)
  match result with
  | .ok response =>
      { status := 0, output := run.options.report response
        complaints := run.logging.complaints, log, format := run.logging.format }
  | .error failure =>
      let e := CommandError.request failure
      { status := e.status
        output := (e.response?.map run.options.report).getD []
        complaints := run.logging.complaints ++ e.lines, log, format := run.logging.format }

end Ready
end Courier.Command
