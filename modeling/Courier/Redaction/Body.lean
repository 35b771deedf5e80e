import Courier.Decimal.Format
import Courier.Decimal.Nearest
import Courier.Json.Printer
import Courier.Json.Reader
import Courier.Redaction.Policy
import Courier.Text.Blank
/-!
Bodies in a log line.  Binary and large bodies are only counted; in a JSON document long strings are
only counted and sensitive values are masked; in any other text credentials are masked.
-/
namespace Courier

/-- A count of bytes for people: `512B`, `1.5KB`, `2.0MB`. -/
def byteCount (n : Nat) : String :=
  let tenths (unit : Nat) : String :=
    let d := Decimal.Dyadic.ofBits (Decimal.nearestBits n 1)
    let t := Decimal.divNearest (10 * d.mantissa * Nat.pow 2 d.exponent.toNat)
      (unit * Nat.pow 2 (-d.exponent).toNat)
    s!"{t / 10}.{t % 10}"
  if 1024 * 1024 ≤ n then tenths (1024 * 1024) ++ "MB"
  else if 1024 ≤ n then tenths 1024 ++ "KB"
  else s!"{n}B"

/-- Bounds on what a log line shows of a body, in octets. -/
structure LogLimits where
  body : Nat := 4096
  string : Nat := 1024
deriving Repr, DecidableEq, Inhabited

namespace LogLimits

/-- Beginnings of content types whose bodies are not text. -/
def binaryTypes : List String :=
  ["image/", "video/", "audio/", "application/octet-stream", "application/pdf",
    "application/zip", "application/gzip", "application/x-tar"]

/-- Is the body no text? -/
def isBinaryType (contentType : String) : Bool :=
  let contentType := Text.lowerAscii (Text.trim contentType)
  binaryTypes.any fun start => Text.startsWith contentType start

/-- A string, or its size when it is long. -/
def shorten (limits : LogLimits) (s : String) : String :=
  if limits.string < s.utf8ByteSize then s!"[string: {byteCount s.utf8ByteSize} truncated]" else s

mutual

/-- A document whose long strings are replaced by their sizes. -/
def shortenJson (limits : LogLimits) : Json → Json
  | .string s => .string (limits.shorten s)
  | .object fields => .object (shortenFields limits fields)
  | .array items => .array (shortenItems limits items)
  | document => document

def shortenFields (limits : LogLimits) : List (String × Json) → List (String × Json)
  | [] => []
  | (name, value) :: rest => (name, shortenJson limits value) :: shortenFields limits rest

def shortenItems (limits : LogLimits) : List Json → List Json
  | [] => []
  | item :: rest => shortenJson limits item :: shortenItems limits rest

end

/-- A body as shown in a log line; an empty one is not shown. -/
def showBody (limits : LogLimits) (policy : RedactionPolicy) (contentType : String)
    (body : Octets) : Option String :=
  if body.isEmpty then none
  else if isBinaryType contentType then some s!"[binary: {byteCount body.length}]"
  else if limits.body < body.length then some s!"[body: {byteCount body.length} truncated]"
  else
    let text := Redaction.maskCredentials (Text.Utf8.decodeLenient body)
    if Text.contains (Text.lowerAscii contentType) "json" then
      match Json.read body with
      | .ok document => some (policy.redactJson (limits.shortenJson document)).compact
      | .error _ => some text
    else some text

end LogLimits
end Courier
