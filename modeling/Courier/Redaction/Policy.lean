import Courier.Header
import Courier.Json.Basic
import Courier.Redaction.Credential
import Courier.Text.Ascii
import Courier.Url.Basic
/-!
Redaction policies: which names mark a value that must not be shown, and how headers, URLs and
documents look without those values.
-/
namespace Courier

/-- Names that are sensitive as a whole, and texts that make a name sensitive wherever they occur in
it; both in lower case. -/
structure RedactionPolicy where
  names : List String
  patterns : List String
deriving Repr, DecidableEq, Inhabited

namespace RedactionPolicy

/-- A policy for these names and patterns, whatever their letter case. -/
def ofNames (names patterns : List String) : RedactionPolicy :=
  ⟨names.map Text.lowerAscii, patterns.map Text.lowerAscii⟩

/-- Headers that carry credentials, and names that hint at them. -/
def standard : RedactionPolicy :=
  ofNames
    ["authorization", "proxy-authorization", "cookie", "set-cookie", "x-api-key", "x-auth-token"]
    ["token", "secret", "password", "key"]

def nothing : RedactionPolicy := ⟨[], []⟩

def addName (policy : RedactionPolicy) (name : String) : RedactionPolicy :=
  { policy with names := policy.names ++ [Text.lowerAscii name] }

def addPattern (policy : RedactionPolicy) (pattern : String) : RedactionPolicy :=
  { policy with patterns := policy.patterns ++ [Text.lowerAscii pattern] }

/-- Does the name mark a value that must not be shown? -/
def isSensitive (policy : RedactionPolicy) (name : String) : Bool :=
  let name := Text.lowerAscii name
  policy.names.contains name || policy.patterns.any fun pattern => Text.contains name pattern

/-- The values of one header as shown. -/
def showValues (policy : RedactionPolicy) (headers : Headers) (name : HeaderName) : String :=
  if policy.isSensitive name.text then Redaction.redacted
  else
    Text.join ", " ((headers.getAll name).map fun value => Text.Utf8.decodeLenient value.octets)

/-- Headers as shown, ordered by name. -/
def showHeaders (policy : RedactionPolicy) (headers : Headers) : List (String × String) :=
  Fields.ofList (headers.names.map fun name => (name.text, policy.showValues headers name))

/-- A pair of a query as shown: decoded, and without a value that must not be seen. -/
def showPair (policy : RedactionPolicy) (pair : String × String) : String :=
  pair.1 ++ "=" ++ (if policy.isSensitive pair.1 then Redaction.redacted else pair.2)

/-- A URL as shown.  When a pair of its query is sensitive the query is written with all its pairs
decoded and the fragment is dropped. -/
def showUrl (policy : RedactionPolicy) (url : Url) : String :=
  if url.pairs.any fun pair => policy.isSensitive pair.1 then
    url.bare.toText ++ "?" ++ Text.join "&" (url.pairs.map policy.showPair)
  else url.toText

mutual

/-- A document without the values under sensitive names, at any depth. -/
def redactJson (policy : RedactionPolicy) : Json → Json
  | .object fields => .object (redactFields policy fields)
  | .array items => .array (redactItems policy items)
  | document => document

def redactFields (policy : RedactionPolicy) : List (String × Json) → List (String × Json)
  | [] => []
  | (name, value) :: rest =>
      (name, if policy.isSensitive name then .string Redaction.redacted
        else redactJson policy value) :: redactFields policy rest

def redactItems (policy : RedactionPolicy) : List Json → List Json
  | [] => []
  | item :: rest => redactJson policy item :: redactItems policy rest

end

end RedactionPolicy
end Courier
