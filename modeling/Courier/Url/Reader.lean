import Courier.Text.Blank
import Courier.Url.Basic
/-!
Reading URLs.  Tabs and line ends count for nothing, nor do blanks and controls at the two ends.
Paths are brought to their one form on the way: escapes are added where they are due, `.` segments
vanish and each `..` takes the segment before it away, but never more than there is.
-/
namespace Courier.Url

/-- Tabs and line ends, which count for nothing. -/
def isSkipped (c : Char) : Bool :=
  c == '\t' || c == '\n' || c == '\x0d'

def isSegmentDot (s : String) : Bool :=
  s = "." || Text.lowerAscii s = "%2e"

def isSegmentDotDot (s : String) : Bool :=
  [ "..", "%2e.", ".%2e", "%2e%2e" ].contains (Text.lowerAscii s)

/-- Take one raw segment, of which `last` says that no slash follows, into the segments before it,
which are in reverse. -/
def pushSegment (before : List String) (raw : List Char) (last : Bool) : List String :=
  let segment := String.ofList (Percent.encode Percent.inPath raw)
  if isSegmentDotDot segment then
    if last then "" :: before.drop 1 else before.drop 1
  else if isSegmentDot segment then
    if last then "" :: before else before
  else segment :: before

def pushSegments (before : List String) : List (List Char) → List String
  | [] => before
  | [raw] => pushSegment before raw true
  | raw :: rest => pushSegments (pushSegment before raw false) rest

def isSlash (special : Bool) (c : Char) : Bool :=
  c == '/' || (special && c == '\\')

/-- A path without its first slash as segments. -/
def readSegments (special : Bool) (cs : List Char) : List String :=
  (pushSegments [] (Text.splitList (isSlash special) cs)).reverse

/-- The path after a host.  Under special schemes there always is one. -/
def readPath (special : Bool) (cs : List Char) : List String :=
  match cs with
  | [] => if special then [""] else []
  | c :: rest =>
      if isSlash special c then readSegments special rest else readSegments special (c :: rest)

/-- The path of a file: slashes at its front count as one. -/
def readFilePath (cs : List Char) : List String :=
  let rest := match cs with
    | c :: rest => if isSlash true c then rest else c :: rest
    | [] => []
  let parts := readSegments true rest
  let body := parts.dropWhile (·.isEmpty)
  if body.isEmpty then [""] else body

/-- The scheme and what follows its colon. -/
def splitScheme? (cs : List Char) : Option (String × List Char) :=
  let isSchemeChar (c : Char) : Bool := c.isAlphanum || c == '+' || c == '-' || c == '.'
  match cs with
  | [] => none
  | c :: _ =>
      if c.isAlpha then
        match cs.dropWhile isSchemeChar with
        | ':' :: rest => some (String.ofList ((cs.takeWhile isSchemeChar).map Char.toLower), rest)
        | _ => none
      else none

/-- The part of the characters up to a `?` or a `#`, the query and the fragment. -/
def splitTail (cs : List Char) : List Char × Option (List Char) × Option (List Char) :=
  let body := cs.takeWhile (· != '#')
  let fragment :=
    match cs.dropWhile (· != '#') with
    | _ :: rest => some rest
    | [] => none
  let path := body.takeWhile (· != '?')
  let query :=
    match body.dropWhile (· != '?') with
    | _ :: rest => some rest
    | [] => none
  (path, query, fragment)

def encodeQuery (special : Bool) (cs : List Char) : String :=
  String.ofList (Percent.encode (if special then Percent.inSpecialQuery else Percent.inQuery) cs)

def encodeFragment (cs : List Char) : String :=
  String.ofList (Percent.encode Percent.inFragment cs)

/-- The part of an authority before its last `@`, if it has one, and the part after it. -/
def splitUserInfo (cs : List Char) : Option (List Char) × List Char :=
  if cs.contains '@' then
    let host := (cs.reverse.takeWhile (· != '@')).reverse
    (some (cs.take (cs.length - host.length - 1)), host)
  else (none, cs)

def encodeUser (cs : List Char) : String :=
  String.ofList (Percent.encode Percent.inUserInfo cs)

def readUserInfo (cs : List Char) : String × String :=
  (encodeUser (cs.takeWhile (· != ':')), encodeUser ((cs.dropWhile (· != ':')).drop 1))

/-- Host and port, the colons between brackets being part of the host. -/
def splitPort (inside : Bool) : List Char → List Char × Option (List Char)
  | [] => ([], none)
  | c :: rest =>
      if c == ':' && !inside then ([], some rest)
      else
        let (host, port) :=
          splitPort (if c == '[' then true else if c == ']' then false else inside) rest
        (c :: host, port)

/-- A port; the default port of the scheme is left out. -/
def readPort (scheme : String) (cs : List Char) : Except UrlError (Option Nat) :=
  if cs.isEmpty then .ok none
  else if !cs.all Char.isDigit then .error .invalidPort
  else
    let n := cs.foldl (fun n c => 10 * n + (c.toNat - 48)) 0
    if 65535 < n then .error .invalidPort
    else if defaultPort? scheme = some n then .ok none
    else .ok (some n)

/-- What stands between the two slashes and the path. -/
def readAuthority (scheme : String) (cs : List Char) : Except UrlError Authority := do
  let special := isSpecialScheme scheme
  let (user, rest) := splitUserInfo cs
  let (hostChars, portChars) := splitPort false rest
  let (username, password) :=
    match user with
    | some info => readUserInfo info
    | none => ("", "")
  if hostChars.isEmpty && (special || portChars.isSome || user.isSome) then .error .emptyHost
  let host ← if special then Host.read hostChars else Host.readVerbatim hostChars
  let port ←
    match portChars with
    | some digits => readPort scheme digits
    | none => .ok none
  pure { username, password, host, port }

/-- A URL of the parts that its scheme, authority and path leave. -/
def assembleUrl (scheme : String) (authority : Option Authority) (path : Path)
    (query fragment : Option (List Char)) : Url :=
  { scheme
    authority
    path
    query := query.map (encodeQuery (isSpecialScheme scheme))
    fragment := fragment.map encodeFragment }

def readFile (cs : List Char) : Except UrlError Url := do
  let (body, query, fragment) := splitTail cs
  let local_ : Authority := { host := .domain "" }
  match body with
  | a :: b :: rest =>
      if isSlash true a && isSlash true b then
        let hostChars := rest.takeWhile fun c => !isSlash true c
        let path := rest.dropWhile fun c => !isSlash true c
        let host ← if hostChars.isEmpty then .ok (.domain "") else Host.read hostChars
        let host := if host = .domain "localhost" then .domain "" else host
        pure (assembleUrl "file" (some { host }) (.segments (readFilePath path)) query fragment)
      else pure (assembleUrl "file" (some local_) (.segments (readFilePath body)) query fragment)
  | _ => pure (assembleUrl "file" (some local_) (.segments (readFilePath body)) query fragment)

/-- The rest of a URL whose authority begins here. -/
def readHierarchy (scheme : String) (cs : List Char) : Except UrlError Url := do
  let special := isSpecialScheme scheme
  let (body, query, fragment) := splitTail cs
  let authority ← readAuthority scheme (body.takeWhile fun c => !isSlash special c)
  let path := readPath special (body.dropWhile fun c => !isSlash special c)
  pure (assembleUrl scheme (some authority) (.segments path) query fragment)

/-- The rest of a URL whose scheme has no rules of its own. -/
def readGeneral (scheme : String) (cs : List Char) : Except UrlError Url :=
  match cs with
  | '/' :: '/' :: rest => readHierarchy scheme rest
  | _ =>
      let (body, query, fragment) := splitTail cs
      let path :=
        match body with
        | '/' :: rest => .segments (readSegments false rest)
        | other => .flat (String.ofList (Percent.encode Percent.inControls other))
      .ok (assembleUrl scheme none path query fragment)

/-- The characters that count: no blanks and controls at the ends, no tabs and line ends. -/
def readable (text : String) : List Char :=
  let isEdge (c : Char) : Bool := c.toNat ≤ 0x20
  (Text.stripBy isEdge text.toList).filter fun c => !isSkipped c

/-- Read a URL of which all characters count. -/
def parseChars (cs : List Char) : Except UrlError Url :=
  match splitScheme? cs with
  | none => .error .relativeWithoutBase
  | some (scheme, rest) =>
      if scheme = "file" then readFile rest
      else if isSpecialScheme scheme then readHierarchy scheme (rest.dropWhile (isSlash true))
      else readGeneral scheme rest

def parse (text : String) : Except UrlError Url :=
  parseChars (readable text)

/-- The URL with another path, in which `?` and `#` are escaped. -/
def setPath (url : Url) (text : String) : Url :=
  let cs := text.toList.filter fun c => !isSkipped c
  match url.path with
  | .flat _ =>
      let body :=
        match cs with
        | '/' :: rest => "%2F" ++ String.ofList (Percent.encode Percent.inControls rest)
        | other => String.ofList (Percent.encode Percent.inControls other)
      { url with path := .flat body }
  | .segments _ =>
      let parts :=
        if url.scheme = "file" then readFilePath cs else readPath url.isSpecial cs
      { url with path := .segments parts }

end Courier.Url
