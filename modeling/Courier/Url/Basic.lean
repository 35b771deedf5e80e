import Courier.Url.Host
import Courier.Url.Query
/-!
URLs and their text.  The path is a list of segments, or, for a scheme without a hierarchy, one text
that nothing can be joined to.
-/
namespace Courier

/-- Who and where: the part of a URL after the two slashes. -/
structure Url.Authority where
  username : String := ""
  password : String := ""
  host : Url.Host
  port : Option Nat := none
deriving Repr, DecidableEq, Inhabited

inductive Url.Path
  | flat (text : String)
  | segments (parts : List String)
deriving Repr, DecidableEq, Inhabited

structure Url where
  scheme : String
  authority : Option Url.Authority
  path : Url.Path
  query : Option String := none
  fragment : Option String := none
deriving Repr, DecidableEq, Inhabited

namespace Url

/-- The port that a scheme uses when none is given. -/
def defaultPort? (scheme : String) : Option Nat :=
  if scheme = "http" || scheme = "ws" then some 80
  else if scheme = "https" || scheme = "wss" then some 443
  else if scheme = "ftp" then some 21
  else none

/-- Schemes with known rules: they have a host, and their paths begin with a slash. -/
def isSpecialScheme (scheme : String) : Bool :=
  (defaultPort? scheme).isSome || scheme = "file"

def isSpecial (url : Url) : Bool :=
  isSpecialScheme url.scheme

/-- Is there nothing that a path could be joined to? -/
def cannotBeBase (url : Url) : Bool :=
  match url.path with
  | .flat _ => true
  | .segments _ => false

/-- Each part behind a slash. -/
def slashed (parts : List String) : String :=
  String.join (parts.map fun part => "/" ++ part)

def Path.toText : Path → String
  | .flat text => text
  | .segments parts => slashed parts

def pathText (url : Url) : String :=
  url.path.toText

/-- The path without spaces at its end, if it is one text. -/
def Path.dropSpaces : Path → Path
  | .flat text => .flat (String.ofList (text.toList.reverse.dropWhile (· == ' ')).reverse)
  | .segments parts => .segments parts

/-- The URL up to its path; spaces cannot stand at its end. -/
def bare (url : Url) : Url :=
  { url with path := url.path.dropSpaces, query := none, fragment := none }

def Authority.userInfo (a : Authority) : String :=
  if a.username.isEmpty && a.password.isEmpty then ""
  else if a.password.isEmpty then a.username ++ "@"
  else a.username ++ ":" ++ a.password ++ "@"

def Authority.portText (a : Authority) : String :=
  match a.port with
  | some port => s!":{port}"
  | none => ""

def Authority.toText (a : Authority) : String :=
  "//" ++ a.userInfo ++ a.host.toText ++ a.portText

/-- What stands between the scheme and the path.  A path that begins with two slashes must not look
like a host. -/
def authorityText (url : Url) : String :=
  match url.authority, url.path with
  | some a, _ => a.toText
  | none, .segments ("" :: _ :: _) => "/."
  | none, _ => ""

def queryText (url : Url) : String :=
  match url.query with
  | some q => "?" ++ q
  | none => ""

def fragmentText (url : Url) : String :=
  match url.fragment with
  | some f => "#" ++ f
  | none => ""

def toText (url : Url) : String :=
  url.scheme ++ ":" ++ url.authorityText ++ url.pathText ++ url.queryText ++ url.fragmentText

/-- What a request asks the server for. -/
def target (url : Url) : String :=
  url.pathText ++ url.queryText

def pairs (url : Url) : Pairs :=
  match url.query with
  | some q => Query.decode q
  | none => []

/-- The URL with more pairs at the end of its query. -/
def appendPairs (url : Url) (pairs : Pairs) : Url :=
  { url with query := some (Query.append url.query pairs) }

end Url
end Courier
