import Courier.Url.Reader
/-!
References: texts that name a URL as it is seen from another one, the base, which has a host.  What a
reference leaves out at its front is that of the base: the scheme, the host, the folder of the path,
and for a mere fragment the query too.
-/
namespace Courier.Url

/-- The path up to its last slash. -/
def folder (url : Url) : List Char :=
  (url.pathText.toList.reverse.dropWhile (· != '/')).reverse

/-- A reference without a scheme, with what it leaves out put in front of it. -/
def complete (base : Url) (reference : List Char) : List Char :=
  let scheme := base.scheme.toList ++ [':']
  let site := scheme ++ base.authorityText.toList
  let page := site ++ base.pathText.toList
  match reference with
  | [] => page ++ base.queryText.toList
  | c :: rest =>
      if c = '#' then page ++ base.queryText.toList ++ reference
      else if c = '?' then page ++ reference
      else if !isSlash base.isSpecial c then site ++ base.folder ++ reference
      else if (rest.head?.map (isSlash base.isSpecial)).getD false then scheme ++ reference
      else site ++ reference

/-- Does a reference that names the scheme of the base go on from the base? -/
def continues (base : Url) (scheme : String) (rest : List Char) : Bool :=
  base.isSpecial && scheme == base.scheme && (rest.takeWhile (isSlash true)).length < 2

/-- The URL that a reference names. -/
def join (base : Url) (reference : String) : Except UrlError Url :=
  let cs := readable reference
  match splitScheme? cs with
  | some (scheme, rest) =>
      if base.continues scheme rest then parseChars (base.complete rest) else parseChars cs
  | none => parseChars (base.complete cs)

end Courier.Url
