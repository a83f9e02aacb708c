import Mathlib.Data.List.DropRight

/-!
# `urllib.parse.urlparse`

The scheme, the network location and the host name of a URL, as Python's
`urlparse` finds them. Two of its checks rest on tables that are not written
down here: NFKC normalization, and what a bracketed host may hold.
-/

namespace Pytusk.Lib.UrlParse

/-- The tables of the running Python. A check fails with the message of its
`ValueError`. -/
structure Tables where
  nfkc : List Char → List Char
  checkBracketedNetloc : List Char → Except String Unit

/-- The parts of a `ParseResult` that this development reads. -/
structure ParseResult where
  scheme : List Char
  netloc : List Char

def isSchemeChar (c : Char) : Bool := c.isAlphanum || c ∈ ['+', '-', '.']

/-- Leading control characters and spaces go, and so does every tab or line
break. -/
def cleaned (url : List Char) : List Char :=
  (url.dropWhile fun c => decide (c.toNat ≤ 0x20)).filter fun c => c ∉ ['\t', '\r', '\n']

/-- The scheme in lower case and what follows its colon. Text before a colon
that is no scheme stays in the rest. -/
def splitScheme (url : List Char) : List Char × List Char :=
  let head := url.takeWhile (· ≠ ':')
  match url.dropWhile (· ≠ ':') with
  | [] => ([], url)
  | _ :: after =>
    if head.head?.any Char.isAlpha && head.all isSchemeChar then
      (head.map Char.toLower, after)
    else ([], url)

def splitNetloc : List Char → List Char
  | '/' :: '/' :: rest => rest.takeWhile fun c => c ∉ ['/', '?', '#']
  | _ => []

/-- `_checknetloc`: normalization must not bring up a delimiter. -/
def checkNetloc (tables : Tables) (netloc : List Char) : Except String Unit :=
  if netloc.all fun c => decide (c.toNat < 128) then .ok ()
  else
    let n := netloc.filter fun c => c ∉ ['@', ':', '#', '?']
    let netloc2 := tables.nfkc n
    if n = netloc2 then .ok ()
    else if netloc2.any fun c => c ∈ ['/', '?', '#', '@', ':'] then
      .error ("netloc '" ++ String.ofList netloc ++
        "' contains invalid characters under NFKC normalization")
    else .ok ()

def urlparse (tables : Tables) (url : List Char) : Except String ParseResult := do
  let (scheme, rest) := splitScheme (cleaned url)
  let netloc := splitNetloc rest
  if ('[' ∈ netloc) ≠ (']' ∈ netloc) then .error "Invalid IPv6 URL"
  else
    if '[' ∈ netloc then tables.checkBracketedNetloc netloc
    checkNetloc tables netloc
    return ⟨scheme, netloc⟩

/-- `hostname`: without user, port and brackets, and in lower case up to a
zone. Letters outside ASCII are kept as they are. -/
def ParseResult.hostname (parsed : ParseResult) : Option (List Char) :=
  let hostinfo := parsed.netloc.rtakeWhile (· ≠ '@')
  let hostname :=
    match hostinfo.dropWhile (· ≠ '[') with
    | _ :: bracketed => bracketed.takeWhile (· ≠ ']')
    | [] => hostinfo.takeWhile (· ≠ ':')
  if hostname = [] then none
  else some ((hostname.takeWhile (· ≠ '%')).map Char.toLower ++ hostname.dropWhile (· ≠ '%'))

end Pytusk.Lib.UrlParse
