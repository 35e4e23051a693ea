import DeployPlan.Reference.FilePath

/-!
# References

A reference is a URL when it parses as one and its scheme has two letters or more; a single letter
is taken for a drive. Every other text is a path. Parsing drops control characters and spaces at
both ends, ignores tabs and line breaks, and lowers the scheme.
-/
namespace DeployPlan

inductive Reference where
  /-- A path. -/
  | path
  /-- Something on the search paths only. -/
  | classpath
  /-- A file of this machine; `none` names another machine. -/
  | file (path : Option String)
  /-- Something to fetch. -/
  | remote
  /-- A URL of another scheme. -/
  | other (scheme : String)
deriving DecidableEq, Repr

namespace Reference

/-- The characters that parsing drops at both ends. -/
def isEdge (c : Char) : Bool := c.toNat ≤ 0x20

/-- The characters that parsing ignores everywhere. -/
def isIgnored (c : Char) : Bool := c = '\t' || c = '\n' || c = '\r'

/-- The characters of a reference that parsing looks at. -/
def significant (cs : List Char) : List Char :=
  (((cs.dropWhile isEdge).reverse.dropWhile isEdge).reverse).filter fun c => !isIgnored c

/-- The characters of a scheme after its first one. -/
def isSchemeChar (c : Char) : Bool := c.isAlphanum || c = '+' || c = '-' || c = '.'

/-- The lowered scheme of a URL and what follows its colon. -/
def splitScheme? (cs : List Char) : Option (String × List Char) :=
  match cs with
  | [] => none
  | c :: _ =>
    if c.isAlpha then
      match cs.dropWhile isSchemeChar with
      | ':' :: rest => some (String.ofList ((cs.takeWhile isSchemeChar).map Char.toLower), rest)
      | _ => none
    else none

/-- The schemes whose URLs always have a host. -/
def hostSchemes : List String := ["http", "https", "ws", "wss", "ftp"]

/-- What ends an authority; `known` schemes take a backslash for a slash. -/
def endsAuthority (known : Bool) (c : Char) : Bool :=
  c = '/' || c = '?' || c = '#' || (known && c = '\\')

/-- A host and what follows it up to a colon that does not stand in brackets. -/
def splitHost (inBrackets : Bool) (host : List Char) : List Char → List Char × List Char
  | [] => (host.reverse, [])
  | c :: cs =>
    if c = ':' && !inBrackets then (host.reverse, c :: cs)
    else splitHost (if c = '[' then true else if c = ']' then false else inBrackets) (c :: host) cs

/-- Whether what follows a host is nothing, or a colon and a number below 65536. A backslash ends
the number. -/
def isPort : List Char → Bool
  | [] => true
  | _ :: cs =>
    let ds := cs.takeWhile (· ≠ '\\')
    ds.all Char.isDigit && (Text.radixValue? 10 ds).any (· < 65536)

/-- What stands before and after the last `@` of an authority. -/
def splitUser (authority : List Char) : Option (List Char) × List Char :=
  match authority.reverse.dropWhile (· ≠ '@') with
  | [] => (none, authority)
  | _ :: user => (some user.reverse, (authority.reverse.takeWhile (· ≠ '@')).reverse)

/-- Whether the part before the `@` names a user or a password. -/
def namesUser (user : List Char) : Bool := user ≠ [] && user ≠ [':']

/-- Whether an authority is well formed: a user that may be missing, a host and a port. Without a
host there is no port and no name of a user, and no more follows an `@` alone (`followed` tells
whether anything comes after the authority). -/
def isAuthority (known followed : Bool) (authority : List Char) : Bool :=
  let (user, place) := splitUser authority
  let (host, port) := splitHost false [] place
  let hostOk := if known then (Host.named? host).isSome else Host.isOpaque host
  let alone := user = some [] && followed
  hostOk && isPort port &&
    !(host.isEmpty && (known || !port.isEmpty || user.any namesUser || alone))

/-- What a file URL points to, from what follows its scheme; `none` is no URL. -/
def readFile? (cs : List Char) : Option Reference :=
  let isSlash := fun c => c = '/' || c = '\\'
  let here := fun slashed cs => Reference.file (some ((FilePath.empty slashed).read cs).text)
  match cs with
  | a :: b :: rest =>
    if isSlash a && isSlash b then
      let host := rest.takeWhile fun c => !endsAuthority true c
      let path := rest.drop host.length
      if isDrive host then some (here true rest)
      else if host.isEmpty then some (here true path)
      else
        (Host.named? host).map fun name =>
          if name = "localhost".toList then here true path
          else
            let inside := if path.head?.any isSlash then path.drop 1 else path
            let read := (FilePath.empty true).read inside
            .file (if read.hostless then some read.text else none)
    else some (here (!isSlash a) cs)
  | [a] => some (here (!isSlash a) cs)
  | [] => some (here true cs)

/-- Whether what follows the colon of a scheme makes a URL. -/
def isUrlRest (scheme : String) (rest : List Char) : Bool :=
  if hostSchemes.contains scheme then
    let place := rest.dropWhile fun c => c = '/' || c = '\\'
    isAuthority true false (place.takeWhile fun c => !endsAuthority true c)
  else
    match rest with
    | '/' :: '/' :: place =>
      let authority := place.takeWhile fun c => !endsAuthority false c
      isAuthority false (authority.length < place.length) authority
    | _ => true

def classify (text : String) : Reference :=
  match splitScheme? (significant text.toList) with
  | none => .path
  | some (scheme, rest) =>
    if scheme.length ≤ 1 then .path
    else if scheme = "file" then (readFile? rest).getD .path
    else if isUrlRest scheme rest then
      if scheme = "classpath" then .classpath
      else if scheme = "http" || scheme = "https" then .remote
      else .other scheme
    else .path

end Reference

end DeployPlan
