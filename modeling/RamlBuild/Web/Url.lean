import RamlBuild.Web.HostName

/-!
# Web addresses

An address of the web names a host and a path there, perhaps with a query. Read from a text it is
brought into its written form: the scheme in lower case and the host as it is written, dots in the
path resolved, characters that cannot stand in it written by their bytes, a fragment dropped. A
relative reference is read against another address.

A reference may also lead to what is no page of the web: to another kind of server, or to something
that only a name is given of.

## Main definitions

* `Url.ofText?` — the address that a text denotes on its own
* `Url.join?` — where a text leads within another one's page
* `Url.text`, `Url.target` — the written address, and the part of it that a host is asked for
-/

namespace RamlBuild

/-- An address of the web. -/
structure Url where
  /-- Whether the connection is secured. -/
  secure : Bool
  /-- The host, with the number of its service where that is not the usual one. -/
  host : List Char
  /-- The names between the slashes of the path. -/
  segments : List (List Char)
  /-- What follows the question mark. -/
  query : Option (List Char)
  deriving DecidableEq, Repr

namespace Url

open Text

/-- The path and query that the host is asked for. -/
def target (url : Url) : String :=
  String.ofList ('/' :: ['/'].intercalate url.segments ++
    match url.query with
    | some query => '?' :: query
    | none => [])

/-- The written address. -/
def text (url : Url) : String :=
  (if url.secure then "https://" else "http://") ++ String.ofList url.host ++ url.target

/-- Two hexadecimal digits for a byte, behind a percent sign. -/
def percentByte (b : UInt8) : List Char :=
  let digit (n : Nat) : Char := (Nat.digitChar n).toUpper
  ['%', digit (b.toNat / 16), digit (b.toNat % 16)]

/-- A text with the characters that are not plain, or of the given ones, written by their bytes. -/
def percentEncode (reserved : List Char) (text : List Char) : List Char :=
  text.flatMap fun c =>
    if c.toNat ≤ 0x20 || 0x7f ≤ c.toNat || reserved.contains c then
      (String.utf8EncodeChar c).flatMap percentByte
    else [c]

/-- The characters that are written by their bytes in a path. -/
def pathReserved : List Char := ['"', '#', '<', '>', '?', '\x60', '\x7b', '\x7d']

/-- The characters that are written by their bytes in a query. -/
def queryReserved : List Char := ['"', '#', '<', '>', '\x27']

/-- Either slash; the backward one counts as the forward one. -/
def isSlash (c : Char) : Bool := c == '/' || c == '\\'

/-- A segment that stays. -/
def isDot (segment : List Char) : Bool :=
  [".", "%2e"].contains (String.ofList (segment.map Char.toLower))

/-- A segment that leads up. -/
def isDoubleDot (segment : List Char) : Bool :=
  ["..", ".%2e", "%2e.", "%2e%2e"].contains (String.ofList (segment.map Char.toLower))

/-- Walks the segments of a text from a directory. -/
def walkSegments (directory : List (List Char)) : List (List Char) → List (List Char)
  | [] => directory
  | segment :: rest =>
    if isDoubleDot segment then
      -- A dot at the end leaves a slash there.
      if rest.isEmpty then directory.dropLast ++ [[]] else walkSegments directory.dropLast rest
    else if isDot segment then
      if rest.isEmpty then directory ++ [[]] else walkSegments directory rest
    else
      walkSegments (directory ++ [percentEncode pathReserved segment]) rest

/-- The text without its fragment, up to and behind a question mark. -/
def splitQuery (text : List Char) : List Char × Option (List Char) :=
  let text := beforeFirst '#' text
  match text.dropWhile (· != '?') with
  | [] => (text, none)
  | _ :: query => (beforeFirst '?' text, some (percentEncode queryReserved query))

/-- The part of an address behind its host, for a path walked from a directory. -/
def withPath (url : Url) (directory : List (List Char)) (text : List Char) : Url :=
  let (path, query) := splitQuery text
  { url with segments := walkSegments directory (path.splitOnP isSlash), query }

/-- The name of a host, and what follows it up to a colon that stands outside of brackets. -/
def splitHost (inBrackets : Bool) : List Char → List Char × List Char
  | [] => ([], [])
  | c :: rest =>
    if c == ':' && !inBrackets then ([], c :: rest)
    else
      let (host, rest) := splitHost (c == '[' || (inBrackets && c != ']')) rest
      (c :: host, rest)

/-- The number of a service behind its colon; none where nothing follows the colon. -/
def service? : List Char → Option (Option Nat)
  | [] => some none
  | ':' :: digits =>
    let n := valueOf 10 digits
    if !digits.all Char.isDigit || 65536 ≤ n then none
    else some (if digits.isEmpty then none else some n)
  | _ => none

/-- The host of an address, and the number of its service where that is not the usual one. -/
def hostOfText? (usual : Nat) (text : List Char) : Option (List Char) := do
  let (name, rest) := splitHost false text
  let service ← service? rest
  let host ← HostName.written? name
  match service with
  | some n => some (if n = usual then host else host ++ ':' :: Nat.toDigits 10 n)
  | none => some host

/-- The usual number of the service behind a scheme whose addresses have the form of web addresses.
-/
def usualService? : String → Option Nat
  | "http" => some 80
  | "https" => some 443
  | "ftp" => some 21
  | "ws" => some 80
  | "wss" => some 443
  | _ => none

/-- The part of an address that names its host, and what follows it. -/
def splitAuthority (isEnd : Char → Bool) (text : List Char) : List Char × List Char :=
  let authority := text.takeWhile fun c => !isEnd c
  (authority, text.drop authority.length)

/-- Whether a character ends the part that names the host of a web address. -/
def endsAuthority (c : Char) : Bool := isSlash c || c == '?' || c == '#'

/-- The address whose host and path a text gives. -/
def ofAuthority? (secure : Bool) (text : List Char) : Option Url := do
  let (authority, rest) := splitAuthority endsAuthority text
  let host ← hostOfText? (if secure then 443 else 80) (afterLast '@' authority)
  let path := match rest with
    | c :: more => if isSlash c then more else rest
    | [] => []
  some (withPath ⟨secure, host, [], none⟩ [] path)

/-- A text as it is read: without blanks and controls around it, nor tabs and line ends in it. -/
def cleaned (text : String) : List Char :=
  let blank := fun c : Char => c.toNat ≤ 0x20
  let inner := ((text.toList.dropWhile blank).reverse.dropWhile blank).reverse
  inner.filter fun c => c != '\t' && c != '\n' && c != '\r'

/-- The scheme of a text in lower case, and what follows its colon. -/
def scheme? (text : List Char) : Option (String × List Char) :=
  let scheme := text.takeWhile fun c => c.isAlphanum || ['+', '-', '.'].contains c
  match scheme, text.drop scheme.length with
  | first :: _, ':' :: rest =>
    if first.isAlpha then some (String.ofList (scheme.map Char.toLower), rest) else none
  | _, _ => none

/-- Whether a scheme is one of the web, and whether it secures the connection. -/
def isSecure? : String → Option Bool
  | "http" => some false
  | "https" => some true
  | _ => none

/-- The address that a text denotes on its own. -/
def ofText? (text : String) : Option Url := do
  let (scheme, rest) ← scheme? (cleaned text)
  let secure ← isSecure? scheme
  ofAuthority? secure (rest.dropWhile isSlash)

/-- The address that a reference without scheme denotes within another one's page. -/
def joinPath? (base : Url) (text : List Char) : Option Url :=
  match text with
  | [] => some base
  | '#' :: _ => some base
  | '?' :: _ => some { base with query := (splitQuery text).2 }
  | c :: rest =>
    if isSlash c then
      match rest with
      | d :: _ =>
        if isSlash d then ofAuthority? base.secure (rest.dropWhile isSlash)
        else some (base.withPath [] rest)
      | [] => some (base.withPath [] rest)
    else some (base.withPath base.segments.dropLast text)

/-- Where a reference leads. -/
inductive Destination where
  /-- To a page of the web. -/
  | page (url : Url)
  /-- To anything else. -/
  | elsewhere
  deriving DecidableEq, Repr

/-- The characters besides letters and digits that can stand where the host of a request is named.
-/
def authorityMarks : List Char :=
  ['!', '$', '&', '\x27', '(', ')', '*', '+', ',', '-', '.', ':', ';', '=', '@', '[', ']', '_', '~']

/-- Whether a text can name the host of a request. A percent sign may stand only before the host,
and one pair of brackets and one colon behind them in it. -/
def isAuthority (text : List Char) : Bool :=
  let host := afterLast '@' text
  let opening := (text.filter (· == '[')).length
  let closing := (text.filter (· == ']')).length
  !host.isEmpty && text.all (fun c => c.isAlphanum || c == '%' || authorityMarks.contains c) &&
    opening ≤ 1 && opening = closing &&
    (opening = 0 || (beforeFirst ']' text).contains '[') &&
    !(beforeFirst '[' host).contains '%' && !(afterLast ']' host).contains '%' &&
    ((afterLast ']' host).filter (· == ':')).length ≤ 1

/-- Whether a file is on a host of its own. A letter with a colon names no host, and neither does
the name of every host for itself. -/
def namesFileHost (text : List Char) : Bool :=
  match text with
  | c :: d :: rest =>
    let (name, _) := splitAuthority endsAuthority rest
    let isDrive := match name with
      | [c, d] => c.isAlpha && (d == ':' || d == '|')
      | _ => false
    isSlash c && isSlash d && !isDrive &&
      (HostName.written? name).any (· != "localhost".toList)
  | _ => false

/-- Whether the part of an address behind a scheme that is not of the web, and its colon, leads
anywhere. What is not on a host has to be a name that a host could have. -/
def leadsElsewhere (scheme : String) (text : List Char) : Bool :=
  match usualService? scheme with
  | some usual =>
    let (authority, _) := splitAuthority endsAuthority (text.dropWhile isSlash)
    (hostOfText? usual (afterLast '@' authority)).isSome
  | none =>
    if scheme == "file" then namesFileHost text
    else
      match text with
      | '/' :: '/' :: rest =>
        let (authority, _) := splitAuthority ['/', '?', '#'].contains rest
        let (name, service) := splitHost false (afterLast '@' authority)
        isAuthority name && (service? service).isSome &&
          (name.head? != some '[' || (HostName.written? name).isSome)
      | _ => isAuthority (scheme.toList ++ ':' :: text)

/-- Where a reference leads within another one's page, if it leads anywhere. -/
def join? (base : Url) (text : String) : Option Destination :=
  let text := cleaned text
  match scheme? text with
  | none => (joinPath? base text).map .page
  | some (scheme, rest) =>
    match isSecure? scheme with
    | none => if leadsElsewhere scheme rest then some .elsewhere else none
    | some secure =>
      let slashes := rest.takeWhile isSlash
      -- A scheme that is that of the page, without two slashes behind it, says nothing.
      if secure = base.secure && slashes.length < 2 then (joinPath? base rest).map .page
      else (ofAuthority? secure (rest.drop slashes.length)).map .page

end Url

end RamlBuild
