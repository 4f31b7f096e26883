import RamlBuild.Text.Blank
import RamlBuild.Web.Url

/-!
# Requests and responses

A request asks a host for what is at an address. The response has a status, headers and a body.
-/

namespace RamlBuild

/-- A request for what is at an address. -/
structure Request where
  /-- The address. -/
  url : Url
  /-- The media types that are accepted. -/
  accept : String
  /-- The program that asks. -/
  userAgent : String
  deriving DecidableEq, Repr

/-- The answer to a request. -/
structure Response where
  /-- The status. -/
  status : Nat
  /-- The headers, with their names as they are written. -/
  headers : List (String × String)
  /-- The body. -/
  body : ByteArray

namespace Response

/-- Whether the status tells of success. -/
def isSuccess (response : Response) : Bool :=
  200 ≤ response.status && response.status < 300

/-- Whether a header's value is visible ASCII, blanks included. -/
def isVisible (value : String) : Bool :=
  value.toList.all fun c => c == '\t' || (0x20 ≤ c.toNat && c.toNat < 0x7f)

/-- Where the response leads to, if that is visible. Blanks around it do not count. -/
def location? (response : Response) : Option String :=
  let header := response.headers.find? fun (name, _) => name.toLower == "location"
  match header with
  | some (_, value) =>
    if isVisible value then some (String.ofList (Text.trim value.toList)) else none
  | none => none

/-- Where the response redirects to. -/
def redirect? (response : Response) : Option String :=
  if [301, 302, 303, 307, 308].contains response.status then response.location? else none

/-- Whether the response only announces another one. The one that switches to another protocol does
not. -/
def isAnnouncement (response : Response) : Bool :=
  100 ≤ response.status && response.status < 200 && response.status != 101

/-- The statuses of responses that have no body. -/
def bodiless : List Nat := [101, 204, 304]

/-- The response as it is received: some statuses come without a body. -/
def received (response : Response) : Response :=
  if bodiless.contains response.status then { response with body := .empty } else response

end Response

end RamlBuild
