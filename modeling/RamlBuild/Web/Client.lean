import RamlBuild.Build.Files

/-!
# Asking the web

A request may be answered by a redirect, which is followed a limited number of times.

## Main definitions

* `request` — one request
* `fetch` — a request and the redirects it is answered with
-/

namespace RamlBuild

open Build

/-- How requests name the program that asks. -/
def userAgent : String := "container-forge/0.1.0"

/-- Any media type. -/
def acceptAnything : String := "*/*"

/-- The media type of release descriptions. -/
def acceptRelease : String := "application/vnd.github+json"

/-- Makes one request and records it. An address that cannot be reached is not requested, and a
response that only announces another one is followed by none. -/
def request (url : Url) (accept : String) : Build Response := do
  let host ← get
  match host.network url with
  | none => fail .http
  | some response =>
    let made : Request := ⟨url, accept, userAgent⟩
    -- What is answered was requested, also when the answer is not success.
    set { host with requests := host.requests ++ [made] }
    if response.isAnnouncement then fail .http else pure response.received

/-- Makes a request and follows at most `left` redirects. A redirect that leads nowhere is the final
response. -/
def follow (accept : String) : (left : Nat) → Url → Build Response
  | left, url => do
    let response ← request url accept
    match left, response.redirect?.bind url.join? with
    | _, none => pure response
    | left + 1, some (.page next) => follow accept left next
    | _, some _ => fail .http

/-- The most redirects that are followed. -/
def maxRedirects : Nat := 10

/-- The address of a text, which has to be one of the web. -/
def parseUrl (url : String) : Build Url :=
  match Url.ofText? url with
  | some url => pure url
  | none => fail .http

/-- The final response for an address. -/
def fetch (url accept : String) : Build Response :=
  within s!"requesting {url}" do
    follow accept maxRedirects (← parseUrl url)

/-- The final response for an address, which has to be one of success. -/
def fetchOk (url accept : String) : Build Response := do
  let response ← fetch url accept
  if response.isSuccess then pure response
  else fail (.install (.httpStatus url response.status))

/-- Downloads what is at an address to a file. -/
def download (url : String) (target : Path) : Build Unit := do
  let response ← fetchOk url acceptAnything
  writeBytes target response.body

end RamlBuild
