import RamlBuild.Json.Parser
import RamlBuild.Tool.Lock
import RamlBuild.Web.Client

/-!
# Releases

A release has a tag and assets built for the platforms it supports. Its description is a JSON
object, or a list with the values of its fields.

## Main definitions

* `Release.ofJson?` — the release that a JSON value describes
* `Release.assetFor` — its asset for a platform
* `fetchRelease`, `fetchLatestTag` — asking for a release, or only for the tag of the latest one
-/

namespace RamlBuild

open Build

/-- A file of a release. -/
structure Asset where
  /-- Its name. -/
  name : String
  /-- The address that it is downloaded from. -/
  url : String
  deriving DecidableEq, Repr

/-- A release. -/
structure Release where
  /-- Its tag. -/
  tag : String
  /-- Its files. -/
  assets : List Asset
  deriving DecidableEq, Repr

/-- The asset that a JSON value describes. -/
def Asset.ofJson? : Json → Option Asset
  | .object fields => do
    let name ← (← Json.field? "name" fields).bind Json.text?
    let url ← (← Json.field? "browser_download_url" fields).bind Json.text?
    some ⟨name, url⟩
  | .array [name, url] => do some ⟨← name.text?, ← url.text?⟩
  | _ => none

namespace Release

/-- The assets that a JSON value lists; none when there is no value. -/
def assetsOfJson? : Option Json → Option (List Asset)
  | none => some []
  | some (.array items) => items.mapM Asset.ofJson?
  | some _ => none

/-- The release that a JSON value describes. -/
def ofJson? : Json → Option Release
  | .object fields => do
    let tag ← (← Json.field? "tag_name" fields).bind Json.text?
    some ⟨tag, ← assetsOfJson? (← Json.field? "assets" fields)⟩
  | .array [tag] => do some ⟨← tag.text?, []⟩
  | .array [tag, assets] => do some ⟨← tag.text?, ← assetsOfJson? (some assets)⟩
  | _ => none

/-- The release that bytes describe. -/
def ofBytes? (bytes : ByteArray) : Option Release :=
  (Json.ofBytes? bytes).bind ofJson?

/-- The first asset whose address names a platform. -/
def assetFor (release : Release) (platform : String) : Except InstallError Asset :=
  match release.assets.find? fun asset => Text.has platform asset.url.toList with
  | some asset => .ok asset
  | none => .error (.missingAsset release.tag platform)

end Release

/-- A text without the slashes at its end. -/
def dropSlashes (text : String) : String :=
  String.ofList (Text.dropAtEnd '/' text.toList)

/-- The address of the description of a release. -/
def releaseUrl (url version : String) : String :=
  dropSlashes url ++ if isLatest version then "/latest" else s!"/tags/{version}"

/-- The tag that an address ends with, if it is a concrete one. -/
def tagOfLocation? (location : String) : Option String :=
  let tag := String.ofList (Text.afterLast '/' (dropSlashes location).toList)
  if tag.isEmpty || tag == "latest" then none else some tag

/-- Asks for a release. -/
def fetchRelease (url version : String) : Build Release := do
  let url := releaseUrl url version
  let response ← fetchOk url acceptRelease
  match Release.ofBytes? response.body with
  | some release => pure release
  | none => within s!"parsing release metadata from {url}" (fail .http)

/-- The tag of the latest release, which a page redirects to. The redirect is not followed. -/
def fetchLatestTag (url : String) : Build String := do
  let response ← within s!"requesting {url}" do request (← parseUrl url) acceptAnything
  match response.location?.bind tagOfLocation? with
  | some tag => pure tag
  | none => fail (.install (.missingLocation url))

/-- The name of the platform in release assets. -/
def currentPlatform : Build String := do
  match (← get).system with
  | "linux" => pure "linux"
  | "macos" => pure "darwin"
  | other => fail (.install (.unsupportedPlatform other))

end RamlBuild
