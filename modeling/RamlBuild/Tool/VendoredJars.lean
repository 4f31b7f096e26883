import RamlBuild.Tool.Artifact
import RamlBuild.Tool.Installer
import RamlBuild.Web.Release

/-!
# Vendored jars

Some libraries are kept with a project as the jars of a release.
-/

namespace RamlBuild

open Build

namespace VendoredJars

/-- The name of the libraries. -/
def toolName : String := "fgputil"

/-- The page of their releases. -/
def defaultUrl : String := "https://github.com/VEuPathDB/FgpUtil/releases"

/-- The version that is installed unless another one is asked for. -/
def defaultVersion : String := "latest"

/-- The parts of the libraries. -/
def parts : List String :=
  ["accountdb", "cache", "cli", "client", "core", "db", "events", "json", "server", "servlet",
    "solr", "test", "web", "xml"]

/-- The jars that are vendored unless others are asked for. -/
def defaultJars : List String :=
  parts.map fun part => s!"{toolName}-{part}-1.0.0.jar"

/-- The address of a jar of a release. -/
def jarUrl (url tag jar : String) : String :=
  s!"{dropSlashes url}/download/{tag}/{jar}"

/-- The version that is asked for, or the tag of the latest release. -/
def resolveVersion (url version : String) : Build String := do
  if isLatest version then fetchLatestTag (dropSlashes url ++ "/latest") else pure version

/-- Whether all of some jars are in a directory. -/
def allPresent (dir : Path) : List String → Build Bool
  | [] => pure true
  | jar :: rest => do
    if ← isFile (dir / jar) then allPresent dir rest else pure false

/-- Downloads the jars of a release to a directory. -/
def downloadAll (url tag : String) (dir : Path) : List String → Build Unit
  | [] => pure ()
  | jar :: rest => do
    download (jarUrl url tag jar) (dir / jar)
    downloadAll url tag dir rest

/-- Moves jars from one directory to another. -/
def moveAll (source target : Path) : List String → Build Unit
  | [] => pure ()
  | jar :: rest => do
    moveArtifact (source / jar) (target / jar)
    moveAll source target rest

/-- A name of one of the libraries' jars. -/
def isJar (name : String) : Bool :=
  Text.startsWith toolName name.toList && Text.endsWith ".jar" name.toList

/-- The installer of the libraries. -/
def installer (vendorDir : Path) (url version : String) (jars : List String) : Installer where
  name := toolName
  root := vendorDir
  lockFile := vendorDir / "fgputil.lock"
  resolveVersion := resolveVersion url version
  artifactsPresent := allPresent vendorDir jars
  removeArtifacts := removeMatching vendorDir isJar
  download version workDir := downloadAll url version workDir jars
  buildAndInstall _ workDir := moveAll workDir vendorDir jars

end VendoredJars

end RamlBuild
