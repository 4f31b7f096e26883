import RamlBuild.Archive.Unpack
import RamlBuild.Tool.Artifact
import RamlBuild.Tool.Installer
import RamlBuild.Web.Release

/-!
# Installing the merge tool

The merge tool is downloaded as an archive that was built for the platform.
-/

namespace RamlBuild

open Build

namespace Merger

/-- The name of the tool and of its program. -/
def toolName : String := "merge-raml"

/-- The name of its lock file. -/
def lockName : String := "merge-raml.lock"

/-- The name of the downloaded archive. -/
def downloadName : String := "merge-raml-download.tar.gz"

/-- Where the releases of the merge tool are described. -/
def defaultUrl : String := "https://api.github.com/repos/VEuPathDB/script-raml-merge/releases"

/-- The version that is installed unless another one is asked for. -/
def defaultVersion : String := "v2.0.3"

/-- The program in a directory of tools. -/
def program (binDir : Path) : Path := binDir / toolName

/-- The version that is asked for, or the tag of the latest release. -/
def resolveVersion (url version : String) : Build String := do
  if isLatest version then pure (← fetchRelease url version).tag else pure version

/-- Downloads the archive of a version for the platform. -/
def downloadArchive (url version : String) (workDir : Path) : Build Unit := do
  let platform ← currentPlatform
  let release ← fetchRelease url version
  match release.assetFor platform with
  | .ok asset => download asset.url (workDir / downloadName)
  | .error error => fail (.install error)

/-- Unpacks the archive and moves the program to the directory of tools. -/
def build (binDir workDir : Path) : Build Unit := do
  let files ← unpack (workDir / downloadName) (workDir / "unpacked")
  match files.find? (·.fileName? == some toolName) with
  | none => fail (.install (.missingArtifact toolName toolName))
  | some file => within s!"installing {toolName}" (moveArtifact file (program binDir))

/-- The installer of the merge tool. -/
def installer (binDir : Path) (url version : String) : Installer where
  name := toolName
  root := binDir
  lockFile := binDir / lockName
  resolveVersion := resolveVersion url version
  artifactsPresent := isFile (program binDir)
  removeArtifacts :=
    removeMatching binDir fun name => Text.startsWith toolName name.toList && name != lockName
  download := downloadArchive url
  buildAndInstall _ workDir := build binDir workDir

end Merger

end RamlBuild
