import RamlBuild.Program.ProjectBuild
import RamlBuild.Tool.Artifact
import RamlBuild.Tool.Installer
import RamlBuild.Tool.SnapshotVersion

/-!
# Installing the generator

The generator of sources is checked out and built, and its jar put in the directory of tools.
-/

namespace RamlBuild

open Build

namespace Generator

/-- The name of the tool. -/
def toolName : String := "raml4jaxrs"

/-- The name of its jar. -/
def jarName : String := "raml-to-jaxrs.jar"

/-- The module of the checkout that is built. -/
def cliModule : String := "raml-to-jaxrs/raml-to-jaxrs-cli"

/-- The directory that a build leaves its artifacts in. -/
def outputDirectory : String := "target"

/-- The ending of the artifact that can be run. -/
def artifactEnding : String := "dependencies.jar"

/-- The repository of the generator. -/
def defaultUrl : String := "https://github.com/mulesoft-labs/raml-for-jax-rs.git"

/-- The version that is installed unless another one is asked for. -/
def defaultVersion : String := "3.0.7"

/-- The jar in a directory of tools. -/
def jar (binDir : Path) : Path := binDir / jarName

/-- Builds a version in its checkout, and moves the jar to the directory of tools. -/
def build (binDir : Path) (url version : String) (workDir : Path) : Build Unit := do
  let repository := workDir / checkoutName url
  let _ ← pinProject repository version
  buildProject (repository / cliModule)
  match ← findArtifacts repository outputDirectory artifactEnding with
  | [] => fail (.install (.missingArtifact toolName artifactEnding))
  | artifact :: _ => moveArtifact artifact (jar binDir)

/-- The installer of the generator. -/
def installer (binDir : Path) (url version : String) : Installer where
  name := toolName
  root := binDir
  lockFile := binDir / "raml4jaxrs.lock"
  resolveVersion := pure version
  artifactsPresent := isFile (jar binDir)
  removeArtifacts := removeMatching binDir (· == jarName)
  download version workDir := do
    let _ ← checkout url workDir (.shallow version)
  buildAndInstall := build binDir url

end Generator

end RamlBuild
