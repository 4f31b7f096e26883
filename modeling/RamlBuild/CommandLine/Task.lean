import RamlBuild.CommandLine.ToolCheck
import RamlBuild.Pipeline
import RamlBuild.Program.ProjectBuild
import RamlBuild.Raml.Docs
import RamlBuild.Settings.Settings

/-!
# Tasks

A task is what the tool does for a project with its settings: it installs tools, generates, patches
and documents sources, or builds an image, and prints what it did.

## Main definitions

* `ManagedTool` — the tools that are installed
* `Task` — the tasks
* `Task.run` — does a task
-/

namespace RamlBuild

open Build

/-- The tools that are installed for a project. -/
inductive ManagedTool where
  /-- The generator. -/
  | generator
  /-- The merge tool. -/
  | merger
  /-- The vendored jars. -/
  | vendored
  deriving DecidableEq, Repr

/-- The tool of a name. -/
def ManagedTool.ofName? : String → Option ManagedTool
  | "raml4jaxrs" => some generator
  | "merge-raml" => some merger
  | "fgputil" => some vendored
  | _ => none

/-- What is done for a project. -/
inductive Task where
  /-- Brings the generator and the merge tool to their versions. -/
  | install
  /-- Brings the vendored jars to their version. -/
  | vendor
  /-- Removes a tool. -/
  | uninstall (tool : ManagedTool)
  /-- Merges the schemas. -/
  | mergeRaml
  /-- Writes the documentation. -/
  | docs
  /-- Runs the whole pipeline. -/
  | generate
  /-- Patches the sources by some patches, or by all of them. -/
  | patch (patches : List Patch)
  /-- Builds the container image. -/
  | buildImage
  /-- Checks for programs. -/
  | doctor
  deriving DecidableEq, Repr

namespace Task

/-- Prints what a run did, as JSON or in words. -/
def printSummary (json : Bool) (summary : Summary) : Build Unit :=
  if json then printLine (Json.render summary.json) else printLines summary.lines

/-- The merge tool of a project. -/
def mergeTool (settings : Settings) : MergeTool :=
  ⟨Merger.program settings.binDir, settings.mergeExcludedFiles⟩

/-- The pipeline of a project. -/
def pipeline (settings : Settings) : Pipeline where
  layout := settings.layout
  api := settings.rootApiDefinition
  schemaRoot := settings.schemaRootDir
  mergedOutput := settings.mergedOutputFile
  merger := mergeTool settings
  generator := ⟨Generator.jar settings.binDir, settings.generatorArguments⟩
  patches := Patch.enabled settings.generateModelStreams

/-- The tools that are needed to generate sources. -/
def generationTools (settings : Settings) : List Installer :=
  [settings.generatorInstaller, settings.mergerInstaller]

/-- Removes a tool. -/
def removeTool (settings : Settings) : ManagedTool → Build Unit
  | .generator => clean settings.generatorInstaller
  | .merger => clean settings.mergerInstaller
  | .vendored => clean settings.vendoredInstaller

/-- Merges the schemas of a project. -/
def mergeSchemas (settings : Settings) : Build Unit := do
  (mergeTool settings).run settings.schemaRootDir settings.mergedOutputFile
  printLine s!"merged {settings.schemaRootDir} -> {settings.mergedOutputFile}"

/-- What is told when the program that writes documentation is not there. -/
def docsProgramMissing : String :=
  s!"{docsProgram} not found on PATH; install it with `npm install -g {docsProgram} {docsTheme}`"

/-- Writes the documentation of a project. -/
def document (settings : Settings) : Build Unit := do
  match ← findDocsProgram with
  | none => failWith docsProgramMissing
  | some program =>
    let written ← writeDocs program settings.rootApiDefinition settings.apiDocOutputFile
      [settings.resourceDocsDir]
    printLines (written.map fun file => s!"wrote {file}")

/-- The patches that are asked for, in the order of all patches; all that are enabled where none is.
-/
def selectPatches (asked : List Patch) (streams : Bool) : List Patch :=
  if asked.isEmpty then Patch.enabled streams else Patch.all.filter asked.contains

/-- Patches the sources of a project. -/
def patchSources (settings : Settings) (asked : List Patch) : Build Summary := do
  let layout ← existingLayout settings.sourceDir settings.projectPackage
  runPatches layout (selectPatches asked settings.generateModelStreams)

/-- The variables that hold the credentials for building an image. -/
def credentialNames : List String := ["GITHUB_USERNAME", "GITHUB_TOKEN"]

/-- The value of an environment variable, unless it is blank. -/
def credential? (environment : List (String × String)) (name : String) : Option String :=
  (environment.lookup name).filter (!Text.isBlankText ·)

/-- The credentials for building an image, all of which have to be there. -/
def credentials : Build (List (String × String)) := do
  let environment := (← get).environment
  match credentialNames.filter fun name => (credential? environment name).isNone with
  | [] =>
    pure <| credentialNames.filterMap fun name =>
      (credential? environment name).map fun value => (name, value)
  | missing =>
    failWith <|
      "missing credentials for the container build: set " ++ " and ".intercalate missing

/-- Builds the container image of a project. -/
def buildContainer (settings : Settings) : Build Unit := do
  let buildArguments ← credentials
  checkContainerAccess
  let build : ContainerBuild :=
    ⟨settings.imageContext, settings.dockerfile, settings.image, buildArguments,
      settings.imageArguments⟩
  build.run
  printLine s!"built {settings.image}"

/-- Does a task for a project. -/
def run (settings : Settings) (json : Bool) : Task → Build Unit
  | install => do printSummary json (← runInstalls (generationTools settings))
  | vendor => do printSummary json (← runInstalls [settings.vendoredInstaller])
  | uninstall tool => removeTool settings tool
  | mergeRaml => mergeSchemas settings
  | docs => document settings
  | generate => do
    printSummary json (← (pipeline settings).run (generationTools settings))
  | patch asked => do printSummary json (← patchSources settings asked)
  | buildImage => buildContainer settings
  | doctor => checkTools json

end Task

end RamlBuild
