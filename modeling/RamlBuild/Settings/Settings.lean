import RamlBuild.Build.Files
import RamlBuild.Settings.Section
import RamlBuild.Sources.Layout
import RamlBuild.Text.Blank
import RamlBuild.Text.Escaped
import RamlBuild.Tool.Generator
import RamlBuild.Tool.Merger
import RamlBuild.Tool.VendoredJars

/-!
# Settings

The settings of a project are read from its configuration file. What the file does not tell has a
value of its own, and paths are taken from the directory of the file.

## Main definitions

* `Settings` — the settings of a project
* `Settings.ofText` — the settings that a text denotes
* `Settings.load` — the settings of a configuration file
-/

namespace RamlBuild

open Build

/-- The settings of a project. -/
structure Settings where
  /-- The directory of the project. -/
  projectRoot : Path
  /-- The name of the service. -/
  serviceName : String
  /-- The package of the project. -/
  projectPackage : String
  /-- The directory of the schemas. -/
  schemaRootDir : Path
  /-- The API definition. -/
  rootApiDefinition : Path
  /-- The library that the schemas are merged into. -/
  mergedOutputFile : Path
  /-- The schemas that are left out. -/
  mergeExcludedFiles : List String
  /-- The version of the merge tool. -/
  mergeToolVersion : String
  /-- More arguments for the generator. -/
  generatorArguments : List String
  /-- Whether stream classes are written. -/
  generateModelStreams : Bool
  /-- The directory of the sources. -/
  sourceDir : Path
  /-- The page of the documentation. -/
  apiDocOutputFile : Path
  /-- A directory that the page is copied to. -/
  resourceDocsDir : Path
  /-- The directory of tools. -/
  binDir : Path
  /-- The directory of vendored jars. -/
  vendorDir : Path
  /-- The repository of the generator. -/
  generatorUrl : String
  /-- The version of the generator. -/
  generatorVersion : String
  /-- The version of vendored jars. -/
  vendoredVersion : String
  /-- The names of vendored jars. -/
  vendoredTargets : List String
  /-- The name of the container image. -/
  image : String
  /-- The directory that the image is built from. -/
  imageContext : Path
  /-- The file that describes the image. -/
  dockerfile : String
  /-- More arguments for building the image. -/
  imageArguments : List String
  deriving DecidableEq, Repr

namespace Settings

/-- Segments with a character that is not blank, between the dots. -/
def isPackageName (package : String) : Bool :=
  (package.toList.splitOn '.').all fun segment => !(segment.all Text.isBlank)

/-- The settings that the sections of a configuration in a directory tell. -/
def ofSections (root : Path) (raw : RawSettings) (serviceName projectPackage : String) :
    Settings :=
  let path := fun (told : Option String) (usual : String) => root / told.getD usual
  let schemaRootDir := path raw.raml.schemaRootDir "schema"
  { projectRoot := root
    serviceName
    projectPackage
    schemaRootDir
    rootApiDefinition := path raw.raml.rootApiDefinition "api.raml"
    mergedOutputFile :=
      match raw.raml.mergedOutputFile with
      | some file => root / file
      -- The library lies among the schemas unless it is told elsewhere.
      | none => schemaRootDir / "library.raml"
    mergeExcludedFiles := raw.raml.mergeExcludedFiles.getD []
    mergeToolVersion := raw.raml.mergeToolVersion.getD Merger.defaultVersion
    generatorArguments := raw.raml.generatorArguments.getD []
    generateModelStreams := raw.raml.generateModelStreams.getD true
    sourceDir := path raw.raml.sourceDir "src/main/java"
    apiDocOutputFile := path raw.raml.apiDocOutputFile "docs/api.html"
    resourceDocsDir := path raw.raml.resourceDocsDir "src/main/resources"
    binDir := path raw.tools.binDir ".bin"
    vendorDir := path raw.tools.vendorDir "vendor"
    generatorUrl := raw.generator.url.getD Generator.defaultUrl
    generatorVersion := raw.generator.version.getD Generator.defaultVersion
    vendoredVersion := raw.vendored.version.getD VendoredJars.defaultVersion
    vendoredTargets := raw.vendored.targets.getD VendoredJars.defaultJars
    image := raw.container.imageName.getD serviceName
    imageContext := path raw.container.context "."
    dockerfile := raw.container.dockerfile.getD "Dockerfile"
    imageArguments := raw.container.arguments.getD [] }

/-- The settings that a text denotes, with paths from a directory. -/
def ofText (text : String) (root : Path) : Except Cause Settings := do
  let raw ← RawSettings.ofText text
  let serviceName := raw.service.name.getD "demo-service"
  let projectPackage := raw.service.projectPackage.getD "org.veupathdb.service.demo"
  if isPackageName projectPackage then
    .ok (ofSections root raw serviceName projectPackage)
  else
    .error <| .told <|
      s!"service.project_package {Text.escaped projectPackage} is not a java package name"

/-- The configuration file that is read unless another one is asked for. -/
def defaultFile : Path := ⟨"container-forge.toml"⟩

/-- The settings of a configuration file that is there. -/
def loadFile (file : Path) : Build Settings := do
  let text ← within s!"reading config {file}" (readText file)
  match ofText text file.directory with
  | .ok settings => pure settings
  | .error cause => within s!"parsing {file}" (fail cause)

/-- The settings of a configuration file. Only a file that is asked for has to be there. -/
def load : Option Path → Build Settings
  | some file => do
    if ← isFile file then loadFile file
    else failWith s!"config file {file} does not exist"
  | none => do
    if ← isFile defaultFile then loadFile defaultFile
    else
      match ofText "" ⟨"."⟩ with
      | .ok settings => pure settings
      | .error cause => fail cause

/-- The layout of the sources. -/
def layout (settings : Settings) : Layout :=
  ⟨settings.sourceDir, settings.projectPackage⟩

/-- The installer of the generator. -/
def generatorInstaller (settings : Settings) : Installer :=
  Generator.installer settings.binDir settings.generatorUrl settings.generatorVersion

/-- The installer of the merge tool. -/
def mergerInstaller (settings : Settings) : Installer :=
  Merger.installer settings.binDir Merger.defaultUrl settings.mergeToolVersion

/-- The installer of the vendored jars. -/
def vendoredInstaller (settings : Settings) : Installer :=
  VendoredJars.installer settings.vendorDir VendoredJars.defaultUrl settings.vendoredVersion
    settings.vendoredTargets

end Settings

end RamlBuild
