import RamlBuild.Failure
import RamlBuild.Toml.Document

/-!
# Sections of a configuration

A configuration has a section for each of its concerns. A section is a table with known keys, each
of them optional, or a list with the values of all of them. Keys are read in the order in which they
are written, and the first one that is wrong is told.

## Main definitions

* `RawSettings` — what a configuration tells, section by section
* `RawSettings.ofText` — the sections that a text denotes
-/

namespace RamlBuild

/-- What a configuration tells about the service. -/
structure ServiceSection where
  /-- Its name. -/
  name : Option String
  /-- Its package. -/
  projectPackage : Option String
  deriving DecidableEq, Repr

/-- What a configuration tells about the API. -/
structure RamlSection where
  /-- The directory of the schemas. -/
  schemaRootDir : Option String
  /-- The API definition. -/
  rootApiDefinition : Option String
  /-- The library that the schemas are merged into. -/
  mergedOutputFile : Option String
  /-- The schemas that are left out. -/
  mergeExcludedFiles : Option (List String)
  /-- The version of the merge tool. -/
  mergeToolVersion : Option String
  /-- More arguments for the generator. -/
  generatorArguments : Option (List String)
  /-- Whether stream classes are written. -/
  generateModelStreams : Option Bool
  /-- The directory of the sources. -/
  sourceDir : Option String
  /-- The page of the documentation. -/
  apiDocOutputFile : Option String
  /-- A directory that the page is copied to. -/
  resourceDocsDir : Option String
  deriving DecidableEq, Repr

/-- What a configuration tells about the directories of tools. -/
structure ToolsSection where
  /-- The directory of tools. -/
  binDir : Option String
  /-- The directory of vendored jars. -/
  vendorDir : Option String
  deriving DecidableEq, Repr

/-- What a configuration tells about the generator. -/
structure GeneratorSection where
  /-- Its repository. -/
  url : Option String
  /-- Its version. -/
  version : Option String
  deriving DecidableEq, Repr

/-- What a configuration tells about vendored jars. -/
structure VendoredSection where
  /-- Their version. -/
  version : Option String
  /-- Their names. -/
  targets : Option (List String)
  deriving DecidableEq, Repr

/-- What a configuration tells about the container image. -/
structure ContainerSection where
  /-- The name of the image. -/
  imageName : Option String
  /-- The directory that it is built from. -/
  context : Option String
  /-- The file that describes it. -/
  dockerfile : Option String
  /-- More arguments. -/
  arguments : Option (List String)
  deriving DecidableEq, Repr

/-- What a configuration tells. -/
structure RawSettings where
  /-- The service. -/
  service : ServiceSection
  /-- The API. -/
  raml : RamlSection
  /-- The directories of tools. -/
  tools : ToolsSection
  /-- The generator. -/
  generator : GeneratorSection
  /-- Vendored jars. -/
  vendored : VendoredSection
  /-- The container image. -/
  container : ContainerSection
  deriving DecidableEq, Repr

/-- A value that is not what its key asks for. -/
def malformed {α : Type} : Except Cause α := .error (.configuration none)

/-- A key that a section does not know. -/
def unknownKey {α : Type} (key : String) : Except Cause α := .error (.configuration (some key))

namespace Toml

/-- A text. -/
def asText : Toml → Except Cause (Option String)
  | .string text => .ok (some text)
  | _ => malformed

/-- A truth value. -/
def asBool : Toml → Except Cause (Option Bool)
  | .bool value => .ok (some value)
  | _ => malformed

/-- The texts of a list of texts. -/
def textsOf : List Toml → Except Cause (List String)
  | [] => .ok []
  | .string text :: rest => do .ok (text :: (← textsOf rest))
  | _ => malformed

/-- A list of texts. -/
def asTexts : Toml → Except Cause (Option (List String))
  | .array items => do .ok (some (← textsOf items))
  | _ => malformed

/-- The key under which a date or time is found where a section is asked for. -/
def momentKey : String := "$__toml_private_datetime"

/-- The keys of a section with their values. A list gives the values of all keys in their order, a
date or time is the value of a key of its own. -/
def asSection (keys : List String) : Toml → Except Cause Fields
  | .table _ fields => .ok fields
  | .array items => .ok (keys.zip items)
  | .rows tables => .ok (keys.zip (tables.map (.table .header)))
  | .moment => .ok [(momentKey, .moment)]
  | _ => malformed

/-- Whether a section tells all that its form asks for: a list has a value for each key. -/
def isCompleteFor (keys : List String) : Toml → Bool
  | .array items => keys.length ≤ items.length
  | .rows tables => keys.length ≤ tables.length
  | _ => true

/-- Reads a section, key by key. -/
def readSection {α : Type} (keys : List String) (empty : α)
    (read : α → String → Toml → Except Cause α) (value : Toml) : Except Cause α := do
  let told ← (← asSection keys value).foldlM (fun told (key, v) => read told key v) empty
  if isCompleteFor keys value then .ok told else malformed

end Toml

open Toml

namespace ServiceSection

/-- A section that tells nothing. -/
def empty : ServiceSection := ⟨none, none⟩

/-- The section with one more key. -/
def read (told : ServiceSection) (key : String) (value : Toml) : Except Cause ServiceSection :=
  match key with
  | "name" => do .ok { told with name := ← asText value }
  | "project_package" => do .ok { told with projectPackage := ← asText value }
  | _ => unknownKey key

/-- The keys of the section. -/
def keys : List String := ["name", "project_package"]

end ServiceSection

namespace RamlSection

/-- A section that tells nothing. -/
def empty : RamlSection := ⟨none, none, none, none, none, none, none, none, none, none⟩

/-- The section with one more key. -/
def read (told : RamlSection) (key : String) (value : Toml) : Except Cause RamlSection :=
  match key with
  | "schema_root_dir" => do .ok { told with schemaRootDir := ← asText value }
  | "root_api_definition" => do .ok { told with rootApiDefinition := ← asText value }
  | "merged_output_file" => do .ok { told with mergedOutputFile := ← asText value }
  | "merge_excluded_files" => do .ok { told with mergeExcludedFiles := ← asTexts value }
  | "merge_tool_version" => do .ok { told with mergeToolVersion := ← asText value }
  | "generator_args" => do .ok { told with generatorArguments := ← asTexts value }
  | "generate_model_streams" => do .ok { told with generateModelStreams := ← asBool value }
  | "source_dir" => do .ok { told with sourceDir := ← asText value }
  | "api_doc_output_file" => do .ok { told with apiDocOutputFile := ← asText value }
  | "resource_docs_dir" => do .ok { told with resourceDocsDir := ← asText value }
  | _ => unknownKey key

/-- The keys of the section. -/
def keys : List String :=
  ["schema_root_dir", "root_api_definition", "merged_output_file", "merge_excluded_files",
    "merge_tool_version", "generator_args", "generate_model_streams", "source_dir",
    "api_doc_output_file", "resource_docs_dir"]

end RamlSection

namespace ToolsSection

/-- A section that tells nothing. -/
def empty : ToolsSection := ⟨none, none⟩

/-- The section with one more key. -/
def read (told : ToolsSection) (key : String) (value : Toml) : Except Cause ToolsSection :=
  match key with
  | "bin_dir" => do .ok { told with binDir := ← asText value }
  | "vendor_dir" => do .ok { told with vendorDir := ← asText value }
  | _ => unknownKey key

/-- The keys of the section. -/
def keys : List String := ["bin_dir", "vendor_dir"]

end ToolsSection

namespace GeneratorSection

/-- A section that tells nothing. -/
def empty : GeneratorSection := ⟨none, none⟩

/-- The section with one more key. -/
def read (told : GeneratorSection) (key : String) (value : Toml) :
    Except Cause GeneratorSection :=
  match key with
  | "url" => do .ok { told with url := ← asText value }
  | "version" => do .ok { told with version := ← asText value }
  | _ => unknownKey key

/-- The keys of the section. -/
def keys : List String := ["url", "version"]

end GeneratorSection

namespace VendoredSection

/-- A section that tells nothing. -/
def empty : VendoredSection := ⟨none, none⟩

/-- The section with one more key. -/
def read (told : VendoredSection) (key : String) (value : Toml) : Except Cause VendoredSection :=
  match key with
  | "version" => do .ok { told with version := ← asText value }
  | "targets" => do .ok { told with targets := ← asTexts value }
  | _ => unknownKey key

/-- The keys of the section. -/
def keys : List String := ["version", "targets"]

end VendoredSection

namespace ContainerSection

/-- A section that tells nothing. -/
def empty : ContainerSection := ⟨none, none, none, none⟩

/-- The section with one more key. -/
def read (told : ContainerSection) (key : String) (value : Toml) : Except Cause ContainerSection :=
  match key with
  | "image_name" => do .ok { told with imageName := ← asText value }
  | "context" => do .ok { told with context := ← asText value }
  | "dockerfile" => do .ok { told with dockerfile := ← asText value }
  | "arguments" => do .ok { told with arguments := ← asTexts value }
  | _ => unknownKey key

/-- The keys of the section. -/
def keys : List String := ["image_name", "context", "dockerfile", "arguments"]

end ContainerSection

namespace RawSettings

/-- A configuration that tells nothing. -/
def empty : RawSettings :=
  ⟨.empty, .empty, .empty, .empty, .empty, .empty⟩

/-- The configuration with one more section. -/
def read (told : RawSettings) (key : String) (value : Toml) : Except Cause RawSettings :=
  match key with
  | "service" => do
    .ok { told with service := ← readSection ServiceSection.keys .empty ServiceSection.read value }
  | "raml" => do
    .ok { told with raml := ← readSection RamlSection.keys .empty RamlSection.read value }
  | "tools" => do
    .ok { told with tools := ← readSection ToolsSection.keys .empty ToolsSection.read value }
  | "raml4jaxrs" => do
    let generator ← readSection GeneratorSection.keys .empty GeneratorSection.read value
    .ok { told with generator }
  | "fgputil" => do
    let vendored ← readSection VendoredSection.keys .empty VendoredSection.read value
    .ok { told with vendored }
  | "docker" => do
    let container ← readSection ContainerSection.keys .empty ContainerSection.read value
    .ok { told with container }
  | _ => unknownKey key

/-- The sections that a text denotes. -/
def ofText (text : String) : Except Cause RawSettings :=
  match Toml.ofText? text with
  | some fields => fields.foldlM (fun told (key, value) => told.read key value) empty
  | none => malformed

end RawSettings

end RamlBuild
