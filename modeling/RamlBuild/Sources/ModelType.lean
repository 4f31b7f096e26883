import RamlBuild.Build.Files
import RamlBuild.Sources.Discriminator

/-!
# Model types

A model type is generated as an interface and an implementation beside it, told by their names.
Other sources in the directory of the model types, enums for instance, belong to no type.

## Main definitions

* `Path.isImplementation`, `Path.implementation`, `Path.interface` — the two names of a type
* `sourceFiles` — the source files directly in a directory
* `modelTypes` — the model types of a directory
-/

namespace RamlBuild

namespace Path

/-- The ending of an implementation's name. -/
def implEnding : String := "Impl"

/-- Whether a path names a source file. -/
def isSource (p : Path) : Bool :=
  p.extension? == some "java"

/-- Whether a path names the source of a model implementation. -/
def isImplementation (p : Path) : Bool :=
  Text.endsWith implEnding p.stem.toList && p.isSource

/-- The implementation beside a model interface. -/
def implementation (interface : Path) : Path :=
  interface.withFileName (interface.stem ++ implEnding ++ ".java")

/-- The name of a model type, from that of its implementation. -/
def baseName (implementation : Path) : String :=
  let name := implementation.stem.toList
  if Text.endsWith implEnding name then String.ofList (name.take (name.length - 4))
  else String.ofList name

/-- The model interface beside an implementation. -/
def interface (implementation : Path) : Path :=
  implementation.withFileName (implementation.baseName ++ ".java")

end Path

/-- A model type: the interface and its implementation. -/
structure ModelType where
  /-- The name of the type. -/
  name : String
  /-- The source of the interface. -/
  interface : Path
  /-- The source of the implementation. -/
  implementation : Path
  deriving DecidableEq, Repr

open Build

/-- The source files directly in a directory, by name. A missing directory has none. -/
def sourceFiles (dir : Path) : Build (List Path) := do
  if ← isDirectory dir then
    let entries ← within s!"listing {dir}" (list dir)
    pure (((entries.filter (·.2.isFile)).map fun (name, _) => dir / name).filter (·.isSource))
  else
    pure []

/-- The type that a source file is the interface of, if it is one. Half a type is an error. -/
def modelType? (file : Path) : Build (Option ModelType) := do
  if file.isImplementation then
    -- The type is told by its interface, so that it is listed once.
    if ← isFile file.interface then pure none
    else fail (.shape (.loneImplementation file))
  else if ← isFile file.implementation then
    pure (some ⟨file.stem, file, file.implementation⟩)
  else if declaresInterface (← readText file) then
    fail (.shape (.missingImplementation file file.implementation))
  else
    pure none

/-- The types among source files, in their order. -/
def modelTypesAmong : List Path → Build (List ModelType)
  | [] => pure []
  | file :: rest => do
    let type? ← modelType? file
    let others ← modelTypesAmong rest
    pure (type?.toList ++ others)

/-- The model types of a directory, by name. -/
def modelTypes (dir : Path) : Build (List ModelType) := do
  modelTypesAmong (← sourceFiles dir)

end RamlBuild
