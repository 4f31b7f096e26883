import RamlBuild.Sources.Boxing
import RamlBuild.Sources.Dates
import RamlBuild.Sources.Discriminator
import RamlBuild.Sources.EnumValue
import RamlBuild.Sources.FileResponse
import RamlBuild.Sources.Imports
import RamlBuild.Sources.JsonField
import RamlBuild.Sources.Layout
import RamlBuild.Sources.ModelType
import RamlBuild.Sources.Patch
import RamlBuild.Sources.ResourcePaths
import RamlBuild.Sources.ResponseDelegate
import RamlBuild.Sources.ResponseType
import RamlBuild.Sources.StreamClass

/-!
# Applying patches

A patch is applied to the files of a layout that it concerns, and tells which of them it wrote. It
reads what is there anew, so that patched sources are left alone.

## Main definitions

* `Patch.apply` — applies one patch to a layout
-/

namespace RamlBuild

open Build

/-- A transformation of texts that never fails. -/
def always (transform : String → String) (_ : Path) (source : String) : Except Cause String :=
  .ok (transform source)

/-- Types the discriminator of one interface. Whether it changed. -/
def typeDiscriminator (file : Path) : Build Bool := do
  if file.isImplementation then pure false
  else if !hasDiscriminatorLiteral (← readText file) then pure false
  else if !(← isFile file.implementation) then
    fail (.shape (.missingImplementation file file.implementation))
  else
    match discriminatorType? (← readText file.implementation) with
    | none => fail (.shape (.malformedImplementation file.implementation))
    | some type =>
      if isCustomType (String.ofList type) then
        rewrite file (always (patchDiscriminator type file.stem.toList) file)
      else
        pure false

/-- The files that a step changes, in their order. -/
def changedFiles (step : Path → Build Bool) : List Path → Build (List Path)
  | [] => pure []
  | file :: rest => do
    let changed ← step file
    let others ← changedFiles step rest
    pure (if changed then file :: others else others)

/-- Opens the value of one enum. Whether it changed. -/
def openEnumValue (file : Path) : Build Bool := do
  if declaresEnum (← readText file) then rewrite file (always patchEnum file) else pure false

/-- Writes a file whose contents are fixed, unless it holds them. Whether it was written. -/
def writeCompanion (file : Path) (source : String) : Build Bool := do
  let same ← if ← isFile file then pure (decide ((← readText file) = source)) else pure false
  if same then pure false
  else
    writeAtomically file source
    pure true

/-- The stream class beside an implementation. -/
def streamFile (implementation : Path) : Path :=
  implementation.withFileName (implementation.baseName ++ "Stream.java")

/-- Writes the stream classes beside implementations; the ones that were written. -/
def writeStreams (package : String) : List Path → Build (List Path)
  | [] => pure []
  | file :: rest => do
    if file.isImplementation then
      let target := streamFile file
      let written ←
        writeCompanion target (streamClass package (file.baseName ++ "Stream") file.stem)
      let others ← writeStreams package rest
      pure (if written then target :: others else others)
    else
      writeStreams package rest

/-- The property names that the sources list. -/
def allPropertyNames : List Path → Build (List (List Char))
  | [] => pure []
  | file :: rest => do
    let names := propertyOrder (← readText file)
    let others ← allPropertyNames rest
    pure (names ++ others)

/-- Writes the class of JSON fields and points the model types of a layout at it. -/
def applyFieldConstants (layout : Layout) : Build (List Path) := do
  let types ← modelTypes layout.modelDir
  if types.isEmpty then pure []
  else
    let files := types.flatMap fun type => [type.interface, type.implementation]
    let table := ConstantTable.ofValues (← allPropertyNames files)
    let classFile := layout.modelDir / (jsonFieldClassName ++ ".java")
    let written ← writeCompanion classFile (jsonFieldClass layout.modelPackage table)
    -- The class comes first, so that no source points at constants that are not there.
    let changed ← rewriteAll (always (patchJsonProperties table)) files
    pure (if written then classFile :: changed else changed)

/-- The source files of the model types and then of the resources. -/
def modelAndResourceFiles (layout : Layout) : Build (List Path) := do
  let model ← sourceFiles layout.modelDir
  let resources ← sourceFiles layout.resourcesDir
  pure (model ++ resources)

/-- The files that satisfy a question to their text, in their order. -/
def filesWhose (question : String → Bool) : List Path → Build (List Path)
  | [] => pure []
  | file :: rest => do
    let picked := question (← readText file)
    let others ← filesWhose question rest
    pure (if picked then file :: others else others)

namespace Patch

/-- What a patch does to a layout; the files that it wrote. -/
def applyTo (layout : Layout) : Patch → Build (List Path)
  | discriminators => do
    changedFiles typeDiscriminator (← sourceFiles layout.modelDir)
  | enumValues => do
    changedFiles openEnumValue (← sourceFiles layout.modelDir)
  | streams => do
    writeStreams layout.modelPackage (← sourceFiles layout.modelDir)
  | jakartaImports => do
    let resources ← sourceFiles layout.resourcesDir
    let support ← sourceFiles layout.supportDir
    rewriteAll (always patchImports) (resources ++ support)
  | boxedTypes => do
    rewriteAll (always boxPrimitives) (← modelAndResourceFiles layout)
  | fileResponses => do
    let importing ← filesWhose importsFile (← sourceFiles layout.resourcesDir)
    rewriteAll (always patchFileResponses) importing
  | dates => do
    let files := (← modelAndResourceFiles layout).filter (!·.endsWith "Deserializer.java")
    rewriteAll (always patchDates) files
  | responseDelegate => do
    let files := (← sourceFiles layout.supportDir).filter
      (·.fileName? == some "ResponseDelegate.java")
    rewriteAll (always patchResponseDelegate) files
  | responseTypes => do
    rewriteAll (always patchResponseTypes) (← sourceFiles layout.resourcesDir)
  | fieldConstants => applyFieldConstants layout
  | urlConstants => do
    let inject := fun file source => (injectUrlConstants source file).mapError Cause.shape
    rewriteAll inject (← sourceFiles layout.resourcesDir)

/-- Applies a patch to a layout; the files that it wrote. -/
def apply (patch : Patch) (layout : Layout) : Build (List Path) :=
  within s!"{patch.name} pass failed" (patch.applyTo layout)

end Patch

end RamlBuild
