/-!
# Patches

Each patch rewrites the generated sources in one respect. Later ones match on what earlier ones
leave behind, so that they are applied in the order of `Patch.all`.
-/

namespace RamlBuild

/-- The patches of generated sources. -/
inductive Patch where
  /-- Types the discriminators of polymorphic interfaces. -/
  | discriminators
  /-- Opens the wire values of enums. -/
  | enumValues
  /-- Writes a stream class beside each implementation. -/
  | streams
  /-- Moves the imports of the web service interfaces. -/
  | jakartaImports
  /-- Boxes primitive types. -/
  | boxedTypes
  /-- Streams file responses. -/
  | fileResponses
  /-- Replaces the old date class. -/
  | dates
  /-- Opens the response delegate. -/
  | responseDelegate
  /-- Opens the response classes. -/
  | responseTypes
  /-- Writes the constants for JSON fields. -/
  | fieldConstants
  /-- Writes the constants for resource paths. -/
  | urlConstants
  deriving DecidableEq, Repr

namespace Patch

/-- All patches, in the order they are applied. -/
def all : List Patch :=
  [discriminators, enumValues, streams, jakartaImports, boxedTypes, fileResponses, dates,
    responseDelegate, responseTypes, fieldConstants, urlConstants]

/-- The name of a patch. -/
def name : Patch → String
  | discriminators => "discriminators"
  | enumValues => "enum-values"
  | streams => "streams"
  | jakartaImports => "jakarta-imports"
  | boxedTypes => "boxed-types"
  | fileResponses => "file-responses"
  | dates => "dates"
  | responseDelegate => "response-delegate"
  | responseTypes => "response-types"
  | fieldConstants => "field-constants"
  | urlConstants => "url-constants"

/-- The patch of a name. -/
def ofName? (name : String) : Option Patch :=
  all.find? (·.name == name)

/-- The patches of a whole run: all of them, or all but the stream classes. -/
def enabled (streams : Bool) : List Patch :=
  all.filter fun patch => streams || patch != .streams

/-- The requested patches, or those of a whole run when none is requested, in the order they are
applied. -/
def select (requested : List Patch) (streams : Bool) : List Patch :=
  if requested.isEmpty then enabled streams else all.filter requested.contains

theorem mem_all (patch : Patch) : patch ∈ all := by
  cases patch <;> decide

@[simp] theorem ofName?_name (patch : Patch) : ofName? patch.name = some patch := by
  cases patch <;> decide

end Patch

end RamlBuild
