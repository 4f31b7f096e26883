import RamlBuild.Path

/-!
# Sources of the wrong shape

The patches rely on what the generator writes: each model interface has an implementation beside it,
each typed interface an implementation that declares the type, each resource a root path and
response classes.
-/

namespace RamlBuild

/-- How generated sources can lack the shape that the patches rely on. -/
inductive ShapeError where
  /-- A model interface without its implementation. -/
  | missingImplementation (interface expected : Path)
  /-- A model implementation without its interface. -/
  | loneImplementation (implementation : Path)
  /-- An implementation that does not declare the type of its discriminator. -/
  | malformedImplementation (implementation : Path)
  /-- A resource without a root path. -/
  | missingRootPath (resource : Path)
  /-- A resource without response classes. -/
  | missingResponseClasses (resource : Path)
  deriving DecidableEq, Repr

/-- The text of the error. -/
def ShapeError.message : ShapeError → String
  | missingImplementation interface expected =>
    s!"model interface {interface} has no matching implementation {expected}"
  | loneImplementation implementation =>
    s!"model implementation {implementation} has no matching interface"
  | malformedImplementation implementation =>
    s!"implementation {implementation} does not declare a discriminator field after its class " ++
      "declaration"
  | missingRootPath resource =>
    s!"resource {resource} does not declare a root @Path"
  | missingResponseClasses resource =>
    s!"reached end of resource {resource} without encountering response subclasses"

end RamlBuild
