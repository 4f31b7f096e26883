import RamlBuild.Path

/-!
# Layout of the generated sources

The generator writes the sources of a project package into the package's directory below the source
directory, in three packages of their own.
-/

namespace RamlBuild

/-- Where the sources of one project package are generated. -/
structure Layout where
  /-- The directory that holds the sources of all packages. -/
  sourceDir : Path
  /-- The project package, with dots between its segments. -/
  projectPackage : String
  deriving DecidableEq, Repr

namespace Layout

/-- The directory of a package: its segments below one another. -/
def packageDir (package : String) : Path :=
  (package.toList.splitOn '.').foldl (fun dir segment => dir / String.ofList segment) ⟨""⟩

/-- The directory that holds all generated sources. -/
def root (layout : Layout) : Path :=
  layout.sourceDir / packageDir layout.projectPackage / "generated"

/-- The directory of the model types. -/
def modelDir (layout : Layout) : Path := layout.root / "model"

/-- The directory of the resources. -/
def resourcesDir (layout : Layout) : Path := layout.root / "resources"

/-- The directory of the classes that the others build on. -/
def supportDir (layout : Layout) : Path := layout.root / "support"

/-- The package of the model types. -/
def modelPackage (layout : Layout) : String := layout.projectPackage ++ ".generated.model"

/-- The package of the resources. -/
def resourcePackage (layout : Layout) : String := layout.projectPackage ++ ".generated.resources"

/-- The package of the classes that the others build on. -/
def supportPackage (layout : Layout) : String := layout.projectPackage ++ ".generated.support"

end Layout

end RamlBuild
