import RamlBuild.Text.Lines
import RamlBuild.Text.Search

/-!
# Moved imports

The web service interfaces moved from `javax.ws` to `jakarta.ws`. Import lines follow them.
-/

namespace RamlBuild

open Text

/-- An import line that names the new package. -/
def moveImport (line : Line) : Line :=
  if startsWith "import" line then replaceAll "javax.ws".toList "jakarta.ws".toList line else line

/-- The source with its imports moved. -/
def patchImports (source : String) : String :=
  mapLines moveImport source

end RamlBuild
