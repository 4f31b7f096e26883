import RamlBuild.Text.Lines
import RamlBuild.Text.Word

/-!
# Boxed types

Every primitive keyword of a source becomes the class that boxes it, wherever it stands alone.

## Main definitions

* `boxedTypes` — the primitives and their classes
* `boxPrimitives` — the source with its primitives boxed
-/

namespace RamlBuild

open Text

/-- The primitive keywords with the classes that box them. -/
def boxedTypes : List (List Char × List Char) :=
  [("boolean".toList, "Boolean".toList), ("byte".toList, "Byte".toList),
    ("char".toList, "Character".toList), ("double".toList, "Double".toList),
    ("float".toList, "Float".toList), ("int".toList, "Integer".toList),
    ("long".toList, "Long".toList), ("short".toList, "Short".toList)]

/-- A line with its primitives boxed, one keyword after the other. -/
def boxLine (line : Line) : Line :=
  -- No class has the name of a primitive, so the order does not matter.
  boxedTypes.foldl (fun line (primitive, boxed) => replaceWord primitive boxed line) line

/-- The source with its primitives boxed. -/
def boxPrimitives (source : String) : String :=
  mapLines boxLine source

end RamlBuild
