import RamlBuild.Text.Lines
import RamlBuild.Text.Search

/-!
# Values of enums

A generated enum keeps its wire value in a hidden field `name`. The field becomes a public `value`
with a getter, and the assignment in the constructor follows it.

## Main definitions

* `declaresEnum` — whether a source declares a public enum
* `patchEnum` — the source with the value of its enum opened
-/

namespace RamlBuild

open Text

/-- A line that opens a public enum. -/
def opensEnum (line : Line) : Bool :=
  startsWith "public enum" line

/-- Whether a source declares a public enum. -/
def declaresEnum (source : String) : Bool :=
  (lines source).any opensEnum

/-- The declarations of the hidden field. -/
def hiddenValueFields : List Line :=
  ["  private String name;".toList, "  protected String name;".toList]

/-- The public field and its getter. -/
def openValueField : List Line :=
  ["  public final String value;".toList, [], "  public String getValue() \x7b".toList,
    "    return this.value;".toList, "  \x7d".toList]

/-- What takes the place of a line in the body of an enum. -/
def openEnumLine (line : Line) : List Line :=
  if hiddenValueFields.contains line then openValueField
  else if line = "    this.name = name;".toList then ["    this.value = name;".toList]
  else [line]

/-- Works on the lines after the one that opens the enum. -/
def openEnum : List Line → List Line
  | [] => []
  | line :: rest =>
    line :: if opensEnum line then rest.flatMap openEnumLine else openEnum rest

/-- The source with the value of its enum opened. -/
def patchEnum (source : String) : String :=
  ofLines (openEnum (lines source))

end RamlBuild
