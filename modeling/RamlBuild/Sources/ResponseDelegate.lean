import RamlBuild.Text.Blank
import RamlBuild.Text.Lines
import RamlBuild.Text.Search

/-!
# The response delegate

The class that all responses extend hides its fields and constructors. They become public, up to the
first overridden method.

## Main definitions

* `widen?` — a hidden member line made public
* `patchResponseDelegate` — the source with its delegate opened
-/

namespace RamlBuild

open Text

/-- The modifiers that hide a member. -/
def hidingModifiers : List (List Char) := ["private ".toList, "protected ".toList]

/-- What follows the hiding modifier at the start of a member. -/
def afterHidingModifier? (member : List Char) : Option (List Char) :=
  hidingModifiers.findSome? (after? · member)

/-- A member line with its hiding modifier, after the blanks at its start, made public. -/
def widen? (line : Line) : Option Line :=
  (afterHidingModifier? (trimStart line)).map fun rest =>
    line.takeWhile isBlank ++ "public ".toList ++ rest

/-- Opens the members up to the first overridden method. -/
def openMembers : List Line → List Line
  | [] => []
  | line :: rest =>
    if has "@Override" line then line :: rest else (widen? line).getD line :: openMembers rest

/-- Works on the lines after the one that opens the class. -/
def openDelegate : List Line → List Line
  | [] => []
  | line :: rest =>
    line :: if startsWith "public class" line then openMembers rest else openDelegate rest

/-- The source with its delegate opened. -/
def patchResponseDelegate (source : String) : String :=
  ofLines (openDelegate (lines source))

end RamlBuild
