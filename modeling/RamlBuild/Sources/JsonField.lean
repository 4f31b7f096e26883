import RamlBuild.Sources.ConstantTable
import RamlBuild.Text.Blank
import RamlBuild.Text.Lines
import RamlBuild.Text.Quoted

/-!
# Constants for JSON fields

The property names of all model types get constants in one class, and the annotations that name a
property point at its constant.

## Main definitions

* `propertyOrder` — the property names that a source lists
* `jsonFieldClass` — the source of the class of constants
* `patchJsonProperties` — a source whose annotations point at the constants
-/

namespace RamlBuild

open Text

/-- The name of the class of constants. -/
def jsonFieldClassName : String := "JsonField"

/-- The property names among the literals of a line. -/
def propertyNames (line : Line) : List (List Char) :=
  (literals line).filter fun name => !(trim name).isEmpty

/-- The property names that the first `@JsonPropertyOrder` of a source lists: on its line, and if
the list is not closed there on the lines up to one that closes it. -/
def propertyOrder (source : String) : List (List Char) :=
  match (lines source).dropWhile (!startsWith "@JsonPropertyOrder" ·) with
  | [] => []
  | first :: rest =>
    let more := if has "\x7d)" first then [] else rest.takeWhile (!startsWith "\x7d)" ·)
    (first :: more).flatMap propertyNames

/-- The declaration of a constant. -/
def jsonFieldLine (value name : List Char) : Line :=
  "  public static final String ".toList ++ name ++ " = \"".toList ++ value ++ "\";".toList

/-- The source of the class of constants. -/
def jsonFieldClass (package : String) (table : ConstantTable) : String :=
  ofLines <|
    [("package " ++ package ++ ";").toList, [],
      ("public final class " ++ jsonFieldClassName ++ " \x7b").toList] ++
    table.entries.map (fun (value, name) => jsonFieldLine value name) ++
    [['\x7d']]

/-- What stands before the name of a property on an annotation's own line, and the rest. -/
def annotationStart? (line : Line) : Option (List Char × List Char) := do
  let rest ← after? "@JsonProperty(".toList (trimStart line)
  let rest := (valueStart? rest).getD rest
  some (line.take (line.length - rest.length), rest)
where
  /-- What follows `value =` with its blanks. -/
  valueStart? (text : List Char) : Option (List Char) := do
    let text ← after? "value".toList text
    let text ← after? ['='] (trimStart text)
    some (trimStart text)

/-- What stands before the name of a property on a line of its own, and the rest. -/
def valueStart? (line : Line) : Option (List Char × List Char) := do
  let rest ← annotationStart?.valueStart? (trimStart line)
  some (line.take (line.length - rest.length), rest)

/-- Exchanges the literal that follows the start of a line for its constant, if it has one. -/
def pointAtConstant (table : ConstantTable) (start? : Line → Option (List Char × List Char))
    (line : Line) : Line :=
  let patched? := do
    let (before, rest) ← start? line
    let (value, after) ← literal? rest
    let name ← table.get? value
    some (before ++ jsonFieldClassName.toList ++ '.' :: name ++ after)
  patched?.getD line

/-- Works through the lines; `within` says whether they are within an annotation that was opened on
a line of its own. -/
def pointLinesAtConstants (table : ConstantTable) (within : Bool) : List Line → List Line
  | [] => []
  | line :: rest =>
    let text := trim line
    if within then
      -- The annotation is open until a line closes its parenthesis.
      let patched := if text = [')'] then line else pointAtConstant table valueStart? line
      patched :: pointLinesAtConstants table (!endsWith ")" text) rest
    else if text = "@JsonProperty(".toList then
      line :: pointLinesAtConstants table true rest
    else
      pointAtConstant table annotationStart? line :: pointLinesAtConstants table false rest

/-- The source with its annotations pointing at the constants of their properties. Properties
without a constant keep their literal. -/
def patchJsonProperties (table : ConstantTable) (source : String) : String :=
  ofLines (pointLinesAtConstants table false (lines source))

end RamlBuild
