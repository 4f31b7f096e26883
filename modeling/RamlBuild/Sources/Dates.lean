import RamlBuild.Text.Blank
import RamlBuild.Text.Lines
import RamlBuild.Text.Search

/-!
# Dates

The old date class gives way to `OffsetDateTime`: on its import line, and wherever its name stands
between the delimiters of a type. Lines with a `@JsonFormat` pattern, which only applied to the old
class, are dropped.

## Main definitions

* `replaceDatesOnce` — one round over a line, in which occurrences do not overlap
* `replaceDates` — rounds until the line settles
* `patchDates` — the source with its dates replaced
-/

namespace RamlBuild

open Text

/-- A delimiter that can stand before the name of the date class. -/
def opensDate (c : Char) : Bool :=
  ['(', ' ', '.', '<', ','].contains c

/-- A delimiter that can stand after the name of the date class. -/
def closesDate (c : Char) : Bool :=
  [' ', ';', '>', ')', ','].contains c

/-- Replaces the delimited dates of a line from the left. The delimiter behind a date is used up, so
a date that it also opens waits for the next round. -/
def replaceDatesOnce : Line → Line
  | before :: 'D' :: 'a' :: 't' :: 'e' :: after :: rest =>
    if opensDate before && closesDate after then
      before :: "OffsetDateTime".toList ++ after :: replaceDatesOnce rest
    else
      before :: replaceDatesOnce ('D' :: 'a' :: 't' :: 'e' :: after :: rest)
  | c :: rest => c :: replaceDatesOnce rest
  | [] => []

/-- Rounds until one changes nothing, at most as many as `rounds`. -/
def settleDates : (rounds : Nat) → Line → Line
  | 0, line => line
  | rounds + 1, line =>
    let next := replaceDatesOnce line
    if next = line then line else settleDates rounds next

/-- A line with its delimited dates replaced. Each round that changes the line settles a date, so
there are fewer of them than characters. -/
def replaceDates (line : Line) : Line :=
  settleDates line.length line

/-- A line that annotates a date with a pattern. -/
def isDatePattern (line : Line) : Bool :=
  let text := trimStart line
  startsWith "@JsonFormat(" text && has "pattern" text

/-- What takes the place of a line. -/
def patchDateLine (line : Line) : List Line :=
  if line = "import java.util.Date;".toList then ["import java.time.OffsetDateTime;".toList]
  else if isDatePattern line then []
  else [replaceDates line]

/-- The source with its dates replaced. -/
def patchDates (source : String) : String :=
  ofLines ((lines source).flatMap patchDateLine)

end RamlBuild
