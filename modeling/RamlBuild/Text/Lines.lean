/-!
# Lines of a text

A line is ended by a newline, and a carriage return right before that newline belongs to the line
end. What follows the last newline is a line only when it is not empty, and keeps a carriage return
at its end. Writing lines back ends each of them with a newline alone.

## Main definitions

* `Text.lines` — the lines of a text
* `Text.ofLines` — the text made of the given lines
-/

namespace RamlBuild.Text

/-- The characters of one line, without its end. -/
abbrev Line := List Char

/-- A line without the carriage return at its end, if there is one. -/
def dropReturn (line : Line) : Line :=
  if line.getLast? = some '\r' then line.dropLast else line

/-- The lines among the pieces between newlines: all pieces but the last were ended by a newline. -/
def linesOfPieces : List Line → List Line
  | [] => []
  | [last] => if last.isEmpty then [] else [last]
  | piece :: next :: rest => dropReturn piece :: linesOfPieces (next :: rest)

/-- The lines of a text. -/
def lines (text : String) : List Line :=
  linesOfPieces (text.toList.splitOn '\n')

/-- The text in which each of the lines is ended by a newline. -/
def ofLines (ls : List Line) : String :=
  String.ofList (ls.flatMap (· ++ ['\n']))

/-- Works on a text line by line. -/
def mapLines (f : Line → Line) (text : String) : String :=
  ofLines ((lines text).map f)

@[simp] theorem toList_ofLines (ls : List Line) :
    (ofLines ls).toList = ls.flatMap (· ++ ['\n']) := by
  simp [ofLines]

@[simp] theorem ofLines_nil : ofLines [] = "" := rfl

end RamlBuild.Text
