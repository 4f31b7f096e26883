import RamlBuild.Text.Lines
import RamlBuild.Text.Search
import RamlBuild.Text.Word

/-!
# File responses

A response factory that takes a file takes a `StreamingOutput` instead, in sources that import the
file class ahead of their declaration.

## Main definitions

* `importsFile` — whether a source imports the file class ahead of its declaration
* `patchFileResponses` — the source with its file responses streamed
-/

namespace RamlBuild

open Text

/-- The import of the file class. -/
def fileImport : Line := "import java.io.File;".toList

/-- Whether a source imports the file class before its first public declaration. -/
def importsFile (source : String) : Bool :=
  ((lines source).takeWhile (!startsWith "public " ·)).contains fileImport

/-- The parts of a factory line: its class, its status and its media type. -/
def fileFactory? (line : Line) : Option (List Char × List Char × List Char) := do
  let (_, rest) ← takeRun? (· == ' ') line
  let rest ← after? "public static ".toList rest
  let (className, rest) ← takeRun? isWordChar rest
  let rest ← after? " respond".toList rest
  let (status, rest) ← takeRun? isDecimalDigit rest
  let rest ← after? "With".toList rest
  let (media, rest) ← takeRun? isWordChar rest
  if rest = "(File entity,".toList then some (className, status, media) else none

/-- What takes the place of a line. -/
def streamFileLine (line : Line) : Line :=
  if line = fileImport then "import jakarta.ws.rs.core.StreamingOutput;".toList
  else
    match fileFactory? line with
    | some (className, status, media) =>
      "    public static ".toList ++ className ++ " respond".toList ++ status ++ "With".toList ++
        media ++ "(StreamingOutput entity,".toList
    | none => line

/-- The source with its file responses streamed. A source that does not import the file class is
kept as it is. -/
def patchFileResponses (source : String) : String :=
  if importsFile source then mapLines streamFileLine source else source

end RamlBuild
