import RamlBuild.Program.Command

/-!
# Writing documentation

The documentation of an API is written by a program that turns its definition into a page. The page
is then copied to more directories under the same name.

## Main definitions

* `docsCommand` — the command that writes a page
* `writeDocs` — writes a page and its copies, and tells where they are
-/

namespace RamlBuild

open Build

/-- The program that writes pages. -/
def docsProgram : String := "raml2html"

/-- The theme of the pages. -/
def docsTheme : String := "raml2html-modern-theme"

/-- The command that writes the page of an API. -/
def docsCommand (program api output : Path) : Command :=
  { Command.of program.text [api.text, "--theme", docsTheme] with stdout := .file output }

/-- Copies a page to directories that are made where they are missing. The copies; where a directory
is the one of the page, none is made. -/
def copyDocs (output : Path) (name : String) : List Path → Build (List Path)
  | [] => pure []
  | dir :: rest => do
    createDirectories dir
    let target := dir / name
    if target.sameAs output then copyDocs output name rest
    else
      within s!"copying {output} to {target}" (copyFile output target)
      let others ← copyDocs output name rest
      pure (target :: others)

/-- Writes the page of an API and its copies. -/
def writeDocs (program api output : Path) (copyDirs : List Path) : Build (List Path) := do
  if !(← isFile api) then
    failWith s!"api definition {api} does not exist"
  else
    let _ ← within "raml2html failed" (docsCommand program api output).run
    match output.fileName? with
    | none => failWith s!"{output} has no file name"
    | some name => do
      let copies ← copyDocs output name copyDirs
      pure (output :: copies)

/-- The program that writes pages, if it is on the search path. -/
def findDocsProgram : Build (Option Path) := findProgram docsProgram

end RamlBuild
