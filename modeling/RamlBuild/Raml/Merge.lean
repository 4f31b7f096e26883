import RamlBuild.Program.Command

/-!
# Merging schemas

The schemas of a directory are merged into one library by the merge tool. Some files are excluded by
their names; the library itself lies among the schemas and always is.

## Main definitions

* `MergeTool.command` — the command that merges schemas
* `MergeTool.run` — merges schemas into a library
-/

namespace RamlBuild

open Build

/-- The merge tool and what it leaves out. -/
structure MergeTool where
  /-- The program. -/
  program : Path
  /-- The files that are left out. -/
  excluded : List String
  deriving DecidableEq, Repr

namespace MergeTool

/-- The name that a file is left out by. -/
def exclusion (entry : String) : String :=
  (Path.mk entry).fileName?.getD entry

/-- The names that are left out, that of the library among them. -/
def exclusions (tool : MergeTool) (output : Path) : List String :=
  let names := tool.excluded.map exclusion
  match output.fileName? with
  | some name => if names.contains name then names else names ++ [name]
  | none => names

/-- The command that merges the schemas of a directory. -/
def command (tool : MergeTool) (schemaRoot output : Path) : Command :=
  let exclusions := (tool.exclusions output).flatMap fun name => ["-x", name]
  { Command.of tool.program.text (exclusions ++ [schemaRoot.text]) with stdout := .file output }

/-- Merges the schemas of a directory into a library. An earlier library is removed first. -/
def run (tool : MergeTool) (schemaRoot output : Path) : Build Unit := do
  if !(← isFile tool.program) then
    failWith s!"merge tool {tool.program} is not installed"
  else if !(← isDirectory schemaRoot) then
    failWith s!"schema directory {schemaRoot} does not exist"
  else
    -- The merge tool must not read the library of an earlier run.
    if ← holds output then removeFile output
    let _ ← within "merge-raml failed" (tool.command schemaRoot output).run

end MergeTool

end RamlBuild
