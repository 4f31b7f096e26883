import RamlBuild.Program.Command
import RamlBuild.Summary

/-!
# Checking for programs

The tasks rely on some programs. They are looked for on the search path; one that is required and
not there is a failure, after all of them were told.

## Main definitions

* `ToolCheck` — a program and where it is
* `checkTools` — tells where the programs are
-/

namespace RamlBuild

open Build

/-- A program that tasks rely on, and where it is. -/
structure ToolCheck where
  /-- Its name. -/
  tool : String
  /-- Whether all tasks need it. -/
  required : Bool
  /-- Where it is, if it is there. -/
  path : Option Path
  deriving DecidableEq, Repr

namespace ToolCheck

/-- The programs that tasks rely on, and whether all tasks need them. -/
def tools : List (String × Bool) :=
  [("java", true), ("mvn", true), ("git", true), ("npm", true), ("docker", false)]

/-- Looks for programs. -/
def collect : List (String × Bool) → Build (List ToolCheck)
  | [] => pure []
  | (tool, required) :: rest => do
    let path ← findProgram tool
    let others ← collect rest
    pure (⟨tool, required, path⟩ :: others)

/-- The check in words. -/
def line (check : ToolCheck) : String :=
  padded 8 check.tool ++ " " ++
    match check.path with
    | some path => path.text
    | none => "not found"

/-- The check as a JSON value. -/
def json (check : ToolCheck) : Json :=
  .object [("tool", .string check.tool), ("required", .bool check.required),
    ("path", .ofOption (fun path : Path => .string path.text) check.path)]

/-- The names of the programs that are required and not there. -/
def missing (checks : List ToolCheck) : List String :=
  (checks.filter fun check => check.required && check.path.isNone).map (·.tool)

end ToolCheck

/-- Prints lines. -/
def Build.printLines : List String → Build Unit
  | [] => pure ()
  | line :: rest => do
    printLine line
    printLines rest

/-- Tells where the programs are, as JSON or in words. -/
def checkTools (json : Bool) : Build Unit := do
  let checks ← ToolCheck.collect ToolCheck.tools
  if json then printLine (Json.render (.object [("tools", .array (checks.map ToolCheck.json))]))
  else printLines (checks.map ToolCheck.line)
  match ToolCheck.missing checks with
  | [] => pure ()
  | missing => failWith ("required tools missing from PATH: " ++ ", ".intercalate missing)

end RamlBuild
