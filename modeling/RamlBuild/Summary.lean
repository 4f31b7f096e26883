import RamlBuild.Json.Printer

/-!
# Run summaries

A run goes through stages one after the other. Its summary tells what each stage did and when it was
finished.

## Main definitions

* `StageResult`, `StageReport`, `Summary` — what a stage did, when, and all stages of a run
* `Summary.changedFiles` — the number of files that the patches changed
* `Summary.json`, `Summary.lines` — the summary as it is printed
-/

namespace RamlBuild

/-- What a stage did. -/
inductive StageResult where
  /-- Brought a tool to a version, perhaps from another one. -/
  | installed (version : String) (previous : Option String)
  /-- Ran a tool. -/
  | completed
  /-- Changed files. -/
  | applied (files : List String)
  /-- Did nothing, for a reason. -/
  | skipped (reason : String)
  deriving DecidableEq, Repr

/-- What a stage did, and when it was finished. -/
structure StageReport where
  /-- The name of the stage. -/
  stage : String
  /-- When it was finished. -/
  finishedAt : String
  /-- What it did. -/
  result : StageResult
  deriving DecidableEq, Repr

/-- What a run did. -/
structure Summary where
  /-- When the run was started. -/
  startedAt : String
  /-- When the run was finished. -/
  finishedAt : String
  /-- What its stages did, in order. -/
  stages : List StageReport
  deriving DecidableEq, Repr

namespace StageResult

/-- The number of files that a stage changed. -/
def changedFiles : StageResult → Nat
  | applied files => files.length
  | _ => 0

/-- The fields that tell what a stage did. -/
def fields : StageResult → List (String × Json)
  | installed version previous =>
    [("status", .string "installed"), ("version", .string version)] ++
      previous.toList.map fun v => ("previous", .string v)
  | completed => [("status", .string "completed")]
  | applied files =>
    [("status", .string "applied"), ("changed_files", .nat files.length),
      ("files", .strings files)]
  | skipped reason => [("status", .string "skipped"), ("reason", .string reason)]

/-- What a stage did, in words. -/
def line : StageResult → String
  | installed version (some previous) => s!"updated {previous} -> {version}"
  | installed version none => s!"installed {version}"
  | completed => "done"
  | applied files => s!"{files.length} file(s) patched"
  | skipped reason => s!"skipped ({reason})"

end StageResult

/-- A text filled up with blanks to a width. -/
def padded (width : Nat) (text : String) : String :=
  text ++ String.ofList (List.replicate (width - text.length) ' ')

namespace Summary

/-- The number of files that all stages changed. -/
def changedFiles (summary : Summary) : Nat :=
  summary.stages.foldl (fun total report => total + report.result.changedFiles) 0

/-- The report of the first stage of a name. -/
def stage? (summary : Summary) (name : String) : Option StageReport :=
  summary.stages.find? (·.stage == name)

/-- The summary as a JSON value. -/
def json (summary : Summary) : Json :=
  .object [
    ("started_at", .string summary.startedAt),
    ("finished_at", .string summary.finishedAt),
    ("stages", .array <| summary.stages.map fun report =>
      .object ([("stage", .string report.stage), ("finished_at", .string report.finishedAt)] ++
        report.result.fields))]

/-- The summary in words, a line for each stage. -/
def lines (summary : Summary) : List String :=
  summary.stages.map fun report => padded 24 report.stage ++ " " ++ report.result.line

end Summary

end RamlBuild
