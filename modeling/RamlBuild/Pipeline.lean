import RamlBuild.Raml.Generation
import RamlBuild.Raml.Merge
import RamlBuild.Sources.Run
import RamlBuild.Tool.Installer

/-!
# The generation pipeline

The pipeline installs the tools, merges the schemas, generates the sources and patches them. The
first stage that fails ends it.

## Main definitions

* `installTools` — the reports of tools that were brought to their versions
* `runInstalls` — the summary of a run of installations
* `Pipeline`, `Pipeline.run` — all that a pipeline needs, and the summary of its run
-/

namespace RamlBuild

open Build

/-- What an installation did, as the result of a stage. -/
def InstallOutcome.result : InstallOutcome → StageResult
  | installed version => .installed version none
  | updated previous version => .installed version previous
  | skipped version => .skipped s!"{version} already installed"

/-- Brings tools to their versions, one after the other. -/
def installTools : List Installer → Build (List StageReport)
  | [] => pure []
  | tool :: rest => do
    let outcome ← install tool
    let stage ← report s!"install:{tool.name}" outcome.result
    let stages ← installTools rest
    pure (stage :: stages)

/-- A run of installations. -/
def runInstalls (tools : List Installer) : Build Summary :=
  summarize (installTools tools)

/-- What a pipeline needs. -/
structure Pipeline where
  /-- The layout of the sources. -/
  layout : Layout
  /-- The API definition. -/
  api : Path
  /-- The directory of the schemas. -/
  schemaRoot : Path
  /-- The library that the schemas are merged into. -/
  mergedOutput : Path
  /-- The merge tool. -/
  merger : MergeTool
  /-- The generator. -/
  generator : GeneratorTool
  /-- The patches. -/
  patches : List Patch

namespace Pipeline

/-- The stages of a pipeline. -/
def stages (p : Pipeline) (tools : List Installer) : Build (List StageReport) := do
  let installs ← installTools tools
  p.merger.run p.schemaRoot p.mergedOutput
  let merge ← report "merge-raml" .completed
  p.generator.run p.api p.layout
  let generate ← report "generate" .completed
  let patches ← applyPatches p.layout p.patches
  pure (installs ++ merge :: generate :: patches)

/-- Runs a pipeline. -/
def run (p : Pipeline) (tools : List Installer) : Build Summary :=
  summarize (p.stages tools)

end Pipeline

end RamlBuild
