import RamlBuild.Sources.Apply
import RamlBuild.Summary

/-!
# Running patches

Patches are applied one after the other to the sources that were generated. The first one that fails
ends the run.

## Main definitions

* `applyPatches` — the reports of the patches that were applied
* `runPatches` — the summary of a run of patches
* `existingLayout` — a layout whose sources were generated
-/

namespace RamlBuild

open Build

/-- The current time. -/
def Build.now : Build String := do
  pure (← get).now

/-- The report of a stage that is finished now. -/
def report (stage : String) (result : StageResult) : Build StageReport := do
  pure ⟨stage, ← now, result⟩

/-- A run with its stages, timed. -/
def summarize (stages : Build (List StageReport)) : Build Summary := do
  let startedAt ← now
  let stages ← stages
  pure ⟨startedAt, ← now, stages⟩

/-- What a patch did to a layout, told by the files that it wrote. -/
def patchResult (layout : Layout) : List Path → StageResult
  | [] => .skipped "nothing to change"
  | files => .applied (files.map (·.relativeTo layout.root))

/-- Applies patches one after the other. -/
def applyEach (layout : Layout) : List Patch → Build (List StageReport)
  | [] => pure []
  | patch :: rest => do
    let stage ← report patch.name (patchResult layout (← patch.apply layout))
    let stages ← applyEach layout rest
    pure (stage :: stages)

/-- Applies patches to the sources of a layout, which have to be there. -/
def applyPatches (layout : Layout) (patches : List Patch) : Build (List StageReport) := do
  if ← isDirectory layout.root then applyEach layout patches
  else failWith s!"no generated sources under {layout.root}"

/-- A run of patches over the sources of a layout. -/
def runPatches (layout : Layout) (patches : List Patch) : Build Summary :=
  summarize (applyPatches layout patches)

/-- The layout of sources that were generated. -/
def existingLayout (sourceDir : Path) (projectPackage : String) : Build Layout := do
  let layout : Layout := ⟨sourceDir, projectPackage⟩
  if ← isDirectory layout.root then pure layout
  else
    failWith s!"no generated sources under {layout.root}; run `container-forge generate` first"

end RamlBuild
