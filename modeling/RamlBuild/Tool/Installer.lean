import RamlBuild.Tool.Lock

/-!
# Installing tools

A tool is brought to a version in a few steps: its version is resolved to a concrete one; unless the
lock file tells that this one is installed and its artifacts are there, they are removed, fetched
into a build directory of their own, built and moved to the root of the tool. The lock file is
written last, so that a failed installation is not taken for one.

## Main definitions

* `Installer` — the steps of one tool
* `clean` — removes what is installed
* `install` — brings the tool to its version
-/

namespace RamlBuild

open Build

/-- The steps that install one tool. -/
structure Installer where
  /-- The name of the tool. -/
  name : String
  /-- The directory of its artifacts. -/
  root : Path
  /-- Its lock file. -/
  lockFile : Path
  /-- The concrete version to install. -/
  resolveVersion : Build String
  /-- Whether all artifacts are there. -/
  artifactsPresent : Build Bool
  /-- Removes the artifacts, but not the lock file. -/
  removeArtifacts : Build Unit
  /-- Fetches a version into a build directory. -/
  download : String → Path → Build Unit
  /-- Builds a version in its build directory and moves the artifacts to the root. -/
  buildAndInstall : String → Path → Build Unit

/-- What an installation did. -/
inductive InstallOutcome where
  /-- The tool was installed anew. -/
  | installed (version : String)
  /-- Another version was replaced. -/
  | updated (previous : Option String) (version : String)
  /-- The version was installed already. -/
  | skipped (version : String)
  deriving DecidableEq, Repr

/-- Removes the artifacts of a tool and its lock file. -/
def clean (tool : Installer) : Build Unit := do
  within s!"removing installed {tool.name}" tool.removeArtifacts
  Lock.remove tool.lockFile

/-- The permission bits of a build directory, which only its owner may enter. -/
def buildDirectoryMode : Nat := 0o700

/-- Makes a build directory in the root of a tool; its location and its absolute path. -/
def createBuildDirectory (tool : Installer) : Build (Location × Path) := do
  let p := (← files).temporaryPath tool.root s!".{tool.name}-build-" ""
  let loc ← reading s!"failed to create directory `{p}`" (·.freePlace p)
  modify fun host => { host with files := host.files.put loc (.directory buildDirectoryMode) }
  pure (loc, p)

/-- Fetches and builds a version in a build directory that is removed afterwards, and records it. -/
def buildVersion (tool : Installer) (version : String) : Build Unit := do
  createDirectories tool.root
  let (loc, workDir) ← within s!"creating build directory in {tool.root}"
    (createBuildDirectory tool)
  cleaningUp (·.eraseTree loc) do
    within s!"downloading {tool.name} {version}" (tool.download version workDir)
    within s!"installing {tool.name} {version}" (tool.buildAndInstall version workDir)
    -- The lock file is written only here, when all steps before have succeeded.
    Lock.write tool.lockFile version
    within s!"removing build directory {workDir}" (removeTree workDir)

/-- What is to be done to bring a tool to a version: as its lock file tells, but artifacts that are
missing are installed again. -/
def requiredState (tool : Installer) (version : String) : Build InstallState := do
  match ← InstallState.determine tool.root tool.lockFile version with
  | .skip => pure (if ← tool.artifactsPresent then .skip else .update)
  | state => pure state

/-- Brings a tool to its version. -/
def install (tool : Installer) : Build InstallOutcome := do
  let version ← within s!"resolving {tool.name} version" tool.resolveVersion
  if isLatest version then
    fail (.install (.unresolvedVersion tool.name))
  else
    match ← requiredState tool version with
    | .skip => pure (.skipped version)
    | .update =>
      let previous ← Lock.read tool.lockFile
      clean tool
      buildVersion tool version
      pure (.updated previous version)
    | .new =>
      buildVersion tool version
      pure (.installed version)

end RamlBuild
