import RamlBuild.Build.Files
import RamlBuild.Text.Blank

/-!
# Lock files

A lock file beside the artifacts of a tool holds the version they were installed from. The blanks
around the version do not count.

A version is a text. One stands for whichever is the latest; an installer looks up a concrete
version for it.

## Main definitions

* `isLatest` — whether a version stands for the latest one
* `Lock.read`, `Lock.write`, `Lock.remove` — the version in a lock file
* `InstallState.determine` — what is to be done to reach a version
-/

namespace RamlBuild

open Build

/-- Whether a version stands for the latest one, in any case of its letters. -/
def isLatest (version : String) : Bool :=
  version.toLower == "latest"

namespace Lock

/-- The version in a lock file; none when there is no such file. -/
def read (p : Path) : Build (Option String) := do
  match ← attempt (readText p) with
  | .ok text => pure (some (Text.trimmed text))
  | .error failure =>
    match failure.cause with
    | .io .notFound _ => pure none
    | _ => throw (failure.within s!"reading lock file {p}")

/-- Records a version in a lock file. -/
def write (p : Path) (version : String) : Build Unit :=
  within s!"writing lock file {p}" (writeAtomically p (Text.trimmed version))

/-- Removes a lock file, if it is there. -/
def remove (p : Path) : Build Unit := do
  match ← attempt (removeFile p) with
  | .ok () => pure ()
  | .error failure =>
    match failure.cause with
    | .io .notFound _ => pure ()
    | _ => throw (failure.within s!"removing lock file {p}")

end Lock

/-- What is to be done to reach a version of a tool. -/
inductive InstallState where
  /-- Nothing is installed yet. -/
  | new
  /-- Another version is installed. -/
  | update
  /-- The version is installed. -/
  | skip
  deriving DecidableEq, Repr

/-- The name of a state. -/
def InstallState.name : InstallState → String
  | new => "new"
  | update => "update"
  | skip => "skip"

/-- What is to be done to reach a version, told by the lock file in the root of the tool. -/
def InstallState.determine (root lockFile : Path) (version : String) : Build InstallState := do
  if ← holds root then
    match ← Lock.read lockFile with
    | none => pure .new
    | some installed => pure (if installed = version then .skip else .update)
  else
    pure .new

end RamlBuild
