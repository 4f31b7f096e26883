import RamlBuild.Build.Files

/-!
# Artifacts

The artifacts of a tool are files in its root. They are removed by their names, and put in place by
moving them from where they were built.
-/

namespace RamlBuild

open Build

/-- Removes the files of a directory whose names are wanted gone. -/
def removeEach (dir : Path) : List String → Build Unit
  | [] => pure ()
  | name :: rest => do
    removeFile (dir / name)
    removeEach dir rest

/-- The names of the files directly in a directory; none when it is missing. -/
def fileNames (dir : Path) : Build (List String) := do
  match ← attempt (list dir) with
  | .ok entries => pure ((entries.filter (·.2.isFile)).map (·.1))
  | .error failure =>
    match failure.cause with
    | .io .notFound _ => pure []
    | _ => throw (failure.within s!"listing {dir}")

/-- Removes the files directly in a directory whose names satisfy a condition. -/
def removeMatching (dir : Path) (condition : String → Bool) : Build Unit := do
  removeEach dir ((← fileNames dir).filter condition)

/-- Moves a file to a place whose directory is made where it is missing. -/
def moveArtifact (source target : Path) : Build Unit := do
  match target.parent? with
  | some parent => createDirectories parent
  | none => pure ()
  within s!"moving {source} to {target}" (rename source target)

end RamlBuild
