import RamlBuild.Host

/-!
# Working on files

The operations that builds use on files, each told by its path when it fails.

## Main definitions

* `Build.readText` — the text of a file
* `Build.createDirectories` — a directory with the directories above it
* `Build.writeAtomically` — a file replaced as a whole
* `Build.rewrite` — a file replaced by what becomes of its text
-/

namespace RamlBuild.Build

/-- Whether a path leads to a file. -/
def isFile (p : Path) : Build Bool := asking (·.isFile p)

/-- Whether a path leads to a directory. -/
def isDirectory (p : Path) : Build Bool := asking (·.isDirectory p)

/-- Whether a path leads to an entry. -/
def holds (p : Path) : Build Bool := asking (·.holds p)

/-- The contents of a file. -/
def readBytes (p : Path) : Build ByteArray :=
  reading s!"failed to open file `{p}`" (·.readFile p)

/-- The text of a file. -/
def readText (p : Path) : Build String := do
  match String.fromUTF8? (← readBytes p) with
  | some text => pure text
  | none => fail (.io .invalidData s!"failed to read from file `{p}`")

/-- Writes a file in place. -/
def writeBytes (p : Path) (contents : ByteArray) : Build Unit :=
  changing s!"failed to create file `{p}`" (·.writeFile p contents Files.newMode)

/-- Removes a file or a link. -/
def removeFile (p : Path) : Build Unit :=
  changing s!"failed to remove file `{p}`" (·.removeFile p)

/-- Removes a directory with all that is in it. -/
def removeTree (p : Path) : Build Unit :=
  changing s!"failed to remove directory `{p}`" (·.removeTree p)

/-- Moves an entry. -/
def rename (source target : Path) : Build Unit :=
  changing s!"failed to rename file from {source} to {target}" (·.rename source target)

/-- Copies a file. -/
def copyFile (source target : Path) : Build Unit :=
  changing s!"failed to copy file from {source} to {target}" (·.copyFile source target)

/-- Makes a directory unless it is there. Whether it is there now: it is not when the directory
above it is missing. -/
def makeDirectory (activity : String) (p : Path) : Build Bool := do
  match ← attempt (changing activity (·.createDirectory p)) with
  | .ok () => pure true
  | .error failure =>
    if failure.cause = .io .notFound activity then pure false
    else if ← isDirectory p then pure true
    else throw failure

/-- Makes the first of the paths a directory, after the ones behind it where it needs them. -/
def makeDirectories (activity : String) : List Path → Build Unit
  | [] => fail (.io .notFound activity)
  | p :: above => do
    if p.text.isEmpty then pure ()
    else if ← makeDirectory activity p then pure ()
    else
      -- The directory above is missing: it is made first, and then this one once more.
      makeDirectories activity above
      if ← makeDirectory activity p then pure ()
      else fail (.io .notFound activity)

/-- Makes a directory with the directories above it. -/
def createDirectories (p : Path) : Build Unit :=
  makeDirectories s!"failed to create directory `{p}`" p.ancestors

/-- The entries of a directory, by name. -/
def list (p : Path) : Build (List (String × Entry)) :=
  reading s!"failed to read directory `{p}`" (·.list p)

/-- The permission bits of a temporary file. -/
def temporaryMode : Nat := 0o600

/-- Makes an empty temporary file in a directory. -/
def createTemporary (dir : Path) : Build Location := do
  let p := (← files).temporaryPath dir ".forge-" ".tmp"
  let loc ← reading s!"failed to create file at `{p}`" (·.freePlace p)
  modify fun host => { host with files := host.files.put loc (.file .empty temporaryMode none) }
  pure loc

/-- Gives a new file the permissions of the file that it will replace, if there is one. -/
def adoptMode (loc : Location) (p : Path) : Build Unit := do
  -- A file that is new keeps the permissions of the temporary one.
  if ← holds p then
    let mode ← reading s!"failed to query metadata of file `{p}`" fun fs =>
      .ok ((fs.mode? p).getD temporaryMode)
    changing s!"failed to set permissions for file `{p}`" fun fs => .ok (fs.setMode loc mode)

/-- Replaces a file as a whole: the text goes to a temporary file beside it, which takes its place
once it is complete. When anything fails the temporary file is removed and the file is as it was. -/
def writeAtomically (p : Path) (text : String) : Build Unit := do
  let dir := p.directory
  let temporary ← within s!"creating temporary file in {dir}" (createTemporary dir)
  cleaningUp (·.erase temporary) do
    within s!"writing temporary file for {p}" <|
      changing "failed to write" fun fs => .ok (fs.rewriteFile temporary text.toUTF8 temporaryMode)
    within s!"syncing temporary file for {p}" <|
      operation "failed to sync"
    adoptMode temporary p
    within s!"replacing {p}" <|
      changing "failed to rename" (·.moveTo temporary p)

/-- Replaces a file by what becomes of its text. Whether it changed: a file whose text stays as it
was is not written. -/
def rewrite (p : Path) (transform : String → Except Cause String) : Build Bool := do
  let input ← readText p
  match transform input with
  | .error cause => throw ((Failure.of cause).within s!"patching {p}")
  | .ok output =>
    if output = input then pure false
    else
      writeAtomically p output
      pure true

/-- Rewrites files one after the other; the ones that changed. -/
def rewriteAll (transform : Path → String → Except Cause String) : List Path → Build (List Path)
  | [] => pure []
  | p :: rest => do
    let changed ← rewrite p (transform p)
    let others ← rewriteAll transform rest
    pure (if changed then p :: others else others)

end RamlBuild.Build
