import Std.Time
import RamlBuild.CommandLine.Invocation

/-!
# The program

The program reads the directory that it is started in into a file tree, does what its words ask for
on that tree, and brings the directory to the tree it ended with. What was done before a failure is
brought there too. Other programs and the network are out of its reach: no program is found and no
request is answered.

One file tree is brought to another in two steps: what has no counterpart of its kind goes, children
before parents, and then what is new or different comes, parents before children.

## Main definitions

* `Files.leaving`, `Files.coming` — what goes and what comes
* `startingHost` — the host that the program works on
* `main` — the program
-/

namespace RamlBuild

/-! ### Changes between file trees -/

/-- What an entry can be. -/
inductive EntryKind where
  | file | directory | link
  deriving DecidableEq, Repr

/-- What an entry is. -/
def Entry.kind : Entry → EntryKind
  | file _ _ _ => .file
  | directory _ => .directory
  | link _ => .link

namespace Files

/-- The entries of a tree below a location, with their own locations. -/
def entriesBelow (fs : Files) (loc : Location) : List (Location × Entry) :=
  (fs.below loc).map fun (names, e) => (loc ++ names, e)

/-- The entries below a location that another tree has nothing of the same kind for, children first.
-/
def leaving (before after : Files) (loc : Location) : List (Location × Entry) :=
  ((before.entriesBelow loc).filter fun (l, e) =>
    !(after.get? l).any fun e' => e'.kind = e.kind).reverse

/-- The entries below a location that another tree did not have, parents first. -/
def coming (before after : Files) (loc : Location) : List (Location × Entry) :=
  (after.entriesBelow loc).filter fun (l, e) => before.get? l != some e

end Files

/-! ### Directories on the disk -/

/-- How far down directories are read. -/
def depthLimit : Nat := 256

/-- Reads what is below a directory, at most `depth` levels down. Entries that are not a file, a
directory or a link are passed over. -/
def readBelow : (depth : Nat) → (directory : Location) → IO (List (Location × Entry))
  | 0, _ => pure []
  | depth + 1, directory => do
    let mut entries := []
    for item in ← (← IO.FS.realPath directory.path.text).readDir do
      let here := directory ++ [item.fileName]
      match (← item.path.symlinkMetadata).type with
      | .file =>
        let contents ← IO.FS.readBinFile item.path
        entries := entries ++ [(here, Entry.file contents Files.newMode none)]
      | .dir =>
        let inner ← readBelow depth here
        entries := entries ++ (here, Entry.directory Files.directoryMode) :: inner
      | .symlink =>
        entries := entries ++ [(here, Entry.link ⟨(← IO.FS.realPath item.path).toString⟩)]
      | .other => pure ()
    pure entries

/-- The location that an absolute path writes out. -/
def locationOf (path : Path) : Location :=
  path.components.filterMap fun
    | .name text => some text
    | _ => none

/-- Reads the current directory into a file tree. -/
def readFiles : IO Files := do
  let location := locationOf ⟨(← IO.currentDir).toString⟩
  let above := (List.range location.length).map fun n =>
    (location.take (n + 1), Entry.directory Files.directoryMode)
  pure ⟨above ++ (← readBelow depthLimit location), location⟩

/-- Removes an entry from the disk. -/
def removeEntry (loc : Location) : Entry → IO Unit
  | .directory _ => IO.FS.removeDir loc.path.text
  | _ => IO.FS.removeFile loc.path.text

/-- What three permission bits allow. -/
def accessRight (bits : Nat) : IO.AccessRight :=
  ⟨bits.testBit 2, bits.testBit 1, bits.testBit 0⟩

/-- What permission bits allow the owner, the group and others. -/
def fileRight (mode : Nat) : IO.FileRight :=
  ⟨accessRight (mode / 0o100), accessRight (mode / 0o10), accessRight mode⟩

/-- Makes an entry on the disk, or changes the one of its kind that is there. Permission bits are
set where they are not the usual ones. Links are left out. -/
def makeEntry (loc : Location) : Entry → IO Unit
  | .file contents mode _ => do
    IO.FS.writeBinFile loc.path.text contents
    if mode != Files.newMode then IO.setAccessRights loc.path.text (fileRight mode)
  | .directory mode => do
    IO.FS.createDirAll loc.path.text
    if mode != Files.directoryMode then IO.setAccessRights loc.path.text (fileRight mode)
  | .link _ => pure ()

/-- Brings the working directory of a tree from the tree to another. -/
def bring (before after : Files) : IO Unit := do
  for (loc, e) in before.leaving after before.workingDirectory do
    removeEntry loc e
  for (loc, e) in before.coming after before.workingDirectory do
    makeEntry loc e

/-- The environment variables that a build may ask for. -/
def readEnvironment : List String → IO (List (String × String))
  | [] => pure []
  | name :: rest => do
    let others ← readEnvironment rest
    pure (((← IO.getEnv name).map fun value => (name, value)).toList ++ others)

/-- The current time in the form of RFC 3339. -/
def readTime : IO String := do
  let instant ← Std.Time.Timestamp.now
  let now := Std.Time.DateTime.ofTimestamp instant Std.Time.TimeZone.ZoneRules.UTC
  pure (now.format "uuuu-MM-dd'T'HH:mm:ss.SSSSSSSSS'Z'")

/-- The host that the program works on. -/
def startingHost (files : Files) (environment : List (String × String)) (now : String) : Host where
  files := files
  faults := fun _ => none
  operations := 0
  searchPath := []
  programOf := fun _ => none
  network := fun _ => none
  environment := environment
  system := "linux"
  now := now
  calls := []
  requests := []
  output := .empty

/-- Does what is asked for, and tells with which status the program ends. -/
def perform (invocation : Invocation) : IO UInt32 := do
  let before ← readFiles
  let host := startingHost before (← readEnvironment Task.credentialNames) (← readTime)
  let (result, after) := (invocation.run.run).run host
  bring before after.files
  (← IO.getStdout).write after.output
  match result with
  | .ok () => pure 0
  | .error failure => do
    IO.eprintln ("Error: " ++ failure.headline)
    pure 1

/-- How the program is called. -/
def usage : String :=
  "Usage: container-forge [--config FILE] [--json] [--verbose] TASK"

/-- Does what words ask for, and tells with which status the program ends. -/
def performWords (words : List String) : IO UInt32 := do
  match Invocation.ofWords words with
  | .ok invocation => perform invocation
  | .error .usage => do
    IO.eprintln usage
    pure 2
  | .error .help => do
    IO.println usage
    pure 0
  | .error .version => do
    IO.println Invocation.versionLine
    pure 0

end RamlBuild

/-- The program. -/
def main (words : List String) : IO UInt32 :=
  RamlBuild.performWords words
