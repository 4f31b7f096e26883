import RamlBuild.Files.Resolve

/-!
# Operations on files

Each operation either fails with an error and leaves the tree alone, or gives the tree after it. The
permission bits of what it works on say whether the owner may do it.

## Main definitions

* `Files.readFile`, `Files.list` — reading
* `Files.createDirectory`, `Files.writeFile`, `Files.copyFile` — writing
* `Files.createFile`, `Files.createLink`, `Files.createName` — making entries where nothing is
* `Files.removeFile`, `Files.removeTree`, `Files.rename` — removing and moving
* `Files.temporaryPath` — a path for a temporary entry
-/

namespace RamlBuild.Files

/-- The permission bits of a new file. -/
def newMode : Nat := 0o644

/-- Whether the entries of the directory at a location may be changed. -/
def mayChange (fs : Files) (directory : Location) : Bool :=
  (fs.get? directory).all fun e => e.permits .write && e.permits .enter

/-- The location of a path where an entry can be made: nothing is there yet. -/
def freePlace (fs : Files) (p : Path) : Except IoError Location := do
  let loc ← fs.place p
  match fs.get? loc with
  | some _ => .error .alreadyExists
  | none => if fs.mayChange loc.dropLast then .ok loc else .error .permissionDenied

/-- The contents of a file. -/
def readFile (fs : Files) (p : Path) : Except IoError ByteArray := do
  let (_, e) ← fs.stat p
  if !e.permits .read then .error .permissionDenied
  match e with
  | .file contents _ _ => .ok contents
  | _ => .error .isDirectory

/-- The permission bits of a file or directory. -/
def mode? (fs : Files) (p : Path) : Option Nat :=
  match fs.stat p with
  | .ok (_, e) => e.mode?
  | .error _ => none

/-- The entries of a directory, by name. -/
def list (fs : Files) (p : Path) : Except IoError (List (String × Entry)) := do
  match ← fs.stat p with
  | (loc, .directory mode) =>
    if (Entry.directory mode).permits .read then .ok (fs.children loc)
    else .error .permissionDenied
  | _ => .error .notDirectory

/-- Makes a directory in an existing one. -/
def createDirectory (fs : Files) (p : Path) : Except IoError Files := do
  let loc ← fs.freePlace p.dropSlashes
  .ok (fs.put loc (.directory directoryMode))

/-- Where a file can be written: a location that holds a file already, or that holds nothing. -/
def writable (fs : Files) (p : Path) : Except IoError Location :=
  if p.endsInSlash then do
    let _ ← fs.place p.dropSlashes
    .error .isDirectory
  else do
    let loc ← fs.resolve p
    match fs.get? loc with
    | some (.directory _) => .error .isDirectory
    | some e => if e.permits .write then .ok loc else .error .permissionDenied
    | none => if fs.mayChange loc.dropLast then .ok loc else .error .permissionDenied

/-- Writes a file. An existing one is emptied first and keeps its permissions; a new one has the
given permissions. -/
def writeFile (fs : Files) (p : Path) (contents : ByteArray) (mode : Nat) :
    Except IoError Files := do
  let loc ← fs.writable p
  .ok (fs.rewriteFile loc contents (((fs.get? loc).bind Entry.mode?).getD mode))

/-- Makes an empty file where nothing is. -/
def createFile (fs : Files) (p : Path) : Except IoError Files := do
  let loc ← fs.freePlace p
  .ok (fs.put loc (.file .empty newMode none))

/-- Makes a link where nothing is. Its target need not be there. -/
def createLink (fs : Files) (target p : Path) : Except IoError Files := do
  requirePath target
  let loc ← fs.freePlace p
  .ok (fs.put loc (.link target))

/-- A number that no file of the tree has. -/
def freshNumber (fs : Files) : Nat :=
  fs.entries.foldl (fun n (_, e) => max n ((e.shared?.map (· + 1)).getD 0)) 0

/-- Gives a file one more name. From then on a change under one name shows under the other. A link
is given the name itself. -/
def createName (fs : Files) (source p : Path) : Except IoError Files := do
  let origin ← fs.place source
  let e ← fs.entryAt origin
  let loc ← fs.place p
  match fs.get? loc, e with
  | some _, _ => .error .alreadyExists
  | none, .directory _ => .error .permissionDenied
  | none, e =>
    if !fs.mayChange loc.dropLast then .error .permissionDenied
    else
      match e with
      | .file contents mode none =>
        let e : Entry := .file contents mode (some fs.freshNumber)
        .ok ((fs.put origin e).put loc e)
      | e => .ok (fs.put loc e)

/-- Copies a file with its permissions. The target is emptied before the source is read, so a file
copied to itself ends up empty, be it under another name. -/
def copyFile (fs : Files) (source target : Path) : Except IoError Files := do
  let (loc, e) ← fs.stat source
  if !e.permits .read then .error .permissionDenied
  match e with
  | .file contents mode _ =>
    let targetLoc ← fs.writable target
    let isSame := targetLoc = loc || (fs.get? targetLoc).any e.isSameFile
    .ok (fs.rewriteFile targetLoc (if isSame then .empty else contents) mode)
  | _ => .error .invalidInput

/-- Removes a file or a link. -/
def removeFile (fs : Files) (p : Path) : Except IoError Files := do
  let loc ← fs.place p
  let e ← fs.entryAt loc
  if !fs.mayChange loc.dropLast then .error .permissionDenied
  match e with
  | .directory _ => .error .isDirectory
  | _ => .ok (fs.erase loc)

/-- Whether the directory at a location can be emptied, with the directories below it. -/
def mayEmpty (fs : Files) (loc : Location) : Bool :=
  (loc :: (fs.below loc).map fun (names, _) => loc ++ names).all fun l =>
    match fs.get? l with
    | some (.directory mode) =>
      (Entry.directory mode).permits .read && (fs.mayChange l || (fs.children l).isEmpty)
    | _ => true

/-- Removes a directory with all that is in it, or a link. -/
def removeTree (fs : Files) (p : Path) : Except IoError Files := do
  let loc ← fs.place p
  match ← fs.entryAt loc with
  | .directory _ =>
    if fs.mayEmpty loc && fs.mayChange loc.dropLast then .ok (fs.eraseTree loc)
    else .error .permissionDenied
  | .link _ => if fs.mayChange loc.dropLast then .ok (fs.erase loc) else .error .permissionDenied
  | .file _ _ _ => .error .notDirectory

/-- Whether a path ends in a step that is not a name. -/
def endsUnnamed (p : Path) : Bool :=
  match p.dropSlashes.steps.getLast? with
  | some (.name _) => false
  | _ => true

/-- Moves the entry at a location to a path. A file replaces another file, a directory an empty
directory. Of two names of one file both stay. -/
def moveTo (fs : Files) (loc : Location) (target : Path) : Except IoError Files := do
  let targetLoc ← fs.place target.dropSlashes
  if endsUnnamed target then
    .error .resourceBusy
  let e ← fs.entryAt loc
  if !e.isDirectory && target.endsInSlash then .error .notDirectory
  if targetLoc = loc || (fs.get? targetLoc).any e.isSameFile then .ok fs
  -- A directory cannot come to lie inside itself.
  else if loc.isPrefixOf targetLoc && e.isDirectory then .error .invalidInput
  else if targetLoc.isPrefixOf loc then .error .directoryNotEmpty
  else if !(fs.mayChange loc.dropLast && fs.mayChange targetLoc.dropLast) then
    .error .permissionDenied
  else
    match e, fs.get? targetLoc with
    | .directory _, none => .ok (fs.moveTree loc targetLoc)
    | .directory _, some (.directory _) =>
      if (fs.below targetLoc).isEmpty then .ok (fs.moveTree loc targetLoc)
      else .error .directoryNotEmpty
    | .directory _, some _ => .error .notDirectory
    | _, some (.directory _) => .error .isDirectory
    | e, _ => .ok ((fs.erase loc).put targetLoc e)

/-- Moves the entry at one path to another. -/
def rename (fs : Files) (source target : Path) : Except IoError Files := do
  let loc ← fs.place source
  let _ ← fs.place target.dropSlashes
  if endsUnnamed source then
    .error .resourceBusy
  fs.moveTo loc target

/-- The label of the `n`-th candidate for a temporary name. -/
def temporaryLabel : Nat → String
  | 0 => "XXXXXX"
  | n + 1 => "XXXXXX" ++ toString (n + 1)

/-- The absolute path of a new entry with a temporary name in a directory: the name is its start and
end with the first label that makes it free. Among one more labels than there are entries one does.
-/
def temporaryPath (fs : Files) (dir : Path) (start ending : String) : Path :=
  let count := fs.entries.length
  let path := fun n => fs.workingDirectory.path / dir / (start ++ temporaryLabel n ++ ending)
  path (((List.range count).find? fun n => !fs.hasEntry (path n)).getD count)

/-- The tree with other permissions for the file or directory at a location. -/
def setMode (fs : Files) (loc : Location) (mode : Nat) : Files :=
  match fs.get? loc with
  | some (.file contents _ _) => fs.rewriteFile loc contents mode
  | some (.directory _) => fs.put loc (.directory mode)
  | _ => fs

end RamlBuild.Files
