import RamlBuild.Archive.Member
import RamlBuild.Build.Files
import RamlBuild.Text.Lossy

/-!
# Unpacking archives

An archive is unpacked into a directory, member by member. A member whose name leads up is refused,
and one that would come to lie outside of the directory because of a link in it is an error. The
files of the archive are told by the paths that their names give.

## Main definitions

* `targetNames?` — the names that lead to a member from the directory
* `unpackMember` — unpacks one member
* `unpack` — unpacks an archive, and tells its files
-/

namespace RamlBuild

open Build

namespace Archive

/-- The names that lead to a member from the directory that it is unpacked into. Roots and dots in
its name do not count; a name that leads up gives none. -/
def targetNames? (name : Path) : Option (List String) :=
  if name.components.contains .parent then none
  else
    some <| name.components.filterMap fun
      | .name n => some n
      | _ => none

/-- The location that a path leads to lies at or below the one that a directory leads to. -/
def requireInside (dest p : Path) : Build Unit := do
  let (inner, _) ← reading s!"{p}" (·.stat p)
  let (outer, _) ← reading s!"{dest}" (·.stat dest)
  if outer.isPrefixOf inner then pure () else fail .archive

/-- Makes directories that are missing, the outermost last in the list, each inside the destination.
-/
def createInside (dest : Path) : List Path → Build Unit
  | [] => pure ()
  | p :: above => do
    createInside dest above
    match p.parent? with
    | some parent => requireInside dest parent
    | none => pure ()
    createDirectories p

/-- Whether a path's own entry is a directory. -/
def isOwnDirectory (fs : Files) (p : Path) : Bool :=
  match fs.place p with
  | .ok loc => (fs.get? loc).any Entry.isDirectory
  | .error _ => false

/-- Makes a directory unless it is there. A link to a directory is in the way. -/
def ensureDirectory (p : Path) : Build Unit := do
  match ← attempt (changing s!"{p}" (·.createDirectory p)) with
  | .ok () => pure ()
  | .error failure =>
    if failure.cause = .io .alreadyExists s!"{p}" && (← asking (isOwnDirectory · p)) then pure ()
    else throw failure

/-- Makes a link; one that is there already is replaced. -/
def placeLink (target p : Path) : Build Unit := do
  match ← attempt (changing s!"{p}" (·.createLink target p)) with
  | .ok () => pure ()
  | .error failure =>
    if failure.cause = .io .alreadyExists s!"{p}" then
      removeFile p
      changing s!"{p}" (·.createLink target p)
    else throw failure

/-- Makes an empty file; one that is there already is removed first. -/
def placeFile (p : Path) : Build Unit := do
  match ← attempt (changing s!"{p}" (·.createFile p)) with
  | .ok () => pure ()
  | .error failure =>
    if failure.cause = .io .alreadyExists s!"{p}" then
      removeFile p
      changing s!"{p}" (·.createFile p)
    else throw failure

/-- The permission bits that are kept. -/
def keptMode (mode : Nat) : Nat := mode % 0o10000

/-- Gives a file or directory the permissions of its member. -/
def placeMode (m : Member) (p : Path) : Build Unit :=
  match m.mode with
  | some mode =>
    changing s!"{p}" fun fs => do
      let loc ← fs.resolve p
      .ok (fs.setMode loc (keptMode mode))
  | none => pure ()

/-- Unpacks a file with its permissions. -/
def placeContents (m : Member) (p : Path) : Build Unit := do
  placeFile p
  writeBytes p m.contents
  if m.isWhole then placeMode m p else fail .archive

/-- The link of a member. -/
def linkTarget (m : Member) : Build Path := do
  let target : Path := ⟨Text.decodeLossy ⟨m.link.toArray⟩⟩
  if target.components.isEmpty then fail .archive else pure target

/-- Unpacks a member at a path inside the destination. -/
def place (dest : Path) (m : Member) (p : Path) : Build Unit := do
  if m.makesDirectory then
    ensureDirectory p
    placeMode m p
  else
    match m.kind with
    | .symbolicLink => placeLink (← linkTarget m) p
    | .hardLink => do
      let (loc, _) ← reading s!"{dest}" (·.stat dest)
      -- The earlier file is named from the destination, not from the member.
      let source := loc.path / (← linkTarget m)
      requireInside loc.path source
      changing s!"{p}" (·.createName source p)
    | .file | .sparseFile | .other => placeContents m p
    | _ => pure ()

/-- Unpacks a member in a directory, unless its name leads up; whether it does not. -/
def unpackMember (dest : Path) (m : Member) (name : Path) : Build Bool := do
  match targetNames? name with
  | none => pure false
  | some [] => pure true
  | some names =>
    let p := dest.descend names
    match p.parent? with
    | none => pure false
    | some parent =>
      let fs ← files
      -- Only directories that are missing are made, and a link among those that are there is
      -- caught.
      createInside dest (parent.ancestors.takeWhile (!fs.hasEntry ·))
      requireInside dest parent
      place dest m p
      pure true

/-- The path that the name of a member stands for. -/
def memberName (m : Member) : Build Path :=
  match textOf? m.name with
  | some text => pure ⟨text⟩
  | none => failWith s!"non utf-8 archive entry {Text.decodeLossy ⟨m.name.toArray⟩}"

/-- Unpacks the members from a place of the archive on. `count` bounds their number. -/
def unpackFrom (archive dest : Path) (stream : Stream) :
    (count : Nat) → (start : Nat) → Build (List Path)
  | 0, _ => pure []
  | count + 1, start =>
    match nextMember stream start with
    | .finished => pure []
    | .damaged => within s!"reading {archive}" (fail .archive)
    | .member m next => do
      let name ← memberName m
      if ← within s!"unpacking {name} into {dest}" (unpackMember dest m name) then
        let others ← unpackFrom archive dest stream count next
        pure (if m.kind = .file then dest / name :: others else others)
      else
        failWith s!"archive entry {name} escapes {dest}"

end Archive

/-- Unpacks a compressed archive into a directory, and tells the files in it. -/
def unpack (archive dest : Path) : Build (List Path) := do
  if !(← holds archive) then
    failWith s!"archive {archive} missing"
  else
    createDirectories dest
    let bytes ← within s!"reading {archive}" (readBytes archive)
    match Archive.Stream.ofCompressed? bytes with
    | none => within s!"reading {archive}" (fail .archive)
    | some stream =>
      Archive.unpackFrom archive dest stream (stream.bytes.size / Archive.blockSize + 2) 0

end RamlBuild
