import RamlBuild.Files.IoError
import RamlBuild.Files.Tree

/-!
# Resolving paths

A path is walked step by step from the root or from the working directory. Every step needs a
directory to start in that may be entered, a link on the way is replaced by its target, and a slash
at the end asks for a directory. The last name need not exist.

## Main definitions

* `Files.resolve` — the location of a path, through a link in its place
* `Files.place` — the location of a path's own entry, be it a link
* `Files.stat` — the location and the entry that a path leads to
-/

namespace RamlBuild

/-- A step on the way to a location. -/
inductive Step where
  /-- Be in a directory. -/
  | inside
  /-- Stay. -/
  | here
  /-- Go to the directory above. -/
  | up
  /-- Go to a named entry. -/
  | name (text : String)
  deriving DecidableEq

namespace Path

/-- Whether the path ends in a slash. -/
def endsInSlash (p : Path) : Bool :=
  p.text.toList.getLast? == some '/'

/-- The path without the slashes at its end. The root stays. -/
def dropSlashes (p : Path) : Path :=
  match Text.dropAtEnd '/' p.text.toList with
  | [] => if p.isAbsolute then ⟨"/"⟩ else p
  | text => ⟨String.ofList text⟩

/-- The steps of a path. A slash at its end asks for a directory. -/
def steps (p : Path) : List Step :=
  let pieces := (p.text.toList.splitOn '/').filter (!·.isEmpty)
  let walked := pieces.map fun piece =>
    if piece = ['.'] then .here
    else if piece = ['.', '.'] then .up
    else .name (String.ofList piece)
  if p.endsInSlash then walked ++ [.inside] else walked

end Path

namespace Files

/-- The most bytes of a name. -/
def maxNameSize : Nat := 255

/-- Walks steps from a location up to the first link that is walked through; `beyond` walks on from
there. A link at the end is walked through only when `follow` says so. -/
def walkUpTo (fs : Files) (follow : Bool) (beyond : Location → List Step → Except IoError Location)
    (loc : Location) (steps : List Step) : Except IoError Location :=
  match steps with
  | [] => .ok loc
  | step :: rest =>
    match fs.get? loc with
    | none => .error .notFound
    | some (.directory mode) =>
      if step != .inside && !(Entry.directory mode).permits .enter then .error .permissionDenied
      else
        match step with
        | .inside | .here => fs.walkUpTo follow beyond loc rest
        | .up => fs.walkUpTo follow beyond loc.dropLast rest
        | .name n =>
          if maxNameSize < n.utf8ByteSize then .error .nameTooLong
          else
            match fs.get? (loc ++ [n]) with
            -- The last name may be free, one on the way may not.
            | none => if rest.isEmpty then .ok (loc ++ [n]) else .error .notFound
            | some (.link target) =>
              if rest.isEmpty && !follow then .ok (loc ++ [n])
              else
                -- A relative target starts at the directory of the link.
                beyond (if target.isAbsolute then [] else loc) (target.steps ++ rest)
            | some _ => fs.walkUpTo follow beyond (loc ++ [n]) rest
    | some _ => .error .notDirectory

/-- Walks steps from a location, through at most `links` links. A link at the end is walked through
only when `follow` says so. -/
def walk (fs : Files) (follow : Bool) : (links : Nat) → Location → List Step →
    Except IoError Location
  | 0 => fs.walkUpTo follow fun _ _ => .error .filesystemLoop
  | links + 1 => fs.walkUpTo follow (fs.walk follow links)

/-- The most links that are walked through on the way to one location. -/
def maxLinks : Nat := 40

/-- The size in bytes that every path stays below. -/
def pathSizeLimit : Nat := 4096

/-- A path can be handed to an operation. The empty path leads nowhere, and no path holds a null
character. -/
def requirePath (p : Path) : Except IoError Unit :=
  if p.text.isEmpty then .error .notFound
  else if p.text.toList.contains '\x00' then .error .invalidInput
  else if pathSizeLimit ≤ p.text.utf8ByteSize then .error .nameTooLong
  else .ok ()

/-- The location of a path. -/
def locate (fs : Files) (follow : Bool) (p : Path) : Except IoError Location := do
  requirePath p
  fs.walk follow maxLinks (if p.isAbsolute then [] else fs.workingDirectory) p.steps

/-- The location that a path leads to, through a link in its place. -/
def resolve (fs : Files) (p : Path) : Except IoError Location :=
  fs.locate true p

/-- The location of a path's own entry. -/
def place (fs : Files) (p : Path) : Except IoError Location :=
  fs.locate false p

/-- The entry at a location, where there has to be one. -/
def entryAt (fs : Files) (loc : Location) : Except IoError Entry :=
  match fs.get? loc with
  | some e => .ok e
  | none => .error .notFound

/-- The location that a path leads to, and the entry there. -/
def stat (fs : Files) (p : Path) : Except IoError (Location × Entry) := do
  let loc ← fs.resolve p
  let e ← fs.entryAt loc
  .ok (loc, e)

/-- Whether a path has an entry of its own, be it a link. -/
def hasEntry (fs : Files) (p : Path) : Bool :=
  match fs.place p with
  | .ok loc => (fs.get? loc).isSome
  | .error _ => false

/-- Whether a path leads to an entry. -/
def holds (fs : Files) (p : Path) : Bool :=
  match fs.stat p with
  | .ok _ => true
  | .error _ => false

/-- Whether a path leads to a file. -/
def isFile (fs : Files) (p : Path) : Bool :=
  match fs.stat p with
  | .ok (_, .file _ _ _) => true
  | _ => false

/-- Whether a path leads to a directory. -/
def isDirectory (fs : Files) (p : Path) : Bool :=
  match fs.stat p with
  | .ok (_, .directory _) => true
  | _ => false

end Files

end RamlBuild
