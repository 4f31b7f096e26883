import RamlBuild.Text.Search

/-!
# Paths

A path is its text. Its components are read off the pieces between slashes: a slash at the front is
the root, a lone `.` at the front the current directory, and every other empty or `.` piece is
filler. Joining keeps the texts as they are, so a path prints the way it was put together.

## Main definitions

* `Path.join` — a path below another; an absolute one replaces it
* `Path.components` — what a path denotes, piece by piece
* `Path.fileName?`, `Path.parent?`, `Path.withFileName` — the last component and the rest
* `Path.stem`, `Path.extension?` — a file name around its last dot
-/

namespace RamlBuild

/-- A path, as its text. -/
structure Path where
  /-- The path as it is printed. -/
  text : String
  deriving DecidableEq, Repr, Inhabited

instance : ToString Path := ⟨Path.text⟩

/-- One step of a path. -/
inductive Component where
  /-- The root directory. -/
  | root
  /-- The directory the path starts from, written as a dot. -/
  | current
  /-- One directory up. -/
  | parent
  /-- A named entry. -/
  | name (text : String)
  deriving DecidableEq, Repr

namespace Path

/-- A path that does not depend on the working directory. -/
def isAbsolute (p : Path) : Bool :=
  p.text.toList.head? == some '/'

/-- A path below another. A slash is put between them unless the base is empty or ends in one. -/
def join (base next : Path) : Path :=
  if next.isAbsolute then next
  else if base.text.isEmpty || base.text.toList.getLast? == some '/' then ⟨base.text ++ next.text⟩
  else ⟨base.text ++ "/" ++ next.text⟩

instance : HDiv Path String Path := ⟨fun base next => base.join ⟨next⟩⟩

instance : HDiv Path Path Path := ⟨join⟩

/-- The path below another that the given names lead to. -/
def descend (root : Path) (names : List String) : Path :=
  names.foldl (fun (p : Path) (name : String) => p / name) root

/-- Where a path starts. -/
inductive Start where
  /-- At the root. -/
  | root
  /-- At the current directory, written as a dot. -/
  | dot
  /-- At the current directory, unwritten. -/
  | bare
  deriving DecidableEq

/-- Where a path starts, and its pieces after that. -/
def body (p : Path) : Start × List (List Char) :=
  match p.text.toList.splitOn '/' with
  | [] => (.bare, [])
  | first :: rest =>
    if p.isAbsolute then (.root, rest)
    else if first = ['.'] then (.dot, rest)
    else (.bare, first :: rest)

/-- A piece that denotes nothing. -/
def isFiller (piece : List Char) : Bool :=
  piece.isEmpty || piece = ['.']

/-- The component that stands for where a path starts. -/
def Start.component? : Start → List Component
  | .root => [.root]
  | .dot => [.current]
  | .bare => []

/-- The component that a piece denotes. -/
def componentOf (piece : List Char) : Component :=
  if piece = ['.', '.'] then .parent else .name (String.ofList piece)

/-- The components of a path. -/
def components (p : Path) : List Component :=
  let (start, pieces) := p.body
  start.component? ++ (pieces.filter (!isFiller ·)).map componentOf

/-- The name of the last component, if it is a named entry. -/
def fileName? (p : Path) : Option String :=
  match p.components.getLast? with
  | some (.name n) => some n
  | _ => none

/-- Pieces without the filler at their end. -/
def trimFiller (pieces : List (List Char)) : List (List Char) :=
  (pieces.reverse.dropWhile isFiller).reverse

/-- A path from where it starts and its pieces. -/
def ofBody (start : Start) (pieces : List (List Char)) : Path :=
  let text := String.ofList (['/'].intercalate pieces)
  match start, pieces with
  | .root, _ => ⟨"/" ++ text⟩
  | .dot, [] => ⟨"."⟩
  | .dot, _ => ⟨"./" ++ text⟩
  | .bare, _ => ⟨text⟩

/-- The path without its last component. The root and the empty path have none. -/
def parent? (p : Path) : Option Path :=
  let (start, pieces) := p.body
  match trimFiller pieces with
  | [] => if start = .dot then some ⟨""⟩ else none
  | named => some (ofBody start (trimFiller named.dropLast))

/-- A path and the paths above it, at most `count` of them. -/
def ancestorsUpTo : (count : Nat) → Path → List Path
  | 0, p => [p]
  | count + 1, p =>
    match p.parent? with
    | some parent => p :: ancestorsUpTo count parent
    | none => [p]

/-- A path and the paths above it. Each has one component less than the one before. -/
def ancestors (p : Path) : List Path :=
  ancestorsUpTo p.components.length p

/-- The path with its file name replaced, or extended by one when it has none. -/
def withFileName (p : Path) (name : String) : Path :=
  match p.fileName?, p.parent? with
  | some _, some parent => parent / name
  | _, _ => p / name

/-- The directory that holds the path's entry, written as a dot when the path does not say. -/
def directory (p : Path) : Path :=
  match p.parent? with
  | some parent => if parent.text.isEmpty then ⟨"."⟩ else parent
  | none => ⟨"."⟩

/-- A file name around its last dot. A dot at its start does not count. -/
def splitName (name : List Char) : List Char × Option (List Char) :=
  match Text.beforeLast? '.' name with
  | none => (name, none)
  | some [] => (name, none)
  | some before => (before, some (Text.afterLast '.' name))

/-- The file name up to its last dot, empty when there is no file name. -/
def stem (p : Path) : String :=
  match p.fileName? with
  | some n => String.ofList (splitName n.toList).1
  | none => ""

/-- The file name behind its last dot. -/
def extension? (p : Path) : Option String :=
  p.fileName?.bind fun n => (splitName n.toList).2.map String.ofList

/-- Whether the path's text ends with the given one. -/
def endsWith (p : Path) (ending : String) : Bool :=
  Text.endsWith ending p.text.toList

/-- Two paths with the same components. -/
def sameAs (p q : Path) : Bool :=
  p.components = q.components

/-- The text of a path below a directory, from the directory on; the whole text elsewhere. -/
def relativeTo (p root : Path) : String :=
  match Text.after? root.text.toList p.text.toList with
  | some ('/' :: rest) => String.ofList rest
  | _ => p.text

@[simp] theorem join_of_isAbsolute {base next : Path} (h : next.isAbsolute) :
    base.join next = next := by
  simp [join, h]

end Path

end RamlBuild
