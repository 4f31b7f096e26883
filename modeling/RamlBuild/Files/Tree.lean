import RamlBuild.Path

/-!
# File trees

A file tree maps locations to entries: files, directories and links. A location is the list of names
that leads to an entry from the root down; the root is always there.

## Main definitions

* `Files` — a file tree with its working directory
* `Files.get?` — the entry at a location
* `Files.put`, `Files.erase`, `Files.eraseTree` — changing entries
* `Files.rewriteFile` — changing a file under all of its names
* `Files.below` — all entries below a location, parents first and siblings by name

## Main results

* `Files.get?_put_self`, `Files.get?_put_of_ne` — an entry that is put, and the others
* `Files.get?_erase_self`, `Files.get?_erase_of_ne` — an entry that is erased, and the others
-/

namespace RamlBuild

/-- The names that lead to an entry from the root down. -/
abbrev Location := List String

/-- The absolute path of a location. -/
def Location.path (loc : Location) : Path :=
  ⟨"/" ++ "/".intercalate loc⟩

/-- Whether a location comes before another: a parent first, and siblings by name. -/
def Location.precedes (a b : Location) : Bool :=
  decide (a.map String.toList < b.map String.toList)

/-- An entry of a file tree. -/
inductive Entry where
  /-- A file with its contents and permission bits. A file with several names has an entry for each,
  and a number that these entries share. -/
  | file (contents : ByteArray) (mode : Nat) (shared : Option Nat)
  /-- A directory with its permission bits. -/
  | directory (mode : Nat)
  /-- A symbolic link. -/
  | link (target : Path)
  deriving Inhabited

instance : DecidableEq Entry
  | .file contents mode shared, .file contents' mode' shared' =>
    have : Decidable (contents = contents') := ByteArray.instDecidableEq contents contents'
    decidable_of_iff _
      (Iff.of_eq (Entry.file.injEq contents mode shared contents' mode' shared')).symm
  | .directory mode, .directory mode' =>
    decidable_of_iff _ (Iff.of_eq (Entry.directory.injEq mode mode')).symm
  | .link target, .link target' =>
    decidable_of_iff _ (Iff.of_eq (Entry.link.injEq target target')).symm
  | .file _ _ _, .directory _ => isFalse nofun
  | .file _ _ _, .link _ => isFalse nofun
  | .directory _, .file _ _ _ => isFalse nofun
  | .directory _, .link _ => isFalse nofun
  | .link _, .file _ _ _ => isFalse nofun
  | .link _, .directory _ => isFalse nofun

/-- What permission bits can allow the owner of an entry. -/
inductive Permission where
  /-- To read a file, or to list a directory. -/
  | read
  /-- To change a file, or the entries of a directory. -/
  | write
  /-- To run a file, or to go through a directory. -/
  | enter
  deriving DecidableEq, Repr

/-- The bit of a permission. -/
def Permission.bit : Permission → Nat
  | read => 0o400
  | write => 0o200
  | enter => 0o100

namespace Entry

/-- Whether an entry is a file itself. -/
def isFile : Entry → Bool
  | file _ _ _ => true
  | _ => false

/-- Whether an entry is a directory itself. -/
def isDirectory : Entry → Bool
  | directory _ => true
  | _ => false

/-- The permission bits of an entry that has its own. -/
def mode? : Entry → Option Nat
  | file _ mode _ => some mode
  | directory mode => some mode
  | link _ => none

/-- Whether an entry has a permission. All entries are the owner's. -/
def permits (e : Entry) (p : Permission) : Bool :=
  e.mode?.all fun mode => mode / p.bit % 2 == 1

/-- The number that the entries of one file share. -/
def shared? : Entry → Option Nat
  | file _ _ shared => shared
  | _ => none

/-- Whether two entries are names of one file. -/
def isSameFile (a b : Entry) : Bool :=
  match a.shared?, b.shared? with
  | some m, some n => m == n
  | _, _ => false

end Entry

/-- A file tree, and the directory in it that relative paths start from. -/
structure Files where
  /-- Locations with their entries; of several at one location the first counts. -/
  entries : List (Location × Entry)
  /-- The working directory. -/
  workingDirectory : Location

namespace Files

variable {fs : Files} {loc loc' : Location} {e : Entry}

/-- The permission bits of a new directory. -/
def directoryMode : Nat := 0o755

/-- The entry at a location. -/
def get? (fs : Files) (loc : Location) : Option Entry :=
  if loc = [] then some (.directory directoryMode) else fs.entries.lookup loc

/-- The tree with another entry at a location. -/
def put (fs : Files) (loc : Location) (e : Entry) : Files :=
  { fs with entries := (loc, e) :: fs.entries.filter (·.1 != loc) }

/-- The tree with other contents and permission bits for the file at a location, under all of its
names. -/
def rewriteFile (fs : Files) (loc : Location) (contents : ByteArray) (mode : Nat) : Files :=
  match (fs.get? loc).bind Entry.shared? with
  | none => fs.put loc (.file contents mode none)
  | some n =>
    { fs with
      entries := fs.entries.map fun (l, e) =>
        (l, if e.shared? = some n then .file contents mode (some n) else e) }

/-- The tree without the entry at a location. -/
def erase (fs : Files) (loc : Location) : Files :=
  { fs with entries := fs.entries.filter (·.1 != loc) }

/-- The tree without a location and all that is below it. -/
def eraseTree (fs : Files) (loc : Location) : Files :=
  { fs with entries := fs.entries.filter (!loc.isPrefixOf ·.1) }

/-- Puts an entry before the first one that does not come before it. -/
def insertEntry (x : Location × Entry) : List (Location × Entry) → List (Location × Entry)
  | [] => [x]
  | y :: rest => if Location.precedes y.1 x.1 then y :: insertEntry x rest else x :: y :: rest

/-- The entries below a location, with the names that lead to them from there: parents first and
siblings by name. -/
def below (fs : Files) (loc : Location) : List (Location × Entry) :=
  let inside := fs.entries.filter fun (l, _) => loc.isPrefixOf l && l != loc
  (inside.map fun (l, e) => (l.drop loc.length, e)).foldr insertEntry []

/-- The entries directly in a directory, by name. -/
def children (fs : Files) (loc : Location) : List (String × Entry) :=
  (fs.below loc).filterMap fun
    | ([name], e) => some (name, e)
    | _ => none

/-- The tree with everything at and below one location moved to another. -/
def moveTree (fs : Files) (source target : Location) : Files :=
  let moved := fs.entries.filter fun (l, _) => source.isPrefixOf l
  let rest := (fs.eraseTree source).eraseTree target
  { rest with
    entries := moved.map (fun (l, e) => (target ++ l.drop source.length, e)) ++ rest.entries }

theorem lookup_filter_self {α β : Type} [BEq α] [LawfulBEq α] (a : α) (xs : List (α × β)) :
    (xs.filter (·.1 != a)).lookup a = none := by
  rw [List.lookup_eq_none_iff]
  intro x hx
  have hne := (List.mem_filter.1 hx).2
  simp only [bne_iff_ne, ne_eq] at hne
  simpa using Ne.symm hne

theorem lookup_filter_of_ne {α β : Type} [BEq α] [LawfulBEq α] {a b : α} (hne : a ≠ b)
    (xs : List (α × β)) : (xs.filter (·.1 != b)).lookup a = xs.lookup a := by
  induction xs with
  | nil => rfl
  | cons x rest ih =>
    obtain ⟨key, value⟩ := x
    by_cases h : key = b
    · subst h
      have : (a == key) = false := by simp [hne]
      rw [List.filter_cons_of_neg (by simp), ih, List.lookup_cons, this]
    · rw [List.filter_cons_of_pos (by simpa using h), List.lookup_cons, List.lookup_cons, ih]

@[simp] theorem get?_nil : fs.get? [] = some (.directory directoryMode) := by simp [get?]

theorem get?_put_self (h : loc ≠ []) : (fs.put loc e).get? loc = some e := by
  simp [get?, put, h]

theorem get?_put_of_ne (h : loc' ≠ loc) : (fs.put loc e).get? loc' = fs.get? loc' := by
  have hb : (loc' == loc) = false := by simp [h]
  simp only [get?, put, List.lookup_cons, hb, lookup_filter_of_ne h]

theorem get?_erase_self (h : loc ≠ []) : (fs.erase loc).get? loc = none := by
  simp only [get?, erase, h, if_false, lookup_filter_self]

theorem get?_erase_of_ne (h : loc' ≠ loc) : (fs.erase loc).get? loc' = fs.get? loc' := by
  simp only [get?, erase, lookup_filter_of_ne h]

@[simp] theorem workingDirectory_put : (fs.put loc e).workingDirectory = fs.workingDirectory := rfl

@[simp] theorem workingDirectory_erase :
    (fs.erase loc).workingDirectory = fs.workingDirectory := rfl

end Files

end RamlBuild
