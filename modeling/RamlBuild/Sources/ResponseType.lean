import RamlBuild.Sources.ResponseDelegate
import RamlBuild.Text.Word

/-!
# Response classes

Each response class nested in a resource becomes constructible from outside: its hidden constructors
are made public, and a constructor that copies a delegate is put before the end of its constructors,
unless the source already has one.

## Main definitions

* `ResponseClass.ofHeader?` — the class that a line opens
* `ResponseClass.copyConstructor` — the lines of its copy constructor
* `patchResponseTypes` — the source with its response classes opened
-/

namespace RamlBuild

open Text

/-- A response class within a resource. -/
structure ResponseClass where
  /-- The spaces before its header. -/
  indent : List Char
  /-- Its name. -/
  name : List Char
  deriving DecidableEq, Repr

namespace ResponseClass

/-- The class that a header line opens. -/
def ofHeader? (line : Line) : Option ResponseClass := do
  let (indent, rest) ← takeRun? (· == ' ') line
  let rest ← after? "class ".toList rest
  let (name, rest) ← takeRun? isWordChar rest
  if rest = " extends ResponseDelegate \x7b".toList then some ⟨indent, name⟩ else none

/-- The first line of the copy constructor. -/
def copyHeader (cls : ResponseClass) : Line :=
  cls.indent ++ "  public ".toList ++ cls.name ++ "(ResponseDelegate response) \x7b".toList

/-- The copy constructor and a blank line. -/
def copyConstructor (cls : ResponseClass) : List Line :=
  [cls.copyHeader, cls.indent ++ "    super(response.delegate, response.entity);".toList,
    cls.indent ++ "  \x7d".toList, []]

/-- Whether a member without its modifier is a constructor of the class. -/
def isConstructor (cls : ResponseClass) (member : List Char) : Bool :=
  (cls.name ++ ['(']).isPrefixOf member

/-- Drops every `public ` at the start of a member. -/
def dropPublic (member : List Char) : List Char :=
  match h : after? "public ".toList member with
  | some rest =>
    have : rest.length < member.length := by
      rw [eq_append_of_after? h]
      simp only [List.length_append]
      have : "public ".toList.length = 7 := rfl
      omega
    dropPublic rest
  | none => member
termination_by member.length

/-- Whether a line ends the constructors of the class: its closing brace, or a public member that is
no constructor. -/
def endsConstructors (cls : ResponseClass) (line : Line) : Bool :=
  let member := trimStart line
  line = cls.indent ++ ['\x7d'] ||
    (startsWith "public " member && !cls.isConstructor (dropPublic member))

/-- A hidden constructor of the class, made public. -/
def widenConstructor? (cls : ResponseClass) (line : Line) : Option Line := do
  let rest ← afterHidingModifier? (trimStart line)
  if cls.isConstructor rest then widen? line else none

end ResponseClass

/-- The names of the classes that have their copy constructor, where `current` is the class whose
header stands last before the lines. -/
def namesWithCopy (current : Option ResponseClass) : List Line → List (List Char)
  | [] => []
  | line :: rest =>
    match ResponseClass.ofHeader? line with
    | some cls => namesWithCopy (some cls) rest
    | none =>
      match current with
      | some cls =>
        if line = cls.copyHeader then cls.name :: namesWithCopy current rest
        else namesWithCopy current rest
      | none => namesWithCopy current rest

/-- Opens the response classes, where `current` is the class whose constructors the lines are
within. `copied` are the names of the classes that need no copy constructor. -/
def openResponses (copied : List (List Char)) (current : Option ResponseClass) :
    List Line → List Line
  | [] => []
  | line :: rest =>
    match current with
    -- Outside of a class every line stays, and a header opens one.
    | none => line :: openResponses copied (ResponseClass.ofHeader? line) rest
    | some cls =>
      match cls.widenConstructor? line with
      | some widened => widened :: openResponses copied current rest
      | none =>
        if cls.endsConstructors line then
          -- Behind its constructors the rest of the class is left alone.
          let copy := if copied.contains cls.name then [] else cls.copyConstructor
          copy ++ line :: openResponses copied none rest
        else
          line :: openResponses copied current rest

/-- The source with its response classes opened. -/
def patchResponseTypes (source : String) : String :=
  let ls := lines source
  ofLines (openResponses (namesWithCopy none ls) none ls)

end RamlBuild
