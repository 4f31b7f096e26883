import RamlBuild.Toml.Literal
import RamlBuild.Toml.Number
import RamlBuild.Toml.Table

/-!
# Reading a configuration

A configuration is read line by line. A header opens a table for the lines behind it, any other line
names a value; a comment may end each of them.

## Main definitions

* `Toml.value?` — a value at the start of a text
* `Toml.ofText?` — the table that a text denotes
-/

namespace RamlBuild.Toml

/-- What follows the blanks within a line. -/
def skipSpace (text : List Char) : List Char := text.dropWhile isSpace

/-- What follows a comment, if there is one. -/
def skipComment : List Char → List Char
  | '#' :: rest => rest.dropWhile isPlain
  | text => text

/-- What follows the end of a line, with blanks and a comment before it. -/
def endOfLine? (text : List Char) : Option (List Char) :=
  match skipComment (skipSpace text) with
  | [] => some []
  | rest => newline? rest

/-- What follows blanks, comments and line ends. `count` bounds their number. -/
def skipLines : (count : Nat) → List Char → List Char
  | 0, text => text
  | count + 1, text =>
    match newline? (skipComment (skipSpace text)) with
    | some rest => skipLines count rest
    -- A comment that no line end follows is left for the caller to refuse.
    | none => skipSpace text

/-- What follows blanks, comments and line ends. -/
def skipAllLines (text : List Char) : List Char :=
  skipLines (text.length + 1) text

/-- The characters of names without quotes. -/
def isNameChar (c : Char) : Bool :=
  c.isAlphanum || c == '_' || c == '-'

/-- A name, and what follows it. -/
def name? (text : List Char) : Option (String × List Char) :=
  match lineText? text with
  | some (name, rest) => some (String.ofList name, rest)
  | none =>
    match text.takeWhile isNameChar with
    | [] => none
    | name => some (String.ofList name, text.drop name.length)

/-- The names of a dotted name with blanks around them, and what follows it. `count` bounds their
number. -/
def dottedName? : (count : Nat) → List Char → Option (List String × List Char)
  | 0, _ => none
  | count + 1, text => do
    let (name, rest) ← name? (skipSpace text)
    match skipSpace rest with
    | '.' :: rest => do
      let (names, rest) ← dottedName? count rest
      some (name :: names, rest)
    | rest => some ([name], rest)

/-- The most names that a dotted name has, and the most tables and lists that stand in one another.
-/
def maxNesting : Nat := 79

/-- A dotted name as its path and its last name, and what follows it. -/
def key? (text : List Char) : Option ((List String × String) × List Char) := do
  let (names, rest) ← dottedName? maxNesting text
  some ((names.dropLast, ← names.getLast?), rest)

mutual

/-- A value, and what follows it. `room` bounds the tables and lists within it, `count` the steps to
read it. -/
def value? : (count room : Nat) → List Char → Option (Toml × List Char)
  | 0, _, _ => none
  | count + 1, room, text =>
    match text with
    | '[' :: rest =>
      match room with
      | 0 => none
      | room + 1 => (items? count room rest).map fun (items, rest) => (.array items, rest)
    | '\x7b' :: rest =>
      match room with
      | 0 => none
      | room + 1 =>
        match skipSpace rest with
        | '\x7d' :: rest => some (.table .braces [], rest)
        | rest => (pairs? count room [] rest).map fun (fields, rest) =>
            (.table .braces fields, rest)
    | 't' :: 'r' :: 'u' :: 'e' :: rest => some (.bool true, rest)
    | 'f' :: 'a' :: 'l' :: 's' :: 'e' :: rest => some (.bool false, rest)
    | text =>
      match text? text with
      | some (text, rest) => some (.string (String.ofList text), rest)
      | none =>
        match moment? text with
        | some rest => some (.moment, rest)
        | none => (number? text).map fun rest => (.number, rest)

/-- The items of a list up to its closing bracket, and what follows it. -/
def items? : (count room : Nat) → List Char → Option (List Toml × List Char)
  | 0, _, _ => none
  | count + 1, room, text =>
    match skipAllLines text with
    | ']' :: rest => some ([], rest)
    | text => do
      let (item, rest) ← value? count room text
      match skipAllLines rest with
      | ',' :: rest => (items? count room rest).map fun (items, rest) => (item :: items, rest)
      | ']' :: rest => some ([item], rest)
      | _ => none

/-- The values of a table up to its closing brace, added to the ones before, and what follows it. -/
def pairs? : (count room : Nat) → Fields → List Char → Option (Fields × List Char)
  | 0, _, _, _ => none
  | count + 1, room, fields, text => do
    let ((path, name), rest) ← key? text
    match rest with
    | '=' :: rest => do
      let (value, rest) ← value? count room (skipSpace rest)
      let fields ← insert? name value path fields
      match skipSpace rest with
      | ',' :: rest => pairs? count room fields rest
      | '\x7d' :: rest => some (fields, rest)
      | _ => none
    | _ => none

end

/-- What has been read so far. -/
structure Reading where
  /-- The whole table. -/
  fields : Fields
  /-- The path of the table that is open. -/
  current : List String

namespace Reading

/-- Reads a header behind its brackets and adds its table by `add`. -/
def header? (reading : Reading) (add : String → Fields → Option Fields) (brackets : Nat)
    (text : List Char) : Option (Reading × List Char) := do
  let ((path, name), rest) ← key? text
  guard ((rest.take brackets) = List.replicate brackets ']')
  let rest ← endOfLine? (rest.drop brackets)
  let fields ← modify? (add name) path reading.fields
  some (⟨fields, path ++ [name]⟩, rest)

/-- Reads a named value. -/
def pair? (reading : Reading) (text : List Char) : Option (Reading × List Char) := do
  let ((path, name), rest) ← key? text
  match rest with
  | '=' :: rest => do
    let text := skipSpace rest
    let (value, rest) ← value? (2 * text.length + 2) maxNesting text
    let rest ← endOfLine? rest
    let fields ← modify? (insert? name value path) reading.current reading.fields
    some (⟨fields, reading.current⟩, rest)
  | _ => none

/-- Reads a line that is not blank. -/
def line? (reading : Reading) : List Char → Option (Reading × List Char)
  | '[' :: '[' :: rest => reading.header? addRow? 2 rest
  | '[' :: rest => reading.header? open? 1 rest
  | text => reading.pair? text

/-- Reads lines to the end of a text. `count` bounds their number. -/
def lines? (reading : Reading) : (count : Nat) → List Char → Option Fields
  | 0, _ => none
  | count + 1, text =>
    match skipComment (skipSpace text) with
    | [] => some reading.fields
    | rest =>
      match newline? rest with
      | some rest => reading.lines? count rest
      | none => do
        let (reading, rest) ← reading.line? (skipSpace text)
        reading.lines? count rest

end Reading

/-- The table that a text denotes. A mark of the byte order may come first. -/
def ofText? (text : String) : Option Fields :=
  let text := match text.toList with
    | '\ufeff' :: rest => rest
    | text => text
  Reading.lines? ⟨[], []⟩ (text.length + 1) text

end RamlBuild.Toml
