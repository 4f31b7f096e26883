import RamlBuild.Text.Digits

/-!
# Texts of a configuration

A text stands in double quotes, where a backslash escapes, or in single quotes, where it is written
as it is. In three quotes it may go over several lines; a line end right behind the opening quotes
does not count, and a backslash at the end of a line takes away the blanks and line ends that
follow. Line ends are read as line feeds.

## Main definitions

* `Toml.basic?`, `Toml.multiBasic?` — what follows an opening double quote, or three of them
* `Toml.literal?`, `Toml.multiLiteral?` — the same for single quotes
* `Toml.text?` — a text at the start of some text
-/

namespace RamlBuild.Toml

/-- The blanks within a line. -/
def isSpace (c : Char) : Bool := c == ' ' || c == '\t'

/-- Characters that are no controls, or a tab. -/
def isPlain (c : Char) : Bool :=
  c == '\t' || (0x20 ≤ c.toNat && c != '\x7f')

/-- What follows a line end. -/
def newline? : List Char → Option (List Char)
  | '\n' :: rest => some rest
  | '\r' :: '\n' :: rest => some rest
  | _ => none

/-- A character by its number, unless there is none. -/
def character? (n : Nat) : Option Char :=
  if n.isValidChar then some (Char.ofNat n) else none

/-- The character of an escape behind its backslash, and what follows it. -/
def escape? : List Char → Option (Char × List Char)
  | 'b' :: rest => some ('\x08', rest)
  | 't' :: rest => some ('\t', rest)
  | 'n' :: rest => some ('\n', rest)
  | 'f' :: rest => some ('\x0c', rest)
  | 'r' :: rest => some ('\r', rest)
  | '"' :: rest => some ('"', rest)
  | '\\' :: rest => some ('\\', rest)
  | 'u' :: rest => do
    let (n, rest) ← Text.codeUnit? rest
    some (← character? n, rest)
  | 'U' :: rest => do
    let (high, rest) ← Text.codeUnit? rest
    let (low, rest) ← Text.codeUnit? rest
    some (← character? (high * 0x10000 + low), rest)
  | _ => none

/-- A text behind its double quote, and what follows it. `count` bounds its length. -/
def basic? : (count : Nat) → List Char → Option (List Char × List Char)
  | 0, _ => none
  | _ + 1, [] => none
  | _ + 1, '"' :: rest => some ([], rest)
  | count + 1, '\\' :: rest => do
    let (c, rest) ← escape? rest
    let (text, rest) ← basic? count rest
    some (c :: text, rest)
  | count + 1, c :: rest => do
    guard (isPlain c)
    let (text, rest) ← basic? count rest
    some (c :: text, rest)

/-- A text behind its single quote, and what follows it. -/
def literal? (text : List Char) : Option (List Char × List Char) :=
  let inner := text.takeWhile fun c => isPlain c && c != '\x27'
  match text.drop inner.length with
  | '\x27' :: rest => some (inner, rest)
  | _ => none

/-- What follows the quotes that close a text over several lines, and the quotes right before them,
which belong to the text. -/
def closing? (quote : Char) (text : List Char) : Option (List Char × List Char) :=
  let run := (text.takeWhile (· == quote)).length
  if run < 3 then none
  else
    let inner := min 2 (run - 3)
    some (List.replicate inner quote, text.drop (inner + 3))

/-- What follows blanks and line ends. -/
def skipBlankLines (text : List Char) : List Char :=
  match text with
  | ' ' :: rest => skipBlankLines rest
  | '\t' :: rest => skipBlankLines rest
  | '\n' :: rest => skipBlankLines rest
  | '\r' :: '\n' :: rest => skipBlankLines rest
  | _ => text

/-- What follows a line end that a backslash before it takes away, with the blank lines behind it.
-/
def joinLines? (text : List Char) : Option (List Char) :=
  (newline? (text.dropWhile isSpace)).map skipBlankLines

/-- A text over several lines behind its double quotes, and what follows it. `count` bounds its
length. -/
def multiBasic? : (count : Nat) → List Char → Option (List Char × List Char)
  | 0, _ => none
  | count + 1, text =>
    match closing? '"' text, newline? text, text with
    | some closed, _, _ => some closed
    | none, some rest, _ => do
      let (text, rest) ← multiBasic? count rest
      some ('\n' :: text, rest)
    | none, none, '\\' :: rest =>
      match joinLines? rest with
      | some rest => multiBasic? count rest
      | none => do
        let (c, rest) ← escape? rest
        let (text, rest) ← multiBasic? count rest
        some (c :: text, rest)
    | none, none, c :: rest => do
      guard (isPlain c)
      let (text, rest) ← multiBasic? count rest
      some (c :: text, rest)
    | none, none, [] => none

/-- A text over several lines behind its single quotes, and what follows it. `count` bounds its
length. -/
def multiLiteral? : (count : Nat) → List Char → Option (List Char × List Char)
  | 0, _ => none
  | count + 1, text =>
    match closing? '\x27' text, newline? text, text with
    | some closed, _, _ => some closed
    | none, some rest, _ => do
      let (text, rest) ← multiLiteral? count rest
      some ('\n' :: text, rest)
    | none, none, c :: rest => do
      guard (isPlain c)
      let (text, rest) ← multiLiteral? count rest
      some (c :: text, rest)
    | none, none, [] => none

/-- A text without a line end at its start. -/
def dropNewline (text : List Char) : List Char := (newline? text).getD text

/-- A text within one line, and what follows it. -/
def lineText? : List Char → Option (List Char × List Char)
  | '"' :: rest => basic? (rest.length + 1) rest
  | '\x27' :: rest => literal? rest
  | _ => none

/-- A text, and what follows it. -/
def text? : List Char → Option (List Char × List Char)
  | '"' :: '"' :: '"' :: rest => multiBasic? (rest.length + 1) (dropNewline rest)
  | '\x27' :: '\x27' :: '\x27' :: rest => multiLiteral? (rest.length + 1) (dropNewline rest)
  | text => lineText? text

end RamlBuild.Toml
