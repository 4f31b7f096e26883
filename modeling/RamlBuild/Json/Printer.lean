import RamlBuild.Json.Value

/-!
# Printing JSON

A value is printed over several lines, each level two blanks further in. Empty lists and objects
stay on one line. Strings escape quotes, backslashes and controls, and nothing else.
-/

namespace RamlBuild.Json

/-- A control as a Unicode escape. -/
def unicodeEscape (c : Char) : List Char :=
  let digits := Nat.toDigits 16 c.toNat
  ['\\', 'u'] ++ List.replicate (4 - digits.length) '0' ++ digits

/-- A character as it stands in a string. -/
def escapeChar (c : Char) : List Char :=
  match c with
  | '"' => ['\\', '"']
  | '\\' => ['\\', '\\']
  | '\n' => ['\\', 'n']
  | '\r' => ['\\', 'r']
  | '\t' => ['\\', 't']
  | '\x08' => ['\\', 'b']
  | '\x0c' => ['\\', 'f']
  | c => if c.toNat < 0x20 then unicodeEscape c else [c]

/-- A string in quotes. -/
def quote (text : String) : String :=
  "\"" ++ String.ofList (text.toList.flatMap escapeChar) ++ "\""

/-- A line end and the blanks of a level. -/
def newLine (level : Nat) : String :=
  "\n" ++ String.ofList (List.replicate (2 * level) ' ')

mutual

/-- A value on a level. -/
def renderAt (level : Nat) : Json → String
  | null => "null"
  | bool true => "true"
  | bool false => "false"
  | number text => text
  | string text => quote text
  | illegible => quote ""
  | array [] => "[]"
  | array items => "[" ++ renderItems (level + 1) items ++ newLine level ++ "]"
  | object [] | misnamed => "\x7b\x7d"
  | object fields => "\x7b" ++ renderFields (level + 1) fields ++ newLine level ++ "\x7d"

/-- The items of a list, each on a line of its own. -/
def renderItems (level : Nat) : List Json → String
  | [] => ""
  | [item] => newLine level ++ renderAt level item
  | item :: rest => newLine level ++ renderAt level item ++ "," ++ renderItems level rest

/-- The fields of an object, each on a line of its own. -/
def renderFields (level : Nat) : List (String × Json) → String
  | [] => ""
  | [(name, value)] => newLine level ++ quote name ++ ": " ++ renderAt level value
  | (name, value) :: rest =>
    newLine level ++ quote name ++ ": " ++ renderAt level value ++ "," ++ renderFields level rest

end

/-- A value over several lines. -/
def render (value : Json) : String :=
  renderAt 0 value

end RamlBuild.Json
