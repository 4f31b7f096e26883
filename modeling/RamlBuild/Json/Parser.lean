import RamlBuild.Json.Value
import RamlBuild.Text.Digits

/-!
# Reading JSON

Bytes are read as one value with blanks around it and nothing else. Strings hold no controls. To
denote a text the bytes of a string have to be UTF-8, and escapes of surrogate code units have to
come in pairs. All marks of the format are ASCII, so each byte is read as a character of its own.

## Main definitions

* `Json.ofBytes?` — the value that bytes denote
-/

namespace RamlBuild.Json

open Text (codeUnit?)

/-- The blanks between the parts of a value. -/
def isSpace (c : Char) : Bool :=
  c == ' ' || c == '\t' || c == '\n' || c == '\r'

/-- The character of a simple escape. -/
def simpleEscape? : Char → Option Char
  | '"' => some '"'
  | '\\' => some '\\'
  | '/' => some '/'
  | 'b' => some '\x08'
  | 'f' => some '\x0c'
  | 'n' => some '\n'
  | 'r' => some '\r'
  | 't' => some '\t'
  | _ => none

/-- A piece of a string: a byte, or a code unit written as an escape. -/
inductive Piece where
  /-- A byte, as a character. -/
  | byte (c : Char)
  /-- A code unit. -/
  | unit (n : Nat)

/-- The pieces of a string up to its closing quote, and what follows it. `count` bounds them. -/
def pieces? : (count : Nat) → List Char → Option (List Piece × List Char)
  | 0, _ => none
  | _ + 1, [] => none
  | _ + 1, '"' :: rest => some ([], rest)
  | count + 1, '\\' :: 'u' :: rest => do
    let (n, rest) ← codeUnit? rest
    let (more, rest) ← pieces? count rest
    some (.unit n :: more, rest)
  | count + 1, '\\' :: c :: rest => do
    let c ← simpleEscape? c
    let (more, rest) ← pieces? count rest
    some (.byte c :: more, rest)
  | count + 1, c :: rest => do
    guard (0x20 ≤ c.toNat && c != '\\')
    let (more, rest) ← pieces? count rest
    some (.byte c :: more, rest)

/-- The bytes of the pieces, unless a surrogate stands alone. -/
def bytesOfPieces? : List Piece → Option (List UInt8)
  | [] => some []
  | .byte c :: rest => (bytesOfPieces? rest).map (c.toNat.toUInt8 :: ·)
  | .unit n :: rest =>
    if n < 0xd800 || 0xe000 ≤ n then
      (bytesOfPieces? rest).map (String.utf8EncodeChar (Char.ofNat n) ++ ·)
    else
      match rest with
      | .unit m :: rest =>
        if n < 0xdc00 && 0xdc00 ≤ m && m < 0xe000 then
          let c := Char.ofNat (0x10000 + (n - 0xd800) * 0x400 + (m - 0xdc00))
          (bytesOfPieces? rest).map (String.utf8EncodeChar c ++ ·)
        else none
      | _ => none

/-- The text of the pieces, if they denote one. -/
def textOfPieces? (pieces : List Piece) : Option String := do
  String.fromUTF8? ⟨(← bytesOfPieces? pieces).toArray⟩

/-- At least one digit, and what follows the digits. -/
def digits? (text : List Char) : Option (List Char × List Char) :=
  match text.takeWhile Char.isDigit with
  | [] => none
  | digits => some (digits, text.dropWhile Char.isDigit)

/-- A number, and what follows it. -/
def number? (text : List Char) : Option (List Char × List Char) := do
  let (sign, rest) := match text with
    | '-' :: rest => (['-'], rest)
    | _ => ([], text)
  let (whole, rest) ← match rest with
    | '0' :: rest => some (['0'], rest)
    | _ => digits? rest
  let (fraction, rest) ← match rest with
    | '.' :: rest => (digits? rest).map fun (ds, rest) => ('.' :: ds, rest)
    | _ => some ([], rest)
  let (exponent, rest) ← match rest with
    | e :: tail =>
      if e == 'e' || e == 'E' then
        match tail with
        | s :: more =>
          if s == '+' || s == '-' then (digits? more).map fun (ds, rest) => (e :: s :: ds, rest)
          else (digits? tail).map fun (ds, rest) => (e :: ds, rest)
        | [] => none
      else some ([], rest)
    | [] => some ([], rest)
  some (sign ++ whole ++ fraction ++ exponent, rest)

/-- The object with fields. A name that denotes no text is given as none. -/
def ofFields (fields : List (Option String × Json)) : Json :=
  match fields.mapM fun (name, value) => name.map (·, value) with
  | some fields => object fields
  | none => misnamed

mutual

/-- A value at the start of a text, and what follows it. `depth` bounds the steps to read it. -/
def value? : (depth : Nat) → List Char → Option (Json × List Char)
  | 0, _ => none
  | depth + 1, text =>
    match text.dropWhile isSpace with
    | 'n' :: 'u' :: 'l' :: 'l' :: rest => some (null, rest)
    | 't' :: 'r' :: 'u' :: 'e' :: rest => some (bool true, rest)
    | 'f' :: 'a' :: 'l' :: 's' :: 'e' :: rest => some (bool false, rest)
    | '"' :: rest => do
      let (ps, rest) ← pieces? (rest.length + 1) rest
      match textOfPieces? ps with
      | some text => some (string text, rest)
      | none => some (illegible, rest)
    | '[' :: rest =>
      match rest.dropWhile isSpace with
      | ']' :: rest => some (array [], rest)
      | _ => (items? depth rest).map fun (items, rest) => (array items, rest)
    | '\x7b' :: rest =>
      match rest.dropWhile isSpace with
      | '\x7d' :: rest => some (object [], rest)
      | _ => (fields? depth rest).map fun (fields, rest) => (ofFields fields, rest)
    | text => (number? text).map fun (text, rest) => (number (String.ofList text), rest)

/-- The items of a list up to its closing bracket, and what follows it. -/
def items? : (depth : Nat) → List Char → Option (List Json × List Char)
  | 0, _ => none
  | depth + 1, text => do
    let (item, rest) ← value? depth text
    match rest.dropWhile isSpace with
    | ']' :: rest => some ([item], rest)
    | ',' :: rest => (items? depth rest).map fun (items, rest) => (item :: items, rest)
    | _ => none

/-- The fields of an object up to its closing brace, and what follows it. -/
def fields? : (depth : Nat) → List Char → Option (List (Option String × Json) × List Char)
  | 0, _ => none
  | depth + 1, text => do
    match text.dropWhile isSpace with
    | '"' :: rest =>
      let (ps, rest) ← pieces? (rest.length + 1) rest
      match rest.dropWhile isSpace with
      | ':' :: rest =>
        let (value, rest) ← value? depth rest
        let field := (textOfPieces? ps, value)
        match rest.dropWhile isSpace with
        | '\x7d' :: rest => some ([field], rest)
        | ',' :: rest => (fields? depth rest).map fun (fields, rest) => (field :: fields, rest)
        | _ => none
      | _ => none
    | _ => none

end

/-- The value that bytes denote. A value takes at most two steps for each of its characters. -/
def ofBytes? (bytes : ByteArray) : Option Json := do
  let text := bytes.toList.map fun b => Char.ofNat b.toNat
  let (value, rest) ← value? (2 * text.length + 2) text
  guard (rest.all isSpace)
  some value

end RamlBuild.Json
