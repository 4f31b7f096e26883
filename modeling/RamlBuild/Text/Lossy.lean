/-!
# Reading damaged text

Bytes are read as UTF-8. Where they are not, the longest start of a character that was broken off,
or else a single byte, becomes one replacement character.

## Main definitions

* `Text.decodeLossy` — the text that bytes are read as
-/

namespace RamlBuild.Text

/-- The character that stands for what cannot be read. -/
def replacement : Char := '\ufffd'

/-- A byte that continues a character. -/
def isContinuation (b : UInt8) : Bool := 0x80 ≤ b && b ≤ 0xbf

/-- For a byte that starts a character of several bytes: how many follow, and the range of the first
of them. -/
def continuations? (b : UInt8) : Option (Nat × UInt8 × UInt8) :=
  if 0xc2 ≤ b && b ≤ 0xdf then some (1, 0x80, 0xbf)
  else if b == 0xe0 then some (2, 0xa0, 0xbf)
  else if b == 0xed then some (2, 0x80, 0x9f)
  else if 0xe1 ≤ b && b ≤ 0xef then some (2, 0x80, 0xbf)
  else if b == 0xf0 then some (3, 0x90, 0xbf)
  else if 0xf1 ≤ b && b ≤ 0xf3 then some (3, 0x80, 0xbf)
  else if b == 0xf4 then some (3, 0x80, 0x8f)
  else none

/-- The bytes at the start that continue a character: at most `count`, the first within a range. -/
def continuing (count : Nat) (first last : UInt8) : List UInt8 → List UInt8
  | [] => []
  | b :: rest =>
    match count with
    | 0 => []
    | count + 1 =>
      if first ≤ b && b ≤ last then b :: continuing count 0x80 0xbf rest else []

/-- The code point of a character from its bytes. -/
def codePoint (lead : UInt8) (rest : List UInt8) : Nat :=
  let start :=
    match rest.length with
    | 1 => lead.toNat % 0x20
    | 2 => lead.toNat % 0x10
    | _ => lead.toNat % 0x08
  rest.foldl (fun n b => n * 0x40 + b.toNat % 0x40) start

/-- The characters that a list of bytes is read as. -/
def decodeBytes (bytes : List UInt8) : List Char :=
  match bytes with
  | [] => []
  | b :: rest =>
    if b < 0x80 then Char.ofNat b.toNat :: decodeBytes rest
    else
      match continuations? b with
      | none => replacement :: decodeBytes rest
      | some (count, first, last) =>
        let more := continuing count first last rest
        let c := if more.length = count then Char.ofNat (codePoint b more) else replacement
        c :: decodeBytes (rest.drop more.length)
termination_by bytes.length
decreasing_by all_goals simp only [List.length_cons, List.length_drop]; omega

/-- The text that bytes are read as. -/
def decodeLossy (bytes : ByteArray) : String :=
  match String.fromUTF8? bytes with
  | some text => text
  | none => String.ofList (decodeBytes bytes.toList)

end RamlBuild.Text
