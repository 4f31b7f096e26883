import RamlBuild.Text.Digits

/-!
# Numeric hosts

A host whose last part is a number is an address of four bytes. It is written as one to four
numbers with dots between them; the last one fills the bytes that the others leave. A number may be
written to the bases eight and sixteen too.

An address of eight pieces is written with colons between them, in hexadecimal digits. Two colons
stand for one or more pieces that are zero, and the last two pieces may be written as four bytes
with dots between them. In the written form two colons stand for the longest run of zeros, the first
one if there are several.

## Main definitions

* `Ipv4.isNumeric` — whether a host is written as such an address
* `Ipv4.ofText?`, `Ipv4.text` — reading and writing an address
* `Ipv6.ofText?`, `Ipv6.text` — reading and writing an address
-/

/-! ## Addresses of four bytes -/

namespace RamlBuild.Ipv4

open Text

/-- The number that a part of an address writes. -/
def number? (part : List Char) : Option Nat :=
  let (base, digits) := match part with
    | '0' :: 'x' :: digits => (16, digits)
    | '0' :: 'X' :: digits => (16, digits)
    | '0' :: d :: digits => (8, d :: digits)
    | _ => (10, part)
  if part.isEmpty || !digits.all (isDigitTo base) then none else some (valueOf base digits)

/-- The parts of a host. A dot at its end has nothing behind it. -/
def parts (host : List Char) : List (List Char) :=
  let parts := host.splitOn '.'
  if 1 < parts.length && parts.getLast? = some [] then parts.dropLast else parts

/-- Whether the last part of a host is a number. -/
def isNumeric (host : List Char) : Bool :=
  match (parts host).getLast? with
  | some part => !part.isEmpty && (part.all Char.isDigit || (number? part).isSome)
  | none => false

/-- The value of `count` further bytes below those of the numbers; all but the last are single
bytes. -/
def combine? (value : Nat) : (count : Nat) → List Nat → Option Nat
  | _, [] => none
  | 0, _ => none
  | count + 1, [last] =>
    let limit := Nat.pow 256 (count + 1)
    if last < limit then some (value * limit + last) else none
  | count + 1, n :: rest => if n < 256 then combine? (value * 256 + n) count rest else none

/-- The address that a host writes. -/
def ofText? (host : List Char) : Option Nat := do
  combine? 0 4 (← (parts host).mapM number?)

/-- The `k`-th byte of an address, from the lowest on. -/
def byte (address k : Nat) : Nat := address / Nat.pow 256 k % 256

/-- The written form of an address. -/
def text (address : Nat) : List Char :=
  ['.'].intercalate ([3, 2, 1, 0].map fun k => Nat.toDigits 10 (byte address k))

end RamlBuild.Ipv4

/-! ## Addresses of eight pieces -/

namespace RamlBuild.Ipv6

open Text

/-- A byte in decimal digits, without zeros before others. -/
def byte? (digits : List Char) : Option Nat :=
  let n := valueOf 10 digits
  if digits.isEmpty || !digits.all Char.isDigit || (1 < digits.length && digits.head? = some '0') ||
    256 ≤ n then none
  else some n

/-- Two pieces that are written as four bytes. -/
def bytes? (text : List Char) : Option (List Nat) := do
  match ← (text.splitOn '.').mapM byte? with
  | [a, b, c, d] => some [a * 256 + b, c * 256 + d]
  | _ => none

/-- A piece of at most four digits. -/
def piece? (text : List Char) : Option Nat :=
  if text.isEmpty || 4 < text.length || !text.all (isDigitTo 16) then none
  else some (valueOf 16 text)

/-- Pieces with colons between them. Only at the end may they be written as bytes. -/
def pieces? (atEnd : Bool) : List (List Char) → Option (List Nat)
  | [] => some []
  | [last] => if atEnd && last.contains '.' then bytes? last else (piece? last).map ([·])
  | text :: rest => do
    let piece ← piece? text
    some (piece :: (← pieces? atEnd rest))

/-- The pieces of a text that may be empty. -/
def piecesOf? (atEnd : Bool) (text : List Char) : Option (List Nat) :=
  if text.isEmpty then some [] else pieces? atEnd (text.splitOn ':')

/-- The text before two colons, and what follows them. -/
def splitGap? : List Char → Option (List Char × List Char)
  | ':' :: ':' :: rest => some ([], rest)
  | c :: rest => (splitGap? rest).map fun (before, after) => (c :: before, after)
  | [] => none

/-- The pieces of the address that a text writes. -/
def ofText? (text : List Char) : Option (List Nat) :=
  match splitGap? text with
  | some (before, after) => do
    let before ← piecesOf? false before
    let after ← piecesOf? true after
    let count := before.length + after.length
    if count < 8 then some (before ++ List.replicate (8 - count) 0 ++ after) else none
  | none => do
    let pieces ← piecesOf? true text
    if pieces.length = 8 then some pieces else none

/-- The number of zeros at the start of pieces. -/
def zeros (pieces : List Nat) : Nat := (pieces.takeWhile (· == 0)).length

/-- The length of the longest run of zeros. -/
def longestZeros : List Nat → Nat
  | [] => 0
  | n :: rest => max (zeros (n :: rest)) (longestZeros rest)

/-- Pieces with colons between them. -/
def joined (pieces : List Nat) : List Char :=
  [':'].intercalate (pieces.map (Nat.toDigits 16))

/-- Pieces with two colons for the first run of `count` zeros. -/
def shortened (count : Nat) (before : List Nat) : List Nat → List Char
  | [] => joined before
  | n :: rest =>
    if zeros (n :: rest) = count then
      joined before ++ [':', ':'] ++ joined ((n :: rest).drop count)
    else shortened count (before ++ [n]) rest

/-- The written form of an address. -/
def text (pieces : List Nat) : List Char :=
  let count := longestZeros pieces
  if 2 ≤ count then shortened count [] pieces else joined pieces

end RamlBuild.Ipv6
