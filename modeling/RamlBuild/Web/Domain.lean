import RamlBuild.Text.Composed
import RamlBuild.Text.Punycode
import RamlBuild.Text.Search
import RamlBuild.Web.DomainTable

/-!
# Domain names

A domain name is a sequence of labels with dots between them. It may be given in any script and in
several spellings; its written form has ASCII characters only. A label with other characters is
written as `xn--` and its form in basic characters, and a label that comes in this form has to be
one that could be written so.

## Main definitions

* `Domain.mapped?` — a name in the one spelling that it is written from
* `Domain.isLabel`, `Domain.isDirected` — what every label has to satisfy
* `Domain.written?` — the written form of a name
-/

namespace RamlBuild.Domain

open Text

/-- What becomes of a character in the spelling that a name is written from. Some characters do not
occur in names. -/
def image? (c : Char) : Option (List Char) :=
  if c.toNat < 0x80 then some [c.toLower]
  else if known.has c.toNat then
    match images.value? c.toNat with
    | some image => some (image.map Char.ofNat)
    | none => some [c]
  else none

/-- The spelling that a name is written from. -/
def mapped? (name : List Char) : Option (List Char) :=
  (name.mapM image?).map fun images => composed images.flatten

/-- Whether a character joins its neighbours, or keeps them from joining. -/
def isJoiner (c : Char) : Bool := c == '\u200c' || c == '\u200d'

/-- Whether a mark ends the vowel of the letter it belongs to. -/
def endsVowel (c : Char) : Bool := combiningClass c.toNat = 9

/-- Whether letters on both sides of a place join there. Marks between do not matter. -/
def joinsAt (before after : List Char) : Bool :=
  let next := fun text : List Char => (text.dropWhile fun c => nonspacing.has c.toNat).head?
  (next before.reverse).any (fun c => joiningLeft.has c.toNat) &&
    (next after).any fun c => joiningRight.has c.toNat

/-- Whether every joiner is needed: it follows a mark that ends a vowel, or it keeps letters from
joining that would. -/
def joinersFit (before : List Char) : List Char → Bool
  | [] => true
  | c :: rest =>
    (!isJoiner c || before.getLast?.any endsVowel || (c == '\u200c' && joinsAt before rest)) &&
      joinersFit (before ++ [c]) rest

/-- Whether characters are a label: in their one spelling, no mark at the start, and joiners only
where they are needed. -/
def isLabel (label : List Char) : Bool :=
  mapped? label = some label && !label.head?.any (fun c => marks.has c.toNat) &&
    joinersFit [] label

/-- The direction that a character is written in. -/
inductive Direction where
  /-- From left to right. -/
  | rightward
  /-- From right to left. -/
  | leftward
  /-- A digit that goes with either direction. -/
  | number
  /-- A digit of a script that is written from right to left. -/
  | leftwardNumber
  /-- That of the characters around it. -/
  | either
  /-- That of the character before it. -/
  | mark
  deriving DecidableEq, Repr

/-- The direction of a character. -/
def direction (c : Char) : Direction :=
  let n := c.toNat
  if n < 0x80 then
    if c.isDigit then .number else if c.isAlpha then .rightward else .either
  else if (0x6f0 ≤ n && n ≤ 0x6f9) || (0x102e1 ≤ n && n ≤ 0x102fb) then .number
  else if (0x660 ≤ n && n ≤ 0x669) || n == 0x66b || n == 0x66c || (0x10d30 ≤ n && n ≤ 0x10d39) ||
    (0x10e60 ≤ n && n ≤ 0x10e7e) then .leftwardNumber
  else if nonspacing.has n then .mark
  else if rightToLeft.has n then .leftward
  else if neutral.has n then .either
  else .rightward

/-- Whether a label makes its name one with a direction from right to left. -/
def turns (label : List Char) : Bool :=
  label.any fun c => [.leftward, .leftwardNumber].contains (direction c)

/-- Whether a label can be read in a name with a direction from right to left: it has one direction
throughout, and a letter or a digit of it at both ends. -/
def isDirected (label : List Char) : Bool :=
  let directions := label.map direction
  let last := (directions.reverse.dropWhile (· == .mark)).head?
  match directions with
  | [] => true
  | .rightward :: _ =>
    directions.all [.rightward, .number, .either, .mark].contains &&
      last.any [.rightward, .number].contains
  | .leftward :: _ =>
    directions.all [.leftward, .leftwardNumber, .number, .either, .mark].contains &&
      last.any [.leftward, .leftwardNumber, .number].contains &&
      !(directions.contains .number && directions.contains .leftwardNumber)
  | _ => false

/-- Whether all characters are ASCII. -/
def isPlain (text : List Char) : Bool := text.all (·.toNat < 0x80)

/-- The start of a label that is written in basic characters. -/
def encodedStart : List Char := ['x', 'n', '-', '-']

/-- The label that is written so, if it is one. -/
def readLabel? (label : List Char) : Option (List Char) :=
  match after? encodedStart label with
  | some written => do
    let label ← Punycode.decode? written
    if isPlain label then none else some label
  | none => some label

/-- The written form of a label. -/
def writeLabel (label : List Char) : List Char :=
  if isPlain label then label else encodedStart ++ Punycode.encode label

/-- The written form of a name. -/
def written? (name : List Char) : Option (List Char) := do
  let labels := (← mapped? name).splitOn '.'
  let read ← labels.mapM readLabel?
  if read.all isLabel && (!read.any turns || read.all isDirected) then
    some (['.'].intercalate (labels.map writeLabel))
  else none

end RamlBuild.Domain
