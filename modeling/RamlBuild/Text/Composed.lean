import RamlBuild.Text.ComposedTable

/-!
# Composed texts

A letter with marks can be written in several ways. In a composed text the marks at a letter stand
in the order of their classes, and a letter and a mark that are together one character are written
so.

## Main definitions

* `Text.composed` — the composed form of a text
-/

namespace RamlBuild.Text

/-- The class of a mark; zero for other characters. -/
def combiningClass (n : Nat) : Nat :=
  ((combiningClasses.value? n).bind List.head?).getD 0

/-- A character as a letter and its marks. A letter has at most `count` marks. -/
def decomposed : (count : Nat) → Nat → List Nat
  | 0, n => [n]
  | count + 1, n =>
    match composites.value? n with
    | some (first :: marks) => decomposed count first ++ marks
    | _ => [n]

/-- The most marks that one character has. -/
def maxMarks : Nat := 4

/-- The text with the marks at each letter in the order of their classes. -/
def sortMarks : List Nat → List Nat
  | [] => []
  | n :: rest =>
    if combiningClass n = 0 then n :: sortMarks rest
    else
      let marks := rest.takeWhile (combiningClass · != 0)
      (n :: marks).mergeSort (fun a b => combiningClass a ≤ combiningClass b) ++
        sortMarks (rest.drop marks.length)
termination_by text => text.length
decreasing_by
  · simp
  · simp only [List.length_drop, List.length_cons]; omega

/-- A syllable of three letters as the first two and the last one, or as the first and the second.
The syllables follow each other in the order of their letters. -/
def syllable? (first second : Nat) : Option Nat :=
  if 0x1100 ≤ first && first < 0x1113 && 0x1161 ≤ second && second < 0x1176 then
    some (0xac00 + ((first - 0x1100) * 21 + (second - 0x1161)) * 28)
  else if 0xac00 ≤ first && first < 0xd7a4 && (first - 0xac00) % 28 = 0 &&
      0x11a8 ≤ second && second < 0x11c3 then
    some (first + (second - 0x11a7))
  else none

/-- The characters of a table with their values. -/
def CodeTable.entries (table : CodeTable) : List (Nat × List Nat) :=
  table.flatMap fun r => r.values.zipIdx.map fun (value, k) => (r.first + k, value)

/-- Characters with what they are made up of. -/
def compositeEntries : List (Nat × List Nat) := composites.entries

/-- The character that a character and the one behind it are together. -/
def composite? (first second : Nat) : Option Nat :=
  match syllable? first second with
  | some n => some n
  | none => (compositeEntries.find? fun (_, parts) => parts = [first, second]).map (·.1)

/-- Composes a letter, the marks behind it that stay, and what follows. A mark is out of reach of
the letter when one of the same or a higher class comes before it. -/
def compose (letter : Nat) (marks : List Nat) : List Nat → List Nat
  | [] => letter :: marks
  | n :: rest =>
    let inReach := marks.getLast?.all (combiningClass · < combiningClass n)
    match if inReach then composite? letter n else none with
    | some both => compose both marks rest
    | none =>
      if combiningClass n = 0 then letter :: marks ++ compose n [] rest
      else compose letter (marks ++ [n]) rest

/-- The composed form of a text. -/
def composed (text : List Char) : List Char :=
  match sortMarks (text.flatMap fun c => decomposed maxMarks c.toNat) with
  | [] => []
  | n :: rest => (compose n [] rest).map Char.ofNat

end RamlBuild.Text
