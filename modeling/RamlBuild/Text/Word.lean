import RamlBuild.Text.WordTable

/-!
# Words

Word characters are the letters, marks, decimal digits, connectors and joiners of any script. A
word stands alone in a line where no further word character touches it on either side.

## Main definitions

* `Text.isWordChar`, `Text.isDecimalDigit` — the two character classes
* `Text.takeRun?` — the characters of a class at the start of a text, at least one
* `Text.replaceWord` — one word by another, wherever it stands alone
-/

namespace RamlBuild.Text

/-- Whether one of the ranges holds the number. -/
def inRanges (ranges : List (Nat × Nat)) (n : Nat) : Bool :=
  ranges.any fun (first, last) => first ≤ n && n ≤ last

/-- Word characters of any script. -/
def isWordChar (c : Char) : Bool :=
  c.isAlphanum || c == '_' || (0x80 ≤ c.toNat && inRanges wordRanges c.toNat)

/-- Decimal digits of any script. -/
def isDecimalDigit (c : Char) : Bool :=
  c.isDigit || (0x80 ≤ c.toNat && inRanges digitRanges c.toNat)

/-- The longest run of characters of a class at the start of a text, if it is not empty, and what
follows it. -/
def takeRun? (p : Char → Bool) (text : List Char) : Option (List Char × List Char) :=
  match text.takeWhile p with
  | [] => none
  | run => some (run, text.dropWhile p)

/-- Whether a text goes on with a word character. -/
def goesOnWithWord : List Char → Bool
  | [] => false
  | c :: _ => isWordChar c

/-- Replaces a word wherever it stands alone. `inWord` says whether the character before the text is
a word character. -/
def replaceWordFrom (word new : List Char) (inWord : Bool) (text : List Char) : List Char :=
  match text with
  | [] => []
  | c :: rest =>
    let after := rest.drop (word.length - 1)
    if !inWord && word.isPrefixOf (c :: rest) && !goesOnWithWord after then
      new ++ replaceWordFrom word new true after
    else
      c :: replaceWordFrom word new (isWordChar c) rest
termination_by text.length
decreasing_by
  · simp only [List.length_drop, List.length_cons]; omega
  · simp

/-- Replaces a word of at least one character wherever it stands alone in a line. -/
def replaceWord (word new : List Char) (text : List Char) : List Char :=
  replaceWordFrom word new false text

end RamlBuild.Text
