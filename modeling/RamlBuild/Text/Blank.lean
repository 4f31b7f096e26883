/-!
# Blank characters

The blank characters are those of the Unicode property `White_Space`. A text is trimmed of them at
its start, at its end or on both sides.
-/

namespace RamlBuild.Text

/-- The blank characters: tab to carriage return, the space, and the line ends and spaces beyond
ASCII. -/
def isBlank (c : Char) : Bool :=
  let n := c.toNat
  (9 ≤ n && n ≤ 13) || n == 0x20 || n == 0x85 || n == 0xa0 || n == 0x1680 ||
    (0x2000 ≤ n && n ≤ 0x200a) || n == 0x2028 || n == 0x2029 || n == 0x202f || n == 0x205f ||
    n == 0x3000

/-- The text without the blanks at its start. -/
def trimStart (text : List Char) : List Char :=
  text.dropWhile isBlank

/-- The text without the blanks at its end. -/
def trimEnd (text : List Char) : List Char :=
  (text.reverse.dropWhile isBlank).reverse

/-- The text without the blanks on both sides. -/
def trim (text : List Char) : List Char :=
  trimEnd (trimStart text)

/-- The text without the blanks on both sides, as a string. -/
def trimmed (text : String) : String :=
  String.ofList (trim text.toList)

/-- Whether a text has nothing but blanks. -/
def isBlankText (text : String) : Bool :=
  text.toList.all isBlank

/-- Every character that core counts as whitespace is blank. -/
theorem isBlank_of_isWhitespace {c : Char} (h : c.isWhitespace) : isBlank c := by
  simp only [Char.isWhitespace, Bool.or_eq_true, decide_eq_true_eq] at h
  rcases h with ((rfl | rfl) | rfl) | rfl <;> decide

end RamlBuild.Text
