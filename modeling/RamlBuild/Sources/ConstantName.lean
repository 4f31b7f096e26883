/-!
# Constant names

The name of a constant for a value: the ASCII letters and digits of the value in upper case, with an
underscore wherever a new word begins. A word begins after other characters, at an upper case letter
that follows a lower case letter or a digit, and at a digit that follows a letter or begins the
name.

## Main definitions

* `constantName` — the name for a value, empty when the value has no ASCII letter or digit
-/

namespace RamlBuild

/-- Whether a word begins at `c` within a name that has reached `before`. -/
def beginsWord (before c : Char) : Bool :=
  (c.isUpper && (before.isLower || before.isDigit)) || (c.isDigit && !before.isDigit)

/-- The name for the rest of a value, where `before` is the last letter or digit so far and `apart`
says whether other characters followed it. -/
def constantNameFrom (before : Option Char) (apart : Bool) : List Char → List Char
  | [] => []
  | c :: rest =>
    if c.isAlphanum then
      let boundary :=
        match before with
        | none => c.isDigit
        | some b => apart || beginsWord b c
      (if boundary then ['_'] else []) ++ c.toUpper :: constantNameFrom (some c) false rest
    else
      constantNameFrom before before.isSome rest

/-- The name of a constant that stands for a value. -/
def constantName (value : List Char) : List Char :=
  constantNameFrom none false value

end RamlBuild
