/-!
# Digits

The value of digits to a base of at most sixteen. Letters count as digits above nine in either case.

## Main definitions

* `Text.digitValue?`, `Text.isDigitTo` — digits
* `Text.valueOf` — the number that digits stand for
* `Text.codeUnit?` — a number of four hexadecimal digits
-/

namespace RamlBuild.Text

/-- The value of a hexadecimal digit. -/
def digitValue? (c : Char) : Option Nat :=
  if c.isDigit then some (c.toNat - '0'.toNat)
  else if 'a' ≤ c && c ≤ 'f' then some (c.toNat - 'a'.toNat + 10)
  else if 'A' ≤ c && c ≤ 'F' then some (c.toNat - 'A'.toNat + 10)
  else none

/-- Whether a character is a digit to a base. -/
def isDigitTo (base : Nat) (c : Char) : Bool :=
  (digitValue? c).any (· < base)

/-- The value of digits to a base. -/
def valueOf (base : Nat) (digits : List Char) : Nat :=
  digits.foldl (fun n c => base * n + (digitValue? c).getD 0) 0

/-- The number of four hexadecimal digits, and what follows them. -/
def codeUnit? : List Char → Option (Nat × List Char)
  | a :: b :: c :: d :: rest =>
    if [a, b, c, d].all (isDigitTo 16) then some (valueOf 16 [a, b, c, d], rest) else none
  | _ => none

end RamlBuild.Text
