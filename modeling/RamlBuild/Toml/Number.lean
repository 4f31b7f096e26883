import RamlBuild.Text.Digits

/-!
# Numbers and dates of a configuration

Whole numbers fit into 64 bits; they may be written to the bases two, eight and sixteen as well.
Other numbers have a fraction or an exponent; a positive one is finite unless it says otherwise.
Single underscores may stand between digits. Dates and times have fixed numbers of digits, and a day
that the month has.

Only the form of these values matters, so reading one gives what follows it.

## Main definitions

* `Toml.number?` — what follows a number
* `Toml.moment?` — what follows a date or a time
-/

namespace RamlBuild.Toml

open Text (isDigitTo valueOf)

/-- Digits of a class with single underscores between them, and what follows them. -/
def moreDigits (isDigit : Char → Bool) : List Char → List Char × List Char
  | '_' :: c :: rest =>
    if isDigit c then
      let (digits, rest) := moreDigits isDigit rest
      (c :: digits, rest)
    else ([], '_' :: c :: rest)
  | c :: rest =>
    if isDigit c then
      let (digits, rest) := moreDigits isDigit rest
      (c :: digits, rest)
    else ([], c :: rest)
  | [] => ([], [])

/-- At least one digit of a class, and what follows the digits. -/
def digits? (isDigit : Char → Bool) : List Char → Option (List Char × List Char)
  | c :: rest =>
    if isDigit c then
      let (digits, rest) := moreDigits isDigit rest
      some (c :: digits, rest)
    else none
  | [] => none

/-- Whether there is a minus sign, and what follows the sign. -/
def sign : List Char → Bool × List Char
  | '-' :: rest => (true, rest)
  | '+' :: rest => (false, rest)
  | text => (false, text)

/-- Decimal digits without a zero before others, and what follows them. -/
def decimal? : List Char → Option (List Char × List Char)
  | '0' :: rest => some (['0'], rest)
  | text => digits? Char.isDigit text

/-- Whole numbers stay below this one. -/
def wholeLimit : Nat := 0x8000000000000000

/-- What follows a number to another base than ten, behind the mark of its base. -/
def based? (base : Nat) (text : List Char) : Option (List Char) := do
  let (digits, rest) ← digits? (isDigitTo base) text
  guard (valueOf base digits < wholeLimit)
  some rest

/-- What follows a whole number. -/
def whole? : List Char → Option (List Char)
  | '0' :: 'x' :: rest => based? 16 rest
  | '0' :: 'o' :: rest => based? 8 rest
  | '0' :: 'b' :: rest => based? 2 rest
  | text => do
    let (negative, rest) := sign text
    let (digits, rest) ← decimal? rest
    guard (valueOf 10 digits < wholeLimit + (if negative then 1 else 0))
    some rest

/-- A fraction behind its point, and what follows it. -/
def fraction? : List Char → Option (List Char × List Char)
  | '.' :: rest => digits? Char.isDigit rest
  | _ => none

/-- An exponent, and what follows it. -/
def exponent? : List Char → Option (Int × List Char)
  | c :: rest =>
    if c == 'e' || c == 'E' then do
      let (negative, rest) := sign rest
      let (digits, rest) ← digits? Char.isDigit rest
      let n : Int := valueOf 10 digits
      some (if negative then -n else n, rest)
    else none
  | [] => none

/-- The least number that is taken for infinite. -/
def leastInfinite : Nat := Nat.pow 2 1024 - Nat.pow 2 970

/-- Decimal digits shifted by an exponent stay below the numbers that are taken for infinite. -/
def isFinite (digits : List Char) (exponent : Int) : Bool :=
  let digits := digits.dropWhile (· == '0')
  let magnitude := digits.length + exponent
  -- Far from the limit the number of digits decides, without a large power.
  if digits.isEmpty || magnitude < 300 then true
  else if 400 < magnitude then false
  else valueOf 10 digits * Nat.pow 10 exponent.toNat <
    leastInfinite * Nat.pow 10 (-exponent).toNat

/-- What follows a number with a fraction or an exponent. -/
def fractional? (text : List Char) : Option (List Char) := do
  let (negative, rest) := sign text
  let (whole, rest) ← decimal? rest
  match fraction? rest with
  | some (fraction, rest) =>
    let (exponent, rest) := (exponent? rest).getD (0, rest)
    guard (negative || isFinite (whole ++ fraction) (exponent - fraction.length))
    some rest
  | none => do
    let (exponent, rest) ← exponent? rest
    guard (negative || isFinite whole exponent)
    some rest

/-- What follows a number that is no finite one. -/
def special? (text : List Char) : Option (List Char) :=
  match (sign text).2 with
  | 'i' :: 'n' :: 'f' :: rest => some rest
  | 'n' :: 'a' :: 'n' :: rest => some rest
  | _ => none

/-- The number of exactly `count` digits, and what follows them. -/
def fixed? (count : Nat) (text : List Char) : Option (Nat × List Char) := do
  let digits := text.take count
  guard (digits.length = count && digits.all Char.isDigit)
  some (valueOf 10 digits, text.drop count)

/-- A number of two digits within bounds, and what follows them. -/
def two? (least most : Nat) (text : List Char) : Option (Nat × List Char) := do
  let (n, rest) ← fixed? 2 text
  guard (least ≤ n && n ≤ most)
  some (n, rest)

/-- What follows a character. -/
def skip? (c : Char) : List Char → Option (List Char)
  | d :: rest => if c = d then some rest else none
  | [] => none

/-- The years with a day more. -/
def isLeap (year : Nat) : Bool :=
  year % 4 = 0 && (year % 100 != 0 || year % 400 = 0)

/-- The days of a month. -/
def daysOf (year month : Nat) : Nat :=
  if month = 2 then (if isLeap year then 29 else 28)
  else if [4, 6, 9, 11].contains month then 30
  else 31

/-- What follows a date. -/
def date? (text : List Char) : Option (List Char) := do
  let (year, rest) ← fixed? 4 text
  let (month, rest) ← two? 1 12 (← skip? '-' rest)
  let (_, rest) ← two? 1 (daysOf year month) (← skip? '-' rest)
  some rest

/-- What follows a time. -/
def time? (text : List Char) : Option (List Char) := do
  let (_, rest) ← two? 0 23 text
  let (_, rest) ← two? 0 59 (← skip? ':' rest)
  let (_, rest) ← two? 0 60 (← skip? ':' rest)
  match rest with
  | '.' :: more =>
    let digits := more.takeWhile Char.isDigit
    some (if digits.isEmpty then rest else more.drop digits.length)
  | _ => some rest

/-- What follows an offset from universal time. -/
def offset? : List Char → Option (List Char)
  | c :: rest =>
    if c == 'Z' || c == 'z' then some rest
    else if c == '+' || c == '-' then do
      let (_, rest) ← two? 0 23 rest
      let (_, rest) ← two? 0 59 (← skip? ':' rest)
      some rest
    else none
  | [] => none

/-- What follows a time with its offset, behind the mark between date and time. -/
def timeOfDay? : List Char → Option (List Char)
  | c :: rest =>
    if c == 'T' || c == 't' || c == ' ' then do
      let rest ← time? rest
      some ((offset? rest).getD rest)
    else none
  | [] => none

/-- What follows a date, perhaps with a time, or a time. -/
def moment? (text : List Char) : Option (List Char) :=
  match date? text with
  | some rest => some ((timeOfDay? rest).getD rest)
  | none => time? text

/-- What follows a number. -/
def number? (text : List Char) : Option (List Char) :=
  fractional? text <|> special? text <|> whole? text

end RamlBuild.Toml
