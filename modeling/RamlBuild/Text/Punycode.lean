/-!
# Texts in basic characters

A text of any characters is written in ASCII letters, digits and hyphens: its ASCII characters come
first, and behind a hyphen one number for each of the others tells which it is and where it goes.
The others are taken in the order of their code points; each number counts the steps from the last
one, so that it is small, and its digits are chosen by how large the numbers were so far.

## Main definitions

* `Punycode.encode` — the written form of a text
* `Punycode.decode?` — the text with a written form

## Main results

* `Punycode.length_lt_of_number?` — reading a number takes at least one character
-/

namespace RamlBuild.Text.Punycode

/-- The digit for a value below 36: letters before numbers. -/
def digit (n : Nat) : Char :=
  if n < 26 then Char.ofNat ('a'.toNat + n) else Char.ofNat ('0'.toNat + (n - 26))

/-- The value of a digit. -/
def digitValue? (c : Char) : Option Nat :=
  if c.isLower then some (c.toNat - 'a'.toNat)
  else if c.isUpper then some (c.toNat - 'A'.toNat)
  else if c.isDigit then some (c.toNat - '0'.toNat + 26)
  else none

/-- The values below which a digit is the last one of its number. `place` counts the digits before
it. -/
def threshold (bias place : Nat) : Nat :=
  min 26 (max 1 (36 * (place + 1) - bias))

theorem threshold_pos (bias place : Nat) : 1 ≤ threshold bias place := by
  unfold threshold; omega

theorem threshold_le (bias place : Nat) : threshold bias place ≤ 26 := by
  unfold threshold; omega

/-- How often a number is divided by 35 until it is small, and what is left then. -/
def scaled (delta : Nat) : Nat × Nat :=
  if 455 < delta then
    let (times, rest) := scaled (delta / 35)
    (times + 1, rest)
  else (0, delta)
termination_by delta
decreasing_by omega

/-- The bias after a number, when `count` characters are placed. -/
def adapt (delta count : Nat) (isFirst : Bool) : Nat :=
  let delta := if isFirst then delta / 700 else delta / 2
  let (times, rest) := scaled (delta + delta / count)
  36 * times + 36 * rest / (rest + 38)

/-- The digits of a number, the lowest first. -/
def digits (bias place n : Nat) : List Char :=
  let t := threshold bias place
  if n < t then [digit n]
  else digit (t + (n - t) % (36 - t)) :: digits bias (place + 1) ((n - t) / (36 - t))
termination_by n
decreasing_by
  have := threshold_pos bias place
  exact Nat.lt_of_le_of_lt (Nat.div_le_self _ _) (by omega)

/-- How far the writing of a text has come. -/
structure Progress where
  /-- The digits so far. -/
  written : List Char
  /-- The steps since the last number. -/
  delta : Nat
  /-- The bias. -/
  bias : Nat
  /-- The number of characters that are placed. -/
  placed : Nat

/-- Passes one character of the text while code point `n` is placed. -/
def Progress.pass (basic n : Nat) (p : Progress) (c : Char) : Progress :=
  if c.toNat < n then { p with delta := p.delta + 1 }
  else if c.toNat = n then
    { written := p.written ++ digits p.bias 0 p.delta
      delta := 0
      bias := adapt p.delta (p.placed + 1) (p.placed == basic)
      placed := p.placed + 1 }
  else p

/-- Places the code points of a list one after the other; `next` is the one behind the last. -/
def place (text : List Char) (basic : Nat) : (codes : List Nat) → (next : Nat) → Progress →
    Progress
  | [], _, p => p
  | n :: rest, next, p =>
    let before := { p with delta := p.delta + (n - next) * (p.placed + 1) }
    let after := text.foldl (Progress.pass basic n) before
    place text basic rest (n + 1) { after with delta := after.delta + 1 }

/-- The ASCII characters. -/
def isBasic (c : Char) : Bool := c.toNat < 0x80

/-- The bias at the start. -/
def startBias : Nat := 72

/-- The written form of a text. -/
def encode (text : List Char) : List Char :=
  let basic := text.filter isBasic
  let codes := ((text.filter (!isBasic ·)).map Char.toNat).mergeSort.eraseReps
  let start := if basic.isEmpty then [] else basic ++ ['-']
  start ++ (place text basic.length codes 0x80 ⟨[], 0, startBias, basic.length⟩).written

/-- The number at the start of a text, and what follows it. -/
def number? (bias : Nat) (place weight : Nat) : List Char → Option (Nat × List Char)
  | [] => none
  | c :: rest => do
    let d ← digitValue? c
    let t := threshold bias place
    if d < t then some (d * weight, rest)
    else
      let (n, rest) ← number? bias (place + 1) (weight * (36 - t)) rest
      some (d * weight + n, rest)

theorem length_lt_of_number? {bias place weight n : Nat} {text rest : List Char}
    (h : number? bias place weight text = some (n, rest)) : rest.length < text.length := by
  induction text generalizing place weight n with
  | nil => simp [number?] at h
  | cons c more ih =>
    simp only [number?, Option.bind_eq_bind] at h
    obtain ⟨d, _, h⟩ := Option.bind_eq_some_iff.1 h
    split at h
    · simp only [Option.some.injEq, Prod.mk.injEq] at h
      simp [h.2]
    · obtain ⟨⟨m, rest'⟩, hm, h⟩ := Option.bind_eq_some_iff.1 h
      simp only [Option.some.injEq, Prod.mk.injEq] at h
      obtain ⟨_, rfl⟩ := h
      exact Nat.lt_succ_of_lt (ih hm)

/-- Whether a number is the code point of a character. -/
def isCharacter (n : Nat) : Bool :=
  n < 0xd800 || (0xe000 ≤ n && n < 0x110000)

/-- Puts the characters that numbers tell into a text, counting from a code point and a place. -/
def insertAll? (bias last start : Nat) (text : List Char) (numbers : List Char) :
    Option (List Char) :=
  match numbers with
  | [] => some text
  | c :: more =>
    match h : number? bias 0 1 (c :: more) with
    | none => none
    | some (delta, rest) =>
      let count := text.length + 1
      let code := last + (start + delta) / count
      let index := (start + delta) % count
      if isCharacter code then
        insertAll? (adapt delta count (start == 0)) code (index + 1)
          (text.insertIdx index (Char.ofNat code)) rest
      else none
termination_by numbers.length
decreasing_by exact length_lt_of_number? h

/-- The text with a written form, if it is one. -/
def decode? (written : List Char) : Option (List Char) :=
  let numbers := (written.reverse.takeWhile (· != '-')).reverse
  -- A hyphen at the very start has no characters before it that it could end.
  if numbers.length + 1 < written.length then
    insertAll? startBias 0x80 0 (written.take (written.length - numbers.length - 1)) numbers
  else insertAll? startBias 0x80 0 [] written

end RamlBuild.Text.Punycode
