/-!
# Searching in a text

A text is looked through from the left. Occurrences that are replaced do not overlap: after one of
them the search goes on behind it.

## Main definitions

* `Text.after?` — what follows a given start of a text
* `Text.occursIn` — whether one text stands somewhere in another
* `Text.replaceAll` — all occurrences by another text
* `Text.beforeFirst`, `Text.beforeLast?` — the text up to an occurrence of a character
-/

namespace RamlBuild.Text

/-- What follows `start` in a text that begins with it. -/
def after? (start text : List Char) : Option (List Char) :=
  if start.isPrefixOf text then some (text.drop start.length) else none

/-- Whether `part` stands somewhere in the text. -/
def occursIn (part : List Char) : List Char → Bool
  | [] => part.isEmpty
  | c :: rest => part.isPrefixOf (c :: rest) || occursIn part rest

/-- Replaces the occurrences of `old` by `new`. An empty `old` stands before every character and at
the end. -/
def replaceAll (old new : List Char) (text : List Char) : List Char :=
  match text with
  | [] => if old.isEmpty then new else []
  | c :: rest =>
    if old.isEmpty then
      new ++ c :: replaceAll old new rest
    else if old.isPrefixOf (c :: rest) then
      new ++ replaceAll old new (rest.drop (old.length - 1))
    else
      c :: replaceAll old new rest
termination_by text.length
decreasing_by
  · simp
  · simp only [List.length_drop, List.length_cons]; omega
  · simp

/-- The text before the first occurrence of a character, or all of it. -/
def beforeFirst (stop : Char) (text : List Char) : List Char :=
  text.takeWhile (· != stop)

/-- The text before the last occurrence of a character. -/
def beforeLast? (stop : Char) (text : List Char) : Option (List Char) :=
  match text.reverse.dropWhile (· != stop) with
  | [] => none
  | _ :: before => some before.reverse

/-- The text behind the last occurrence of a character, or all of it. -/
def afterLast (stop : Char) (text : List Char) : List Char :=
  (text.reverse.takeWhile (· != stop)).reverse

/-- The text without the given character at its end. -/
def dropAtEnd (c : Char) (text : List Char) : List Char :=
  (text.reverse.dropWhile (· == c)).reverse

/-- A line that starts with the given text. -/
def startsWith (start : String) (line : List Char) : Bool :=
  start.toList.isPrefixOf line

/-- A line that ends with the given text. -/
def endsWith (ending : String) (line : List Char) : Bool :=
  ending.toList.isSuffixOf line

/-- A line in which the given text stands. -/
def has (part : String) (line : List Char) : Bool :=
  occursIn part.toList line

@[simp] theorem after?_append (start rest : List Char) :
    after? start (start ++ rest) = some rest := by
  simp [after?]

theorem eq_append_of_after? {start text rest : List Char} (h : after? start text = some rest) :
    text = start ++ rest := by
  unfold after? at h
  split at h
  · rename_i hp
    obtain ⟨t, rfl⟩ := List.isPrefixOf_iff_prefix.1 hp
    simpa using h
  · simp at h

end RamlBuild.Text
