/-!
# Ordered sets of texts

Texts are ordered by their characters, each compared by its code point, and a proper start of a text
comes before it. A set is kept as a list in that order without repetition.

## Main definitions

* `Text.insertOrdered` — one more text in a set
* `Text.ordered` — the set of the texts in a list
-/

namespace RamlBuild.Text

/-- Adds a text to an ordered set. -/
def insertOrdered (x : List Char) : List (List Char) → List (List Char)
  | [] => [x]
  | y :: rest =>
    if x < y then x :: y :: rest
    else if x = y then y :: rest
    else y :: insertOrdered x rest

/-- The texts of a list in order, each once. -/
def ordered (xs : List (List Char)) : List (List Char) :=
  xs.foldl (fun set x => insertOrdered x set) []

theorem mem_insertOrdered {a x : List Char} {xs : List (List Char)} :
    a ∈ insertOrdered x xs ↔ a = x ∨ a ∈ xs := by
  induction xs with
  | nil => simp [insertOrdered]
  | cons y rest ih =>
    unfold insertOrdered
    split
    · simp
    · split
      · subst_vars; simp
      · simp only [List.mem_cons, ih]
        constructor <;> (intro h; rcases h with h | h | h <;> simp [h])

/-- Whether one string comes before another. -/
def precedes (a b : String) : Bool :=
  decide (a.toList < b.toList)

end RamlBuild.Text
