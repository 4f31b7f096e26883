import RamlBuild.Text.Search

/-!
# Quoted literals

A quoted literal stands between two double quotes. A backslash takes the character after it into the
literal, whatever it is; the value of a literal is its text as written. A double quote that no later
one closes opens no literal.

## Main definitions

* `Text.closeLiteral` — a literal whose opening quote has been read
* `Text.literals` — the literals of a line, from the left
-/

namespace RamlBuild.Text

/-- The text of a literal up to its closing quote, and what follows that quote. -/
def closeLiteral : List Char → Option (List Char × List Char)
  | [] => none
  | '"' :: rest => some ([], rest)
  | ['\\'] => none
  | '\\' :: c :: rest => (closeLiteral rest).map fun (value, after) => ('\\' :: c :: value, after)
  | c :: rest => (closeLiteral rest).map fun (value, after) => (c :: value, after)

/-- The literal and its closing quote are taken off the front of the text. -/
theorem eq_append_of_closeLiteral {text value after : List Char}
    (h : closeLiteral text = some (value, after)) : text = value ++ '"' :: after := by
  fun_induction closeLiteral text generalizing value after with
  | case1 => simp at h
  | case2 rest => simp only [Option.some.injEq, Prod.mk.injEq] at h; simp [← h.1, ← h.2]
  | case3 => simp at h
  | case4 c rest ih =>
    obtain ⟨⟨v, a⟩, hv, he⟩ := Option.map_eq_some_iff.1 h
    simp only [Prod.mk.injEq] at he
    simp [← he.1, ← he.2, ih hv]
  | case5 c rest _ _ _ ih =>
    obtain ⟨⟨v, a⟩, hv, he⟩ := Option.map_eq_some_iff.1 h
    simp only [Prod.mk.injEq] at he
    simp [← he.1, ← he.2, ih hv]

/-- A closed literal leaves less text than there was. -/
theorem length_lt_of_closeLiteral {text value after : List Char}
    (h : closeLiteral text = some (value, after)) : after.length < text.length := by
  rw [eq_append_of_closeLiteral h]; simp only [List.length_append, List.length_cons]; omega

/-- The values of the literals of a line, in order. -/
def literals (line : List Char) : List (List Char) :=
  match line with
  | [] => []
  | c :: rest =>
    if c = '"' then
      match h : closeLiteral rest with
      | some (value, after) =>
        have := length_lt_of_closeLiteral h
        value :: literals after
      | none => literals rest
    else
      literals rest
termination_by line.length
decreasing_by all_goals simp only [List.length_cons]; omega

/-- A literal at the start of a text: its value and what follows it. -/
def literal? : List Char → Option (List Char × List Char)
  | '"' :: rest => closeLiteral rest
  | _ => none

end RamlBuild.Text
