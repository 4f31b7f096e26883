import RamlBuild.Proofs.Sources.ResourcePaths
import RamlBuild.Sources.Discriminator

/-!
# Typing a discriminator

The literal discriminator of an interface is the first one behind its declaration, and the type is
that of the first discriminator field behind the declaration of the implementation. The line with
the literal is exchanged, and no other line is.

## Main definitions

* `BodyLine` — the first line of a kind behind an opening line, with the lines around it
* `literalValue`, `assignedTo` — the value that a literal stands for, and what is assigned for it

## Main results

* `discriminatorType?_eq_some_iff`, `discriminatorType?_eq_none_iff` — the type of an implementation
* `patchDiscriminator_of_bodyLine` — what becomes of an interface
* `patchDiscriminator_ne` — an interface whose discriminator has a type of its own is not kept
* `patchDiscriminator_of_own_name` — what becomes of an interface that is named by its literal
-/

namespace RamlBuild

open Text

variable {opens holds : Line → Bool} {f : Line → Line} {line : Line} {ls before after : List Line}
  {type name value : List Char} {source : String}

/-! ### A line in a body -/

/-- The first line of a kind behind the first opening line, with the lines around it. -/
structure BodyLine (opens holds : Line → Bool) (ls : List Line) where
  /-- The lines up to the opening line. -/
  ahead : List Line
  /-- The opening line. -/
  opening : Line
  /-- The lines between the two. -/
  between : List Line
  /-- The line itself. -/
  line : Line
  /-- The lines behind. -/
  rest : List Line
  /-- The first opening line. -/
  opening_first : SplitsFirst opens ls ahead opening (between ++ line :: rest)
  /-- The first line of the kind behind it. -/
  line_first : SplitsFirst holds (between ++ line :: rest) between line rest

namespace BodyLine

/-- The lines with another one in the place of this one. -/
def exchanged (found : BodyLine opens holds ls) (line : Line) : List Line :=
  found.ahead ++ found.opening :: found.between ++ line :: found.rest

theorem eq_exchanged (found : BodyLine opens holds ls) : ls = found.exchanged found.line := by
  conv_lhs => rw [found.opening_first.eq]
  simp [exchanged]

theorem line_mem (found : BodyLine opens holds ls) : found.line ∈ ls := by
  have hmem : found.line ∈ found.exchanged found.line := by simp [exchanged]
  rwa [← found.eq_exchanged] at hmem

theorem find?_eq (found : BodyLine opens holds ls) :
    (dropThrough opens ls).find? holds = some found.line := by
  rw [found.opening_first.dropThrough_eq, found.line_first.find?_eq]

theorem exists_of_any (h : (dropThrough opens ls).any holds = true) :
    Nonempty (BodyLine opens holds ls) := by
  have hopens : ls.any opens = true := by
    by_contra hnone
    rw [dropThrough_of_any_eq_false (Bool.eq_false_iff.2 hnone)] at h
    exact Bool.false_ne_true h
  obtain ⟨ahead, opening, body, hopening⟩ := exists_splitsFirst hopens
  rw [hopening.dropThrough_eq] at h
  obtain ⟨between, line, rest, hline⟩ := exists_splitsFirst h
  exact ⟨⟨ahead, opening, between, line, rest, hline.eq ▸ hopening, hline.eq ▸ hline⟩⟩

/-- There is such a line if a search behind the opening line finds one. -/
theorem nonempty_iff :
    Nonempty (BodyLine opens holds ls) ↔ (dropThrough opens ls).any holds = true := by
  constructor
  · rintro ⟨found⟩
    rw [found.opening_first.dropThrough_eq]
    exact found.line_first.any_eq_true
  · exact exists_of_any

theorem find?_eq_some_iff :
    (dropThrough opens ls).find? holds = some line ↔
      ∃ found : BodyLine opens holds ls, found.line = line := by
  constructor
  · intro h
    have hany : (dropThrough opens ls).any holds = true :=
      List.any_eq_true.2 ⟨line, List.mem_of_find?_eq_some h, List.find?_some h⟩
    obtain ⟨found⟩ := exists_of_any hany
    exact ⟨found, Option.some.inj (found.find?_eq.symm.trans h)⟩
  · rintro ⟨found, rfl⟩
    exact found.find?_eq

/-- The same texts with another line in the place of this one have the same line there. -/
theorem exchanged_injective (found : BodyLine opens holds ls) {l l' : Line}
    (h : ofLines (found.exchanged l) = ofLines (found.exchanged l')) : l = l' := by
  have hchars := congrArg String.toList h
  simp only [toList_ofLines, exchanged, List.flatMap_append, List.flatMap_cons] at hchars
  exact List.append_cancel_right (List.append_cancel_right (List.append_cancel_left hchars))

end BodyLine

theorem snd_splitAfter (p : Line → Bool) (ls : List Line) :
    (splitAfter p ls).2 = dropThrough p ls := by
  induction ls with
  | nil => rfl
  | cons l rest ih =>
    rw [splitAfter, dropThrough, List.dropWhile_cons]
    cases hl : p l with
    | true => rfl
    | false => exact ih

theorem SplitsFirst.splitAfter_eq (h : SplitsFirst opens ls before line after) :
    splitAfter opens ls = (before ++ [line], after) := by
  obtain ⟨rfl, hbefore, hline⟩ := h
  induction before with
  | nil => simp [splitAfter, hline]
  | cons l before ih =>
    have hl := hbefore l List.mem_cons_self
    have hrest := ih fun l' hl' => hbefore l' (List.mem_cons_of_mem l hl')
    simp [splitAfter, hl, hrest]

theorem SplitsFirst.mapFirst_eq (h : SplitsFirst holds ls before line after) (f : Line → Line) :
    mapFirst holds f ls = before ++ f line :: after := by
  obtain ⟨rfl, hbefore, hline⟩ := h
  induction before with
  | nil => simp [mapFirst, hline]
  | cons l before ih =>
    have hl := hbefore l List.mem_cons_self
    have hrest := ih fun l' hl' => hbefore l' (List.mem_cons_of_mem l hl')
    simp [mapFirst, hl, hrest]

/-! ### The type of an implementation -/

/-- A line that declares the discriminator field of an implementation. -/
def declaresField (line : Line) : Bool :=
  startsWith discriminatorField line && endsWith discriminatorFieldEnd line

/-- The discriminator field of an implementation: the first one behind the declaration of the
class. -/
abbrev DiscriminatorField (ls : List Line) : Type :=
  BodyLine (startsWith "public class") declaresField ls

/-- The type of a field, which is the first word of its declaration. -/
def fieldType (line : Line) : List Char :=
  beforeFirst ' ' (line.drop discriminatorField.length)

theorem discriminatorType?_eq (source : String) :
    discriminatorType? source =
      ((dropThrough (startsWith "public class") (lines source)).find? declaresField).bind
        fun line => if fieldType line = [] then none else some (fieldType line) := by
  rw [discriminatorType?, ← snd_splitAfter]
  refine Option.bind_congr fun line _ => ?_
  rw [← fieldType]
  cases fieldType line <;> rfl

theorem discriminatorType?_eq_some_iff :
    discriminatorType? source = some type ↔
      type ≠ [] ∧ ∃ field : DiscriminatorField (lines source), fieldType field.line = type := by
  rw [discriminatorType?_eq, Option.bind_eq_some_iff]
  constructor
  · rintro ⟨line, hline, htype⟩
    obtain ⟨field, rfl⟩ := BodyLine.find?_eq_some_iff.1 hline
    split at htype
    · contradiction
    · rename_i hne
      obtain rfl := Option.some.inj htype
      exact ⟨hne, field, rfl⟩
  · rintro ⟨hne, field, rfl⟩
    exact ⟨field.line, field.find?_eq, if_neg hne⟩

/-- An implementation tells no type if it has no field, or one whose declaration goes on with a
space. -/
theorem discriminatorType?_eq_none_iff :
    discriminatorType? source = none ↔
      ∀ field : DiscriminatorField (lines source), fieldType field.line = [] := by
  rw [Option.eq_none_iff_forall_ne_some]
  constructor
  · intro h field
    by_contra hne
    exact h _ (discriminatorType?_eq_some_iff.2 ⟨hne, field, rfl⟩)
  · intro h type htype
    obtain ⟨hne, field, rfl⟩ := discriminatorType?_eq_some_iff.1 htype
    exact hne (h field)

/-- Every type that is not one of the builtin ones is a custom type, however long its name is. -/
theorem isCustomType_iff {type : String} : isCustomType type = true ↔ type ∉ builtinTypes := by
  have hlength : ∀ builtin ∈ builtinTypes, builtin.utf8ByteSize ≤ 7 := by
    decide
  rw [isCustomType, Bool.or_eq_true, decide_eq_true_eq, Bool.not_eq_true', List.contains_eq_mem,
    decide_eq_false_iff_not]
  constructor
  · rintro (hlong | hother) hmem
    · exact absurd (hlength type hmem) (by omega)
    · exact hother hmem
  · exact Or.inr

theorem space_not_mem_fieldType (line : Line) : ' ' ∉ fieldType line := by
  intro hmem
  have hne := List.mem_takeWhile_imp hmem
  simp at hne

/-! ### What a literal stands for -/

/-- The literal discriminator of an interface: the first one behind its declaration. -/
abbrev LiteralDiscriminator (ls : List Line) : Type :=
  BodyLine opensInterface (startsWith discriminatorLiteral) ls

/-- The value of a literal, without underscores. It ends at the last quote of its line, or at the
end of the line. -/
def literalValue (line : Line) : List Char :=
  let literal := line.drop discriminatorLiteral.length
  ((beforeLast? '"' literal).getD literal).filter (· != '_')

/-- What is assigned for a value: nothing where it is the name of the interface, or else the
constant of the type that is called by its letters and digits. -/
def assignedTo (type name value : List Char) : List Char :=
  if value = name then "null".toList
  else type ++ '.' :: (value.filter Char.isAlphanum).map Char.toUpper

/-- The declaration of a discriminator of a type. -/
def discriminatorDeclaration (type assigned : List Char) : Line :=
  "  ".toList ++ type ++ " _DISCRIMINATOR_TYPE_NAME = ".toList ++ assigned ++ [';']

theorem underscore_not_mem_literalValue (line : Line) : '_' ∉ literalValue line := by
  intro hmem
  have hne := (List.mem_filter.1 hmem).2
  simp at hne

theorem enumConstant_eq (h : '_' ∉ value) :
    enumConstant type value = type ++ '.' :: (value.filter Char.isAlphanum).map Char.toUpper := by
  have hfilter : value.filter isAsciiWordChar = value.filter Char.isAlphanum := by
    refine List.filter_congr fun c hc => ?_
    have hne : c ≠ '_' := fun heq => h (heq ▸ hc)
    simp [isAsciiWordChar, hne]
  rw [enumConstant, hfilter]

theorem typedDiscriminator_eq (type name : List Char) (line : Line) :
    typedDiscriminator type name line =
      discriminatorDeclaration type (assignedTo type name (literalValue line)) := by
  rw [typedDiscriminator, assignedTo, ← enumConstant_eq (underscore_not_mem_literalValue line)]
  rfl

/-- A constant is told from `null` by its dot. -/
theorem assignedTo_eq_null_iff : assignedTo type name value = "null".toList ↔ value = name := by
  rw [assignedTo]
  constructor
  · intro h
    by_contra hne
    rw [if_neg hne] at h
    have hdot : '.' ∈ "null".toList := by
      rw [← h]
      simp
    exact absurd hdot (by decide)
  · intro h
    rw [if_pos h]

theorem discriminatorDeclaration_injective : Function.Injective (discriminatorDeclaration type) := by
  intro assigned assigned' h
  exact List.append_cancel_left (List.append_cancel_right h)

/-! ### What becomes of an interface -/

theorem hasDiscriminatorLiteral_iff :
    hasDiscriminatorLiteral source = true ↔ Nonempty (LiteralDiscriminator (lines source)) := by
  rw [hasDiscriminatorLiteral, snd_splitAfter, BodyLine.nonempty_iff]

/-- The line with the literal is exchanged for the declaration with the type. -/
theorem patchDiscriminator_of_bodyLine (literal : LiteralDiscriminator (lines source))
    (type name : List Char) :
    patchDiscriminator type name source = ofLines (literal.exchanged
      (discriminatorDeclaration type (assignedTo type name (literalValue literal.line)))) := by
  rw [patchDiscriminator, if_pos (hasDiscriminatorLiteral_iff.2 ⟨literal⟩),
    literal.opening_first.splitAfter_eq, ← typedDiscriminator_eq]
  simp only [literal.line_first.mapFirst_eq]
  rw [BodyLine.exchanged]
  simp

/-- A declaration with another type than `String` is not the literal one. -/
theorem discriminatorDeclaration_ne (hspace : ' ' ∉ type) (htype : type ≠ "String".toList)
    (hline : startsWith discriminatorLiteral line = true) {assigned : List Char} :
    discriminatorDeclaration type assigned ≠ line := by
  intro heq
  obtain ⟨rest, hrest⟩ := startsWith_iff.1 hline
  rw [← hrest] at heq
  have hnotSpace : ∀ {word : List Char}, ' ' ∉ word → ∀ c ∈ word, (c != ' ') = true := by
    intro word hword c hc
    rw [bne_iff_ne]
    rintro rfl
    exact hword hc
  have hwords : type ++ ' ' :: ("_DISCRIMINATOR_TYPE_NAME = ".toList ++ assigned ++ [';']) =
      "String".toList ++ ' ' :: ("_DISCRIMINATOR_TYPE_NAME = \"".toList ++ rest) := by
    simpa [discriminatorDeclaration, discriminatorLiteral] using heq
  exact htype (eq_of_append_cons_eq (hnotSpace hspace) (hnotSpace (by decide)) (by simp) (by simp)
    hwords)

theorem newline_not_mem_discriminatorDeclaration (htype : '\n' ∉ type) :
    '\n' ∉ discriminatorDeclaration type (assignedTo type name value) := by
  have hassigned : '\n' ∉ assignedTo type name value := by
    rw [assignedTo]
    split
    · decide
    · simp only [List.mem_append, List.mem_cons, List.mem_map, List.mem_filter, not_or, not_exists]
      refine ⟨htype, by decide, ?_⟩
      rintro c ⟨⟨-, hc⟩, hupper⟩
      have halphanum := isAlphanum_toUpper hc
      rw [hupper] at halphanum
      exact absurd halphanum (by decide)
  simp [discriminatorDeclaration, htype, hassigned]

theorem endsPlain_discriminatorDeclaration {assigned : List Char} :
    EndsPlain (discriminatorDeclaration type assigned) :=
  endsPlain_concat (by decide)

/-- An interface whose discriminator gets a type of its own is not kept as it is. -/
theorem patchDiscriminator_ne (literal : LiteralDiscriminator (lines source)) (hspace : ' ' ∉ type)
    (hnewline : '\n' ∉ type) (htype : type ≠ "String".toList) :
    patchDiscriminator type name source ≠ source := by
  intro heq
  rw [patchDiscriminator_of_bodyLine literal] at heq
  have hplain : ∀ l ∈ literal.exchanged (discriminatorDeclaration type
      (assignedTo type name (literalValue literal.line))), '\n' ∉ l := by
    intro l hl
    by_cases hdeclaration : l = discriminatorDeclaration type
        (assignedTo type name (literalValue literal.line))
    · rw [hdeclaration]
      exact newline_not_mem_discriminatorDeclaration hnewline
    · -- The other lines are those of the source.
      have hsource : l ∈ lines source := by
        rw [literal.eq_exchanged]
        simp only [BodyLine.exchanged, List.mem_append, List.mem_cons] at hl ⊢
        tauto
      exact not_mem_of_mem_lines hsource
  -- The lines of both texts are compared at the place of the literal.
  have hlines := congrArg lines heq
  rw [lines_ofLines hplain] at hlines
  have hsource := hlines.trans literal.eq_exchanged
  rw [BodyLine.exchanged, BodyLine.exchanged, List.map_append, List.map_cons] at hsource
  obtain ⟨-, hbehind⟩ := List.append_inj hsource (by simp)
  obtain ⟨hline, -⟩ := List.cons.inj hbehind
  rw [dropReturn_of_endsPlain endsPlain_discriminatorDeclaration] at hline
  exact discriminatorDeclaration_ne hspace htype literal.line_first.here hline

/-! ### Interfaces that are named by their literals -/

theorem drop_discriminatorLiteral {behind : List Char} :
    (discriminatorLiteral.toList ++ name ++ behind).drop discriminatorLiteral.length =
      name ++ behind := by
  rw [← String.length_toList, List.append_assoc, List.drop_left]

/-- The letters and digits of a value are those of the name that is quoted. -/
theorem filter_isAlphanum_literalValue {behind : List Char} (hbehind : '"' ∉ behind) :
    (literalValue (discriminatorLiteral.toList ++ name ++ '"' :: behind)).filter Char.isAlphanum =
      name.filter Char.isAlphanum := by
  rw [literalValue, drop_discriminatorLiteral, beforeLast?_append hbehind, Option.getD_some,
    List.filter_filter]
  refine List.filter_congr fun c _ => ?_
  cases hc : c.isAlphanum with
  | true => simpa using ne_underscore_of_isAlphanum hc
  | false => rfl

/-- A literal stands for the name that it quotes if its quote is the last one of the line and the
name has no underscores. -/
theorem literalValue_eq_name_iff {behind : List Char} :
    literalValue (discriminatorLiteral.toList ++ name ++ '"' :: behind) = name ↔
      '_' ∉ name ∧ '"' ∉ behind := by
  rw [literalValue, drop_discriminatorLiteral]
  constructor
  · intro h
    have hname : '_' ∉ name := by
      rw [← h]
      simp
    refine ⟨hname, fun hquote => ?_⟩
    -- With one more quote behind it, the value is longer than the name.
    obtain ⟨last, first, hreverse, hlast⟩ :=
      List.eq_append_cons_of_mem (List.mem_reverse.2 hquote)
    have hbehind : behind = first.reverse ++ '"' :: last.reverse := by
      rw [← List.reverse_reverse behind, hreverse]
      simp
    rw [hbehind, List.append_cons, ← List.append_assoc,
      beforeLast?_append (by simpa using hlast), Option.getD_some] at h
    have hlength := congrArg List.length h
    rw [List.filter_append, List.filter_append, List.filter_eq_self.2] at hlength
    · simp at hlength
    · intro c hc
      rw [bne_iff_ne]
      rintro rfl
      exact hname hc
  · rintro ⟨hname, hbehind⟩
    rw [beforeLast?_append hbehind, Option.getD_some, List.filter_eq_self]
    intro c hc
    rw [bne_iff_ne]
    rintro rfl
    exact hname hc

/-- An interface that is named by its literal is assigned `null`, unless the name has underscores. In
the value they are left out, so that it is not the name any longer, and a constant is assigned. -/
theorem patchDiscriminator_of_own_name (literal : LiteralDiscriminator (lines source))
    {behind : List Char} (type : List Char)
    (hliteral : literal.line = discriminatorLiteral.toList ++ name ++ '"' :: behind) :
    (patchDiscriminator type name source =
        ofLines (literal.exchanged (discriminatorDeclaration type "null".toList)) ↔
      '_' ∉ name ∧ '"' ∉ behind) ∧
    ('_' ∈ name → '"' ∉ behind →
      patchDiscriminator type name source = ofLines (literal.exchanged
        (discriminatorDeclaration type
          (type ++ '.' :: (name.filter Char.isAlphanum).map Char.toUpper)))) := by
  rw [patchDiscriminator_of_bodyLine literal, hliteral]
  refine ⟨?_, fun hunderscore hbehind => ?_⟩
  · rw [← literalValue_eq_name_iff]
    constructor
    · intro h
      apply assignedTo_eq_null_iff.1
      exact discriminatorDeclaration_injective (literal.exchanged_injective h)
    · intro h
      rw [assignedTo_eq_null_iff.2 h]
  · have hne : literalValue (discriminatorLiteral.toList ++ name ++ '"' :: behind) ≠ name :=
      fun h => (literalValue_eq_name_iff.1 h).1 hunderscore
    rw [assignedTo, if_neg hne, filter_isAlphanum_literalValue hbehind]

/-- The source of an interface with a literal discriminator and nothing else. -/
def literalSource (name literal : String) : String :=
  "public interface " ++ name ++ " \x7b\n" ++ discriminatorLiteral ++ literal ++ "\";\n\x7d\n"

/-- The literal of the root type `Order`. -/
def orderLiteral : LiteralDiscriminator (lines (literalSource "Order" "Order")) where
  ahead := []
  opening := "public interface Order \x7b".toList
  between := []
  line := discriminatorLiteral.toList ++ "Order\";".toList
  rest := [['\x7d']]
  opening_first := ⟨by decide, by simp, by decide⟩
  line_first := ⟨rfl, by simp, by decide⟩

theorem patchDiscriminator_orderLiteral :
    orderLiteral.line = discriminatorLiteral.toList ++ "Order".toList ++ '"' :: [';'] ∧
      patchDiscriminator "Kind".toList "Order".toList (literalSource "Order" "Order") =
        ofLines (orderLiteral.exchanged (discriminatorDeclaration "Kind".toList "null".toList)) := by
  have hline : orderLiteral.line = discriminatorLiteral.toList ++ "Order".toList ++ '"' :: [';'] := by
    decide
  exact ⟨hline, (patchDiscriminator_of_own_name orderLiteral "Kind".toList hline).1.2
    ⟨by decide, by decide⟩⟩

/-- A root type whose name has an underscore is assigned a constant. -/
theorem patchDiscriminator_underscored :
    (lines (literalSource "Foo_Bar" "Foo_Bar"))[1]? =
        some (discriminatorLiteral.toList ++ "Foo_Bar\";".toList) ∧
      patchDiscriminator "Kind".toList "Foo_Bar".toList (literalSource "Foo_Bar" "Foo_Bar") =
        "public interface Foo_Bar \x7b\n  Kind _DISCRIMINATOR_TYPE_NAME = Kind.FOOBAR;\n\x7d\n" := by
  decide

end RamlBuild
