import RamlBuild.Proofs.Sources.ConstantName
import RamlBuild.Proofs.Sources.Discriminator

/-!
# References to the constants of an enum

A typed discriminator refers to a constant of its type, which is called by the letters and digits of
the literal in upper case. These are a name that can stand in a source exactly when the first of them
is a letter. A literal that begins with a digit, or that has neither letters nor digits, gives a
reference that no source may have, unless the literal is the name of the interface.

## Main definitions

* `IsReference` — what may be assigned to a discriminator of a type
* `Assigns` — what an interface with a literal discriminator is assigned

## Main results

* `isIdentifier_map_toUpper_iff` — the values whose letters and digits are a name
* `assigns_reference` — what is assigned, and when it is a reference
-/

namespace RamlBuild

open Text

variable {type name value assigned : List Char} {c : Char} {source : String}

/-- What may be assigned to a discriminator of a type: nothing, or a constant of the type. -/
inductive IsReference (type : List Char) : List Char → Prop
  | null : IsReference type "null".toList
  | constant {name : List Char} (h : IsIdentifier name) : IsReference type (type ++ '.' :: name)

/-! ### Names in upper case -/

theorem toUpper_of_isDigit (h : c.isDigit) : c.toUpper = c := by
  simp only [Char.isDigit, Bool.and_eq_true, decide_eq_true_eq, UInt32.le_iff_toNat_le] at h
  have h9 : '9'.val.toNat = 57 := rfl
  have ha : 'a'.val.toNat = 97 := rfl
  have hbefore : ¬(c.val ≥ 'a'.val ∧ c.val ≤ 'z'.val) := by
    rintro ⟨hfrom, -⟩
    rw [ge_iff_le, UInt32.le_iff_toNat_le] at hfrom
    omega
  exact dif_neg hbefore

theorem not_reserved_of_upper (hchars : ∀ c ∈ name, c.isAlphanum ∧ ¬c.isLower) :
    String.ofList name ∉ reservedWords := by
  intro hmem
  rcases reservedWords_lower _ hmem with hunderscore | hlower
  · have hname : name = ['_'] := by
      have := congrArg String.toList hunderscore
      rwa [String.toList_ofList] at this
    have halphanum := (hchars '_' (by simp [hname])).1
    revert halphanum
    decide
  · rw [String.toList_ofList] at hlower
    obtain ⟨c, hc, hlower⟩ := List.any_eq_true.1 hlower
    exact (hchars c hc).2 hlower

/-- The letters and digits of a value in upper case are a name exactly when the first of them is a
letter. -/
theorem isIdentifier_map_toUpper_iff :
    IsIdentifier ((value.filter Char.isAlphanum).map Char.toUpper) ↔
      ∃ c, value.find? Char.isAlphanum = some c ∧ c.isAlpha := by
  have hchars : ∀ c ∈ (value.filter Char.isAlphanum).map Char.toUpper,
      c.isAlphanum ∧ ¬c.isLower := by
    intro c hc
    obtain ⟨original, horiginal, rfl⟩ := List.mem_map.1 hc
    obtain ⟨halphanum, hlower, -⟩ := toUpper_of_isAlphanum (List.mem_filter.1 horiginal).2
    exact ⟨halphanum, hlower⟩
  have hhead : ((value.filter Char.isAlphanum).map Char.toUpper).head? =
      (value.find? Char.isAlphanum).map Char.toUpper := by
    rw [List.head?_map, List.head?_filter]
  constructor
  · intro h
    cases hfirst : value.find? Char.isAlphanum with
    | none =>
      rw [hfirst, Option.map_none, List.head?_eq_none_iff] at hhead
      exact absurd hhead h.nonempty
    | some c =>
      refine ⟨c, rfl, (isAlpha_iff_of_isAlphanum (List.find?_some hfirst)).2 fun hdigit => ?_⟩
      rw [hfirst, Option.map_some, toUpper_of_isDigit hdigit] at hhead
      exact h.start c hhead hdigit
  · rintro ⟨c, hfirst, hletter⟩
    have hc := List.find?_some hfirst
    rw [hfirst, Option.map_some] at hhead
    have hne : (value.filter Char.isAlphanum).map Char.toUpper ≠ [] := by
      intro hnil
      rw [hnil] at hhead
      contradiction
    refine ⟨hne, fun d hd => .inl (hchars d hd).1, ?_, not_reserved_of_upper hchars⟩
    intro d hd hdigit
    rw [hhead, Option.mem_some_iff] at hd
    subst hd
    exact (isAlpha_iff_of_isAlphanum hc).1 hletter ((toUpper_of_isAlphanum hc).2.2 hdigit)

/-! ### What is assigned -/

/-- A constant of a type is told from `null` by its dot. -/
theorem isReference_constant_iff : IsReference type (type ++ '.' :: name) ↔ IsIdentifier name := by
  constructor
  · intro h
    generalize hassigned : type ++ '.' :: name = assigned at h
    cases h with
    | null =>
      have hdot : '.' ∈ "null".toList := by simp [← hassigned]
      exact absurd hdot (by decide)
    | constant hname =>
      obtain ⟨-, rfl⟩ := List.cons.inj (List.append_cancel_left hassigned)
      exact hname
  · exact .constant

theorem isReference_assignedTo_iff :
    IsReference type (assignedTo type name value) ↔
      value = name ∨ ∃ c, value.find? Char.isAlphanum = some c ∧ c.isAlpha := by
  rw [assignedTo]
  split
  · rename_i heq
    exact iff_of_true .null (.inl heq)
  · rename_i hne
    rw [isReference_constant_iff, isIdentifier_map_toUpper_iff, or_iff_right hne]

/-- The interface is assigned this: the line of its literal gives way to the declaration with the type
that assigns it, and no other line changes. -/
def Assigns (type name : List Char) (literal : LiteralDiscriminator (lines source))
    (assigned : List Char) : Prop :=
  patchDiscriminator type name source =
    ofLines (literal.exchanged (discriminatorDeclaration type assigned))

variable {literal : LiteralDiscriminator (lines source)}

theorem assigns_iff :
    Assigns type name literal assigned ↔
      assigned = assignedTo type name (literalValue literal.line) := by
  rw [Assigns, patchDiscriminator_of_bodyLine literal]
  constructor
  · intro h
    apply discriminatorDeclaration_injective
    exact (literal.exchanged_injective h).symm
  · intro h
    rw [h]

/-- An interface with a literal discriminator is assigned one thing: `null` where the literal is its
name, and else the constant of the type that is called by the letters and digits of the literal. This
is a reference that a source may have exactly in the first case, and where the first of these is a
letter. -/
theorem assigns_reference (literal : LiteralDiscriminator (lines source)) (type name : List Char) :
    (∀ assigned, Assigns type name literal assigned ↔
      assigned = assignedTo type name (literalValue literal.line)) ∧
    (IsReference type (assignedTo type name (literalValue literal.line)) ↔
      literalValue literal.line = name ∨
        ∃ c, (literalValue literal.line).find? Char.isAlphanum = some c ∧ c.isAlpha) :=
  ⟨fun _ => assigns_iff, isReference_assignedTo_iff⟩

/-- The literal of the interface `ApiVariable`. -/
def variableLiteral : LiteralDiscriminator (lines (literalSource "ApiVariable" "API_Variable")) where
  ahead := []
  opening := "public interface ApiVariable \x7b".toList
  between := []
  line := discriminatorLiteral.toList ++ "API_Variable\";".toList
  rest := [['\x7d']]
  opening_first := ⟨by decide, by simp, by decide⟩
  line_first := ⟨rfl, by simp, by decide⟩

/-- A literal of two words is assigned their letters. -/
theorem assigns_reference_variable :
    Assigns "VariableType".toList "Variable".toList variableLiteral
        "VariableType.APIVARIABLE".toList ∧
      IsReference "VariableType".toList "VariableType.APIVARIABLE".toList := by
  obtain ⟨hassigns, hreference⟩ :=
    assigns_reference variableLiteral "VariableType".toList "Variable".toList
  have hassigned : assignedTo "VariableType".toList "Variable".toList
      (literalValue variableLiteral.line) = "VariableType.APIVARIABLE".toList := by
    decide
  rw [hassigned] at hassigns hreference
  refine ⟨(hassigns _).2 rfl, hreference.2 (.inr ⟨'A', ?_, ?_⟩)⟩
  · decide
  · decide

/-- A literal that begins with a digit is assigned what no source may have, and so is one that has
neither letters nor digits. -/
theorem assigns_no_reference :
    (patchDiscriminator "Kind".toList "Foo".toList (literalSource "Foo" "2fa") =
        "public interface Foo \x7b\n  Kind _DISCRIMINATOR_TYPE_NAME = Kind.2FA;\n\x7d\n" ∧
      ¬IsReference "Kind".toList "Kind.2FA".toList) ∧
    (patchDiscriminator "Kind".toList "Foo".toList (literalSource "Foo" "---") =
        "public interface Foo \x7b\n  Kind _DISCRIMINATOR_TYPE_NAME = Kind.;\n\x7d\n" ∧
      ¬IsReference "Kind".toList "Kind.".toList) := by
  have hdigit : ¬IsReference "Kind".toList ("Kind".toList ++ '.' :: "2FA".toList) := by
    intro h
    exact (isReference_constant_iff.1 h).start '2' rfl (by decide)
  have hempty : ¬IsReference "Kind".toList ("Kind".toList ++ '.' :: "".toList) := by
    intro h
    exact (isReference_constant_iff.1 h).nonempty rfl
  exact ⟨⟨by decide, hdigit⟩, by decide, hempty⟩

end RamlBuild
