import RamlBuild.Proofs.Sources.Boxing
import RamlBuild.Proofs.Sources.Dates

/-!
# Literals under the substitution of tokens

Boxing and the replacement of dates rewrite whole lines and know nothing of quoted literals. No
literal comes, goes or moves, since neither touches a double quote or a backslash, but within its
quotes a literal is rewritten like any other text. So the literals of a source stay what they are
exactly when none of them holds a primitive as a word, and a delimited date.

## Main definitions

* `withoutDatePatterns` — a source less the lines that the replacement of dates removes

## Main results

* `literalsOf_boxPrimitives`, `literalsOf_patchDates` — the literals after each of the two
* `literalsOf_substituted` — these, and when the literals stay
-/

namespace RamlBuild

open Text

variable {source : String}

/-- The source less its lines with a `@JsonFormat` pattern. -/
def withoutDatePatterns (source : String) : String :=
  ofLines ((lines source).filter (!isDatePattern ·))

/-! ### Boxing -/

/-- The literals of a boxed source are the literals of the source, boxed. -/
theorem literalsOf_boxPrimitives (source : String) :
    literalsOf (boxPrimitives source) = (literalsOf source).map boxLine := by
  have hlines : ∀ line ∈ (lines source).map boxLine, '\n' ∉ line := by
    intro line hline
    obtain ⟨original, horiginal, rfl⟩ := List.mem_map.1 hline
    exact newline_not_mem_boxLine (not_mem_of_mem_lines horiginal)
  rw [boxPrimitives, mapLines, literalsOf_ofLines hlines, List.flatMap_map, literalsOf,
    List.map_flatMap]
  congr 1
  funext line
  exact literals_map keepsQuotes_boxLine line

theorem literalsOf_boxPrimitives_eq_iff : literalsOf (boxPrimitives source) = literalsOf source ↔
    ∀ value ∈ literalsOf source, ∀ run ∈ words value, run ∉ primitives := by
  rw [literalsOf_boxPrimitives]
  constructor
  · intro h value hvalue
    have hid := h.trans (List.map_id _).symm
    exact boxLine_eq_self_iff.1 (List.map_inj_left.1 hid value hvalue)
  · intro h
    conv => rhs; rw [← List.map_id (literalsOf source)]
    exact List.map_congr_left fun value hvalue => boxLine_eq_self_iff.2 (h value hvalue)

/-! ### Dates -/

/-- What takes the place of a line has the literals of the line with their dates replaced, unless
the line is removed. -/
theorem flatMap_literals_patchDateLine (line : Line) :
    (patchDateLine line).flatMap literals =
      if isDatePattern line then [] else (literals line).map replaceDates := by
  unfold patchDateLine
  split
  · rename_i himport
    rw [himport]
    decide +kernel
  · split
    · rfl
    · rw [List.flatMap_singleton, literals_map keepsQuotes_replaceDates]

theorem newline_not_mem_patchDateLine {line out : Line} (h : '\n' ∉ line)
    (hout : out ∈ patchDateLine line) : '\n' ∉ out := by
  unfold patchDateLine at hout
  split at hout
  · rw [List.mem_singleton.1 hout]
    decide
  · split at hout
    · simp at hout
    · rw [List.mem_singleton.1 hout]
      exact newline_not_mem_replaceDates h

/-- The literals of a source with its dates replaced are those of its remaining lines, with their
dates replaced. -/
theorem literalsOf_patchDates (source : String) :
    literalsOf (patchDates source) = (literalsOf (withoutDatePatterns source)).map replaceDates := by
  have hpatched : ∀ line ∈ (lines source).flatMap patchDateLine, '\n' ∉ line := by
    intro line hline
    obtain ⟨original, horiginal, hpatch⟩ := List.mem_flatMap.1 hline
    exact newline_not_mem_patchDateLine (not_mem_of_mem_lines horiginal) hpatch
  have hkept : ∀ line ∈ (lines source).filter (!isDatePattern ·), '\n' ∉ line :=
    fun line hline => not_mem_of_mem_lines (List.mem_filter.1 hline).1
  rw [patchDates, withoutDatePatterns, literalsOf_ofLines hpatched, literalsOf_ofLines hkept,
    List.flatMap_assoc, List.map_flatMap]
  simp only [flatMap_literals_patchDateLine]
  generalize lines source = ls
  induction ls with
  | nil => rfl
  | cons line rest ih =>
    rw [List.flatMap_cons, ih]
    by_cases hpattern : isDatePattern line = true
    · simp [hpattern]
    · simp [hpattern]

theorem literalsOf_patchDates_eq_iff :
    literalsOf (patchDates source) = literalsOf (withoutDatePatterns source) ↔
      ∀ value ∈ literalsOf (withoutDatePatterns source), ¬HasDate value := by
  rw [literalsOf_patchDates]
  constructor
  · intro h value hvalue
    have hid := h.trans (List.map_id _).symm
    exact replaceDates_eq_self_iff.1 (List.map_inj_left.1 hid value hvalue)
  · intro h
    conv => rhs; rw [← List.map_id (literalsOf (withoutDatePatterns source))]
    exact List.map_congr_left fun value hvalue => replaceDates_eq_self_iff.2 (h value hvalue)

/-! ### Both -/

/-- The substitution of tokens keeps the number and the order of the literals and rewrites each of
them like any other text. The literals stay exactly when none of them holds a primitive as a word,
and when none that is not removed holds a delimited date. -/
theorem literalsOf_substituted (source : String) :
    literalsOf (boxPrimitives source) = (literalsOf source).map boxLine ∧
      (literalsOf (boxPrimitives source) = literalsOf source ↔
        ∀ value ∈ literalsOf source, ∀ run ∈ words value, run ∉ primitives) ∧
      literalsOf (patchDates source) =
        (literalsOf (withoutDatePatterns source)).map replaceDates ∧
      (literalsOf (patchDates source) = literalsOf (withoutDatePatterns source) ↔
        ∀ value ∈ literalsOf (withoutDatePatterns source), ¬HasDate value) :=
  ⟨literalsOf_boxPrimitives source, literalsOf_boxPrimitives_eq_iff,
    literalsOf_patchDates source, literalsOf_patchDates_eq_iff⟩

/-- The name of a property that is a primitive keyword is boxed. -/
theorem literalsOf_boxPrimitives_ne :
    literalsOf (boxPrimitives "  @JsonProperty(\"int\")\n") ≠
      literalsOf "  @JsonProperty(\"int\")\n" := by
  decide +kernel

end RamlBuild
