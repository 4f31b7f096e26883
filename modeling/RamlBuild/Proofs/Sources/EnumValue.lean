import RamlBuild.Proofs.Sources.ResourcePaths
import RamlBuild.Proofs.Text.Blank
import RamlBuild.Sources.EnumValue

/-!
# What opening the value of an enum does

The field of the value and its assignment are exchanged line by line, each where it is spelled as
expected. The assignment has one spelling and the field has two, so an enum whose field is declared
in another way keeps the field and assigns one that is not there.

## Main definitions

* `HidesValue` — sources with an enum whose value is hidden
* `IsValueField` — declarations of the field of the value, with any visibility and modifiers
* `OneValue` — bodies with one such field and one assignment
* `MovesTogether` — the field and the assignment are both left or both exchanged

## Main results

* `openEnum_eq_self`, `not_hidesValue_openEnum` — an enum that is open stays as it is
* `openEnum_of_splitsFirst` — what becomes of a source with an enum
* `movesTogether_iff` — the field and its assignment move together when the field has one of the two
  spellings
-/

namespace RamlBuild

open Text

variable {line header field : Line} {ls ahead body : List Line} {source : String}

/-! ### Lines that hide the value -/

/-- The assignment of the hidden field. -/
def hiddenAssignment : Line := "    this.name = name;".toList

/-- The assignment of the public field. -/
def openAssignment : Line := "    this.value = name;".toList

/-- A line that the values of enums are opened on. -/
def hidesValue (line : Line) : Bool :=
  hiddenValueFields.contains line || line == "    this.name = name;".toList

/-- The lines that hide the value of an enum. -/
def hidingLines : List Line :=
  hiddenValueFields ++ ["    this.name = name;".toList]

theorem hidesValue_iff : hidesValue line = true ↔ line ∈ hidingLines := by
  rw [hidesValue, hidingLines, Bool.or_eq_true, List.contains_iff_mem, List.mem_append, beq_iff_eq,
    List.mem_singleton]

theorem openEnumLine_eq_self (h : hidesValue line = false) : openEnumLine line = [line] := by
  rw [hidesValue, Bool.or_eq_false_iff, beq_eq_false_iff_ne] at h
  rw [openEnumLine, if_neg (by rw [h.1]; exact Bool.false_ne_true), if_neg h.2]

/-- Whether a source declares an enum whose value is hidden. -/
def HidesValue (ls : List Line) : Prop :=
  (dropThrough opensEnum ls).any hidesValue = true

/-- An enum whose value is not hidden is left as it is. -/
theorem openEnum_eq_self (h : ¬HidesValue ls) : openEnum ls = ls := by
  induction ls with
  | nil => rfl
  | cons line rest ih =>
    rw [HidesValue, dropThrough] at h
    rw [openEnum]
    split
    · rename_i hopens
      rw [List.dropWhile_cons_of_neg (by simp [hopens]), List.drop_one, List.tail_cons,
        Bool.not_eq_true, List.any_eq_false] at h
      have hall : rest.flatMap openEnumLine = rest.flatMap fun line => [line] :=
        List.flatMap_congr fun line hline => openEnumLine_eq_self (by simpa using h line hline)
      rw [hall, List.flatMap_singleton']
    · rename_i hopens
      rw [List.dropWhile_cons_of_pos (by simp [hopens])] at h
      rw [ih h]

/-- What takes the place of a line does not hide the value. -/
theorem hidesValue_of_mem_openEnumLine {out : Line} (h : out ∈ openEnumLine line) :
    hidesValue out = false := by
  rw [openEnumLine] at h
  split at h
  · have hall : openValueField.all (!hidesValue ·) = true := by decide
    simpa using List.all_eq_true.1 hall out h
  · split at h
    · rw [List.mem_singleton.1 h]
      decide
    · rename_i hfields hassigns
      rw [List.mem_singleton.1 h, hidesValue, Bool.or_eq_false_iff, beq_eq_false_iff_ne]
      exact ⟨by simpa using hfields, hassigns⟩

/-- Once it is opened, no line hides the value. -/
theorem not_hidesValue_openEnum (ls : List Line) : ¬HidesValue (openEnum ls) := by
  induction ls with
  | nil => simp [HidesValue, openEnum, dropThrough]
  | cons line rest ih =>
    rw [HidesValue, dropThrough, openEnum]
    by_cases hopens : opensEnum line = true
    · rw [if_pos hopens, List.dropWhile_cons_of_neg (by simp [hopens]), List.drop_one, List.tail_cons,
        Bool.not_eq_true, List.any_eq_false]
      intro out hout
      obtain ⟨source, -, hout⟩ := List.mem_flatMap.1 hout
      rw [hidesValue_of_mem_openEnumLine hout]
      exact Bool.false_ne_true
    · rw [if_neg hopens, List.dropWhile_cons_of_pos (by simp [hopens])]
      exact ih

/-! ### Sources with an enum -/

/-- The lines ahead of the enum stay, and those of its body are worked on one by one. -/
theorem openEnum_of_splitsFirst (h : SplitsFirst opensEnum ls ahead header body) :
    openEnum ls = ahead ++ header :: body.flatMap openEnumLine := by
  obtain ⟨rfl, hahead, hheader⟩ := h
  induction ahead with
  | nil => rw [List.nil_append, openEnum, if_pos hheader, List.nil_append]
  | cons line rest ih =>
    obtain ⟨hline, hrest⟩ := List.forall_mem_cons.1 hahead
    rw [List.cons_append, openEnum, if_neg (by simp [hline]), ih hrest, List.cons_append]

/-- The words that can stand before the type of a field. -/
def fieldModifiers : List (List Char) :=
  ["public", "protected", "private", "static", "final", "transient", "volatile"].map String.toList

/-- A line that declares the field of the value, with any visibility and any modifiers. -/
def IsValueField (line : Line) : Prop :=
  ∃ (indent : Line) (modifiers : List (List Char)) (behind : Line),
    Blank indent ∧ (∀ word ∈ modifiers, word ∈ fieldModifiers) ∧
    line = indent ++ modifiers.flatMap (· ++ [' ']) ++ "String name;".toList ++ behind

theorem IsValueField.has_name (h : IsValueField line) : has "String name;" line = true := by
  obtain ⟨indent, modifiers, behind, -, -, rfl⟩ := h
  exact has_iff.2 ⟨indent ++ modifiers.flatMap (· ++ [' ']), behind, rfl⟩

theorem IsValueField.ne_hiddenAssignment (h : IsValueField line) : line ≠ hiddenAssignment := by
  rintro rfl
  exact absurd h.has_name (by decide)

/-- The spellings of the hidden field declare the field of the value. -/
theorem isValueField_of_mem (h : line ∈ hiddenValueFields) : IsValueField line := by
  have hindent : Blank "  ".toList := List.all_eq_true.1 (by decide)
  rcases List.mem_pair.1 h with rfl | rfl
  · exact ⟨"  ".toList, ["private".toList], [], hindent, by decide, by decide⟩
  · exact ⟨"  ".toList, ["protected".toList], [], hindent, by decide, by decide⟩

/-- A body with one field for the value and one assignment of it. -/
structure OneValue (body : List Line) (field : Line) : Prop where
  declares : IsValueField field
  declared_once : body.count field = 1
  no_other : ∀ line ∈ body, IsValueField line → line = field
  assigned_once : body.count hiddenAssignment = 1

/-- What takes the place of a line where the assignment alone is exchanged. -/
def assignLine (line : Line) : List Line :=
  if line = hiddenAssignment then [openAssignment] else [line]

/-- What takes the place of a line where the field and its assignment are both exchanged. -/
def moveLine (field line : Line) : List Line :=
  if line = field then openValueField else assignLine line

/-- The field and its assignment are both left as they are, or the field gives way to the public one
with its getter and the assignment to that of the public field. All other lines stay. -/
def MovesTogether (source : String) (ahead : List Line) (header : Line) (body : List Line)
    (field : Line) : Prop :=
  patchEnum source = ofLines (lines source) ∨
    patchEnum source = ofLines (ahead ++ header :: body.flatMap (moveLine field))

/-! ### What becomes of the field and its assignment -/

theorem openEnumLine_of_not_mem (h : line ∉ hiddenValueFields) : openEnumLine line = assignLine line := by
  rw [openEnumLine, if_neg (mt List.contains_iff_mem.1 h)]
  rfl

/-- In a body whose field has one of the two spellings, both lines are exchanged and no other. -/
theorem OneValue.flatMap_moveLine (h : OneValue body field) (hspelled : field ∈ hiddenValueFields) :
    body.flatMap openEnumLine = body.flatMap (moveLine field) := by
  refine List.flatMap_congr fun line hline => ?_
  by_cases hfield : line = field
  · rw [openEnumLine, if_pos (List.contains_iff_mem.2 (hfield ▸ hspelled)), moveLine, if_pos hfield]
  · have hnot : line ∉ hiddenValueFields := fun hmem =>
      hfield (h.no_other line hline (isValueField_of_mem hmem))
    rw [openEnumLine_of_not_mem hnot, moveLine, if_neg hfield]

/-- In a body whose field has another spelling, the assignment is exchanged and the field stays. -/
theorem OneValue.flatMap_assignLine (h : OneValue body field) (hspelled : field ∉ hiddenValueFields) :
    body.flatMap openEnumLine = body.flatMap assignLine := by
  refine List.flatMap_congr fun line hline => openEnumLine_of_not_mem fun hmem => ?_
  exact hspelled (h.no_other line hline (isValueField_of_mem hmem) ▸ hmem)

theorem eq_or_mem_of_mem_assignLine {out : Line} (h : out ∈ assignLine line) :
    out = line ∧ line ≠ hiddenAssignment ∨ out = openAssignment := by
  unfold assignLine at h
  split at h
  · exact .inr (List.mem_singleton.1 h)
  · rename_i hne
    exact .inl ⟨List.mem_singleton.1 h, hne⟩

theorem eq_or_mem_of_mem_moveLine {out : Line} (h : out ∈ moveLine field line) :
    out = line ∧ line ≠ field ∨ out ∈ openAssignment :: openValueField := by
  unfold moveLine at h
  split at h
  · exact .inr (List.mem_cons_of_mem _ h)
  · rename_i hne
    rcases eq_or_mem_of_mem_assignLine h with ⟨rfl, -⟩ | rfl
    · exact .inl ⟨rfl, hne⟩
    · exact .inr List.mem_cons_self

/-- The lines that take the place of others hold no newline. -/
theorem not_mem_newline_of_exchanged (hsplit : SplitsFirst opensEnum (lines source) ahead header body)
    {exchange : Line → List Line} (hexchange : ∀ line ∈ body, ∀ out ∈ exchange line,
      out = line ∨ out ∈ openAssignment :: openValueField) :
    ∀ out ∈ ahead ++ header :: body.flatMap exchange, '\n' ∉ out := by
  have hsource : ∀ line ∈ ahead ++ header :: body, '\n' ∉ line := fun line hline =>
    not_mem_of_mem_lines (hsplit.eq ▸ hline)
  have hnew : ∀ out ∈ openAssignment :: openValueField, '\n' ∉ out := by decide
  rw [List.forall_mem_append, List.forall_mem_cons] at hsource ⊢
  refine ⟨hsource.1, hsource.2.1, fun out hout => ?_⟩
  obtain ⟨line, hline, hout⟩ := List.mem_flatMap.1 hout
  rcases hexchange line hline out hout with rfl | hmem
  · exact hsource.2.2 out hline
  · exact hnew out hmem

theorem patchEnum_eq (hsplit : SplitsFirst opensEnum (lines source) ahead header body) :
    patchEnum source = ofLines (ahead ++ header :: body.flatMap openEnumLine) := by
  rw [patchEnum, openEnum_of_splitsFirst hsplit]

/-- A field in another spelling stays while its assignment is exchanged. -/
theorem OneValue.not_movesTogether (hvalue : OneValue body field)
    (hsplit : SplitsFirst opensEnum (lines source) ahead header body)
    (hspelled : field ∉ hiddenValueFields) : ¬MovesTogether source ahead header body field := by
  have hassign : ∀ line ∈ body, ∀ out ∈ assignLine line,
      out = line ∨ out ∈ openAssignment :: openValueField := fun line _ out hout =>
    (eq_or_mem_of_mem_assignLine hout).imp And.left fun heq => List.mem_cons.2 (.inl heq)
  have hmove : ∀ line ∈ body, ∀ out ∈ moveLine field line,
      out = line ∨ out ∈ openAssignment :: openValueField := fun line _ out hout =>
    (eq_or_mem_of_mem_moveLine hout).imp_left And.left
  -- No line holds a newline, so the text that is written tells the lines of the body.
  have hbody {body' : List Line} (hplain : ∀ line ∈ ahead ++ header :: body', '\n' ∉ line)
      (heq : patchEnum source = ofLines (ahead ++ header :: body')) :
      body.flatMap assignLine = body' := by
    rw [patchEnum_eq hsplit, hvalue.flatMap_assignLine hspelled] at heq
    have hlines := ofLines_injective (not_mem_newline_of_exchanged hsplit hassign) hplain heq
    exact (List.cons.inj (List.append_cancel_left hlines)).2
  rintro (hleft | hmoved)
  · have hkept : body.flatMap assignLine = body :=
      hbody (fun line hline => not_mem_of_mem_lines (hsplit.eq ▸ hline)) (hsplit.eq ▸ hleft)
    have hmem : hiddenAssignment ∈ body := List.one_le_count_iff.1 hvalue.assigned_once.ge
    rw [← hkept] at hmem
    obtain ⟨line, -, hout⟩ := List.mem_flatMap.1 hmem
    rcases eq_or_mem_of_mem_assignLine hout with ⟨rfl, hne⟩ | heq
    · exact hne rfl
    · exact absurd heq (by decide)
  · have hkept : body.flatMap assignLine = body.flatMap (moveLine field) :=
      hbody (not_mem_newline_of_exchanged hsplit hmove) hmoved
    have hmem : field ∈ body.flatMap assignLine := by
      refine List.mem_flatMap.2 ⟨field, List.one_le_count_iff.1 hvalue.declared_once.ge, ?_⟩
      rw [assignLine, if_neg hvalue.declares.ne_hiddenAssignment]
      exact List.mem_singleton_self field
    rw [hkept] at hmem
    obtain ⟨line, -, hout⟩ := List.mem_flatMap.1 hmem
    rcases eq_or_mem_of_mem_moveLine hout with ⟨rfl, hne⟩ | hnew
    · exact hne rfl
    · -- No new line declares a field of that name.
      have hall : ∀ out ∈ openAssignment :: openValueField, has "String name;" out = false := by decide
      exact absurd hvalue.declares.has_name (by rw [hall field hnew]; exact Bool.false_ne_true)

/-- The field and its assignment move together exactly when the field is private or protected, has
no other modifier and is indented by two blanks. In any other spelling the field stays, and the
assignment is exchanged nevertheless. -/
theorem movesTogether_iff (hsplit : SplitsFirst opensEnum (lines source) ahead header body)
    (hvalue : OneValue body field) :
    (MovesTogether source ahead header body field ↔ field ∈ hiddenValueFields) ∧
      (field ∉ hiddenValueFields →
        patchEnum source = ofLines (ahead ++ header :: body.flatMap assignLine)) := by
  refine ⟨⟨fun htogether => ?_, fun hspelled => .inr ?_⟩, fun hspelled => ?_⟩
  · by_contra hspelled
    exact hvalue.not_movesTogether hsplit hspelled htogether
  · rw [patchEnum_eq hsplit, hvalue.flatMap_moveLine hspelled]
  · rw [patchEnum_eq hsplit, hvalue.flatMap_assignLine hspelled]

/-- A field is the only one among lines that declare none of its name. -/
theorem oneValue_append_cons {before after : List Line} (h : IsValueField field)
    (hothers : ∀ line ∈ before ++ after, has "String name;" line = false)
    (hassigned : (before ++ after).count hiddenAssignment = 1) :
    OneValue (before ++ field :: after) field := by
  have hnot : ∀ line ∈ before ++ after, ¬IsValueField line := fun line hline hfield =>
    absurd hfield.has_name (by rw [hothers line hline]; exact Bool.false_ne_true)
  have hmem : ∀ line, line ∈ before ++ field :: after → line = field ∨ line ∈ before ++ after := by
    intro line hline
    rw [List.mem_append, List.mem_cons] at hline
    rw [List.mem_append]
    tauto
  refine ⟨h, ?_, fun line hline hfield => ?_, ?_⟩
  · have hnone : field ∉ before ++ after := fun hfield => hnot field hfield h
    rw [List.mem_append, not_or] at hnone
    rw [List.count_append, List.count_cons_self, List.count_eq_zero_of_not_mem hnone.1,
      List.count_eq_zero_of_not_mem hnone.2]
  · exact (hmem line hline).resolve_right fun hother => hnot line hother hfield
  · rw [List.count_append, List.count_cons_of_ne h.ne_hiddenAssignment, ← List.count_append, hassigned]

/-- The header of an enum. -/
def kindHeader : Line := "public enum Kind \x7b".toList

/-- The body of an enum with the given declaration of its field. -/
def kindBody (field : Line) : List Line :=
  ["  A(\"a\");".toList] ++ field ::
    ["  Kind(String name) \x7b".toList, hiddenAssignment, "  \x7d".toList, "\x7d".toList]

/-- An enum with the given declaration of its field. -/
def kindEnum (field : Line) : String :=
  ofLines (kindHeader :: kindBody field)

theorem oneValue_kindBody (h : IsValueField field) : OneValue (kindBody field) field :=
  oneValue_append_cons h (by decide) (by decide)

theorem splitsFirst_kindEnum (hnewline : '\n' ∉ field) (hplain : EndsPlain field) :
    SplitsFirst opensEnum (lines (kindEnum field)) [] kindHeader (kindBody field) := by
  refine ⟨lines_ofLines_of_endsPlain ?_ ?_, by simp, by decide⟩
  · exact List.forall_mem_cons.2 ⟨by decide, List.forall_mem_append.2
      ⟨by decide, List.forall_mem_cons.2 ⟨hnewline, by decide⟩⟩⟩
  · exact List.forall_mem_cons.2 ⟨by decide, List.forall_mem_append.2
      ⟨by decide, List.forall_mem_cons.2 ⟨hplain, by decide⟩⟩⟩

/-- A private field without further modifiers moves with its assignment. -/
theorem movesTogether_private :
    SplitsFirst opensEnum (lines (kindEnum "  private String name;".toList)) [] kindHeader
        (kindBody "  private String name;".toList) ∧
      OneValue (kindBody "  private String name;".toList) "  private String name;".toList ∧
      MovesTogether (kindEnum "  private String name;".toList) [] kindHeader
        (kindBody "  private String name;".toList) "  private String name;".toList := by
  have hsplit : SplitsFirst opensEnum (lines (kindEnum "  private String name;".toList)) [] kindHeader
      (kindBody "  private String name;".toList) := splitsFirst_kindEnum (by decide) (by decide)
  have hvalue : OneValue (kindBody "  private String name;".toList) "  private String name;".toList :=
    oneValue_kindBody (isValueField_of_mem (by decide))
  exact ⟨hsplit, hvalue, (movesTogether_iff hsplit hvalue).1.2 (by decide)⟩

/-- A private field that is final stays, and the constructor assigns a field that is not there. -/
theorem not_movesTogether_final :
    SplitsFirst opensEnum (lines (kindEnum "  private final String name;".toList)) [] kindHeader
        (kindBody "  private final String name;".toList) ∧
      OneValue (kindBody "  private final String name;".toList) "  private final String name;".toList ∧
      patchEnum (kindEnum "  private final String name;".toList) =
        ofLines [kindHeader, "  A(\"a\");".toList, "  private final String name;".toList,
          "  Kind(String name) \x7b".toList, "    this.value = name;".toList, "  \x7d".toList,
          "\x7d".toList] ∧
      ¬MovesTogether (kindEnum "  private final String name;".toList) [] kindHeader
        (kindBody "  private final String name;".toList) "  private final String name;".toList := by
  have hsplit : SplitsFirst opensEnum (lines (kindEnum "  private final String name;".toList)) []
      kindHeader (kindBody "  private final String name;".toList) :=
    splitsFirst_kindEnum (by decide) (by decide)
  have hfield : IsValueField "  private final String name;".toList :=
    ⟨"  ".toList, ["private".toList, "final".toList], [], List.all_eq_true.1 (by decide), by decide,
      by decide⟩
  have hvalue := oneValue_kindBody hfield
  refine ⟨hsplit, hvalue, ?_, hvalue.not_movesTogether hsplit (by decide)⟩
  rw [patchEnum_eq hsplit, hvalue.flatMap_assignLine (by decide)]
  rfl

end RamlBuild
