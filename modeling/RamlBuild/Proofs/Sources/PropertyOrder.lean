import RamlBuild.Proofs.Sources.ResourcePaths
import RamlBuild.Proofs.Text.Blank
import RamlBuild.Proofs.Text.Literals
import RamlBuild.Sources.JsonField

/-!
# The property names of an annotation

An annotation lists its names between braces, on one line or on several, or has one name and no
braces. Reading it stops at `})`, so what is read of a list in braces is that list. A name without
braces is closed by a parenthesis alone, and reading goes on behind it.

## Main definitions

* `AnnotationPiece` — a literal of an annotation, or a character between its literals
* `OrderAnnotation` — an annotation in one of its forms, with the names that it lists
* `OrderAnnotation.Stands` — the first annotation of a source

## Main results

* `propertyOrder_eq_append` — what is read are the names of the annotation and what stands behind
* `propertyOrder_eq_names` — of a list in braces, exactly the names of the annotation are read
-/

namespace RamlBuild

open Text

variable {c : Char} {value tail : List Char} {source : String} {after : List Line}

/-! ### Pieces of an annotation -/

/-- The text between the quotes of a literal: a backslash stands before another character, and a
quote behind a backslash only. -/
def isLiteralText : List Char → Bool
  | [] => true
  | ['\\'] => false
  | '\\' :: _ :: rest => isLiteralText rest
  | c :: rest => c != '"' && isLiteralText rest

theorem closeLiteral_of_isLiteralText (h : isLiteralText value) (rest : List Char) :
    closeLiteral (value ++ '"' :: rest) = some (value, rest) := by
  fun_induction isLiteralText value with
  | case1 => rfl
  | case2 => contradiction
  | case3 c value ih =>
    rw [List.cons_append, List.cons_append, closeLiteral, ih h]
    rfl
  | case4 c value hlast hescape ih =>
    rw [Bool.and_eq_true, bne_iff_ne] at h
    have hplain : isPlain c = true := by
      rw [isPlain, Bool.and_eq_true, bne_iff_ne, bne_iff_ne]
      refine ⟨h.1, ?_⟩
      rintro rfl
      cases value with
      | nil => exact hlast rfl rfl
      | cons d value => exact hescape d value rfl rfl
    rw [List.cons_append, closeLiteral_cons_of_isPlain hplain, ih h.2]
    rfl

/-- A piece of the text of an annotation. -/
inductive AnnotationPiece
  /-- A literal. It may hold a brace or a parenthesis, but not the two that end a list. -/
  | literal (value : List Char) (sound : isLiteralText value ∧ has "\x7d)" value = false)
  /-- A character that opens no literal and closes neither the list nor the annotation. -/
  | mark (c : Char) (sound : c ≠ '"' ∧ c ≠ '\x7d' ∧ c ≠ ')')

namespace AnnotationPiece

/-- A piece as it is written. -/
def text : AnnotationPiece → List Char
  | literal value _ => '"' :: value ++ ['"']
  | mark c _ => [c]

/-- The value of a literal. -/
def value? : AnnotationPiece → Option (List Char)
  | literal value _ => some value
  | mark _ _ => none

end AnnotationPiece

/-- Pieces as they are written. -/
def textOf (pieces : List AnnotationPiece) : List Char :=
  pieces.flatMap AnnotationPiece.text

/-- The values of the literals among the pieces. -/
def valuesOf (pieces : List AnnotationPiece) : List (List Char) :=
  pieces.filterMap AnnotationPiece.value?

variable {pieces : List AnnotationPiece}

theorem literals_textOf_append (pieces : List AnnotationPiece) (rest : List Char) :
    literals (textOf pieces ++ rest) = valuesOf pieces ++ literals rest := by
  induction pieces with
  | nil => rfl
  | cons piece pieces ih =>
    rw [textOf, List.flatMap_cons, List.append_assoc, ← textOf]
    cases piece with
    | literal value sound =>
      rw [AnnotationPiece.text, List.cons_append, List.cons_append, List.append_assoc,
        List.singleton_append, literals_quote, closeLiteral_of_isLiteralText sound.1]
      exact congrArg (value :: ·) ih
    | mark c sound => exact (literals_cons_of_ne sound.1 _).trans ih

/-! ### The end of a list -/

/-- A list does not end at a character that is no brace. -/
theorem has_close_cons_of_ne (hc : c ≠ '\x7d') (text : List Char) :
    has "\x7d)" (c :: text) = has "\x7d)" text := by
  have hprefix : ("\x7d)".toList.isPrefixOf (c :: text)) = false := by
    simpa [List.isPrefixOf] using fun h => absurd h.symm hc
  rw [has, occursIn, hprefix, Bool.false_or, has]

theorem has_close_append_quote (text rest : List Char) :
    has "\x7d)" (text ++ '"' :: rest) = (has "\x7d)" text || has "\x7d)" rest) := by
  induction text with
  | nil => exact has_close_cons_of_ne (by decide) rest
  | cons c text ih =>
    have hprefix : ("\x7d)".toList.isPrefixOf (c :: (text ++ '"' :: rest))) =
        ("\x7d)".toList.isPrefixOf (c :: text)) := by
      cases text with
      | nil => simp [List.isPrefixOf]
      | cons d text => rfl
    simp only [has, List.cons_append, occursIn, hprefix, Bool.or_assoc] at ih ⊢
    rw [ih]

/-- The pieces of an annotation do not end its list. -/
theorem has_close_textOf_append (pieces : List AnnotationPiece) (rest : List Char) :
    has "\x7d)" (textOf pieces ++ rest) = has "\x7d)" rest := by
  induction pieces with
  | nil => rfl
  | cons piece pieces ih =>
    rw [textOf, List.flatMap_cons, List.append_assoc, ← textOf]
    cases piece with
    | literal value sound =>
      rw [AnnotationPiece.text, List.cons_append, List.cons_append,
        has_close_cons_of_ne (by decide), List.append_assoc, List.singleton_append,
        has_close_append_quote, sound.2, Bool.false_or, ih]
    | mark c sound => exact (has_close_cons_of_ne sound.2.1 _).trans ih

theorem startsWith_close_textOf (pieces : List AnnotationPiece) :
    startsWith "\x7d)" (textOf pieces) = false := by
  rw [Bool.eq_false_iff]
  intro h
  have hnone := has_close_textOf_append pieces []
  rw [List.append_nil, has_iff.2 (startsWith_iff.1 h).isInfix] at hnone
  exact absurd hnone (by decide)

/-! ### Annotations -/

/-- The name of the annotation. -/
def orderMark : List Char := "@JsonPropertyOrder".toList

/-- An annotation, by what stands behind its name. Its parenthesis, the brace of its list, a key and
the blanks and commas are marks among its pieces. -/
inductive OrderAnnotation
  /-- Names without braces, closed by a parenthesis. -/
  | bare (pieces : List AnnotationPiece)
  /-- A list in braces that is closed on its line. -/
  | onLine (pieces : List AnnotationPiece)
  /-- A list in braces over several lines, closed by a line that starts with the closing brace. -/
  | overLines (first : List AnnotationPiece) (rows : List (List AnnotationPiece))

namespace OrderAnnotation

variable {a : OrderAnnotation}

/-- The first line, with the text that stands behind the annotation if it ends there. -/
def firstLine (tail : List Char) : OrderAnnotation → Line
  | bare pieces => orderMark ++ textOf pieces ++ ')' :: tail
  | onLine pieces => orderMark ++ textOf pieces ++ "\x7d)".toList ++ tail
  | overLines first _ => orderMark ++ textOf first

/-- The lines below the first one. -/
def moreLines (tail : List Char) : OrderAnnotation → List Line
  | bare _ | onLine _ => []
  | overLines _ rows => rows.map textOf ++ ["\x7d)".toList ++ tail]

/-- The literals within the parentheses that are not blank, in order. -/
def names : OrderAnnotation → List (List Char)
  | bare pieces | onLine pieces => (valuesOf pieces).filter (·.any (!isBlank ·))
  | overLines first rows => ((first :: rows).flatMap valuesOf).filter (·.any (!isBlank ·))

/-- The annotation is the first one of the source. `tail` stands behind it on its last line, and
`after` are the lines below. -/
def Stands (a : OrderAnnotation) (source : String) (tail : List Char) (after : List Line) : Prop :=
  ∃ before, SplitsFirst (startsWith "@JsonPropertyOrder") (lines source) before (a.firstLine tail)
    (a.moreLines tail ++ after)

/-- What is read behind the annotation. -/
def readBehind (tail : List Char) (after : List Line) : OrderAnnotation → List (List Char)
  | bare _ =>
    let more := if has "\x7d)" tail then [] else after.takeWhile (!startsWith "\x7d)" ·)
    (tail :: more).flatMap propertyNames
  | onLine _ => propertyNames tail
  | overLines _ _ => []

/-- The end of the annotation is told by its text: its list has braces, and when it ends on its
first line no name is quoted behind it there. -/
def EndsClearly (tail : List Char) : OrderAnnotation → Prop
  | bare _ => False
  | onLine _ => ∀ name ∈ literals tail, name.all isBlank
  | overLines _ _ => True

end OrderAnnotation

open OrderAnnotation

/-! ### What is read -/

theorem propertyNames_eq (line : Line) :
    propertyNames line = (literals line).filter (·.any (!isBlank ·)) := by
  unfold propertyNames
  congr 1
  funext name
  rw [Bool.eq_iff_iff]
  simp [trim_eq_nil_iff, Blank]

theorem propertyNames_textOf_append (pieces : List AnnotationPiece) (rest : List Char) :
    propertyNames (textOf pieces ++ rest) =
      (valuesOf pieces).filter (·.any (!isBlank ·)) ++ propertyNames rest := by
  rw [propertyNames_eq, literals_textOf_append, List.filter_append, propertyNames_eq]

theorem propertyNames_orderMark_append (rest : List Char) :
    propertyNames (orderMark ++ rest) = propertyNames rest := by
  rw [propertyNames, literals_append_of_not_mem (by decide), propertyNames]

theorem has_close_orderMark_append (rest : List Char) :
    has "\x7d)" (orderMark ++ rest) = has "\x7d)" rest := by
  have hmarks : ∀ run : List Char, '\x7d' ∉ run → has "\x7d)" (run ++ rest) = has "\x7d)" rest := by
    intro run hrun
    induction run with
    | nil => rfl
    | cons c run ih =>
      rw [List.mem_cons, not_or] at hrun
      rw [List.cons_append, has_close_cons_of_ne (Ne.symm hrun.1), ih hrun.2]
  exact hmarks orderMark (by decide)

/-- The rows of a list are read up to the line that closes it. -/
theorem takeWhile_rows (rows : List (List AnnotationPiece)) (tail : List Char)
    (after : List Line) :
    (rows.map textOf ++ ["\x7d)".toList ++ tail] ++ after).takeWhile (!startsWith "\x7d)" ·) =
      rows.map textOf := by
  have hclose : startsWith "\x7d)" ("\x7d)".toList ++ tail) = true :=
    startsWith_iff.2 (List.prefix_append _ tail)
  rw [List.append_assoc, List.takeWhile_append_of_pos, List.singleton_append,
    List.takeWhile_cons_of_neg (by rw [hclose]; decide), List.append_nil]
  intro row hrow
  obtain ⟨pieces, -, rfl⟩ := List.mem_map.1 hrow
  simp [startsWith_close_textOf]

theorem propertyOrder_of_splitsFirst {before : List Line} {first : Line} {rest : List Line}
    (h : SplitsFirst (startsWith "@JsonPropertyOrder") (lines source) before first rest) :
    propertyOrder source = (first ::
      if has "\x7d)" first then [] else rest.takeWhile (!startsWith "\x7d)" ·)).flatMap
        propertyNames := by
  have hdrop : (lines source).dropWhile (!startsWith "@JsonPropertyOrder" ·) = first :: rest := by
    rw [h.eq, List.dropWhile_append_of_pos (fun l hl => by simp [h.none_before l hl]),
      List.dropWhile_cons_of_neg (by simp [h.here])]
  rw [propertyOrder, hdrop]

/-- What is read of a source are the names of its annotation and what stands behind it, up to the
end that is looked for. -/
theorem propertyOrder_eq_append {a : OrderAnnotation} (h : a.Stands source tail after) :
    propertyOrder source = a.names ++ a.readBehind tail after := by
  obtain ⟨before, hfirst⟩ := h
  rw [propertyOrder_of_splitsFirst hfirst, List.flatMap_cons]
  cases a with
  | bare pieces =>
    have hend : has "\x7d)" (orderMark ++ textOf pieces ++ ')' :: tail) = has "\x7d)" tail := by
      rw [List.append_assoc, has_close_orderMark_append, has_close_textOf_append,
        has_close_cons_of_ne (by decide)]
    have hread : propertyNames (orderMark ++ textOf pieces ++ ')' :: tail) =
        (valuesOf pieces).filter (·.any (!isBlank ·)) ++ propertyNames tail := by
      rw [List.append_assoc, propertyNames_orderMark_append, propertyNames_textOf_append,
        propertyNames_eq, literals_cons_of_ne (by decide), ← propertyNames_eq]
    rw [firstLine, hend, hread, moreLines, List.nil_append,
      names, readBehind, List.flatMap_cons, List.append_assoc]
  | onLine pieces =>
    have hend : has "\x7d)" (orderMark ++ textOf pieces ++ "\x7d)".toList ++ tail) = true :=
      has_iff.2 ⟨orderMark ++ textOf pieces, tail, rfl⟩
    rw [firstLine, hend, if_pos rfl, List.append_assoc, List.append_assoc,
      propertyNames_orderMark_append, propertyNames_textOf_append, List.flatMap_nil,
      List.append_nil, propertyNames_eq ("\x7d)".toList ++ tail),
      literals_append_of_not_mem (by decide), ← propertyNames_eq]
    rfl
  | overLines first rows =>
    have hend : has "\x7d)" (orderMark ++ textOf first) = false := by
      rw [has_close_orderMark_append, ← List.append_nil (textOf first), has_close_textOf_append]
      rfl
    have hread (pieces : List AnnotationPiece) : propertyNames (textOf pieces) =
        (valuesOf pieces).filter (·.any (!isBlank ·)) := by
      have h := propertyNames_textOf_append pieces []
      rwa [List.append_nil, propertyNames_eq [], literals, List.filter_nil, List.append_nil] at h
    rw [firstLine, hend, if_neg (by decide), propertyNames_orderMark_append,
      moreLines, takeWhile_rows, List.flatMap_map]
    simp only [hread]
    rw [readBehind, List.append_nil, names, List.flatMap_cons,
      List.filter_append, List.filter_flatMap]

/-- Of an annotation whose end is told by its text, the literals within its parentheses are read that
are not blank, in order, and nothing from the rest of the file. -/
theorem propertyOrder_eq_names {a : OrderAnnotation} (h : a.Stands source tail after)
    (hends : a.EndsClearly tail) : propertyOrder source = a.names := by
  have hnothing : a.readBehind tail after = [] := by
    cases a with
    | bare pieces => exact hends.elim
    | onLine pieces =>
      rw [readBehind, propertyNames_eq, List.filter_eq_nil_iff]
      intro name hname
      simpa using hends name hname
    | overLines first rows => rfl
  rw [propertyOrder_eq_append h, hnothing, List.append_nil]

/-- The lines of a class below its annotation. -/
def annotatedClass : List Line :=
  ["public class A \x7b".toList, "  @JsonProperty(\"y\")".toList]

/-- A class with a list of two names over several lines. -/
def listedSource : String :=
  ofLines <| ["@JsonPropertyOrder(\x7b".toList, "    \"id\",".toList, "    \"name\"".toList,
    "\x7d)".toList] ++ annotatedClass

/-- The annotation of `listedSource`. -/
def listedAnnotation : OrderAnnotation :=
  let blanks := List.replicate 4 (AnnotationPiece.mark ' ' (by decide))
  .overLines [.mark '(' (by decide), .mark '\x7b' (by decide)]
    [blanks ++ [.literal "id".toList (by decide), .mark ',' (by decide)],
      blanks ++ [.literal "name".toList (by decide)]]

theorem propertyOrder_listedSource :
    listedAnnotation.Stands listedSource [] annotatedClass ∧
      listedAnnotation.EndsClearly [] ∧
      propertyOrder listedSource = ["id".toList, "name".toList] := by
  have hstands : listedAnnotation.Stands listedSource [] annotatedClass :=
    ⟨[], by decide +kernel, by simp, by decide +kernel⟩
  exact ⟨hstands, trivial, (propertyOrder_eq_names hstands trivial).trans (by decide +kernel)⟩

/-- A class with one name without braces. -/
def bareSource : String :=
  ofLines ("@JsonPropertyOrder(\"x\")".toList :: annotatedClass)

/-- The annotation of `bareSource`. -/
def bareAnnotation : OrderAnnotation :=
  .bare [.mark '(' (by decide), .literal "x".toList (by decide)]

/-- A name without braces is read together with a literal of the class below it. -/
theorem propertyOrder_bareSource :
    bareAnnotation.Stands bareSource [] annotatedClass ∧ bareAnnotation.names = ["x".toList] ∧
      propertyOrder bareSource = ["x".toList, "y".toList] :=
  ⟨⟨[], by decide +kernel, by simp, by decide +kernel⟩, by decide +kernel, by decide +kernel⟩

end RamlBuild
