import Mathlib.Data.List.Nodup
import RamlBuild.Proofs.Sources.Commuting
import RamlBuild.Proofs.Sources.DateRounds
import RamlBuild.Proofs.Sources.SubstitutedLiterals

/-!
# Sources whose dates are replaced

Each line that stays is worked on by itself: the import of the old date class gives way, and on every
other line the dates between delimiters are exchanged, whether the source imports the class or has a
type of its own of that name.

Which lines go is told line by line as well: those that begin with a `@JsonFormat` annotation and hold
the name of the pattern. So an annotation with a pattern goes as a whole, and nothing goes with it, where
it stands alone on its line. One that is followed by its declaration takes that away.

## Main definitions

* `datedLine` — a line with its dates replaced
* `linesLeft` — the lines of a source that do not count as annotations
* `WellBracketed` — texts whose literals are closed and whose brackets go together
* `PatternAnnotation` — the text of an annotation that has a pattern
* `Spans` — lines that an annotation goes over, with the text around it
* `Unannotated` — lines, and what is left of them without the annotations
* `RemovesPatterns` — the annotations of a source go and nothing else does
* `PatternsAlone` — sources in which each annotation stands alone on its line

## Main results

* `patchDates_of_not_imported` — a source that does not import the old date class
* `WellBracketed.eq_of_append` — a bracket tells what stands ahead of it
* `removesPatterns` — where annotations stand alone, they go and nothing else does
* `not_removesPatterns_of_declaration` — an annotation takes away the declaration behind it
-/

namespace RamlBuild

open Text

variable {line lead tail gap rest : Line} {ls out rows : List Line} {source : String}
variable {text text' behind behind' members : List Char}
variable {c quote opening closing opening' closing' : Char}

/-! ### The lines that stay -/

/-- The import of the old date class. -/
def dateImport : Line := "import java.util.Date;".toList

/-- The import of the new date class. -/
def newDateImport : Line := "import java.time.OffsetDateTime;".toList

/-- A line with its dates replaced: the import of the class, or the dates between delimiters. -/
def datedLine (line : Line) : Line :=
  if line = dateImport then newDateImport else exchangeInContext none line

/-- The lines of a source that do not count as annotations with a pattern. -/
def linesLeft (source : String) : List Line :=
  (lines source).filter (!isDatePattern ·)

theorem replaceDates_eq_exchangeInContext (line : Line) :
    replaceDates line = exchangeInContext none line := by
  rw [replaceDates_eq_exchangeDates, exchangeInContext_eq, Option.any_none]

theorem patchDateLine_of_isDatePattern (h : isDatePattern line = true) : patchDateLine line = [] := by
  have himport : line ≠ dateImport := by
    rintro rfl
    exact absurd h (by decide)
  unfold patchDateLine
  rw [if_pos h]
  exact if_neg himport

theorem patchDateLine_of_not_isDatePattern (h : isDatePattern line = false) :
    patchDateLine line = [datedLine line] := by
  unfold patchDateLine datedLine dateImport newDateImport
  split
  · rfl
  · rw [if_neg (by simp [h]), replaceDates_eq_exchangeInContext]

theorem flatMap_patchDateLine (ls : List Line) :
    ls.flatMap patchDateLine = (ls.filter (!isDatePattern ·)).map datedLine := by
  induction ls with
  | nil => rfl
  | cons line rest ih =>
    rw [List.flatMap_cons, ih]
    cases hpattern : isDatePattern line with
    | true => rw [patchDateLine_of_isDatePattern hpattern, List.filter_cons_of_neg (by simp [hpattern]),
        List.nil_append]
    | false => rw [patchDateLine_of_not_isDatePattern hpattern,
        List.filter_cons_of_pos (by simp [hpattern]), List.map_cons, List.singleton_append]

/-- The lines that are left are dated one by one. -/
theorem patchDates_eq (source : String) : patchDates source = ofLines ((linesLeft source).map datedLine) := by
  rw [patchDates, flatMap_patchDateLine, linesLeft]

theorem not_mem_newline_of_mem_linesLeft (h : line ∈ linesLeft source) : '\n' ∉ line :=
  not_mem_of_mem_lines (List.mem_filter.1 h).1

/-- A source that does not import the old date class keeps its lines, less those that count as
annotations with a pattern. On them the dates between delimiters are exchanged and nothing else is, so
the lines stay as they are exactly when there is no such date. -/
theorem patchDates_of_not_imported (h : dateImport ∉ lines source) :
    patchDates source = ofLines ((linesLeft source).map (exchangeInContext none)) ∧
      (patchDates source = ofLines (linesLeft source) ↔ ∀ line ∈ linesLeft source, ¬HasDate line) := by
  have hdated : (linesLeft source).map datedLine = (linesLeft source).map (exchangeInContext none) := by
    refine List.map_congr_left fun line hline => if_neg ?_
    rintro rfl
    exact h (List.mem_filter.1 hline).1
  have hout : patchDates source = ofLines ((linesLeft source).map (exchangeInContext none)) := by
    rw [patchDates_eq, hdated]
  refine ⟨hout, ?_⟩
  rw [hout]
  constructor
  · intro heq line hline
    -- The text that is written tells the lines, which hold no newline.
    have hplain : ∀ out ∈ (linesLeft source).map (exchangeInContext none), '\n' ∉ out := by
      rintro _ hmem
      obtain ⟨line, hline, rfl⟩ := List.mem_map.1 hmem
      rw [← replaceDates_eq_exchangeInContext]
      exact newline_not_mem_replaceDates (not_mem_newline_of_mem_linesLeft hline)
    have hlines := ofLines_injective hplain (fun _ => not_mem_newline_of_mem_linesLeft) heq
    have hstays := List.map_eq_map_iff.1 (hlines.trans (List.map_id _).symm) line hline
    rw [← replaceDates_eq_exchangeInContext] at hstays
    exact replaceDates_eq_self_iff.1 hstays
  · intro hnone
    have hstays : (linesLeft source).map (exchangeInContext none) = (linesLeft source).map id := by
      refine List.map_congr_left fun line hline => ?_
      rw [← replaceDates_eq_exchangeInContext]
      exact replaceDates_eq_self_iff.2 (hnone line hline)
    rw [hstays, List.map_id]

/-- The lines of an interface with a getter of the given type. -/
def meetingLines (type : Line) : List Line :=
  ["public interface Meeting \x7b".toList, "  @JsonFormat(pattern = \"yyyy\")".toList,
    "  ".toList ++ type ++ " getStart();".toList, "\x7d".toList]

theorem lines_meetingLines : lines (ofLines (meetingLines oldDate)) = meetingLines oldDate :=
  lines_ofLines_of_endsPlain (by decide) (by decide)

theorem linesLeft_meetingLines :
    linesLeft (ofLines (meetingLines oldDate)) = (meetingLines oldDate).eraseIdx 1 := by
  rw [linesLeft, lines_meetingLines]
  decide

/-- The getter loses its annotation and has the new date class as its type. -/
theorem patchDates_meetingLines :
    patchDates (ofLines (meetingLines oldDate)) = ofLines ((meetingLines newDate).eraseIdx 1) := by
  rw [patchDates_eq, linesLeft_meetingLines]
  exact congrArg ofLines (by decide)

theorem not_imported_meetingLines : dateImport ∉ lines (ofLines (meetingLines oldDate)) := by
  rw [lines_meetingLines]
  decide

/-- The lines of a source that imports nothing are dated one by one. -/
theorem patchDates_of_not_imported_meeting :
    dateImport ∉ lines (ofLines (meetingLines oldDate)) ∧
      patchDates (ofLines (meetingLines oldDate)) =
        ofLines ((linesLeft (ofLines (meetingLines oldDate))).map (exchangeInContext none)) :=
  ⟨not_imported_meetingLines, (patchDates_of_not_imported not_imported_meetingLines).1⟩

/-- A type of that name is exchanged though the source does not import the old date class. -/
theorem patchDates_ne_meeting :
    dateImport ∉ lines (ofLines (meetingLines oldDate)) ∧
      patchDates (ofLines (meetingLines oldDate)) = ofLines ((meetingLines newDate).eraseIdx 1) ∧
      patchDates (ofLines (meetingLines oldDate)) ≠ ofLines (linesLeft (ofLines (meetingLines oldDate))) := by
  refine ⟨not_imported_meetingLines, patchDates_meetingLines, ?_⟩
  rw [patchDates_meetingLines, linesLeft_meetingLines]
  intro heq
  exact absurd (ofLines_injective (by decide) (by decide) heq) (by decide)

/-! ### Literals and brackets -/

/-- What stands behind the opening quote of a literal, up to the closing one and with it. A backslash
takes the character after it into the literal. -/
inductive ClosedLiteral (quote : Char) : List Char → Prop
  | close : ClosedLiteral quote [quote]
  | escaped (c : Char) {rest : List Char} (hrest : ClosedLiteral quote rest) :
      ClosedLiteral quote ('\\' :: c :: rest)
  | plain {c : Char} {rest : List Char} (hquote : c ≠ quote) (hescape : c ≠ '\\')
      (hrest : ClosedLiteral quote rest) : ClosedLiteral quote (c :: rest)

/-- The quotes that a literal stands between. -/
def literalQuotes : List Char := ['"', '\x27']

/-- The brackets that go together. -/
def bracketPairs : List (Char × Char) := [('(', ')'), ('\x7b', '\x7d')]

/-- The characters that open or close something. -/
def pairedMarks : List Char :=
  literalQuotes ++ bracketPairs.map Prod.fst ++ bracketPairs.map Prod.snd

/-- A text whose literals are closed and whose brackets, but for those in literals, go together. -/
inductive WellBracketed : List Char → Prop
  | nil : WellBracketed []
  | plain {c : Char} {rest : List Char} (hc : c ∉ pairedMarks) (hrest : WellBracketed rest) :
      WellBracketed (c :: rest)
  | literal {quote : Char} {literal rest : List Char} (hquote : quote ∈ literalQuotes)
      (hliteral : ClosedLiteral quote literal) (hrest : WellBracketed rest) :
      WellBracketed (quote :: (literal ++ rest))
  | brackets {opening closing : Char} {inner rest : List Char}
      (hpair : (opening, closing) ∈ bracketPairs) (hinner : WellBracketed inner) (hrest : WellBracketed rest) :
      WellBracketed (opening :: (inner ++ closing :: rest))

theorem WellBracketed.append (h : WellBracketed text) (h' : WellBracketed text') : WellBracketed (text ++ text') := by
  induction h with
  | nil => exact h'
  | plain hc _ ih => exact .plain hc ih
  | literal hquote hliteral _ ih =>
    rw [List.cons_append, List.append_assoc]
    exact .literal hquote hliteral ih
  | brackets hpair hinner _ _ ih =>
    rw [List.cons_append, List.append_assoc, List.cons_append]
    exact .brackets hpair hinner ih

theorem wellBracketed_of_plain (h : ∀ c ∈ text, c ∉ pairedMarks) : WellBracketed text := by
  induction text with
  | nil => exact .nil
  | cons c rest ih =>
    rw [List.forall_mem_cons] at h
    exact .plain h.1 (ih h.2)

theorem Text.Blank.wellBracketed {blanks : List Char} (h : Blank blanks) : WellBracketed blanks := by
  have hmarks : ∀ c ∈ pairedMarks, (!isBlank c) = true := List.all_eq_true.1 (by decide)
  refine wellBracketed_of_plain fun c hc hmark => ?_
  have hnot := hmarks c hmark
  rw [h c hc] at hnot
  exact Bool.false_ne_true hnot

/-- A literal ends at one place. -/
theorem ClosedLiteral.eq_of_append (hquote : quote ≠ '\\') (h : ClosedLiteral quote text)
    (h' : ClosedLiteral quote text') (heq : text ++ behind = text' ++ behind') : text = text' := by
  induction h generalizing text' with
  | close =>
    cases h' with
    | close => rfl
    | escaped => exact absurd (List.cons.inj heq).1 hquote
    | plain hne => exact absurd (List.cons.inj heq).1.symm hne
  | escaped c _ ih =>
    cases h' with
    | close => exact absurd (List.cons.inj heq).1.symm hquote
    | escaped c' hrest' =>
      obtain ⟨rfl, htail⟩ := List.cons.inj (List.cons.inj heq).2
      rw [ih hrest' htail]
    | plain _ hescape => exact absurd (List.cons.inj heq).1.symm hescape
  | plain hne hescape _ ih =>
    cases h' with
    | close => exact absurd (List.cons.inj heq).1 hne
    | escaped => exact absurd (List.cons.inj heq).1 hescape
    | plain _ _ hrest' =>
      obtain ⟨rfl, htail⟩ := List.cons.inj heq
      rw [ih hrest' htail]

theorem ne_of_mem_literalQuotes (h : quote ∈ literalQuotes) : quote ≠ '\\' := by
  rintro rfl
  exact absurd h (by decide)

theorem nodup_pairedMarks : pairedMarks.Nodup := by
  simp [pairedMarks, literalQuotes, bracketPairs]

theorem mem_pairedMarks_of_mem_literalQuotes (h : quote ∈ literalQuotes) : quote ∈ pairedMarks :=
  List.mem_append_left _ (List.mem_append_left _ h)

theorem opening_mem_pairedMarks (h : (opening, closing) ∈ bracketPairs) : opening ∈ pairedMarks :=
  List.mem_append_left _ (List.mem_append_right _ (List.mem_map_of_mem h))

theorem closing_mem_pairedMarks (h : (opening, closing) ∈ bracketPairs) : closing ∈ pairedMarks :=
  List.mem_append_right _ (List.mem_map_of_mem h)

/-- A bracket that closes neither opens a literal nor opens brackets. -/
theorem closing_ne (h : (opening, closing) ∈ bracketPairs)
    (hc : c ∈ literalQuotes ∨ ∃ closing', (c, closing') ∈ bracketPairs) : c ≠ closing := by
  have hclosing : closing ∈ bracketPairs.map Prod.snd := List.mem_map_of_mem h
  have hahead : c ∈ literalQuotes ++ bracketPairs.map Prod.fst := by
    rcases hc with hquote | ⟨closing', hpair⟩
    · exact List.mem_append_left _ hquote
    · exact List.mem_append_right _ (List.mem_map_of_mem hpair)
  exact (List.nodup_append.1 nodup_pairedMarks).2.2 c hahead closing hclosing

theorem not_mem_literalQuotes_of_opening (h : (opening, closing) ∈ bracketPairs) :
    opening ∉ literalQuotes := by
  have hdisjoint := (List.nodup_append.1 (List.nodup_append.1 nodup_pairedMarks).1).2.2
  exact fun hquote => hdisjoint opening hquote opening (List.mem_map_of_mem h) rfl

theorem eq_closing_of_opening (h : (opening, closing) ∈ bracketPairs)
    (h' : (opening, closing') ∈ bracketPairs) : closing = closing' := by
  have hopenings := (List.nodup_append.1 (List.nodup_append.1 nodup_pairedMarks).1).2.1
  exact (Prod.mk.inj (List.inj_on_of_nodup_map hopenings h h' rfl)).2

/-- No text that is well bracketed begins with a bracket that closes. -/
theorem WellBracketed.head?_ne (h : WellBracketed text) (hpair : (opening, closing) ∈ bracketPairs) :
    text.head? ≠ some closing := by
  cases h with
  | nil => simp
  | plain hc =>
    rintro ⟨⟩
    exact hc (closing_mem_pairedMarks hpair)
  | literal hquote => exact fun heq => closing_ne hpair (.inl hquote) (Option.some.inj heq)
  | brackets hpair' => exact fun heq => closing_ne hpair (.inr ⟨_, hpair'⟩) (Option.some.inj heq)

/-- A bracket that closes tells what stands ahead of it, back to the one that it closes. -/
theorem WellBracketed.eq_of_append (h : WellBracketed text) (h' : WellBracketed text')
    (hpair : (opening, closing) ∈ bracketPairs) (hpair' : (opening', closing') ∈ bracketPairs)
    (heq : text ++ closing :: behind = text' ++ closing' :: behind') : text = text' := by
  induction h generalizing text' opening closing opening' closing' behind behind' with
  | nil =>
    cases text' with
    | nil => rfl
    | cons c rest => exact absurd (congrArg some (List.cons.inj heq).1.symm) (h'.head?_ne hpair)
  | @plain c rest hc hrest ih =>
    cases h' with
    | nil => exact absurd (congrArg some (List.cons.inj heq).1) ((WellBracketed.plain hc hrest).head?_ne hpair')
    | plain hc' hrest' =>
      obtain ⟨rfl, htail⟩ := List.cons.inj heq
      rw [ih hrest' hpair hpair' htail]
    | literal hquote =>
      exact absurd (mem_pairedMarks_of_mem_literalQuotes hquote) ((List.cons.inj heq).1 ▸ hc)
    | brackets hinside => exact absurd (opening_mem_pairedMarks hinside) ((List.cons.inj heq).1 ▸ hc)
  | @literal quote literal rest hquote hliteral hrest ih =>
    cases h' with
    | nil =>
      have hhead := (WellBracketed.literal hquote hliteral hrest).head?_ne hpair'
      exact absurd (congrArg some (List.cons.inj heq).1) hhead
    | plain hc' =>
      exact absurd (mem_pairedMarks_of_mem_literalQuotes hquote) ((List.cons.inj heq).1 ▸ hc')
    | literal hquote' hliteral' hrest' =>
      simp only [List.cons_append, List.append_assoc] at heq
      obtain ⟨rfl, htail⟩ := List.cons.inj heq
      obtain rfl := hliteral.eq_of_append (ne_of_mem_literalQuotes hquote) hliteral' htail
      rw [ih hrest' hpair hpair' (List.append_cancel_left htail)]
    | brackets hinside =>
      exact absurd ((List.cons.inj heq).1 ▸ hquote) (not_mem_literalQuotes_of_opening hinside)
  | @brackets _ _ inner rest hinside hinner hrest ihinner ih =>
    cases h' with
    | nil =>
      have hhead := (WellBracketed.brackets hinside hinner hrest).head?_ne hpair'
      exact absurd (congrArg some (List.cons.inj heq).1) hhead
    | plain hc' => exact absurd (opening_mem_pairedMarks hinside) ((List.cons.inj heq).1 ▸ hc')
    | literal hquote' =>
      exact absurd ((List.cons.inj heq).1 ▸ hquote') (not_mem_literalQuotes_of_opening hinside)
    | brackets hinside' hinner' hrest' =>
      simp only [List.cons_append, List.append_assoc] at heq
      obtain ⟨rfl, htail⟩ := List.cons.inj heq
      obtain rfl := eq_closing_of_opening hinside hinside'
      obtain rfl := ihinner hinner' hinside hinside' htail
      rw [ih hrest' hpair hpair' (List.cons.inj (List.append_cancel_left htail)).2]

/-! ### Annotations -/

/-- The members of an annotation, one of which is the pattern. -/
inductive PatternMembers : List Char → Prop
  | pattern {blanks gap rest : List Char} (hblanks : Blank blanks) (hgap : Blank gap)
      (hrest : WellBracketed rest) : PatternMembers (blanks ++ "pattern".toList ++ gap ++ '=' :: rest)
  | later {member rest : List Char} (hmember : WellBracketed member) (hrest : PatternMembers rest) :
      PatternMembers (member ++ ',' :: rest)

theorem PatternMembers.wellBracketed (h : PatternMembers members) : WellBracketed members := by
  induction h with
  | pattern hblanks hgap hrest =>
    have hplain : "pattern".toList.all (fun c => decide (c ∉ pairedMarks)) = true := by decide
    have hname : WellBracketed "pattern".toList :=
      wellBracketed_of_plain fun c hc => of_decide_eq_true (List.all_eq_true.1 hplain c hc)
    have hahead := (hblanks.wellBracketed.append hname).append hgap.wellBracketed
    exact hahead.append (.plain (by decide) hrest)
  | later hmember _ ih => exact hmember.append (.plain (by decide) ih)

theorem PatternMembers.has_name (h : PatternMembers members) : "pattern".toList <:+: members := by
  induction h with
  | @pattern blanks gap rest => exact ⟨blanks, gap ++ '=' :: rest, by simp⟩
  | @later member rest _ _ ih =>
    exact ih.trans ((List.suffix_cons ',' rest).trans (List.suffix_append member _)).isInfix

/-- The text of an annotation of a format that has a pattern. -/
def PatternAnnotation (text : List Char) : Prop :=
  ∃ gap members, Blank gap ∧ PatternMembers members ∧
    text = "@JsonFormat".toList ++ gap ++ '(' :: (members ++ [')'])

/-- An annotation ends at one place. -/
theorem PatternAnnotation.eq_of_append (h : PatternAnnotation text) (h' : PatternAnnotation text')
    (heq : text ++ behind = text' ++ behind') : text = text' := by
  obtain ⟨gap, members, hgap, hmembers, rfl⟩ := h
  obtain ⟨gap', members', hgap', hmembers', rfl⟩ := h'
  simp only [List.append_assoc, List.cons_append, List.nil_append] at heq
  have hinside := List.append_cancel_left heq
  obtain rfl := eq_of_append_cons_eq (p := isBlank) hgap hgap' (by decide) (by decide) hinside
  have hclosed := (List.cons.inj (List.append_cancel_left hinside)).2
  have hpair : ('(', ')') ∈ bracketPairs := by decide
  rw [hmembers.wellBracketed.eq_of_append hmembers'.wellBracketed hpair hpair hclosed]

theorem PatternAnnotation.getLast? (h : PatternAnnotation text) : text.getLast? = some ')' := by
  obtain ⟨gap, members, -, -, rfl⟩ := h
  rw [← List.cons_append, ← List.append_assoc, List.getLast?_concat]

theorem PatternAnnotation.exists_eq_cons (h : PatternAnnotation text) : ∃ rest, text = '@' :: rest := by
  obtain ⟨gap, members, -, -, rfl⟩ := h
  exact ⟨_, rfl⟩

theorem opening_eq : "@JsonFormat(".toList = "@JsonFormat".toList ++ ['('] := by
  decide

theorem patternAnnotation_of_members (h : PatternMembers members) :
    PatternAnnotation ("@JsonFormat(".toList ++ members ++ [')']) := by
  refine ⟨[], members, by simp [Blank], h, ?_⟩
  rw [opening_eq]
  simp only [List.append_assoc, List.append_nil, List.nil_append, List.cons_append]

/-- An annotation with a pattern goes over the rows: `lead` stands ahead of it on the first one, and
`tail` behind it on the last. -/
def Spans (rows : List Line) (lead tail : Line) : Prop :=
  ∃ text, PatternAnnotation text ∧ '\n' ∉ lead ∧ '\n' ∉ tail ∧
    rows.flatMap (· ++ ['\n']) = lead ++ text ++ tail ++ ['\n']

/-- Lines, and what is left of them when the annotations with a pattern are gone and the dates are
replaced. What stands around an annotation stays, on one line, unless it is blank. -/
inductive Unannotated : List Line → List Line → Prop
  | done : Unannotated [] []
  | removed {rows rest out : List Line} {lead tail : Line} (hspans : Spans rows lead tail)
      (hblank : Blank (lead ++ tail)) (hrest : Unannotated rest out) : Unannotated (rows ++ rest) out
  | cut {rows rest out : List Line} {lead tail : Line} (hspans : Spans rows lead tail)
      (hleft : ¬Blank (lead ++ tail)) (hrest : Unannotated ((lead ++ tail) :: rest) out) :
      Unannotated (rows ++ rest) out
  | kept {line : Line} {rest out : List Line}
      (hnone : ∀ rows behind lead tail, line :: rest = rows ++ behind → ¬Spans rows lead tail)
      (hrest : Unannotated rest out) : Unannotated (line :: rest) (datedLine line :: out)

/-- The annotations with a pattern are removed from the source and nothing else is, but for the dates
that are replaced. -/
def RemovesPatterns (source : String) : Prop :=
  ∃ out, patchDates source = ofLines out ∧ Unannotated (lines source) out

/-- A line with an annotation, whose parenthesis stands right behind its name. -/
def annotated (lead : Line) (members : List Char) (tail : Line) : Line :=
  lead ++ "@JsonFormat(".toList ++ members ++ ')' :: tail

theorem mem_annotated_iff : c ∈ annotated lead members tail ↔
    c ∈ lead ∨ c ∈ "@JsonFormat()".toList ++ members ∨ c ∈ tail := by
  have hname : "@JsonFormat()".toList = "@JsonFormat(".toList ++ [')'] := by decide
  simp only [annotated, hname, List.mem_append, List.mem_cons, List.not_mem_nil, or_false]
  tauto

/-- A line with nothing but an annotation with a pattern. -/
def IsPatternLine (line : Line) : Prop :=
  ∃ lead members tail, Blank lead ∧ Blank tail ∧ PatternMembers members ∧
    line = annotated lead members tail

/-- Each annotation of the source that has a pattern stands alone on one line, and a line that begins
with an annotation and tells a pattern is such a line. -/
structure PatternsAlone (source : String) : Prop where
  alone : ∀ rows lead tail, rows <:+: lines source → Spans rows lead tail →
    ∃ line, rows = [line] ∧ IsPatternLine line
  annotates : ∀ line ∈ lines source, ∀ blanks, Blank blanks →
    blanks ++ "@JsonFormat(".toList <+: line → "pattern".toList <:+: line → IsPatternLine line

/-- Whatever stands behind the annotation, its line is recognised. -/
theorem isDatePattern_annotated (hlead : Blank lead) (hmembers : PatternMembers members) (tail : Line) :
    isDatePattern (annotated lead members tail) = true := by
  refine isDatePattern_iff.2 ⟨⟨lead, hlead, members ++ ')' :: tail, ?_⟩, ?_⟩
  · simp only [annotated, opening_eq, List.append_assoc]
  · exact hmembers.has_name.trans ⟨lead ++ "@JsonFormat(".toList, ')' :: tail, rfl⟩

theorem spans_annotated (hmembers : PatternMembers members) (hlead : '\n' ∉ lead) (htail : '\n' ∉ tail) :
    Spans [annotated lead members tail] lead tail := by
  refine ⟨_, patternAnnotation_of_members hmembers, hlead, htail, ?_⟩
  simp [annotated]

/-- The lines that are left of the last lines of a source are those without its annotations. -/
theorem PatternsAlone.unannotated (h : PatternsAlone source) (hls : ls <:+ lines source) :
    Unannotated ls ((ls.filter (!isDatePattern ·)).map datedLine) := by
  induction ls with
  | nil => exact .done
  | cons line rest ih =>
    have hrest := ih ((List.suffix_cons line rest).trans hls)
    have hmem : line ∈ lines source := hls.subset List.mem_cons_self
    cases hpattern : isDatePattern line with
    | true =>
      rw [List.filter_cons_of_neg (by simp [hpattern])]
      obtain ⟨⟨blanks, hblanks, hopens⟩, hinfix⟩ := isDatePattern_iff.1 hpattern
      rw [List.append_assoc] at hopens
      obtain ⟨lead, members, tail, hlead, htail, hmembers, rfl⟩ :=
        h.annotates line hmem blanks hblanks hopens hinfix
      have hnewline := not_mem_of_mem_lines hmem
      rw [mem_annotated_iff, not_or, not_or] at hnewline
      refine .removed (spans_annotated hmembers hnewline.1 hnewline.2.2) ?_ hrest
      exact fun c hc => (List.mem_append.1 hc).elim (hlead c) (htail c)
    | false =>
      rw [List.filter_cons_of_pos (by simp [hpattern]), List.map_cons]
      refine .kept (fun rows behind lead tail hrows hspans => ?_) hrest
      -- The annotation would be all of the line, and its line would not be left.
      have hinfix : rows <:+: lines source :=
        (hrows ▸ List.prefix_append rows behind).isInfix.trans hls.isInfix
      obtain ⟨_, rfl, lead', members, tail', hlead, -, hmembers, hline⟩ :=
        h.alone rows lead tail hinfix hspans
      obtain rfl := (List.cons.inj hrows).1
      rw [hline, isDatePattern_annotated hlead hmembers] at hpattern
      contradiction

/-- Where annotations stand alone on their lines, they are removed and nothing else is. -/
theorem removesPatterns (h : PatternsAlone source) : RemovesPatterns source :=
  ⟨_, patchDates_eq source, h.unannotated List.suffix_rfl⟩

/-! ### Sources with one annotation -/

theorem eq_nil_of_newline_not_mem (h : '\n' ∉ rows.flatMap (· ++ ['\n'])) : rows = [] := by
  cases rows with
  | nil => rfl
  | cons row rest => exact absurd (by simp) h

theorem not_mem_flatMap_of_not_mem (hc : c ≠ '\n') (h : ∀ row ∈ rows, c ∉ row) :
    c ∉ rows.flatMap (· ++ ['\n']) := by
  intro hmem
  obtain ⟨row, hrow, hin⟩ := List.mem_flatMap.1 hmem
  rcases List.mem_append.1 hin with hin | hin
  · exact h row hrow hin
  · exact hc (List.mem_singleton.1 hin)

/-- Of the lines, only one has the mark. So rows among them with the mark have that line once. -/
theorem exists_append_cons_of_infix {before after : List Line} (hrows : rows <:+: before ++ line :: after)
    (hline : c ∈ line) (hothers : ∀ row ∈ before ++ after, c ∉ row) (hmark : ∃ row ∈ rows, c ∈ row) :
    ∃ above below, rows = above ++ line :: below ∧ ∀ row ∈ above ++ below, c ∉ row := by
  have hnot : line ∉ before ++ after := fun hmem => hothers line hmem hline
  rw [List.mem_append, not_or] at hnot
  obtain ⟨row, hrow, hc⟩ := hmark
  obtain rfl : row = line := by
    have hmem := hrows.subset hrow
    rw [List.mem_append, List.mem_cons] at hmem
    have hother : row ∉ before ++ after := fun hmem => hothers row hmem hc
    rw [List.mem_append] at hother
    tauto
  obtain ⟨above, below, rfl⟩ := List.append_of_mem hrow
  obtain ⟨first, last, heq⟩ := hrows
  simp only [List.append_assoc, List.cons_append] at heq
  rw [← List.append_assoc] at heq
  obtain ⟨rfl, -, rfl⟩ := (List.append_cons_inj_of_notMem hnot.1 hnot.2).1 heq.symm
  refine ⟨above, below, rfl, fun row hmem => hothers row ?_⟩
  simp only [List.mem_append] at hmem ⊢
  tauto

/-- Where one line alone holds the mark that an annotation begins with, and holds it once, no
annotation goes over other lines. -/
theorem Spans.eq_singleton {before after : List Line} {lead' tail' : Line} (h : Spans rows lead' tail')
    (hrows : rows <:+: before ++ annotated lead members tail :: after)
    (hmembers : PatternMembers members) (hothers : ∀ row ∈ before ++ after, '@' ∉ row)
    (honce : '@' ∉ lead ++ members ++ tail) : rows = [annotated lead members tail] := by
  obtain ⟨body, hopens, hlead', htail', htext⟩ := h
  obtain ⟨rest, hrest⟩ := hopens.exists_eq_cons
  have hmark : ∃ row ∈ rows, '@' ∈ row := by
    by_contra hnone
    have hnot := not_mem_flatMap_of_not_mem (c := '@') (by decide) fun row hrow hin => hnone ⟨row, hrow, hin⟩
    rw [htext, hrest] at hnot
    exact hnot (by simp)
  obtain ⟨above, below, rfl, hplain⟩ := exists_append_cons_of_infix hrows
    (mem_annotated_iff.2 (.inr (.inl (by simp)))) hothers hmark
  rw [List.forall_mem_append] at hplain
  have habove := not_mem_flatMap_of_not_mem (c := '@') (by decide) hplain.1
  have hbelow := not_mem_flatMap_of_not_mem (c := '@') (by decide) hplain.2
  simp only [List.mem_append, not_or] at honce
  -- The one mark is the one that the annotation begins with, so the same text stands ahead of it.
  have hlead : above.flatMap (· ++ ['\n']) ++ lead = lead' := by
    rw [hrest] at htext
    have hsplit : (above.flatMap (· ++ ['\n']) ++ lead) ++ '@' :: ("JsonFormat(".toList ++ members ++
        ')' :: (tail ++ '\n' :: below.flatMap (· ++ ['\n']))) = lead' ++ '@' :: (rest ++ tail' ++ ['\n']) := by
      simpa [annotated] using htext
    refine ((List.append_cons_inj_of_notMem ?_ ?_).1 hsplit).1
    · rw [List.mem_append, not_or]
      exact ⟨habove, honce.1.1⟩
    · simp only [List.mem_append, List.mem_cons, not_or]
      exact ⟨⟨by decide, honce.1.2⟩, by decide, honce.2, by decide, hbelow⟩
  obtain rfl : above = [] :=
    eq_nil_of_newline_not_mem fun hmem => hlead' (hlead ▸ List.mem_append_left lead hmem)
  -- It ends at the same place, with the same text behind it.
  rw [List.flatMap_nil, List.nil_append] at hlead
  have hends : ("@JsonFormat(".toList ++ members ++ [')']) ++ (tail ++ '\n' :: below.flatMap (· ++ ['\n'])) =
      body ++ (tail' ++ ['\n']) := by
    rw [← hlead] at htext
    simpa [annotated] using htext
  rw [(patternAnnotation_of_members hmembers).eq_of_append hopens hends] at hends
  have hbehind := List.append_cancel_left hends
  obtain ⟨-, -, hnil⟩ := (List.append_cons_inj_of_notMem htail' List.not_mem_nil).1 hbehind.symm
  obtain rfl : below = [] := eq_nil_of_newline_not_mem (by rw [← hnil]; exact List.not_mem_nil)
  rw [List.nil_append]

/-- The members of an annotation that has a pattern and nothing else. -/
def yearMembers : List Char := "pattern = \"yyyy\"".toList

theorem patternMembers_yearMembers : PatternMembers yearMembers := by
  have hliteral : ClosedLiteral '"' "yyyy\"".toList :=
    .plain (by decide) (by decide) (.plain (by decide) (by decide) (.plain (by decide) (by decide)
      (.plain (by decide) (by decide) .close)))
  have hvalue : WellBracketed (' ' :: '"' :: ("yyyy\"".toList ++ [])) :=
    .plain (by decide) (.literal (by decide) hliteral .nil)
  have hmembers : PatternMembers ([] ++ "pattern".toList ++ [' '] ++
      '=' :: ' ' :: '"' :: ("yyyy\"".toList ++ [])) :=
    .pattern (by simp [Blank]) (List.all_eq_true.1 (by decide)) hvalue
  exact hmembers

theorem isPatternLine_yearMembers : IsPatternLine (annotated "  ".toList yearMembers []) :=
  ⟨_, _, [], List.all_eq_true.1 (by decide), by simp [Blank], patternMembers_yearMembers, rfl⟩

theorem meetingLines_eq (type : Line) : meetingLines type = ["public interface Meeting \x7b".toList] ++
    annotated "  ".toList yearMembers [] ::
      ["  ".toList ++ type ++ " getStart();".toList, "\x7d".toList] :=
  rfl

theorem patternsAlone_meetingLines : PatternsAlone (ofLines (meetingLines oldDate)) where
  alone := by
    intro rows lead tail hrows hspans
    rw [lines_meetingLines, meetingLines_eq] at hrows
    have hline := hspans.eq_singleton hrows patternMembers_yearMembers (by decide) (by decide)
    exact ⟨_, hline, isPatternLine_yearMembers⟩
  annotates := by
    intro line hline blanks _ hopens _
    have hmark : '@' ∈ line := hopens.subset (by simp)
    have hothers : ∀ row ∈ meetingLines oldDate, '@' ∈ row →
        row = annotated "  ".toList yearMembers [] := by decide
    rw [lines_meetingLines] at hline
    rw [hothers line hline hmark]
    exact isPatternLine_yearMembers

/-- The annotation of a getter is removed, and the getter stays. -/
theorem removesPatterns_meeting :
    PatternsAlone (ofLines (meetingLines oldDate)) ∧ RemovesPatterns (ofLines (meetingLines oldDate)) ∧
      patchDates (ofLines (meetingLines oldDate)) = ofLines ((meetingLines newDate).eraseIdx 1) :=
  ⟨patternsAlone_meetingLines, removesPatterns patternsAlone_meetingLines, patchDates_meetingLines⟩

/-! ### Annotations ahead of their declaration -/

theorem Spans.getLast?_tail (h : Spans rows lead tail) (hrow : rows.getLast? = some line)
    (hmark : line.getLast? = some c) (hc : c ≠ ')') : tail.getLast? = some c := by
  obtain ⟨body, hopens, -, -, htext⟩ := h
  obtain ⟨above, rfl⟩ := List.getLast?_eq_some_iff.1 hrow
  have hend : above.flatMap (· ++ ['\n']) ++ line = lead ++ body ++ tail := by
    rw [List.flatMap_append, List.flatMap_singleton, ← List.append_assoc] at htext
    exact List.append_cancel_right htext
  have hlast : (lead ++ body ++ tail).getLast? = some c := by
    rw [← hend, List.getLast?_append, hmark, Option.some_or]
  rw [List.getLast?_append] at hlast
  cases htail : tail.getLast? with
  | some d => rwa [htail, Option.some_or] at hlast
  | none =>
    rw [htail, Option.none_or, List.getLast?_append, hopens.getLast?, Option.some_or] at hlast
    exact absurd (Option.some.inj hlast).symm hc

/-- Something is left of lines that end with a declaration. -/
theorem Unannotated.ne_nil (h : Unannotated ls out) (hlast : ls.getLast? = some line)
    (hend : line.getLast? = some ';') : out ≠ [] := by
  induction h generalizing line with
  | done => simp at hlast
  | @removed rows rest _ lead tail hspans hblank _ ih =>
    rw [List.getLast?_append] at hlast
    cases hrest : rest.getLast? with
    | some last =>
      rw [hrest, Option.some_or] at hlast
      exact ih hrest (Option.some.inj hlast ▸ hend)
    | none =>
      -- The declaration would stand behind the annotation.
      rw [hrest, Option.none_or] at hlast
      have hmem := List.mem_of_getLast? (hspans.getLast?_tail hlast hend (by decide))
      exact absurd (hblank _ (List.mem_append_right lead hmem)) (by decide)
  | @cut rows rest _ lead tail hspans _ _ ih =>
    rw [List.getLast?_append] at hlast
    cases hrest : rest.getLast? with
    | some last =>
      rw [hrest, Option.some_or] at hlast
      have hlast' : ((lead ++ tail) :: rest).getLast? = some last := by
        rw [List.getLast?_cons, hrest, Option.getD_some]
      exact ih hlast' (Option.some.inj hlast ▸ hend)
    | none =>
      rw [hrest, Option.none_or] at hlast
      have htail := hspans.getLast?_tail hlast hend (by decide)
      have hlast' : ((lead ++ tail) :: rest).getLast? = some (lead ++ tail) := by
        rw [List.getLast?_cons, hrest, Option.getD_none]
      exact ih hlast' (by rw [List.getLast?_append, htail, Option.some_or])
  | kept => exact List.cons_ne_nil _ _

/-- An annotation takes away the declaration that follows it on its line. -/
theorem not_removesPatterns_of_declaration (hlead : Blank lead) (hmembers : PatternMembers members)
    (htail : tail.getLast? = some ';') (hnewline : '\n' ∉ lead ++ members ++ tail) :
    patchDates (ofLines [annotated lead members tail]) = "" ∧
      ¬RemovesPatterns (ofLines [annotated lead members tail]) := by
  simp only [List.mem_append, not_or] at hnewline
  have hend : (annotated lead members tail).getLast? = some ';' := by
    rw [annotated, List.getLast?_append, List.getLast?_cons, htail, Option.getD_some, Option.some_or]
  have hlines : lines (ofLines [annotated lead members tail]) = [annotated lead members tail] := by
    refine lines_ofLines_of_endsPlain (fun line hline => ?_) fun line hline => ?_
    · rw [List.mem_singleton.1 hline]
      rw [mem_annotated_iff, List.mem_append, not_or, not_or, not_or]
      exact ⟨hnewline.1.1, ⟨by decide, hnewline.1.2⟩, hnewline.2⟩
    · rw [List.mem_singleton.1 hline, EndsPlain, hend]
      decide
  have hout : patchDates (ofLines [annotated lead members tail]) = ofLines [] := by
    rw [patchDates_eq, linesLeft, hlines, List.filter_cons_of_neg
      (by simp [isDatePattern_annotated hlead hmembers]), List.filter_nil, List.map_nil]
  refine ⟨hout, ?_⟩
  rintro ⟨out, hwritten, hleft⟩
  rw [hlines] at hleft
  have hne := hleft.ne_nil rfl hend
  obtain ⟨first, rest, rfl⟩ := List.exists_cons_of_ne_nil hne
  have hchars := congrArg String.toList (hout.symm.trans hwritten)
  rw [toList_ofLines, toList_ofLines] at hchars
  simp at hchars

/-- A field is lost with the annotation ahead of it. -/
theorem not_removesPatterns_field :
    patchDates (ofLines ["  @JsonFormat(pattern = \"yyyy\") Date start;".toList]) = "" ∧
      ¬RemovesPatterns (ofLines ["  @JsonFormat(pattern = \"yyyy\") Date start;".toList]) := by
  have hline : "  @JsonFormat(pattern = \"yyyy\") Date start;".toList =
      annotated "  ".toList yearMembers " Date start;".toList := by decide
  rw [hline]
  exact not_removesPatterns_of_declaration (List.all_eq_true.1 (by decide)) patternMembers_yearMembers
    (by decide) (by decide)

end RamlBuild
