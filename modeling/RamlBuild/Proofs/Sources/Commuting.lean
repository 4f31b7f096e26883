import RamlBuild.Proofs.Sources.Boxing
import RamlBuild.Proofs.Sources.Dates
import RamlBuild.Proofs.Text.Words

/-!
# Boxing and dates commute

Boxing looks at words and the replacement of dates at what stands between delimiters, and no
delimiter is part of a word. Neither makes or takes away what the other one looks for: the date class
is no primitive and no class that boxes one, and the words of the import line and of a pattern
annotation are none either. So each line comes out the same in both orders, and a source does if it is
read back as it was written, with no carriage return that a line ending would swallow.

## Main definitions

* `Foreign` — texts whose words boxing neither changes nor makes

## Main results

* `boxLine_eq_iff`, `prefix_boxLine_iff`, `infix_boxLine_iff` — boxing does not touch foreign texts
* `boxLine_replaceDates` — boxing a line and replacing its dates commute
* `map_boxLine_patchDateLine` — so does what takes the place of a line
* `boxPrimitives_patchDates` — so do the two passes over a source
-/

namespace RamlBuild

open Text

variable {line rest text run part : List Char} {c : Char} {opened : Bool} {source : String}

/-! ### Texts that boxing does not touch -/

/-- The classes that box the primitives. -/
def boxedClasses : List (List Char) :=
  boxedTypes.map Prod.snd

/-- A text whose words boxing neither changes nor makes: none is a primitive or a class that boxes
one. -/
def Foreign (text : List Char) : Prop :=
  ∀ run ∈ words text, run ∉ primitives ∧ run ∉ boxedClasses

theorem boxLine_cases (hrun : IsWord run) :
    run ∉ primitives ∧ boxLine run = run ∨ run ∈ primitives ∧ boxLine run ∈ boxedClasses := by
  by_cases h : run ∈ primitives
  · have hall : ∀ primitive ∈ primitives,
        (boxedTypes.lookup primitive).getD primitive ∈ boxedClasses := by decide
    rw [boxLine_of_isWord hrun]
    exact .inr ⟨h, hall run h⟩
  · exact .inl ⟨h, boxLine_of_not_mem_primitives hrun h⟩

theorem Foreign.boxLine_eq (h : Foreign text) : boxLine text = text :=
  boxLine_eq_self_iff.2 fun run hrun => (h run hrun).1

/-- A line that is boxed to a foreign text is that text. -/
theorem boxLine_eq_iff (h : Foreign text) : boxLine line = text ↔ line = text := by
  constructor
  · intro heq
    rw [← heq]
    apply Eq.symm
    apply boxLine_eq_self_iff.2
    intro run hrun
    rcases boxLine_cases (isWord_of_mem_words hrun) with ⟨hnot, -⟩ | ⟨-, hclass⟩
    · exact hnot
    · -- A class would be left among the words.
      have hmem : boxLine run ∈ words (boxLine line) := by
        rw [worksByWords_boxLine.words_map]
        exact List.mem_map_of_mem hrun
      rw [heq] at hmem
      exact absurd hclass (h _ hmem).2
  · rintro rfl
    exact h.boxLine_eq

theorem boxLine_eq_nil_iff : boxLine line = [] ↔ line = [] := by
  apply boxLine_eq_iff
  unfold Foreign
  decide

/-- Boxing keeps a foreign text at the start of a line, if it ends with no word. -/
theorem prefix_boxLine_iff (h : Foreign text) (hc : isWordChar c = false) :
    text ++ [c] <+: boxLine line ↔ text ++ [c] <+: line := by
  constructor
  · rintro ⟨rest, hrest⟩
    rw [List.append_assoc, List.singleton_append] at hrest
    obtain ⟨before, after, rfl, hbefore, -⟩ :=
      worksByWords_boxLine.exists_of_append_cons hc hrest.symm
    rw [(boxLine_eq_iff h).1 hbefore]
    exact ⟨after, by simp⟩
  · rintro ⟨rest, rfl⟩
    rw [List.append_assoc, List.singleton_append, worksByWords_boxLine.splitsAt c hc, h.boxLine_eq]
    exact ⟨boxLine rest, by simp⟩

/-- Boxing keeps a word somewhere in a line, if it stands in no primitive and no class. -/
theorem infix_boxLine_iff (hpart : IsWord part)
    (h : ∀ run ∈ primitives ++ boxedClasses, ¬part <:+: run) :
    part <:+: boxLine line ↔ part <:+: line := by
  have hrun : ∀ run, IsWord run → (part <:+: boxLine run ↔ part <:+: run) := by
    intro run hrun
    rcases boxLine_cases hrun with ⟨-, heq⟩ | ⟨hprimitive, hclass⟩
    · rw [heq]
    · apply iff_of_false
      · exact h _ (List.mem_append_right _ hclass)
      · exact h _ (List.mem_append_left _ hprimitive)
  rw [infix_iff_exists_mem_words hpart, infix_iff_exists_mem_words hpart,
    worksByWords_boxLine.words_map]
  constructor
  · rintro ⟨boxed, hboxed, hinfix⟩
    obtain ⟨run, hmem, rfl⟩ := List.mem_map.1 hboxed
    exact ⟨run, hmem, (hrun run (isWord_of_mem_words hmem)).1 hinfix⟩
  · rintro ⟨run, hmem, hinfix⟩
    exact ⟨_, List.mem_map_of_mem hmem, (hrun run (isWord_of_mem_words hmem)).2 hinfix⟩

/-! ### Pattern annotations -/

theorem infix_trimStart_iff (hc : isBlank c = false) :
    c :: part <:+: trimStart line ↔ c :: part <:+: line := by
  obtain ⟨blanks, hblanks, hline⟩ := exists_blank_trimStart line
  conv_rhs => rw [hline]
  clear hline
  induction blanks with
  | nil => rfl
  | cons d blanks ih =>
    have hne : c ≠ d := by
      rintro rfl
      rw [hblanks c List.mem_cons_self] at hc
      contradiction
    rw [List.cons_append, List.infix_cons_iff, List.cons_prefix_cons,
      ih fun e he => hblanks e (List.mem_cons_of_mem d he)]
    simp [hne]

/-- A pattern annotation begins, behind blanks, with its name and a parenthesis, and tells its
pattern somewhere. -/
theorem isDatePattern_iff :
    isDatePattern line = true ↔
      (∃ blanks, Blank blanks ∧ (blanks ++ "@JsonFormat".toList) ++ ['('] <+: line) ∧
        "pattern".toList <:+: line := by
  have hpattern : "pattern".toList <:+: trimStart line ↔ "pattern".toList <:+: line :=
    infix_trimStart_iff (by decide)
  rw [isDatePattern, Bool.and_eq_true, has_iff, hpattern, startsWith_iff]
  refine and_congr_left fun _ => ?_
  constructor
  · rintro ⟨rest, hrest⟩
    obtain ⟨blanks, hblanks, hline⟩ := exists_blank_trimStart line
    refine ⟨blanks, hblanks, rest, ?_⟩
    rw [hline, ← hrest]
    simp
  · rintro ⟨blanks, hblanks, rest, rfl⟩
    have htrim : trimStart (blanks ++ '@' :: ("JsonFormat(".toList ++ rest)) =
        '@' :: ("JsonFormat(".toList ++ rest) := trimStart_append hblanks (by decide)
    have hline : blanks ++ "@JsonFormat".toList ++ ['('] ++ rest =
        blanks ++ '@' :: ("JsonFormat(".toList ++ rest) := by simp
    rw [hline, htrim]
    exact ⟨rest, by simp⟩

/-- Boxing a line makes it no pattern annotation, and leaves none another line. -/
theorem isDatePattern_boxLine (line : Line) : isDatePattern (boxLine line) = isDatePattern line := by
  have hforeign : ∀ blanks, Blank blanks → Foreign (blanks ++ "@JsonFormat".toList) := by
    intro blanks hblanks run hrun
    rcases words_append_of_blank hblanks hrun with rfl | hrun
    · decide
    · have hname : Foreign "@JsonFormat".toList := by
        unfold Foreign
        decide +kernel
      exact hname run hrun
  have hpattern : "pattern".toList <:+: boxLine line ↔ "pattern".toList <:+: line :=
    infix_boxLine_iff (by decide) (by decide +kernel)
  rw [Bool.eq_iff_iff, isDatePattern_iff, isDatePattern_iff, hpattern]
  refine and_congr_left fun _ => exists_congr fun blanks => and_congr_right fun hblanks => ?_
  exact prefix_boxLine_iff (hforeign blanks hblanks) (by decide)

/-! ### Dates -/

theorem isNameChar_of_isWordChar (h : isWordChar c) : isNameChar c := by
  have hall : (['(', ' ', '.', '<', ','] ++ [' ', ';', '>', ')', ',']).all (!isWordChar ·) := by
    decide
  rw [isNameChar, Bool.not_eq_true', Bool.eq_false_iff]
  intro hdelimiter
  rw [isDateDelimiter, opensDate, closesDate, Bool.or_eq_true, List.contains_iff_mem,
    List.contains_iff_mem, ← List.mem_append] at hdelimiter
  have hother := List.all_eq_true.1 hall c hdelimiter
  simp [h] at hother

/-- A word is exchanged or stays, as the characters around it say. -/
theorem exchangeDates_append_of_isWord (hrun : IsWord run) (hc : isWordChar c = false)
    (opened : Bool) (rest : Line) :
    exchangeDates opened (run ++ c :: rest) =
      exchangeName opened run c ++ c :: exchangeDates (opensDate c) rest := by
  have hname : ∀ d ∈ run, isNameChar d := fun d hd => isNameChar_of_isWordChar (hrun d hd)
  by_cases hdelimiter : isNameChar c = true
  · -- The name goes on with a character that is no part of the date class.
    have hforeign : c ∉ oldDate := by
      intro hmem
      have hword : IsWord oldDate := by decide
      rw [hword c hmem] at hc
      contradiction
    have hcloses : closesDate c = false := by
      rw [Bool.eq_false_iff]
      intro h
      rw [not_isNameChar_of_closesDate h] at hdelimiter
      contradiction
    have hstays : exchangeName opened run c = run := if_neg (by simp [hcloses])
    rw [exchangeDates_append_foreign hdelimiter hforeign, exchangeDates_of_isNameChar hname, hstays,
      not_opensDate_of_isNameChar hdelimiter]
  · exact exchangeDates_append_cons hname (by simpa using hdelimiter) opened rest

theorem boxLine_exchangeName (run : List Char) (opened : Bool) (c : Char) :
    boxLine (exchangeName opened run c) = exchangeName opened (boxLine run) c := by
  have hforeign : Foreign oldDate ∧ Foreign newDate := by
    unfold Foreign
    decide +kernel
  have hdate : boxLine run = oldDate ↔ run = oldDate := boxLine_eq_iff hforeign.1
  have hnew : boxLine newDate = newDate := hforeign.2.boxLine_eq
  simp only [exchangeName, hdate]
  split
  · exact hnew
  · rfl

theorem boxLine_exchangeDates (line : Line) :
    ∀ opened, boxLine (exchangeDates opened line) = exchangeDates opened (boxLine line) := by
  have hwords := worksByWords_boxLine
  induction line using run_induction isWordChar with
  | last run hrun =>
    intro opened
    have hname : ∀ run, IsWord run → exchangeDates opened run = run := fun run hrun =>
      exchangeDates_of_isNameChar (fun d hd => isNameChar_of_isWordChar (hrun d hd)) opened
    rw [hname run hrun, hname _ (hwords.isWord run hrun)]
  | next run c rest hrun hc ih =>
    intro opened
    rw [exchangeDates_append_of_isWord hrun hc, hwords.splitsAt c hc, hwords.splitsAt c hc,
      exchangeDates_append_of_isWord (hwords.isWord run hrun) hc, boxLine_exchangeName, ih]

/-- Boxing a line and replacing its dates commute. -/
theorem boxLine_replaceDates (line : Line) :
    boxLine (replaceDates line) = replaceDates (boxLine line) := by
  rw [replaceDates_eq_exchangeDates, replaceDates_eq_exchangeDates, boxLine_exchangeDates]

/-! ### Lines and sources -/

/-- What takes the place of a line is boxed as the line is. -/
theorem map_boxLine_patchDateLine (line : Line) :
    (patchDateLine line).map boxLine = patchDateLine (boxLine line) := by
  have hforeign : Foreign "import java.util.Date;".toList ∧
      Foreign "import java.time.OffsetDateTime;".toList := by
    unfold Foreign
    decide +kernel
  have himport : boxLine line = "import java.util.Date;".toList ↔
      line = "import java.util.Date;".toList := boxLine_eq_iff hforeign.1
  have hmoved : boxLine "import java.time.OffsetDateTime;".toList =
      "import java.time.OffsetDateTime;".toList := hforeign.2.boxLine_eq
  simp only [patchDateLine, himport, isDatePattern_boxLine, ← boxLine_replaceDates]
  split
  · rw [List.map_singleton, hmoved]
  · split
    · rfl
    · rfl

theorem endsPlain_boxLine (h : EndsPlain line) : EndsPlain (boxLine line) := by
  intro hlast
  obtain ⟨before, hbefore⟩ := List.getLast?_eq_some_iff.1 hlast
  obtain ⟨before', after, rfl, -, hafter⟩ :=
    worksByWords_boxLine.exists_of_append_cons (by decide) hbefore
  rw [boxLine_eq_nil_iff] at hafter
  exact h (by simp [hafter])

theorem getLast?_exchangeDates (line : Line) : ∀ opened,
    (exchangeDates opened line).getLast? = line.getLast? := by
  induction line using run_induction isNameChar with
  | last run hrun =>
    intro opened
    rw [exchangeDates_of_isNameChar hrun]
  | next run d rest hrun hd ih =>
    intro opened
    rw [exchangeDates_append_cons hrun hd, List.getLast?_append, List.getLast?_append,
      List.getLast?_cons, List.getLast?_cons, ih, Option.some_or, Option.some_or]

theorem endsPlain_replaceDates (h : EndsPlain line) : EndsPlain (replaceDates line) := by
  rwa [EndsPlain, replaceDates_eq_exchangeDates, getLast?_exchangeDates]

/-- What takes the place of a line is read back as it is written, if the line is. -/
theorem plain_of_mem_patchDateLine (hnewline : '\n' ∉ line) (hplain : EndsPlain line) {out : Line}
    (hout : out ∈ patchDateLine line) : '\n' ∉ out ∧ EndsPlain out := by
  rw [patchDateLine] at hout
  split at hout
  · rw [List.mem_singleton] at hout
    subst hout
    decide
  · split at hout
    · contradiction
    · rw [List.mem_singleton] at hout
      subst hout
      exact ⟨newline_not_mem_replaceDates hnewline, endsPlain_replaceDates hplain⟩

/-- Boxing a source and replacing its dates commute, if no line of it ends with a carriage return
that the first of them would leave to the line ending. -/
theorem boxPrimitives_patchDates (h : ∀ line ∈ lines source, EndsPlain line) :
    boxPrimitives (patchDates source) = patchDates (boxPrimitives source) := by
  have hpatched : lines (patchDates source) = (lines source).flatMap patchDateLine := by
    apply lines_ofLines_of_endsPlain
    · intro out hout
      obtain ⟨line, hline, hout⟩ := List.mem_flatMap.1 hout
      exact (plain_of_mem_patchDateLine (not_mem_of_mem_lines hline) (h line hline) hout).1
    · intro out hout
      obtain ⟨line, hline, hout⟩ := List.mem_flatMap.1 hout
      exact (plain_of_mem_patchDateLine (not_mem_of_mem_lines hline) (h line hline) hout).2
  have hboxed : lines (boxPrimitives source) = (lines source).map boxLine := by
    apply lines_ofLines_of_endsPlain
    · intro out hout
      obtain ⟨line, hline, rfl⟩ := List.mem_map.1 hout
      exact newline_not_mem_boxLine (not_mem_of_mem_lines hline)
    · intro out hout
      obtain ⟨line, hline, rfl⟩ := List.mem_map.1 hout
      exact endsPlain_boxLine (h line hline)
  calc boxPrimitives (patchDates source)
      = ofLines ((lines source).flatMap fun line => (patchDateLine line).map boxLine) := by
        rw [boxPrimitives, mapLines, hpatched, List.map_flatMap]
    _ = ofLines ((lines source).flatMap fun line => patchDateLine (boxLine line)) := by
        simp only [map_boxLine_patchDateLine]
    _ = patchDates (boxPrimitives source) := by
        rw [patchDates, hboxed, List.flatMap_map]

/-- A source with an import, a pattern annotation and dates beside primitives. -/
def bookingSource : String :=
  "import java.util.Date;\n  @JsonFormat(pattern = \"int\")\n  int book(Date,long);\n"

theorem boxPrimitives_patchDates_booking :
    (∀ line ∈ lines bookingSource, EndsPlain line) ∧
      boxPrimitives (patchDates bookingSource) = patchDates (boxPrimitives bookingSource) ∧
      patchDates (boxPrimitives bookingSource) =
        "import java.time.OffsetDateTime;\n  Integer book(OffsetDateTime,Long);\n" := by
  have hplain : ∀ line ∈ lines bookingSource, EndsPlain line := by
    decide
  exact ⟨hplain, boxPrimitives_patchDates hplain, by decide +kernel⟩

end RamlBuild
