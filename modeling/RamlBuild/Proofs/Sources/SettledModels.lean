import RamlBuild.Proofs.Sources.Companions
import RamlBuild.Proofs.Sources.Repointing
import RamlBuild.Proofs.Sources.SettledResources

/-!
# Models whose lines are settled

The patches for values, types, dates and constants leave lines of a model source on which none of
them has anything left to do. Whether a source declares a literal discriminator, and of which
properties it lists the order, none of them changes.

## Main definitions

* `KeepsTypes` — a line whose types stay
* `SettledModel` — the lines of a model source on which the patches have nothing left to do

## Main results

* `settledModel_modelLines`, `SettledModel.pointed` — the lines that the patches leave are settled
* `hasDiscriminatorLiteral_patchDiscriminator` — a typed interface declares no literal
-/

namespace RamlBuild

open Text

variable {line line' out header : Line} {ls : List Line} {c : Char} {dates : Prop}
  {table : ConstantTable}

/-! ### Lines whose types stay -/

/-- A line that boxing leaves, and the replacement of dates as well where dates are replaced. -/
structure KeepsTypes (dates : Prop) (line : Line) : Prop where
  plain : IsPlainLine line
  boxed : boxLine line = line
  kept : dates → patchDateLine line = [line]

theorem keepsTypes_boxLine (h : IsPlainLine line) : KeepsTypes False (boxLine line) where
  plain := h.boxLine
  boxed := boxLine_boxLine line
  kept := False.elim

theorem SettledText.keepsTypes (h : SettledText dates line) (hplain : EndsPlain line)
    (hpattern : isDatePattern line = false) : KeepsTypes dates line where
  plain := ⟨h.newline, hplain⟩
  boxed := h.boxed
  kept hdates := patchDateLine_eq_self_iff.2 ⟨hpattern, h.date hdates⟩

theorem KeepsTypes.text (h : KeepsTypes dates line) : SettledText dates line where
  newline := h.plain.1
  boxed := h.boxed
  date hdates := (patchDateLine_eq_self_iff.1 (h.kept hdates)).2

theorem KeepsTypes.of_mem_patchDateLineIf {dates : Bool} (h : KeepsTypes False line)
    (hout : out ∈ patchDateLineIf dates line) : KeepsTypes (dates = true) out := by
  cases dates with
  | false =>
    rw [patchDateLineIf, if_neg Bool.false_ne_true, List.mem_singleton] at hout
    rw [hout]
    exact ⟨h.plain, h.boxed, fun hdates => absurd hdates Bool.false_ne_true⟩
  | true =>
    rw [patchDateLineIf, if_pos rfl] at hout
    exact ⟨h.plain.of_mem_patchDateLine hout, boxLine_of_mem_patchDateLine h.boxed hout,
      fun _ => patchDateLine_of_mem hout⟩

/-! ### Annotations that join a date -/

/-- A line that can annotate a property, with the rest of a date right behind a quote. -/
def JoinsMark (line : Line) : Prop :=
  ("@JsonProperty(".toList <+: trimStart line ∨ "value".toList <+: trimStart line) ∧ JoinsDate line

instance (line : Line) : Decidable (JoinsMark line) :=
  inferInstanceAs (Decidable (_ ∧ _))

theorem keepsStart_cons_blank {p : Char → Bool} {pairs : List (List Char × List Char)}
    {start : List Char} (hpairs : ∀ name ∈ exchangedRuns pairs, ∃ d rest, name = d :: rest ∧
      isBlank d = false) (hc : isBlank c = true) (h : KeepsStart p pairs start) :
    KeepsStart p pairs (c :: start) := by
  have hnil : [] ∉ exchangedRuns pairs := fun hmem => by
    obtain ⟨d, rest, heq, -⟩ := hpairs [] hmem
    cases heq
  have hblank : ∀ run, c :: run ∉ exchangedRuns pairs := fun run hmem => by
    obtain ⟨d, rest, heq, hd⟩ := hpairs _ hmem
    rw [← (List.cons.inj heq).1, hc] at hd
    cases hd
  obtain ⟨first, rest, hsplit⟩ := List.exists_cons_of_ne_nil (List.splitOnP_ne_nil (!p ·) start)
  rw [KeepsStart, hsplit] at h
  rw [KeepsStart, List.splitOnP_cons_eq_if_modifyHead, hsplit]
  split
  · refine ⟨fun run hrun => ?_, h.2⟩
    rw [List.dropLast_cons_of_ne_nil (by simp), List.mem_cons] at hrun
    rcases hrun with rfl | hrun
    · exact hnil
    · exact h.1 run hrun
  · rw [List.modifyHead_cons]
    cases rest with
    | nil =>
      refine ⟨by simp, fun run hrun name hname hstarts => ?_⟩
      obtain rfl := Option.some.inj hrun
      obtain ⟨d, rest, rfl, hd⟩ := hpairs name hname
      rw [(List.cons_prefix_cons.1 hstarts).1, hd] at hc
      cases hc
    | cons next rest =>
      refine ⟨fun run hrun => ?_, h.2⟩
      rw [List.dropLast_cons_of_ne_nil (by simp), List.mem_cons] at hrun
      rcases hrun with rfl | hrun
      · exact hblank first
      · refine h.1 run ?_
        rw [List.dropLast_cons_of_ne_nil (by simp)]
        exact List.mem_cons_of_mem _ hrun

/-- Blanks tell no types. -/
theorem Untyped.blank_append {blanks start : List Char} (hblanks : Blank blanks) (h : Untyped start) :
    Untyped (blanks ++ start) := by
  induction blanks with
  | nil => exact h
  | cons c rest ih =>
    obtain ⟨hc, hrest⟩ := List.forall_mem_cons.1 hblanks
    have hstarts : ∀ pairs, (exchangedRuns pairs).all (fun name => name.head?.any (!isBlank ·)) = true →
        ∀ name ∈ exchangedRuns pairs, ∃ d rest, name = d :: rest ∧ isBlank d = false := by
      intro pairs hall name hname
      have hhead := List.all_eq_true.1 hall name hname
      cases name with
      | nil => cases hhead
      | cons d rest => exact ⟨d, rest, rfl, by simpa using hhead⟩
    have ih := ih hrest
    exact ⟨keepsStart_cons_blank (hstarts _ (by decide)) hc ih.1,
      keepsStart_cons_blank (hstarts _ (by decide)) hc ih.2⟩

/-- What a line begins with behind its blanks does not depend on its types. -/
theorem Retyped.prefix_trimStart_iff {start : List Char} (hhead : start.head?.any (!isBlank ·) = true)
    (hstart : Untyped start) (h : Retyped line line') :
    start <+: trimStart line' ↔ start <+: trimStart line := by
  obtain ⟨c, tail, rfl⟩ : ∃ c tail, start = c :: tail := by
    cases start with
    | nil => cases hhead
    | cons c tail => exact ⟨c, tail, rfl⟩
  have hc : isBlank c = false := by simpa using hhead
  have hforth : ∀ {line line' : Line}, Retyped line line' → c :: tail <+: trimStart line →
      c :: tail <+: trimStart line' := by
    intro line line' h hstarts
    obtain ⟨blanks, hblanks, hline⟩ := exists_blank_trimStart line
    have hwhole : blanks ++ c :: tail <+: line := by
      rw [hline]
      exact (List.prefix_append_right_inj blanks).2 hstarts
    obtain ⟨rest, rfl⟩ := (h.prefix_iff (hstart.blank_append hblanks)).2 hwhole
    rw [List.append_assoc, List.cons_append, trimStart_append hblanks hc]
    exact List.prefix_append (c :: tail) rest
  exact ⟨hforth h.symm, hforth h⟩

theorem Retyped.joinsMark_iff (h : Retyped line line') :
    JoinsMark line' ↔ JoinsMark line := by
  have hstart : ∀ start ∈ ["@JsonProperty(", "value"],
      start.toList <+: trimStart line' ↔ start.toList <+: trimStart line := by
    intro start hmem
    refine h.prefix_trimStart_iff ?_ ?_
    · revert start
      decide
    · revert start
      unfold Untyped KeepsStart
      decide
  rw [JoinsMark, JoinsMark, hstart _ (by simp), hstart _ (by simp), h.joinsDate_iff]

theorem joinsMark_of_mem_patchDateLine (hout : out ∈ patchDateLine line)
    (h : JoinsMark out) : JoinsMark line := by
  rw [patchDateLine] at hout
  split at hout
  · rw [List.mem_singleton.1 hout] at h
    exact absurd h.2.mem (by decide)
  · split at hout
    · contradiction
    · rw [List.mem_singleton.1 hout] at h
      exact (retyped_replaceDates line).joinsMark_iff.1 h

theorem isDatePattern_of_clashes {other : List Char}
    (hclash : clashes "@JsonFormat(".toList other = true) (hother : other <+: trimStart line) :
    isDatePattern line = false := by
  rw [isDatePattern, Bool.and_eq_false_iff, ← Bool.not_eq_true, startsWith_iff]
  exact .inl (not_prefix_of_clashes hclash hother)

/-- A constant in the place of a literal leaves the types of its line. -/
theorem KeepsTypes.constant {r : Reference} (h : KeepsTypes dates r.literal)
    (hopens : OpensAnnotation r.before ∨ OpensValue r.before) (hcapital : IsCapital r.name)
    (hne : r.name ≠ []) (hjoins : dates → ¬JoinsMark r.literal) :
    KeepsTypes dates r.constant := by
  have hstart : ∀ rest, "@JsonProperty(".toList <+: trimStart (r.before ++ rest) ∨
      "value".toList <+: trimStart (r.before ++ rest) := fun rest =>
    hopens.imp annotation_prefix_trimStart value_prefix_trimStart
  have hliteral : r.literal = r.before ++ ('"' :: r.value ++ '"' :: r.after) :=
    List.append_assoc _ _ _
  refine SettledText.keepsTypes ⟨?_, boxLine_constant hopens hcapital hne h.boxed, fun hdates => ?_⟩
    ?_ ?_
  · exact newline_not_mem_constant h.plain.1 fun c hc => hcapital.isWordChar hc
  · refine not_hasDate_constant hcapital hne (h.text.date hdates) fun hdate => hjoins hdates ⟨?_, hdate⟩
    rw [hliteral]
    exact hstart _
  · have hlast : EndsPlain (r.name ++ r.after) := by
      cases hafter : r.after with
      | nil =>
        rw [List.append_nil]
        intro hreturn
        have hmem := hcapital.isWordChar (List.mem_of_getLast? hreturn)
        exact absurd hmem (by decide)
      | cons c rest =>
        have hplain := h.plain.2
        rw [Reference.literal, hafter, EndsPlain, List.getLast?_append, List.getLast?_cons_cons,
          List.getLast?_cons, Option.some_or, ← List.getLast?_cons] at hplain
        rwa [EndsPlain, List.getLast?_append, List.getLast?_cons, Option.some_or, ← List.getLast?_cons]
    have hconstant : r.constant =
        (r.before ++ jsonFieldClassName.toList ++ ['.']) ++ (r.name ++ r.after) := by
      simp [Reference.constant]
    rw [hconstant]
    exact endsPlain_append (by simp [hne]) hlast
  · rw [constant_eq]
    rcases hstart ('J' :: ("sonField".toList ++ '.' :: (r.name ++ r.after))) with hstart | hstart
    · exact isDatePattern_of_clashes (by decide) hstart
    · exact isDatePattern_of_clashes (by decide) hstart

/-! ### Lines of models -/

/-- The lines of a model source on which the patches for values, types and dates have nothing left to
do. Dates are replaced or not. -/
structure SettledModel (dates : Bool) (ls : List Line) : Prop where
  line : ∀ line ∈ ls, KeepsTypes (dates = true) line
  value : ¬HidesValue ls

namespace SettledModel

variable {dates : Bool} (h : SettledModel dates ls)
include h

theorem plain : ∀ line ∈ ls, IsPlainLine line := fun line hline => (h.line line hline).plain

theorem patchEnum_eq : patchEnum (ofLines ls) = ofLines ls := by
  rw [patchEnum, lines_ofLines_of_plain h.plain, openEnum_eq_self h.value]

theorem boxPrimitives_eq : boxPrimitives (ofLines ls) = ofLines ls :=
  mapLines_eq_self h.plain fun line hline => (h.line line hline).boxed

theorem patchDatesIf_eq : patchDatesIf dates (ofLines ls) = ofLines ls :=
  patchDatesIf_eq_self h.plain fun hdates line hline => (h.line line hline).kept hdates

theorem patchJsonProperties_eq :
    patchJsonProperties table (ofLines ls) = ofLines (pointLinesAtConstants table false ls) := by
  rw [patchJsonProperties, lines_ofLines_of_plain h.plain]

/-- The lines stay settled when they are pointed at constants. -/
theorem pointed (htable : IsTable table)
    (hjoins : dates = true → ∀ line ∈ ls, ¬JoinsMark line) :
    SettledModel dates (pointLinesAtConstants table false ls) where
  line line hline := by
    rcases mem_pointLinesAtConstants hline with hmem | ⟨r, rfl, hmem, hentry, hopens⟩
    · exact h.line line hmem
    · obtain ⟨hcapital, hne⟩ := htable _ hentry
      exact (h.line _ hmem).constant hopens hcapital hne fun hdates => hjoins hdates _ hmem
  value := by
    rw [hidesValue_congr (filterMap_pointLinesAtConstants
      (fun h => enumMarks?_eq_none h (by decide)) (fun h => enumMarks?_eq_none h (by decide)) ls)]
    exact h.value

end SettledModel

/-- What takes the place of the lines of a model source when its enum is opened, its types are boxed
and its dates are replaced, where they are. -/
def modelLines (dates : Bool) (ls : List Line) : List Line :=
  ((openEnum ls).map boxLine).flatMap (patchDateLineIf dates)

/-- The lines that open the value of an enum. -/
def openingLines : List Line :=
  openValueField ++ ["    this.value = name;".toList]

theorem mem_openEnum (h : out ∈ openEnum ls) : out ∈ ls ∨ out ∈ openingLines := by
  have hbody : ∀ {ls : List Line}, out ∈ ls.flatMap openEnumLine → out ∈ ls ∨ out ∈ openingLines := by
    intro ls hout
    obtain ⟨line, hline, hout⟩ := List.mem_flatMap.1 hout
    rw [openEnumLine] at hout
    split at hout
    · exact .inr (List.mem_append_left _ hout)
    · split at hout
      · exact .inr (List.mem_append_right _ hout)
      · exact .inl (List.mem_singleton.1 hout ▸ hline)
  induction ls with
  | nil => exact .inl h
  | cons line rest ih =>
    rw [openEnum, List.mem_cons] at h
    rcases h with rfl | h
    · exact .inl List.mem_cons_self
    · split at h
      · exact (hbody h).imp_left (List.mem_cons_of_mem _)
      · exact (ih h).imp_left (List.mem_cons_of_mem _)

theorem isPlainLine_openEnum (h : ∀ line ∈ ls, IsPlainLine line) : ∀ line ∈ openEnum ls, IsPlainLine line := by
  intro line hline
  rcases mem_openEnum hline with hmem | hmem
  · exact h line hmem
  · have hplain : ∀ line ∈ openingLines, '\n' ∉ line ∧ '\r' ∉ line := by decide
    exact isPlainLine_of_not_mem (hplain line hmem).1 (hplain line hmem).2

theorem Endures.filterMap_patchDateLineIf {α : Type} {m : Line → Option α} (h : Endures m)
    (dates : Bool) (ls : List Line) :
    (ls.flatMap (patchDateLineIf dates)).filterMap m = ls.filterMap m := by
  cases dates with
  | false => exact congrArg (·.filterMap m) (List.flatMap_singleton' ls)
  | true => exact h.filterMap_dated ls

/-- Marks that no value of an enum has stay in the lines of a model source. -/
theorem Endures.filterMap_modelLines {α : Type} {m : Line → Option α} (h : Endures m)
    (hold : ∀ line ∈ hidingLines, m line = none) (hnew : ∀ line ∈ openingLines, m line = none)
    (dates : Bool) (ls : List Line) : (modelLines dates ls).filterMap m = ls.filterMap m := by
  rw [modelLines, h.filterMap_patchDateLineIf, h.filterMap_boxed, filterMap_openEnum hold hnew]

theorem settledModel_modelLines {dates : Bool} (h : ∀ line ∈ ls, IsPlainLine line) :
    SettledModel dates (modelLines dates ls) where
  line out hout := by
    obtain ⟨boxed, hboxed, hout⟩ := List.mem_flatMap.1 hout
    obtain ⟨line, hline, rfl⟩ := List.mem_map.1 hboxed
    exact (keepsTypes_boxLine (isPlainLine_openEnum h line hline)).of_mem_patchDateLineIf hout
  value := by
    have hmarks : (modelLines dates ls).filterMap enumMarks? = (openEnum ls).filterMap enumMarks? := by
      rw [modelLines, endures_enumMarks?.filterMap_patchDateLineIf, endures_enumMarks?.filterMap_boxed]
    rw [hidesValue_congr hmarks]
    exact not_hidesValue_openEnum ls

theorem not_joinsMark_modelLines {dates : Bool} (h : ∀ line ∈ ls, ¬JoinsMark line) :
    ∀ line ∈ modelLines dates ls, ¬JoinsMark line := by
  intro out hout hjoins
  obtain ⟨boxed, hboxed, hout⟩ := List.mem_flatMap.1 hout
  obtain ⟨line, hline, rfl⟩ := List.mem_map.1 hboxed
  have hboxed : JoinsMark (boxLine line) := by
    cases dates with
    | false => exact List.mem_singleton.1 hout ▸ hjoins
    | true => exact joinsMark_of_mem_patchDateLine hout hjoins
  have hjoins := (retyped_boxLine line).joinsMark_iff.1 hboxed
  rcases mem_openEnum hline with hmem | hmem
  · exact h line hmem hjoins
  · have hquote : ∀ line ∈ openingLines, '"' ∉ line := by decide
    exact hquote line hmem hjoins.2.mem

/-- The text of a model source when its enum is opened, its types are boxed and its dates are
replaced. -/
theorem patchDatesIf_boxPrimitives_eq {dates : Bool} {source : String}
    (h : ∀ line ∈ lines source, IsPlainLine line) :
    patchDatesIf dates (boxPrimitives (if declaresEnum source then patchEnum source else source)) =
      ofLines (modelLines dates (lines source)) := by
  have hboxed : boxPrimitives (if declaresEnum source then patchEnum source else source) =
      ofLines ((openEnum (lines source)).map boxLine) := by
    split
    · exact mapLines_ofLines (isPlainLine_openEnum h)
    · rename_i henum
      have hnone : ¬HidesValue (lines source) := by
        rw [HidesValue, dropThrough_of_any_eq_false (by simpa [declaresEnum] using henum)]
        simp
      rw [openEnum_eq_self hnone]
      rfl
  rw [hboxed, patchDatesIf_ofLines, modelLines]
  intro boxed hboxed
  obtain ⟨line, hline, rfl⟩ := List.mem_map.1 hboxed
  exact (isPlainLine_openEnum h line hline).boxLine

/-! ### Typed interfaces -/

section Discriminators

variable {source : String} {type name : List Char}

theorem mem_exchanged {literal : LiteralDiscriminator (lines source)}
    (hline : line ∈ literal.exchanged out) : line ∈ lines source ∨ line = out := by
  rw [literal.eq_exchanged]
  simp only [BodyLine.exchanged, List.mem_append, List.mem_cons] at hline ⊢
  tauto

theorem lines_patchDiscriminator (h : ∀ line ∈ lines source, IsPlainLine line)
    (literal : LiteralDiscriminator (lines source)) (htype : '\n' ∉ type) :
    lines (patchDiscriminator type name source) = literal.exchanged
      (discriminatorDeclaration type (assignedTo type name (literalValue literal.line))) := by
  rw [patchDiscriminator_of_bodyLine literal]
  refine lines_ofLines_of_plain fun line hline => ?_
  rcases mem_exchanged hline with hmem | rfl
  · exact h line hmem
  · exact ⟨newline_not_mem_discriminatorDeclaration htype, endsPlain_discriminatorDeclaration⟩

theorem isPlainLine_patchDiscriminator (h : ∀ line ∈ lines source, IsPlainLine line)
    (htype : '\n' ∉ type) :
    ∀ line ∈ lines (patchDiscriminator type name source), IsPlainLine line := by
  cases hliteral : hasDiscriminatorLiteral source with
  | false =>
    rw [patchDiscriminator, hliteral]
    exact h
  | true =>
    obtain ⟨literal⟩ := hasDiscriminatorLiteral_iff.1 hliteral
    intro line hline
    rw [lines_patchDiscriminator h literal htype] at hline
    rcases mem_exchanged hline with hmem | rfl
    · exact h line hmem
    · exact ⟨newline_not_mem_discriminatorDeclaration htype, endsPlain_discriminatorDeclaration⟩

/-- An interface that has one literal discriminator has none when it is typed. -/
theorem hasDiscriminatorLiteral_patchDiscriminator (h : ∀ line ∈ lines source, IsPlainLine line)
    (hone : (dropThrough opensInterface (lines source)).countP (startsWith discriminatorLiteral) ≤ 1)
    (hspace : ' ' ∉ type) (hnewline : '\n' ∉ type) (htype : type ≠ "String".toList) :
    hasDiscriminatorLiteral (patchDiscriminator type name source) = false := by
  cases hliteral : hasDiscriminatorLiteral source with
  | false => rw [patchDiscriminator, hliteral, if_neg Bool.false_ne_true, hliteral]
  | true =>
    obtain ⟨literal⟩ := hasDiscriminatorLiteral_iff.1 hliteral
    have hfirst := literal.line_first
    -- Behind the only literal there is no other.
    have hrest : ∀ line ∈ literal.rest, startsWith discriminatorLiteral line = false := by
      rw [literal.opening_first.dropThrough_eq, List.countP_append, List.countP_cons_of_pos hfirst.here]
        at hone
      have hnone : literal.rest.countP (startsWith discriminatorLiteral) = 0 := by omega
      simpa using List.countP_eq_zero.1 hnone
    have hdeclaration : ∀ assigned,
        startsWith discriminatorLiteral (discriminatorDeclaration type assigned) = false := by
      intro assigned
      rw [← Bool.not_eq_true]
      exact fun hstarts => discriminatorDeclaration_ne hspace htype hstarts rfl
    have hsplit : ∀ line, SplitsFirst opensInterface (literal.exchanged line) literal.ahead
        literal.opening (literal.between ++ line :: literal.rest) := fun line =>
      ⟨by simp [BodyLine.exchanged], literal.opening_first.none_before, literal.opening_first.here⟩
    rw [hasDiscriminatorLiteral, snd_splitAfter, lines_patchDiscriminator h literal hnewline,
      (hsplit _).dropThrough_eq, ← Bool.not_eq_true, List.any_eq_true]
    rintro ⟨line, hline, hstarts⟩
    rw [List.mem_append, List.mem_cons] at hline
    rcases hline with hline | rfl | hline
    · cases (hfirst.none_before line hline).symm.trans hstarts
    · cases (hdeclaration _).symm.trans hstarts
    · cases (hrest line hline).symm.trans hstarts

end Discriminators

/-! ### Classes that patches write -/

/-- A text in which neither a primitive nor the date class is named. -/
def TellsNoType (text : List Char) : Prop :=
  ∀ run ∈ words text, run ∉ oldDate :: primitives

theorem all_words_iff_tellsNoType {text : List Char} :
    ((words text).all fun run => !(oldDate :: primitives).contains run) = true ↔ TellsNoType text := by
  simp [TellsNoType]

instance (text : List Char) : Decidable (TellsNoType text) :=
  decidable_of_iff _ all_words_iff_tellsNoType

theorem tellsNoType_append_cons_iff {before after : List Char} (hc : isWordChar c = false) :
    TellsNoType (before ++ c :: after) ↔ TellsNoType before ∧ TellsNoType after := by
  rw [TellsNoType, words_append_cons hc, List.forall_mem_append]
  rfl

theorem tellsNoType_of_isWord {run : List Char} (hrun : IsWord run) (h : run ∉ oldDate :: primitives) :
    TellsNoType run := by
  rw [TellsNoType, words_of_isWord hrun]
  exact List.forall_mem_singleton.2 h

/-- A date stands between delimiters, so that its class is one of the words. -/
theorem oldDate_mem_words_of_hasDate (h : HasDate line) : oldDate ∈ words line := by
  obtain ⟨before, opening, closing, after, rfl, hopens, hcloses⟩ := h
  have hdelimiter : ∀ c, isNameChar c = false → isWordChar c = false := fun c hc => by
    rw [← Bool.not_eq_true] at hc ⊢
    exact fun hword => hc (isNameChar_of_isWordChar hword)
  have hopening : isWordChar opening = false := by
    refine hdelimiter opening ?_
    rw [← Bool.not_eq_true]
    intro hname
    cases (not_opensDate_of_isNameChar hname).symm.trans hopens
  have hclosing := hdelimiter closing (not_isNameChar_of_closesDate hcloses)
  have hdate : words oldDate = [oldDate] := words_of_isWord (by decide)
  rw [words_append_cons hopening, words_append_cons hclosing, hdate]
  simp

theorem TellsNoType.boxed {text : List Char} (h : TellsNoType text) : boxLine text = text :=
  boxLine_eq_self_iff.2 fun run hrun hmem => h run hrun (List.mem_cons_of_mem _ hmem)

theorem TellsNoType.settledText {text : List Char} (h : TellsNoType text) (hnewline : '\n' ∉ text) :
    SettledText dates text where
  newline := hnewline
  boxed := h.boxed
  date _ hdate := h _ (oldDate_mem_words_of_hasDate hdate) List.mem_cons_self

/-- How the lines begin that tell what a model source declares. -/
def markStarts : List String :=
  ["public enum", "public interface", "@JsonPropertyOrder"]

/-- A line that no patch for model sources looks for, and whose types stay. -/
structure WrittenLine (line : Line) : Prop where
  keeps : KeepsTypes True line
  unmarked : ∀ start ∈ markStarts, startsWith start line = false
  unannotated : ¬"@JsonProperty(".toList <+: trimStart line

/-- A line is told from those that the patches look for by how it begins. -/
theorem SettledText.writtenLine {other : List Char} (h : SettledText True line) (hplain : EndsPlain line)
    (hother : other <+: line) (hclash : markStarts.all (fun start => clashes start.toList other) = true)
    (hmark : ∀ c ∈ (trimStart line).head?, c ≠ '@') : WrittenLine line where
  keeps := h.keepsTypes hplain (isDatePattern_eq_false hmark)
  unmarked start hstart := by
    rw [← Bool.not_eq_true, startsWith_iff]
    exact not_prefix_of_clashes (List.all_eq_true.1 hclash start hstart) hother
  unannotated := by
    rintro ⟨rest, hrest⟩
    rw [← hrest] at hmark
    exact hmark '@' rfl rfl

namespace WrittenLine

variable (h : ∀ line ∈ ls, WrittenLine line)
include h

theorem any_startsWith_eq {start : String} (hstart : start ∈ markStarts) :
    ls.any (startsWith start) = false := by
  rw [List.any_eq_false]
  intro line hline
  rw [(h line hline).unmarked start hstart]
  exact Bool.false_ne_true

theorem settledModel (dates : Bool) : SettledModel dates ls where
  line line hline := ⟨(h line hline).keeps.plain, (h line hline).keeps.boxed,
    fun _ => (h line hline).keeps.kept trivial⟩
  value := by
    have hnone : ls.any opensEnum = false := any_startsWith_eq h (by simp [markStarts])
    rw [HidesValue, dropThrough_of_any_eq_false hnone]
    simp

theorem lines_eq : lines (ofLines ls) = ls :=
  lines_ofLines_of_plain fun line hline => (h line hline).keeps.plain

theorem declaresInterface_eq : declaresInterface (ofLines ls) = false := by
  rw [declaresInterface, lines_eq h]
  exact any_startsWith_eq h (by simp [markStarts])

theorem hasDiscriminatorLiteral_eq : hasDiscriminatorLiteral (ofLines ls) = false := by
  have hnone : ls.any opensInterface = false := any_startsWith_eq h (by simp [markStarts])
  rw [hasDiscriminatorLiteral, snd_splitAfter, lines_eq h, dropThrough_of_any_eq_false hnone]
  rfl

theorem pointLinesAtConstants_eq : pointLinesAtConstants table false ls = ls :=
  pointLinesAtConstants_eq_self fun line hline => (h line hline).unannotated

theorem orderLines_eq : orderLines ls = [] := by
  have hnone : ls.dropWhile (!opensOrder ·) = [] := by
    rw [List.dropWhile_eq_nil_iff]
    intro line hline
    rw [opensOrder, (h line hline).unmarked _ (by simp [markStarts])]
    rfl
  rw [orderLines, hnone]

end WrittenLine

/-- The segments of a package are words, and no primitives. -/
def IsPackage (package : String) : Prop :=
  ∀ segment ∈ package.toList.splitOn '.', (∀ c ∈ segment, isAsciiWordChar c) ∧ segment ∉ primitives

theorem isWordChar_of_isAsciiWordChar (h : isAsciiWordChar c = true) : isWordChar c = true := by
  rw [isAsciiWordChar] at h
  rw [isWordChar, h, Bool.true_or]

/-- Between the dots of a package there are words that boxing leaves. -/
theorem IsPackage.settled {package : String} (h : IsPackage package) :
    (∀ c ∈ package.toList, c = '.' ∨ isWordChar c = true) ∧
      boxLine package.toList = package.toList := by
  rw [IsPackage] at h
  generalize package.toList = text at h ⊢
  have hsplit : ∀ text : List Char, text.splitOn '.' = text.splitOnP (!(· != '.') ·) := fun text => by
    simp only [List.splitOn, bne, Bool.not_not]
  induction text using run_induction (· != '.') with
  | last run hrun =>
    rw [hsplit, splitOnP_of_run hrun, List.forall_mem_singleton] at h
    have hword : IsWord run := fun c hc => isWordChar_of_isAsciiWordChar (h.1 c hc)
    exact ⟨fun c hc => .inr (hword c hc), boxLine_of_not_mem_primitives hword h.2⟩
  | next run c rest hrun hc ih =>
    obtain rfl : c = '.' := by simpa using hc
    rw [hsplit, splitOnP_append_cons_of_run hrun hc, List.forall_mem_cons, ← hsplit] at h
    have hword : IsWord run := fun c hc => isWordChar_of_isAsciiWordChar (h.1.1 c hc)
    obtain ⟨hchars, hboxed⟩ := ih h.2
    refine ⟨fun c hc => ?_, (boxLine_append_cons_iff (by decide)).2
      ⟨boxLine_of_not_mem_primitives hword h.1.2, hboxed⟩⟩
    rw [List.mem_append, List.mem_cons] at hc
    rcases hc with hc | rfl | hc
    · exact .inr (hword c hc)
    · exact .inl rfl
    · exact hchars c hc

/-- The line that names a package. -/
theorem IsPackage.writtenLine {package : String} (h : IsPackage package) :
    WrittenLine ("package " ++ (package ++ ".generated.model") ++ ";").toList := by
  have hline : ("package " ++ (package ++ ".generated.model") ++ ";").toList =
      "package".toList ++ ' ' :: (package.toList ++ ".generated".toList ++ '.' :: "model;".toList) := by
    simp
  obtain ⟨hchars, hboxed⟩ := h.settled
  have hforeign : ∀ d, d ≠ '.' → isWordChar d = false → d ∉ package.toList := by
    intro d hdot hword hd
    rcases hchars d hd with rfl | hd
    · exact hdot rfl
    · cases hword.symm.trans hd
  have hend : ∀ d ∈ package.toList ++ ".generated.".toList, closesDate d = false := by
    intro d hd
    rw [← Bool.not_eq_true]
    intro hcloses
    rcases List.mem_append.1 hd with hd | hd
    · rcases hchars d hd with rfl | hd
      · exact absurd hcloses (by decide)
      · cases (not_isNameChar_of_closesDate hcloses).symm.trans (isNameChar_of_isWordChar hd)
    · have hfixed : ".generated.".toList.all (!closesDate ·) = true := by decide
      simpa [hcloses] using List.all_eq_true.1 hfixed d hd
  rw [hline]
  refine SettledText.writtenLine ⟨?_, ?_, fun _ => ?_⟩ ?_ (List.prefix_append "package".toList _)
    (by decide) (fun c hc => ?_)
  · simp [hforeign '\n' (by decide) (by decide)]
  · rw [boxLine_append_cons_iff (by decide), boxLine_append_cons_iff (by decide),
      show ".generated".toList = '.' :: "generated".toList from rfl,
      boxLine_append_cons_iff (by decide)]
    exact ⟨by decide +kernel, ⟨hboxed, by decide +kernel⟩, by decide +kernel⟩
  · -- Only blanks and the last character close a date.
    refine not_hasDate_append_space (by decide) ?_
    rw [← List.cons_append, hasDate_append_delimiter_iff (by decide), not_or]
    refine ⟨?_, replaceDates_eq_self_iff.1 (by decide)⟩
    rw [List.cons_append, List.append_assoc]
    exact not_hasDate_cons hend
  · have hsplit : "package".toList ++ ' ' ::
        (package.toList ++ ".generated".toList ++ '.' :: "model;".toList) =
          ("package".toList ++ ' ' :: (package.toList ++ ".generated.".toList)) ++ "model;".toList := by
      simp
    rw [hsplit]
    exact endsPlain_append (by decide) (by decide)
  · obtain rfl : 'p' = c := Option.some.inj hc
    decide

/-- What is checked of a line in which nothing varies. -/
def IsWritten (line : Line) : Prop :=
  ('\n' ∉ line ∧ EndsPlain line ∧ TellsNoType line ∧ isDatePattern line = false) ∧
    (∀ start ∈ markStarts, startsWith start line = false) ∧
      ¬"@JsonProperty(".toList <+: trimStart line

instance (line : Line) : Decidable (IsWritten line) :=
  inferInstanceAs (Decidable ((_ ∧ _ ∧ _ ∧ _) ∧ _ ∧ _))

theorem IsWritten.writtenLine (h : IsWritten line) : WrittenLine line where
  keeps := (h.1.2.2.1.settledText h.1.1).keepsTypes h.1.2.1 h.1.2.2.2
  unmarked := h.2.1
  unannotated := h.2.2

/-- The lines of a stream class. -/
theorem writtenLine_streamLines {package className extended : String} (h : IsPackage package)
    (hclass : TellsNoType className.toList) (hbreak : '\n' ∉ className.toList)
    (hextended : TellsNoType extended.toList) (hbreak' : '\n' ∉ extended.toList) :
    ∀ line ∈ streamLines (package ++ ".generated.model") className extended, WrittenLine line := by
  have hfixed : ∀ line ∈ fixedStreamLines, IsWritten line := by decide +kernel
  have hmark : ∀ c ∈ some 'p', c ≠ '@' := by simp
  have hends : ∀ (start : String) (rest : String), rest.toList ≠ [] → EndsPlain rest.toList →
      EndsPlain (start ++ rest).toList := fun start rest hne hplain => by
    rw [String.toList_append]
    exact endsPlain_append hne hplain
  refine forall_mem_streamLines (fun line hline => (hfixed line hline).writtenLine) h.writtenLine ?_ ?_
  · have hplain := hends ("public class " ++ className ++ " extends " ++ extended)
      " implements StreamingOutput \x7b" (by decide) (by decide)
    have hline : ("public class " ++ className ++ " extends " ++ extended ++
        " implements StreamingOutput \x7b").toList =
          "public class".toList ++ (' ' :: (className.toList ++ ' ' :: ("extends".toList ++ ' ' ::
            (extended.toList ++ ' ' :: "implements StreamingOutput \x7b".toList)))) := by
      simp
    rw [hline] at hplain ⊢
    refine (TellsNoType.settledText ?_ ?_).writtenLine hplain (List.prefix_append _ _) (by decide) hmark
    · simp only [tellsNoType_append_cons_iff (show isWordChar ' ' = false by decide)]
      exact ⟨by decide +kernel, hclass, by decide +kernel, hextended, by decide +kernel⟩
    · simp [hbreak, hbreak']
  · have hplain := hends ("  public " ++ className) "(Consumer<OutputStream> streamer) \x7b"
      (by decide) (by decide)
    have hline : ("  public " ++ className ++ "(Consumer<OutputStream> streamer) \x7b").toList =
        "  public".toList ++ (' ' :: (className.toList ++
          '(' :: "Consumer<OutputStream> streamer) \x7b".toList)) := by
      simp
    rw [hline] at hplain ⊢
    refine (TellsNoType.settledText ?_ ?_).writtenLine hplain (List.prefix_append _ _) (by decide) hmark
    · rw [tellsNoType_append_cons_iff (by decide), tellsNoType_append_cons_iff (by decide)]
      exact ⟨by decide +kernel, hclass, by decide +kernel⟩
    · simp [hbreak]

/-- Quotes stand in no type. -/
theorem SettledText.append_quote {before after : List Char} (hbefore : SettledText dates before)
    (hafter : SettledText dates after) : SettledText dates (before ++ '"' :: after) where
  newline := by
    rw [List.mem_append, List.mem_cons, not_or, not_or]
    exact ⟨hbefore.newline, by decide, hafter.newline⟩
  boxed := (boxLine_append_cons_iff (by decide)).2 ⟨hbefore.boxed, hafter.boxed⟩
  date hdates := by
    rw [hasDate_append_foreign_iff (by decide) (by decide), not_or]
    exact ⟨hbefore.date hdates, hafter.date hdates⟩

theorem writtenLine_jsonFieldLine {value name : List Char} (hcapital : IsCapital name) (hne : name ≠ [])
    (hvalue : SettledText True value) : WrittenLine (jsonFieldLine value name) := by
  have hline : jsonFieldLine value name = ("  public static final String".toList ++ ' ' :: (name ++
      ' ' :: "= ".toList)) ++ '"' :: (value ++ '"' :: [';']) := by
    have hopening : "  public static final String ".toList =
        "  public static final String".toList ++ [' '] := by decide
    refine (declaration_eq "  public static final String ".toList name value).trans ?_
    simp only [hopening]
    simp
  have hword : IsWord name := fun c hc => hcapital.isWordChar hc
  have hname : name ∉ oldDate :: primitives := by
    rw [List.mem_cons, not_or]
    refine ⟨?_, not_mem_primitives_of_isCapital hcapital hne List.prefix_rfl⟩
    intro heq
    have hmem : 'a' ∈ name := heq ▸ (show 'a' ∈ oldDate by decide)
    exact hcapital.not_isLower hmem (by decide)
  have hopening : TellsNoType ("  public static final String".toList ++ ' ' :: (name ++
      ' ' :: "= ".toList)) := by
    rw [tellsNoType_append_cons_iff (by decide), tellsNoType_append_cons_iff (by decide)]
    exact ⟨by decide +kernel, tellsNoType_of_isWord hword hname, by decide +kernel⟩
  have hbreak : '\n' ∉ name := fun hmem => absurd (hword _ hmem) (by decide)
  have hend : SettledText True [';'] :=
    TellsNoType.settledText (by decide +kernel) (by decide)
  have hplain := endsPlain_jsonFieldLine value name
  rw [hline] at hplain ⊢
  refine ((hopening.settledText (by simp [hbreak])).append_quote (hvalue.append_quote hend)).writtenLine
    hplain ?_ (show markStarts.all (fun start => clashes start.toList "  ".toList) = true by decide) ?_
  · exact ⟨_, rfl⟩
  · have hmark : ∀ c ∈ some 'p', c ≠ '@' := by simp
    exact hmark

/-- The lines of the class of constants. -/
theorem writtenLine_classLines {package : String} (h : IsPackage package) (htable : IsTable table)
    (hvalues : ∀ entry ∈ table.entries, SettledText True entry.1) :
    ∀ line ∈ classLines (package ++ ".generated.model") table, WrittenLine line := by
  have hfixed : ∀ line ∈ [[], ("public final class " ++ jsonFieldClassName ++ " \x7b").toList, ['\x7d']],
      IsWritten line := by decide +kernel
  intro line hline
  rw [classLines, classHead, List.append_assoc, List.cons_append, List.mem_cons, List.mem_append,
    List.mem_append] at hline
  rcases hline with rfl | hline | hline | hline
  · exact h.writtenLine
  · exact (hfixed line (by simp at hline ⊢; tauto)).writtenLine
  · obtain ⟨⟨value, name⟩, hentry, rfl⟩ := List.mem_map.1 hline
    obtain ⟨hcapital, hne⟩ := htable _ hentry
    exact writtenLine_jsonFieldLine hcapital hne (hvalues _ hentry)
  · exact (hfixed line (by simp at hline ⊢; tauto)).writtenLine

end RamlBuild
