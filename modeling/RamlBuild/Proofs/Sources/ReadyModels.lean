import RamlBuild.Proofs.Sources.SettledModels
import RamlBuild.Proofs.Sources.SharedTables

/-!
# Models that are ready for constants

Before its annotations are pointed at constants, a model source has nothing left to do for the other
patches, and it stays so when it is pointed at any constants. Nor do these change of which properties
it lists the order. All this holds of the lines that the patches for values, types and dates leave
where the list of properties is closed before any annotation, and of the classes that patches write.

## Main definitions

* `TellsOrder` — lines of a model source whose order of properties can be told again
* `ReadyModel` — lines of a model source that are ready for constants

## Main results

* `readyModel_modelLines`, `readyModel_of_writtenLine` — which lines are ready
* `TellsOrder.patchDiscriminator` — typing a discriminator leaves the order of properties
-/

namespace RamlBuild

open Text

variable {line : Line} {ls : List Line} {dates : Bool} {table : ConstantTable} {value : List Char}

/-- The lines of a model source whose order of properties can be told again: the list is closed before
any annotation, and there is none where dates are left. -/
structure TellsOrder (dates : Bool) (ls : List Line) : Prop where
  plain : ∀ line ∈ ls, IsPlainLine line
  unjoined : dates = true → ∀ line ∈ ls, ¬JoinsMark line
  closes : OrderCloses ls
  unordered : dates = false → ls.any opensOrder = false

/-- The lines of a model source on which the patches before the one for constants have nothing left to
do, also when they are pointed at constants. -/
structure ReadyModel (dates : Bool) (ls : List Line) : Prop where
  settled : SettledModel dates ls
  pointed : ∀ table, IsTable table → SettledModel dates (pointLinesAtConstants table false ls)
  order_pointed : ∀ table, orderLines (pointLinesAtConstants table false ls) = orderLines ls
  property : ∀ value ∈ (orderLines ls).flatMap propertyNames, SettledText True value

/-! ### Properties that are listed -/

/-- A literal stands between two quotes. -/
theorem exists_of_mem_literals {text : List Char} (h : value ∈ literals text) :
    ∃ before after, text = before ++ '"' :: (value ++ '"' :: after) := by
  fun_induction literals text with
  | case1 => cases h
  | case2 rest found after hclose _ ih =>
    rw [eq_append_of_closeLiteral hclose]
    rcases List.mem_cons.1 h with rfl | h
    · exact ⟨[], after, rfl⟩
    · obtain ⟨before, after', rfl⟩ := ih h
      exact ⟨'"' :: (found ++ '"' :: before), after', by simp⟩
  | case3 rest _ ih =>
    obtain ⟨before, after, rfl⟩ := ih h
    exact ⟨'"' :: before, after, rfl⟩
  | case4 c rest _ ih =>
    obtain ⟨before, after, rfl⟩ := ih h
    exact ⟨c :: before, after, rfl⟩

/-- So it is settled when its line is. -/
theorem settledText_of_mem_propertyNames {dates : Prop} (h : SettledText dates line)
    (hvalue : value ∈ propertyNames line) : SettledText dates value := by
  have hquote : isWordChar '"' = false := by decide
  obtain ⟨before, after, rfl⟩ := exists_of_mem_literals (List.mem_filter.1 hvalue).1
  exact ((h.of_append_cons hquote).2.of_append_cons hquote).1

theorem mem_of_mem_orderLines (h : line ∈ orderLines ls) : line ∈ ls := by
  unfold orderLines at h
  split at h
  · cases h
  · rename_i first rest heq
    have hsub : first :: rest ⊆ ls := heq ▸ (List.dropWhile_suffix _).subset
    rcases List.mem_cons.1 h with rfl | h
    · exact hsub List.mem_cons_self
    · split at h
      · cases h
      · exact hsub (List.mem_cons_of_mem _ ((List.takeWhile_prefix _).subset h))

theorem orderLines_eq_nil (h : ls.any opensOrder = false) : orderLines ls = [] := by
  have hnone : ls.dropWhile (!opensOrder ·) = [] :=
    List.dropWhile_eq_nil_iff.2 fun line hline => by
      simpa using List.any_eq_false.1 h line hline
  rw [orderLines, hnone]

/-! ### Lines that are ready -/

/-- Marks of annotations stay where a line that annotates nothing is exchanged for another one. -/
theorem orderMarks?_modelLines (dates : Bool) (ls : List Line) :
    (modelLines dates ls).filterMap orderMarks? = ls.filterMap orderMarks? :=
  endures_orderMarks?.filterMap_modelLines (by decide) (by decide) dates ls

theorem any_opensOrder_congr {ls' : List Line}
    (h : ls'.filterMap orderMarks? = ls.filterMap orderMarks?) :
    ls'.any opensOrder = ls.any opensOrder := by
  have hopens : ∀ line, opensOrder line = (orderMarks? line).any (·.opens) := fun line =>
    (any_orderMarks? (q := (·.opens)) rfl line).symm
  rw [← any_filterMap hopens, ← any_filterMap hopens, h]

/-- The lines that the patches before the one for constants leave. -/
theorem readyModel_modelLines (h : TellsOrder dates ls) : ReadyModel dates (modelLines dates ls) := by
  have hsettled : SettledModel dates (modelLines dates ls) := settledModel_modelLines h.plain
  have hmarks := orderMarks?_modelLines dates ls
  refine ⟨hsettled, fun table htable => hsettled.pointed htable fun hdates =>
    not_joinsMark_modelLines (h.unjoined hdates), fun table =>
    orderLines_pointLinesAtConstants ((orderCloses_congr hmarks).2 h.closes), ?_⟩
  intro value hmem
  obtain ⟨line, hline, hvalue⟩ := List.mem_flatMap.1 hmem
  cases dates with
  | true =>
    have htext : SettledText True line := by
      have hkeeps := (hsettled.line line (mem_of_mem_orderLines hline)).text
      rwa [eq_true rfl] at hkeeps
    exact settledText_of_mem_propertyNames htext hvalue
  | false =>
    rw [orderLines_eq_nil ((any_opensOrder_congr hmarks).trans (h.unordered rfl))] at hline
    cases hline

/-- The lines of a class that a patch writes. -/
theorem readyModel_of_writtenLine (h : ∀ line ∈ ls, WrittenLine line) : ReadyModel dates ls where
  settled := WrittenLine.settledModel h dates
  pointed table _ := by
    rw [WrittenLine.pointLinesAtConstants_eq h]
    exact WrittenLine.settledModel h dates
  order_pointed table := by rw [WrittenLine.pointLinesAtConstants_eq h]
  property value hvalue := by
    rw [WrittenLine.orderLines_eq h] at hvalue
    cases hvalue

/-! ### Typed interfaces -/

section Discriminators

variable {source : String} {type name assigned : List Char}

/-- What a declaration begins with, its blanks aside, its type begins with. -/
theorem prefix_trimStart_discriminatorDeclaration {start : List Char}
    (hstart : start.all (!isBlank ·) = true) (hhead : start.head?.any (· ≠ '_') = true)
    (h : start <+: trimStart (discriminatorDeclaration type assigned)) : start <+: trimStart type := by
  have hspace : ' ' ∉ start := fun hmem =>
    absurd (List.all_eq_true.1 hstart ' ' hmem) (by decide)
  have hindent : ∀ c ∈ "  ".toList, isBlank c = true := List.all_eq_true.1 (by decide)
  obtain ⟨rest, hline⟩ : ∃ rest, trimStart (discriminatorDeclaration type assigned) =
      trimStart (type ++ ' ' :: '_' :: rest) := by
    refine ⟨"DISCRIMINATOR_TYPE_NAME = ".toList ++ assigned ++ [';'], ?_⟩
    rw [discriminatorDeclaration, List.append_assoc, List.append_assoc, List.append_assoc,
      List.append_assoc, trimStart, List.dropWhile_append_of_pos hindent]
    rfl
  obtain ⟨blanks, hblanks, htype⟩ := exists_blank_trimStart type
  rw [hline] at h
  cases htrim : trimStart type with
  | nil =>
    -- Where the type is blank, what follows it is no such start.
    rw [htrim, List.append_nil] at htype
    rw [htype, trimStart, List.dropWhile_append_of_pos hblanks] at h
    cases start with
    | nil => cases hhead
    | cons c start =>
      obtain rfl := (List.cons_prefix_cons.1 h).1
      cases hhead
  | cons c word =>
    have hc : isBlank c = false := by
      have hhead := List.head?_dropWhile_not isBlank type
      rw [show type.dropWhile isBlank = c :: word from htrim] at hhead
      simpa using hhead
    rw [htype, htrim, List.append_assoc, List.cons_append, trimStart_append hblanks hc] at h
    have hword : c :: word ++ [' '] <+: c :: (word ++ ' ' :: '_' :: rest) := ⟨'_' :: rest, by simp⟩
    rcases List.prefix_or_prefix_of_prefix h hword with hshort | hlong
    · rcases List.prefix_concat_iff.1 hshort with rfl | hbegins
      · exact absurd (by simp) hspace
      · exact hbegins
    · exact absurd (hlong.subset (by simp)) hspace

/-- A line of a body has no mark of an order when its type is no annotation of a property. -/
theorem orderMarks?_discriminatorDeclaration (htype : ¬"@JsonProperty(".toList <+: trimStart type) :
    orderMarks? (discriminatorDeclaration type assigned) = none := by
  have hannotates : annotatesProperty (discriminatorDeclaration type assigned) = false := by
    rw [← Bool.not_eq_true]
    intro hannotates
    obtain ⟨blanks, rest, hblanks, hline⟩ := annotatesProperty_iff.1 hannotates
    have hstarts : "@JsonProperty(".toList <+: trimStart (discriminatorDeclaration type assigned) := by
      have hat : isBlank '@' = false := by decide
      rw [hline, List.append_assoc]
      exact ⟨rest, (trimStart_append hblanks hat).symm⟩
    exact htype (prefix_trimStart_discriminatorDeclaration (by decide) (by decide) hstarts)
  rw [orderMarks?, hannotates]
  rfl

theorem JoinsDate.of_assignedTo (h : JoinsDate (assignedTo type name value ++ [';'])) :
    JoinsDate (type ++ [' ']) := by
  rw [assignedTo] at h
  split at h
  · exact absurd h.mem (by decide)
  · rw [List.append_assoc, List.cons_append] at h
    rcases h.of_append_cons (by decide) with htype | hvalue
    · obtain ⟨d, hd, hwithin⟩ := htype
      have hdot : '.' ∉ '"' :: ("ate".toList ++ [d]) := by
        rintro hmem
        have hdot : '.' = d := by simpa using hmem
        rw [← hdot] at hd
        exact absurd hd (by decide)
      have hpart := ((infix_append_cons_iff hdot).1 hwithin).resolve_right (by simp)
      exact ⟨d, hd, hpart.trans (List.prefix_append _ _).isInfix⟩
    · have hmem := hvalue.mem
      simp only [List.mem_append, List.mem_map, List.mem_filter] at hmem
      rcases hmem with ⟨d, ⟨-, hd⟩, hupper⟩ | hmem
      · have halnum := isAlphanum_toUpper hd
        rw [hupper] at halnum
        exact absurd halnum (by decide)
      · exact absurd hmem (by decide)

/-- Where a declaration joins a date, its type does. -/
theorem JoinsDate.of_discriminatorDeclaration
    (h : JoinsDate (discriminatorDeclaration type (assignedTo type name value))) :
    JoinsDate (type ++ [' ']) := by
  have hindent : discriminatorDeclaration type (assignedTo type name value) =
      [' '] ++ ' ' :: (type ++ ' ' :: ("_DISCRIMINATOR_TYPE_NAME =".toList ++
        ' ' :: (assignedTo type name value ++ [';']))) := by
    simp [discriminatorDeclaration]
  rw [hindent] at h
  rcases h.of_append_cons (by decide) with hblank | h
  · exact absurd hblank.mem (by decide)
  · rcases h.of_append_cons (by decide) with htype | h
    · exact htype
    · rcases h.of_append_cons (by decide) with hname | h
      · exact absurd hname.mem (by decide)
      · exact h.of_assignedTo

/-- Typing a discriminator leaves the order of properties, if its type is no annotation of a property
and joins no date. -/
theorem TellsOrder.patchDiscriminator (h : TellsOrder dates (lines source))
    (hunannotated : ¬"@JsonProperty(".toList <+: trimStart type)
    (hunjoined : ¬JoinsMark (type ++ [' '])) (hnewline : '\n' ∉ type) :
    TellsOrder dates (lines (patchDiscriminator type name source)) := by
  cases hliteral : hasDiscriminatorLiteral source with
  | false =>
    rw [RamlBuild.patchDiscriminator, hliteral]
    exact h
  | true =>
    obtain ⟨literal⟩ := hasDiscriminatorLiteral_iff.1 hliteral
    have hold : orderMarks? literal.line = none := by
      have hstarts := trimStart_mono (by decide) (startsWith_iff.1 literal.line_first.here)
      exact orderMarks?_eq_none hstarts (by decide)
    have hnew : orderMarks? (discriminatorDeclaration type
        (assignedTo type name (literalValue literal.line))) = none :=
      orderMarks?_discriminatorDeclaration hunannotated
    have hmarks : (lines (RamlBuild.patchDiscriminator type name source)).filterMap orderMarks? =
        (lines source).filterMap orderMarks? := by
      conv_rhs => rw [literal.eq_exchanged]
      rw [lines_patchDiscriminator h.plain literal hnewline]
      simp only [BodyLine.exchanged, List.filterMap_append, List.filterMap_cons, hold, hnew]
    refine ⟨isPlainLine_patchDiscriminator h.plain hnewline, fun hdates line hline => ?_,
      (orderCloses_congr hmarks).2 h.closes, fun hdates =>
        (any_opensOrder_congr hmarks).trans (h.unordered hdates)⟩
    rw [lines_patchDiscriminator h.plain literal hnewline] at hline
    rcases mem_exchanged hline with hmem | rfl
    · exact h.unjoined hdates line hmem
    · rintro ⟨hbegins, hjoins⟩
      have hhere : ∀ {start : List Char}, start.all (!isBlank ·) = true →
          start.head?.any (· ≠ '_') = true →
          start <+: trimStart (discriminatorDeclaration type
            (assignedTo type name (literalValue literal.line))) →
          start <+: trimStart (type ++ [' ']) := by
        intro start hstart hhead hbegins
        have htype := prefix_trimStart_discriminatorDeclaration hstart hhead hbegins
        refine htype.trans (trimStart_mono (fun hnil => ?_) (List.prefix_append _ _))
        rw [hnil, List.prefix_nil] at htype
        rw [htype] at hhead
        cases hhead
      exact hunjoined ⟨hbegins.imp (hhere (by decide) (by decide)) (hhere (by decide) (by decide)),
        hjoins.of_discriminatorDeclaration⟩

end Discriminators

/-! ### Discriminators of sources that point at constants -/

theorem typingMarks?_modelLines (dates : Bool) (ls : List Line) :
    (modelLines dates ls).filterMap typingMarks? = ls.filterMap typingMarks? :=
  endures_typingMarks?.filterMap_modelLines (by decide) (by decide) dates ls

theorem typingMarks?_pointLinesAtConstants (ls : List Line) :
    (pointLinesAtConstants table false ls).filterMap typingMarks? = ls.filterMap typingMarks? :=
  filterMap_pointLinesAtConstants (fun hstarts => typingMarks?_eq_none hstarts (by decide))
    (fun hstarts => typingMarks?_eq_none hstarts (by decide)) ls

end RamlBuild
