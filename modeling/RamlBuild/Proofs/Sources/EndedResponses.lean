import RamlBuild.Proofs.Sources.SettledModels

/-!
# Response classes that stay ended

A response class is ended by a line of its own or by a public member. Other types in the lines change
neither, unless the class itself has the name of a type that is exchanged. So where the response classes
of a resource have other names, they are ended before one another also when its primitives are boxed and
its dates replaced.

## Main definitions

* `exchangedTypes` — the names of types that boxing and the replacement of dates exchange

## Main results

* `ResponsesClose.exchanged` — response classes are ended with other types in their lines
-/

namespace RamlBuild

open Text

variable {cls : ResponseClass} {line line' out header : Line} {ls : List Line} {name name' : List Char}
  {dates : Bool}

/-- The names of types that are exchanged, those that go and those that come. -/
def exchangedTypes : List (List Char) :=
  exchangedRuns boxedTypes ++ exchangedRuns datePairs

/-! ### Headers -/

/-- A word with a delimiter behind it begins no type that is exchanged, if it is none. -/
theorem untyped_concat {c : Char} (hword : ∀ d ∈ name, isWordChar d) (hname : name ∉ exchangedTypes)
    (hc : isWordChar c = false) (hc' : isNameChar c = false) : Untyped (name ++ [c]) := by
  rw [exchangedTypes, List.mem_append, not_or] at hname
  have hstart : ∀ {p : Char → Bool} {pairs : List (List Char × List Char)}, (∀ d ∈ name, p d) →
      p c = false → name ∉ exchangedRuns pairs → KeepsStart p pairs (name ++ [c]) := by
    intro p pairs hrun hc hname
    rw [KeepsStart, splitOnP_append_cons_of_run hrun hc]
    simpa using hname
  exact ⟨hstart hword hc hname.1,
    hstart (fun d hd => isNameChar_of_isWordChar (hword d hd)) hc' hname.2⟩

/-- What a word is exchanged for is a word. -/
theorem Retyped.isWord (h : Retyped name name') (hne : name ≠ []) (hname : IsWord name) :
    name' ≠ [] ∧ IsWord name' := by
  have hnew : ∀ pair ∈ boxedTypes ++ datePairs,
      (pair.1 ≠ [] ∧ IsWord pair.1) ∧ pair.2 ≠ [] ∧ IsWord pair.2 := by
    decide +kernel
  have hswaps : ∀ {pairs}, pairs ⊆ boxedTypes ++ datePairs → SwapsRun pairs name name' →
      name' ≠ [] ∧ IsWord name' := by
    rintro pairs hpairs (rfl | hpair | hpair)
    · exact ⟨hne, hname⟩
    · exact (hnew _ (hpairs hpair)).2
    · exact (hnew _ (hpairs hpair)).1
  rcases h with h | h
  · exact hswaps (List.subset_append_left _ _) (h.of_run hname).2
  · exact hswaps (List.subset_append_right _ _)
      (h.of_run fun c hc => isNameChar_of_isWordChar (hname c hc)).2

/-- The parts of a header. -/
theorem ResponseClass.IsHeader.eq_parts (h : cls.IsHeader header) :
    header = (cls.indent ++ "class".toList) ++
      ' ' :: (cls.name ++ ' ' :: "extends ResponseDelegate \x7b".toList) := by
  rw [h.eq]
  simp

/-- A line that opens a class opened one with other types too. -/
theorem Retyped.exists_isHeader (h : Retyped line line') (hheader : cls.IsHeader line') :
    ∃ other : ResponseClass, other.IsHeader line := by
  have hspace : isWordChar ' ' = false ∧ isNameChar ' ' = false := by decide
  have h := h.symm
  rw [hheader.eq_parts] at h
  obtain ⟨start, rest, rfl, hstart, hrest⟩ := h.of_append_cons hspace.1 hspace.2
  obtain ⟨other, tail, rfl, hother, htail⟩ := hrest.of_append_cons hspace.1 hspace.2
  have hending : UntypedText "extends ResponseDelegate \x7b".toList := by
    unfold UntypedText Keeps
    decide
  obtain rfl := hstart.eq_of_untypedText (untypedText_of_blank hheader.blank_indent (by decide))
  obtain rfl := htail.eq_of_untypedText hending
  have hword := hother.isWord hheader.name_ne_nil hheader.name
  exact ⟨⟨cls.indent, other⟩, hheader.indent_ne_nil, hheader.indent, hword.1, hword.2, by simp⟩

/-- The header of a class whose name is no type that is exchanged tells no type. -/
theorem ResponseClass.IsHeader.tellsNoType (h : cls.IsHeader header) (hname : cls.name ∉ exchangedTypes) :
    TellsNoType header := by
  have hspace : isWordChar ' ' = false := by decide
  have hstays : cls.name ∉ oldDate :: primitives := fun hmem => hname <| by
    have htypes : oldDate :: primitives ⊆ exchangedTypes := by decide
    exact htypes hmem
  rw [h.eq_parts, tellsNoType_append_cons_iff hspace, tellsNoType_append_cons_iff hspace]
  refine ⟨fun run hrun => ?_, tellsNoType_of_isWord h.name hstays, by decide⟩
  have hclass : TellsNoType "class".toList := by decide
  rcases words_append_of_blank h.blank_indent hrun with rfl | hrun
  · decide
  · exact hclass run hrun

/-! ### Ends -/

/-- What stands behind blanks and `public` stays behind them with other types. -/
theorem Retyped.of_public {blanks rest : Line} (hblanks : Blank blanks)
    (h : Retyped (blanks ++ ("public ".toList ++ rest)) line') :
    ∃ rest', line' = blanks ++ ("public ".toList ++ rest') ∧ Retyped rest rest' := by
  have hline : blanks ++ ("public ".toList ++ rest) = (blanks ++ "public".toList) ++ ' ' :: rest := by
    simp
  rw [hline] at h
  obtain ⟨start, rest', rfl, hstart, hrest⟩ := h.of_append_cons (by decide) (by decide)
  obtain rfl := hstart.eq_of_untypedText (untypedText_of_blank hblanks (by decide))
  exact ⟨rest', by simp, hrest⟩

theorem Retyped.of_replicate_public {member : Line} (n : Nat)
    (h : Retyped ((List.replicate n "public ".toList).flatten ++ member) line') :
    ∃ member', line' = (List.replicate n "public ".toList).flatten ++ member' ∧
      Retyped member member' := by
  induction n generalizing line' with
  | zero => exact ⟨line', rfl, h⟩
  | succ n ih =>
    rw [List.replicate_succ, List.flatten_cons] at h ⊢
    rw [List.append_assoc] at h
    obtain ⟨rest, rfl, hrest⟩ := Retyped.of_public (show Blank [] by simp [Blank]) h
    obtain ⟨member', rfl, hmember⟩ := ih hrest
    exact ⟨member', by simp, hmember⟩

/-- A line that ends the constructors of a class ends them with other types too. -/
theorem Retyped.isEnd (h : Retyped line line') (hheader : cls.IsHeader header)
    (hname : cls.name ∉ exchangedTypes) (hend : cls.IsEnd line) : cls.IsEnd line' := by
  rcases hend with rfl | ⟨blanks, n, member, hblanks, rfl, hpublic, hconstructor⟩
  · exact .inl (h.eq_of_untypedText (untypedText_of_blank hheader.blank_indent (by decide)))
  · rw [List.replicate_succ, List.flatten_cons, List.append_assoc, List.append_assoc] at h
    obtain ⟨rest, rfl, hrest⟩ := h.of_public hblanks
    obtain ⟨member', rfl, hmember⟩ := hrest.of_replicate_public n
    refine .inr ⟨blanks, n, member', hblanks, by simp [List.replicate_succ], ?_, ?_⟩
    · have hstart : Untyped "public ".toList := by
        unfold Untyped KeepsStart
        decide
      rwa [hmember.prefix_iff hstart]
    · rwa [hmember.prefix_iff (untyped_concat hheader.name hname (by decide) (by decide))]

/-- Such a line is that of a member. -/
theorem ResponseClass.IsEnd.isMember (h : cls.IsEnd line) (hheader : cls.IsHeader header) :
    IsMember line := by
  rcases h with rfl | ⟨blanks, n, member, hblanks, rfl, -, -⟩
  · intro c hc
    rw [trimStart_append hheader.blank_indent (by decide)] at hc
    obtain rfl := Option.some.inj hc
    decide
  · intro c hc
    rw [List.replicate_succ, List.flatten_cons, List.append_assoc, List.append_assoc] at hc
    have htrim : trimStart (blanks ++ ("public ".toList ++
        ((List.replicate n "public ".toList).flatten ++ member))) = 'p' :: ("ublic ".toList ++
          ((List.replicate n "public ".toList).flatten ++ member)) :=
      trimStart_append hblanks (by decide)
    rw [htrim] at hc
    obtain rfl := Option.some.inj hc
    decide

/-! ### Whole resources -/

/-- The line that takes the place of a line when its types are exchanged, if any does. -/
theorem IsMember.patchDateLineIf_eq (h : IsMember line) (dates : Bool) :
    patchDateLineIf dates line = [line] ∨ patchDateLineIf dates line = [replaceDates line] := by
  cases dates with
  | false => exact .inl rfl
  | true =>
    refine .inr ?_
    rw [patchDateLineIf, if_pos rfl, patchDateLine, if_neg, if_neg (by simp [h.isDatePattern])]
    rintro rfl
    exact h.not_import (by decide)

theorem ResponseClass.IsEnd.exists_exchanged (h : cls.IsEnd line) (hheader : cls.IsHeader header)
    (hname : cls.name ∉ exchangedTypes) (dates : Bool) :
    ∃ out, patchDateLineIf dates (boxLine line) = [out] ∧ cls.IsEnd out := by
  have hboxed := (retyped_boxLine line).isEnd hheader hname h
  rcases (hboxed.isMember hheader).patchDateLineIf_eq dates with heq | heq
  · exact ⟨_, heq, hboxed⟩
  · exact ⟨_, heq, (retyped_replaceDates _).isEnd hheader hname hboxed⟩

/-- The header of a class whose name is no type that is exchanged stays. -/
theorem ResponseClass.IsHeader.exchanged (h : cls.IsHeader line) (hname : cls.name ∉ exchangedTypes)
    (dates : Bool) : patchDateLineIf dates (boxLine line) = [line] := by
  have htypes := h.tellsNoType hname
  rw [htypes.boxed]
  cases dates with
  | false => rfl
  | true =>
    refine patchDateLine_eq_self_iff.2 ⟨isDatePattern_eq_false fun c hc => ?_, fun hdate =>
      htypes _ (oldDate_mem_words_of_hasDate hdate) List.mem_cons_self⟩
    rw [h.trimStart_eq] at hc
    obtain rfl := Option.some.inj hc
    decide

/-- A line that opens a class where types were exchanged opened one before. -/
theorem exists_isHeader_of_mem (hout : out ∈ patchDateLineIf dates (boxLine line))
    (hheader : cls.IsHeader out) : ∃ other : ResponseClass, other.IsHeader line := by
  have hboxed : ∃ other : ResponseClass, other.IsHeader (boxLine line) := by
    cases dates with
    | false => exact ⟨cls, List.mem_singleton.1 hout ▸ hheader⟩
    | true =>
      rw [patchDateLineIf, if_pos rfl, patchDateLine] at hout
      split at hout
      · have himport : ¬cls.IsHeader "import java.time.OffsetDateTime;".toList :=
          ResponseClass.not_isHeader_of_trimStart rfl (by decide)
        exact absurd (List.mem_singleton.1 hout ▸ hheader) himport
      · split at hout
        · cases hout
        · exact (retyped_replaceDates _).exists_isHeader (List.mem_singleton.1 hout ▸ hheader)
  obtain ⟨other, hother⟩ := hboxed
  exact (retyped_boxLine line).exists_isHeader hother

theorem EndsAhead.append {front : List Line} (h : EndsAhead cls ls)
    (hfront : ∀ line ∈ front, ∀ other : ResponseClass, ¬other.IsHeader line) :
    EndsAhead cls (front ++ ls) := by
  obtain ⟨body, last, behind, rfl, hlast, hbody⟩ := h
  refine ⟨front ++ body, last, behind, (List.append_assoc ..).symm, hlast, fun line hline => ?_⟩
  exact (List.mem_append.1 hline).elim (hfront line) (hbody line)

theorem ResponsesClose.append {front : List Line} (h : ResponsesClose ls)
    (hfront : ∀ line ∈ front, ∀ other : ResponseClass, ¬other.IsHeader line) :
    ResponsesClose (front ++ ls) := by
  induction front with
  | nil => exact h
  | cons line rest ih =>
    refine responsesClose_cons.2 ⟨fun cls hcls => ?_, ih fun other hother =>
      hfront other (List.mem_cons_of_mem _ hother)⟩
    exact absurd hcls (hfront line List.mem_cons_self cls)

/-- The lines of a resource with other types. -/
def exchangedLines (dates : Bool) (ls : List Line) : List Line :=
  (ls.map boxLine).flatMap (patchDateLineIf dates)

theorem exchangedLines_cons (line : Line) (ls : List Line) :
    exchangedLines dates (line :: ls) = patchDateLineIf dates (boxLine line) ++ exchangedLines dates ls :=
  rfl

section Names

variable (hnames : ∀ line ∈ ls, ∀ other : ResponseClass, other.IsHeader line →
  other.name ∉ exchangedTypes)
include hnames

theorem EndsAhead.exchanged (hheader : cls.IsHeader header) (hname : cls.name ∉ exchangedTypes)
    (dates : Bool) (h : EndsAhead cls ls) : EndsAhead cls (exchangedLines dates ls) := by
  induction ls with
  | nil =>
    obtain ⟨body, last, behind, heq, -⟩ := h
    cases body <;> cases heq
  | cons line rest ih =>
    rw [exchangedLines_cons]
    rcases endsAhead_cons.1 h with hend | ⟨hplain, hrest⟩
    · obtain ⟨out, hout, hend⟩ := hend.exists_exchanged hheader hname dates
      rw [hout]
      exact endsAhead_cons.2 (.inl hend)
    · refine (ih (fun other hother => hnames other (List.mem_cons_of_mem _ hother)) hrest).append
        fun out hout other hother => ?_
      obtain ⟨other, hother⟩ := exists_isHeader_of_mem hout hother
      exact hplain other hother

/-- Where no response class has the name of a type that is exchanged, response classes are ended before
one another with other types in their lines. -/
theorem ResponsesClose.exchanged (dates : Bool) (h : ResponsesClose ls) :
    ResponsesClose (exchangedLines dates ls) := by
  induction ls with
  | nil => exact h
  | cons line rest ih =>
    obtain ⟨hends, hrest⟩ := responsesClose_cons.1 h
    have hothers : ∀ line ∈ rest, ∀ other : ResponseClass, other.IsHeader line →
        other.name ∉ exchangedTypes := fun other hother => hnames other (List.mem_cons_of_mem _ hother)
    have hih := ih hothers hrest
    rw [exchangedLines_cons]
    by_cases hheader : ∃ cls : ResponseClass, cls.IsHeader line
    · obtain ⟨cls, hcls⟩ := hheader
      rw [hcls.exchanged (hnames line List.mem_cons_self cls hcls) dates]
      refine responsesClose_cons.2 ⟨fun other hother => ?_, hih⟩
      exact (hends other hother).exchanged hothers hother (hnames line List.mem_cons_self other hother)
        dates
    · exact hih.append fun out hout other hother => hheader (exists_isHeader_of_mem hout hother)

end Names

end RamlBuild
