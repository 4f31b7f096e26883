import RamlBuild.Proofs.Sources.ConstantTable
import RamlBuild.Proofs.Sources.Retyped

/-!
# Lines whose types are settled

A line that was boxed has nothing left to box, and a line that the replacement of dates leaves has no
date left. Both stay so when the other patch works on them, so that after both of them each line is
settled.

## Main results

* `patchDateLine_eq_self_iff` — the lines that the replacement of dates leaves
* `patchDateLine_of_mem`, `boxLine_of_mem_patchDateLine` — what takes the place of a line is settled
-/

namespace RamlBuild

open Text

variable {line line' out before after text blanks : Line} {ls : List Line} {c : Char}
  {name : List Char}

/-- Whether a line annotates a pattern does not depend on its types. -/
theorem Retyped.isDatePattern_eq (h : Retyped line line') : isDatePattern line' = isDatePattern line := by
  have hforth : ∀ {line line' : Line}, Retyped line line' → isDatePattern line = true →
      isDatePattern line' = true := by
    intro line line' h hpattern
    obtain ⟨⟨blanks, hblanks, hstart⟩, hwithin⟩ := isDatePattern_iff.1 hpattern
    refine isDatePattern_iff.2 ⟨⟨blanks, hblanks, ?_⟩, ?_⟩
    · obtain ⟨rest, rfl⟩ := hstart
      rw [List.append_assoc, List.singleton_append] at h
      obtain ⟨first, rest', rfl, hfirst, -⟩ := h.of_append_cons (by decide) (by decide)
      rw [hfirst.eq_of_untypedText (untypedText_of_blank hblanks (by decide))]
      exact ⟨rest', by simp⟩
    · rcases h with h | h
      · exact h.infix_of_run (List.all_eq_true.1 (by decide)) (by decide) hwithin
      · exact h.infix_of_run (List.all_eq_true.1 (by decide)) (by decide) hwithin
  exact Bool.eq_iff_iff.2 ⟨hforth h.symm, hforth h⟩

/-- The replacement of dates leaves the lines that annotate no pattern and have no date. -/
theorem patchDateLine_eq_self_iff :
    patchDateLine line = [line] ↔ isDatePattern line = false ∧ ¬HasDate line := by
  rw [patchDateLine]
  split
  · rename_i himport
    have hdate : HasDate line := by
      rw [himport, ← not_not (a := HasDate _), ← replaceDates_eq_self_iff]
      decide
    refine iff_of_false ?_ fun h => h.2 hdate
    rw [himport]
    decide
  · split
    · rename_i hpattern
      exact iff_of_false (by simp) fun h => by simp [hpattern] at h
    · rename_i hpattern
      rw [List.singleton_inj, replaceDates_eq_self_iff]
      simp [hpattern]

/-- What takes the place of a line is left when dates are replaced again. -/
theorem patchDateLine_of_mem (h : out ∈ patchDateLine line) : patchDateLine out = [out] := by
  rw [patchDateLine] at h
  split at h
  · rw [List.mem_singleton.1 h]
    decide
  · split at h
    · contradiction
    · rename_i hpattern
      rw [List.mem_singleton.1 h, patchDateLine_eq_self_iff,
        (retyped_replaceDates line).isDatePattern_eq]
      exact ⟨by simpa using hpattern, not_hasDate_replaceDates line⟩

/-- What takes the place of a boxed line is boxed. -/
theorem boxLine_of_mem_patchDateLine (hboxed : boxLine line = line) (h : out ∈ patchDateLine line) :
    boxLine out = out := by
  rw [patchDateLine] at h
  split at h
  · rw [List.mem_singleton.1 h]
    decide +kernel
  · split at h
    · contradiction
    · rw [List.mem_singleton.1 h, boxLine_replaceDates, hboxed]

/-! ### Quotes before the rest of a date -/

/-- A quote with the rest of the date class and a delimiter right behind it. A constant in the place
of the literal that the quote ends would complete a date. -/
def JoinsDate (line : Line) : Prop :=
  ∃ c, closesDate c = true ∧ '"' :: ("ate".toList ++ [c]) <:+: line

instance (line : Line) : Decidable (JoinsDate line) :=
  decidable_of_iff (line.any (fun c =>
    closesDate c && occursIn ('"' :: ("ate".toList ++ [c])) line) = true) <| by
    simp only [List.any_eq_true, Bool.and_eq_true, occursIn_iff]
    refine exists_congr fun c => ⟨fun h => h.2, fun h => ⟨h.2.subset ?_, h⟩⟩
    simp

theorem JoinsDate.mono (h : JoinsDate line) (hpart : line <:+: line') : JoinsDate line' := by
  obtain ⟨c, hc, hwithin⟩ := h
  exact ⟨c, hc, hwithin.trans hpart⟩

theorem JoinsDate.mem (h : JoinsDate line) : '"' ∈ line := by
  obtain ⟨c, -, hwithin⟩ := h
  exact hwithin.subset List.mem_cons_self

theorem JoinsDate.of_append_cons (h : JoinsDate (before ++ c :: after))
    (hc : c ∉ '"' :: "ate".toList) : JoinsDate (before ++ [c]) ∨ JoinsDate after := by
  obtain ⟨d, hd, hwithin⟩ := h
  exact (infix_concat_append_cons hc hwithin).imp (⟨d, hd, ·⟩) (⟨d, hd, ·⟩)

theorem Retyped.joinsDate_iff (h : Retyped line line') : JoinsDate line' ↔ JoinsDate line := by
  refine exists_congr fun c => and_congr_right fun hc => ?_
  rcases h with h | h
  · have hstart : KeepsStart isWordChar boxedTypes ("ate".toList ++ [c]) := by
      have hclosing : c ∈ [' ', ';', '>', ')', ','] := List.contains_iff_mem.1 hc
      simp only [List.mem_cons, List.not_mem_nil, or_false] at hclosing
      rcases hclosing with rfl | rfl | rfl | rfl | rfl <;> (unfold KeepsStart; decide)
    have hiff : [] ++ '"' :: ("ate".toList ++ [c]) <:+: line' ↔
        [] ++ '"' :: ("ate".toList ++ [c]) <:+: line :=
      h.infix_around_iff (by decide) (by simp) hstart (by simp)
    exact hiff
  · have hstart : KeepsStart isNameChar datePairs [] := by
      unfold KeepsStart
      decide
    have hiff : '"' :: "ate".toList ++ c :: [] <:+: line' ↔ '"' :: "ate".toList ++ c :: [] <:+: line :=
      h.infix_around_iff (not_isNameChar_of_closesDate hc) (List.all_eq_true.1 (by decide)) hstart
        (by decide)
    exact hiff

theorem not_joinsDate_of_mem_patchDateLine (hline : ¬JoinsDate line) (h : out ∈ patchDateLine line) :
    ¬JoinsDate out := by
  rw [patchDateLine] at h
  split at h
  · rw [List.mem_singleton.1 h]
    exact fun hjoins => absurd hjoins.mem (by decide)
  · split at h
    · contradiction
    · rwa [List.mem_singleton.1 h, (retyped_replaceDates line).joinsDate_iff]

/-! ### Settled lines and their parts -/

theorem boxLine_append_cons_iff (hc : isWordChar c = false) :
    boxLine (before ++ c :: after) = before ++ c :: after ↔
      boxLine before = before ∧ boxLine after = after := by
  simp only [boxLine_eq_self_iff, words_append_cons hc, List.forall_mem_append]

theorem boxLine_blank_append_iff (hblanks : Blank blanks) :
    boxLine (blanks ++ text) = blanks ++ text ↔ boxLine text = text := by
  induction blanks with
  | nil => rfl
  | cons c rest ih =>
    obtain ⟨hc, hrest⟩ := List.forall_mem_cons.1 hblanks
    have hsplit : boxLine ([] ++ c :: (rest ++ text)) = [] ++ c :: (rest ++ text) ↔
        boxLine [] = [] ∧ boxLine (rest ++ text) = rest ++ text :=
      boxLine_append_cons_iff (isWordChar_of_isBlank hc)
    rw [List.nil_append] at hsplit
    rw [List.cons_append, hsplit, ih hrest]
    exact and_iff_right (boxLine_eq_nil_iff.2 rfl)

/-- A text is boxed without the blanks around it. -/
theorem boxLine_trim (h : boxLine text = text) : boxLine (trim text) = trim text := by
  have hstart : boxLine (trimStart text) = trimStart text := by
    obtain ⟨blanks, hblanks, heq⟩ := exists_blank_trimStart text
    rw [heq] at h
    exact (boxLine_blank_append_iff hblanks).1 h
  obtain ⟨blanks, hblanks, heq⟩ := exists_trimEnd_blank (trimStart text)
  cases blanks with
  | nil =>
    rw [List.append_nil] at heq
    rwa [trim, ← heq]
  | cons c rest =>
    rw [heq, boxLine_append_cons_iff (isWordChar_of_isBlank (hblanks c List.mem_cons_self))] at hstart
    exact hstart.1

/-- No primitive begins with the name of a constant. -/
theorem not_mem_primitives_of_isCapital {run : List Char} (hcapital : IsCapital name)
    (hne : name ≠ []) (hstarts : name <+: run) : run ∉ primitives := by
  have hlower : primitives.all (fun run => run.head?.any Char.isLower) = true := by decide
  obtain ⟨c, rest, rfl⟩ := List.exists_cons_of_ne_nil hne
  obtain ⟨more, rfl⟩ := hstarts
  intro hmem
  exact hcapital.not_isLower List.mem_cons_self (List.all_eq_true.1 hlower _ hmem)

/-- A date has the letters of its name. -/
theorem HasDate.mem (h : HasDate line) (hc : c ∈ oldDate) : c ∈ line := by
  obtain ⟨opening, closing, -, -, hpart⟩ := hasDate_iff_infix.1 h
  exact hpart.subset (List.mem_cons_of_mem _ (List.mem_append_left _ hc))

/-- Before the end of a date there is at least its name. -/
theorem not_hasDate_cons (h : ∀ d ∈ text, closesDate d = false) : ¬HasDate (c :: text) := by
  rintro ⟨before, opening, closing, after, heq, -, hcloses⟩
  have hmem : closing ∈ text := by
    cases before with
    | nil => simp [(List.cons.inj heq).2]
    | cons d before => simp [(List.cons.inj heq).2]
  rw [h closing hmem] at hcloses
  contradiction

/-- Only a line whose first mark is an at sign annotates a pattern. -/
theorem isDatePattern_eq_false (h : ∀ c ∈ (trimStart line).head?, c ≠ '@') :
    isDatePattern line = false := by
  rw [isDatePattern, Bool.and_eq_false_iff]
  left
  rw [← Bool.not_eq_true, startsWith_iff]
  rintro ⟨rest, hrest⟩
  rw [← hrest] at h
  exact h '@' rfl rfl

/-! ### Lines that are read and written back -/

/-- A line that comes back when it is written and read. -/
def IsPlainLine (line : Line) : Prop :=
  '\n' ∉ line ∧ EndsPlain line

instance (line : Line) : Decidable (IsPlainLine line) :=
  inferInstanceAs (Decidable (_ ∧ _))

theorem lines_ofLines_of_plain (h : ∀ line ∈ ls, IsPlainLine line) : lines (ofLines ls) = ls :=
  lines_ofLines_of_endsPlain (fun line hline => (h line hline).1) fun line hline => (h line hline).2

theorem isPlainLine_of_not_mem (hnewline : '\n' ∉ line) (hreturn : '\r' ∉ line) : IsPlainLine line :=
  ⟨hnewline, fun hlast => hreturn (List.mem_of_getLast? hlast)⟩

/-- A line ends as what stands at its end does. -/
theorem isPlainLine_append_iff (hne : after ≠ []) :
    IsPlainLine (before ++ after) ↔ '\n' ∉ before ∧ IsPlainLine after := by
  rw [IsPlainLine, IsPlainLine, List.mem_append, not_or, EndsPlain, List.getLast?_append,
    List.getLast?_eq_some_getLast hne, Option.some_or, ← List.getLast?_eq_some_getLast hne, and_assoc]
  rfl

theorem IsPlainLine.boxLine (h : IsPlainLine line) : IsPlainLine (boxLine line) :=
  ⟨newline_not_mem_boxLine h.1, endsPlain_boxLine h.2⟩

theorem IsPlainLine.of_mem_patchDateLine (h : IsPlainLine line) (hout : out ∈ patchDateLine line) :
    IsPlainLine out :=
  plain_of_mem_patchDateLine h.1 h.2 hout

/-- Lines are worked on where they were written. -/
theorem mapLines_ofLines {f : Line → Line} (h : ∀ line ∈ ls, IsPlainLine line) :
    mapLines f (ofLines ls) = ofLines (ls.map f) := by
  rw [mapLines, lines_ofLines_of_plain h]

theorem mapLines_eq_self {f : Line → Line} (hplain : ∀ line ∈ ls, IsPlainLine line)
    (h : ∀ line ∈ ls, f line = line) : mapLines f (ofLines ls) = ofLines ls := by
  rw [mapLines_ofLines hplain, List.map_congr_left h, List.map_id']

/-! ### Sources whose dates are replaced or not -/

/-- The lines that take the place of a line when its dates are replaced, where they are. -/
def patchDateLineIf (dates : Bool) (line : Line) : List Line :=
  if dates then patchDateLine line else [line]

/-- The source with its dates replaced, where they are. -/
def patchDatesIf (dates : Bool) (source : String) : String :=
  if dates then patchDates source else source

theorem patchDatesIf_ofLines {dates : Bool} (h : ∀ line ∈ ls, IsPlainLine line) :
    patchDatesIf dates (ofLines ls) = ofLines (ls.flatMap (patchDateLineIf dates)) := by
  cases dates with
  | false => exact congrArg ofLines (List.flatMap_singleton' ls).symm
  | true =>
    rw [patchDatesIf, if_pos rfl, patchDates, lines_ofLines_of_plain h]
    rfl

theorem patchDatesIf_eq_self {dates : Bool} (hplain : ∀ line ∈ ls, IsPlainLine line)
    (h : dates = true → ∀ line ∈ ls, patchDateLine line = [line]) :
    patchDatesIf dates (ofLines ls) = ofLines ls := by
  cases dates with
  | false => rfl
  | true =>
    have hsame : ls.flatMap (patchDateLineIf true) = ls.flatMap fun line => [line] :=
      List.flatMap_congr (h rfl)
    rw [patchDatesIf_ofLines hplain, hsame, List.flatMap_singleton']

end RamlBuild
