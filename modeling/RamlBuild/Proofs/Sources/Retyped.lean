import RamlBuild.Proofs.Sources.Commuting
import RamlBuild.Proofs.Sources.Discriminator
import RamlBuild.Proofs.Text.Exchanges

/-!
# Lines with other types

Boxing exchanges words of a line and the replacement of dates exchanges names in it. A line that is
told by a text without types is told by it with other types too. So marks that are read off such
texts are the same before and after, and whatever is found out about a source from the marks of its
lines is the same as well.

## Main definitions

* `Retyped` — a line before and after some of its types are exchanged
* `clashes` — two texts that no line begins with both
* `Endures` — marks that are not changed by boxing and by the replacement of dates

## Main results

* `retyped_boxLine`, `retyped_replaceDates` — both patches exchange types
* `Retyped.prefix_iff`, `Retyped.eq_iff`, `Retyped.of_append_cons` — what other types do not change
* `any_dropThrough_congr`, `any_find?_dropThrough_congr` — what is read off marks
* `Endures.filterMap_boxed`, `Endures.filterMap_dated` — the marks of a source endure
-/

namespace RamlBuild

open Text

variable {line line' other : Line} {start text : List Char} {ls ls' : List Line}

/-! ### Lines with other types -/

/-- The date class and the one that takes its place. -/
def datePairs : List (List Char × List Char) := [(oldDate, newDate)]

theorem exchanges_boxLine (line : Line) : Exchanges isWordChar boxedTypes line (boxLine line) := by
  have hrun : ∀ run, IsWord run → SwapsRun boxedTypes run (boxLine run) := by
    intro run hrun
    rw [boxLine_of_isWord hrun]
    cases hlookup : boxedTypes.lookup run with
    | none => exact .inl rfl
    | some boxed =>
      have hall : ∀ entry ∈ boxedTypes, boxedTypes.lookup entry.1 = some entry.2 := by decide
      have hkey : ∃ entry ∈ boxedTypes, entry.1 = run := by
        simpa [List.lookup_eq_none_iff] using
          (not_congr List.lookup_eq_none_iff).1 (by simp [hlookup] : ¬boxedTypes.lookup run = none)
      obtain ⟨entry, hentry, rfl⟩ := hkey
      rw [hall entry hentry] at hlookup
      rw [← Option.some.inj hlookup]
      exact .inr (.inl hentry)
  induction line using run_induction isWordChar with
  | last run hword => exact .last hword (worksByWords_boxLine.isWord run hword) (hrun run hword)
  | next run c rest hword hc ih =>
    rw [worksByWords_boxLine.splitsAt c hc]
    exact .next hword (worksByWords_boxLine.isWord run hword) (hrun run hword) hc ih

theorem exchanges_exchangeDates (line : Line) :
    ∀ opened, Exchanges isNameChar datePairs line (exchangeDates opened line) := by
  induction line using run_induction isNameChar with
  | last run hrun =>
    intro opened
    rw [exchangeDates_of_isNameChar hrun]
    exact .last hrun hrun (.inl rfl)
  | next run c rest hrun hc ih =>
    intro opened
    rw [exchangeDates_append_cons hrun hc, exchangeName]
    split
    · rename_i hdate
      obtain rfl : run = oldDate := of_decide_eq_true (Bool.and_eq_true_iff.1 hdate).2
      exact .next hrun isNameChar_of_mem_newDate (.inr (.inl (List.mem_singleton_self _))) hc (ih _)
    · exact .next hrun hrun (.inl rfl) hc (ih _)

theorem exchanges_replaceDates (line : Line) :
    Exchanges isNameChar datePairs line (replaceDates line) := by
  rw [replaceDates_eq_exchangeDates]
  exact exchanges_exchangeDates line false

/-- A line with some of its types exchanged for others: those that boxing exchanges, or dates. -/
def Retyped (line line' : Line) : Prop :=
  Exchanges isWordChar boxedTypes line line' ∨ Exchanges isNameChar datePairs line line'

theorem retyped_boxLine (line : Line) : Retyped line (boxLine line) :=
  .inl (exchanges_boxLine line)

theorem retyped_replaceDates (line : Line) : Retyped line (replaceDates line) :=
  .inr (exchanges_replaceDates line)

/-- The start of a line that does not tell types. -/
def Untyped (start : List Char) : Prop :=
  KeepsStart isWordChar boxedTypes start ∧ KeepsStart isNameChar datePairs start

/-- A text in which no types stand. -/
def UntypedText (text : List Char) : Prop :=
  Keeps isWordChar boxedTypes text ∧ Keeps isNameChar datePairs text

/-- Behind blanks no types stand in a text that lacks a letter of each of them. -/
theorem untypedText_of_blank {blanks : List Char} (hblanks : Blank blanks)
    (hletters : (exchangedRuns boxedTypes ++ exchangedRuns datePairs).all (fun name =>
      name.any fun c => !isBlank c && !text.contains c) = true) : UntypedText (blanks ++ text) := by
  have hlacks : ∀ name ∈ exchangedRuns boxedTypes ++ exchangedRuns datePairs,
      ∃ c ∈ name, c ∉ blanks ++ text := by
    intro name hname
    obtain ⟨c, hc, hletter⟩ := List.any_eq_true.1 (List.all_eq_true.1 hletters name hname)
    simp only [Bool.and_eq_true, Bool.not_eq_true', ← Bool.not_eq_true, List.contains_iff_mem]
      at hletter
    refine ⟨c, hc, ?_⟩
    rw [List.mem_append, not_or]
    exact ⟨fun hmem => hletter.1 (hblanks c hmem), hletter.2⟩
  exact ⟨keeps_of_not_mem fun name hname => hlacks name (List.mem_append_left _ hname),
    keeps_of_not_mem fun name hname => hlacks name (List.mem_append_right _ hname)⟩

namespace Retyped

theorem symm (h : Retyped line line') : Retyped line' line :=
  h.imp Exchanges.symm Exchanges.symm

theorem prefix_iff (h : Retyped line line') (hstart : Untyped start) :
    start <+: line' ↔ start <+: line := by
  rcases h with h | h
  · exact h.prefix_iff hstart.1
  · exact h.prefix_iff hstart.2

theorem startsWith_eq {start : String} (h : Retyped line line') (hstart : Untyped start.toList) :
    startsWith start line' = startsWith start line := by
  rw [Bool.eq_iff_iff, startsWith_iff, startsWith_iff]
  exact h.prefix_iff hstart

theorem eq_of_untypedText (h : Retyped text line') (htext : UntypedText text) : line' = text := by
  rcases h with h | h
  · exact h.eq_of_keeps htext.1
  · exact h.eq_of_keeps htext.2

theorem eq_iff (h : Retyped line line') (htext : UntypedText text) : line' = text ↔ line = text := by
  constructor
  · rintro rfl
    exact h.symm.eq_of_untypedText htext
  · rintro rfl
    exact h.eq_of_untypedText htext

/-- A delimiter of words and of dates stays, and both sides of it are retyped by themselves. -/
theorem of_append_cons {c : Char} {before rest : Line} (hword : isWordChar c = false)
    (hname : isNameChar c = false) (h : Retyped (before ++ c :: rest) line') :
    ∃ before' rest', line' = before' ++ c :: rest' ∧ Retyped before before' ∧ Retyped rest rest' := by
  rcases h with h | h
  · obtain ⟨before', rest', hline, hbefore, hrest⟩ := h.of_append_cons hword
    exact ⟨before', rest', hline, .inl hbefore, .inl hrest⟩
  · obtain ⟨before', rest', hline, hbefore, hrest⟩ := h.of_append_cons hname
    exact ⟨before', rest', hline, .inr hbefore, .inr hrest⟩

/-- A word with a delimiter behind it stays at the end of a line, if it ends no type. -/
theorem suffix_concat_iff {c : Char} (hword : isWordChar c = false) (hname : isNameChar c = false)
    (htext : IsWord text)
    (havoids : ∀ name ∈ exchangedRuns boxedTypes ++ exchangedRuns datePairs, ¬text <:+ name)
    (h : Retyped line line') : text ++ [c] <:+ line' ↔ text ++ [c] <:+ line := by
  have hforth : ∀ {line line' : Line}, Retyped line line' → text ++ [c] <:+ line →
      text ++ [c] <:+ line' := by
    rintro _ line' h ⟨ahead, rfl⟩
    rw [← List.append_assoc] at h
    obtain ⟨first, last, rfl, hfirst, hlast⟩ := of_append_cons hword hname h
    have hnil : last = [] := hlast.eq_of_untypedText (by unfold UntypedText Keeps; decide)
    have hend : text <:+ first := by
      rcases hfirst with hfirst | hfirst
      · refine hfirst.suffix_of_run htext (fun name hmem hsuffix => ?_) (List.suffix_append _ _)
        exact absurd hsuffix (havoids name (List.mem_append_left _ hmem))
      · refine hfirst.suffix_of_run (fun d hd => isNameChar_of_isWordChar (htext d hd))
          (fun name hmem hsuffix => ?_) (List.suffix_append _ _)
        exact absurd hsuffix (havoids name (List.mem_append_right _ hmem))
    rw [hnil]
    exact (List.suffix_append_self_iff).2 hend
  exact ⟨hforth h.symm, hforth h⟩

theorem beforeFirst {stop : Char} (hword : isWordChar stop = false)
    (hname : isNameChar stop = false) (h : Retyped line line') :
    Retyped (beforeFirst stop line) (beforeFirst stop line') :=
  h.imp (Exchanges.beforeFirst hword) (Exchanges.beforeFirst hname)

end Retyped

/-! ### What a line begins with behind its blanks -/

/-- Two texts that no line begins with both. -/
def clashes (start other : List Char) : Bool :=
  !start.isPrefixOf other && !other.isPrefixOf start

theorem not_prefix_of_clashes (h : clashes start other = true) (hother : other <+: line) :
    ¬start <+: line := by
  intro hstart
  rw [clashes, Bool.and_eq_true, Bool.not_eq_true', Bool.not_eq_true', ← Bool.not_eq_true,
    ← Bool.not_eq_true, List.isPrefixOf_iff_prefix, List.isPrefixOf_iff_prefix] at h
  rcases List.prefix_or_prefix_of_prefix hstart hother with hstarts | hstarts
  · exact h.1 hstarts
  · exact h.2 hstarts

/-- What a line begins with, it begins with behind its blanks too. -/
theorem trimStart_mono (hne : trimStart start ≠ []) (h : start <+: line) :
    trimStart start <+: trimStart line := by
  obtain ⟨rest, rfl⟩ := h
  obtain ⟨blanks, hblanks, hstart⟩ := exists_blank_trimStart start
  cases htrim : trimStart start with
  | nil => exact absurd htrim hne
  | cons c tail =>
    have hc : isBlank c = false := by
      have := List.head?_dropWhile_not isBlank start
      rw [← trimStart, htrim] at this
      simpa using this
    rw [hstart, htrim, List.append_assoc, List.cons_append, trimStart_append hblanks hc]
    exact List.prefix_append (c :: tail) rest

/-- A line that begins with something else behind its blanks does not begin with a text. -/
theorem not_prefix_of_trimStart (hclash : clashes (trimStart start) other = true)
    (hother : other <+: trimStart line) : ¬start <+: line := by
  intro hstart
  have hne : trimStart start ≠ [] := by
    intro hnil
    rw [hnil] at hclash
    exact absurd hclash (by simp [clashes])
  exact not_prefix_of_clashes hclash hother (trimStart_mono hne hstart)

theorem startsWith_eq_false {start : String} (hclash : clashes (trimStart start.toList) other = true)
    (hother : other <+: trimStart line) : startsWith start line = false := by
  rw [← Bool.not_eq_true, startsWith_iff]
  exact not_prefix_of_trimStart hclash hother

/-! ### Marks of lines -/

section Marks

variable {α : Type} {m : Line → Option α} {p r : Line → Bool} {q s : α → Bool}

/-- Marks, where there are any. -/
def unlessNone [DecidableEq α] [Inhabited α] (marks : α) : Option α :=
  if marks = default then none else some marks

theorem any_unlessNone [DecidableEq α] [Inhabited α] {marks : α} (hq : q default = false) :
    (unlessNone marks).any q = q marks := by
  rw [unlessNone]
  split
  · rename_i hmarks
    rw [hmarks, hq]
    rfl
  · rfl

theorem all_not_eq (hp : ∀ line, p line = (m line).any q) (line : Line) :
    (m line).all (!q ·) = !p line := by
  rw [hp]
  cases m line <;> rfl

theorem filterMap_dropWhile (hp : ∀ line, p line = (m line).any q) (ls : List Line) :
    (ls.dropWhile (!p ·)).filterMap m = (ls.filterMap m).dropWhile (!q ·) := by
  rw [List.dropWhile_filterMap]
  simp only [all_not_eq hp]

theorem filterMap_takeWhile (hp : ∀ line, p line = (m line).any q) (ls : List Line) :
    (ls.takeWhile (!p ·)).filterMap m = (ls.filterMap m).takeWhile (!q ·) := by
  rw [List.takeWhile_filterMap]
  simp only [all_not_eq hp]

theorem any_filterMap (hr : ∀ line, r line = (m line).any s) (ls : List Line) :
    (ls.filterMap m).any s = ls.any r := by
  rw [List.any_filterMap]
  congr 1
  funext line
  rw [hr]
  cases m line <;> rfl

/-- The first line of a kind is told by the marks, with the marks of what stands behind it. -/
theorem dropWhile_filterMap_eq_cons_iff (hp : ∀ line, p line = (m line).any q) {mark : α}
    {marks : List α} :
    (ls.filterMap m).dropWhile (!q ·) = mark :: marks ↔
      ∃ line rest, ls.dropWhile (!p ·) = line :: rest ∧ m line = some mark ∧
        rest.filterMap m = marks := by
  rw [← filterMap_dropWhile hp]
  cases hdrop : ls.dropWhile (!p ·) with
  | nil => simp
  | cons line rest =>
    have hline : p line = true := by
      have := List.head?_dropWhile_not (!p ·) ls
      rw [hdrop] at this
      simpa using this
    rw [hp] at hline
    cases hmark : m line with
    | none => simp [hmark] at hline
    | some mark' =>
      rw [List.filterMap_cons_some hmark]
      constructor
      · intro heq
        obtain ⟨rfl, rfl⟩ := List.cons.inj heq
        exact ⟨line, rest, rfl, hmark, rfl⟩
      · rintro ⟨line', rest', heq, hmark', rfl⟩
        obtain ⟨rfl, rfl⟩ := List.cons.inj heq
        rw [Option.some.inj (hmark.symm.trans hmark')]

theorem filterMap_dropThrough (hp : ∀ line, p line = (m line).any q) (ls : List Line) :
    (dropThrough p ls).filterMap m = ((ls.filterMap m).dropWhile (!q ·)).drop 1 := by
  rw [dropThrough]
  cases hmarks : (ls.filterMap m).dropWhile (!q ·) with
  | nil =>
    rw [← filterMap_dropWhile hp] at hmarks
    rw [List.drop_nil, List.filterMap_eq_nil_iff]
    exact fun line hline => List.filterMap_eq_nil_iff.1 hmarks line (List.mem_of_mem_drop hline)
  | cons mark marks =>
    obtain ⟨line, rest, hdrop, -, hrest⟩ := (dropWhile_filterMap_eq_cons_iff hp).1 hmarks
    rw [hdrop]
    exact hrest

/-- Whether there is a line of a kind behind the first one of another is told by the marks. -/
theorem any_dropThrough_congr (hp : ∀ line, p line = (m line).any q)
    (hr : ∀ line, r line = (m line).any s) (h : ls'.filterMap m = ls.filterMap m) :
    (dropThrough p ls').any r = (dropThrough p ls).any r := by
  rw [← any_filterMap hr, ← any_filterMap hr, filterMap_dropThrough hp, filterMap_dropThrough hp, h]

/-- So is the first line of a kind. -/
theorem any_find?_dropThrough_congr {r' : Line → Bool} {s' : α → Bool}
    (hp : ∀ line, p line = (m line).any q) (hr : ∀ line, r line = (m line).any s)
    (hr' : ∀ line, r' line = (m line).any s') (h : ls'.filterMap m = ls.filterMap m) :
    ((dropThrough p ls').find? r).any r' = ((dropThrough p ls).find? r).any r' := by
  have hfind : ∀ ls : List Line, (ls.find? r).any r' = ((ls.filterMap m).find? s).any s' := by
    intro ls
    rw [List.find?_filterMap]
    simp only [← hr]
    cases ls.find? r with
    | none => rfl
    | some line => exact hr' line
  rw [hfind, hfind, filterMap_dropThrough hp, filterMap_dropThrough hp, h]

end Marks

/-! ### Marks that endure -/

/-- Marks that are the same on lines with other types, and that no line has which goes or comes with
the dates. -/
structure Endures {α : Type} (m : Line → Option α) : Prop where
  retyped : ∀ {line line'}, Retyped line line' → m line' = m line
  pattern : ∀ {line}, "@JsonFormat(".toList <+: trimStart line → m line = none
  imports : ∀ {line}, "import".toList <+: trimStart line → m line = none

namespace Endures

variable {α : Type} {m : Line → Option α} (h : Endures m)
include h

theorem filterMap_boxed (ls : List Line) : (ls.map boxLine).filterMap m = ls.filterMap m := by
  rw [List.filterMap_map]
  congr 1
  funext line
  exact h.retyped (retyped_boxLine line)

theorem filterMap_patchDateLine (line : Line) : (patchDateLine line).filterMap m = [line].filterMap m := by
  rw [patchDateLine]
  split
  · rename_i himport
    rw [himport, List.filterMap_cons_none (h.imports _), List.filterMap_cons_none (h.imports _)]
    · exact List.isPrefixOf_iff_prefix.1 (by decide)
    · exact List.isPrefixOf_iff_prefix.1 (by decide)
  · split
    · rename_i hpattern
      rw [isDatePattern, Bool.and_eq_true, startsWith_iff] at hpattern
      rw [List.filterMap_cons_none (h.pattern hpattern.1)]
    · rw [List.filterMap_cons, List.filterMap_cons, h.retyped (retyped_replaceDates line)]

theorem filterMap_dated (ls : List Line) :
    (ls.flatMap patchDateLine).filterMap m = ls.filterMap m := by
  induction ls with
  | nil => rfl
  | cons line rest ih =>
    rw [List.flatMap_cons, List.filterMap_append, h.filterMap_patchDateLine, ih,
      ← List.filterMap_append]
    rfl

end Endures

end RamlBuild
