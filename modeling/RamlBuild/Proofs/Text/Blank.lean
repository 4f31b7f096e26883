import Mathlib.Data.List.DropRight
import Mathlib.Data.List.TakeWhile
import RamlBuild.Proofs.Text.Search
import RamlBuild.Text.Blank

/-!
# Trimming a line

Trimming takes blanks away and nothing else, so a line begins and ends with the same marks as before.

## Main definitions

* `Text.Blank` — a text of blanks

## Main results

* `Text.trimStart_append` — what is left of a line that begins with blanks
* `Text.trim_eq_nil_iff` — which lines nothing is left of
* `Text.getLast?_trim` — the last mark of a line
-/

namespace RamlBuild.Text

variable {blanks line rest : Line} {c : Char}

/-- A text that has nothing but blanks. -/
def Blank (text : List Char) : Prop :=
  ∀ c ∈ text, isBlank c

theorem Blank.not_mem (h : Blank blanks) (hc : isBlank c = false) : c ∉ blanks := fun hmem =>
  absurd (h c hmem) (by rw [hc]; exact Bool.false_ne_true)

theorem trimStart_append (hblanks : Blank blanks) (hc : isBlank c = false) :
    trimStart (blanks ++ c :: rest) = c :: rest := by
  rw [trimStart, List.dropWhile_append_of_pos hblanks, List.dropWhile_cons_of_neg (by simp [hc])]

/-- A line is what is left of it, behind blanks. -/
theorem head?_trimStart (hblanks : Blank blanks) (hc : isBlank c = false) :
    (trimStart (blanks ++ c :: rest)).head? = some c := by
  rw [trimStart_append hblanks hc, List.head?_cons]

theorem exists_blank_trimStart (line : Line) : ∃ blanks, Blank blanks ∧ line = blanks ++ trimStart line :=
  ⟨line.takeWhile isBlank, fun _ => List.mem_takeWhile_imp, (List.takeWhile_append_dropWhile).symm⟩

theorem trimStart_suffix (line : Line) : trimStart line <:+ line :=
  List.dropWhile_suffix isBlank

theorem trimEnd_append (hblanks : Blank blanks) : trimEnd (line ++ blanks) = trimEnd line := by
  rw [trimEnd, List.reverse_append, List.dropWhile_append_of_pos, trimEnd]
  exact fun c hc => hblanks c (List.mem_reverse.1 hc)

theorem trimEnd_cons (hc : isBlank c = false) : trimEnd (c :: rest) = c :: trimEnd rest := by
  have hmark : [c].dropWhile isBlank = [c] := List.dropWhile_cons_of_neg (by simp [hc])
  rw [trimEnd, List.reverse_cons, List.dropWhile_append, trimEnd]
  split
  · rename_i hnone
    rw [hmark, List.isEmpty_iff.1 hnone]
    rfl
  · rw [List.reverse_append]
    rfl

theorem prefix_trimEnd (line : Line) : trimEnd line <+: line := by
  have hsuffix := List.dropWhile_suffix isBlank (l := line.reverse)
  rw [← List.reverse_prefix, List.reverse_reverse] at hsuffix
  exact hsuffix

theorem exists_trimEnd_blank (line : Line) : ∃ blanks, Blank blanks ∧ line = trimEnd line ++ blanks := by
  refine ⟨(line.reverse.takeWhile isBlank).reverse, fun c hc => ?_, ?_⟩
  · exact List.mem_takeWhile_imp (List.mem_reverse.1 hc)
  · rw [trimEnd, ← List.reverse_append, List.takeWhile_append_dropWhile, List.reverse_reverse]

/-- What stands before a mark is not trimmed. -/
theorem trimEnd_append_cons (hc : isBlank c = false) (text rest : Line) :
    trimEnd (text ++ c :: rest) = text ++ c :: trimEnd rest := by
  have htrim : ((c :: rest).reverse.dropWhile isBlank).reverse = c :: trimEnd rest := trimEnd_cons hc
  have hsome : ((c :: rest).reverse.dropWhile isBlank).isEmpty = false := by
    rw [← List.isEmpty_reverse, htrim]
    rfl
  rw [trimEnd, List.reverse_append, List.dropWhile_append, hsome, if_neg Bool.false_ne_true,
    List.reverse_append, List.reverse_reverse, htrim]

/-- A trimmed line begins with its first mark. -/
theorem trim_append (hblanks : Blank blanks) (hc : isBlank c = false) :
    trim (blanks ++ c :: rest) = c :: trimEnd rest := by
  rw [trim, trimStart_append hblanks hc, trimEnd_cons hc]

theorem trim_append_blank (hblanks : Blank blanks) : trim (line ++ blanks) = trim line := by
  rw [trim, trim, trimStart, List.dropWhile_append]
  split
  · rename_i hnone
    have hall : blanks.dropWhile isBlank = [] := List.dropWhile_eq_nil_iff.2 hblanks
    rw [hall, trimStart, List.isEmpty_iff.1 hnone]
  · exact trimEnd_append hblanks

/-- Trimming leaves nothing of a line that has nothing but blanks. -/
theorem trim_eq_nil_iff : trim line = [] ↔ Blank line := by
  constructor
  · intro hnil
    obtain ⟨blanks, hblanks, hline⟩ := exists_blank_trimStart line
    cases hstart : trimStart line with
    | nil =>
      rw [hline, hstart, List.append_nil]
      exact hblanks
    | cons c rest =>
      have hc : isBlank c = false := by
        have := List.head?_dropWhile_not isBlank line
        rw [← trimStart, hstart] at this
        simpa using this
      rw [trim, hstart, trimEnd_cons hc] at hnil
      exact absurd hnil (List.cons_ne_nil _ _)
  · intro hline
    rw [← List.nil_append line, trim_append_blank hline]
    rfl

/-- What was trimmed has no blanks on either side. -/
theorem trim_trim (line : Line) : trim (trim line) = trim line := by
  cases hstart : trimStart line with
  | nil =>
    have hnil : trim line = [] := by
      rw [trim, hstart]
      rfl
    rw [hnil]
    rfl
  | cons c rest =>
    have hc : isBlank c = false := by
      have := List.head?_dropWhile_not isBlank line
      rw [← trimStart, hstart] at this
      simpa using this
    have hend : trimEnd (trimEnd rest) = trimEnd rest := by
      rw [trimEnd, trimEnd, List.reverse_reverse, List.dropWhile_idempotent]
    have htrim : trim line = c :: trimEnd rest := by rw [trim, hstart, trimEnd_cons hc]
    have hagain : trim ([] ++ c :: trimEnd rest) = c :: trimEnd (trimEnd rest) :=
      trim_append (by simp [Blank]) hc
    rw [htrim, ← List.nil_append (c :: trimEnd rest), hagain, hend]
    rfl

theorem trimmed_trimmed (text : String) : trimmed (trimmed text) = trimmed text := by
  rw [trimmed, trimmed, String.toList_ofList, trim_trim]

/-- A carriage return at the end of a line is blank. -/
@[simp] theorem trim_dropReturn (line : Line) : trim (dropReturn line) = trim line := by
  rcases eq_or_eq_append_of_dropReturn line with h | h
  · rw [h]
  · conv => rhs; rw [h]
    exact (trim_append_blank (by simp [Blank]; decide)).symm

theorem find?_reverse_of_blank (h : Blank blanks) : blanks.reverse.find? (!isBlank ·) = none := by
  rw [List.find?_eq_none]
  intro c hc
  simp [h c (List.mem_reverse.1 hc)]

/-- A trimmed line ends with the last mark of the line. -/
theorem getLast?_trim (line : Line) : (trim line).getLast? = line.reverse.find? (!isBlank ·) := by
  obtain ⟨blanks, hblanks, hline⟩ := exists_blank_trimStart line
  have hfind : line.reverse.find? (!isBlank ·) = (trimStart line).reverse.find? (!isBlank ·) := by
    conv => lhs; rw [hline]
    rw [List.reverse_append, List.find?_append, find?_reverse_of_blank hblanks, Option.or_none]
  rw [hfind, trim, trimEnd, List.getLast?_reverse, List.find?_not_eq_head?_dropWhile]

end RamlBuild.Text
