import RamlBuild.Text.Lines

/-!
# Reading lines back

The lines of a text hold no newline, and the lines of a text that was written line by line are those
lines again, as long as none of them holds a newline. A carriage return at the end of a line is lost
on the way, so lines without one come back as they are.

The other way round a text comes back from its lines when each of them is ended by a newline alone: a
line at the end of the text that no newline ends would gain one, and a carriage return before a
newline would be lost.

## Main definitions

* `Text.EndsPlain` — a line without a carriage return at its end

## Main results

* `Text.not_mem_of_mem_lines` — no line holds a newline
* `Text.lines_ofLines`, `Text.lines_ofLines_of_endsPlain` — writing lines and reading them back
* `Text.ofLines_lines_eq_iff` — the texts that come back from their lines
-/

namespace RamlBuild.Text

variable {ls : List Line} {line : Line} {text : String}

/-- A line without a carriage return at its end. -/
def EndsPlain (line : Line) : Prop :=
  line.getLast? ≠ some '\r'

instance : Decidable (EndsPlain line) :=
  inferInstanceAs (Decidable (_ ≠ _))

theorem dropReturn_of_endsPlain (h : EndsPlain line) : dropReturn line = line :=
  if_neg h

theorem endsPlain_concat {c : Char} (h : c ≠ '\r') : EndsPlain (line ++ [c]) := by
  rw [EndsPlain, List.getLast?_concat]
  exact fun heq => h (Option.some.inj heq)

theorem dropReturn_append_return (line : Line) : dropReturn (line ++ ['\r']) = line := by
  simp [dropReturn]

/-- A line is what is left of it, or that with a carriage return behind it. -/
theorem eq_or_eq_append_of_dropReturn (line : Line) :
    dropReturn line = line ∨ line = dropReturn line ++ ['\r'] := by
  by_cases h : line.getLast? = some '\r'
  · right
    obtain ⟨before, rfl⟩ := List.getLast?_eq_some_iff.1 h
    rw [dropReturn_append_return]
  · exact .inl (dropReturn_of_endsPlain h)

theorem dropReturn_sublist (line : Line) : List.Sublist (dropReturn line) line := by
  unfold dropReturn
  split
  · exact List.dropLast_sublist line
  · exact List.Sublist.refl line

/-! ### Lines hold no newline -/

theorem not_mem_of_mem_linesOfPieces {pieces : List Line} (hp : ∀ piece ∈ pieces, '\n' ∉ piece)
    (h : line ∈ linesOfPieces pieces) : '\n' ∉ line := by
  fun_induction linesOfPieces pieces with
  | case1 => simp at h
  | case2 last hlast => simp at h
  | case3 last hlast =>
    rw [List.mem_singleton.1 h]
    exact hp last (by simp)
  | case4 piece next rest ih =>
    rcases List.mem_cons.1 h with rfl | h
    · intro hmem
      exact hp piece (by simp) ((dropReturn_sublist piece).subset hmem)
    · exact ih (fun q hq => hp q (List.mem_cons_of_mem _ hq)) h

theorem not_mem_of_mem_splitOn {xs piece : List Char} {c : Char} (h : piece ∈ xs.splitOn c) :
    c ∉ piece := by
  induction xs generalizing piece with
  | nil => simp_all
  | cons x rest ih =>
    rw [List.splitOn_cons_eq_if_modifyHead] at h
    obtain ⟨first, others, hsplit⟩ := List.exists_cons_of_ne_nil (List.splitOn_ne_nil c rest)
    rw [hsplit] at h ih
    by_cases hx : x = c
    · simp only [hx, beq_self_eq_true, if_true] at h
      rcases List.mem_cons.1 h with rfl | h
      · simp
      · exact ih h
    · have hne : (x == c) = false := by simp [hx]
      simp only [hne, Bool.false_eq_true, if_false, List.modifyHead_cons] at h
      rcases List.mem_cons.1 h with rfl | h
      · have hfirst := ih List.mem_cons_self
        simp [Ne.symm hx, hfirst]
      · exact ih (List.mem_cons_of_mem _ h)

/-- The lines of a text hold no newline. -/
theorem not_mem_of_mem_lines (h : line ∈ lines text) : '\n' ∉ line :=
  not_mem_of_mem_linesOfPieces (fun _ => not_mem_of_mem_splitOn) h

/-! ### Writing lines and reading them back -/

theorem linesOfPieces_append_nil (ls : List Line) :
    linesOfPieces (ls ++ [[]]) = ls.map dropReturn := by
  induction ls with
  | nil => simp [linesOfPieces]
  | cons line rest ih =>
    obtain ⟨next, others, hnext⟩ := List.exists_cons_of_ne_nil (show rest ++ [[]] ≠ [] by simp)
    rw [List.cons_append, hnext, linesOfPieces, ← hnext, ih, List.map_cons]

theorem splitOn_flatMap_newline (h : ∀ line ∈ ls, '\n' ∉ line) :
    (ls.flatMap (· ++ ['\n'])).splitOn '\n' = ls ++ [[]] := by
  induction ls with
  | nil => simp
  | cons line rest ih =>
    have hrest : ∀ line ∈ rest, '\n' ∉ line := fun l hl => h l (List.mem_cons_of_mem _ hl)
    rw [List.flatMap_cons, List.append_assoc, List.singleton_append,
      List.splitOn_append_cons_self_of_not_mem (h line List.mem_cons_self), ih hrest,
      List.cons_append]

/-- Lines that are written and read back lose the carriage return at their end. -/
theorem lines_ofLines (h : ∀ line ∈ ls, '\n' ∉ line) :
    lines (ofLines ls) = ls.map dropReturn := by
  rw [lines, toList_ofLines, splitOn_flatMap_newline h, linesOfPieces_append_nil]

/-- Lines without a carriage return at their end are read back as they were written. -/
theorem lines_ofLines_of_endsPlain (h : ∀ line ∈ ls, '\n' ∉ line)
    (hplain : ∀ line ∈ ls, EndsPlain line) : lines (ofLines ls) = ls := by
  have hid : ls.map dropReturn = ls.map id :=
    List.map_congr_left fun line hline => dropReturn_of_endsPlain (hplain line hline)
  rw [lines_ofLines h, hid, List.map_id]

theorem ofLines_injective {ls ls' : List Line} (h : ∀ line ∈ ls, '\n' ∉ line)
    (h' : ∀ line ∈ ls', '\n' ∉ line) (heq : ofLines ls = ofLines ls') : ls = ls' := by
  have hpieces := splitOn_flatMap_newline h
  rw [← toList_ofLines, heq, toList_ofLines, splitOn_flatMap_newline h'] at hpieces
  exact (List.append_cancel_right hpieces).symm

/-! ### Reading lines and writing them back -/

theorem dropReturn_eq_self_iff : dropReturn line = line ↔ EndsPlain line := by
  refine ⟨?_, dropReturn_of_endsPlain⟩
  intro h hlast
  obtain ⟨before, rfl⟩ := List.getLast?_eq_some_iff.1 hlast
  rw [dropReturn_append_return] at h
  simp at h

/-- Before a newline stands a carriage return when the line that it ends has one at its end. -/
theorem return_infix_append_iff {rest : List Char} (h : '\n' ∉ line) :
    ['\r', '\n'] <:+: line ++ '\n' :: rest ↔ ¬EndsPlain line ∨ ['\r', '\n'] <:+: rest := by
  induction line with
  | nil => simp [List.infix_cons_iff, List.cons_prefix_cons, EndsPlain]
  | cons c tail ih =>
    have htail : '\n' ∉ tail := fun hmem => h (List.mem_cons_of_mem c hmem)
    rw [List.cons_append, List.infix_cons_iff, List.cons_prefix_cons, ih htail, ← or_assoc]
    apply or_congr_left
    cases tail with
    | nil => simp [EndsPlain, eq_comm]
    | cons d tail =>
      have hd : '\n' ≠ d := fun heq => htail (heq ▸ List.mem_cons_self)
      simp [EndsPlain, List.cons_prefix_cons, hd]

theorem return_infix_ofLines_iff (h : ∀ line ∈ ls, '\n' ∉ line) :
    ['\r', '\n'] <:+: (ofLines ls).toList ↔ ∃ line ∈ ls, ¬EndsPlain line := by
  rw [toList_ofLines]
  induction ls with
  | nil => simp
  | cons line rest ih =>
    obtain ⟨hline, hrest⟩ := List.forall_mem_cons.1 h
    rw [List.flatMap_cons, List.append_assoc, List.singleton_append, return_infix_append_iff hline,
      ih hrest]
    simp only [List.mem_cons, exists_eq_or_imp]

/-- A text that a newline ends was written line by line. -/
theorem exists_ofLines_of_getLast? (h : text.toList.getLast? = some '\n') :
    ∃ ls, (∀ line ∈ ls, '\n' ∉ line) ∧ ofLines ls = text := by
  have hlines : ∀ xs : List Char, xs.getLast? = some '\n' →
      ∃ ls : List Line, (∀ line ∈ ls, '\n' ∉ line) ∧ ls.flatMap (· ++ ['\n']) = xs := by
    intro xs hxs
    induction xs with
    | nil => contradiction
    | cons c rest ih =>
      rcases rest with _ | ⟨d, tail⟩
      · obtain rfl : c = '\n' := by simpa using hxs
        exact ⟨[[]], by simp, rfl⟩
      · rw [List.getLast?_cons_cons] at hxs
        obtain ⟨ls, hls, hrest⟩ := ih hxs
        by_cases hc : c = '\n'
        · exact ⟨[] :: ls, by simpa using hls, by simp [hc, hrest]⟩
        · -- The character stands at the start of the first line.
          cases ls with
          | nil => contradiction
          | cons line others =>
            obtain ⟨hline, hothers⟩ := List.forall_mem_cons.1 hls
            refine ⟨(c :: line) :: others, List.forall_mem_cons.2 ⟨?_, hothers⟩, ?_⟩
            · simp [hline, Ne.symm hc]
            · rw [← hrest]
              rfl
  obtain ⟨ls, hls, htext⟩ := hlines _ h
  exact ⟨ls, hls, by rw [ofLines, htext, String.ofList_toList]⟩

theorem getLast?_ofLines (h : ls ≠ []) : (ofLines ls).toList.getLast? = some '\n' := by
  obtain ⟨init, last, rfl⟩ := (List.eq_nil_or_concat ls).resolve_left h
  simp

/-- A text comes back from its lines when it is empty, or a newline ends it and no carriage return
stands before a newline. -/
theorem ofLines_lines_eq_iff :
    ofLines (lines text) = text ↔
      text = "" ∨ text.toList.getLast? = some '\n' ∧ ¬['\r', '\n'] <:+: text.toList := by
  constructor
  · intro h
    by_cases hnil : lines text = []
    · rw [hnil, ofLines_nil] at h
      exact .inl h.symm
    · have hlines : ∀ line ∈ lines text, '\n' ∉ line := fun _ => not_mem_of_mem_lines
      have hlast := getLast?_ofLines hnil
      rw [h] at hlast
      refine .inr ⟨hlast, ?_⟩
      -- The lines come back as well, so none of them loses a carriage return.
      have hback : (lines text).map dropReturn = (lines text).map id := by
        rw [← lines_ofLines hlines, h, List.map_id]
      rw [← h, return_infix_ofLines_iff hlines]
      rintro ⟨line, hline, hreturn⟩
      exact hreturn (dropReturn_eq_self_iff.1 (List.map_inj_left.1 hback line hline))
  · rintro (rfl | ⟨hlast, hreturn⟩)
    · decide
    · obtain ⟨ls, hls, rfl⟩ := exists_ofLines_of_getLast? hlast
      have hplain : ∀ line ∈ ls, EndsPlain line := by
        refine fun line hline => Decidable.byContradiction fun hends => hreturn ?_
        exact (return_infix_ofLines_iff hls).2 ⟨line, hline, hends⟩
      rw [lines_ofLines_of_endsPlain hls hplain]

/-- Lines that hold no newline and end in no carriage return come back from their text, and a text
comes back from its lines exactly when it is empty, or a newline ends it and no carriage return
stands before a newline. -/
theorem lines_ofLines_and_ofLines_lines :
    (∀ ls : List Line, (∀ line ∈ ls, '\n' ∉ line ∧ line.getLast? ≠ some '\r') →
      lines (ofLines ls) = ls) ∧
    ∀ text : String, ofLines (lines text) = text ↔
      text = "" ∨ text.toList.getLast? = some '\n' ∧ ¬['\r', '\n'] <:+: text.toList :=
  ⟨fun _ h => lines_ofLines_of_endsPlain (fun line hline => (h line hline).1)
    fun line hline => (h line hline).2, fun _ => ofLines_lines_eq_iff⟩

/-- Empty lines and lines with a carriage return inside come back; of two carriage returns before a
newline one is lost, and a lone one at the end gains a newline. -/
theorem lines_ofLines_and_ofLines_lines_returns :
    lines (ofLines [[], ['a', '\r', 'b'], []]) = [[], ['a', '\r', 'b'], []] ∧
      ofLines (lines "a\r\r\n") ≠ "a\r\r\n" ∧ ofLines (lines "a\n\r") ≠ "a\n\r" := by
  refine ⟨lines_ofLines_and_ofLines_lines.1 _ (by decide), ?_, ?_⟩
  · rw [ne_eq, lines_ofLines_and_ofLines_lines.2]
    decide
  · rw [ne_eq, lines_ofLines_and_ofLines_lines.2]
    decide

end RamlBuild.Text
