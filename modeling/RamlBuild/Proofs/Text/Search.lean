import RamlBuild.Proofs.Text.Lines
import RamlBuild.Text.Search

/-!
# Where texts stand

Searching tells whether a text stands at the start, at the end or somewhere in a line. What stands in
a line of a text stands in the text.

## Main results

* `Text.occursIn_iff`, `Text.startsWith_iff`, `Text.endsWith_iff` — what searching tells
* `Text.infix_of_mem_lines` — lines stand in the text
-/

namespace RamlBuild.Text

variable {part text start rest : List Char} {line : Line} {source : String}

theorem occursIn_iff : occursIn part text = true ↔ part <:+: text := by
  induction text with
  | nil => simp [occursIn]
  | cons c rest ih =>
    rw [occursIn, Bool.or_eq_true, List.isPrefixOf_iff_prefix, ih, List.infix_cons_iff]

theorem has_iff {part : String} : has part line = true ↔ part.toList <:+: line :=
  occursIn_iff

theorem startsWith_iff {start : String} : startsWith start line = true ↔ start.toList <+: line :=
  List.isPrefixOf_iff_prefix

theorem endsWith_iff {ending : String} : endsWith ending line = true ↔ ending.toList <:+ line :=
  List.isSuffixOf_iff_suffix

theorem after?_eq_some_iff : after? start text = some rest ↔ text = start ++ rest := by
  constructor
  · exact eq_append_of_after?
  · rintro rfl
    exact after?_append start rest

/-- The run of characters of a class at the start of a text is told by the text. -/
theorem eq_of_append_cons_eq {p : Char → Bool} {run other rest rest' : List Char} {d d' : Char}
    (hrun : ∀ c ∈ run, p c) (hother : ∀ c ∈ other, p c) (hd : p d = false) (hd' : p d' = false)
    (heq : run ++ d :: rest = other ++ d' :: rest') : run = other := by
  have htake := congrArg (List.takeWhile p) heq
  rwa [List.takeWhile_append_of_pos hrun, List.takeWhile_append_of_pos hother,
    List.takeWhile_cons_of_neg (by simp [hd]), List.takeWhile_cons_of_neg (by simp [hd']),
    List.append_nil, List.append_nil] at htake

/-- What a character is no part of ends a text where it ends what stands behind the character. -/
theorem suffix_append_cons_iff {before : List Char} {c : Char} (hc : c ∉ part) :
    part <:+ before ++ c :: rest ↔ part <:+ rest := by
  constructor
  · intro h
    rcases List.suffix_or_suffix_of_suffix h (List.suffix_append before (c :: rest)) with h | h
    · rcases List.suffix_cons_iff.1 h with rfl | h
      · exact absurd List.mem_cons_self hc
      · exact h
    · exact absurd (h.subset List.mem_cons_self) hc
  · intro h
    exact h.trans ((List.suffix_cons c rest).trans (List.suffix_append before (c :: rest)))

/-! ### Occurrences that are replaced -/

theorem replaceAll_of_not_infix {old new : List Char} (hne : old ≠ []) (h : ¬old <:+: text) :
    replaceAll old new text = text := by
  fun_induction replaceAll old new text with
  | case1 hempty => exact absurd (List.isEmpty_iff.1 hempty) hne
  | case2 => rfl
  | case3 c rest hempty => exact absurd (List.isEmpty_iff.1 hempty) hne
  | case4 c rest _ hstarts => exact absurd (List.isPrefixOf_iff_prefix.1 hstarts).isInfix h
  | case5 c rest _ _ ih => rw [ih fun hrest => h (hrest.trans (List.suffix_cons c rest).isInfix)]

theorem mem_of_mem_replaceAll {old new : List Char} {c : Char} (h : c ∈ replaceAll old new text) :
    c ∈ text ∨ c ∈ new := by
  fun_induction replaceAll old new text with
  | case1 => exact .inr h
  | case2 => exact .inl h
  | case3 d rest _ ih =>
    rw [List.mem_append, List.mem_cons] at h
    rcases h with h | rfl | h
    · exact .inr h
    · exact .inl List.mem_cons_self
    · exact (ih h).imp_left (List.mem_cons_of_mem d)
  | case4 d rest _ _ ih =>
    rcases List.mem_append.1 h with h | h
    · exact .inr h
    · exact (ih h).imp_left fun h => List.mem_cons_of_mem d (List.mem_of_mem_drop h)
  | case5 d rest _ _ ih =>
    rcases List.mem_cons.1 h with rfl | h
    · exact .inl List.mem_cons_self
    · exact (ih h).imp_left (List.mem_cons_of_mem d)

theorem eq_nil_of_replaceAll {old new : List Char} (hnew : new ≠ []) (h : replaceAll old new text = []) :
    text = [] := by
  fun_induction replaceAll old new text <;> simp_all

/-- A text ends as before, unless it ends with what was put in. -/
theorem getLast?_of_replaceAll {old new : List Char} {c : Char} (hnew : new ≠ [])
    (h : (replaceAll old new text).getLast? = some c) :
    text.getLast? = some c ∨ new.getLast? = some c := by
  -- What stands behind tells the end, unless there is nothing.
  have hbehind : ∀ {rest rest' : List Char}, (rest' = [] → rest = []) →
      (rest'.getLast? = some c → rest.getLast? = some c ∨ new.getLast? = some c) →
      ∀ before, (before ++ rest').getLast? = some c →
        (before ++ rest).getLast? = some c ∨ new.getLast? = some c := by
    intro rest rest' hnil hrest before hlast
    rw [List.getLast?_append] at hlast ⊢
    cases rest' with
    | nil =>
      rw [hnil rfl]
      exact .inl hlast
    | cons d tail =>
      rw [List.getLast?_eq_some_getLast (List.cons_ne_nil d tail), Option.some_or,
        ← List.getLast?_eq_some_getLast (List.cons_ne_nil d tail)] at hlast
      exact (hrest hlast).imp_left fun h => by rw [h, Option.some_or]
  fun_induction replaceAll old new text with
  | case1 => exact .inr h
  | case2 => exact .inl h
  | case3 d rest _ ih =>
    rw [List.getLast?_append, List.getLast?_cons, Option.some_or, ← List.getLast?_cons] at h
    exact hbehind (eq_nil_of_replaceAll hnew) ih [d] h
  | case4 d rest _ _ ih =>
    rw [List.getLast?_append] at h
    cases hlast : (replaceAll old new (rest.drop (old.length - 1))).getLast? with
    | none =>
      rw [hlast, Option.none_or] at h
      exact .inr h
    | some last =>
      rw [hlast, Option.some_or] at h
      refine (ih (hlast.trans h)).imp_left fun hrest => ?_
      rw [← List.take_append_drop (old.length - 1) rest, ← List.cons_append, List.getLast?_append,
        hrest, Option.some_or]
  | case5 d rest _ _ ih => exact hbehind (eq_nil_of_replaceAll hnew) ih [d] h

/-! ### Lines stand in their text -/

theorem infix_of_mem_splitOn {xs piece : List Char} {c : Char} (h : piece ∈ xs.splitOn c) :
    piece <:+: xs := by
  -- The first piece stands at the start of the text.
  suffices hall : (∀ first others, xs.splitOn c = first :: others → first <+: xs) ∧
      ∀ piece ∈ xs.splitOn c, piece <:+: xs from hall.2 piece h
  clear h
  induction xs with
  | nil => simp
  | cons x rest ih =>
    obtain ⟨ihfirst, ihall⟩ := ih
    obtain ⟨first, others, hsplit⟩ := List.exists_cons_of_ne_nil (List.splitOn_ne_nil c rest)
    rw [List.splitOn_cons_eq_if_modifyHead, hsplit]
    rw [hsplit] at ihall
    by_cases hx : x = c
    · rw [if_pos (by simp [hx])]
      refine ⟨?_, ?_⟩
      · intro first' others' heq
        obtain ⟨rfl, -⟩ := List.cons.inj heq
        exact List.nil_prefix
      · intro piece hpiece
        rcases List.mem_cons.1 hpiece with rfl | hpiece
        · exact List.nil_infix
        · exact (ihall piece hpiece).trans (List.infix_cons List.infix_rfl)
    · rw [if_neg (by simp [hx]), List.modifyHead_cons]
      have hstart : x :: first <+: x :: rest := (List.prefix_cons_inj x).2 (ihfirst first others hsplit)
      refine ⟨?_, ?_⟩
      · intro first' others' heq
        obtain ⟨rfl, -⟩ := List.cons.inj heq
        exact hstart
      · intro piece hpiece
        rcases List.mem_cons.1 hpiece with rfl | hpiece
        · exact hstart.isInfix
        · exact (ihall piece (List.mem_cons_of_mem _ hpiece)).trans
            (List.infix_cons List.infix_rfl)

theorem exists_prefix_of_mem_linesOfPieces {pieces : List Line} (h : line ∈ linesOfPieces pieces) :
    ∃ piece ∈ pieces, line <+: piece := by
  fun_induction linesOfPieces pieces with
  | case1 => simp at h
  | case2 last hlast => simp at h
  | case3 last hlast => exact ⟨last, by simp, List.mem_singleton.1 h ▸ List.prefix_rfl⟩
  | case4 piece next rest ih =>
    rcases List.mem_cons.1 h with rfl | h
    · refine ⟨piece, by simp, ?_⟩
      rcases eq_or_eq_append_of_dropReturn piece with heq | heq
      · exact ⟨[], by rw [List.append_nil, heq]⟩
      · exact ⟨['\r'], heq.symm⟩
    · obtain ⟨piece', hmem, hstart⟩ := ih h
      exact ⟨piece', List.mem_cons_of_mem _ hmem, hstart⟩

/-- The lines of a text stand in it. -/
theorem infix_of_mem_lines (h : line ∈ lines source) : line <:+: source.toList := by
  obtain ⟨piece, hpiece, hstart⟩ := exists_prefix_of_mem_linesOfPieces h
  exact hstart.isInfix.trans (infix_of_mem_splitOn hpiece)

/-! ### Around the last occurrence of a character -/

theorem beforeLast?_append {stop : Char} {before rest : List Char} (h : stop ∉ rest) :
    beforeLast? stop (before ++ stop :: rest) = some before := by
  have hall : ∀ c ∈ rest.reverse, (c != stop) = true := by
    intro c hc
    rw [bne_iff_ne]
    rintro rfl
    exact h (List.mem_reverse.1 hc)
  rw [beforeLast?, List.reverse_append, List.reverse_cons, List.append_assoc,
    List.dropWhile_append_of_pos hall, List.singleton_append,
    List.dropWhile_cons_of_neg (by simp)]
  simp

theorem afterLast_append {stop : Char} {before rest : List Char} (h : stop ∉ rest) :
    afterLast stop (before ++ stop :: rest) = rest := by
  have hall : ∀ c ∈ rest.reverse, (c != stop) = true := by
    intro c hc
    rw [bne_iff_ne]
    rintro rfl
    exact h (List.mem_reverse.1 hc)
  rw [afterLast, List.reverse_append, List.reverse_cons, List.append_assoc,
    List.takeWhile_append_of_pos hall, List.singleton_append,
    List.takeWhile_cons_of_neg (by simp), List.append_nil, List.reverse_reverse]

theorem eq_of_beforeLast? {stop : Char} {text before : List Char}
    (h : beforeLast? stop text = some before) :
    text = before ++ stop :: afterLast stop text := by
  unfold beforeLast? at h
  split at h
  · contradiction
  · rename_i c rest hrest
    obtain rfl := Option.some.inj h
    have hsplit := List.takeWhile_append_dropWhile (p := (· != stop)) (l := text.reverse)
    have hc : c = stop := by
      have := List.head?_dropWhile_not (· != stop) text.reverse
      rw [hrest] at this
      simpa using this
    rw [hrest, hc] at hsplit
    have htext := congrArg List.reverse hsplit
    rw [List.reverse_reverse, List.reverse_append, List.reverse_cons, List.append_assoc] at htext
    exact htext.symm

end RamlBuild.Text
