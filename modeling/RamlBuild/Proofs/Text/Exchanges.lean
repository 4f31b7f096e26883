import RamlBuild.Proofs.Text.Search
import RamlBuild.Proofs.Text.Words

/-!
# Texts with runs exchanged

Boxing exchanges words and the replacement of dates exchanges names between delimiters; both leave
every other run of their class of characters and all that stands between runs. What a line is tested
for (how it begins and ends, what it holds, that it is a certain text) is not changed by such an
exchange, as long as the runs of what is looked for are none of those that are exchanged.

The relation goes in both directions, so that each test needs one implication only.

## Main definitions

* `Text.Exchanges` — two texts that differ in exchanged runs only
* `Text.Keeps`, `Text.KeepsStart` — texts, and starts of texts, that an exchange does not touch

## Main results

* `Text.Exchanges.of_append_cons` — both sides of a character between runs are exchanged by themselves
* `Text.Exchanges.eq_iff`, `Text.Exchanges.prefix_iff`, `Text.Exchanges.suffix_iff`,
  `Text.Exchanges.infix_iff` — the tests
-/

namespace RamlBuild.Text

variable {p : Char → Bool} {pairs : List (List Char × List Char)} {line line' before rest : Line}
  {run new part text start : List Char} {c : Char}

/-- The runs of an exchange, those that go and those that come. -/
def exchangedRuns (pairs : List (List Char × List Char)) : List (List Char) :=
  pairs.map Prod.fst ++ pairs.map Prod.snd

/-- A run that stays or is exchanged, in either direction. -/
def SwapsRun (pairs : List (List Char × List Char)) (run new : List Char) : Prop :=
  new = run ∨ (run, new) ∈ pairs ∨ (new, run) ∈ pairs

theorem SwapsRun.symm (h : SwapsRun pairs run new) : SwapsRun pairs new run := by
  rcases h with rfl | h | h
  · exact .inl rfl
  · exact .inr (.inr h)
  · exact .inr (.inl h)

/-- A run that is none of those exchanged stays. -/
theorem SwapsRun.eq_or_mem (h : SwapsRun pairs run new) : new = run ∨ run ∈ exchangedRuns pairs := by
  rcases h with h | h | h
  · exact .inl h
  · exact .inr (List.mem_append_left _ (List.mem_map_of_mem h))
  · exact .inr (List.mem_append_right _ (List.mem_map_of_mem h))

/-- Two texts that have the same characters between their runs, each of which stays or is
exchanged. -/
inductive Exchanges (p : Char → Bool) (pairs : List (List Char × List Char)) : Line → Line → Prop
  /-- The last run. -/
  | last {run new : List Char} (hrun : ∀ c ∈ run, p c) (hnew : ∀ c ∈ new, p c)
      (hswaps : SwapsRun pairs run new) : Exchanges p pairs run new
  /-- A run with another character behind it. -/
  | next {run new rest rest' : List Char} {c : Char} (hrun : ∀ d ∈ run, p d) (hnew : ∀ d ∈ new, p d)
      (hswaps : SwapsRun pairs run new) (hc : p c = false) (hrest : Exchanges p pairs rest rest') :
      Exchanges p pairs (run ++ c :: rest) (new ++ c :: rest')

namespace Exchanges

theorem symm (h : Exchanges p pairs line line') : Exchanges p pairs line' line := by
  induction h with
  | last hrun hnew hswaps => exact .last hnew hrun hswaps.symm
  | next hrun hnew hswaps hc _ ih => exact .next hnew hrun hswaps.symm hc ih

/-- A single run becomes a single run. -/
theorem of_run (hrun : ∀ d ∈ run, p d) (h : Exchanges p pairs run line') :
    (∀ d ∈ line', p d) ∧ SwapsRun pairs run line' := by
  cases h with
  | last _ hnew hswaps => exact ⟨hnew, hswaps⟩
  | @next _ _ _ _ c _ _ _ hc => exact absurd (hrun c (by simp)) (by simp [hc])

theorem of_run_append_cons (hrun : ∀ d ∈ run, p d) (hc : p c = false)
    (h : Exchanges p pairs (run ++ c :: rest) line') :
    ∃ new rest', line' = new ++ c :: rest' ∧ (∀ d ∈ new, p d) ∧ SwapsRun pairs run new ∧
      Exchanges p pairs rest rest' := by
  generalize hline : run ++ c :: rest = line at h
  cases h with
  | last hall =>
    subst hline
    exact absurd (hall c (by simp)) (by simp [hc])
  | next hother hnew hswaps hd hrest =>
    obtain rfl := eq_of_append_cons_eq hrun hother hc hd hline
    obtain ⟨rfl, rfl⟩ := List.cons.inj (List.append_cancel_left hline)
    exact ⟨_, _, rfl, hnew, hswaps, hrest⟩

/-- A character between runs stays, and what stands on its sides is exchanged by itself. -/
theorem of_append_cons (hc : p c = false) (h : Exchanges p pairs (before ++ c :: rest) line') :
    ∃ before' rest', line' = before' ++ c :: rest' ∧ Exchanges p pairs before before' ∧
      Exchanges p pairs rest rest' := by
  induction before using run_induction p generalizing line' with
  | last run hrun =>
    obtain ⟨new, rest', hline, hnew, hswaps, hrest⟩ := of_run_append_cons hrun hc h
    exact ⟨new, rest', hline, .last hrun hnew hswaps, hrest⟩
  | next run d others hrun hd ih =>
    rw [List.append_assoc, List.cons_append] at h
    obtain ⟨new, tail, rfl, hnew, hswaps, htail⟩ := of_run_append_cons hrun hd h
    obtain ⟨others', rest', rfl, hothers, hrest⟩ := ih htail
    refine ⟨new ++ d :: others', rest', ?_, .next hrun hnew hswaps hd hothers, hrest⟩
    rw [List.append_assoc, List.cons_append]

end Exchanges

/-! ### Whole texts and starts -/

/-- A text none of whose runs is exchanged. -/
def Keeps (p : Char → Bool) (pairs : List (List Char × List Char)) (text : List Char) : Prop :=
  ∀ run ∈ text.splitOnP (!p ·), run ∉ exchangedRuns pairs

/-- The start of a text that an exchange does not touch: its whole runs are none of those exchanged,
and the run that may go on behind it begins none of them. -/
def KeepsStart (p : Char → Bool) (pairs : List (List Char × List Char)) (start : List Char) : Prop :=
  (∀ run ∈ (start.splitOnP (!p ·)).dropLast, run ∉ exchangedRuns pairs) ∧
    ∀ run ∈ (start.splitOnP (!p ·)).getLast?, ∀ name ∈ exchangedRuns pairs, run <+: name → run = []

theorem splitOnP_of_run (hrun : ∀ c ∈ run, p c) : run.splitOnP (!p ·) = [run] :=
  List.splitOnP_eq_singleton fun c hc => by simp [hrun c hc]

theorem splitOnP_append_cons_of_run (hrun : ∀ d ∈ run, p d) (hc : p c = false) :
    (run ++ c :: rest).splitOnP (!p ·) = run :: rest.splitOnP (!p ·) := by
  rw [List.splitOnP_append_cons run rest (by simp [hc]), splitOnP_of_run hrun, List.singleton_append]

theorem mem_of_mem_splitOnP (hrun : run ∈ text.splitOnP (!p ·)) (hc : c ∈ run) : c ∈ text := by
  induction text using run_induction p with
  | last other hother =>
    rw [splitOnP_of_run hother, List.mem_singleton] at hrun
    rwa [← hrun]
  | next other d rest hother hd ih =>
    rw [splitOnP_append_cons_of_run hother hd, List.mem_cons] at hrun
    apply List.mem_append.2
    rcases hrun with rfl | hrun
    · exact .inl hc
    · exact .inr (List.mem_cons_of_mem d (ih hrun))

/-- A text that lacks a character of each exchanged run has none of them. -/
theorem keeps_of_not_mem (h : ∀ name ∈ exchangedRuns pairs, ∃ c ∈ name, c ∉ text) :
    Keeps p pairs text := by
  intro run hrun hmem
  obtain ⟨c, hc, hnot⟩ := h run hmem
  exact hnot (mem_of_mem_splitOnP hrun hc)

namespace Exchanges

theorem eq_of_keeps (h : Exchanges p pairs text line') (hkeeps : Keeps p pairs text) :
    line' = text := by
  induction text using run_induction p generalizing line' with
  | last run hrun =>
    have hstays : run ∉ exchangedRuns pairs :=
      hkeeps run (by rw [splitOnP_of_run hrun]; exact List.mem_singleton_self run)
    exact (h.of_run hrun).2.eq_or_mem.resolve_right hstays
  | next run c rest hrun hc ih =>
    rw [Keeps, splitOnP_append_cons_of_run hrun hc] at hkeeps
    obtain ⟨new, rest', rfl, -, hswaps, hrest⟩ := of_run_append_cons hrun hc h
    have hstays := hkeeps run List.mem_cons_self
    rw [hswaps.eq_or_mem.resolve_right hstays,
      ih hrest fun other hother => hkeeps other (List.mem_cons_of_mem _ hother)]

theorem eq_iff (h : Exchanges p pairs line line') (hkeeps : Keeps p pairs text) :
    line' = text ↔ line = text := by
  constructor
  · rintro rfl
    exact h.symm.eq_of_keeps hkeeps
  · rintro rfl
    exact h.eq_of_keeps hkeeps

/-- Part of a run that no exchanged run begins with stays at the start. -/
theorem prefix_of_run (h : Exchanges p pairs line line') (hpart : ∀ c ∈ part, p c)
    (havoids : ∀ name ∈ exchangedRuns pairs, part <+: name → part = []) (hstarts : part <+: line) :
    part <+: line' := by
  have hrun : ∀ {run new : List Char}, SwapsRun pairs run new → part <+: run → part <+: new := by
    intro run new hswaps hstarts
    rcases hswaps.eq_or_mem with rfl | hmem
    · exact hstarts
    · rw [havoids run hmem hstarts]
      exact List.nil_prefix
  cases h with
  | last _ _ hswaps => exact hrun hswaps hstarts
  | @next run new _ _ c _ _ hswaps hc _ =>
    apply List.IsPrefix.trans (hrun hswaps _) (List.prefix_append new _)
    rcases List.prefix_or_prefix_of_prefix hstarts (List.prefix_append run _) with h | ⟨tail, rfl⟩
    · exact h
    · cases tail with
      | nil => simp
      | cons d tail =>
        have hcons := (List.prefix_append_right_inj run).1 hstarts
        obtain rfl := (List.cons_prefix_cons.1 hcons).1
        exact absurd (hpart d (by simp)) (by simp [hc])

theorem prefix_of_keepsStart (h : Exchanges p pairs line line') (hstart : KeepsStart p pairs start)
    (hstarts : start <+: line) : start <+: line' := by
  induction start using run_induction p generalizing line line' with
  | last run hrun =>
    rw [KeepsStart, splitOnP_of_run hrun] at hstart
    exact h.prefix_of_run hrun (hstart.2 run rfl) hstarts
  | next run c rest hrun hc ih =>
    have hne : rest.splitOnP (!p ·) ≠ [] := List.splitOnP_ne_nil _ _
    rw [KeepsStart, splitOnP_append_cons_of_run hrun hc, List.dropLast_cons_of_ne_nil hne,
      List.getLast?_cons_of_ne_nil hne] at hstart
    obtain ⟨tail, rfl⟩ := hstarts
    rw [List.append_assoc, List.cons_append] at h
    obtain ⟨new, rest', rfl, -, hswaps, hrest⟩ := of_run_append_cons hrun hc h
    rw [hswaps.eq_or_mem.resolve_right (hstart.1 run List.mem_cons_self),
      List.prefix_append_right_inj, List.cons_prefix_cons]
    apply And.intro rfl
    exact ih hrest ⟨fun other hother => hstart.1 other (List.mem_cons_of_mem _ hother), hstart.2⟩
      (List.prefix_append rest tail)

theorem prefix_iff (h : Exchanges p pairs line line') (hstart : KeepsStart p pairs start) :
    start <+: line' ↔ start <+: line :=
  ⟨h.symm.prefix_of_keepsStart hstart, h.prefix_of_keepsStart hstart⟩

/-- What stands before the first of a character between runs is exchanged by itself. -/
theorem beforeFirst {stop : Char} (hstop : p stop = false) (h : Exchanges p pairs line line') :
    Exchanges p pairs (beforeFirst stop line) (beforeFirst stop line') := by
  have hne : ∀ {run : List Char}, (∀ c ∈ run, p c) → ∀ c ∈ run, (c != stop) = true := by
    rintro run hrun c hc
    rw [bne_iff_ne]
    rintro rfl
    exact absurd (hrun c hc) (by simp [hstop])
  rw [Text.beforeFirst, Text.beforeFirst]
  induction h with
  | last hrun hnew hswaps =>
    rw [List.takeWhile_eq_self_iff.2 (hne hrun), List.takeWhile_eq_self_iff.2 (hne hnew)]
    exact .last hrun hnew hswaps
  | @next run new rest rest' c hrun hnew hswaps hc hrest ih =>
    rw [List.takeWhile_append_of_pos (hne hrun), List.takeWhile_append_of_pos (hne hnew)]
    by_cases heq : c = stop
    · rw [List.takeWhile_cons_of_neg (by simp [heq]), List.takeWhile_cons_of_neg (by simp [heq]),
        List.append_nil, List.append_nil]
      exact .last hrun hnew hswaps
    · rw [List.takeWhile_cons_of_pos (by simp [heq]), List.takeWhile_cons_of_pos (by simp [heq])]
      exact .next hrun hnew hswaps hc ih

/-! ### Ends and parts of runs -/

/-- Part of a run that no exchanged run ends with stays at the end. -/
theorem suffix_of_run (h : Exchanges p pairs line line') (hpart : ∀ c ∈ part, p c)
    (havoids : ∀ name ∈ exchangedRuns pairs, part <:+ name → part = []) (hsuffix : part <:+ line) :
    part <:+ line' := by
  induction h with
  | last _ _ hswaps =>
    rcases hswaps.eq_or_mem with rfl | hmem
    · exact hsuffix
    · rw [havoids _ hmem hsuffix]
      exact List.nil_suffix
  | @next _ _ _ _ c _ _ _ hc _ ih =>
    have hnot : c ∉ part := fun hmem => absurd (hpart c hmem) (by simp [hc])
    rw [suffix_append_cons_iff hnot] at hsuffix ⊢
    exact ih hsuffix

theorem suffix_iff (h : Exchanges p pairs line line') (hpart : ∀ c ∈ part, p c)
    (havoids : ∀ name ∈ exchangedRuns pairs, part <:+ name → part = []) :
    part <:+ line' ↔ part <:+ line :=
  ⟨h.symm.suffix_of_run hpart havoids, h.suffix_of_run hpart havoids⟩

/-- Part of a run that is in no exchanged run stays somewhere in the text. -/
theorem infix_of_run (h : Exchanges p pairs line line') (hpart : ∀ c ∈ part, p c)
    (havoids : ∀ name ∈ exchangedRuns pairs, ¬part <:+: name) (hwithin : part <:+: line) :
    part <:+: line' := by
  have hrun : ∀ {run new : List Char}, SwapsRun pairs run new → part <:+: run → part <:+: new := by
    intro run new hswaps hwithin
    rcases hswaps.eq_or_mem with rfl | hmem
    · exact hwithin
    · exact absurd hwithin (havoids _ hmem)
  induction h with
  | last _ _ hswaps => exact hrun hswaps hwithin
  | @next _ _ _ _ c _ _ hswaps hc _ ih =>
    have hnot : c ∉ part := fun hmem => absurd (hpart c hmem) (by simp [hc])
    rw [infix_append_cons_iff hnot] at hwithin ⊢
    exact hwithin.imp (hrun hswaps) ih

theorem infix_iff (h : Exchanges p pairs line line') (hpart : ∀ c ∈ part, p c)
    (havoids : ∀ name ∈ exchangedRuns pairs, ¬part <:+: name) : part <:+: line' ↔ part <:+: line :=
  ⟨h.symm.infix_of_run hpart havoids, h.infix_of_run hpart havoids⟩

/-- A part around a character between runs stays in the text, if its ends are those of no exchanged
run. -/
theorem infix_around (h : Exchanges p pairs line line') (hc : p c = false)
    (hbefore : ∀ d ∈ before, p d) (hstart : KeepsStart p pairs start)
    (havoids : ∀ name ∈ exchangedRuns pairs, before <:+ name → before = [])
    (hwithin : before ++ c :: start <:+: line) : before ++ c :: start <:+: line' := by
  obtain ⟨ahead, behind, rfl⟩ := hwithin
  rw [show ahead ++ (before ++ c :: start) ++ behind = (ahead ++ before) ++ c :: (start ++ behind) by
    simp] at h
  obtain ⟨first, last, rfl, hfirst, hlast⟩ := h.of_append_cons hc
  obtain ⟨ahead', rfl⟩ := hfirst.suffix_of_run hbefore havoids (List.suffix_append ahead before)
  obtain ⟨behind', rfl⟩ := hlast.prefix_of_keepsStart hstart (List.prefix_append start behind)
  exact ⟨ahead', behind', by simp⟩

theorem infix_around_iff (h : Exchanges p pairs line line') (hc : p c = false)
    (hbefore : ∀ d ∈ before, p d) (hstart : KeepsStart p pairs start)
    (havoids : ∀ name ∈ exchangedRuns pairs, before <:+ name → before = []) :
    before ++ c :: start <:+: line' ↔ before ++ c :: start <:+: line :=
  ⟨h.symm.infix_around hc hbefore hstart havoids, h.infix_around hc hbefore hstart havoids⟩

end Exchanges

end RamlBuild.Text
