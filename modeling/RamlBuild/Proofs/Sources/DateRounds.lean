import RamlBuild.Proofs.Sources.Dates

/-!
# The rounds over the dates of a line

Rounds go over a line until one changes nothing. A round uses up the delimiter behind a date that it
exchanges, so of neighbours that share a delimiter it exchanges every second one, and the next round
finds the others. So no line needs a third round that changes it, and what the rounds settle on is the
line with each date exchanged by its own context, all at once.

## Main definitions

* `exchangeInContext` — the dates of a line exchanged by the characters around them
* `Settles` — the rounds over a line, with how many of them change it

## Main results

* `exchangeInContext_eq` — the context of a date is told by the names and delimiters of the line
* `roundFrom_roundFrom` — two rounds exchange all dates
* `settles_replaceDates` — the rounds end, and what they settle on
-/

namespace RamlBuild

open Text

variable {line line' run rest out : Line} {c d : Char} {before : Option Char} {rounds : Nat}

/-! ### Dates by their context -/

/-- The line with each date exchanged that stands right behind a delimiter that opens it and right
before one that closes it; `before` is the character before the line. What is exchanged is told by
the line as it stands, so delimiters can be shared. -/
def exchangeInContext (before : Option Char) : Line → Line
  | 'D' :: 'a' :: 't' :: 'e' :: after :: rest =>
    if before.any opensDate && closesDate after then
      "OffsetDateTime".toList ++ exchangeInContext (some 'e') (after :: rest)
    else
      'D' :: exchangeInContext (some 'D') ('a' :: 't' :: 'e' :: after :: rest)
  | c :: rest => c :: exchangeInContext (some c) rest
  | [] => []

theorem exchangeInContext_date (before : Option Char) (after : Char) (rest : Line) :
    exchangeInContext before (oldDate ++ after :: rest) =
      if before.any opensDate && closesDate after then
        newDate ++ exchangeInContext (some 'e') (after :: rest)
      else 'D' :: exchangeInContext (some 'D') (oldDate.tail ++ after :: rest) := by
  simp only [oldDate_eq, List.tail_cons, List.cons_append, List.nil_append]
  rw [exchangeInContext]
  rfl

/-- A character that begins no delimited date stays. -/
theorem exchangeInContext_cons (h : ∀ after rest', c :: rest = oldDate ++ after :: rest' →
      (before.any opensDate && closesDate after) = false) :
    exchangeInContext before (c :: rest) = c :: exchangeInContext (some c) rest := by
  by_cases hdate : ∃ after rest', c :: rest = oldDate ++ after :: rest'
  · obtain ⟨after, rest', heq⟩ := hdate
    have hnot := h after rest' heq
    rw [heq, exchangeInContext_date, if_neg (by simp [hnot])]
    simp only [oldDate_eq, List.cons_append, List.cons.injEq] at heq
    obtain ⟨rfl, rfl⟩ := heq
    simp [oldDate_eq]
  · rw [exchangeInContext]
    rintro after rest' rfl rfl
    exact hdate ⟨after, rest', by simp [oldDate_eq]⟩

theorem exchangeInContext_cons_of_not_opens (h : before.any opensDate = false) (c : Char)
    (rest : Line) : exchangeInContext before (c :: rest) = c :: exchangeInContext (some c) rest := by
  apply exchangeInContext_cons
  intro after rest' _
  rw [h, Bool.false_and]

theorem exchangeInContext_append_of_isNameChar (hrun : ∀ c ∈ run, isNameChar c)
    (h : before.any opensDate = false) (d : Char) (rest : Line) :
    exchangeInContext before (run ++ d :: rest) = run ++ d :: exchangeInContext (some d) rest := by
  induction run generalizing before with
  | nil => exact exchangeInContext_cons_of_not_opens h d rest
  | cons c tail ih =>
    have hc : (some c).any opensDate = false := not_opensDate_of_isNameChar (hrun c List.mem_cons_self)
    rw [List.cons_append, exchangeInContext_cons_of_not_opens h,
      ih (fun e he => hrun e (List.mem_cons_of_mem c he)) hc, List.cons_append]

/-- A name that nothing closes stays. -/
theorem exchangeInContext_of_isNameChar (hrun : ∀ c ∈ run, isNameChar c) (before : Option Char) :
    exchangeInContext before run = run := by
  induction run generalizing before with
  | nil => rfl
  | cons c tail ih =>
    rw [exchangeInContext_cons, ih fun e he => hrun e (List.mem_cons_of_mem c he)]
    intro after rest' heq
    have hafter : isNameChar after = true := hrun after (by simp [heq])
    have hnot : closesDate after = false := by
      rw [Bool.eq_false_iff]
      intro hcloses
      rw [not_isNameChar_of_closesDate hcloses] at hafter
      contradiction
    rw [hnot, Bool.and_false]

/-- A name between delimiters is exchanged or stays, as they say. -/
theorem exchangeInContext_append_cons (hrun : ∀ c ∈ run, isNameChar c) (hd : isNameChar d = false)
    (before : Option Char) (rest : Line) :
    exchangeInContext before (run ++ d :: rest) =
      exchangeName (before.any opensDate) run d ++ d :: exchangeInContext (some d) rest := by
  by_cases hdate : (before.any opensDate && closesDate d && run = oldDate) = true
  · have hname : exchangeName (before.any opensDate) run d = newDate := if_pos hdate
    rw [Bool.and_eq_true, decide_eq_true_eq] at hdate
    obtain ⟨hdelimited, rfl⟩ := hdate
    have hlast : (some 'e').any opensDate = false := by decide
    rw [exchangeInContext_date, if_pos hdelimited, hname,
      exchangeInContext_cons_of_not_opens hlast]
  · have hname : exchangeName (before.any opensDate) run d = run := if_neg hdate
    have hstays : ∀ after rest', run ++ d :: rest = oldDate ++ after :: rest' →
        (before.any opensDate && closesDate after) = false := by
      intro after rest' heq
      rw [Bool.eq_false_iff]
      intro hdelimited
      rw [Bool.and_eq_true] at hdelimited
      -- The name before the delimiter would be the date.
      have hrunDate := eq_of_append_cons_eq hrun isNameChar_of_mem_oldDate hd
        (not_isNameChar_of_closesDate hdelimited.2) heq
      rw [hrunDate] at heq
      obtain ⟨rfl, -⟩ := List.cons.inj (List.append_cancel_left heq)
      exact hdate (by simp [hdelimited, hrunDate])
    rw [hname]
    cases run with
    | nil => exact exchangeInContext_cons hstays
    | cons c tail =>
      have hc : (some c).any opensDate = false :=
        not_opensDate_of_isNameChar (hrun c List.mem_cons_self)
      rw [List.cons_append] at hstays ⊢
      rw [exchangeInContext_cons hstays, exchangeInContext_append_of_isNameChar
        (fun e he => hrun e (List.mem_cons_of_mem c he)) hc, List.cons_append]

/-- The context of a date is told by the names of the line and the delimiters between them. -/
theorem exchangeInContext_eq (line : Line) :
    ∀ before, exchangeInContext before line = exchangeDates (before.any opensDate) line := by
  induction line using run_induction isNameChar with
  | last run hrun =>
    intro before
    rw [exchangeInContext_of_isNameChar hrun, exchangeDates_of_isNameChar hrun]
  | next run d rest hrun hd ih =>
    intro before
    rw [exchangeInContext_append_cons hrun hd, exchangeDates_append_cons hrun hd, ih, Option.any_some]

/-! ### The rounds -/

/-- Two rounds exchange all dates, where `opened` and `opened'` say for each of them whether the
character before the line opens a date that has not been used up. -/
theorem roundFrom_roundFrom (line : Line) : ∀ opened opened' : Bool,
    roundFrom opened' (roundFrom opened line) = exchangeDates (opened || opened') line := by
  induction line using run_induction isNameChar with
  | last run hrun =>
    intro opened opened'
    rw [roundFrom_of_isNameChar hrun, roundFrom_of_isNameChar hrun, exchangeDates_of_isNameChar hrun]
  | next run d rest hrun hd ih =>
    intro opened opened'
    rw [roundFrom_append_cons hrun hd, exchangeDates_append_cons hrun hd]
    by_cases hfirst : (opened && closesDate d && run = oldDate) = true
    · -- The first round exchanges the date and uses up the delimiter, which the second one has.
      have hnew : ¬(opened' && closesDate d && newDate = oldDate) = true := by
        simp [show newDate ≠ oldDate by decide]
      rw [if_pos hfirst, roundFrom_append_cons isNameChar_of_mem_newDate hd, if_neg hnew, ih,
        Bool.false_or]
      rw [Bool.and_eq_true, Bool.and_eq_true] at hfirst
      have hname : exchangeName (opened || opened') run d = newDate :=
        if_pos (by simp [hfirst])
      rw [hname]
    · rw [if_neg hfirst, roundFrom_append_cons hrun hd]
      by_cases hsecond : (opened' && closesDate d && run = oldDate) = true
      · -- What stands behind the delimiter was settled by the first round, if it opens a date.
        rw [if_pos hsecond, ih, Bool.or_false]
        rw [Bool.and_eq_true, Bool.and_eq_true] at hsecond
        have hname : exchangeName (opened || opened') run d = newDate :=
          if_pos (by simp [hsecond])
        rw [hname]
      · have hname : exchangeName (opened || opened') run d = run := by
          apply if_neg
          intro h
          rw [Bool.and_eq_true, Bool.and_eq_true, Bool.or_eq_true] at h
          obtain ⟨⟨hopened | hopened, hcloses⟩, hrun'⟩ := h
          · exact hfirst (by simp [hopened, hcloses, hrun'])
          · exact hsecond (by simp [hopened, hcloses, hrun'])
        rw [if_neg hsecond, ih, Bool.or_self, hname]

theorem replaceDatesOnce_eq (line : Line) : replaceDatesOnce line = roundFrom false line :=
  (if_neg (by simp)).symm

theorem replaceDatesOnce_replaceDatesOnce (line : Line) :
    replaceDatesOnce (replaceDatesOnce line) = replaceDates line := by
  rw [replaceDatesOnce_eq, replaceDatesOnce_eq, roundFrom_roundFrom, replaceDates_eq_exchangeDates,
    Bool.or_self]

/-- A round changes nothing exactly when no delimited date is left. -/
theorem replaceDatesOnce_eq_self_iff : replaceDatesOnce line = line ↔ ¬HasDate line := by
  rw [← replaceDates_eq_self_iff]
  constructor
  · intro h
    rw [← replaceDatesOnce_replaceDatesOnce, h, h]
  · intro h
    rw [replaceDates_eq_exchangeDates] at h
    rw [replaceDatesOnce_eq]
    -- A date that the round exchanged would be exchanged with the others.
    rcases roundFrom_eq_or_length line false with hround | hlength
    · exact hround
    · have hall := exchangeDates_roundFrom line false false fun h => h
      have hle := length_le_exchangeDates (roundFrom false line) false
      rw [hall, h] at hle
      omega

/-- The rounds over a line: one after the other until one changes nothing. The number counts those
that change the line. -/
inductive Settles : Nat → Line → Line → Prop
  | settled {line : Line} : replaceDatesOnce line = line → Settles 0 line line
  | round {rounds : Nat} {line out : Line} : replaceDatesOnce line ≠ line →
      Settles rounds (replaceDatesOnce line) out → Settles (rounds + 1) line out

theorem Settles.eq_replaceDates (h : Settles rounds line out) : out = replaceDates line := by
  induction h with
  | settled hline =>
    exact (replaceDates_eq_self_iff.2 (replaceDatesOnce_eq_self_iff.1 hline)).symm
  | @round _ line _ _ _ hout =>
    rw [hout, replaceDates_eq_exchangeDates, replaceDates_eq_exchangeDates, replaceDatesOnce_eq,
      exchangeDates_roundFrom line false false fun h => h]

/-- The rounds over a line end, after at most two that change it. What they settle on is the line in
which each date between its delimiters is exchanged by its own context. -/
theorem settles_replaceDates (line : Line) :
    (∃ rounds ≤ 2, Settles rounds line (replaceDates line)) ∧
      (∀ rounds out, Settles rounds line out → out = replaceDates line) ∧
      replaceDates line = exchangeInContext none line := by
  refine ⟨?ends, fun rounds out h => h.eq_replaceDates, ?context⟩
  case context =>
    rw [replaceDates_eq_exchangeDates, exchangeInContext_eq, Option.any_none]
  case ends =>
    have hlast : replaceDatesOnce (replaceDates line) = replaceDates line :=
      replaceDatesOnce_eq_self_iff.2 (not_hasDate_replaceDates line)
    have htwo := replaceDatesOnce_replaceDatesOnce line
    by_cases hfirst : replaceDatesOnce line = line
    · rw [hfirst, hfirst] at htwo
      exact ⟨0, by omega, by rw [← htwo]; exact .settled hfirst⟩
    · by_cases hsecond : replaceDatesOnce (replaceDatesOnce line) = replaceDatesOnce line
      · rw [← htwo]
        refine ⟨1, by omega, .round hfirst ?_⟩
        rw [hsecond]
        exact .settled hsecond
      · refine ⟨2, by omega, .round hfirst (.round hsecond ?_)⟩
        rw [htwo]
        exact .settled hlast

/-- Neighbours that share a delimiter take two rounds, so no fewer suffice for all lines. -/
theorem settles_replaceDates_neighbours :
    Settles 2 "<Date,Date>".toList "<OffsetDateTime,OffsetDateTime>".toList ∧
      replaceDates "<Date,Date>".toList = "<OffsetDateTime,OffsetDateTime>".toList := by
  have hrounds : Settles 2 "<Date,Date>".toList "<OffsetDateTime,OffsetDateTime>".toList :=
    .round (by decide) (.round (by decide) (.settled (by decide)))
  obtain ⟨-, hunique, -⟩ := settles_replaceDates "<Date,Date>".toList
  exact ⟨hrounds, (hunique 2 _ hrounds).symm⟩

end RamlBuild
