import RamlBuild.Proofs.Text.Literals
import RamlBuild.Proofs.Text.Search
import RamlBuild.Proofs.Text.Words
import RamlBuild.Sources.Dates

/-!
# What replacing dates does to a line

A line falls into names between delimiters, and a date is the name `Date` between a delimiter that
opens it and one that closes it. A round skips a date whose opening delimiter closed one before, and
a later round finds it, so that the rounds together exchange each delimited date of the line.

## Main definitions

* `exchangeDates` — all delimited dates of a line exchanged in one go
* `HasDate` — a delimited date stands in the line

## Main results

* `replaceDates_eq_exchangeDates` — the rounds amount to one exchange of all dates
* `replaceDates_eq_self_iff` — the lines that are left alone
* `replaceDates_replaceDates` — replacing again changes nothing
* `keepsQuotes_replaceDates` — replacing leaves quotes and backslashes alone
-/

namespace RamlBuild

open Text

variable {line run rest : Line} {c d : Char} {opened : Bool}

/-! ### Names between delimiters -/

/-- A character that no name holds. -/
def isDateDelimiter (c : Char) : Bool :=
  opensDate c || closesDate c

/-- A character of a name. -/
def isNameChar (c : Char) : Bool :=
  !isDateDelimiter c

/-- The name of the old date class. -/
def oldDate : List Char := "Date".toList

/-- The name of the new date class. -/
def newDate : List Char := "OffsetDateTime".toList

/-- What takes the place of a name: `opened` says whether the character before it opens a date, and
the next one is given. -/
def exchangeName (opened : Bool) (run : List Char) (next : Char) : List Char :=
  if opened && closesDate next && run = oldDate then newDate else run

/-- The line with all its delimited dates exchanged, where `run` is the name read so far and
`opened` says whether the character before it opens a date. -/
def exchangeDatesFrom (opened : Bool) (run : List Char) : Line → Line
  | [] => run
  | c :: rest =>
    if isDateDelimiter c then
      exchangeName opened run c ++ c :: exchangeDatesFrom (opensDate c) [] rest
    else
      exchangeDatesFrom opened (run ++ [c]) rest

/-- The line with all its delimited dates exchanged. -/
def exchangeDates (opened : Bool) (line : Line) : Line :=
  exchangeDatesFrom opened [] line

theorem isNameChar_of_mem_newDate : ∀ c ∈ newDate, isNameChar c :=
  List.all_eq_true.1 (by decide)

theorem not_opensDate_of_isNameChar (h : isNameChar c) : opensDate c = false := by
  unfold isNameChar isDateDelimiter at h
  rw [Bool.not_eq_true', Bool.or_eq_false_iff] at h
  exact h.1

theorem exchangeDatesFrom_append_of_isNameChar (hrun : ∀ c ∈ run, isNameChar c)
    (opened : Bool) (before rest : List Char) :
    exchangeDatesFrom opened before (run ++ rest) =
      exchangeDatesFrom opened (before ++ run) rest := by
  induction run generalizing before with
  | nil => rw [List.nil_append, List.append_nil]
  | cons c tail ih =>
    have hc : isDateDelimiter c = false := by
      simpa [isNameChar] using hrun c List.mem_cons_self
    rw [List.cons_append, exchangeDatesFrom, if_neg (by simp [hc]),
      ih (fun e he => hrun e (List.mem_cons_of_mem _ he)), List.append_assoc,
      List.singleton_append]

theorem exchangeDates_of_isNameChar (hrun : ∀ c ∈ run, isNameChar c) (opened : Bool) :
    exchangeDates opened run = run := by
  have := exchangeDatesFrom_append_of_isNameChar hrun opened [] []
  rwa [List.append_nil, List.nil_append, exchangeDatesFrom] at this

/-- A name at the start of a line is exchanged or stays, as the delimiters around it say. -/
theorem exchangeDates_append_cons (hrun : ∀ c ∈ run, isNameChar c) (hd : isNameChar d = false)
    (opened : Bool) (rest : Line) :
    exchangeDates opened (run ++ d :: rest) =
      exchangeName opened run d ++ d :: exchangeDates (opensDate d) rest := by
  have hdelimiter : isDateDelimiter d = true := by simpa [isNameChar] using hd
  rw [exchangeDates, exchangeDatesFrom_append_of_isNameChar hrun, List.nil_append,
    exchangeDatesFrom, if_pos hdelimiter, exchangeDates]

/-! ### One round -/

theorem oldDate_eq : oldDate = ['D', 'a', 't', 'e'] := by
  decide

theorem replaceDatesOnce_date (before after : Char) (rest : Line) :
    replaceDatesOnce (before :: (oldDate ++ after :: rest)) =
      if opensDate before && closesDate after then
        before :: (newDate ++ after :: replaceDatesOnce rest)
      else before :: replaceDatesOnce (oldDate ++ after :: rest) := by
  simp only [oldDate_eq, List.cons_append, List.nil_append]
  rw [replaceDatesOnce]
  rfl

theorem replaceDatesOnce_of_not_date (h : ∀ after rest', rest ≠ oldDate ++ after :: rest')
    (before : Char) : replaceDatesOnce (before :: rest) = before :: replaceDatesOnce rest := by
  simp only [oldDate_eq, List.cons_append, List.nil_append] at h
  rw [replaceDatesOnce]
  exact h

theorem replaceDatesOnce_cons_of_not_opensDate (hc : opensDate c = false) (rest : Line) :
    replaceDatesOnce (c :: rest) = c :: replaceDatesOnce rest := by
  by_cases h : ∃ after rest', rest = oldDate ++ after :: rest'
  · obtain ⟨after, rest', rfl⟩ := h
    rw [replaceDatesOnce_date, hc, Bool.false_and, if_neg (by simp)]
  · simp only [not_exists] at h
    exact replaceDatesOnce_of_not_date h c

theorem replaceDatesOnce_append_of_isNameChar (hrun : ∀ c ∈ run, isNameChar c) (rest : Line) :
    replaceDatesOnce (run ++ rest) = run ++ replaceDatesOnce rest := by
  induction run with
  | nil => rfl
  | cons c tail ih =>
    rw [List.cons_append, replaceDatesOnce_cons_of_not_opensDate
      (not_opensDate_of_isNameChar (hrun c List.mem_cons_self)),
      ih fun e he => hrun e (List.mem_cons_of_mem _ he), List.cons_append]

theorem replaceDatesOnce_of_isNameChar (hrun : ∀ c ∈ run, isNameChar c) :
    replaceDatesOnce run = run := by
  have := replaceDatesOnce_append_of_isNameChar hrun []
  rwa [List.append_nil, replaceDatesOnce, List.append_nil] at this

/-- One round over the rest of a line; `opened` says whether the character before it opens a
date. -/
def roundFrom (opened : Bool) (line : Line) : Line :=
  if opened then (replaceDatesOnce ('(' :: line)).tail else replaceDatesOnce line

theorem replaceDatesOnce_cons (c : Char) (line : Line) :
    replaceDatesOnce (c :: line) = c :: roundFrom (opensDate c) line := by
  by_cases hc : opensDate c = true
  · rw [hc, roundFrom, if_pos rfl]
    by_cases h : ∃ after rest, line = oldDate ++ after :: rest
    · obtain ⟨after, rest, rfl⟩ := h
      rw [replaceDatesOnce_date, replaceDatesOnce_date, hc, show opensDate '(' = true by decide]
      split <;> rfl
    · simp only [not_exists] at h
      rw [replaceDatesOnce_of_not_date h, replaceDatesOnce_of_not_date h, List.tail_cons]
  · have hc' : opensDate c = false := by simpa using hc
    rw [replaceDatesOnce_cons_of_not_opensDate hc', hc', roundFrom, if_neg (by simp)]

theorem isNameChar_of_mem_oldDate : ∀ c ∈ oldDate, isNameChar c :=
  List.all_eq_true.1 (by decide)

theorem not_isNameChar_of_closesDate (h : closesDate c = true) : isNameChar c = false := by
  simp [isNameChar, isDateDelimiter, h]

theorem not_isNameChar_of_opensDate (h : opensDate c = true) : isNameChar c = false := by
  simp [isNameChar, isDateDelimiter, h]

/-- A name that nothing closes stays. -/
theorem roundFrom_of_isNameChar (hrun : ∀ c ∈ run, isNameChar c) (opened : Bool) :
    roundFrom opened run = run := by
  have hstays := replaceDatesOnce_of_isNameChar hrun
  cases opened with
  | false => exact hstays
  | true =>
    rw [roundFrom, if_pos rfl]
    by_cases h : ∃ after rest, run = oldDate ++ after :: rest
    · obtain ⟨after, rest, rfl⟩ := h
      have hafter : closesDate after = false := by
        rw [Bool.eq_false_iff]
        intro hcloses
        have hname := hrun after (by simp)
        rw [not_isNameChar_of_closesDate hcloses] at hname
        exact absurd hname (by simp)
      rw [replaceDatesOnce_date, hafter, Bool.and_false, if_neg (by simp), hstays, List.tail_cons]
    · simp only [not_exists] at h
      rw [replaceDatesOnce_of_not_date h, hstays, List.tail_cons]

/-- A round exchanges a date whose opening delimiter closed none before. -/
theorem roundFrom_append_cons (hrun : ∀ c ∈ run, isNameChar c) (hd : isNameChar d = false)
    (opened : Bool) (rest : Line) :
    roundFrom opened (run ++ d :: rest) =
      if opened && closesDate d && run = oldDate then newDate ++ d :: roundFrom false rest
      else run ++ d :: roundFrom (opensDate d) rest := by
  have hstays : replaceDatesOnce (run ++ d :: rest) = run ++ d :: roundFrom (opensDate d) rest := by
    rw [replaceDatesOnce_append_of_isNameChar hrun, replaceDatesOnce_cons]
  cases opened with
  | false => simpa [roundFrom] using hstays
  | true =>
    rw [roundFrom, if_pos rfl, Bool.true_and]
    by_cases h : ∃ after rest', run ++ d :: rest = oldDate ++ after :: rest'
    · obtain ⟨after, rest', heq⟩ := h
      rw [heq, replaceDatesOnce_date, show opensDate '(' = true by decide, Bool.true_and, ← heq]
      by_cases hafter : closesDate after = true
      · have hname := eq_of_append_cons_eq hrun isNameChar_of_mem_oldDate hd
          (not_isNameChar_of_closesDate hafter) heq
        rw [hname] at heq
        obtain ⟨rfl, rfl⟩ := List.cons.inj (List.append_cancel_left heq)
        rw [if_pos hafter, if_pos (by simp [hafter, hname]), List.tail_cons, roundFrom,
          if_neg (by simp)]
      · have hnot : ¬(closesDate d && run = oldDate) = true := by
          intro hand
          rw [Bool.and_eq_true, decide_eq_true_eq] at hand
          rw [hand.2] at heq
          obtain ⟨rfl, -⟩ := List.cons.inj (List.append_cancel_left heq)
          exact hafter hand.1
        rw [if_neg hafter, if_neg hnot, List.tail_cons, hstays]
    · have hnot : ¬(closesDate d && run = oldDate) = true := by
        intro hand
        rw [Bool.and_eq_true, decide_eq_true_eq] at hand
        exact h ⟨d, rest, by rw [hand.2]⟩
      simp only [not_exists] at h
      rw [replaceDatesOnce_of_not_date h, if_neg hnot, List.tail_cons, hstays]

/-! ### The rounds together -/

theorem exchangeName_eq_or_eq (opened : Bool) (run : List Char) (next : Char) :
    exchangeName opened run next = run ∨ exchangeName opened run next = newDate := by
  unfold exchangeName
  split
  · exact .inr rfl
  · exact .inl rfl

theorem exchangeName_eq_or_length (opened : Bool) (run : List Char) (next : Char) :
    exchangeName opened run next = run ∨
      (exchangeName opened run next).length = run.length + 10 := by
  unfold exchangeName
  split
  · rename_i h
    rw [Bool.and_eq_true, decide_eq_true_eq] at h
    right
    rw [h.2]
    decide
  · exact .inl rfl

/-- The exchange of all dates leaves a line alone or makes it longer. -/
theorem exchangeDates_eq_or_length (line : Line) : ∀ opened, exchangeDates opened line = line ∨
    line.length + 10 ≤ (exchangeDates opened line).length := by
  induction line using run_induction isNameChar with
  | last run hrun =>
    intro opened
    exact .inl (exchangeDates_of_isNameChar hrun opened)
  | next run d rest hrun hd ih =>
    intro opened
    rw [exchangeDates_append_cons hrun hd]
    have hrest := ih (opensDate d)
    simp only [List.length_append, List.length_cons]
    rcases exchangeName_eq_or_length opened run d with hname | hname
    · rw [hname]
      rcases hrest with hrest | hrest
      · exact .inl (by rw [hrest])
      · exact .inr (by omega)
    · right
      rcases hrest with hrest | hrest
      · rw [hrest]
        omega
      · omega

theorem length_le_exchangeDates (line : Line) (opened : Bool) :
    line.length ≤ (exchangeDates opened line).length := by
  rcases exchangeDates_eq_or_length line opened with h | h
  · exact Nat.le_of_eq (congrArg List.length h).symm
  · omega

theorem length_exchangeDates_le (line : Line) :
    ∀ opened, (exchangeDates opened line).length ≤ 11 * line.length := by
  induction line using run_induction isNameChar with
  | last run hrun =>
    intro opened
    rw [exchangeDates_of_isNameChar hrun]
    omega
  | next run d rest hrun hd ih =>
    intro opened
    rw [exchangeDates_append_cons hrun hd]
    have hrest := ih (opensDate d)
    simp only [List.length_append, List.length_cons]
    rcases exchangeName_eq_or_length opened run d with hname | hname
    · rw [hname]
      omega
    · omega

/-- A round leaves a line alone or makes it longer. -/
theorem roundFrom_eq_or_length (line : Line) : ∀ opened, roundFrom opened line = line ∨
    line.length + 10 ≤ (roundFrom opened line).length := by
  induction line using run_induction isNameChar with
  | last run hrun =>
    intro opened
    exact .inl (roundFrom_of_isNameChar hrun opened)
  | next run d rest hrun hd ih =>
    intro opened
    rw [roundFrom_append_cons hrun hd]
    split
    · rename_i h
      rw [Bool.and_eq_true, decide_eq_true_eq] at h
      right
      rw [h.2]
      simp only [List.length_append, List.length_cons, show newDate.length = 14 by decide,
        show oldDate.length = 4 by decide]
      rcases ih false with hrest | hrest
      · rw [hrest]
        omega
      · omega
    · rcases ih (opensDate d) with hrest | hrest
      · exact .inl (by rw [hrest])
      · right
        simp only [List.length_append, List.length_cons]
        omega

/-- The dates of a line are exchanged as before once a round has exchanged some of them. -/
theorem exchangeDates_roundFrom (line : Line) : ∀ opened opened' : Bool, (opened → opened') →
    exchangeDates opened' (roundFrom opened line) = exchangeDates opened' line := by
  induction line using run_induction isNameChar with
  | last run hrun =>
    intro opened opened' _
    rw [roundFrom_of_isNameChar hrun]
  | next run d rest hrun hd ih =>
    intro opened opened' himp
    rw [roundFrom_append_cons hrun hd, exchangeDates_append_cons hrun hd]
    split
    · rename_i h
      rw [Bool.and_eq_true, Bool.and_eq_true, decide_eq_true_eq] at h
      obtain ⟨⟨hopened, hcloses⟩, rfl⟩ := h
      have hne : newDate ≠ oldDate := by decide
      have hnew : exchangeName opened' newDate d = newDate := if_neg (by simp [hne])
      have hold : exchangeName opened' oldDate d = newDate :=
        if_pos (by simp [himp hopened, hcloses])
      rw [exchangeDates_append_cons isNameChar_of_mem_newDate hd, hnew, hold,
        ih false (opensDate d) (by simp)]
    · rw [exchangeDates_append_cons hrun hd, ih (opensDate d) (opensDate d) fun h => h]

/-- A line that a round leaves alone has no date to exchange. -/
theorem exchangeDates_of_roundFrom_eq (line : Line) : ∀ opened, roundFrom opened line = line →
    exchangeDates opened line = line := by
  induction line using run_induction isNameChar with
  | last run hrun =>
    intro opened _
    exact exchangeDates_of_isNameChar hrun opened
  | next run d rest hrun hd ih =>
    intro opened h
    rw [roundFrom_append_cons hrun hd] at h
    split at h
    · rename_i hdate
      rw [Bool.and_eq_true, decide_eq_true_eq] at hdate
      have hlength := congrArg List.length h
      simp only [List.length_append, List.length_cons, hdate.2,
        show newDate.length = 14 by decide, show oldDate.length = 4 by decide] at hlength
      rcases roundFrom_eq_or_length rest false with hrest | hrest
      · rw [hrest] at hlength
        omega
      · omega
    · rename_i hdate
      have hrest := (List.cons.inj (List.append_cancel_left h)).2
      have hname : exchangeName opened run d = run := if_neg hdate
      rw [exchangeDates_append_cons hrun hd, hname, ih (opensDate d) hrest]

/-- Enough rounds exchange all dates. -/
theorem settleDates_eq_exchangeDates (rounds : Nat) (line : Line)
    (h : (exchangeDates false line).length ≤ line.length + 10 * rounds) :
    settleDates rounds line = exchangeDates false line := by
  induction rounds generalizing line with
  | zero =>
    rcases exchangeDates_eq_or_length line false with heq | hlength
    · rw [heq, settleDates]
    · omega
  | succ rounds ih =>
    have hround : replaceDatesOnce line = roundFrom false line := by rw [roundFrom, if_neg (by simp)]
    simp only [settleDates, hround]
    split
    · rename_i heq
      exact (exchangeDates_of_roundFrom_eq line false heq).symm
    · rename_i hne
      have hexchange := exchangeDates_roundFrom line false false fun h => h
      have hlength := (roundFrom_eq_or_length line false).resolve_left hne
      rw [← hexchange]
      exact ih _ (by rw [hexchange]; omega)

/-- The rounds exchange all delimited dates of a line. -/
theorem replaceDates_eq_exchangeDates (line : Line) :
    replaceDates line = exchangeDates false line := by
  have hlength := length_exchangeDates_le line false
  exact settleDates_eq_exchangeDates line.length line (by omega)

/-! ### Lines that are left alone -/

/-- A date between its delimiters stands in the line. -/
def HasDate (line : Line) : Prop :=
  ∃ before opening closing after, line = before ++ opening :: (oldDate ++ closing :: after) ∧
    opensDate opening = true ∧ closesDate closing = true

theorem HasDate.append_left (h : HasDate line) (before : Line) : HasDate (before ++ line) := by
  obtain ⟨before', opening, closing, after, rfl, hopens, hcloses⟩ := h
  exact ⟨before ++ before', opening, closing, after, by rw [List.append_assoc], hopens, hcloses⟩

theorem HasDate.of_cons (h : HasDate (c :: line)) (hc : opensDate c = false) : HasDate line := by
  obtain ⟨before, opening, closing, after, heq, hopens, hcloses⟩ := h
  cases before with
  | nil =>
    obtain ⟨rfl, -⟩ := List.cons.inj heq
    rw [hc] at hopens
    contradiction
  | cons d before =>
    exact ⟨before, opening, closing, after, (List.cons.inj heq).2, hopens, hcloses⟩

/-- A delimiter closes what stands before it and opens what stands behind it. -/
theorem exchangeDates_append_delimiter (hd : isNameChar d = false) (before rest : Line) :
    ∀ opened, exchangeDates opened (before ++ d :: rest) =
      exchangeDates opened (before ++ [d]) ++ exchangeDates (opensDate d) rest := by
  induction before using run_induction isNameChar with
  | last run hrun =>
    intro opened
    have hnil : exchangeDates (opensDate d) [] = [] := rfl
    rw [exchangeDates_append_cons hrun hd, exchangeDates_append_cons hrun hd, hnil,
      List.append_assoc, List.singleton_append]
  | next run e before hrun he ih =>
    intro opened
    rw [List.append_assoc, List.append_assoc, List.cons_append, List.cons_append,
      exchangeDates_append_cons hrun he, exchangeDates_append_cons hrun he, ih, List.append_assoc,
      List.cons_append]

theorem exchangeDates_of_not_hasDate (line : Line) : ∀ before, ¬HasDate (before :: line) →
    exchangeDates (opensDate before) line = line := by
  induction line using run_induction isNameChar with
  | last run hrun =>
    intro before _
    exact exchangeDates_of_isNameChar hrun _
  | next run d rest hrun hd ih =>
    intro before hnot
    have hname : exchangeName (opensDate before) run d = run := by
      unfold exchangeName
      split
      · rename_i h
        rw [Bool.and_eq_true, Bool.and_eq_true, decide_eq_true_eq] at h
        obtain ⟨⟨hopens, hcloses⟩, rfl⟩ := h
        exact absurd ⟨[], before, d, rest, rfl, hopens, hcloses⟩ hnot
      · rfl
    have hrest : ¬HasDate (d :: rest) := fun h => hnot (h.append_left (before :: run))
    rw [exchangeDates_append_cons hrun hd, hname, ih d hrest]

/-- A line is left alone exactly when no delimited date stands in it. -/
theorem replaceDates_eq_self_iff : replaceDates line = line ↔ ¬HasDate line := by
  rw [replaceDates_eq_exchangeDates]
  constructor
  · rintro heq ⟨before, opening, closing, after, rfl, hopens, hcloses⟩
    -- The date grows, and nothing around it gets shorter.
    have hopening := not_isNameChar_of_opensDate hopens
    have hclosing := not_isNameChar_of_closesDate hcloses
    have hname : exchangeName true oldDate closing = newDate := if_pos (by simp [hcloses])
    rw [exchangeDates_append_delimiter hopening, hopens,
      exchangeDates_append_cons isNameChar_of_mem_oldDate hclosing, hname] at heq
    have hlength := congrArg List.length heq
    simp only [List.length_append, List.length_cons, show newDate.length = 14 by decide,
      show oldDate.length = 4 by decide] at hlength
    have hbefore := length_le_exchangeDates (before ++ [opening]) false
    have hafter := length_le_exchangeDates after (opensDate closing)
    rw [List.length_append, List.length_singleton] at hbefore
    omega
  · intro hnot
    have hfirst : opensDate ';' = false := by decide
    have hline := exchangeDates_of_not_hasDate line ';' fun h => hnot (h.of_cons hfirst)
    rwa [hfirst] at hline

theorem exchangeDates_exchangeDates (line : Line) : ∀ opened,
    exchangeDates opened (exchangeDates opened line) = exchangeDates opened line := by
  induction line using run_induction isNameChar with
  | last run hrun =>
    intro opened
    rw [exchangeDates_of_isNameChar hrun, exchangeDates_of_isNameChar hrun]
  | next run d rest hrun hd ih =>
    intro opened
    have hname : ∀ c ∈ exchangeName opened run d, isNameChar c := by
      rcases exchangeName_eq_or_eq opened run d with h | h
      · rwa [h]
      · rw [h]
        exact isNameChar_of_mem_newDate
    have htwice : exchangeName opened (exchangeName opened run d) d = exchangeName opened run d := by
      rcases exchangeName_eq_or_eq opened run d with h | h
      · rw [h, h]
      · rw [h]
        exact if_neg (by simp [show newDate ≠ oldDate by decide])
    rw [exchangeDates_append_cons hrun hd, exchangeDates_append_cons hname hd, htwice, ih]

/-- Replacing the dates of a line again changes nothing. -/
theorem replaceDates_replaceDates (line : Line) :
    replaceDates (replaceDates line) = replaceDates line := by
  rw [replaceDates_eq_exchangeDates, replaceDates_eq_exchangeDates, exchangeDates_exchangeDates]

/-- No delimited date is left. -/
theorem not_hasDate_replaceDates (line : Line) : ¬HasDate (replaceDates line) :=
  replaceDates_eq_self_iff.1 (replaceDates_replaceDates line)

/-! ### Quotes and backslashes -/

/-! ### Parts of lines -/

theorem hasDate_iff_infix :
    HasDate line ↔ ∃ opening closing, opensDate opening = true ∧ closesDate closing = true ∧
      opening :: (oldDate ++ [closing]) <:+: line := by
  constructor
  · rintro ⟨before, opening, closing, after, rfl, hopens, hcloses⟩
    exact ⟨opening, closing, hopens, hcloses, before, after, by simp⟩
  · rintro ⟨opening, closing, hopens, hcloses, before, after, rfl⟩
    exact ⟨before, opening, closing, after, by simp, hopens, hcloses⟩

/-- A date in a part of a line stands in the line. -/
theorem HasDate.mono {part : Line} (h : HasDate part) (hpart : part <:+: line) : HasDate line := by
  obtain ⟨opening, closing, hopens, hcloses, hinfix⟩ := hasDate_iff_infix.1 h
  exact hasDate_iff_infix.2 ⟨opening, closing, hopens, hcloses, hinfix.trans hpart⟩

/-- No date goes over a character that is neither a delimiter nor part of the name. -/
theorem hasDate_append_foreign_iff (hc : isNameChar c = true) (hforeign : c ∉ oldDate)
    (before after : Line) : HasDate (before ++ c :: after) ↔ HasDate before ∨ HasDate after := by
  have hnot : ∀ {opening closing}, opensDate opening = true → closesDate closing = true →
      c ∉ opening :: (oldDate ++ [closing]) := by
    intro opening closing hopens hcloses hmem
    rw [List.mem_cons, List.mem_append, List.mem_singleton] at hmem
    rcases hmem with rfl | hmem | rfl
    · rw [not_isNameChar_of_opensDate hopens] at hc
      contradiction
    · exact hforeign hmem
    · rw [not_isNameChar_of_closesDate hcloses] at hc
      contradiction
  constructor
  · intro h
    obtain ⟨opening, closing, hopens, hcloses, hinfix⟩ := hasDate_iff_infix.1 h
    refine ((infix_append_cons_iff (hnot hopens hcloses)).1 hinfix).imp ?_ ?_
    · exact fun hpart => hasDate_iff_infix.2 ⟨opening, closing, hopens, hcloses, hpart⟩
    · exact fun hpart => hasDate_iff_infix.2 ⟨opening, closing, hopens, hcloses, hpart⟩
  · rintro (h | h)
    · exact h.mono (List.prefix_append before (c :: after)).isInfix
    · exact h.mono ((List.suffix_cons c after).trans (List.suffix_append before _)).isInfix

/-- A date that goes up to a delimiter or begins with it stands on one side of it. -/
theorem hasDate_append_delimiter_iff (hd : isNameChar d = false) (before rest : Line) :
    HasDate (before ++ d :: rest) ↔ HasDate (before ++ [d]) ∨ HasDate (d :: rest) := by
  have hsettled : ∀ line, ¬HasDate line ↔ exchangeDates false line = line := fun line => by
    rw [← replaceDates_eq_exchangeDates, replaceDates_eq_self_iff]
  rw [← not_iff_not, not_or]
  constructor
  · intro hnot
    exact ⟨fun h => hnot (h.mono ⟨[], rest, by simp⟩), fun h => hnot (h.append_left before)⟩
  · rintro ⟨hbefore, hrest⟩
    rw [hsettled, exchangeDates_append_delimiter hd, (hsettled _).1 hbefore,
      exchangeDates_of_not_hasDate rest d hrest, List.append_assoc, List.singleton_append]

theorem mem_of_mem_exchangeDates (line : Line) : ∀ opened, c ∈ exchangeDates opened line →
    c ∈ line ∨ c ∈ newDate := by
  induction line using run_induction isNameChar with
  | last run hrun =>
    intro opened h
    rw [exchangeDates_of_isNameChar hrun] at h
    exact .inl h
  | next run d rest hrun hd ih =>
    intro opened h
    rw [exchangeDates_append_cons hrun hd, List.mem_append, List.mem_cons] at h
    rcases h with h | rfl | h
    · rcases exchangeName_eq_or_eq opened run d with hname | hname
      · exact .inl (List.mem_append_left _ (hname ▸ h))
      · exact .inr (hname ▸ h)
    · exact .inl (by simp)
    · rcases ih _ h with h | h
      · exact .inl (by simp [h])
      · exact .inr h

theorem newline_not_mem_replaceDates (h : '\n' ∉ line) : '\n' ∉ replaceDates line := by
  rw [replaceDates_eq_exchangeDates]
  intro hmem
  rcases mem_of_mem_exchangeDates line false hmem with hline | hnew
  · exact h hline
  · exact absurd hnew (by decide)

/-- A name character that the old date does not hold parts a line in two. -/
theorem exchangeDates_append_foreign (hc : isNameChar c = true) (hforeign : c ∉ oldDate)
    (before after : Line) : ∀ opened, exchangeDates opened (before ++ c :: after) =
      exchangeDates opened before ++ c :: exchangeDates false after := by
  induction before using run_induction isNameChar with
  | last run hrun =>
    intro opened
    rw [exchangeDates_of_isNameChar hrun]
    have hlonger : ∀ run', (∀ e ∈ run', isNameChar e) → ∀ e ∈ run ++ c :: run', isNameChar e := by
      intro run' hrun' e he
      rcases List.mem_append.1 he with he | he
      · exact hrun e he
      · rcases List.mem_cons.1 he with rfl | he
        · exact hc
        · exact hrun' e he
    induction after using run_induction isNameChar with
    | last run' hrun' =>
      rw [exchangeDates_of_isNameChar hrun', exchangeDates_of_isNameChar (hlonger run' hrun')]
    | next run' d rest hrun' hd _ =>
      have hne : run ++ c :: run' ≠ oldDate := fun h => hforeign (h ▸ by simp)
      have hname : exchangeName opened (run ++ c :: run') d = run ++ c :: run' :=
        if_neg (by simp [hne])
      have hname' : exchangeName false run' d = run' := if_neg (by simp)
      have happend : run ++ c :: (run' ++ d :: rest) = (run ++ c :: run') ++ d :: rest := by
        rw [List.append_assoc, List.cons_append]
      rw [happend, exchangeDates_append_cons (hlonger run' hrun') hd,
        exchangeDates_append_cons hrun' hd, hname, hname', List.append_assoc, List.cons_append]
  | next run d before hrun hd ih =>
    intro opened
    rw [List.append_assoc, List.cons_append, exchangeDates_append_cons hrun hd,
      exchangeDates_append_cons hrun hd, ih, List.append_assoc, List.cons_append]

theorem splitsAt_replaceDates (hc : isNameChar c = true) (hforeign : c ∉ oldDate) :
    SplitsAt replaceDates c := by
  intro before after
  simp only [replaceDates_eq_exchangeDates]
  exact exchangeDates_append_foreign hc hforeign before after false

/-- Replacing dates leaves quotes and backslashes alone. -/
theorem keepsQuotes_replaceDates : KeepsQuotes replaceDates where
  quote := splitsAt_replaceDates (by decide) (by decide)
  backslash := splitsAt_replaceDates (by decide) (by decide)
  plain := by
    intro text hplain c hc
    rw [replaceDates_eq_exchangeDates] at hc
    rcases mem_of_mem_exchangeDates text false hc with h | h
    · exact hplain c h
    · exact List.all_eq_true.1 (show newDate.all isPlain = true by decide) c h
  eq_nil_iff := by
    intro text
    rw [replaceDates_eq_exchangeDates]
    rcases exchangeDates_eq_or_length text false with h | h
    · rw [h]
    · have hne : exchangeDates false text ≠ [] := by
        intro hnil
        rw [hnil, List.length_nil] at h
        omega
      have htext : text ≠ [] := by
        rintro rfl
        exact hne rfl
      exact iff_of_false hne htext

end RamlBuild
