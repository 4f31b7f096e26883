import RamlBuild.Proofs.Text.Blank
import RamlBuild.Text.Word

/-!
# Working word by word

A text falls into its words, the runs of word characters between the other characters. Replacing a
word that stands alone works on each of these runs by itself, so it shows in the words of the result
and leaves a text alone exactly when the word is none of its words.

A word stands somewhere in a text exactly when it stands in one of the words of the text, and working
on the words of a text moves none of the characters between them. So where such a character stands
behind the work, it stood before it, with the same texts on both sides.

## Main definitions

* `Text.SplitsAt` — works on both sides of a character by itself
* `Text.words` — the words of a text, an empty one between neighbouring other characters
* `Text.WorksByWords` — works on each word by itself and makes a word of it

## Main results

* `Text.run_induction` — induction along the runs of a class of characters
* `Text.WorksByWords.words_map`, `Text.WorksByWords.eq_self_iff` — what becomes of the words
* `Text.worksByWords_replaceWord` — replacing a word works word by word
* `Text.isWordChar_of_isBlank` — no blank is part of a word
* `Text.takeRun?_eq_some_iff` — the run of a class of characters that a text begins with
* `Text.infix_iff_exists_mem_words` — what stands in a text stands in a word of it
* `Text.WorksByWords.exists_of_append_cons` — the characters between words were there before
-/

namespace RamlBuild.Text

variable {f g : List Char → List Char} {text run word new rest : List Char} {c : Char}

/-! ### Runs of a class of characters -/

/-- Induction along the runs of a class: a text is one run, or a run with another character and a
text behind it. -/
theorem run_induction {motive : List Char → Prop} (p : Char → Bool)
    (last : ∀ run, (∀ c ∈ run, p c) → motive run)
    (next : ∀ run c rest, (∀ d ∈ run, p d) → p c = false → motive rest →
      motive (run ++ c :: rest))
    (text : List Char) : motive text := by
  -- The run that has been read so far is carried along.
  have carried : ∀ run, (∀ c ∈ run, p c) → motive (run ++ text) := by
    induction text with
    | nil =>
      intro run hrun
      rw [List.append_nil]
      exact last run hrun
    | cons c rest ih =>
      intro run hrun
      by_cases hc : p c
      · have hlonger : ∀ d ∈ run ++ [c], p d := by
          intro d hd
          rcases List.mem_append.1 hd with hd | hd
          · exact hrun d hd
          · rw [List.mem_singleton.1 hd]
            exact hc
        have := ih (run ++ [c]) hlonger
        rwa [List.append_assoc, List.singleton_append] at this
      · exact next run c rest hrun (by simpa using hc) (ih [] (by simp))
  exact carried [] (by simp)

/-- Works on what stands before a character and on what stands behind it by themselves. -/
def SplitsAt (f : List Char → List Char) (c : Char) : Prop :=
  ∀ before after, f (before ++ c :: after) = f before ++ c :: f after

theorem SplitsAt.id : SplitsAt (fun text => text) c := fun _ _ => rfl

theorem SplitsAt.comp (hg : SplitsAt g c) (hf : SplitsAt f c) :
    SplitsAt (fun text => g (f text)) c := by
  intro before after
  simp only [hf before after, hg (f before) (f after)]

/-- What begins with the character keeps it. -/
theorem SplitsAt.cons (hf : SplitsAt f c) (hnil : f [] = []) (rest : List Char) :
    f (c :: rest) = c :: f rest := by
  simpa [hnil] using hf [] rest

/-! ### Words -/

/-- A text of word characters. -/
def IsWord (run : List Char) : Prop :=
  ∀ c ∈ run, isWordChar c = true

instance : Decidable (IsWord run) :=
  List.decidableBAll (isWordChar · = true) run

/-- The words of a text: what stands between its other characters. -/
def words (text : List Char) : List (List Char) :=
  text.splitOnP (!isWordChar ·)

theorem words_of_isWord (h : IsWord run) : words run = [run] :=
  List.splitOnP_eq_singleton fun c hc => by simp [h c hc]

theorem words_append_cons (hc : isWordChar c = false) (before after : List Char) :
    words (before ++ c :: after) = words before ++ words after :=
  List.splitOnP_append_cons before after (by simp [hc])

theorem isWord_of_mem_words (h : run ∈ words text) : IsWord run := by
  induction text using run_induction isWordChar with
  | last run' hrun =>
    rw [words_of_isWord hrun, List.mem_singleton] at h
    rwa [h]
  | next run' c rest hrun hc ih =>
    rw [words_append_cons hc, words_of_isWord hrun, List.singleton_append, List.mem_cons] at h
    rcases h with rfl | h
    · exact hrun
    · exact ih h

/-- Works on each word by itself, and makes a word of it. -/
structure WorksByWords (f : List Char → List Char) : Prop where
  /-- The characters between words stay. -/
  splitsAt : ∀ c, isWordChar c = false → SplitsAt f c
  /-- A word becomes a word. -/
  isWord : ∀ run, IsWord run → IsWord (f run)

namespace WorksByWords

theorem id : WorksByWords fun text => text :=
  ⟨fun _ _ => SplitsAt.id, fun _ h => h⟩

theorem comp (hg : WorksByWords g) (hf : WorksByWords f) : WorksByWords fun text => g (f text) :=
  ⟨fun c hc => (hg.splitsAt c hc).comp (hf.splitsAt c hc),
    fun run hrun => hg.isWord _ (hf.isWord run hrun)⟩

/-- Working on a text works on its words. -/
theorem words_map (hf : WorksByWords f) (text : List Char) :
    words (f text) = (words text).map f := by
  induction text using run_induction isWordChar with
  | last run hrun =>
    rw [words_of_isWord (hf.isWord run hrun), words_of_isWord hrun, List.map_singleton]
  | next run c rest hrun hc ih =>
    rw [hf.splitsAt c hc run rest, words_append_cons hc, words_append_cons hc,
      words_of_isWord (hf.isWord run hrun), words_of_isWord hrun, List.map_append,
      List.map_singleton, ih]

/-- What works the same on all words of a text works the same on the text. -/
theorem eq_of_words (hf : WorksByWords f) (hg : WorksByWords g)
    (h : ∀ run ∈ words text, f run = g run) : f text = g text := by
  induction text using run_induction isWordChar with
  | last run hrun => exact h run (by simp [words_of_isWord hrun])
  | next run c rest hrun hc ih =>
    rw [words_append_cons hc, words_of_isWord hrun] at h
    rw [hf.splitsAt c hc run rest, hg.splitsAt c hc run rest, h run (by simp),
      ih fun r hr => h r (by simp [hr])]

/-- No other character comes to a text. -/
theorem not_mem (hf : WorksByWords f) (hc : isWordChar c = false) (h : c ∉ text) : c ∉ f text := by
  induction text using run_induction isWordChar with
  | last run hrun =>
    intro hmem
    rw [hf.isWord run hrun c hmem] at hc
    contradiction
  | next run d rest hrun hd ih =>
    rw [hf.splitsAt d hd run rest]
    simp only [List.mem_append, List.mem_cons, not_or] at h ⊢
    refine ⟨?_, h.2.1, ih h.2.2⟩
    intro hmem
    rw [hf.isWord run hrun c hmem] at hc
    contradiction

/-- A text stays as it is exactly when its words do. -/
theorem eq_self_iff (hf : WorksByWords f) : f text = text ↔ ∀ run ∈ words text, f run = run := by
  constructor
  · intro h run hrun
    have hwords := hf.words_map text
    rw [h] at hwords
    exact List.map_inj_left.1 (hwords.symm.trans (List.map_id _).symm) run hrun
  · exact hf.eq_of_words WorksByWords.id

end WorksByWords

/-! ### Replacing a word -/

section ReplaceWord

variable {inWord : Bool}

theorem goesOnWithWord_append (hne : run ≠ []) (hrun : IsWord run) :
    goesOnWithWord (run ++ rest) = true := by
  obtain ⟨c, tail, rfl⟩ := List.exists_cons_of_ne_nil hne
  exact hrun c List.mem_cons_self

/-- A word stands at the start of a text and ends there when it is the first word of the text. -/
theorem standsFirst_iff (hword : IsWord word) (hrun : IsWord run)
    (hrest : goesOnWithWord rest = false) :
    (word.isPrefixOf (run ++ rest) = true ∧
      goesOnWithWord ((run ++ rest).drop word.length) = false) ↔ run = word := by
  constructor
  · rintro ⟨hstarts, hends⟩
    obtain ⟨tail, htail⟩ := List.isPrefixOf_iff_prefix.1 hstarts
    rw [← htail, List.drop_left] at hends
    rcases List.append_eq_append_iff.1 htail.symm with ⟨more, rfl, hmore⟩ | ⟨more, rfl, rfl⟩
    · -- The word goes on behind the run, where no word character stands.
      by_cases hnil : more = []
      · simp [hnil]
      · rw [hmore, goesOnWithWord_append hnil
          fun c hc => hword c (List.mem_append_right _ hc)] at hrest
        contradiction
    · by_cases hnil : more = []
      · simp [hnil]
      · rw [goesOnWithWord_append hnil fun c hc => hrun c (List.mem_append_right _ hc)] at hends
        contradiction
  · rintro rfl
    simp [List.isPrefixOf_iff_prefix, hrest]

/-- Another character stays, and a word can begin behind it. -/
theorem replaceWordFrom_cons_of_not_isWordChar (hne : word ≠ []) (hword : IsWord word)
    (hc : isWordChar c = false) (inWord : Bool) (rest : List Char) :
    replaceWordFrom word new inWord (c :: rest) = c :: replaceWordFrom word new false rest := by
  obtain ⟨d, tail, rfl⟩ := List.exists_cons_of_ne_nil hne
  have hd : d ≠ c := by
    rintro rfl
    rw [hword d List.mem_cons_self] at hc
    contradiction
  rw [replaceWordFrom, if_neg (by simp [hd]), hc]

/-- Within a word nothing is replaced up to its end. -/
theorem replaceWordFrom_append_of_isWord (hrun : IsWord run) (rest : List Char) :
    replaceWordFrom word new true (run ++ rest) = run ++ replaceWordFrom word new true rest := by
  induction run with
  | nil => rfl
  | cons c tail ih =>
    rw [List.cons_append, replaceWordFrom]
    simp only [Bool.not_true, Bool.false_and, Bool.false_eq_true, if_false]
    rw [hrun c List.mem_cons_self, ih fun d hd => hrun d (List.mem_cons_of_mem _ hd),
      List.cons_append]

/-- The first word of a text is replaced as a whole or stays. -/
theorem replaceWord_append_of_isWord (hne : word ≠ []) (hword : IsWord word) (hrun : IsWord run)
    (hrest : goesOnWithWord rest = false) (hrunne : run ≠ []) :
    replaceWord word new (run ++ rest) =
      (if run = word then new else run) ++ replaceWordFrom word new true rest := by
  obtain ⟨c, tail, rfl⟩ := List.exists_cons_of_ne_nil hrunne
  have hfirst := standsFirst_iff hword hrun hrest
  obtain ⟨n, hn⟩ := Nat.exists_eq_succ_of_ne_zero (mt List.length_eq_zero_iff.1 hne)
  rw [hn, List.cons_append, List.drop_succ_cons] at hfirst
  rw [replaceWord, List.cons_append, replaceWordFrom, hn, Nat.succ_sub_one]
  by_cases heq : c :: tail = word
  · obtain ⟨hstarts, hends⟩ := hfirst.2 heq
    have hlength : tail.length = n := by
      have := congrArg List.length heq
      rw [hn, List.length_cons] at this
      omega
    simp only [hstarts, hends, Bool.not_false, Bool.and_self, if_true, if_pos heq]
    rw [← hlength, List.drop_left]
  · have hnot : (word.isPrefixOf (c :: (tail ++ rest)) && !goesOnWithWord ((tail ++ rest).drop n)) =
        false := by
      rw [Bool.eq_false_iff]
      intro h
      rw [Bool.and_eq_true, Bool.not_eq_true'] at h
      exact heq (hfirst.1 h)
    simp only [Bool.not_false, Bool.true_and, hnot, Bool.false_eq_true, if_false, if_neg heq]
    rw [hrun c List.mem_cons_self,
      replaceWordFrom_append_of_isWord fun d hd => hrun d (List.mem_cons_of_mem _ hd),
      List.cons_append]

/-- A word is replaced as a whole or stays. -/
theorem replaceWord_of_isWord (hne : word ≠ []) (hword : IsWord word) (hrun : IsWord run) :
    replaceWord word new run = if run = word then new else run := by
  by_cases hnil : run = []
  · subst hnil
    rw [if_neg (Ne.symm hne), replaceWord, replaceWordFrom]
  · have happend : replaceWord word new (run ++ []) =
        (if run = word then new else run) ++ replaceWordFrom word new true [] :=
      replaceWord_append_of_isWord hne hword hrun rfl hnil
    rwa [replaceWordFrom, List.append_nil, List.append_nil] at happend

/-- Replacing a word works on each word by itself. -/
theorem worksByWords_replaceWord (hne : word ≠ []) (hword : IsWord word) (hnew : IsWord new) :
    WorksByWords (replaceWord word new) := by
  refine ⟨?splits, ?word⟩
  case splits =>
    intro c hc before after
    have hafter : ∀ b, replaceWordFrom word new b (c :: after) = c :: replaceWord word new after :=
      fun b => replaceWordFrom_cons_of_not_isWordChar hne hword hc b after
    -- The first word before the character is replaced by itself, whatever stands behind it.
    have hfirst : ∀ run d rest, IsWord run → isWordChar d = false →
        replaceWord word new (run ++ d :: rest) =
          replaceWord word new run ++ d :: replaceWord word new rest := by
      intro run d rest hrun hd
      have hcons : ∀ b, replaceWordFrom word new b (d :: rest) = d :: replaceWord word new rest :=
        fun b => replaceWordFrom_cons_of_not_isWordChar hne hword hd b rest
      by_cases hnil : run = []
      · subst hnil
        rw [List.nil_append, replaceWord, hcons, replaceWord_of_isWord hne hword hrun,
          if_neg (Ne.symm hne), List.nil_append]
      · have hends : goesOnWithWord (d :: rest) = false := hd
        rw [replaceWord_append_of_isWord hne hword hrun hends hnil, hcons,
          replaceWord_of_isWord hne hword hrun]
    induction before using run_induction isWordChar with
    | last run hrun => exact hfirst run c after hrun hc
    | next run d rest hrun hd ih =>
      rw [List.append_assoc, List.cons_append, hfirst run d _ hrun hd, ih,
        hfirst run d rest hrun hd, List.append_assoc, List.cons_append]
  case word =>
    intro run hrun
    rw [replaceWord_of_isWord hne hword hrun]
    split
    · exact hnew
    · exact hrun

end ReplaceWord

end RamlBuild.Text

/-! ## Searching among words -/

namespace RamlBuild.Text

variable {f : List Char → List Char} {text run part before after blanks : List Char} {c : Char}

/-! ### Blanks -/

/-- No blank is part of a word. -/
theorem isWordChar_of_isBlank (h : isBlank c) : isWordChar c = false := by
  have hall : ∀ n ∈ [9, 10, 11, 12, 13, 0x20, 0x85, 0xa0, 0x1680, 0x2000, 0x2001, 0x2002, 0x2003,
      0x2004, 0x2005, 0x2006, 0x2007, 0x2008, 0x2009, 0x200a, 0x2028, 0x2029, 0x202f, 0x205f, 0x3000],
      isWordChar (Char.ofNat n) = false := by
    decide +kernel
  rw [← Char.ofNat_toNat c]
  apply hall
  simp only [isBlank, Bool.or_eq_true, Bool.and_eq_true, decide_eq_true_eq, beq_iff_eq] at h
  simp only [List.mem_cons, List.not_mem_nil, or_false]
  omega

theorem words_append_of_blank (hblanks : Blank blanks) (h : run ∈ words (blanks ++ text)) :
    run = [] ∨ run ∈ words text := by
  induction blanks with
  | nil => exact .inr h
  | cons c rest ih =>
    have hc := isWordChar_of_isBlank (hblanks c List.mem_cons_self)
    have hfirst : words (c :: (rest ++ text)) = [] :: words (rest ++ text) :=
      words_append_cons hc [] (rest ++ text)
    rw [List.cons_append, hfirst, List.mem_cons] at h
    rcases h with rfl | h
    · exact .inl rfl
    · exact ih (fun d hd => hblanks d (List.mem_cons_of_mem c hd)) h

/-! ### Runs that a text begins with -/

theorem takeRun?_eq_some_iff {p : Char → Bool} {text run rest : List Char} :
    takeRun? p text = some (run, rest) ↔
      run ≠ [] ∧ (∀ c ∈ run, p c) ∧ text = run ++ rest ∧ ∀ c ∈ rest.head?, p c = false := by
  unfold takeRun?
  constructor
  · intro h
    split at h
    · contradiction
    · rename_i hrun
      obtain ⟨rfl, rfl⟩ := Prod.mk.inj (Option.some.inj h)
      refine ⟨hrun, fun c => List.mem_takeWhile_imp, List.takeWhile_append_dropWhile.symm, ?_⟩
      intro c hc
      have := List.head?_dropWhile_not p text
      rw [Option.mem_def.1 hc] at this
      simpa using this
  · rintro ⟨hne, hrun, rfl, hrest⟩
    have htake : rest.takeWhile p = [] := by
      cases rest with
      | nil => rfl
      | cons c rest => exact List.takeWhile_cons_of_neg (by simpa using hrest c rfl)
    have hdrop : rest.dropWhile p = rest := by
      cases rest with
      | nil => rfl
      | cons c rest => exact List.dropWhile_cons_of_neg (by simpa using hrest c rfl)
    rw [List.takeWhile_append_of_pos hrun, List.dropWhile_append_of_pos hrun, htake, hdrop,
      List.append_nil]
    cases run with
    | nil => exact absurd rfl hne
    | cons c run => rfl

/-! ### Words that stand in a text -/

/-- What a character is no part of stands on one of its sides. -/
theorem infix_append_cons_iff (hc : c ∉ part) :
    part <:+: before ++ c :: after ↔ part <:+: before ∨ part <:+: after := by
  constructor
  · rintro ⟨left, right, heq⟩
    rw [List.append_assoc] at heq
    rcases List.append_eq_append_iff.1 heq with ⟨more, hmore, hrest⟩ | ⟨more, hmore, hrest⟩
    · -- It begins before the character, and so it ends before it.
      left
      rcases List.append_eq_append_iff.1 hrest with ⟨end', hend, -⟩ | ⟨end', hend, hbehind⟩
      · exact ⟨left, end', by rw [hmore, hend, List.append_assoc]⟩
      · cases end' with
        | nil => exact ⟨left, [], by rw [hmore, hend]; simp⟩
        | cons d tail =>
          obtain ⟨rfl, -⟩ := List.cons.inj hbehind
          exact absurd (by simp [hend]) hc
    · right
      cases more with
      | nil =>
        cases part with
        | nil => exact List.nil_infix
        | cons d tail =>
          obtain ⟨rfl, -⟩ := List.cons.inj hrest
          exact absurd List.mem_cons_self hc
      | cons d tail =>
        rw [List.cons_append] at hrest
        obtain ⟨-, rfl⟩ := List.cons.inj hrest
        exact ⟨tail, right, List.append_assoc _ _ _⟩
  · rintro (h | h)
    · exact h.trans ⟨[], c :: after, by simp⟩
    · exact h.trans ⟨before ++ [c], [], by simp⟩

/-- What may end with a character, but has it nowhere before, stands up to it or behind it. -/
theorem infix_concat_append_cons {d : Char} (hc : c ∉ part)
    (h : part ++ [d] <:+: before ++ c :: after) :
    part ++ [d] <:+: before ++ [c] ∨ part ++ [d] <:+: after := by
  by_cases hd : d = c
  · subst hd
    obtain ⟨left, right, heq⟩ := h
    have heq : (left ++ part) ++ d :: right = before ++ d :: after := by
      rw [← heq]
      simp
    rcases List.append_eq_append_iff.1 heq with ⟨more, hmore, hrest⟩ | ⟨more, hmore, hrest⟩
    · left
      cases more with
      | nil => exact ⟨left, [], by simp [hmore]⟩
      | cons e tail =>
        obtain ⟨rfl, -⟩ := List.cons.inj hrest
        exact ⟨left, tail ++ [d], by simp [hmore]⟩
    · cases more with
      | nil =>
        rw [List.append_nil] at hmore
        exact .inl ⟨left, [], by simp [← hmore]⟩
      | cons e tail =>
        obtain ⟨rfl, rfl⟩ := List.cons.inj hrest
        right
        rcases List.append_eq_append_iff.1 hmore with ⟨middle, -, hpart⟩ | ⟨middle, hleft, hpart⟩
        · exact absurd (by simp [hpart]) hc
        · cases middle with
          | nil =>
            rw [List.nil_append] at hpart
            exact absurd (hpart ▸ List.mem_cons_self) hc
          | cons e middle =>
            obtain ⟨-, rfl⟩ := List.cons.inj hpart
            exact ⟨middle, right, by simp⟩
  · have hnot : c ∉ part ++ [d] := by simp [hc, Ne.symm hd]
    exact ((infix_append_cons_iff hnot).1 h).imp_left fun hbefore =>
      hbefore.trans (List.prefix_append _ _).isInfix

/-- A word stands in a text exactly when it stands in a word of the text. -/
theorem infix_iff_exists_mem_words (hpart : IsWord part) :
    part <:+: text ↔ ∃ run ∈ words text, part <:+: run := by
  induction text using run_induction isWordChar with
  | last run hrun => simp [words_of_isWord hrun]
  | next run c rest hrun hc ih =>
    have hnot : c ∉ part := by
      intro hmem
      rw [hpart c hmem] at hc
      contradiction
    rw [infix_append_cons_iff hnot, words_append_cons hc, words_of_isWord hrun, ih]
    simp

/-! ### Characters between words -/

/-- A character between words stood there before, and what stands on its sides is made of what stood
there. -/
theorem WorksByWords.exists_of_append_cons (hf : WorksByWords f) (hc : isWordChar c = false)
    (h : f text = before ++ c :: after) :
    ∃ before' after', text = before' ++ c :: after' ∧ f before' = before ∧ f after' = after := by
  induction text using run_induction isWordChar generalizing before with
  | last run hrun =>
    have hmem : c ∈ f run := by simp [h]
    rw [hf.isWord run hrun c hmem] at hc
    contradiction
  | next run d rest hrun hd ih =>
    have hword := hf.isWord run hrun
    rw [hf.splitsAt d hd] at h
    -- The first character between words is this one or stands before it.
    cases before using run_induction isWordChar with
    | last run' hrun' =>
      have hfirst := eq_of_append_cons_eq hword hrun' hd hc h
      rw [hfirst] at h
      obtain ⟨rfl, hafter⟩ := List.cons.inj (List.append_cancel_left h)
      exact ⟨run, rest, rfl, hfirst, hafter⟩
    | next run' e before hrun' he _ =>
      rw [List.append_assoc, List.cons_append] at h
      have hfirst := eq_of_append_cons_eq hword hrun' hd he h
      rw [hfirst] at h
      obtain ⟨rfl, hrest⟩ := List.cons.inj (List.append_cancel_left h)
      obtain ⟨before', after', rfl, hbefore, hafter⟩ := ih hrest
      refine ⟨run ++ d :: before', after', by simp, ?_, hafter⟩
      rw [hf.splitsAt d hd, hfirst, hbefore]

end RamlBuild.Text
