import Mathlib.Data.List.Nodup
import RamlBuild.Proofs.Text.Lines
import RamlBuild.Proofs.Text.Literals
import RamlBuild.Sources.Boxing

/-!
# What boxing does to a line

Boxing works word by word: a primitive keyword becomes its class and every other word stays, so a
line is left alone exactly when none of its words is a primitive. A boxed line has none left.

The keywords are boxed one after the other, each over the whole line. No class is a keyword, so no
replacement makes a word that another one finds, and none takes away a word that another one would
have found. So they amount to one pass over the line that looks each of its words up in the table.

## Main definitions

* `primitives` — the primitive keywords
* `mapWords` — one pass over a text that exchanges its words
* `exchangeEach` — the words of a table exchanged one after the other

## Main results

* `boxLine_of_isWord` — what becomes of a word
* `boxLine_eq_self_iff` — the lines that are left alone
* `boxLine_boxLine` — boxing a line again changes nothing
* `keepsQuotes_boxLine` — boxing leaves quotes and backslashes alone
* `WorksByWords.eq_mapWords` — what works word by word is one pass over the words
* `exchangeEach_perm` — the order of a table does not matter
* `words_exchangeEach_iff` — no exchange is fed by those before it
* `boxPrimitives_mapWords` — boxing as one pass over the words
-/

namespace RamlBuild

open Text

variable {line : Line} {run : List Char}

/-- The primitive keywords. -/
def primitives : List (List Char) :=
  boxedTypes.map Prod.fst

/-- A table of words to exchange, in which no new word is an old one. -/
structure IsWordTable (table : List (List Char × List Char)) : Prop where
  ne_nil : ∀ entry ∈ table, entry.1 ≠ []
  old : ∀ entry ∈ table, IsWord entry.1
  new : ∀ entry ∈ table, IsWord entry.2
  disjoint : ∀ entry ∈ table, entry.2 ∉ table.map Prod.fst

theorem IsWordTable.tail {entry : List Char × List Char} {rest : List (List Char × List Char)}
    (h : IsWordTable (entry :: rest)) : IsWordTable rest where
  ne_nil := fun e he => h.ne_nil e (List.mem_cons_of_mem _ he)
  old := fun e he => h.old e (List.mem_cons_of_mem _ he)
  new := fun e he => h.new e (List.mem_cons_of_mem _ he)
  disjoint := fun e he hmem => h.disjoint e (List.mem_cons_of_mem _ he) (List.mem_cons_of_mem _ hmem)

theorem isWordTable_boxedTypes : IsWordTable boxedTypes where
  ne_nil := by decide
  old := by decide
  new := by decide
  disjoint := by decide

/-- Exchanging the words of a table one after the other works word by word. -/
theorem worksByWords_foldl {table : List (List Char × List Char)} (h : IsWordTable table) :
    WorksByWords fun line => table.foldl (fun line (old, new) => replaceWord old new line) line := by
  induction table with
  | nil => exact WorksByWords.id
  | cons entry rest ih =>
    have hfirst := worksByWords_replaceWord (h.ne_nil entry List.mem_cons_self)
      (h.old entry List.mem_cons_self) (h.new entry List.mem_cons_self)
    exact (ih h.tail).comp hfirst

/-- Exchanging the words of a table one after the other looks a word up in it. -/
theorem foldl_replaceWord_of_isWord {table : List (List Char × List Char)} (h : IsWordTable table)
    (hrun : IsWord run) :
    table.foldl (fun line (old, new) => replaceWord old new line) run =
      (table.lookup run).getD run := by
  induction table generalizing run with
  | nil => rfl
  | cons entry rest ih =>
    obtain ⟨old, new⟩ := entry
    have hnew : IsWord new := h.new (old, new) List.mem_cons_self
    have hfirst : replaceWord old new run = if run = old then new else run :=
      replaceWord_of_isWord (h.ne_nil (old, new) List.mem_cons_self)
        (h.old (old, new) List.mem_cons_self) hrun
    simp only [List.foldl_cons, hfirst]
    by_cases heq : run = old
    · -- The new word is no old one of the rest, so it stays.
      have hnone : rest.lookup new = none := by
        rw [List.lookup_eq_none_iff]
        intro e he
        rw [bne_iff_ne]
        rintro rfl
        exact h.disjoint (old, e.1) List.mem_cons_self
          (List.mem_cons_of_mem _ (List.mem_map_of_mem he))
      rw [if_pos heq, ih h.tail hnew, hnone, heq]
      simp
    · have hne : (run == old) = false := by simp [heq]
      rw [if_neg heq, ih h.tail hrun, List.lookup_cons, hne]

theorem worksByWords_boxLine : WorksByWords boxLine :=
  worksByWords_foldl isWordTable_boxedTypes

/-- A primitive becomes its class, and any other word stays. -/
theorem boxLine_of_isWord (hrun : IsWord run) : boxLine run = (boxedTypes.lookup run).getD run :=
  foldl_replaceWord_of_isWord isWordTable_boxedTypes hrun

theorem boxLine_of_not_mem_primitives (hrun : IsWord run) (h : run ∉ primitives) :
    boxLine run = run := by
  have hnone : boxedTypes.lookup run = none := by
    rw [List.lookup_eq_none_iff]
    intro entry hentry
    rw [bne_iff_ne]
    rintro rfl
    exact h (List.mem_map_of_mem hentry)
  rw [boxLine_of_isWord hrun, hnone, Option.getD_none]

/-- No word is made a primitive. -/
theorem boxLine_not_mem_primitives (hrun : IsWord run) : boxLine run ∉ primitives := by
  by_cases h : run ∈ primitives
  · have hall : ∀ primitive ∈ primitives, (boxedTypes.lookup primitive).getD primitive ∉ primitives :=
      by decide
    rw [boxLine_of_isWord hrun]
    exact hall run h
  · rwa [boxLine_of_not_mem_primitives hrun h]

/-- A boxed line has no primitive among its words. -/
theorem not_mem_primitives_of_mem_words_boxLine (h : run ∈ words (boxLine line)) :
    run ∉ primitives := by
  rw [worksByWords_boxLine.words_map, List.mem_map] at h
  obtain ⟨word, hword, rfl⟩ := h
  exact boxLine_not_mem_primitives (isWord_of_mem_words hword)

/-- Boxing leaves a line alone exactly when none of its words is a primitive. -/
theorem boxLine_eq_self_iff : boxLine line = line ↔ ∀ run ∈ words line, run ∉ primitives := by
  rw [worksByWords_boxLine.eq_self_iff]
  constructor
  · intro h run hrun
    rw [← h run hrun]
    exact boxLine_not_mem_primitives (isWord_of_mem_words hrun)
  · intro h run hrun
    exact boxLine_of_not_mem_primitives (isWord_of_mem_words hrun) (h run hrun)

/-- Boxing a line again changes nothing. -/
theorem boxLine_boxLine (line : Line) : boxLine (boxLine line) = boxLine line :=
  boxLine_eq_self_iff.2 fun _ => not_mem_primitives_of_mem_words_boxLine

theorem newline_not_mem_boxLine (h : '\n' ∉ line) : '\n' ∉ boxLine line :=
  worksByWords_boxLine.not_mem (by decide) h

/-- Boxing leaves quotes and backslashes alone. -/
theorem keepsQuotes_boxLine : KeepsQuotes boxLine := by
  refine KeepsQuotes.of_worksByWords worksByWords_boxLine ?_
  intro run hrun
  by_cases h : run ∈ primitives
  · have hall : ∀ primitive ∈ primitives,
        (boxedTypes.lookup primitive).getD primitive ≠ [] ∧ primitive ≠ [] := by decide
    rw [boxLine_of_isWord hrun]
    exact iff_of_false (hall run h).1 (hall run h).2
  · rw [boxLine_of_not_mem_primitives hrun h]

section Words

variable {f g : List Char → List Char} {line run text : List Char} {c : Char}
  {table earlier later : List (List Char × List Char)} {entry other : List Char × List Char}

/-! ### One pass over the words -/

/-- Exchanges the words of a text, where `run` is the part of a word that was read before it. -/
def mapWordsFrom (f : List Char → List Char) (run : List Char) : List Char → List Char
  | [] => f run
  | c :: rest =>
    if isWordChar c then mapWordsFrom f (run ++ [c]) rest
    else f run ++ c :: mapWordsFrom f [] rest

/-- Exchanges the words of a text, which are its longest runs of word characters, all at once. -/
def mapWords (f : List Char → List Char) (text : List Char) : List Char :=
  mapWordsFrom f [] text

theorem mapWordsFrom_append (hrun : IsWord run) (before rest : List Char) :
    mapWordsFrom f before (run ++ rest) = mapWordsFrom f (before ++ run) rest := by
  induction run generalizing before with
  | nil => rw [List.nil_append, List.append_nil]
  | cons c tail ih =>
    rw [List.cons_append, mapWordsFrom, if_pos (hrun c List.mem_cons_self),
      ih (fun d hd => hrun d (List.mem_cons_of_mem _ hd)), List.append_assoc, List.singleton_append]

theorem mapWords_of_isWord (hrun : IsWord run) : mapWords f run = f run := by
  have := mapWordsFrom_append (f := f) hrun [] []
  rwa [List.append_nil, List.nil_append, mapWordsFrom] at this

theorem mapWords_append_cons (hrun : IsWord run) (hc : isWordChar c = false) (rest : List Char) :
    mapWords f (run ++ c :: rest) = f run ++ c :: mapWords f rest := by
  rw [mapWords, mapWordsFrom_append hrun, mapWordsFrom, if_neg (by simp [hc]), List.nil_append,
    mapWords]

/-- What works word by word is one pass over the words. -/
theorem Text.WorksByWords.eq_mapWords (hf : WorksByWords f) (hg : ∀ run, IsWord run → f run = g run)
    (text : List Char) : f text = mapWords g text := by
  induction text using run_induction isWordChar with
  | last run hrun => rw [mapWords_of_isWord hrun, hg run hrun]
  | next run c rest hrun hc ih =>
    rw [hf.splitsAt c hc, mapWords_append_cons hrun hc, hg run hrun, ih]

/-! ### One exchange after the other -/

/-- The line with the words of a table exchanged, one after the other. -/
def exchangeEach (table : List (List Char × List Char)) (line : Line) : Line :=
  table.foldl (fun line (old, new) => replaceWord old new line) line

theorem IsWordTable.of_subset (h : IsWordTable table) (hsub : ∀ entry ∈ later, entry ∈ table) :
    IsWordTable later where
  ne_nil entry hentry := h.ne_nil entry (hsub entry hentry)
  old entry hentry := h.old entry (hsub entry hentry)
  new entry hentry := h.new entry (hsub entry hentry)
  disjoint entry hentry hmem := by
    obtain ⟨other, hother, heq⟩ := List.mem_map.1 hmem
    exact h.disjoint entry (hsub entry hentry) (List.mem_map.2 ⟨other, hsub other hother, heq⟩)

/-- Two exchanges of a table commute: neither finds what the other one made. -/
theorem replaceWord_comm (h : IsWordTable table) (hkeys : (table.map Prod.fst).Nodup)
    (hentry : entry ∈ table) (hother : other ∈ table) (line : Line) :
    replaceWord other.1 other.2 (replaceWord entry.1 entry.2 line) =
      replaceWord entry.1 entry.2 (replaceWord other.1 other.2 line) := by
  have hworks : ∀ e ∈ table, WorksByWords (replaceWord e.1 e.2) := fun e he =>
    worksByWords_replaceWord (h.ne_nil e he) (h.old e he) (h.new e he)
  have hword : ∀ e ∈ table, ∀ run, IsWord run →
      replaceWord e.1 e.2 run = if run = e.1 then e.2 else run := fun e he run hrun =>
    replaceWord_of_isWord (h.ne_nil e he) (h.old e he) hrun
  -- A new word is none of the old ones, so it stays.
  have hstays : ∀ e ∈ table, ∀ e' ∈ table, replaceWord e.1 e.2 e'.2 = e'.2 := by
    intro e he e' he'
    rw [hword e he _ (h.new e' he')]
    apply if_neg
    intro heq
    exact h.disjoint e' he' (heq ▸ List.mem_map_of_mem he)
  apply ((hworks other hother).comp (hworks entry hentry)).eq_of_words
    ((hworks entry hentry).comp (hworks other hother))
  intro run hrun
  have hrun := isWord_of_mem_words hrun
  rw [hword entry hentry run hrun, hword other hother run hrun]
  by_cases heq : run = entry.1
  · by_cases heq' : run = other.1
    · rw [List.inj_on_of_nodup_map hkeys hentry hother (heq.symm.trans heq')]
    · rw [if_pos heq, if_neg heq', hstays other hother entry hentry, hword entry hentry run hrun,
        if_pos heq]
  · rw [if_neg heq, hword other hother run hrun]
    split
    · exact (hstays entry hentry other hother).symm
    · rw [hword entry hentry run hrun, if_neg heq]

/-- The order of a table does not matter. -/
theorem exchangeEach_perm (h : IsWordTable table) (hkeys : (table.map Prod.fst).Nodup)
    (hperm : later.Perm table) (line : Line) : exchangeEach later line = exchangeEach table line := by
  apply Eq.symm
  apply hperm.symm.foldl_eq'
  intro entry hentry other hother line
  exact replaceWord_comm h hkeys hentry hother line

/-- No exchange is fed by those before it: it finds its word where the line had it at the start. -/
theorem words_exchangeEach_iff (h : IsWordTable (earlier ++ entry :: later))
    (hkeys : ((earlier ++ entry :: later).map Prod.fst).Nodup) (line : Line) (i : ℕ) :
    (words (exchangeEach earlier line))[i]? = some entry.1 ↔ (words line)[i]? = some entry.1 := by
  have hearlier : IsWordTable earlier :=
    h.of_subset fun e he => List.mem_append_left _ he
  have hworks : WorksByWords (exchangeEach earlier) := worksByWords_foldl hearlier
  have hword : ∀ run, IsWord run → (exchangeEach earlier run = entry.1 ↔ run = entry.1) := by
    intro run hrun
    rw [exchangeEach, foldl_replaceWord_of_isWord hearlier hrun]
    cases hlookup : earlier.lookup run with
    | none => rfl
    | some new =>
      obtain ⟨before, after, heq, -⟩ := List.lookup_eq_some_iff.1 hlookup
      have hmem : (run, new) ∈ earlier := by simp [heq]
      rw [Option.getD_some]
      apply iff_of_false
      · rintro rfl
        apply h.disjoint (run, entry.1) (List.mem_append_left _ hmem)
        simp
      · -- The word would be an old one twice.
        intro hrun'
        rw [List.map_append, List.map_cons, List.nodup_append] at hkeys
        exact hkeys.2.2 run (List.mem_map_of_mem hmem) entry.1 List.mem_cons_self hrun'
  rw [hworks.words_map, List.getElem?_map, Option.map_eq_some_iff]
  constructor
  · rintro ⟨run, hrun, heq⟩
    rw [hrun, (hword run (isWord_of_mem_words (List.mem_of_getElem? hrun))).1 heq]
  · intro hrun
    exact ⟨entry.1, hrun, (hword entry.1 (isWord_of_mem_words (List.mem_of_getElem? hrun))).2 rfl⟩

/-! ### Boxing -/

/-- A word with its class in the place of a primitive. -/
def boxedWord (run : List Char) : List Char :=
  (boxedTypes.lookup run).getD run

theorem nodup_boxedTypes : (boxedTypes.map Prod.fst).Nodup := by
  decide

theorem words_ofLines (ls : List Line) :
    words (ofLines ls).toList = ls.flatMap words ++ [[]] := by
  rw [toList_ofLines]
  induction ls with
  | nil => rfl
  | cons line rest ih =>
    rw [List.flatMap_cons, List.append_assoc, List.singleton_append,
      words_append_cons (show isWordChar '\n' = false by decide), ih, List.flatMap_cons,
      List.append_assoc]

/-- Boxing is one pass over the words of each line, which exchanges the primitives among them and
nothing else. The replacements it is made of can come in any order, none of them finds what others
made or misses what others took away, and no word of the result is a primitive. -/
theorem boxPrimitives_mapWords (source : String) :
    boxPrimitives source = ofLines ((lines source).map (mapWords boxedWord)) ∧
      (∀ table, table.Perm boxedTypes → mapLines (exchangeEach table) source = boxPrimitives source) ∧
      (∀ earlier entry later, (earlier ++ entry :: later).Perm boxedTypes →
        ∀ (line : Line) (i : ℕ), (words (exchangeEach earlier line))[i]? = some entry.1 ↔
          (words line)[i]? = some entry.1) ∧
      ∀ run ∈ words (boxPrimitives source).toList, run ∉ primitives := by
  have hbox : ∀ table, table.Perm boxedTypes → exchangeEach table = boxLine := by
    intro table hperm
    funext line
    exact exchangeEach_perm isWordTable_boxedTypes nodup_boxedTypes hperm line
  refine ⟨?once, ?order, ?unfed, ?left⟩
  case once =>
    rw [boxPrimitives, mapLines]
    congr 1
    apply List.map_congr_left
    intro line _
    exact worksByWords_boxLine.eq_mapWords (fun run hrun => boxLine_of_isWord hrun) line
  case order =>
    intro table hperm
    rw [hbox table hperm, boxPrimitives]
  case unfed =>
    intro earlier entry later hperm line i
    have htable : IsWordTable (earlier ++ entry :: later) :=
      isWordTable_boxedTypes.of_subset fun e he => hperm.mem_iff.1 he
    have hkeys : ((earlier ++ entry :: later).map Prod.fst).Nodup :=
      (hperm.map Prod.fst).nodup_iff.2 nodup_boxedTypes
    exact words_exchangeEach_iff htable hkeys line i
  case left =>
    intro run hrun
    rw [boxPrimitives, mapLines, words_ofLines, List.mem_append, List.mem_singleton] at hrun
    rcases hrun with hrun | rfl
    · obtain ⟨boxed, hboxed, hrun⟩ := List.mem_flatMap.1 hrun
      obtain ⟨line, -, rfl⟩ := List.mem_map.1 hboxed
      exact not_mem_primitives_of_mem_words_boxLine hrun
    · decide

/-- With the keywords from the last one to the first one, the same words are boxed. -/
theorem boxPrimitives_mapWords_point :
    boxedTypes.reverse.Perm boxedTypes ∧
      mapLines (exchangeEach boxedTypes.reverse) "int point(long id);" =
        "Integer point(Long id);\n" := by
  obtain ⟨-, horder, -, -⟩ := boxPrimitives_mapWords "int point(long id);"
  have hperm : boxedTypes.reverse.Perm boxedTypes := List.reverse_perm boxedTypes
  refine ⟨hperm, ?_⟩
  rw [horder _ hperm]
  decide +kernel

end Words

end RamlBuild
