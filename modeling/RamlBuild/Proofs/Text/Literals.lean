import RamlBuild.Proofs.Text.Lines
import RamlBuild.Proofs.Text.Words
import RamlBuild.Text.Quoted

/-!
# Literals under a change of the text

Which quoted literals a line has depends only on its double quotes, on its backslashes and on
whether anything stands between them. A change of the line that leaves these alone changes its
literals the way it changes any text.

## Main definitions

* `Text.KeepsQuotes` — a change that leaves quotes and backslashes alone
* `Text.literalsOf` — the literals of a source, line by line

## Main results

* `Text.literals_map` — the literals of a changed line are the changed literals
* `Text.literalsOf_ofLines` — the literals of a source that was written line by line
-/

namespace RamlBuild.Text

variable {f g : List Char → List Char} {text run value after : List Char} {c : Char}

/-- A character that is neither a double quote nor a backslash. -/
def isPlain (c : Char) : Bool :=
  c != '"' && c != '\\'

theorem isPlain_of_isWordChar (h : isWordChar c = true) : isPlain c = true := by
  unfold isPlain
  rw [Bool.and_eq_true, bne_iff_ne, bne_iff_ne]
  constructor
  · rintro rfl
    exact absurd h (by decide)
  · rintro rfl
    exact absurd h (by decide)

theorem eq_of_not_isPlain (h : isPlain c = false) : c = '"' ∨ c = '\\' := by
  unfold isPlain at h
  by_cases hq : c = '"'
  · exact .inl hq
  · exact .inr (by simpa [hq] using h)

/-- A change of texts that leaves double quotes and backslashes where they are, and makes something
of something. -/
structure KeepsQuotes (f : List Char → List Char) : Prop where
  /-- Both sides of a double quote are changed by themselves. -/
  quote : SplitsAt f '"'
  /-- Both sides of a backslash are changed by themselves. -/
  backslash : SplitsAt f '\\'
  /-- No quote or backslash comes to a text without them. -/
  plain : ∀ text, (∀ c ∈ text, isPlain c) → ∀ c ∈ f text, isPlain c
  /-- Only the empty text becomes empty. -/
  eq_nil_iff : ∀ text, f text = [] ↔ text = []

namespace KeepsQuotes

theorem splitsAt (hf : KeepsQuotes f) (hc : isPlain c = false) : SplitsAt f c := by
  rcases eq_of_not_isPlain hc with rfl | rfl
  · exact hf.quote
  · exact hf.backslash

theorem map_nil (hf : KeepsQuotes f) : f [] = [] :=
  (hf.eq_nil_iff []).2 rfl

theorem comp (hg : KeepsQuotes g) (hf : KeepsQuotes f) : KeepsQuotes fun text => g (f text) where
  quote := hg.quote.comp hf.quote
  backslash := hg.backslash.comp hf.backslash
  plain := fun text h => hg.plain _ (hf.plain text h)
  eq_nil_iff := fun text => (hg.eq_nil_iff _).trans (hf.eq_nil_iff text)

/-- No double quote comes to a text without one. -/
theorem not_mem (hf : KeepsQuotes f) (h : '"' ∉ text) : '"' ∉ f text := by
  induction text using run_induction isPlain with
  | last run hrun =>
    intro hmem
    exact absurd (hf.plain run hrun _ hmem) (by decide)
  | next run c rest hrun hc ih =>
    rw [hf.splitsAt hc run rest]
    simp only [List.mem_append, List.mem_cons, not_or] at h ⊢
    refine ⟨?_, h.2.1, ih h.2.2⟩
    intro hmem
    exact absurd (hf.plain run hrun _ hmem) (by decide)

/-- A change that works word by word keeps quotes, as long as no word gets lost. -/
theorem of_worksByWords (hf : WorksByWords f) (hnil : ∀ run, IsWord run → (f run = [] ↔ run = [])) :
    KeepsQuotes f where
  quote := hf.splitsAt '"' (by decide)
  backslash := hf.splitsAt '\\' (by decide)
  plain := by
    intro text
    induction text using run_induction isWordChar with
    | last run hrun =>
      intro _ c hc
      exact isPlain_of_isWordChar (hf.isWord run hrun c hc)
    | next run d rest hrun hd ih =>
      intro hplain c hc
      rw [hf.splitsAt d hd run rest] at hc
      rcases List.mem_append.1 hc with hc | hc
      · exact isPlain_of_isWordChar (hf.isWord run hrun c hc)
      · rcases List.mem_cons.1 hc with rfl | hc
        · exact hplain c (by simp)
        · exact ih (fun e he => hplain e (by simp [he])) c hc
  eq_nil_iff := by
    intro text
    induction text using run_induction isWordChar with
    | last run hrun => exact hnil run hrun
    | next run c rest hrun hc ih => simp [hf.splitsAt c hc run rest]

end KeepsQuotes

/-! ### Closing a literal -/

/-- Closes a literal whose opening quote has been read; `escaped` says whether a backslash that
takes the next character was read last. -/
def closeFrom (escaped : Bool) (text : List Char) : Option (List Char × List Char) :=
  match escaped, text with
  | false, text => closeLiteral text
  | true, [] => none
  | true, c :: rest => (closeLiteral rest).map (Prod.map (c :: ·) fun after => after)

theorem closeLiteral_backslash (text : List Char) :
    closeLiteral ('\\' :: text) =
      (closeFrom true text).map (Prod.map ('\\' :: ·) fun after => after) := by
  cases text with
  | nil => rfl
  | cons c rest =>
    rw [closeLiteral, closeFrom, Option.map_map]
    rfl

theorem closeLiteral_cons_of_isPlain (hc : isPlain c = true) (text : List Char) :
    closeLiteral (c :: text) = (closeLiteral text).map (Prod.map (c :: ·) fun after => after) := by
  have hq : c ≠ '"' := by rintro rfl; exact absurd hc (by decide)
  have hb : c ≠ '\\' := by rintro rfl; exact absurd hc (by decide)
  rw [closeLiteral]
  · rfl
  · exact hq
  · intro h _
    exact hb h
  · intro d rest h _
    exact hb h

/-- A run of plain characters is taken into the literal as it stands. -/
theorem closeFrom_append_of_isPlain (hne : run ≠ []) (hrun : ∀ c ∈ run, isPlain c)
    (escaped : Bool) (text : List Char) :
    closeFrom escaped (run ++ text) =
      (closeFrom false text).map (Prod.map (run ++ ·) fun after => after) := by
  have hliteral : ∀ run : List Char, (∀ c ∈ run, isPlain c) →
      closeLiteral (run ++ text) =
        (closeLiteral text).map (Prod.map (run ++ ·) fun after => after) := by
    intro run hrun
    induction run with
    | nil => simp
    | cons c rest ih =>
      rw [List.cons_append, closeLiteral_cons_of_isPlain (hrun c List.mem_cons_self),
        ih fun d hd => hrun d (List.mem_cons_of_mem _ hd), Option.map_map]
      rfl
  cases escaped with
  | false => exact hliteral run hrun
  | true =>
    obtain ⟨c, rest, rfl⟩ := List.exists_cons_of_ne_nil hne
    have hrest := hliteral rest fun d hd => hrun d (List.mem_cons_of_mem _ hd)
    simp only [List.cons_append, closeFrom, hrest, Option.map_map]
    rfl

theorem closeFrom_of_isPlain (hrun : ∀ c ∈ run, isPlain c) (escaped : Bool) :
    closeFrom escaped run = none := by
  by_cases hne : run = []
  · subst hne
    cases escaped <;> rfl
  · have := closeFrom_append_of_isPlain hne hrun escaped []
    rwa [List.append_nil] at this

/-- A character that closes, escapes or is escaped stays so when the text behind it is changed. -/
theorem closeFrom_cons_map (hf : KeepsQuotes f) (hc : isPlain c = false)
    (ih : ∀ escaped, closeFrom escaped (f text) = (closeFrom escaped text).map (Prod.map f f))
    (escaped : Bool) :
    closeFrom escaped (c :: f text) = (closeFrom escaped (c :: text)).map (Prod.map f f) := by
  have hcons : ∀ value, f (c :: value) = c :: f value := (hf.splitsAt hc).cons hf.map_nil
  have htake : Prod.map (c :: ·) (fun after => after) ∘ Prod.map f f =
      Prod.map f f ∘ Prod.map (c :: ·) fun after => after := by
    funext ⟨value, after⟩
    simp [hcons]
  cases escaped with
  | true =>
    have ihfalse := ih false
    simp only [closeFrom] at ihfalse ⊢
    rw [ihfalse, Option.map_map, Option.map_map, htake]
  | false =>
    rcases eq_of_not_isPlain hc with rfl | rfl
    · simp [closeFrom, closeLiteral, hf.map_nil]
    · simp only [closeFrom]
      rw [closeLiteral_backslash, closeLiteral_backslash, ih true, Option.map_map, Option.map_map,
        htake]

/-- What a quote or a backslash adds to a literal is nothing or begins with it. -/
theorem eq_nil_or_cons_of_closeLiteral (hc : isPlain c = false)
    (h : closeLiteral (c :: text) = some (value, after)) :
    value = [] ∨ ∃ tail, value = c :: tail := by
  rcases eq_of_not_isPlain hc with rfl | rfl
  · rw [closeLiteral, Option.some.injEq, Prod.mk.injEq] at h
    exact .inl h.1.symm
  · rw [closeLiteral_backslash, Option.map_eq_some_iff] at h
    obtain ⟨⟨tail, after'⟩, _, heq⟩ := h
    exact .inr ⟨tail, (Prod.mk.inj heq).1.symm⟩

/-- A literal of a changed text closes where it does in the text, and what it takes in and what it
leaves are changed by themselves. -/
theorem closeFrom_map (hf : KeepsQuotes f) (text : List Char) :
    ∀ escaped, closeFrom escaped (f text) = (closeFrom escaped text).map (Prod.map f f) := by
  induction text using run_induction isPlain with
  | last run hrun =>
    intro escaped
    rw [closeFrom_of_isPlain hrun, closeFrom_of_isPlain (hf.plain run hrun)]
    rfl
  | next run c rest hrun hc ih =>
    intro escaped
    rw [hf.splitsAt hc run rest]
    by_cases hne : run = []
    · subst hne
      rw [hf.map_nil]
      exact closeFrom_cons_map hf hc ih escaped
    · have hfne : f run ≠ [] := mt (hf.eq_nil_iff run).1 hne
      rw [closeFrom_append_of_isPlain hne hrun,
        closeFrom_append_of_isPlain hfne (hf.plain run hrun), closeFrom_cons_map hf hc ih,
        Option.map_map, Option.map_map]
      refine Option.map_congr ?_
      rintro ⟨value, after⟩ hfound
      simp only [Function.comp_apply, Prod.map_apply, Prod.mk.injEq, and_true]
      rcases eq_nil_or_cons_of_closeLiteral hc hfound with rfl | ⟨tail, rfl⟩
      · simp [hf.map_nil]
      · rw [hf.splitsAt hc run tail, (hf.splitsAt hc).cons hf.map_nil]

/-- What is taken in up to the closing quote is changed by itself. -/
theorem closeLiteral_map (hf : KeepsQuotes f) (text : List Char) :
    closeLiteral (f text) = (closeLiteral text).map (Prod.map f f) :=
  closeFrom_map hf text false

/-! ### The literals of a line -/

theorem literals_cons_of_ne (hc : c ≠ '"') (text : List Char) :
    literals (c :: text) = literals text := by
  rw [literals, if_neg hc]

theorem literals_append_of_not_mem (h : '"' ∉ run) (text : List Char) :
    literals (run ++ text) = literals text := by
  induction run with
  | nil => rfl
  | cons c rest ih =>
    rw [List.mem_cons, not_or] at h
    rw [List.cons_append, literals_cons_of_ne (Ne.symm h.1), ih h.2]

theorem literals_of_not_mem (h : '"' ∉ run) : literals run = [] := by
  have := literals_append_of_not_mem h []
  rwa [List.append_nil, literals] at this

theorem literals_quote (text : List Char) :
    literals ('"' :: text) =
      match closeLiteral text with
      | some (value, after) => value :: literals after
      | none => literals text := by
  rw [literals, if_pos rfl]
  split <;> rename_i h <;> simp only [h]

/-- The literals of a changed line are the changed literals of the line. -/
theorem literals_map (hf : KeepsQuotes f) (text : List Char) :
    literals (f text) = (literals text).map f := by
  induction hn : text.length using Nat.strongRecOn generalizing text with
  | _ n ih =>
  by_cases hquote : '"' ∈ text
  · obtain ⟨before, rest, rfl, hbefore⟩ := List.eq_append_cons_of_mem hquote
    rw [hf.quote before rest, literals_append_of_not_mem hbefore,
      literals_append_of_not_mem (hf.not_mem hbefore), literals_quote, literals_quote,
      closeLiteral_map hf]
    rw [List.length_append, List.length_cons] at hn
    cases hclose : closeLiteral rest with
    | none => exact ih rest.length (by omega) rest rfl
    | some found =>
      obtain ⟨value, after⟩ := found
      have hlength := length_lt_of_closeLiteral hclose
      simp only [Option.map_some, Prod.map_apply, List.map_cons]
      rw [ih after.length (by omega) after rfl]
  · rw [literals_of_not_mem hquote, literals_of_not_mem (hf.not_mem hquote), List.map_nil]

theorem closeLiteral_append_return (text : List Char) :
    closeLiteral (text ++ ['\r']) =
      (closeLiteral text).map (Prod.map (fun value => value) (· ++ ['\r'])) := by
  fun_induction closeLiteral text with
  | case1 => rfl
  | case2 rest => rfl
  | case3 => rfl
  | case4 c rest ih =>
    rw [List.cons_append, List.cons_append, closeLiteral, ih, Option.map_map, Option.map_map]
    rfl
  | case5 c rest hquote hlast hescape ih =>
    have hplain : isPlain c = true := by
      unfold isPlain
      rw [Bool.and_eq_true, bne_iff_ne, bne_iff_ne]
      refine ⟨hquote, ?_⟩
      intro hc
      cases rest with
      | nil => exact hlast hc rfl
      | cons d tail => exact hescape d tail hc rfl
    rw [List.cons_append, closeLiteral_cons_of_isPlain hplain, ih, Option.map_map, Option.map_map]
    rfl

/-- A carriage return at the end of a line belongs to no literal. -/
theorem literals_append_return (line : Line) : literals (line ++ ['\r']) = literals line := by
  induction hn : line.length using Nat.strongRecOn generalizing line with
  | _ n ih =>
  by_cases hquote : '"' ∈ line
  · obtain ⟨before, rest, rfl, hbefore⟩ := List.eq_append_cons_of_mem hquote
    rw [List.append_assoc, List.cons_append, literals_append_of_not_mem hbefore,
      literals_append_of_not_mem hbefore, literals_quote, literals_quote,
      closeLiteral_append_return]
    rw [List.length_append, List.length_cons] at hn
    cases hclose : closeLiteral rest with
    | none => exact ih rest.length (by omega) rest rfl
    | some found =>
      obtain ⟨value, after⟩ := found
      have hlength := length_lt_of_closeLiteral hclose
      simp only [Option.map_some, Prod.map_apply]
      rw [ih after.length (by omega) after rfl]
  · have hreturn : '"' ∉ line ++ ['\r'] := by simp [hquote]
    rw [literals_of_not_mem hquote, literals_of_not_mem hreturn]

theorem literals_dropReturn (line : Line) : literals (dropReturn line) = literals line := by
  rcases eq_or_eq_append_of_dropReturn line with h | h
  · rw [h]
  · conv => rhs; rw [h]
    exact (literals_append_return _).symm

/-! ### The literals of a source -/

/-- The literals of a source, line by line. -/
def literalsOf (source : String) : List (List Char) :=
  (lines source).flatMap literals

/-- The literals of a source that was written line by line. -/
theorem literalsOf_ofLines {ls : List Line} (h : ∀ line ∈ ls, '\n' ∉ line) :
    literalsOf (ofLines ls) = ls.flatMap literals := by
  rw [literalsOf, lines_ofLines h, List.flatMap_map]
  congr 1
  funext line
  exact literals_dropReturn line

end RamlBuild.Text
