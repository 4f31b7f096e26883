import RamlBuild.Proofs.Sources.FieldConstants
import RamlBuild.Proofs.Sources.Landmarks
import RamlBuild.Proofs.Sources.SettledLines

/-!
# Pointing a source at constants again

A line that was pointed at a constant has no literal left where its annotation names the property, and
it closes its annotation as it did before. So pointing a source at the same constants again changes
nothing. Nor does it change what other patches look for: the lines that are exchanged are landmarks
for the order of properties only, behind the list that is read, and the names of constants have no
lower case letters, so they are no types.

## Main results

* `pointLinesAtConstants_again` — pointing lines at the same constants again changes nothing
* `filterMap_pointLinesAtConstants` — marks that no annotation has are the same after it
* `propertyOrder_patchJsonProperties` — the properties that a source lists are the same after it
* `boxLine_constant`, `replaceDates_constant` — a line that has no types to exchange has none after it
-/

namespace RamlBuild

open Text

variable {table : ConstantTable} {line before rest after key : Line} {name value : List Char}
  {ls : List Line} {within : Bool} {r : Reference} {c : Char}

/-! ### Lines that have a constant -/

theorem valueStart?_key (hkey : IsValueKey key) (hc : isBlank c = false) :
    annotationStart?.valueStart? (key ++ c :: rest) = some (c :: rest) := by
  obtain ⟨blanks, blanks', hblanks, hblanks', rfl⟩ := hkey
  have hequals : trimStart (blanks ++ '=' :: (blanks' ++ c :: rest)) = '=' :: (blanks' ++ c :: rest) :=
    trimStart_append hblanks (by decide)
  have hsplit : "value".toList ++ blanks ++ '=' :: blanks' ++ c :: rest =
      "value".toList ++ (blanks ++ '=' :: (blanks' ++ c :: rest)) := by simp
  rw [hsplit, annotationStart?.valueStart?, after?_append]
  simp only [Option.bind_eq_bind, Option.bind_some, hequals]
  rw [show '=' :: (blanks' ++ c :: rest) = ['='] ++ (blanks' ++ c :: rest) from rfl, after?_append,
    Option.bind_some, trimStart_append hblanks' hc]

/-- Nothing is exchanged where no literal follows the start of a line. -/
theorem pointAtConstant_of_start {start? : Line → Option (List Char × List Char)}
    (hstart : start? line = some (before, c :: rest)) (hc : c ≠ '"') :
    pointAtConstant table start? line = line := by
  have hliteral : literal? (c :: rest) = none := by
    unfold literal?
    split
    · rename_i heq
      exact absurd (List.cons.inj heq).1 hc
    · rfl
  rw [pointAtConstant_eq, reference?, hstart]
  simp only [Option.bind_eq_bind, Option.bind_some, hliteral, Option.bind_none, Option.map_none,
    Option.getD_none]

/-- So a line stays that has a name behind the start of an annotation. -/
theorem pointAtConstant_annotation (hopens : OpensAnnotation before) (hc : isBlank c = false)
    (hquote : c ≠ '"') (hkey : c ≠ 'v') :
    pointAtConstant table annotationStart? (before ++ c :: rest) = before ++ c :: rest := by
  obtain ⟨blanks, key, hblanks, hvalue, rfl⟩ := hopens
  have htrim : trimStart (blanks ++ "@JsonProperty(".toList ++ key ++ c :: rest) =
      "@JsonProperty(".toList ++ (key ++ c :: rest) := by
    rw [List.append_assoc, List.append_assoc]
    exact trimStart_append hblanks (by decide)
  have hrest : (annotationStart?.valueStart? (key ++ c :: rest)).getD (key ++ c :: rest) =
      c :: rest := by
    rcases hvalue with rfl | hvalue
    · have hnone : after? "value".toList (c :: rest) = none := by
        rw [after?, if_neg]
        rw [List.isPrefixOf_iff_prefix]
        exact fun hstarts => hkey (List.cons_prefix_cons.1 hstarts).1.symm
      rw [List.nil_append, annotationStart?.valueStart?, hnone]
      rfl
    · rw [valueStart?_key hvalue hc, Option.getD_some]
  have hstart : annotationStart? (blanks ++ "@JsonProperty(".toList ++ key ++ c :: rest) =
      some ((blanks ++ "@JsonProperty(".toList ++ key ++ c :: rest).take
        ((blanks ++ "@JsonProperty(".toList ++ key ++ c :: rest).length - (c :: rest).length),
        c :: rest) := by
    unfold annotationStart?
    simp only [htrim, after?_append, Option.bind_eq_bind, Option.bind_some, hrest]
  exact pointAtConstant_of_start hstart hquote

/-- So does one that has it behind a key. -/
theorem pointAtConstant_value (hopens : OpensValue before) (hc : isBlank c = false)
    (hquote : c ≠ '"') :
    pointAtConstant table valueStart? (before ++ c :: rest) = before ++ c :: rest := by
  obtain ⟨blanks, key, hblanks, hkey, rfl⟩ := hopens
  have htrim : trimStart (blanks ++ key ++ c :: rest) = key ++ c :: rest := by
    obtain ⟨blanks', blanks'', -, -, rfl⟩ := hkey
    rw [List.append_assoc]
    exact trimStart_append hblanks (by decide)
  have hstart : valueStart? (blanks ++ key ++ c :: rest) =
      some ((blanks ++ key ++ c :: rest).take
        ((blanks ++ key ++ c :: rest).length - (c :: rest).length), c :: rest) := by
    unfold valueStart?
    simp only [htrim, valueStart?_key hkey hc, Option.bind_eq_bind, Option.bind_some]
  exact pointAtConstant_of_start hstart hquote

/-- Such a line opens no annotation that goes on on the next line. -/
theorem trim_annotation_ne (hopens : OpensAnnotation before) (hc : isBlank c = false) :
    trim (before ++ c :: rest) ≠ "@JsonProperty(".toList := by
  obtain ⟨blanks, key, hblanks, -, rfl⟩ := hopens
  have htrim : trim (blanks ++ "@JsonProperty(".toList ++ key ++ c :: rest) =
      "@JsonProperty(".toList ++ (key ++ c :: trimEnd rest) := by
    have hsplit : blanks ++ "@JsonProperty(".toList ++ key ++ c :: rest =
        blanks ++ '@' :: (("JsonProperty(".toList ++ key) ++ c :: rest) := by simp
    rw [hsplit, trim_append hblanks (by decide), trimEnd_append_cons hc]
    simp
  rw [htrim]
  intro heq
  have hlength := congrArg List.length heq
  simp only [List.length_append, List.length_cons] at hlength
  omega

/-- A constant begins with the name of its class. -/
theorem constant_eq (r : Reference) :
    r.constant = r.before ++ 'J' :: ("sonField".toList ++ '.' :: (r.name ++ r.after)) := by
  simp [Reference.constant, jsonFieldClassName]

/-! ### Where an annotation is closed -/

/-- A trimmed line ends with a mark of it, unless another one follows. -/
theorem getLast?_trim_append_cons (hc : isBlank c = false) :
    (trim (before ++ c :: after)).getLast? = (after.reverse.find? (!isBlank ·)).or (some c) := by
  have hmark : [c].find? (!isBlank ·) = some c := List.find?_cons_of_pos (by simp [hc])
  rw [getLast?_trim, List.reverse_append, List.reverse_cons, List.find?_append, List.find?_append,
    hmark, Option.or_assoc]
  rfl

/-- A line that has its constant is closed where it was closed with its literal. -/
theorem endsWith_trim_constant (hname : r.name ≠ []) (hcapital : IsCapital r.name) :
    endsWith ")" (trim r.constant) = endsWith ")" (trim r.literal) := by
  obtain ⟨first, last, hlast⟩ := List.eq_nil_or_concat r.name |>.resolve_left hname
  have hword : isWordChar last = true := hcapital.isWordChar (by rw [hlast]; simp)
  have hmark : isBlank last = false := by
    rw [← Bool.not_eq_true]
    exact fun hblank => absurd hword (by simp [isWordChar_of_isBlank hblank])
  have hparen : last ≠ ')' := by
    rintro rfl
    exact absurd hword (by decide)
  have hconstant : r.constant =
      (r.before ++ jsonFieldClassName.toList ++ '.' :: first) ++ last :: r.after := by
    rw [Reference.constant, hlast]
    simp
  have hends : ∀ line, endsWith ")" line = true ↔ line.getLast? = some ')' := fun line => by
    rw [endsWith_iff]
    exact List.singleton_suffix_iff_getLast?_eq_some
  rw [Bool.eq_iff_iff, hends, hends, hconstant, Reference.literal, getLast?_trim_append_cons hmark,
    getLast?_trim_append_cons (by decide)]
  -- What is behind decides, unless it is blank: then it is the end of the name or the quote.
  cases r.after.reverse.find? (!isBlank ·) with
  | some d => rfl
  | none => simp [hparen]

/-! ### Pointing again -/

/-- A table whose constants have names without lower case letters. -/
def IsTable (table : ConstantTable) : Prop :=
  ∀ entry ∈ table.entries, IsCapital entry.2 ∧ entry.2 ≠ []

/-- A line that was pointed at constants stays when it is pointed at them again, and closes its
annotation as before. -/
theorem pointAtConstant_again {start? : Line → Option (List Char × List Char)}
    {opens : List Char → Prop} (htable : IsTable table) (hstarts : Starts start? opens)
    (hstays : ∀ r : Reference, opens r.before →
      pointAtConstant table start? r.constant = r.constant) (line : Line) :
    pointAtConstant table start? (pointAtConstant table start? line) =
        pointAtConstant table start? line ∧
      endsWith ")" (trim (pointAtConstant table start? line)) = endsWith ")" (trim line) := by
  rw [pointAtConstant_eq table start? line]
  cases href : reference? table start? line with
  | none =>
    rw [Option.map_none, Option.getD_none, pointAtConstant_eq, href]
    exact ⟨rfl, rfl⟩
  | some r =>
    obtain ⟨rfl, hopens, hmem⟩ := eq_literal_of_reference? hstarts href
    obtain ⟨hcapital, hne⟩ := htable _ hmem
    exact ⟨hstays r hopens, endsWith_trim_constant hne hcapital⟩

/-- Pointing lines at the same constants again changes nothing. -/
theorem pointLinesAtConstants_again (htable : IsTable table) (ls : List Line) (within : Bool) :
    pointLinesAtConstants table within (pointLinesAtConstants table within ls) =
      pointLinesAtConstants table within ls := by
  have hvalue := pointAtConstant_again htable starts_valueStart? fun r hopens => by
    rw [constant_eq]
    exact pointAtConstant_value hopens (by decide) (by decide)
  have hnoted := pointAtConstant_again htable starts_annotationStart? fun r hopens => by
    rw [constant_eq]
    exact pointAtConstant_annotation hopens (by decide) (by decide) (by decide)
  induction ls generalizing within with
  | nil => rfl
  | cons line rest ih =>
    rw [pointLinesAtConstants_cons]
    cases within with
    | true =>
      rw [if_pos rfl, pointLinesAtConstants_cons, if_pos rfl]
      by_cases hclose : trim line = [')']
      · rw [if_pos hclose, if_pos hclose, ih]
      · rw [if_neg hclose, (hvalue line).1, (hvalue line).2, ih, ite_self]
    | false =>
      rw [if_neg Bool.false_ne_true]
      by_cases hopening : trim line = "@JsonProperty(".toList
      · rw [if_pos hopening, pointLinesAtConstants_cons, if_neg Bool.false_ne_true, if_pos hopening, ih]
      · have hstill : trim (pointAtConstant table annotationStart? line) ≠ "@JsonProperty(".toList := by
          rw [pointAtConstant_eq]
          cases href : reference? table annotationStart? line with
          | none => exact hopening
          | some r =>
            obtain ⟨-, hopens, -⟩ := eq_literal_of_reference? starts_annotationStart? href
            rw [Option.map_some, Option.getD_some, constant_eq]
            exact trim_annotation_ne hopens (by decide)
        rw [if_neg hopening, pointLinesAtConstants_cons, if_neg Bool.false_ne_true, if_neg hstill,
          (hnoted line).1, ih]

/-! ### What stays -/

theorem annotation_prefix_trimStart (hopens : OpensAnnotation before) :
    "@JsonProperty(".toList <+: trimStart (before ++ rest) := by
  obtain ⟨blanks, key, hblanks, -, rfl⟩ := hopens
  rw [List.append_assoc, List.append_assoc, show "@JsonProperty(".toList ++ (key ++ rest) =
    '@' :: ("JsonProperty(".toList ++ (key ++ rest)) from rfl, trimStart_append hblanks (by decide)]
  exact List.prefix_append "@JsonProperty(".toList (key ++ rest)

theorem value_prefix_trimStart (hopens : OpensValue before) :
    "value".toList <+: trimStart (before ++ rest) := by
  obtain ⟨blanks, key, hblanks, ⟨blanks', blanks'', -, -, rfl⟩, rfl⟩ := hopens
  have hsplit : blanks ++ ("value".toList ++ blanks' ++ '=' :: blanks'') ++ rest =
      blanks ++ 'v' :: ("alue".toList ++ (blanks' ++ '=' :: (blanks'' ++ rest))) := by simp
  rw [hsplit, trimStart_append hblanks (by decide)]
  exact List.prefix_append "value".toList _

/-- The lines that are left are lines that were there and lines with a constant for their literal. -/
theorem mem_pointLinesAtConstants (hline : line ∈ pointLinesAtConstants table false ls) :
    line ∈ ls ∨ ∃ r : Reference, line = r.constant ∧ r.literal ∈ ls ∧
      (r.value, r.name) ∈ table.entries ∧ ( OpensAnnotation r.before ∨ OpensValue r.before) := by
  obtain ⟨pieces, hold, hnew, hfits⟩ := @exists_pointedLines table false ls [] (by simp)
  rw [← hnew] at hline
  obtain ⟨piece, hpiece, rfl⟩ := List.mem_map.1 hline
  have hmem : piece.old ∈ ls := hold ▸ List.mem_map_of_mem hpiece
  cases piece with
  | kept line => exact .inl hmem
  | pointed r =>
    obtain ⟨first, others, hpieces⟩ := List.append_of_mem hpiece
    obtain ⟨hentry, hopens⟩ := hfits first r others hpieces
    exact .inr ⟨r, rfl, hmem, hentry, hopens.imp_right And.left⟩

/-- Marks that no line has which begins like an annotation stay as they are. -/
theorem filterMap_pointLinesAtConstants {α : Type} {m : Line → Option α}
    (hnoted : ∀ {line}, "@JsonProperty(".toList <+: trimStart line → m line = none)
    (hvalue : ∀ {line}, "value".toList <+: trimStart line → m line = none) (ls : List Line) :
    (pointLinesAtConstants table false ls).filterMap m = ls.filterMap m := by
  obtain ⟨pieces, hold, hnew, hfits⟩ := @exists_pointedLines table false ls [] (by simp)
  rw [← hnew, ← hold, List.filterMap_map, List.filterMap_map]
  apply List.filterMap_congr
  intro piece hpiece
  cases piece with
  | kept line => rfl
  | pointed r =>
    obtain ⟨first, others, hpieces⟩ := List.append_of_mem hpiece
    have hnone : ∀ rest, m (r.before ++ rest) = none := by
      intro rest
      rcases (hfits first r others hpieces).opens with hopens | ⟨hopens, -⟩
      · exact hnoted (annotation_prefix_trimStart hopens)
      · exact hvalue (value_prefix_trimStart hopens)
    have hliteral : PointedLine.old (.pointed r) = r.before ++ ('"' :: r.value ++ '"' :: r.after) :=
      List.append_assoc _ _ _
    have hconstant : PointedLine.new (.pointed r) = r.before ++ _ := constant_eq r
    rw [Function.comp_apply, Function.comp_apply, hliteral, hconstant, hnone, hnone]

/-- Lines that annotate no property stay. -/
theorem pointLinesAtConstants_append {first rest : List Line}
    (h : ∀ line ∈ first, annotatesProperty line = false) :
    pointLinesAtConstants table false (first ++ rest) =
      first ++ pointLinesAtConstants table false rest := by
  induction first with
  | nil => rfl
  | cons line first ih =>
    have hline := h line List.mem_cons_self
    have hopening : trim line ≠ "@JsonProperty(".toList := by
      intro heq
      rw [annotatesProperty, heq] at hline
      exact absurd hline (by decide)
    have hstays : pointAtConstant table annotationStart? line = line := by
      rw [pointAtConstant_eq]
      cases href : reference? table annotationStart? line with
      | none => rfl
      | some r =>
        obtain ⟨rfl, ⟨blanks, key, hblanks, -, hbefore⟩, -⟩ :=
          eq_literal_of_reference? starts_annotationStart? href
        rw [← Bool.not_eq_true, annotatesProperty_iff] at hline
        exact absurd ⟨blanks, key ++ ('"' :: r.value ++ '"' :: r.after), hblanks, by
          simp [Reference.literal, hbefore]⟩ hline
    rw [List.cons_append, pointLinesAtConstants_cons, if_neg Bool.false_ne_true, if_neg hopening,
      hstays, ih fun l hl => h l (List.mem_cons_of_mem _ hl), List.cons_append]

/-! ### The order of properties -/

/-- The lines that the names of properties are read from. -/
def orderLines (ls : List Line) : List Line :=
  match ls.dropWhile (!opensOrder ·) with
  | [] => []
  | first :: rest => first :: if has "\x7d)" first then [] else rest.takeWhile (!closesOrder ·)

theorem propertyOrder_eq_orderLines (source : String) :
    propertyOrder source = (orderLines (lines source)).flatMap propertyNames := by
  have hopens : (fun line => !startsWith "@JsonPropertyOrder" line) = (!opensOrder ·) := rfl
  rw [propertyOrder, orderLines, hopens]
  cases (lines source).dropWhile (!opensOrder ·) <;> rfl

/-- A line that opens or closes a list of properties annotates none. -/
theorem annotatesProperty_eq_false {start : String} (hclash : clashes "@JsonProperty(".toList
    (trimStart start.toList) = true) (hstart : startsWith start line = true) :
    annotatesProperty line = false := by
  rw [← Bool.not_eq_true, annotatesProperty, startsWith_iff]
  intro hstarts
  have hne : trimStart start.toList ≠ [] := by
    intro hnil
    rw [hnil] at hclash
    exact absurd hclash (by simp [clashes])
  exact not_prefix_of_clashes hclash (trimStart_mono hne (startsWith_iff.1 hstart))
    (hstarts.trans (prefix_trimEnd (trimStart line)))

theorem orderLines_append {ahead rest : List Line} {first : Line}
    (hahead : ∀ line ∈ ahead, opensOrder line = false) (hfirst : opensOrder first = true) :
    orderLines (ahead ++ first :: rest) =
      first :: if has "\x7d)" first then [] else rest.takeWhile (!closesOrder ·) := by
  rw [orderLines, List.dropWhile_append_of_pos fun line hline => by simp [hahead line hline],
    List.dropWhile_cons_of_neg (by simp [hfirst])]

/-- The lines that list the properties are read before any annotation, so they stay. -/
theorem orderLines_pointLinesAtConstants (h : OrderCloses ls) :
    orderLines (pointLinesAtConstants table false ls) = orderLines ls := by
  have hlist : ls = ls.takeWhile (!opensOrder ·) ++ ls.dropWhile (!opensOrder ·) :=
    List.takeWhile_append_dropWhile.symm
  cases hdrop : ls.dropWhile (!opensOrder ·) with
  | nil =>
    -- No line comes to open a list.
    have hnone : ∀ line ∈ ls, (!opensOrder line) = true := List.dropWhile_eq_nil_iff.1 hdrop
    have hstill : (pointLinesAtConstants table false ls).dropWhile (!opensOrder ·) = [] := by
      rw [List.dropWhile_eq_nil_iff]
      intro line hline
      rcases mem_pointLinesAtConstants hline with hline | ⟨r, rfl, -, -, hopens⟩
      · exact hnone line hline
      · rw [Bool.not_eq_true', constant_eq]
        rcases hopens with hopens | hopens
        · exact startsWith_eq_false (by decide) (annotation_prefix_trimStart hopens)
        · exact startsWith_eq_false (by decide) (value_prefix_trimStart hopens)
    rw [orderLines, orderLines, hdrop, hstill]
  | cons first rest =>
    obtain ⟨hbefore, hclosed⟩ := h first rest hdrop
    rw [hdrop] at hlist
    have hopens : opensOrder first = true := by
      have := List.head?_dropWhile_not (!opensOrder ·) ls
      rw [hdrop] at this
      simpa using this
    have hahead : ∀ line ∈ ls.takeWhile (!opensOrder ·), opensOrder line = false := fun line hline => by
      simpa using List.mem_takeWhile_imp hline
    generalize ls.takeWhile (!opensOrder ·) = ahead at hlist hbefore hahead
    subst hlist
    have hquiet : ∀ line ∈ ahead ++ [first], annotatesProperty line = false := by
      intro line hline
      rcases List.mem_append.1 hline with hline | hline
      · simpa using List.any_eq_false.1 hbefore line hline
      · rw [List.mem_singleton.1 hline]
        exact annotatesProperty_eq_false (by decide) hopens
    have hsplit : ahead ++ first :: rest = (ahead ++ [first]) ++ rest := by simp
    by_cases hhas : has "\x7d)" first = true
    · rw [hsplit, pointLinesAtConstants_append hquiet, List.append_assoc, List.append_assoc,
        List.singleton_append, List.singleton_append, orderLines_append hahead hopens,
        orderLines_append hahead hopens, if_pos hhas, if_pos hhas]
    · obtain ⟨hcloses, hamong⟩ := hclosed.resolve_left hhas
      obtain ⟨among, last, behind, hlast⟩ := exists_splitsFirst hcloses
      have hquiet' : ∀ line ∈ among ++ [last], annotatesProperty line = false := by
        intro line hline
        rcases List.mem_append.1 hline with hline | hline
        · rw [hlast.takeWhile_eq] at hamong
          simpa using List.any_eq_false.1 hamong line hline
        · rw [List.mem_singleton.1 hline]
          exact annotatesProperty_eq_false (by decide) hlast.here
      have htake : ∀ behind, (among ++ last :: behind).takeWhile (!closesOrder ·) = among := by
        intro behind
        exact SplitsFirst.takeWhile_eq ⟨rfl, hlast.none_before, hlast.here⟩
      rw [hsplit, pointLinesAtConstants_append hquiet, hlast.eq,
        show among ++ last :: behind = (among ++ [last]) ++ behind by simp,
        pointLinesAtConstants_append hquiet']
      simp only [List.append_assoc, List.singleton_append]
      rw [orderLines_append hahead hopens, orderLines_append hahead hopens, if_neg hhas, if_neg hhas,
        htake, htake]

/-! ### Types in lines with constants -/

theorem exists_last_of_opens_of_not_word (h : OpensAnnotation before ∨ OpensValue before) :
    ∃ start c, before = start ++ [c] ∧ isWordChar c = false := by
  have hkey : ∀ {key}, IsValueKey key → ∃ start c, key = start ++ [c] ∧ isWordChar c = false := by
    rintro key ⟨blanks, blanks', hblanks, hblanks', rfl⟩
    rcases List.eq_nil_or_concat blanks' with rfl | ⟨first, last, rfl⟩
    · exact ⟨"value".toList ++ blanks, '=', rfl, by decide⟩
    · refine ⟨"value".toList ++ blanks ++ '=' :: first, last, by simp, ?_⟩
      exact isWordChar_of_isBlank (hblanks' last (by simp))
  rcases h with ⟨blanks, key, -, rfl | hvalue, rfl⟩ | ⟨blanks, key, -, hvalue, rfl⟩
  · exact ⟨blanks ++ "@JsonProperty".toList, '(', by simp, by decide⟩
  · obtain ⟨start, c, rfl, hc⟩ := hkey hvalue
    exact ⟨blanks ++ "@JsonProperty(".toList ++ start, c, by simp, hc⟩
  · obtain ⟨start, c, rfl, hc⟩ := hkey hvalue
    exact ⟨blanks ++ start, c, by simp, hc⟩

/-- Behind a word stand the words of the rest, the first of them as its end. -/
theorem mem_words_append_of_isWord {word run text : List Char} (hword : IsWord word)
    (h : run ∈ words (word ++ text)) : run ∈ words text ∨ word <+: run := by
  induction text using run_induction isWordChar with
  | last other hother =>
    have hboth : IsWord (word ++ other) := fun c hc => by
      rcases List.mem_append.1 hc with hc | hc
      · exact hword c hc
      · exact hother c hc
    rw [words_of_isWord hboth, List.mem_singleton] at h
    exact .inr (h ▸ List.prefix_append word other)
  | next other c rest hother hc _ =>
    have hboth : IsWord (word ++ other) := fun c hc => by
      rcases List.mem_append.1 hc with hc | hc
      · exact hword c hc
      · exact hother c hc
    rw [← List.append_assoc, words_append_cons hc, words_of_isWord hboth] at h
    rw [words_append_cons hc]
    rcases List.mem_append.1 h with h | h
    · rw [List.mem_singleton.1 h]
      exact .inr (List.prefix_append word other)
    · exact .inl (List.mem_append_right _ h)

/-- A boxed line is boxed with its constant too. -/
theorem boxLine_constant (hopens : OpensAnnotation r.before ∨ OpensValue r.before)
    (hcapital : IsCapital r.name) (hne : r.name ≠ []) (hboxed : boxLine r.literal = r.literal) :
    boxLine r.constant = r.constant := by
  obtain ⟨start, c, hbefore, hc⟩ := exists_last_of_opens_of_not_word hopens
  have hliteral : words r.literal = (words start ++ words []) ++ (words r.value ++ words r.after) := by
    have hsplit : r.literal = (start ++ c :: []) ++ '"' :: (r.value ++ '"' :: r.after) := by
      simp [Reference.literal, hbefore]
    rw [hsplit, words_append_cons (by decide), words_append_cons hc, words_append_cons (by decide)]
  have hconstant : words r.constant =
      words start ++ (words jsonFieldClassName.toList ++ words (r.name ++ r.after)) := by
    have hsplit : r.constant =
        start ++ c :: (jsonFieldClassName.toList ++ '.' :: (r.name ++ r.after)) := by
      simp [Reference.constant, hbefore]
    rw [hsplit, words_append_cons hc, words_append_cons (by decide)]
  rw [boxLine_eq_self_iff, hliteral] at hboxed
  rw [boxLine_eq_self_iff, hconstant]
  intro run hrun
  rcases List.mem_append.1 hrun with hrun | hrun
  · exact hboxed run (List.mem_append_left _ (List.mem_append_left _ hrun))
  rcases List.mem_append.1 hrun with hrun | hrun
  · have hclass : words jsonFieldClassName.toList = [jsonFieldClassName.toList] :=
      words_of_isWord (by decide)
    rw [hclass, List.mem_singleton] at hrun
    rw [hrun]
    decide
  · rcases mem_words_append_of_isWord (fun _ => hcapital.isWordChar) hrun with hrun | hstarts
    · exact hboxed run (List.mem_append_right _ (List.mem_append_right _ hrun))
    · exact not_mem_primitives_of_isCapital hcapital hne hstarts

/-- The name of a constant is part of no date, unless what stands behind it completes one. -/
theorem HasDate.of_isCapital {d : Char} (hcapital : IsCapital name) (hne : name ≠ [])
    (h : HasDate (d :: (name ++ after))) :
    HasDate after ∨ ∃ c, closesDate c = true ∧ "ate".toList ++ [c] <+: after := by
  obtain ⟨before, opening, closing, behind, heq, hopens, hcloses⟩ := h
  have hname : ∀ c ∈ name, opensDate c = false := fun c hc =>
    not_opensDate_of_isNameChar (isNameChar_of_isWordChar (hcapital.isWordChar hc))
  -- The last letter of the name opens no date.
  have hlast : d :: name ≠ before ++ [opening] := by
    intro hends
    obtain ⟨first, last, rfl⟩ := (List.eq_nil_or_concat name).resolve_left hne
    rw [List.concat_eq_append, ← List.cons_append] at hends
    obtain ⟨-, hlast⟩ := List.append_inj' hends rfl
    have hopening := hname last (by simp)
    rw [(List.cons.inj hlast).1, hopens] at hopening
    contradiction
  have hsplit : (d :: name) ++ after = (before ++ [opening]) ++ (oldDate ++ closing :: behind) := by
    rw [List.cons_append, heq]
    simp
  rcases List.append_eq_append_iff.1 hsplit with ⟨more, hbefore, hafter⟩ | ⟨more, hbefore, hdate⟩
  · rcases List.eq_nil_or_concat more with rfl | ⟨first, last, rfl⟩
    · exact absurd (by simpa using hbefore.symm) hlast
    · rw [List.concat_eq_append, ← List.append_assoc] at hbefore
      obtain ⟨-, hopening⟩ := List.append_inj' hbefore rfl
      obtain rfl := (List.cons.inj hopening).1
      exact .inl ⟨first, opening, closing, behind, by simpa using hafter, hopens, hcloses⟩
  · rw [oldDate_eq] at hdate
    cases more with
    | nil => exact absurd (by simpa using hbefore) hlast
    | cons x more =>
      cases more with
      | nil =>
        -- The name ends with the first letter of a date.
        have hrest := (List.cons.inj hdate).2
        exact .inr ⟨closing, hcloses, behind, by simpa using hrest⟩
      | cons y more =>
        have hy : y = 'a' := (List.cons.inj (List.cons.inj hdate).2).1.symm
        have hmem : y ∈ name := by
          have hsuffix : y :: more <:+ name := by
            cases before with
            | nil =>
              have htail := (List.cons.inj hbefore).2
              exact ⟨[x], htail.symm⟩
            | cons e before =>
              have htail := (List.cons.inj hbefore).2
              exact ⟨before ++ [opening, x], by simpa using htail.symm⟩
          exact hsuffix.subset List.mem_cons_self
        exact absurd (by rw [hy]; decide) (hcapital.not_isLower hmem)

/-- A line without dates has none with its constant, unless what stands behind the literal is the
rest of one. -/
theorem not_hasDate_constant (hcapital : IsCapital r.name) (hne : r.name ≠ [])
    (hdate : ¬HasDate r.literal) (hjoins : ¬JoinsDate r.literal) : ¬HasDate r.constant := by
  have hbefore : ¬HasDate r.before := fun h => hdate (h.mono ⟨[], '"' :: r.value ++ '"' :: r.after, by
    simp [Reference.literal]⟩)
  have hafter : ¬HasDate r.after := fun h => hdate (h.mono ⟨r.before ++ '"' :: r.value ++ ['"'], [], by
    simp [Reference.literal]⟩)
  have hend : ¬∃ c, closesDate c = true ∧ "ate".toList ++ [c] <+: r.after := by
    rintro ⟨c, hc, rest, hrest⟩
    exact hjoins ⟨c, hc, r.before ++ '"' :: r.value, rest, by simp [Reference.literal, ← hrest]⟩
  have hclass : ¬HasDate ("sonField".toList ++ ['.']) :=
    replaceDates_eq_self_iff.1 (by decide)
  rw [constant_eq, hasDate_append_foreign_iff (by decide) (by decide),
    hasDate_append_delimiter_iff (by decide)]
  rintro (h | h | h)
  · exact hbefore h
  · exact hclass h
  · exact (h.of_isCapital hcapital hne).elim hafter hend

end RamlBuild
