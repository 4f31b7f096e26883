import RamlBuild.Proofs.Sources.FileResponse
import RamlBuild.Proofs.Sources.PathVariables
import RamlBuild.Proofs.Sources.ResourcePaths
import RamlBuild.Proofs.Sources.SettledLines
import RamlBuild.Proofs.Sources.SettledResponses
import RamlBuild.Sources.Imports

/-!
# Resources whose lines are settled

-/

namespace RamlBuild

open Text

variable {line line' out new header : Line} {ls ahead behind block : List Line} {c : Char}
  {name : List Char} {dates : Prop}

/-! ### Lines of members -/

/-- A line whose first mark begins neither an import nor an annotation. -/
def IsMember (line : Line) : Prop :=
  ∀ c ∈ (trimStart line).head?, c ≠ 'i' ∧ c ≠ '@'

theorem IsMember.not_import (h : IsMember line) : ¬"import".toList <+: line := by
  rintro ⟨rest, rfl⟩
  exact (h 'i' rfl).1 rfl

theorem IsMember.ne_fileImport (h : IsMember line) : line ≠ fileImport := by
  rintro rfl
  exact h.not_import (by decide)

theorem IsMember.isDatePattern (h : IsMember line) : isDatePattern line = false :=
  isDatePattern_eq_false fun c hc => (h c hc).2

theorem ResponseClass.Widens.isMember {cls : ResponseClass} (h : cls.Widens line new) :
    IsMember new := by
  obtain ⟨blanks, _, rest, hblanks, -, -, rfl⟩ := h
  intro c hc
  rw [trimStart_public hblanks] at hc
  obtain rfl : 'p' = c := Option.some.inj hc
  decide

theorem ResponseClass.IsHeader.isMember_copyConstructor {cls : ResponseClass} (h : cls.IsHeader header)
    (hline : line ∈ cls.copyConstructor) : IsMember line := by
  intro c hc
  have hmarks : ∀ c ∈ ['p', 's', '\x7d'], c ≠ 'i' ∧ c ≠ '@' := by simp
  exact hmarks c (h.head?_copyConstructor hline c hc)

/-! ### Imports that have moved -/

/-- An import line that names the old package. -/
def NamesOldPackage (line : Line) : Prop :=
  "import".toList <+: line ∧ "javax.ws".toList <:+: line

theorem moveImport_eq_self (h : ¬NamesOldPackage line) : moveImport line = line := by
  rw [moveImport]
  split
  · rename_i himport
    exact replaceAll_of_not_infix (by decide) fun hold => h ⟨startsWith_iff.1 himport, hold⟩
  · rfl

/-- What has no letter that the new package begins with stood in the text before. -/
theorem prefix_of_prefix_replaceAll {part text : List Char} (hpart : 'j' ∉ part)
    (h : part <+: replaceAll "javax.ws".toList "jakarta.ws".toList text) : part <+: text := by
  induction part generalizing text with
  | nil => exact List.nil_prefix
  | cons d part ih =>
    rw [List.mem_cons, not_or] at hpart
    cases text with
    | nil =>
      rw [replaceAll, if_neg (by decide)] at h
      exact h
    | cons c rest =>
      rw [replaceAll, if_neg (by decide)] at h
      split at h
      · exact absurd (List.cons_prefix_cons.1 h).1.symm hpart.1
      · obtain ⟨rfl, hrest⟩ := List.cons_prefix_cons.1 h
        exact List.cons_prefix_cons.2 ⟨rfl, ih hpart.2 hrest⟩

theorem not_infix_replaceAll (text : List Char) :
    ¬"javax.ws".toList <:+: replaceAll "javax.ws".toList "jakarta.ws".toList text := by
  induction hlength : text.length using Nat.strongRecOn generalizing text with
  | ind n ih =>
    cases text with
    | nil =>
      rw [replaceAll, if_neg (by decide)]
      decide
    | cons c rest =>
      rw [replaceAll, if_neg (by decide)]
      split
      · -- The new package neither holds the old one nor begins it at any other letter.
        have hrest := ih _ (by simp at hlength; simp; omega) (rest.drop ("javax.ws".toList.length - 1)) rfl
        simpa [List.infix_cons_iff, List.cons_prefix_cons] using hrest
      · rename_i hstart
        have hrest := ih _ (by simp at hlength; omega) rest rfl
        rw [List.infix_cons_iff, not_or]
        refine ⟨fun hpart => hstart ?_, hrest⟩
        obtain ⟨rfl, htail⟩ := List.cons_prefix_cons.1 hpart
        exact List.isPrefixOf_iff_prefix.2
          (List.cons_prefix_cons.2 ⟨rfl, prefix_of_prefix_replaceAll (by decide) htail⟩)

theorem not_namesOldPackage_moveImport (line : Line) : ¬NamesOldPackage (moveImport line) := by
  rw [moveImport]
  split
  · exact fun h => not_infix_replaceAll line h.2
  · rename_i himport
    exact fun h => himport (startsWith_iff.2 h.1)

/-- Whether an import names the old package does not depend on its types. -/
theorem Retyped.namesOldPackage_iff (h : Retyped line line') :
    NamesOldPackage line' ↔ NamesOldPackage line := by
  have hstart : Untyped "import".toList := by
    unfold Untyped KeepsStart
    decide
  have hpackage : "javax".toList ++ '.' :: "ws".toList <:+: line' ↔
      "javax".toList ++ '.' :: "ws".toList <:+: line := by
    rcases h with h | h
    · exact h.infix_around_iff (by decide) (List.all_eq_true.1 (by decide))
        (by unfold KeepsStart; decide) (by decide)
    · exact h.infix_around_iff (by decide) (List.all_eq_true.1 (by decide))
        (by unfold KeepsStart; decide) (by decide)
  rw [NamesOldPackage, NamesOldPackage, h.prefix_iff hstart]
  exact and_congr_right fun _ => hpackage

theorem IsPlainLine.moveImport (h : IsPlainLine line) : IsPlainLine (moveImport line) := by
  rw [RamlBuild.moveImport]
  split
  · refine ⟨fun hnewline => ?_, fun hreturn => ?_⟩
    · rcases mem_of_mem_replaceAll hnewline with hmem | hmem
      · exact h.1 hmem
      · exact absurd hmem (by decide)
    · rcases getLast?_of_replaceAll (by decide) hreturn with hlast | hlast
      · exact h.2 hlast
      · exact absurd hlast (by decide)
  · exact h

/-! ### Imports of the file class -/

/-- No import of the file class stands before the first public declaration. -/
def FileFree : List Line → Prop
  | [] => True
  | line :: rest => startsWith "public " line = true ∨ line ≠ fileImport ∧ FileFree rest

theorem importsFile_eq_false_iff {source : String} :
    importsFile source = false ↔ FileFree (lines source) := by
  rw [importsFile]
  induction lines source with
  | nil => simp [FileFree]
  | cons line rest ih =>
    rw [FileFree, ← ih, List.takeWhile_cons]
    cases startsWith "public " line with
    | true => exact iff_of_true rfl (.inl rfl)
    | false =>
      rw [Bool.not_false, if_pos rfl, List.contains_cons, Bool.or_eq_false_iff, beq_eq_false_iff_ne,
        ne_comm, or_iff_right Bool.false_ne_true]

theorem FileFree.append (hahead : ∀ line ∈ ahead, line ≠ fileImport) (hbehind : FileFree behind) :
    FileFree (ahead ++ behind) := by
  induction ahead with
  | nil => exact hbehind
  | cons line rest ih =>
    obtain ⟨hline, hrest⟩ := List.forall_mem_cons.1 hahead
    exact .inr ⟨hline, ih hrest⟩

theorem FileFree.insert (hblock : ∀ line ∈ block, line ≠ fileImport) (h : FileFree (ahead ++ behind)) :
    FileFree (ahead ++ (block ++ behind)) := by
  induction ahead with
  | nil =>
    rw [List.nil_append]
    exact .append hblock h
  | cons line rest ih => exact h.imp_right (And.imp_right ih)

theorem fileFree_map_streamFileLine (ls : List Line) : FileFree (ls.map streamFileLine) := by
  rw [← List.append_nil (ls.map streamFileLine)]
  refine .append (fun line hline => ?_) trivial
  obtain ⟨line, -, rfl⟩ := List.mem_map.1 hline
  exact (streamed_streamFileLine line).ne_fileImport

/-- The replacement of dates neither makes an import of the file class nor drops a declaration. -/
theorem FileFree.dated (h : FileFree ls) : FileFree (ls.flatMap patchDateLine) := by
  have huntyped : UntypedText fileImport := by
    unfold UntypedText Keeps
    decide
  induction ls with
  | nil => exact h
  | cons line rest ih =>
    rw [List.flatMap_cons]
    rcases h with hpublic | ⟨hne, hrest⟩
    · -- A public declaration neither imports nor annotates.
      have hdeclares : patchDateLine line = [replaceDates line] := by
        rw [patchDateLine, if_neg, if_neg]
        · obtain ⟨rest, rfl⟩ := startsWith_iff.1 hpublic
          rw [Bool.not_eq_true]
          refine isDatePattern_eq_false fun c hc => ?_
          obtain rfl : 'p' = c := Option.some.inj hc
          decide
        · rintro rfl
          exact absurd hpublic (by decide)
      rw [hdeclares]
      refine .inl ?_
      rw [(retyped_replaceDates line).startsWith_eq, hpublic]
      unfold Untyped KeepsStart
      decide
    · refine .append (fun out hout => ?_) (ih hrest)
      rw [patchDateLine] at hout
      split at hout
      · rw [List.mem_singleton.1 hout]
        decide
      · split at hout
        · contradiction
        · rw [List.mem_singleton.1 hout]
          exact mt ((retyped_replaceDates line).eq_iff huntyped).1 hne

/-- Opening the response classes puts no import of the file class before the declaration. -/
theorem FileFree.openResponses {names : List (List Char)} {current : Option ResponseClass}
    (hcurrent : ∀ cls ∈ current, ∃ header, ResponseClass.IsHeader cls header) (h : FileFree ls) :
    FileFree (openResponses names current ls) := by
  induction ls generalizing current with
  | nil => exact h
  | cons line rest ih =>
    have hnext : ∀ cls ∈ ResponseClass.ofHeader? line, ∃ header, ResponseClass.IsHeader cls header :=
      fun cls hcls => ⟨line, ResponseClass.ofHeader?_eq_some_iff.1 hcls⟩
    cases current with
    | none =>
      rw [RamlBuild.openResponses]
      exact h.imp_right (And.imp_right (ih hnext))
    | some cls =>
      obtain ⟨header, hheader⟩ := hcurrent cls rfl
      rw [RamlBuild.openResponses]
      split
      · rename_i widened hwidened
        have hwidens := ResponseClass.widenConstructor?_eq_some_iff.1 hwidened
        rcases h with hpublic | ⟨-, hrest⟩
        · exact absurd hwidens (ResponseClass.not_widens_of_public hpublic)
        · exact .inr ⟨hwidens.isMember.ne_fileImport, ih hcurrent hrest⟩
      · split
        · refine .append (fun line hline => ?_) (h.imp_right (And.imp_right (ih (by simp))))
          split at hline
          · contradiction
          · exact (hheader.isMember_copyConstructor hline).ne_fileImport
        · exact h.imp_right (And.imp_right (ih hcurrent))

/-! ### Settled lines -/

/-- A line that the patches of resources leave, as far as they look at lines alone. `dates` says
whether dates are replaced in its source. -/
structure SettledLine (dates : Prop) (line : Line) : Prop where
  plain : IsPlainLine line
  moved : ¬NamesOldPackage line
  boxed : boxLine line = line
  kept : dates → patchDateLine line = [line]

theorem settledLine_boxLine (h : IsPlainLine line) : SettledLine False (boxLine (moveImport line)) where
  plain := h.moveImport.boxLine
  moved := mt (retyped_boxLine _).namesOldPackage_iff.1 (not_namesOldPackage_moveImport line)
  boxed := boxLine_boxLine _
  kept := False.elim

theorem SettledLine.of_mem_patchDateLine (h : SettledLine False line) (hout : out ∈ patchDateLine line) :
    SettledLine True out where
  plain := h.plain.of_mem_patchDateLine hout
  moved := by
    rw [patchDateLine] at hout
    split at hout
    · rw [List.mem_singleton.1 hout, NamesOldPackage]
      decide
    · split at hout
      · contradiction
      · rw [List.mem_singleton.1 hout, (retyped_replaceDates line).namesOldPackage_iff]
        exact h.moved
  boxed := boxLine_of_mem_patchDateLine h.boxed hout
  kept _ := patchDateLine_of_mem hout

/-- What a line holds that is settled. -/
structure SettledText (dates : Prop) (text : List Char) : Prop where
  newline : '\n' ∉ text
  boxed : boxLine text = text
  date : dates → ¬HasDate text

theorem SettledLine.text (h : SettledLine dates line) : SettledText dates line where
  newline := h.plain.1
  boxed := h.boxed
  date hdates := (patchDateLine_eq_self_iff.1 (h.kept hdates)).2

/-- The lines of members are settled when what they hold is. -/
theorem IsMember.settledLine (h : IsMember line) (htext : SettledText dates line)
    (hplain : EndsPlain line) : SettledLine dates line where
  plain := ⟨htext.newline, hplain⟩
  moved hold := h.not_import hold.1
  boxed := htext.boxed
  kept hdates := patchDateLine_eq_self_iff.2 ⟨h.isDatePattern, htext.date hdates⟩

namespace SettledText

variable {text before after part blanks : List Char}

theorem of_append_cons (h : SettledText dates (before ++ c :: after)) (hc : isWordChar c = false) :
    SettledText dates before ∧ SettledText dates after := by
  obtain ⟨hbefore, hafter⟩ := (boxLine_append_cons_iff hc).1 h.boxed
  have hpart : before <:+: before ++ c :: after := (List.prefix_append before _).isInfix
  have hpart' : after <:+: before ++ c :: after := ((List.suffix_cons c after).trans
    (List.suffix_append before _)).isInfix
  exact ⟨⟨fun hmem => h.newline (hpart.subset hmem), hbefore,
      fun hdates hdate => h.date hdates (hdate.mono hpart)⟩,
    ⟨fun hmem => h.newline (hpart'.subset hmem), hafter,
      fun hdates hdate => h.date hdates (hdate.mono hpart')⟩⟩

theorem beforeFirst {stop : Char} (h : SettledText dates text) (hstop : isWordChar stop = false) :
    SettledText dates (beforeFirst stop text) := by
  have heq := List.takeWhile_append_dropWhile (p := (· != stop)) (l := text)
  cases hdrop : text.dropWhile (· != stop) with
  | nil =>
    rw [hdrop, List.append_nil] at heq
    rwa [Text.beforeFirst, heq]
  | cons d rest =>
    have hd : d = stop := by simpa [hdrop] using List.head?_dropWhile_not (· != stop) text
    rw [hdrop, hd] at heq
    rw [← heq] at h
    exact (h.of_append_cons hstop).1

theorem trim (h : SettledText dates text) : SettledText dates (trim text) := by
  have hpart : Text.trim text <:+: text :=
    (prefix_trimEnd _).isInfix.trans (trimStart_suffix text).isInfix
  exact ⟨fun hmem => h.newline (hpart.subset hmem), boxLine_trim h.boxed,
    fun hdates hdate => h.date hdates (hdate.mono hpart)⟩

end SettledText

/-! ### Lines of file responses -/

/-- A factory that takes a file, and the line that takes its place. -/
theorem exists_of_streamFileLine_ne (himport : line ≠ fileImport) (h : streamFileLine line ≠ line) :
    ∃ indent className response, (∀ c ∈ indent, c = ' ') ∧
      line = (indent ++ "public static".toList) ++ ' ' :: (className ++ ' ' :: (response ++
        '(' :: "File entity,".toList)) ∧
      streamFileLine line = "    public static".toList ++ ' ' :: (className ++ ' ' :: (response ++
        '(' :: "StreamingOutput entity,".toList)) := by
  have hstreamed := streamed_streamFileLine line
  generalize streamFileLine line = out at hstreamed h ⊢
  cases hstreamed with
  | imported => exact absurd rfl himport
  | kept => exact absurd rfl h
  | @factory f indent _ hspaces =>
    refine ⟨indent, f.className, "respond".toList ++ f.status ++ "With".toList ++ f.media, hspaces, ?_, ?_⟩
    · simp [FileFactory.signature, FileFactory.head]
    · simp [FileFactory.signature, FileFactory.head]

theorem SettledLine.streamFileLine (h : SettledLine False line) :
    SettledLine False (streamFileLine line) := by
  by_cases himport : line = fileImport
  · rw [RamlBuild.streamFileLine, if_pos himport]
    refine ⟨isPlainLine_of_not_mem (by decide) (by decide), fun hold => ?_, by decide +kernel, False.elim⟩
    exact absurd hold.2 (by decide)
  · by_cases hkept : RamlBuild.streamFileLine line = line
    · rwa [hkept]
    · obtain ⟨indent, className, response, -, hline, hnew⟩ := exists_of_streamFileLine_ne himport hkept
      have htext := h.text
      rw [hline] at htext
      obtain ⟨-, htext⟩ := htext.of_append_cons (by decide)
      obtain ⟨hclass, htext⟩ := htext.of_append_cons (by decide)
      obtain ⟨hresponse, -⟩ := htext.of_append_cons (by decide)
      rw [hnew]
      refine ⟨?_, fun hold => ?_, ?_, False.elim⟩
      · have hplain : IsPlainLine (("    public static".toList ++ ' ' :: (className ++ ' ' :: response)) ++
            "(StreamingOutput entity,".toList) :=
          (isPlainLine_append_iff (by decide)).2 ⟨by simp [hclass.newline, hresponse.newline],
            isPlainLine_of_not_mem (by decide) (by decide)⟩
        simpa using hplain
      · exact absurd (List.cons_prefix_cons.1 hold.1).1 (by decide)
      · simp only [boxLine_append_cons_iff (show isWordChar ' ' = false by decide),
          boxLine_append_cons_iff (show isWordChar '(' = false by decide), hclass.boxed,
          hresponse.boxed, true_and]
        decide +kernel

/-! ### Lines of response classes -/

/-- No date begins before the blank that ends what stands before it, unless that has the letters of
its name. -/
theorem not_hasDate_append_space {before after : Line} (hbefore : 'D' ∉ before)
    (hafter : ¬HasDate (' ' :: after)) : ¬HasDate (before ++ ' ' :: after) := by
  rw [hasDate_append_delimiter_iff (by decide), not_or]
  refine ⟨fun hdate => ?_, hafter⟩
  have hmem := hdate.mem (show 'D' ∈ oldDate by decide)
  rw [List.mem_append, List.mem_singleton] at hmem
  rcases hmem with hmem | hmem
  · exact hbefore hmem
  · exact absurd hmem (by decide)

/-- A constructor that was made public is settled as before. -/
theorem SettledLine.widened {cls : ResponseClass} (h : SettledLine dates line)
    (hwidens : cls.Widens line new) : SettledLine dates new := by
  have hmember := hwidens.isMember
  obtain ⟨blanks, modifier, rest, hblanks, hmodifier, rfl, rfl⟩ := hwidens
  obtain ⟨word, hword, hletters⟩ : ∃ word, modifier = word ++ [' '] ∧ 'D' ∉ word := by
    rcases List.mem_pair.1 hmodifier with rfl | rfl
    · exact ⟨"private".toList, rfl, by decide⟩
    · exact ⟨"protected".toList, rfl, by decide⟩
  have hold : blanks ++ modifier ++ cls.name ++ '(' :: rest =
      (blanks ++ word) ++ ' ' :: (cls.name ++ '(' :: rest) := by
    rw [hword]
    simp
  have hnew : blanks ++ "public ".toList ++ cls.name ++ '(' :: rest =
      (blanks ++ "public".toList) ++ ' ' :: (cls.name ++ '(' :: rest) := by
    simp
  rw [hold] at h
  rw [hnew] at hmember ⊢
  obtain ⟨-, htext⟩ := h.text.of_append_cons (by decide)
  refine hmember.settledLine ⟨?_, ?_, fun hdates => ?_⟩ ?_
  · rw [List.mem_append, List.mem_append, List.mem_cons, not_or, not_or, not_or]
    exact ⟨⟨fun hmem => h.text.newline (by simp [hmem]), by decide⟩, by decide, htext.newline⟩
  · rw [boxLine_append_cons_iff (by decide), boxLine_blank_append_iff hblanks]
    exact ⟨by decide +kernel, htext.boxed⟩
  · refine not_hasDate_append_space ?_ fun hdate => ?_
    · rw [List.mem_append, not_or]
      exact ⟨hblanks.not_mem (by decide), by decide⟩
    · exact h.text.date hdates (hdate.append_left (blanks ++ word))
  · rw [EndsPlain, List.getLast?_append, List.getLast?_cons, Option.some_or, ← List.getLast?_cons]
    have hlast := h.plain.2
    rwa [EndsPlain, List.getLast?_append, List.getLast?_cons, Option.some_or,
      ← List.getLast?_cons] at hlast

/-- The lines of a copy constructor are settled when the header of their class is. -/
theorem SettledLine.copyConstructor {cls : ResponseClass} (h : SettledLine dates header)
    (hheader : cls.IsHeader header) : ∀ line ∈ cls.copyConstructor, SettledLine dates line := by
  have hname : SettledText dates cls.name := by
    have htext := h.text
    rw [hheader.eq, show cls.indent ++ "class ".toList ++ cls.name ++
        " extends ResponseDelegate \x7b".toList = (cls.indent ++ "class".toList) ++ ' ' ::
          (cls.name ++ ' ' :: "extends ResponseDelegate \x7b".toList) by simp] at htext
    exact ((htext.of_append_cons (by decide)).2.of_append_cons (by decide)).1
  have hindent : ∀ c, c ≠ ' ' → c ∉ cls.indent := fun c hc hmem => hc (hheader.indent c hmem)
  have hfixed : ∀ text : List Char, '\n' ∉ text → '\r' ∉ text → 'D' ∉ text → boxLine text = text →
      IsMember (cls.indent ++ text) → SettledLine dates (cls.indent ++ text) := by
    intro text hnewline hreturn hletter hboxed hmember
    have hmem : ∀ c, c ≠ ' ' → c ∉ text → c ∉ cls.indent ++ text := fun c hc htext => by
      rw [List.mem_append, not_or]
      exact ⟨hindent c hc, htext⟩
    refine hmember.settledLine ⟨hmem _ (by decide) hnewline, ?_, fun _ hdate => ?_⟩ fun hlast => ?_
    · exact (boxLine_blank_append_iff hheader.blank_indent).2 hboxed
    · exact hmem 'D' (by decide) hletter (hdate.mem (by decide))
    · exact hmem '\r' (by decide) hreturn (List.mem_of_getLast? hlast)
  intro line hline
  have hmember := hheader.isMember_copyConstructor hline
  rw [ResponseClass.copyConstructor, List.mem_cons, List.mem_cons, List.mem_cons,
    List.mem_singleton] at hline
  rcases hline with rfl | rfl | rfl | rfl
  · have heq : cls.copyHeader = (cls.indent ++ "  public".toList) ++ ' ' :: (cls.name ++
        '(' :: "ResponseDelegate response) \x7b".toList) := by
      simp [ResponseClass.copyHeader]
    have hplain : IsPlainLine (((cls.indent ++ "  public".toList) ++ ' ' :: cls.name) ++
        "(ResponseDelegate response) \x7b".toList) := by
      refine (isPlainLine_append_iff (by decide)).2
        ⟨?_, isPlainLine_of_not_mem (by decide) (by decide)⟩
      simp [hindent, hname.newline]
    rw [heq] at hmember ⊢
    refine hmember.settledLine ⟨?_, ?_, fun _ => ?_⟩ ?_
    · simpa using hplain.1
    · rw [boxLine_append_cons_iff (by decide), boxLine_append_cons_iff (by decide),
        boxLine_blank_append_iff hheader.blank_indent]
      exact ⟨by decide +kernel, hname.boxed, by decide +kernel⟩
    · refine not_hasDate_append_space ?_ ?_
      · rw [List.mem_append, not_or]
        exact ⟨hindent 'D' (by decide), by decide⟩
      · rw [← List.cons_append, hasDate_append_delimiter_iff (by decide), not_or]
        refine ⟨not_hasDate_cons fun d hd => ?_, ?_⟩
        · rcases List.mem_append.1 hd with hd | hd
          · rw [← Bool.not_eq_true]
            intro hcloses
            have := not_isNameChar_of_closesDate hcloses
            rw [isNameChar_of_isWordChar (hheader.name d hd)] at this
            contradiction
          · rw [List.mem_singleton.1 hd]
            decide
        · rw [← replaceDates_eq_self_iff]
          decide
    · simpa using hplain.2
  · exact hfixed _ (by decide) (by decide) (by decide) (by decide +kernel) hmember
  · exact hfixed _ (by decide) (by decide) (by decide) (by decide +kernel) hmember
  · exact ⟨isPlainLine_of_not_mem (by decide) (by decide), fun hold => absurd hold.1 (by decide),
      by decide +kernel, fun _ => rfl⟩

/-- What becomes of settled lines when response classes are opened is settled. -/
theorem Opened.settledLine {copied : List Char → Prop} {out : List Line} (h : Opened copied ls out)
    (hls : ∀ line ∈ ls, SettledLine dates line) : ∀ line ∈ out, SettledLine dates line := by
  have hbodies : ∀ {cls : ResponseClass} {body body' : List Line}, List.Forall₂ cls.Opens body body' →
      (∀ line ∈ body, SettledLine dates line) → ∀ line ∈ body', SettledLine dates line := by
    intro cls body body' hopened hbody
    induction hopened with
    | nil => simp
    | cons hline _ ih =>
      obtain ⟨hfirst, hrest⟩ := List.forall_mem_cons.1 hbody
      refine List.forall_mem_cons.2 ⟨?_, ih hrest⟩
      rcases hline with hwidens | ⟨-, rfl⟩
      · exact hfirst.widened hwidens
      · exact hfirst
  induction h with
  | done => exact hls
  | outside _ _ ih =>
    obtain ⟨hline, hrest⟩ := List.forall_mem_cons.1 hls
    exact List.forall_mem_cons.2 ⟨hline, ih hrest⟩
  | ended opens _ opened _ copies _ ih =>
    obtain ⟨hheader, hrest⟩ := List.forall_mem_cons.1 hls
    obtain ⟨hbody, hrest⟩ := List.forall_mem_append.1 hrest
    obtain ⟨hlast, hrest⟩ := List.forall_mem_cons.1 hrest
    refine List.forall_mem_cons.2 ⟨hheader, List.forall_mem_append.2 ⟨hbodies opened hbody,
      List.forall_mem_append.2 ⟨?_, List.forall_mem_cons.2 ⟨hlast, ih hrest⟩⟩⟩⟩
    rcases copies with ⟨-, rfl⟩ | ⟨-, rfl⟩
    · simp
    · exact hheader.copyConstructor opens
  | unended _ _ opened =>
    obtain ⟨hheader, hbody⟩ := List.forall_mem_cons.1 hls
    exact List.forall_mem_cons.2 ⟨hheader, hbodies opened hbody⟩

/-! ### Declarations of constants -/

section Declarations

variable {path value assigned : List Char} {source : String} {file : Path} {paths : ResourcePaths}

/-- The declaration of a constant for a settled value is settled, and tells nothing about response
classes. -/
theorem settledLine_declaration (hname : IsCapital name) (hne : name ≠ [])
    (hassigned : assigned ∈ ["= ".toList, "= ROOT_PATH + ".toList]) (hvalue : SettledText dates value)
    (hline : line = "  String".toList ++ ' ' :: (name ++ ' ' :: (assigned ++ '"' :: (value ++
      '"' :: [';'])))) :
    SettledLine dates line ∧ TellsNothing line ∧ line ≠ fileImport := by
  have hmark : (trimStart line).head? = some 'S' := by
    rw [hline]
    exact head?_trimStart (ResponseClass.blank_replicate 2) (by decide)
  have hmember : IsMember line := by
    intro c hc
    obtain rfl : 'S' = c := Option.some.inj (hmark.symm.trans hc)
    decide
  have hbreak : '\n' ∉ name := fun hmem => by
    rcases hname _ hmem with h | ⟨h, -⟩
    · exact absurd h (by decide)
    · exact absurd h (by decide)
  have hfixed : boxLine assigned = assigned ∧ 'a' ∉ assigned ∧ '\n' ∉ assigned := by
    rcases List.mem_pair.1 hassigned with rfl | rfl
    · exact ⟨by decide +kernel, by decide, by decide⟩
    · exact ⟨by decide +kernel, by decide, by decide⟩
  have hword : boxLine name = name := by
    rw [boxLine_eq_self_iff, words_of_isWord fun c hc => hname.isWordChar hc]
    exact List.forall_mem_singleton.2 (not_mem_primitives_of_isCapital hname hne List.prefix_rfl)
  refine ⟨hmember.settledLine ⟨?_, ?_, fun hdates => ?_⟩ ?_, tellsNothing_of_head ?_,
    hmember.ne_fileImport⟩
  · rw [hline]
    simp [hbreak, hfixed.2.2, hvalue.newline]
  · rw [hline]
    simp only [boxLine_append_cons_iff (show isWordChar ' ' = false by decide),
      boxLine_append_cons_iff (show isWordChar '"' = false by decide), hword, hvalue.boxed, hfixed.1,
      true_and]
    decide +kernel
  · -- Quotes are foreign to dates, and what stands before the first one lacks a letter of their name.
    have heq : line = ("  String".toList ++ ' ' :: (name ++ ' ' :: assigned)) ++
        '"' :: (value ++ '"' :: [';']) := by
      rw [hline]
      simp
    rw [heq, hasDate_append_foreign_iff (c := '"') (by decide) (by decide),
      hasDate_append_foreign_iff (c := '"') (by decide) (by decide), not_or, not_or]
    refine ⟨fun hdate => ?_, hvalue.date hdates, not_hasDate_cons (by simp)⟩
    have hmem := hdate.mem (show 'a' ∈ oldDate by decide)
    rw [List.mem_append, List.mem_cons, List.mem_append, List.mem_cons] at hmem
    rcases hmem with hmem | hmem | hmem | hmem | hmem
    · exact absurd hmem (by decide)
    · exact absurd hmem (by decide)
    · exact hname.not_isLower hmem (by decide)
    · exact absurd hmem (by decide)
    · exact hfixed.2.1 hmem
  · have heq : line = ("  String".toList ++ ' ' :: (name ++ ' ' :: (assigned ++ '"' :: (value ++
        ['"'])))) ++ [';'] := by
      rw [hline]
      simp
    rw [heq]
    exact endsPlain_concat (by decide)
  · intro c hc
    obtain rfl : 'S' = c := Option.some.inj (hmark.symm.trans hc)
    decide

/-- A braced part stands between its braces. -/
theorem exists_of_mem_bracedParts (h : value ∈ bracedParts path) :
    ∃ before after, path = before ++ '\x7b' :: (value ++ '\x7d' :: after) := by
  have hcons : ∀ {c : Char} {rest : List Char}, (∃ before after,
      rest = before ++ '\x7b' :: (value ++ '\x7d' :: after)) →
      ∃ before after, c :: rest = before ++ '\x7b' :: (value ++ '\x7d' :: after) := by
    rintro c _ ⟨before, after, rfl⟩
    exact ⟨c :: before, after, rfl⟩
  fun_induction bracedParts path with
  | case1 => exact absurd h List.not_mem_nil
  | case2 rest _ ih => exact hcons (ih h)
  | case3 rest _ _ ih => exact hcons (ih h)
  | case4 rest d more hdrop hne ih =>
    rcases List.mem_cons.1 h with rfl | h
    · have hd : d = '\x7d' := by simpa [hdrop] using List.head?_dropWhile_not (· != '\x7d') rest
      have hrest := List.takeWhile_append_dropWhile (p := (· != '\x7d')) (l := rest)
      rw [hdrop, hd] at hrest
      exact ⟨[], more, congrArg ('\x7b' :: ·) hrest.symm⟩
    · obtain ⟨before, after, hrest⟩ := ih h
      refine ⟨'\x7b' :: (rest.take ((rest.takeWhile (· != '\x7d')).length + 1) ++ before), after, ?_⟩
      rw [List.cons_append, List.append_assoc, ← hrest, List.take_append_drop]
  | case5 c rest _ ih => exact hcons (ih h)

theorem settledText_of_mem_pathVariables (hpath : SettledText dates path)
    (h : value ∈ pathVariables path) : SettledText dates value := by
  obtain ⟨part, hpart, rfl⟩ := List.mem_map.1 (List.mem_of_mem_filter h)
  obtain ⟨before, after, rfl⟩ := exists_of_mem_bracedParts hpart
  obtain ⟨-, hrest⟩ := hpath.of_append_cons (by decide)
  exact ((hrest.of_append_cons (by decide)).1.beforeFirst (by decide)).trim

theorem settledText_of_after? {start : List Char} (hstart : ∃ before c, start = before ++ [c] ∧
    isWordChar c = false) (hline : SettledText dates line) (h : after? start line = some path) :
    SettledText dates path := by
  obtain ⟨before, c, rfl, hc⟩ := hstart
  obtain rfl := after?_eq_some_iff.1 h
  rw [List.append_assoc] at hline
  exact (hline.of_append_cons hc).2

theorem settledText_of_subPath? (hline : SettledText dates line) (h : subPath? line = some path) :
    SettledText dates path := by
  obtain ⟨rest, hafter, h⟩ := Option.bind_eq_some_iff.1 h
  have hrest := settledText_of_after? ⟨"  @Path(".toList, '"', rfl, by decide⟩ hline hafter
  have hbefore : SettledText dates (beforeFirst '"' rest) := hrest.beforeFirst (by decide)
  rw [beforeFirst] at hbefore
  split at h
  · contradiction
  · split at h
    · rwa [← Option.some.inj h]
    · contradiction

theorem mem_of_mem_dropThrough {p : Line → Bool} (h : line ∈ dropThrough p ls) : line ∈ ls :=
  (List.dropWhile_sublist _).subset (List.mem_of_mem_drop h)

/-- What a resource declares about its paths is settled when its lines are. -/
theorem settledText_of_scan (hls : ∀ line ∈ lines source, SettledLine dates line)
    (h : ResourcePaths.scan source file = .ok paths) :
    SettledText dates paths.root ∧ (∀ path ∈ paths.subPaths, SettledText dates path) ∧
      ∀ param ∈ paths.params, SettledText dates param := by
  rw [ResourcePaths.scan] at h
  split at h
  · cases h
  · rename_i rest hroot
    obtain ⟨rootLine, hrootLine, hafter⟩ := List.exists_of_findSome?_eq_some hroot
    have hrest := settledText_of_after? ⟨"@Path(".toList, '"', rfl, by decide⟩
      (hls rootLine hrootLine).text hafter
    have hroot : SettledText dates (beforeFirst '"' rest) := hrest.beforeFirst (by decide)
    dsimp only at h
    split at h
    · obtain rfl := Except.ok.inj h
      have hpaths : ∀ ls' : List Line, (∀ line ∈ ls', line ∈ lines source) →
          ∀ path ∈ ls'.filterMap subPath?, SettledText dates path := by
        intro ls' hmem path hpath
        obtain ⟨line, hline, hpath⟩ := List.mem_filterMap.1 hpath
        exact settledText_of_subPath? (hls line (hmem line hline)).text hpath
      have hmembers : ∀ p q r : Line → Bool,
          ∀ line ∈ (dropThrough p (dropThrough q (lines source))).takeWhile r, line ∈ lines source :=
        fun _ _ _ line hline => mem_of_mem_dropThrough (mem_of_mem_dropThrough
          ((List.takeWhile_sublist _).subset hline))
      refine ⟨hroot, fun path hpath => hpaths _ (hmembers _ _ _) path
        (ConstantTable.mem_ordered.1 hpath), fun param hparam => ?_⟩
      obtain ⟨path, hpath, hparam⟩ := List.mem_flatMap.1 (ConstantTable.mem_ordered.1 hparam)
      rcases List.mem_cons.1 hpath with rfl | hpath
      · exact settledText_of_mem_pathVariables hroot hparam
      · exact settledText_of_mem_pathVariables (hpaths _ (hmembers _ _ _) path hpath) hparam
    · cases h

/-- The declarations for the paths of a resource are settled, and tell nothing about response
classes. -/
theorem settledLine_constants (hroot : SettledText dates paths.root)
    (hpaths : ∀ path ∈ paths.subPaths, SettledText dates path)
    (hparams : ∀ param ∈ paths.params, SettledText dates param) :
    ∀ line ∈ paths.constants, SettledLine dates line ∧ TellsNothing line ∧ line ≠ fileImport := by
  have hblank : SettledLine dates [] ∧ TellsNothing [] ∧ [] ≠ fileImport :=
    ⟨⟨isPlainLine_of_not_mem (by decide) (by decide), fun hold => absurd hold.1 (by decide),
      by decide +kernel, fun _ => rfl⟩, tellsNothing_of_head (by simp [trimStart]), by decide⟩
  have hentry : ∀ {values ending : _} {taken : List (List Char)} {entry : List Char × List Char},
      IsCapital ending → entry ∈ (ConstantTable.build values ending taken).1.entries →
      entry.1 ∈ values ∧ IsCapital entry.2 ∧ entry.2 ≠ [] := by
    intro values ending taken entry hending hmem
    refine ⟨?_, ConstantTable.isCapital_of_mem_assign hending hmem⟩
    exact (((constantsFor_build values ending taken).mem_iff _).1 (List.mem_map_of_mem hmem)).1
  have hdeclared : ∀ {name value line : List Char} (assigned : List Char),
      assigned ∈ ["= ".toList, "= ROOT_PATH + ".toList] → IsCapital name → name ≠ [] →
      SettledText dates value →
      line = "  String".toList ++ ' ' :: (name ++ ' ' :: (assigned ++ '"' :: (value ++ '"' :: [';']))) →
      SettledLine dates line ∧ TellsNothing line ∧ line ≠ fileImport := fun _ hassigned hname hne hvalue hline =>
    settledLine_declaration hname hne hassigned hvalue hline
  have hplain : "= ".toList ∈ ["= ".toList, "= ROOT_PATH + ".toList] := by simp
  have hbelow : "= ROOT_PATH + ".toList ∈ ["= ".toList, "= ROOT_PATH + ".toList] := by simp
  intro line hline
  rw [constants_eq] at hline
  rcases List.mem_append.1 hline with hline | hline
  · rcases List.mem_append.1 hline with hline | hline
    · rcases List.mem_pair.1 hline with rfl | rfl
      · have hname : IsCapital ResourcePaths.rootConstant := by
          unfold IsCapital ResourcePaths.rootConstant
          simp
        have hline : rootDeclaration paths.root = "  String".toList ++ ' ' ::
            (ResourcePaths.rootConstant ++ ' ' :: ("= ".toList ++ '"' :: (paths.root ++ '"' :: [';']))) := by
          unfold rootDeclaration ResourcePaths.rootMarker
          simp
        exact hdeclared _ hplain hname (by decide) hroot hline
      · exact hblank
    · obtain ⟨⟨path, name⟩, hmem, hline⟩ := List.mem_flatMap.1 hline
      obtain ⟨hpath, hname, hne⟩ := hentry (by simp [IsCapital]) hmem
      rcases List.mem_pair.1 hline with rfl | rfl
      · have hline : pathDeclaration path name = "  String".toList ++ ' ' ::
            (name ++ ' ' :: ("= ROOT_PATH + ".toList ++ '"' :: (path ++ '"' :: [';']))) := by
          unfold pathDeclaration ResourcePaths.rootConstant
          simp
        exact hdeclared _ hbelow hname hne (hpaths path hpath) hline
      · exact hblank
  · obtain ⟨⟨param, name⟩, hmem, hline⟩ := List.mem_flatMap.1 hline
    obtain ⟨hparam, hname, hne⟩ := hentry (by simp [IsCapital]) hmem
    rcases List.mem_pair.1 hline with rfl | rfl
    · have hline : paramDeclaration param name = "  String".toList ++ ' ' ::
          (name ++ ' ' :: ("= ".toList ++ '"' :: (param ++ '"' :: [';']))) := by
        unfold paramDeclaration
        simp
      exact hdeclared _ hplain hname hne (hparams param hparam) hline
    · exact hblank

end Declarations

/-! ### Classes that are ended -/

theorem import_prefix_moveImport (h : "import".toList <+: line) : "import".toList <+: moveImport line := by
  have hcons : ∀ (c : Char) (rest : List Char), c ≠ 'j' →
      replaceAll "javax.ws".toList "jakarta.ws".toList (c :: rest) =
        c :: replaceAll "javax.ws".toList "jakarta.ws".toList rest := by
    intro c rest hc
    rw [replaceAll, if_neg (by decide), if_neg]
    intro hstarts
    exact hc (List.cons_prefix_cons.1 (List.isPrefixOf_iff_prefix.1 hstarts)).1.symm
  obtain ⟨rest, rfl⟩ := h
  rw [moveImport, if_pos (startsWith_iff.2 (List.prefix_append _ _))]
  refine ⟨replaceAll "javax.ws".toList "jakarta.ws".toList rest, ?_⟩
  change _ = replaceAll "javax.ws".toList "jakarta.ws".toList
    ('i' :: 'm' :: 'p' :: 'o' :: 'r' :: 't' :: rest)
  rw [hcons _ _ (by decide), hcons _ _ (by decide), hcons _ _ (by decide), hcons _ _ (by decide),
    hcons _ _ (by decide), hcons _ _ (by decide)]
  rfl

theorem import_prefix_retyped (h : Retyped line line') :
    "import".toList <+: line' ↔ "import".toList <+: line :=
  h.prefix_iff (by unfold Untyped KeepsStart; decide)

theorem tellsNothing_of_import (h : "import".toList <+: line) : TellsNothing line := by
  obtain ⟨rest, rfl⟩ := h
  refine tellsNothing_of_head fun c hc => ?_
  obtain rfl : 'i' = c := Option.some.inj hc
  decide

theorem import_prefix_streamFileLine (h : "import".toList <+: line) :
    "import".toList <+: streamFileLine line := by
  by_cases himport : line = fileImport
  · rw [streamFileLine, if_pos himport]
    decide
  · by_cases hkept : streamFileLine line = line
    · rwa [hkept]
    · obtain ⟨indent, className, response, hindent, rfl, -⟩ := exists_of_streamFileLine_ne himport hkept
      cases indent with
      | nil => exact absurd (List.cons_prefix_cons.1 h).1 (by decide)
      | cons c indent =>
        have hc := (List.cons_prefix_cons.1 h).1
        rw [hindent c List.mem_cons_self] at hc
        exact absurd hc (by decide)

theorem exists_patchDateLine_import (h : "import".toList <+: line) :
    ∃ line', patchDateLine line = [line'] ∧ "import".toList <+: line' := by
  rw [patchDateLine]
  split
  · exact ⟨_, rfl, by decide⟩
  · rw [if_neg]
    · exact ⟨_, rfl, (import_prefix_retyped (retyped_replaceDates line)).2 h⟩
    · obtain ⟨rest, rfl⟩ := h
      rw [Bool.not_eq_true]
      refine isDatePattern_eq_false fun c hc => ?_
      obtain rfl : 'i' = c := Option.some.inj hc
      decide

theorem Retyped.declaresStatic (h : Retyped line line') (hline : DeclaresStatic line) :
    DeclaresStatic line' := by
  obtain ⟨blanks, rest, hblanks, rfl⟩ := hline
  obtain ⟨first, rest', rfl, hfirst, hrest⟩ := h.of_append_cons (by decide) (by decide)
  obtain ⟨second, rest', rfl, hsecond, -⟩ := hrest.of_append_cons (by decide) (by decide)
  rw [hfirst.eq_of_untypedText (untypedText_of_blank hblanks (by decide)),
    hsecond.eq_of_untypedText (by unfold UntypedText Keeps; decide)]
  exact ⟨blanks, rest', hblanks, rfl⟩

theorem DeclaresStatic.head?_trimStart (h : DeclaresStatic line) : (trimStart line).head? = some 'p' := by
  obtain ⟨blanks, rest, hblanks, rfl⟩ := h
  rw [List.append_assoc]
  exact Text.head?_trimStart hblanks (by decide)

theorem exists_patchDateLine_static (h : DeclaresStatic line) :
    ∃ line', patchDateLine line = [line'] ∧ DeclaresStatic line' := by
  have hhead := h.head?_trimStart
  rw [patchDateLine, if_neg, if_neg]
  · exact ⟨_, rfl, (retyped_replaceDates line).declaresStatic h⟩
  · rw [Bool.not_eq_true]
    refine isDatePattern_eq_false fun c hc => ?_
    obtain rfl : 'p' = c := Option.some.inj (hhead.symm.trans hc)
    decide
  · rintro rfl
    exact absurd hhead (by decide)

theorem boxLine_import (h : "import".toList <+: line) : "import".toList <+: boxLine line :=
  (import_prefix_retyped (retyped_boxLine line)).2 h

/-- Where an import line stood, an import line stands. -/
theorem sameEnds_import (h : "import".toList <+: line) (h' : "import".toList <+: line') :
    SameEnds line line' :=
  .of_tellsNothing (tellsNothing_of_import h) (tellsNothing_of_import h')

theorem forall₂_patchDateLineIf {dates : Bool} {p : Line → Prop}
    (hdated : ∀ {line}, p line → ∃ line', patchDateLine line = [line'] ∧ p line')
    (hsame : ∀ {line line'}, p line → p line' → SameEnds line line') (h : p line) (h' : p line') :
    List.Forall₂ SameEnds (patchDateLineIf dates line) (patchDateLineIf dates line') := by
  cases dates with
  | false => exact .cons (hsame h h') .nil
  | true =>
    obtain ⟨out, hout, hp⟩ := hdated h
    obtain ⟨out', hout', hp'⟩ := hdated h'
    rw [patchDateLineIf, patchDateLineIf, if_pos rfl, if_pos rfl, hout, hout']
    exact .cons (hsame hp hp') .nil

/-- The lines that take the place of a line open and end the same classes, also when its import has
moved and its file response is streamed. -/
theorem sameEnds_patchDateLineIf (dates : Bool) {stream : Line → Line}
    (hstream : stream = streamFileLine ∨ stream = id) (line : Line) :
    List.Forall₂ SameEnds (patchDateLineIf dates (boxLine line))
      (patchDateLineIf dates (stream (boxLine (moveImport line)))) := by
  have hrefl : ∀ ls : List Line, List.Forall₂ SameEnds ls ls := fun ls =>
    List.forall₂_same.2 fun line _ => .refl line
  by_cases himport : "import".toList <+: line
  · have hmoved := boxLine_import (import_prefix_moveImport himport)
    refine forall₂_patchDateLineIf exists_patchDateLine_import sameEnds_import (boxLine_import himport) ?_
    rcases hstream with rfl | rfl
    · exact import_prefix_streamFileLine hmoved
    · exact hmoved
  · have hstays : moveImport line = line := moveImport_eq_self fun hold => himport hold.1
    rw [hstays]
    rcases hstream with rfl | rfl
    · by_cases hkept : streamFileLine (boxLine line) = boxLine line
      · rw [hkept]
        exact hrefl _
      · have hne : boxLine line ≠ fileImport := by
          intro heq
          apply himport
          rw [← import_prefix_retyped (retyped_boxLine line), heq]
          decide
        obtain ⟨indent, className, response, hindent, hline, hnew⟩ :=
          exists_of_streamFileLine_ne hne hkept
        have hblank : Blank indent := fun c hc => by
          rw [hindent c hc]
          decide
        have hmember : ∀ {blanks rest : Line}, Blank blanks →
            DeclaresStatic ((blanks ++ "public static".toList) ++ ' ' :: rest) := fun {blanks rest} h =>
          ⟨blanks, rest, h, by simp⟩
        refine forall₂_patchDateLineIf exists_patchDateLine_static SameEnds.of_declaresStatic
          (hline ▸ hmember hblank) ?_
        rw [hnew]
        exact hmember (ResponseClass.blank_replicate 4)
    · exact hrefl _

/-! ### Whole resources -/

theorem SettledLine.of_mem_patchDateLineIf {dates : Bool} (h : SettledLine False line)
    (hout : out ∈ patchDateLineIf dates line) : SettledLine (dates = true) out := by
  cases dates with
  | false =>
    rw [List.mem_singleton.1 hout]
    exact ⟨h.plain, h.moved, h.boxed, fun heq => absurd heq (by decide)⟩
  | true =>
    have hsettled := h.of_mem_patchDateLine hout
    exact ⟨hsettled.plain, hsettled.moved, hsettled.boxed, fun _ => hsettled.kept trivial⟩

theorem FileFree.patchDateLineIf {dates : Bool} (h : FileFree ls) : FileFree (ls.flatMap (patchDateLineIf dates)) := by
  cases dates with
  | false =>
    rw [show RamlBuild.patchDateLineIf false = fun line => [line] from rfl, List.flatMap_singleton']
    exact h
  | true => exact h.dated

/-- A resource that the patches leave. -/
structure SettledResource (dates : Bool) (ls : List Line) : Prop where
  line : ∀ line ∈ ls, SettledLine (dates = true) line
  fileFree : FileFree ls
  opened : openedLines ls = ls
  marked : ls.any ResourcePaths.rootMarker.isPrefixOf = true

namespace SettledResource

variable {dates : Bool} (h : SettledResource dates ls)
include h

theorem plain : ∀ line ∈ ls, IsPlainLine line := fun line hline => (h.line line hline).plain

theorem patchImports_eq : patchImports (ofLines ls) = ofLines ls :=
  mapLines_eq_self h.plain fun line hline => moveImport_eq_self (h.line line hline).moved

theorem boxPrimitives_eq : boxPrimitives (ofLines ls) = ofLines ls :=
  mapLines_eq_self h.plain fun line hline => (h.line line hline).boxed

theorem importsFile_eq : importsFile (ofLines ls) = false := by
  rw [importsFile_eq_false_iff, lines_ofLines_of_plain h.plain]
  exact h.fileFree

theorem patchDatesIf_eq : patchDatesIf dates (ofLines ls) = ofLines ls :=
  patchDatesIf_eq_self h.plain fun hdates line hline => (h.line line hline).kept hdates

theorem patchResponseTypes_eq : patchResponseTypes (ofLines ls) = ofLines ls := by
  rw [RamlBuild.patchResponseTypes_eq, lines_ofLines_of_plain h.plain, h.opened]

theorem injectUrlConstants_eq (file : Path) : injectUrlConstants (ofLines ls) file = .ok (ofLines ls) := by
  rw [injectUrlConstants, lines_ofLines_of_plain h.plain]
  exact if_pos h.marked

end SettledResource

/-- Constants that are put into lines that the patches before them leave make a resource that all
patches leave. -/
theorem exists_settledResource_of_injectUrlConstants {dates : Bool} {file : Path} {text : String}
    (hline : ∀ line ∈ ls, SettledLine (dates = true) line) (hfree : FileFree ls)
    (hopened : openedLines ls = ls) (h : injectUrlConstants (ofLines ls) file = .ok text) :
    ∃ ls, text = ofLines ls ∧ SettledResource dates ls := by
  have hlines : lines (ofLines ls) = ls :=
    lines_ofLines_of_plain fun line hmem => (hline line hmem).plain
  rw [injectUrlConstants, hlines] at h
  by_cases hmarked : ls.any ResourcePaths.rootMarker.isPrefixOf = true
  · rw [if_pos hmarked] at h
    exact ⟨ls, (Except.ok.inj h).symm, hline, hfree, hopened, hmarked⟩
  · rw [if_neg hmarked] at h
    cases hscan : ResourcePaths.scan (ofLines ls) file with
    | error error =>
      rw [hscan] at h
      contradiction
    | ok paths =>
      rw [hscan] at h
      obtain ⟨hroot, hpaths, hparams⟩ := settledText_of_scan (hlines.symm ▸ hline) hscan
      have hblock := settledLine_constants hroot hpaths hparams
      have hsplit : ls.take paths.insertAt ++ ls.drop paths.insertAt = ls := List.take_append_drop _ _
      refine ⟨_, (Except.ok.inj h).symm, fun line hmem => ?_, ?_, ?_, ?_⟩
      · rw [List.append_assoc, List.mem_append, List.mem_append] at hmem
        rcases hmem with hmem | hmem | hmem
        · exact hline line (List.mem_of_mem_take hmem)
        · exact (hblock line hmem).1
        · exact hline line (List.mem_of_mem_drop hmem)
      · rw [List.append_assoc]
        rw [← hsplit] at hfree
        exact hfree.insert fun line hmem => (hblock line hmem).2.2
      · rw [List.append_assoc]
        rw [← hsplit] at hopened
        exact openedLines_insert (fun line hmem => (hblock line hmem).2.1) hopened
      · refine List.any_eq_true.2 ⟨rootDeclaration paths.root, ?_, ?_⟩
        · rw [constants_eq]
          simp
        · rw [rootDeclaration, List.append_assoc, List.isPrefixOf_iff_prefix]
          exact List.prefix_append _ _

/-- File responses are streamed on all lines or on none, and the file class is not imported after
that. -/
theorem exists_patchFileResponses_eq (hplain : ∀ line ∈ ls, IsPlainLine line) :
    ∃ stream : Line → Line, (stream = streamFileLine ∨ stream = id) ∧
      patchFileResponses (ofLines ls) = ofLines (ls.map stream) ∧ FileFree (ls.map stream) := by
  have hlines := lines_ofLines_of_plain hplain
  rw [patchFileResponses]
  by_cases himports : importsFile (ofLines ls) = true
  · rw [if_pos himports, mapLines, hlines]
    exact ⟨streamFileLine, .inl rfl, rfl, fileFree_map_streamFileLine ls⟩
  · rw [if_neg himports]
    rw [Bool.not_eq_true, importsFile_eq_false_iff, hlines] at himports
    exact ⟨id, .inr rfl, by rw [List.map_id], by rwa [List.map_id]⟩

theorem forall₂_flatMap {α : Type} {r : Line → Line → Prop} {f g : α → List Line}
    (h : ∀ a, List.Forall₂ r (f a) (g a)) (as : List α) :
    List.Forall₂ r (as.flatMap f) (as.flatMap g) := by
  induction as with
  | nil => exact .nil
  | cons a rest ih =>
    rw [List.flatMap_cons, List.flatMap_cons]
    exact List.rel_append (h a) ih

/-- What the patches make of a resource they leave, when its response classes are ended, each before
the next one, on lines that are boxed and have their dates replaced. -/
theorem exists_settledResource {dates : Bool} {source text : String} {file : Path}
    (hplain : ∀ line ∈ lines source, IsPlainLine line)
    (hclose : ResponsesClose (((lines source).map boxLine).flatMap (patchDateLineIf dates)))
    (h : injectUrlConstants (patchResponseTypes (patchDatesIf dates
      (patchFileResponses (boxPrimitives (patchImports source))))) file = .ok text) :
    ∃ ls, text = ofLines ls ∧ SettledResource dates ls := by
  -- The lines when they are boxed, streamed, dated and opened.
  have hmoved : ∀ line ∈ (lines source).map moveImport, IsPlainLine line := by
    rw [List.forall_mem_map]
    exact fun line hline => (hplain line hline).moveImport
  have hboxed : ∀ line ∈ ((lines source).map moveImport).map boxLine, SettledLine False line := by
    rw [List.map_map, List.forall_mem_map]
    exact fun line hline => settledLine_boxLine (hplain line hline)
  rw [patchImports, mapLines, boxPrimitives, mapLines_ofLines hmoved] at h
  obtain ⟨stream, hstream, hstreamed, hfree⟩ :=
    exists_patchFileResponses_eq fun line hline => (hboxed line hline).plain
  have hsettled : ∀ line ∈ (((lines source).map moveImport).map boxLine).map stream,
      SettledLine False line := by
    rw [List.forall_mem_map]
    intro line hline
    rcases hstream with rfl | rfl
    · exact (hboxed line hline).streamFileLine
    · exact hboxed line hline
  rw [hstreamed, patchDatesIf_ofLines fun line hline => (hsettled line hline).plain] at h
  have hdated : ∀ line ∈ ((((lines source).map moveImport).map boxLine).map stream).flatMap
      (patchDateLineIf dates), SettledLine (dates = true) line := by
    intro line hline
    obtain ⟨old, hold, hline⟩ := List.mem_flatMap.1 hline
    exact (hsettled old hold).of_mem_patchDateLineIf hline
  have hclose : ResponsesClose (((((lines source).map moveImport).map boxLine).map stream).flatMap
      (patchDateLineIf dates)) := by
    refine hclose.congr ?_
    rw [List.map_map, List.map_map, List.flatMap_map, List.flatMap_map]
    exact forall₂_flatMap (sameEnds_patchDateLineIf dates hstream) (lines source)
  rw [patchResponseTypes_eq, lines_ofLines_of_plain fun line hline => (hdated line hline).plain] at h
  refine exists_settledResource_of_injectUrlConstants ?_ (.openResponses (by simp) hfree.patchDateLineIf)
    (openedLines_again hclose) h
  exact (opened_openResponses (fun _ => mem_namesWithCopy_none_iff) _).settledLine hdated

end RamlBuild
