import Mathlib.Data.List.Forall2
import RamlBuild.Proofs.Text.Words
import RamlBuild.Sources.FileResponse

/-!
# What becomes of file responses

In a source that imports the file class ahead of its declaration, the import gives way to that of
`StreamingOutput`, whatever else the source holds. A factory gives way only where its line ends right
behind the file and a comma, so one that ends its parameters there, or goes on in the line, still names
the file class when its import is gone.

## Main definitions

* `FileFactory` — a factory of responses, by the parts of its name
* `TakesFile` — lines on which a factory takes a file
* `EndsBehindFile` — the ones among them that are exchanged
* `StreamsConsistently` — the source stays, or all its factories are exchanged with its import

## Main results

* `fileFactory?_eq_some_iff` — the lines that are recognised as factories
* `streamed_streamFileLine` — what takes the place of a line
* `streamsConsistently_iff` — the sources whose file responses are streamed consistently
-/

namespace RamlBuild

open Text

variable {line out indent behind type type' behind' indent' : Line} {ls : List Line} {source : String}

/-! ### Factories -/

/-- A factory of responses, by the parts of its name: the class, the status and the media type. -/
structure FileFactory where
  className : List Char
  status : List Char
  media : List Char
  className_ne_nil : className ≠ []
  isWordChar_of_mem_className : ∀ c ∈ className, isWordChar c
  status_ne_nil : status ≠ []
  isDecimalDigit_of_mem_status : ∀ c ∈ status, isDecimalDigit c
  media_ne_nil : media ≠ []
  isWordChar_of_mem_media : ∀ c ∈ media, isWordChar c

namespace FileFactory

variable {f f' : FileFactory}

/-- The line of a factory up to its parameters. -/
def head (f : FileFactory) (indent : Line) : Line :=
  indent ++ "public static ".toList ++ f.className ++ " respond".toList ++ f.status ++
    "With".toList ++ f.media

/-- The line of a factory with an entity of the given type. `behind` is what stands behind the
entity. -/
def signature (f : FileFactory) (indent type behind : Line) : Line :=
  f.head indent ++ '(' :: (type ++ " entity".toList ++ behind)

end FileFactory

/-- A line on which a factory takes a file. -/
def TakesFile (line : Line) : Prop :=
  ∃ (f : FileFactory) (indent behind : Line),
    Blank indent ∧ goesOnWithWord behind = false ∧ line = f.signature indent "File".toList behind

/-- A line on which a factory takes a file and further parameters, all of which stand below. Its
indent are spaces. -/
def EndsBehindFile (line : Line) : Prop :=
  ∃ (f : FileFactory) (indent : Line),
    indent ≠ [] ∧ (∀ c ∈ indent, c = ' ') ∧ line = f.signature indent "File".toList [',']

theorem fileFactory?_eq_some_iff {className status media : List Char} :
    fileFactory? line = some (className, status, media) ↔
      ∃ (f : FileFactory) (indent : Line), indent ≠ [] ∧ (∀ c ∈ indent, c = ' ') ∧
        f.className = className ∧ f.status = status ∧ f.media = media ∧
        line = f.signature indent "File".toList [','] := by
  constructor
  · intro h
    obtain ⟨⟨indent, rest₁⟩, hindent, h⟩ := Option.bind_eq_some_iff.1 h
    obtain ⟨rest₂, hstatic, h⟩ := Option.bind_eq_some_iff.1 h
    obtain ⟨⟨className', rest₃⟩, hclass, h⟩ := Option.bind_eq_some_iff.1 h
    obtain ⟨rest₄, hrespond, h⟩ := Option.bind_eq_some_iff.1 h
    obtain ⟨⟨status', rest₅⟩, hstatus, h⟩ := Option.bind_eq_some_iff.1 h
    obtain ⟨rest₆, hwith, h⟩ := Option.bind_eq_some_iff.1 h
    obtain ⟨⟨media', rest₇⟩, hmedia, h⟩ := Option.bind_eq_some_iff.1 h
    change (if rest₇ = _ then some (className', status', media') else none) = _ at h
    split at h
    · rename_i hend
      obtain ⟨rfl, hpair⟩ := Prod.mk.inj (Option.some.inj h)
      obtain ⟨rfl, rfl⟩ := Prod.mk.inj hpair
      obtain ⟨hspace, hspaces, rfl, -⟩ := takeRun?_eq_some_iff.1 hindent
      obtain rfl := after?_eq_some_iff.1 hstatic
      obtain ⟨hletter, hletters, rfl, -⟩ := takeRun?_eq_some_iff.1 hclass
      obtain rfl := after?_eq_some_iff.1 hrespond
      obtain ⟨hdigit, hdigits, rfl, -⟩ := takeRun?_eq_some_iff.1 hstatus
      obtain rfl := after?_eq_some_iff.1 hwith
      obtain ⟨htype, htypes, rfl, -⟩ := takeRun?_eq_some_iff.1 hmedia
      refine ⟨⟨className', status', media', hletter, hletters, hdigit, hdigits, htype, htypes⟩, indent,
        hspace, fun c hc => by simpa using hspaces c hc, rfl, rfl, rfl, ?_⟩
      rw [hend]
      simp [FileFactory.signature, FileFactory.head]
    · contradiction
  · rintro ⟨f, indent, hindent, hspaces, rfl, rfl, rfl, rfl⟩
    have hindent' : takeRun? (· == ' ') (f.signature indent "File".toList [',']) = some (indent,
        "public static ".toList ++ (f.className ++ (" respond".toList ++ (f.status ++ ("With".toList ++
          (f.media ++ "(File entity,".toList)))))) :=
      takeRun?_eq_some_iff.2 ⟨hindent, fun c hc => by simp [hspaces c hc],
        by simp [FileFactory.signature, FileFactory.head], by rintro _ ⟨⟩; rfl⟩
    have hclass : takeRun? isWordChar (f.className ++ (" respond".toList ++ (f.status ++ ("With".toList ++
        (f.media ++ "(File entity,".toList))))) = some (f.className, " respond".toList ++ (f.status ++
          ("With".toList ++ (f.media ++ "(File entity,".toList)))) :=
      takeRun?_eq_some_iff.2 ⟨f.className_ne_nil, f.isWordChar_of_mem_className, rfl,
        by rintro _ ⟨⟩; decide⟩
    have hstatus : takeRun? isDecimalDigit (f.status ++ ("With".toList ++ (f.media ++
        "(File entity,".toList))) = some (f.status, "With".toList ++ (f.media ++ "(File entity,".toList)) :=
      takeRun?_eq_some_iff.2 ⟨f.status_ne_nil, f.isDecimalDigit_of_mem_status, rfl,
        by rintro _ ⟨⟩; decide⟩
    have hmedia : takeRun? isWordChar (f.media ++ "(File entity,".toList) =
        some (f.media, "(File entity,".toList) :=
      takeRun?_eq_some_iff.2 ⟨f.media_ne_nil, f.isWordChar_of_mem_media, rfl, by rintro _ ⟨⟩; decide⟩
    refine Option.bind_eq_some_iff.2 ⟨_, hindent', ?_⟩
    refine Option.bind_eq_some_iff.2 ⟨_, after?_append _ _, ?_⟩
    refine Option.bind_eq_some_iff.2 ⟨_, hclass, ?_⟩
    refine Option.bind_eq_some_iff.2 ⟨_, after?_append _ _, ?_⟩
    refine Option.bind_eq_some_iff.2 ⟨_, hstatus, ?_⟩
    refine Option.bind_eq_some_iff.2 ⟨_, after?_append _ _, ?_⟩
    refine Option.bind_eq_some_iff.2 ⟨_, hmedia, ?_⟩
    exact if_pos rfl

/-! ### The line of a factory -/

namespace FileFactory

variable {f f' : FileFactory} {c : Char}

/-- A mark stands in no part of the name of a factory. -/
theorem not_mem_head (hword : isWordChar c = false) (hdigit : isDecimalDigit c = false)
    (hkeywords : c ∉ "public static ".toList ++ " respond".toList ++ "With".toList)
    (hindent : c ∉ indent) : c ∉ f.head indent := by
  have hclass : c ∉ f.className := fun h =>
    absurd (f.isWordChar_of_mem_className c h) (by rw [hword]; exact Bool.false_ne_true)
  have hstatus : c ∉ f.status := fun h =>
    absurd (f.isDecimalDigit_of_mem_status c h) (by rw [hdigit]; exact Bool.false_ne_true)
  have hmedia : c ∉ f.media := fun h =>
    absurd (f.isWordChar_of_mem_media c h) (by rw [hword]; exact Bool.false_ne_true)
  simp only [List.mem_append, not_or] at hkeywords
  simp only [head, List.mem_append, not_or]
  exact ⟨⟨⟨⟨⟨⟨hindent, hkeywords.1.1⟩, hclass⟩, hkeywords.1.2⟩, hstatus⟩, hkeywords.2⟩, hmedia⟩

theorem not_mem_newline_signature (hindent : '\n' ∉ indent) (htype : '\n' ∉ type)
    (hbehind : '\n' ∉ behind) : '\n' ∉ f.signature indent type behind := by
  have hhead : '\n' ∉ f.head indent := not_mem_head (by decide) (by decide) (by decide) hindent
  simp only [signature, List.mem_append, List.mem_cons, not_or]
  exact ⟨hhead, by decide, ⟨htype, by decide⟩, hbehind⟩

/-- What stands behind the parenthesis is told by the line. -/
theorem parameters_eq_of_signature_eq (hindent : Blank indent) (hindent' : Blank indent')
    (h : f.signature indent type behind = f'.signature indent' type' behind') :
    type ++ " entity".toList ++ behind = type' ++ " entity".toList ++ behind' := by
  have hhead (f : FileFactory) {indent : Line} (hindent : Blank indent) :
      ∀ c ∈ f.head indent, (c != '(') = true := by
    intro c hc
    rw [bne_iff_ne]
    rintro rfl
    exact not_mem_head (by decide) (by decide) (by decide) (hindent.not_mem (by decide)) hc
  have heq := eq_of_append_cons_eq (p := (· != '(')) (hhead f hindent) (hhead f' hindent') (by decide)
    (by decide) h
  rw [signature, signature, heq] at h
  exact (List.cons.inj (List.append_cancel_left h)).2

/-- The indent of a factory is told by its line. -/
theorem indent_eq_of_signature_eq (hindent : Blank indent) (hindent' : Blank indent')
    (h : f.signature indent type behind = f'.signature indent' type' behind') : indent = indent' := by
  simp only [signature, head, List.append_assoc] at h
  exact eq_of_append_cons_eq (p := isBlank) hindent hindent' (by decide) (by decide) h

end FileFactory

theorem blank_of_spaces (h : ∀ c ∈ indent, c = ' ') : Blank indent := fun c hc => by
  rw [h c hc]
  decide

theorem EndsBehindFile.takesFile (h : EndsBehindFile line) : TakesFile line := by
  obtain ⟨f, indent, -, hspaces, rfl⟩ := h
  exact ⟨f, indent, [','], blank_of_spaces hspaces, by decide, rfl⟩

theorem TakesFile.mem (h : TakesFile line) : '(' ∈ line := by
  obtain ⟨f, indent, behind, -, -, rfl⟩ := h
  exact List.mem_append_right _ List.mem_cons_self

/-! ### What takes the place of a line -/

/-- The import of the class that a response is streamed with. -/
def streamImport : Line := "import jakarta.ws.rs.core.StreamingOutput;".toList

/-- A line, and what takes its place in a source that imports the file class. -/
inductive Streamed : Line → Line → Prop
  | imported : Streamed fileImport streamImport
  | factory {f : FileFactory} {indent : Line} (hindent : indent ≠ []) (hspaces : ∀ c ∈ indent, c = ' ') :
      Streamed (f.signature indent "File".toList [','])
        (f.signature "    ".toList "StreamingOutput".toList [','])
  | kept {line : Line} (himport : line ≠ fileImport) (hfactory : ¬EndsBehindFile line) :
      Streamed line line

theorem streamed_streamFileLine (line : Line) : Streamed line (streamFileLine line) := by
  by_cases himport : line = fileImport
  · rw [streamFileLine, if_pos himport, himport]
    exact .imported
  · rw [streamFileLine, if_neg himport]
    cases hfactory : fileFactory? line with
    | none =>
      refine .kept himport ?_
      rintro ⟨f, indent, hindent, hspaces, rfl⟩
      have hsome := fileFactory?_eq_some_iff.2 ⟨f, indent, hindent, hspaces, rfl, rfl, rfl, rfl⟩
      rw [hfactory] at hsome
      contradiction
    | some parts =>
      obtain ⟨className, status, media⟩ := parts
      obtain ⟨f, indent, hindent, hspaces, rfl, rfl, rfl, rfl⟩ := fileFactory?_eq_some_iff.1 hfactory
      have hline := Streamed.factory (f := f) hindent hspaces
      simpa [FileFactory.signature, FileFactory.head] using hline

namespace Streamed

theorem ne_fileImport (h : Streamed line out) : out ≠ fileImport := by
  cases h with
  | imported => decide
  | factory => exact fun heq => absurd (List.cons.inj heq).1 (by decide)
  | kept himport => exact himport

theorem not_mem_newline (h : Streamed line out) (hline : '\n' ∉ line) : '\n' ∉ out := by
  cases h with
  | imported => decide
  | factory => exact FileFactory.not_mem_newline_signature (by decide) (by decide) (by decide)
  | kept => exact hline

/-- A factory takes a file afterwards when it did before and its line does not end behind it. -/
theorem takesFile_iff (h : Streamed line out) : TakesFile out ↔ TakesFile line ∧ ¬EndsBehindFile line := by
  cases h with
  | imported =>
    exact iff_of_false (fun h => absurd h.mem (by decide)) fun h => absurd h.1.mem (by decide)
  | @factory f indent hindent hspaces =>
    refine iff_of_false ?_ fun h => h.2 ⟨f, indent, hindent, hspaces, rfl⟩
    rintro ⟨f', indent', behind, hindent', -, heq⟩
    have hparameters := FileFactory.parameters_eq_of_signature_eq (List.all_eq_true.1 (by decide))
      hindent' heq
    exact absurd (List.cons.inj hparameters).1 (by decide)
  | kept _ hfactory => exact ⟨fun h => ⟨h, hfactory⟩, And.left⟩

end Streamed

/-! ### Sources that are streamed consistently -/

/-- The file class is imported ahead of the first public declaration. -/
def ImportsFile (ls : List Line) : Prop :=
  ∃ before after, ls = before ++ fileImport :: after ∧ ∀ line ∈ before, ¬"public ".toList <+: line

theorem importsFile_iff : importsFile source = true ↔ ImportsFile (lines source) := by
  rw [importsFile, List.contains_iff_mem]
  constructor
  · intro h
    obtain ⟨before, after, htake⟩ := List.append_of_mem h
    refine ⟨before, after ++ (lines source).dropWhile (!startsWith "public " ·), ?_, fun line hline => ?_⟩
    · rw [← List.cons_append, ← List.append_assoc, ← htake, List.takeWhile_append_dropWhile]
    · have hmem : line ∈ (lines source).takeWhile (!startsWith "public " ·) :=
        htake ▸ List.mem_append_left _ hline
      have hnot := List.mem_takeWhile_imp hmem
      rw [Bool.not_eq_true', ← Bool.not_eq_true, startsWith_iff] at hnot
      exact hnot
  · rintro ⟨before, after, heq, hbefore⟩
    have hall : ∀ line ∈ before, (!startsWith "public " line) = true := fun line hline => by
      rw [Bool.not_eq_true', ← Bool.not_eq_true, startsWith_iff]
      exact hbefore line hline
    rw [heq, List.takeWhile_append_of_pos hall, List.takeWhile_cons_of_pos (by decide)]
    exact List.mem_append_right _ List.mem_cons_self

/-- A factory that takes a file on a line takes the stream on the line in its place, with the same
name, the same parameters behind it and an indent of blanks. -/
def TakesStream (line out : Line) : Prop :=
  ∀ (f : FileFactory) (indent behind : Line), Blank indent → goesOnWithWord behind = false →
    line = f.signature indent "File".toList behind →
    ∃ indent', Blank indent' ∧ out = f.signature indent' "StreamingOutput".toList behind

/-- The source is not changed; or it imports the file class ahead of its declaration and has a factory
that takes a file, all such factories take the stream afterwards, and neither one that takes a file nor
the import of the file class is left. -/
def StreamsConsistently (source : String) : Prop :=
  patchFileResponses source = source ∨
    ImportsFile (lines source) ∧ (∃ line ∈ lines source, TakesFile line) ∧
      ∃ out, patchFileResponses source = ofLines out ∧ List.Forall₂ TakesStream (lines source) out ∧
        ∀ line ∈ out, '\n' ∉ line ∧ line ≠ fileImport ∧ ¬TakesFile line

theorem Streamed.takesStream (h : Streamed line out) (hends : TakesFile line → EndsBehindFile line) :
    TakesStream line out := by
  intro f' indent' behind hindent' hbehind hline
  have htakes : TakesFile line := ⟨f', indent', behind, hindent', hbehind, hline⟩
  cases h with
  | imported => exact absurd htakes.mem (by decide)
  | kept _ hfactory => exact absurd (hends htakes) hfactory
  | @factory f indent hindent hspaces =>
    have hblank := blank_of_spaces hspaces
    have hparameters := FileFactory.parameters_eq_of_signature_eq hblank hindent' hline
    obtain rfl := FileFactory.indent_eq_of_signature_eq hblank hindent' hline
    obtain rfl : [','] = behind := List.append_cancel_left hparameters
    -- What is recognised tells the parts of the name.
    have hf := fileFactory?_eq_some_iff.2 ⟨f, indent, hindent, hspaces, rfl, rfl, rfl, rfl⟩
    have hf' := fileFactory?_eq_some_iff.2 ⟨f', indent, hindent, hspaces, rfl, rfl, rfl, hline⟩
    obtain ⟨hclass, hrest⟩ := Prod.mk.inj (Option.some.inj (hf.symm.trans hf'))
    obtain ⟨hstatus, hmedia⟩ := Prod.mk.inj hrest
    refine ⟨"    ".toList, List.all_eq_true.1 (by decide), ?_⟩
    rw [FileFactory.signature, FileFactory.signature, FileFactory.head, FileFactory.head, hclass,
      hstatus, hmedia]

theorem patchFileResponses_of_importsFile (h : ImportsFile (lines source)) :
    patchFileResponses source = ofLines ((lines source).map streamFileLine) := by
  rw [patchFileResponses, if_pos (importsFile_iff.2 h), mapLines]

theorem not_mem_newline_streamed : ∀ out ∈ (lines source).map streamFileLine, '\n' ∉ out := by
  rintro _ hout
  obtain ⟨line, hline, rfl⟩ := List.mem_map.1 hout
  exact (streamed_streamFileLine line).not_mem_newline (not_mem_of_mem_lines hline)

/-- A source that imports the file class is changed, with or without a factory. -/
theorem patchFileResponses_ne (h : ImportsFile (lines source)) : patchFileResponses source ≠ source := by
  intro heq
  have hmem : fileImport ∈ lines source := by
    obtain ⟨before, after, hlines, -⟩ := h
    exact hlines ▸ List.mem_append_right before List.mem_cons_self
  have hback : lines source = (lines source).map (dropReturn ∘ streamFileLine) := by
    conv => lhs; rw [← heq, patchFileResponses_of_importsFile h, lines_ofLines not_mem_newline_streamed]
    rw [List.map_map]
  have himport := List.map_eq_map_iff.1 (hback.symm.trans (List.map_id _).symm) fileImport hmem
  exact absurd himport (by decide)

/-- Consistency asks for a factory, and for each to end its line behind the file. -/
theorem StreamsConsistently.of_importsFile (h : StreamsConsistently source)
    (himport : ImportsFile (lines source)) :
    (∃ line ∈ lines source, TakesFile line) ∧
      ∀ line ∈ lines source, TakesFile line → EndsBehindFile line := by
  obtain ⟨-, hsome, out, hout, -, hnone⟩ := h.resolve_left (patchFileResponses_ne himport)
  refine ⟨hsome, fun line hline htakes => ?_⟩
  have hlines : (lines source).map streamFileLine = out := by
    rw [patchFileResponses_of_importsFile himport] at hout
    exact ofLines_injective not_mem_newline_streamed (fun line hline => (hnone line hline).1) hout
  by_contra hends
  have hstays := (streamed_streamFileLine line).takesFile_iff.2 ⟨htakes, hends⟩
  exact (hnone _ (hlines ▸ List.mem_map_of_mem hline)).2.2 hstays

/-- File responses are streamed consistently exactly when a source that imports the file class ahead
of its declaration has a factory that takes a file, and each such factory ends its line right behind
the file and a comma. -/
theorem streamsConsistently_iff (source : String) :
    StreamsConsistently source ↔
      (ImportsFile (lines source) → (∃ line ∈ lines source, TakesFile line) ∧
        ∀ line ∈ lines source, TakesFile line → EndsBehindFile line) := by
  refine ⟨StreamsConsistently.of_importsFile, fun h => ?_⟩
  by_cases himport : ImportsFile (lines source)
  · obtain ⟨hsome, hends⟩ := h himport
    refine .inr ⟨himport, hsome, _, patchFileResponses_of_importsFile himport, ?_, ?_⟩
    · refine List.forall₂_map_right_iff.2 (List.forall₂_same.2 fun line hline => ?_)
      exact (streamed_streamFileLine line).takesStream (hends line hline)
    · rintro _ hout
      obtain ⟨line, hline, rfl⟩ := List.mem_map.1 hout
      have hstreamed := streamed_streamFileLine line
      refine ⟨hstreamed.not_mem_newline (not_mem_of_mem_lines hline), hstreamed.ne_fileImport, ?_⟩
      intro htakes
      obtain ⟨hbefore, hnot⟩ := hstreamed.takesFile_iff.1 htakes
      exact hnot (hends line hline hbefore)
  · left
    rw [patchFileResponses, if_neg (mt importsFile_iff.1 himport)]

theorem EndsBehindFile.getLast? (h : EndsBehindFile line) : line.getLast? = some ',' := by
  obtain ⟨f, indent, -, -, rfl⟩ := h
  rw [FileFactory.signature, ← List.cons_append, ← List.append_assoc, List.getLast?_concat]

/-- The factory of a response that has nothing but its file. -/
def reportFactory : FileFactory where
  className := "R".toList
  status := "200".toList
  media := "Pdf".toList
  className_ne_nil := by decide
  isWordChar_of_mem_className := List.all_eq_true.1 (by decide)
  status_ne_nil := by decide
  isDecimalDigit_of_mem_status := List.all_eq_true.1 (by decide)
  media_ne_nil := by decide
  isWordChar_of_mem_media := List.all_eq_true.1 (by decide)

/-- The lines of a resource with that factory, and the given first line. -/
def reportLines (first : Line) : List Line :=
  [first, "public interface Reports \x7b".toList,
    "    public static R respond200WithPdf(File entity) \x7b".toList, "    \x7d".toList, "\x7d".toList]

/-- A factory that ends its parameters behind the file names a class that is imported no more. -/
theorem not_streamsConsistently_report :
    ImportsFile (lines (ofLines (reportLines fileImport))) ∧
      (∃ line ∈ lines (ofLines (reportLines fileImport)), TakesFile line) ∧
      patchFileResponses (ofLines (reportLines fileImport)) = ofLines (reportLines streamImport) ∧
      ¬StreamsConsistently (ofLines (reportLines fileImport)) := by
  have hlines : lines (ofLines (reportLines fileImport)) = reportLines fileImport :=
    lines_ofLines_of_endsPlain (by decide) (by decide)
  have himport : ImportsFile (lines (ofLines (reportLines fileImport))) := by
    rw [hlines]
    exact ⟨[], _, rfl, by simp⟩
  have htakes : TakesFile "    public static R respond200WithPdf(File entity) \x7b".toList :=
    ⟨reportFactory, "    ".toList, ") \x7b".toList, List.all_eq_true.1 (by decide), by decide, rfl⟩
  have hmem : "    public static R respond200WithPdf(File entity) \x7b".toList ∈
      lines (ofLines (reportLines fileImport)) := by
    rw [hlines]
    decide
  refine ⟨himport, ⟨_, hmem, htakes⟩, ?_, fun hconsistent => ?_⟩
  · rw [patchFileResponses_of_importsFile himport, hlines]
    rfl
  · have hends := (hconsistent.of_importsFile himport).2 _ hmem htakes
    exact absurd hends.getLast? (by decide)

end RamlBuild
