import RamlBuild.Proofs.Sources.Stages

/-!
# Classes beside the model types

Two patches write classes of their own into the directory of the model types, and name them after
other types or by a fixed name. A type that has such a name loses its source to the class. All other
sources keep what they declare.

The source of a stream class has the lines that it is written from, whenever the names in it stand on
one line. Three of these lines hold names, and the others are the same for all classes.

## Main definitions

* `publicLines` — what a source declares
* `fixedStreamLines` — the lines that all stream classes have
* `Patch.IsCompanion` — the sources that a patch makes classes of its own

## Main results

* `lines_streamClass` — the lines of a stream class
* `publicLines_of_apply` — sources that are no companions still declare what they declared
-/

namespace RamlBuild

open Build Text

variable {layout : Layout} {root : Location} {host host' : Host} {s : Source} {patch : Patch}
  {result : Except Failure (List Path)} {table : ConstantTable} {source after : String}

/-! ### The lines of stream classes -/

section StreamClass

variable {package className extended : String}

theorem endsPlain_append {line rest : Line} (hne : rest ≠ []) (h : EndsPlain rest) :
    EndsPlain (line ++ rest) := by
  rwa [EndsPlain, List.getLast?_append, List.getLast?_eq_some_getLast hne, Option.some_or,
    ← List.getLast?_eq_some_getLast hne]

/-- The lines of a stream class that hold no name. -/
def fixedStreamLines : List Line :=
  ["", "import java.io.IOException;", "import java.io.OutputStream;",
    "import java.util.function.Consumer;", "import jakarta.ws.rs.WebApplicationException;",
    "import jakarta.ws.rs.core.StreamingOutput;",
    "  private final Consumer<OutputStream> _streamer;", "    _streamer = streamer;", "  \x7d",
    "  @Override",
    "  public void write(OutputStream output) throws IOException, WebApplicationException \x7b",
    "    _streamer.accept(output);", "\x7d"].map String.toList

/-- What holds of the lines with names and of all the others holds of the lines of the class. -/
theorem forall_mem_streamLines {P : Line → Prop} (hfixed : ∀ line ∈ fixedStreamLines, P line)
    (hpackage : P ("package " ++ package ++ ";").toList)
    (hclass : P ("public class " ++ className ++ " extends " ++ extended ++
      " implements StreamingOutput \x7b").toList)
    (hconstructor : P ("  public " ++ className ++ "(Consumer<OutputStream> streamer) \x7b").toList) :
    ∀ line ∈ streamLines package className extended, P line := by
  simp only [fixedStreamLines, List.map_cons, List.map_nil, List.forall_mem_cons] at hfixed
  obtain ⟨hempty, h1, h2, h3, h4, h5, h6, h7, h8, h9, h10, h11, h12, -⟩ := hfixed
  simp only [streamLines, List.map_cons, List.map_nil, List.forall_mem_cons]
  exact ⟨hpackage, hempty, h1, h2, h3, hempty, h4, h5, hempty, hclass, h6, hempty, hconstructor, h7,
    h8, hempty, h9, h10, h11, h8, h12, by simp⟩

/-- The lines of a class whose names stand on one line. -/
theorem lines_streamClass (hpackage : '\n' ∉ package.toList) (hclass : '\n' ∉ className.toList)
    (hextended : '\n' ∉ extended.toList) :
    lines (streamClass package className extended) = streamLines package className extended := by
  have hfixed : ∀ line ∈ fixedStreamLines, '\n' ∉ line ∧ EndsPlain line := by
    decide
  refine lines_ofLines_of_endsPlain ?_ ?_
  · refine forall_mem_streamLines (fun line hline => (hfixed line hline).1) ?_ ?_ ?_
    · simp [hpackage]
    · simp [hclass, hextended]
    · simp [hclass]
  · refine forall_mem_streamLines (fun line hline => (hfixed line hline).2) ?_ ?_ ?_
    all_goals
      rw [String.toList_append]
      exact endsPlain_append (by simp) (by simp [EndsPlain])

end StreamClass

/-! ### What a source declares -/

/-- The lines of a source that declare something public, without the blanks around them. -/
def publicLines (source : String) : List Line :=
  ((lines source).map trim).filter (startsWith "public ")

/-- Annotations declare nothing. -/
theorem startsWith_public_of_opens {before : List Char}
    (h : OpensAnnotation before ∨ OpensValue before) (rest : List Char) :
    startsWith "public " (trim (before ++ rest)) = false := by
  have hmark : ∃ blanks c more, Blank blanks ∧ isBlank c = false ∧ c ≠ 'p' ∧
      before = blanks ++ c :: more := by
    rcases h with ⟨blanks, key, hblanks, -, rfl⟩ | ⟨blanks, key, hblanks, ⟨_, _, -, -, rfl⟩, rfl⟩
    · exact ⟨blanks, '@', "JsonProperty(".toList ++ key, hblanks, by decide, by decide, by simp⟩
    · exact ⟨blanks, 'v', _, hblanks, by decide, by decide, rfl⟩
  obtain ⟨blanks, c, more, hblanks, hc, hne, rfl⟩ := hmark
  rw [List.append_assoc, List.cons_append, trim_append hblanks hc, Bool.eq_false_iff, Ne,
    startsWith_iff]
  intro hstarts
  exact hne (List.cons_prefix_cons.1 hstarts).1.symm

theorem newline_not_mem_constant {r : Reference} (hline : '\n' ∉ r.literal)
    (hname : ∀ c ∈ r.name, isWordChar c) : '\n' ∉ r.constant := by
  rw [Reference.literal, List.mem_append, List.mem_cons, List.mem_append, List.mem_cons] at hline
  simp only [not_or] at hline
  obtain ⟨⟨hbefore, -, -⟩, -, hafter⟩ := hline
  have hend : '\n' ∉ r.name ++ r.after := by
    rw [List.mem_append, not_or]
    exact ⟨fun h => absurd (hname _ h) (by decide), hafter⟩
  rw [Reference.constant, List.append_assoc, List.append_assoc, List.cons_append, List.mem_append,
    List.mem_append, List.mem_cons]
  simp only [not_or]
  exact ⟨hbefore, by decide, by decide, hend⟩

theorem filter_map_congr {α β : Type} {f g : α → β} {p : β → Bool} {xs : List α}
    (h : ∀ x ∈ xs, f x = g x ∨ p (f x) = false ∧ p (g x) = false) :
    (xs.map f).filter p = (xs.map g).filter p := by
  induction xs with
  | nil => rfl
  | cons x rest ih =>
    have hrest := ih fun y hy => h y (List.mem_cons_of_mem x hy)
    rw [List.map_cons, List.map_cons]
    rcases h x List.mem_cons_self with heq | ⟨hf, hg⟩
    · rw [heq, List.filter_cons, List.filter_cons, hrest]
    · rw [List.filter_cons_of_neg (by simp [hf]), List.filter_cons_of_neg (by simp [hg]), hrest]

/-- A source that is pointed at constants still declares what it declared. -/
theorem Pointed.publicLines_eq (h : Pointed table source after)
    (hwords : ∀ entry ∈ table.entries, ∀ c ∈ entry.2, isWordChar c) :
    publicLines after = publicLines source := by
  obtain ⟨pieces, hold, rfl, hfits, -⟩ := h
  have hfit : ∀ r, .pointed r ∈ pieces → ∃ earlier, r.Fits table earlier := by
    intro r hr
    obtain ⟨first, others, hsplit⟩ := List.append_of_mem hr
    exact ⟨_, hfits first r others hsplit⟩
  have hplain : ∀ line ∈ pieces.map PointedLine.new, '\n' ∉ line := by
    intro line hline
    obtain ⟨piece, hpiece, rfl⟩ := List.mem_map.1 hline
    have hpieceOld : '\n' ∉ piece.old :=
      not_mem_of_mem_lines (hold ▸ List.mem_map_of_mem hpiece)
    cases piece with
    | kept line => exact hpieceOld
    | pointed r =>
      obtain ⟨earlier, hfit⟩ := hfit r hpiece
      exact newline_not_mem_constant hpieceOld (hwords _ hfit.mem)
  rw [publicLines, publicLines, lines_ofLines hplain, ← hold, List.map_map, List.map_map,
    List.map_map]
  refine filter_map_congr fun piece hpiece => ?_
  rw [Function.comp_apply, Function.comp_apply, Function.comp_apply, trim_dropReturn]
  cases piece with
  | kept line => exact .inl rfl
  | pointed r =>
    obtain ⟨earlier, hfit⟩ := hfit r hpiece
    have hopens := startsWith_public_of_opens (hfit.opens.imp id And.left)
    refine .inr ⟨?_, ?_⟩
    · rw [PointedLine.new, Reference.constant, List.append_assoc, List.append_assoc]
      exact hopens _
    · rw [PointedLine.old, Reference.literal, List.append_assoc]
      exact hopens _

/-! ### Sources and companions -/

/-- The sources that a patch makes classes of its own, whatever they hold: the stream class beside
an implementation, and the class of constants. -/
def Patch.IsCompanion (root : Location) (fs : Files) (s : Source) : Patch → Prop
  | .streams => ∃ implementation : Source, implementation.area = .model ∧
      implementation.isImplementation = true ∧
      (fs.contentsAt (implementation.location root)).isSome = true ∧ s = implementation.stream
  | .fieldConstants => s = .jsonField
  | _ => False

/-- A source that is not the companion of another is left as it is by the stream classes, and by the
constants too but for the literals of its annotations; it still declares what it declared. So it is
whether the patch succeeds or fails. -/
theorem publicLines_of_apply (hgen : Generated layout root host.files)
    (hpatch : patch = .streams ∨ patch = .fieldConstants)
    (hs : ¬patch.IsCompanion root host.files s)
    (h : exec (patch.apply layout) host = (result, host')) :
    host'.files.get? (s.location root) = host.files.get? (s.location root) ∨
      patch = .fieldConstants ∧ ∃ input output,
        host.files.textOf (s.location root) = some input ∧
        host'.files.textOf (s.location root) = some output ∧
        Pointed (host.files.fieldTable layout root) input output ∧
        publicLines output = publicLines input := by
  obtain ⟨written, hwrote, -⟩ := Patch.writes_apply hgen h
  by_cases hwritten : s ∈ written
  · obtain ⟨text, houtput, -, hget⟩ := hwrote.get?_written s hwritten
    have hafter : host'.files.textOf (s.location root) = some text := by
      rw [Files.textOf, hget]
      exact fromUTF8?_toUTF8 text
    cases houtput with
    | rewritten _ hselects =>
      rcases hpatch with rfl | rfl <;> exact absurd hselects (by simp [Patch.selects])
    | discriminator => rcases hpatch with h | h <;> exact absurd h (by simp)
    | stream hstream harea himplementation hfile =>
      exact absurd ⟨_, harea, himplementation, hfile, hstream⟩ hs
    | fieldClass harea hstem => exact absurd (Source.eq_jsonField harea hstem) hs
    | @fieldUse _ input _ _ hinput =>
      have hwords : ∀ entry ∈ (host.files.fieldTable layout root).entries,
          ∀ c ∈ entry.2, isWordChar c :=
        fun _ hentry _ hc => ConstantTable.isWordChar_of_mem_name hentry hc
      have hpointed := pointed_patchJsonProperties (ConstantTable.nodup_names _) hwords input
      exact .inr ⟨rfl, _, _, hinput, hafter, hpointed, hpointed.publicLines_eq hwords⟩
  · exact .inl (hwrote.get?_of_not_mem hwritten)

/-- The interface of the one type of `ticketFiles`. -/
def ticketSource : Source :=
  ⟨.model, "Ticket", by decide, by decide⟩

theorem generated_ticketFiles : Generated ticketLayout ["demo", "generated"] ticketFiles :=
  generated_of_entries (by decide +kernel) (by decide +kernel) (by decide +kernel)
    (by decide +kernel) (by decide +kernel)

/-- The constants are no reason for a type to declare less. -/
theorem publicLines_of_apply_ticketFiles :
    ∃ host', exec (Patch.fieldConstants.apply ticketLayout) (quietHost ticketFiles) =
        (.ok ticketOutputs, host') ∧
      (host'.files.get? (ticketSource.location ["demo", "generated"]) =
          (quietHost ticketFiles).files.get? (ticketSource.location ["demo", "generated"]) ∨
        Patch.fieldConstants = .fieldConstants ∧ ∃ input output,
          (quietHost ticketFiles).files.textOf (ticketSource.location ["demo", "generated"]) =
            some input ∧
          host'.files.textOf (ticketSource.location ["demo", "generated"]) = some output ∧
          Pointed ((quietHost ticketFiles).files.fieldTable ticketLayout ["demo", "generated"])
            input output ∧
          publicLines output = publicLines input) := by
  obtain ⟨host', hrun⟩ : ∃ host', exec (Patch.fieldConstants.apply ticketLayout)
      (quietHost ticketFiles) = (.ok ticketOutputs, host') := by
    refine ⟨_, exec_eq_of_fst ?_⟩
    rw [Patch.apply, Patch.applyTo, exec_within, exec_ticketFiles]
    rfl
  have hticket : ¬Patch.fieldConstants.IsCompanion ["demo", "generated"]
      (quietHost ticketFiles).files ticketSource := by
    rw [Patch.IsCompanion]
    decide
  exact ⟨host', hrun, publicLines_of_apply generated_ticketFiles (.inr rfl) hticket hrun⟩

/-- A type that has the name of the class of constants. -/
def shadowFiles : Files where
  entries :=
    [(["demo"], .directory 0o755), (["demo", "generated"], .directory 0o755),
      (["demo", "generated", "model"], .directory 0o755),
      (["demo", "generated", "model", "JsonField.java"],
        .file "public interface JsonField \x7b\n\x7d\n".toUTF8 0o644 none),
      (["demo", "generated", "model", "JsonFieldImpl.java"],
        .file "public class JsonFieldImpl \x7b\n\x7d\n".toUTF8 0o644 none)]
  workingDirectory := []

/-- An interface that has the name of the class of constants is declared no more. -/
theorem shadowed_by_fieldConstants :
    Generated ticketLayout ["demo", "generated"] shadowFiles ∧
      (shadowFiles.textOf (Source.jsonField.location ["demo", "generated"])).map publicLines =
        some ["public interface JsonField \x7b".toList] ∧
      ((exec (Patch.fieldConstants.apply ticketLayout) (quietHost shadowFiles)).2.files.textOf
          (Source.jsonField.location ["demo", "generated"])).map publicLines =
        some ["public final class JsonField \x7b".toList] := by
  refine ⟨generated_of_entries (by decide +kernel) (by decide +kernel) (by decide +kernel)
    (by decide +kernel) (by decide +kernel), ?_, ?_⟩
  · decide +kernel
  · decide +kernel

end RamlBuild
