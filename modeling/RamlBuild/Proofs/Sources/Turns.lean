import RamlBuild.Proofs.Sources.Determined
import RamlBuild.Proofs.Sources.Effects

/-!
# Runs of patches, source by source

Patches that succeed one after the other lead from one tree of sources to another. A source that is
no companion of another has in the end what becomes of the text it had: each patch that selects it
rewrites it, and the others leave it.

## Main definitions

* `Patch.Turns`, `Turned` — trees before and after patches that succeeded
* `Patch.Becomes`, `Patch.BecomesAll` — what patches make of the text of a source

## Main results

* `Turned.becomes` — every source is rewritten by the patches that select it
* `turned_of_applyEach` — a run that succeeds is one of patches that succeed
-/

namespace RamlBuild

open Build

variable {layout : Layout} {root loc : Location} {fs fs' : Files} {s : Source} {area : Area}
  {patch : Patch} {patches others : List Patch} {input text : String}

/-- A patch that succeeded, between the trees before and after it. -/
def Patch.Turns (layout : Layout) (patch : Patch) (fs fs' : Files) : Prop :=
  ∃ host files host', host.files = fs ∧ host'.files = fs' ∧
    exec (patch.applyTo layout) host = (.ok files, host')

/-- Patches that succeeded one after the other, between the trees before and after all of them. -/
def Turned (layout : Layout) : List Patch → Files → Files → Prop
  | [], fs, fs' => fs' = fs
  | patch :: rest, fs, fs' => ∃ mid, patch.Turns layout fs mid ∧ Turned layout rest mid fs'

theorem turned_of_applyEach {host host' : Host} {stages : List StageReport}
    (h : exec (applyEach layout patches) host = (.ok stages, host')) :
    Turned layout patches host.files host'.files := by
  induction patches generalizing host stages with
  | nil => exact congrArg Host.files (Prod.mk.inj h).2.symm
  | cons patch rest ih =>
    obtain ⟨files, host₁, reports, happly, hrest, -⟩ := applyEach_cons_ok h
    exact ⟨host₁.files, ⟨host, files, host₁, rfl, rfl, exec_within_ok happly⟩, ih hrest⟩

theorem exec_applyEach_of_runPatches {patches : List Patch} {host host' : Host} {summary : Summary}
    (h : exec (runPatches layout patches) host = (.ok summary, host')) :
    exec (applyEach layout patches) host = (.ok summary.stages, host') := by
  have hdirectory := isDirectory_of_runPatches h
  rw [exec_runPatches, if_pos hdirectory] at h
  rcases hrun : exec (applyEach layout patches) host with ⟨result, host₁⟩
  rw [hrun] at h
  cases result with
  | error failure => cases (Prod.mk.inj h).1
  | ok stages =>
    obtain ⟨hsummary, rfl⟩ := Prod.mk.inj h
    rw [← Except.ok.inj hsummary]

/-- A run is one of its first patches and one of the others. -/
theorem turned_append_iff :
    Turned layout (patches ++ others) fs fs' ↔
      ∃ mid, Turned layout patches fs mid ∧ Turned layout others mid fs' := by
  induction patches generalizing fs with
  | nil => exact ⟨fun h => ⟨fs, rfl, h⟩, fun ⟨_, heq, h⟩ => heq ▸ h⟩
  | cons patch rest ih =>
    constructor
    · rintro ⟨mid, hfirst, h⟩
      obtain ⟨mid', hrest, hothers⟩ := ih.1 h
      exact ⟨mid', ⟨mid, hfirst, hrest⟩, hothers⟩
    · rintro ⟨mid', ⟨mid, hfirst, hrest⟩, hothers⟩
      exact ⟨mid, hfirst, ih.2 ⟨mid', hrest, hothers⟩⟩

/-- No stream class is named like an implementation. -/
theorem Source.isImplementation_stream (s : Source) : s.stream.isImplementation = false := by
  rw [isImplementation, stem_stream, String.toList_append, Text.endsWith, Bool.eq_false_iff, ne_eq,
    List.isSuffixOf_iff_suffix]
  intro hsuffix
  have hshort : Path.implEnding.toList <:+ "Stream".toList :=
    List.suffix_of_suffix_length_le hsuffix (List.suffix_append _ _) (by decide)
  exact absurd hshort (by decide)

/-! ### One patch -/

namespace Patch.Turns

variable (h : patch.Turns layout fs fs') (hgen : Generated layout root fs)
include h hgen

theorem exists_wrote :
    ∃ written, Wrote (patch.Output layout root fs) root fs fs' written ∧
      Generated layout root fs' := by
  obtain ⟨host, files, host', rfl, rfl, hexec⟩ := h
  obtain ⟨written, hwrote, hok⟩ := writes_applyTo hgen hexec
  exact ⟨written, hwrote, (hok files rfl).2⟩

theorem generated : Generated layout root fs' :=
  (h.exists_wrote hgen).choose_spec.2

theorem patched : Patched root fs fs' :=
  (h.exists_wrote hgen).choose_spec.1.patched

/-- A source is as it was, or has an output of the patch. -/
theorem get?_eq_or_output (s : Source) :
    fs'.get? (s.location root) = fs.get? (s.location root) ∨
      ∃ text, patch.Output layout root fs s text ∧ fs'.textOf (s.location root) = some text := by
  obtain ⟨written, hwrote, -⟩ := h.exists_wrote hgen
  by_cases hs : s ∈ written
  · obtain ⟨text, houtput, -, hget⟩ := hwrote.get?_written s hs
    refine .inr ⟨text, houtput, ?_⟩
    rw [Files.textOf, hget]
    exact fromUTF8?_toUTF8 text
  · exact .inl (hwrote.get?_of_not_mem hs)

/-- A source for which the patch has no output is as it was. -/
theorem get?_of_not_output (hnone : ∀ text, ¬patch.Output layout root fs s text) :
    fs'.get? (s.location root) = fs.get? (s.location root) :=
  (h.get?_eq_or_output hgen s).resolve_right fun ⟨text, houtput, _⟩ => hnone text houtput

theorem textOf_of_not_output (hnone : ∀ text, ¬patch.Output layout root fs s text) :
    fs'.textOf (s.location root) = fs.textOf (s.location root) :=
  Files.textOf_congr (h.get?_of_not_output hgen hnone)

/-- A source that is there was there before, or is a class that the patch writes. -/
theorem isSome_contentsAt (hsome : (fs'.contentsAt (s.location root)).isSome = true) :
    (fs.contentsAt (s.location root)).isSome = true ∨
      (patch = .streams ∧ ∃ implementation : Source, implementation.isImplementation = true ∧
        s = implementation.stream) ∨
      (patch = .fieldConstants ∧ s = .jsonField) := by
  rcases h.get?_eq_or_output hgen s with hsame | ⟨text, houtput, -⟩
  · rw [Files.contentsAt, hsame] at hsome
    exact .inl hsome
  · cases houtput with
    | rewritten hinput => exact .inl (isSome_contentsAt_of_textOf hinput)
    | discriminator _ _ hinput => exact .inl (isSome_contentsAt_of_textOf hinput)
    | stream hs _ himplementation => exact .inr (.inl ⟨rfl, _, himplementation, hs⟩)
    | fieldClass harea hstem => exact .inr (.inr ⟨rfl, Source.eq_jsonField harea hstem⟩)
    | fieldUse _ _ hinput => exact .inl (isSome_contentsAt_of_textOf hinput)

end Patch.Turns

/-! ### Patches that rewrite -/

/-- What a patch that takes sources by themselves makes of the text of one. -/
def Patch.Becomes (layout : Layout) (s : Source) (patch : Patch) (input text : String) : Prop :=
  if patch.selects s input then patch.rewritten layout s input = .ok text else text = input

/-- What such patches make of a text one after the other. -/
def Patch.BecomesAll (layout : Layout) (s : Source) : List Patch → String → String → Prop
  | [], input, text => text = input
  | patch :: rest, input, text =>
    ∃ mid, patch.Becomes layout s input mid ∧ BecomesAll layout s rest mid text

/-- The outputs of a patch that rewrites what it selects. -/
theorem Patch.Output.of_rewriting (hpatch : patch ∈ rewriting) (h : patch.Output layout root fs s text) :
    ∃ input, fs.textOf (s.location root) = some input ∧ patch.selects s input = true := by
  cases h with
  | rewritten hinput hselects htext => exact ⟨_, hinput, hselects⟩
  | discriminator | stream | fieldClass | fieldUse => exact absurd hpatch (by decide)

namespace Patch.Turns

variable (h : patch.Turns layout fs fs') (hgen : Generated layout root fs)
include h hgen

/-- A source has what becomes of its text. -/
theorem becomes (hpatch : patch ∈ rewriting) (hdir : fs.isDirectory (s.area.path layout) = true)
    (hinput : fs.textOf (s.location root) = some input) :
    ∃ text, fs'.textOf (s.location root) = some text ∧ patch.Becomes layout s input text := by
  unfold Becomes
  cases hselects : patch.selects s input with
  | true =>
    obtain ⟨host, files, host', rfl, rfl, hexec⟩ := h
    obtain ⟨-, input', text, hinput', htext, hafter⟩ :=
      rewrites_of_concerns hpatch hgen hexec hdir (.inl ⟨input, hinput, hselects⟩)
    obtain rfl := Option.some.inj (hinput.symm.trans hinput')
    exact ⟨text, hafter, htext⟩
  | false =>
    refine ⟨input, ?_, rfl⟩
    rw [h.textOf_of_not_output hgen, hinput]
    intro text houtput
    obtain ⟨input', hinput', hselects'⟩ := houtput.of_rewriting hpatch
    obtain rfl := Option.some.inj (hinput.symm.trans hinput')
    cases hselects.symm.trans hselects'

/-- A source that has a text had one before. -/
theorem exists_input (hpatch : patch ∈ rewriting) (htext : fs'.textOf (s.location root) = some text) :
    ∃ input, fs.textOf (s.location root) = some input := by
  rcases h.get?_eq_or_output hgen s with hsame | ⟨_, houtput, -⟩
  · exact ⟨text, (Files.textOf_congr hsame).symm.trans htext⟩
  · obtain ⟨input, hinput, -⟩ := houtput.of_rewriting hpatch
    exact ⟨input, hinput⟩

/-- What the patch concerns can be read. -/
theorem exists_textAt (hpatch : patch ∈ rewriting) (hdir : fs.isDirectory (s.area.path layout) = true)
    (hconcerns : patch.Concerns root fs s) :
    ∃ text, textAt fs' (s.path layout) = .ok (some text) := by
  obtain ⟨host, files, host', rfl, rfl, hexec⟩ := h
  exact (rewrites_of_concerns hpatch hgen hexec hdir hconcerns).1

end Patch.Turns

/-! ### Directories that are listed -/

theorem exists_list_of_sourceFiles {p : Path} {files : List Path} {host host' : Host}
    (h : exec (sourceFiles p) host = (.ok files, host')) (hdir : host.files.isDirectory p = true) :
    ∃ entries, host.files.list p = .ok entries := by
  rw [sourceFiles, isDirectory, exec_asking_bind, if_pos hdir] at h
  obtain ⟨entries, host₁, hlist, -⟩ := exec_bind_ok h
  exact ⟨entries, (reading_result (exec_within_ok hlist)).2 _ rfl⟩

/-- The models are listed to be boxed. -/
theorem Patch.Turns.exists_list_model (h : Patch.boxedTypes.Turns layout fs fs')
    (hdir : fs.isDirectory (Area.model.path layout) = true) :
    ∃ entries, fs.list (Area.model.path layout) = .ok entries := by
  obtain ⟨host, files, host', rfl, rfl, h⟩ := h
  obtain ⟨found, host₁, hfound, -⟩ := exec_bind_ok h
  obtain ⟨model, host₂, hmodel, -⟩ := exec_bind_ok hfound
  exact exists_list_of_sourceFiles hmodel hdir

/-- The other sources are listed to have their imports moved. -/
theorem Patch.Turns.exists_list_of_ne_model (h : Patch.jakartaImports.Turns layout fs fs')
    (harea : area ≠ .model) (hdir : fs.isDirectory (area.path layout) = true) :
    ∃ entries, fs.list (area.path layout) = .ok entries := by
  obtain ⟨host, files, host', rfl, rfl, h⟩ := h
  obtain ⟨resources, host₁, hresources, h⟩ := exec_bind_ok h
  obtain ⟨support, host₂, hsupport, -⟩ := exec_bind_ok h
  have hfiles := (onlyReads_sourceFiles hresources).files_eq
  cases area with
  | model => exact absurd rfl harea
  | resources => exact exists_list_of_sourceFiles hresources hdir
  | support => exact hfiles ▸ exists_list_of_sourceFiles hsupport (hfiles ▸ hdir)

/-! ### Patches one after the other -/

namespace Turned

variable (h : Turned layout patches fs fs') (hgen : Generated layout root fs)
include h hgen

theorem generated_and_patched : Generated layout root fs' ∧ Patched root fs fs' := by
  induction patches generalizing fs with
  | nil =>
    obtain rfl : fs' = fs := h
    exact ⟨hgen, .refl root fs'⟩
  | cons patch rest ih =>
    obtain ⟨mid, hfirst, hrest⟩ := h
    obtain ⟨hgen', hpatched⟩ := ih hrest (hfirst.generated hgen)
    exact ⟨hgen', (hfirst.patched hgen).trans hpatched⟩

theorem generated : Generated layout root fs' :=
  (h.generated_and_patched hgen).1

theorem patched : Patched root fs fs' :=
  (h.generated_and_patched hgen).2

theorem isDirectory_area : fs'.isDirectory (area.path layout) = fs.isDirectory (area.path layout) :=
  (h.patched hgen).isDirectory_area hgen (h.generated hgen)

/-- A source that some patch left as a text had one before. -/
theorem exists_input (hpatches : patches ⊆ Patch.rewriting)
    (htext : fs'.textOf (s.location root) = some text) :
    ∃ input, fs.textOf (s.location root) = some input := by
  induction patches generalizing fs with
  | nil => exact ⟨text, h ▸ htext⟩
  | cons patch rest ih =>
    obtain ⟨mid, hfirst, hrest⟩ := h
    obtain ⟨hpatch, hothers⟩ := List.cons_subset.1 hpatches
    obtain ⟨input, hinput⟩ := ih hrest (hfirst.generated hgen) hothers
    exact hfirst.exists_input hgen hpatch hinput

/-- A source that patches left was there before. -/
theorem isSome_of_rewriting (hpatches : patches ⊆ Patch.rewriting)
    (hsome : (fs'.contentsAt (s.location root)).isSome = true) :
    (fs.contentsAt (s.location root)).isSome = true := by
  induction patches generalizing fs with
  | nil => exact h ▸ hsome
  | cons patch rest ih =>
    obtain ⟨mid, hfirst, hrest⟩ := h
    obtain ⟨hpatch, hothers⟩ := List.cons_subset.1 hpatches
    rcases hfirst.isSome_contentsAt hgen (ih hrest (hfirst.generated hgen) hothers) with
      hsome | ⟨rfl, -⟩ | ⟨rfl, -⟩
    · exact hsome
    · exact absurd hpatch (by decide)
    · exact absurd hpatch (by decide)

/-- No patch writes a class of its own that is named like an implementation. -/
theorem isSome_of_isImplementation (himplementation : s.isImplementation = true)
    (hsome : (fs'.contentsAt (s.location root)).isSome = true) :
    (fs.contentsAt (s.location root)).isSome = true := by
  induction patches generalizing fs with
  | nil => exact h ▸ hsome
  | cons patch rest ih =>
    obtain ⟨mid, hfirst, hrest⟩ := h
    rcases hfirst.isSome_contentsAt hgen (ih hrest (hfirst.generated hgen)) with
      hsome | ⟨-, other, -, rfl⟩ | ⟨-, rfl⟩
    · exact hsome
    · cases himplementation.symm.trans other.isImplementation_stream
    · exact absurd himplementation (by decide)

/-- A source has what becomes of its text under all the patches. -/
theorem becomes (hpatches : patches ⊆ Patch.rewriting)
    (hdir : fs.isDirectory (s.area.path layout) = true)
    (hinput : fs.textOf (s.location root) = some input) :
    ∃ text, fs'.textOf (s.location root) = some text ∧
      Patch.BecomesAll layout s patches input text := by
  induction patches generalizing fs input with
  | nil => exact ⟨input, h ▸ hinput, rfl⟩
  | cons patch rest ih =>
    obtain ⟨mid, hfirst, hrest⟩ := h
    obtain ⟨hpatch, hothers⟩ := List.cons_subset.1 hpatches
    obtain ⟨between, hbetween, hbecomes⟩ := hfirst.becomes hgen hpatch hdir hinput
    have hgen₁ := hfirst.generated hgen
    have hdir₁ := ((hfirst.patched hgen).isDirectory_area hgen hgen₁).trans hdir
    obtain ⟨text, htext, hrest⟩ := ih hrest hgen₁ hothers hdir₁ hbetween
    exact ⟨text, htext, between, hbecomes, hrest⟩

end Turned

end RamlBuild
