import RamlBuild.Proofs.Sources.Reachable
import RamlBuild.Proofs.Sources.TypedInterfaces

/-!
# What patches did

A patch that succeeded took each of its steps, and what a step left of its source stays. So after a
patch every source has the text that is made of what it had before.

## Main definitions

* `Taken` — a step that was taken in a run of steps

## Main results

* `exec_changedFiles_ok` — each step was taken
* `exec_rewriteAll_path_ok` — each source was rewritten
-/

namespace RamlBuild

open Build

variable {layout : Layout} {root loc : Location} {host host' : Host} {fs fs' : Files} {s : Source}
  {area : Area} {name text : String} {output : Source → String → Prop}

/-! ### Steps that were taken -/

theorem Stepped.patched {output : String → Prop} {changed : Bool}
    (h : Stepped layout root output s host host' (.ok changed))
    (hgen : Generated layout root host.files) : Patched root host.files host'.files := by
  cases h with
  | left hfiles => exact hfiles ▸ .refl root host.files
  | @wrote text _ _ hreplaced _ =>
    refine ⟨fun loc hloc => hreplaced.get?_other loc (hloc s), fun s' => ?_⟩
    by_cases heq : s'.location root = s.location root
    · refine .inr ⟨fun e he => ?_, text, heq ▸ hreplaced.get?_target⟩
      rw [heq] at he
      have hlink := hgen.linkAt_location s
      cases e with
      | file => rfl
      | directory mode => exact absurd he (hreplaced.not_directory mode)
      | link target =>
        rw [Files.linkAt_eq_some_iff.2 he] at hlink
        contradiction
    · exact .inl (hreplaced.get?_other _ heq)

/-- A step that was taken in a run that wrote sources between two trees: on a tree in which only
other sources had been written, and what it left of its source is there in the end. -/
structure Taken (layout : Layout) (root : Location) (output : Source → String → Prop)
    (fs fs' : Files) (step : Build Bool) (s : Source) (before after : Host) (changed : Bool) :
    Prop where
  generated : Generated layout root before.files
  wrote : ∃ written, Wrote output root fs before.files written ∧ s ∉ written
  exec_eq : exec step before = (.ok changed, after)
  patched : Patched root before.files fs'
  stays : fs'.get? (s.location root) = after.files.get? (s.location root)

namespace Taken

variable {step : Build Bool} {before after : Host} {changed : Bool}

theorem get?_before (h : Taken layout root output fs fs' step s before after changed) :
    before.files.get? (s.location root) = fs.get? (s.location root) := by
  obtain ⟨written, hwrote, hs⟩ := h.wrote
  exact hwrote.get?_of_not_mem hs

theorem textOf_before (h : Taken layout root output fs fs' step s before after changed) :
    before.files.textOf (s.location root) = fs.textOf (s.location root) :=
  Files.textOf_congr h.get?_before

theorem textOf_after (h : Taken layout root output fs fs' step s before after changed) :
    fs'.textOf (s.location root) = after.files.textOf (s.location root) :=
  Files.textOf_congr h.stays

end Taken

/-- In a run that succeeds each step is taken. -/
theorem exec_changedFiles_ok {step : Path → Build Bool} {target : Source → Source}
    {sources written : List Source} {files : List Path}
    (hstep : ∀ s ∈ sources, StepWrites layout root output fs (step (s.path layout)) (target s))
    (hnodup : (sources.map target).Nodup) (hnew : ∀ s ∈ sources, target s ∉ written)
    (hgen : Generated layout root host.files) (hwrote : Wrote output root fs host.files written)
    (h : exec (changedFiles step (sources.map (Source.path layout))) host = (.ok files, host')) :
    Patched root host.files host'.files ∧
      (∀ s, s ∉ sources.map target →
        host'.files.get? (s.location root) = host.files.get? (s.location root)) ∧
      ∀ s ∈ sources, ∃ before after changed, Taken layout root output fs host'.files
        (step (s.path layout)) (target s) before after changed := by
  induction sources generalizing host files written with
  | nil =>
    obtain ⟨-, rfl⟩ := Prod.mk.inj h
    exact ⟨.refl root host.files, fun _ _ => rfl, by simp⟩
  | cons s rest ih =>
    rw [List.map_cons, List.nodup_cons] at hnodup
    obtain ⟨changed, host₁, hfirst, h⟩ := exec_bind_ok h
    obtain ⟨others, host₂, hothers, h⟩ := exec_bind_ok h
    obtain ⟨-, rfl⟩ := Prod.mk.inj h
    have hs := hnew s List.mem_cons_self
    have hstepped := hstep s List.mem_cons_self hgen hwrote hs hfirst
    obtain ⟨hgen₁, hwrote₁⟩ := hwrote.of_stepped hgen hs hstepped
    have hnew₁ : ∀ s' ∈ rest, target s' ∉ written ++ if changed then [target s] else [] := by
      intro s' hs' hmem
      rcases List.mem_append.1 hmem with hmem | hmem
      · exact hnew s' (List.mem_cons_of_mem _ hs') hmem
      · exact hnodup.1 (Wrote.eq_of_mem_ite hmem ▸ List.mem_map_of_mem hs')
    obtain ⟨hpatched, hkept, htaken⟩ := ih (fun s' hs' => hstep s' (List.mem_cons_of_mem _ hs'))
      hnodup.2 hnew₁ hgen₁ hwrote₁ hothers
    have hpatched₁ := (hstepped.patched hgen).trans hpatched
    refine ⟨hpatched₁, ?_, ?_⟩
    · intro s' hs'
      rw [List.map_cons, List.mem_cons, not_or] at hs'
      rw [hkept s' hs'.2]
      cases hstepped with
      | left hfiles => rw [hfiles]
      | wrote _ _ hreplaced _ =>
        exact hreplaced.get?_other _ fun heq => hs'.1 (Source.location_injective root heq)
    · intro s' hs'
      rcases List.mem_cons.1 hs' with rfl | hs'
      · exact ⟨host, host₁, changed, hgen, ⟨written, hwrote, hs⟩, hfirst, hpatched₁,
          hkept _ hnodup.1⟩
      · exact htaken s' hs'

/-- Sources that are rewritten one after the other have what becomes of their texts, and could be
read. -/
theorem exec_rewriteAll_path_ok {transform : Path → String → Except Cause String}
    {sources : List Source} {files : List Path} (hnodup : sources.Nodup)
    (hgen : Generated layout root host.files)
    (h : exec (rewriteAll transform (sources.map (Source.path layout))) host = (.ok files, host'))
    (hs : s ∈ sources) :
    (∃ text, textAt host'.files (s.path layout) = .ok (some text)) ∧
      ∃ input text, host.files.textOf (s.location root) = some input ∧
        transform (s.path layout) input = .ok text ∧
        host'.files.textOf (s.location root) = some text := by
  obtain ⟨written, -, hwrote, hok⟩ := exec_rewriteAll hnodup hgen h
  obtain ⟨-, hgen'⟩ := hok files rfl
  rw [rewriteAll_eq] at h
  have hstep : ∀ s ∈ sources, StepWrites layout root (fun s text =>
      ∃ input, host.files.textOf (s.location root) = some input ∧
        transform (s.path layout) input = .ok text) host.files
      (rewrite (s.path layout) (transform (s.path layout))) s := by
    intro s _ host₁ result₁ host₂ written hgen₁ hwrote hs h
    refine (stepped_rewrite hgen₁ h).imp ?_
    rintro text ⟨input, hinput, htext⟩
    rw [hwrote.textOf_of_not_mem hs] at hinput
    exact ⟨input, hinput, htext⟩
  obtain ⟨-, -, htaken⟩ := @exec_changedFiles_ok _ _ _ _ _ _ _ id _ [] _ hstep
    (by simpa using hnodup) (by simp) hgen (Wrote.nil _) h
  obtain ⟨before, after, changed, htaken⟩ := htaken s hs
  rw [id_eq] at htaken
  obtain ⟨input, text, hread, htext, -, hwritten⟩ := rewrite_ok htaken.exec_eq
  refine ⟨htaken.patched.exists_textAt htaken.generated hgen' ⟨input, hread⟩, input, text, ?_, htext, ?_⟩
  · exact htaken.textOf_before ▸ htaken.generated.textOf_of_textAt hread
  · rw [htaken.textOf_after]
    rcases hwritten with ⟨-, hsame, hfiles⟩ | ⟨-, -, target, hplace, hreplaced⟩
    · rw [hfiles, hsame]
      exact htaken.generated.textOf_of_textAt hread
    · obtain rfl := htaken.generated.eq_location_of_place hplace
      exact hreplaced.textOf_target

/-! ### Patches that rewrite -/

/-- A source that a patch works on: one whose text it selects, or one that it selects whatever its
text is. -/
def Patch.Concerns (patch : Patch) (root : Location) (fs : Files) (s : Source) : Prop :=
  (∃ input, fs.textOf (s.location root) = some input ∧ patch.selects s input = true) ∨
    (fs.contentsAt (s.location root)).isSome = true ∧ ∀ input, patch.selects s input = true

theorem exec_modelAndResourceFiles_eq {files : List Path} (hgen : Generated layout root host.files)
    (h : exec (modelAndResourceFiles layout) host = (.ok files, host')) :
    files = (host.files.sources layout .model ++ host.files.sources layout .resources).map
      (Source.path layout) := by
  obtain ⟨model, host₁, hmodel, h⟩ := exec_bind_ok h
  obtain ⟨resources, host₂, hresources, h⟩ := exec_bind_ok h
  have hfiles := (onlyReads_sourceFiles hmodel).files_eq
  rw [← Except.ok.inj (Prod.mk.inj h).1, @exec_sourceFiles_eq _ _ _ _ .model _ hgen hmodel,
    @exec_sourceFiles_eq _ _ _ _ .resources _ (hfiles ▸ hgen) hresources, hfiles, List.map_append]

/-- The patches that rewrite the sources they find. -/
def Patch.rewriting : List Patch :=
  [.jakartaImports, .boxedTypes, .fileResponses, .dates, .responseDelegate, .responseTypes,
    .urlConstants]

theorem isSome_contentsAt_of_textOf (h : fs.textOf loc = some text) :
    (fs.contentsAt loc).isSome = true := by
  rw [contentsAt_of_textOf h]
  rfl

theorem Patch.Concerns.isSome_contentsAt {patch : Patch} (h : patch.Concerns root fs s) :
    (fs.contentsAt (s.location root)).isSome = true := by
  rcases h with ⟨input, hinput, -⟩ | ⟨hsome, -⟩
  · exact isSome_contentsAt_of_textOf hinput
  · exact hsome

/-- So what it asks of the source besides its text is so. -/
theorem Patch.Concerns.exists_selects {patch : Patch} (h : patch.Concerns root fs s) :
    ∃ input, patch.selects s input = true := by
  rcases h with ⟨input, -, hselects⟩ | ⟨-, hselects⟩
  · exact ⟨input, hselects⟩
  · exact ⟨"", hselects ""⟩

theorem Generated.mem_sources_of_concerns {patch : Patch} (hgen : Generated layout root fs)
    (hdir : fs.isDirectory (s.area.path layout) = true) (h : patch.Concerns root fs s) :
    s ∈ fs.sources layout s.area :=
  hgen.mem_sources.2 ⟨rfl, hdir, h.isSome_contentsAt⟩

namespace Patch

variable {patch : Patch} {files : List Path}

/-- A patch that rewrites sources rewrites all that it concerns. -/
theorem exists_rewriteAll (hpatch : patch ∈ rewriting) (hgen : Generated layout root host.files)
    (h : exec (patch.applyTo layout) host = (.ok files, host')) :
    ∃ transform, ∃ sources : List Source, ∃ host₁ : Host, host₁.files = host.files ∧ sources.Nodup ∧
      (∀ s input, transform (s.path layout) input = patch.rewritten layout s input) ∧
      (∀ s, host.files.isDirectory (s.area.path layout) = true →
        patch.Concerns root host.files s → s ∈ sources) ∧
      exec (rewriteAll transform (sources.map (Source.path layout))) host₁ = (.ok files, host') := by
  have hmem : ∀ {area} {s : Source}, s.area = area → host.files.isDirectory (s.area.path layout) = true →
      patch.Concerns root host.files s → s ∈ host.files.sources layout area := by
    rintro area s rfl hdir hconcerns
    exact hgen.mem_sources_of_concerns hdir hconcerns
  simp only [rewriting, List.mem_cons, List.not_mem_nil, or_false] at hpatch
  rcases hpatch with rfl | rfl | rfl | rfl | rfl | rfl | rfl
  · obtain ⟨resources, host₁, hresources, h⟩ := exec_bind_ok h
    obtain ⟨support, host₂, hsupport, h⟩ := exec_bind_ok h
    have hfiles₁ := (onlyReads_sourceFiles hresources).files_eq
    have hfiles₂ := (onlyReads_sourceFiles hsupport).files_eq.trans hfiles₁
    rw [@exec_sourceFiles_eq _ _ _ _ .resources _ hgen hresources,
      @exec_sourceFiles_eq _ _ _ _ .support _ (hfiles₁ ▸ hgen) hsupport, hfiles₁,
      ← List.map_append] at h
    refine ⟨_, _, host₂, hfiles₂, nodup_sources_append hgen (by decide), fun s input => rfl,
      fun s hdir hconcerns => ?_, h⟩
    obtain ⟨input, hselects⟩ := hconcerns.exists_selects
    cases harea : s.area with
    | model => simp [selects, harea] at hselects
    | resources => exact List.mem_append_left _ (hmem harea hdir hconcerns)
    | support => exact List.mem_append_right _ (hmem harea hdir hconcerns)
  · obtain ⟨found, host₁, hfound, h⟩ := exec_bind_ok h
    rw [exec_modelAndResourceFiles_eq hgen hfound] at h
    refine ⟨_, _, host₁, (onlyReads_modelAndResourceFiles hfound).files_eq,
      nodup_sources_append hgen (by decide), fun s input => rfl, fun s hdir hconcerns => ?_, h⟩
    obtain ⟨input, hselects⟩ := hconcerns.exists_selects
    cases harea : s.area with
    | model => exact List.mem_append_left _ (hmem harea hdir hconcerns)
    | resources => exact List.mem_append_right _ (hmem harea hdir hconcerns)
    | support => simp [selects, harea] at hselects
  · obtain ⟨resources, host₁, hresources, h⟩ := exec_bind_ok h
    obtain ⟨picked, host₂, hpicked, h⟩ := exec_bind_ok h
    have hfiles₁ := (onlyReads_sourceFiles hresources).files_eq
    rw [@exec_sourceFiles_eq _ _ _ _ .resources _ hgen hresources] at hpicked
    rw [exec_filesWhose_eq (hfiles₁ ▸ hgen) hpicked, hfiles₁] at h
    refine ⟨_, _, host₂, (onlyReads_filesWhose hpicked).files_eq.trans hfiles₁,
      hgen.nodup_sources.filter _, fun s input => rfl, fun s hdir hconcerns => ?_, h⟩
    rcases hconcerns with ⟨input, hinput, hselects⟩ | ⟨-, hselects⟩
    · have hresource := hselects
      rw [selects, Bool.and_eq_true, beq_iff_eq] at hresource
      refine List.mem_filter.2 ⟨hmem hresource.1 hdir (.inl ⟨input, hinput, hselects⟩), ?_⟩
      rw [hinput, Option.any_some, hresource.2]
    · -- Not every text imports the file class.
      have hempty := hselects ""
      rw [selects, Bool.and_eq_true] at hempty
      exact absurd hempty.2 (by decide)
  · obtain ⟨found, host₁, hfound, h⟩ := exec_bind_ok h
    rw [exec_modelAndResourceFiles_eq hgen hfound, List.filter_map] at h
    refine ⟨_, _, host₁, (onlyReads_modelAndResourceFiles hfound).files_eq,
      (nodup_sources_append hgen (by decide)).filter _, fun s input => rfl,
      fun s hdir hconcerns => ?_, h⟩
    obtain ⟨input, hselects⟩ := hconcerns.exists_selects
    rw [selects, Bool.and_eq_true, ← @Source.endsWith_path layout s] at hselects
    refine List.mem_filter.2 ⟨?_, hselects.2⟩
    cases harea : s.area with
    | model => exact List.mem_append_left _ (hmem harea hdir hconcerns)
    | resources => exact List.mem_append_right _ (hmem harea hdir hconcerns)
    | support => simp [harea] at hselects
  · obtain ⟨support, host₁, hsupport, h⟩ := exec_bind_ok h
    rw [@exec_sourceFiles_eq _ _ _ _ .support _ hgen hsupport, List.filter_map] at h
    refine ⟨_, _, host₁, (onlyReads_sourceFiles hsupport).files_eq, hgen.nodup_sources.filter _,
      fun s input => rfl, fun s hdir hconcerns => ?_, h⟩
    obtain ⟨input, hselects⟩ := hconcerns.exists_selects
    rw [selects, Bool.and_eq_true, beq_iff_eq, beq_iff_eq] at hselects
    refine List.mem_filter.2 ⟨hmem hselects.1 hdir hconcerns, ?_⟩
    rw [Function.comp_apply, Source.fileName?_path, Source.name, hselects.2]
    decide
  all_goals
    obtain ⟨resources, host₁, hresources, h⟩ := exec_bind_ok h
    rw [@exec_sourceFiles_eq _ _ _ _ .resources _ hgen hresources] at h
    refine ⟨_, _, host₁, (onlyReads_sourceFiles hresources).files_eq, hgen.nodup_sources,
      fun s input => rfl, fun s hdir hconcerns => ?_, h⟩
    obtain ⟨input, hselects⟩ := hconcerns.exists_selects
    exact hmem (eq_of_beq hselects) hdir hconcerns

/-- What such a patch concerns it reads, and writes what becomes of its text. -/
theorem rewrites_of_concerns (hpatch : patch ∈ rewriting) (hgen : Generated layout root host.files)
    (h : exec (patch.applyTo layout) host = (.ok files, host'))
    (hdir : host.files.isDirectory (s.area.path layout) = true)
    (hconcerns : patch.Concerns root host.files s) :
    (∃ text, textAt host'.files (s.path layout) = .ok (some text)) ∧
      ∃ input text, host.files.textOf (s.location root) = some input ∧
        patch.rewritten layout s input = .ok text ∧
        host'.files.textOf (s.location root) = some text := by
  obtain ⟨transform, sources, host₁, hfiles, hnodup, htransform, hmem, h⟩ :=
    exists_rewriteAll hpatch hgen h
  obtain ⟨hread, input, text, hinput, htext, hafter⟩ :=
    exec_rewriteAll_path_ok hnodup (hfiles ▸ hgen) h (hmem s hdir hconcerns)
  rw [hfiles] at hinput
  rw [htransform] at htext
  exact ⟨hread, input, text, hinput, htext, hafter⟩

/-! ### Patches with steps of their own -/

theorem textOf_of_rewrite {transform : String → Except Cause String} {changed : Bool}
    (hgen : Generated layout root host.files)
    (h : exec (rewrite (s.path layout) transform) host = (.ok changed, host')) :
    ∃ input text, host.files.textOf (s.location root) = some input ∧ transform input = .ok text ∧
      host'.files.textOf (s.location root) = some text := by
  obtain ⟨input, text, hread, htext, -, hwritten⟩ := rewrite_ok h
  have hinput := hgen.textOf_of_textAt hread
  refine ⟨input, text, hinput, htext, ?_⟩
  rcases hwritten with ⟨-, hsame, hfiles⟩ | ⟨-, -, target, hplace, hreplaced⟩
  · rw [hfiles, hsame, hinput]
  · obtain rfl := hgen.eq_location_of_place hplace
    exact hreplaced.textOf_target

/-- The steps of the patch for discriminators were taken. -/
theorem taken_discriminators (hgen : Generated layout root host.files)
    (h : exec (discriminators.applyTo layout) host = (.ok files, host'))
    (hs : s ∈ host.files.sources layout .model) :
    ∃ before after changed, Taken layout root (discriminators.Output layout root host.files)
      host.files host'.files (typeDiscriminator (s.path layout)) s before after changed := by
  obtain ⟨sources, host₁, hsources, h⟩ := exec_bind_ok h
  have hfiles := (onlyReads_sourceFiles hsources).files_eq
  rw [@exec_sourceFiles_eq _ _ _ _ .model _ hgen hsources] at h
  rw [← hfiles] at hgen hs h ⊢
  obtain ⟨-, -, htaken⟩ := @exec_changedFiles_ok _ _ _ _ _ _ _ id _ [] _
    (fun s hs => stepWrites_typeDiscriminator (Files.area_of_mem_sources hs))
    (by simpa using hgen.nodup_sources) (by simp) hgen (Wrote.nil _) h
  exact htaken s hs

/-- An interface with a literal discriminator has an implementation that tells its type. -/
theorem discriminators_ok (hgen : Generated layout root host.files)
    (h : exec (discriminators.applyTo layout) host = (.ok files, host'))
    (hs : s ∈ host.files.sources layout .model) (hinterface : s.isImplementation = false) {input : String}
    (hinput : host.files.textOf (s.location root) = some input)
    (hliteral : hasDiscriminatorLiteral input = true) :
    ∃ implementation type, host.files.textOf (s.implementation.location root) = some implementation ∧
      discriminatorType? implementation = some type ∧
      (isCustomType (String.ofList type) = true →
        host'.files.textOf (s.location root) =
          some (patchDiscriminator type s.stem.toList input)) := by
  obtain ⟨before, after, changed, htaken⟩ := taken_discriminators hgen h hs
  have hgen₁ := htaken.generated
  rcases typeDiscriminator_ok htaken.exec_eq with
    ⟨himplementation, -⟩ | ⟨source, hsource, hstep⟩
  · rw [Source.isImplementation_path] at himplementation
    cases hinterface.symm.trans himplementation
  have hsource := htaken.textOf_before ▸ hgen₁.textOf_of_textAt hsource
  obtain rfl := Option.some.inj (hinput.symm.trans hsource)
  rcases hstep with ⟨hnone, -⟩ | ⟨-, -, implementation, type, hread, htype, hstep⟩
  · cases hliteral.symm.trans hnone
  rw [Source.implementation_path] at hread
  have himplementation := hgen₁.textOf_of_textAt hread
  obtain ⟨written, hwrote, -⟩ := htaken.wrote
  have hapart : s.implementation ∉ written := by
    intro hmem
    obtain ⟨text, houtput, -⟩ := hwrote.get?_written _ hmem
    exact absurd houtput.isImplementation_eq_false (by simp)
  rw [hwrote.textOf_of_not_mem hapart] at himplementation
  refine ⟨implementation, type, himplementation, htype, fun hcustom => ?_⟩
  rcases hstep with ⟨hbuiltin, -⟩ | ⟨-, host₁, hreads, hrewrite⟩
  · cases hcustom.symm.trans hbuiltin
  · rw [← hreads.files_eq] at hgen₁
    obtain ⟨input', text, hinput', htext, hafter⟩ := textOf_of_rewrite hgen₁ hrewrite
    rw [hreads.files_eq, htaken.textOf_before, hinput] at hinput'
    obtain rfl := Option.some.inj hinput'
    rw [htaken.textOf_after, hafter, ← Except.ok.inj htext, Source.stem_path]

/-- An enum has its value opened. -/
theorem enumValues_ok (hgen : Generated layout root host.files)
    (h : exec (enumValues.applyTo layout) host = (.ok files, host'))
    (hs : s ∈ host.files.sources layout .model) {input : String}
    (hinput : host.files.textOf (s.location root) = some input) (henum : declaresEnum input = true) :
    host'.files.textOf (s.location root) = some (patchEnum input) := by
  obtain ⟨sources, host₁, hsources, h⟩ := exec_bind_ok h
  have hfiles := (onlyReads_sourceFiles hsources).files_eq
  rw [@exec_sourceFiles_eq _ _ _ _ .model _ hgen hsources] at h
  rw [← hfiles] at hgen hs h hinput
  obtain ⟨-, -, htaken⟩ := @exec_changedFiles_ok _ _ _ _ _ _ _ id _ [] _
    (fun s hs => stepWrites_openEnumValue (Files.area_of_mem_sources hs))
    (by simpa using hgen.nodup_sources) (by simp) hgen (Wrote.nil _) h
  obtain ⟨before, after, changed, htaken⟩ := htaken s hs
  rw [id_eq] at htaken
  have hgen₁ := htaken.generated
  obtain ⟨source, host₂, hread, hstep⟩ := exec_bind_ok htaken.exec_eq
  have hreads := onlyReads_readText hread
  have hsource := htaken.textOf_before ▸ hgen₁.textOf_of_textAt (readText_ok hread).1
  obtain rfl := Option.some.inj (hinput.symm.trans hsource)
  rw [if_pos henum] at hstep
  rw [← hreads.files_eq] at hgen₁
  obtain ⟨input', text, hinput', htext, hafter⟩ := textOf_of_rewrite hgen₁ hstep
  rw [hreads.files_eq, htaken.textOf_before, hinput] at hinput'
  obtain rfl := Option.some.inj hinput'
  rw [htaken.textOf_after, hafter, ← Except.ok.inj htext]

/-- Beside each implementation there is its stream class. -/
theorem streams_ok (hgen : Generated layout root host.files)
    (h : exec (streams.applyTo layout) host = (.ok files, host'))
    (hs : s ∈ host.files.sources layout .model) (himplementation : s.isImplementation = true) :
    host'.files.textOf (s.stream.location root) =
      some (streamClass layout.modelPackage s.stream.stem s.stem) := by
  obtain ⟨sources, host₁, hsources, h⟩ := exec_bind_ok h
  have hfiles := (onlyReads_sourceFiles hsources).files_eq
  rw [@exec_sourceFiles_eq _ _ _ _ .model _ hgen hsources] at h
  rw [← hfiles] at hgen hs h
  rw [writeStreams_eq, List.filter_map, exec_map] at h
  rcases hx : exec (changedFiles (writeStream layout.modelPackage)
      (((host₁.files.sources layout .model).filter
        ((fun file : Path => file.isImplementation) ∘ Source.path layout)).map (Source.path layout)))
      host₁ with ⟨result, host₂⟩
  rw [hx] at h
  obtain ⟨hresult, rfl⟩ := Prod.mk.inj h
  cases result with
  | error failure => exact absurd hresult (by simp [Except.map])
  | ok changed =>
    have hpicked : ∀ s ∈ (host₁.files.sources layout .model).filter
        ((fun file : Path => file.isImplementation) ∘ Source.path layout),
          s ∈ host₁.files.sources layout .model ∧ s.isImplementation = true := by
      intro s hs
      obtain ⟨hs, himplementation⟩ := List.mem_filter.1 hs
      rw [Function.comp_apply, Source.isImplementation_path] at himplementation
      exact ⟨hs, himplementation⟩
    have hstreams := List.Nodup.map_on (fun s hs s' hs' =>
      Source.stream_injective (hpicked s hs).2 (hpicked s' hs').2)
      ((@Generated.nodup_sources _ _ _ .model hgen).filter
        ((fun file : Path => file.isImplementation) ∘ Source.path layout))
    obtain ⟨-, -, htaken⟩ := @exec_changedFiles_ok _ _ _ _ _
      (streams.Output layout root host₁.files) _ Source.stream _ [] _
      (fun s hs => stepWrites_writeStream (Files.area_of_mem_sources (hpicked s hs).1)
        (hpicked s hs).2 (hgen.mem_sources.1 (hpicked s hs).1).2.2)
      hstreams (by simp) hgen (Wrote.nil _) hx
    obtain ⟨before, after, changed, htaken⟩ := htaken s <| List.mem_filter.2 ⟨hs, by
      rw [Function.comp_apply, Source.isImplementation_path, himplementation]⟩
    have hwritten := htaken.exec_eq
    rw [writeStream, Source.streamFile_path himplementation, Source.stem_path,
      Source.baseName_path himplementation] at hwritten
    rw [htaken.textOf_after, textOf_of_writeCompanion htaken.generated hwritten]
    rfl

end Patch

/-! ### Constants -/

/-- A source that was written, or holds what was to be written, can be read. -/
theorem exists_textAt_of_writeCompanion {changed : Bool} (hgen : Generated layout root host.files)
    (h : exec (writeCompanion (s.path layout) text) host = (.ok changed, host')) :
    ∃ text, textAt host'.files (s.path layout) = .ok (some text) := by
  have hstepped := stepped_writeCompanion hgen h
  have hnone : Wrote (fun _ t => t = text) root host.files host.files [] := .nil _
  have hgen' := (hnone.of_stepped hgen List.not_mem_nil hstepped).1
  have hpatched := hstepped.patched hgen
  rw [writeCompanion, isFile, exec_asking_bind] at h
  split at h
  · obtain ⟨input, host₁, hread, -⟩ := exec_bind_ok h
    exact hpatched.exists_textAt hgen hgen' ⟨input, (readText_ok hread).1⟩
  · rename_i hfile
    change exec (do writeAtomically (s.path layout) text; pure true) host = _ at h
    obtain ⟨⟨⟩, host₁, hwrite, h⟩ := exec_bind_ok h
    obtain ⟨-, rfl⟩ := Prod.mk.inj h
    obtain ⟨target, hplace, hreplaced, -⟩ := writeAtomically_ok hwrite
    obtain rfl := hgen.eq_location_of_place hplace
    have hpermits := @permits_of_place _ _ _ _ text.toUTF8 s.isPlainName hplace
      hreplaced.not_directory (Files.not_linksToDirectory_of_linkAt (hgen.linkAt_location s))
      (fun h => absurd h hfile)
    have hresolve := (hpatched.resolve_child_iff hgen hgen' s.isPlainName).2
      ((hgen.resolve_eq_place s).trans hplace)
    exact ⟨text, textAt_eq_ok_iff.2 ⟨_, _, _, _, hresolve, hreplaced.get?_target, hpermits,
      fromUTF8?_toUTF8 text⟩⟩

/-- The class of constants is there, and the sources of the model types point at it. -/
structure PointsAtFields (layout : Layout) (root : Location) (fs fs' : Files) : Prop where
  class_eq : fs'.textOf (Source.jsonField.location root) =
    some (jsonFieldClass layout.modelPackage (fs.fieldTable layout root))
  read_class : ∃ text, textAt fs' (Source.jsonField.path layout) = .ok (some text)
  uses : ∀ s ∈ fs.typeSources layout, ∃ input, fs.textOf (s.location root) = some input ∧
    fs'.textOf (s.location root) = some (patchJsonProperties (fs.fieldTable layout root) input)

theorem pointsAtFields_of_writeFields {files : List Path} (hgen : Generated layout root host.files)
    (hfield : Source.jsonField ∉ host.files.typeSources layout)
    (h : exec (writeFields layout (host.files.fieldTable layout root)
      ((host.files.typeSources layout).map (Source.path layout))) host = (.ok files, host')) :
    PointsAtFields layout root host.files host'.files := by
  obtain ⟨written, host₁, hclass, h⟩ := exec_bind_ok h
  obtain ⟨changed, host₂, hchanged, h⟩ := exec_bind_ok h
  obtain ⟨-, rfl⟩ := Prod.mk.inj h
  have hnone : Wrote (fun _ t =>
      t = jsonFieldClass layout.modelPackage (host.files.fieldTable layout root))
      root host.files host.files [] := .nil _
  obtain ⟨hgen₁, hwrote₁⟩ :=
    hnone.of_stepped hgen List.not_mem_nil (stepped_writeCompanion hgen hclass)
  obtain ⟨picked, hpicked, hwrote₂, hok⟩ := exec_rewriteAll hgen.nodup_typeSources hgen₁ hchanged
  obtain ⟨-, hgen₂⟩ := hok changed rfl
  refine ⟨?_, ?_, ?_⟩
  · rw [hwrote₂.textOf_of_not_mem fun hmem => hfield (hpicked _ hmem)]
    exact textOf_of_writeCompanion hgen hclass
  · exact hwrote₂.patched.exists_textAt hgen₁ hgen₂ (exists_textAt_of_writeCompanion hgen hclass)
  · intro s hs
    obtain ⟨-, input, text, hinput, htext, hafter⟩ :=
      exec_rewriteAll_path_ok hgen.nodup_typeSources hgen₁ hchanged hs
    have hapart : s ∉ [] ++ if written then [Source.jsonField] else [] := by
      intro hmem
      rw [List.nil_append] at hmem
      exact hfield (Wrote.eq_of_mem_ite hmem ▸ hs)
    rw [hwrote₁.textOf_of_not_mem hapart] at hinput
    exact ⟨input, hinput, by rw [hafter, ← Except.ok.inj htext]⟩

/-- The patch for constants found the model types. -/
theorem Patch.fieldConstants_ok {files : List Path} (hgen : Generated layout root host.files)
    (hfield : Source.jsonField ∉ host.files.typeSources layout)
    (h : exec (fieldConstants.applyTo layout) host = (.ok files, host')) :
    (∃ types host₁, exec (modelTypes layout.modelDir) host = (.ok types, host₁)) ∧
      (host.files.typeSources layout ≠ [] →
        PointsAtFields layout root host.files host'.files) := by
  obtain ⟨types, host₁, htypes, h⟩ := exec_bind_ok h
  refine ⟨⟨types, host₁, htypes⟩, fun hsome => ?_⟩
  have hfiles₁ := (onlyReads_modelTypes htypes).files_eq
  have hsources : types.flatMap (fun type => [type.interface, type.implementation]) =
      (host₁.files.typeSources layout).map (Source.path layout) := by
    rw [(exec_modelTypes_ok hgen.wellFormed htypes).2.2, files_eq_typeSources hgen, hfiles₁]
  rw [← hfiles₁] at hgen hfield hsome ⊢
  split at h
  · rename_i hempty
    rw [List.isEmpty_iff.1 hempty] at hsources
    exact absurd (List.map_eq_nil_iff.1 hsources.symm) hsome
  · rw [hsources] at h
    obtain ⟨names, host₂, hnames, h⟩ := exec_bind_ok h
    have hfiles₂ := (onlyReads_allPropertyNames hnames).files_eq
    have htable : ConstantTable.ofValues names = host₂.files.fieldTable layout root := by
      rw [exec_allPropertyNames_eq hgen hnames, hfiles₂, Files.fieldTable]
    have hclassFile : layout.modelDir / (jsonFieldClassName ++ ".java") = Source.jsonField.path layout :=
      rfl
    rw [htable, hclassFile, ← hfiles₂] at h
    rw [← hfiles₂] at hgen hfield ⊢
    exact pointsAtFields_of_writeFields hgen hfield h

end RamlBuild
