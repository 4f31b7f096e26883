import RamlBuild.Proofs.Sources.Effects
import RamlBuild.Proofs.Sources.Landmarks

/-!
# Sources that are finished

Patches that find nothing to do only read. They find nothing to do in a tree whose texts are the ones
that they would write, and where everything that they ask for is there.

## Main definitions

* `Answers` — what a build that only reads gives for a tree
* `Finished` — a tree in which no patch has anything left to do

## Main results

* `Finished.answers_applyTo` — a patch writes no file of a finished tree
-/

namespace RamlBuild

open Build

variable {layout : Layout} {root : Location} {fs : Files} {p : Path} {text : String}
  {α β : Type} {a : α} {b : β}

/-! ### Answers -/

/-- Where nothing fails, a build gives an answer for a tree, and only reads. -/
def Answers (fs : Files) (build : Build α) (a : α) : Prop :=
  ∀ host : Host, host.files = fs → (∀ n, host.faults n = none) →
    ∃ host', exec build host = (.ok a, host') ∧ OnlyReads host host'

namespace Answers

variable {build : Build α} {next : α → Build β}

theorem pure (fs : Files) (a : α) : Answers fs (pure a) a :=
  fun host _ _ => ⟨host, exec_pure a host, chains_onlyReads.refl host⟩

theorem bind (h : Answers fs build a) (hnext : Answers fs (next a) b) :
    Answers fs (build >>= next) b := by
  intro host hfiles hquiet
  obtain ⟨host₁, hbuild, hreads⟩ := h host hfiles hquiet
  obtain ⟨host₂, hthen, hreads'⟩ := hnext host₁ (hreads.files_eq.trans hfiles)
    (hreads.faults_eq ▸ hquiet)
  exact ⟨host₂, (exec_bind_of_ok hbuild).trans hthen, chains_onlyReads.trans hreads hreads'⟩

theorem within {activity : String} (h : Answers fs build a) :
    Answers fs (within activity build) a := by
  intro host hfiles hquiet
  obtain ⟨host', hbuild, hreads⟩ := h host hfiles hquiet
  refine ⟨host', ?_, hreads⟩
  rw [exec_within, hbuild]
  rfl

theorem asking (question : Files → α) : Answers fs (asking question) (question fs) := by
  rintro host rfl -
  exact ⟨host, rfl, chains_onlyReads.refl host⟩

theorem readText (h : textAt fs p = .ok (some text)) : Answers fs (readText p) text := by
  rintro host rfl hquiet
  exact ⟨counted host, exec_readText_of_textAt hquiet h, onlyReads_counted host⟩

theorem map {f : α → β} (h : Answers fs build a) : Answers fs (f <$> build) (f a) := by
  intro host hfiles hquiet
  obtain ⟨host', hbuild, hreads⟩ := h host hfiles hquiet
  refine ⟨host', ?_, hreads⟩
  rw [exec_map, hbuild]
  rfl

theorem changedFiles {step : Path → Build Bool} {files : List Path}
    (h : ∀ file ∈ files, Answers fs (step file) false) : Answers fs (changedFiles step files) [] := by
  induction files with
  | nil => exact pure fs []
  | cons file rest ih =>
    exact (h file List.mem_cons_self).bind
      ((ih fun file hfile => h file (List.mem_cons_of_mem _ hfile)).bind (pure fs []))

/-- A file that is to be rewritten, and has the text already. -/
theorem rewrite {transform : String → Except Cause String} (h : textAt fs p = .ok (some text))
    (htext : transform text = .ok text) : Answers fs (rewrite p transform) false := by
  refine (readText h).bind ?_
  simp only [htext, if_true]
  exact pure fs false

theorem writeCompanion (h : textAt fs p = .ok (some text)) :
    Answers fs (writeCompanion p text) false := by
  refine (asking (·.isFile p)).bind ?_
  rw [if_pos (isFile_of_textAt h)]
  refine (readText h).bind ?_
  refine (pure fs _).bind ?_
  simp only [decide_true, if_true]
  exact pure fs false

end Answers

/-! ### Trees without anything left to do -/

/-- A tree in which no patch has anything left to do. -/
structure Finished (layout : Layout) (root : Location) (fs : Files) : Prop where
  generated : Generated layout root fs
  listed : ∀ area : Area, fs.isDirectory (area.path layout) = true →
    ∃ entries, fs.list (area.path layout) = .ok entries
  legible : ∀ s ∈ fs.sources layout s.area, ∃ text, textAt fs (s.path layout) = .ok (some text)
  /-- What a patch selects it leaves as it is. -/
  fixed : ∀ (patch : Patch), ∀ s ∈ fs.sources layout s.area, ∀ input,
    fs.textOf (s.location root) = some input → patch.selects s input = true →
      patch.rewritten layout s input = .ok input
  /-- What is a literal belongs to a builtin type. -/
  typed : ∀ s ∈ fs.sources layout .model, s.isImplementation = false → ∀ input,
    fs.textOf (s.location root) = some input → hasDiscriminatorLiteral input = true →
      ∃ implementation, fs.textOf (s.implementation.location root) = some implementation ∧
        knowsBuiltin implementation = true
  streamed : ∀ s ∈ fs.sources layout .model, s.isImplementation = true →
    fs.textOf (s.stream.location root) =
      some (streamClass layout.modelPackage s.stream.stem s.stem)
  paired : ∀ s ∈ fs.sources layout .model,
    if s.isImplementation then fs.isFile (s.path layout).interface = true
    else fs.isFile (s.implementation.path layout) = true ∨
      ∀ input, fs.textOf (s.location root) = some input → declaresInterface input = false
  fields : fs.typeSources layout ≠ [] → fs.textOf (Source.jsonField.location root) =
    some (jsonFieldClass layout.modelPackage (fs.fieldTable layout root))
  uses : ∀ s ∈ fs.typeSources layout, ∀ input, fs.textOf (s.location root) = some input →
    patchJsonProperties (fs.fieldTable layout root) input = input

namespace Finished

variable {s : Source} {area : Area} {sources : List Source} (h : Finished layout root fs)
include h

theorem textAt_of_textOf (hdir : fs.isDirectory (s.area.path layout) = true)
    (htext : fs.textOf (s.location root) = some text) :
    textAt fs (s.path layout) = .ok (some text) := by
  have hs := h.generated.mem_sources.2 ⟨rfl, hdir, isSome_contentsAt_of_textOf htext⟩
  obtain ⟨input, hinput⟩ := h.legible s hs
  have hsame := htext.symm.trans (h.generated.textOf_of_textAt hinput)
  rw [hinput, Option.some.inj hsame]

theorem exists_textAt (hs : s ∈ fs.sources layout area) :
    ∃ text, textAt fs (s.path layout) = .ok (some text) ∧
      fs.textOf (s.location root) = some text := by
  obtain rfl := Files.area_of_mem_sources hs
  obtain ⟨text, htext⟩ := h.legible s hs
  exact ⟨text, htext, h.generated.textOf_of_textAt htext⟩

theorem answers_sourceFiles (area : Area) :
    Answers fs (sourceFiles (area.path layout))
      ((fs.sources layout area).map (Source.path layout)) := by
  rintro host rfl hquiet
  cases hdir : host.files.isDirectory (area.path layout) with
  | true =>
    obtain ⟨entries, hlist⟩ := h.listed area hdir
    rw [← h.generated.sourcePaths_eq]
    exact exec_sourceFiles_of_list h.generated.wellFormed hquiet hlist
  | false =>
    have hnone : host.files.sources layout area = [] := by
      refine List.eq_nil_iff_forall_not_mem.2 fun s hs => ?_
      cases hdir.symm.trans (h.generated.mem_sources.1 hs).2.1
    rw [hnone, sourceFiles, isDirectory, exec_asking_bind, hdir]
    exact ⟨host, rfl, chains_onlyReads.refl host⟩

theorem answers_rewriteAll (patch : Patch) {transform : Path → String → Except Cause String}
    (hsources : ∀ s ∈ sources, s ∈ fs.sources layout s.area)
    (hselects : ∀ s ∈ sources, ∀ input, fs.textOf (s.location root) = some input →
      patch.selects s input = true)
    (htransform : ∀ s input, transform (s.path layout) input = patch.rewritten layout s input) :
    Answers fs (rewriteAll transform (sources.map (Source.path layout))) [] := by
  rw [rewriteAll_eq]
  refine .changedFiles fun file hfile => ?_
  obtain ⟨s, hs, rfl⟩ := List.mem_map.1 hfile
  obtain ⟨text, hread, htext⟩ := h.exists_textAt (hsources s hs)
  refine .rewrite hread ?_
  rw [htransform]
  exact h.fixed patch s (hsources s hs) text htext (hselects s hs text htext)

theorem answers_modelAndResourceFiles :
    Answers fs (modelAndResourceFiles layout)
      ((fs.sources layout .model ++ fs.sources layout .resources).map (Source.path layout)) := by
  rw [List.map_append]
  exact (h.answers_sourceFiles .model).bind ((h.answers_sourceFiles .resources).bind (.pure fs _))

theorem answers_filesWhose (question : String → Bool) (hs : ∀ s ∈ sources, s ∈ fs.sources layout s.area) :
    Answers fs (filesWhose question (sources.map (Source.path layout)))
      ((sources.filter fun s => (fs.textOf (s.location root)).any question).map
        (Source.path layout)) := by
  induction sources with
  | nil => exact .pure fs []
  | cons s rest ih =>
    obtain ⟨text, hread, htext⟩ := h.exists_textAt (hs s List.mem_cons_self)
    rw [List.map_cons, List.filter_cons, htext, Option.any_some]
    refine (Answers.readText hread).bind ?_
    refine (ih fun s hmem => hs s (List.mem_cons_of_mem _ hmem)).bind ?_
    split
    · exact .pure fs _
    · exact .pure fs _

/-- A discriminator that is a literal stays one. -/
theorem answers_typeDiscriminator (hs : s ∈ fs.sources layout .model) :
    Answers fs (typeDiscriminator (s.path layout)) false := by
  have harea := Files.area_of_mem_sources hs
  obtain ⟨text, hread, htext⟩ := h.exists_textAt hs
  rw [typeDiscriminator, Source.isImplementation_path]
  cases hinterface : s.isImplementation with
  | true => exact .pure fs false
  | false =>
    refine (Answers.readText hread).bind ?_
    cases hliteral : hasDiscriminatorLiteral text with
    | false => exact .pure fs false
    | true =>
      obtain ⟨implementation, himplementation, hbuiltin⟩ := h.typed s hs hinterface text htext hliteral
      obtain ⟨type, htype, hcustom⟩ := knowsBuiltin_iff.1 hbuiltin
      have hdir : fs.isDirectory (s.implementation.area.path layout) = true := by
        rw [Source.area_implementation, harea]
        exact (h.generated.mem_sources.1 hs).2.1
      have hread' := h.textAt_of_textOf hdir himplementation
      rw [← Source.implementation_path] at hread'
      refine (Answers.asking (·.isFile (s.path layout).implementation)).bind ?_
      rw [isFile_of_textAt hread']
      refine (Answers.readText hread').bind ?_
      simp only [htype, hcustom]
      exact .pure fs false

theorem answers_openEnumValue (hs : s ∈ fs.sources layout .model) :
    Answers fs (openEnumValue (s.path layout)) false := by
  obtain ⟨text, hread, htext⟩ := h.exists_textAt hs
  refine (Answers.readText hread).bind ?_
  cases henum : declaresEnum text with
  | false => exact .pure fs false
  | true =>
    rw [if_pos rfl]
    refine .rewrite hread (h.fixed .enumValues s (Files.area_of_mem_sources hs ▸ hs) text htext ?_)
    simp only [Patch.selects, Files.area_of_mem_sources hs, henum]
    rfl

theorem answers_writeStream (hs : s ∈ fs.sources layout .model) (himplementation : s.isImplementation = true) :
    Answers fs (writeStream layout.modelPackage (s.path layout)) false := by
  have hdir : fs.isDirectory (s.stream.area.path layout) = true := by
    rw [Source.area_stream, Files.area_of_mem_sources hs]
    exact (h.generated.mem_sources.1 hs).2.1
  have hread := h.textAt_of_textOf hdir (h.streamed s hs himplementation)
  rw [writeStream, Source.streamFile_path himplementation, Source.stem_path,
    Source.baseName_path himplementation]
  exact .writeCompanion hread

theorem answers_modelType? (hs : s ∈ fs.sources layout .model) :
    ∃ type?, Answers fs (modelType? (s.path layout)) type? := by
  obtain ⟨text, hread, htext⟩ := h.exists_textAt hs
  have hpaired := h.paired s hs
  rw [modelType?, Source.isImplementation_path, Source.implementation_path]
  cases himplementation : s.isImplementation with
  | true =>
    rw [himplementation, if_pos rfl] at hpaired
    refine ⟨none, (Answers.asking (·.isFile (s.path layout).interface)).bind ?_⟩
    rw [hpaired]
    exact .pure fs none
  | false =>
    rw [himplementation] at hpaired
    have hasks : Answers fs (Build.asking (·.isFile (s.implementation.path layout)))
        (fs.isFile (s.implementation.path layout)) := Answers.asking _
    cases hfile : fs.isFile (s.implementation.path layout) with
    | true =>
      refine ⟨some ⟨(s.path layout).stem, s.path layout, s.implementation.path layout⟩,
        hasks.bind ?_⟩
      rw [hfile]
      exact .pure fs _
    | false =>
      rcases hpaired with hpaired | hpaired
      · cases hfile.symm.trans hpaired
      · refine ⟨none, hasks.bind ?_⟩
        rw [hfile]
        refine (Answers.readText hread).bind ?_
        rw [hpaired text htext]
        exact .pure fs none

theorem answers_modelTypesAmong (hs : ∀ s ∈ sources, s ∈ fs.sources layout .model) :
    ∃ types, Answers fs (modelTypesAmong (sources.map (Source.path layout))) types := by
  induction sources with
  | nil => exact ⟨[], .pure fs []⟩
  | cons s rest ih =>
    obtain ⟨type?, hfirst⟩ := h.answers_modelType? (hs s List.mem_cons_self)
    obtain ⟨others, hrest⟩ := ih fun s hmem => hs s (List.mem_cons_of_mem _ hmem)
    exact ⟨type?.toList ++ others, hfirst.bind (hrest.bind (.pure fs _))⟩

theorem answers_allPropertyNames (hs : ∀ s ∈ sources, s ∈ fs.sources layout s.area) :
    Answers fs (allPropertyNames (sources.map (Source.path layout)))
      (sources.flatMap fun s => ((fs.textOf (s.location root)).map propertyOrder).getD []) := by
  induction sources with
  | nil => exact .pure fs []
  | cons s rest ih =>
    obtain ⟨text, hread, htext⟩ := h.exists_textAt (hs s List.mem_cons_self)
    rw [List.map_cons, List.flatMap_cons, htext]
    exact (Answers.readText hread).bind
      ((ih fun s hmem => hs s (List.mem_cons_of_mem _ hmem)).bind (.pure fs _))

theorem mem_sources_of_mem_typeSources (hs : s ∈ fs.typeSources layout) :
    s ∈ fs.sources layout .model := by
  obtain ⟨interface, hinterface, -⟩ := mem_typeSources.1 hs
  exact h.generated.mem_sources.2 ⟨area_of_mem_typeSources hs,
    (h.generated.mem_sources.1 hinterface).2.1, h.generated.isSome_of_mem_typeSources hs⟩

/-- The class of constants is there, and the sources of the model types point at it. -/
theorem answers_applyFieldConstants : Answers fs (applyFieldConstants layout) [] := by
  have hmodel : ∀ s ∈ fs.typeSources layout, s ∈ fs.sources layout s.area := fun s hs =>
    (area_of_mem_typeSources hs).symm ▸ h.mem_sources_of_mem_typeSources hs
  obtain ⟨types, htypes⟩ := h.answers_modelTypesAmong fun s hs => hs
  have hsources : types.flatMap (fun type => [type.interface, type.implementation]) =
      (fs.typeSources layout).map (Source.path layout) := by
    obtain ⟨host', hexec, -⟩ := htypes (quietHost fs) rfl fun _ => rfl
    have hfound := (exec_modelTypesAmong_ok hexec).2.2
    rw [hfound, ← h.generated.sourcePaths_eq]
    exact files_eq_typeSources h.generated
  refine ((h.answers_sourceFiles .model).bind htypes).bind ?_
  cases hempty : types.isEmpty with
  | true => exact .pure fs []
  | false =>
    simp only [hsources]
    refine (h.answers_allPropertyNames hmodel).bind ?_
    have hsome : fs.typeSources layout ≠ [] := by
      intro hnone
      rw [hnone, List.map_nil, List.flatMap_eq_nil_iff] at hsources
      cases types with
      | nil => cases hempty
      | cons type rest => cases hsources type List.mem_cons_self
    have hdir : fs.isDirectory (Source.jsonField.area.path layout) = true := by
      obtain ⟨s, hs⟩ := List.exists_mem_of_ne_nil _ hsome
      exact (h.generated.mem_sources.1 (h.mem_sources_of_mem_typeSources hs)).2.1
    refine (Answers.writeCompanion (h.textAt_of_textOf hdir (h.fields hsome))).bind ?_
    have hwritten : Answers fs (rewriteAll (always (patchJsonProperties (fs.fieldTable layout root)))
        ((fs.typeSources layout).map (Source.path layout))) [] := by
      rw [rewriteAll_eq]
      refine .changedFiles fun file hfile => ?_
      obtain ⟨s, hs, rfl⟩ := List.mem_map.1 hfile
      obtain ⟨text, hread, htext⟩ := h.exists_textAt (hmodel s hs)
      exact .rewrite hread (congrArg Except.ok (h.uses s hs text htext))
    exact hwritten.bind (.pure fs [])

/-- A patch has nothing to do in a finished tree. -/
theorem answers_applyTo (patch : Patch) : Answers fs (patch.applyTo layout) [] := by
  have harea : ∀ {area}, ∀ s ∈ fs.sources layout area, s ∈ fs.sources layout s.area := by
    intro area s hs
    rwa [Files.area_of_mem_sources hs]
  have hboth : ∀ {area area'}, ∀ s ∈ fs.sources layout area ++ fs.sources layout area',
      s ∈ fs.sources layout s.area := fun s hs => (List.mem_append.1 hs).elim (harea s) (harea s)
  cases patch with
  | discriminators =>
    refine (h.answers_sourceFiles .model).bind (.changedFiles fun file hfile => ?_)
    obtain ⟨s, hs, rfl⟩ := List.mem_map.1 hfile
    exact h.answers_typeDiscriminator hs
  | enumValues =>
    refine (h.answers_sourceFiles .model).bind (.changedFiles fun file hfile => ?_)
    obtain ⟨s, hs, rfl⟩ := List.mem_map.1 hfile
    exact h.answers_openEnumValue hs
  | streams =>
    refine (h.answers_sourceFiles .model).bind ?_
    rw [writeStreams_eq]
    refine Answers.map (a := []) (.changedFiles fun file hfile => ?_)
    obtain ⟨hfile, himplementation⟩ := List.mem_filter.1 hfile
    obtain ⟨s, hs, rfl⟩ := List.mem_map.1 hfile
    rw [Source.isImplementation_path] at himplementation
    exact h.answers_writeStream hs himplementation
  | jakartaImports =>
    refine (h.answers_sourceFiles .resources).bind ((h.answers_sourceFiles .support).bind ?_)
    rw [← List.map_append]
    refine h.answers_rewriteAll .jakartaImports hboth (fun s hs input _ => ?_) fun s input => rfl
    rcases List.mem_append.1 hs with hs | hs <;> simp [Patch.selects, Files.area_of_mem_sources hs]
  | boxedTypes =>
    refine h.answers_modelAndResourceFiles.bind
      (h.answers_rewriteAll .boxedTypes hboth (fun s hs input _ => ?_) fun s input => rfl)
    rcases List.mem_append.1 hs with hs | hs <;> simp [Patch.selects, Files.area_of_mem_sources hs]
  | fileResponses =>
    refine (h.answers_sourceFiles .resources).bind ((h.answers_filesWhose importsFile harea).bind ?_)
    refine h.answers_rewriteAll .fileResponses (fun s hs => harea s (List.mem_filter.1 hs).1)
      (fun s hs input hinput => ?_) fun s input => rfl
    obtain ⟨hs, himports⟩ := List.mem_filter.1 hs
    rw [hinput] at himports
    simpa [Patch.selects, Files.area_of_mem_sources hs] using himports
  | dates =>
    refine h.answers_modelAndResourceFiles.bind ?_
    rw [List.filter_map]
    refine h.answers_rewriteAll .dates (fun s hs => hboth s (List.mem_filter.1 hs).1)
      (fun s hs input _ => ?_) fun s input => rfl
    obtain ⟨hs, hdated⟩ := List.mem_filter.1 hs
    rw [Function.comp_apply, Source.endsWith_path] at hdated
    rcases List.mem_append.1 hs with hs | hs <;>
      simpa [Patch.selects, Files.area_of_mem_sources hs] using hdated
  | responseDelegate =>
    refine (h.answers_sourceFiles .support).bind ?_
    rw [List.filter_map]
    refine h.answers_rewriteAll .responseDelegate (fun s hs => harea s (List.mem_filter.1 hs).1)
      (fun s hs input _ => ?_) fun s input => rfl
    obtain ⟨hs, hname⟩ := List.mem_filter.1 hs
    rw [Function.comp_apply, Source.fileName?_path, beq_iff_eq] at hname
    have hstem : s.stem = "ResponseDelegate" := sourceName_injective (Option.some.inj hname)
    simp [Patch.selects, Files.area_of_mem_sources hs, hstem]
  | responseTypes =>
    refine (h.answers_sourceFiles .resources).bind
      (h.answers_rewriteAll .responseTypes harea (fun s hs input _ => ?_) fun s input => rfl)
    simp [Patch.selects, Files.area_of_mem_sources hs]
  | fieldConstants => exact h.answers_applyFieldConstants
  | urlConstants =>
    refine (h.answers_sourceFiles .resources).bind
      (h.answers_rewriteAll .urlConstants harea (fun s hs input _ => ?_) fun s input => rfl)
    simp [Patch.selects, Files.area_of_mem_sources hs]

end Finished

end RamlBuild
