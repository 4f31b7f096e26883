import RamlBuild.Proofs.Sources.Companions
import RamlBuild.Proofs.Sources.Finished
import RamlBuild.Proofs.Sources.ReadyTrees

/-!
# Trees that point at constants

The patch for constants writes one class, and points the sources of the model types at it. Where these
are ready, the model types are afterwards the ones that they were, and list the properties that they
listed. So the constants are the same ones, and none of the patches for model sources has anything
left to do.

## Main definitions

* `PointedTree` — a tree before and after its model types were pointed at constants
* `PointsTo` — the lines of a model source before and after that

## Main results

* `pointedTree_of_turns` — what the patches for constants leave
* `PointedTree.fieldTable_eq` — the constants are the ones that they were
* `PointedTree.rewritten_eq`, `PointedTree.patchJsonProperties_eq`, `PointedTree.textOf_stream` —
  nothing is left to do for the models
-/

namespace RamlBuild

open Build Text

variable {layout : Layout} {root : Location} {fs fs' : Files} {s : Source} {patch : Patch}
  {input text : String} {ls : List Line}

/-! ### Model types that are paired -/

theorem Source.interface_path (h : s.isImplementation = true) :
    (s.path layout).interface = s.area.path layout / (s.base ++ ".java") := by
  rw [Path.interface, baseName_path h, path, Area.path,
    Path.withFileName_child s.isPlainName s.area.isPlainName]

theorem Source.isPlainName_interface (s : Source) : IsPlainName (s.base ++ ".java") := by
  refine isPlainName_sourceName fun hmem => s.slash_not_mem ?_
  rw [base, String.toList_ofList] at hmem
  exact List.mem_of_mem_take hmem

/-- No stream class is the class of constants. -/
theorem Source.stream_ne_jsonField (s : Source) : s.stream ≠ .jsonField := by
  intro heq
  have hsuffix : "Stream".toList <:+ s.stream.stem.toList := by
    rw [stem_stream, String.toList_append]
    exact List.suffix_append _ _
  rw [heq] at hsuffix
  exact absurd hsuffix (by decide)

/-- What is found out about a source when the model types are paired. -/
def Files.IsPaired (fs : Files) (layout : Layout) (root : Location) (s : Source) : Prop :=
  if s.isImplementation then fs.isFile (s.path layout).interface = true
  else fs.isFile (s.implementation.path layout) = true ∨
    ∃ input, fs.textOf (s.location root) = some input ∧ declaresInterface input = false

theorem isPaired_of_modelType? {host host' : Host} {type? : Option ModelType}
    (hgen : Generated layout root host.files)
    (h : exec (modelType? (s.path layout)) host = (.ok type?, host')) :
    host.files.IsPaired layout root s := by
  rw [modelType?, Source.isImplementation_path, Source.implementation_path] at h
  cases himplementation : s.isImplementation with
  | true =>
    rw [himplementation, if_pos rfl, isFile, exec_asking_bind] at h
    rw [Files.IsPaired, himplementation, if_pos rfl]
    by_contra hfile
    rw [if_neg hfile] at h
    cases (Prod.mk.inj h).1
  | false =>
    rw [himplementation, if_neg Bool.false_ne_true, isFile, exec_asking_bind] at h
    rw [Files.IsPaired, himplementation, if_neg Bool.false_ne_true]
    by_cases hfile : host.files.isFile (s.implementation.path layout) = true
    · exact .inl hfile
    · rw [if_neg hfile] at h
      obtain ⟨input, host₁, hread, h⟩ := exec_bind_ok h
      refine .inr ⟨input, hgen.textOf_of_textAt (readText_ok hread).1, ?_⟩
      cases hinterface : declaresInterface input with
      | false => rfl
      | true =>
        rw [hinterface, if_pos rfl] at h
        cases (Prod.mk.inj h).1

theorem isPaired_of_modelTypesAmong {host host' : Host} {sources : List Source}
    {types : List ModelType} (hgen : Generated layout root host.files)
    (h : exec (modelTypesAmong (sources.map (Source.path layout))) host = (.ok types, host')) :
    ∀ s ∈ sources, host.files.IsPaired layout root s := by
  induction sources generalizing host host' types with
  | nil => simp
  | cons first rest ih =>
    obtain ⟨type?, host₁, htype, h⟩ := exec_bind_ok h
    obtain ⟨others, host₂, hothers, -⟩ := exec_bind_ok h
    have hfiles := (onlyReads_modelType? htype).files_eq
    intro s hs
    rcases List.mem_cons.1 hs with rfl | hs
    · exact isPaired_of_modelType? hgen htype
    · exact hfiles ▸ ih (hfiles ▸ hgen) hothers s hs

/-! ### Trees that point at constants -/

/-- What the patches for constants leave of a tree: the class of constants, and the sources of the
model types with their annotations pointing at it. -/
structure PointedTree (layout : Layout) (root : Location) (fs fs' : Files) : Prop where
  generated : Generated layout root fs'
  patched : Patched root fs fs'
  paired : ∀ s ∈ fs.sources layout .model, fs.IsPaired layout root s
  class_eq : fs.typeSources layout ≠ [] → fs'.textOf (Source.jsonField.location root) =
    some (jsonFieldClass layout.modelPackage (fs.fieldTable layout root))
  read_class : fs.typeSources layout ≠ [] →
    ∃ text, textAt fs' (Source.jsonField.path layout) = .ok (some text)
  uses : ∀ s ∈ fs.typeSources layout, ∃ input, fs.textOf (s.location root) = some input ∧
    fs'.textOf (s.location root) = some (patchJsonProperties (fs.fieldTable layout root) input)
  other : ∀ s : Source, s.area = .model → s ∉ fs.typeSources layout →
    (s = .jsonField → fs.typeSources layout = []) →
      fs'.get? (s.location root) = fs.get? (s.location root)

/-- Patches for resources and base classes leave the models, and the others leave those. -/
theorem Patch.Output.area_eq_model (h : patch.Output layout root fs s text)
    (hpatch : patch ∈ [discriminators, enumValues, streams, fieldConstants]) : s.area = .model := by
  cases h with
  | rewritten _ hselects =>
    simp only [List.mem_cons, List.not_mem_nil, or_false] at hpatch
    rcases hpatch with rfl | rfl | rfl | rfl
    · cases hselects
    · exact eq_of_beq (Bool.and_eq_true_iff.1 hselects).1
    · cases hselects
    · cases hselects
  | discriminator harea => exact harea
  | stream hs harea => rw [hs, Source.area_stream, harea]
  | fieldClass harea => exact harea
  | fieldUse htype => exact area_of_mem_typeSources htype

theorem Patch.Output.area_eq_resources (h : urlConstants.Output layout root fs s text) :
    s.area = .resources := by
  cases h with
  | rewritten _ hselects => exact eq_of_beq hselects

/-- The class of constants is no source of a model type. -/
theorem ReadyTree.jsonField_not_mem (h : ReadyTree layout root fs) :
    Source.jsonField ∉ fs.typeSources layout := by
  intro hmem
  obtain ⟨interface, -, hinterface, hfile, rfl | heq⟩ := mem_typeSources.1 hmem
  · have hsome := h.generated.isSome_contentsAt_of_isFile hfile
    rw [h.noImplementation] at hsome
    cases hsome
  · have himplementation := interface.isImplementation_implementation
    rw [← heq] at himplementation
    exact absurd himplementation (by decide)

theorem pointedTree_of_turns {mid : Files} (hready : ReadyTree layout root fs)
    (h : Patch.fieldConstants.Turns layout fs mid) (hurl : Patch.urlConstants.Turns layout mid fs') :
    PointedTree layout root fs fs' := by
  have hgen := hready.generated
  have hgen₁ := h.generated hgen
  have hgen₂ := hurl.generated hgen₁
  have hkept : ∀ {s : Source}, s.area = .model →
      fs'.get? (s.location root) = mid.get? (s.location root) := fun harea =>
    hurl.get?_of_not_output hgen₁ fun text houtput => by
      cases harea.symm.trans houtput.area_eq_resources
  have hother : ∀ s : Source, s.area = .model → s ∉ fs.typeSources layout →
      (s = .jsonField → fs.typeSources layout = []) →
        fs'.get? (s.location root) = fs.get? (s.location root) := by
    intro s harea htype hclass
    refine (hkept harea).trans (h.get?_of_not_output hgen fun text houtput => ?_)
    cases houtput with
    | rewritten _ hselects => cases hselects
    | fieldClass harea hstem htypes => exact htypes (hclass (Source.eq_jsonField harea hstem))
    | fieldUse hmem => exact htype hmem
  obtain ⟨host, files, host', rfl, rfl, hexec⟩ := h
  obtain ⟨⟨types, host₁, htypes⟩, hpoints⟩ :=
    Patch.fieldConstants_ok hgen hready.jsonField_not_mem hexec
  refine ⟨hgen₂, ?_, ?_, fun hsome => ?_, fun hsome => ?_, fun s hs => ?_, hother⟩
  · have hpatched : Patched root host.files host'.files :=
      Patch.Turns.patched ⟨host, files, host', rfl, rfl, hexec⟩ hgen
    exact hpatched.trans (hurl.patched hgen₁)
  · obtain ⟨found, host₂, hfound, hamong⟩ := exec_bind_ok htypes
    have hfiles := (onlyReads_sourceFiles hfound).files_eq
    rw [@exec_sourceFiles_eq _ _ _ _ .model _ hgen hfound] at hamong
    rw [← hfiles] at hgen hamong ⊢
    exact isPaired_of_modelTypesAmong hgen hamong
  · rw [Files.textOf_congr (hkept rfl), (hpoints hsome).class_eq]
  · exact (hurl.patched hgen₁).exists_textAt hgen₁ hgen₂ (hpoints hsome).read_class
  · obtain ⟨input, hinput, hafter⟩ := (hpoints (List.ne_nil_of_mem hs)).uses s hs
    have hsame := Files.textOf_congr (hkept (area_of_mem_typeSources hs))
    exact ⟨input, hinput, hsame.trans hafter⟩

/-- The lines of a model source before and after the constants: they point at these if the source is
that of a model type. -/
structure PointsTo (table : ConstantTable) (s : Source) (points : Prop) (ls ls' : List Line) :
    Prop where
  settled : SettledModel s.dated ls'
  typing : ls'.filterMap typingMarks? = ls.filterMap typingMarks?
  order : orderLines ls' = orderLines ls
  again : points → pointLinesAtConstants table false ls' = ls'

/-- A source that points at constants has the marks that it had for discriminators. -/
theorem PointsTo.typingMarks?_eq {table : ConstantTable} {points : Prop} {ls' : List Line}
    (h : PointsTo table s points ls ls') (hls : ReadyModel s.dated ls) :
    (lines (ofLines ls')).filterMap typingMarks? = (lines (ofLines ls)).filterMap typingMarks? := by
  rw [lines_ofLines_of_plain hls.settled.plain, lines_ofLines_of_plain h.settled.plain, h.typing]

namespace PointedTree

variable (h : PointedTree layout root fs fs') (hready : ReadyTree layout root fs)

include hready in
/-- The properties of the table are listed by sources that are ready. -/
theorem settledText_of_mem_fieldTable {entry : List Char × List Char}
    (hentry : entry ∈ (fs.fieldTable layout root).entries) : SettledText True entry.1 := by
  obtain ⟨s, hs, hvalue⟩ := List.mem_flatMap.1 (ConstantTable.mem_of_mem_entries hentry)
  have hgen := hready.generated
  obtain ⟨interface, hinterface, -⟩ := mem_typeSources.1 hs
  obtain ⟨ls, htext, hls⟩ := hready.ready s (hgen.mem_sources.2 ⟨area_of_mem_typeSources hs,
    (hgen.mem_sources.1 hinterface).2.1, hgen.isSome_of_mem_typeSources hs⟩)
  rw [htext, Option.map_some, Option.getD_some, propertyOrder_eq_orderLines,
    lines_ofLines_of_plain hls.settled.plain] at hvalue
  exact hls.property _ hvalue

theorem isTable_fieldTable : IsTable (fs.fieldTable layout root) := fun _ hentry =>
  ConstantTable.isCapital_of_mem_entries hentry

include hready in
theorem writtenLine_class :
    ∀ line ∈ classLines layout.modelPackage (fs.fieldTable layout root), WrittenLine line :=
  writtenLine_classLines hready.package isTable_fieldTable fun _ hentry =>
    settledText_of_mem_fieldTable hready hentry

include h hready

/-- An implementation that is there was there before. -/
theorem isSome_of_isImplementation (harea : s.area = .model) (himplementation : s.isImplementation = true)
    (hsome : (fs'.contentsAt (s.location root)).isSome = true) :
    (fs.contentsAt (s.location root)).isSome = true := by
  by_cases hs : s ∈ fs.typeSources layout
  · exact hready.generated.isSome_of_mem_typeSources hs
  · have hclass : s = .jsonField → fs.typeSources layout = [] := by
      rintro rfl
      exact absurd himplementation (by decide)
    rwa [Files.contentsAt, h.other s harea hs hclass] at hsome

theorem isDirectory_area {area : Area} :
    fs'.isDirectory (area.path layout) = fs.isDirectory (area.path layout) :=
  h.patched.isDirectory_area hready.generated h.generated

theorem mem_sources_of_mem (hs : s ∈ fs.sources layout .model) : s ∈ fs'.sources layout .model := by
  obtain ⟨harea, hdir, hsome⟩ := hready.generated.mem_sources.1 hs
  exact h.generated.mem_sources.2
    ⟨harea, (h.isDirectory_area hready).trans hdir, h.patched.isSome_contentsAt hsome⟩

/-- A model source is the class of constants, or it was there before and may point at them. -/
theorem cases_of_mem_sources (hs : s ∈ fs'.sources layout .model) :
    (s = .jsonField ∧ fs.typeSources layout ≠ []) ∨
      s ∈ fs.sources layout .model ∧ ∃ ls ls', ReadyModel s.dated ls ∧
        fs.textOf (s.location root) = some (ofLines ls) ∧
        fs'.textOf (s.location root) = some (ofLines ls') ∧
        PointsTo (fs.fieldTable layout root) s (s ∈ fs.typeSources layout) ls ls' := by
  have hgen := hready.generated
  obtain ⟨harea, hdir, hsome⟩ := h.generated.mem_sources.1 hs
  have hdir₀ := (h.isDirectory_area hready).symm.trans hdir
  by_cases hclass : s = .jsonField ∧ fs.typeSources layout ≠ []
  · exact .inl hclass
  · have hclass : s = .jsonField → fs.typeSources layout = [] := fun heq =>
      not_not.1 fun hne => hclass ⟨heq, hne⟩
    refine .inr ?_
    by_cases htype : s ∈ fs.typeSources layout
    · have hs₀ := hgen.mem_sources.2 ⟨harea, hdir₀, hgen.isSome_of_mem_typeSources htype⟩
      obtain ⟨ls, htext, hls⟩ := hready.ready s hs₀
      obtain ⟨input, hinput, hafter⟩ := h.uses s htype
      obtain rfl := Option.some.inj (htext.symm.trans hinput)
      rw [hls.settled.patchJsonProperties_eq] at hafter
      exact ⟨hs₀, ls, _, hls, htext, hafter, hls.pointed _ isTable_fieldTable,
        typingMarks?_pointLinesAtConstants ls, hls.order_pointed _,
        fun _ => pointLinesAtConstants_again isTable_fieldTable ls false⟩
    · have hsame := h.other s harea htype hclass
      have hs₀ : s ∈ fs.sources layout .model := by
        rw [Files.contentsAt, hsame] at hsome
        exact hgen.mem_sources.2 ⟨harea, hdir₀, hsome⟩
      obtain ⟨ls, htext, hls⟩ := hready.ready s hs₀
      exact ⟨hs₀, ls, ls, hls, htext, (Files.textOf_congr hsame).trans htext, hls.settled, rfl, rfl,
        fun hmem => absurd hmem htype⟩

/-- The lines of a model source are settled. -/
theorem exists_settledModel (hs : s ∈ fs'.sources layout .model) :
    ∃ ls, fs'.textOf (s.location root) = some (ofLines ls) ∧ SettledModel s.dated ls := by
  rcases h.cases_of_mem_sources hready hs with ⟨rfl, hsome⟩ | ⟨-, ls, ls', -, -, htext, hpoints⟩
  · exact ⟨_, h.class_eq hsome, WrittenLine.settledModel (writtenLine_class hready) _⟩
  · exact ⟨ls', htext, hpoints.settled⟩

/-- The model types are those that there were. -/
theorem mem_typeSources_iff : s ∈ fs'.typeSources layout ↔ s ∈ fs.typeSources layout := by
  have hgen := hready.generated
  rw [mem_typeSources, mem_typeSources]
  constructor
  · rintro ⟨interface, hs, hinterface, hfile, heq⟩
    have harea := (h.generated.mem_sources.1 hs).1
    have hsome := h.isSome_of_isImplementation hready ((Source.area_implementation interface).trans harea)
      interface.isImplementation_implementation (h.generated.isSome_contentsAt_of_isFile hfile)
    have hfile₀ := h.patched.isFile_source_of_isSome hgen h.generated hsome hfile
    rcases h.cases_of_mem_sources hready hs with ⟨rfl, -⟩ | ⟨hs₀, -⟩
    · rw [hready.noImplementation] at hsome
      cases hsome
    · exact ⟨interface, hs₀, hinterface, hfile₀, heq⟩
  · rintro ⟨interface, hs, hinterface, hfile, heq⟩
    exact ⟨interface, h.mem_sources_of_mem hready hs, hinterface,
      h.patched.isFile_child hgen h.generated (Source.isPlainName _) hfile, heq⟩

theorem typeSources_ne_nil_iff : fs'.typeSources layout ≠ [] ↔ fs.typeSources layout ≠ [] := by
  simp only [ne_eq, List.eq_nil_iff_forall_not_mem, h.mem_typeSources_iff hready]

/-- A source of a model type lists the properties that it listed. -/
theorem exists_of_mem_typeSources (hs : s ∈ fs.typeSources layout) :
    ∃ ls ls', ReadyModel s.dated ls ∧ fs.textOf (s.location root) = some (ofLines ls) ∧
      fs'.textOf (s.location root) = some (ofLines ls') ∧
      PointsTo (fs.fieldTable layout root) s (s ∈ fs.typeSources layout) ls ls' := by
  have hgen := hready.generated
  obtain ⟨interface, hinterface, -⟩ := mem_typeSources.1 hs
  have hs₀ := hgen.mem_sources.2 ⟨area_of_mem_typeSources hs, (hgen.mem_sources.1 hinterface).2.1,
    hgen.isSome_of_mem_typeSources hs⟩
  rcases h.cases_of_mem_sources hready (h.mem_sources_of_mem hready hs₀) with
    ⟨rfl, -⟩ | ⟨-, hlines⟩
  · exact absurd hs hready.jsonField_not_mem
  · exact hlines

/-- So there are the constants that there were. -/
theorem fieldTable_eq : fs'.fieldTable layout root = fs.fieldTable layout root := by
  refine congrArg Prod.fst (ConstantTable.build_congr fun value => ?_)
  simp only [List.mem_flatMap, h.mem_typeSources_iff hready]
  refine exists_congr fun s => and_congr_right fun hs => ?_
  obtain ⟨ls, ls', hls, htext, htext', hpoints⟩ := h.exists_of_mem_typeSources hready hs
  rw [htext, htext']
  simp only [Option.map_some, Option.getD_some, propertyOrder_eq_orderLines,
    lines_ofLines_of_plain hls.settled.plain, lines_ofLines_of_plain hpoints.settled.plain,
    hpoints.order]

/-! ### What is left to do -/


theorem mem_sources_of_isImplementation (hs : s ∈ fs'.sources layout .model)
    (himplementation : s.isImplementation = true) : s ∈ fs.sources layout .model := by
  rcases h.cases_of_mem_sources hready hs with ⟨rfl, -⟩ | ⟨hs₀, -⟩
  · exact absurd himplementation (by decide)
  · exact hs₀

/-- What is a literal still belongs to a builtin type. -/
theorem exists_knowsBuiltin (hs : s ∈ fs'.sources layout .model) (hinterface : s.isImplementation = false)
    (hinput : fs'.textOf (s.location root) = some input)
    (hliteral : hasDiscriminatorLiteral input = true) :
    ∃ implementation, fs'.textOf (s.implementation.location root) = some implementation ∧
      knowsBuiltin implementation = true := by
  rcases h.cases_of_mem_sources hready hs with ⟨rfl, hsome⟩ | ⟨hs₀, ls, ls', hls, htext, htext', hpoints⟩
  · obtain rfl := Option.some.inj ((h.class_eq hsome).symm.trans hinput)
    cases (WrittenLine.hasDiscriminatorLiteral_eq (writtenLine_class hready)).symm.trans hliteral
  · obtain rfl := Option.some.inj (htext'.symm.trans hinput)
    rw [hasDiscriminatorLiteral_congr (hpoints.typingMarks?_eq hls)] at hliteral
    obtain ⟨implementation, hread, hbuiltin⟩ := hready.builtin s hs₀ hinterface _ htext hliteral
    obtain ⟨harea, hdir, -⟩ := hready.generated.mem_sources.1 hs₀
    have hs' : s.implementation ∈ fs.sources layout .model := hready.generated.mem_sources.2
      ⟨(Source.area_implementation s).trans harea, hdir, isSome_contentsAt_of_textOf hread⟩
    rcases h.cases_of_mem_sources hready (h.mem_sources_of_mem hready hs') with
      ⟨heq, -⟩ | ⟨-, own, own', hown, hread', houtput, hpoints'⟩
    · exact absurd (heq ▸ s.isImplementation_implementation) (by decide)
    · obtain rfl := Option.some.inj (hread.symm.trans hread')
      exact ⟨_, houtput, (knowsBuiltin_congr (hpoints'.typingMarks?_eq hown)).trans hbuiltin⟩

/-- The stream classes stay. -/
theorem textOf_stream (hs : s ∈ fs'.sources layout .model) (himplementation : s.isImplementation = true) :
    fs'.textOf (s.stream.location root) =
      some (streamClass layout.modelPackage s.stream.stem s.stem) := by
  have hs₀ := h.mem_sources_of_isImplementation hready hs himplementation
  obtain ⟨hstream, hwritten⟩ := hready.streamed s hs₀ himplementation
  by_cases htype : s.stream ∈ fs.typeSources layout
  · obtain ⟨input, hinput, hafter⟩ := h.uses _ htype
    obtain rfl := Option.some.inj (hstream.symm.trans hinput)
    rw [hafter, streamClass, (WrittenLine.settledModel hwritten true).patchJsonProperties_eq,
      WrittenLine.pointLinesAtConstants_eq hwritten]
  · have harea := (hready.generated.mem_sources.1 hs₀).1
    have hsame := h.other s.stream ((Source.area_stream s).trans harea) htype fun heq =>
      absurd heq s.stream_ne_jsonField
    exact (Files.textOf_congr hsame).trans hstream

/-- The model types are paired as before. -/
theorem isPaired (hs : s ∈ fs'.sources layout .model) : fs'.IsPaired layout root s := by
  have hgen := hready.generated
  rcases h.cases_of_mem_sources hready hs with ⟨rfl, hsome⟩ | ⟨hs₀, ls, ls', hls, htext, htext', hpoints⟩
  · have hdeclares := WrittenLine.declaresInterface_eq (writtenLine_class hready)
    rw [Files.IsPaired, if_neg (by decide)]
    exact .inr ⟨_, h.class_eq hsome, hdeclares⟩
  · have hpaired := h.paired s hs₀
    rw [Files.IsPaired] at hpaired ⊢
    cases himplementation : s.isImplementation with
    | true =>
      rw [himplementation, if_pos rfl, Source.interface_path himplementation] at hpaired
      rw [if_pos rfl, Source.interface_path himplementation]
      exact h.patched.isFile_child hgen h.generated s.isPlainName_interface hpaired
    | false =>
      rw [himplementation, if_neg Bool.false_ne_true] at hpaired
      rw [if_neg Bool.false_ne_true]
      rcases hpaired with hfile | ⟨input, hinput, hdeclares⟩
      · exact .inl (h.patched.isFile_child hgen h.generated s.implementation.isPlainName hfile)
      · obtain rfl := Option.some.inj (htext.symm.trans hinput)
        exact .inr ⟨_, htext', (declaresInterface_congr (hpoints.typingMarks?_eq hls)).trans hdeclares⟩

/-- The class of constants is the one that would be written. -/
theorem textOf_jsonField (hsome : fs'.typeSources layout ≠ []) :
    fs'.textOf (Source.jsonField.location root) =
      some (jsonFieldClass layout.modelPackage (fs'.fieldTable layout root)) := by
  rw [h.fieldTable_eq hready]
  exact h.class_eq ((h.typeSources_ne_nil_iff hready).1 hsome)

/-- The model types point at constants where they can. -/
theorem patchJsonProperties_eq (hs : s ∈ fs'.typeSources layout)
    (hinput : fs'.textOf (s.location root) = some input) :
    patchJsonProperties (fs'.fieldTable layout root) input = input := by
  have hs₀ := (h.mem_typeSources_iff hready).1 hs
  obtain ⟨ls, ls', -, -, htext', hpoints⟩ := h.exists_of_mem_typeSources hready hs₀
  obtain rfl := Option.some.inj (htext'.symm.trans hinput)
  rw [h.fieldTable_eq hready, hpoints.settled.patchJsonProperties_eq, hpoints.again hs₀]

/-- A model source can be read. -/
theorem exists_textAt (hs : s ∈ fs'.sources layout .model) :
    ∃ text, textAt fs' (s.path layout) = .ok (some text) := by
  rcases h.cases_of_mem_sources hready hs with ⟨rfl, hsome⟩ | ⟨hs₀, -⟩
  · exact h.read_class hsome
  · exact h.patched.exists_textAt hready.generated h.generated (hready.legible s hs₀)

/-- What a patch selects of the models it leaves as it is. -/
theorem rewritten_eq (hs : s ∈ fs'.sources layout .model)
    (hinput : fs'.textOf (s.location root) = some input)
    (hselects : patch.selects s input = true) : patch.rewritten layout s input = .ok input := by
  have harea := (h.generated.mem_sources.1 hs).1
  obtain ⟨ls, htext, hsettled⟩ := h.exists_settledModel hready hs
  obtain rfl := Option.some.inj (htext.symm.trans hinput)
  cases patch with
  | enumValues => exact congrArg Except.ok hsettled.patchEnum_eq
  | boxedTypes => exact congrArg Except.ok hsettled.boxPrimitives_eq
  | dates =>
    have hdated : s.dated = true := (Bool.and_eq_true_iff.1 hselects).2
    have hkept := hsettled.patchDatesIf_eq
    rw [patchDatesIf, hdated, if_pos rfl] at hkept
    exact congrArg Except.ok hkept
  | discriminators | streams | fieldConstants => cases hselects
  | jakartaImports | fileResponses | responseDelegate | responseTypes | urlConstants =>
    simp [Patch.selects, harea] at hselects

end PointedTree

end RamlBuild
