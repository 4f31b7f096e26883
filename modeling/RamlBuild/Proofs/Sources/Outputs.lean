import RamlBuild.Proofs.Sources.FieldConstants
import RamlBuild.Proofs.Sources.Writing

/-!
# What patches write

Each patch has its outputs: for the sources that it concerns, the complete texts that it writes,
told by the tree before it. A patch that runs writes outputs and nothing else, whether it succeeds
or fails.

## Main definitions

* `Patch.selects`, `Patch.rewritten` — patches that work on one source at a time
* `Files.typeSources`, `Files.fieldTable` — the sources of the model types, and the constants for them
* `Patch.Output` — the outputs of a patch

## Main results

* `Patch.writes_applyTo` — what a patch writes
-/

namespace RamlBuild

open Build

variable {layout : Layout} {root : Location} {host host' : Host} {s : Source} {fs : Files}

/-! ### Outputs -/

namespace Patch

/-- Whether a patch works on a source with a text, taken by itself. -/
def selects (s : Source) (input : String) : Patch → Bool
  | enumValues => s.area == .model && declaresEnum input
  | jakartaImports => s.area != .model
  | boxedTypes => s.area != .support
  | fileResponses => s.area == .resources && importsFile input
  | dates => s.area != .support && !Text.endsWith "Deserializer" s.stem.toList
  | responseDelegate => s.area == .support && s.stem == "ResponseDelegate"
  | responseTypes | urlConstants => s.area == .resources
  | discriminators | streams | fieldConstants => false

/-- What a patch that takes sources by themselves makes of the text of one. -/
def rewritten (layout : Layout) (s : Source) (input : String) : Patch → Except Cause String
  | enumValues => .ok (patchEnum input)
  | jakartaImports => .ok (patchImports input)
  | boxedTypes => .ok (boxPrimitives input)
  | fileResponses => .ok (patchFileResponses input)
  | dates => .ok (patchDates input)
  | responseDelegate => .ok (patchResponseDelegate input)
  | responseTypes => .ok (patchResponseTypes input)
  | urlConstants => (injectUrlConstants input (s.path layout)).mapError Cause.shape
  | discriminators | streams | fieldConstants => .ok input

end Patch

/-- The sources of the model types: each interface and its implementation. -/
def Files.typeSources (fs : Files) (layout : Layout) : List Source :=
  ((fs.sources layout .model).filter fun s =>
    !s.isImplementation && fs.isFile (s.implementation.path layout)).flatMap fun s =>
      [s, s.implementation]

/-- The constants for the properties that the model types list. -/
def Files.fieldTable (fs : Files) (layout : Layout) (root : Location) : ConstantTable :=
  .ofValues <| (fs.typeSources layout).flatMap fun s =>
    ((fs.textOf (s.location root)).map propertyOrder).getD []

/-- The outputs of a patch: the complete text that it writes for a source. -/
inductive Patch.Output (layout : Layout) (root : Location) (fs : Files) :
    Patch → Source → String → Prop where
  /-- What becomes of the text of a source. -/
  | rewritten {patch : Patch} {s : Source} {input text : String}
      (hinput : fs.textOf (s.location root) = some input) (hselects : patch.selects s input = true)
      (htext : patch.rewritten layout s input = .ok text) : Output layout root fs patch s text
  /-- An interface whose discriminator has the type that its implementation declares. -/
  | discriminator {s : Source} {input implementation : String} {type : List Char}
      (harea : s.area = .model) (hinterface : s.isImplementation = false)
      (hinput : fs.textOf (s.location root) = some input)
      (hliteral : hasDiscriminatorLiteral input = true)
      (himplementation : fs.textOf (s.implementation.location root) = some implementation)
      (htype : discriminatorType? implementation = some type)
      (hcustom : isCustomType (String.ofList type) = true) :
      Output layout root fs .discriminators s (patchDiscriminator type s.stem.toList input)
  /-- The stream class beside an implementation. -/
  | stream {s implementation : Source} (hs : s = implementation.stream)
      (harea : implementation.area = .model)
      (himplementation : implementation.isImplementation = true)
      (hfile : (fs.contentsAt (implementation.location root)).isSome = true) :
      Output layout root fs .streams s
        (streamClass layout.modelPackage s.stem implementation.stem)
  /-- The class of constants. -/
  | fieldClass {s : Source} (harea : s.area = .model) (hstem : s.stem = jsonFieldClassName)
      (htypes : fs.typeSources layout ≠ []) :
      Output layout root fs .fieldConstants s
        (jsonFieldClass layout.modelPackage (fs.fieldTable layout root))
  /-- A source of a model type that points at the constants. -/
  | fieldUse {s : Source} {input : String} (htype : s ∈ fs.typeSources layout)
      (hstem : s.stem ≠ jsonFieldClassName)
      (hinput : fs.textOf (s.location root) = some input) :
      Output layout root fs .fieldConstants s
        (patchJsonProperties (fs.fieldTable layout root) input)

/-- A patch has one output for a source at most. -/
theorem Patch.Output.unique {patch : Patch} {text text' : String}
    (h : patch.Output layout root fs s text) (h' : patch.Output layout root fs s text') :
    text = text' := by
  have hone : ∀ {loc : Location} {input input' : String}, fs.textOf loc = some input →
      fs.textOf loc = some input' → input' = input :=
    fun h h' => Option.some.inj (h'.symm.trans h)
  cases h with
  | rewritten hinput hselects htext =>
    cases h' with
    | rewritten hinput' _ htext' =>
      rw [hone hinput hinput', htext] at htext'
      exact Except.ok.inj htext'
    | discriminator | stream | fieldClass | fieldUse => exact absurd hselects (by simp [selects])
  | discriminator _ _ hinput _ himplementation htype =>
    cases h' with
    | rewritten _ hselects' => exact absurd hselects' (by simp [selects])
    | discriminator _ _ hinput' _ himplementation' htype' =>
      rw [hone himplementation himplementation', htype] at htype'
      rw [hone hinput hinput', Option.some.inj htype']
  | stream hs _ himplementation =>
    cases h' with
    | rewritten _ hselects' => exact absurd hselects' (by simp [selects])
    | stream hs' _ himplementation' =>
      rw [Source.stream_injective himplementation himplementation' (hs.symm.trans hs')]
  | fieldClass _ hstem =>
    cases h' with
    | rewritten _ hselects' => exact absurd hselects' (by simp [selects])
    | fieldClass => rfl
    | fieldUse _ hstem' => exact absurd hstem hstem'
  | fieldUse _ hstem hinput =>
    cases h' with
    | rewritten _ hselects' => exact absurd hselects' (by simp [selects])
    | fieldClass _ hstem' => exact absurd hstem' hstem
    | fieldUse _ _ hinput' => rw [hone hinput hinput']

/-! ### Steps of patches -/

/-- Writes the stream class beside one implementation. -/
def writeStream (package : String) (file : Path) : Build Bool :=
  writeCompanion (streamFile file) (streamClass package (file.baseName ++ "Stream") file.stem)

theorem writeStreams_eq (package : String) (files : List Path) :
    writeStreams package files =
      List.map streamFile <$>
        changedFiles (writeStream package) (files.filter (·.isImplementation)) := by
  induction files with
  | nil => rfl
  | cons p rest ih =>
    rw [writeStreams]
    split
    · rename_i h
      rw [List.filter_cons_of_pos h, changedFiles, ih]
      simp only [writeStream, map_bind, bind_map_left, map_pure]
      refine bind_congr fun written => bind_congr fun others => ?_
      cases written <;> rfl
    · rename_i h
      rw [List.filter_cons_of_neg h, ih]

theorem stepWrites_openEnumValue (harea : s.area = .model) :
    StepWrites layout root (Patch.enumValues.Output layout root fs) fs
      (openEnumValue (s.path layout)) s := by
  intro host result host' written hgen hwrote hs h
  rw [openEnumValue] at h
  rcases exec_bind_cases h with ⟨input, host₁, hread, h⟩ | ⟨failure, hread, rfl⟩
  · have hreads := onlyReads_readText hread
    have hinput := hgen.textOf_of_textAt (readText_ok hread).1
    split at h
    · rename_i hdeclares
      rw [← hreads.files_eq] at hgen
      refine ((stepped_rewrite hgen h).imp ?_).of_onlyReads hreads
      rintro text ⟨input', hinput', htext⟩
      rw [hreads.files_eq, hinput] at hinput'
      obtain rfl := Option.some.inj hinput'
      rw [hwrote.textOf_of_not_mem hs] at hinput
      refine .rewritten hinput ?_ htext
      rw [Patch.selects, harea, hdeclares]
      rfl
    · obtain ⟨rfl, rfl⟩ := Prod.mk.inj h
      exact hreads.stepped_left
  · exact (onlyReads_readText hread).stepped_error

theorem stepWrites_writeStream (harea : s.area = .model) (himplementation : s.isImplementation = true)
    (hfile : (fs.contentsAt (s.location root)).isSome = true) :
    StepWrites layout root (Patch.streams.Output layout root fs) fs
      (writeStream layout.modelPackage (s.path layout)) s.stream := by
  intro host result host' written hgen hwrote hs h
  rw [writeStream, Source.streamFile_path himplementation, Source.stem_path,
    Source.baseName_path himplementation] at h
  refine (stepped_writeCompanion hgen h).imp ?_
  rintro text rfl
  exact .stream rfl harea himplementation hfile

theorem Patch.Output.isImplementation_eq_false {text : String}
    (h : Patch.discriminators.Output layout root fs s text) : s.isImplementation = false := by
  cases h with
  | rewritten _ hselects => exact absurd hselects (by simp [Patch.selects])
  | discriminator _ hinterface => exact hinterface

/-- Discriminators are typed by implementations, which stay as they are. -/
theorem stepWrites_typeDiscriminator (harea : s.area = .model) :
    StepWrites layout root (Patch.discriminators.Output layout root fs) fs
      (typeDiscriminator (s.path layout)) s := by
  intro host result host' written hgen hwrote hs h
  rw [typeDiscriminator, Source.isImplementation_path] at h
  split at h
  · obtain ⟨rfl, rfl⟩ := Prod.mk.inj h
    exact .left rfl
  rename_i hinterface
  rw [Bool.not_eq_true] at hinterface
  rcases exec_bind_cases h with ⟨input, host₁, hread, h⟩ | ⟨failure, hread, rfl⟩
  swap
  · exact (onlyReads_readText hread).stepped_error
  have hreads := onlyReads_readText hread
  have hinput := hgen.textOf_of_textAt (readText_ok hread).1
  split at h
  · obtain ⟨rfl, rfl⟩ := Prod.mk.inj h
    exact hreads.stepped_left
  rename_i hliteral
  rw [isFile, exec_asking_bind, Source.implementation_path] at h
  split at h
  · obtain ⟨rfl, rfl⟩ := Prod.mk.inj h
    exact hreads.stepped_error
  rcases exec_bind_cases h with ⟨implementation, host₂, hread', h⟩ | ⟨failure, hread', rfl⟩
  swap
  · exact (chains_onlyReads.trans hreads (onlyReads_readText hread')).stepped_error
  have hreads' := chains_onlyReads.trans hreads (onlyReads_readText hread')
  have himplementation := (readText_ok hread').1
  rw [hreads.files_eq] at himplementation
  have himplementation := hgen.textOf_of_textAt himplementation
  split at h
  · obtain ⟨rfl, rfl⟩ := Prod.mk.inj h
    exact hreads'.stepped_error
  rename_i type htype
  split at h
  swap
  · obtain ⟨rfl, rfl⟩ := Prod.mk.inj h
    exact hreads'.stepped_left
  rename_i hcustom
  rw [← hreads'.files_eq] at hgen
  refine ((stepped_rewrite hgen h).imp ?_).of_onlyReads hreads'
  rintro text ⟨input', hinput', htext⟩
  rw [hreads'.files_eq, hinput] at hinput'
  obtain rfl := Option.some.inj hinput'
  obtain rfl := Except.ok.inj htext
  have hapart : s.implementation ∉ written := by
    intro hmem
    obtain ⟨text, houtput, -⟩ := hwrote.get?_written _ hmem
    exact absurd houtput.isImplementation_eq_false (by simp)
  rw [hwrote.textOf_of_not_mem hs] at hinput
  rw [hwrote.textOf_of_not_mem hapart] at himplementation
  rw [Source.stem_path]
  exact .discriminator harea hinterface hinput (by simpa using hliteral) himplementation htype hcustom

/-! ### Patches that write -/

namespace Patch

variable {patch : Patch} {result : Except Failure (List Path)}

/-- What a patch writes: outputs of its own, and all of those that it tells. -/
def Writes (layout : Layout) (root : Location) (patch : Patch) (host : Host)
    (result : Except Failure (List Path)) (host' : Host) : Prop :=
  ∃ written, Wrote (patch.Output layout root host.files) root host.files host'.files written ∧
    ∀ files, result = .ok files →
      files = written.map (Source.path layout) ∧ Generated layout root host'.files

theorem writes_of_onlyReads {failure : Failure} (h : OnlyReads host host') :
    patch.Writes layout root host (.error failure) host' :=
  ⟨[], h.files_eq ▸ Wrote.nil _, by simp⟩

/-- A patch finds its files before it writes any. -/
theorem writes_bind {α : Type} {find : Build α} {write : α → Build (List Path)}
    (hfind : Always OnlyReads find)
    (hwrite : ∀ a host₁, exec find host = (.ok a, host₁) → host₁.files = host.files →
      exec (write a) host₁ = (result, host') → patch.Writes layout root host₁ result host')
    (h : exec (find >>= write) host = (result, host')) :
    patch.Writes layout root host result host' := by
  rcases exec_bind_cases h with ⟨a, host₁, hfound, h⟩ | ⟨failure, hfound, rfl⟩
  · have hfiles := (hfind hfound).files_eq
    have hwrites := hwrite a host₁ hfound hfiles h
    rwa [Writes, hfiles] at hwrites
  · exact writes_of_onlyReads (hfind hfound)

/-- A patch that rewrites sources that it selects. -/
theorem writes_rewriteAll {transform : Path → String → Except Cause String} {sources : List Source}
    (hgen : Generated layout root host.files)
    (h : exec (rewriteAll transform (sources.map (Source.path layout))) host = (result, host'))
    (hnodup : sources.Nodup)
    (hselects : ∀ s ∈ sources, ∀ input, host.files.textOf (s.location root) = some input →
      patch.selects s input = true)
    (htransform : ∀ s input, transform (s.path layout) input = patch.rewritten layout s input) :
    patch.Writes layout root host result host' := by
  obtain ⟨written, hwritten, hwrote, hok⟩ := exec_rewriteAll hnodup hgen h
  refine ⟨written, hwrote.imp ?_, hok⟩
  rintro s hs text ⟨input, hinput, htext⟩
  exact .rewritten hinput (hselects s (hwritten s hs) input hinput) (htransform s input ▸ htext)

/-- A patch that takes its sources step by step. -/
theorem writes_changedFiles {step : Path → Build Bool} {sources : List Source}
    (hnodup : sources.Nodup)
    (hstep : ∀ s ∈ sources, StepWrites layout root (patch.Output layout root host.files) host.files
      (step (s.path layout)) s)
    (hgen : Generated layout root host.files)
    (h : exec (changedFiles step (sources.map (Source.path layout))) host = (result, host')) :
    patch.Writes layout root host result host' := by
  obtain ⟨picked, -, hwrote, hok⟩ := @exec_changedFiles _ _ _ _ _ _ id _ _ [] _ hstep
    (by simpa using hnodup) (by simp) hgen (Wrote.nil _) h
  exact ⟨picked, by simpa using hwrote, hok⟩

end Patch

/-! ### Constants for fields -/

theorem modelTypeAt?_path (fs : Files) (s : Source) :
    modelTypeAt? fs (s.path layout) =
      if !s.isImplementation && fs.isFile (s.implementation.path layout) then
        some ⟨s.stem, s.path layout, s.implementation.path layout⟩
      else none := by
  rw [modelTypeAt?, Source.isImplementation_path, Source.implementation_path, Source.stem_path]
  cases s.isImplementation <;> cases fs.isFile (s.implementation.path layout) <;> rfl

/-- The files of the model types are their sources. -/
theorem files_eq_typeSources (hgen : Generated layout root fs) :
    (((sourcePaths fs layout.modelDir).filterMap (modelTypeAt? fs)).flatMap fun type =>
      [type.interface, type.implementation]) = (fs.typeSources layout).map (Source.path layout) := by
  rw [show layout.modelDir = Area.model.path layout from rfl, hgen.sourcePaths_eq, Files.typeSources]
  induction fs.sources layout .model with
  | nil => rfl
  | cons s rest ih =>
    rw [List.map_cons, List.filterMap_cons, modelTypeAt?_path, List.filter_cons]
    by_cases htype : (!s.isImplementation && fs.isFile (s.implementation.path layout)) = true
    · rw [if_pos htype, if_pos htype]
      simp only [List.flatMap_cons, List.map_append, ih]
      rfl
    · rw [if_neg htype, if_neg htype]
      exact ih

theorem mem_typeSources :
    s ∈ fs.typeSources layout ↔ ∃ interface ∈ fs.sources layout .model,
      interface.isImplementation = false ∧
      fs.isFile (interface.implementation.path layout) = true ∧
      (s = interface ∨ s = interface.implementation) := by
  simp only [Files.typeSources, List.mem_flatMap, List.mem_filter, Bool.and_eq_true,
    Bool.not_eq_true', List.mem_cons, List.not_mem_nil, or_false, and_assoc]

/-- The sources of model types are model sources. -/
theorem area_of_mem_typeSources (h : s ∈ fs.typeSources layout) : s.area = .model := by
  obtain ⟨interface, hinterface, -, -, rfl | rfl⟩ := mem_typeSources.1 h
  · exact Files.area_of_mem_sources hinterface
  · rw [Source.area_implementation]
    exact Files.area_of_mem_sources hinterface

theorem Generated.isSome_of_mem_typeSources (hgen : Generated layout root fs)
    (h : s ∈ fs.typeSources layout) : (fs.contentsAt (s.location root)).isSome = true := by
  obtain ⟨interface, hinterface, -, hfile, rfl | rfl⟩ := mem_typeSources.1 h
  · exact (hgen.mem_sources.1 hinterface).2.2
  · exact hgen.isSome_contentsAt_of_isFile hfile

/-- No source belongs to two model types. -/
theorem Generated.nodup_typeSources (hgen : Generated layout root fs) :
    (fs.typeSources layout).Nodup := by
  have hne : ∀ {s s' : Source}, s.isImplementation = false → s ≠ s'.implementation := by
    rintro s s' h rfl
    exact absurd h (by simp)
  have hinterface : ∀ s ∈ (fs.sources layout .model).filter fun s =>
      !s.isImplementation && fs.isFile (s.implementation.path layout), s.isImplementation = false := by
    intro s hs
    have hs := (List.mem_filter.1 hs).2
    rw [Bool.and_eq_true, Bool.not_eq_true'] at hs
    exact hs.1
  rw [Files.typeSources, List.nodup_flatMap]
  refine ⟨?_, ?_⟩
  · intro s hs
    simpa using hne (hinterface s hs)
  · refine (hgen.nodup_sources.filter _).imp_of_mem ?_
    intro s s' hs hs' hapart t ht ht'
    have hs := hinterface s hs
    have hs' := hinterface s' hs'
    rcases List.mem_pair.1 ht with rfl | rfl <;> rcases List.mem_pair.1 ht' with heq | heq
    · exact hapart heq
    · exact hne hs heq
    · exact hne hs' heq.symm
    · exact hapart (Source.implementation_injective heq)

/-- The names of all properties are read from the sources as they are. -/
theorem exec_allPropertyNames_eq {sources : List Source} {names : List (List Char)}
    (hgen : Generated layout root host.files)
    (h : exec (allPropertyNames (sources.map (Source.path layout))) host = (.ok names, host')) :
    names = sources.flatMap fun s =>
      ((host.files.textOf (s.location root)).map propertyOrder).getD [] := by
  induction sources generalizing host host' names with
  | nil => exact (Except.ok.inj (Prod.mk.inj h).1).symm
  | cons s rest ih =>
    obtain ⟨text, host₁, hread, h⟩ := exec_bind_ok h
    obtain ⟨others, host₂, hothers, h⟩ := exec_bind_ok h
    have htext := hgen.textOf_of_textAt (readText_ok hread).1
    have hfiles := (onlyReads_readText hread).files_eq
    rw [← Except.ok.inj (Prod.mk.inj h).1, ih (hfiles ▸ hgen) hothers, List.flatMap_cons, htext,
      hfiles]
    rfl

/-- The class of constants. -/
def Source.jsonField : Source :=
  ⟨.model, jsonFieldClassName, by decide, by decide⟩

theorem Source.eq_jsonField (harea : s.area = .model) (hstem : s.stem = jsonFieldClassName) :
    s = .jsonField :=
  Source.eq_of_area_of_name harea (congrArg sourceName hstem)

/-- Writes the class of constants and points sources at it. -/
def writeFields (layout : Layout) (table : ConstantTable) (files : List Path) :
    Build (List Path) := do
  let written ← writeCompanion (Source.jsonField.path layout) (jsonFieldClass layout.modelPackage table)
  let changed ← rewriteAll (always (patchJsonProperties table)) files
  pure (if written then Source.jsonField.path layout :: changed else changed)

/-- The class of constants has nothing that points at constants. -/
theorem patchJsonProperties_fieldTable (hgen : Generated layout root fs) (table : ConstantTable) :
    patchJsonProperties table (jsonFieldClass layout.modelPackage (fs.fieldTable layout root)) =
      jsonFieldClass layout.modelPackage (fs.fieldTable layout root) := by
  refine patchJsonProperties_jsonFieldClass ?_ ?_ ?_ table
  · rw [Layout.modelPackage, String.toList_append, List.mem_append, not_or]
    exact ⟨hgen.newline_not_mem, by decide⟩
  · intro entry hentry
    obtain ⟨s, -, hvalue⟩ := List.mem_flatMap.1 (ConstantTable.mem_of_mem_entries hentry)
    cases htext : fs.textOf (s.location root) with
    | none => simp [htext] at hvalue
    | some text =>
      rw [htext] at hvalue
      exact (closeLiteral_of_mem_propertyOrder hvalue).1
  · exact fun _ hentry _ hc => ConstantTable.isWordChar_of_mem_name hentry hc

theorem writes_writeFields {result : Except Failure (List Path)}
    (hgen : Generated layout root host.files) (htypes : host.files.typeSources layout ≠ [])
    (h : exec (writeFields layout (host.files.fieldTable layout root)
      ((host.files.typeSources layout).map (Source.path layout))) host = (result, host')) :
    Patch.fieldConstants.Writes layout root host result host' := by
  rw [writeFields] at h
  rcases exec_bind_cases h with ⟨written, host₁, hclass, h⟩ | ⟨failure, hclass, rfl⟩
  · have hstepped := (stepped_writeCompanion hgen hclass).imp fun text htext =>
      show Patch.fieldConstants.Output layout root host.files .jsonField text from
        htext ▸ .fieldClass rfl rfl htypes
    have htext := textOf_of_writeCompanion hgen hclass
    obtain ⟨hgen₁, hwrote₁⟩ := (Wrote.nil host.files).of_stepped hgen (by simp) hstepped
    rcases hchanged : exec (rewriteAll (always
      (patchJsonProperties (host.files.fieldTable layout root)))
      ((host.files.typeSources layout).map (Source.path layout))) host₁ with ⟨changed, host₂⟩
    obtain rfl : host₂ = host' := by
      rw [exec_bind, hchanged] at h
      cases changed <;> exact (Prod.mk.inj h).2
    obtain ⟨picked, hpicked, hwrote₂, hok⟩ :=
      exec_rewriteAll hgen.nodup_typeSources hgen₁ hchanged
    -- Where a type has the name of the class, its source is the class by now, and stays.
    have hclassKept : Source.jsonField ∉ picked := by
      intro hmem
      obtain ⟨text, ⟨input, hinput, houtput⟩, hnew, -⟩ := hwrote₂.get?_written _ hmem
      obtain rfl := Option.some.inj (hinput.symm.trans htext)
      obtain rfl := Except.ok.inj houtput
      rw [patchJsonProperties_fieldTable hgen] at hnew
      exact hnew (contentsAt_of_textOf htext)
    have hapart : ∀ s ∈ picked, s ∉ [] ++ if written then [Source.jsonField] else [] := by
      intro s hs hmem
      rw [List.nil_append] at hmem
      exact hclassKept (Wrote.eq_of_mem_ite hmem ▸ hs)
    refine ⟨([] ++ if written then [Source.jsonField] else []) ++ picked,
      hwrote₁.append hwrote₂ hapart ?_, ?_⟩
    · rintro s hs text ⟨input, hinput, houtput⟩ -
      obtain rfl := Except.ok.inj houtput
      rw [hwrote₁.textOf_of_not_mem (hapart s hs)] at hinput
      refine .fieldUse (hpicked s hs) (fun hstem => hclassKept ?_) hinput
      rwa [← Source.eq_jsonField (area_of_mem_typeSources (hpicked s hs)) hstem]
    · rintro files rfl
      obtain ⟨changed', host₃, hchanged', h⟩ := exec_bind_ok h
      obtain ⟨rfl, rfl⟩ := Prod.mk.inj (hchanged.symm.trans hchanged')
      obtain ⟨rfl, hgen₂⟩ := hok changed' rfl
      refine ⟨?_, hgen₂⟩
      rw [← Except.ok.inj (Prod.mk.inj h).1]
      cases written <;> rfl
  · cases stepped_writeCompanion hgen hclass with
    | failed hfiles => exact ⟨[], (Wrote.nil _).congr hfiles, by simp⟩

/-- The class of constants is written first, and what points at it after it. -/
theorem writes_applyFieldConstants {result : Except Failure (List Path)}
    (hgen : Generated layout root host.files)
    (h : exec (applyFieldConstants layout) host = (result, host')) :
    Patch.fieldConstants.Writes layout root host result host' := by
  rw [applyFieldConstants] at h
  refine Patch.writes_bind onlyReads_modelTypes (fun types host₁ htypes hfiles₁ h => ?_) h
  have hsources : types.flatMap (fun type => [type.interface, type.implementation]) =
      (host₁.files.typeSources layout).map (Source.path layout) := by
    rw [(exec_modelTypes_ok hgen.wellFormed htypes).2.2, files_eq_typeSources hgen, hfiles₁]
  rw [← hfiles₁] at hgen
  split at h
  · obtain ⟨rfl, rfl⟩ := Prod.mk.inj h
    exact ⟨[], Wrote.nil _, fun files hfiles => ⟨(Except.ok.inj hfiles).symm, hgen⟩⟩
  · rename_i hsome
    have hnonempty : host₁.files.typeSources layout ≠ [] := by
      intro hnil
      rw [hnil, List.map_nil, List.flatMap_eq_nil_iff] at hsources
      cases types with
      | nil => exact hsome rfl
      | cons type rest => exact absurd (hsources type List.mem_cons_self) (by simp)
    rw [hsources] at h
    refine Patch.writes_bind onlyReads_allPropertyNames (fun names host₂ hnames hfiles₂ h => ?_) h
    have htable : ConstantTable.ofValues names = host₂.files.fieldTable layout root := by
      rw [exec_allPropertyNames_eq hgen hnames, hfiles₂, Files.fieldTable]
    have hclassFile : layout.modelDir / (jsonFieldClassName ++ ".java") = Source.jsonField.path layout :=
      rfl
    rw [htable, hclassFile, ← hfiles₂] at h
    rw [← hfiles₂] at hgen hnonempty
    exact writes_writeFields hgen hnonempty h

/-! ### Whole patches -/

theorem Source.fileName?_path : (s.path layout).fileName? = some s.name :=
  Path.fileName?_child s.isPlainName

/-- What the path of a source ends with, its name does, where no slash comes in between. -/
theorem Source.endsWith_path (s : Source) :
    (s.path layout).endsWith "Deserializer.java" = Text.endsWith "Deserializer" s.stem.toList := by
  have hname : "Deserializer.java".toList <:+ s.name.toList ↔
      "Deserializer".toList <:+ s.stem.toList := by
    have hending : "Deserializer.java".toList = "Deserializer".toList ++ ".java".toList := by simp
    rw [name, sourceName, String.toList_append, hending, List.suffix_append_self_iff]
  rw [Bool.eq_iff_iff, Path.endsWith, Text.endsWith_iff, Text.endsWith_iff, ← hname]
  rcases Path.text_child (p := s.area.path layout) s.isPlainName with ⟨-, htext⟩ | ⟨_, -, -, htext⟩
  · rw [path, htext]
  · rw [path, htext, Text.suffix_append_cons_iff (by simp)]

theorem exec_sourceFiles_eq {area : Area} {files : List Path}
    (hgen : Generated layout root host.files)
    (h : exec (sourceFiles (area.path layout)) host = (.ok files, host')) :
    files = (host.files.sources layout area).map (Source.path layout) := by
  rw [(exec_sourceFiles_ok hgen.wellFormed h).2.2, hgen.sourcePaths_eq]

/-- Files are picked by the texts that they have. -/
theorem exec_filesWhose_eq {question : String → Bool} {sources : List Source} {files : List Path}
    (hgen : Generated layout root host.files)
    (h : exec (filesWhose question (sources.map (Source.path layout))) host = (.ok files, host')) :
    files = (sources.filter fun s =>
      (host.files.textOf (s.location root)).any question).map (Source.path layout) := by
  induction sources generalizing host host' files with
  | nil => exact (Except.ok.inj (Prod.mk.inj h).1).symm
  | cons s rest ih =>
    obtain ⟨text, host₁, hread, h⟩ := exec_bind_ok h
    obtain ⟨others, host₂, hothers, h⟩ := exec_bind_ok h
    have htext := hgen.textOf_of_textAt (readText_ok hread).1
    have hfiles := (onlyReads_readText hread).files_eq
    rw [← Except.ok.inj (Prod.mk.inj h).1, ih (hfiles ▸ hgen) hothers, List.filter_cons, htext,
      hfiles, Option.any_some]
    split <;> rfl

namespace Patch

variable {patch : Patch} {result : Except Failure (List Path)}

theorem writes_sourceFiles (area : Area) {write : List Path → Build (List Path)}
    (hgen : Generated layout root host.files)
    (hwrite : ∀ host₁, host₁.files = host.files → Generated layout root host₁.files →
      exec (write ((host₁.files.sources layout area).map (Source.path layout))) host₁ =
        (result, host') → patch.Writes layout root host₁ result host')
    (h : exec (sourceFiles (area.path layout) >>= write) host = (result, host')) :
    patch.Writes layout root host result host' := by
  refine writes_bind onlyReads_sourceFiles (fun files host₁ hfound hfiles h => ?_) h
  rw [exec_sourceFiles_eq hgen hfound, ← hfiles] at h
  exact hwrite host₁ hfiles (hfiles ▸ hgen) h

/-- The stream classes are those of the implementations. -/
theorem writes_writeStreams {sources : List Source} (harea : ∀ s ∈ sources, s.area = .model)
    (hfile : ∀ s ∈ sources, (host.files.contentsAt (s.location root)).isSome = true)
    (hnodup : sources.Nodup) (hgen : Generated layout root host.files)
    (h : exec (writeStreams layout.modelPackage (sources.map (Source.path layout))) host =
      (result, host')) : streams.Writes layout root host result host' := by
  rw [writeStreams_eq, List.filter_map, exec_map] at h
  rcases hx : exec (changedFiles (writeStream layout.modelPackage) ((sources.filter
    ((fun file : Path => file.isImplementation) ∘ Source.path layout)).map (Source.path layout)))
      host with ⟨changed, host₁⟩
  rw [hx] at h
  obtain ⟨rfl, rfl⟩ := Prod.mk.inj h
  have hpicked : ∀ s ∈ sources.filter
      ((fun file : Path => file.isImplementation) ∘ Source.path layout),
        s ∈ sources ∧ s.isImplementation = true := by
    intro s hs
    obtain ⟨hs, himplementation⟩ := List.mem_filter.1 hs
    rw [Function.comp_apply, Source.isImplementation_path] at himplementation
    exact ⟨hs, himplementation⟩
  have hstreams := List.Nodup.map_on (fun s hs s' hs' =>
    Source.stream_injective (hpicked s hs).2 (hpicked s' hs').2) (hnodup.filter _)
  obtain ⟨picked, hmem, hwrote, hok⟩ := @exec_changedFiles _ _ _ _
    (streams.Output layout root host.files) _ Source.stream host.files _ [] _
    (fun s hs => stepWrites_writeStream (harea s (hpicked s hs).1) (hpicked s hs).2
      (hfile s (hpicked s hs).1)) hstreams (by simp) hgen (Wrote.nil _) hx
  refine ⟨picked.map Source.stream, by simpa using hwrote, ?_⟩
  intro files hfiles
  cases changed with
  | error failure => exact absurd hfiles (by simp [Except.map])
  | ok files' =>
    obtain ⟨hfiles', hgen'⟩ := hok files' rfl
    refine ⟨?_, hgen'⟩
    rw [← Except.ok.inj hfiles, hfiles', List.map_map, List.map_map]
    refine List.map_congr_left fun s hs => ?_
    rw [Function.comp_apply, Function.comp_apply, Source.streamFile_path (hpicked s (hmem s hs)).2]

theorem writes_modelAndResourceFiles {write : List Path → Build (List Path)}
    (hgen : Generated layout root host.files)
    (hwrite : ∀ host₁, host₁.files = host.files → Generated layout root host₁.files →
      exec (write ((host₁.files.sources layout .model ++ host₁.files.sources layout .resources).map
        (Source.path layout))) host₁ = (result, host') →
          patch.Writes layout root host₁ result host')
    (h : exec (modelAndResourceFiles layout >>= write) host = (result, host')) :
    patch.Writes layout root host result host' := by
  refine writes_bind onlyReads_modelAndResourceFiles (fun files host₁ hfound hfiles h => ?_) h
  obtain ⟨model, host₂, hmodel, hfound⟩ := exec_bind_ok hfound
  obtain ⟨resources, host₃, hresources, hfound⟩ := exec_bind_ok hfound
  have hfiles₂ := (onlyReads_sourceFiles hmodel).files_eq
  have hmodel := @exec_sourceFiles_eq _ _ _ _ .model _ hgen hmodel
  have hresources := @exec_sourceFiles_eq _ _ _ _ .resources _ (hfiles₂ ▸ hgen) hresources
  rw [← Except.ok.inj (Prod.mk.inj hfound).1, hmodel, hresources, hfiles₂, ← hfiles,
    ← List.map_append] at h
  exact hwrite host₁ hfiles (hfiles ▸ hgen) h

/-- No source stands in two directories. -/
theorem nodup_sources_append {area area' : Area} (hgen : Generated layout root fs)
    (hne : area ≠ area') : (fs.sources layout area ++ fs.sources layout area').Nodup := by
  refine List.nodup_append.2 ⟨hgen.nodup_sources, hgen.nodup_sources, ?_⟩
  rintro s hs s' hs' rfl
  exact hne ((Files.area_of_mem_sources hs).symm.trans (Files.area_of_mem_sources hs'))

/-- A patch writes outputs of its own and nothing else, whether it succeeds or fails. -/
theorem writes_applyTo (hgen : Generated layout root host.files)
    (h : exec (patch.applyTo layout) host = (result, host')) :
    patch.Writes layout root host result host' := by
  cases patch with
  | discriminators =>
    refine writes_sourceFiles .model hgen (fun host₁ _ hgen₁ h => ?_) h
    exact writes_changedFiles hgen₁.nodup_sources
      (fun s hs => stepWrites_typeDiscriminator (Files.area_of_mem_sources hs)) hgen₁ h
  | enumValues =>
    refine writes_sourceFiles .model hgen (fun host₁ _ hgen₁ h => ?_) h
    exact writes_changedFiles hgen₁.nodup_sources
      (fun s hs => stepWrites_openEnumValue (Files.area_of_mem_sources hs)) hgen₁ h
  | streams =>
    refine writes_sourceFiles .model hgen (fun host₁ _ hgen₁ h => ?_) h
    exact writes_writeStreams (fun s hs => Files.area_of_mem_sources hs)
      (fun s hs => (hgen₁.mem_sources.1 hs).2.2) hgen₁.nodup_sources hgen₁ h
  | jakartaImports =>
    refine writes_sourceFiles .resources hgen (fun host₁ _ hgen₁ h => ?_) h
    refine writes_sourceFiles .support hgen₁ (fun host₂ hfiles hgen₂ h => ?_) h
    rw [← hfiles, ← List.map_append] at h
    refine writes_rewriteAll hgen₂ h (nodup_sources_append hgen₂ (by decide))
      (fun s hs input _ => ?_) fun s input => rfl
    rcases List.mem_append.1 hs with hs | hs <;> rw [selects, Files.area_of_mem_sources hs] <;> rfl
  | boxedTypes =>
    refine writes_modelAndResourceFiles hgen (fun host₁ _ hgen₁ h => ?_) h
    refine writes_rewriteAll hgen₁ h (nodup_sources_append hgen₁ (by decide))
      (fun s hs input _ => ?_) fun s input => rfl
    rcases List.mem_append.1 hs with hs | hs <;> rw [selects, Files.area_of_mem_sources hs] <;> rfl
  | fileResponses =>
    refine writes_sourceFiles .resources hgen (fun host₁ _ hgen₁ h => ?_) h
    refine writes_bind onlyReads_filesWhose (fun files host₂ hpicked hfiles h => ?_) h
    rw [exec_filesWhose_eq hgen₁ hpicked, ← hfiles] at h
    rw [← hfiles] at hgen₁
    refine writes_rewriteAll hgen₁ h (hgen₁.nodup_sources.filter _) (fun s hs input hinput => ?_)
      fun s input => rfl
    obtain ⟨hs, himports⟩ := List.mem_filter.1 hs
    rw [hinput, Option.any_some] at himports
    rw [selects, Files.area_of_mem_sources hs, himports]
    rfl
  | dates =>
    refine writes_modelAndResourceFiles hgen (fun host₁ _ hgen₁ h => ?_) h
    rw [List.filter_map] at h
    refine writes_rewriteAll hgen₁ h ((nodup_sources_append hgen₁ (by decide)).filter _)
      (fun s hs input _ => ?_) fun s input => rfl
    obtain ⟨hs, hname⟩ := List.mem_filter.1 hs
    rw [Function.comp_apply, Source.endsWith_path] at hname
    rcases List.mem_append.1 hs with hs | hs <;> rw [selects, Files.area_of_mem_sources hs, hname] <;> rfl
  | responseDelegate =>
    refine writes_sourceFiles .support hgen (fun host₁ _ hgen₁ h => ?_) h
    rw [List.filter_map] at h
    refine writes_rewriteAll hgen₁ h (hgen₁.nodup_sources.filter _) (fun s hs input _ => ?_)
      fun s input => rfl
    obtain ⟨hs, hname⟩ := List.mem_filter.1 hs
    rw [Function.comp_apply, Source.fileName?_path, beq_iff_eq, Option.some.injEq] at hname
    have hstem : s.stem = "ResponseDelegate" := sourceName_injective hname
    rw [selects, Files.area_of_mem_sources hs, hstem]
    rfl
  | responseTypes =>
    refine writes_sourceFiles .resources hgen (fun host₁ _ hgen₁ h => ?_) h
    refine writes_rewriteAll hgen₁ h hgen₁.nodup_sources (fun s hs input _ => ?_) fun s input => rfl
    rw [selects, Files.area_of_mem_sources hs]
    rfl
  | fieldConstants => exact writes_applyFieldConstants hgen h
  | urlConstants =>
    refine writes_sourceFiles .resources hgen (fun host₁ _ hgen₁ h => ?_) h
    refine writes_rewriteAll hgen₁ h hgen₁.nodup_sources (fun s hs input _ => ?_) fun s input => rfl
    rw [selects, Files.area_of_mem_sources hs]
    rfl

end Patch

end RamlBuild
