import RamlBuild.Proofs.Sources.EndedResponses
import RamlBuild.Proofs.Sources.ReadyModels
import RamlBuild.Proofs.Sources.Turns

/-!
# Trees that are ready for constants

The patches before the one for constants leave a tree whose model sources are ready for it. Each is a
stream class that one of them wrote, or has the lines that become of a source whose discriminator was
typed. What these patches would find out about it again is what they have found out.

## Main definitions

* `Shaped`, `Unmistakable` — what is assumed of the sources
* `ReadyTree` — a tree whose model sources are ready for constants

## Main results

* `typedModel_of_discriminators`, `exists_of_enumValues`, `exists_of_streams` — what the patches for
  model types leave
* `Patch.BecomesAll.model`, `Patch.BecomesAll.resource`, `Patch.BecomesAll.support` — what the patches
  after these make of a source
* `readyTree_of_turns` — after all of them the tree is ready
-/

namespace RamlBuild

open Build Text

variable {layout : Layout} {root : Location} {fs fs' : Files} {s : Source} {area : Area}
  {patch : Patch} {input text : String}

/-- Whether the dates of a source are replaced. -/
def Source.dated (s : Source) : Bool :=
  !Text.endsWith "Deserializer" s.stem.toList

/-! ### What is assumed of sources -/

/-- The shape that is assumed of the text of a source. -/
structure ShapedText (s : Source) (text : String) : Prop where
  /-- No line ends in a carriage return. -/
  plain : ∀ line ∈ lines text, EndsPlain line
  /-- An interface declares one literal discriminator at most. -/
  literal : s.area = .model →
    (dropThrough opensInterface (lines text)).countP (startsWith discriminatorLiteral) ≤ 1
  /-- The first list of properties is closed before any annotation. -/
  order : s.area = .model → OrderCloses (lines text)
  /-- Where dates are left no properties are listed. -/
  unordered : s.area = .model → s.dated = false → (lines text).any opensOrder = false
  /-- The constructors of a response class are ended before the next one. -/
  responses : s.area = .resources → ResponsesClose (lines text)

instance (s : Source) (text : String) : Decidable (ShapedText s text) :=
  decidable_of_iff ((∀ line ∈ lines text, EndsPlain line) ∧
    (s.area = .model →
      (dropThrough opensInterface (lines text)).countP (startsWith discriminatorLiteral) ≤ 1) ∧
    (s.area = .model → OrderCloses (lines text)) ∧
    (s.area = .model → s.dated = false → (lines text).any opensOrder = false) ∧
    (s.area = .resources → ResponsesClose (lines text)))
    ⟨fun ⟨plain, literal, order, unordered, responses⟩ =>
      ⟨plain, literal, order, unordered, responses⟩,
    fun h => ⟨h.plain, h.literal, h.order, h.unordered, h.responses⟩⟩

/-- The shape that is assumed of the sources of a layout. -/
structure Shaped (layout : Layout) (root : Location) (fs : Files) : Prop where
  generated : Generated layout root fs
  package : ∀ segment ∈ layout.projectPackage.toList.splitOn '.', ∀ c ∈ segment, isAsciiWordChar c
  stem : ∀ s : Source, (fs.contentsAt (s.location root)).isSome = true →
    ∀ c ∈ s.stem.toList, isAsciiWordChar c
  text : ∀ (s : Source) text, fs.textOf (s.location root) = some text → ShapedText s text
  noImplementation : fs.contentsAt (Source.jsonField.implementation.location root) = none

/-- A text in which nothing is taken for a type or a property that is none. -/
structure UnmistakableText (s : Source) (text : String) : Prop where
  /-- No line that can annotate a property has the rest of a date behind a quote. -/
  unjoined : s.area = .model → s.dated = true → ∀ line ∈ lines text, ¬JoinsMark line
  /-- Nor has the type of a discriminator, which is no annotation of a property. -/
  type : s.area = .model → ∀ type, discriminatorType? text = some type →
    ¬"@JsonProperty(".toList <+: trimStart type ∧ ¬JoinsMark (type ++ [' '])
  /-- No response class has the name of a type that is exchanged. -/
  response : s.area = .resources →
    ∀ line ∈ lines text, ∀ cls : ResponseClass, cls.IsHeader line → cls.name ∉ exchangedTypes

instance (s : Source) (text : String) : Decidable (UnmistakableText s text) :=
  decidable_of_iff ((s.area = .model → s.dated = true → ∀ line ∈ lines text, ¬JoinsMark line) ∧
    (s.area = .model → ∀ type, type ∈ discriminatorType? text →
      ¬"@JsonProperty(".toList <+: trimStart type ∧ ¬JoinsMark (type ++ [' '])) ∧
    (s.area = .resources → ∀ line ∈ lines text, ∀ cls, cls ∈ ResponseClass.ofHeader? line →
      ¬exchangedTypes.contains cls.name))
    ⟨fun ⟨unjoined, type, response⟩ => ⟨unjoined, type, fun harea line hline cls hcls =>
      mt List.contains_iff_mem.2
        (response harea line hline cls (ResponseClass.ofHeader?_eq_some_iff.2 hcls))⟩,
    fun h => ⟨h.unjoined, h.type, fun harea line hline cls hcls =>
      mt List.contains_iff_mem.1
        (h.response harea line hline cls (ResponseClass.ofHeader?_eq_some_iff.1 hcls))⟩⟩

/-- Sources in which nothing is taken for a type or a property that is none. -/
structure Unmistakable (layout : Layout) (root : Location) (fs : Files) : Prop where
  package : ∀ segment ∈ layout.projectPackage.toList.splitOn '.', segment ∉ primitives
  text : ∀ (s : Source) text, fs.textOf (s.location root) = some text → UnmistakableText s text

/-! ### Trees whose sources are written out -/

/-- The sources that a tree has an entry for. -/
def Files.placedSources (fs : Files) (root : Location) : List Source :=
  fs.entries.flatMap fun (loc, _) => [Area.model, .resources, .support].filterMap fun area =>
    (loc.getLast?.bind (Source.ofName? area)).filter fun s => s.location root = loc

theorem mem_placedSources (h : (fs.contentsAt (s.location root)).isSome = true) :
    s ∈ fs.placedSources root := by
  obtain ⟨e, hget⟩ : ∃ e, fs.get? (s.location root) = some e := by
    rw [← Option.isSome_iff_exists]
    by_contra hnone
    rw [Option.not_isSome_iff_eq_none] at hnone
    rw [Files.contentsAt, hnone] at h
    cases h
  rw [Files.get?, if_neg (Source.location_ne_nil root s)] at hget
  obtain ⟨before, after, hentries, -⟩ := List.lookup_eq_some_iff.1 hget
  have hmem : (s.location root, e) ∈ fs.entries := by
    rw [hentries]
    exact List.mem_append_right _ List.mem_cons_self
  refine List.mem_flatMap.2 ⟨_, hmem, List.mem_filterMap.2 ⟨s.area, ?_, ?_⟩⟩
  · cases s.area <;> simp
  · have hname : Source.ofName? s.area s.name = some s := Source.ofName?_eq_some_iff.2 ⟨rfl, rfl⟩
    rw [show (s.location root).getLast? = some s.name by simp [Source.location], Option.bind_some,
      hname, Option.filter_some, if_pos (decide_eq_true rfl)]

/-- A tree whose sources are written out has the shape that these tell. -/
theorem shaped_of_placedSources (hgen : Generated layout root fs)
    (hpackage : ∀ segment ∈ layout.projectPackage.toList.splitOn '.',
      segment.all isAsciiWordChar = true)
    (hstem : ∀ s ∈ fs.placedSources root, s.stem.toList.all isAsciiWordChar = true)
    (htext : ∀ s ∈ fs.placedSources root, ∀ text, text ∈ fs.textOf (s.location root) →
      ShapedText s text)
    (hnone : fs.contentsAt (Source.jsonField.implementation.location root) = none) :
    Shaped layout root fs where
  generated := hgen
  package segment hsegment := List.all_eq_true.1 (hpackage segment hsegment)
  stem s hsome := List.all_eq_true.1 (hstem s (mem_placedSources hsome))
  text s text h := htext s (mem_placedSources (isSome_contentsAt_of_textOf h)) text h
  noImplementation := hnone

theorem unmistakable_of_placedSources
    (hpackage : ∀ segment ∈ layout.projectPackage.toList.splitOn '.', segment ∉ primitives)
    (htext : ∀ s ∈ fs.placedSources root, ∀ text, text ∈ fs.textOf (s.location root) →
      UnmistakableText s text) : Unmistakable layout root fs where
  package := hpackage
  text s text h := htext s (mem_placedSources (isSome_contentsAt_of_textOf h)) text h

section Shape

variable (h : Shaped layout root fs) (hplain : Unmistakable layout root fs)

theorem Shaped.isPlainLine (h : Shaped layout root fs) (htext : fs.textOf (s.location root) = some text) :
    ∀ line ∈ lines text, IsPlainLine line := fun line hline =>
  ⟨not_mem_of_mem_lines hline, (h.text s text htext).plain line hline⟩

include h hplain

theorem Shaped.isPackage : IsPackage layout.projectPackage := fun segment hsegment =>
  ⟨h.package segment hsegment, hplain.package segment hsegment⟩

theorem Shaped.tellsOrder (harea : s.area = .model) (htext : fs.textOf (s.location root) = some text) :
    TellsOrder s.dated (lines text) where
  plain := h.isPlainLine htext
  unjoined hdates := (hplain.text s text htext).unjoined harea hdates
  closes := (h.text s text htext).order harea
  unordered hdates := (h.text s text htext).unordered harea hdates

end Shape

/-! ### Model sources before their types are exchanged -/

/-- A model source whose discriminator is no literal any more, unless its type is builtin. -/
structure TypedModel (root : Location) (fs : Files) (s : Source) (source : String) : Prop where
  order : TellsOrder s.dated (lines source)
  builtin : s.isImplementation = false → hasDiscriminatorLiteral source = true →
    ∃ implementation, fs.textOf (s.implementation.location root) = some implementation ∧
      knowsBuiltin implementation = true
  kept : s.isImplementation = true → fs.textOf (s.location root) = some source

/-- What a source tells about discriminators it told when its discriminator was typed. -/
theorem TypedModel.typingMarks?_eq {source : String} (h : TypedModel root fs s source) :
    (lines (ofLines (modelLines s.dated (lines source)))).filterMap typingMarks? =
      (lines source).filterMap typingMarks? := by
  rw [lines_ofLines_of_plain (settledModel_modelLines h.order.plain).plain, typingMarks?_modelLines]

/-- What the patch for discriminators leaves. -/
theorem typedModel_of_discriminators (hshape : Shaped layout root fs)
    (hplain : Unmistakable layout root fs) (h : Patch.discriminators.Turns layout fs fs')
    (harea : s.area = .model) (hdir : fs.isDirectory (s.area.path layout) = true)
    (htext : fs'.textOf (s.location root) = some text) : TypedModel root fs s text := by
  have hgen := hshape.generated
  obtain ⟨input, hinput⟩ : ∃ input, fs.textOf (s.location root) = some input := by
    rcases h.get?_eq_or_output hgen s with hsame | ⟨_, houtput, -⟩
    · exact ⟨text, (Files.textOf_congr hsame).symm.trans htext⟩
    · cases houtput with
      | rewritten hinput => exact ⟨_, hinput⟩
      | discriminator _ _ hinput => exact ⟨_, hinput⟩
  have horder := hshape.tellsOrder hplain harea hinput
  -- A source that is not typed keeps its text.
  have hkept : (∀ text, ¬Patch.discriminators.Output layout root fs s text) → text = input :=
    fun hnone => Option.some.inj (htext.symm.trans ((h.textOf_of_not_output hgen hnone).trans hinput))
  cases himplementation : s.isImplementation with
  | true =>
    obtain rfl := hkept fun text houtput => by
      cases himplementation.symm.trans houtput.isImplementation_eq_false
    exact ⟨horder, fun hfalse => (Bool.false_ne_true (hfalse.symm.trans himplementation)).elim,
      fun _ => hinput⟩
  | false =>
    have hnot : s.isImplementation = true → fs.textOf (s.location root) = some text := fun htrue =>
      (Bool.false_ne_true (himplementation.symm.trans htrue)).elim
    cases hliteral : hasDiscriminatorLiteral input with
    | false =>
      obtain rfl := hkept fun text houtput => by
        cases houtput with
        | rewritten _ hselects => cases hselects
        | discriminator _ _ hinput' hliteral' =>
          obtain rfl := Option.some.inj (hinput.symm.trans hinput')
          cases hliteral.symm.trans hliteral'
      exact ⟨horder, fun _ htrue => (Bool.false_ne_true (hliteral.symm.trans htrue)).elim, hnot⟩
    | true =>
      have hs : s ∈ fs.sources layout .model :=
        hgen.mem_sources.2 ⟨harea, harea ▸ hdir, isSome_contentsAt_of_textOf hinput⟩
      obtain ⟨implementation, type, hread, htype, hafter⟩ : ∃ implementation type,
          fs.textOf (s.implementation.location root) = some implementation ∧
            discriminatorType? implementation = some type ∧
            (isCustomType (String.ofList type) = true →
              fs'.textOf (s.location root) = some (patchDiscriminator type s.stem.toList input)) := by
        obtain ⟨host, files, host', rfl, rfl, hexec⟩ := h
        exact Patch.discriminators_ok hgen hexec hs himplementation hinput hliteral
      cases hcustom : isCustomType (String.ofList type) with
      | false =>
        obtain rfl := hkept fun text houtput => by
          cases houtput with
          | rewritten _ hselects => cases hselects
          | discriminator _ _ _ _ hread' htype' hcustom' =>
            obtain rfl := Option.some.inj (hread.symm.trans hread')
            obtain rfl := Option.some.inj (htype.symm.trans htype')
            cases hcustom.symm.trans hcustom'
        exact ⟨horder, fun _ _ => ⟨implementation, hread, knowsBuiltin_iff.2 ⟨type, htype, hcustom⟩⟩,
          hnot⟩
      | true =>
        obtain rfl := Option.some.inj (htext.symm.trans (hafter hcustom))
        obtain ⟨hunannotated, hunjoined⟩ := (hplain.text s.implementation implementation
          hread).type ((Source.area_implementation s).trans harea) type htype
        obtain ⟨-, field, rfl⟩ := discriminatorType?_eq_some_iff.1 htype
        have hnewline : '\n' ∉ fieldType field.line := fun hmem =>
          not_mem_of_mem_lines field.line_mem
            (List.drop_subset _ _ ((List.takeWhile_prefix _).subset hmem))
        have hstring : fieldType field.line ≠ "String".toList := by
          intro heq
          rw [heq] at hcustom
          exact absurd hcustom (by decide)
        have hnone : hasDiscriminatorLiteral
            (patchDiscriminator (fieldType field.line) s.stem.toList input) = false :=
          hasDiscriminatorLiteral_patchDiscriminator horder.plain ((hshape.text s input hinput).literal harea)
            (space_not_mem_fieldType _) hnewline hstring
        exact ⟨horder.patchDiscriminator hunannotated hunjoined hnewline,
          fun _ htrue => (Bool.false_ne_true (hnone.symm.trans htrue)).elim, hnot⟩

/-- What the patch for values makes of a source. -/
theorem exists_of_enumValues (hgen : Generated layout root fs) (h : Patch.enumValues.Turns layout fs fs')
    (harea : s.area = .model) (hdir : fs.isDirectory (s.area.path layout) = true)
    (htext : fs'.textOf (s.location root) = some text) :
    ∃ input, fs.textOf (s.location root) = some input ∧
      text = if declaresEnum input then patchEnum input else input := by
  obtain ⟨input, hinput⟩ : ∃ input, fs.textOf (s.location root) = some input := by
    rcases h.get?_eq_or_output hgen s with hsame | ⟨_, houtput, -⟩
    · exact ⟨text, (Files.textOf_congr hsame).symm.trans htext⟩
    · cases houtput with
      | rewritten hinput => exact ⟨_, hinput⟩
  refine ⟨input, hinput, ?_⟩
  have hs : s ∈ fs.sources layout .model :=
    hgen.mem_sources.2 ⟨harea, harea ▸ hdir, isSome_contentsAt_of_textOf hinput⟩
  cases henum : declaresEnum input with
  | true =>
    obtain ⟨host, files, host', rfl, rfl, hexec⟩ := h
    exact Option.some.inj (htext.symm.trans (Patch.enumValues_ok hgen hexec hs hinput henum))
  | false =>
    have hnone : ∀ text, ¬Patch.enumValues.Output layout root fs s text := by
      intro text houtput
      cases houtput with
      | rewritten hinput' hselects =>
        obtain rfl := Option.some.inj (hinput.symm.trans hinput')
        rw [Patch.selects, henum, Bool.and_false] at hselects
        cases hselects
    exact Option.some.inj (htext.symm.trans ((h.textOf_of_not_output hgen hnone).trans hinput))

/-- What the stream classes leave: a stream class, or what was there. -/
theorem exists_of_streams (hgen : Generated layout root fs) (h : Patch.streams.Turns layout fs fs')
    (htext : fs'.textOf (s.location root) = some text) :
    (∃ implementation : Source, (fs.contentsAt (implementation.location root)).isSome = true ∧
      implementation.area = .model ∧ implementation.isImplementation = true ∧
      s = implementation.stream ∧
      text = streamClass layout.modelPackage s.stem implementation.stem) ∨
      fs.textOf (s.location root) = some text := by
  rcases h.get?_eq_or_output hgen s with hsame | ⟨output, houtput, hafter⟩
  · exact .inr ((Files.textOf_congr hsame).symm.trans htext)
  · obtain rfl := Option.some.inj (htext.symm.trans hafter)
    cases houtput with
    | rewritten _ hselects => cases hselects
    | stream hs harea himplementation hfile => exact .inl ⟨_, hfile, harea, himplementation, hs, rfl⟩

/-! ### The patches that rewrite -/

/-- The patches between those for model types and those for constants. -/
def Patch.middle : List Patch :=
  [.jakartaImports, .boxedTypes, .fileResponses, .dates, .responseDelegate, .responseTypes]

theorem Patch.middle_subset : middle ⊆ rewriting := by
  decide

/-- What a patch makes of a text that it selects. -/
theorem Patch.Becomes.of_selects (h : Patch.Becomes layout s patch input text)
    (hselects : patch.selects s input = true) : patch.rewritten layout s input = .ok text := by
  rwa [Becomes, if_pos hselects] at h

theorem Patch.Becomes.of_not_selects (h : Patch.Becomes layout s patch input text)
    (hselects : patch.selects s input = false) : text = input := by
  rwa [Becomes, if_neg (by simp [hselects])] at h

/-- File responses are streamed where the file class is imported, which a source asks itself too. -/
theorem Patch.Becomes.fileResponses (h : Patch.Becomes layout s .fileResponses input text)
    (harea : s.area = .resources) : text = patchFileResponses input := by
  cases himports : importsFile input with
  | true =>
    exact (Except.ok.inj (h.of_selects (by rw [selects, harea, himports]; rfl))).symm
  | false =>
    rw [h.of_not_selects (by rw [selects, himports, Bool.and_false]), patchFileResponses, himports]
    rfl

theorem Patch.Becomes.dates (h : Patch.Becomes layout s .dates input text)
    (harea : s.area ≠ .support) : text = patchDatesIf s.dated input := by
  have hselects : Patch.dates.selects s input = s.dated := by
    rw [selects, Source.dated]
    simp [harea]
  cases hdated : s.dated with
  | true => exact (Except.ok.inj (h.of_selects (hselects.trans hdated))).symm
  | false => exact h.of_not_selects (hselects.trans hdated)

namespace Patch.BecomesAll

/-- What these patches make of a model source. -/
theorem model (harea : s.area = .model) (h : BecomesAll layout s middle input text) :
    text = patchDatesIf s.dated (boxPrimitives input) := by
  obtain ⟨_, h₁, _, h₂, _, h₃, _, h₄, _, h₅, _, h₆, rfl⟩ := h
  rw [h₆.of_not_selects (by simp [selects, harea]), h₅.of_not_selects (by simp [selects, harea]),
    h₄.dates (by simp [harea]), h₃.of_not_selects (by simp [selects, harea]),
    ← Except.ok.inj (h₂.of_selects (by simp [selects, harea])),
    h₁.of_not_selects (by simp [selects, harea])]

/-- What they make of a resource. -/
theorem resource (harea : s.area = .resources) (h : BecomesAll layout s middle input text) :
    text = patchResponseTypes (patchDatesIf s.dated (patchFileResponses (boxPrimitives
      (patchImports input)))) := by
  obtain ⟨_, h₁, _, h₂, _, h₃, _, h₄, _, h₅, _, h₆, rfl⟩ := h
  rw [← Except.ok.inj (h₆.of_selects (by simp [selects, harea])),
    h₅.of_not_selects (by simp [selects, harea]), h₄.dates (by simp [harea]),
    h₃.fileResponses harea, ← Except.ok.inj (h₂.of_selects (by simp [selects, harea])),
    ← Except.ok.inj (h₁.of_selects (by simp [selects, harea]))]

/-- What they make of a base class. -/
theorem support (harea : s.area = .support) (h : BecomesAll layout s middle input text) :
    text = if s.stem = "ResponseDelegate" then patchResponseDelegate (patchImports input)
      else patchImports input := by
  obtain ⟨_, h₁, _, h₂, _, h₃, _, h₄, _, h₅, _, h₆, rfl⟩ := h
  have himports := Except.ok.inj (h₁.of_selects (by simp [selects, harea]))
  have hkept := h₄.of_not_selects (by simp [selects, harea])
  rw [h₃.of_not_selects (by simp [selects, harea]), h₂.of_not_selects (by simp [selects, harea]),
    ← himports] at hkept
  rw [h₆.of_not_selects (by simp [selects, harea])]
  split
  · rename_i hstem
    rw [← Except.ok.inj (h₅.of_selects (by simp [selects, harea, hstem])), hkept]
  · rename_i hstem
    rw [h₅.of_not_selects (by simp [selects, hstem]), hkept]

end Patch.BecomesAll

namespace Turned

variable (h : Turned layout Patch.middle fs fs') (hgen : Generated layout root fs)
include h hgen

/-- The models are listed to be boxed, and can be listed after that. -/
theorem exists_list_model (hdir : fs'.isDirectory (Area.model.path layout) = true) :
    ∃ entries, fs'.list (Area.model.path layout) = .ok entries := by
  obtain ⟨moved, hmoved, hrest⟩ := h
  have hgen₁ := hmoved.generated hgen
  have hpatched := hrest.patched hgen₁
  have hgen' := hrest.generated hgen₁
  have hdir₁ := (hpatched.isDirectory_area hgen₁ hgen').symm.trans hdir
  obtain ⟨boxed, hboxed, -⟩ := hrest
  exact hpatched.exists_list hgen₁ hgen' (hboxed.exists_list_model hdir₁)

/-- They are read to be boxed, and can be read after that. -/
theorem exists_textAt_model (hs : s ∈ fs'.sources layout .model) :
    ∃ text, textAt fs' (s.path layout) = .ok (some text) := by
  obtain ⟨moved, hmoved, boxed, hboxed, hrest⟩ := h
  have hgen₁ := hmoved.generated hgen
  have hgen₂ := hboxed.generated hgen₁
  have hgen' := hrest.generated hgen₂
  obtain ⟨harea, hdir, hsome⟩ := hgen'.mem_sources.1 hs
  have hlast : Turned layout (.boxedTypes :: [.fileResponses, .dates, .responseDelegate, .responseTypes])
      moved fs' := ⟨boxed, hboxed, hrest⟩
  have hconcerns : Patch.boxedTypes.Concerns root moved s := by
    refine .inr ⟨hlast.isSome_of_rewriting hgen₁ (by decide) hsome, fun input => ?_⟩
    rw [Patch.selects, harea]
    rfl
  have hdir₁ := (hlast.isDirectory_area hgen₁).symm.trans hdir
  exact (hrest.patched hgen₂).exists_textAt hgen₂ hgen'
    (hboxed.exists_textAt hgen₁ (by decide) (harea ▸ hdir₁) hconcerns)

end Turned

/-! ### Stream classes -/

/-- The lines of a stream class are left by all patches. -/
theorem writtenLine_stream (hpackage : IsPackage layout.projectPackage)
    (hstem : ∀ c ∈ s.stem.toList, isAsciiWordChar c) (himplementation : s.isImplementation = true) :
    ∀ line ∈ streamLines layout.modelPackage s.stream.stem s.stem, WrittenLine line := by
  have hword : IsWord s.stem.toList := fun c hc => isWordChar_of_isAsciiWordChar (hstem c hc)
  have hstream : IsWord s.stream.stem.toList := by
    intro c hc
    rw [Source.stem_stream, String.toList_append, List.mem_append] at hc
    rcases hc with hc | hc
    · rw [Source.base, String.toList_ofList] at hc
      exact hword c (List.mem_of_mem_take hc)
    · have hall : IsWord "Stream".toList := by decide +kernel
      exact hall c hc
  -- No type is named like an implementation or like a stream class.
  have hends : ∀ {ending name : List Char}, ending <:+ name →
      (oldDate :: primitives).all (!ending.isSuffixOf ·) = true → name ∉ oldDate :: primitives := by
    intro ending name hsuffix hnone hmem
    have hnot := List.all_eq_true.1 hnone name hmem
    rw [List.isSuffixOf_iff_suffix.2 hsuffix] at hnot
    cases hnot
  have hbreak : ∀ {name : List Char}, IsWord name → '\n' ∉ name := fun hname hmem =>
    Bool.false_ne_true (hname '\n' hmem)
  refine writtenLine_streamLines hpackage
    (tellsNoType_of_isWord hstream (hends (?_ : "Stream".toList <:+ _) rfl)) (hbreak hstream)
    (tellsNoType_of_isWord hword (hends (?_ : "Impl".toList <:+ _) rfl)) (hbreak hword)
  · rw [Source.stem_stream, String.toList_append]
    exact List.suffix_append _ _
  · exact endsWith_iff.1 himplementation

/-- So is the class. -/
theorem patchDatesIf_boxPrimitives_eq_self {ls : List Line} (h : ∀ line ∈ ls, WrittenLine line)
    (dates : Bool) : patchDatesIf dates (boxPrimitives (ofLines ls)) = ofLines ls := by
  have hsettled := WrittenLine.settledModel h dates
  rw [hsettled.boxPrimitives_eq, hsettled.patchDatesIf_eq]

/-! ### Trees that are ready -/

/-- A tree whose model sources are ready for constants. -/
structure ReadyTree (layout : Layout) (root : Location) (fs : Files) : Prop where
  generated : Generated layout root fs
  package : IsPackage layout.projectPackage
  listed : fs.isDirectory (Area.model.path layout) = true →
    ∃ entries, fs.list (Area.model.path layout) = .ok entries
  legible : ∀ s ∈ fs.sources layout .model, ∃ text, textAt fs (s.path layout) = .ok (some text)
  ready : ∀ s ∈ fs.sources layout .model,
    ∃ ls, fs.textOf (s.location root) = some (ofLines ls) ∧ ReadyModel s.dated ls
  /-- What is a literal belongs to a builtin type. -/
  builtin : ∀ s ∈ fs.sources layout .model, s.isImplementation = false → ∀ input,
    fs.textOf (s.location root) = some input → hasDiscriminatorLiteral input = true →
      ∃ implementation, fs.textOf (s.implementation.location root) = some implementation ∧
        knowsBuiltin implementation = true
  streamed : ∀ s ∈ fs.sources layout .model, s.isImplementation = true →
    fs.textOf (s.stream.location root) =
        some (streamClass layout.modelPackage s.stream.stem s.stem) ∧
      ∀ line ∈ streamLines layout.modelPackage s.stream.stem s.stem, WrittenLine line
  noImplementation : fs.contentsAt (Source.jsonField.implementation.location root) = none

section Opening

variable {fs₁ fs₂ fs₃ fs₄ : Files} (hshape : Shaped layout root fs)
  (hplain : Unmistakable layout root fs) (h₁ : Patch.discriminators.Turns layout fs fs₁)
  (h₂ : Patch.enumValues.Turns layout fs₁ fs₂) (h₃ : Patch.streams.Turns layout fs₂ fs₃)
  (h₄ : Turned layout Patch.middle fs₃ fs₄)
include hshape hplain h₁ h₂ h₃ h₄

/-- The text of a model source: a stream class, or what the patches make of a source whose
discriminator is typed. -/
theorem exists_modelLines (harea : s.area = .model)
    (hdir : fs.isDirectory (Area.model.path layout) = true)
    (htext : fs₄.textOf (s.location root) = some text) :
    (∃ ls, text = ofLines ls ∧ (∀ line ∈ ls, WrittenLine line) ∧ s.isImplementation = false) ∨
      ∃ source, TypedModel root fs s source ∧ text = ofLines (modelLines s.dated (lines source)) := by
  have hgen := hshape.generated
  have hgen₁ := h₁.generated hgen
  have hgen₂ := h₂.generated hgen₁
  have hgen₃ := h₃.generated hgen₂
  have hdir₁ := ((h₁.patched hgen).isDirectory_area hgen hgen₁).trans hdir
  have hdir₂ := ((h₂.patched hgen₁).isDirectory_area hgen₁ hgen₂).trans hdir₁
  have hdir₃ := ((h₃.patched hgen₂).isDirectory_area hgen₂ hgen₃).trans hdir₂
  obtain ⟨opened, hopened⟩ := h₄.exists_input hgen₃ Patch.middle_subset htext
  obtain ⟨text', htext', hbecomes⟩ :=
    h₄.becomes hgen₃ Patch.middle_subset (harea ▸ hdir₃) hopened
  obtain rfl := Option.some.inj (htext.symm.trans htext')
  rw [hbecomes.model harea]
  rcases exists_of_streams hgen₂ h₃ hopened with
    ⟨implementation, hsome, harea', himplementation, rfl, rfl⟩ | hopened₂
  · have hopened : Turned layout [.discriminators, .enumValues] fs fs₂ := ⟨fs₁, h₁, fs₂, h₂, rfl⟩
    have hsome₁ := hopened.isSome_of_isImplementation hgen himplementation hsome
    have hlines := writtenLine_stream (hshape.isPackage hplain) (hshape.stem _ hsome₁) himplementation
    exact .inl ⟨_, patchDatesIf_boxPrimitives_eq_self hlines _, hlines,
      implementation.isImplementation_stream⟩
  · obtain ⟨source, hsource, rfl⟩ := exists_of_enumValues hgen₁ h₂ harea (harea ▸ hdir₁) hopened₂
    have htyped := typedModel_of_discriminators hshape hplain h₁ harea (harea ▸ hdir) hsource
    exact .inr ⟨source, htyped, patchDatesIf_boxPrimitives_eq htyped.order.plain⟩

/-- A model source can be read, and has one of these texts. -/
theorem exists_modelLines_of_mem (hs : s ∈ fs₄.sources layout .model) :
    ∃ text, textAt fs₄ (s.path layout) = .ok (some text) ∧ fs₄.textOf (s.location root) = some text ∧
      ((∃ ls, text = ofLines ls ∧ (∀ line ∈ ls, WrittenLine line) ∧ s.isImplementation = false) ∨
        ∃ source, TypedModel root fs s source ∧ text = ofLines (modelLines s.dated (lines source))) := by
  have hgen := hshape.generated
  have hopening : Turned layout (.discriminators :: .enumValues :: .streams :: Patch.middle) fs fs₄ :=
    ⟨fs₁, h₁, fs₂, h₂, fs₃, h₃, h₄⟩
  have hgen₄ := hopening.generated hgen
  obtain ⟨text, hread⟩ := h₄.exists_textAt_model (h₃.generated (h₂.generated (h₁.generated hgen))) hs
  have htext := hgen₄.textOf_of_textAt hread
  obtain ⟨harea, hdir, -⟩ := hgen₄.mem_sources.1 hs
  exact ⟨text, hread, htext, exists_modelLines hshape hplain h₁ h₂ h₃ h₄ harea
    ((hopening.isDirectory_area hgen).symm.trans hdir) htext⟩

/-- What is a literal belongs to a builtin type, as it did when discriminators were typed. -/
theorem exists_knowsBuiltin_of_turns (hs : s ∈ fs₄.sources layout .model)
    (himplementation : s.isImplementation = false) (hinput : fs₄.textOf (s.location root) = some input)
    (hliteral : hasDiscriminatorLiteral input = true) :
    ∃ implementation, fs₄.textOf (s.implementation.location root) = some implementation ∧
      knowsBuiltin implementation = true := by
  have hopening : Turned layout (.discriminators :: .enumValues :: .streams :: Patch.middle) fs fs₄ :=
    ⟨fs₁, h₁, fs₂, h₂, fs₃, h₃, h₄⟩
  have hgen₄ := hopening.generated hshape.generated
  obtain ⟨text, -, htext, hlines⟩ := exists_modelLines_of_mem hshape hplain h₁ h₂ h₃ h₄ hs
  obtain rfl := Option.some.inj (htext.symm.trans hinput)
  rcases hlines with ⟨ls, rfl, hls, -⟩ | ⟨source, htyped, rfl⟩
  · cases (WrittenLine.hasDiscriminatorLiteral_eq hls).symm.trans hliteral
  · rw [hasDiscriminatorLiteral_congr htyped.typingMarks?_eq] at hliteral
    obtain ⟨implementation, hread, hbuiltin⟩ := htyped.builtin himplementation hliteral
    obtain ⟨harea, hdir, -⟩ := hgen₄.mem_sources.1 hs
    have hs' : s.implementation ∈ fs₄.sources layout .model := hgen₄.mem_sources.2
      ⟨(Source.area_implementation s).trans harea, hdir,
        (hopening.patched hshape.generated).isSome_contentsAt (isSome_contentsAt_of_textOf hread)⟩
    obtain ⟨text, -, htext, hlines⟩ := exists_modelLines_of_mem hshape hplain h₁ h₂ h₃ h₄ hs'
    rcases hlines with ⟨-, -, -, hnot⟩ | ⟨source', htyped', rfl⟩
    · cases hnot.symm.trans s.isImplementation_implementation
    · obtain rfl := Option.some.inj (hread.symm.trans (htyped'.kept s.isImplementation_implementation))
      exact ⟨_, htext, (knowsBuiltin_congr htyped'.typingMarks?_eq).trans hbuiltin⟩

/-- An implementation has its stream class, and the other patches leave that. -/
theorem textOf_stream_of_turns (hs : s ∈ fs₄.sources layout .model) (himplementation : s.isImplementation = true) :
    fs₄.textOf (s.stream.location root) =
        some (streamClass layout.modelPackage s.stream.stem s.stem) ∧
      ∀ line ∈ streamLines layout.modelPackage s.stream.stem s.stem, WrittenLine line := by
  have hgen := hshape.generated
  have hopened : Turned layout [.discriminators, .enumValues] fs fs₂ := ⟨fs₁, h₁, fs₂, h₂, rfl⟩
  have hgen₂ := hopened.generated hgen
  have hgen₃ := h₃.generated hgen₂
  obtain ⟨harea, hdir, hsome⟩ := (h₄.generated hgen₃).mem_sources.1 hs
  have hrest : Turned layout (.streams :: Patch.middle) fs₂ fs₄ := ⟨fs₃, h₃, h₄⟩
  have hsome₂ := hrest.isSome_of_isImplementation hgen₂ himplementation hsome
  have hsome₀ := hopened.isSome_of_isImplementation hgen himplementation hsome₂
  have hdir₃ := (h₄.isDirectory_area hgen₃).symm.trans hdir
  have hdir₂ := ((h₃.patched hgen₂).isDirectory_area hgen₂ hgen₃).symm.trans hdir₃
  have hs₂ : s ∈ fs₂.sources layout .model := hgen₂.mem_sources.2 ⟨harea, hdir₂, hsome₂⟩
  have hstream : fs₃.textOf (s.stream.location root) =
      some (streamClass layout.modelPackage s.stream.stem s.stem) := by
    obtain ⟨host, files, host', rfl, rfl, hexec⟩ := h₃
    exact Patch.streams_ok hgen₂ hexec hs₂ himplementation
  have harea' : s.stream.area = .model := (Source.area_stream s).trans harea
  obtain ⟨text, htext, hbecomes⟩ := h₄.becomes hgen₃ Patch.middle_subset (harea'.symm ▸ hdir₃) hstream
  have hwritten := writtenLine_stream (hshape.isPackage hplain) (hshape.stem s hsome₀) himplementation
  rw [htext, hbecomes.model harea']
  exact ⟨congrArg some (patchDatesIf_boxPrimitives_eq_self hwritten _), hwritten⟩

theorem readyTree_of_turns : ReadyTree layout root fs₄ := by
  have hgen := hshape.generated
  have hopening : Turned layout (.discriminators :: .enumValues :: .streams :: Patch.middle) fs fs₄ :=
    ⟨fs₁, h₁, fs₂, h₂, fs₃, h₃, h₄⟩
  have hgen₃ := h₃.generated (h₂.generated (h₁.generated hgen))
  refine ⟨hopening.generated hgen, hshape.isPackage hplain, h₄.exists_list_model hgen₃,
    fun s hs => h₄.exists_textAt_model hgen₃ hs, fun s hs => ?_,
    fun s hs himplementation input hinput hliteral =>
      exists_knowsBuiltin_of_turns hshape hplain h₁ h₂ h₃ h₄ hs himplementation hinput hliteral,
    fun s hs himplementation =>
      textOf_stream_of_turns hshape hplain h₁ h₂ h₃ h₄ hs himplementation, ?_⟩
  · obtain ⟨text, -, htext, hlines⟩ := exists_modelLines_of_mem hshape hplain h₁ h₂ h₃ h₄ hs
    rcases hlines with ⟨ls, rfl, hls, -⟩ | ⟨source, htyped, rfl⟩
    · exact ⟨ls, htext, readyModel_of_writtenLine hls⟩
    · exact ⟨_, htext, readyModel_modelLines htyped.order⟩
  · rw [← Option.not_isSome_iff_eq_none]
    intro hsome
    have hsome₀ := hopening.isSome_of_isImplementation hgen
      (Source.isImplementation_implementation _) hsome
    rw [hshape.noImplementation] at hsome₀
    cases hsome₀

end Opening

end RamlBuild
