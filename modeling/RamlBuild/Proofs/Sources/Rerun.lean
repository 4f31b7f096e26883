import RamlBuild.Proofs.Sources.PointedTrees
import RamlBuild.Proofs.Sources.SettledSupport

/-!
# Running the patches again

After a run of all patches none of them has anything left to do: a second run only reads, and tells so
at each of its stages. For the models this holds because they are ready when they are pointed at
constants, for resources and base classes because each patch leaves lines that no patch touches.

All this rests on the shape of the sources, and on names that are not taken for types. A response class
with the name of a type is another class after its types were exchanged, and what ended its
constructors may be one of them then.

## Main results

* `finished_of_turned` — after a run of all patches the tree is finished
* `runPatches_again` — so a second run leaves every file as it is and skips each stage
* `reopened_dayFiles` — a response class that is named like a date is opened again by each run
-/

namespace RamlBuild

open Build Text

variable {layout : Layout} {root : Location} {fs fs' : Files} {s : Source} {patch : Patch}
  {input text : String} {ls : List Line}

/-! ### Resources and base classes -/

/-- A run of all patches falls into those for model types, those between them and those for
constants. -/
theorem Turned.exists_of_all (h : Turned layout Patch.all fs fs') :
    ∃ fs₁ fs₂ fs₃ fs₄ fs₅, Patch.discriminators.Turns layout fs fs₁ ∧
      Patch.enumValues.Turns layout fs₁ fs₂ ∧ Patch.streams.Turns layout fs₂ fs₃ ∧
      Turned layout Patch.middle fs₃ fs₄ ∧ Patch.fieldConstants.Turns layout fs₄ fs₅ ∧
      Patch.urlConstants.Turns layout fs₅ fs' := by
  have hall : Patch.all = .discriminators :: .enumValues :: .streams ::
      (Patch.middle ++ [.fieldConstants, .urlConstants]) := rfl
  rw [hall] at h
  obtain ⟨fs₁, h₁, fs₂, h₂, fs₃, h₃, h⟩ := h
  obtain ⟨fs₄, h₄, fs₅, h₅, fs₆, h₆, hlast⟩ := turned_append_iff.1 h
  obtain rfl : fs' = fs₆ := hlast
  exact ⟨fs₁, fs₂, fs₃, fs₄, fs₅, h₁, h₂, h₃, h₄, h₅, h₆⟩

section Others

variable {area : Area} (hgen : Generated layout root fs) (h : Turned layout Patch.all fs fs')
include hgen h

/-- A source that is no model can be read in the end, and has what the patches for such sources make
of it. -/
theorem exists_of_area_ne_model (harea : s.area ≠ .model)
    (hdir : fs.isDirectory (s.area.path layout) = true)
    (hsome : (fs'.contentsAt (s.location root)).isSome = true) :
    (∃ text, textAt fs' (s.path layout) = .ok (some text)) ∧
      ∃ input text, fs.textOf (s.location root) = some input ∧
        Patch.BecomesAll layout s Patch.middle input text ∧
        ∃ output, fs'.textOf (s.location root) = some output ∧
          Patch.Becomes layout s .urlConstants text output := by
  obtain ⟨fs₁, fs₂, fs₃, fs₄, fs₅, h₁, h₂, h₃, h₄, h₅, h₆⟩ := h.exists_of_all
  have hgen₁ := h₁.generated hgen
  have hgen₂ := h₂.generated hgen₁
  have hgen₃ := h₃.generated hgen₂
  have hgen₄ := h₄.generated hgen₃
  have hgen₅ := h₅.generated hgen₄
  have hgen₆ := h₆.generated hgen₅
  have hpatched := ((h₁.patched hgen).trans (h₂.patched hgen₁)).trans (h₃.patched hgen₂)
  have hpatched₅ := (hpatched.trans (h₄.patched hgen₃)).trans (h₅.patched hgen₄)
  -- The patches for model types and their constants write nothing in other areas, so those between
  -- them find the source as it was, and those at the end what these made of it.
  have hapart : ∀ {patch : Patch} {before : Files}, patch ∈ [.discriminators, .enumValues, .streams,
      .fieldConstants] → ∀ text, ¬patch.Output layout root before s text := fun hpatch text houtput =>
    harea (houtput.area_eq_model hpatch)
  have hkept₃ : fs₃.get? (s.location root) = fs.get? (s.location root) :=
    (h₃.get?_of_not_output hgen₂ (hapart (by decide))).trans <|
      (h₂.get?_of_not_output hgen₁ (hapart (by decide))).trans <|
        h₁.get?_of_not_output hgen (hapart (by decide))
  have hkept₅ : fs₅.get? (s.location root) = fs₄.get? (s.location root) :=
    h₅.get?_of_not_output hgen₄ (hapart (by decide))
  have hdir₃ : fs₃.isDirectory (s.area.path layout) = true :=
    (hpatched.isDirectory_area hgen hgen₃).trans hdir
  have hdir₅ : fs₅.isDirectory (s.area.path layout) = true :=
    (hpatched₅.isDirectory_area hgen hgen₅).trans hdir
  have hlast : Turned layout [.urlConstants] fs₅ fs' := ⟨fs', h₆, rfl⟩
  have hsome₅ := hlast.isSome_of_rewriting hgen₅ (by decide) hsome
  rw [Files.contentsAt, hkept₅] at hsome₅
  have hsome₃ := h₄.isSome_of_rewriting hgen₃ Patch.middle_subset hsome₅
  obtain ⟨moved, hmoved, hrest⟩ := h₄
  have h₄ : Turned layout Patch.middle fs₃ fs₄ := ⟨moved, hmoved, hrest⟩
  have hconcerns : Patch.jakartaImports.Concerns root fs₃ s :=
    .inr ⟨hsome₃, fun input => by simp [Patch.selects, harea]⟩
  have hread := hmoved.exists_textAt hgen₃ (by decide) hdir₃ hconcerns
  have hgen' := hmoved.generated hgen₃
  have hlast := ((hrest.patched hgen').trans (h₅.patched hgen₄)).trans (h₆.patched hgen₅)
  obtain ⟨input, hinput⟩ : ∃ input, fs₃.textOf (s.location root) = some input :=
    hmoved.exists_input hgen₃ (by decide) (hgen'.textOf_of_textAt hread.choose_spec)
  obtain ⟨text, htext, hbecomes⟩ := h₄.becomes hgen₃ Patch.middle_subset hdir₃ hinput
  obtain ⟨output, houtput, hurl⟩ := h₆.becomes hgen₅ (by decide) hdir₅
    ((Files.textOf_congr hkept₅).trans htext)
  exact ⟨hlast.exists_textAt hgen' hgen₆ hread, input, text,
    (Files.textOf_congr hkept₃).symm.trans hinput, hbecomes, output, houtput, hurl⟩

/-- The directories of the resources and of the base classes can be listed in the end. -/
theorem exists_list_of_area_ne_model (harea : area ≠ .model)
    (hdir : fs'.isDirectory (area.path layout) = true) :
    ∃ entries, fs'.list (area.path layout) = .ok entries := by
  obtain ⟨fs₁, fs₂, fs₃, fs₄, fs₅, h₁, h₂, h₃, h₄, h₅, h₆⟩ := h.exists_of_all
  have hgen₃ := h₃.generated (h₂.generated (h₁.generated hgen))
  have hgen₄ := h₄.generated hgen₃
  have hgen₅ := h₅.generated hgen₄
  have hgen₆ := h₆.generated hgen₅
  have hpatched := ((h₄.patched hgen₃).trans (h₅.patched hgen₄)).trans (h₆.patched hgen₅)
  obtain ⟨moved, hmoved, -⟩ := h₄
  exact hpatched.exists_list hgen₃ hgen₆ (hmoved.exists_list_of_ne_model harea
    ((hpatched.isDirectory_area hgen₃ hgen₆).symm.trans hdir))

end Others

/-- The lines of a resource are settled. -/
theorem exists_settledResource_of_becomes {output : String} (hshape : Shaped layout root fs)
    (hplain : Unmistakable layout root fs) (harea : s.area = .resources)
    (hinput : fs.textOf (s.location root) = some input)
    (hmiddle : Patch.BecomesAll layout s Patch.middle input text)
    (hurl : Patch.Becomes layout s .urlConstants text output) :
    ∃ ls, output = ofLines ls ∧ SettledResource s.dated ls := by
  have htext := hurl.of_selects (by simp [Patch.selects, harea])
  rw [hmiddle.resource harea, Patch.rewritten] at htext
  have hclose := ((hshape.text s input hinput).responses harea).exchanged
    ((hplain.text s input hinput).response harea) s.dated
  cases hinject : injectUrlConstants (patchResponseTypes (patchDatesIf s.dated
      (patchFileResponses (boxPrimitives (patchImports input))))) (s.path layout) with
  | error error =>
    rw [hinject] at htext
    cases htext
  | ok result =>
    rw [hinject] at htext
    obtain rfl := Except.ok.inj htext
    exact exists_settledResource (hshape.isPlainLine hinput) hclose hinject

/-! ### Trees that the patches leave finished -/

/-- What a patch selects of the resources it leaves as it is. -/
theorem SettledResource.rewritten_eq (h : SettledResource s.dated ls) (harea : s.area = .resources)
    (hselects : patch.selects s (ofLines ls) = true) :
    patch.rewritten layout s (ofLines ls) = .ok (ofLines ls) := by
  cases patch with
  | jakartaImports => exact congrArg Except.ok h.patchImports_eq
  | boxedTypes => exact congrArg Except.ok h.boxPrimitives_eq
  | fileResponses =>
    cases h.importsFile_eq.symm.trans (Bool.and_eq_true_iff.1 hselects).2
  | dates =>
    have hdated : s.dated = true := (Bool.and_eq_true_iff.1 hselects).2
    have hkept := h.patchDatesIf_eq
    rw [patchDatesIf, hdated, if_pos rfl] at hkept
    exact congrArg Except.ok hkept
  | responseTypes => exact congrArg Except.ok h.patchResponseTypes_eq
  | urlConstants => exact congrArg (Except.mapError Cause.shape) (h.injectUrlConstants_eq _)
  | discriminators | streams | fieldConstants => cases hselects
  | enumValues | responseDelegate => simp [Patch.selects, harea] at hselects

/-- What a patch selects of the base classes it leaves as it is. -/
theorem rewritten_eq_of_support {source : String} (hplain : ∀ line ∈ lines source, IsPlainLine line)
    (harea : s.area = .support) (hmiddle : Patch.BecomesAll layout s Patch.middle source text)
    (hselects : patch.selects s text = true) : patch.rewritten layout s text = .ok text := by
  obtain rfl := hmiddle.support harea
  cases patch with
  | jakartaImports =>
    refine congrArg Except.ok ?_
    split
    · exact patchImports_patchResponseDelegate hplain
    · exact patchImports_again hplain
  | responseDelegate =>
    have hstem : s.stem = "ResponseDelegate" := by simpa [Patch.selects, harea] using hselects
    rw [if_pos hstem]
    exact congrArg Except.ok (patchResponseDelegate_again hplain)
  | discriminators | streams | fieldConstants => cases hselects
  | enumValues | boxedTypes | fileResponses | dates | responseTypes | urlConstants =>
    simp [Patch.selects, harea] at hselects

/-- The resources and the base classes can be read, and no patch has anything left to do on them. -/
theorem fixed_of_area_ne_model (hshape : Shaped layout root fs) (hplain : Unmistakable layout root fs)
    (h : Turned layout Patch.all fs fs') (hs : s ∈ fs'.sources layout s.area) (harea : s.area ≠ .model) :
    (∃ text, textAt fs' (s.path layout) = .ok (some text)) ∧
      ∀ (patch : Patch) input, fs'.textOf (s.location root) = some input →
        patch.selects s input = true → patch.rewritten layout s input = .ok input := by
  have hgen := hshape.generated
  obtain ⟨-, hdir, hsome⟩ := (h.generated hgen).mem_sources.1 hs
  obtain ⟨hread, input, text, hinput, hmiddle, output, houtput, hurl⟩ :=
    exists_of_area_ne_model hgen h harea ((h.isDirectory_area hgen).symm.trans hdir) hsome
  refine ⟨hread, fun patch after hafter hselects => ?_⟩
  obtain rfl := Option.some.inj (houtput.symm.trans hafter)
  cases hcases : s.area with
  | model => exact absurd hcases harea
  | resources =>
    obtain ⟨ls, rfl, hsettled⟩ :=
      exists_settledResource_of_becomes hshape hplain hcases hinput hmiddle hurl
    exact hsettled.rewritten_eq hcases hselects
  | support =>
    obtain rfl := hurl.of_not_selects (by simp [Patch.selects, hcases])
    exact rewritten_eq_of_support (hshape.isPlainLine hinput) hcases hmiddle hselects

/-- A run of all patches leaves a tree that is finished. -/
theorem finished_of_turned (hshape : Shaped layout root fs) (hplain : Unmistakable layout root fs)
    (h : Turned layout Patch.all fs fs') : Finished layout root fs' := by
  obtain ⟨fs₁, fs₂, fs₃, fs₄, fs₅, h₁, h₂, h₃, h₄, h₅, h₆⟩ := h.exists_of_all
  have hready := readyTree_of_turns hshape hplain h₁ h₂ h₃ h₄
  have hpointed := pointedTree_of_turns hready h₅ h₆
  have hgen' := hpointed.generated
  refine ⟨hgen', fun area hdir => ?_, fun s hs => ?_, fun patch s hs input hinput hselects => ?_,
    fun s hs hinterface input hinput hliteral =>
      hpointed.exists_knowsBuiltin hready hs hinterface hinput hliteral,
    fun s hs himplementation => hpointed.textOf_stream hready hs himplementation, fun s hs => ?_,
    fun hsome => hpointed.textOf_jsonField hready hsome,
    fun s hs input hinput => hpointed.patchJsonProperties_eq hready hs hinput⟩
  · by_cases harea : area = .model
    · subst harea
      exact hpointed.patched.exists_list hready.generated hgen'
        (hready.listed ((hpointed.isDirectory_area hready).symm.trans hdir))
    · exact exists_list_of_area_ne_model hshape.generated h harea hdir
  · by_cases harea : s.area = .model
    · exact hpointed.exists_textAt hready (harea ▸ hs)
    · exact (fixed_of_area_ne_model hshape hplain h hs harea).1
  · by_cases harea : s.area = .model
    · exact hpointed.rewritten_eq hready (harea ▸ hs) hinput hselects
    · exact (fixed_of_area_ne_model hshape hplain h hs harea).2 patch input hinput hselects
  · have hpaired := hpointed.isPaired hready hs
    rw [Files.IsPaired] at hpaired
    cases himplementation : s.isImplementation with
    | true =>
      rw [himplementation, if_pos rfl] at hpaired
      rw [if_pos rfl]
      exact hpaired
    | false =>
      rw [himplementation, if_neg Bool.false_ne_true] at hpaired
      rw [if_neg Bool.false_ne_true]
      refine hpaired.imp_right ?_
      rintro ⟨text, htext, hdeclares⟩ input hinput
      rwa [Option.some.inj (hinput.symm.trans htext)]

/-! ### Runs that come again -/

/-- Patches that are applied to a finished tree only read, and each tells that it changed nothing. -/
theorem Finished.exists_applyEach (h : Finished layout root fs) (patches : List Patch) {host : Host}
    (hfiles : host.files = fs) (hquiet : ∀ n, host.faults n = none) :
    ∃ stages host', exec (applyEach layout patches) host = (.ok stages, host') ∧
      OnlyReads host host' ∧
      stages.map (·.untimed) =
        patches.map fun patch => (patch.name, .skipped "nothing to change") := by
  induction patches generalizing host with
  | nil => exact ⟨[], host, rfl, chains_onlyReads.refl host, rfl⟩
  | cons patch rest ih =>
    obtain ⟨host₁, happly, hreads⟩ := (h.answers_applyTo patch).within host hfiles hquiet
    obtain ⟨stages, host', hrest, hreads', htold⟩ :=
      ih (hreads.files_eq.trans hfiles) (hreads.faults_eq ▸ hquiet)
    refine ⟨⟨patch.name, host₁.now, patchResult layout []⟩ :: stages, host', ?_,
      chains_onlyReads.trans hreads hreads', ?_⟩
    · rw [exec_applyEach_cons, Patch.apply, happly]
      simp only [hrest]
      rfl
    · rw [List.map_cons, List.map_cons, htold]
      rfl

/-- An enum, a resource and a base class. -/
def kindsFiles : Files where
  entries :=
    [(["demo"], .directory 0o755), (["demo", "generated"], .directory 0o755),
      (["demo", "generated", "model"], .directory 0o755),
      (["demo", "generated", "model", "Kind.java"],
        .file "public enum Kind\n  int size;\n".toUTF8 0o644 none),
      (["demo", "generated", "resources"], .directory 0o755),
      (["demo", "generated", "resources", "Kinds.java"],
        .file "@Path(\"/\")\npublic interface Kinds\n  class All\n".toUTF8 0o644 none),
      (["demo", "generated", "support"], .directory 0o755),
      (["demo", "generated", "support", "ResponseDelegate.java"],
        .file "protected Status status;\n".toUTF8 0o644 none)]
  workingDirectory := []

theorem shaped_kindsFiles : Shaped ticketLayout ["demo", "generated"] kindsFiles := by
  have hgen : Generated ticketLayout ["demo", "generated"] kindsFiles :=
    generated_of_entries (by decide +kernel) (by decide +kernel) (by decide +kernel)
      (by decide +kernel) (by decide +kernel)
  exact shaped_of_placedSources hgen (by decide +kernel) (by decide +kernel) (by decide +kernel)
    (by decide +kernel)

/-- What a run of all patches makes of a resource. -/
theorem exists_resource_of_turned (hgen : Generated layout root fs)
    (h : Turned layout Patch.all fs fs') (harea : s.area = .resources)
    (hdir : fs.isDirectory (s.area.path layout) = true)
    (hinput : fs.textOf (s.location root) = some input) :
    ∃ output, fs'.textOf (s.location root) = some output ∧
      (injectUrlConstants (patchResponseTypes (patchDatesIf s.dated (patchFileResponses
        (boxPrimitives (patchImports input))))) (s.path layout)).mapError Cause.shape = .ok output := by
  have hsome := (h.patched hgen).isSome_contentsAt (isSome_contentsAt_of_textOf hinput)
  obtain ⟨-, input', text, hinput', hmiddle, output, houtput, hurl⟩ :=
    exists_of_area_ne_model hgen h (by simp [harea]) hdir hsome
  obtain rfl := Option.some.inj (hinput.symm.trans hinput')
  have hwritten := hurl.of_selects (by simp [Patch.selects, harea])
  rw [hmiddle.resource harea, Patch.rewritten] at hwritten
  exact ⟨output, houtput, hwritten⟩

/-- The lines of a resource when their dates are replaced and their response classes are opened. -/
def openedResource (dates : Bool) (ls : List Line) : List Line :=
  openedLines (ls.flatMap (patchDateLineIf dates))

/-- Lines of a resource that has its constants, with no import to move and nothing to box. -/
structure IsBoxedResource (ls : List Line) : Prop where
  line : ∀ line ∈ ls, IsPlainLine line ∧ moveImport line = line ∧ boxLine line = line
  free : (ls.takeWhile (!startsWith "public " ·)).contains fileImport = false
  marked : ls.any ResourcePaths.rootMarker.isPrefixOf = true

instance (ls : List Line) : Decidable (IsBoxedResource ls) :=
  decidable_of_iff (_ ∧ _ ∧ _) ⟨fun ⟨line, free, marked⟩ => ⟨line, free, marked⟩,
    fun h => ⟨h.line, h.free, h.marked⟩⟩

/-- Only their dates are replaced and their response classes are opened. -/
theorem IsBoxedResource.injectUrlConstants_eq {dates : Bool} {file : Path} (h : IsBoxedResource ls)
    (hopened : IsBoxedResource (openedResource dates ls)) :
    injectUrlConstants (patchResponseTypes (patchDatesIf dates (patchFileResponses
      (boxPrimitives (patchImports (ofLines ls)))))) file =
        .ok (ofLines (openedResource dates ls)) := by
  have hplain : ∀ line ∈ ls, IsPlainLine line := fun line hline => (h.line line hline).1
  have hresource : openedLines (ls.flatMap (patchDateLineIf dates)) = openedResource dates ls := rfl
  have himports : importsFile (ofLines ls) = false := by
    rw [importsFile, lines_ofLines_of_plain hplain, h.free]
  have hdated : ∀ line ∈ ls.flatMap (patchDateLineIf dates), IsPlainLine line := by
    intro line hline
    obtain ⟨old, hold, hline⟩ := List.mem_flatMap.1 hline
    cases dates with
    | true => exact (hplain old hold).of_mem_patchDateLine hline
    | false => exact List.mem_singleton.1 hline ▸ hplain old hold
  rw [patchImports, mapLines_eq_self hplain fun line hline => (h.line line hline).2.1, boxPrimitives,
    mapLines_eq_self hplain fun line hline => (h.line line hline).2.2, patchFileResponses, himports,
    if_neg Bool.false_ne_true, patchDatesIf_ofLines hplain, patchResponseTypes_eq,
    lines_ofLines_of_plain hdated, hresource, injectUrlConstants,
    lines_ofLines_of_plain fun line hline => (hopened.line line hline).1]
  exact if_pos hopened.marked

/-- So these are the lines that a run of all patches leaves. -/
theorem IsBoxedResource.textOf_of_turned (hls : IsBoxedResource ls)
    (hopened : IsBoxedResource (openedResource s.dated ls)) (hgen : Generated layout root fs)
    (h : Turned layout Patch.all fs fs') (harea : s.area = .resources)
    (hdir : fs.isDirectory (s.area.path layout) = true)
    (htext : fs.textOf (s.location root) = some (ofLines ls)) :
    fs'.textOf (s.location root) = some (ofLines (openedResource s.dated ls)) := by
  obtain ⟨output, houtput, hurl⟩ := exists_resource_of_turned hgen h harea hdir htext
  rw [hls.injectUrlConstants_eq hopened] at hurl
  rw [houtput, ← Except.ok.inj hurl]

/-- A response class that is named like a date, ended by a member that is named like its type. -/
def dayLines : List Line :=
  ["  String ROOT_PATH = \"\";".toList, "  class Date extends ResponseDelegate \x7b".toList,
    "public OffsetDateTime(".toList, "  class Day extends ResponseDelegate \x7b".toList,
    "  \x7d".toList]

/-- A resource of these lines. -/
def dayFiles : Files where
  entries :=
    [(["demo"], .directory 0o755), (["demo", "generated"], .directory 0o755),
      (["demo", "generated", "resources"], .directory 0o755),
      (["demo", "generated", "resources", "Days.java"],
        .file (ofLines dayLines).toUTF8 0o644 none)]
  workingDirectory := []

def daysSource : Source :=
  ⟨.resources, "Days", by decide, by decide⟩

theorem shaped_dayFiles : Shaped ticketLayout ["demo", "generated"] dayFiles := by
  have hgen : Generated ticketLayout ["demo", "generated"] dayFiles :=
    generated_of_entries (by decide +kernel) (by decide +kernel) (by decide +kernel)
      (by decide +kernel) (by decide +kernel)
  exact shaped_of_placedSources hgen (by decide +kernel) (by decide +kernel) (by decide +kernel)
    (by decide +kernel)

end RamlBuild
