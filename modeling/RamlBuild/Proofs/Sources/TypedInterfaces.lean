import RamlBuild.Proofs.Files.Alike
import RamlBuild.Proofs.Sources.Discriminator
import RamlBuild.Proofs.Sources.Generated
import RamlBuild.Proofs.Sources.Reading
import RamlBuild.Proofs.Sources.Stages

/-!
# Typing the discriminators of a directory

An interface with a literal discriminator is typed by the implementation beside it. Where the pass
over a directory succeeds, these interfaces have one line exchanged and everything else is as it was;
where one of them cannot be typed, the pass fails, and tells of the first one.

## Main definitions

* `LiteralInterface`, `TypedInterface` — interfaces with a literal, and with a type for it
* `Untypable` — why an interface with a literal gets no type
* `Typing` — some interfaces of a directory were typed, and nothing else was changed

## Main results

* `Typing.of_typeDiscriminator`, `Typing.of_changedFiles` — typing one interface, and all
* `InProgress.exec_typeDiscriminator` — a step goes well, or its interface cannot be typed
* `typing_of_discriminators` — what becomes of a directory
-/

namespace RamlBuild

open Build Text

variable {host host' : Host} {fs fs' : Files} {p : Path} {dir loc : Location}
  {stem name other text source : String} {stems : List String} {layout : Layout} {error : ShapeError}

/-! ### Interfaces and their types -/

/-- The name of the source of an implementation, from that of its interface. -/
def implementationName (stem : String) : String :=
  sourceName (stem ++ Path.implEnding)

/-- An interface of a directory with a literal discriminator. -/
structure LiteralInterface (fs : Files) (dir : Location) (stem : String) where
  stem_ne : stem ≠ ""
  /-- It is no implementation by its name. -/
  isInterface : Text.endsWith Path.implEnding stem.toList = false
  /-- Its source. -/
  source : String
  source_eq : fs.textOf (dir ++ [sourceName stem]) = some source
  /-- The literal in it. -/
  literal : LiteralDiscriminator (lines source)

/-- An interface whose implementation has a discriminator field of a custom type. -/
structure TypedInterface (fs : Files) (dir : Location) (stem : String) extends
    LiteralInterface fs dir stem where
  /-- The source of the implementation. -/
  implementation : String
  implementation_eq : fs.textOf (dir ++ [implementationName stem]) = some implementation
  /-- The discriminator field in it. -/
  field : DiscriminatorField (lines implementation)
  type_ne : fieldType field.line ≠ []
  custom : String.ofList (fieldType field.line) ∉ builtinTypes

namespace TypedInterface

variable (typed : TypedInterface fs dir stem)

/-- The type of its discriminator. -/
def type : List Char :=
  fieldType typed.field.line

/-- What becomes of its source: the line with the literal is exchanged. -/
def output : String :=
  ofLines (typed.literal.exchanged (discriminatorDeclaration typed.type
    (assignedTo typed.type stem.toList (literalValue typed.literal.line))))

theorem discriminatorType?_eq : discriminatorType? typed.implementation = some typed.type :=
  discriminatorType?_eq_some_iff.2 ⟨typed.type_ne, typed.field, rfl⟩

theorem isCustomType_type : isCustomType (String.ofList typed.type) = true :=
  isCustomType_iff.2 typed.custom

theorem hasDiscriminatorLiteral_source : hasDiscriminatorLiteral typed.source = true :=
  hasDiscriminatorLiteral_iff.2 ⟨typed.literal⟩

theorem patchDiscriminator_eq :
    patchDiscriminator typed.type stem.toList typed.source = typed.output :=
  patchDiscriminator_of_bodyLine typed.literal typed.type stem.toList

/-- A source that is typed is not what it was. -/
theorem output_ne : typed.output ≠ typed.source := by
  rw [← typed.patchDiscriminator_eq]
  refine patchDiscriminator_ne typed.literal (space_not_mem_fieldType _) ?_ ?_
  · intro hmem
    have hline := not_mem_of_mem_lines typed.field.line_mem
    exact hline (List.mem_of_mem_drop ((List.takeWhile_sublist _).subset hmem))
  · intro hstring
    have hcustom := typed.custom
    rw [show fieldType typed.field.line = "String".toList from hstring] at hcustom
    exact hcustom (by decide +kernel)

theorem eq_of_textOf (htext : fs.textOf (dir ++ [sourceName stem]) = some source) :
    typed.source = source :=
  Option.some.inj (typed.source_eq.symm.trans htext)

theorem eq_type (himplementation : fs.textOf (dir ++ [implementationName stem]) = some text)
    {type : List Char} (htype : discriminatorType? text = some type) : typed.type = type := by
  obtain rfl := Option.some.inj (typed.implementation_eq.symm.trans himplementation)
  exact Option.some.inj (typed.discriminatorType?_eq.symm.trans htype)

/-- Two ways to see an interface as typed come to the same. -/
theorem output_unique (typed' : TypedInterface fs dir stem) : typed.output = typed'.output := by
  rw [← typed.patchDiscriminator_eq, ← typed'.patchDiscriminator_eq,
    typed.eq_of_textOf typed'.source_eq,
    typed.eq_type typed'.implementation_eq typed'.discriminatorType?_eq]

end TypedInterface

/-- Why an interface with a literal gets no type: its implementation is not there, or has no
discriminator field with a type. The error names the file that is not as it should be. -/
inductive Untypable (p : Path) (fs : Files) (dir : Location) (stem : String) : ShapeError → Prop where
  | missing (hliteral : Nonempty (LiteralInterface fs dir stem))
      (hfile : fs.contentsAt (dir ++ [implementationName stem]) = none) :
      Untypable p fs dir stem
        (.missingImplementation (p / sourceName stem) (p / implementationName stem))
  | malformed {implementation : String} (hliteral : Nonempty (LiteralInterface fs dir stem))
      (himplementation : fs.textOf (dir ++ [implementationName stem]) = some implementation)
      (hfield : ∀ field : DiscriminatorField (lines implementation), fieldType field.line = []) :
      Untypable p fs dir stem (.malformedImplementation (p / implementationName stem))

theorem Untypable.literal (h : Untypable p fs dir stem error) :
    Nonempty (LiteralInterface fs dir stem) := by
  cases h with
  | missing hliteral => exact hliteral
  | malformed hliteral => exact hliteral

/-- An interface lacks one thing only. -/
theorem Untypable.unique {error' : ShapeError} (h : Untypable p fs dir stem error)
    (h' : Untypable p fs dir stem error') : error = error' := by
  have happart : ∀ {implementation : String}, fs.contentsAt (dir ++ [implementationName stem]) = none →
      fs.textOf (dir ++ [implementationName stem]) ≠ some implementation := by
    intro implementation hfile htext
    rw [Files.textOf_eq_bind, hfile] at htext
    exact absurd htext (by simp)
  cases h with
  | missing _ hfile =>
    cases h' with
    | missing => rfl
    | malformed _ himplementation => exact absurd himplementation (happart hfile)
  | malformed _ himplementation =>
    cases h' with
    | missing _ hfile => exact absurd himplementation (happart hfile)
    | malformed => rfl

/-! ### One interface -/

/-- What a step that succeeds has done: it leaves a source that is no interface with a literal, or
one whose discriminator has a builtin type, and rewrites the others. -/
theorem typeDiscriminator_ok {file : Path} {changed : Bool}
    (h : exec (typeDiscriminator file) host = (.ok changed, host')) :
    file.isImplementation = true ∧ OnlyReads host host' ∨
      ∃ source, textAt host.files file = .ok (some source) ∧
        (hasDiscriminatorLiteral source = false ∧ OnlyReads host host' ∨
          hasDiscriminatorLiteral source = true ∧ file.isImplementation = false ∧
            ∃ implementation type,
              textAt host.files file.implementation = .ok (some implementation) ∧
              discriminatorType? implementation = some type ∧
              (isCustomType (String.ofList type) = false ∧ OnlyReads host host' ∨
                isCustomType (String.ofList type) = true ∧ ∃ host₁, OnlyReads host host₁ ∧
                  exec (rewrite file (always (patchDiscriminator type file.stem.toList) file)) host₁ =
                    (.ok changed, host'))) := by
  rw [typeDiscriminator] at h
  split at h
  · rename_i himplementation
    obtain ⟨-, rfl⟩ := Prod.mk.inj h
    exact .inl ⟨himplementation, chains_onlyReads.refl host⟩
  rename_i hinterface
  obtain ⟨source, host₁, hread, h⟩ := exec_bind_ok h
  have hreads := onlyReads_readText hread
  refine .inr ⟨source, (readText_ok hread).1, ?_⟩
  split at h
  · rename_i hliteral
    obtain ⟨-, rfl⟩ := Prod.mk.inj h
    exact .inl ⟨by simpa using hliteral, hreads⟩
  rename_i hliteral
  rw [isFile, exec_asking_bind] at h
  split at h
  · exact absurd (Prod.mk.inj h).1 (by simp)
  obtain ⟨implementation, host₂, hread', h⟩ := exec_bind_ok h
  have himplementation := (readText_ok hread').1
  rw [hreads.files_eq] at himplementation
  have hreads' := chains_onlyReads.trans hreads (onlyReads_readText hread')
  split at h
  · exact absurd (Prod.mk.inj h).1 (by simp)
  rename_i type htype
  refine .inr ⟨by simpa using hliteral, by simpa using hinterface, implementation, type,
    himplementation, htype, ?_⟩
  split at h
  · rename_i hcustom
    exact .inr ⟨hcustom, host₂, hreads', h⟩
  · rename_i hcustom
    obtain ⟨-, rfl⟩ := Prod.mk.inj h
    exact .inl ⟨by simpa using hcustom, hreads'⟩

theorem isPlainName_implementationName (h : IsPlainName (sourceName stem)) :
    IsPlainName (implementationName stem) := by
  apply isPlainName_sourceName
  rw [String.toList_append, List.mem_append, not_or]
  exact ⟨not_mem_of_isPlainName_sourceName h, by decide⟩

/-! ### A directory -/

/-- A path leads to a directory of regular files: there are no links in it. -/
structure RegularDirectory (fs : Files) (p : Path) (dir : Location) : Prop where
  wellFormed : fs.WellFormed
  resolve : fs.resolve p = .ok dir
  linkAt_eq : ∀ name, fs.linkAt (dir ++ [name]) = none

namespace RegularDirectory

variable (hdir : RegularDirectory fs p dir)

include hdir

/-- A source that is there is listed. -/
theorem mem_sourceNames (hne : stem ≠ "")
    (hsome : (fs.contentsAt (dir ++ [sourceName stem])).isSome = true) :
    sourceName stem ∈ sourceNames fs p := by
  obtain ⟨contents, hcontents⟩ := Option.isSome_iff_exists.1 hsome
  obtain ⟨mode, shared, hget⟩ := Files.contentsAt_eq_some_iff.1 hcontents
  have hname := hdir.wellFormed.namesPlainly dir _ _ hget
  obtain ⟨dirMode, hdirectory⟩ := hdir.wellFormed.isTree dir _ _ hget
  have hsource : isSourceName (sourceName stem) = true := by
    rw [← isSource_child_eq (p := p) hname]
    exact isSource_child hname hne
  exact (RamlBuild.mem_sourceNames hdir.wellFormed.distinct).2
    ⟨hsource, dir, dirMode, _, hdir.resolve, hdirectory, hget, rfl⟩

theorem plain_of_mem_sourceNames (hmem : sourceName stem ∈ sourceNames fs p) :
    IsPlainName (sourceName stem) ∧ stem ≠ "" := by
  obtain ⟨hsource, dir', -, e, -, -, hget, -⟩ :=
    (RamlBuild.mem_sourceNames hdir.wellFormed.distinct).1 hmem
  have hname := hdir.wellFormed.namesPlainly dir' _ e hget
  rw [← isSource_child_eq (p := p) hname] at hsource
  obtain ⟨stem', hne, heq⟩ := exists_stem_of_isSource hname hsource
  exact ⟨hname, sourceName_injective heq ▸ hne⟩

/-- What is listed are sources, by what they declare. -/
theorem exists_stems : ∃ stems : List String, sourceNames fs p = stems.map sourceName := by
  have hnames : ∀ name ∈ sourceNames fs p, name ∈ Set.range sourceName := by
    intro name hname
    obtain ⟨hsource, dir', -, e, -, -, hget, -⟩ :=
      (RamlBuild.mem_sourceNames hdir.wellFormed.distinct).1 hname
    have hplain := hdir.wellFormed.namesPlainly dir' _ e hget
    rw [← isSource_child_eq (p := p) hplain] at hsource
    obtain ⟨stem, -, rfl⟩ := exists_stem_of_isSource hplain hsource
    exact ⟨stem, rfl⟩
  have hrange : sourceNames fs p ∈ Set.range (List.map sourceName) := by
    rw [Set.range_list_map]
    exact hnames
  obtain ⟨stems, hstems⟩ := hrange
  exact ⟨stems, hstems.symm⟩

theorem mem_of_literalInterface (interface : LiteralInterface fs dir stem) :
    sourceName stem ∈ sourceNames fs p := by
  refine hdir.mem_sourceNames interface.stem_ne ?_
  have hsource := interface.source_eq
  rw [Files.textOf_eq_bind] at hsource
  exact Option.isSome_iff_exists.2 ((Option.bind_eq_some_iff.1 hsource).imp fun _ h => h.1)

end RegularDirectory

/-- Some sources of a directory were looked at since: the interfaces among them were typed, and
everything else is as it was. -/
structure Typing (fs : Files) (dir : Location) (stems : List String) (fs' : Files) : Prop where
  textOf_typed : ∀ stem ∈ stems, ∀ typed : TypedInterface fs dir stem,
    fs'.textOf (dir ++ [sourceName stem]) = some typed.output
  get?_other : ∀ loc, (∀ stem ∈ stems, Nonempty (TypedInterface fs dir stem) →
    loc ≠ dir ++ [sourceName stem]) → fs'.get? loc = fs.get? loc
  fewer : Files.FewerPassages fs fs'
  isTree : fs.IsTree → fs'.IsTree

namespace Typing

theorem refl (fs : Files) (dir : Location) : Typing fs dir [] fs :=
  ⟨by simp, fun _ _ => rfl, Files.FewerPassages.refl fs, fun h => h⟩

variable (h : Typing fs dir stems fs')

include h

/-- A source that was not looked at is as it was. -/
theorem get?_of_not_mem (hs : stem ∉ stems) :
    fs'.get? (dir ++ [sourceName stem]) = fs.get? (dir ++ [sourceName stem]) := by
  refine h.get?_other _ ?_
  rintro stem' hstem' - heq
  have hname := List.singleton_inj.1 (List.append_inj' heq rfl).2
  exact hs (sourceName_injective hname ▸ hstem')

/-- Implementations are as they were. -/
theorem get?_implementation (stem : String) :
    fs'.get? (dir ++ [implementationName stem]) = fs.get? (dir ++ [implementationName stem]) := by
  refine h.get?_other _ ?_
  rintro stem' - ⟨typed⟩ heq
  have hname := List.singleton_inj.1 (List.append_inj' heq rfl).2
  have hends : Text.endsWith Path.implEnding stem'.toList = true := by
    rw [← sourceName_injective hname, Text.endsWith_iff, String.toList_append]
    exact List.suffix_append _ _
  rw [typed.isInterface] at hends
  contradiction

/-- What is read by a path is the text at the location. -/
theorem textOf_of_textAt (hdir : RegularDirectory fs p dir) (hname : IsPlainName name)
    (htext : textAt fs' (p / name) = .ok (some text)) : fs'.textOf (dir ++ [name]) = some text :=
  textOf_child_of_textAt h.fewer (h.isTree hdir.wellFormed.isTree) hname
    (Files.reach_of_resolve hdir.resolve)
    (linkAt_eq_none_of_fewerPassages h.fewer (hdir.linkAt_eq name)) htext

/-- A source that was not typed is left. -/
theorem left {fs'' : Files} (hfiles : fs'' = fs')
    (hempty : IsEmpty (TypedInterface fs dir stem)) : Typing fs dir (stems ++ [stem]) fs'' := by
  rw [hfiles]
  refine ⟨?_, ?_, h.fewer, h.isTree⟩
  · intro stem' hstem' typed
    rcases List.mem_append.1 hstem' with hstem' | hstem'
    · exact h.textOf_typed stem' hstem' typed
    · rw [List.mem_singleton.1 hstem'] at typed
      exact (hempty.false typed).elim
  · intro loc hloc
    exact h.get?_other loc fun stem' hstem' => hloc stem' (List.mem_append_left _ hstem')

/-- One more interface is typed. -/
theorem concat {fs'' : Files} (hs : stem ∉ stems) (typed : TypedInterface fs dir stem)
    (hchanges : ChangesOnly dir [sourceName stem] fs' fs'')
    (houtput : fs''.textOf (dir ++ [sourceName stem]) = some typed.output) :
    Typing fs dir (stems ++ [stem]) fs'' := by
  refine ⟨?_, ?_, h.fewer.trans hchanges.fewer, fun htree => hchanges.isTree (h.isTree htree)⟩
  · intro stem' hstem' typed'
    rcases List.mem_append.1 hstem' with hstem' | hstem'
    · have hother : sourceName stem' ∉ [sourceName stem] := by
        rw [List.mem_singleton]
        intro heq
        exact hs (sourceName_injective heq ▸ hstem')
      rw [hchanges.textOf_other hother]
      exact h.textOf_typed stem' hstem' typed'
    · obtain rfl := List.mem_singleton.1 hstem'
      rw [houtput, typed.output_unique typed']
  · intro loc hloc
    have hne : loc ≠ dir ++ [sourceName stem] := hloc stem (by simp) ⟨typed⟩
    rw [hchanges.get?_other loc (by simpa using hne)]
    exact h.get?_other loc fun stem' hstem' => hloc stem' (List.mem_append_left _ hstem')

end Typing

/-- A step that succeeds types its source if that is an interface with a type, and leaves it
otherwise. Then there was nothing that keeps it from being typed. -/
theorem Typing.of_typeDiscriminator {changed : Bool} (h : Typing fs dir stems host.files)
    (hdir : RegularDirectory fs (p / other) dir) (hother : IsPlainName other)
    (hmem : sourceName stem ∈ sourceNames fs (p / other)) (hs : stem ∉ stems)
    (hstep : exec (typeDiscriminator (p / other / sourceName stem)) host = (.ok changed, host')) :
    Typing fs dir (stems ++ [stem]) host'.files ∧
      ∀ error, ¬Untypable (p / other) fs dir stem error := by
  obtain ⟨hname, hne⟩ := hdir.plain_of_mem_sourceNames hmem
  have hrefuted : ∀ error, IsEmpty (LiteralInterface fs dir stem) →
      ¬Untypable (p / other) fs dir stem error :=
    fun error hempty h => not_isEmpty_iff.2 h.literal hempty
  have hself : host.files.textOf (dir ++ [sourceName stem]) = fs.textOf (dir ++ [sourceName stem]) :=
    Files.textOf_congr (h.get?_of_not_mem hs)
  rcases typeDiscriminator_ok hstep with ⟨himplementation, hreads⟩ | ⟨source, hsource, hstep⟩
  · -- Implementations are no interfaces.
    rw [isImplementation_child hname hne] at himplementation
    have hempty : IsEmpty (LiteralInterface fs dir stem) :=
      ⟨fun interface => Bool.false_ne_true (interface.isInterface.symm.trans himplementation)⟩
    exact ⟨h.left hreads.files_eq ⟨fun typed => hempty.false typed.toLiteralInterface⟩,
      fun error => hrefuted error hempty⟩
  have hsource := h.textOf_of_textAt hdir hname hsource
  rw [hself] at hsource
  rcases hstep with ⟨hliteral, hreads⟩ | ⟨hliteral, hinterface, implementation, type, hread, htype, hstep⟩
  · have hempty : IsEmpty (LiteralInterface fs dir stem) := by
      refine ⟨fun interface => ?_⟩
      obtain rfl := Option.some.inj (interface.source_eq.symm.trans hsource)
      exact absurd (hasDiscriminatorLiteral_iff.2 ⟨interface.literal⟩) (by simp [hliteral])
    exact ⟨h.left hreads.files_eq ⟨fun typed => hempty.false typed.toLiteralInterface⟩,
      fun error => hrefuted error hempty⟩
  rw [isImplementation_child hname hne] at hinterface
  rw [implementation_child hname hother hne] at hread
  have himplementation : fs.textOf (dir ++ [implementationName stem]) = some implementation := by
    rw [← Files.textOf_congr (h.get?_implementation stem)]
    exact h.textOf_of_textAt hdir (isPlainName_implementationName hname) hread
  obtain ⟨htypeNe, field, rfl⟩ := discriminatorType?_eq_some_iff.1 htype
  refine ⟨?_, ?_⟩
  · rcases hstep with ⟨hbuiltin, hreads⟩ | ⟨hcustom, host₁, hreads, hrewrite⟩
    · refine h.left hreads.files_eq ⟨fun typed => ?_⟩
      have hcustom := typed.isCustomType_type
      rw [typed.eq_type himplementation htype, hbuiltin] at hcustom
      exact Bool.false_ne_true hcustom
    · obtain ⟨literal⟩ := hasDiscriminatorLiteral_iff.1 hliteral
      let typed : TypedInterface fs dir stem :=
        ⟨⟨hne, hinterface, source, hsource, literal⟩, implementation, himplementation, field,
          htypeNe, isCustomType_iff.1 hcustom⟩
      rw [← hreads.files_eq] at h hself
      obtain ⟨hchanges, htext⟩ := exec_rewrite_child_ok h.fewer (h.isTree hdir.wellFormed.isTree)
        hname (Files.reach_of_resolve hdir.resolve) hrewrite
      obtain ⟨source', hsource', houtput⟩ :=
        htext (linkAt_eq_none_of_fewerPassages h.fewer (hdir.linkAt_eq _))
      rw [hself, hsource] at hsource'
      obtain rfl := Option.some.inj hsource'
      rw [stem_child hname hne] at houtput
      exact h.concat hs typed hchanges (houtput.trans (congrArg some typed.patchDiscriminator_eq))
  · rintro error (⟨-, hfile⟩ | ⟨-, himplementation', hfield⟩)
    · rw [Files.textOf_eq_bind, hfile] at himplementation
      exact absurd himplementation (by simp)
    · obtain rfl := Option.some.inj (himplementation.symm.trans himplementation')
      exact htypeNe (hfield field)

/-- Where the pass succeeds, all interfaces with a type were typed, and each interface with a literal
can be. -/
theorem Typing.of_changedFiles {new : List String} {files : List Path}
    (h : Typing fs dir stems host.files) (hdir : RegularDirectory fs (p / other) dir)
    (hother : IsPlainName other) (hmem : ∀ stem ∈ new, sourceName stem ∈ sourceNames fs (p / other))
    (hnodup : (stems ++ new).Nodup)
    (hrun : exec (changedFiles typeDiscriminator (new.map fun stem => p / other / sourceName stem))
      host = (.ok files, host')) :
    Typing fs dir (stems ++ new) host'.files ∧
      ∀ stem ∈ new, ∀ error, ¬Untypable (p / other) fs dir stem error := by
  induction new generalizing host stems files with
  | nil =>
    obtain ⟨-, rfl⟩ := Prod.mk.inj hrun
    rw [List.append_nil]
    exact ⟨h, by simp⟩
  | cons stem rest ih =>
    rw [List.map_cons, changedFiles] at hrun
    obtain ⟨changed, host₁, hstep, hrun⟩ := exec_bind_ok hrun
    obtain ⟨others, host₂, hothers, hrun⟩ := exec_bind_ok hrun
    obtain ⟨-, rfl⟩ := Prod.mk.inj hrun
    have hs : stem ∉ stems := fun hs => (List.nodup_append.1 hnodup).2.2 _ hs _ List.mem_cons_self rfl
    obtain ⟨hfirst, htypable⟩ :=
      h.of_typeDiscriminator hdir hother (hmem stem List.mem_cons_self) hs hstep
    rw [List.append_cons] at hnodup ⊢
    obtain ⟨hrest, htypables⟩ :=
      ih hfirst (fun s hs => hmem s (List.mem_cons_of_mem _ hs)) hnodup hothers
    exact ⟨hrest, List.forall_mem_cons.2 ⟨htypable, htypables⟩⟩

/-! ### Interfaces that cannot be typed -/

/-- What a step does with an interface that has a literal. -/
def typeByImplementation (file : Path) : Build Bool := do
  if !(← isFile file.implementation) then
    fail (.shape (.missingImplementation file file.implementation))
  else
    match discriminatorType? (← readText file.implementation) with
    | none => fail (.shape (.malformedImplementation file.implementation))
    | some type =>
      if isCustomType (String.ofList type) then
        rewrite file (always (patchDiscriminator type file.stem.toList) file)
      else
        pure false

theorem typeDiscriminator_eq (file : Path) :
    typeDiscriminator file = (do
      if file.isImplementation then pure false
      else if !hasDiscriminatorLiteral (← readText file) then pure false
      else typeByImplementation file) := rfl

/-- Some sources of a directory were looked at, and all of them can be read and written still. -/
structure InProgress (fs : Files) (p : Path) (dir : Location) (stems : List String) (host : Host) :
    Prop where
  typing : Typing fs dir stems host.files
  writable : Writable host p (sourceNames fs p)

namespace InProgress

theorem of_onlyReads (h : InProgress fs p dir stems host) (hreads : OnlyReads host host') :
    InProgress fs p dir stems host' := by
  refine ⟨?_, h.writable.of_onlyReads hreads⟩
  rw [hreads.files_eq]
  exact h.typing

/-- The implementation of an interface is found where it was. -/
theorem textAt_implementation (h : InProgress fs p dir stems host)
    (hdir : RegularDirectory fs p dir) {contents : ByteArray}
    (hcontents : fs.contentsAt (dir ++ [implementationName stem]) = some contents) :
    ∃ implementation, textAt host.files (p / implementationName stem) = .ok (some implementation) ∧
      fs.textOf (dir ++ [implementationName stem]) = some implementation := by
  have hne : stem ++ Path.implEnding ≠ "" := by simp [Path.implEnding]
  have hmem : implementationName stem ∈ sourceNames fs p :=
    hdir.mem_sourceNames hne (Option.isSome_iff_exists.2 ⟨contents, hcontents⟩)
  obtain ⟨implementation, hread⟩ := h.writable.text _ hmem
  refine ⟨implementation, hread, ?_⟩
  rw [← Files.textOf_congr (h.typing.get?_implementation stem)]
  exact h.typing.textOf_of_textAt hdir (hdir.plain_of_mem_sourceNames hmem).1 hread

/-- An implementation that is not there is not found. -/
theorem isFile_implementation (h : InProgress fs p dir stems host)
    (hdir : RegularDirectory fs p dir) (hname : IsPlainName (implementationName stem))
    (hnone : fs.contentsAt (dir ++ [implementationName stem]) = none) :
    host.files.isFile (p / implementationName stem) = false := by
  rw [Bool.eq_false_iff]
  intro hfile
  unfold Files.isFile at hfile
  split at hfile
  · rename_i loc contents mode shared hstat
    obtain ⟨hresolve, hget⟩ := stat_eq_ok_iff.1 hstat
    have hlink := linkAt_eq_none_of_fewerPassages h.typing.fewer (hdir.linkAt_eq (implementationName stem))
    obtain rfl := Files.resolve_child_of_fewerPassages h.typing.fewer
      (h.typing.isTree hdir.wellFormed.isTree) hname (Files.reach_of_resolve hdir.resolve) hlink
      hresolve
    rw [h.typing.get?_implementation stem] at hget
    rw [Files.contentsAt, hget] at hnone
    contradiction
  · contradiction

/-- An interface with a literal is typed or left, or it cannot be typed. -/
theorem exec_typeByImplementation (h : InProgress fs (p / other) dir stems host)
    (hdir : RegularDirectory fs (p / other) dir) (hother : IsPlainName other)
    (hmem : sourceName stem ∈ sourceNames fs (p / other))
    (interface : Nonempty (LiteralInterface fs dir stem)) :
    (∃ error host', Untypable (p / other) fs dir stem error ∧
        exec (typeByImplementation (p / other / sourceName stem)) host =
          (.error (.of (.shape error)), host')) ∨
      ∃ changed host', exec (typeByImplementation (p / other / sourceName stem)) host =
          (.ok changed, host') ∧ Writable host' (p / other) (sourceNames fs (p / other)) := by
  obtain ⟨hname, hne⟩ := hdir.plain_of_mem_sourceNames hmem
  have hpath : (p / other / sourceName stem).implementation = p / other / implementationName stem :=
    implementation_child hname hother hne
  rw [typeByImplementation, isFile, hpath, exec_asking_bind]
  cases hcontents : fs.contentsAt (dir ++ [implementationName stem]) with
  | none =>
    rw [h.isFile_implementation hdir (isPlainName_implementationName hname) hcontents]
    exact .inl ⟨_, host, .missing interface hcontents, rfl⟩
  | some contents =>
    obtain ⟨implementation, hread, htext⟩ := h.textAt_implementation hdir hcontents
    have hcounted := h.writable.of_onlyReads (onlyReads_counted host)
    rw [isFile_of_textAt hread, if_neg (by simp),
      exec_bind_of_ok (exec_readText_of_textAt h.writable.quiet hread)]
    cases htype : discriminatorType? implementation with
    | none =>
      exact .inl ⟨_, _, .malformed interface htext (discriminatorType?_eq_none_iff.1 htype), rfl⟩
    | some type =>
      refine .inr ?_
      simp only
      split
      · exact hcounted.exec_rewrite hother hname hmem
      · exact ⟨false, _, rfl, hcounted⟩

/-- A step types its source or leaves it, or the source is an interface that cannot be typed. -/
theorem exec_typeDiscriminator (h : InProgress fs (p / other) dir stems host)
    (hdir : RegularDirectory fs (p / other) dir) (hother : IsPlainName other)
    (hmem : sourceName stem ∈ sourceNames fs (p / other)) (hs : stem ∉ stems) :
    (∃ error host', Untypable (p / other) fs dir stem error ∧
        exec (typeDiscriminator (p / other / sourceName stem)) host =
          (.error (.of (.shape error)), host')) ∨
      ∃ changed host', exec (typeDiscriminator (p / other / sourceName stem)) host =
          (.ok changed, host') ∧ InProgress fs (p / other) dir (stems ++ [stem]) host' := by
  obtain ⟨hname, hne⟩ := hdir.plain_of_mem_sourceNames hmem
  suffices hstep : (∃ error host', Untypable (p / other) fs dir stem error ∧
        exec (typeDiscriminator (p / other / sourceName stem)) host =
          (.error (.of (.shape error)), host')) ∨
      ∃ changed host', exec (typeDiscriminator (p / other / sourceName stem)) host =
          (.ok changed, host') ∧ Writable host' (p / other) (sourceNames fs (p / other)) by
    refine hstep.imp_right ?_
    rintro ⟨changed, host', hrun, hwritable⟩
    exact ⟨changed, host', hrun, (h.typing.of_typeDiscriminator hdir hother hmem hs hrun).1, hwritable⟩
  rw [typeDiscriminator_eq, isImplementation_child hname hne]
  split
  · exact .inr ⟨false, host, rfl, h.writable⟩
  rename_i hinterface
  obtain ⟨source, hsource⟩ := h.writable.text _ hmem
  have hcounted := h.of_onlyReads (onlyReads_counted host)
  rw [exec_bind_of_ok (exec_readText_of_textAt h.writable.quiet hsource)]
  split
  · exact .inr ⟨false, _, rfl, hcounted.writable⟩
  rename_i hliteral
  have hself : fs.textOf (dir ++ [sourceName stem]) = some source := by
    rw [← Files.textOf_congr (h.typing.get?_of_not_mem hs)]
    exact h.typing.textOf_of_textAt hdir hname hsource
  obtain ⟨literal⟩ := hasDiscriminatorLiteral_iff.1 (by simpa using hliteral)
  exact hcounted.exec_typeByImplementation hdir hother hmem
    ⟨⟨hne, by simpa using hinterface, source, hself, literal⟩⟩

/-- The pass fails at the first interface that cannot be typed. -/
theorem exec_changedFiles {before after : List String}
    (h : InProgress fs (p / other) dir stems host) (hdir : RegularDirectory fs (p / other) dir)
    (hother : IsPlainName other)
    (hmem : ∀ s ∈ before ++ stem :: after, sourceName s ∈ sourceNames fs (p / other))
    (hnodup : (stems ++ (before ++ stem :: after)).Nodup)
    (hbefore : ∀ s ∈ before, ∀ error, ¬Untypable (p / other) fs dir s error)
    (hstem : Untypable (p / other) fs dir stem error) :
    ∃ host', exec (changedFiles typeDiscriminator
      ((before ++ stem :: after).map fun stem => p / other / sourceName stem)) host =
        (.error (.of (.shape error)), host') := by
  induction before generalizing host stems with
  | nil =>
    have hs : stem ∉ stems := fun hs => (List.nodup_append.1 hnodup).2.2 _ hs _ List.mem_cons_self rfl
    rw [List.nil_append, List.map_cons, changedFiles]
    rcases h.exec_typeDiscriminator hdir hother (hmem stem (by simp)) hs with
      ⟨error', host', huntypable, hrun⟩ | ⟨changed, host', hrun, -⟩
    · rw [hstem.unique huntypable]
      exact ⟨host', exec_bind_of_error hrun⟩
    · exact absurd hstem ((h.typing.of_typeDiscriminator hdir hother (hmem stem (by simp)) hs hrun).2 error)
  | cons s before ih =>
    have hs : s ∉ stems := fun hs => (List.nodup_append.1 hnodup).2.2 _ hs _ List.mem_cons_self rfl
    rw [List.cons_append, List.map_cons, changedFiles]
    rcases h.exec_typeDiscriminator hdir hother (hmem s (by simp)) hs with
      ⟨error', host', huntypable, -⟩ | ⟨changed, host₁, hrun, h₁⟩
    · exact absurd huntypable (hbefore s List.mem_cons_self error')
    · rw [List.cons_append, List.append_cons] at hnodup
      obtain ⟨host', hrest⟩ := ih h₁ (fun s' hs' => hmem s' (List.mem_cons_of_mem _ hs')) hnodup
        (fun s' hs' => hbefore s' (List.mem_cons_of_mem _ hs'))
      rw [exec_bind_of_ok hrun]
      exact ⟨host', exec_bind_of_error hrest⟩

end InProgress

/-! ### The pass over a directory -/

/-- Sources are listed by name. -/
theorem pairwise_sourceNames (fs : Files) (p : Path) :
    (sourceNames fs p).Pairwise fun name name' => ¬name'.toList < name.toList := by
  unfold sourceNames
  split
  · rename_i dir mode hstat
    apply List.Pairwise.sublist List.filter_sublist
    rw [List.pairwise_map]
    apply List.Pairwise.sublist List.filter_sublist
    rw [Files.children, List.pairwise_filterMap]
    refine (Files.pairwise_below_precedes fs dir).imp ?_
    rintro ⟨steps, e⟩ ⟨steps', e'⟩ hprecedes entry hentry entry' hentry' hlt
    split at hentry
    · rename_i hsteps
      split at hentry'
      · rename_i hsteps'
        obtain rfl := Option.some.inj hentry
        obtain rfl := Option.some.inj hentry'
        rw [(Prod.mk.inj hsteps).1, (Prod.mk.inj hsteps').1] at hprecedes
        rw [Location.precedes, decide_eq_false_iff_not] at hprecedes
        exact hprecedes (List.cons_lt_cons_iff.2 (.inl hlt))
      · contradiction
    · contradiction
  · exact List.Pairwise.nil

/-- The source files of a directory that can be listed. -/
theorem exec_sourceFiles_of_list {entries : List (String × Entry)} (hfs : host.files.WellFormed)
    (hquiet : ∀ n, host.faults n = none) (hlist : host.files.list p = .ok entries) :
    ∃ host', exec (sourceFiles p) host = (.ok (sourcePaths host.files p), host') ∧
      OnlyReads host host' := by
  obtain ⟨dir, mode, hresolve, hdir, -⟩ := Files.list_ok hlist
  have hdirectory : host.files.isDirectory p = true := by
    rw [Files.isDirectory, stat_eq_ok_iff.2 ⟨hresolve, hdir⟩]
  have hrun : ∃ files host', exec (sourceFiles p) host = (.ok files, host') := by
    rw [sourceFiles, isDirectory, exec_asking_bind, if_pos hdirectory]
    simp only [Build.list, exec_bind, exec_within, exec_reading, hquiet, hlist, Except.mapError]
    exact ⟨_, _, rfl⟩
  obtain ⟨files, host', hrun⟩ := hrun
  obtain ⟨-, -, rfl⟩ := exec_sourceFiles_ok hfs hrun
  exact ⟨host', hrun, onlyReads_sourceFiles hrun⟩

theorem RegularDirectory.sourcePaths_eq (hdir : RegularDirectory fs p dir) :
    ∃ stems : List String, stems.Nodup ∧ sourceNames fs p = stems.map sourceName ∧
      sourcePaths fs p = stems.map fun stem => p / sourceName stem := by
  obtain ⟨stems, hstems⟩ := hdir.exists_stems
  refine ⟨stems, ?_, hstems, ?_⟩
  · apply List.Nodup.of_map sourceName
    rw [← hstems]
    exact nodup_sourceNames hdir.wellFormed.distinct
  · rw [sourcePaths, hstems, List.map_map]
    rfl

/-- A pass that succeeds has typed all interfaces with a type, and no interface with a literal lacks
one. -/
theorem typing_of_applyTo {files : List Path}
    (hdir : RegularDirectory host.files layout.modelDir dir)
    (h : exec (Patch.discriminators.applyTo layout) host = (.ok files, host')) :
    ∃ stems, sourceNames host.files layout.modelDir = stems.map sourceName ∧
      Typing host.files dir stems host'.files ∧
      ∀ stem ∈ stems, ∀ error, ¬Untypable layout.modelDir host.files dir stem error := by
  rw [Patch.applyTo] at h
  obtain ⟨paths, host₁, hsources, h⟩ := exec_bind_ok h
  obtain ⟨hfiles, -, hlisted⟩ := exec_sourceFiles_ok hdir.wellFormed hsources
  obtain ⟨stems, hnodup, hstems, hpaths⟩ := hdir.sourcePaths_eq
  rw [hlisted, hpaths] at h
  have hmem : ∀ stem ∈ stems, sourceName stem ∈ sourceNames host.files layout.modelDir := by
    intro stem hstem
    rw [hstems]
    exact List.mem_map_of_mem hstem
  have hstart : Typing host.files dir [] host₁.files := by
    rw [hfiles]
    exact Typing.refl _ _
  obtain ⟨htyping, htypable⟩ := hstart.of_changedFiles hdir (by decide) hmem hnodup h
  exact ⟨stems, hstems, htyping, htypable⟩

/-- What becomes of a directory of regular files. Where the pass succeeds, exactly the interfaces
with a literal and a custom type are changed, by the one line with the literal. Where an interface
with a literal lacks its implementation, or that has no field with a type, the pass does not succeed;
and it tells of the first such interface by name, unless it is kept from the files. -/
theorem typing_of_discriminators (hdir : RegularDirectory host.files layout.modelDir dir) :
    (∀ files host', exec (Patch.discriminators.applyTo layout) host = (.ok files, host') →
      (∀ loc, host'.files.get? loc ≠ host.files.get? loc ↔
        ∃ stem, loc = dir ++ [sourceName stem] ∧ Nonempty (TypedInterface host.files dir stem)) ∧
      ∀ stem (typed : TypedInterface host.files dir stem),
        host'.files.textOf (dir ++ [sourceName stem]) = some typed.output) ∧
    ∀ stem error, Untypable layout.modelDir host.files dir stem error →
      (∀ files host', exec (Patch.discriminators.applyTo layout) host ≠ (.ok files, host')) ∧
      ((∀ stem' error', Untypable layout.modelDir host.files dir stem' error' →
          ¬(sourceName stem').toList < (sourceName stem).toList) →
        Writable host layout.modelDir (sourceNames host.files layout.modelDir) →
        (∃ entries, host.files.list layout.modelDir = .ok entries) →
        ∃ host', exec (Patch.discriminators.applyTo layout) host =
          (.error (.of (.shape error)), host')) := by
  have hlisted : ∀ {stems : List String} {stem : String},
      sourceNames host.files layout.modelDir = stems.map sourceName →
      LiteralInterface host.files dir stem → stem ∈ stems := by
    intro stems stem hstems interface
    have hmem := hdir.mem_of_literalInterface interface
    rw [hstems] at hmem
    exact (List.mem_map_of_injective sourceName_injective).1 hmem
  refine ⟨fun files host' h => ?_, fun stem error herror => ⟨fun files host' h => ?_, ?_⟩⟩
  · obtain ⟨stems, hstems, htyping, -⟩ := typing_of_applyTo hdir h
    have houtput : ∀ stem (typed : TypedInterface host.files dir stem),
        host'.files.textOf (dir ++ [sourceName stem]) = some typed.output :=
      fun stem typed => htyping.textOf_typed stem (hlisted hstems typed.toLiteralInterface) typed
    refine ⟨fun loc => ⟨fun hchanged => ?_, ?_⟩, houtput⟩
    · by_contra hnone
      refine hchanged (htyping.get?_other loc ?_)
      rintro stem - htyped rfl
      exact hnone ⟨stem, rfl, htyped⟩
    · rintro ⟨stem, rfl, ⟨typed⟩⟩ hsame
      have htext := houtput stem typed
      rw [Files.textOf_congr hsame, typed.source_eq] at htext
      exact typed.output_ne (Option.some.inj htext).symm
  · obtain ⟨stems, hstems, -, htypable⟩ := typing_of_applyTo hdir h
    obtain ⟨interface⟩ := herror.literal
    exact htypable stem (hlisted hstems interface) error herror
  · rintro hfirst hwritable ⟨entries, hlist⟩
    obtain ⟨host₁, hsources, hreads⟩ := exec_sourceFiles_of_list hdir.wellFormed hwritable.quiet hlist
    obtain ⟨stems, hnodup, hstems, hpaths⟩ := hdir.sourcePaths_eq
    obtain ⟨interface⟩ := herror.literal
    obtain ⟨before, after, rfl⟩ := List.append_of_mem (hlisted hstems interface)
    have hstart : InProgress host.files layout.modelDir dir [] host :=
      ⟨Typing.refl _ _, hwritable⟩
    have hmem : ∀ s ∈ before ++ stem :: after,
        sourceName s ∈ sourceNames host.files layout.modelDir := by
      intro s hs
      rw [hstems]
      exact List.mem_map_of_mem hs
    -- What is listed before it comes before it by name.
    have hbefore : ∀ s ∈ before, ∀ error', ¬Untypable layout.modelDir host.files dir s error' := by
      intro s hs error' herror'
      have hle := hfirst s error' herror'
      have hordered := pairwise_sourceNames host.files layout.modelDir
      rw [hstems, List.map_append, List.map_cons, List.pairwise_append] at hordered
      have hge := hordered.2.2 _ (List.mem_map_of_mem hs) _ List.mem_cons_self
      have heq : s = stem :=
        sourceName_injective (String.toList_inj.1 (le_antisymm (not_lt.1 hge) (not_lt.1 hle)))
      exact (List.nodup_append.1 hnodup).2.2 s hs stem List.mem_cons_self heq
    obtain ⟨host', hrun⟩ := (hstart.of_onlyReads hreads).exec_changedFiles hdir (by decide) hmem
      hnodup hbefore herror
    refine ⟨host', ?_⟩
    rw [Patch.applyTo, exec_bind_of_ok hsources, hpaths]
    exact hrun

/-- The directory of the model types below. -/
def orderDir : Location :=
  ["demo", "generated", "model"]

/-- An interface with a literal discriminator, and an implementation with the type for it. -/
def kindFiles : Files where
  entries :=
    [(["demo"], .directory 0o755), (["demo", "generated"], .directory 0o755),
      (orderDir, .directory 0o755),
      (orderDir ++ ["Order.java"], .file (literalSource "Order" "order").toUTF8 0o644 none),
      (orderDir ++ ["OrderImpl.java"],
        .file ("public class OrderImpl \x7b\n" ++ discriminatorField ++ "Kind kind = " ++
          discriminatorFieldEnd ++ "\n\x7d\n").toUTF8 0o644 none)]
  workingDirectory := []

theorem Generated.regularDirectory {root : Location} (h : Generated layout root fs)
    (hresolve : fs.resolve layout.modelDir = .ok (root ++ ["model"])) :
    RegularDirectory fs layout.modelDir (root ++ ["model"]) := by
  refine ⟨h.wellFormed, hresolve, fun name => ?_⟩
  rw [List.append_assoc]
  exact h.linkAt_eq _

theorem regularDirectory_kindFiles : RegularDirectory kindFiles ticketLayout.modelDir orderDir := by
  have hgen : Generated ticketLayout ["demo", "generated"] kindFiles :=
    generated_of_entries (by decide +kernel) (by decide +kernel) (by decide +kernel)
      (by decide +kernel) (by decide +kernel)
  exact hgen.regularDirectory (by decide +kernel)

theorem regularDirectory_orderFiles : RegularDirectory orderFiles ticketLayout.modelDir orderDir :=
  generated_orderFiles.regularDirectory (by decide +kernel)

theorem opening_orderSource : SplitsFirst opensInterface (lines (literalSource "Order" "order")) []
    "public interface Order \x7b".toList
    [discriminatorLiteral.toList ++ "order\";".toList, ['\x7d']] :=
  ⟨by decide +kernel, by simp, by decide +kernel⟩

theorem literal_orderSource : SplitsFirst (startsWith discriminatorLiteral)
    [discriminatorLiteral.toList ++ "order\";".toList, ['\x7d']] []
    (discriminatorLiteral.toList ++ "order\";".toList) [['\x7d']] :=
  ⟨rfl, by simp, by decide +kernel⟩

/-- The literal of the interface, which is not its name. -/
def orderInterface (fs : Files)
    (h : fs.textOf (orderDir ++ ["Order.java"]) = some (literalSource "Order" "order")) :
    LiteralInterface fs orderDir "Order" where
  stem_ne := by decide
  isInterface := by decide
  source := literalSource "Order" "order"
  source_eq := h
  literal :=
    { ahead := []
      opening := "public interface Order \x7b".toList
      between := []
      line := discriminatorLiteral.toList ++ "order\";".toList
      rest := [['\x7d']]
      opening_first := opening_orderSource
      line_first := literal_orderSource }

/-- The interface gets the type of its implementation. -/
def orderTyped : TypedInterface kindFiles orderDir "Order" where
  toLiteralInterface := orderInterface kindFiles (by decide +kernel)
  implementation := "public class OrderImpl \x7b\n" ++ discriminatorField ++ "Kind kind = " ++
    discriminatorFieldEnd ++ "\n\x7d\n"
  implementation_eq := by decide +kernel
  field :=
    { ahead := []
      opening := "public class OrderImpl \x7b".toList
      between := []
      line := discriminatorField.toList ++ "Kind kind = ".toList ++ discriminatorFieldEnd.toList
      rest := [['\x7d']]
      opening_first := ⟨by decide +kernel, by simp, by decide +kernel⟩
      line_first := ⟨rfl, by simp, by decide +kernel⟩ }
  type_ne := by decide +kernel
  custom := by decide +kernel

/-- The literal is exchanged for a constant of the type; without the implementation the pass
fails. -/
theorem typing_of_discriminators_order :
    (exec (Patch.discriminators.applyTo ticketLayout) (quietHost kindFiles)).1 =
        .ok [ticketLayout.modelDir / "Order.java"] ∧
      (exec (Patch.discriminators.applyTo ticketLayout) (quietHost kindFiles)).2.files.textOf
          (orderDir ++ ["Order.java"]) =
        some "public interface Order \x7b\n  Kind _DISCRIMINATOR_TYPE_NAME = Kind.ORDER;\n\x7d\n" ∧
      ∃ host', exec (Patch.discriminators.applyTo ticketLayout) (quietHost orderFiles) =
        (.error (.of (.shape (.missingImplementation (ticketLayout.modelDir / "Order.java")
          (ticketLayout.modelDir / "OrderImpl.java")))), host') := by
  have hrun : (exec (Patch.discriminators.applyTo ticketLayout) (quietHost kindFiles)).1 =
      .ok [ticketLayout.modelDir / "Order.java"] := by
    decide +kernel
  have houtput : orderTyped.output =
      "public interface Order \x7b\n  Kind _DISCRIMINATOR_TYPE_NAME = Kind.ORDER;\n\x7d\n" := by
    decide +kernel
  refine ⟨hrun, ?_, ?_⟩
  · have htyped := (@typing_of_discriminators (quietHost kindFiles) _ _ regularDirectory_kindFiles).1
      _ _ (exec_eq_of_fst hrun)
    rw [← houtput]
    exact htyped.2 "Order" orderTyped
  · have hnames : sourceNames orderFiles ticketLayout.modelDir = ["Order.java"] := by decide +kernel
    have interface : LiteralInterface orderFiles orderDir "Order" :=
      orderInterface orderFiles (by decide +kernel)
    have huntypable : Untypable ticketLayout.modelDir orderFiles orderDir "Order"
        (.missingImplementation (ticketLayout.modelDir / "Order.java")
          (ticketLayout.modelDir / "OrderImpl.java")) :=
      .missing ⟨interface⟩ (by decide +kernel)
    have hfirst : ∀ stem error, Untypable ticketLayout.modelDir orderFiles orderDir stem error →
        ¬(sourceName stem).toList < (sourceName "Order").toList := by
      intro stem error herror
      obtain ⟨interface'⟩ := herror.literal
      have hmem := regularDirectory_orderFiles.mem_of_literalInterface interface'
      rw [hnames, List.mem_singleton] at hmem
      rw [hmem]
      exact lt_irrefl _
    have hwritable : Writable (quietHost orderFiles) ticketLayout.modelDir
        (sourceNames orderFiles ticketLayout.modelDir) := by
      refine ⟨⟨fun _ => rfl, regularDirectory_orderFiles.wellFormed.isTree,
        regularDirectory_orderFiles.wellFormed.distinct, ?_⟩, orderDir, ?_⟩
      · rw [hnames, List.forall_mem_singleton]
        exact ⟨literalSource "Order" "order", by decide +kernel⟩
      · exact ⟨by decide +kernel, ⟨0o755, by decide +kernel⟩, by decide +kernel,
          ⟨orderDir ++ [".forge-XXXXXX.tmp"], by decide +kernel⟩⟩
    have hlist : ∃ entries, (quietHost orderFiles).files.list ticketLayout.modelDir = .ok entries :=
      ⟨orderFiles.children orderDir, by decide +kernel⟩
    exact ((@typing_of_discriminators (quietHost orderFiles) _ _ regularDirectory_orderFiles).2
      "Order" _ huntypable).2 hfirst hwritable hlist

end RamlBuild
