import RamlBuild.Proofs.Files.Beside
import RamlBuild.Proofs.Sources.TypedInterfaces

/-!
# Pairing interfaces with implementations

The sources of a directory are listed as model types, told by their names alone. Where every
implementation has its interface beside it and every interface its implementation, each of them
belongs to one type; otherwise the first source by name that lacks the other one is told.

## Main definitions

* `HasSource`, `DeclaresInterface` — the sources in a directory
* `Unpaired` — a source that lacks its other half
* `Pairing` — a list of model types that pairs the sources of a directory

## Main results

* `LegibleDirectory.exec_modelType?` — a source is looked at, or lacks its other half
* `LegibleDirectory.exec_modelTypesAmong` — all sources are, or the first one that lacks it is told
* `pairing_of_modelTypes` — what is listed of a directory, and when
-/

namespace RamlBuild

open Build Text

variable {host : Host} {fs : Files} {p : Path} {dir : Location} {stem base : String}
  {error : ShapeError} {type : ModelType} {types : List ModelType}

/-! ### Sources and their other halves -/

/-- A source file of that name is in the directory. -/
def HasSource (fs : Files) (dir : Location) (stem : String) : Prop :=
  stem ≠ "" ∧ (fs.contentsAt (dir ++ [sourceName stem])).isSome = true

/-- A source in the directory has a line that declares a public interface. -/
def DeclaresInterface (fs : Files) (dir : Location) (stem : String) : Prop :=
  stem ≠ "" ∧ ∃ text, fs.textOf (dir ++ [sourceName stem]) = some text ∧
    ∃ line ∈ lines text, "public interface".toList <+: line

/-- Whether a type is named like an implementation. -/
def NamesImplementation (stem : String) : Prop :=
  Path.implEnding.toList <:+ stem.toList

/-- What a source lacks: an implementation its interface, or an interface that is declared its
implementation. The error names the source. -/
inductive Unpaired (p : Path) (fs : Files) (dir : Location) : String → ShapeError → Prop where
  | lone {base : String} (himplementation : HasSource fs dir (base ++ Path.implEnding))
      (hinterface : ¬HasSource fs dir base) :
      Unpaired p fs dir (base ++ Path.implEnding)
        (.loneImplementation (p / implementationName base))
  | missing {stem : String} (hname : ¬NamesImplementation stem)
      (hinterface : DeclaresInterface fs dir stem)
      (himplementation : ¬HasSource fs dir (stem ++ Path.implEnding)) :
      Unpaired p fs dir stem
        (.missingImplementation (p / sourceName stem) (p / sourceName stem).implementation)

/-- The model type of that name. -/
def typeNamed (p : Path) (stem : String) : ModelType :=
  ⟨stem, p / sourceName stem, (p / sourceName stem).implementation⟩

/-- Model types that pair the sources of a directory: they are told by the names of the interfaces,
in the order of these, and no source is left over or used twice. -/
structure Pairing (p : Path) (fs : Files) (dir : Location) (types : List ModelType) : Prop where
  /-- They are in the order of the files' names, without repetition. -/
  ordered : types.Pairwise fun type type' =>
    (sourceName type.name).toList < (sourceName type'.name).toList
  /-- An interface is the source of that name. -/
  interface_eq : ∀ type ∈ types, type.interface = p / sourceName type.name
  resolve_interface : ∀ type ∈ types,
    fs.resolve type.interface = .ok (dir ++ [sourceName type.name])
  /-- An implementation is told by its interface. -/
  implementation_eq : ∀ type ∈ types, type.implementation = type.interface.implementation
  resolve_implementation : ∀ type ∈ types,
    fs.resolve type.implementation = .ok (dir ++ [implementationName type.name])
  /-- Every implementation belongs to one type. -/
  of_implementation : ∀ base, HasSource fs dir (base ++ Path.implEnding) →
    ∃! type, type ∈ types ∧ fs.resolve type.implementation = .ok (dir ++ [implementationName base])
  /-- Every interface that is declared belongs to one type. -/
  of_interface : ∀ stem, ¬NamesImplementation stem → DeclaresInterface fs dir stem →
    ∃! type, type ∈ types ∧ fs.resolve type.interface = .ok (dir ++ [sourceName stem])

theorem namesImplementation_append (base : String) :
    NamesImplementation (base ++ Path.implEnding) := by
  rw [NamesImplementation, String.toList_append]
  exact List.suffix_append _ _

theorem append_implEnding_injective :
    Function.Injective fun base : String => base ++ Path.implEnding := by
  intro base base' heq
  have htext := congrArg String.toList heq
  simp only [String.toList_append] at htext
  exact String.toList_inj.1 (List.append_cancel_right htext)

theorem NamesImplementation.exists_base (h : NamesImplementation stem) :
    ∃ base, stem = base ++ Path.implEnding := by
  obtain ⟨base, hbase⟩ := h
  refine ⟨String.ofList base, String.toList_inj.1 ?_⟩
  rw [String.toList_append, String.toList_ofList, hbase]

theorem baseName_child (h : IsPlainName (implementationName base)) :
    (p / implementationName base).baseName = base := by
  have hstem : (p / implementationName base).stem = base ++ Path.implEnding :=
    stem_child h (by simp [Path.implEnding])
  have hends : endsWith Path.implEnding (base ++ Path.implEnding).toList = true :=
    endsWith_iff.2 (namesImplementation_append base)
  have hlength : (base ++ Path.implEnding).toList.length - 4 = base.toList.length := by
    rw [String.toList_append, List.length_append]
    exact Nat.add_sub_cancel_right _ 4
  rw [Path.baseName, hstem]
  simp only [hends, if_true]
  rw [hlength, String.toList_append, List.take_left, String.ofList_toList]

theorem DeclaresInterface.hasSource (h : DeclaresInterface fs dir stem) : HasSource fs dir stem := by
  obtain ⟨hne, text, htext, -⟩ := h
  rw [Files.textOf_eq_bind] at htext
  exact ⟨hne, Option.isSome_iff_exists.2 ((Option.bind_eq_some_iff.1 htext).imp fun _ h => h.1)⟩

theorem declaresInterface_iff {text : String} (hne : stem ≠ "")
    (htext : fs.textOf (dir ++ [sourceName stem]) = some text) :
    DeclaresInterface fs dir stem ↔ declaresInterface text = true := by
  rw [declaresInterface, List.any_eq_true]
  simp only [DeclaresInterface, opensInterface, startsWith_iff, htext, Option.some.injEq,
    exists_eq_left', ne_eq, hne, not_false_eq_true, true_and]

theorem Unpaired.hasSource (h : Unpaired p fs dir stem error) : HasSource fs dir stem := by
  cases h with
  | lone himplementation => exact himplementation
  | missing _ hinterface => exact hinterface.hasSource

/-- An implementation lacks its interface. -/
theorem Unpaired.not_hasSource_base (h : Unpaired p fs dir (base ++ Path.implEnding) error) :
    ¬HasSource fs dir base := by
  generalize hstem : base ++ Path.implEnding = stem at h
  cases h with
  | lone himplementation hinterface =>
    obtain rfl := append_implEnding_injective hstem
    exact hinterface
  | missing hname => exact absurd (hstem ▸ namesImplementation_append base) hname

/-- Another source is declared and lacks its implementation. -/
theorem Unpaired.of_interface (h : Unpaired p fs dir stem error) (hname : ¬NamesImplementation stem) :
    DeclaresInterface fs dir stem ∧ ¬HasSource fs dir (stem ++ Path.implEnding) := by
  cases h with
  | lone => exact absurd (namesImplementation_append _) hname
  | missing _ hinterface himplementation => exact ⟨hinterface, himplementation⟩

/-! ### Directories that can be read -/

/-- A directory of regular files, of which it can be listed what there is and read what is a
source. -/
structure LegibleDirectory (host : Host) (p : Path) (dir : Location) : Prop where
  regular : RegularDirectory host.files p dir
  readable : Readable host p (sourceNames host.files p)
  listed : ∃ entries, host.files.list p = .ok entries

namespace LegibleDirectory

variable {host' : Host} {new : String} (h : LegibleDirectory host p dir)

include h

theorem of_onlyReads (hreads : OnlyReads host host') : LegibleDirectory host' p dir := by
  obtain ⟨hregular, hreadable, hlisted⟩ := h
  refine ⟨?_, ?_, ?_⟩
  · rwa [hreads.files_eq]
  · rw [hreads.files_eq]
    exact hreadable.of_onlyReads hreads
  · rwa [hreads.files_eq]

theorem text_ne_empty : p.text ≠ "" :=
  (Files.requirePath_eq_ok_iff.1 (Files.requirePath_of_locate h.regular.resolve)).1

theorem hasSource_iff :
    HasSource host.files dir stem ↔ sourceName stem ∈ sourceNames host.files p := by
  constructor
  · rintro ⟨hne, hsome⟩
    exact h.regular.mem_sourceNames hne hsome
  · intro hmem
    obtain ⟨-, dir', -, e, hresolve, -, hget, hfile⟩ :=
      (mem_sourceNames h.regular.wellFormed.distinct).1 hmem
    obtain rfl := Except.ok.inj (h.regular.resolve.symm.trans hresolve)
    refine ⟨(h.regular.plain_of_mem_sourceNames hmem).2, ?_⟩
    rw [Files.contentsAt, hget]
    cases e with
    | file => rfl
    | directory | link => contradiction

theorem isPlainName (hsource : HasSource host.files dir stem) : IsPlainName (sourceName stem) :=
  (h.regular.plain_of_mem_sourceNames (h.hasSource_iff.1 hsource)).1

/-- The path of a source leads to it. -/
theorem resolve_source (hsource : HasSource host.files dir stem) :
    host.files.resolve (p / sourceName stem) = .ok (dir ++ [sourceName stem]) := by
  obtain ⟨text, htext⟩ := h.readable.text _ (h.hasSource_iff.1 hsource)
  obtain ⟨loc, -, -, -, hresolve, -⟩ := textAt_eq_ok_iff.1 htext
  have hstep := Files.resolve_child_of_reach (h.isPlainName hsource)
    (Files.reach_of_resolve h.regular.resolve) (h.regular.linkAt_eq _)
    (Files.requirePath_of_locate hresolve)
  rw [hstep] at hresolve
  rw [hstep, hresolve, Files.eq_append_of_takeStep hresolve]

/-- The path beside a source leads to a source if this is in the directory. -/
theorem resolve_beside (hname : IsPlainName new) (hsource : HasSource host.files dir stem) :
    host.files.resolve ((p / new).withFileName (sourceName stem)) =
      .ok (dir ++ [sourceName stem]) :=
  Files.resolve_withFileName h.regular.wellFormed.isTree hname (h.isPlainName hsource)
    h.text_ne_empty (Files.reach_of_resolve h.regular.resolve) (h.regular.linkAt_eq _)
    (h.resolve_source hsource)

theorem isFile_beside_iff (hname : IsPlainName new) (hplain : IsPlainName (sourceName stem))
    (hne : stem ≠ "") :
    host.files.isFile ((p / new).withFileName (sourceName stem)) = true ↔
      HasSource host.files dir stem := by
  constructor
  · intro hfile
    unfold Files.isFile at hfile
    split at hfile
    · rename_i loc contents mode shared hstat
      obtain ⟨hresolve, hget⟩ := stat_eq_ok_iff.1 hstat
      obtain rfl := Files.eq_of_resolve_withFileName h.regular.wellFormed.isTree hname hplain
        h.text_ne_empty (Files.reach_of_resolve h.regular.resolve) (h.regular.linkAt_eq _) hresolve
      refine ⟨hne, ?_⟩
      rw [Files.contentsAt, hget]
      rfl
    · contradiction
  · intro hsource
    obtain ⟨contents, hcontents⟩ := Option.isSome_iff_exists.1 hsource.2
    obtain ⟨mode, shared, hget⟩ := Files.contentsAt_eq_some_iff.1 hcontents
    rw [Files.isFile, stat_eq_ok_iff.2 ⟨h.resolve_beside hname hsource, hget⟩]

theorem isFile_interface_iff (hbase : base ≠ "")
    (hsource : HasSource host.files dir (base ++ Path.implEnding)) :
    host.files.isFile (p / implementationName base).interface = true ↔
      HasSource host.files dir base := by
  have hname := h.isPlainName hsource
  have hpath : (p / implementationName base).interface =
      (p / implementationName base).withFileName (sourceName base) := by
    rw [Path.interface, baseName_child hname]
    rfl
  rw [hpath]
  refine h.isFile_beside_iff hname (isPlainName_sourceName ?_) hbase
  have hslash := not_mem_of_isPlainName_sourceName hname
  rw [String.toList_append, List.mem_append, not_or] at hslash
  exact hslash.1

theorem implementation_source (hsource : HasSource host.files dir stem) :
    (p / sourceName stem).implementation =
      (p / sourceName stem).withFileName (implementationName stem) := by
  rw [Path.implementation, stem_child (h.isPlainName hsource) hsource.1]
  rfl

theorem isFile_implementation_iff (hsource : HasSource host.files dir stem) :
    host.files.isFile (p / sourceName stem).implementation = true ↔
      HasSource host.files dir (stem ++ Path.implEnding) := by
  rw [h.implementation_source hsource]
  exact h.isFile_beside_iff (h.isPlainName hsource)
    (isPlainName_implementationName (h.isPlainName hsource)) (by simp [Path.implEnding])

/-- The text of a source is what is read by its path. -/
theorem textAt_source (hsource : HasSource host.files dir stem) :
    ∃ text, textAt host.files (p / sourceName stem) = .ok (some text) ∧
      host.files.textOf (dir ++ [sourceName stem]) = some text := by
  obtain ⟨text, htext⟩ := h.readable.text _ (h.hasSource_iff.1 hsource)
  obtain ⟨loc, contents, mode, shared, hresolve, hget, -, hcontents⟩ := textAt_eq_ok_iff.1 htext
  obtain rfl := Except.ok.inj ((h.resolve_source hsource).symm.trans hresolve)
  refine ⟨text, htext, ?_⟩
  rw [Files.textOf_eq_bind, Files.contentsAt, hget]
  exact hcontents

/-! ### The model types -/

/-- A source is the interface of the type of its name, if an implementation is beside it. -/
theorem modelTypeAt?_source (hsource : HasSource host.files dir stem) :
    modelTypeAt? host.files (p / sourceName stem) = some type ↔
      type = typeNamed p stem ∧ ¬NamesImplementation stem ∧
        HasSource host.files dir (stem ++ Path.implEnding) := by
  have hname := h.isPlainName hsource
  have hfile := h.isFile_implementation_iff hsource
  rw [modelTypeAt?, isImplementation_child hname hsource.1, stem_child hname hsource.1, ← typeNamed]
  split
  · rename_i hends
    have himplementation : NamesImplementation stem := endsWith_iff.1 hends
    simp [himplementation]
  · rename_i hends
    have hinterface : ¬NamesImplementation stem := fun h => hends (endsWith_iff.2 h)
    split
    · rename_i hbeside
      simp [hinterface, hfile.1 hbeside, eq_comm]
    · rename_i hbeside
      have hnone : ¬HasSource host.files dir (stem ++ Path.implEnding) := fun h => hbeside (hfile.2 h)
      simp [hinterface, hnone]

/-- An implementation is passed over, unless it lacks its interface. -/
theorem exec_modelType?_implementation (hbase : base ≠ "")
    (hsource : HasSource host.files dir (base ++ Path.implEnding)) :
    exec (modelType? (p / implementationName base)) host = (.ok none, host) ∧
        HasSource host.files dir base ∨
      exec (modelType? (p / implementationName base)) host =
          (.error (.of (.shape (.loneImplementation (p / implementationName base)))), host) ∧
        ¬HasSource host.files dir base := by
  have himplementation : (p / implementationName base).isImplementation = true := by
    rw [implementationName, isImplementation_child (h.isPlainName hsource) hsource.1]
    exact endsWith_iff.2 (namesImplementation_append base)
  have hinterface := h.isFile_interface_iff hbase hsource
  rw [modelType?, if_pos himplementation, isFile, exec_asking_bind]
  split
  · rename_i hfile
    exact .inl ⟨rfl, hinterface.1 hfile⟩
  · rename_i hfile
    exact .inr ⟨rfl, fun hbeside => hfile (hinterface.2 hbeside)⟩

/-- Another source is looked at, unless it declares an interface and lacks its implementation. -/
theorem exec_modelType?_interface (hname : ¬NamesImplementation stem)
    (hsource : HasSource host.files dir stem) :
    (∃ type? host', exec (modelType? (p / sourceName stem)) host = (.ok type?, host') ∧
        OnlyReads host host') ∧
        (DeclaresInterface host.files dir stem → HasSource host.files dir (stem ++ Path.implEnding)) ∨
      (∃ host', exec (modelType? (p / sourceName stem)) host = (.error (.of (.shape
          (.missingImplementation (p / sourceName stem) (p / sourceName stem).implementation))),
          host')) ∧
        DeclaresInterface host.files dir stem ∧
        ¬HasSource host.files dir (stem ++ Path.implEnding) := by
  have hinterface : ¬(p / sourceName stem).isImplementation = true := by
    rw [isImplementation_child (h.isPlainName hsource) hsource.1]
    exact fun hends => hname (endsWith_iff.1 hends)
  have hfile := h.isFile_implementation_iff hsource
  obtain ⟨text, hread, htext⟩ := h.textAt_source hsource
  have hdeclares := declaresInterface_iff hsource.1 htext
  rw [modelType?, if_neg hinterface, isFile, exec_asking_bind]
  split
  · rename_i hbeside
    exact .inl ⟨⟨_, host, rfl, chains_onlyReads.refl host⟩, fun _ => hfile.1 hbeside⟩
  rename_i hbeside
  rw [exec_bind_of_ok (exec_readText_of_textAt h.readable.quiet hread)]
  split
  · rename_i hdeclared
    exact .inr ⟨⟨_, rfl⟩, hdeclares.2 hdeclared, fun hsome => hbeside (hfile.2 hsome)⟩
  · rename_i hdeclared
    exact .inl ⟨⟨none, _, rfl, onlyReads_counted host⟩,
      fun hdeclared' => absurd (hdeclares.1 hdeclared') hdeclared⟩

/-- A source is looked at, unless it lacks its other half. -/
theorem exec_modelType? (hne : stem ≠ Path.implEnding) (hsource : HasSource host.files dir stem) :
    (∃ type? host', exec (modelType? (p / sourceName stem)) host = (.ok type?, host') ∧
        OnlyReads host host') ∧ (∀ error, ¬Unpaired p host.files dir stem error) ∨
      ∃ error host', Unpaired p host.files dir stem error ∧
        exec (modelType? (p / sourceName stem)) host = (.error (.of (.shape error)), host') := by
  by_cases hname : NamesImplementation stem
  · obtain ⟨base, rfl⟩ := hname.exists_base
    have hbase : base ≠ "" := by
      rintro rfl
      exact hne (String.empty_append)
    rcases h.exec_modelType?_implementation hbase hsource with ⟨hrun, hbeside⟩ | ⟨hrun, hbeside⟩
    · exact .inl ⟨⟨none, host, hrun, chains_onlyReads.refl host⟩,
        fun error herror => herror.not_hasSource_base hbeside⟩
    · exact .inr ⟨_, host, .lone hsource hbeside, hrun⟩
  · rcases h.exec_modelType?_interface hname hsource with
      ⟨hrun, hbeside⟩ | ⟨⟨host', hrun⟩, hdeclares, hbeside⟩
    · refine .inl ⟨hrun, fun error herror => ?_⟩
      obtain ⟨hdeclares, hnone⟩ := herror.of_interface hname
      exact hnone (hbeside hdeclares)
    · exact .inr ⟨_, host', .missing hname hdeclares hbeside, hrun⟩

/-- All sources are looked at, or the first one that lacks its other half is told. -/
theorem exec_modelTypesAmong {stems : List String}
    (hstems : ∀ stem ∈ stems, stem ≠ Path.implEnding ∧ HasSource host.files dir stem) :
    (∃ types host', exec (modelTypesAmong (stems.map fun stem => p / sourceName stem)) host =
        (.ok types, host')) ∧ (∀ stem ∈ stems, ∀ error, ¬Unpaired p host.files dir stem error) ∨
      ∃ before stem after error host', stems = before ++ stem :: after ∧
        (∀ s ∈ before, ∀ error, ¬Unpaired p host.files dir s error) ∧
        Unpaired p host.files dir stem error ∧
        exec (modelTypesAmong (stems.map fun stem => p / sourceName stem)) host =
          (.error (.of (.shape error)), host') := by
  induction stems generalizing host with
  | nil => exact .inl ⟨⟨[], host, rfl⟩, by simp⟩
  | cons stem rest ih =>
    obtain ⟨hne, hsource⟩ := hstems stem List.mem_cons_self
    rw [List.map_cons, modelTypesAmong]
    rcases h.exec_modelType? hne hsource with
      ⟨⟨type?, host₁, hrun, hreads⟩, hpaired⟩ | ⟨error, host', herror, hrun⟩
    · have hrest : ∀ s ∈ rest, s ≠ Path.implEnding ∧ HasSource host₁.files dir s := by
        intro s hs
        rw [hreads.files_eq]
        exact hstems s (List.mem_cons_of_mem _ hs)
      rw [exec_bind_of_ok hrun]
      rw [← hreads.files_eq] at hpaired ⊢
      rcases ih (h.of_onlyReads hreads) hrest with
        ⟨⟨types, host', hothers⟩, hall⟩ |
          ⟨before, first, after, error, host', rfl, hbefore, herror, hothers⟩
      · rw [exec_bind_of_ok hothers]
        exact .inl ⟨⟨_, _, rfl⟩, List.forall_mem_cons.2 ⟨hpaired, hall⟩⟩
      · rw [exec_bind_of_error hothers]
        exact .inr ⟨stem :: before, first, after, error, host', rfl,
          List.forall_mem_cons.2 ⟨hpaired, hbefore⟩, herror, rfl⟩
    · rw [exec_bind_of_error hrun]
      exact .inr ⟨[], stem, rest, error, host', rfl, by simp, herror, rfl⟩

/-- The sources of a directory are those that are listed, in the order of their names. -/
theorem exists_stems :
    ∃ stems : List String, (stems.Pairwise fun stem stem' =>
        (sourceName stem).toList < (sourceName stem').toList) ∧
      (∀ stem, HasSource host.files dir stem ↔ stem ∈ stems) ∧
      sourcePaths host.files p = stems.map fun stem => p / sourceName stem := by
  obtain ⟨stems, hnodup, hstems, hpaths⟩ := h.regular.sourcePaths_eq
  have hsorted := pairwise_sourceNames host.files p
  rw [hstems, List.pairwise_map] at hsorted
  refine ⟨stems, (hsorted.and hnodup).imp ?_, fun stem => ?_, hpaths⟩
  · rintro stem stem' ⟨hle, hne⟩
    refine lt_of_le_of_ne (not_lt.1 hle) fun heq => hne ?_
    exact sourceName_injective (String.toList_inj.1 heq)
  · rw [h.hasSource_iff, hstems, List.mem_map_of_injective sourceName_injective]

end LegibleDirectory

/-! ### The types of a directory -/

/-- The types of a directory are told by the names of the sources that have an implementation
beside them. -/
theorem mem_modelTypes_iff (h : LegibleDirectory host p dir) :
    type ∈ (sourcePaths host.files p).filterMap (modelTypeAt? host.files) ↔
      type = typeNamed p type.name ∧ ¬NamesImplementation type.name ∧
        HasSource host.files dir type.name ∧
        HasSource host.files dir (type.name ++ Path.implEnding) := by
  obtain ⟨stems, -, hmem, hpaths⟩ := h.exists_stems
  rw [hpaths, List.mem_filterMap]
  constructor
  · rintro ⟨file, hfile, htype⟩
    obtain ⟨stem, hstem, rfl⟩ := List.mem_map.1 hfile
    have hsource := (hmem stem).2 hstem
    obtain ⟨rfl, hname, hbeside⟩ := (h.modelTypeAt?_source hsource).1 htype
    exact ⟨rfl, hname, hsource, hbeside⟩
  · rintro ⟨htype, hname, hsource, hbeside⟩
    exact ⟨p / sourceName type.name, List.mem_map_of_mem ((hmem _).1 hsource),
      (h.modelTypeAt?_source hsource).2 ⟨htype, hname, hbeside⟩⟩

/-- Where no source lacks its other half, the types pair the sources. -/
theorem pairing_of_paired (h : LegibleDirectory host p dir)
    (hnames : ∀ stem, HasSource host.files dir stem →
      ¬(Path.implEnding ++ Path.implEnding).toList <:+ stem.toList)
    (hpaired : ∀ stem error, ¬Unpaired p host.files dir stem error) :
    Pairing p host.files dir ((sourcePaths host.files p).filterMap (modelTypeAt? host.files)) := by
  have hleads : ∀ type ∈ (sourcePaths host.files p).filterMap (modelTypeAt? host.files),
      host.files.resolve type.interface = .ok (dir ++ [sourceName type.name]) ∧
        host.files.resolve type.implementation = .ok (dir ++ [implementationName type.name]) := by
    intro type htype
    obtain ⟨heq, -, hsource, hbeside⟩ := (mem_modelTypes_iff h).1 htype
    rw [heq]
    refine ⟨h.resolve_source hsource, ?_⟩
    rw [typeNamed]
    simp only
    rw [h.implementation_source hsource]
    exact h.resolve_beside (h.isPlainName hsource) hbeside
  -- The type of a source is the one of its name, and locations tell names apart.
  have hunique : ∀ type ∈ (sourcePaths host.files p).filterMap (modelTypeAt? host.files),
      ∀ type' ∈ (sourcePaths host.files p).filterMap (modelTypeAt? host.files),
      type.name = type'.name → type = type' := by
    intro type htype type' htype' hname
    rw [((mem_modelTypes_iff h).1 htype).1, ((mem_modelTypes_iff h).1 htype').1, hname]
  refine ⟨?_, ?_, fun type htype => (hleads type htype).1, ?_, fun type htype => (hleads type htype).2,
    ?_, ?_⟩
  · obtain ⟨stems, hsorted, hmem, hpaths⟩ := h.exists_stems
    rw [hpaths, List.pairwise_filterMap, List.pairwise_map]
    refine hsorted.imp_of_mem ?_
    intro stem stem' hstem hstem' hlt type htype type' htype'
    obtain ⟨rfl, -⟩ := (h.modelTypeAt?_source ((hmem stem).2 hstem)).1 htype
    obtain ⟨rfl, -⟩ := (h.modelTypeAt?_source ((hmem stem').2 hstem')).1 htype'
    exact hlt
  · intro type htype
    rw [((mem_modelTypes_iff h).1 htype).1]
    rfl
  · intro type htype
    rw [((mem_modelTypes_iff h).1 htype).1]
    rfl
  · intro base himplementation
    have hinterface : HasSource host.files dir base := by
      by_contra hnone
      exact hpaired _ _ (.lone himplementation hnone)
    have hname : ¬NamesImplementation base := by
      intro hname
      obtain ⟨base', rfl⟩ := hname.exists_base
      apply hnames _ himplementation
      rw [String.append_assoc]
      exact (List.suffix_append base'.toList _).trans (by rw [← String.toList_append])
    have hmem : typeNamed p base ∈ _ := (mem_modelTypes_iff h).2
      ⟨rfl, hname, hinterface, himplementation⟩
    refine ⟨typeNamed p base, ⟨hmem, (hleads _ hmem).2⟩, ?_⟩
    rintro type ⟨htype, hresolve⟩
    rw [(hleads type htype).2] at hresolve
    have hsame := List.singleton_inj.1 (List.append_inj' (Except.ok.inj hresolve) rfl).2
    exact hunique _ htype _ hmem (append_implEnding_injective (sourceName_injective hsame))
  · intro stem hname hinterface
    have himplementation : HasSource host.files dir (stem ++ Path.implEnding) := by
      by_contra hnone
      exact hpaired _ _ (.missing hname hinterface hnone)
    have hmem : typeNamed p stem ∈ _ := (mem_modelTypes_iff h).2
      ⟨rfl, hname, hinterface.hasSource, himplementation⟩
    refine ⟨typeNamed p stem, ⟨hmem, (hleads _ hmem).1⟩, ?_⟩
    rintro type ⟨htype, hresolve⟩
    rw [(hleads type htype).1] at hresolve
    have hsame := List.singleton_inj.1 (List.append_inj' (Except.ok.inj hresolve) rfl).2
    exact hunique _ htype _ hmem (sourceName_injective hsame)

/-- A directory has its types listed exactly when no source lacks its other half. The list pairs the
sources; otherwise the first source by name that lacks it is told. -/
theorem pairing_of_modelTypes (h : LegibleDirectory host p dir)
    (hnames : ∀ stem, HasSource host.files dir stem → stem ≠ Path.implEnding ∧
      ¬(Path.implEnding ++ Path.implEnding).toList <:+ stem.toList) :
    ((∃ types, (exec (modelTypes p) host).1 = .ok types) ↔
        ∀ stem error, ¬Unpaired p host.files dir stem error) ∧
      (∀ types, (exec (modelTypes p) host).1 = .ok types → Pairing p host.files dir types) ∧
      ∀ failure, (exec (modelTypes p) host).1 = .error failure →
        ∃ stem error, failure = .of (.shape error) ∧ Unpaired p host.files dir stem error ∧
          ∀ stem' error', Unpaired p host.files dir stem' error' →
            ¬(sourceName stem').toList < (sourceName stem).toList := by
  obtain ⟨entries, hlist⟩ := h.listed
  obtain ⟨host₁, hsources, hreads⟩ :=
    exec_sourceFiles_of_list h.regular.wellFormed h.readable.quiet hlist
  obtain ⟨stems, hsorted, hmem, hpaths⟩ := h.exists_stems
  have hrun : exec (modelTypes p) host =
      exec (modelTypesAmong (stems.map fun stem => p / sourceName stem)) host₁ := by
    rw [modelTypes, exec_bind_of_ok hsources, hpaths]
  have hstems : ∀ stem ∈ stems, stem ≠ Path.implEnding ∧ HasSource host₁.files dir stem := by
    intro stem hstem
    have hsource := (hmem stem).2 hstem
    rw [hreads.files_eq]
    exact ⟨(hnames stem hsource).1, hsource⟩
  have hstep := (h.of_onlyReads hreads).exec_modelTypesAmong hstems
  rw [← hrun, hreads.files_eq] at hstep
  rcases hstep with ⟨⟨types, host', hok⟩, hpaired⟩ |
    ⟨before, stem, after, error, host', rfl, hbefore, herror, hfailed⟩
  · have hall : ∀ stem error, ¬Unpaired p host.files dir stem error :=
      fun stem error herror => hpaired stem ((hmem stem).1 herror.hasSource) error herror
    rw [hok]
    refine ⟨⟨fun _ => hall, fun _ => ⟨types, rfl⟩⟩, ?_, ?_⟩
    · intro types' htypes
      obtain rfl := Except.ok.inj htypes
      obtain ⟨-, -, rfl⟩ := exec_modelTypes_ok h.regular.wellFormed hok
      exact pairing_of_paired h (fun stem hsource => (hnames stem hsource).2) hall
    · intro failure hfailure
      contradiction
  · rw [hfailed]
    refine ⟨⟨?_, fun hall => absurd herror (hall stem error)⟩, ?_, ?_⟩
    · rintro ⟨types, htypes⟩
      contradiction
    · intro types htypes
      contradiction
    · intro failure hfailure
      obtain rfl := Except.error.inj hfailure
      refine ⟨stem, error, rfl, herror, ?_⟩
      intro stem' error' herror'
      obtain ⟨-, hrest, -⟩ := List.pairwise_append.1 hsorted
      rcases List.mem_append.1 ((hmem stem').1 herror'.hasSource) with hmem' | hmem'
      · exact absurd herror' (hbefore stem' hmem' error')
      · rcases List.mem_cons.1 hmem' with rfl | hmem'
        · exact lt_irrefl _
        · exact ((List.pairwise_cons.1 hrest).1 stem' hmem').asymm

/-- The directory of the model types, in another spelling. -/
def orderPath : Path := ⟨"demo/generated/model/."⟩

/-- The directory can be read by it. -/
theorem legibleDirectory_orderPath (stems : List String) {entries : List (String × Entry)}
    {layout : Layout} (hregular : RegularDirectory fs layout.modelDir orderDir)
    (hresolve : fs.resolve orderPath = .ok orderDir) (hlist : fs.list orderPath = .ok entries)
    (hstems : sourceNames fs orderPath = stems.map sourceName)
    (htexts : ∀ stem ∈ stems, ∃ text, textAt fs (orderPath / sourceName stem) = .ok (some text)) :
    LegibleDirectory (quietHost fs) orderPath orderDir ∧
      ∀ stem, HasSource fs orderDir stem → stem ∈ stems := by
  have hlegible : LegibleDirectory (quietHost fs) orderPath orderDir := by
    refine ⟨⟨hregular.wellFormed, hresolve, hregular.linkAt_eq⟩, ⟨fun _ => rfl,
      hregular.wellFormed.isTree, hregular.wellFormed.distinct, fun name hname => ?_⟩, entries, hlist⟩
    rw [show (quietHost fs).files = fs from rfl, hstems] at hname
    obtain ⟨stem, hstem, rfl⟩ := List.mem_map.1 hname
    exact htexts stem hstem
  refine ⟨hlegible, fun stem hsource => ?_⟩
  have hmem := hlegible.hasSource_iff.1 hsource
  rw [show (quietHost fs).files = fs from rfl, hstems] at hmem
  exact (List.mem_map_of_injective sourceName_injective).1 hmem

/-- An interface and its implementation are one type, told by paths that are spelt apart. An
interface alone is told. -/
theorem pairing_of_modelTypes_order :
    Pairing orderPath kindFiles orderDir [⟨"Order", ⟨"demo/generated/model/./Order.java"⟩,
        ⟨"demo/generated/model/OrderImpl.java"⟩⟩] ∧
      ∃ stem, Unpaired orderPath orderFiles orderDir stem
        (.missingImplementation ⟨"demo/generated/model/./Order.java"⟩
          ⟨"demo/generated/model/OrderImpl.java"⟩) := by
  constructor
  · obtain ⟨hlegible, hstems⟩ := legibleDirectory_orderPath ["Order", "OrderImpl"]
      regularDirectory_kindFiles (by decide +kernel)
      (show kindFiles.list orderPath = .ok (kindFiles.children orderDir) by decide +kernel)
      (by decide +kernel) (List.forall_mem_cons.2 ⟨⟨literalSource "Order" "order", by decide +kernel⟩,
        List.forall_mem_singleton.2 ⟨"public class OrderImpl \x7b\n" ++ discriminatorField ++
          "Kind kind = " ++ discriminatorFieldEnd ++ "\n\x7d\n", by decide +kernel⟩⟩)
    have hnames : ∀ stem, HasSource kindFiles orderDir stem → stem ≠ Path.implEnding ∧
        ¬(Path.implEnding ++ Path.implEnding).toList <:+ stem.toList := by
      intro stem hsource
      rcases List.mem_pair.1 (hstems stem hsource) with rfl | rfl <;> decide
    exact (pairing_of_modelTypes hlegible hnames).2.1 _ (by decide +kernel)
  · obtain ⟨hlegible, hstems⟩ := legibleDirectory_orderPath ["Order"]
      regularDirectory_orderFiles (by decide +kernel)
      (show orderFiles.list orderPath = .ok (orderFiles.children orderDir) by decide +kernel)
      (by decide +kernel)
      (List.forall_mem_singleton.2 ⟨literalSource "Order" "order", by decide +kernel⟩)
    have hnames : ∀ stem, HasSource orderFiles orderDir stem → stem ≠ Path.implEnding ∧
        ¬(Path.implEnding ++ Path.implEnding).toList <:+ stem.toList := by
      intro stem hsource
      rw [List.mem_singleton.1 (hstems stem hsource)]
      decide
    have hrun : (exec (modelTypes orderPath) (quietHost orderFiles)).1 =
        .error (.of (.shape (.missingImplementation ⟨"demo/generated/model/./Order.java"⟩
          ⟨"demo/generated/model/OrderImpl.java"⟩))) := by
      decide +kernel
    obtain ⟨stem, error, herror, hunpaired, -⟩ :=
      (pairing_of_modelTypes hlegible hnames).2.2 _ hrun
    obtain rfl := Cause.shape.inj (Failure.mk.inj herror).2
    exact ⟨stem, hunpaired⟩

end RamlBuild
