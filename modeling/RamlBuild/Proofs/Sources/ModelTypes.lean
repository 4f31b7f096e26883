import Mathlib.Data.List.Nodup
import RamlBuild.Proofs.Build.Files
import RamlBuild.Proofs.Files.Listing
import RamlBuild.Proofs.Files.Names
import RamlBuild.Proofs.Text.Search
import RamlBuild.Sources.ModelType

/-!
# Model types

The source files of a directory and the model types among them, told by the names in the directory.

## Main definitions

* `sourceNames` — the names of the source files in a directory
* `modelTypeAt?` — the model type that a source file is the interface of

## Main results

* `exec_sourceFiles_ok`, `exec_modelTypes_ok` — what is listed, with the files left alone
* `TypesOf.nodup_typeFileNames` — no file belongs to two model types
-/

namespace RamlBuild

open Build

variable {host host' : Host} {p q : Path} {name stem other : String}

/-! ### Names of sources -/

/-- The name of a source file, from that of what it declares. -/
def sourceName (stem : String) : String :=
  stem ++ ".java"

theorem isPlainName_sourceName (h : '/' ∉ stem.toList) : IsPlainName (sourceName stem) := by
  have htext : (sourceName stem).toList = stem.toList ++ ".java".toList := String.toList_append
  have hlength : 5 ≤ (sourceName stem).toList.length := by
    rw [htext, List.length_append]
    exact Nat.le_add_left 5 _
  refine ⟨?_, ?_, ?_, ?_⟩
  · intro heq
    rw [heq] at hlength
    exact absurd hlength (by decide)
  · intro heq
    rw [heq] at hlength
    exact absurd hlength (by decide)
  · intro heq
    rw [heq] at hlength
    exact absurd hlength (by decide)
  · rw [htext, List.mem_append, not_or]
    exact ⟨h, by decide⟩

theorem not_mem_of_isPlainName_sourceName (h : IsPlainName (sourceName stem)) :
    '/' ∉ stem.toList := by
  intro hmem
  apply h.2.2.2
  rw [sourceName, String.toList_append]
  exact List.mem_append_left _ hmem

theorem sourceName_injective : Function.Injective sourceName := by
  intro stem other h
  have htext := congrArg String.toList h
  rw [sourceName, sourceName, String.toList_append, String.toList_append] at htext
  exact String.toList_inj.1 (List.append_cancel_right htext)

theorem splitName_sourceName (hne : stem ≠ "") :
    Path.splitName (sourceName stem).toList = (stem.toList, some "java".toList) := by
  have hdot : '.' ∉ "java".toList := by decide
  have hstem : stem.toList ≠ [] := fun h => hne (String.toList_inj.1 h)
  have htext : (sourceName stem).toList = stem.toList ++ '.' :: "java".toList :=
    String.toList_append
  rw [Path.splitName, htext, Text.beforeLast?_append hdot, Text.afterLast_append hdot]
  split
  · contradiction
  · rename_i heq
    exact absurd (Option.some.inj heq) hstem
  · rename_i before _ heq
    rw [Option.some.inj heq]

theorem stem_child (h : IsPlainName (sourceName stem)) (hne : stem ≠ "") :
    (p / sourceName stem).stem = stem := by
  rw [Path.stem, Path.fileName?_child h]
  simp only
  rw [splitName_sourceName hne, String.ofList_toList]

theorem isSource_child (h : IsPlainName (sourceName stem)) (hne : stem ≠ "") :
    (p / sourceName stem).isSource = true := by
  rw [Path.isSource, Path.extension?, Path.fileName?_child h, Option.bind_some,
    splitName_sourceName hne]
  rfl

/-- A source file is named for what it declares. -/
theorem exists_stem_of_isSource (h : IsPlainName name) (hsource : (p / name).isSource = true) :
    ∃ stem, stem ≠ "" ∧ name = sourceName stem := by
  rw [Path.isSource, Path.extension?, Path.fileName?_child h, Option.bind_some,
    Path.splitName] at hsource
  split at hsource
  · contradiction
  · contradiction
  · rename_i before hnil hbefore
    have hjava : Text.afterLast '.' name.toList = "java".toList := by
      have := eq_of_beq hsource
      rw [Option.map_some] at this
      rw [← Option.some.inj this, String.toList_ofList]
    have htext := Text.eq_of_beforeLast? hbefore
    rw [hjava] at htext
    refine ⟨String.ofList before, ?_, ?_⟩
    · intro hempty
      apply hnil
      have := congrArg String.toList hempty
      rwa [String.toList_ofList] at this
    · apply String.toList_inj.1
      rw [sourceName, String.toList_append, String.toList_ofList]
      exact htext

theorem isImplementation_child (h : IsPlainName (sourceName stem)) (hne : stem ≠ "") :
    (p / sourceName stem).isImplementation = Text.endsWith Path.implEnding stem.toList := by
  rw [Path.isImplementation, stem_child h hne, isSource_child h hne, Bool.and_true]

theorem implementation_child (h : IsPlainName (sourceName stem)) (h' : IsPlainName other)
    (hne : stem ≠ "") :
    (p / other / sourceName stem).implementation =
      p / other / sourceName (stem ++ Path.implEnding) := by
  rw [Path.implementation, stem_child h hne, Path.withFileName_child h h']
  rfl

/-! ### Listing -/

/-- Whether a name is that of a source file. -/
def isSourceName (name : String) : Bool :=
  ((⟨""⟩ : Path) / name).isSource

theorem isSource_child_eq (h : IsPlainName name) : (p / name).isSource = isSourceName name := by
  rw [isSourceName, Path.isSource, Path.isSource, Path.extension?, Path.extension?,
    Path.fileName?_child h, Path.fileName?_child h]

/-- The names of the source files directly in the directory that a path leads to. -/
def sourceNames (fs : Files) (p : Path) : List String :=
  match fs.stat p with
  | .ok (dir, .directory _) =>
    (((fs.children dir).filter (·.2.isFile)).map Prod.fst).filter isSourceName
  | _ => []

theorem stat_eq_ok_iff {fs : Files} {loc : Location} {e : Entry} :
    fs.stat p = .ok (loc, e) ↔ fs.resolve p = .ok loc ∧ fs.get? loc = some e := by
  unfold Files.stat
  cases hresolve : fs.resolve p with
  | error error => simp [bind, Except.bind]
  | ok loc' =>
    simp only [bind, Except.bind, Files.entryAt, Except.ok.injEq]
    cases hget : fs.get? loc' with
    | none =>
      simp only [reduceCtorEq, false_iff, not_and]
      rintro rfl h
      rw [hget] at h
      contradiction
    | some e' =>
      simp only [Except.ok.injEq, Prod.mk.injEq]
      constructor
      · rintro ⟨rfl, rfl⟩
        exact ⟨rfl, hget⟩
      · rintro ⟨rfl, h⟩
        rw [hget] at h
        exact ⟨rfl, Option.some.inj h⟩

/-- What is listed is a source file in the directory, and every source file there is listed. -/
theorem mem_sourceNames {fs : Files} (h : fs.Distinct) :
    name ∈ sourceNames fs p ↔ isSourceName name = true ∧ ∃ dir mode e, fs.resolve p = .ok dir ∧
      fs.get? dir = some (.directory mode) ∧ fs.get? (dir ++ [name]) = some e ∧ e.isFile = true := by
  unfold sourceNames
  split
  · rename_i dir mode hstat
    obtain ⟨hresolve, hdir⟩ := stat_eq_ok_iff.1 hstat
    rw [List.mem_filter, List.mem_map, and_comm]
    refine and_congr_right fun _ => ?_
    constructor
    · rintro ⟨⟨name', e⟩, hmem, rfl⟩
      obtain ⟨hmem, hfile⟩ := List.mem_filter.1 hmem
      exact ⟨dir, mode, e, hresolve, hdir, (Files.mem_children_iff h.1).1 hmem, hfile⟩
    · rintro ⟨dir', mode', e, hresolve', -, hget, hfile⟩
      rw [hresolve] at hresolve'
      obtain rfl := Except.ok.inj hresolve'
      exact ⟨(name, e), List.mem_filter.2 ⟨(Files.mem_children_iff h.1).2 hget, hfile⟩, rfl⟩
  · rename_i hstat
    simp only [List.not_mem_nil, false_iff, not_and, not_exists]
    intro _ dir mode e hresolve hdir
    exact absurd (stat_eq_ok_iff.2 ⟨hresolve, hdir⟩) (hstat dir mode)

/-- No source file is listed twice. -/
theorem nodup_sourceNames {fs : Files} (h : fs.Distinct) : (sourceNames fs p).Nodup := by
  unfold sourceNames
  split
  · exact (Files.nodup_children h).sublist
      (List.filter_sublist.trans (List.filter_sublist.map Prod.fst))
  · exact List.nodup_nil

/-- The source files directly in the directory that a path leads to. -/
def sourcePaths (fs : Files) (p : Path) : List Path :=
  (sourceNames fs p).map fun name : String => p / name

theorem exec_sourceFiles_ok {files : List Path} (hfs : host.files.WellFormed)
    (h : exec (sourceFiles p) host = (.ok files, host')) :
    host'.files = host.files ∧ host'.faults = host.faults ∧ files = sourcePaths host.files p := by
  rw [sourceFiles, isDirectory, exec_asking_bind] at h
  split at h
  · obtain ⟨entries, host₁, hlist, h⟩ := exec_bind_ok h
    obtain ⟨rfl, hentries⟩ := reading_result (exec_within_ok hlist)
    obtain ⟨hfiles, rfl⟩ := Prod.mk.inj h
    refine ⟨rfl, rfl, ?_⟩
    obtain ⟨dir, mode, hresolve, hdir, rfl⟩ := Files.list_ok (hentries _ rfl)
    have hsource : ∀ x ∈ (host.files.children dir).filter (·.2.isFile),
        (p / x.1).isSource = isSourceName x.1 := by
      rintro ⟨name, e⟩ hmem
      have hget := (Files.mem_children_iff hfs.distinct.1).1 (List.mem_filter.1 hmem).1
      exact isSource_child_eq (hfs.namesPlainly dir name e hget)
    rw [← Except.ok.inj hfiles, sourcePaths, sourceNames, stat_eq_ok_iff.2 ⟨hresolve, hdir⟩]
    simp only [List.filter_map, List.map_map]
    exact congrArg (List.map _) (List.filter_congr hsource)
  · rename_i hdirectory
    obtain ⟨hfiles, rfl⟩ := Prod.mk.inj h
    refine ⟨rfl, rfl, ?_⟩
    rw [← Except.ok.inj hfiles, sourcePaths, sourceNames]
    split
    · rename_i hstat
      rw [Files.isDirectory, hstat] at hdirectory
      contradiction
    · rfl

/-! ### Model types -/

/-- The model type that a source file is the interface of. -/
def modelTypeAt? (fs : Files) (file : Path) : Option ModelType :=
  if file.isImplementation then none
  else if fs.isFile file.implementation then some ⟨file.stem, file, file.implementation⟩
  else none

theorem exec_modelType?_ok {file : Path} {type? : Option ModelType}
    (h : exec (modelType? file) host = (.ok type?, host')) :
    host'.files = host.files ∧ host'.faults = host.faults ∧
      type? = modelTypeAt? host.files file := by
  rw [modelType?] at h
  unfold modelTypeAt?
  by_cases himplementation : file.isImplementation = true
  · rw [if_pos himplementation] at h ⊢
    rw [isFile, exec_asking_bind] at h
    split at h
    · obtain ⟨htype, rfl⟩ := Prod.mk.inj h
      exact ⟨rfl, rfl, (Except.ok.inj htype).symm⟩
    · exact absurd (Prod.mk.inj h).1 (by simp)
  · rw [if_neg himplementation] at h ⊢
    rw [isFile, exec_asking_bind] at h
    by_cases hfile : host.files.isFile file.implementation = true
    · rw [if_pos hfile] at h ⊢
      obtain ⟨htype, rfl⟩ := Prod.mk.inj h
      exact ⟨rfl, rfl, (Except.ok.inj htype).symm⟩
    · rw [if_neg hfile] at h ⊢
      obtain ⟨text, host₁, hread, h⟩ := exec_bind_ok h
      obtain ⟨-, rfl⟩ := readText_ok hread
      split at h
      · exact absurd (Prod.mk.inj h).1 (by simp)
      · obtain ⟨htype, rfl⟩ := Prod.mk.inj h
        exact ⟨rfl, rfl, (Except.ok.inj htype).symm⟩

theorem exec_modelTypesAmong_ok {files : List Path} {types : List ModelType}
    (h : exec (modelTypesAmong files) host = (.ok types, host')) :
    host'.files = host.files ∧ host'.faults = host.faults ∧
      types = files.filterMap (modelTypeAt? host.files) := by
  induction files generalizing host host' types with
  | nil =>
    obtain ⟨htypes, rfl⟩ := Prod.mk.inj h
    exact ⟨rfl, rfl, (Except.ok.inj htypes).symm⟩
  | cons file rest ih =>
    rw [modelTypesAmong] at h
    obtain ⟨type?, host₁, htype, h⟩ := exec_bind_ok h
    obtain ⟨hfiles₁, hfaults₁, rfl⟩ := exec_modelType?_ok htype
    obtain ⟨others, host₂, hothers, h⟩ := exec_bind_ok h
    obtain ⟨hfiles₂, hfaults₂, rfl⟩ := ih hothers
    obtain ⟨htypes, rfl⟩ := Prod.mk.inj h
    refine ⟨hfiles₂.trans hfiles₁, hfaults₂.trans hfaults₁, ?_⟩
    rw [← Except.ok.inj htypes, hfiles₁, List.filterMap_cons]
    cases modelTypeAt? host.files file <;> rfl

/-- The model types are those of the source files in the directory. -/
theorem exec_modelTypes_ok {types : List ModelType} (hfs : host.files.WellFormed)
    (h : exec (modelTypes p) host = (.ok types, host')) :
    host'.files = host.files ∧ host'.faults = host.faults ∧
      types = (sourcePaths host.files p).filterMap (modelTypeAt? host.files) := by
  rw [modelTypes] at h
  obtain ⟨files, host₁, hsources, h⟩ := exec_bind_ok h
  obtain ⟨hfiles₁, hfaults₁, rfl⟩ := exec_sourceFiles_ok hfs hsources
  obtain ⟨hfiles₂, hfaults₂, rfl⟩ := exec_modelTypesAmong_ok h
  exact ⟨hfiles₂.trans hfiles₁, hfaults₂.trans hfaults₁, by rw [hfiles₁]⟩

/-- A model type has its two files in the directory. -/
theorem of_modelTypeAt? {fs : Files} {type : ModelType} (hname : IsPlainName name)
    (hother : IsPlainName other) (hsource : isSourceName name = true)
    (h : modelTypeAt? fs (p / other / name) = some type) :
    name = sourceName type.name ∧ type.name ≠ "" ∧
      type.interface = p / other / sourceName type.name ∧
      type.implementation = p / other / sourceName (type.name ++ Path.implEnding) ∧
      Text.endsWith Path.implEnding type.name.toList = false ∧
      fs.isFile type.implementation = true := by
  rw [← isSource_child_eq (p := p / other) hname] at hsource
  obtain ⟨stem, hne, rfl⟩ := exists_stem_of_isSource hname hsource
  have hinterface : Text.endsWith Path.implEnding stem.toList = false := by
    rw [Bool.eq_false_iff]
    intro hends
    rw [modelTypeAt?, isImplementation_child hname hne, if_pos hends] at h
    exact absurd h (by simp)
  rw [modelTypeAt?, isImplementation_child hname hne, hinterface, if_neg (by simp),
    stem_child hname hne, implementation_child hname hother hne] at h
  by_cases hfile : fs.isFile (p / other / sourceName (stem ++ Path.implEnding)) = true
  · rw [if_pos hfile] at h
    obtain rfl := Option.some.inj h
    exact ⟨rfl, hne, rfl, rfl, hinterface, hfile⟩
  · rw [if_neg hfile] at h
    exact absurd h (by simp)

/-- The names of the two files of each model type. -/
def typeFileNames (types : List ModelType) : List String :=
  types.flatMap fun type => [sourceName type.name, sourceName (type.name ++ Path.implEnding)]

/-- The model types among the source files of a directory are told by their names. -/
structure TypesOf (fs : Files) (p : Path) (types : List ModelType) : Prop where
  interface_eq : ∀ type ∈ types, type.interface = p / sourceName type.name
  implementation_eq : ∀ type ∈ types,
    type.implementation = p / sourceName (type.name ++ Path.implEnding)
  plain : ∀ name ∈ typeFileNames types, IsPlainName name
  not_endsWith : ∀ type ∈ types, Text.endsWith Path.implEnding type.name.toList = false
  nodup : (types.map ModelType.name).Nodup
  isFile : ∀ type ∈ types, fs.isFile type.implementation = true
  mem : ∀ type ∈ types, sourceName type.name ∈ sourceNames fs p

theorem typesOf_filterMap {fs : Files} (hfs : fs.WellFormed) (hother : IsPlainName other) :
    TypesOf fs (p / other) ((sourcePaths fs (p / other)).filterMap (modelTypeAt? fs)) := by
  have hnames : ∀ name ∈ sourceNames fs (p / other), IsPlainName name ∧ isSourceName name := by
    intro name hname
    obtain ⟨hsource, dir, -, e, -, -, hget, -⟩ := (mem_sourceNames hfs.distinct).1 hname
    exact ⟨hfs.namesPlainly dir name e hget, hsource⟩
  have hmem : ∀ type ∈ (sourcePaths fs (p / other)).filterMap (modelTypeAt? fs),
      ∃ name ∈ sourceNames fs (p / other), modelTypeAt? fs (p / other / name) = some type := by
    intro type htype
    obtain ⟨file, hfile, htype⟩ := List.mem_filterMap.1 htype
    obtain ⟨name, hname, rfl⟩ := List.mem_map.1 hfile
    exact ⟨name, hname, htype⟩
  have htypes : ∀ type ∈ (sourcePaths fs (p / other)).filterMap (modelTypeAt? fs),
      sourceName type.name ∈ sourceNames fs (p / other) ∧
        type.interface = p / other / sourceName type.name ∧
        type.implementation = p / other / sourceName (type.name ++ Path.implEnding) ∧
        Text.endsWith Path.implEnding type.name.toList = false ∧
        fs.isFile type.implementation = true := by
    intro type htype
    obtain ⟨name, hname, htype⟩ := hmem type htype
    obtain ⟨rfl, -, hrest⟩ :=
      of_modelTypeAt? (hnames name hname).1 hother (hnames name hname).2 htype
    exact ⟨hname, hrest⟩
  refine ⟨fun type h => (htypes type h).2.1, fun type h => (htypes type h).2.2.1, ?_,
    fun type h => (htypes type h).2.2.2.1, ?_, fun type h => (htypes type h).2.2.2.2,
    fun type h => (htypes type h).1⟩
  · intro name hname
    obtain ⟨type, htype, hname⟩ := List.mem_flatMap.1 hname
    have hinterface := (hnames _ (htypes type htype).1).1
    have hslash := not_mem_of_isPlainName_sourceName hinterface
    rcases List.mem_pair.1 hname with rfl | rfl
    · exact hinterface
    · refine isPlainName_sourceName ?_
      rw [String.toList_append, List.mem_append, not_or]
      exact ⟨hslash, by decide⟩
  · -- Types of one name would come from one file.
    rw [List.Nodup, List.pairwise_map, List.pairwise_filterMap, sourcePaths, List.pairwise_map]
    refine (nodup_sourceNames hfs.distinct).imp_of_mem ?_
    intro name name' hname hname' hne type htype type' htype' heq
    obtain ⟨hfirst, -⟩ := of_modelTypeAt? (hnames name hname).1 hother (hnames name hname).2 htype
    obtain ⟨hsecond, -⟩ :=
      of_modelTypeAt? (hnames name' hname').1 hother (hnames name' hname').2 htype'
    exact hne (by rw [hfirst, hsecond, heq])

namespace TypesOf

variable {fs : Files} {types : List ModelType}

theorem files_eq (h : TypesOf fs p types) :
    (types.flatMap fun type => [type.interface, type.implementation]) =
      (typeFileNames types).map fun name : String => p / name := by
  rw [typeFileNames, List.map_flatMap]
  apply List.flatMap_congr
  intro type htype
  rw [h.interface_eq type htype, h.implementation_eq type htype]
  rfl

/-- No file belongs to two model types. -/
theorem nodup_typeFileNames (h : TypesOf fs p types) : (typeFileNames types).Nodup := by
  have himpl : ∀ type ∈ types, ∀ stem : String, type.name ≠ stem ++ Path.implEnding := by
    intro type htype stem heq
    have hends := h.not_endsWith type htype
    rw [heq, String.toList_append, ← Bool.not_eq_true, Text.endsWith_iff] at hends
    exact hends (List.suffix_append _ _)
  have hinjective : ∀ stem stem' : String, stem ++ Path.implEnding = stem' ++ Path.implEnding →
      stem = stem' := by
    intro stem stem' heq
    have htext := congrArg String.toList heq
    rw [String.toList_append, String.toList_append] at htext
    exact String.toList_inj.1 (List.append_cancel_right htext)
  rw [typeFileNames, List.nodup_flatMap]
  refine ⟨?_, ?_⟩
  · intro type htype
    rw [List.nodup_cons, List.mem_singleton]
    exact ⟨fun heq => himpl type htype _ (sourceName_injective heq), List.nodup_singleton _⟩
  · refine (List.pairwise_map.1 h.nodup).imp_of_mem ?_
    intro type type' htype htype' hne name hname hname'
    rcases List.mem_pair.1 hname with rfl | rfl <;>
      rcases List.mem_pair.1 hname' with heq | heq <;> have heq := sourceName_injective heq
    · exact hne heq
    · exact himpl type htype _ heq
    · exact himpl type' htype' _ heq.symm
    · exact hne (hinjective _ _ heq)

end TypesOf

end RamlBuild
