import RamlBuild.Proofs.Sources.ModelTypes
import RamlBuild.Proofs.Sources.Rewriting

/-!
# Generated sources

The sources of a layout stand in three directories below its root. Where no link does, the path of a
source leads to one location, and a listing of a directory has its sources by what they declare.

## Main definitions

* `Area`, `Source` — the three directories, and a source in one of them
* `Generated` — a tree with the sources of a layout
* `Files.sources` — the sources that are listed in a directory

## Main results

* `Generated.of_replaced` — sources that are replaced leave a tree of sources
* `Generated.eq_location_of_place`, `Generated.textOf_of_textAt` — what the path of a source leads to
* `Generated.sourcePaths_eq`, `Generated.mem_sources` — what is listed
-/

namespace RamlBuild

open Build

/-- The directories of generated sources. -/
inductive Area where
  /-- The model types. -/
  | model
  /-- The resources. -/
  | resources
  /-- The classes that the others build on. -/
  | support
  deriving DecidableEq, Repr

namespace Area

/-- The name of a directory of sources. -/
def name : Area → String
  | model => "model"
  | resources => "resources"
  | support => "support"

/-- The path of a directory of sources. -/
def path (layout : Layout) (area : Area) : Path :=
  layout.root / area.name

/-- The location of a directory of sources. -/
def location (root : Location) (area : Area) : Location :=
  root ++ [area.name]

theorem isPlainName (area : Area) : IsPlainName area.name := by
  cases area <;> decide

theorem name_injective : Function.Injective name := by
  intro area area' h
  cases area <;> cases area' <;> first | rfl | exact absurd h (by decide)

end Area

/-- A source file: its directory, and the name of what it declares. -/
structure Source where
  /-- The directory it is in. -/
  area : Area
  /-- The name of what it declares. -/
  stem : String
  stem_ne : stem ≠ ""
  slash_not_mem : '/' ∉ stem.toList
  deriving DecidableEq

namespace Source

variable {s s' : Source} {root : Location}

/-- The name of the file of a source. -/
def name (s : Source) : String :=
  sourceName s.stem

/-- The path of a source of a layout. -/
def path (layout : Layout) (s : Source) : Path :=
  s.area.path layout / s.name

/-- The location of a source below the location of all of them. -/
def location (root : Location) (s : Source) : Location :=
  s.area.location root ++ [s.name]

theorem isPlainName (s : Source) : IsPlainName s.name :=
  isPlainName_sourceName s.slash_not_mem

theorem eq_of_area_of_name (harea : s.area = s'.area) (hname : s.name = s'.name) : s = s' := by
  have hstem := sourceName_injective hname
  cases s
  cases s'
  simp only [mk.injEq]
  exact ⟨harea, hstem⟩

theorem location_injective (root : Location) : Function.Injective (location root) := by
  intro s s' h
  obtain ⟨harea, hname⟩ := List.append_inj' h rfl
  obtain ⟨-, harea⟩ := List.append_inj' harea rfl
  exact eq_of_area_of_name (Area.name_injective (List.singleton_inj.1 harea))
    (List.singleton_inj.1 hname)

theorem location_ne_nil (root : Location) (s : Source) : s.location root ≠ [] := by
  simp [location]

/-- The source of a directory that a file name is for. -/
def ofName? (area : Area) (name : String) : Option Source :=
  let stem := String.ofList (Path.splitName name.toList).1
  if h : name = sourceName stem ∧ stem ≠ "" ∧ '/' ∉ stem.toList then
    some ⟨area, stem, h.2.1, h.2.2⟩
  else none

theorem ofName?_eq_some_iff {area : Area} {name : String} :
    ofName? area name = some s ↔ s.area = area ∧ s.name = name := by
  constructor
  · intro h
    simp only [ofName?] at h
    split at h
    · rename_i hname
      obtain rfl := Option.some.inj h
      exact ⟨rfl, hname.1.symm⟩
    · contradiction
  · rintro ⟨rfl, rfl⟩
    have hstem : String.ofList (Path.splitName s.name.toList).1 = s.stem := by
      rw [name, splitName_sourceName s.stem_ne, String.ofList_toList]
    simp only [ofName?, hstem]
    rw [dif_pos ⟨rfl, s.stem_ne, s.slash_not_mem⟩]

/-! ### Sources beside one another -/

/-- The implementation beside a model interface. -/
def implementation (s : Source) : Source where
  area := s.area
  stem := s.stem ++ Path.implEnding
  stem_ne := by
    intro h
    have hlength := congrArg String.length h
    rw [String.length_append] at hlength
    exact absurd hlength (by simp [Path.implEnding])
  slash_not_mem := by
    rw [String.toList_append, List.mem_append, not_or]
    exact ⟨s.slash_not_mem, by decide⟩

/-- Whether a source is named like an implementation. -/
def isImplementation (s : Source) : Bool :=
  Text.endsWith Path.implEnding s.stem.toList

/-- The name of a model type, from that of its implementation. -/
def base (s : Source) : String :=
  String.ofList (s.stem.toList.take (s.stem.toList.length - 4))

/-- The stream class beside an implementation. -/
def stream (s : Source) : Source where
  area := s.area
  stem := s.base ++ "Stream"
  stem_ne := by
    intro h
    have hlength := congrArg String.length h
    rw [String.length_append] at hlength
    exact absurd hlength (by simp)
  slash_not_mem := by
    rw [String.toList_append, List.mem_append, not_or, base, String.toList_ofList]
    exact ⟨fun h => s.slash_not_mem (List.mem_of_mem_take h), by decide⟩

@[simp] theorem area_implementation (s : Source) : s.implementation.area = s.area := rfl

@[simp] theorem stem_implementation (s : Source) :
    s.implementation.stem = s.stem ++ Path.implEnding := rfl

@[simp] theorem area_stream (s : Source) : s.stream.area = s.area := rfl

@[simp] theorem stem_stream (s : Source) : s.stream.stem = s.base ++ "Stream" := rfl

/-- An implementation is named for its type. -/
theorem base_append (h : s.isImplementation = true) : s.base ++ Path.implEnding = s.stem := by
  obtain ⟨before, hbefore⟩ := Text.endsWith_iff.1 h
  apply String.toList_inj.1
  rw [String.toList_append, base, String.toList_ofList, ← hbefore, List.length_append]
  have hlength : Path.implEnding.toList.length = 4 := by decide
  rw [hlength, Nat.add_sub_cancel, List.take_left]

@[simp] theorem isImplementation_implementation (s : Source) :
    s.implementation.isImplementation = true := by
  rw [isImplementation, Text.endsWith_iff, stem_implementation, String.toList_append]
  exact List.suffix_append _ _

theorem implementation_injective : Function.Injective implementation := by
  intro s s' h
  have hstem := congrArg (fun s : Source => s.stem.toList) h
  simp only [stem_implementation, String.toList_append] at hstem
  have hstem := String.toList_inj.1 (List.append_cancel_right hstem)
  have harea := congrArg Source.area h
  rw [area_implementation, area_implementation] at harea
  exact eq_of_area_of_name harea (congrArg sourceName hstem)

theorem stream_injective {s s' : Source} (hs : s.isImplementation = true)
    (hs' : s'.isImplementation = true) (h : s.stream = s'.stream) : s = s' := by
  have hstem := congrArg (fun s : Source => s.stem.toList) h
  simp only [stem_stream, String.toList_append] at hstem
  have hbase := String.toList_inj.1 (List.append_cancel_right hstem)
  have harea := congrArg Source.area h
  rw [area_stream, area_stream] at harea
  refine eq_of_area_of_name harea (congrArg sourceName ?_)
  rw [← base_append hs, ← base_append hs', hbase]

variable {layout : Layout}

theorem stem_path : (s.path layout).stem = s.stem :=
  stem_child s.isPlainName s.stem_ne

theorem isImplementation_path : (s.path layout).isImplementation = s.isImplementation :=
  isImplementation_child s.isPlainName s.stem_ne

theorem implementation_path : (s.path layout).implementation = s.implementation.path layout :=
  implementation_child s.isPlainName s.area.isPlainName s.stem_ne

theorem baseName_path (h : s.isImplementation = true) : (s.path layout).baseName = s.base := by
  rw [Path.baseName, stem_path, base]
  exact if_pos h

theorem streamFile_path (h : s.isImplementation = true) :
    streamFile (s.path layout) = s.stream.path layout := by
  rw [streamFile, baseName_path h, path, Area.path,
    Path.withFileName_child s.isPlainName s.area.isPlainName, path, Area.path, area_stream, name,
    stem_stream, sourceName, String.append_assoc]
  rfl

end Source

/-! ### Trees of sources -/

theorem Files.textOf_eq_bind {fs : Files} {loc : Location} :
    fs.textOf loc = (fs.contentsAt loc).bind String.fromUTF8? := by
  unfold textOf contentsAt
  cases fs.get? loc with
  | none => rfl
  | some e => cases e <;> rfl

theorem locate_of_requirePath_error {fs : Files} {follow : Bool} {p : Path} {error : IoError}
    (h : Files.requirePath p = .error error) : fs.locate follow p = .error error := by
  rw [Files.locate, h]
  rfl

/-- A tree with the sources of a layout at and below a location. There are no links among them. -/
structure Generated (layout : Layout) (root : Location) (fs : Files) : Prop where
  wellFormed : fs.WellFormed
  /-- The sources are where the layout says. -/
  resolve : fs.resolve layout.root = .ok root
  /-- Nothing there is a link. -/
  linkAt_eq : ∀ loc, fs.linkAt (root ++ loc) = none
  /-- The package is named on one line. -/
  newline_not_mem : '\n' ∉ layout.projectPackage.toList

namespace Generated

variable {layout : Layout} {root loc : Location} {fs fs' : Files} {s : Source} {area : Area}
  {text : String}

theorem linkAt_location (h : Generated layout root fs) (s : Source) :
    fs.linkAt (s.location root) = none := by
  rw [Source.location, Area.location, List.append_assoc]
  exact h.linkAt_eq _

theorem passage_location (h : Generated layout root fs)
    (hfile : ∀ mode, fs.get? (s.location root) ≠ some (.directory mode)) :
    fs.passage (s.location root) = none := by
  have hlink := h.linkAt_location s
  unfold Files.passage
  cases hget : fs.get? (s.location root) with
  | none => rfl
  | some e =>
    cases e with
    | file => rfl
    | directory mode => exact absurd hget (hfile mode)
    | link target =>
      rw [Files.linkAt_eq_some_iff.2 hget] at hlink
      contradiction

theorem eq_location_of_reach (h : Generated layout root fs)
    (hreach : fs.reach (area.path layout) = .ok loc) : loc = area.location root := by
  have hroot := Files.reach_of_resolve h.resolve
  rw [Area.path, Files.reach_child area.isPlainName, hroot] at hreach
  · exact Files.eq_append_of_takeStep hreach
  · intro dir hdir
    obtain rfl := Except.ok.inj (hroot.symm.trans hdir)
    exact Files.endsPlainly_of_linkAt (h.linkAt_eq [area.name])

/-- The path of a source leads to its own entry. -/
theorem resolve_eq_place (h : Generated layout root fs) (s : Source) :
    fs.resolve (s.path layout) = fs.place (s.path layout) := by
  cases hp : Files.requirePath (s.path layout) with
  | error error =>
    rw [Files.resolve, Files.place, locate_of_requirePath_error hp, locate_of_requirePath_error hp]
  | ok =>
    rw [Files.resolve, Files.place, Source.path, Files.locate_child s.isPlainName hp,
      Files.locate_child s.isPlainName hp fun _ _ => Files.endsPlainly_of_not_follow]
    intro dir hdir
    obtain rfl := h.eq_location_of_reach hdir
    exact Files.endsPlainly_of_linkAt (h.linkAt_location s)

theorem eq_location_of_place (h : Generated layout root fs)
    (hplace : fs.place (s.path layout) = .ok loc) : loc = s.location root := by
  obtain ⟨-, dir, hdir, hstep⟩ := (Files.place_child_iff s.isPlainName).1 hplace
  obtain rfl := h.eq_location_of_reach hdir
  exact Files.eq_append_of_takeStep hstep

theorem eq_location_of_resolve (h : Generated layout root fs)
    (hresolve : fs.resolve (s.path layout) = .ok loc) : loc = s.location root :=
  h.eq_location_of_place (h.resolve_eq_place s ▸ hresolve)

/-- A source that is found is at its location. -/
theorem isSome_contentsAt_of_isFile (h : Generated layout root fs)
    (hfile : fs.isFile (s.path layout) = true) :
    (fs.contentsAt (s.location root)).isSome = true := by
  unfold Files.isFile at hfile
  split at hfile
  · rename_i loc contents mode shared hstat
    obtain ⟨hresolve, hget⟩ := stat_eq_ok_iff.1 hstat
    rw [h.eq_location_of_resolve hresolve] at hget
    rw [Files.contentsAt, hget]
    rfl
  · exact absurd hfile (by simp)

/-- The text that is read from a source is that of its location. -/
theorem textOf_of_textAt (h : Generated layout root fs)
    (htext : textAt fs (s.path layout) = .ok (some text)) :
    fs.textOf (s.location root) = some text := by
  obtain ⟨loc, hresolve, htext⟩ := RamlBuild.textOf_of_textAt htext
  rwa [h.eq_location_of_resolve hresolve] at htext

theorem mode?_eq (h : Generated layout root fs)
    (hplace : fs.place (s.path layout) = .ok (s.location root)) :
    fs.mode? (s.path layout) = (fs.get? (s.location root)).bind Entry.mode? := by
  rw [Build.mode?_eq, h.resolve_eq_place, hplace]

/-- Where a source of the tree is replaced, paths lead where they did. -/
theorem samePassages_of_replaced (h : Generated layout root fs) {contents : ByteArray} {mode : Nat}
    (hreplaced : Files.Replaced fs fs' (s.location root) contents mode) :
    Files.SamePassages fs fs' :=
  hreplaced.samePassages (h.passage_location hreplaced.not_directory)

/-- A tree of sources stays one when a source in it is replaced. -/
theorem of_replaced (h : Generated layout root fs) {contents : ByteArray} {mode : Nat}
    (hplace : fs.place (s.path layout) = .ok (s.location root))
    (hreplaced : Files.Replaced fs fs' (s.location root) contents mode) :
    Generated layout root fs' := by
  refine ⟨⟨hreplaced.isTree h.wellFormed.isTree hplace, hreplaced.distinct h.wellFormed.distinct,
    ?_⟩, ?_, ?_, h.newline_not_mem⟩
  · intro loc name e hget
    by_cases hloc : loc ++ [name] = s.location root
    · obtain ⟨-, hname⟩ := List.append_inj' hloc rfl
      rw [List.singleton_inj.1 hname]
      exact s.isPlainName
    · rw [hreplaced.get?_other _ hloc] at hget
      exact h.wellFormed.namesPlainly loc name e hget
  · exact Files.locate_of_samePassages (h.samePassages_of_replaced hreplaced) h.resolve
  · intro loc
    exact linkAt_eq_none_of_fewerPassages hreplaced.fewerPassages (h.linkAt_eq loc)

end Generated

/-- Sources that are given by their entries are generated, if these say so. -/
theorem generated_of_entries {layout : Layout} {root : Location} {fs : Files}
    (hnodup : (fs.entries.map Prod.fst).Nodup)
    (hentries : fs.entries.all (fun x => (fs.get? x.1.dropLast).any Entry.isDirectory &&
      x.1.getLast?.any fun name => decide (IsPlainName name)) = true)
    (hlinks : fs.entries.all (fun x => x.2.isFile || x.2.isDirectory) = true)
    (hresolve : fs.resolve layout.root = .ok root)
    (hpackage : '\n' ∉ layout.projectPackage.toList) : Generated layout root fs := by
  have hfs := Files.wellFormed_of_entries hnodup hentries
  refine ⟨hfs, hresolve, fun loc => ?_, hpackage⟩
  cases hlink : fs.linkAt (root ++ loc) with
  | none => rfl
  | some target =>
    have hget := Files.linkAt_eq_some_iff.1 hlink
    have hne : root ++ loc ≠ [] := by
      intro hnil
      rw [hnil, Files.get?_nil] at hget
      exact absurd hget (by simp)
    have hmem := (Files.Distinct.get?_eq_some_iff hfs.distinct hne).1 hget
    exact absurd (List.all_eq_true.1 hlinks _ hmem) (by simp [Entry.isFile, Entry.isDirectory])

/-! ### Listing -/

/-- The sources that are listed in a directory of a layout. -/
def Files.sources (fs : Files) (layout : Layout) (area : Area) : List Source :=
  (sourceNames fs (area.path layout)).filterMap (Source.ofName? area)

theorem Files.area_of_mem_sources {fs : Files} {layout : Layout} {area : Area} {s : Source}
    (h : s ∈ fs.sources layout area) : s.area = area := by
  obtain ⟨name, -, hs⟩ := List.mem_filterMap.1 h
  exact (Source.ofName?_eq_some_iff.1 hs).1

namespace Generated

variable {layout : Layout} {root : Location} {fs : Files} {s : Source} {area : Area}

theorem exists_source_of_mem_sourceNames (h : Generated layout root fs) {name : String}
    (hname : name ∈ sourceNames fs (area.path layout)) : ∃ s, Source.ofName? area name = some s := by
  obtain ⟨hsource, dir, -, e, -, -, hget, -⟩ := (mem_sourceNames h.wellFormed.distinct).1 hname
  have hplain := h.wellFormed.namesPlainly dir name e hget
  rw [← isSource_child_eq (p := area.path layout) hplain] at hsource
  obtain ⟨stem, hne, rfl⟩ := exists_stem_of_isSource hplain hsource
  exact ⟨⟨area, stem, hne, not_mem_of_isPlainName_sourceName hplain⟩,
    Source.ofName?_eq_some_iff.2 ⟨rfl, rfl⟩⟩

/-- What is listed are the paths of sources. -/
theorem sourcePaths_eq (h : Generated layout root fs) :
    sourcePaths fs (area.path layout) = (fs.sources layout area).map (Source.path layout) := by
  rw [sourcePaths, Files.sources, List.map_filterMap, ← List.filterMap_eq_map]
  refine List.filterMap_congr fun name hname => ?_
  obtain ⟨s, hs⟩ := h.exists_source_of_mem_sourceNames hname
  obtain ⟨rfl, rfl⟩ := Source.ofName?_eq_some_iff.1 hs
  rw [hs]
  rfl

/-- A source is listed in its directory, where that can be found. -/
theorem mem_sources (h : Generated layout root fs) :
    s ∈ fs.sources layout area ↔ s.area = area ∧ fs.isDirectory (area.path layout) = true ∧
      (fs.contentsAt (s.location root)).isSome = true := by
  have hmem : s ∈ fs.sources layout area ↔
      s.area = area ∧ s.name ∈ sourceNames fs (area.path layout) := by
    rw [Files.sources, List.mem_filterMap]
    constructor
    · rintro ⟨name, hname, hs⟩
      obtain ⟨rfl, rfl⟩ := Source.ofName?_eq_some_iff.1 hs
      exact ⟨rfl, hname⟩
    · rintro ⟨rfl, hname⟩
      exact ⟨s.name, hname, Source.ofName?_eq_some_iff.2 ⟨rfl, rfl⟩⟩
  rw [hmem, mem_sourceNames h.wellFormed.distinct]
  refine and_congr_right ?_
  rintro rfl
  constructor
  · rintro ⟨-, dir, mode, e, hresolve, hdir, hget, hfile⟩
    obtain rfl := h.eq_location_of_reach (Files.reach_of_resolve hresolve)
    refine ⟨?_, ?_⟩
    · rw [Files.isDirectory, stat_eq_ok_iff.2 ⟨hresolve, hdir⟩]
    · rw [Files.contentsAt, Source.location, hget]
      cases e with
      | file => rfl
      | directory | link => exact absurd hfile (by simp [Entry.isFile])
  · rintro ⟨hdirectory, hsome⟩
    refine ⟨isSource_child s.isPlainName s.stem_ne, ?_⟩
    unfold Files.isDirectory at hdirectory
    split at hdirectory
    · rename_i dir mode hstat
      obtain ⟨hresolve, hdir⟩ := stat_eq_ok_iff.1 hstat
      obtain rfl := h.eq_location_of_reach (Files.reach_of_resolve hresolve)
      unfold Files.contentsAt at hsome
      split at hsome
      · rename_i contents mode' shared hget
        exact ⟨_, mode, _, hresolve, hdir, hget, rfl⟩
      · exact absurd hsome (by simp)
    · exact absurd hdirectory (by simp)

theorem nodup_sources (h : Generated layout root fs) : (fs.sources layout area).Nodup := by
  refine (nodup_sourceNames h.wellFormed.distinct).filterMap ?_
  intro name name' s hs hs'
  obtain ⟨-, rfl⟩ := Source.ofName?_eq_some_iff.1 hs
  obtain ⟨-, rfl⟩ := Source.ofName?_eq_some_iff.1 hs'
  rfl

end Generated

end RamlBuild
