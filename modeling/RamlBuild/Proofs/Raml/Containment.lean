import RamlBuild.Proofs.Files.Components
import RamlBuild.Proofs.Files.DeadEnds
import RamlBuild.Proofs.Files.Inside
import RamlBuild.Proofs.Raml.Generating
import RamlBuild.Settings.Settings

/-!
# Sources stay below their directory

The directories of a package lie below the directory of all sources, one for each segment, as long as
no segment is an absolute path. What is removed before sources are generated lies there, too. A
segment that is an absolute path takes the place of everything before it: then the directory that is
removed can be anywhere.

## Main definitions

* `Layout.segments`, `Layout.placeOf` — the segments of a package, and where it belongs
* `Layout.StaysBelow` — no segment of a package is an absolute path
* `Layout.Contained` — a layout keeps below the directory of the sources

## Main results

* `Layout.root_eq` — the directory of the generated sources, segment by segment
* `Layout.exists_base_of_place` — where this directory is
* `Layout.contained_iff` — the packages whose layouts keep below any directory of sources
* `Layout.not_contained_opt` — a package of the settings whose layout does not
-/

namespace RamlBuild

open Build Files

namespace Layout

variable {package : String} {sourceDir p : Path}

/-! ### Segments -/

/-- The segments of a package, between its dots. -/
def segments (package : String) : List String :=
  (package.toList.splitOn '.').map String.ofList

/-- Where a package belongs below a directory of sources: in its segments, one below the other. -/
def placeOf (sourceDir : Path) (package : String) : Path :=
  sourceDir.descend (segments package)

/-- No segment of the package is an absolute path. -/
def StaysBelow (package : String) : Prop :=
  ∀ segment ∈ segments package, (⟨segment⟩ : Path).isAbsolute = false

/-- The names of the directories of a package. A segment has one of them, unless it holds slashes. -/
def directoriesOf (package : String) : List String :=
  (segments package).flatMap Path.namesIn

theorem dot_not_mem_of_mem_segments {segment : String} (h : segment ∈ segments package) :
    '.' ∉ segment.toList := by
  obtain ⟨piece, hpiece, rfl⟩ := List.mem_map.1 h
  rw [String.toList_ofList]
  exact Text.not_mem_of_mem_splitOn hpiece

theorem segments_ne_nil (package : String) : segments package ≠ [] := by
  rw [segments, ne_eq, List.map_eq_nil_iff]
  exact List.splitOn_ne_nil _ _

theorem segments_append_dot (package suffix : String) :
    segments (package ++ "." ++ suffix) = segments package ++ segments suffix := by
  rw [segments, String.toList_append, String.toList_append, List.append_assoc]
  change (List.splitOn '.' (package.toList ++ '.' :: suffix.toList)).map _ = _
  rw [List.splitOn_append_cons_self, List.map_append]
  rfl

/-! ### Where packages belong -/

theorem packageDir_eq (package : String) :
    packageDir package = (⟨""⟩ : Path).descend (segments package) := by
  rw [packageDir, Path.descend, segments, List.foldl_map]

/-- The directory of a package, below that of the sources, is where the package belongs. -/
theorem join_packageDir (sourceDir : Path) (package : String) :
    sourceDir / packageDir package = placeOf sourceDir package := by
  obtain ⟨first, rest, hsegments⟩ := List.exists_cons_of_ne_nil (segments_ne_nil package)
  have hfirst : (⟨""⟩ : Path) / first = ⟨first⟩ := Path.join_of_empty rfl
  rw [packageDir_eq, placeOf, hsegments]
  change sourceDir / (((⟨""⟩ : Path) / first).descend rest) = (sourceDir / first).descend rest
  rw [hfirst]
  exact Path.join_descend sourceDir ⟨first⟩ rest

theorem root_eq_placeOf (layout : Layout) :
    layout.root = placeOf layout.sourceDir layout.projectPackage / "generated" :=
  congrArg (fun p : Path => p / "generated") (join_packageDir _ _)

theorem root_eq (layout : Layout) :
    layout.root = layout.sourceDir.descend (segments layout.projectPackage ++ ["generated"]) := by
  rw [Path.descend_concat]
  exact layout.root_eq_placeOf

/-- Each of the generated packages lies where it belongs. -/
theorem placeOf_generated (layout : Layout) (area : String) {suffix : String}
    (hsuffix : suffix = ".generated." ++ area) (harea : '.' ∉ area.toList) :
    placeOf layout.sourceDir (layout.projectPackage ++ suffix) = layout.root / area := by
  have hname : layout.projectPackage ++ suffix =
      layout.projectPackage ++ "." ++ "generated" ++ "." ++ area := by
    rw [hsuffix]
    simp only [String.append_assoc]
    rfl
  have hsegment : segments area = [area] := by
    rw [segments, List.splitOn_eq_singleton harea, List.map_singleton, String.ofList_toList]
  rw [hname, placeOf, segments_append_dot, segments_append_dot, hsegment, Path.descend_concat,
    show segments "generated" = ["generated"] by decide, root_eq]

/-- Relative texts without dots lead down by the names in them. -/
theorem descend_names {names : List String} (hdot : ∀ name ∈ names, '.' ∉ name.toList)
    (h : ∀ name ∈ names, (⟨name⟩ : Path).isAbsolute = false) :
    (p.descend names).walked = p.walked ++ (names.flatMap Path.namesIn).map .name ∧
      (p.descend names).components = p.components ++ (names.flatMap Path.namesIn).map .name ∧
      (p.descend names).isAbsolute = p.isAbsolute := by
  induction names generalizing p with
  | nil => simp [Path.descend]
  | cons name rest ih =>
    have hname := h name List.mem_cons_self
    have hdotname := hdot name List.mem_cons_self
    obtain ⟨hwalked, hcomponents, habsolute⟩ := ih (p := p / name)
      (fun other hother => hdot other (List.mem_cons_of_mem _ hother))
      (fun other hother => h other (List.mem_cons_of_mem _ hother))
    rw [Path.walked_join_names hdotname hname] at hwalked
    rw [Path.components_join_names hdotname hname] at hcomponents
    simp only [List.flatMap_cons, List.map_append, ← List.append_assoc]
    exact ⟨hwalked, hcomponents, habsolute.trans (Path.isAbsolute_join_of_relative hname)⟩

theorem walked_placeOf (h : StaysBelow package) :
    (placeOf sourceDir package).walked = sourceDir.walked ++ (directoriesOf package).map .name :=
  (descend_names (fun _ => dot_not_mem_of_mem_segments) h).1

theorem components_placeOf (h : StaysBelow package) :
    (placeOf sourceDir package).components =
      sourceDir.components ++ (directoriesOf package).map .name :=
  (descend_names (fun _ => dot_not_mem_of_mem_segments) h).2.1

theorem isAbsolute_placeOf (h : StaysBelow package) :
    (placeOf sourceDir package).isAbsolute = sourceDir.isAbsolute :=
  (descend_names (fun _ => dot_not_mem_of_mem_segments) h).2.2

/-! ### What is removed -/

variable {layout : Layout} {fs : Files} {loc : Location}

/-- No link stands where the directories of the package belong. -/
def Unlinked (layout : Layout) (fs : Files) : Prop :=
  ∀ base, fs.reach layout.sourceDir = .ok base →
    fs.ClearTo base (directoriesOf layout.projectPackage)

theorem namesOf_map_name (names : List String) : namesOf (names.map Step.name) = names := by
  rw [namesOf, List.filterMap_map]
  exact List.filterMap_some

/-- The directory of the generated sources has its place below that of all sources. -/
theorem exists_base_of_place (htree : fs.IsTree) (hbelow : StaysBelow layout.projectPackage)
    (hlinks : layout.Unlinked fs) (hplace : fs.place layout.root = .ok loc) :
    ∃ base, fs.reach layout.sourceDir = .ok base ∧
      loc = base ++ directoriesOf layout.projectPackage ++ ["generated"] := by
  rw [root_eq_placeOf, place_child_iff isPlainName_generated] at hplace
  obtain ⟨-, dir, hreach, hstep⟩ := hplace
  rw [eq_append_of_takeStep hstep]
  have hstart : fs.start (placeOf layout.sourceDir layout.projectPackage) =
      fs.start layout.sourceDir := by
    rw [start, start, isAbsolute_placeOf hbelow]
  rw [reach, hstart, walked_placeOf hbelow] at hreach
  have hclear := hlinks
  rw [Unlinked] at hclear
  cases hnames : directoriesOf layout.projectPackage with
  | nil =>
    rw [hnames, List.map_nil, List.append_nil] at hreach
    exact ⟨dir, hreach, by rw [List.append_nil]⟩
  | cons name rest =>
    rw [hnames] at hreach hclear
    -- The way to the directory of the sources is the first part of the whole way.
    obtain ⟨_, base, hbase, -⟩ := walk_split hreach
    have hgo : GoDown ((name :: rest).map Step.name) := by
      intro step hstep
      obtain ⟨n, -, rfl⟩ := List.mem_map.1 hstep
      exact .inr ⟨n, rfl⟩
    have hroot : ∀ d mode, fs.walk true maxLinks (fs.start layout.sourceDir)
        layout.sourceDir.walked = .ok d → fs.get? d = some (.directory mode) → d = base := by
      intro d _ hd _
      rw [hbase] at hd
      exact (Except.ok.inj hd).symm
    have hdir := walk_of_clearTo hroot htree hgo (by simp)
      ((namesOf_map_name (name :: rest)).symm ▸ hclear base hbase) hreach
    exact ⟨base, hbase, by rw [hdir, namesOf_map_name]⟩

/-- What differs lies in the directory of the generated sources, below that of all sources. -/
def ChangesBelow (layout : Layout) (fs fs' : Files) : Prop :=
  ∀ l, fs'.get? l ≠ fs.get? l → ∃ base, fs.reach layout.sourceDir = .ok base ∧
    base ++ directoriesOf layout.projectPackage ++ ["generated"] <+: l

theorem changesBelow_refl (layout : Layout) (fs : Files) : layout.ChangesBelow fs fs :=
  fun _ hl => absurd rfl hl

theorem changesBelow_of_sweep {host host' : Host} {result : Except Failure Unit}
    (htree : host.files.IsTree) (hbelow : StaysBelow layout.projectPackage)
    (hlinks : layout.Unlinked host.files)
    (h : exec (GeneratorTool.sweep layout) host = (result, host')) :
    layout.ChangesBelow host.files host'.files := by
  cases result with
  | error failure =>
    rw [(GeneratorTool.exec_sweep_error h).2]
    exact layout.changesBelow_refl _
  | ok =>
    intro l hl
    have hswept := GeneratorTool.exec_sweep_ok htree h
    by_cases hplace : ∃ loc, host.files.place layout.root = .ok loc ∧ loc.isPrefixOf l = true
    · obtain ⟨loc, hplace, hprefix⟩ := hplace
      obtain ⟨base, hbase, rfl⟩ := exists_base_of_place htree hbelow hlinks hplace
      exact ⟨base, hbase, List.isPrefixOf_iff_prefix.1 hprefix⟩
    · exact absurd (hswept.other l fun loc hloc hprefix => hplace ⟨loc, hloc, hprefix⟩) hl

/-! ### Layouts that keep below -/

/-- A layout keeps below the directory of the sources. Its directories lie there, where their
packages belong, and so does all that is gone when the generator is started. -/
structure Contained (layout : Layout) : Prop where
  root_eq : layout.root =
    layout.sourceDir.descend (segments layout.projectPackage ++ ["generated"])
  components_root : layout.root.components = layout.sourceDir.components ++
    (directoriesOf layout.projectPackage ++ ["generated"]).map .name
  modelDir_eq : layout.modelDir = placeOf layout.sourceDir layout.modelPackage
  resourcesDir_eq : layout.resourcesDir = placeOf layout.sourceDir layout.resourcePackage
  supportDir_eq : layout.supportDir = placeOf layout.sourceDir layout.supportPackage
  removes : ∀ (tool : GeneratorTool) (api : Path) (host host' : Host)
    (result : Except Failure Unit), host.files.IsTree → layout.Unlinked host.files →
    exec (tool.run api layout) host = (result, host') →
    ∃ host₁, layout.ChangesBelow host.files host₁.files ∧
      (host' = host₁ ∨ exec (tool.produce api layout) host₁ = (result, host'))

theorem contained_of_staysBelow (layout : Layout) (h : StaysBelow layout.projectPackage) :
    layout.Contained where
  root_eq := layout.root_eq
  components_root := by
    rw [root_eq_placeOf, Path.components_join_names (by decide) (by decide), components_placeOf h,
      List.map_append, ← List.append_assoc]
    rfl
  modelDir_eq := (layout.placeOf_generated "model" rfl (by decide)).symm
  resourcesDir_eq := (layout.placeOf_generated "resources" rfl (by decide)).symm
  supportDir_eq := (layout.placeOf_generated "support" rfl (by decide)).symm
  removes := by
    intro tool api host host' result htree hlinks hrun
    rcases GeneratorTool.run_cases hrun with ⟨-, -, rfl⟩ | ⟨-, hsweep | hproduce⟩
    · exact ⟨host', layout.changesBelow_refl _, .inl rfl⟩
    · obtain ⟨failure, -, hsweep⟩ := hsweep
      exact ⟨host', changesBelow_of_sweep htree h hlinks hsweep, .inl rfl⟩
    · obtain ⟨host₁, hsweep, hproduce⟩ := hproduce
      exact ⟨host₁, changesBelow_of_sweep htree h hlinks hsweep, .inr hproduce⟩

/-- The directory of the generated sources is an absolute path once a segment is, and then it is not
below a relative directory. -/
theorem staysBelow_of_contained (h : (⟨⟨"src"⟩, package⟩ : Layout).Contained) :
    StaysBelow package := by
  intro segment hsegment
  by_contra habsolute
  rw [Bool.not_eq_false] at habsolute
  have hroot : (⟨⟨"src"⟩, package⟩ : Layout).root.isAbsolute = true := by
    rw [h.root_eq]
    exact Path.isAbsolute_descend_of_mem (List.mem_append_left _ hsegment) habsolute
  rw [Path.isAbsolute_eq_body, decide_eq_true_eq] at hroot
  have hcomponents := h.components_root
  rw [Path.components_eq_componentsOf, hroot] at hcomponents
  have hhead := congrArg List.head? hcomponents
  simp [Path.Start.component?, show (⟨"src"⟩ : Path).components = [.name "src"] by decide] at hhead

/-- The layouts of a package keep below every directory of sources exactly when no segment of the
package is an absolute path. -/
theorem contained_iff (package : String) :
    (∀ sourceDir, (⟨sourceDir, package⟩ : Layout).Contained) ↔ StaysBelow package :=
  ⟨fun h => staysBelow_of_contained (h ⟨"src"⟩),
    fun h sourceDir => contained_of_staysBelow ⟨sourceDir, package⟩ h⟩

/-- A host with a directory of its own beside the one it works in. -/
def optHost : Host :=
  quietHost ⟨[(["work"], .directory 0o755), (["work", "gen.jar"], .file .empty 0o644 none),
    (["work", "api.raml"], .file .empty 0o644 none), (["opt"], .directory 0o755),
    (["opt", "generated"], .directory 0o755),
    (["opt", "generated", "data"], .file .empty 0o644 none)], ["work"]⟩

/-- The settings take a package with a slash at its front. Its generated sources are nowhere below
their directory, and generating them removes what stands outside of it. -/
theorem not_contained_opt :
    (Settings.ofText "[service]\nproject_package = \"/opt\"\n" ⟨"."⟩).toOption.map
        Settings.projectPackage = some "/opt" ∧
      (⟨⟨"src"⟩, "/opt"⟩ : Layout).root = ⟨"/opt/generated"⟩ ∧
      ¬(⟨⟨"src"⟩, "/opt"⟩ : Layout).Contained ∧
      (optHost.files.get? ["opt", "generated", "data"]).isSome ∧
      (exec (GeneratorTool.run ⟨⟨"gen.jar"⟩, []⟩ ⟨"api.raml"⟩ ⟨⟨"src"⟩, "/opt"⟩)
        optHost).2.files.get? ["opt", "generated", "data"] = none := by
  refine ⟨by decide +kernel, by decide, ?_, by decide, by decide +kernel⟩
  intro h
  exact absurd (staysBelow_of_contained h "/opt" (by decide)) (by decide)

end Layout

end RamlBuild
