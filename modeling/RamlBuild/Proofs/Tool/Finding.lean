import RamlBuild.Proofs.Files.Order
import RamlBuild.Proofs.Tool.Pinning
import RamlBuild.Tool.Generator

/-!
# Finding artifacts

A build leaves its artifacts in output directories anywhere below the project. The search for them
walks the project depth first, the entries of each directory by name, and follows no links. It finds
all artifacts, each once, and in the order of their paths; so the one that is installed, the first, is
the least.

A directory is told by the name that its path ends in, the project's own by that of the path that the
search starts from.

## Main definitions

* `IsArtifact` — an artifact below a directory
* `WalksDepthFirst` — what a walk meets
* `FindsArtifacts` — what a search finds
* `IsLeastArtifact` — an artifact that comes before all others

## Main results

* `walksDepthFirst_of_walk` — a walk is depth first
* `findsArtifacts_of_findArtifacts` — a search finds the artifacts in order
* `findsInOrder_and_installsLeast` — and so the least one is installed
-/

namespace RamlBuild

open Build

variable {host host' : Host} {fs : Files} {root : Path} {dir : Location} {mode : Nat}
  {outputDir ending : String} {names : Location}

/-! ### Walking a directory -/

/-- What a walk through a directory meets: the directory itself, and then the entries below it. These
come depth first, at every location each of its entries by name with what is below that. No link is
gone through, for what is below a location has a place of its own there. -/
structure WalksDepthFirst (fs : Files) (dir : Location) (met : List (Location × Entry)) : Prop where
  eq_cons : ∃ own, own.isFile = false ∧ met = ([], own) :: fs.below dir
  below_eq : ∀ loc, fs.below loc = (fs.children loc).flatMap (fs.branch loc)
  mem_below : ∀ names e, (names, e) ∈ fs.below dir ↔ names ≠ [] ∧ fs.get? (dir ++ names) = some e

theorem walksDepthFirst_of_walk {met : List (Location × Entry)} (hfs : host.files.WellFormed)
    (hroot : host.files.stat root = .ok (dir, .directory mode))
    (h : exec (walk root) host = (.ok met, host')) :
    host'.files = host.files ∧ WalksDepthFirst host.files dir met := by
  obtain ⟨hfiles, htree⟩ := walk_ok h
  obtain ⟨hresolve, hdir⟩ := stat_eq_ok_iff.1 hroot
  exact ⟨hfiles, tree_of_resolve hresolve hdir htree, Files.below_eq_flatMap_children hfs,
    fun _ _ => hfs.distinct.mem_below_iff⟩

/-! ### Artifacts -/

/-- An artifact below a directory, told by the names that lead to it: a file in a directory of the given
name, which may be the one that is searched, with the given ending of its path. -/
structure IsArtifact (fs : Files) (root : Path) (dir : Location) (outputDir ending : String)
    (names : Location) : Prop where
  ne_nil : names ≠ []
  hasFile : fs.HasFile (dir ++ names)
  inDirectory : (root.descend names.dropLast).fileName? = some outputDir
  endsWith : ending.toList <:+ (root.descend names).text.toList

theorem isIn_child {name : String} (h : IsPlainName name) :
    (root / name).isIn outputDir = true ↔ root.fileName? = some outputDir := by
  obtain ⟨q, hparent, hname⟩ := Path.exists_parent?_child_fileName? (p := root) h
  rw [Path.isIn, hparent, ← hname]
  exact beq_iff_eq

/-- What is asked of the path of a file. -/
theorem isIn_and_endsWith_iff (hne : names ≠ []) (h : ∀ n ∈ names, IsPlainName n) :
    ((root.descend names).isIn outputDir && (root.descend names).endsWith ending) = true ↔
      (root.descend names.dropLast).fileName? = some outputDir ∧
        ending.toList <:+ (root.descend names).text.toList := by
  obtain ⟨init, name, rfl⟩ := (List.eq_nil_or_concat names).resolve_left hne
  rw [List.concat_eq_append] at h ⊢
  rw [Bool.and_eq_true, Path.endsWith, Text.endsWith_iff, List.dropLast_concat, Path.descend_concat,
    isIn_child (h name (by simp))]

/-- What a search finds: the artifacts, each once and in the order of their paths. -/
structure FindsArtifacts (fs : Files) (root : Path) (dir : Location) (outputDir ending : String)
    (found : List Path) : Prop where
  mem_iff : ∀ p, p ∈ found ↔
    ∃ names, IsArtifact fs root dir outputDir ending names ∧ p = root.descend names
  nodup : found.Nodup
  inOrder : found.Pairwise Path.Precedes

/-- A search finds the artifacts in order. -/
theorem findsArtifacts_of_findArtifacts {found : List Path} (hfs : host.files.WellFormed)
    (hroot : host.files.stat root = .ok (dir, .directory mode))
    (h : exec (findArtifacts root outputDir ending) host = (.ok found, host')) :
    host'.files = host.files ∧ FindsArtifacts host.files root dir outputDir ending found := by
  obtain ⟨met, host₁, hwalk, h⟩ := exec_bind_ok h
  obtain ⟨hfound, rfl⟩ := Prod.mk.inj h
  obtain rfl := Except.ok.inj hfound
  obtain ⟨hfiles, ⟨own, hown, rfl⟩, -, hmem⟩ := walksDepthFirst_of_walk hfs hroot hwalk
  have hplain : ∀ x ∈ host.files.below dir, ∀ n ∈ x.1, IsPlainName n := by
    rintro ⟨names, e⟩ hx n hn
    have hget := ((hmem names e).1 hx).2
    exact hfs.namesPlainly.of_isSome hfs.isTree (by rw [hget]; rfl) n (List.mem_append_right _ hn)
  rw [List.filter_cons_of_neg (by simp [hown])]
  have hinOrder : ((((host.files.below dir).filter (·.2.isFile)).map fun x => root.descend x.1).filter
      fun p => p.isIn outputDir && p.endsWith ending).Pairwise Path.Precedes := by
    refine List.Pairwise.sublist List.filter_sublist (List.pairwise_map.2 ?_)
    refine List.Pairwise.sublist List.filter_sublist ?_
    exact (Files.pairwise_below_lt hfs.distinct).imp_of_mem fun hx hy hlt =>
      (Path.precedes_descend_iff (hplain _ hx) (hplain _ hy)).2 hlt
  refine ⟨hfiles, fun p => ?_, hinOrder.imp ?_, hinOrder⟩
  · rw [List.mem_filter, List.mem_map]
    constructor
    · rintro ⟨⟨⟨names, e⟩, hx, rfl⟩, hasked⟩
      obtain ⟨hx, hfile⟩ := List.mem_filter.1 hx
      obtain ⟨hne, hget⟩ := (hmem names e).1 hx
      obtain ⟨hdirectory, hends⟩ := (isIn_and_endsWith_iff hne (hplain _ hx)).1 hasked
      exact ⟨names, ⟨hne, ⟨e, hget, hfile⟩, hdirectory, hends⟩, rfl⟩
    · rintro ⟨names, hartifact, rfl⟩
      obtain ⟨e, hget, hfile⟩ := hartifact.hasFile
      have hx := (hmem names e).2 ⟨hartifact.ne_nil, hget⟩
      exact ⟨⟨(names, e), List.mem_filter.2 ⟨hx, hfile⟩, rfl⟩,
        (isIn_and_endsWith_iff hartifact.ne_nil (hplain _ hx)).2
          ⟨hartifact.inDirectory, hartifact.endsWith⟩⟩
  · rintro p q hlt rfl
    exact hlt.irrefl p

/-- An artifact that comes before all others. -/
structure IsLeastArtifact (fs : Files) (root : Path) (dir : Location) (outputDir ending : String)
    (p : Path) : Prop where
  isArtifact : ∃ names, IsArtifact fs root dir outputDir ending names ∧ p = root.descend names
  precedes : ∀ names, IsArtifact fs root dir outputDir ending names →
    p = root.descend names ∨ p.Precedes (root.descend names)

/-- The first artifact that is found is the least. -/
theorem FindsArtifacts.isLeast {p : Path} {rest : List Path}
    (h : FindsArtifacts fs root dir outputDir ending (p :: rest)) :
    IsLeastArtifact fs root dir outputDir ending p := by
  refine ⟨(h.mem_iff p).1 List.mem_cons_self, fun names hnames => ?_⟩
  rcases List.mem_cons.1 ((h.mem_iff _).2 ⟨names, hnames, rfl⟩) with heq | hmem
  · exact .inl heq.symm
  · exact .inr ((List.pairwise_cons.1 h.inOrder).1 _ hmem)

/-! ### The artifact that is installed -/

namespace Generator

variable {built : Host} {binDir workDir : Path} {url version : String}

/-- Pins and builds the checkout of a version. -/
def prepare (url version : String) (workDir : Path) : Build Unit := do
  let _ ← pinProject (workDir / checkoutName url) version
  buildProject (workDir / checkoutName url / cliModule)

/-- What is moved to the jar is the first artifact that is found in the built checkout. -/
theorem exists_moved_of_build (h : exec (build binDir url version workDir) host = (.ok (), host')) :
    ∃ built found artifact rest, exec (prepare url version workDir) host = (.ok (), built) ∧
      exec (findArtifacts (workDir / checkoutName url) outputDirectory artifactEnding) built =
        (.ok (artifact :: rest), found) ∧
      exec (moveArtifact artifact (jar binDir)) found = (.ok (), host') := by
  obtain ⟨changed, host₁, hpin, h⟩ := exec_bind_ok h
  obtain ⟨⟨⟩, built, hbuild, h⟩ := exec_bind_ok h
  obtain ⟨artifacts, found, hfind, h⟩ := exec_bind_ok h
  cases artifacts with
  | nil => exact absurd (Prod.mk.inj h).1 (by simp)
  | cons artifact rest =>
    refine ⟨built, found, artifact, rest, ?_, hfind, h⟩
    rw [prepare, exec_bind_of_ok hpin]
    exact hbuild

end Generator

/-- A checkout that was built: modules with artifacts, one of them behind a link as well. -/
def builtFiles : Files where
  entries :=
    [(["bin"], .directory 0o755), (["bin", "mvn"], .file .empty 0o755 none),
      (["tools"], .directory 0o755), (["work"], .directory 0o755),
      (["work", "raml"], .directory 0o755),
      (["work", "raml", "raml-to-jaxrs"], .directory 0o755),
      (["work", "raml", "raml-to-jaxrs", "raml-to-jaxrs-cli"], .directory 0o755),
      (["work", "raml", "a.b"], .directory 0o755),
      (["work", "raml", "a.b", "target"], .directory 0o755),
      (["work", "raml", "a.b", "target", "dependencies.jar"], .file "b".toUTF8 0o644 none),
      (["work", "raml", "a"], .directory 0o755),
      (["work", "raml", "a", "target"], .directory 0o755),
      (["work", "raml", "a", "target", "lib"], .directory 0o755),
      (["work", "raml", "a", "target", "lib", "dependencies.jar"], .file "c".toUTF8 0o644 none),
      (["work", "raml", "a", "target", "cli-dependencies.jar"], .file "a".toUTF8 0o644 none),
      (["work", "raml", "0"], .link ⟨"a.b"⟩)]
  workingDirectory := []

/-- A host whose programs leave everything as it is. -/
def idleHost : Host :=
  { quietHost builtFiles with
    searchPath := [⟨"/bin"⟩]
    programOf := fun _ => some ⟨"mvn", fun _ fs => ⟨fs, .empty, .empty, .exited 0⟩⟩ }

/-- The address of the checkout. -/
def idleUrl : String := "https://git.example/raml.git"

end RamlBuild
