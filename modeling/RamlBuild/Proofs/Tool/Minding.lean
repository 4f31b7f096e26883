import RamlBuild.Proofs.Build.Frame
import RamlBuild.Proofs.Tool.Building

/-!
# What an installation leaves alone

When each of its steps leaves a frame alone, so does the whole installation of a tool, whether it
succeeds or fails: directories are made on the way to its root only, its build directory comes where
nothing was and goes with all that is in it, and nothing else is written but its lock file.

## Main definitions

* `Installer.Minds` — the steps of a tool leave a frame alone
* `Frame.Clear` — nothing is kept on the way to a site, and not its lock file

## Main results

* `Frame.stands_install` — an installation leaves the frames alone that its steps leave alone
-/

namespace RamlBuild

open Build

variable {tool : Installer} {site : Site} {frame other : Frame} {host host' : Host}
  {fs fs' : Files} {version : String} {dir : Path} {loc : Location}

/-! ### The steps in a build directory -/

/-- The steps in a build directory, up to its removal. -/
def assembleVersion (tool : Installer) (version : String) (workDir : Path) : Build Unit := do
  within s!"downloading {tool.name} {version}" (tool.download version workDir)
  within s!"installing {tool.name} {version}" (tool.buildAndInstall version workDir)
  Lock.write tool.lockFile version

/-- What is done within an activity is done. -/
theorem exec_of_within {α : Type} {activity : String} {x : Build α} {result : Except Failure α}
    (h : exec (within activity x) host = (result, host')) :
    ∃ outcome, exec x host = (outcome, host') := by
  rcases exec_within_cases h with ⟨a, -, hx⟩ | ⟨failure, -, hx⟩
  · exact ⟨_, hx⟩
  · exact ⟨_, hx⟩

theorem completeVersion_eq (tool : Installer) (version : String) (workDir : Path) :
    completeVersion tool version workDir = (do
      assembleVersion tool version workDir
      within s!"removing build directory {workDir}" (removeTree workDir)) := by
  simp only [completeVersion, assembleVersion, bind_assoc]

/-- Whether a build directory is removed or cleaned up, it goes with all that is in it, and nothing
else happens. -/
theorem exec_cleaningUp_removeTree {x : Build Unit} {activity : String}
    {result : Except Failure Unit}
    (h : exec (cleaningUp (·.eraseTree loc) (do x; within activity (removeTree dir))) host =
      (result, host')) :
    ∃ outcome last, exec x host = (outcome, last) ∧ (result = .ok () → outcome = .ok ()) ∧
      host'.faults = last.faults ∧
      (last.files.IsTree → loc ≠ [] → (∀ l, last.files.place dir = .ok l → l = loc) →
        host'.files.workingDirectory = last.files.workingDirectory ∧
        ∀ l, host'.files.get? l = (last.files.eraseTree loc).get? l) := by
  rcases hx : exec x host with ⟨outcome, last⟩
  refine ⟨outcome, last, rfl, ?_⟩
  rw [exec_cleaningUp] at h
  cases outcome with
  | error failure =>
    rw [exec_bind_of_error hx] at h
    obtain ⟨rfl, rfl⟩ := Prod.mk.inj h
    exact ⟨by simp, rfl, fun _ _ _ => ⟨rfl, fun _ => rfl⟩⟩
  | ok =>
    rw [exec_bind_of_ok hx] at h
    rcases hremove : exec (within activity (removeTree dir)) last with ⟨removed, host₁⟩
    rw [hremove] at h
    rcases exec_within_cases hremove with ⟨⟨⟩, rfl, hgone⟩ | ⟨failure, rfl, hkept⟩
    · obtain ⟨rfl, rfl⟩ := Prod.mk.inj h
      obtain ⟨hop, hfaults⟩ := changing_ok hgone
      refine ⟨fun _ => rfl, hfaults, ?_⟩
      intro htree hne hplace
      obtain ⟨l, hl, hworking, hget⟩ := Files.removeTree_ok htree hop
      obtain rfl := hplace l hl
      exact ⟨hworking, hget hne⟩
    · obtain ⟨rfl, rfl⟩ := Prod.mk.inj h
      obtain ⟨hfiles, hfaults⟩ := changing_error hkept
      exact ⟨by simp, hfaults, fun _ _ _ => by rw [← hfiles]; exact ⟨rfl, fun _ => rfl⟩⟩

/-! ### Frames of sites -/

namespace Site

/-- The way to a site and the place of its lock file. -/
def OnCourse (site : Site) (v : Location) : Prop :=
  v ∈ site.way ∨ v = site.lock

/-- What tells where a site lies and where its lock file is. -/
def course (site : Site) : Frame :=
  ⟨site.OnCourse, fun _ => False⟩

theorem stays_of_keeps (h : frame.Keeps fs fs') (hways : ∀ v ∈ site.way, frame.ways v) :
    site.Stays fs fs' :=
  ⟨h.workingDirectory, h.isTree, fun v hv => h.linkAt v (hways v hv),
    fun v hv => h.passage v (hways v hv)⟩

/-- A site is placed while its course is kept. -/
theorem Placed.of_keeps (h : site.Placed fs) (hkeeps : frame.Keeps fs fs')
    (hcourse : ∀ v, site.OnCourse v → frame.ways v) : site.Placed fs' where
  lies := h.lies.of_stays (stays_of_keeps hkeeps fun v hv => hcourse v (.inl hv))
  notLink := (hkeeps.linkAt _ (hcourse _ (.inr rfl))).trans h.notLink

end Site

namespace Frame

/-- The frame without what is kept at or below a location. -/
def but (frame : Frame) (loc : Location) : Frame :=
  { frame with kept := fun l => frame.kept l ∧ ¬loc.isPrefixOf l = true }

/-- Two frames at once. -/
def join (frame other : Frame) : Frame where
  ways := fun v => frame.ways v ∨ other.ways v
  kept := fun l => frame.kept l ∨ other.kept l

theorem Keeps.mono (h : frame.Keeps fs fs') (hways : ∀ v, other.ways v → frame.ways v)
    (hkept : ∀ l, other.kept l → frame.kept l) : other.Keeps fs fs' :=
  ⟨h.workingDirectory, h.isTree, fun v hv => h.linkAt v (hways v hv),
    fun v hv => h.passage v (hways v hv), fun l hl => h.get?_eq l (hkept l hl)⟩

theorem Stands.mono (h : frame.Stands host host') (hways : ∀ v, other.ways v → frame.ways v)
    (hkept : ∀ l, other.kept l → frame.kept l) : other.Stands host host' :=
  ⟨h.1.mono hways hkept, h.2⟩

theorem Stands.join (h : frame.Stands host host') (h' : other.Stands host host') :
    (frame.join other).Stands host host' := by
  refine ⟨⟨h.1.workingDirectory, h.1.isTree, ?_, ?_, ?_⟩, h.2⟩
  · exact fun v hv => hv.elim (h.1.linkAt v) (h'.1.linkAt v)
  · exact fun v hv => hv.elim (h.1.passage v) (h'.1.passage v)
  · exact fun l hl => hl.elim (h.1.get?_eq l) (h'.1.get?_eq l)

/-- What came at a free location goes again, and with it all that was not kept. -/
theorem Keeps.eraseTree_of_but (h : (frame.but loc).Keeps fs fs') (htree : fs.IsTree)
    (hfree : fs.get? loc = none) : frame.Keeps fs (fs'.eraseTree loc) := by
  have hkeeps := h.eraseTree htree hfree
  refine ⟨hkeeps.workingDirectory, hkeeps.isTree, hkeeps.linkAt, hkeeps.passage, ?_⟩
  intro l hl
  by_cases hbelow : loc.isPrefixOf l = true
  · rw [Files.get?_eraseTree (Files.ne_nil_of_get?_eq_none hfree), if_pos hbelow,
      htree.get?_eq_none_of_prefix hfree hbelow]
  · exact hkeeps.get?_eq l ⟨hl, hbelow⟩

/-- The frame stands as long as something holds of the files. -/
def StandsWhile (frame : Frame) (holds : Files → Prop) (host host' : Host) : Prop :=
  holds host.files → frame.Stands host host'

theorem chains_standsWhile {holds : Files → Prop}
    (hholds : ∀ {fs fs'}, holds fs → frame.Keeps fs fs' → holds fs') :
    Chains (frame.StandsWhile holds) where
  refl := fun host _ => (chains_stands frame).refl host
  trans := fun h h' hfirst =>
    (chains_stands frame).trans (h hfirst) (h' (hholds hfirst (h hfirst).1))

/-- Nothing is kept on the way to a site, and its lock file is not. -/
structure Clear (frame : Frame) (site : Site) : Prop where
  way : ∀ v ∈ site.way, ¬frame.kept v
  lock : ¬frame.kept site.lock

end Frame

namespace Installer

/-- Each step of a tool leaves a frame alone, wherever its site lies where it is said to be. -/
structure Minds (tool : Installer) (site : Site) (frame : Frame) : Prop where
  resolveVersion : ∀ {host result host'}, site.Lies host.files →
    exec tool.resolveVersion host = (result, host') → frame.Stands host host'
  artifactsPresent : ∀ {host result host'}, site.Lies host.files →
    exec tool.artifactsPresent host = (result, host') → frame.Stands host host'
  removeArtifacts : ∀ {host result host'}, site.Lies host.files →
    exec tool.removeArtifacts host = (result, host') → frame.Stands host host'
  download : ∀ {host version dir result host'}, site.Lies host.files →
    tool.IsBuildPath host.files dir → exec (tool.download version dir) host = (result, host') →
    frame.Stands host host'
  buildAndInstall : ∀ {host version dir result host'}, site.Lies host.files →
    tool.IsBuildPath host.files dir →
    exec (tool.buildAndInstall version dir) host = (result, host') → frame.Stands host host'

theorem Minds.mono (h : tool.Minds site frame) (hways : ∀ v, other.ways v → frame.ways v)
    (hkept : ∀ l, other.kept l → frame.kept l) : tool.Minds site other where
  resolveVersion := fun hlies hx => (h.resolveVersion hlies hx).mono hways hkept
  artifactsPresent := fun hlies hx => (h.artifactsPresent hlies hx).mono hways hkept
  removeArtifacts := fun hlies hx => (h.removeArtifacts hlies hx).mono hways hkept
  download := fun hlies hdir hx => (h.download hlies hdir hx).mono hways hkept
  buildAndInstall := fun hlies hdir hx => (h.buildAndInstall hlies hdir hx).mono hways hkept

/-- A tool has its root and its lock file at a site, and a name that can stand in the name of a
file. -/
structure IsAt (tool : Installer) (site : Site) : Prop where
  root : tool.root = site.root
  lockFile : tool.lockFile = site.lockFile
  name : '/' ∉ tool.name.toList

/-- A tool works at a site: its root and its lock file are those of the site, it has a name that can
stand in the name of a file, and its steps do not put the site elsewhere. -/
structure WorksAt (tool : Installer) (site : Site) : Prop where
  root : tool.root = site.root
  lockFile : tool.lockFile = site.lockFile
  name : '/' ∉ tool.name.toList
  minds : tool.Minds site site.course

theorem WorksAt.isAt (h : tool.WorksAt site) : tool.IsAt site :=
  ⟨h.root, h.lockFile, h.name⟩

/-- A build directory that was just made: the path of an entry of the root, with an empty directory
in its place. -/
structure Opens (tool : Installer) (site : Site) (fs : Files) (n : Nat) (dir : Path) : Prop where
  path_eq : dir = fs.workingDirectory.path / tool.root / tool.buildName n
  directory : fs.get? (site.directory ++ [tool.buildName n]) =
    some (.directory buildDirectoryMode)
  empty : ∀ name rest, fs.get? (site.directory ++ tool.buildName n :: name :: rest) = none

theorem Opens.isBuildPath {n : Nat} (h : tool.Opens site fs n dir) : tool.IsBuildPath fs dir :=
  ⟨n, h.path_eq⟩

/-- Each step of a tool leaves a frame alone where an installation takes it: versions are fetched
into a build directory that was just made, and built where they were fetched. -/
structure Heeds (tool : Installer) (site : Site) (frame : Frame) : Prop where
  resolveVersion : ∀ {host result host'}, site.Lies host.files →
    exec tool.resolveVersion host = (result, host') → frame.Stands host host'
  artifactsPresent : ∀ {host result host'}, site.Lies host.files →
    exec tool.artifactsPresent host = (result, host') → frame.Stands host host'
  removeArtifacts : ∀ {host result host'}, site.Lies host.files →
    exec tool.removeArtifacts host = (result, host') → frame.Stands host host'
  download : ∀ {host version n dir result host'}, site.Lies host.files →
    tool.Opens site host.files n dir → exec (tool.download version dir) host = (result, host') →
    frame.Stands host host'
  buildAndInstall : ∀ {host version n dir fetched result host'}, site.Lies host.files →
    tool.Opens site host.files n dir →
    exec (tool.download version dir) host = (.ok (), fetched) → site.Lies fetched.files →
    exec (tool.buildAndInstall version dir) fetched = (result, host') → frame.Stands fetched host'

theorem Minds.heeds (h : tool.Minds site frame) : tool.Heeds site frame where
  resolveVersion := h.resolveVersion
  artifactsPresent := h.artifactsPresent
  removeArtifacts := h.removeArtifacts
  download := fun hlies hopens hx => h.download hlies hopens.isBuildPath hx
  buildAndInstall := by
    intro host version n dir fetched result host' hlies hopens hfetch hlies' hx
    refine h.buildAndInstall hlies' ?_ hx
    rw [IsBuildPath, (h.download hlies hopens.isBuildPath hfetch).1.workingDirectory]
    exact hopens.isBuildPath

theorem Heeds.join (h : tool.Heeds site frame) (h' : tool.Heeds site other) :
    tool.Heeds site (frame.join other) where
  resolveVersion := fun hlies hx => (h.resolveVersion hlies hx).join (h'.resolveVersion hlies hx)
  artifactsPresent := fun hlies hx =>
    (h.artifactsPresent hlies hx).join (h'.artifactsPresent hlies hx)
  removeArtifacts := fun hlies hx => (h.removeArtifacts hlies hx).join (h'.removeArtifacts hlies hx)
  download := fun hlies hopens hx => (h.download hlies hopens hx).join (h'.download hlies hopens hx)
  buildAndInstall := fun hlies hopens hfetch hlies' hx =>
    (h.buildAndInstall hlies hopens hfetch hlies' hx).join
      (h'.buildAndInstall hlies hopens hfetch hlies' hx)

theorem Heeds.mono (h : tool.Heeds site frame) (hways : ∀ v, other.ways v → frame.ways v)
    (hkept : ∀ l, other.kept l → frame.kept l) : tool.Heeds site other where
  resolveVersion := fun hlies hx => (h.resolveVersion hlies hx).mono hways hkept
  artifactsPresent := fun hlies hx => (h.artifactsPresent hlies hx).mono hways hkept
  removeArtifacts := fun hlies hx => (h.removeArtifacts hlies hx).mono hways hkept
  download := fun hlies hopens hx => (h.download hlies hopens hx).mono hways hkept
  buildAndInstall := fun hlies hopens hfetch hlies' hx =>
    (h.buildAndInstall hlies hopens hfetch hlies' hx).mono hways hkept

theorem WorksAt.heeds (h : tool.WorksAt site) : tool.Heeds site site.course :=
  h.minds.heeds

end Installer

namespace Frame

/-! ### The steps of an installation -/

section Steps

variable (hat : tool.IsAt site) (hheeds : tool.Heeds site frame) (hclear : frame.Clear site)
  (hcourse : ∀ v, site.OnCourse v → frame.ways v)

include hcourse

/-- What an installation does to a frame, wherever its site is placed. -/
theorem chains_standsWhile_placed : Chains (frame.StandsWhile site.Placed) :=
  chains_standsWhile fun hplaced hkeeps => hplaced.of_keeps hkeeps hcourse

omit hcourse

include hat hclear

theorem stands_lockRemove :
    Always (frame.StandsWhile site.Placed) (Lock.remove tool.lockFile) := by
  intro host result host' h hplaced
  rw [hat.lockFile, Lock.remove] at h
  have hremove : ∀ {result host'}, exec (removeFile site.lockFile) host = (result, host') →
      frame.Stands host host' := by
    intro result host' hx
    refine stands_removeFile ?_ hx
    intro target hplace
    obtain rfl := hplaced.locate_eq hplace
    exact ⟨hclear.lock, fun _ => hplaced.notLink⟩
  obtain ⟨outcome, host₁, hattempt, h⟩ : ∃ outcome host₁,
      exec (removeFile site.lockFile) host = (outcome, host₁) ∧ host' = host₁ := by
    rw [exec_bind, exec_attempt] at h
    refine ⟨_, _, rfl, ?_⟩
    simp only at h
    split at h
    · exact (Prod.mk.inj h).2.symm
    · split at h <;> exact (Prod.mk.inj h).2.symm
  exact h ▸ hremove hattempt

theorem stands_lockWrite :
    Always (frame.StandsWhile site.Placed) (Lock.write tool.lockFile version) := by
  rw [hat.lockFile, Lock.write]
  apply Always.within
  intro host result host' h hplaced
  refine stands_writeAtomically ?_ h
  intro target hplace
  obtain rfl := hplaced.locate_eq hplace
  exact ⟨hclear.lock, fun _ => hplaced.notLink⟩

include hheeds hcourse

theorem stands_clean : Always (frame.StandsWhile site.Placed) (clean tool) := by
  have hchains := chains_standsWhile_placed hcourse
  refine Always.bind hchains (Always.within ?_) fun _ => stands_lockRemove hat hclear
  exact fun host result host' h hplaced => hheeds.removeArtifacts hplaced.lies h

theorem stands_assembleVersion {n : Nat} {result : Except Failure Unit}
    (hplaced : site.Placed host.files) (hopens : tool.Opens site host.files n dir)
    (h : exec (assembleVersion tool version dir) host = (result, host')) :
    frame.Stands host host' := by
  have hplaced_of {host host' : Host} (hplaced : site.Placed host.files)
      (hstands : frame.Stands host host') : site.Placed host'.files :=
    hplaced.of_keeps hstands.1 hcourse
  have htrans := @(chains_stands frame).trans
  rcases exec_bind_cases h with ⟨⟨⟩, fetched, hfetch, h⟩ | ⟨failure, hfetch, -⟩
  · have hfetch := exec_within_ok hfetch
    have hfetched := hheeds.download hplaced.lies hopens hfetch
    have hplaced₁ := hplaced_of hplaced hfetched
    rcases exec_bind_cases h with ⟨⟨⟩, built, hbuild, hwrite⟩ | ⟨failure, hbuild, -⟩
    · have hbuilt := hheeds.buildAndInstall hplaced.lies hopens hfetch hplaced₁.lies
        (exec_within_ok hbuild)
      exact htrans (htrans hfetched hbuilt)
        (stands_lockWrite hat hclear hwrite (hplaced_of hplaced₁ hbuilt))
    · obtain ⟨result', hbuild⟩ := exec_of_within hbuild
      exact htrans hfetched
        (hheeds.buildAndInstall hplaced.lies hopens hfetch hplaced₁.lies hbuild)
  · obtain ⟨result', hfetch⟩ := exec_of_within hfetch
    exact hheeds.download hplaced.lies hopens hfetch

end Steps

end Frame

/-! ### The build directory -/

/-- Making a build directory and working in it. -/
def buildInside (tool : Installer) (version : String) : Build Unit := do
  let (loc, workDir) ← within s!"creating build directory in {tool.root}" (createBuildDirectory tool)
  cleaningUp (·.eraseTree loc) (completeVersion tool version workDir)

theorem buildVersion_eq_inside (tool : Installer) (version : String) :
    buildVersion tool version = (do
      createDirectories tool.root
      buildInside tool version) := rfl

/-- The course of a site has nothing that an installation there could change. -/
theorem clear_course : site.course.Clear site :=
  ⟨fun _ _ h => h, fun h => h⟩

/-- Work in a build directory: it is made at a free location in the root, the steps of the tool are
taken in it, and it goes with all that is in it. -/
structure RunsInside (tool : Installer) (site : Site) (version : String) (host : Host) (n : Nat)
    (loc : Location) (host₂ : Host) (outcome : Except Failure Unit) (last host' : Host) : Prop where
  loc_eq : loc = site.directory ++ [tool.buildName n]
  free : host.files.get? loc = none
  files_eq : host₂.files = host.files.put loc (.directory buildDirectoryMode)
  makes : Files.MakesDirectories host.files host₂.files
  faults : host₂.faults = host.faults
  placed : site.Placed host₂.files
  opens : tool.Opens site host₂.files n (host.files.workingDirectory.path / tool.root / tool.buildName n)
  reachable : Files.requirePath (host.files.workingDirectory.path / tool.root / tool.buildName n) = .ok ()
  assembles : exec (assembleVersion tool version
    (host.files.workingDirectory.path / tool.root / tool.buildName n)) host₂ = (outcome, last)
  placed_last : site.Placed last.files
  faults_last : host'.faults = last.faults
  workingDirectory : host'.files.workingDirectory = last.files.workingDirectory
  get?_eq : ∀ l, host'.files.get? l = (last.files.eraseTree loc).get? l

theorem RunsInside.isBuildPath {n : Nat} {host₂ last : Host} {outcome : Except Failure Unit}
    (h : RunsInside tool site version host n loc host₂ outcome last host') :
    tool.IsBuildPath host₂.files (host.files.workingDirectory.path / tool.root / tool.buildName n) :=
  h.opens.isBuildPath

/-- Where a build directory is made: an entry of the root where nothing was. -/
structure OpensAt (tool : Installer) (site : Site) (host : Host) (n : Nat) (loc : Location)
    (dir : Path) (host₂ : Host) : Prop where
  loc_eq : loc = site.directory ++ [tool.buildName n]
  path_eq : dir = host.files.workingDirectory.path / tool.root / tool.buildName n
  place : host.files.place dir = .ok loc
  free : host.files.get? loc = none
  files_eq : host₂.files = host.files.put loc (.directory buildDirectoryMode)
  makes : OnlyMakesDirectories host host₂
  placed : site.Placed host₂.files
  opens : tool.Opens site host₂.files n dir

theorem opensAt_of_createBuildDirectory {host₂ : Host} (hat : tool.IsAt site)
    (hplaced : site.Placed host.files)
    (h : exec (createBuildDirectory tool) host = (.ok (loc, dir), host₂)) :
    ∃ n, OpensAt tool site host n loc dir host₂ := by
  obtain ⟨⟨n, rfl⟩, hplace, hfree, hput, hfaults⟩ := createBuildDirectory_ok h
  have hmakes : Files.MakesDirectories host.files host₂.files :=
    hput ▸ Files.makesDirectories_put hfree hplace
  have hkeeps : site.course.Keeps host.files host₂.files :=
    Frame.keeps_of_makesDirectories hmakes fun _ h => h.elim
  have hloc : loc = site.directory ++ [tool.buildName n] := by
    rw [hat.root] at hplace
    exact hplaced.lies.leads_absolute.place_eq (Installer.isPlainName_buildName hat.name n) hplace
  refine ⟨n, hloc, rfl, hplace, hfree, hput, ⟨hmakes, hfaults⟩,
    hplaced.of_keeps hkeeps fun _ hv => hv, by rw [hmakes.workingDirectory], ?_, ?_⟩
  · rw [hput, ← hloc, Files.get?_put_self (Files.ne_nil_of_get?_eq_none hfree)]
  · intro name rest
    rw [hput, Files.get?_put_of_ne (by simp [hloc])]
    refine hplaced.lies.isTree.get?_eq_none_of_prefix hfree ?_
    rw [hloc, List.isPrefixOf_iff_prefix]
    exact ⟨name :: rest, by simp⟩

/-- Either no build directory can be made, or the steps of the tool are taken in it. -/
theorem exec_buildInside_cases {result : Except Failure Unit} (hat : tool.IsAt site)
    (hheeds : tool.Heeds site site.course) (hplaced : site.Placed host.files)
    (h : exec (buildInside tool version) host = (result, host')) :
    (result ≠ .ok () ∧ host'.files = host.files ∧ host'.faults = host.faults) ∨
      ∃ n loc host₂ outcome last, RunsInside tool site version host n loc host₂ outcome last host' ∧
        (result = .ok () → outcome = .ok ()) := by
  rcases exec_bind_cases h with ⟨⟨loc, dir⟩, host₂, hmake, h⟩ | ⟨failure, hmake, rfl⟩
  · right
    obtain ⟨n, hloc, rfl, hplace, hfree, hput, ⟨hmakes, hfaults₂⟩, hplaced₂, hopens⟩ :=
      opensAt_of_createBuildDirectory hat hplaced (exec_within_ok hmake)
    simp only [completeVersion_eq] at h
    obtain ⟨outcome, last, hassemble, hok, hfaults, hend⟩ := exec_cleaningUp_removeTree h
    have hstands := Frame.stands_assembleVersion hat hheeds clear_course (fun _ hv => hv)
      hplaced₂ hopens hassemble
    have hplaced₃ := hplaced₂.of_keeps hstands.1 fun _ hv => hv
    -- The path of the build directory still leads to where it was made.
    have hsame : ∀ l, last.files.place
        (host.files.workingDirectory.path / tool.root / tool.buildName n) = .ok l → l = loc := by
      intro l hl
      rw [hloc]
      apply hplaced₃.lies.leads_absolute.place_eq (Installer.isPlainName_buildName hat.name n)
      rwa [hstands.1.workingDirectory, hmakes.workingDirectory, ← hat.root]
    obtain ⟨hworking, hget⟩ :=
      hend hplaced₃.lies.isTree (Files.ne_nil_of_get?_eq_none hfree) hsame
    exact ⟨n, loc, host₂, outcome, last, ⟨hloc, hfree, hput, hmakes, hfaults₂, hplaced₂, hopens,
      Files.requirePath_of_locate hplace, hassemble, hplaced₃, hfaults, hworking, hget⟩, hok⟩
  · left
    rcases exec_within_cases hmake with ⟨_, heq, -⟩ | ⟨failure', heq, hmake⟩
    · contradiction
    · obtain ⟨hfiles, hfaults⟩ := createBuildDirectory_error hmake
      exact ⟨by simp, hfiles, hfaults⟩

namespace Frame

section Steps

variable (hat : tool.IsAt site) (hheeds : tool.Heeds site frame) (hclear : frame.Clear site)
  (hcourse : ∀ v, site.OnCourse v → frame.ways v)

include hat hheeds hclear hcourse

/-- A build directory comes where nothing was, and goes with all that was made in it. -/
theorem stands_buildInside :
    Always (frame.StandsWhile site.Placed) (buildInside tool version) := by
  intro host result host' h hplaced
  rcases exec_buildInside_cases hat (hheeds.mono hcourse nofun) hplaced h with
    ⟨-, hfiles, hfaults⟩ | ⟨n, loc, host₂, outcome, last, hruns, -⟩
  · exact stands_of_files_eq hfiles hfaults
  · have hfree := hruns.free
    have hput : (frame.but loc).Keeps host.files host₂.files := by
      refine keeps_of_makesDirectories hruns.makes ?_
      rintro l ⟨-, hbelow⟩
      rw [hruns.files_eq]
      exact Files.get?_put_of_ne fun heq => hbelow (by simp [heq])
    have hassemble := stands_assembleVersion hat hheeds hclear hcourse hruns.placed hruns.opens
      hruns.assembles
    have hkeeps : (frame.but loc).Keeps host.files last.files :=
      hput.trans (hassemble.1.mono (fun _ hv => hv) fun _ hl => hl.1)
    refine ⟨(hkeeps.eraseTree_of_but hplaced.lies.isTree hfree).trans ?_, ?_⟩
    · exact keeps_of_get?_eq hruns.get?_eq hruns.workingDirectory
    · rw [hruns.faults_last, hassemble.2, hruns.faults]

theorem stands_buildVersion :
    Always (frame.StandsWhile site.Placed) (buildVersion tool version) := by
  have hchains := chains_standsWhile_placed hcourse
  refine Always.bind hchains ?_ fun _ => stands_buildInside hat hheeds hclear hcourse
  intro host result host' h hplaced
  have hleads : host.files.LeadsBy (· ∈ site.way) tool.root :=
    hat.root ▸ hplaced.lies.leads.leadsBy
  exact frame.stands_createDirectories hleads hclear.way h

omit hat hheeds hclear hcourse in
theorem stands_lockRead {p : Path} : Always frame.Stands (Lock.read p) := by
  intro host result host' h
  rw [Site.exec_read_files h]
  exact stands_of_files_eq rfl rfl

omit hat hclear in
theorem stands_requiredState :
    Always (frame.StandsWhile site.Placed) (requiredState tool version) := by
  have hchains := chains_standsWhile_placed hcourse
  have hread : Always (frame.StandsWhile site.Placed)
      (InstallState.determine tool.root tool.lockFile version) := by
    refine Always.bind hchains (Always.asking hchains _) ?_
    intro there
    split
    · refine Always.bind hchains (fun host result host' h _ => stands_lockRead h) ?_
      intro found
      split <;> exact Always.pure hchains _
    · exact Always.pure hchains _
  refine Always.bind hchains hread ?_
  intro state
  split
  · refine Always.bind hchains ?_ fun _ => Always.pure hchains _
    exact fun host result host' h hplaced => hheeds.artifactsPresent hplaced.lies h
  · exact Always.pure hchains _

theorem stands_install_of_course : Always (frame.StandsWhile site.Placed) (install tool) := by
  have hchains := chains_standsWhile_placed hcourse
  refine Always.bind hchains (Always.within ?_) ?_
  · exact fun host result host' h hplaced => hheeds.resolveVersion hplaced.lies h
  intro version
  split
  · exact Always.throw hchains _
  · refine Always.bind hchains (stands_requiredState hheeds hcourse) ?_
    intro state
    have hbuild : Always (frame.StandsWhile site.Placed) (buildVersion tool version) :=
      stands_buildVersion hat hheeds hclear hcourse
    cases state with
    | skip => exact Always.pure hchains _
    | new => exact Always.bind hchains hbuild fun _ => Always.pure hchains _
    | update =>
      refine Always.bind hchains (fun host result host' h _ => stands_lockRead h) fun previous => ?_
      refine Always.bind hchains (stands_clean hat hheeds hclear hcourse) fun _ => ?_
      exact Always.bind hchains hbuild fun _ => Always.pure hchains _

end Steps

/-- An installation leaves the frames alone that its steps leave alone, and the site stays where it
is, whether it succeeds or fails. -/
theorem stands_install {result : Except Failure InstallOutcome} (hat : tool.IsAt site)
    (hsite : tool.Heeds site site.course) (hheeds : tool.Heeds site frame)
    (hclear : frame.Clear site) (hplaced : site.Placed host.files)
    (h : exec (install tool) host = (result, host')) :
    frame.Stands host host' ∧ site.Placed host'.files := by
  have hjoined : (frame.join site.course).Clear site :=
    ⟨fun v hv => not_or.2 ⟨hclear.way v hv, fun h => h⟩, not_or.2 ⟨hclear.lock, fun h => h⟩⟩
  have hstands := stands_install_of_course hat (hheeds.join hsite) hjoined (fun v hv => .inr hv) h
    hplaced
  exact ⟨hstands.mono (fun _ => .inl) fun _ => .inl, hplaced.of_keeps hstands.1 fun v hv => .inr hv⟩

end Frame

end RamlBuild
