import RamlBuild.Proofs.Build.Machine
import RamlBuild.Proofs.Build.Temporary
import RamlBuild.Proofs.Tool.Lock
import RamlBuild.Tool.Installer

/-!
# What is asked of the steps of a tool

A tool fits a site when each of its steps does there what it is meant for and nothing else: looking up
the version, asking for the artifacts and fetching touch neither the artifacts nor the lock file,
building puts all artifacts there unless it fails, and removing takes artifacts away. None of them changes the machine.

## Main definitions

* `Site.Spares`, `Site.LeavesAlone` — the lock file stays, and the artifacts do
* `Site.Present`, `Site.Loses` — all artifacts are there; artifacts stay as they are or go
* `Installer.Fits` — the steps of a tool do what they are meant for
* `Installer.LeavesMachine` — they leave the machine alone

## Main results

* `Site.Sound.of_spares` — a host stays sound
* `Installer.isPlainName_buildName` — a build directory is an entry of the root
* `sameMachine_install` — an installation leaves the machine alone when its steps do
-/

namespace RamlBuild

open Build

namespace Site

variable {site : Site} {host host' host'' : Host} {fs fs' fs'' : Files}

/-- All artifacts are there. -/
def Present (site : Site) (fs : Files) : Prop :=
  ∀ name ∈ site.artifacts, (fs.get? (site.artifact name)).isSome

/-- Every artifact is as it was, or gone. -/
def Loses (site : Site) (fs fs' : Files) : Prop :=
  ∀ name ∈ site.artifacts, fs'.get? (site.artifact name) = fs.get? (site.artifact name) ∨
    fs'.get? (site.artifact name) = none

theorem Loses.refl (site : Site) (fs : Files) : site.Loses fs fs :=
  fun _ _ => .inl rfl

theorem Loses.trans (h : site.Loses fs fs') (h' : site.Loses fs' fs'') : site.Loses fs fs'' := by
  intro name hname
  rcases h' name hname with heq | hgone
  · rw [heq]
    exact h name hname
  · exact .inr hgone

/-- An artifact that is there now is the one that was there. -/
theorem Loses.get?_eq_some (h : site.Loses fs fs') {name : String} {e : Entry}
    (hname : name ∈ site.artifacts) (he : fs'.get? (site.artifact name) = some e) :
    fs.get? (site.artifact name) = some e := by
  rcases h name hname with heq | hgone
  · rw [← heq, he]
  · rw [hgone] at he
    contradiction

/-- The way to the site, the schedule of faults and the lock file stay. -/
structure Spares (site : Site) (host host' : Host) : Prop where
  stays : site.Stays host.files host'.files
  faults : host'.faults = host.faults
  lock : host'.files.get? site.lock = host.files.get? site.lock

/-- The artifacts stay as well. -/
structure LeavesAlone (site : Site) (host host' : Host) : Prop extends site.Spares host host' where
  artifact : ∀ name ∈ site.artifacts,
    host'.files.get? (site.artifact name) = host.files.get? (site.artifact name)

theorem Spares.trans (h : site.Spares host host') (h' : site.Spares host' host'') :
    site.Spares host host'' :=
  ⟨h.stays.trans h'.stays, h'.faults.trans h.faults, h'.lock.trans h.lock⟩

theorem LeavesAlone.trans (h : site.LeavesAlone host host') (h' : site.LeavesAlone host' host'') :
    site.LeavesAlone host host'' :=
  ⟨h.toSpares.trans h'.toSpares, fun name hname =>
    (h'.artifact name hname).trans (h.artifact name hname)⟩

theorem leavesAlone_of_files_eq (hfiles : host'.files = host.files)
    (hfaults : host'.faults = host.faults) : site.LeavesAlone host host' where
  stays := hfiles ▸ Stays.refl site host.files
  faults := hfaults
  lock := by rw [hfiles]
  artifact := fun _ _ => by rw [hfiles]

/-- A change off the way that is not of the lock file spares it. -/
theorem spares_of_get?_eq {loc : Location} (hway : loc ∉ site.way) (hlock : loc ≠ site.lock)
    (hget : ∀ l, l ≠ loc → host'.files.get? l = host.files.get? l)
    (hworking : host'.files.workingDirectory = host.files.workingDirectory)
    (htree : host.files.IsTree → host'.files.IsTree) (hfaults : host'.faults = host.faults) :
    site.Spares host host' where
  stays := by
    have hsame : ∀ v ∈ site.way, host'.files.get? v = host.files.get? v := by
      intro v hv
      apply hget
      rintro rfl
      exact hway hv
    refine ⟨hworking, htree, fun v hv => Files.linkAt_eq_of_get?_eq (hsame v hv), ?_⟩
    intro v hv e he
    rwa [Files.passage, hsame v hv, ← Files.passage]
  faults := hfaults
  lock := hget _ hlock.symm

theorem LeavesAlone.loses (h : site.LeavesAlone host host') :
    site.Loses host.files host'.files :=
  fun name hname => .inl (h.artifact name hname)

theorem Sound.of_spares (hsound : site.Sound host) (h : site.Spares host host') :
    site.Sound host' :=
  hsound.of_stays h.stays h.faults h.lock

theorem locked_iff_of_lock_eq (h : fs'.get? site.lock = fs.get? site.lock) :
    site.Locked fs' ↔ site.Locked fs := by
  rw [Locked, h, Locked]

end Site

namespace Installer

variable {tool : Installer} {site : Site} {n : Nat}

/-- The name of a build directory with a label. -/
def buildName (tool : Installer) (n : Nat) : String :=
  s!".{tool.name}-build-" ++ Files.temporaryLabel n ++ ""

/-- The paths of build directories: entries of the root with a name of their own. -/
def IsBuildPath (tool : Installer) (fs : Files) (dir : Path) : Prop :=
  ∃ n, dir = fs.workingDirectory.path / tool.root / tool.buildName n

/-- The steps of a tool do what they are meant for, wherever its site lies where it is said to be.
Nothing is asked of what they do elsewhere. -/
structure Fits (tool : Installer) (site : Site) : Prop where
  root : tool.root = site.root
  lockFile : tool.lockFile = site.lockFile
  /-- The tool has a name that can stand in the name of a file. -/
  name : '/' ∉ tool.name.toList
  /-- Versions are trimmed. -/
  resolveVersion : ∀ {host result host'}, site.Lies host.files →
    exec tool.resolveVersion host = (result, host') →
    site.LeavesAlone host host' ∧ ∀ version, result = .ok version → Text.trimmed version = version
  artifactsPresent : ∀ {host result host'}, site.Lies host.files →
    exec tool.artifactsPresent host = (result, host') →
    site.LeavesAlone host host' ∧ (result = .ok true → site.Present host.files)
  removeArtifacts : ∀ {host result host'}, site.Lies host.files →
    exec tool.removeArtifacts host = (result, host') →
    site.Spares host host' ∧ site.Loses host.files host'.files
  download : ∀ {host version dir result host'}, site.Lies host.files →
    tool.IsBuildPath host.files dir → exec (tool.download version dir) host = (result, host') →
    site.LeavesAlone host host'
  /-- All artifacts are put in place, unless the build fails. -/
  buildAndInstall : ∀ {host version dir result host'}, site.Lies host.files →
    tool.IsBuildPath host.files dir →
    exec (tool.buildAndInstall version dir) host = (result, host') →
    site.Spares host host' ∧ (result = .ok () → site.Present host'.files)

/-! ### Build directories -/

/-- A build directory is an entry of the root. -/
theorem isPlainName_buildName (h : '/' ∉ tool.name.toList) (n : Nat) :
    IsPlainName (tool.buildName n) := by
  refine Files.isPlainName_temporary ?_ (by decide) n
  rw [String.toList_append, String.toList_append, List.mem_append, List.mem_append]
  rintro ((hdot | hname) | hbuild)
  · exact absurd hdot (by decide)
  · exact h hname
  · exact absurd hbuild (by decide)

end Installer

/-- The name of a build directory begins with a dot. -/
theorem head?_buildName (tool : Installer) (n : Nat) :
    (tool.buildName n).toList.head? = some '.' := by
  rw [Installer.buildName, String.append_empty, String.toList_append, String.toList_append,
    String.toList_append]
  rfl

end RamlBuild

/-! ## Installations leave the machine alone -/

namespace RamlBuild

open Build

variable {tool : Installer} {p root dir : Path} {version : String}

theorem sameMachine_lockRead : Always SameMachine (Lock.read p) := by
  refine Always.bind chains_sameMachine sameMachine_readText.attempt fun text => ?_
  cases text with
  | ok text => exact Always.pure chains_sameMachine _
  | error failure =>
    simp only
    split
    · exact Always.pure chains_sameMachine _
    · exact Always.throw chains_sameMachine _

theorem sameMachine_lockRemove : Always SameMachine (Lock.remove p) := by
  refine Always.bind chains_sameMachine sameMachine_changing.attempt fun removed => ?_
  cases removed with
  | ok => exact Always.pure chains_sameMachine _
  | error failure =>
    simp only
    split
    · exact Always.pure chains_sameMachine _
    · exact Always.throw chains_sameMachine _

/-- The steps of a tool leave the machine alone. -/
structure Installer.LeavesMachine (tool : Installer) : Prop where
  resolveVersion : Always SameMachine tool.resolveVersion
  artifactsPresent : Always SameMachine tool.artifactsPresent
  removeArtifacts : Always SameMachine tool.removeArtifacts
  download : ∀ version dir, Always SameMachine (tool.download version dir)
  buildAndInstall : ∀ version dir, Always SameMachine (tool.buildAndInstall version dir)

theorem sameMachine_clean (h : tool.LeavesMachine) : Always SameMachine (clean tool) :=
  Always.bind chains_sameMachine (Always.within h.removeArtifacts) fun _ => sameMachine_lockRemove

theorem sameMachine_createBuildDirectory : Always SameMachine (createBuildDirectory tool) := by
  refine Always.bind chains_sameMachine (Always.files chains_sameMachine) fun fs => ?_
  refine Always.bind chains_sameMachine sameMachine_reading fun loc => ?_
  refine Always.bind chains_sameMachine (sameMachine_modifyFiles (·.put loc _)) fun _ => ?_
  exact Always.pure chains_sameMachine _

theorem sameMachine_buildVersion (h : tool.LeavesMachine) :
    Always SameMachine (buildVersion tool version) := by
  refine Always.bind chains_sameMachine sameMachine_createDirectories fun _ => ?_
  refine Always.bind chains_sameMachine (Always.within sameMachine_createBuildDirectory) ?_
  rintro ⟨loc, workDir⟩
  refine sameMachine_cleaningUp ?_
  refine Always.bind chains_sameMachine (Always.within (h.download _ _)) fun _ => ?_
  refine Always.bind chains_sameMachine (Always.within (h.buildAndInstall _ _)) fun _ => ?_
  refine Always.bind chains_sameMachine (Always.within sameMachine_writeAtomically) fun _ => ?_
  exact Always.within sameMachine_changing

theorem sameMachine_requiredState (h : tool.LeavesMachine) :
    Always SameMachine (requiredState tool version) := by
  have hread : Always SameMachine (InstallState.determine tool.root tool.lockFile version) := by
    refine Always.bind chains_sameMachine (Always.asking chains_sameMachine _) fun there => ?_
    split
    · refine Always.bind chains_sameMachine sameMachine_lockRead fun found => ?_
      split <;> exact Always.pure chains_sameMachine _
    · exact Always.pure chains_sameMachine _
  refine Always.bind chains_sameMachine hread fun state => ?_
  split
  · refine Always.bind chains_sameMachine h.artifactsPresent fun _ => ?_
    exact Always.pure chains_sameMachine _
  · exact Always.pure chains_sameMachine _

/-- An installation leaves the machine alone when its steps do. -/
theorem sameMachine_install (h : tool.LeavesMachine) : Always SameMachine (install tool) := by
  refine Always.bind chains_sameMachine (Always.within h.resolveVersion) fun version => ?_
  split
  · exact Always.throw chains_sameMachine _
  · refine Always.bind chains_sameMachine (sameMachine_requiredState h) fun state => ?_
    cases state with
    | skip => exact Always.pure chains_sameMachine _
    | new =>
      exact Always.bind chains_sameMachine (sameMachine_buildVersion h) fun _ =>
        Always.pure chains_sameMachine _
    | update =>
      refine Always.bind chains_sameMachine sameMachine_lockRead fun previous => ?_
      refine Always.bind chains_sameMachine (sameMachine_clean h) fun _ => ?_
      exact Always.bind chains_sameMachine (sameMachine_buildVersion h) fun _ =>
        Always.pure chains_sameMachine _

end RamlBuild
