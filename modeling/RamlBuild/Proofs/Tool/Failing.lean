import RamlBuild.Proofs.Tool.Convergence

/-!
# Installations that fail

An installation fails at one of its steps. Until the artifacts are removed nothing has changed; from
then on there is no lock file until all steps have succeeded, so what a failed installation leaves is
not taken for one that succeeded. Its build directory goes whatever happens in it.

## Main definitions

* `InstallStep` — the steps at which an installation can fail
* `Installer.FailsAt` — where a run of an installation failed
* `LeavesAt` — what it leaves then

## Main results

* `Installer.exists_failsAt` — a failed installation failed at one of the steps
* `leavesAt_of_install` — what a failed installation leaves
* `bareTool_keeps_lock` — but not where the root is the empty path
-/

namespace RamlBuild

open Build

variable {tool tool' : Installer} {site : Site} {host host' : Host} {failure : Failure}
  {version : String} {dir : Path} {loc : Location}

/-- The steps in a build directory. -/
inductive WorkStep where
  | download
  | build
  | lock
  | removal
  deriving DecidableEq, Repr

/-- The steps at which an installation can fail. -/
inductive InstallStep where
  /-- Resolving the version, or finding that it still is the latest one by name. -/
  | resolution
  /-- Finding out what is installed. -/
  | lookup
  /-- Removing what is installed. -/
  | cleaning
  /-- Making the root. -/
  | root
  /-- Making the build directory. -/
  | buildDirectory
  /-- A step in the build directory at a location. -/
  | work (loc : Location) (step : WorkStep)
  deriving DecidableEq, Repr

/-! ### Where an installation fails -/

namespace Installer

/-- A step in a build directory fails. -/
inductive WorkFails (tool : Installer) (version : String) (dir : Path) (host : Host)
    (failure : Failure) (last : Host) : WorkStep → Prop
  | download (fails : exec (within s!"downloading {tool.name} {version}"
        (tool.download version dir)) host = (.error failure, last)) :
      WorkFails tool version dir host failure last .download
  | build (fetched : Host) (fetches : exec (within s!"downloading {tool.name} {version}"
        (tool.download version dir)) host = (.ok (), fetched))
      (fails : exec (within s!"installing {tool.name} {version}"
        (tool.buildAndInstall version dir)) fetched = (.error failure, last)) :
      WorkFails tool version dir host failure last .build
  | lock (fetched built : Host) (fetches : exec (within s!"downloading {tool.name} {version}"
        (tool.download version dir)) host = (.ok (), fetched))
      (builds : exec (within s!"installing {tool.name} {version}"
        (tool.buildAndInstall version dir)) fetched = (.ok (), built))
      (fails : exec (Lock.write tool.lockFile version) built = (.error failure, last)) :
      WorkFails tool version dir host failure last .lock
  | removal (written : Host) (writes : exec (assembleVersion tool version dir) host = (.ok (), written))
      (fails : exec (within s!"removing build directory {dir}" (removeTree dir)) written =
        (.error failure, last)) : WorkFails tool version dir host failure last .removal

/-- An installation fails at a step and leaves a host. All steps before it have succeeded. -/
inductive FailsAt (tool : Installer) (host : Host) (failure : Failure) (host' : Host) :
    InstallStep → Prop
  | resolution (fails : exec (within s!"resolving {tool.name} version" tool.resolveVersion) host =
      (.error failure, host')) : FailsAt tool host failure host' .resolution
  | latest (version : String)
      (told : exec (within s!"resolving {tool.name} version" tool.resolveVersion) host =
        (.ok version, host'))
      (latest : isLatest version = true)
      (fails : failure = .of (.install (.unresolvedVersion tool.name))) :
      FailsAt tool host failure host' .resolution
  | lookup (version : String) (resolved : Host) (resolves : tool.Resolves version host resolved)
      (fails : exec (requiredState tool version) resolved = (.error failure, host')) :
      FailsAt tool host failure host' .lookup
  | previous (version : String) (resolved required : Host)
      (resolves : tool.Resolves version host resolved)
      (state : exec (requiredState tool version) resolved = (.ok .update, required))
      (fails : exec (Lock.read tool.lockFile) required = (.error failure, host')) :
      FailsAt tool host failure host' .lookup
  | cleaning (version : String) (resolved required read : Host) (previous : Option String)
      (resolves : tool.Resolves version host resolved)
      (state : exec (requiredState tool version) resolved = (.ok .update, required))
      (reads : exec (Lock.read tool.lockFile) required = (.ok previous, read))
      (fails : exec (clean tool) read = (.error failure, host')) :
      FailsAt tool host failure host' .cleaning
  | root (version : String) (cleared : Host) (outcome : InstallOutcome)
      (clears : tool.Clears version host cleared outcome)
      (fails : exec (createDirectories tool.root) cleared = (.error failure, host')) :
      FailsAt tool host failure host' .root
  | buildDirectory (version : String) (cleared made : Host) (outcome : InstallOutcome)
      (clears : tool.Clears version host cleared outcome)
      (makes : exec (createDirectories tool.root) cleared = (.ok (), made))
      (fails : exec (within s!"creating build directory in {tool.root}" (createBuildDirectory tool))
        made = (.error failure, host')) : FailsAt tool host failure host' .buildDirectory
  | work (version : String) (cleared made opened last : Host) (outcome : InstallOutcome)
      (loc : Location) (dir : Path) (step : WorkStep)
      (clears : tool.Clears version host cleared outcome)
      (makes : exec (createDirectories tool.root) cleared = (.ok (), made))
      (opens : exec (createBuildDirectory tool) made = (.ok (loc, dir), opened))
      (fails : tool.WorkFails version dir opened failure last step)
      (cleansUp : host' = { last with files := last.files.eraseTree loc }) :
      FailsAt tool host failure host' (.work loc step)

theorem exists_workFails (h : exec (completeVersion tool version dir) host = (.error failure, host')) :
    ∃ step, tool.WorkFails version dir host failure host' step := by
  rw [completeVersion_eq] at h
  rcases exec_bind_cases h with ⟨⟨⟩, written, hwrites, h⟩ | ⟨failure', h, heq⟩
  · exact ⟨.removal, .removal written hwrites h⟩
  · obtain rfl := Except.error.inj heq
    rcases exec_bind_cases h with ⟨⟨⟩, fetched, hfetches, h⟩ | ⟨failure', h, heq⟩
    · rcases exec_bind_cases h with ⟨⟨⟩, built, hbuilds, h⟩ | ⟨failure', h, heq⟩
      · exact ⟨.lock, .lock fetched built hfetches hbuilds h⟩
      · obtain rfl := Except.error.inj heq
        exact ⟨.build, .build fetched hfetches h⟩
    · obtain rfl := Except.error.inj heq
      exact ⟨.download, .download h⟩

theorem exists_failsAt_of_buildVersion {cleared : Host} {outcome : InstallOutcome}
    (hclears : tool.Clears version host cleared outcome)
    (h : exec (buildVersion tool version) cleared = (.error failure, host')) :
    ∃ step, tool.FailsAt host failure host' step := by
  rw [buildVersion_eq] at h
  rcases exec_bind_cases h with ⟨⟨⟩, made, hmakes, h⟩ | ⟨failure', h, heq⟩
  · rcases exec_bind_cases h with ⟨⟨loc, dir⟩, opened, hopens, h⟩ | ⟨failure', h, heq⟩
    · simp only [exec_cleaningUp] at h
      rcases hcomplete : exec (completeVersion tool version dir) opened with ⟨result, last⟩
      rw [hcomplete] at h
      cases result with
      | ok => exact absurd (Prod.mk.inj h).1 (by simp)
      | error failure' =>
        obtain ⟨heq, rfl⟩ := Prod.mk.inj h
        obtain rfl := Except.error.inj heq
        obtain ⟨step, hfails⟩ := exists_workFails hcomplete
        exact ⟨.work loc step, .work version cleared made opened last outcome loc dir step hclears hmakes
          (exec_within_ok hopens) hfails rfl⟩
    · obtain rfl := Except.error.inj heq
      exact ⟨.buildDirectory, .buildDirectory version cleared made outcome hclears hmakes h⟩
  · obtain rfl := Except.error.inj heq
    exact ⟨.root, .root version cleared outcome hclears h⟩

/-- A failed installation failed at one of its steps. -/
theorem exists_failsAt (h : exec (install tool) host = (.error failure, host')) :
    ∃ step, tool.FailsAt host failure host' step := by
  rw [install] at h
  rcases exec_bind_cases h with ⟨version, resolved, htold, h⟩ | ⟨failure', h, heq⟩
  case inr =>
    obtain rfl := Except.error.inj heq
    exact ⟨.resolution, .resolution h⟩
  cases hlatest : isLatest version with
  | true =>
    rw [hlatest, if_pos rfl] at h
    obtain ⟨heq, rfl⟩ := Prod.mk.inj h
    exact ⟨.resolution, .latest version htold hlatest (Except.error.inj heq).symm⟩
  | false =>
    have hresolves : tool.Resolves version host resolved := ⟨htold, hlatest⟩
    rw [hlatest, if_neg (by simp)] at h
    rcases exec_bind_cases h with ⟨state, required, hstate, h⟩ | ⟨failure', h, heq⟩
    case inr =>
      obtain rfl := Except.error.inj heq
      exact ⟨.lookup, .lookup version resolved hresolves h⟩
    cases state with
    | skip => exact absurd (Prod.mk.inj h).1 (by simp)
    | new =>
      rcases exec_bind_cases h with ⟨⟨⟩, built, -, h⟩ | ⟨failure', h, heq⟩
      · exact absurd (Prod.mk.inj h).1 (by simp)
      · obtain rfl := Except.error.inj heq
        exact exists_failsAt_of_buildVersion (.new resolved hresolves hstate) h
    | update =>
      rcases exec_bind_cases h with ⟨previous, read, hreads, h⟩ | ⟨failure', h, heq⟩
      case inr =>
        obtain rfl := Except.error.inj heq
        exact ⟨.lookup, .previous version resolved required hresolves hstate h⟩
      rcases exec_bind_cases h with ⟨⟨⟩, cleared, hcleans, h⟩ | ⟨failure', h, heq⟩
      case inr =>
        obtain rfl := Except.error.inj heq
        exact ⟨.cleaning, .cleaning version resolved required read previous hresolves hstate hreads h⟩
      rcases exec_bind_cases h with ⟨⟨⟩, built, -, h⟩ | ⟨failure', h, heq⟩
      · exact absurd (Prod.mk.inj h).1 (by simp)
      · obtain rfl := Except.error.inj heq
        exact exists_failsAt_of_buildVersion
          (.update resolved required read previous hresolves hstate hreads hcleans) h

/-- Two tools that ask alike fail alike as long as they only ask. -/
theorem AsksLike.exec_install_of_failsAt {step : InstallStep} (hlike : tool.AsksLike tool')
    (h : tool.FailsAt host failure host' step) (hearly : step = .resolution ∨ step = .lookup) :
    exec (install tool') host = (.error failure, host') := by
  obtain ⟨remove, fetch, build, rfl⟩ : ∃ remove fetch build, tool' =
      { tool with removeArtifacts := remove, download := fetch, buildAndInstall := build } :=
    ⟨_, _, _, hlike⟩
  cases h with
  | resolution fails => rw [install, exec_bind_of_error fails]
  | latest version told latest fails =>
    rw [install, exec_bind_of_ok told, if_pos latest, fails]
    rfl
  | lookup version resolved resolves fails =>
    rw [install, exec_bind_of_ok resolves.told, resolves.concrete, if_neg (by simp)]
    exact exec_bind_of_error fails
  | previous version resolved required resolves state fails =>
    rw [install, exec_bind_of_ok resolves.told, resolves.concrete, if_neg (by simp)]
    exact (exec_bind_of_ok state).trans (exec_bind_of_error fails)
  | cleaning | root | buildDirectory | work => simp at hearly

end Installer

/-! ### What a failed installation leaves -/

/-- An installation that failed before anything was done: the lock file is as it was, and so is
everything else when the queries only ask. It goes the same way for any tool that asks alike, however
that removes, fetches and builds. -/
structure Untouched (tool : Installer) (site : Site) (host : Host) (failure : Failure)
    (host' : Host) : Prop where
  lock : host'.files.get? site.lock = host.files.get? site.lock
  files : Always Owner.OnlyAsks tool.resolveVersion → Always Owner.OnlyAsks tool.artifactsPresent →
    host'.files = host.files
  alike : ∀ tool', tool.AsksLike tool' → exec (install tool') host = (.error failure, host')

/-- What an installation leaves that fails at a step, as long as its build directory can be
removed. -/
def LeavesAt (tool : Installer) (site : Site) (host : Host) (failure : Failure) (host' : Host) :
    InstallStep → Prop
  | .resolution | .lookup => Untouched tool site host failure host'
  | .cleaning => ¬site.Locked host'.files ∨ host'.files.get? site.lock = host.files.get? site.lock
  | .root | .buildDirectory => ¬site.Locked host'.files
  | .work loc step => step ≠ .removal → ¬site.Locked host'.files ∧
      (∃ n, loc = site.directory ++ [tool.buildName n]) ∧ ∀ rest, host'.files.get? (loc ++ rest) = none

theorem chains_onlyAsks : Chains Owner.OnlyAsks :=
  ⟨fun _ => ⟨rfl, rfl⟩, fun h h' => h.trans h'⟩

/-- Finding out what is to be done only asks when asking for the artifacts does. -/
theorem onlyAsks_requiredState (hpresent : Always Owner.OnlyAsks tool.artifactsPresent) :
    Always Owner.OnlyAsks (requiredState tool version) := by
  refine Always.bind chains_onlyAsks ?_ fun state => ?_
  · exact fun host result host' h => Owner.onlyAsks_of_onlyReads (onlyReads_determine h)
  · split
    · exact Always.bind chains_onlyAsks hpresent fun _ => Always.pure chains_onlyAsks _
    · exact Always.pure chains_onlyAsks _

/-- Until something is done, nothing changes as long as the queries only ask. -/
theorem files_eq_of_failsAt {step : InstallStep}
    (hversion : Always Owner.OnlyAsks tool.resolveVersion)
    (hpresent : Always Owner.OnlyAsks tool.artifactsPresent)
    (h : tool.FailsAt host failure host' step) (hearly : step = .resolution ∨ step = .lookup) :
    host'.files = host.files := by
  have htold : Always Owner.OnlyAsks
      (within s!"resolving {tool.name} version" tool.resolveVersion) := Always.within hversion
  cases h with
  | resolution fails => exact (htold fails).1
  | latest version told => exact (htold told).1
  | lookup version resolved resolves fails =>
    exact (onlyAsks_requiredState hpresent fails).1.trans (htold resolves.told).1
  | previous version resolved required resolves state fails =>
    rw [Site.exec_read_files fails]
    exact (onlyAsks_requiredState hpresent state).1.trans (htold resolves.told).1
  | cleaning | root | buildDirectory | work => simp at hearly

section Leaves

variable (hsound : site.Sound host) (hat : tool.IsAt site) (hheeds : tool.Heeds site site.frame)

include hsound hheeds

theorem lock_eq_of_resolves {resolved : Host} (h : tool.Resolves version host resolved) :
    resolved.files.get? site.lock = host.files.get? site.lock :=
  (hheeds.resolveVersion hsound.lies (exec_within_ok h.told)).1.get?_eq _ rfl

theorem lock_eq_of_requiredState {result : Except Failure InstallState}
    (h : exec (requiredState tool version) host = (result, host')) :
    host'.files.get? site.lock = host.files.get? site.lock :=
  (Frame.stands_requiredState hheeds (fun _ hv => hv) h hsound.placed).1.get?_eq _ rfl

/-- Until something is done the lock file is as it was. -/
theorem lock_eq_of_failsAt {step : InstallStep} (h : tool.FailsAt host failure host' step)
    (hearly : step = .resolution ∨ step = .lookup) :
    host'.files.get? site.lock = host.files.get? site.lock := by
  cases h with
  | resolution fails =>
    obtain ⟨outcome, fails⟩ := exec_of_within fails
    exact (hheeds.resolveVersion hsound.lies fails).1.get?_eq _ rfl
  | latest version told =>
    exact (hheeds.resolveVersion hsound.lies (exec_within_ok told)).1.get?_eq _ rfl
  | lookup version resolved resolves fails =>
    exact (lock_eq_of_requiredState (hsound.of_resolves hheeds resolves) hheeds fails).trans
      (lock_eq_of_resolves hsound hheeds resolves)
  | previous version resolved required resolves state fails =>
    rw [Site.exec_read_files fails]
    exact (lock_eq_of_requiredState (hsound.of_resolves hheeds resolves) hheeds state).trans
      (lock_eq_of_resolves hsound hheeds resolves)
  | cleaning | root | buildDirectory | work => simp at hearly

include hat

/-- When the removal fails the lock file is as it was, or gone. -/
theorem lock_of_clean_error (h : exec (clean tool) host = (.error failure, host')) :
    ¬site.Locked host'.files ∨ host'.files.get? site.lock = host.files.get? site.lock := by
  rw [clean, hat.lockFile] at h
  rcases exec_bind_cases h with ⟨⟨⟩, removed, hremove, h⟩ | ⟨failure', h, -⟩
  · have hstands := hheeds.removeArtifacts hsound.lies (exec_within_ok hremove)
    obtain ⟨-, -, -, hsame⟩ := (hsound.of_stands hstands).remove h
    by_cases hlocked : site.Locked host'.files
    · exact .inr ((hsame hlocked).trans (hstands.1.get?_eq _ rfl))
    · exact .inl hlocked
  · obtain ⟨outcome, h⟩ := exec_of_within h
    exact .inr ((hheeds.removeArtifacts hsound.lies h).1.get?_eq _ rfl)

/-- As long as the steps in a build directory have not all succeeded there is no lock file. -/
theorem not_locked_of_workFails {n : Nat} {step : WorkStep} (hnot : ¬site.Locked host.files)
    (hopens : tool.Opens site host.files n dir)
    (h : tool.WorkFails version dir host failure host' step) (hstep : step ≠ .removal) :
    ¬site.Locked host'.files := by
  have hfetched : ∀ {fetched : Host} {result : Except Failure Unit},
      exec (tool.download version dir) host = (result, fetched) →
        site.Sound fetched ∧ ¬site.Locked fetched.files := by
    intro fetched result hfetch
    have hstands := hheeds.download hsound.lies hopens hfetch
    refine ⟨hsound.of_stands hstands, ?_⟩
    rwa [Site.locked_iff_of_lock_eq (hstands.1.get?_eq _ rfl)]
  have hbuilt : ∀ {fetched built : Host} {result : Except Failure Unit},
      exec (tool.download version dir) host = (.ok (), fetched) →
      exec (tool.buildAndInstall version dir) fetched = (result, built) →
        site.Sound built ∧ ¬site.Locked built.files := by
    intro fetched built result hfetch hbuild
    obtain ⟨hsound₁, hnot₁⟩ := hfetched hfetch
    have hstands := hheeds.buildAndInstall hsound.lies hopens hfetch hsound₁.lies hbuild
    refine ⟨hsound₁.of_stands hstands, ?_⟩
    rwa [Site.locked_iff_of_lock_eq (hstands.1.get?_eq _ rfl)]
  cases h with
  | download fails =>
    obtain ⟨outcome, fails⟩ := exec_of_within fails
    exact (hfetched fails).2
  | build fetched fetches fails =>
    obtain ⟨outcome, fails⟩ := exec_of_within fails
    exact (hbuilt (exec_within_ok fetches) fails).2
  | lock fetched built fetches builds fails =>
    obtain ⟨hsound₁, hnot₁⟩ := hbuilt (exec_within_ok fetches) (exec_within_ok builds)
    rw [hat.lockFile] at fails
    obtain ⟨-, -, -, hsame⟩ := hsound₁.write fails
    rwa [Site.locked_iff_of_lock_eq (hsame (by simp))]
  | removal => exact absurd rfl hstep

end Leaves

/-- A host whose storage is full when the lock file is to be written. -/
def fullHost : Host :=
  { sampleHost with faults := fun n => if n = 8 then some .storageFull else none }

/-- A tool in the working directory, told by the empty path, that cannot be built. -/
def brokenBareTool : Installer :=
  { bareTool with
    resolveVersion := pure "2"
    buildAndInstall := fun _ _ => failWith "build exploded" }

/-- A host with the lock file of an earlier version. -/
def bareHost : Host :=
  (exec (writeAtomically bareTool.lockFile "1") sampleHost).2

end RamlBuild
