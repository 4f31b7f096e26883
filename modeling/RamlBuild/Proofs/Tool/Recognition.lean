import RamlBuild.Proofs.Text.Blank
import RamlBuild.Proofs.Tool.Convergence

/-!
# Recorded versions

An installation leaves the version that it built in the lock file, without the blanks around it, and
the next one compares what it reads there with its version as it stands. So a version is recognised
when it has no blanks around it, and is installed over and over when it has some.

## Main results

* `exec_determine_of_install` — what the next installation finds out
* `recognised_of_install` — a version without outer blanks is recognised
* `blank_not_recognised` — one with a blank before it is not
-/

namespace RamlBuild

open Build

variable {tool : Installer} {site : Site} {host host' again : Host} {outcome : InstallOutcome}
  {version : String}

section Installed

variable (hsound : site.Sound host) (hat : tool.IsAt site) (hheeds : tool.Heeds site site.frame)
  (hroot : site.root.text ≠ "") (h : exec (install tool) host = (.ok outcome, host'))
  (hbuilt : outcome.built? = some version)

include hsound hat hheeds hroot h hbuilt

/-- What an installation built is not the latest version by name, and its lock file has it without
the blanks around it. -/
theorem written_of_install :
    isLatest version = false ∧ site.Written (Text.trimmed version) host'.files := by
  rcases install_ok_cases h with ⟨skipped, -, rfl, -, -⟩ | ⟨built, cleared, hclears, hbuild⟩
  · contradiction
  · obtain rfl := Option.some.inj (hbuilt.symm.trans hclears.built?_eq)
    obtain ⟨resolved, hresolves⟩ := hclears.exists_resolves
    exact ⟨hresolves.concrete, hsound.written_of_clears hat hheeds hroot hclears hbuild⟩

/-- As long as the lock file and the way to it are left alone, the next installation finds the
version there when it has no blanks around it, and another one otherwise. -/
theorem exec_determine_of_install (hkeeps : site.frame.Keeps host'.files again.files)
    (hquiet : ∀ n, again.faults n = none) :
    exec (InstallState.determine tool.root tool.lockFile version) again =
      (.ok (if Text.trimmed version = version then .skip else .update), counted again) := by
  have hwritten := (written_of_install hsound hat hheeds hroot h hbuilt).2.of_keeps hkeeps
  rw [hat.root, hat.lockFile, hwritten.exec_determine hquiet, Text.trimmed_trimmed]

/-- A version without outer blanks is recognised after it was installed: the lock file has it, it is
no name of the latest version, nothing is to be done to reach it, and an installation that resolves
it again and finds the artifacts skips. -/
theorem recognised_of_install (htrimmed : Text.trimmed version = version)
    (hkeeps : site.frame.Keeps host'.files again.files) (hquiet : ∀ n, again.faults n = none) :
    (textAt host'.files tool.lockFile = .ok (some version) ∧ isLatest version = false) ∧
      exec (InstallState.determine tool.root tool.lockFile version) again =
        (.ok .skip, counted again) ∧
      ∀ next last, exec tool.resolveVersion next = (.ok version, again) →
        exec tool.artifactsPresent (counted again) = (.ok true, last) →
        exec (install tool) next = (.ok (.skipped version), last) := by
  obtain ⟨hlatest, hwritten⟩ := written_of_install hsound hat hheeds hroot h hbuilt
  have hdetermine := exec_determine_of_install hsound hat hheeds hroot h hbuilt hkeeps hquiet
  rw [if_pos htrimmed] at hdetermine
  refine ⟨⟨?_, hlatest⟩, hdetermine, ?_⟩
  · rw [hat.lockFile, hwritten.reads, htrimmed]
  · intro next last hresolve hpresent
    have hstate : exec (requiredState tool version) again = (.ok .skip, last) := by
      rw [requiredState, exec_bind_of_ok hdetermine]
      simp only [exec_bind_of_ok hpresent, exec_pure, if_true]
    have hresolve' : exec (within s!"resolving {tool.name} version" tool.resolveVersion) next =
        (.ok version, again) := by
      rw [exec_within, hresolve]
      rfl
    rw [install, exec_bind_of_ok hresolve', hlatest, if_neg (by simp), exec_bind_of_ok hstate]
    rfl

end Installed

/-- The red tool is recognised at its version. -/
theorem recognised_redTool :
    (textAt (exec (install redOwner.tool) sampleHost).2.files redOwner.tool.lockFile =
        .ok (some "1.0") ∧ isLatest "1.0" = false) ∧
      exec (InstallState.determine redOwner.tool.root redOwner.tool.lockFile "1.0")
        (exec (install redOwner.tool) sampleHost).2 =
        (.ok .skip, counted (exec (install redOwner.tool) sampleHost).2) ∧
      ∀ next last, exec redOwner.tool.resolveVersion next =
          (.ok "1.0", (exec (install redOwner.tool) sampleHost).2) →
        exec redOwner.tool.artifactsPresent (counted (exec (install redOwner.tool) sampleHost).2) =
          (.ok true, last) →
        exec (install redOwner.tool) next = (.ok (.skipped "1.0"), last) := by
  have hinstall : exec (install redOwner.tool) sampleHost =
      (.ok (.installed "1.0"), (exec (install redOwner.tool) sampleHost).2) := by
    have hok : (exec (install redOwner.tool) sampleHost).1.toOption = some (.installed "1.0") := by
      decide +kernel
    cases hx : (exec (install redOwner.tool) sampleHost).1 with
    | ok outcome =>
      rw [hx] at hok
      obtain rfl := Option.some.inj hok
      exact exec_eq_of_fst hx
    | error failure =>
      rw [hx] at hok
      contradiction
  have hsensible : redOwner.Sensible :=
    sensible_jarOwner (by decide) (by decide) (by decide) (by decide) (by decide)
  have hquiet : ∀ n, (exec (install redOwner.tool) sampleHost).2.faults n = none := by
    have hstands := (Frame.stands_install hsensible.works.isAt hsensible.works.heeds
      hsensible.works.heeds clear_course (sound_jarSite (by decide)).placed hinstall).1
    intro n
    rw [hstands.2]
    rfl
  exact recognised_of_install (sound_jarSite (by decide)) hsensible.works.isAt
    hsensible.minds.heeds (by decide) hinstall rfl (by decide) (Frame.Keeps.refl _ _) hquiet

/-- A tool whose version has a blank before it. -/
def blankTool : Installer := jarTool "t" " 1"

/-- The version with a blank before it is installed and accepted, but another one is found the next
time. -/
theorem blank_not_recognised :
    (exec (install blankTool) sampleHost).1.toOption = some (.installed " 1") ∧
      (exec (InstallState.determine blankTool.root blankTool.lockFile " 1")
        (exec (install blankTool) sampleHost).2).1.toOption = some .update := by
  decide +kernel

end RamlBuild
