import RamlBuild.Proofs.Build.Directories

/-!
# The machine under a build

A build changes files and leaves a record. The machine stays what it is: its programs and where they
are looked for, its network, its environment and its clock.

## Main definitions

* `SameMachine` — hosts that differ by their files and records only

## Main results

* `Build.sameMachine_writeAtomically`, `Build.sameMachine_createDirectories` — work on files leaves
  the machine alone
-/

namespace RamlBuild

open Build

/-- Two hosts differ by their files and records only. -/
structure SameMachine (host host' : Host) : Prop where
  faults : host'.faults = host.faults
  searchPath : host'.searchPath = host.searchPath
  programOf : host'.programOf = host.programOf
  network : host'.network = host.network
  environment : host'.environment = host.environment
  system : host'.system = host.system
  now : host'.now = host.now

theorem chains_sameMachine : Chains SameMachine where
  refl _ := ⟨rfl, rfl, rfl, rfl, rfl, rfl, rfl⟩
  trans h h' := ⟨h'.faults.trans h.faults, h'.searchPath.trans h.searchPath,
    h'.programOf.trans h.programOf, h'.network.trans h.network,
    h'.environment.trans h.environment, h'.system.trans h.system, h'.now.trans h.now⟩

theorem sameMachine_files (host : Host) (fs : Files) : SameMachine host { host with files := fs } :=
  ⟨rfl, rfl, rfl, rfl, rfl, rfl, rfl⟩

theorem sameMachine_counted (host : Host) : SameMachine host (counted host) :=
  ⟨rfl, rfl, rfl, rfl, rfl, rfl, rfl⟩

namespace Build

variable {α : Type} {p dir : Path} {attempt text activity : String} {loc : Location}

theorem sameMachine_modifyFiles (change : Files → Files) :
    Always SameMachine (modify fun host => { host with files := change host.files } : Build Unit) := by
  intro host result host' h
  obtain ⟨-, rfl⟩ := Prod.mk.inj h
  exact sameMachine_files host _

theorem sameMachine_operation : Always SameMachine (operation attempt) := by
  intro host result host' h
  rw [exec_operation] at h
  split at h <;> (obtain ⟨-, rfl⟩ := Prod.mk.inj h; exact sameMachine_counted host)

theorem sameMachine_reading {op : Files → Except IoError α} :
    Always SameMachine (reading attempt op) := by
  intro host result host' h
  rw [(reading_result h).1]
  exact sameMachine_counted host

theorem sameMachine_changing {op : Files → Except IoError Files} :
    Always SameMachine (changing attempt op) := by
  intro host result host' h
  cases result with
  | ok =>
    rw [(changing_ok_eq h).2]
    exact chains_sameMachine.trans (sameMachine_counted host) (sameMachine_files _ _)
  | error failure =>
    rw [exec_changing] at h
    split at h
    · split at h
      · exact absurd (Prod.mk.inj h).1 (by simp)
      · obtain ⟨-, rfl⟩ := Prod.mk.inj h
        exact sameMachine_counted host
    · obtain ⟨-, rfl⟩ := Prod.mk.inj h
      exact sameMachine_counted host

theorem sameMachine_cleaningUp {cleanup : Files → Files} {x : Build α} (h : Always SameMachine x) :
    Always SameMachine (cleaningUp cleanup x) := by
  intro host result host' hx
  rw [exec_cleaningUp] at hx
  rcases hrun : exec x host with ⟨outcome, last⟩
  rw [hrun] at hx
  cases outcome with
  | ok a =>
    obtain ⟨-, rfl⟩ := Prod.mk.inj hx
    exact h hrun
  | error failure =>
    obtain ⟨-, rfl⟩ := Prod.mk.inj hx
    exact chains_sameMachine.trans (h hrun) (sameMachine_files _ _)

theorem sameMachine_readText : Always SameMachine (readText p) := by
  refine Always.bind chains_sameMachine sameMachine_reading fun bytes => ?_
  split
  · exact Always.pure chains_sameMachine _
  · exact Always.throw chains_sameMachine _

theorem sameMachine_createDirectories : Always SameMachine (createDirectories p) :=
  always_makeDirectories chains_sameMachine fun _ _ => sameMachine_changing

theorem sameMachine_createTemporary : Always SameMachine (createTemporary dir) := by
  refine Always.bind chains_sameMachine (Always.files chains_sameMachine) fun fs => ?_
  refine Always.bind chains_sameMachine sameMachine_reading fun loc => ?_
  refine Always.bind chains_sameMachine (sameMachine_modifyFiles (·.put loc _)) fun _ => ?_
  exact Always.pure chains_sameMachine _

theorem sameMachine_adoptMode : Always SameMachine (adoptMode loc p) := by
  refine Always.bind chains_sameMachine (Always.asking chains_sameMachine _) fun there => ?_
  split
  · refine Always.bind chains_sameMachine sameMachine_reading fun mode => ?_
    exact sameMachine_changing
  · exact Always.pure chains_sameMachine _

theorem sameMachine_writeAtomically : Always SameMachine (writeAtomically p text) := by
  refine Always.bind chains_sameMachine (Always.within sameMachine_createTemporary) fun loc => ?_
  refine sameMachine_cleaningUp ?_
  refine Always.bind chains_sameMachine (Always.within sameMachine_changing) fun _ => ?_
  refine Always.bind chains_sameMachine (Always.within sameMachine_operation) fun _ => ?_
  refine Always.bind chains_sameMachine sameMachine_adoptMode fun _ => ?_
  exact Always.within sameMachine_changing

end Build

end RamlBuild
