import RamlBuild.Program.Command
import RamlBuild.Proofs.Build.Machine
import RamlBuild.Proofs.Files.InPlace

/-!
# Running programs

A command that runs leaves what its program leaves, and then what comes of emptying its streams. When
it cannot be started nothing happens; when it succeeds its program has ended with zero.

## Main definitions

* `Program.leaves` — the files that a program leaves to the build that ran it
* `Command.Ran` — a command was started and has ended

## Main results

* `Command.run_cases` — a command is not started, or it has run
* `Command.run_ok` — a command that succeeds was found, and its output went where it should
* `Command.locate_fst_eq` — which program is found is told by the paths where it is looked for
* `Command.Ran.files_eq_of_inherit` — a command whose output goes elsewhere leaves what its program
  leaves
* `Command.Ran.keeps_of_file` — a command whose output goes to a file off a frame
-/

namespace RamlBuild

open Build

/-- The files that a program leaves to the build that ran it, which stays in its directory. -/
def Program.leaves (program : Program) (arguments : List String) (fs : Files) : Files :=
  { (program.run arguments fs).files with workingDirectory := fs.workingDirectory }

namespace Command

variable {cmd : Command} {host host' : Host} {program : Program} {fs : Files} {frame : Frame}
  {result : Except Failure Captured} {error : IoError}

/-- The host after a program has run in some directory of its files. -/
def afterProgram (cmd : Command) (program : Program) (fs : Files) (host : Host) : Host :=
  { host with
    files :=
      { (program.run cmd.arguments fs).files with workingDirectory := host.files.workingDirectory }
    calls := host.calls ++ [⟨program.name, cmd.arguments, fs.workingDirectory.path⟩] }

theorem executable_congr {fs : Files} {p : Path} (hprograms : host'.programOf = host.programOf) :
    executable host' fs p = executable host fs p := by
  unfold executable
  rw [hprograms]

theorem search_cons {name : String} {denied : Bool} {dir : Path} {rest : List Path} :
    search host fs name denied (dir :: rest) =
      match executable host fs (dir / name) with
      | .ok program => .ok program
      | .error .permissionDenied => search host fs name true rest
      | .error .notFound => search host fs name denied rest
      | .error .notDirectory => search host fs name denied rest
      | .error error => .error error := by
  exact Eq.refl _

theorem search_congr {name : String} {denied : Bool} {dirs : List Path}
    (hprograms : host'.programOf = host.programOf) :
    search host' fs name denied dirs = search host fs name denied dirs := by
  induction dirs generalizing denied with
  | nil => rfl
  | cons dir rest ih =>
    rw [search_cons, search_cons, executable_congr hprograms]
    simp only [ih]

/-- Which program a command runs is told by the files, by the programs of the host and by where it
looks for them. -/
theorem locate_congr (hfiles : host'.files = host.files)
    (hprograms : host'.programOf = host.programOf) (hsearch : host'.searchPath = host.searchPath) :
    locate host' cmd = locate host cmd := by
  unfold locate
  simp only [hfiles, hsearch, executable_congr hprograms, search_congr hprograms]

theorem programOf_of_executable {fs : Files} {p : Path} (h : executable host fs p = .ok program) :
    ∃ contents, host.programOf contents = some program := by
  unfold executable at h
  split at h
  · cases h
  · rename_i contents mode shared hstat
    split at h
    · split at h
      · rename_i found hprogram
        exact ⟨contents, by rw [hprogram, Except.ok.inj h]⟩
      · cases h
    · cases h
  · cases h

theorem programOf_of_search {name : String} {denied : Bool} {dirs : List Path}
    (h : search host fs name denied dirs = .ok program) :
    ∃ contents, host.programOf contents = some program := by
  induction dirs generalizing denied with
  | nil => cases h
  | cons dir rest ih =>
    rw [search_cons] at h
    split at h
    · rename_i found hfound
      exact programOf_of_executable (Except.ok.inj h ▸ hfound)
    · exact ih h
    · exact ih h
    · exact ih h
    · cases h

/-- A command runs a program of the host, which sees the files from the directory of the command. -/
theorem of_locate (h : locate host cmd = .ok (program, fs)) :
    (∃ contents, host.programOf contents = some program) ∧
      enter host.files cmd.directory = .ok fs := by
  unfold locate at h
  simp only [bind, Except.bind] at h
  split at h
  · cases h
  · cases henter : enter host.files cmd.directory with
    | error error =>
      rw [henter] at h
      cases h
    | ok seen =>
      simp only [henter] at h
      split at h
      · cases h
      · split at h
        · cases hexe : executable host seen ⟨cmd.program⟩ with
          | error error =>
            rw [hexe] at h
            cases h
          | ok found =>
            rw [hexe] at h
            obtain ⟨rfl, rfl⟩ := Prod.mk.inj (Except.ok.inj h)
            exact ⟨programOf_of_executable hexe, rfl⟩
        · cases hsearch : search host seen cmd.program false host.searchPath with
          | error error =>
            rw [hsearch] at h
            cases h
          | ok found =>
            rw [hsearch] at h
            obtain ⟨rfl, rfl⟩ := Prod.mk.inj (Except.ok.inj h)
            exact ⟨programOf_of_search hsearch, rfl⟩

theorem exec_spawn (cmd : Command) (host : Host) :
    exec (spawn cmd) host =
      match locate host cmd with
      | .error error => (.error (.of (.io error s!"spawning {cmd.program}")), host)
      | .ok (program, fs) => (.ok (program.run cmd.arguments fs), afterProgram cmd program fs host) := by
  rw [spawn, exec_bind, exec_get]
  simp only
  cases locate host cmd <;> rfl

/-- Without a directory of its own, a command sees the files as they are. -/
theorem eq_files_of_locate (hdirectory : cmd.directory = none)
    (h : locate host cmd = .ok (program, fs)) : fs = host.files := by
  have henter := (of_locate h).2
  rw [hdirectory] at henter
  exact (Except.ok.inj henter).symm

theorem files_afterProgram (hdirectory : cmd.directory = none)
    (h : locate host cmd = .ok (program, fs)) :
    (afterProgram cmd program fs host).files = program.leaves cmd.arguments host.files := by
  rw [eq_files_of_locate hdirectory h]
  rfl

/-- A command was started and has ended: its output was emptied, and its errors were captured. -/
structure Ran (cmd : Command) (host : Host) (result : Except Failure Captured) (host' : Host)
    (program : Program) (fs : Files) : Prop where
  locates : locate host cmd = .ok (program, fs)
  drains : ∃ out, exec (drain cmd.stdout write (program.run cmd.arguments fs).stdout)
    (afterProgram cmd program fs host) = (out, host')
  exited : ∀ captured, result = .ok captured →
    (program.run cmd.arguments fs).ending = .exited 0

/-- A command is not started and nothing happens, or it has run. -/
theorem run_cases (hstderr : cmd.stderr = .capture) (h : exec cmd.run host = (result, host')) :
    ((∃ failure, result = .error failure) ∧ host' = host) ∨
      ∃ program fs, Ran cmd host result host' program fs := by
  rw [Command.run, exec_bind, exec_within, exec_spawn] at h
  cases hlocate : locate host cmd with
  | error error =>
    rw [hlocate] at h
    obtain ⟨rfl, rfl⟩ := Prod.mk.inj h
    exact .inl ⟨⟨_, rfl⟩, rfl⟩
  | ok found =>
    obtain ⟨program, fs⟩ := found
    right
    rw [hlocate] at h
    simp only [Except.mapError] at h
    rw [exec_bind, exec_attempt] at h
    simp only at h
    rw [hstderr, exec_bind, exec_attempt] at h
    rcases hdrain : exec (drain cmd.stdout write (program.run cmd.arguments fs).stdout)
      (afterProgram cmd program fs host) with ⟨out, host₁⟩
    rw [hdrain] at h
    refine ⟨program, fs, hlocate, ⟨out, ?_⟩, ?_⟩
    · rw [hdrain]
      cases out with
      | error failure => exact congrArg _ (Prod.mk.inj h).2
      | ok bytes =>
        cases hending : (program.run cmd.arguments fs).ending with
        | killed =>
          rw [hending] at h
          exact congrArg _ (Prod.mk.inj h).2
        | exited code =>
          rw [hending] at h
          cases code <;> exact congrArg _ (Prod.mk.inj h).2
    · rintro captured rfl
      cases out with
      | error failure => exact absurd (Prod.mk.inj h).1 (by simp)
      | ok bytes =>
        cases hending : (program.run cmd.arguments fs).ending with
        | killed =>
          rw [hending] at h
          exact absurd (Prod.mk.inj h).1 (by simp)
        | exited code =>
          cases code with
          | zero => rfl
          | succ code =>
            rw [hending] at h
            exact absurd (Prod.mk.inj h).1 (by simp)

/-- A command that succeeds was found, and its output went where it should. -/
theorem run_ok {captured : Captured} (hstderr : cmd.stderr = .capture)
    (h : exec cmd.run host = (.ok captured, host')) :
    ∃ program fs bytes, locate host cmd = .ok (program, fs) ∧
      exec (drain cmd.stdout write (program.run cmd.arguments fs).stdout)
        (afterProgram cmd program fs host) = (.ok bytes, host') := by
  rcases run_cases hstderr h with ⟨⟨failure, heq⟩, -⟩ | ⟨program, fs, hran⟩
  · cases heq
  · obtain ⟨out, hdrain⟩ := hran.drains
    cases out with
    | ok bytes => exact ⟨program, fs, bytes, hran.locates, hdrain⟩
    | error failure =>
      -- A stream that cannot be emptied is told.
      rw [Command.run, exec_bind, exec_within, exec_spawn, hran.locates] at h
      simp only [Except.mapError] at h
      rw [exec_bind, exec_attempt] at h
      simp only at h
      rw [hdrain, hstderr, exec_bind, exec_attempt] at h
      exact absurd (Prod.mk.inj h).1 (by simp)

/-! ### Where a program is looked for -/

/-- The paths where the program of a command is looked for. -/
def candidates (cmd : Command) (searchPath : List Path) : List Path :=
  if cmd.program.toList.contains '/' then [⟨cmd.program⟩] else searchPath.map (· / cmd.program)

theorem executable_eq {fs fs' : Files} {p : Path} (hprograms : host'.programOf = host.programOf)
    (hstat : fs'.stat p = fs.stat p) : executable host' fs' p = executable host fs p := by
  unfold executable
  rw [hprograms, hstat]

theorem search_eq {fs fs' : Files} {name : String} {denied : Bool} {dirs : List Path}
    (hprograms : host'.programOf = host.programOf)
    (hstat : ∀ dir ∈ dirs, fs'.stat (dir / name) = fs.stat (dir / name)) :
    search host' fs' name denied dirs = search host fs name denied dirs := by
  induction dirs generalizing denied with
  | nil => rfl
  | cons dir rest ih =>
    have hrest : ∀ denied, search host' fs' name denied rest = search host fs name denied rest :=
      fun _ => ih fun d hd => hstat d (List.mem_cons_of_mem _ hd)
    rw [search_cons, search_cons, executable_eq hprograms (hstat dir List.mem_cons_self)]
    simp only [hrest]

/-- Which program is found is told by what stands where it is looked for. -/
theorem locate_fst_eq (hdirectory : cmd.directory = none)
    (hprograms : host'.programOf = host.programOf) (hsearch : host'.searchPath = host.searchPath)
    (hstat : ∀ p ∈ cmd.candidates host.searchPath, host'.files.stat p = host.files.stat p) :
    (locate host' cmd).map Prod.fst = (locate host cmd).map Prod.fst := by
  unfold locate
  rw [hdirectory, hsearch]
  simp only [enter, bind, Except.bind]
  split
  · rfl
  · split
    · rfl
    · unfold candidates at hstat
      split
      · rename_i hslash
        rw [if_pos hslash] at hstat
        rw [executable_eq hprograms (hstat _ List.mem_cons_self)]
        cases executable host host.files ⟨cmd.program⟩ <;> rfl
      · rename_i hslash
        rw [if_neg hslash] at hstat
        rw [search_eq hprograms fun dir hdir => hstat _ (List.mem_map_of_mem hdir)]
        cases search host host.files cmd.program false host.searchPath <;> rfl

/-! ### The machine -/

theorem sameMachine_afterProgram (cmd : Command) (program : Program) (fs : Files) (host : Host) :
    SameMachine host (afterProgram cmd program fs host) :=
  ⟨rfl, rfl, rfl, rfl, rfl, rfl, rfl⟩

theorem sameMachine_drain {redirect : Redirect} {shared : ByteArray → Build Unit} {bytes : ByteArray}
    (hshared : Always SameMachine (shared bytes)) :
    Always SameMachine (drain redirect shared bytes) := by
  cases redirect with
  | inherit =>
    exact Always.bind chains_sameMachine hshared fun _ => Always.pure chains_sameMachine _
  | discard | capture => exact Always.pure chains_sameMachine _
  | file p =>
    have hwrites : Always SameMachine (do writeBytes p bytes; pure ByteArray.empty) :=
      Always.bind chains_sameMachine sameMachine_changing fun _ => Always.pure chains_sameMachine _
    unfold drain
    simp only
    split
    · exact Always.bind chains_sameMachine sameMachine_createDirectories fun _ => hwrites
    · exact hwrites

/-- A command leaves the machine alone. -/
theorem sameMachine_run (hstderr : cmd.stderr = .capture) : Always SameMachine cmd.run := by
  intro host result host' h
  rcases run_cases hstderr h with ⟨-, rfl⟩ | ⟨program, fs, hran⟩
  · exact chains_sameMachine.refl _
  · obtain ⟨out, hdrain⟩ := hran.drains
    have hwrite : Always SameMachine
        (write (program.run cmd.arguments fs).stdout) := by
      intro host result host' h
      obtain ⟨-, rfl⟩ := Prod.mk.inj h
      exact ⟨rfl, rfl, rfl, rfl, rfl, rfl, rfl⟩
    exact chains_sameMachine.trans (sameMachine_afterProgram cmd program fs host)
      (sameMachine_drain hwrite hdrain)

theorem exec_drain_inherit (bytes : ByteArray) (host : Host) :
    exec (drain .inherit write bytes) host =
      (.ok .empty, { host with output := host.output ++ bytes }) := rfl

namespace Ran

/-- A command whose output goes to the output of the build leaves what its program leaves. -/
theorem files_eq_of_inherit (h : Ran cmd host result host' program fs)
    (hdirectory : cmd.directory = none) (hstdout : cmd.stdout = .inherit) :
    host'.files = program.leaves cmd.arguments host.files := by
  obtain ⟨out, hdrain⟩ := h.drains
  rw [hstdout, exec_drain_inherit] at hdrain
  obtain ⟨-, rfl⟩ := Prod.mk.inj hdrain
  exact files_afterProgram hdirectory h.locates

/-- A command whose output goes to a file apart from a frame leaves the frame alone when its program
does. -/
theorem keeps_of_file {p : Path} (h : Ran cmd host result host' program fs)
    (hdirectory : cmd.directory = none) (hstdout : cmd.stdout = .file p) (htree : host.files.IsTree)
    (hkeeps : frame.Keeps host.files (program.leaves cmd.arguments host.files))
    (hleads : (program.leaves cmd.arguments host.files).LeadsBy
      (frame.Apart (program.leaves cmd.arguments host.files)) p) :
    frame.Keeps host.files host'.files := by
  rw [← files_afterProgram hdirectory h.locates] at hkeeps hleads
  obtain ⟨out, hdrain⟩ := h.drains
  rw [hstdout] at hdrain
  generalize afterProgram cmd program fs host = host₁ at hdrain hkeeps hleads
  have htree₁ := hkeeps.isTree htree
  -- The directory of the file is made on its way, and then the file is written.
  have hwrites : ∀ {host₂ : Host}, OnlyMakesDirectories host₁ host₂ →
      frame.Keeps host₁.files host₂.files →
      exec (do writeBytes p (program.run cmd.arguments fs).stdout; pure .empty) host₂ =
        (out, host') → frame.Keeps host.files host'.files := by
    intro host₂ hmakes hkeeps₂ hwrite
    have hleads₂ : host₂.files.LeadsBy (frame.Apart host₂.files) p :=
      (hleads.congr hmakes.1.workingDirectory fun v _ => hmakes.1.linkAt v).mono
        fun _ hv => hv.of_makesDirectories hmakes.1
    have hstands : ∀ {result host'}, exec (writeBytes p (program.run cmd.arguments fs).stdout) host₂ =
        (result, host') → frame.Keeps host₂.files host'.files :=
      fun hx => (Frame.stands_writeBytes (hmakes.1.isTree htree₁) hleads₂ hx).1
    refine (hkeeps.trans hkeeps₂).trans ?_
    rcases exec_bind_cases hwrite with ⟨⟨⟩, host₃, hx, hrest⟩ | ⟨failure, hx, -⟩
    · obtain ⟨-, rfl⟩ := Prod.mk.inj hrest
      exact hstands hx
    · exact hstands hx
  cases hparent : p.parent? with
  | none =>
    simp only [drain, hparent] at hdrain
    exact hwrites (chains_onlyMakesDirectories.refl _) (.refl frame _) hdrain
  | some parent =>
    simp only [drain, hparent] at hdrain
    have hmakes : ∀ {result host₂}, exec (createDirectories parent) host₁ = (result, host₂) →
        frame.Keeps host₁.files host₂.files :=
      fun hx => (Frame.stands_createDirectories (hleads.parent hparent) (fun _ hl => hl.1) hx).1
    rcases exec_bind_cases hdrain with ⟨⟨⟩, host₂, hx, hrest⟩ | ⟨failure, hx, -⟩
    · exact hwrites (createDirectories_makes hx) (hmakes hx) hrest
    · exact hkeeps.trans (hmakes hx)

end Ran

end Command

end RamlBuild
