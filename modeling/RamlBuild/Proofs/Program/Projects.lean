import RamlBuild.Proofs.Build.Tidy
import RamlBuild.Proofs.Files.Fixed
import RamlBuild.Proofs.Program.Running
import RamlBuild.Program.ProjectBuild
import RamlBuild.Tool.SnapshotVersion

/-!
# Projects that are pinned and built

A command that runs in a directory leaves to the build what its program left there. What is found by
walking a project is below it, at the place that its path keeps; so pinning the versions of a project
changes files inside of it only.

## Main definitions

* `Command.RunsIn` — a command that works in a directory
* `Files.HasDirectory` — a path that leads to one directory only

## Main results

* `Command.runsIn_of_run_ok` — a command that succeeds
* `rewriteAll_inside` — files that are rewritten inside of a directory
* `pinProject_ok`, `findArtifacts_ok` — pinning a project, and what is found in it
-/

namespace RamlBuild

open Build Location

variable {host host' : Host} {fs fs' : Files} {d root : Location} {p : Path} {names : List String}

/-! ### Commands -/

/-- A tidy tree is tidy for whoever works in it. -/
theorem Files.Tidy.workingIn (h : fs.Tidy) (loc : Location) :
    ({ fs with workingDirectory := loc } : Files).Tidy :=
  ⟨h.isTree, h.nodup, h.namesPlainly⟩

/-- What is kept for one who works in some directory is kept for all. -/
theorem Frame.Keeps.workingIn {frame : Frame} {loc : Location}
    (h : frame.Keeps { fs with workingDirectory := loc } fs') :
    frame.Keeps fs { fs' with workingDirectory := fs.workingDirectory } :=
  ⟨rfl, h.isTree, h.linkAt, h.passage, h.get?_eq⟩

namespace Command

variable {cmd : Command} {captured : Captured}

/-- A program sees the files from the directory that it runs in. -/
theorem enter_ok {dir : Path} (h : enter fs (some dir) = .ok fs') :
    ∃ loc mode, fs.reach dir = .ok loc ∧ fs.get? loc = some (.directory mode) ∧
      fs' = { fs with workingDirectory := loc } := by
  rw [enter] at h
  cases hstat : fs.stat dir with
  | error error =>
    rw [hstat] at h
    contradiction
  | ok found =>
    obtain ⟨loc, e⟩ := found
    rw [hstat] at h
    obtain ⟨hresolve, hget⟩ := Archive.stat_ok hstat
    cases e with
    | file | link => contradiction
    | directory mode =>
      simp only at h
      split at h
      · exact ⟨loc, mode, Files.reach_of_resolve hresolve, hget, (Except.ok.inj h).symm⟩
      · contradiction

/-- A command of a machine runs in a directory of a tidy tree, succeeds, and leaves other files. -/
def RunsIn (cmd : Command) (machine : Host) (d : Location) (fs left : Files) : Prop :=
  ∃ host program, SameMachine machine host ∧ locate host cmd = .ok (program, fs) ∧ fs.Tidy ∧
    fs.workingDirectory = d ∧ (program.run cmd.arguments fs).ending = .exited 0 ∧
    left = program.leaves cmd.arguments fs

/-- A command that succeeds leaves what its program left where it ran. -/
theorem runsIn_of_run_ok {machine : Host} {dir : Path} (hdirectory : cmd.directory = some dir)
    (hstdout : cmd.stdout = .inherit) (hstderr : cmd.stderr = .capture)
    (hmachine : SameMachine machine host) (htidy : host.files.Tidy)
    (hheads : host.files.HeadsFor dir d) (h : exec cmd.run host = (.ok captured, host')) :
    ∃ left, cmd.RunsIn machine d { host.files with workingDirectory := d } left ∧
      host'.files = { left with workingDirectory := host.files.workingDirectory } := by
  rcases run_cases hstderr h with ⟨⟨failure, heq⟩, -⟩ | ⟨program, fs, hran⟩
  · contradiction
  · obtain ⟨out, hdrain⟩ := hran.drains
    rw [hstdout, exec_drain_inherit] at hdrain
    obtain ⟨-, rfl⟩ := Prod.mk.inj hdrain
    have henter := (of_locate hran.locates).2
    rw [hdirectory] at henter
    obtain ⟨loc, mode, hreach, hdir, rfl⟩ := enter_ok henter
    obtain rfl := hheads loc mode hreach hdir
    exact ⟨_, ⟨host, program, hmachine, hran.locates, htidy.workingIn loc, rfl,
      hran.exited captured rfl, rfl⟩, rfl⟩

end Command

/-! ### Walking a directory -/

/-- A path that leads to one directory only. -/
structure Files.HasDirectory (fs : Files) (p : Path) (d : Location) : Prop where
  tidy : fs.Tidy
  place : ∀ l, fs.place p = .ok l → l = d
  heads : fs.HeadsFor p d
  directory : ∃ mode, fs.get? d = some (.directory mode)

namespace Files.HasDirectory

/-- The place of what is below the directory is fixed. -/
theorem fixedAt (h : fs.HasDirectory p d) (hne : names ≠ []) (hfile : fs.HasFile (d ++ names)) :
    fs.FixedAt (p.descend names) (d ++ names) := by
  have ⟨e, hget, _⟩ := hfile
  have hplain : ∀ n ∈ names, IsPlainName n := fun n hn =>
    h.tidy.namesPlainly.of_isSome h.tidy.isTree (by rw [hget]; rfl) n (List.mem_append_right _ hn)
  have hclear := h.tidy.isTree.clearTo hget hfile.linkAt
  exact fixedAt_descend h.heads hplain hne (hclear.of_prefix (List.dropLast_prefix names))

/-- The files that are found by walking a directory are below it. -/
theorem of_mem_tree {found : List (Location × Entry)} {x : Location × Entry}
    (h : fs.HasDirectory p d) (htree : fs.tree p = .ok found) (hx : x ∈ found)
    (hfile : x.2.isFile = true) : x.1 ≠ [] ∧ fs.HasFile (d ++ x.1) := by
  obtain ⟨mode, hdir⟩ := h.directory
  unfold Files.tree at htree
  cases hplace : fs.place p with
  | error error =>
    rw [hplace] at htree
    contradiction
  | ok l =>
    -- What is told of the path itself is the directory.
    obtain rfl := h.place l hplace
    have hentry : fs.entryAt l = .ok (.directory mode) := by rw [entryAt, hdir]
    cases hstat : fs.stat p with
    | error error =>
      simp only [hplace, hentry, hstat, bind, Except.bind] at htree
      contradiction
    | ok there =>
      obtain ⟨loc, e⟩ := there
      obtain ⟨hresolve, hget⟩ := Archive.stat_ok hstat
      simp only [hplace, hentry, hstat, bind, Except.bind] at htree
      cases e with
      | file | link =>
        obtain rfl := Except.ok.inj htree
        rw [List.mem_singleton.1 hx] at hfile
        contradiction
      | directory mode' =>
        obtain rfl := h.heads loc mode' (reach_of_resolve hresolve) hget
        simp only at htree
        split at htree
        · obtain rfl := Except.ok.inj htree
          rcases List.mem_cons.1 hx with rfl | hx
          · contradiction
          · obtain ⟨hne, hmem⟩ := mem_below_iff.1 hx
            exact ⟨hne, x.2, (get?_eq_some_iff h.tidy.nodup (by simp [hne])).2 hmem, hfile⟩
        · contradiction

end Files.HasDirectory

theorem walk_ok {found : List (Location × Entry)} (h : exec (walk p) host = (.ok found, host')) :
    host'.files = host.files ∧ host.files.tree p = .ok found := by
  obtain ⟨rfl, hfound⟩ := reading_result (exec_within_ok h)
  exact ⟨rfl, hfound found rfl⟩

/-! ### Rewriting and finding files -/

theorem tidy_rewrite {transform : String → Except Cause String} :
    Always KeepsTidy (rewrite p transform) := by
  refine Always.bind chains_keepsTidy ?_ fun input => ?_
  · refine Always.bind chains_keepsTidy tidy_reading fun bytes => ?_
    split
    · exact Always.pure chains_keepsTidy _
    · exact Always.throw chains_keepsTidy _
  · split
    · exact Always.throw chains_keepsTidy _
    · split
      · exact Always.pure chains_keepsTidy _
      · exact Always.bind chains_keepsTidy tidy_writeAtomically fun _ =>
          Always.pure chains_keepsTidy _

theorem Files.Replaced.changesInside {contents : ByteArray} {mode : Nat} {target : Location}
    (h : Files.Replaced fs fs' target contents mode) (htree : fs.IsTree)
    (hplace : fs.place p = .ok target) (hinside : Inside root target) :
    Files.ChangesInside root fs fs' := by
  refine ⟨h.workingDirectory, fun _ => h.isTree htree hplace, ?_, ?_⟩
  · intro l hl
    refine h.get?_other l ?_
    rintro rfl
    exact hl hinside
  · intro l mode' hdir
    refine ⟨mode', (h.get?_other l ?_).trans hdir⟩
    rintro rfl
    exact h.not_directory mode' hdir

/-- Files that have their places inside of a directory are rewritten there. -/
theorem rewriteAll_inside {transform : Path → String → Except Cause String}
    {files changed : List Path}
    (hfixed : ∀ q ∈ files, ∃ l, Inside root l ∧ host.files.FixedAt q l) (htidy : host.files.Tidy)
    (h : exec (rewriteAll transform files) host = (.ok changed, host')) :
    host'.files.Tidy ∧ Files.ChangesInside root host.files host'.files ∧
      Files.FewerPassages host.files host'.files := by
  induction files generalizing host changed with
  | nil =>
    obtain ⟨-, rfl⟩ := Prod.mk.inj h
    exact ⟨htidy, .refl _ _, .refl _⟩
  | cons q rest ih =>
    obtain ⟨written, host₁, hrewrite, h⟩ := exec_bind_ok h
    obtain ⟨others, host₂, hrest, h⟩ := exec_bind_ok h
    obtain ⟨-, rfl⟩ := Prod.mk.inj h
    obtain ⟨hchanges, hfewer⟩ : Files.ChangesInside root host.files host₁.files ∧
        Files.FewerPassages host.files host₁.files := by
      obtain ⟨l, hinside, hl⟩ := hfixed q List.mem_cons_self
      obtain ⟨input, output, -, -, -, ⟨-, -, hfiles⟩ | ⟨-, -, target, hplace, hreplaced⟩⟩ :=
        rewrite_ok hrewrite
      · rw [hfiles]
        exact ⟨.refl _ _, .refl _⟩
      · obtain rfl := hl.place_eq htidy.isTree hplace
        exact ⟨hreplaced.changesInside htidy.isTree hplace hinside, hreplaced.fewerPassages⟩
    obtain ⟨htidy', hchanges', hfewer'⟩ := ih (fun q' hq' =>
      let ⟨l, hinside, hl⟩ := hfixed q' (List.mem_cons_of_mem _ hq')
      ⟨l, hinside, hl.of_fewerPassages hfewer⟩) (tidy_rewrite hrewrite htidy) hrest
    exact ⟨htidy', hchanges.trans hchanges', hfewer.trans hfewer'⟩

/-- Pinning the versions of a project changes files inside of it only. -/
theorem pinProject_ok {version : String} {changed : List Path} (hdir : host.files.HasDirectory p d)
    (h : exec (pinProject p version) host = (.ok changed, host')) :
    host'.files.Tidy ∧ Files.ChangesInside d host.files host'.files ∧
      Files.FewerPassages host.files host'.files := by
  obtain ⟨descriptions, host₁, hfind, h⟩ := exec_bind_ok h
  obtain ⟨found, host₂, hwalk, hfind⟩ := exec_bind_ok hfind
  obtain ⟨hdescriptions, rfl⟩ := Prod.mk.inj hfind
  obtain rfl := Except.ok.inj hdescriptions
  obtain ⟨hfiles, htree⟩ := walk_ok hwalk
  rw [← hfiles] at hdir htree ⊢
  refine rewriteAll_inside (fun q hq => ?_) hdir.tidy h
  obtain ⟨x, hx, rfl⟩ := List.mem_map.1 hq
  obtain ⟨hx, hcondition⟩ := List.mem_filter.1 hx
  obtain ⟨hne, hfile⟩ := hdir.of_mem_tree htree hx (Bool.and_elim_left hcondition)
  exact ⟨_, inside_append (List.prefix_refl _) hne, hdir.fixedAt hne hfile⟩

/-- The artifacts that are found in a project are files inside of it. -/
theorem findArtifacts_ok {outputDir ending : String} {artifacts : List Path}
    (hdir : host.files.HasDirectory p d)
    (h : exec (findArtifacts p outputDir ending) host = (.ok artifacts, host')) :
    host'.files = host.files ∧ ∀ q ∈ artifacts, ∃ l, Inside d l ∧ host.files.HasFile l ∧
      host.files.FixedAt q l := by
  obtain ⟨found, host₁, hwalk, h⟩ := exec_bind_ok h
  obtain ⟨hartifacts, rfl⟩ := Prod.mk.inj h
  obtain rfl := Except.ok.inj hartifacts
  obtain ⟨hfiles, htree⟩ := walk_ok hwalk
  refine ⟨hfiles, fun q hq => ?_⟩
  obtain ⟨x, hx, rfl⟩ := List.mem_map.1 (List.mem_filter.1 hq).1
  obtain ⟨hx, hfile⟩ := List.mem_filter.1 hx
  obtain ⟨hne, hfile⟩ := hdir.of_mem_tree htree hx hfile
  exact ⟨_, inside_append (List.prefix_refl _) hne, hfile, hdir.fixedAt hne hfile⟩

/-! ### The machine -/

theorem sameMachine_walk : Always SameMachine (walk p) :=
  Always.within sameMachine_reading

theorem sameMachine_rewriteAll {transform : Path → String → Except Cause String}
    {files : List Path} : Always SameMachine (rewriteAll transform files) := by
  induction files with
  | nil => exact Always.pure chains_sameMachine _
  | cons q rest ih =>
    refine Always.bind chains_sameMachine (Always.bind chains_sameMachine sameMachine_readText
      fun input => ?_) fun changed => Always.bind chains_sameMachine ih fun _ =>
        Always.pure chains_sameMachine _
    split
    · exact Always.throw chains_sameMachine _
    · split
      · exact Always.pure chains_sameMachine _
      · exact Always.bind chains_sameMachine sameMachine_writeAtomically fun _ =>
          Always.pure chains_sameMachine _

theorem sameMachine_pinProject {version : String} : Always SameMachine (pinProject p version) :=
  Always.bind chains_sameMachine
    (Always.bind chains_sameMachine sameMachine_walk fun _ => Always.pure chains_sameMachine _)
    fun _ => sameMachine_rewriteAll

theorem sameMachine_buildProject : Always SameMachine (buildProject p) :=
  Always.bind chains_sameMachine (Command.sameMachine_run rfl) fun _ =>
    Always.pure chains_sameMachine _

theorem sameMachine_findArtifacts {outputDir ending : String} :
    Always SameMachine (findArtifacts p outputDir ending) :=
  Always.bind chains_sameMachine sameMachine_walk fun _ => Always.pure chains_sameMachine _

theorem sameMachine_checkout {url : String} {options : CheckoutOptions} :
    Always SameMachine (checkout url p options) :=
  Always.bind chains_sameMachine (Command.sameMachine_run rfl) fun _ =>
    Always.pure chains_sameMachine _

end RamlBuild
