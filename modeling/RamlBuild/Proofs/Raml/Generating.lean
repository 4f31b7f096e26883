import RamlBuild.Proofs.Program.Running
import RamlBuild.Proofs.Tool.Building
import RamlBuild.Raml.Generation
import RamlBuild.Raml.Merge

/-!
# What a generation and a merge do

A generation first asks for the generator and for the API definition and changes nothing while one of
them is missing. Then what was generated before goes with all that is in it, so the generator finds
nothing there when it starts. Nothing but the generator changes files after that.

A merge removes the library of an earlier run, runs the merge tool and writes the new library. What
the tool leaves alone is left alone by the whole merge, as long as the path of the library leads
elsewhere.

## Main definitions

* `GeneratorTool.sweep`, `GeneratorTool.produce` — a generation in two parts
* `Files.Swept` — what was at and below a path is gone
* `Layout.spot`, `Layout.SameTree` — where sources are generated, and that they stay
* `GeneratorTool.Left` — what the generator left
* `MergeTool.StaysOff` — the merge tool and its library have nothing to do with a frame

## Main results

* `GeneratorTool.run_cases` — a generation checks, sweeps and produces
* `GeneratorTool.exec_sweep_ok` — nothing is left of what was generated before
* `GeneratorTool.exec_produce` — what the generator leaves is what there is
* `MergeTool.keeps_run` — a merge leaves the frames alone that it stays off
-/

namespace RamlBuild

open Build

/-! ### What goes -/

namespace Files

variable {fs fs' : Files} {p : Path} {l loc : Location} {name : String}

/-- An entry of a directory that is no link is what its path leads to. -/
theorem resolve_of_place_child (hname : IsPlainName name) (hplace : fs.place (p / name) = .ok l)
    (hlink : fs.linkAt l = none) : fs.resolve (p / name) = .ok l := by
  obtain ⟨hpath, dir, hreach, hstep⟩ := (place_child_iff hname).1 hplace
  rw [resolve, locate_child hname hpath, hreach]
  · exact hstep
  · rintro dir' hreach' - n target hn hget
    obtain rfl := Except.ok.inj (hreach.symm.trans hreach')
    obtain rfl := Step.name.inj hn
    rw [eq_append_of_takeStep hstep, linkAt, hget] at hlink
    contradiction

/-- What was at and below a path is gone, but for a link that leads nowhere, and everything else
stays. -/
structure Swept (p : Path) (fs fs' : Files) : Prop where
  workingDirectory : fs'.workingDirectory = fs.workingDirectory
  isTree : fs'.IsTree
  gone : ∀ loc, fs.place p = .ok loc → ∀ l, loc.isPrefixOf l = true → ∀ e, fs'.get? l = some e →
    l = loc ∧ fs.holds p = false ∧ ∃ target, e = .link target
  other : ∀ l, (∀ loc, fs.place p = .ok loc → ¬loc.isPrefixOf l = true) → fs'.get? l = fs.get? l

/-- Where a path leads nowhere, nothing has to go. -/
theorem swept_of_not_holds (hname : IsPlainName name) (htree : fs.IsTree)
    (hnot : fs.holds (p / name) = false) : Swept (p / name) fs fs := by
  refine ⟨rfl, htree, ?_, fun _ _ => rfl⟩
  intro loc hplace l hl e he
  cases hlink : fs.linkAt loc with
  | some target =>
    obtain ⟨names, rfl⟩ := List.isPrefixOf_iff_prefix.1 hl
    have hget := linkAt_eq_some_iff.1 hlink
    by_cases hnames : names = []
    · rw [hnames, List.append_nil, hget] at he
      exact ⟨by simp [hnames], hnot, target, (Option.some.inj he).symm⟩
    · rw [htree.get?_eq_none (by simp [hget]) hnames] at he
      contradiction
  | none =>
    -- Without a link the path would lead to what stands there.
    have hresolve := resolve_of_place_child hname hplace hlink
    rw [holds_eq, hresolve] at hnot
    have hfree : fs.get? loc = none := by simpa using hnot
    rw [htree.get?_eq_none_of_prefix hfree hl] at he
    contradiction

theorem swept_of_removeTree (hname : IsPlainName name) (htree : fs.IsTree)
    (h : fs.removeTree (p / name) = .ok fs') : Swept (p / name) fs fs' := by
  obtain ⟨loc, hplace, hworking, hget⟩ := removeTree_ok htree h
  have hne : loc ≠ [] := by
    obtain ⟨-, dir, -, hstep⟩ := (place_child_iff hname).1 hplace
    rw [eq_append_of_takeStep hstep]
    simp
  have hgets : ∀ l, fs'.get? l = if loc.isPrefixOf l then none else fs.get? l :=
    fun l => (hget hne l).trans (get?_eraseTree hne)
  refine ⟨hworking, (htree.eraseTree hne).congr (hget hne), ?_, ?_⟩
  · intro loc' hplace' l hl e he
    obtain rfl := Except.ok.inj (hplace.symm.trans hplace')
    rw [hgets, if_pos hl] at he
    contradiction
  · intro l hl
    rw [hgets, if_neg (hl loc hplace)]

end Files

/-! ### Where sources are generated -/

namespace Layout

variable {layout : Layout} {fs fs' : Files} {loc : Location}

/-- The directory of the package, above the root. -/
def packageRoot (layout : Layout) : Path :=
  layout.sourceDir / packageDir layout.projectPackage

/-- The location of the root, when whatever is missing on its way is taken for a directory. -/
def spot (layout : Layout) (fs : Files) : Option Location :=
  (fs.trail Files.maxLinks (fs.start layout.packageRoot) layout.packageRoot.walked).map
    (·.finish ++ ["generated"])

/-- What is at and below the root is the same. -/
def SameTree (layout : Layout) (fs fs' : Files) : Prop :=
  ∀ loc, layout.spot fs = some loc → ∀ l, loc.isPrefixOf l = true → fs'.get? l = fs.get? l

theorem isPlainName_generated : IsPlainName "generated" := by
  decide

/-- The path of the root comes to its location when it comes anywhere. -/
theorem spot_eq_of_place (h : fs.place layout.root = .ok loc) : layout.spot fs = some loc := by
  obtain ⟨-, dir, hreach, hstep⟩ := (Files.place_child_iff isPlainName_generated).1 h
  obtain ⟨trail, htrail, rfl, -⟩ := Files.trail_of_walk hreach
  rw [Files.eq_append_of_takeStep hstep, spot, packageRoot, htrail]
  rfl

end Layout

/-! ### The parts of a generation -/

namespace GeneratorTool

variable {tool : GeneratorTool} {api : Path} {layout : Layout} {host host' : Host}
  {result : Except Failure Unit}

/-- Removes what was generated before. -/
def sweep (layout : Layout) : Build Unit := do
  if ← holds layout.root then
    within s!"removing {layout.root}" (removeTree layout.root)

/-- Runs the generator, which has to leave sources. -/
def produce (tool : GeneratorTool) (api : Path) (layout : Layout) : Build Unit := do
  let _ ← within "raml-to-jaxrs generation failed" (tool.command api layout).run
  if ← isDirectory layout.root then pure ()
  else failWith s!"generator finished but produced no sources under {layout.root}"

/-- What a generation needs is there. -/
def Ready (tool : GeneratorTool) (api : Path) (fs : Files) : Prop :=
  fs.isFile tool.jar = true ∧ fs.isFile api = true

/-- A generation asks for what it needs, sweeps and produces. -/
theorem exec_run (tool : GeneratorTool) (api : Path) (layout : Layout) (host : Host) :
    exec (tool.run api layout) host =
      if host.files.isFile tool.jar = false then
        (.error (.told s!"generator {tool.jar} is not installed"), host)
      else if host.files.isFile api = false then
        (.error (.told s!"api definition {api} does not exist"), host)
      else
        exec (do sweep layout; tool.produce api layout) host := by
  rw [run, isFile, exec_asking_bind]
  cases hjar : host.files.isFile tool.jar
  · rfl
  · simp only [Bool.not_true, Bool.false_eq_true, if_false]
    rw [isFile, exec_asking_bind]
    cases hapi : host.files.isFile api
    · rfl
    · simp only [Bool.not_true, Bool.false_eq_true, if_false]
      rw [sweep, holds, bind_assoc, exec_asking_bind, exec_asking_bind]
      cases host.files.holds layout.root <;> rfl

/-- After a sweep nothing is left of what was generated before. -/
theorem exec_sweep_ok (htree : host.files.IsTree) (h : exec (sweep layout) host = (.ok (), host')) :
    Files.Swept layout.root host.files host'.files := by
  rw [sweep, holds, exec_asking_bind] at h
  cases hholds : host.files.holds layout.root with
  | false =>
    rw [hholds] at h
    obtain ⟨-, rfl⟩ := Prod.mk.inj h
    exact Files.swept_of_not_holds Layout.isPlainName_generated htree hholds
  | true =>
    rw [hholds] at h
    obtain ⟨hop, -⟩ := changing_ok (exec_within_ok h)
    exact Files.swept_of_removeTree Layout.isPlainName_generated htree hop

/-- A sweep fails only when it cannot remove what is there, and then it leaves everything. -/
theorem exec_sweep_error {failure : Failure}
    (h : exec (sweep layout) host = (.error failure, host')) :
    host.files.holds layout.root = true ∧ host'.files = host.files := by
  rw [sweep, holds, exec_asking_bind] at h
  cases hholds : host.files.holds layout.root with
  | false =>
    rw [hholds] at h
    exact absurd (Prod.mk.inj h).1 (by simp)
  | true =>
    rw [hholds] at h
    refine ⟨rfl, ?_⟩
    rcases exec_within_cases h with ⟨_, heq, -⟩ | ⟨failure', -, hremove⟩
    · cases heq
    · exact (changing_error hremove).1

/-- What the generator left, when it could be started at all. -/
def Left (tool : GeneratorTool) (api : Path) (layout : Layout) (host host' : Host) : Prop :=
  host'.files = host.files ∨
    ∃ program, (tool.command api layout).locate host = .ok (program, host.files) ∧
      host'.files = program.leaves (tool.command api layout).arguments host.files

/-- The generator has ended with zero and left sources. -/
def Produced (tool : GeneratorTool) (api : Path) (layout : Layout) (host host' : Host) : Prop :=
  ∃ program, (tool.command api layout).locate host = .ok (program, host.files) ∧
    (program.run (tool.command api layout).arguments host.files).ending = .exited 0 ∧
    host'.files = program.leaves (tool.command api layout).arguments host.files ∧
    host'.files.isDirectory layout.root = true

/-- What the generator leaves is what there is, and it has produced sources when nothing is told. -/
theorem exec_produce (h : exec (tool.produce api layout) host = (result, host')) :
    tool.Left api layout host host' ∧ (result = .ok () → tool.Produced api layout host host') := by
  have hruns : ∀ {result host₁}, exec (tool.command api layout).run host = (result, host₁) →
      tool.Left api layout host host₁ ∧ ((∃ captured, result = .ok captured) →
        host₁.files.isDirectory layout.root = true → tool.Produced api layout host host₁) := by
    intro result host₁ hrun
    rcases Command.run_cases rfl hrun with ⟨⟨failure, rfl⟩, rfl⟩ | ⟨program, fs, hran⟩
    · exact ⟨.inl rfl, by simp⟩
    · have hlocate := hran.locates
      rw [Command.eq_files_of_locate rfl hlocate] at hlocate
      have hfiles := hran.files_eq_of_inherit rfl rfl
      refine ⟨.inr ⟨program, hlocate, hfiles⟩, ?_⟩
      rintro ⟨captured, rfl⟩ hdirectory
      have hexited := hran.exited captured rfl
      rw [Command.eq_files_of_locate rfl hran.locates] at hexited
      exact ⟨program, hlocate, hexited, hfiles, hdirectory⟩
  rw [produce] at h
  rcases exec_bind_cases h with ⟨captured, host₁, hrun, h⟩ | ⟨failure, hrun, rfl⟩
  · obtain ⟨hleft, hproduced⟩ := hruns (exec_within_ok hrun)
    rw [isDirectory, exec_asking_bind] at h
    split at h
    · rename_i hdirectory
      obtain ⟨-, rfl⟩ := Prod.mk.inj h
      exact ⟨hleft, fun _ => hproduced ⟨captured, rfl⟩ hdirectory⟩
    · obtain ⟨rfl, rfl⟩ := Prod.mk.inj h
      exact ⟨hleft, by simp⟩
  · rcases exec_within_cases hrun with ⟨captured, heq, -⟩ | ⟨failure', -, hrun⟩
    · cases heq
    · exact ⟨(hruns hrun).1, by simp⟩

/-- A generation changes nothing while something is missing, or fails to remove what is there, or
comes to the generator. -/
theorem run_cases (h : exec (tool.run api layout) host = (result, host')) :
    (¬tool.Ready api host.files ∧ (∃ failure, result = .error failure) ∧ host' = host) ∨
      tool.Ready api host.files ∧
        ((∃ failure, result = .error failure ∧ exec (sweep layout) host = (.error failure, host')) ∨
          ∃ host₁, exec (sweep layout) host = (.ok (), host₁) ∧
            exec (tool.produce api layout) host₁ = (result, host')) := by
  rw [exec_run] at h
  split at h
  · rename_i hjar
    obtain ⟨rfl, rfl⟩ := Prod.mk.inj h
    exact .inl ⟨fun hready => by simp [hready.1] at hjar, ⟨_, rfl⟩, rfl⟩
  · rename_i hjar
    split at h
    · rename_i hapi
      obtain ⟨rfl, rfl⟩ := Prod.mk.inj h
      exact .inl ⟨fun hready => by simp [hready.2] at hapi, ⟨_, rfl⟩, rfl⟩
    · rename_i hapi
      refine .inr ⟨⟨by simpa using hjar, by simpa using hapi⟩, ?_⟩
      rcases exec_bind_cases h with ⟨⟨⟩, host₁, hsweep, hproduce⟩ | ⟨failure, hsweep, rfl⟩
      · exact .inr ⟨host₁, hsweep, hproduce⟩
      · exact .inl ⟨failure, rfl, hsweep⟩

end GeneratorTool

/-! ### What a merge leaves alone -/

namespace MergeTool

variable {tool : MergeTool} {schemaRoot output : Path} {frame : Frame} {host host' : Host}
  {result : Except Failure Unit}

/-- The merge tool and its library have nothing to do with a frame: the earlier library stands off
it, and the merge tool, wherever it finds the files as they are once that is removed, leaves the frame
alone and the path of the library leading by locations that are apart from it. -/
structure StaysOff (tool : MergeTool) (schemaRoot output : Path) (frame : Frame) (host : Host) :
    Prop where
  library : ∀ target, host.files.place output = .ok target →
    ¬frame.kept target ∧ (frame.ways target → host.files.linkAt target = none)
  program : ∀ fs program seen, fs = host.files ∨ host.files.removeFile output = .ok fs →
    Command.locate { host with files := fs } (tool.command schemaRoot output) = .ok (program, seen) →
    frame.Keeps fs (program.leaves (tool.command schemaRoot output).arguments fs) ∧
      (program.leaves (tool.command schemaRoot output).arguments fs).LeadsBy
        (frame.Apart (program.leaves (tool.command schemaRoot output).arguments fs)) output

/-- The merge tool runs on the files as they are, or as they are without the earlier library. -/
theorem StaysOff.keeps_command {host₁ : Host} (hoff : tool.StaysOff schemaRoot output frame host)
    (hfiles : host₁.files = host.files ∨ host.files.removeFile output = .ok host₁.files)
    (hprograms : host₁.programOf = host.programOf) (hsearch : host₁.searchPath = host.searchPath)
    (htree : host₁.files.IsTree)
    (h : exec (do let _ ← within "merge-raml failed" (tool.command schemaRoot output).run) host₁ =
      (result, host')) : frame.Keeps host₁.files host'.files := by
  have hkeeps : ∀ {result host₂}, exec (tool.command schemaRoot output).run host₁ = (result, host₂) →
      frame.Keeps host₁.files host₂.files := by
    intro result host₂ hrun
    rcases Command.run_cases rfl hrun with ⟨-, rfl⟩ | ⟨program, seen, hran⟩
    · exact .refl frame _
    · have hlocate : (tool.command schemaRoot output).locate { host with files := host₁.files } =
          .ok (program, seen) := by
        rw [← hran.locates]
        exact Command.locate_congr rfl hprograms.symm hsearch.symm
      obtain ⟨hprogram, hleads⟩ := hoff.program host₁.files program seen hfiles hlocate
      exact hran.keeps_of_file rfl rfl htree hprogram hleads
  rcases exec_bind_cases h with ⟨captured, host₂, hrun, hrest⟩ | ⟨failure, hrun, -⟩
  · obtain ⟨-, rfl⟩ := Prod.mk.inj hrest
    exact hkeeps (exec_within_ok hrun)
  · rcases exec_within_cases hrun with ⟨captured, heq, -⟩ | ⟨failure', -, hrun⟩
    · contradiction
    · exact hkeeps hrun

/-- A merge leaves the frames alone that it stays off, whether it succeeds or fails. -/
theorem keeps_run (htree : host.files.IsTree) (hoff : tool.StaysOff schemaRoot output frame host)
    (h : exec (tool.run schemaRoot output) host = (result, host')) :
    frame.Keeps host.files host'.files := by
  rw [run, isFile, exec_asking_bind] at h
  split at h
  · obtain ⟨-, rfl⟩ := Prod.mk.inj h
    exact .refl frame _
  rw [isDirectory, exec_asking_bind] at h
  split at h
  · obtain ⟨-, rfl⟩ := Prod.mk.inj h
    exact .refl frame _
  rw [holds, exec_asking_bind] at h
  split at h
  · rcases exec_bind_cases h with ⟨⟨⟩, host₁, hremove, hrun⟩ | ⟨failure, hremove, -⟩
    · have hkeeps := (Frame.stands_removeFile hoff.library hremove).1
      obtain ⟨hop, heq⟩ := changing_ok_eq hremove
      have hprograms : host₁.programOf = host.programOf := by rw [heq]; rfl
      have hsearch : host₁.searchPath = host.searchPath := by rw [heq]; rfl
      exact hkeeps.trans
        (hoff.keeps_command (.inr hop) hprograms hsearch (hkeeps.isTree htree) hrun)
    · exact (Frame.stands_removeFile hoff.library hremove).1
  · exact hoff.keeps_command (.inl rfl) rfl rfl htree h

end MergeTool

end RamlBuild
