import Mathlib
import RamlBuild.Proofs.Raml.Generating
import RamlBuild.Proofs.Sources.Stages
import RamlBuild.Proofs.Tool.Convergence
import RamlBuild.Proofs.Tool.Fits

/-!
# Where a pipeline stops

The first stage that fails ends a run, and nothing is done after it. Up to the checks of the
generation the sources that were generated before are as they were; once they are swept nothing of
them is left, whatever becomes of the generator.

## Main definitions

* `InstallsSpare` — the installations of a run leave a frame alone
* `Pipeline.Stop`, `Pipeline.StopsAt` — where a run fails, and what is so then
* `Pipeline.Generates` — the stages up to the generation succeed
* `Pipeline.stageNames` — the stages of a run that succeeds

## Main results

* `Pipeline.stopsAt_of_run` — how a run ends
-/

namespace RamlBuild

open Build

variable {frame : Frame} {tools rest : List Installer} {tool : Installer} {host host' : Host}
  {failure : Failure} {tenants : List Tenant}

/-! ### Installations one after the other -/

/-- A run of installations goes on from where its first tool got, unless that fails. -/
theorem exec_installTools_cons (tool : Installer) (tools : List Installer) (host : Host) :
    exec (installTools (tool :: tools)) host =
      match exec (install tool) host with
      | (.ok outcome, host₁) =>
        ((exec (installTools tools) host₁).1.map
            (⟨s!"install:{tool.name}", host₁.now, outcome.result⟩ :: ·),
          (exec (installTools tools) host₁).2)
      | (.error failure, host₁) => (.error failure, host₁) := by
  rw [installTools, exec_bind]
  rcases exec (install tool) host with ⟨result, host₁⟩
  cases result with
  | error failure => rfl
  | ok outcome =>
    simp only
    rw [exec_bind_of_ok (exec_report _ _ _), bind_pure_comp, exec_map]

/-- The first installation of a run that succeeds, and the others. -/
theorem installTools_cons_ok {reports : List StageReport}
    (h : exec (installTools (tool :: tools)) host = (.ok reports, host')) :
    ∃ outcome host₁ others, exec (install tool) host = (.ok outcome, host₁) ∧
      exec (installTools tools) host₁ = (.ok others, host') ∧
      reports = ⟨s!"install:{tool.name}", host₁.now, outcome.result⟩ :: others := by
  rw [installTools] at h
  obtain ⟨outcome, host₁, hfirst, h⟩ := exec_bind_ok h
  rw [exec_bind_of_ok (exec_report ..)] at h
  obtain ⟨others, host₂, hrest, h⟩ := exec_bind_ok h
  obtain ⟨heq, rfl⟩ := Prod.mk.inj h
  exact ⟨outcome, host₁, others, hfirst, hrest, (Except.ok.inj heq).symm⟩

/-- A run of installations that succeeds has a stage for each tool. -/
theorem stages_installTools {reports : List StageReport}
    (h : exec (installTools tools) host = (.ok reports, host')) :
    reports.map (·.stage) = tools.map fun tool => s!"install:{tool.name}" := by
  induction tools generalizing host reports with
  | nil =>
    rw [← Except.ok.inj (Prod.mk.inj h).1]
    rfl
  | cons tool rest ih =>
    obtain ⟨outcome, host₁, others, -, hrest, rfl⟩ := installTools_cons_ok h
    rw [List.map_cons, List.map_cons, ih hrest]

/-- Installations leave the machine alone when the steps of the tools do. -/
theorem sameMachine_installTools {reports : List StageReport}
    (htools : ∀ tool ∈ tools, tool.LeavesMachine)
    (h : exec (installTools tools) host = (.ok reports, host')) : SameMachine host host' := by
  induction tools generalizing host reports with
  | nil =>
    obtain ⟨-, rfl⟩ := Prod.mk.inj h
    exact chains_sameMachine.refl host
  | cons tool rest ih =>
    obtain ⟨outcome, host₁, others, hfirst, hrest, -⟩ := installTools_cons_ok h
    exact chains_sameMachine.trans (sameMachine_install (htools tool List.mem_cons_self) hfirst)
      (ih (fun t ht => htools t (List.mem_cons_of_mem _ ht)) hrest)

/-- A run of installations that fails does so at one of the tools, and takes no step after it. -/
theorem exists_install_of_installTools_error
    (h : exec (installTools tools) host = (.error failure, host')) :
    ∃ i, ∃ hi : i < tools.length, ∃ reports host₁,
      exec (installTools (tools.take i)) host = (.ok reports, host₁) ∧
      exec (install tools[i]) host₁ = (.error failure, host') := by
  induction tools generalizing host with
  | nil => exact absurd (Prod.mk.inj h).1 (by simp)
  | cons tool rest ih =>
    rw [exec_installTools_cons] at h
    rcases hfirst : exec (install tool) host with ⟨result, host₁⟩
    rw [hfirst] at h
    cases result with
    | error failure' =>
      obtain ⟨heq, rfl⟩ := Prod.mk.inj h
      obtain rfl := Except.error.inj heq
      exact ⟨0, by simp, [], host, rfl, hfirst⟩
    | ok outcome =>
      simp only at h
      rcases hrest : exec (installTools rest) host₁ with ⟨others, host₂⟩
      rw [hrest] at h
      cases others with
      | ok others => exact absurd (Prod.mk.inj h).1 (by simp [Except.map])
      | error failure' =>
        obtain ⟨heq, rfl⟩ := Prod.mk.inj h
        obtain rfl : failure' = failure := Except.error.inj heq
        obtain ⟨i, hi, reports, host₃, hbefore, hinstall⟩ := ih hrest
        refine ⟨i + 1, Nat.succ_lt_succ hi,
          ⟨s!"install:{tool.name}", host₁.now, outcome.result⟩ :: reports, host₃, ?_, hinstall⟩
        rw [List.take_succ_cons, exec_installTools_cons, hfirst]
        simp only [hbefore]
        rfl

/-- Each installation of a run leaves a frame alone, from where the ones before it left the host. -/
def InstallsSpare (frame : Frame) : List Installer → Host → Prop
  | [], _ => True
  | tool :: rest, host => ∀ result host', exec (install tool) host = (result, host') →
    frame.Keeps host.files host'.files ∧
      ((∃ outcome, result = .ok outcome) → InstallsSpare frame rest host')

/-- What each installation leaves alone is left alone by all of them. -/
theorem keeps_installTools {result : Except Failure (List StageReport)}
    (hspare : InstallsSpare frame tools host)
    (h : exec (installTools tools) host = (result, host')) :
    frame.Keeps host.files host'.files := by
  induction tools generalizing host result with
  | nil =>
    obtain ⟨-, rfl⟩ := Prod.mk.inj h
    exact .refl frame _
  | cons tool rest ih =>
    rw [exec_installTools_cons] at h
    rcases hfirst : exec (install tool) host with ⟨first, host₁⟩
    obtain ⟨hkeeps, hrest⟩ := hspare first host₁ hfirst
    rw [hfirst] at h
    cases first with
    | error failure =>
      obtain ⟨-, rfl⟩ := Prod.mk.inj h
      exact hkeeps
    | ok outcome =>
      obtain ⟨-, rfl⟩ := Prod.mk.inj h
      exact hkeeps.trans (ih (hrest ⟨outcome, rfl⟩) rfl)

/-- Tools side by side leave the frames alone that their steps leave alone. -/
theorem installsSpare_of_tenants (htenants : Tenants tenants)
    (hminds : ∀ t ∈ tenants, t.tool.Minds t.site frame) (hclear : ∀ t ∈ tenants, frame.Clear t.site)
    (hplaced : ∀ t ∈ tenants, t.site.Placed host.files) :
    InstallsSpare frame (tenants.map (·.tool)) host := by
  induction tenants generalizing host with
  | nil => trivial
  | cons tenant rest ih =>
    intro result host' h
    have hworks := htenants.works tenant List.mem_cons_self
    have hkeeps := (Frame.stands_install hworks.isAt hworks.heeds
      (hminds tenant List.mem_cons_self).heeds (hclear tenant List.mem_cons_self)
      (hplaced tenant List.mem_cons_self) h).1.1
    exact ⟨hkeeps, fun _ => ih htenants.tail (fun t ht => hminds t (List.mem_cons_of_mem _ ht))
      (fun t ht => hclear t (List.mem_cons_of_mem _ ht)) (htenants.placed_rest hplaced h)⟩

/-! ### Stops -/

namespace Pipeline

variable {p : Pipeline} {result : Except Failure Summary} {reports : List StageReport}

/-- Where a run can stop. -/
inductive Stop where
  /-- At the installation of a tool, told by its number. -/
  | install (index : Nat)
  /-- At the merge. -/
  | merge
  /-- At the checks of the generation. -/
  | check
  /-- At the removal of what was generated before. -/
  | removal
  /-- At the generator. -/
  | generation
  /-- At a patch, told by its number. -/
  | patch (index : Nat)
  deriving DecidableEq, Repr

/-- A run stops before anything that was generated is touched. -/
def Stop.isEarly : Stop → Bool
  | install _ => true
  | merge => true
  | check => true
  | _ => false

/-- The stages up to the merge succeed. -/
def Merges (p : Pipeline) (tools : List Installer) (host host₂ : Host) : Prop :=
  ∃ reports host₁, exec (installTools tools) host = (.ok reports, host₁) ∧
    exec (p.merger.run p.schemaRoot p.mergedOutput) host₁ = (.ok (), host₂)

/-- The stages up to the generation succeed: the generator was started where nothing was left of what
was generated before, has ended with zero and left sources. -/
def Generates (p : Pipeline) (tools : List Installer) (host host₄ : Host) : Prop :=
  ∃ host₂ host₃, p.Merges tools host host₂ ∧ p.generator.Ready p.api host₂.files ∧
    Files.Swept p.layout.root host₂.files host₃.files ∧
    p.generator.Produced p.api p.layout host₃ host₄

/-- A run fails at a stop and leaves a host. All that comes before has succeeded, and what fails is
the last to be done. -/
inductive StopsAt (p : Pipeline) (tools : List Installer) (host : Host) (failure : Failure)
    (host' : Host) : Stop → Prop
  | install (index : Nat) (hindex : index < tools.length) (reports : List StageReport) (host₁ : Host)
      (before : exec (installTools (tools.take index)) host = (.ok reports, host₁))
      (fails : exec (RamlBuild.install tools[index]) host₁ = (.error failure, host')) :
      StopsAt p tools host failure host' (.install index)
  | merge (reports : List StageReport) (host₁ : Host)
      (before : exec (installTools tools) host = (.ok reports, host₁))
      (fails : exec (p.merger.run p.schemaRoot p.mergedOutput) host₁ = (.error failure, host')) :
      StopsAt p tools host failure host' .merge
  | check (before : p.Merges tools host host')
      (missing : ¬p.generator.Ready p.api host'.files) : StopsAt p tools host failure host' .check
  | removal (host₂ : Host) (before : p.Merges tools host host₂)
      (ready : p.generator.Ready p.api host₂.files)
      (there : host₂.files.holds p.layout.root = true)
      (fails : exec (GeneratorTool.sweep p.layout) host₂ = (.error failure, host'))
      (same : host'.files = host₂.files) : StopsAt p tools host failure host' .removal
  | generation (host₂ host₃ : Host) (before : p.Merges tools host host₂)
      (ready : p.generator.Ready p.api host₂.files)
      (swept : Files.Swept p.layout.root host₂.files host₃.files)
      (fails : exec (p.generator.produce p.api p.layout) host₃ = (.error failure, host'))
      (left : p.generator.Left p.api p.layout host₃ host') :
      StopsAt p tools host failure host' .generation
  | patch (index : Nat) (hindex : index < p.patches.length) (reports : List StageReport)
      (host₄ host₅ : Host) (before : p.Generates tools host host₄)
      (applied : exec (applyEach p.layout (p.patches.take index)) host₄ = (.ok reports, host₅))
      (fails : exec (p.patches[index].apply p.layout) host₅ = (.error failure, host')) :
      StopsAt p tools host failure host' (.patch index)

/-- The stages of a run that succeeds. -/
def stageNames (p : Pipeline) (tools : List Installer) : List String :=
  (tools.map fun tool => s!"install:{tool.name}") ++ "merge-raml" :: "generate" ::
    p.patches.map (·.name)

/-- A run that succeeds with its patches has a stage for each. -/
theorem stages_applyEach {layout : Layout} {patches : List Patch}
    (h : exec (applyEach layout patches) host = (.ok reports, host')) :
    reports.map (·.stage) = patches.map (·.name) := by
  obtain ⟨hlength, heach⟩ := exists_apply_of_applyEach h
  refine List.ext_getElem (by simp [hlength]) ?_
  intro i hi hi'
  rw [List.getElem_map, List.getElem_map]
  obtain ⟨files, host₁, host₂, -, -, -, hstage⟩ :=
    heach i (by simpa using hi') (by simpa using hi)
  rw [hstage]

/-- A generation that fails does so at a stop after the merge. -/
theorem stopsAt_of_generator {host₂ : Host} {result : Except Failure Unit}
    (htree : host₂.files.IsTree) (hmerges : p.Merges tools host host₂)
    (h : exec (p.generator.run p.api p.layout) host₂ = (result, host')) :
    (result = .ok () ∧ p.Generates tools host host') ∨
      ∃ failure stop, result = .error failure ∧ p.StopsAt tools host failure host' stop ∧
        (stop.isEarly = true → host' = host₂) := by
  rcases GeneratorTool.run_cases h with
    ⟨hmissing, ⟨failure, rfl⟩, rfl⟩ | ⟨hready, ⟨failure, rfl, hsweep⟩ | ⟨host₃, hsweep, hproduce⟩⟩
  · exact .inr ⟨failure, .check, rfl, .check hmerges hmissing, fun _ => rfl⟩
  · obtain ⟨hthere, hsame⟩ := GeneratorTool.exec_sweep_error hsweep
    exact .inr ⟨failure, .removal, rfl, .removal host₂ hmerges hready hthere hsweep hsame, nofun⟩
  · have hswept := GeneratorTool.exec_sweep_ok htree hsweep
    obtain ⟨hleft, hproduced⟩ := GeneratorTool.exec_produce hproduce
    cases result with
    | ok => exact .inl ⟨rfl, host₂, host₃, hmerges, hready, hswept, hproduced rfl⟩
    | error failure =>
      exact .inr ⟨failure, .generation, rfl,
        .generation host₂ host₃ hmerges hready hswept hproduce hleft, nofun⟩

/-- Patches that fail do so at one of them. -/
theorem stopsAt_of_applyPatches {host₄ : Host} {result : Except Failure (List StageReport)}
    (hgenerates : p.Generates tools host host₄)
    (h : exec (applyPatches p.layout p.patches) host₄ = (result, host')) :
    (∃ reports, result = .ok reports ∧ reports.map (·.stage) = p.patches.map (·.name)) ∨
      ∃ failure index, result = .error failure ∧
        p.StopsAt tools host failure host' (.patch index) := by
  have hdirectory : host₄.files.isDirectory p.layout.root = true := by
    obtain ⟨host₂, host₃, -, -, -, program, -, -, -, hdirectory⟩ := hgenerates
    exact hdirectory
  rw [applyPatches, isDirectory, exec_asking_bind, hdirectory, if_pos rfl] at h
  cases result with
  | ok reports => exact .inl ⟨reports, rfl, stages_applyEach h⟩
  | error failure =>
    obtain ⟨index, hindex, reports, host₅, happlied, hfails, -⟩ := exists_apply_of_applyEach_error h
    exact .inr ⟨failure, index, rfl,
      .patch index hindex reports host₄ host₅ hgenerates happlied hfails⟩

/-- The stages of a run, when what is left alone by the installations is left alone by the merge. -/
theorem stopsAt_of_stages {result : Except Failure (List StageReport)} (htree : host.files.IsTree)
    (hspare : InstallsSpare frame tools host)
    (hmerger : ∀ reports host₁, exec (installTools tools) host = (.ok reports, host₁) →
      p.merger.StaysOff p.schemaRoot p.mergedOutput frame host₁)
    (h : exec (p.stages tools) host = (result, host')) :
    (∃ reports, result = .ok reports ∧ reports.map (·.stage) = p.stageNames tools ∧
      ∃ host₄, p.Generates tools host host₄) ∨
      ∃ failure stop, result = .error failure ∧ p.StopsAt tools host failure host' stop ∧
        (stop.isEarly = true → frame.Keeps host.files host'.files) := by
  rw [stages] at h
  rcases exec_bind_cases h with ⟨installs, host₁, hinstalls, h⟩ | ⟨failure, hinstalls, rfl⟩
  case inr =>
    obtain ⟨i, hi, reports, host₁, hbefore, hfails⟩ := exists_install_of_installTools_error hinstalls
    exact .inr ⟨failure, .install i, rfl, .install i hi reports host₁ hbefore hfails,
      fun _ => keeps_installTools hspare hinstalls⟩
  have hkeeps₁ := keeps_installTools hspare hinstalls
  have hmerged : ∀ {result host₂}, exec (p.merger.run p.schemaRoot p.mergedOutput) host₁ =
      (result, host₂) → frame.Keeps host.files host₂.files := fun hmerge =>
    hkeeps₁.trans (MergeTool.keeps_run (hkeeps₁.isTree htree) (hmerger installs host₁ hinstalls) hmerge)
  rcases exec_bind_cases h with ⟨⟨⟩, host₂, hmerge, h⟩ | ⟨failure, hmerge, rfl⟩
  case inr =>
    exact .inr ⟨failure, .merge, rfl, .merge installs host₁ hinstalls hmerge, fun _ => hmerged hmerge⟩
  have hmerges : p.Merges tools host host₂ := ⟨installs, host₁, hinstalls, hmerge⟩
  have htree₂ := (hmerged hmerge).isTree htree
  rw [exec_bind_of_ok (exec_report ..)] at h
  rcases exec_bind_cases h with ⟨⟨⟩, host₄, hgenerator, h⟩ | ⟨failure, hgenerator, rfl⟩
  case inr =>
    rcases stopsAt_of_generator htree₂ hmerges hgenerator with
      ⟨heq, -⟩ | ⟨failure', stop, heq, hstop, hearly⟩
    · cases heq
    · obtain rfl := Except.error.inj heq
      exact .inr ⟨failure, stop, rfl, hstop, fun his => hearly his ▸ hmerged hmerge⟩
  have hgenerates : p.Generates tools host host₄ := by
    rcases stopsAt_of_generator htree₂ hmerges hgenerator with ⟨-, hgenerates⟩ | ⟨_, _, heq, -⟩
    · exact hgenerates
    · cases heq
  rw [exec_bind_of_ok (exec_report ..)] at h
  rcases exec_bind_cases h with ⟨patches, host₅, hpatches, h⟩ | ⟨failure, hpatches, rfl⟩
  · obtain ⟨rfl, rfl⟩ := Prod.mk.inj h
    rcases stopsAt_of_applyPatches hgenerates hpatches with ⟨reports, heq, hnames⟩ | ⟨_, _, heq, -⟩
    · obtain rfl := Except.ok.inj heq
      refine .inl ⟨_, rfl, ?_, host₄, hgenerates⟩
      rw [List.map_append, stages_installTools hinstalls, List.map_cons, List.map_cons, hnames]
      rfl
    · cases heq
  · rcases stopsAt_of_applyPatches hgenerates hpatches with ⟨_, heq, -⟩ | ⟨failure', index, heq, hstop⟩
    · cases heq
    · exact .inr ⟨failure', .patch index, heq, hstop, nofun⟩

/-- How a run ends. One that succeeds has a stage for each tool, for the merge, for the generation and
for each patch, in order. One that fails stops at the first failure. When the installations and the merge
have nothing to do with what was generated before, this is as it was as long as the run stops before
the generation has begun to remove it. -/
theorem stopsAt_of_run (htree : host.files.IsTree)
    (hroot : ∀ loc, p.layout.spot host.files = some loc → ∀ l, loc.isPrefixOf l = true → frame.kept l)
    (hspare : InstallsSpare frame tools host)
    (hmerger : ∀ reports host₁, exec (installTools tools) host = (.ok reports, host₁) →
      p.merger.StaysOff p.schemaRoot p.mergedOutput frame host₁)
    (h : exec (p.run tools) host = (result, host')) :
    (∃ summary, result = .ok summary ∧ summary.stages.map (·.stage) = p.stageNames tools ∧
      ∃ host₄, p.Generates tools host host₄) ∨
      ∃ failure stop, result = .error failure ∧ p.StopsAt tools host failure host' stop ∧
        (stop.isEarly = true →
          p.layout.SameTree host.files host'.files ∧ frame.Keeps host.files host'.files) := by
  rw [run, exec_summarize] at h
  rcases hx : exec (p.stages tools) host with ⟨ended, host₁⟩
  rw [hx] at h
  rcases stopsAt_of_stages htree hspare hmerger hx with
    ⟨reports, rfl, hnames, hgenerates⟩ | ⟨failure, stop, rfl, hstop, hearly⟩
  · obtain ⟨rfl, rfl⟩ := Prod.mk.inj h
    exact .inl ⟨_, rfl, hnames, hgenerates⟩
  · obtain ⟨rfl, rfl⟩ := Prod.mk.inj h
    refine .inr ⟨failure, stop, rfl, hstop, fun his => ⟨?_, hearly his⟩⟩
    exact fun loc hloc l hl => (hearly his).get?_eq l (hroot loc hloc l hl)

end Pipeline

/-! ### A generator that fails

A jar is installed, the schemas are merged, and then the generator ends with one. -/

/-- The tree of a project with sources that were generated before, and its programs. -/
def forgeFiles : Files where
  entries := [
    (["bin"], .directory 0o755),
    (["bin", "merge-raml"], .file "merge".toUTF8 0o755 none),
    (["bin", "java"], .file "java".toUTF8 0o755 none),
    (["gen.jar"], .file "jar".toUTF8 0o644 none),
    (["api.raml"], .file "#%RAML 1.0".toUTF8 0o644 none),
    (["schema"], .directory 0o755),
    (["schema", "library.raml"], .file "#%RAML 1.0 Library".toUTF8 0o644 none),
    (["src"], .directory 0o755),
    (["src", "org"], .directory 0o755),
    (["src", "org", "generated"], .directory 0o755),
    (["src", "org", "generated", "Old.java"], .file "class Old {}".toUTF8 0o644 none)]
  workingDirectory := []

/-- The program that some contents stand for: one ends with zero, the other with one, and both leave
the files alone. -/
def forgeProgram (contents : ByteArray) : Option Program :=
  if contents = "merge".toUTF8 then
    some ⟨"merge-raml", fun _ fs => ⟨fs, "#%RAML 1.0 Library".toUTF8, .empty, .exited 0⟩⟩
  else if contents = "java".toUTF8 then
    some ⟨"java", fun _ fs => ⟨fs, .empty, "no types".toUTF8, .exited 1⟩⟩
  else none

/-- The host of the project. -/
def forgeHost : Host :=
  { quietHost forgeFiles with searchPath := [⟨"/bin"⟩], programOf := forgeProgram }

/-- The pipeline of the project. -/
def forgePipeline : Pipeline where
  layout := ⟨⟨"/src"⟩, "org"⟩
  api := ⟨"/api.raml"⟩
  schemaRoot := ⟨"/schema"⟩
  mergedOutput := ⟨"/schema/library.raml"⟩
  merger := ⟨⟨"/bin/merge-raml"⟩, []⟩
  generator := ⟨⟨"/gen.jar"⟩, []⟩
  patches := []

/-- The way of the library, and the sources that were generated before. -/
def forgeFrame : Frame where
  ways := fun v => v ∈ ([[], ["schema"], ["schema", "library.raml"]] : List Location)
  kept := fun l => (["src", "org", "generated"] : Location).isPrefixOf l = true

theorem leaves_forgeProgram {contents : ByteArray} {program : Program} {arguments : List String}
    {fs : Files} (h : forgeProgram contents = some program) : program.leaves arguments fs = fs := by
  unfold forgeProgram at h
  split at h
  · rw [← Option.some.inj h]
    rfl
  · split at h
    · rw [← Option.some.inj h]
      rfl
    · contradiction

theorem leavesMachine_jarTool {name version : String} : (jarTool name version).LeavesMachine where
  resolveVersion := Always.pure chains_sameMachine _
  artifactsPresent := Always.asking chains_sameMachine _
  removeArtifacts := by
    refine Always.bind chains_sameMachine (Always.asking chains_sameMachine _) fun there => ?_
    split
    · exact sameMachine_changing
    · exact Always.pure chains_sameMachine _
  download := fun _ _ => Always.pure chains_sameMachine _
  buildAndInstall := fun _ _ => sameMachine_writeAtomically

theorem wellFormed_forgeFiles : forgeFiles.WellFormed :=
  Files.wellFormed_of_entries (by decide) (by decide)

theorem leadsBy_library : forgeFiles.LeadsBy forgeFrame.ways ⟨"/schema/library.raml"⟩ :=
  ⟨⟨[[], ["schema"], ["schema", "library.raml"]], ["schema", "library.raml"]⟩, rfl, fun _ hv => hv⟩

/-- No file of the project has another name. -/
theorem shared?_forgeFiles (l : Location) : (forgeFiles.get? l).bind Entry.shared? = none := by
  by_cases hl : l = []
  · rw [hl, Files.get?_nil]
    rfl
  · cases hget : forgeFiles.get? l with
    | none => rfl
    | some e =>
      have hmem := (wellFormed_forgeFiles.distinct.get?_eq_some_iff hl).1 hget
      have hall : ∀ x ∈ forgeFiles.entries, x.2.shared? = none := by decide
      exact hall _ hmem

theorem placed_red : redOwner.site.Placed forgeFiles := by
  have htrail : forgeFiles.trail Files.maxLinks (forgeFiles.start ⟨"/tools"⟩)
      (Path.walked ⟨"/tools"⟩) = some ⟨[[], ["tools"]], ["tools"]⟩ := rfl
  have habsolute : forgeFiles.workingDirectory.path / redOwner.site.root = ⟨"/tools"⟩ :=
    Path.join_of_isAbsolute (show (⟨"/tools"⟩ : Path).isAbsolute = true by decide)
  refine ⟨⟨wellFormed_forgeFiles.isTree, ⟨_, htrail, rfl, fun _ hv => hv⟩, ?_⟩, by decide⟩
  rw [habsolute]
  exact ⟨_, htrail, rfl, fun _ hv => hv⟩

/-- While the way of the library and the generated sources are kept, the merge has nothing to do with
them. -/
theorem staysOff_merger {host : Host} (hkeeps : forgeFrame.Keeps forgeFiles host.files)
    (hprograms : host.programOf = forgeProgram) :
    forgePipeline.merger.StaysOff forgePipeline.schemaRoot forgePipeline.mergedOutput forgeFrame
      host := by
  have hleads : ∀ {fs}, forgeFrame.Keeps forgeFiles fs →
      fs.LeadsBy forgeFrame.ways ⟨"/schema/library.raml"⟩ :=
    fun h => h.leadsBy leadsBy_library fun _ hv => hv
  have hoff : ∀ l, forgeFrame.ways l → ¬forgeFrame.kept l ∧ forgeFiles.linkAt l = none := by
    have hall : ∀ l ∈ ([[], ["schema"], ["schema", "library.raml"]] : List Location),
        ¬(["src", "org", "generated"] : Location).isPrefixOf l = true ∧ forgeFiles.linkAt l = none := by
      decide
    exact hall
  have hlibrary : ∀ target, host.files.place ⟨"/schema/library.raml"⟩ = .ok target →
      ¬forgeFrame.kept target ∧ (forgeFrame.ways target → host.files.linkAt target = none) := by
    intro target hplace
    have hway := (hleads hkeeps).locate hplace
    exact ⟨(hoff target hway).1, fun _ => (hkeeps.linkAt target hway).trans (hoff target hway).2⟩
  refine ⟨hlibrary, ?_⟩
  intro fs program seen hfs hlocate
  have hkeeps' : forgeFrame.Keeps forgeFiles fs := by
    rcases hfs with rfl | hremove
    · exact hkeeps
    · exact hkeeps.trans (Frame.keeps_removeFile hlibrary hremove)
  obtain ⟨⟨contents, hprogram⟩, -⟩ := Command.of_locate hlocate
  rw [leaves_forgeProgram (hprograms ▸ hprogram)]
  refine ⟨.refl forgeFrame fs, (hleads hkeeps').mono fun v hv => ⟨(hoff v hv).1, ?_⟩⟩
  -- The kept files have no other names.
  intro l hl n _
  rw [hkeeps'.get?_eq l hl, shared?_forgeFiles]
  simp

/-- The installation leaves the sources alone that were generated before. -/
theorem installsSpare_red : InstallsSpare forgeFrame [redOwner.tool] forgeHost := by
  have hred : redOwner.Sensible :=
    sensible_jarOwner (by decide) (by decide) (by decide) (by decide) (by decide)
  have htenants : Tenants [⟨redOwner.tool, redOwner.site⟩] :=
    ⟨by simpa using hred.works, List.pairwise_singleton _ _⟩
  have hways : ∀ name, ¬forgeFrame.ways ["tools", name] := by
    intro name h
    simp [forgeFrame] at h
  have hkept : ∀ names, ¬forgeFrame.kept ("tools" :: names) := by
    intro names h
    simp [forgeFrame] at h
  have hclear : forgeFrame.Clear redOwner.site := by
    refine ⟨?_, hkept _⟩
    intro v hv h
    rcases List.mem_pair.1 hv with rfl | rfl
    · simp [forgeFrame] at h
    · exact hkept _ h
  have hminds : redOwner.tool.Minds redOwner.site forgeFrame :=
    minds_jarTool (by decide) (hways _) (hkept _)
  exact installsSpare_of_tenants htenants (by simpa using hminds) (by simpa using hclear)
    (by simpa using (show redOwner.site.Placed forgeHost.files from placed_red))

/-- The run stops at the generator, when nothing is left of what was generated before. -/
theorem stopsAt_of_run_forgeHost :
    ∃ failure stop, (exec (forgePipeline.run [redOwner.tool]) forgeHost).1 = .error failure ∧
      forgePipeline.StopsAt [redOwner.tool] forgeHost failure
        (exec (forgePipeline.run [redOwner.tool]) forgeHost).2 stop ∧
      stop.isEarly = false ∧
      (exec (forgePipeline.run [redOwner.tool]) forgeHost).2.files.get?
        ["src", "org", "generated", "Old.java"] = none := by
  obtain ⟨hgone, hnot⟩ : (exec (forgePipeline.run [redOwner.tool]) forgeHost).2.files.get?
        ["src", "org", "generated", "Old.java"] = none ∧
      (exec (forgePipeline.run [redOwner.tool]) forgeHost).1.isOk = false := by
    decide +kernel
  have hspot : forgePipeline.layout.spot forgeHost.files = some ["src", "org", "generated"] := by
    decide
  have hroot : ∀ loc, forgePipeline.layout.spot forgeHost.files = some loc →
      ∀ l, loc.isPrefixOf l = true → forgeFrame.kept l := by
    intro loc hloc l hl
    obtain rfl := Option.some.inj (hspot.symm.trans hloc)
    exact hl
  have hmerger : ∀ reports host₁,
      exec (installTools [redOwner.tool]) forgeHost = (.ok reports, host₁) →
      forgePipeline.merger.StaysOff forgePipeline.schemaRoot forgePipeline.mergedOutput forgeFrame
        host₁ := by
    intro reports host₁ h
    have hmachine : SameMachine forgeHost host₁ :=
      sameMachine_installTools (List.forall_mem_singleton.2 leavesMachine_jarTool) h
    exact staysOff_merger (keeps_installTools installsSpare_red h) hmachine.programOf
  have hrun : exec (forgePipeline.run [redOwner.tool]) forgeHost =
      ((exec (forgePipeline.run [redOwner.tool]) forgeHost).1,
        (exec (forgePipeline.run [redOwner.tool]) forgeHost).2) := rfl
  rcases Pipeline.stopsAt_of_run wellFormed_forgeFiles.isTree hroot installsSpare_red hmerger hrun with
    ⟨summary, hok, -⟩ | ⟨failure, stop, hfails, hstop, hearly⟩
  · rw [hok] at hnot
    contradiction
  · refine ⟨failure, stop, hfails, hstop, ?_, hgone⟩
    rw [Bool.eq_false_iff]
    intro his
    have hsame := (hearly his).1 _ hspot ["src", "org", "generated", "Old.java"] (by decide)
    rw [hgone] at hsame
    exact absurd hsame (by decide)

end RamlBuild
