import RamlBuild.Proofs.Pipeline.Stops
import RamlBuild.Proofs.Raml.Blind
import RamlBuild.Proofs.Sources.Determined
import RamlBuild.Proofs.Tool.Blind

/-!
# Generating afresh

A run generates its sources from scratch: whatever stands at their root when it starts, it leaves the
same files and tells the same, but for the times. Up to the sweep nothing may see the root, so two
runs whose trees differ there only stay alike; the sweep makes their trees the same, and after it each
step is told by the tree.

## Main definitions

* `Pipeline.Blind` — nothing sees the root before the sweep, and the generator is told by what it finds

## Main results

* `determined_installTools` — installations that do not see a part of the tree
* `Pipeline.same_of_run` — two runs that start with other sources end with the same
-/

namespace RamlBuild

open Build

variable {g : Ground} {a b a' b' : Host} {tools : List Installer}

/-- Installations that do not see a part of the tree do the same on trees that differ there, and tell
the same but for the times. -/
theorem determined_installTools {reports reports' : List StageReport} (hg : g.Sound)
    (htools : ∀ tool ∈ tools, tool.Blind g ∧ ∃ site, tool.Outside g site)
    (htwins : Twins g.Alike a b) (ha : exec (installTools tools) a = (.ok reports, a'))
    (hb : exec (installTools tools) b = (.ok reports', b')) :
    reports.map (·.untimed) = reports'.map (·.untimed) ∧ Twins g.Alike a' b' := by
  induction tools generalizing a b reports reports' with
  | nil =>
    obtain ⟨hreports, rfl⟩ := Prod.mk.inj ha
    obtain ⟨hreports', rfl⟩ := Prod.mk.inj hb
    rw [← Except.ok.inj hreports, ← Except.ok.inj hreports']
    exact ⟨rfl, htwins⟩
  | cons tool rest ih =>
    obtain ⟨outcome, a₁, others, hfirst, hrest, rfl⟩ := installTools_cons_ok ha
    obtain ⟨outcome', b₁, others', hfirst', hrest', rfl⟩ := installTools_cons_ok hb
    obtain ⟨hblind, site, houtside⟩ := htools tool List.mem_cons_self
    obtain ⟨rfl, htwins₁⟩ := houtside.determined_install hg hblind htwins hfirst hfirst'
    obtain ⟨hothers, htwins'⟩ :=
      ih (fun t ht => htools t (List.mem_cons_of_mem _ ht)) htwins₁ hrest hrest'
    refine ⟨?_, htwins'⟩
    rw [List.map_cons, List.map_cons, hothers]
    rfl

namespace Pipeline

variable {p : Pipeline} {reports : List StageReport}

/-- Nothing sees a part of the tree before the sweep: neither the way to the root nor the tools nor the
merge. What the generator leaves, once the sweep is done, is told by what it finds. -/
structure Blind (p : Pipeline) (tools : List Installer) (g : Ground) (host : Host) : Prop where
  root : g.first.LeadsBy g.ways p.layout.packageRoot
  installs : ∀ tool ∈ tools, tool.Blind g ∧ ∃ site, tool.Outside g site
  merger : ∀ reports host₁, exec (installTools tools) host = (.ok reports, host₁) →
    p.merger.Blind p.schemaRoot p.mergedOutput g host₁
  generator : ∀ host₂ host₃, p.Merges tools host host₂ →
    exec (GeneratorTool.sweep p.layout) host₂ = (.ok (), host₃) →
    ∀ program seen, (p.generator.command p.api p.layout).locate host₃ = .ok (program, seen) →
      program.Functional (p.generator.command p.api p.layout).arguments

/-- The parts of a run that succeeds. -/
theorem stages_ok (h : exec (p.stages tools) a = (.ok reports, a')) :
    ∃ installs patches a₁ a₂ a₃ a₄, exec (installTools tools) a = (.ok installs, a₁) ∧
      exec (p.merger.run p.schemaRoot p.mergedOutput) a₁ = (.ok (), a₂) ∧
      exec (GeneratorTool.sweep p.layout) a₂ = (.ok (), a₃) ∧
      exec (p.generator.produce p.api p.layout) a₃ = (.ok (), a₄) ∧
      exec (applyEach p.layout p.patches) a₄ = (.ok patches, a') ∧
      reports = installs ++ ⟨"merge-raml", a₂.now, .completed⟩ ::
        ⟨"generate", a₄.now, .completed⟩ :: patches := by
  rw [stages] at h
  obtain ⟨installs, a₁, hinstalls, h⟩ := exec_bind_ok h
  obtain ⟨⟨⟩, a₂, hmerge, h⟩ := exec_bind_ok h
  rw [exec_bind_of_ok (exec_report ..)] at h
  obtain ⟨⟨⟩, a₄, hgenerator, h⟩ := exec_bind_ok h
  rw [exec_bind_of_ok (exec_report ..)] at h
  obtain ⟨patches, a₅, hpatches, h⟩ := exec_bind_ok h
  obtain ⟨hreports, rfl⟩ := Prod.mk.inj h
  obtain ⟨a₃, hsweep, hproduce⟩ : ∃ a₃, exec (GeneratorTool.sweep p.layout) a₂ = (.ok (), a₃) ∧
      exec (p.generator.produce p.api p.layout) a₃ = (.ok (), a₄) := by
    rcases GeneratorTool.run_cases hgenerator with
      ⟨-, ⟨_, heq⟩, -⟩ | ⟨-, ⟨_, heq, -⟩ | hparts⟩
    · cases heq
    · cases heq
    · exact hparts
  have hdirectory : a₄.files.isDirectory p.layout.root = true := by
    obtain ⟨program, -, -, -, hdirectory⟩ := (GeneratorTool.exec_produce hproduce).2 rfl
    exact hdirectory
  rw [applyPatches, isDirectory, exec_asking_bind, hdirectory, if_pos rfl] at hpatches
  exact ⟨installs, patches, a₁, a₂, a₃, a₄, hinstalls, hmerge, hsweep, hproduce, hpatches,
    (Except.ok.inj hreports).symm⟩

/-- What a run leaves and tells has nothing to do with what was generated before. Two runs start from
trees that differ at and below the root only, where nothing but the sweep sees anything and the
generator is told by what it finds. When both succeed, they leave the same files and tell the same but
for the times. -/
theorem same_of_run {ways : Location → Prop} {summary summary' : Summary}
    (hblind : p.Blind tools (p.layout.ground ways a.files b.files) a)
    (hways : ∀ v, ways v → ¬p.layout.Inside a.files b.files v)
    (htwins : Twins (Files.AlikeOff (p.layout.Inside a.files b.files)) a b)
    (hwell : a.files.WellFormed) (hwell' : b.files.WellFormed)
    (ha : exec (p.run tools) a = (.ok summary, a'))
    (hb : exec (p.run tools) b = (.ok summary', b')) :
    (∀ l, b'.files.get? l = a'.files.get? l) ∧
      summary.stages.map (·.untimed) = summary'.stages.map (·.untimed) := by
  have hg := p.layout.sound_ground hways hwell.isTree hwell'.isTree
  have hstart : Twins (p.layout.ground ways a.files b.files).Alike a b :=
    htwins.imp ⟨htwins.files, .refl _ _, .refl _ _, hwell.distinct, hwell'.distinct⟩
  obtain ⟨installs, patches, a₁, a₂, a₃, a₄, hinstall, hmerge, hsweep, hproduce, hpatch, hreports⟩ :=
    stages_ok (summarize_ok ha)
  obtain ⟨installs', patches', b₁, b₂, b₃, b₄, hinstall', hmerge', hsweep', hproduce', hpatch',
    hreports'⟩ := stages_ok (summarize_ok hb)
  obtain ⟨hinstalls, htwins₁⟩ :=
    determined_installTools hg hblind.installs hstart hinstall hinstall'
  have htwins₂ := (hblind.merger installs a₁ hinstall).twins_of_run hg htwins₁ hmerge hmerge'
  have htwins₃ : Twins Files.Same a₃ b₃ :=
    Layout.twins_of_sweep hg hblind.root htwins₂ hsweep hsweep'
  have hfunctional := hblind.generator a₂ a₃ ⟨installs, a₁, hinstall, hmerge⟩ hsweep
  have htwins₄ := GeneratorTool.twins_of_produce htwins₃ hfunctional hproduce hproduce'
  obtain ⟨hpatches, htwins'⟩ := determined_applyEach htwins₄ hpatch hpatch'
  refine ⟨fun l => htwins'.files.get?_eq l id, ?_⟩
  rw [hreports, hreports', List.map_append, List.map_append, List.map_cons, List.map_cons,
    List.map_cons, List.map_cons, hinstalls, hpatches]
  rfl

end Pipeline

/-! ### Other sources before

A project is generated twice: once where an old source stands, and once where more are left over. -/

theorem blind_jarTool {name version : String} (hsees : g.Sees (jarPath name))
    (hsolid : g.Solid (jarPath name)) : (jarTool name version).Blind g where
  resolveVersion := .pure _
  artifactsPresent := .asking fun fs fs' h => h.alikeOff.hasEntry_eq (hsees fs fs' h)
  removeArtifacts := by
    refine .bind (.asking fun fs fs' h => h.alikeOff.hasEntry_eq (hsees fs fs' h)) fun there => ?_
    split
    · exact hsees.determined_removeFile hsolid
    · exact .pure _
  download := fun _ _ _ => .pure _
  buildAndInstall := fun _ _ _ => hsees.determined_writeAtomically hsolid

/-- The project with more sources that were generated before. -/
def mintFiles : Files :=
  { forgeFiles with
    entries := forgeFiles.entries ++ [
      (["src", "org", "generated", "model"], .directory 0o755),
      (["src", "org", "generated", "model", "Left.java"], .file "class Left {}".toUTF8 0o644 none)] }

/-- The files with a source that was generated. -/
def withNote (fs : Files) : Files :=
  ((fs.put ["src", "org", "generated"] (.directory 0o755)).put
    ["src", "org", "generated", "model"] (.directory 0o755)).put
    ["src", "org", "generated", "model", "Note.java"]
    (.file "public interface Note \x7b\n  int getCount();\n\x7d\n".toUTF8 0o644 none)

/-- A program that leaves a source when it is run with a jar. -/
def mintTool : Program where
  name := "tool"
  run arguments fs :=
    ⟨if arguments.contains "-jar" then withNote fs else fs, "#%RAML 1.0 Library".toUTF8, .empty,
      .exited 0⟩

/-- A host of the project. -/
def mintHost (files : Files) : Host :=
  { quietHost files with searchPath := [⟨"/bin"⟩], programOf := fun _ => some mintTool }

/-- The pipeline of the project. -/
def mintPipeline : Pipeline :=
  { forgePipeline with patches := [.boxedTypes] }

/-- Where the paths of the pipeline lead by, above the root. -/
def mintWays (v : Location) : Prop :=
  v ∈ ([[], ["bin"], ["bin", "merge-raml"], ["schema"], ["schema", "library.raml"], ["src"],
    ["src", "org"], ["tools"], ["tools", "red.lock"], ["tools", "red.jar"]] : List Location)

/-- The part of the project that is generated. -/
def mintGround : Ground :=
  mintPipeline.layout.ground mintWays forgeFiles mintFiles

theorem wellFormed_mintFiles : mintFiles.WellFormed :=
  Files.wellFormed_of_entries (by decide) (by decide)

theorem place_mintRoot :
    forgeFiles.place mintPipeline.layout.root = .ok ["src", "org", "generated"] := by
  decide

theorem inside_mintGround {l : Location} :
    mintGround.inside l ↔ (["src", "org", "generated"] : Location).isPrefixOf l = true := by
  constructor
  · rintro ⟨loc, hplace, -, -, hbelow⟩
    rwa [Except.ok.inj (place_mintRoot.symm.trans hplace)]
  · exact fun hbelow => ⟨_, place_mintRoot, by decide, by decide, hbelow⟩

theorem mintWays_off (v : Location) (hv : mintWays v) : ¬mintGround.inside v := by
  rw [inside_mintGround]
  revert v
  unfold mintWays
  decide

theorem linkAt_mintWays (v : Location) (hv : mintWays v) : forgeFiles.linkAt v = none := by
  revert v
  unfold mintWays
  decide

theorem sound_mintGround : mintGround.Sound :=
  Layout.sound_ground mintWays_off wellFormed_forgeFiles.isTree wellFormed_mintFiles.isTree

theorem twins_mintHost :
    Twins (Files.AlikeOff (mintPipeline.layout.Inside forgeFiles mintFiles)) (mintHost forgeFiles)
      (mintHost mintFiles) where
  files := by
    refine ⟨fun l hl => ?_, rfl⟩
    have hnot := mt inside_mintGround.2 hl
    show mintFiles.get? l = forgeFiles.get? l
    unfold mintFiles Files.get?
    split
    · rfl
    · -- What was added is below the root.
      have hmore : ([(["src", "org", "generated", "model"], .directory 0o755),
          (["src", "org", "generated", "model", "Left.java"],
            .file "class Left {}".toUTF8 0o644 none)] : List (Location × Entry)).lookup l = none := by
        rw [List.lookup_eq_none_iff]
        intro x hx
        rw [bne_iff_ne]
        rintro rfl
        refine hnot ?_
        rcases List.mem_pair.1 hx with rfl | rfl <;> decide
      rw [List.lookup_append, hmore, Option.or_none]
  searchPath := rfl
  programOf := rfl
  network := rfl
  environment := rfl
  system := rfl
  honest := fun _ => nofun
  honest' := fun _ => nofun

theorem leadsBy_mint :
    forgeFiles.LeadsBy mintWays ⟨"/tools/red.jar"⟩ ∧
      forgeFiles.LeadsBy mintWays mintPipeline.layout.packageRoot ∧
      forgeFiles.LeadsBy mintWays ⟨"/bin/merge-raml"⟩ ∧
      forgeFiles.LeadsBy mintWays ⟨"/schema/library.raml"⟩ := by
  refine ⟨⟨⟨[[], ["tools"], ["tools", "red.jar"]], _⟩, rfl, ?_⟩,
    ⟨⟨[[], ["src"], ["src", "org"]], _⟩, rfl, ?_⟩,
    ⟨⟨[[], ["bin"], ["bin", "merge-raml"]], _⟩, rfl, ?_⟩,
    ⟨⟨[[], ["schema"], ["schema", "library.raml"]], _⟩, rfl, ?_⟩⟩ <;>
  · unfold mintWays
    decide

theorem outside_red : redOwner.tool.Outside mintGround redOwner.site where
  root := rfl
  lockFile := rfl
  name := by decide
  placed := placed_red
  course := by
    rintro v (hway | rfl)
    · rcases List.mem_pair.1 hway with rfl | rfl <;> simp [mintGround, Layout.ground, mintWays]
    · simp [mintGround, Layout.ground, mintWays, redOwner, jarOwner, jarSite, Site.lock]

/-- The program leaves the same where it finds the same. -/
theorem functional_mintTool (arguments : List String) : mintTool.Functional arguments := by
  intro fs fs' h
  have hsame : Files.Same (mintTool.run arguments fs).files (mintTool.run arguments fs').files := by
    simp only [mintTool]
    split
    · exact ((h.put (by simp)).put (by simp)).put (by simp)
    · exact h
  exact ⟨⟨hsame.get?_eq, h.workingDirectory⟩, hsame.distinct, hsame.distinct'⟩

/-- A merge sees nothing that was generated. -/
theorem blind_merger {host : Host} (hprograms : host.programOf = fun _ => some mintTool) :
    mintPipeline.merger.Blind mintPipeline.schemaRoot mintPipeline.mergedOutput mintGround host where
  library := leadsBy_mint.2.2.2
  library_solid := Ground.solid_of_leads linkAt_mintWays leadsBy_mint.2.2.2
  candidates := by
    have hcandidates : (mintPipeline.merger.command mintPipeline.schemaRoot
        mintPipeline.mergedOutput).candidates host.searchPath = [⟨"/bin/merge-raml"⟩] := rfl
    rw [hcandidates]
    exact fun p hp => List.mem_singleton.1 hp ▸ leadsBy_mint.2.2.1
  program := by
    intro fs program seen hfs hlocate
    obtain ⟨⟨contents, hprogram⟩, -⟩ := Command.of_locate hlocate
    obtain rfl : mintTool = program := Option.some.inj ((congrFun hprograms contents).symm.trans hprogram)
    have harguments : (mintPipeline.merger.command mintPipeline.schemaRoot
        mintPipeline.mergedOutput).arguments.contains "-jar" = false := by decide
    have hleaves : ∀ fs, mintTool.leaves (mintPipeline.merger.command mintPipeline.schemaRoot
        mintPipeline.mergedOutput).arguments fs = fs := by
      intro fs
      simp only [Program.leaves, mintTool, harguments]
      rfl
    exact ⟨fun fs fs' h => by rwa [hleaves, hleaves], fun _ _ _ => rfl⟩

/-- Nothing sees what was generated before the sweep. -/
theorem blind_mintPipeline :
    mintPipeline.Blind [redOwner.tool] mintGround (mintHost forgeFiles) where
  root := leadsBy_mint.2.1
  installs := by
    rw [List.forall_mem_singleton]
    have hjar := leadsBy_mint.1
    exact ⟨blind_jarTool (sound_mintGround.sees hjar) (Ground.solid_of_leads linkAt_mintWays hjar),
      redOwner.site, outside_red⟩
  merger := by
    intro reports host₁ h
    have hmachine :=
      sameMachine_installTools (List.forall_mem_singleton.2 leavesMachine_jarTool) h
    exact blind_merger hmachine.programOf
  generator := by
    rintro host₂ host₃ ⟨reports, host₁, hinstall, hmerge⟩ hsweep program seen hlocate
    have hinstalled :=
      sameMachine_installTools (List.forall_mem_singleton.2 leavesMachine_jarTool) hinstall
    have hprograms : host₃.programOf = fun _ => some mintTool :=
      (GeneratorTool.sameMachine_sweep hsweep).programOf.trans
        ((MergeTool.sameMachine_of_run hmerge).programOf.trans hinstalled.programOf)
    obtain ⟨⟨contents, hprogram⟩, -⟩ := Command.of_locate hlocate
    obtain rfl : mintTool = program :=
      Option.some.inj ((congrFun hprograms contents).symm.trans hprogram)
    exact functional_mintTool _

/-- The old source and the ones that were left over make no difference. -/
theorem same_of_run_mintHost :
    ∃ summary summary' a' b',
      exec (mintPipeline.run [redOwner.tool]) (mintHost forgeFiles) = (.ok summary, a') ∧
      exec (mintPipeline.run [redOwner.tool]) (mintHost mintFiles) = (.ok summary', b') ∧
      (∀ l, b'.files.get? l = a'.files.get? l) ∧
      summary.stages.map (·.untimed) = summary'.stages.map (·.untimed) := by
  obtain ⟨summary, hfirst⟩ := exec_of_isOk (show
    (exec (mintPipeline.run [redOwner.tool]) (mintHost forgeFiles)).1.isOk = true by decide +kernel)
  obtain ⟨summary', hsecond⟩ := exec_of_isOk (show
    (exec (mintPipeline.run [redOwner.tool]) (mintHost mintFiles)).1.isOk = true by decide +kernel)
  have hblind : mintPipeline.Blind [redOwner.tool] (mintPipeline.layout.ground mintWays
      (mintHost forgeFiles).files (mintHost mintFiles).files) (mintHost forgeFiles) :=
    blind_mintPipeline
  exact ⟨summary, summary', _, _, hfirst, hsecond, Pipeline.same_of_run hblind mintWays_off
    twins_mintHost wellFormed_forgeFiles wellFormed_mintFiles hfirst hsecond⟩

end RamlBuild
