import RamlBuild.Proofs.Build.Ground
import RamlBuild.Proofs.Raml.Generating

/-!
# Merging and generating on twins

A merge whose program does not see a part of the tree does the same whatever is in there. A generation
that begins with a sweep of this part runs its generator on trees that are the same, so what it leaves
is told by the generator.

## Main definitions

* `Program.Blind` — what a program does is determined by what is off the part
* `MergeTool.Blind` — the merge tool and its library are off the part
* `Program.Functional` — what a program leaves is told by the entries that it finds
* `Layout.Inside`, `Layout.ground` — the part at and below the root of a layout

## Main results

* `MergeTool.Blind.twins_of_run` — a merge leaves twins
* `Layout.twins_of_sweep` — after a sweep the trees are the same
* `GeneratorTool.twins_of_produce` — the generator leaves the same
-/

namespace RamlBuild

open Build

variable {g : Ground} {a b a' b' : Host} {p output schemaRoot api : Path} {layout : Layout}
  {fs fs' : Files} {loc l : Location} {name : String}

/-! ### Output in a file -/

namespace Ground

theorem Sound.determined_writeBytes {contents : ByteArray} (hg : g.Sound)
    (hleads : g.first.LeadsBy g.ways p) : Determined g.Alike (writeBytes p contents) := by
  intro a b r s a' b' htwins ha hb
  have h := htwins.files
  have hsees := hg.sees hleads _ _ h
  have hapart : ∀ {fs : Files}, fs.LeadsBy g.ways p → fs.LeadsBy (g.frame.Apart fs) p :=
    fun hfs => hfs.mono fun _ _ => ⟨id, fun _ hl => hl.elim⟩
  have hkeeps := (Frame.stands_writeBytes (hg.isTree_of_alike h) (hapart (h.leadsBy hleads)) ha).1
  have hkeeps' :=
    (Frame.stands_writeBytes (hg.isTree_of_alike' h) (hapart (h.leadsBy' hg hleads)) hb).1
  obtain ⟨target, hresolve, hdirectory, hwrite⟩ := Files.writeFile_ok (changing_ok ha).1
  obtain ⟨target', hresolve', -, hwrite'⟩ := Files.writeFile_ok (changing_ok hb).1
  rw [Files.resolve, hsees.locate, ← Files.resolve, hresolve] at hresolve'
  obtain rfl := Except.ok.inj hresolve'
  have hoff := hsees.off _ _ hresolve
  have hne : target ≠ [] := by
    rintro rfl
    exact hdirectory _ Files.get?_nil
  rw [h.alikeOff.get?_eq target hoff] at hwrite'
  refine ⟨rfl, htwins.of_sameMachine (sameMachine_changing ha) (sameMachine_changing hb) ?_⟩
  refine h.next ?_ hkeeps hkeeps' ?_ ?_
  · rw [hwrite, hwrite']
    exact h.alikeOff.rewriteFile hne hoff
  · exact hwrite ▸ h.distinct.rewriteFile hne
  · exact hwrite' ▸ h.distinct'.rewriteFile hne

/-- Emptying a stream into a file off the part is determined. -/
theorem Sound.determined_drain {shared : ByteArray → Build Unit} {bytes : ByteArray} (hg : g.Sound)
    (hleads : g.first.LeadsBy g.ways p) :
    Determined g.Alike (Command.drain (.file p) shared bytes) := by
  have hwrites : Determined g.Alike (do writeBytes p bytes; pure ByteArray.empty) :=
    .bind (hg.determined_writeBytes hleads) fun _ => .pure _
  unfold Command.drain
  simp only
  split
  · rename_i parent hparent
    exact .bind (hg.determined_createDirectories (hleads.parent hparent)) fun _ => hwrites
  · exact hwrites

end Ground

/-! ### Commands -/

/-- What a program leaves off the part, and what it writes, is determined by what is off the part. -/
structure Program.Blind (program : Program) (arguments : List String) (g : Ground) : Prop where
  leaves : ∀ fs fs', g.Alike fs fs' →
    g.Alike (program.leaves arguments fs) (program.leaves arguments fs')
  stdout : ∀ fs fs', g.Alike fs fs' →
    (program.run arguments fs').stdout = (program.run arguments fs).stdout

/-- A command that writes to a file off the part leaves twins when its program does not see the
part. -/
theorem Command.twins_of_run {cmd : Command} {captured captured' : Captured} (hg : g.Sound)
    (hstderr : cmd.stderr = .capture) (hdirectory : cmd.directory = none)
    (hstdout : cmd.stdout = .file p) (hleads : g.first.LeadsBy g.ways p)
    (hcandidates : ∀ q ∈ cmd.candidates a.searchPath, g.first.LeadsBy g.ways q)
    (hprogram : ∀ program seen, locate a cmd = .ok (program, seen) →
      program.Blind cmd.arguments g)
    (htwins : Twins g.Alike a b) (ha : exec cmd.run a = (.ok captured, a'))
    (hb : exec cmd.run b = (.ok captured', b')) : Twins g.Alike a' b' := by
  obtain ⟨program, seen, bytes, hlocate, hdrain⟩ := run_ok hstderr ha
  obtain ⟨program', seen', bytes', hlocate', hdrain'⟩ := run_ok hstderr hb
  have hsame : program' = program := by
    have heq := locate_fst_eq hdirectory htwins.programOf htwins.searchPath fun q hq =>
      htwins.files.alikeOff.stat_eq (hg.sees (hcandidates q hq) _ _ htwins.files)
    rw [hlocate, hlocate'] at heq
    exact Except.ok.inj heq
  subst hsame
  have hblind := hprogram _ _ hlocate
  have hfiles := hblind.leaves _ _ htwins.files
  have hseen := eq_files_of_locate hdirectory hlocate
  have hseen' := eq_files_of_locate hdirectory hlocate'
  rw [← files_afterProgram hdirectory hlocate, ← files_afterProgram hdirectory hlocate'] at hfiles
  have htwins₁ : Twins g.Alike (afterProgram cmd program' seen a) (afterProgram cmd program' seen' b) :=
    htwins.of_sameMachine (sameMachine_afterProgram ..) (sameMachine_afterProgram ..) hfiles
  rw [hstdout, hseen'] at hdrain'
  rw [hstdout, hseen] at hdrain
  rw [hblind.stdout _ _ htwins.files] at hdrain'
  rw [hseen, hseen'] at htwins₁
  exact (hg.determined_drain hleads htwins₁ hdrain hdrain').2

/-! ### Merging -/

/-- The merge tool and its library are off the part, and the merge tool, wherever it finds the files as
they are once an earlier library is removed, does not see the part. -/
structure MergeTool.Blind (tool : MergeTool) (schemaRoot output : Path) (g : Ground) (host : Host) :
    Prop where
  library : g.first.LeadsBy g.ways output
  library_solid : g.Solid output
  candidates : ∀ p ∈ (tool.command schemaRoot output).candidates host.searchPath,
    g.first.LeadsBy g.ways p
  program : ∀ fs program seen, fs = host.files ∨ host.files.removeFile output = .ok fs →
    Command.locate { host with files := fs } (tool.command schemaRoot output) = .ok (program, seen) →
    program.Blind (tool.command schemaRoot output).arguments g

/-- A merge that succeeds has removed an earlier library and run the merge tool. -/
theorem MergeTool.run_ok {tool : MergeTool} (h : exec (tool.run schemaRoot output) a = (.ok (), a')) :
    ∃ a₁ captured, (if a.files.holds output then exec (removeFile output) a = (.ok (), a₁)
        else a₁ = a) ∧
      exec (tool.command schemaRoot output).run a₁ = (.ok captured, a') := by
  rw [run, isFile, exec_asking_bind] at h
  split at h
  · exact absurd (Prod.mk.inj h).1 (by simp)
  rw [isDirectory, exec_asking_bind] at h
  split at h
  · exact absurd (Prod.mk.inj h).1 (by simp)
  rw [holds, exec_asking_bind] at h
  split at h
  · rename_i hholds
    obtain ⟨⟨⟩, a₁, hremove, h⟩ := exec_bind_ok h
    obtain ⟨captured, a₂, hrun, h⟩ := exec_bind_ok h
    obtain ⟨-, rfl⟩ := Prod.mk.inj h
    exact ⟨a₁, captured, by rw [if_pos hholds, hremove], exec_within_ok hrun⟩
  · rename_i hholds
    obtain ⟨captured, a₂, hrun, h⟩ := exec_bind_ok h
    obtain ⟨-, rfl⟩ := Prod.mk.inj h
    exact ⟨a, captured, by rw [if_neg hholds], exec_within_ok hrun⟩

theorem MergeTool.sameMachine_of_run {tool : MergeTool}
    (h : exec (tool.run schemaRoot output) a = (.ok (), a')) : SameMachine a a' := by
  obtain ⟨a₁, captured, hclear, hrun⟩ := MergeTool.run_ok h
  have hfirst : SameMachine a a₁ := by
    split at hclear
    · exact sameMachine_changing hclear
    · rw [hclear]
      exact chains_sameMachine.refl a
  exact chains_sameMachine.trans hfirst (Command.sameMachine_run rfl hrun)

/-- A merge leaves twins. -/
theorem MergeTool.Blind.twins_of_run {tool : MergeTool} (hblind : tool.Blind schemaRoot output g a)
    (hg : g.Sound) (htwins : Twins g.Alike a b)
    (ha : exec (tool.run schemaRoot output) a = (.ok (), a'))
    (hb : exec (tool.run schemaRoot output) b = (.ok (), b')) : Twins g.Alike a' b' := by
  have hsees := hg.sees hblind.library
  obtain ⟨a₁, captured, hclear, hrun⟩ := MergeTool.run_ok ha
  obtain ⟨b₁, captured', hclear', hrun'⟩ := MergeTool.run_ok hb
  rw [htwins.files.alikeOff.holds_eq (hsees _ _ htwins.files)] at hclear'
  have hstep : Twins g.Alike a₁ b₁ ∧
      (a₁.files = a.files ∨ a.files.removeFile output = .ok a₁.files) ∧ SameMachine a a₁ := by
    split at hclear
    · rename_i hholds
      rw [if_pos hholds] at hclear'
      exact ⟨(hsees.determined_removeFile hblind.library_solid htwins hclear hclear').2,
        .inr (changing_ok hclear).1, sameMachine_changing hclear⟩
    · rename_i hholds
      rw [if_neg hholds] at hclear'
      subst hclear hclear'
      exact ⟨htwins, .inl rfl, chains_sameMachine.refl _⟩
  obtain ⟨htwins₁, hfiles, hmachine⟩ := hstep
  refine Command.twins_of_run hg rfl rfl rfl hblind.library ?_ ?_ htwins₁ hrun hrun'
  · rw [hmachine.searchPath]
    exact hblind.candidates
  · intro program seen hlocate
    refine hblind.program a₁.files program seen hfiles ?_
    rw [← hlocate]
    exact Command.locate_congr rfl hmachine.programOf.symm hmachine.searchPath.symm

/-! ### Sweeping -/

/-- What is at and below the root of a layout, where two trees start. Where the root is a link nothing
is below it. -/
def Layout.Inside (layout : Layout) (fs fs' : Files) (l : Location) : Prop :=
  ∃ loc, fs.place layout.root = .ok loc ∧ fs.linkAt loc = none ∧ fs'.linkAt loc = none ∧
    loc.isPrefixOf l = true

/-- The part at and below the root of a layout, and ways around it. -/
def Layout.ground (layout : Layout) (ways : Location → Prop) (fs fs' : Files) : Ground :=
  ⟨layout.Inside fs fs', ways, fs, fs'⟩

/-- The root has a name without a dot at its front. -/
theorem Layout.sound_ground {ways : Location → Prop} (hways : ∀ v, ways v → ¬layout.Inside fs fs' v)
    (htree : fs.IsTree) (htree' : fs'.IsTree) : (layout.ground ways fs fs').Sound where
  off := hways
  isTree := htree
  isTree' := htree'
  dotless := by
    rintro l n ⟨loc, hplace, hlink, hlink', hbelow⟩
    obtain ⟨names, hnames⟩ := List.isPrefixOf_iff_prefix.1 hbelow
    rcases List.eq_nil_or_concat names with rfl | ⟨init, last, rfl⟩
    · right
      obtain ⟨-, dir, -, hstep⟩ := (Files.place_child_iff isPlainName_generated).1 hplace
      rw [Files.eq_append_of_takeStep hstep, List.append_nil] at hnames
      obtain rfl : "generated" = n := (List.append_inj' hnames rfl).2 |> List.singleton_inj.1
      decide
    · left
      rw [List.concat_eq_append, ← List.append_assoc] at hnames
      have hinit : loc ++ init = l := (List.append_inj' hnames rfl).1
      exact ⟨loc, hplace, hlink, hlink', List.isPrefixOf_iff_prefix.2 ⟨init, hinit⟩⟩

namespace GeneratorTool

theorem sameMachine_sweep : Always SameMachine (sweep layout) := by
  refine Always.bind chains_sameMachine (Always.asking chains_sameMachine _) fun there => ?_
  split
  · exact Always.within sameMachine_changing
  · exact Always.pure chains_sameMachine _

/-- A sweep finds nothing, or removes what is there. -/
theorem sweep_ok (h : exec (sweep layout) a = (.ok (), a')) :
    (a.files.holds layout.root = false ∧ a'.files = a.files) ∨
      a.files.holds layout.root = true ∧ a.files.removeTree layout.root = .ok a'.files := by
  rw [sweep, holds, exec_asking_bind] at h
  cases hholds : a.files.holds layout.root with
  | false =>
    rw [hholds] at h
    obtain ⟨-, rfl⟩ := Prod.mk.inj h
    exact .inl ⟨rfl, rfl⟩
  | true =>
    rw [hholds] at h
    exact .inr ⟨rfl, (changing_ok (exec_within_ok h)).1⟩

theorem distinct_of_sweep (hd : a.files.Distinct) (h : exec (sweep layout) a = (.ok (), a')) :
    a'.files.Distinct := by
  rcases sweep_ok h with ⟨-, hfiles⟩ | ⟨-, hremove⟩
  · rwa [hfiles]
  · exact Files.removeTree_distinct hremove hd

/-- Where the root is no link, a sweep leaves nothing at and below it, and everything else. -/
theorem get?_of_sweep (htree : a.files.IsTree) (hplace : a.files.place layout.root = .ok loc)
    (hlink : a.files.linkAt loc = none) (h : exec (sweep layout) a = (.ok (), a')) (l : Location) :
    a'.files.get? l = if loc.isPrefixOf l then none else a.files.get? l := by
  have hswept := exec_sweep_ok htree h
  split
  · rename_i hbelow
    rw [Option.eq_none_iff_forall_ne_some]
    intro e he
    obtain ⟨rfl, hnot, target, rfl⟩ := hswept.gone loc hplace l hbelow e he
    rcases sweep_ok h with ⟨-, hfiles⟩ | ⟨hholds, -⟩
    · rw [hfiles, ← Files.linkAt_eq_some_iff, hlink] at he
      exact absurd he.symm (Option.some_ne_none _)
    · exact Bool.noConfusion (hnot.symm.trans hholds)
  · rename_i hbelow
    refine hswept.other l fun loc' hplace' => ?_
    rwa [Except.ok.inj (hplace'.symm.trans hplace)]

/-- A sweep leaves trees the same that are. -/
theorem alikeOff_of_sweep (hsame : Files.Same a.files b.files) (htree : a.files.IsTree)
    (htree' : b.files.IsTree) (ha : exec (sweep layout) a = (.ok (), a'))
    (hb : exec (sweep layout) b = (.ok (), b')) :
    Files.AlikeOff (fun _ => False) a'.files b'.files := by
  have hholds := hsame.holds_eq (hsame.seesOff layout.root)
  rcases sweep_ok ha with ⟨hnot, hfiles⟩ | ⟨hthere, hremove⟩
  · rcases sweep_ok hb with ⟨-, hfiles'⟩ | ⟨hthere', -⟩
    · rw [hfiles, hfiles']
      exact hsame.toAlikeOff
    · exact Bool.noConfusion (hnot.symm.trans (hholds.symm.trans hthere'))
  · rcases sweep_ok hb with ⟨hnot', -⟩ | ⟨-, hremove'⟩
    · exact Bool.noConfusion (hnot'.symm.trans (hholds.trans hthere))
    · obtain ⟨loc, hplace, hworking, hget⟩ := Files.removeTree_ok htree hremove
      obtain ⟨loc', hplace', hworking', hget'⟩ := Files.removeTree_ok htree' hremove'
      rw [Files.place, (hsame.seesOff layout.root).locate, ← Files.place, hplace] at hplace'
      obtain rfl := Except.ok.inj hplace'
      obtain ⟨-, dir, -, hstep⟩ := (Files.place_child_iff Layout.isPlainName_generated).1 hplace
      have hne : loc ≠ [] := by
        rw [Files.eq_append_of_takeStep hstep]
        simp
      exact (hsame.eraseTree hne).congr (hget hne) (hget' hne) hworking hworking'

end GeneratorTool

/-- After a sweep the trees are the same: what was different is gone. -/
theorem Layout.twins_of_sweep {ways : Location → Prop} (hg : (layout.ground ways fs fs').Sound)
    (hleads : fs.LeadsBy ways layout.packageRoot)
    (htwins : Twins (layout.ground ways fs fs').Alike a b)
    (ha : exec (GeneratorTool.sweep layout) a = (.ok (), a'))
    (hb : exec (GeneratorTool.sweep layout) b = (.ok (), b')) : Twins Files.Same a' b' := by
  have h := htwins.files
  have htree : a.files.IsTree := hg.isTree_of_alike h
  have htree' : b.files.IsTree := hg.isTree_of_alike' h
  refine htwins.of_sameMachine (GeneratorTool.sameMachine_sweep ha) (GeneratorTool.sameMachine_sweep hb)
    ⟨?_, GeneratorTool.distinct_of_sweep h.distinct ha, GeneratorTool.distinct_of_sweep h.distinct' hb⟩
  by_cases hroot : ∃ loc, fs.place layout.root = .ok loc ∧ fs.linkAt loc = none ∧ fs'.linkAt loc = none
  · obtain ⟨loc, hplace, hlink, hlink'⟩ := hroot
    -- The place of the root has stayed, and there is still no link.
    have hplaceA : a.files.place layout.root = .ok loc :=
      h.keeps.place_child (hleads.mono fun _ hv => .inl hv) isPlainName_generated hplace
    have hplaceB : b.files.place layout.root = .ok loc :=
      (h.alikeOff.place_child (h.leadsBy hleads) hg.off isPlainName_generated).trans hplaceA
    have hinside : (layout.ground ways fs fs').inside loc :=
      ⟨loc, hplace, hlink, hlink', List.isPrefixOf_iff_prefix.2 (List.prefix_refl loc)⟩
    have hgets := GeneratorTool.get?_of_sweep htree hplaceA
      ((h.keeps.linkAt loc (.inr hinside)).trans hlink) ha
    have hgets' := GeneratorTool.get?_of_sweep htree' hplaceB
      ((h.keeps'.linkAt loc (.inr hinside)).trans hlink') hb
    refine ⟨fun l _ => ?_, ?_⟩
    · rw [hgets, hgets']
      split
      · rfl
      · rename_i hnot
        refine h.alikeOff.get?_eq l ?_
        rintro ⟨loc', hplace', -, -, hbelow⟩
        obtain rfl := Except.ok.inj (hplace.symm.trans hplace')
        exact hnot hbelow
    · rw [(GeneratorTool.exec_sweep_ok htree ha).workingDirectory,
        (GeneratorTool.exec_sweep_ok htree' hb).workingDirectory, h.alikeOff.workingDirectory]
  · have hnone : ∀ l, ¬(layout.ground ways fs fs').inside l :=
      fun l ⟨loc, hplace, hlink, hlink', _⟩ => hroot ⟨loc, hplace, hlink, hlink'⟩
    have hsame : Files.Same a.files b.files :=
      ⟨⟨fun l _ => h.alikeOff.get?_eq l (hnone l), h.alikeOff.workingDirectory⟩, h.distinct,
        h.distinct'⟩
    exact GeneratorTool.alikeOff_of_sweep hsame htree htree' ha hb

/-! ### Generating -/

/-- What a program leaves is told by the entries that it finds. -/
def Program.Functional (program : Program) (arguments : List String) : Prop :=
  ∀ fs fs', Files.Same fs fs' → Files.Same (program.leaves arguments fs) (program.leaves arguments fs')

theorem GeneratorTool.sameMachine_produce {tool : GeneratorTool} :
    Always SameMachine (tool.produce api layout) := by
  refine Always.bind chains_sameMachine
    (Always.within (Command.sameMachine_run rfl)) fun _ => ?_
  refine Always.bind chains_sameMachine (Always.asking chains_sameMachine _) fun there => ?_
  split
  · exact Always.pure chains_sameMachine _
  · exact Always.throw chains_sameMachine _

/-- The generator leaves the same when what it leaves is told by what it finds. -/
theorem GeneratorTool.twins_of_produce {tool : GeneratorTool} (htwins : Twins Files.Same a b)
    (hfunctional : ∀ program seen, (tool.command api layout).locate a = .ok (program, seen) →
      program.Functional (tool.command api layout).arguments)
    (ha : exec (tool.produce api layout) a = (.ok (), a'))
    (hb : exec (tool.produce api layout) b = (.ok (), b')) : Twins Files.Same a' b' := by
  obtain ⟨program, hlocate, -, hleft, -⟩ := (exec_produce ha).2 rfl
  obtain ⟨program', hlocate', -, hleft', -⟩ := (exec_produce hb).2 rfl
  have hprogram : program' = program := by
    have heq : ((tool.command api layout).locate b).map Prod.fst =
        ((tool.command api layout).locate a).map Prod.fst :=
      Command.locate_fst_eq rfl htwins.programOf htwins.searchPath
        fun q _ => htwins.files.stat_eq (htwins.files.seesOff q)
    rw [hlocate, hlocate'] at heq
    exact Except.ok.inj heq
  refine htwins.of_sameMachine (sameMachine_produce ha) (sameMachine_produce hb) ?_
  rw [hleft, hleft', hprogram]
  exact hfunctional _ _ hlocate _ _ htwins.files

end RamlBuild
