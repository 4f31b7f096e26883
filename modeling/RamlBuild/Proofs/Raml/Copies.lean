import RamlBuild.Proofs.Build.Directories
import RamlBuild.Proofs.Files.Components
import RamlBuild.Proofs.Files.Copying
import RamlBuild.Proofs.Program.Running
import RamlBuild.Raml.Docs

/-!
# A page and its copies

A page is copied to every directory whose path, with the page's name, has other components than the
path of the page. Such a path may still lead to the page: then the page is copied to itself, and
neither it nor what is copied from it afterwards holds anything.

## Main definitions

* `Files.Holds` — what is read by a path
* `CopiedToItself` — a directory in which the page is copied to itself
* `Copied` — what a run of copies leaves

## Main results

* `Copied.of_copyDocs` — the copies, one after the other
* `exists_page_of_run` — the page is where its path leads
* `copiesHold_iff` — when the page and its copies hold what was rendered
-/

namespace RamlBuild

open Build

variable {host host' : Host} {fs fs' fs'' : Files} {output dir p q : Path} {name : String}
  {dirs : List Path} {l loc : Location} {contents page : ByteArray}

/-- A path leads to a file with these contents. -/
def Files.Holds (fs : Files) (p : Path) (contents : ByteArray) : Prop :=
  ∃ l, fs.reach p = .ok l ∧ fs.contentsAt l = some contents

/-- The path of a copy is not that of the page, component by component, and leads to the page. -/
def CopiedToItself (fs : Files) (output : Path) (name : String) (dir : Path) : Prop :=
  (dir / name).sameAs output = false ∧
    ∃ l l', fs.reach (dir / name) = .ok l ∧ fs.reach output = .ok l' ∧ fs.SameFile l l'

/-- A file without other names is copied to itself only at its own location. -/
theorem not_copiedToItself (htarget : fs.reach (dir / name) = .ok loc)
    (houtput : fs.reach output = .ok l) (hne : loc ≠ l)
    (hunshared : (fs.get? loc).bind Entry.shared? = none) : ¬CopiedToItself fs output name dir := by
  rintro ⟨-, v, v', hv, hv', hsame⟩
  obtain rfl := Except.ok.inj (htarget.symm.trans hv)
  obtain rfl := Except.ok.inj (houtput.symm.trans hv')
  rcases hsame with hsame | ⟨n, hn, -⟩
  · exact hne hsame
  · rw [hunshared] at hn
    cases hn

/-- Copies of a page at a location were made in directories. They hold what the page held, and so
does everything that did, unless the page was copied to itself: then it is empty. -/
structure Copied (output : Path) (name : String) (dirs : List Path) (l : Location)
    (contents : ByteArray) (fs fs' : Files) : Prop where
  lasts : Files.Lasts fs fs'
  kept : (contents = .empty ∨ ∀ dir ∈ dirs, ¬CopiedToItself fs' output name dir) →
    ∀ v, fs.contentsAt v = some contents → fs'.contentsAt v = some contents
  holds : (contents = .empty ∨ ∀ dir ∈ dirs, ¬CopiedToItself fs' output name dir) →
    ∀ dir ∈ dirs, fs'.Holds (dir / name) contents
  emptied : (∃ dir ∈ dirs, CopiedToItself fs' output name dir) → fs'.contentsAt l = some .empty

namespace Copied

theorem nil (fs : Files) : Copied output name [] l contents fs fs :=
  ⟨.refl fs, fun _ _ h => h, by simp, by simp⟩

/-- The directory was made where it was missing. -/
theorem of_makesDirectories (h : Copied output name dirs l contents fs' fs'')
    (hmakes : Files.MakesDirectories fs fs') : Copied output name dirs l contents fs fs'' := by
  refine ⟨(Files.Lasts.of_makesDirectories hmakes).trans h.lasts, fun hcond v hv => ?_, h.holds,
    h.emptied⟩
  exact h.kept hcond v (by rwa [hmakes.contentsAt])

/-- A path of the page's components is passed over. -/
theorem skip (h : Copied output name dirs l contents fs fs') (hname : IsPlainName name)
    (hreach : fs.reach output = .ok l) (hcontents : fs.contentsAt l = some contents)
    (hsame : (dir / name).sameAs output = true) :
    Copied output name (dir :: dirs) l contents fs fs' := by
  have hneither : ¬CopiedToItself fs' output name dir := by
    rintro ⟨hother, -⟩
    rw [hsame] at hother
    contradiction
  have hrest : (contents = .empty ∨ ∀ d ∈ dir :: dirs, ¬CopiedToItself fs' output name d) →
      contents = .empty ∨ ∀ d ∈ dirs, ¬CopiedToItself fs' output name d :=
    Or.imp_right fun hall d hd => hall d (List.mem_cons_of_mem _ hd)
  refine ⟨h.lasts, fun hcond => h.kept (hrest hcond), fun hcond => ?_, ?_⟩
  · refine List.forall_mem_cons.2 ⟨⟨l, ?_, h.kept (hrest hcond) l hcontents⟩, h.holds (hrest hcond)⟩
    have hlast : (dir / name).walked.getLast? ≠ some .here := by
      rw [Path.walked_child hname, List.getLast?_concat]
      simp
    refine Files.reach_of_sameAs (by rwa [Path.sameAs_comm]) hlast ?_
    exact h.lasts.reach (Files.hasFile_of_contentsAt hcontents).isSome hreach
  · rintro ⟨d, hd, hcopied⟩
    rcases List.mem_cons.1 hd with rfl | hd
    · exact absurd hcopied hneither
    · exact h.emptied ⟨d, hd, hcopied⟩

/-- A copy is made, and then the others. -/
theorem cons {written : ByteArray} (hcopies : Files.Copies fs fs' (dir / name) l loc contents written)
    (h : Copied output name dirs l written fs' fs'') (hreach : fs.reach output = .ok l)
    (hcontents : fs.contentsAt l = some contents) (hother : (dir / name).sameAs output = false) :
    Copied output name (dir :: dirs) l contents fs fs'' := by
  have hfile := Files.hasFile_of_contentsAt hcopies.contentsAt_target
  have hpage := Files.hasFile_of_contentsAt hcopies.contentsAt_source
  have htarget : fs''.reach (dir / name) = .ok loc := h.lasts.reach hfile.isSome hcopies.reach
  have houtput : fs''.reach output = .ok l := (hcopies.lasts.trans h.lasts).reach
    (Files.hasFile_of_contentsAt hcontents).isSome hreach
  have hitself : CopiedToItself fs'' output name dir ↔ fs'.SameFile loc l := by
    rw [← h.lasts.sameFile_iff hfile hpage]
    constructor
    · rintro ⟨-, v, v', hv, hv', hsame⟩
      obtain rfl := Except.ok.inj (htarget.symm.trans hv)
      obtain rfl := Except.ok.inj (houtput.symm.trans hv')
      exact hsame
    · exact fun hsame => ⟨hother, loc, l, htarget, houtput, hsame⟩
  -- Where the contents last, what was written is what the page held.
  have hwritten : (contents = .empty ∨ ∀ d ∈ dir :: dirs, ¬CopiedToItself fs'' output name d) →
      written = contents ∧ (written = .empty ∨ ∀ d ∈ dirs, ¬CopiedToItself fs'' output name d) := by
    rintro (rfl | hall)
    · have hempty : written = .empty := by
        by_cases hsame : fs'.SameFile loc l
        · exact hcopies.of_sameFile hsame
        · exact hcopies.of_not_sameFile hsame
      exact ⟨hempty, .inl hempty⟩
    · obtain ⟨hdir, hrest⟩ := List.forall_mem_cons.1 hall
      exact ⟨hcopies.of_not_sameFile fun hsame => hdir (hitself.2 hsame), .inr hrest⟩
  refine ⟨hcopies.lasts.trans h.lasts, fun hcond v hv => ?_, fun hcond => ?_, ?_⟩
  · obtain ⟨rfl, hrest⟩ := hwritten hcond
    exact h.kept hrest v (hcopies.kept v hv)
  · obtain ⟨rfl, hrest⟩ := hwritten hcond
    exact List.forall_mem_cons.2
      ⟨⟨loc, htarget, h.kept hrest loc hcopies.contentsAt_target⟩, h.holds hrest⟩
  · rintro ⟨d, hd, hcopied⟩
    rcases List.mem_cons.1 hd with rfl | hd
    · -- What is empty stays so.
      have hempty := hcopies.of_sameFile (hitself.1 hcopied)
      have hkept := h.kept (.inl hempty) l hcopies.contentsAt_source
      rwa [hempty] at hkept
    · exact h.emptied ⟨d, hd, hcopied⟩

/-- The copies are made one after the other. -/
theorem of_copyDocs {copies : List Path} (hname : IsPlainName name) (htree : host.files.IsTree)
    (hreach : host.files.reach output = .ok l) (hcontents : host.files.contentsAt l = some contents)
    (h : exec (copyDocs output name dirs) host = (.ok copies, host')) :
    Copied output name dirs l contents host.files host'.files := by
  induction dirs generalizing host contents copies with
  | nil =>
    obtain ⟨-, rfl⟩ := Prod.mk.inj h
    exact .nil _
  | cons dir rest ih =>
    obtain ⟨⟨⟩, host₁, hcreate, h⟩ := exec_bind_ok h
    obtain ⟨hmakes, -⟩ := createDirectories_makes hcreate
    refine .of_makesDirectories ?_ hmakes
    have htree₁ := hmakes.isTree htree
    have hreach₁ := (Files.Lasts.of_makesDirectories hmakes).reach
      (Files.hasFile_of_contentsAt hcontents).isSome hreach
    rw [← hmakes.contentsAt] at hcontents
    simp only at h
    split at h
    · rename_i hsame
      exact (ih htree₁ hreach₁ hcontents h).skip hname hreach₁ hcontents hsame
    · rename_i hother
      obtain ⟨⟨⟩, host₂, hcopy, h⟩ := exec_bind_ok h
      obtain ⟨others, host₃, hothers, h⟩ := exec_bind_ok h
      obtain ⟨-, rfl⟩ := Prod.mk.inj h
      obtain ⟨hop, -⟩ := changing_ok (exec_within_ok hcopy)
      obtain ⟨loc, written, hcopies⟩ :=
        Files.exists_copies_of_copyFile htree₁ hreach₁ hcontents hop
      have hreach₂ := hcopies.lasts.reach (Files.hasFile_of_contentsAt hcontents).isSome hreach₁
      exact .cons hcopies (ih hcopies.isTree hreach₂ hcopies.contentsAt_source hothers) hreach₁
        hcontents (by simpa using hother)

end Copied

/-- The arguments of the program that writes pages. -/
def docsArguments (api : Path) : List String :=
  [api.text, "--theme", docsTheme]

/-- What is written to the output file of a command is where its path leads. -/
theorem exists_page_of_drain {bytes : ByteArray} (htree : host.files.IsTree)
    (h : exec (Command.drain (.file output) write page) host = (.ok bytes, host')) :
    host'.files.IsTree ∧ ∃ l, host'.files.reach output = .ok l ∧
      host'.files.contentsAt l = some page := by
  obtain ⟨host₁, htree₁, hwrite⟩ : ∃ host₁, host₁.files.IsTree ∧
      exec (writeBytes output page) host₁ = (.ok (), host') := by
    rw [Command.drain] at h
    split at h
    · obtain ⟨⟨⟩, host₁, hparent, h⟩ := exec_bind_ok h
      obtain ⟨⟨⟩, host₂, hwrite, h⟩ := exec_bind_ok h
      obtain ⟨-, rfl⟩ := Prod.mk.inj h
      exact ⟨host₁, (createDirectories_makes hparent).1.isTree htree, hwrite⟩
    · obtain ⟨⟨⟩, host₂, hwrite, h⟩ := exec_bind_ok h
      obtain ⟨-, rfl⟩ := Prod.mk.inj h
      exact ⟨host, htree, hwrite⟩
  obtain ⟨hop, -⟩ := changing_ok hwrite
  obtain ⟨l, mode, htakes, hfiles⟩ := Files.exists_takes_of_writeFile hop
  rw [hfiles]
  exact ⟨htakes.isTree htree₁, l, htakes.reach htree₁,
    Files.contentsAt_rewriteFile_of_sameFile htakes.ne_nil (.inl rfl)⟩

theorem exists_page_of_run {captured : Captured} {renderer api : Path}
    (hleaves : ∀ program, Command.locate host (docsCommand renderer api output) =
      .ok (program, host.files) → (program.leaves (docsArguments api) host.files).IsTree)
    (h : exec (docsCommand renderer api output).run host = (.ok captured, host')) :
    ∃ program, Command.locate host (docsCommand renderer api output) = .ok (program, host.files) ∧
      host'.files.IsTree ∧ ∃ l, host'.files.reach output = .ok l ∧ host'.files.contentsAt l =
        some (program.run (docsArguments api) host.files).stdout := by
  obtain ⟨program, seen, bytes, hlocate, hdrain⟩ := Command.run_ok rfl h
  obtain rfl := Command.eq_files_of_locate rfl hlocate
  refine ⟨program, hlocate, exists_page_of_drain ?_ hdrain⟩
  exact hleaves program hlocate

/-- The page and its copies hold what was rendered, unless the page was copied to itself; then it
holds nothing. -/
theorem copiesHold_iff {renderer api : Path} {written : List Path}
    (hleaves : ∀ program, Command.locate host (docsCommand renderer api output) =
      .ok (program, host.files) → (program.leaves (docsArguments api) host.files).IsTree)
    (h : exec (writeDocs renderer api output dirs) host = (.ok written, host')) :
    ∃ program name, Command.locate host (docsCommand renderer api output) =
        .ok (program, host.files) ∧ output.fileName? = some name ∧
      ((host'.files.Holds output (program.run (docsArguments api) host.files).stdout ∧
          ∀ dir ∈ dirs, host'.files.Holds (dir / name)
            (program.run (docsArguments api) host.files).stdout) ↔
        (program.run (docsArguments api) host.files).stdout = .empty ∨
          ∀ dir ∈ dirs, ¬CopiedToItself host'.files output name dir) ∧
      ((∃ dir ∈ dirs, CopiedToItself host'.files output name dir) →
        host'.files.Holds output .empty) := by
  rw [writeDocs, isFile, exec_asking_bind] at h
  split at h
  · exact absurd (Prod.mk.inj h).1 (by simp)
  obtain ⟨captured, host₁, hrun, h⟩ := exec_bind_ok h
  obtain ⟨program, hlocate, htree, l, hreach, hcontents⟩ :=
    exists_page_of_run hleaves (exec_within_ok hrun)
  cases hname : output.fileName? with
  | none =>
    rw [hname] at h
    exact absurd (Prod.mk.inj h).1 (by simp)
  | some name =>
    simp only [hname] at h
    obtain ⟨copies, host₂, hcopies, h⟩ := exec_bind_ok h
    obtain ⟨-, rfl⟩ := Prod.mk.inj h
    have hcopied := Copied.of_copyDocs (Path.isPlainName_of_fileName? hname) htree hreach hcontents
      hcopies
    have houtput := hcopied.lasts.reach (Files.hasFile_of_contentsAt hcontents).isSome hreach
    refine ⟨program, name, hlocate, rfl, ⟨?_, fun hcond => ?_⟩, fun hitself => ?_⟩
    · rintro ⟨⟨l', hreach', hpage⟩, -⟩
      obtain rfl := Except.ok.inj (houtput.symm.trans hreach')
      by_cases hitself : ∃ dir ∈ dirs, CopiedToItself host₂.files output name dir
      · rw [hcopied.emptied hitself] at hpage
        exact .inl (Option.some.inj hpage).symm
      · exact .inr fun dir hdir hcopy => hitself ⟨dir, hdir, hcopy⟩
    · exact ⟨⟨l, houtput, hcopied.kept hcond l hcontents⟩, hcopied.holds hcond⟩
    · exact ⟨l, houtput, hcopied.emptied hitself⟩

/-! ### A page in its own directory -/

/-- A project with a definition and a program that writes pages. -/
def paperFiles : Files where
  entries := [
    (["bin"], .directory 0o755),
    (["bin", "raml2html"], .file "page".toUTF8 0o755 none),
    (["api.raml"], .file "#%RAML 1.0".toUTF8 0o644 none),
    (["docs"], .directory 0o755)]
  workingDirectory := []

/-- The page of the project. -/
def paperPage : ByteArray :=
  "<html/>".toUTF8

/-- A program that writes the same page of every definition. -/
def paperProgram : Program where
  name := "raml2html"
  run _ fs := ⟨fs, paperPage, .empty, .exited 0⟩

/-- The host of the project. -/
def paperHost : Host :=
  { quietHost paperFiles with programOf := fun _ => some paperProgram }

/-- Writes the page of the project, and its copies. -/
def paperDocs (dirs : List Path) : Build (List Path) :=
  writeDocs ⟨"/bin/raml2html"⟩ ⟨"api.raml"⟩ ⟨"docs/api.html"⟩ dirs

/-- The host of the project with the page and its copies. -/
def paperLeft (dirs : List Path) : Host :=
  (exec (paperDocs dirs) paperHost).2

/-- A path that comes to the directory of the page by a way about loses the page. No error tells of
it. -/
theorem not_copiesHold_roundabout :
    (exec (paperDocs [⟨"docs/../docs"⟩]) paperHost).1 =
        .ok [⟨"docs/api.html"⟩, ⟨"docs/../docs/api.html"⟩] ∧
      (paperProgram.run (docsArguments ⟨"api.raml"⟩) paperFiles).stdout = paperPage ∧
      ¬(paperLeft [⟨"docs/../docs"⟩]).files.Holds ⟨"docs/api.html"⟩ paperPage := by
  refine ⟨by decide +kernel, rfl, ?_⟩
  rintro ⟨l, hreach, hpage⟩
  have hthere : (paperLeft [⟨"docs/../docs"⟩]).files.reach ⟨"docs/api.html"⟩ =
      .ok ["docs", "api.html"] := by
    decide +kernel
  have hempty : (paperLeft [⟨"docs/../docs"⟩]).files.contentsAt ["docs", "api.html"] =
      some .empty := by
    decide +kernel
  obtain rfl := Except.ok.inj (hthere.symm.trans hreach)
  rw [hempty] at hpage
  exact absurd hpage (by decide +kernel)

theorem locate_paperProgram :
    Command.locate paperHost (docsCommand ⟨"/bin/raml2html"⟩ ⟨"api.raml"⟩ ⟨"docs/api.html"⟩) =
      .ok (paperProgram, paperFiles) :=
  rfl

theorem isTree_paperFiles : paperFiles.IsTree :=
  (Files.wellFormed_of_entries (by decide +kernel) (by decide +kernel)).isTree

theorem not_copiedToItself_paperLeft :
    ¬CopiedToItself (paperLeft [⟨"src/main"⟩]).files ⟨"docs/api.html"⟩ "api.html" ⟨"src/main"⟩ := by
  have htarget : (paperLeft [⟨"src/main"⟩]).files.reach ((⟨"src/main"⟩ : Path) / "api.html") =
      .ok ["src", "main", "api.html"] := by
    decide +kernel
  have houtput : (paperLeft [⟨"src/main"⟩]).files.reach ⟨"docs/api.html"⟩ =
      .ok ["docs", "api.html"] := by
    decide +kernel
  exact not_copiedToItself htarget houtput (by decide +kernel) (by decide +kernel)

theorem copiesHold_iff_elsewhere :
    (paperLeft [⟨"src/main"⟩]).files.Holds ⟨"docs/api.html"⟩ paperPage ∧
      (paperLeft [⟨"src/main"⟩]).files.Holds ((⟨"src/main"⟩ : Path) / "api.html") paperPage := by
  have hexec : exec (paperDocs [⟨"src/main"⟩]) paperHost =
      (.ok [(⟨"docs/api.html"⟩ : Path), ⟨"src/main/api.html"⟩], paperLeft [⟨"src/main"⟩]) :=
    exec_eq_of_fst (by decide +kernel)
  have hleaves : ∀ program, Command.locate paperHost
      (docsCommand ⟨"/bin/raml2html"⟩ ⟨"api.raml"⟩ ⟨"docs/api.html"⟩) = .ok (program, paperFiles) →
        (program.leaves (docsArguments ⟨"api.raml"⟩) paperFiles).IsTree := by
    intro program hlocate
    obtain ⟨rfl, -⟩ := Prod.mk.inj (Except.ok.inj (hlocate.symm.trans locate_paperProgram))
    exact isTree_paperFiles
  obtain ⟨program, name, hlocate, hname, ⟨-, hholds⟩, -⟩ := copiesHold_iff hleaves hexec
  obtain ⟨rfl, -⟩ := Prod.mk.inj (Except.ok.inj (hlocate.symm.trans locate_paperProgram))
  have hpage : (⟨"docs/api.html"⟩ : Path).fileName? = some "api.html" := by decide +kernel
  obtain rfl := Option.some.inj (hpage.symm.trans hname)
  obtain ⟨houtput, hcopies⟩ :=
    hholds (.inr (List.forall_mem_singleton.2 not_copiedToItself_paperLeft))
  exact ⟨houtput, hcopies _ List.mem_cons_self⟩

end RamlBuild
