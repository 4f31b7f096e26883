import RamlBuild.Proofs.Build.Ground
import RamlBuild.Proofs.Build.Temporary
import RamlBuild.Proofs.Tool.Fits
import RamlBuild.Proofs.Tool.Minding

/-!
# Installations that do not see a part of the tree

When a tool has its site outside a part of the tree and its steps do not see what is in this part, its
installation does not see it either: it does the same and tells the same, whatever is in there.

## Main definitions

* `Installer.Outside` — the site of a tool is off the part
* `Installer.Blind` — the steps of a tool are determined by what is off the part

## Main results

* `Installer.Outside.determined_createBuildDirectory` — the build directory has the same name
* `Installer.Outside.determined_install` — the installation is determined by what is off the part
-/

namespace RamlBuild

open Build

namespace Files

variable {fs fs' : Files} {dir p : Path} {start ending : String} {loc : Location} {m n : Nat}

/-- The first label that is free is the same where the same labels are. -/
theorem temporaryPath_eq {loc' : Location} (hworking : fs'.workingDirectory = fs.workingDirectory)
    (h : fs.freePlace (fs.temporaryPath dir start ending) = .ok loc)
    (h' : fs'.freePlace (fs'.temporaryPath dir start ending) = .ok loc')
    (hentries : ∀ n,
      fs'.hasEntry (fs.workingDirectory.path / dir / (start ++ temporaryLabel n ++ ending)) =
        fs.hasEntry (fs.workingDirectory.path / dir / (start ++ temporaryLabel n ++ ending))) :
    fs'.temporaryPath dir start ending = fs.temporaryPath dir start ending := by
  obtain ⟨n, -, hpath, hfree, hbefore⟩ := temporaryPath_of_free h
  obtain ⟨n', -, hpath', hfree', hbefore'⟩ := temporaryPath_of_free h'
  unfold labeledPath at hpath hpath' hfree hfree' hbefore hbefore'
  rw [hworking, hentries] at hfree'
  have hn : n = n' := by
    rcases Nat.lt_trichotomy n n' with hlt | heq | hlt
    · have htaken := hbefore' n hlt
      rw [hworking, hentries, hfree] at htaken
      contradiction
    · exact heq
    · have htaken := hbefore n' hlt
      rw [hfree'] at htaken
      contradiction
  rw [hpath, hpath', hworking, hn]

theorem removeFile_notFound_iff :
    fs.removeFile p = .error .notFound ↔
      fs.place p = .error .notFound ∨ ∃ l, fs.place p = .ok l ∧ fs.get? l = none := by
  refine ⟨removeFile_notFound, ?_⟩
  rintro (hplace | ⟨l, hplace, hnone⟩)
  · simp only [removeFile, hplace, bind, Except.bind]
  · simp only [removeFile, hplace, entryAt, hnone, bind, Except.bind]

end Files

/-! ### Lock files -/

namespace Lock

variable {host host' : Host} {p : Path} {version : Option String}

/-- The version in a lock file is told by its text, or there is none. -/
theorem read_ok (honest : ∀ n, host.faults n ≠ some .notFound)
    (h : exec (Lock.read p) host = (.ok version, host')) :
    (∃ text, textAt host.files p = .ok (some text) ∧ version = some (Text.trimmed text)) ∨
      textAt host.files p = .error .notFound ∧ version = none := by
  rw [Lock.read] at h
  obtain ⟨result, host₁, hattempt, h⟩ := exec_bind_ok h
  rw [exec_attempt] at hattempt
  obtain ⟨hresult, rfl⟩ := Prod.mk.inj hattempt
  have hread := exec_eq_of_fst (Except.ok.inj hresult)
  cases result with
  | ok text =>
    obtain ⟨hversion, -⟩ := Prod.mk.inj h
    exact .inl ⟨text, (readText_ok hread).1, (Except.ok.inj hversion).symm⟩
  | error failure =>
    right
    simp only at h
    split at h
    · rename_i attempt hcause
      obtain ⟨hversion, -⟩ := Prod.mk.inj h
      refine ⟨?_, (Except.ok.inj hversion).symm⟩
      rw [exec_readText] at hread
      have hfailure := (Prod.mk.inj hread).1
      cases hfault : host.faults host.operations with
      | some error =>
        simp only [hfault, Except.error.injEq] at hfailure
        rw [← hfailure] at hcause
        obtain ⟨rfl, -⟩ := Cause.io.inj hcause
        exact absurd hfault (honest _)
      | none =>
        simp only [hfault] at hfailure
        cases htext : textAt host.files p with
        | error error =>
          simp only [htext, Except.error.injEq] at hfailure
          rw [← hfailure] at hcause
          obtain ⟨rfl, -⟩ := Cause.io.inj hcause
          rfl
        | ok text? =>
          cases text? with
          | some text => simp [htext] at hfailure
          | none =>
            simp only [htext, Except.error.injEq] at hfailure
            rw [← hfailure] at hcause
            exact absurd (Cause.io.inj hcause).1 (by decide)
    · exact absurd (Prod.mk.inj h).1 (by simp)

/-- A lock file is removed, or there is none. -/
theorem remove_ok (honest : ∀ n, host.faults n ≠ some .notFound)
    (h : exec (Lock.remove p) host = (.ok (), host')) :
    host.files.removeFile p = .ok host'.files ∨
      host.files.removeFile p = .error .notFound ∧ host'.files = host.files := by
  rw [Lock.remove] at h
  obtain ⟨result, host₁, hattempt, h⟩ := exec_bind_ok h
  rw [exec_attempt] at hattempt
  obtain ⟨hresult, rfl⟩ := Prod.mk.inj hattempt
  have hremove := exec_eq_of_fst (Except.ok.inj hresult)
  cases result with
  | ok =>
    obtain ⟨-, rfl⟩ := Prod.mk.inj h
    exact .inl (changing_ok hremove).1
  | error failure =>
    right
    simp only at h
    split at h
    · rename_i attempt hcause
      obtain ⟨-, rfl⟩ := Prod.mk.inj h
      refine ⟨?_, (changing_error hremove).1⟩
      rcases changing_error_io hremove hcause with hfault | hop
      · exact absurd hfault (honest _)
      · exact hop
    · exact absurd (Prod.mk.inj h).1 (by simp)

end Lock

namespace Ground

variable {g : Ground} {p : Path}

theorem Sees.determined_lockRead (hp : g.Sees p) : Determined g.Alike (Lock.read p) := by
  intro a b r s a' b' htwins ha hb
  obtain rfl := Site.exec_read_files ha
  obtain rfl := Site.exec_read_files hb
  refine ⟨?_, htwins.counted⟩
  have htext : textAt b.files p = textAt a.files p := by
    rw [textAt, htwins.files.alikeOff.readFile_eq (hp _ _ htwins.files), textAt]
  rcases Lock.read_ok htwins.honest ha with ⟨text, htext₁, rfl⟩ | ⟨hnone, rfl⟩
  · rcases Lock.read_ok htwins.honest' hb with ⟨text', htext₂, rfl⟩ | ⟨hnone, -⟩
    · rw [htext₁, htext₂] at htext
      rw [Option.some.inj (Except.ok.inj htext)]
    · rw [htext₁, hnone] at htext
      contradiction
  · rcases Lock.read_ok htwins.honest' hb with ⟨text', htext₂, -⟩ | ⟨-, rfl⟩
    · rw [hnone, htext₂] at htext
      contradiction
    · rfl

theorem Sees.determined_lockRemove (hp : g.Sees p) (hsolid : g.Solid p) :
    Determined g.Alike (Lock.remove p) := by
  intro a b r s a' b' htwins ha hb
  have h := htwins.files
  have hsees := hp _ _ h
  have hmissing : b.files.removeFile p = .error .notFound ↔
      a.files.removeFile p = .error .notFound := by
    rw [Files.removeFile_notFound_iff, Files.removeFile_notFound_iff, Files.place, Files.place,
      hsees.locate]
    refine or_congr_right (exists_congr fun l => and_congr_right fun hl => ?_)
    rw [h.alikeOff.get?_eq l (hsees.off _ l hl)]
  refine ⟨rfl, htwins.of_sameMachine (sameMachine_lockRemove ha) (sameMachine_lockRemove hb) ?_⟩
  rcases Lock.remove_ok htwins.honest ha with hremove | ⟨hnone, hsame⟩
  · rcases Lock.remove_ok htwins.honest' hb with hremove' | ⟨hnone', -⟩
    · exact hp.alike_of_removeFile hsolid h hremove hremove'
    · rw [hmissing.1 hnone'] at hremove
      contradiction
  · rcases Lock.remove_ok htwins.honest' hb with hremove' | ⟨-, hsame'⟩
    · rw [hmissing.2 hnone] at hremove'
      contradiction
    · rw [hsame, hsame']
      exact h

end Ground

/-! ### Tools outside the part -/

namespace Installer

variable {tool : Installer} {g : Ground} {site : Site} {fs fs' : Files} {version : String} {n : Nat}

/-- A tool has its site and its lock file off the part, and a name that can stand in the name of a
file. -/
structure Outside (tool : Installer) (g : Ground) (site : Site) : Prop where
  root : tool.root = site.root
  lockFile : tool.lockFile = site.lockFile
  name : '/' ∉ tool.name.toList
  placed : site.Placed g.first
  course : ∀ v, site.OnCourse v → g.ways v

/-- The steps of a tool are determined by what is off the part. -/
structure Blind (tool : Installer) (g : Ground) : Prop where
  resolveVersion : Determined g.Alike tool.resolveVersion
  artifactsPresent : Determined g.Alike tool.artifactsPresent
  removeArtifacts : Determined g.Alike tool.removeArtifacts
  download : ∀ version dir, tool.IsBuildPath g.first dir →
    Determined g.Alike (tool.download version dir)
  buildAndInstall : ∀ version dir, tool.IsBuildPath g.first dir →
    Determined g.Alike (tool.buildAndInstall version dir)

theorem freePlace_of_createBuildDirectory {host host' : Host} {loc : Location} {dir : Path}
    (h : exec (createBuildDirectory tool) host = (.ok (loc, dir), host')) :
    dir = host.files.temporaryPath tool.root s!".{tool.name}-build-" "" ∧
      host.files.freePlace dir = .ok loc := by
  rw [createBuildDirectory, exec_files_bind] at h
  obtain ⟨loc', host₁, hread, h⟩ := exec_bind_ok h
  obtain ⟨rfl, hfree⟩ := reading_result hread
  rw [exec_modify_bind, exec_pure] at h
  obtain ⟨rfl, rfl⟩ := Prod.mk.inj (Except.ok.inj (Prod.mk.inj h).1)
  exact ⟨rfl, hfree _ rfl⟩

namespace Outside

theorem leads (h : tool.Outside g site) : g.first.LeadsBy g.ways tool.root := by
  rw [h.root]
  exact h.placed.lies.leads.leadsBy.mono fun v hv => h.course v (.inl hv)

theorem leads_absolute (h : tool.Outside g site) :
    g.first.LeadsBy g.ways (g.first.workingDirectory.path / tool.root) := by
  rw [h.root]
  exact h.placed.lies.leads_absolute.leadsBy.mono fun v hv => h.course v (.inl hv)

theorem placed_of_alike (h : tool.Outside g site) (halike : g.Alike fs fs') : site.Placed fs :=
  h.placed.of_keeps halike.keeps fun v hv => .inl (h.course v hv)

theorem placed_of_alike' (h : tool.Outside g site) (hg : g.Sound) (halike : g.Alike fs fs') :
    site.Placed fs' := by
  have hplaced := h.placed_of_alike halike
  have hlinks : ∀ v, site.OnCourse v → fs'.linkAt v = fs.linkAt v :=
    fun v hv => halike.alikeOff.linkAt_eq (hg.off v (h.course v hv))
  have hleads : ∀ {p}, site.LeadsTo fs p → site.LeadsTo fs' p := by
    rintro p ⟨trail, htrail, hfinish, hway⟩
    refine ⟨trail, ?_, hfinish, hway⟩
    rw [halike.alikeOff.start_eq]
    exact Files.trail_congr htrail fun v hv => hlinks v (.inl (hway v hv))
  refine ⟨⟨hg.isTree_of_alike' halike, hleads hplaced.lies.leads, ?_⟩,
    (hlinks _ (.inr rfl)).trans hplaced.notLink⟩
  rw [halike.alikeOff.workingDirectory]
  exact hleads hplaced.lies.leads_absolute

theorem sees_lockFile (h : tool.Outside g site) (hg : g.Sound) : g.Sees tool.lockFile := by
  intro fs fs' halike
  have hplaced := h.placed_of_alike halike
  have hplaced' := h.placed_of_alike' hg halike
  rw [h.lockFile]
  refine ⟨fun follow => ?_, fun follow l hl => ?_⟩
  · cases hpath : Files.requirePath site.lockFile with
    | error error => simp only [Files.locate, hpath, bind, Except.bind]
    | ok =>
      have hleads : fs.LeadsBy g.ways site.root := h.root ▸ halike.leadsBy h.leads
      rw [hplaced.locate_lockFile hpath, hplaced'.locate_lockFile hpath,
        halike.alikeOff.reach_eq hleads hg.off]
      cases hreach : fs.reach site.root with
      | error error => rfl
      | ok dir =>
        exact Files.takeStep_name_congr
          (halike.alikeOff.get?_eq dir (hg.off dir (hleads.reach hreach)))
  · rw [hplaced.locate_eq hl]
    exact hg.off _ (h.course _ (.inr rfl))

theorem solid_lockFile (h : tool.Outside g site) : g.Solid tool.lockFile := by
  intro fs fs' halike target hplace
  rw [h.lockFile] at hplace
  have hplaced := h.placed_of_alike halike
  rw [hplaced.locate_eq hplace]
  exact hplaced.notLink

theorem directory_off (h : tool.Outside g site) (hg : g.Sound) : ¬g.inside site.directory := by
  obtain ⟨trail, htrail, hfinish, hway⟩ := h.placed.lies.leads
  exact hg.off _ (h.course _ (.inl (hway _ (hfinish ▸ Files.finish_mem_way htrail))))

/-- Build directories are off the part. -/
theorem buildName_off (h : tool.Outside g site) (hg : g.Sound) (n : Nat) :
    ¬g.inside (site.directory ++ [tool.buildName n]) := by
  intro hinside
  rcases hg.dotless _ _ hinside with hdirectory | hdot
  · exact h.directory_off hg hdirectory
  · exact hdot (head?_buildName tool n)

/-- The place of a build directory is the same for both runs. -/
theorem place_buildPath (h : tool.Outside g site) (hg : g.Sound) (halike : g.Alike fs fs') (n : Nat) :
    fs'.place (fs.workingDirectory.path / tool.root / tool.buildName n) =
      fs.place (fs.workingDirectory.path / tool.root / tool.buildName n) := by
  rw [halike.keeps.workingDirectory]
  exact halike.alikeOff.place_child (halike.leadsBy h.leads_absolute) hg.off
    (isPlainName_buildName h.name n)

/-- A build directory stands in the root of its tool. -/
theorem place_buildPath_eq (h : tool.Outside g site) (halike : g.Alike fs fs') {l : Location}
    (hplace : fs.place (fs.workingDirectory.path / tool.root / tool.buildName n) = .ok l) :
    l = site.directory ++ [tool.buildName n] := by
  rw [h.root] at hplace
  exact (h.placed_of_alike halike).lies.leads_absolute.place_eq (isPlainName_buildName h.name n)
    hplace

theorem hasEntry_buildPath (h : tool.Outside g site) (hg : g.Sound) (halike : g.Alike fs fs')
    (n : Nat) :
    fs'.hasEntry (fs.workingDirectory.path / tool.root / tool.buildName n) =
      fs.hasEntry (fs.workingDirectory.path / tool.root / tool.buildName n) := by
  rw [Files.hasEntry, h.place_buildPath hg halike, Files.hasEntry]
  cases hplace : fs.place (fs.workingDirectory.path / tool.root / tool.buildName n) with
  | error error => rfl
  | ok l =>
    obtain rfl := h.place_buildPath_eq halike hplace
    simp only [halike.alikeOff.get?_eq _ (h.buildName_off hg n)]

/-- Both runs make the same build directory, where nothing was. -/
theorem determined_createBuildDirectory (h : tool.Outside g site) (hg : g.Sound) :
    Determined g.Alike (createBuildDirectory tool) := by
  rintro a b ⟨loc, dir⟩ ⟨loc', dir'⟩ a' b' htwins ha hb
  have halike := htwins.files
  obtain ⟨hdir, hplace⟩ := freePlace_of_createBuildDirectory ha
  obtain ⟨hdir', hplace'⟩ := freePlace_of_createBuildDirectory hb
  obtain ⟨⟨n, hpath⟩, hplaced, hfree, hfiles, -⟩ := createBuildDirectory_ok ha
  obtain ⟨-, hplaced', hfree', hfiles', -⟩ := createBuildDirectory_ok hb
  have hsame : dir' = dir := by
    rw [hdir] at hplace ⊢
    rw [hdir'] at hplace' ⊢
    exact Files.temporaryPath_eq halike.alikeOff.workingDirectory hplace hplace'
      fun n => h.hasEntry_buildPath hg halike n
  subst hsame
  rw [hpath, h.place_buildPath hg halike, ← hpath, hplaced] at hplaced'
  obtain rfl := Except.ok.inj hplaced'
  have hne := Files.ne_nil_of_get?_eq_none hfree
  refine ⟨rfl, htwins.of_sameMachine (sameMachine_createBuildDirectory ha)
    (sameMachine_createBuildDirectory hb) ?_⟩
  rw [hfiles, hfiles']
  exact halike.next (halike.alikeOff.put hne)
    (Frame.keeps_of_makesDirectories (Files.makesDirectories_put hfree hplaced) fun _ => False.elim)
    (Frame.keeps_of_makesDirectories (Files.makesDirectories_put hfree'
      ((h.place_buildPath hg halike n).trans (hpath ▸ hplaced))) fun _ => False.elim)
    (halike.distinct.put hne) (halike.distinct'.put hne)

/-- A build directory that both runs made where nothing was goes with all that is in it. -/
theorem alike_of_removeTree (h : tool.Outside g site) (hg : g.Sound) {after after' last last' : Files}
    {dir : Path} {loc : Location} (halike : g.Alike fs fs') (hpath : tool.IsBuildPath g.first dir)
    (hplace : fs.place dir = .ok loc) (hfree : fs.get? loc = none) (hfree' : fs'.get? loc = none)
    (hlast : g.Alike last last') (hremove : last.removeTree dir = .ok after)
    (hremove' : last'.removeTree dir = .ok after') : g.Alike after after' := by
  obtain ⟨n, rfl⟩ := hpath
  have hne := Files.ne_nil_of_get?_eq_none hfree
  rw [← halike.keeps.workingDirectory] at hplace
  obtain rfl := h.place_buildPath_eq halike hplace
  obtain ⟨l, hl, hworking, hget⟩ := Files.removeTree_ok (hg.isTree_of_alike hlast) hremove
  obtain ⟨l', hl', hworking', hget'⟩ := Files.removeTree_ok (hg.isTree_of_alike' hlast) hremove'
  rw [← hlast.keeps.workingDirectory] at hl hl'
  rw [h.place_buildPath hg hlast, hl] at hl'
  obtain rfl := Except.ok.inj hl'
  obtain rfl := h.place_buildPath_eq hlast hl
  have herase := hlast.alikeOff.eraseTree hne
  have hkeeps := halike.keeps.eraseTree_of_free (hg.isTree_of_alike halike) hfree hlast.keeps
    fun _ => id
  have hkeeps' := halike.keeps'.eraseTree_of_free (hg.isTree_of_alike' halike) hfree' hlast.keeps'
    fun _ => id
  exact ⟨herase.congr (hget hne) (hget' hne) hworking hworking',
    hkeeps.trans (Frame.keeps_of_get?_eq (hget hne) hworking),
    hkeeps'.trans (Frame.keeps_of_get?_eq (hget' hne) hworking'),
    Files.removeTree_distinct hremove hlast.distinct,
    Files.removeTree_distinct hremove' hlast.distinct'⟩

variable (h : tool.Outside g site) (hg : g.Sound) (hblind : tool.Blind g)

include h hg hblind

theorem determined_assembleVersion {dir : Path} (hpath : tool.IsBuildPath g.first dir) :
    Determined g.Alike (assembleVersion tool version dir) :=
  .bind (.within (hblind.download version dir hpath)) fun _ =>
    .bind (.within (hblind.buildAndInstall version dir hpath)) fun _ =>
      .within ((h.sees_lockFile hg).determined_writeAtomically h.solid_lockFile)

theorem determined_buildInside : Determined g.Alike (buildInside tool version) := by
  rintro a b ⟨⟩ ⟨⟩ a' b' htwins ha hb
  refine ⟨rfl, ?_⟩
  rw [buildInside] at ha hb
  obtain ⟨⟨loc, dir⟩, a₁, hcreate, ha⟩ := exec_bind_ok ha
  obtain ⟨⟨loc', dir'⟩, b₁, hcreate', hb⟩ := exec_bind_ok hb
  have halike := htwins.files
  obtain ⟨heq, htwins₁⟩ := (h.determined_createBuildDirectory hg).within htwins hcreate hcreate'
  obtain ⟨rfl, rfl⟩ := Prod.mk.inj heq
  obtain ⟨hpath, hplace, hfree, -⟩ := createBuildDirectory_ok (exec_within_ok hcreate)
  obtain ⟨-, -, hfree', -⟩ := createBuildDirectory_ok (exec_within_ok hcreate')
  have hpath₀ : tool.IsBuildPath g.first dir := by
    obtain ⟨n, rfl⟩ := hpath
    exact ⟨n, by rw [halike.keeps.workingDirectory]⟩
  have hcomplete := exec_cleaningUp_ok ha
  have hcomplete' := exec_cleaningUp_ok hb
  rw [completeVersion_eq] at hcomplete hcomplete'
  obtain ⟨⟨⟩, a₂, hassemble, hremove⟩ := exec_bind_ok hcomplete
  obtain ⟨⟨⟩, b₂, hassemble', hremove'⟩ := exec_bind_ok hcomplete'
  obtain ⟨-, htwins₂⟩ :=
    h.determined_assembleVersion hg hblind hpath₀ htwins₁ hassemble hassemble'
  refine htwins₂.of_sameMachine (sameMachine_changing (exec_within_ok hremove))
    (sameMachine_changing (exec_within_ok hremove')) ?_
  exact h.alike_of_removeTree hg halike hpath₀ hplace hfree hfree' htwins₂.files
    (changing_ok (exec_within_ok hremove)).1 (changing_ok (exec_within_ok hremove')).1

theorem determined_buildVersion : Determined g.Alike (buildVersion tool version) := by
  rw [buildVersion_eq_inside]
  exact .bind (hg.determined_createDirectories h.leads) fun _ => h.determined_buildInside hg hblind

theorem determined_requiredState : Determined g.Alike (requiredState tool version) := by
  have hstate : Determined g.Alike (InstallState.determine tool.root tool.lockFile version) := by
    refine .bind (hg.sees h.leads).determined_holds fun there => ?_
    split
    · refine .bind (h.sees_lockFile hg).determined_lockRead fun found => ?_
      split
      · exact .pure _
      · exact .pure _
    · exact .pure _
  refine .bind hstate fun state => ?_
  split
  · exact .bind hblind.artifactsPresent fun _ => .pure _
  · exact .pure _

theorem determined_clean : Determined g.Alike (clean tool) :=
  .bind (.within hblind.removeArtifacts) fun _ =>
    (h.sees_lockFile hg).determined_lockRemove h.solid_lockFile

/-- The installation of a tool is determined by what is off the part when its steps are. -/
theorem determined_install : Determined g.Alike (install tool) := by
  refine .bind (.within hblind.resolveVersion) fun version => ?_
  split
  · exact .fail _
  · refine .bind (h.determined_requiredState hg hblind) fun state => ?_
    cases state with
    | skip => exact .pure _
    | update =>
      refine .bind (h.sees_lockFile hg).determined_lockRead fun previous => ?_
      refine .bind (h.determined_clean hg hblind) fun _ => ?_
      exact .bind (h.determined_buildVersion hg hblind) fun _ => .pure _
    | new => exact .bind (h.determined_buildVersion hg hblind) fun _ => .pure _

end Outside

end Installer

end RamlBuild
