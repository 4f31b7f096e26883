import RamlBuild.Proofs.Tool.Fits

/-!
# Building a version

A version is fetched and built in a directory of its own, which is removed afterwards. The lock file
is written only after everything was built, so it holds a version only when that version was built
completely.

## Main definitions

* `fetchVersion` — the steps before the build
* `Site.Built` — the lock file has a version, and the artifacts are what was built or gone

## Main results

* `Site.Sound.buildVersion` — what building a version comes to
-/

namespace RamlBuild

open Build

namespace Files

variable {fs fs' : Files} {p : Path}

/-- What is removed is a directory with all that is below it, or a link. -/
theorem removeTree_cases (h : fs.removeTree p = .ok fs') :
    ∃ l, fs.place p = .ok l ∧
      ((∃ mode, fs.get? l = some (.directory mode)) ∧ fs' = fs.eraseTree l ∨
        (∃ target, fs.get? l = some (.link target)) ∧ fs' = fs.erase l) := by
  unfold removeTree at h
  cases hplace : fs.place p with
  | error error =>
    rw [hplace] at h
    cases h
  | ok l =>
    refine ⟨l, rfl, ?_⟩
    simp only [hplace, entryAt, bind, Except.bind] at h
    cases hget : fs.get? l with
    | none =>
      simp only [hget] at h
      cases h
    | some e =>
      simp only [hget] at h
      cases e with
      | file => cases h
      | directory mode =>
        simp only at h
        split at h
        · exact .inl ⟨⟨mode, rfl⟩, (Except.ok.inj h).symm⟩
        · cases h
      | link target =>
        simp only at h
        split at h
        · exact .inr ⟨⟨target, rfl⟩, (Except.ok.inj h).symm⟩
        · cases h

/-- A directory or link that is removed goes with all that is below it. -/
theorem removeTree_ok (htree : fs.IsTree) (h : fs.removeTree p = .ok fs') :
    ∃ l, fs.place p = .ok l ∧ fs'.workingDirectory = fs.workingDirectory ∧
      (l ≠ [] → ∀ l', fs'.get? l' = (fs.eraseTree l).get? l') := by
  obtain ⟨l, hplace, ⟨-, rfl⟩ | ⟨⟨target, hget⟩, rfl⟩⟩ := removeTree_cases h
  · exact ⟨l, hplace, rfl, fun _ _ => rfl⟩
  · refine ⟨l, hplace, rfl, ?_⟩
    intro hne l'
    rw [get?_erase hne, get?_eraseTree hne]
    -- Nothing is below a link.
    by_cases hl : l' = l
    · rw [if_pos hl, hl, if_pos (by simp)]
    · rw [if_neg hl]
      split
      · rename_i hbelow
        obtain ⟨names, rfl⟩ := List.isPrefixOf_iff_prefix.1 hbelow
        refine htree.get?_eq_none (by simp [hget]) ?_
        rintro rfl
        exact hl (List.append_nil l)
      · rfl

theorem removeTree_distinct (h : fs.removeTree p = .ok fs') (hd : fs.Distinct) : fs'.Distinct := by
  obtain ⟨l, -, ⟨-, rfl⟩ | ⟨-, rfl⟩⟩ := removeTree_cases h
  · exact hd.filter _
  · exact hd.erase

end Files

variable {tool : Installer} {site : Site} {host host' : Host} {version : String} {dir : Path}
  {loc : Location} {failure : Failure}

/-! ### The build directory -/

theorem createBuildDirectory_ok (h : exec (createBuildDirectory tool) host = (.ok (loc, dir), host')) :
    tool.IsBuildPath host.files dir ∧ host.files.place dir = .ok loc ∧ host.files.get? loc = none ∧
      host'.files = host.files.put loc (.directory buildDirectoryMode) ∧
      host'.faults = host.faults := by
  rw [createBuildDirectory, exec_files_bind] at h
  obtain ⟨loc', host₁, hread, h⟩ := exec_bind_ok h
  obtain ⟨rfl, hfree⟩ := reading_result hread
  rw [exec_modify_bind, exec_pure] at h
  obtain ⟨heq, rfl⟩ := Prod.mk.inj h
  obtain ⟨rfl, rfl⟩ := Prod.mk.inj (Except.ok.inj heq)
  obtain ⟨hplace, hnone⟩ := freePlace_ok (hfree _ rfl)
  exact ⟨⟨_, rfl⟩, hplace, hnone, rfl, rfl⟩

theorem createBuildDirectory_error (h : exec (createBuildDirectory tool) host = (.error failure, host')) :
    host'.files = host.files ∧ host'.faults = host.faults := by
  rw [createBuildDirectory, exec_files_bind] at h
  rcases exec_bind_cases h with ⟨loc', host₁, hread, h⟩ | ⟨failure', hread, -⟩
  · rw [exec_modify_bind, exec_pure] at h
    exact absurd (Prod.mk.inj h).1 (by simp)
  · obtain ⟨rfl, -⟩ := reading_result hread
    exact ⟨rfl, rfl⟩

/-! ### The steps in the build directory -/

/-- Makes a build directory and fetches a version into it. -/
def fetchVersion (tool : Installer) (version : String) : Build Path := do
  createDirectories tool.root
  let (_, workDir) ← within s!"creating build directory in {tool.root}" (createBuildDirectory tool)
  within s!"downloading {tool.name} {version}" (tool.download version workDir)
  pure workDir

/-- The steps that work in a build directory, up to its removal. -/
def completeVersion (tool : Installer) (version : String) (workDir : Path) : Build Unit := do
  within s!"downloading {tool.name} {version}" (tool.download version workDir)
  within s!"installing {tool.name} {version}" (tool.buildAndInstall version workDir)
  Lock.write tool.lockFile version
  within s!"removing build directory {workDir}" (removeTree workDir)

theorem buildVersion_eq (tool : Installer) (version : String) :
    buildVersion tool version = (do
      createDirectories tool.root
      let (loc, workDir) ← within s!"creating build directory in {tool.root}"
        (createBuildDirectory tool)
      cleaningUp (·.eraseTree loc) (completeVersion tool version workDir)) := rfl

namespace Site

/-- The lock file has a version, and every artifact is what was built or gone. -/
structure Built (site : Site) (version : String) (built fs : Files) : Prop where
  present : site.Present built
  loses : site.Loses built fs
  lock : ∃ mode, fs.get? site.lock = some (.file (Text.trimmed version).toUTF8 mode none)

/-- How far the steps in a build directory came before the directory goes. A lock file is there only
when the build ran to its end. -/
structure Arrives (tool : Installer) (site : Site) (version : String) (dir : Path)
    (host last : Host) : Prop where
  sound : site.Sound last
  stays : site.Stays host.files last.files
  faults : last.faults = host.faults
  built : site.Locked last.files → ∃ fetched built,
    exec (within s!"downloading {tool.name} {version}" (tool.download version dir)) host =
      (.ok (), fetched) ∧
    exec (tool.buildAndInstall version dir) fetched = (.ok (), built) ∧
    site.Built version built.files last.files

theorem arrives_of_not_locked (hsound : site.Sound host') (hstays : site.Stays host.files host'.files)
    (hfaults : host'.faults = host.faults) (hnot : ¬site.Locked host'.files) :
    Arrives tool site version dir host host' :=
  ⟨hsound, hstays, hfaults, fun h => absurd h hnot⟩

/-- Where the steps in a build directory arrive: from there only the directory is removed. -/
theorem Sound.completeVersion {result : Except Failure Unit} (hsound : site.Sound host)
    (hfits : tool.Fits site) (hnot : ¬site.Locked host.files)
    (hdir : tool.IsBuildPath host.files dir)
    (h : exec (completeVersion tool version dir) host = (result, host')) :
    ∃ last, Arrives tool site version dir host last ∧
      (result = .ok () → exec (removeTree dir) last = (.ok (), host')) ∧
      (result ≠ .ok () → host'.files = last.files ∧ host'.faults = last.faults) := by
  rw [RamlBuild.completeVersion, hfits.lockFile] at h
  -- Fetching touches neither the artifacts nor the lock file.
  obtain ⟨fetchResult, fetched, hfetch⟩ :
      ∃ fetchResult fetched, exec (within s!"downloading {tool.name} {version}"
        (tool.download version dir)) host = (fetchResult, fetched) := ⟨_, _, rfl⟩
  have hspares : site.Spares host fetched := by
    rcases exec_within_cases hfetch with ⟨_, -, hx⟩ | ⟨_, -, hx⟩
    · exact (hfits.download hsound.lies hdir hx).toSpares
    · exact (hfits.download hsound.lies hdir hx).toSpares
  have hsound₁ := hsound.of_spares hspares
  have hnot₁ : ¬site.Locked fetched.files := by rwa [locked_iff_of_lock_eq hspares.lock]
  rcases exec_bind_cases h with ⟨⟨⟩, fetched', hfetch', h⟩ | ⟨failure, hfetch', rfl⟩
  · obtain ⟨rfl, rfl⟩ := Prod.mk.inj (hfetch.symm.trans hfetch')
    have hdir₁ : tool.IsBuildPath fetched.files dir := by
      rw [Installer.IsBuildPath, hspares.stays.workingDirectory]
      exact hdir
    rcases exec_bind_cases h with ⟨⟨⟩, built, hbuild, h⟩ | ⟨failure, hbuild, rfl⟩
    · have hbuild' := exec_within_ok hbuild
      obtain ⟨hspares₂, hpresent⟩ := hfits.buildAndInstall hsound₁.lies hdir₁ hbuild'
      have hsound₂ := hsound₁.of_spares hspares₂
      have hnot₂ : ¬site.Locked built.files := by rwa [locked_iff_of_lock_eq hspares₂.lock]
      -- The lock file is written over nothing, after everything was built.
      rcases exec_bind_cases h with ⟨⟨⟩, last, hwrite, h⟩ | ⟨failure, hwrite, rfl⟩
      · obtain ⟨hsound₃, hchanges, hwritten, -⟩ := hsound₂.write hwrite
        have hloses : site.Loses built.files last.files := fun name hname =>
          .inl (hchanges.get?_other _ (artifact_ne_lock hname))
        refine ⟨last, ⟨hsound₃, (hspares.stays.trans hspares₂.stays).trans hchanges.stays,
          hchanges.faults.trans (hspares₂.faults.trans hspares.faults), ?_⟩, ?_, ?_⟩
        · intro _
          exact ⟨fetched, built, hfetch, hbuild', hpresent rfl, hloses, hwritten rfl⟩
        · rintro rfl
          exact exec_within_ok h
        · intro hfailed
          rcases exec_within_cases h with ⟨⟨⟩, rfl, -⟩ | ⟨failure, rfl, hremove⟩
          · exact absurd rfl hfailed
          · exact changing_error hremove
      · obtain ⟨hsound₃, hchanges, -, hsame⟩ := hsound₂.write hwrite
        refine ⟨host', arrives_of_not_locked hsound₃
          ((hspares.stays.trans hspares₂.stays).trans hchanges.stays)
          (hchanges.faults.trans (hspares₂.faults.trans hspares.faults)) ?_, by simp,
          fun _ => ⟨rfl, rfl⟩⟩
        rwa [locked_iff_of_lock_eq (hsame (by simp))]
    · rcases exec_within_cases hbuild with ⟨⟨⟩, heq, -⟩ | ⟨failure', -, hbuild'⟩
      · contradiction
      · obtain ⟨hspares₂, -⟩ := hfits.buildAndInstall hsound₁.lies hdir₁ hbuild'
        refine ⟨host', arrives_of_not_locked (hsound₁.of_spares hspares₂)
          (hspares.stays.trans hspares₂.stays) (hspares₂.faults.trans hspares.faults) ?_, by simp,
          fun _ => ⟨rfl, rfl⟩⟩
        rwa [locked_iff_of_lock_eq hspares₂.lock]
  · obtain ⟨-, rfl⟩ := Prod.mk.inj (hfetch.symm.trans hfetch')
    exact ⟨fetched, arrives_of_not_locked hsound₁ hspares.stays hspares.faults hnot₁, by simp,
      fun _ => ⟨rfl, rfl⟩⟩

/-! ### Building a version -/

/-- Making directories makes no lock file. -/
theorem Sound.of_makesDirectories (hsound : site.Sound host) (hnot : ¬site.Locked host.files)
    (h : OnlyMakesDirectories host host') : site.Sound host' ∧ ¬site.Locked host'.files := by
  have hstays : site.Stays host.files host'.files := stays_of_makesDirectories h.1
  have hnot' : ¬site.Locked host'.files := by
    rintro ⟨contents, mode, shared, hfile⟩
    rcases h.1.get? site.lock with heq | ⟨-, mode', hmode⟩
    · exact hnot ⟨contents, mode, shared, heq ▸ hfile⟩
    · rw [hfile] at hmode
      cases Option.some.inj hmode
  refine ⟨⟨hsound.lies.of_stays hstays, ?_, ?_, fun h => absurd h hnot'⟩, hnot'⟩
  · rw [h.2]
    exact hsound.honest
  · rcases h.1.get? site.lock with heq | ⟨-, mode, hmode⟩
    · exact (Files.linkAt_eq_of_get?_eq heq).trans hsound.notLink
    · rw [Files.linkAt, hmode]

/-- When something goes that was made at a free location, a host stays sound, and the lock file and
the artifacts stay as they are or go. -/
theorem Sound.of_eraseTree {before : Files} {last : Host} (hsound : site.Sound last)
    (hlies : site.Lies before) (hreached : site.Reached before)
    (hstays : site.Stays before last.files) (hfree : before.get? loc = none)
    (hget : ∀ l, host'.files.get? l = (last.files.eraseTree loc).get? l)
    (hworking : host'.files.workingDirectory = last.files.workingDirectory)
    (hfaults : host'.faults = last.faults) :
    site.Sound host' ∧ (∀ l, host'.files.get? l = last.files.get? l ∨ host'.files.get? l = none) := by
  have hne := Files.ne_nil_of_get?_eq_none hfree
  have hall : ∀ l, host'.files.get? l = last.files.get? l ∨ host'.files.get? l = none := by
    intro l
    rw [hget, Files.get?_eraseTree hne]
    split
    · exact .inr rfl
    · exact .inl rfl
  have hstays' : site.Stays before host'.files :=
    (stays_eraseTree hstays hlies.isTree hfree).trans (stays_of_get?_eq hget hworking)
  refine ⟨⟨hlies.of_stays hstays', ?_, ?_, fun _ => hreached.of_stays hlies hstays'⟩, hall⟩
  · rw [hfaults]
    exact hsound.honest
  · rcases hall site.lock with heq | hnone
    · exact (Files.linkAt_eq_of_get?_eq heq).trans hsound.notLink
    · rw [Files.linkAt, hnone]

/-- Building a version leaves a lock file only with what was built completely. -/
theorem Sound.buildVersion {result : Except Failure Unit} (hsound : site.Sound host)
    (hfits : tool.Fits site) (hroot : site.root.text ≠ "") (hnot : ¬site.Locked host.files)
    (h : exec (buildVersion tool version) host = (result, host')) :
    site.Sound host' ∧ (site.Locked host'.files → ∃ dir fetched built,
      exec (fetchVersion tool version) host = (.ok dir, fetched) ∧
      exec (tool.buildAndInstall version dir) fetched = (.ok (), built) ∧
      site.Built version built.files host'.files) := by
  rw [buildVersion_eq] at h
  rcases exec_bind_cases h with ⟨⟨⟩, host₁, hcreate, h⟩ | ⟨failure, hcreate, -⟩
  · obtain ⟨hsound₁, hnot₁⟩ := hsound.of_makesDirectories hnot (createDirectories_makes hcreate)
    have hreached : site.Reached host₁.files := by
      rw [hfits.root] at hcreate
      exact hsound₁.lies.reached (createDirectories_reach hroot hcreate)
    rcases exec_bind_cases h with ⟨⟨loc, dir⟩, host₂, hmake, h⟩ | ⟨failure, hmake, -⟩
    · obtain ⟨hdir, hplace, hfree, hput, hfaults⟩ := createBuildDirectory_ok (exec_within_ok hmake)
      have hmakes : OnlyMakesDirectories host₁ host₂ :=
        ⟨hput ▸ Files.makesDirectories_put hfree hplace, hfaults⟩
      obtain ⟨hsound₂, hnot₂⟩ := hsound₁.of_makesDirectories hnot₁ hmakes
      have hdir₂ : tool.IsBuildPath host₂.files dir := by
        rw [Installer.IsBuildPath, hmakes.1.workingDirectory]
        exact hdir
      simp only [exec_cleaningUp] at h
      rcases hcomplete : exec (RamlBuild.completeVersion tool version dir) host₂ with ⟨result', host₃⟩
      obtain ⟨last, harrives, hremoved, hfailed⟩ := hsound₂.completeVersion hfits hnot₂ hdir₂ hcomplete
      rw [hcomplete] at h
      -- Whether it is removed or cleaned up, the build directory goes.
      have hend : (∀ l, host'.files.get? l = (last.files.eraseTree loc).get? l) ∧
          host'.files.workingDirectory = last.files.workingDirectory ∧
          host'.faults = last.faults := by
        cases result' with
        | ok =>
          obtain ⟨-, rfl⟩ := Prod.mk.inj h
          obtain ⟨hop, hfaults₃⟩ := changing_ok (hremoved rfl)
          obtain ⟨l, hplace', hworking, hget⟩ := Files.removeTree_ok harrives.sound.lies.isTree hop
          obtain rfl : l = loc := by
            obtain ⟨n, rfl⟩ := hdir
            have hname := Installer.isPlainName_buildName hfits.name n
            rw [hfits.root] at hplace hplace'
            rw [hsound₁.lies.leads_absolute.place_eq hname hplace]
            apply harrives.sound.lies.leads_absolute.place_eq hname
            rwa [harrives.stays.workingDirectory, hmakes.1.workingDirectory]
          exact ⟨hget (Files.ne_nil_of_get?_eq_none hfree), hworking, hfaults₃⟩
        | error failure =>
          obtain ⟨-, rfl⟩ := Prod.mk.inj h
          obtain ⟨hfiles, hfaults₃⟩ := hfailed (by simp)
          exact ⟨fun l => by rw [hfiles], by rw [hfiles]; rfl, hfaults₃⟩
      obtain ⟨hget, hworking, hfaults₃⟩ := hend
      have hstays : site.Stays host₁.files last.files :=
        (stays_of_makesDirectories hmakes.1).trans harrives.stays
      obtain ⟨hsound₃, hall⟩ := harrives.sound.of_eraseTree hsound₁.lies hreached hstays hfree hget
        hworking hfaults₃
      refine ⟨hsound₃, ?_⟩
      intro hlocked
      have hlock : host'.files.get? site.lock = last.files.get? site.lock := by
        rcases hall site.lock with heq | hnone
        · exact heq
        · obtain ⟨contents, mode, shared, hfile⟩ := hlocked
          rw [hnone] at hfile
          contradiction
      obtain ⟨fetched, built, hfetch, hbuild, hbuilt⟩ :=
        harrives.built ((locked_iff_of_lock_eq hlock).1 hlocked)
      refine ⟨dir, fetched, built, ?_, hbuild, hbuilt.present,
        hbuilt.loses.trans fun name _ => hall _, hlock ▸ hbuilt.lock⟩
      rw [fetchVersion, exec_bind_of_ok hcreate, exec_bind_of_ok hmake, exec_bind_of_ok hfetch]
      rfl
    · rcases exec_within_cases hmake with ⟨_, heq, -⟩ | ⟨failure', -, hmake⟩
      · contradiction
      · obtain ⟨hfiles, hfaults⟩ := createBuildDirectory_error hmake
        refine ⟨hsound₁.of_stays (hfiles ▸ Stays.refl site _) hfaults (by rw [hfiles]), ?_⟩
        intro hlocked
        rw [hfiles] at hlocked
        exact absurd hlocked hnot₁
  · obtain ⟨hsound₁, hnot₁⟩ := hsound.of_makesDirectories hnot (createDirectories_makes hcreate)
    exact ⟨hsound₁, fun hlocked => absurd hlocked hnot₁⟩

end Site

end RamlBuild
