import RamlBuild.Proofs.Sources.Reading
import RamlBuild.Proofs.Tool.Minding
import RamlBuild.Proofs.Tool.Session

/-!
# Settled tools

A tool is settled at a version when its lock file tells that version where an installation looks for
it. Building a version settles it, whatever was there before, and a settled tool stays so while
others work elsewhere.

## Main definitions

* `Site.Settled` — the lock file tells a version
* `Site.Written` — the lock file has a text
* `Installer.Clears` — an installation gets as far as to build
* `InstallOutcome.built?` — the version that an installation built
* `Site.frame` — the course of a site with its lock file

## Main results

* `Site.Settled.of_keeps` — a settled tool stays settled while its lock file is left alone
* `Site.Written.exec_determine` — a text that was written tells what is to be done
* `Site.Sound.written_of_buildVersion` — building a version leaves it in the lock file
* `install_ok_cases` — how an installation succeeds
* `Site.Sound.of_clears` — what it builds, it builds where no lock file is
-/

namespace RamlBuild

open Build

variable {tool : Installer} {site : Site} {host host' : Host} {fs fs' : Files}
  {version text : String} {l : Location}

namespace Site

/-- The course of a site, with its lock file. -/
def frame (site : Site) : Frame :=
  ⟨site.OnCourse, fun l => l = site.lock⟩

/-- A host stays sound while the lock file of a site and the way to it are left alone. -/
theorem Sound.of_stands (h : site.Sound host) (hstands : site.frame.Stands host host') :
    site.Sound host' :=
  h.of_stays (stays_of_keeps hstands.1 fun _ hv => .inl hv) hstands.2 (hstands.1.get?_eq _ rfl)

/-- The lock file tells a version where an installation looks for it. -/
structure Settled (site : Site) (version : String) (fs : Files) : Prop where
  placed : site.Placed fs
  holds : fs.holds site.root = true
  reads : ∃ text, textAt fs site.lockFile = .ok (some text) ∧ Text.trimmed text = version

theorem textAt_eq_ok_iff {p : Path} {text : String} :
    textAt fs p = .ok (some text) ↔ ∃ l contents mode shared, fs.resolve p = .ok l ∧
      fs.get? l = some (.file contents mode shared) ∧
      (Entry.file contents mode shared).permits .read = true ∧
      String.fromUTF8? contents = some text := by
  unfold textAt Files.readFile Files.stat
  cases hresolve : fs.resolve p with
  | error error =>
    simp [bind, Except.bind, Except.map]
  | ok l =>
    simp only [bind, Except.bind, Files.entryAt]
    cases hget : fs.get? l with
    | none => simp [Except.map, hget]
    | some e =>
      cases hpermits : e.permits .read <;> cases e <;> simp_all [Except.map]

/-- The lock file has a text where an installation looks for it. -/
structure Written (site : Site) (text : String) (fs : Files) : Prop where
  placed : site.Placed fs
  holds : fs.holds site.root = true
  reads : textAt fs site.lockFile = .ok (some text)

theorem Written.settled (h : site.Written text fs) :
    site.Settled (Text.trimmed text) fs :=
  ⟨h.placed, h.holds, text, h.reads, rfl⟩

theorem Settled.exists_written (h : site.Settled version fs) :
    ∃ text, site.Written text fs ∧ Text.trimmed text = version := by
  obtain ⟨text, hreads, htext⟩ := h.reads
  exact ⟨text, ⟨h.placed, h.holds, hreads⟩, htext⟩

/-- The root of a lock file that is read is there. -/
theorem Written.reached (h : site.Written text fs) : site.Reached fs := by
  obtain ⟨l, contents, mode, shared, hresolve, -⟩ := textAt_eq_ok_iff.1 h.reads
  exact (h.placed.reached_of_locate hresolve).1

theorem Written.locked (h : site.Written text fs) : site.Locked fs := by
  obtain ⟨l, contents, mode, shared, hresolve, hget, -⟩ := textAt_eq_ok_iff.1 h.reads
  obtain rfl := h.placed.locate_eq hresolve
  exact ⟨contents, mode, shared, hget⟩

/-- A text stays written while its lock file and the way to it are left alone. -/
theorem Written.of_keeps (h : site.Written text fs) (hkeeps : site.frame.Keeps fs fs') :
    site.Written text fs' := by
  obtain ⟨l, contents, mode, shared, hresolve, hget, hpermits, hutf8⟩ := textAt_eq_ok_iff.1 h.reads
  obtain rfl := h.placed.locate_eq hresolve
  obtain ⟨hreached, hstep⟩ := h.placed.reached_of_locate hresolve
  have hstays : site.Stays fs fs' := stays_of_keeps hkeeps fun v hv => .inl hv
  have hplaced' : site.Placed fs' := h.placed.of_keeps hkeeps fun _ hv => hv
  have hreached' := hreached.of_stays h.placed.lies hstays
  have hdirectory := hreached.directory_eq h.placed.lies hstays
  refine ⟨hplaced', ?_, textAt_eq_ok_iff.2 ⟨site.lock, contents, mode, shared, ?_, ?_, hpermits,
    hutf8⟩⟩
  · have hroot : Files.requirePath site.root = .ok () := by
      have hholds := h.holds
      rw [holds_eq] at hholds
      split at hholds
      · rename_i hroot
        exact Files.requirePath_of_locate hroot
      · contradiction
    obtain ⟨hreach, mode', hmode'⟩ := hreached'
    rw [holds_eq, Files.resolve_of_reach hroot hreach hmode']
    simp only [hmode', Option.isSome_some]
  · have hpath := Files.requirePath_of_locate hresolve
    rw [Files.resolve, hplaced'.locate_lockFile hpath, hreached'.1]
    obtain ⟨hl, hlong, mode', hmode', henter⟩ := Files.takeStep_name_iff.1 hstep
    exact Files.takeStep_name_iff.2 ⟨hl, hlong, mode', hdirectory ▸ hmode', henter⟩
  · rw [hkeeps.get?_eq _ rfl, hget]

/-- A tool stays settled while its lock file and the way to it are left alone. -/
theorem Settled.of_keeps (h : site.Settled version fs) (hkeeps : site.frame.Keeps fs fs') :
    site.Settled version fs' := by
  obtain ⟨text, hwritten, rfl⟩ := h.exists_written
  exact (hwritten.of_keeps hkeeps).settled

/-- Where a text is written, what is to be done is told by that text without its outer blanks. -/
theorem Written.exec_determine (h : site.Written text host.files) (hquiet : ∀ n, host.faults n = none)
    (version : String) :
    exec (InstallState.determine site.root site.lockFile version) host =
      (.ok (if Text.trimmed text = version then .skip else .update), counted host) := by
  have hread : exec (Lock.read site.lockFile) host =
      (.ok (some (Text.trimmed text)), counted host) := by
    rw [Lock.read, exec_bind, exec_attempt, exec_readText, hquiet, h.reads]
    simp
  rw [InstallState.determine, Build.holds, exec_asking_bind, if_pos h.holds, exec_bind_of_ok hread]
  rfl

/-- Where a version is settled and the artifacts are there, nothing is to be done. -/
theorem Settled.exec_determine (h : site.Settled version host.files) (hquiet : ∀ n, host.faults n = none) :
    exec (InstallState.determine site.root site.lockFile version) host = (.ok .skip, counted host) := by
  obtain ⟨text, hwritten, rfl⟩ := h.exists_written
  rw [hwritten.exec_determine hquiet, if_pos rfl]

/-- Where something is installed a text is written, and it tells what is to be done. -/
theorem written_of_determine {state : InstallState} (hplaced : site.Placed host.files)
    (h : exec (InstallState.determine site.root site.lockFile version) host = (.ok state, host'))
    (hstate : state ≠ .new) :
    ∃ text, site.Written text host.files ∧
      state = if Text.trimmed text = version then .skip else .update := by
  rw [InstallState.determine, Build.holds, exec_asking_bind] at h
  by_cases hholds : host.files.holds site.root = true
  · rw [if_pos hholds] at h
    obtain ⟨found, host₁, hread, h⟩ := exec_bind_ok h
    cases found with
    | none => exact absurd (Except.ok.inj (Prod.mk.inj h).1).symm hstate
    | some installed =>
      rw [Lock.read, exec_bind, exec_attempt] at hread
      rcases htext : exec (readText site.lockFile) host with ⟨outcome, host₂⟩
      rw [htext] at hread
      cases outcome with
      | ok text =>
        obtain rfl := Option.some.inj (Except.ok.inj (Prod.mk.inj hread).1)
        exact ⟨text, ⟨hplaced, hholds, (readText_ok htext).1⟩,
          (Except.ok.inj (Prod.mk.inj h).1).symm⟩
      | error failure =>
        simp only at hread
        split at hread <;> exact absurd (Prod.mk.inj hread).1 (by simp)
  · rw [if_neg hholds] at h
    exact absurd (Except.ok.inj (Prod.mk.inj h).1).symm hstate

/-- Where nothing is to be done, the version is settled. -/
theorem settled_of_determine (hplaced : site.Placed host.files)
    (h : exec (InstallState.determine site.root site.lockFile version) host = (.ok .skip, host')) :
    site.Settled version host.files := by
  obtain ⟨text, hwritten, hskip⟩ := written_of_determine hplaced h (by simp)
  split at hskip
  · rename_i heq
    exact heq ▸ hwritten.settled
  · contradiction

/-- After a tool was cleaned there is no lock file. -/
theorem Sound.not_locked_of_clean (hsound : site.Sound host) (hat : tool.IsAt site)
    (hheeds : tool.Heeds site site.frame)
    (h : exec (RamlBuild.clean tool) host = (.ok (), host')) :
    site.Sound host' ∧ ¬site.Locked host'.files := by
  rw [RamlBuild.clean, hat.lockFile] at h
  obtain ⟨⟨⟩, removed, hremove, h⟩ := exec_bind_ok h
  have hstands := hheeds.removeArtifacts hsound.lies (exec_within_ok hremove)
  obtain ⟨hsound', -, hgone, -⟩ := (hsound.of_stands hstands).remove h
  exact ⟨hsound', hgone rfl⟩

/-! ### Building settles -/

/-- The steps in a build directory put the version into a lock file that was not there. -/
theorem Sound.lock_of_assembleVersion {dir : Path} {n : Nat} (hat : tool.IsAt site)
    (hheeds : tool.Heeds site site.frame) (hplaced : site.Placed host.files)
    (hopens : tool.Opens site host.files n dir) (hnot : ¬site.Locked host.files)
    (h : exec (assembleVersion tool version dir) host = (.ok (), host')) :
    host.files.get? site.lock = none ∧
      host'.files.get? site.lock =
        some (.file (Text.trimmed version).toUTF8 temporaryMode none) ∧
      host'.files.takeStep site.directory (.name site.lockName) = .ok site.lock ∧
      Files.requirePath site.lockFile = .ok () := by
  obtain ⟨⟨⟩, fetched, hfetch, h⟩ := exec_bind_ok h
  obtain ⟨⟨⟩, built, hbuild, hwrite⟩ := exec_bind_ok h
  have hfetch := exec_within_ok hfetch
  have hstands₁ := hheeds.download hplaced.lies hopens hfetch
  have hplaced₁ := hplaced.of_keeps hstands₁.1 fun _ hv => hv
  have hstands₂ := hheeds.buildAndInstall hplaced.lies hopens hfetch hplaced₁.lies
    (exec_within_ok hbuild)
  have hplaced₂ := hplaced₁.of_keeps hstands₂.1 fun _ hv => hv
  have hkept : built.files.get? site.lock = host.files.get? site.lock :=
    (hstands₂.1.get?_eq _ rfl).trans (hstands₁.1.get?_eq _ rfl)
  rw [hat.lockFile, Lock.write] at hwrite
  obtain ⟨target, hplace, hreplaced, -⟩ := writeAtomically_ok (exec_within_ok hwrite)
  obtain rfl := hplaced₂.locate_eq hplace
  have hnone : built.files.get? site.lock = none := by
    cases hget : built.files.get? site.lock with
    | none => rfl
    | some e =>
      cases e with
      | file contents mode shared => exact absurd ⟨contents, mode, shared, hkept ▸ hget⟩ hnot
      | directory mode => exact absurd hget (hreplaced.not_directory mode)
      | link target =>
        have hlink := hplaced₂.notLink
        rw [Files.linkAt_eq_some_iff.2 hget] at hlink
        contradiction
  have hmode : built.files.mode? site.lockFile = none := by
    rw [mode?_eq]
    cases hresolve : built.files.resolve site.lockFile with
    | error error => rfl
    | ok l =>
      obtain rfl := hplaced₂.locate_eq hresolve
      simp only [hnone, Option.bind_none]
  refine ⟨hkept ▸ hnone, ?_, ?_, Files.requirePath_of_locate hplace⟩
  · rw [hreplaced.get?_target, hmode, Option.getD_none]
  · obtain ⟨hl, hlong, mode, hdirectory, henter⟩ :=
      Files.takeStep_name_iff.1 (hplaced₂.reached_of_locate hplace).2
    refine Files.takeStep_name_iff.2 ⟨hl, hlong, mode, ?_, henter⟩
    rw [hreplaced.get?_other _ (by simp [lock]), hdirectory]

/-- A root with a build directory in it can be looked for. -/
theorem requirePath_of_runsInside {n : Nat} {loc : Location} {host₂ last : Host}
    {outcome : Except Failure Unit} (hat : tool.IsAt site) (hroot : site.root.text ≠ "")
    (hruns : RunsInside tool site version host n loc host₂ outcome last host') :
    Files.requirePath site.root = .ok () := by
  have hbuild := hruns.reachable
  rw [hat.root] at hbuild
  have hname := Installer.isPlainName_buildName hat.name n
  exact Files.requirePath_of_div hroot
    (Files.requirePath_of_child hname (Path.text_div_ne_empty hroot) hbuild)

/-- Work in a build directory leaves the version in the lock file. -/
theorem written_of_runsInside {n : Nat} {loc : Location} {host₂ last : Host}
    (hat : tool.IsAt site) (hheeds : tool.Heeds site site.frame)
    (hplaced : site.Placed host.files) (hreached : site.Reached host.files)
    (hroot : site.root.text ≠ "") (hnot : ¬site.Locked host.files)
    (hruns : RunsInside tool site version host n loc host₂ (.ok ()) last host')
    (hstays : site.Stays host.files host'.files) (hplaced' : site.Placed host'.files) :
    site.Written (Text.trimmed version) host'.files := by
  have hnot₂ : ¬site.Locked host₂.files := by
    rintro ⟨contents, mode, shared, hfile⟩
    rcases hruns.makes.get? site.lock with heq | ⟨-, mode', hmode'⟩
    · exact hnot ⟨contents, mode, shared, heq ▸ hfile⟩
    · rw [hfile] at hmode'
      cases Option.some.inj hmode'
  obtain ⟨hnone, hlock, hstep, hpath⟩ := Sound.lock_of_assembleVersion hat hheeds hruns.placed
    hruns.opens hnot₂ hruns.assembles
  have hne := Files.ne_nil_of_get?_eq_none hruns.free
  -- The lock file is not the build directory, which was there when it was written.
  have hother : ¬loc.isPrefixOf site.lock = true := by
    intro hbelow
    have heq : loc = site.lock := by
      rw [hruns.loc_eq, List.isPrefixOf_iff_prefix] at hbelow
      obtain ⟨rest, hrest⟩ := hbelow
      rw [lock, List.append_assoc, List.append_cancel_left_eq] at hrest
      rw [hruns.loc_eq, lock]
      cases rest with
      | nil => rw [← hrest, List.append_nil]
      | cons => simp at hrest
    rw [hruns.files_eq, heq, Files.get?_put_self (heq ▸ hne)] at hnone
    contradiction
  have hdirectory : host'.files.get? site.directory = last.files.get? site.directory := by
    rw [hruns.get?_eq, Files.get?_eraseTree hne, if_neg]
    rw [hruns.loc_eq, List.isPrefixOf_iff_prefix]
    intro hbelow
    have hlength := hbelow.length_le
    rw [List.length_append, List.length_singleton] at hlength
    omega
  have hresolve : host'.files.resolve site.lockFile = .ok site.lock := by
    obtain ⟨hl, hlong, mode, hmode, henter⟩ := Files.takeStep_name_iff.1 hstep
    rw [Files.resolve, hplaced'.locate_lockFile hpath, (hreached.of_stays hplaced.lies hstays).1]
    exact Files.takeStep_name_iff.2 ⟨hl, hlong, mode, hdirectory ▸ hmode, henter⟩
  refine ⟨hplaced', ?_, ?_⟩
  · exact holds_root (hreached.of_stays hplaced.lies hstays)
      (requirePath_of_runsInside hat hroot hruns)
  · refine textAt_eq_ok_iff.2 ⟨site.lock, _, temporaryMode, none, hresolve, ?_, rfl,
      fromUTF8?_toUTF8 _⟩
    rw [hruns.get?_eq, Files.get?_eraseTree hne, if_neg hother, hlock]

/-- A root that a version was built in can be looked for. -/
theorem requirePath_of_buildVersion (hat : tool.IsAt site) (hheeds : tool.Heeds site site.course)
    (hplaced : site.Placed host.files) (hroot : site.root.text ≠ "")
    (h : exec (RamlBuild.buildVersion tool version) host = (.ok (), host')) :
    Files.requirePath site.root = .ok () := by
  rw [buildVersion_eq_inside] at h
  obtain ⟨⟨⟩, host₁, hcreate, h⟩ := exec_bind_ok h
  have hleads : host.files.LeadsBy (· ∈ site.way) tool.root :=
    hat.root ▸ hplaced.lies.leads.leadsBy
  have hstands := site.course.stands_createDirectories hleads clear_course.way hcreate
  rcases exec_buildInside_cases hat hheeds (hplaced.of_keeps hstands.1 fun _ hv => hv) h with
    ⟨hfailed, -⟩ | ⟨n, loc, host₂, outcome, last, hruns, -⟩
  · exact absurd rfl hfailed
  · exact requirePath_of_runsInside hat hroot hruns

/-- Building a version leaves it in the lock file, where no lock file was. -/
theorem Sound.written_of_buildVersion (hsound : site.Sound host) (hat : tool.IsAt site)
    (hheeds : tool.Heeds site site.frame) (hroot : site.root.text ≠ "")
    (hnot : ¬site.Locked host.files)
    (h : exec (RamlBuild.buildVersion tool version) host = (.ok (), host')) :
    site.Written (Text.trimmed version) host'.files := by
  rw [buildVersion_eq_inside] at h
  obtain ⟨⟨⟩, host₁, hcreate, h⟩ := exec_bind_ok h
  obtain ⟨hsound₁, hnot₁⟩ := hsound.of_makesDirectories hnot (createDirectories_makes hcreate)
  have hreached : site.Reached host₁.files := by
    rw [hat.root] at hcreate
    exact hsound₁.lies.reached (createDirectories_reach hroot hcreate)
  have hcourse : tool.Heeds site site.course := hheeds.mono (fun _ hv => hv) nofun
  have hstands := Frame.stands_buildInside hat hcourse clear_course (fun _ hv => hv) h
    hsound₁.placed
  rcases exec_buildInside_cases hat hcourse hsound₁.placed h with
    ⟨hfailed, -⟩ | ⟨n, loc, host₂, outcome, last, hruns, hok⟩
  · exact absurd rfl hfailed
  · obtain rfl := hok rfl
    exact written_of_runsInside hat hheeds hsound₁.placed hreached hroot hnot₁ hruns
      (stays_of_keeps hstands.1 fun v hv => .inl hv)
      (hsound₁.placed.of_keeps hstands.1 fun _ hv => hv)

end Site

/-! ### How an installation succeeds -/

/-- The artifacts are asked for only where the lock file tells the version. -/
theorem requiredState_ok_cases {state : InstallState}
    (h : exec (requiredState tool version) host = (.ok state, host')) :
    (∃ asked present, exec (InstallState.determine tool.root tool.lockFile version) host =
        (.ok .skip, asked) ∧ exec tool.artifactsPresent asked = (.ok present, host') ∧
        state = if present then .skip else .update) ∨
      state ≠ .skip ∧
        exec (InstallState.determine tool.root tool.lockFile version) host = (.ok state, host') := by
  rw [requiredState] at h
  obtain ⟨determined, asked, hdetermine, h⟩ := exec_bind_ok h
  cases determined with
  | skip =>
    obtain ⟨present, host₁, hpresent, h⟩ := exec_bind_ok h
    obtain ⟨heq, rfl⟩ := Prod.mk.inj h
    exact .inl ⟨asked, present, hdetermine, hpresent, (Except.ok.inj heq).symm⟩
  | new =>
    obtain ⟨heq, rfl⟩ := Prod.mk.inj h
    obtain rfl := Except.ok.inj heq
    exact .inr ⟨by simp, hdetermine⟩
  | update =>
    obtain ⟨heq, rfl⟩ := Prod.mk.inj h
    obtain rfl := Except.ok.inj heq
    exact .inr ⟨by simp, hdetermine⟩

/-- Unless a tool is new, its lock file was read. -/
theorem Site.written_of_requiredState {state : InstallState} (hat : tool.IsAt site)
    (hplaced : site.Placed host.files) (hstate : state ≠ .new)
    (h : exec (requiredState tool version) host = (.ok state, host')) :
    ∃ text, site.Written text host.files := by
  rcases requiredState_ok_cases h with ⟨asked, present, hdetermine, -⟩ | ⟨-, hdetermine⟩
  · rw [hat.root, hat.lockFile] at hdetermine
    obtain ⟨text, hwritten, -⟩ := Site.written_of_determine hplaced hdetermine (by simp)
    exact ⟨text, hwritten⟩
  · rw [hat.root, hat.lockFile] at hdetermine
    obtain ⟨text, hwritten, -⟩ := Site.written_of_determine hplaced hdetermine hstate
    exact ⟨text, hwritten⟩

/-- What is to be done is told by reading alone. -/
theorem onlyReads_determine {root lockFile : Path} :
    Always OnlyReads (InstallState.determine root lockFile version) := by
  refine Always.bind chains_onlyReads (Always.asking chains_onlyReads _) fun there => ?_
  split
  · refine Always.bind chains_onlyReads ?_ fun found => ?_
    · intro host result host' h
      rw [Site.exec_read_files h]
      exact onlyReads_counted host
    · split <;> exact Always.pure chains_onlyReads _
  · exact Always.pure chains_onlyReads _

namespace Installer

/-- The version is resolved to a concrete one. -/
structure Resolves (tool : Installer) (version : String) (host resolved : Host) : Prop where
  told : exec (within s!"resolving {tool.name} version" tool.resolveVersion) host =
    (.ok version, resolved)
  concrete : isLatest version = false

/-- Everything up to the build succeeds: nothing is installed, or what was installed was removed. What
the installation will have done is told by then. -/
inductive Clears (tool : Installer) (version : String) (host cleared : Host) :
    InstallOutcome → Prop
  | new (resolved : Host) (resolves : tool.Resolves version host resolved)
      (state : exec (requiredState tool version) resolved = (.ok .new, cleared)) :
      Clears tool version host cleared (.installed version)
  | update (resolved required read : Host) (previous : Option String)
      (resolves : tool.Resolves version host resolved)
      (state : exec (requiredState tool version) resolved = (.ok .update, required))
      (reads : exec (Lock.read tool.lockFile) required = (.ok previous, read))
      (cleans : exec (clean tool) read = (.ok (), cleared)) :
      Clears tool version host cleared (.updated previous version)

end Installer

/-- An installation that succeeds found the version installed, or built it, after what was installed
before was removed. -/
theorem install_ok_cases {outcome : InstallOutcome}
    (h : exec (install tool) host = (.ok outcome, host')) :
    (∃ version resolved, outcome = .skipped version ∧ tool.Resolves version host resolved ∧
        exec (requiredState tool version) resolved = (.ok .skip, host')) ∨
      ∃ version cleared, tool.Clears version host cleared outcome ∧
        exec (buildVersion tool version) cleared = (.ok (), host') := by
  rw [install] at h
  obtain ⟨version, resolved, htold, h⟩ := exec_bind_ok h
  cases hlatest : isLatest version with
  | true =>
    rw [hlatest, if_pos rfl] at h
    exact absurd (Prod.mk.inj h).1 (by simp)
  | false =>
    have hresolves : tool.Resolves version host resolved := ⟨htold, hlatest⟩
    rw [hlatest, if_neg (by simp)] at h
    obtain ⟨state, required, hstate, h⟩ := exec_bind_ok h
    cases state with
    | skip =>
      obtain ⟨heq, rfl⟩ := Prod.mk.inj h
      exact .inl ⟨version, resolved, (Except.ok.inj heq).symm, hresolves, hstate⟩
    | update =>
      obtain ⟨previous, read, hreads, h⟩ := exec_bind_ok h
      obtain ⟨⟨⟩, cleared, hcleans, h⟩ := exec_bind_ok h
      obtain ⟨⟨⟩, built, hbuild, h⟩ := exec_bind_ok h
      obtain ⟨heq, rfl⟩ := Prod.mk.inj h
      obtain rfl := Except.ok.inj heq
      exact .inr ⟨version, cleared,
        .update resolved required read previous hresolves hstate hreads hcleans, hbuild⟩
    | new =>
      obtain ⟨⟨⟩, built, hbuild, h⟩ := exec_bind_ok h
      obtain ⟨heq, rfl⟩ := Prod.mk.inj h
      obtain rfl := Except.ok.inj heq
      exact .inr ⟨version, required, .new resolved hresolves hstate, hbuild⟩

/-- The version that an installation built. -/
def InstallOutcome.built? : InstallOutcome → Option String
  | .installed version | .updated _ version => some version
  | .skipped _ => none

theorem Installer.Clears.built?_eq {outcome : InstallOutcome} {cleared : Host}
    (h : tool.Clears version host cleared outcome) : outcome.built? = some version := by
  cases h <;> rfl

theorem Installer.Clears.exists_resolves {outcome : InstallOutcome} {cleared : Host}
    (h : tool.Clears version host cleared outcome) :
    ∃ resolved, tool.Resolves version host resolved := by
  cases h with
  | new resolved resolves => exact ⟨resolved, resolves⟩
  | update resolved required read previous resolves => exact ⟨resolved, resolves⟩

/-! ### What is built is built where no lock file is -/

namespace Site

section Clears

variable {outcome : InstallOutcome} {resolved cleared : Host} (hsound : site.Sound host)
  (hat : tool.IsAt site) (hheeds : tool.Heeds site site.frame)

include hsound hheeds

theorem Sound.of_resolves (h : tool.Resolves version host resolved) : site.Sound resolved :=
  hsound.of_stands (hheeds.resolveVersion hsound.lies (exec_within_ok h.told))

theorem Sound.of_requiredState {state : InstallState}
    (h : exec (RamlBuild.requiredState tool version) host = (.ok state, host')) :
    site.Sound host' :=
  hsound.of_stands (Frame.stands_requiredState hheeds (fun _ hv => hv) h hsound.placed)

include hat

omit hheeds in
/-- What is installed is looked for where it would be. -/
theorem Sound.not_locked_of_new (hpath : Files.requirePath site.root = .ok ())
    (h : exec (RamlBuild.requiredState tool version) host = (.ok .new, host')) :
    ¬site.Locked host'.files := by
  rcases requiredState_ok_cases h with ⟨-, present, -, -, hnew⟩ | ⟨-, hdetermine⟩
  · cases present <;> contradiction
  · rw [hat.root, hat.lockFile] at hdetermine
    obtain ⟨hfiles, -, hnew, -⟩ := hsound.determine hpath hdetermine
    rw [hfiles]
    exact hnew rfl

/-- When everything up to the build succeeded, no lock file is left. -/
theorem Sound.of_clears (h : tool.Clears version host cleared outcome) :
    site.Sound cleared ∧
      (Files.requirePath site.root = .ok () → ¬site.Locked cleared.files) := by
  cases h with
  | new resolved resolves state =>
    have hsound₁ := hsound.of_resolves hheeds resolves
    exact ⟨hsound₁.of_requiredState hheeds state,
      fun hpath => hsound₁.not_locked_of_new hat hpath state⟩
  | update resolved required read previous resolves state reads cleans =>
    have hsound₁ := (hsound.of_resolves hheeds resolves).of_requiredState hheeds state
    have hsound₂ : site.Sound read := by
      rw [Site.exec_read_files reads]
      exact hsound₁.of_stands (Frame.stands_of_files_eq rfl rfl)
    obtain ⟨hsound₃, hnot⟩ := hsound₂.not_locked_of_clean hat hheeds cleans
    exact ⟨hsound₃, fun _ => hnot⟩

/-- What an installation builds, it leaves in the lock file. -/
theorem Sound.written_of_clears (hroot : site.root.text ≠ "")
    (hclears : tool.Clears version host cleared outcome)
    (h : exec (RamlBuild.buildVersion tool version) cleared = (.ok (), host')) :
    site.Written (Text.trimmed version) host'.files := by
  obtain ⟨hsound', hnot⟩ := hsound.of_clears hat hheeds hclears
  have hpath := requirePath_of_buildVersion hat (hheeds.mono (fun _ hv => hv) nofun)
    hsound'.placed hroot h
  exact hsound'.written_of_buildVersion hat hheeds hroot (hnot hpath) h

end Clears

end Site

end RamlBuild
