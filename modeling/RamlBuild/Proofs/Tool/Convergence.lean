import Mathlib.Data.List.Forall2
import RamlBuild.Pipeline
import RamlBuild.Proofs.Tool.Settled

/-!
# Installations converge

Tools that share directories are installed one after the other. When that succeeds, every tool is
settled at its version with its artifacts in place, whatever was there before, because none of the
later tools touches them. So a second run for the same versions skips every tool and changes nothing.

## Main definitions

* `Tenants` — tools that work side by side, each at its site
* `Owner` — a tool with its site and the locations of its artifacts
* `Owner.Sensible` — what is asked of the steps of a tool
* `Owner.Respects` — a tool leaves the artifacts and the lock file of another alone
* `resolvedVersions` — the versions that the tools of a run are brought to

## Main results

* `Frame.stands_installTools` — what a run of installations leaves alone
* `Owner.Sensible.done_of_install` — what one installation leaves
* `done_of_installTools` — what a run of installations leaves
* `runInstalls_again` — a second run skips every tool
* `bareResults_again` — but not where the root is the empty path
-/

namespace RamlBuild

open Build

/-! ### Runs of installations -/

/-- A tool with the site that it is installed at. -/
structure Tenant where
  /-- The tool. -/
  tool : Installer
  /-- Where it is installed. -/
  site : Site

section Tenants

variable {tenants rest : List Tenant} {tenant : Tenant} {frame : Frame} {host host' : Host}

/-- Each tool works at its site, and no tool puts the site of a later one elsewhere. -/
structure Tenants (tenants : List Tenant) : Prop where
  works : ∀ tenant ∈ tenants, tenant.tool.WorksAt tenant.site
  aside : tenants.Pairwise fun first later => first.tool.Minds first.site later.site.course

theorem Tenants.tail (h : Tenants (tenant :: rest)) : Tenants rest :=
  ⟨fun t ht => h.works t (List.mem_cons_of_mem _ ht), (List.pairwise_cons.1 h.aside).2⟩

/-- The sites of later tools stay where they are. -/
theorem Tenants.placed_rest {result : Except Failure InstallOutcome}
    (h : Tenants (tenant :: rest)) (hplaced : ∀ t ∈ tenant :: rest, t.site.Placed host.files)
    (hinstall : exec (install tenant.tool) host = (result, host')) :
    ∀ t ∈ rest, t.site.Placed host'.files := by
  intro t ht
  have hworks := h.works tenant List.mem_cons_self
  have hstands := (Frame.stands_install hworks.isAt hworks.heeds
    ((List.pairwise_cons.1 h.aside).1 t ht).heeds ⟨fun _ _ h => h, fun h => h⟩
    (hplaced tenant List.mem_cons_self) hinstall).1
  exact (hplaced t (List.mem_cons_of_mem _ ht)).of_keeps hstands.1 fun _ hv => hv

/-- A run of installations leaves a frame alone that the steps of all tools leave alone, whether it
succeeds or fails. -/
theorem Frame.stands_installTools {result : Except Failure (List StageReport)}
    (htenants : Tenants tenants) (hminds : ∀ t ∈ tenants, t.tool.Minds t.site frame)
    (hclear : ∀ t ∈ tenants, frame.Clear t.site)
    (hplaced : ∀ t ∈ tenants, t.site.Placed host.files)
    (h : exec (installTools (tenants.map (·.tool))) host = (result, host')) :
    frame.Stands host host' := by
  induction tenants generalizing host result with
  | nil =>
    obtain ⟨-, rfl⟩ := Prod.mk.inj h
    exact (chains_stands frame).refl host
  | cons tenant rest ih =>
    have hinstalls : ∀ {outcome host₁}, exec (install tenant.tool) host = (outcome, host₁) →
        frame.Stands host host₁ := fun hx =>
      have hworks := htenants.works tenant List.mem_cons_self
      (stands_install hworks.isAt hworks.heeds (hminds tenant List.mem_cons_self).heeds
        (hclear tenant List.mem_cons_self) (hplaced tenant List.mem_cons_self) hx).1
    rcases exec_bind_cases h with ⟨outcome, host₁, hinstall, h⟩ | ⟨failure, hinstall, -⟩
    · have hplaced₁ := htenants.placed_rest hplaced hinstall
      rw [exec_bind_of_ok (exec_report ..)] at h
      refine (chains_stands frame).trans (hinstalls hinstall) ?_
      obtain ⟨result', hrest⟩ : ∃ result', exec (installTools (rest.map (·.tool))) host₁ =
          (result', host') := by
        rcases exec_bind_cases h with ⟨stages, host₂, hrest, h⟩ | ⟨failure, hrest, -⟩
        · obtain ⟨-, rfl⟩ := Prod.mk.inj h
          exact ⟨_, hrest⟩
        · exact ⟨_, hrest⟩
      exact ih htenants.tail (fun t ht => hminds t (List.mem_cons_of_mem _ ht))
        (fun t ht => hclear t (List.mem_cons_of_mem _ ht)) hplaced₁ hrest
    · exact hinstalls hinstall

end Tenants

/-! ### Tools with their artifacts -/

/-- A tool with its site and the locations of its artifacts. -/
structure Owner extends Tenant where
  /-- The locations of the artifacts. -/
  artifacts : Location → Prop

/-- The versions that the tools of a run tell, each one on the host that the installations before it
leave. -/
def resolvedVersions : List Installer → Host → List (Option String)
  | [], _ => []
  | tool :: rest, host =>
    (exec tool.resolveVersion host).1.toOption :: resolvedVersions rest (exec (install tool) host).2

/-- Two tools differ at most in the steps that remove, fetch and build. -/
def Installer.AsksLike (tool tool' : Installer) : Prop :=
  tool' =
    { tool with
      removeArtifacts := tool'.removeArtifacts
      download := tool'.download
      buildAndInstall := tool'.buildAndInstall }

namespace Owner

variable {owner other : Owner} {fs fs' : Files}

/-- What the others have to leave alone. -/
def frame (owner : Owner) : Frame :=
  ⟨owner.site.OnCourse, fun l => l = owner.site.lock ∨ owner.artifacts l⟩

/-- The artifacts, and the way to them. -/
def holdings (owner : Owner) : Frame :=
  ⟨owner.site.OnCourse, owner.artifacts⟩

/-- The tool tells that its artifacts are there, as long as they stay as they are in the given
files. -/
def Finds (owner : Owner) (fs : Files) : Prop :=
  ∀ host, owner.holdings.Keeps fs host.files → (∀ n, host.faults n = none) →
    (exec owner.tool.artifactsPresent host).1 = .ok true

/-- A step that only asks leaves the files and the schedule of faults alone. -/
def OnlyAsks (host host' : Host) : Prop :=
  host'.files = host.files ∧ host'.faults = host.faults

/-- What is asked of a tool at its site: its steps do not put the site elsewhere and leave the lock
file to the caller, versions are trimmed, and once it has built its artifacts it tells that they are
there. -/
structure Sensible (owner : Owner) : Prop where
  works : owner.tool.WorksAt owner.site
  minds : owner.tool.Minds owner.site owner.site.frame
  asksVersion : Always OnlyAsks owner.tool.resolveVersion
  asksPresent : Always OnlyAsks owner.tool.artifactsPresent
  trimmed : ∀ {host version host'}, exec owner.tool.resolveVersion host = (.ok version, host') →
    Text.trimmed version = version
  finds : ∀ {host version dir host'}, owner.site.Lies host.files →
    owner.tool.IsBuildPath host.files dir →
    exec (owner.tool.buildAndInstall version dir) host = (.ok (), host') → owner.Finds host'.files
  /-- Whether the artifacts are there is told by the artifacts. -/
  findsAgain : ∀ {host host'}, owner.site.Lies host.files →
    exec owner.tool.artifactsPresent host = (.ok true, host') → owner.Finds host.files
  lock : ¬owner.artifacts owner.site.lock
  /-- Neither the artifacts nor the lock file are left in a build directory. -/
  building : ∀ n l, (owner.site.directory ++ [owner.tool.buildName n]).isPrefixOf l = true →
    ¬owner.site.OnCourse l ∧ ¬owner.artifacts l

/-- No step of a tool touches the artifacts or the lock file of another or puts its site elsewhere,
and its own root and lock file are not among them. -/
structure Respects (owner other : Owner) : Prop where
  minds : owner.tool.Minds owner.site other.frame
  clear : other.frame.Clear owner.site

/-- A tool that is brought to a version, with its artifacts in place. -/
structure Done (owner : Owner) (version : String) (fs : Files) : Prop where
  settled : owner.site.Settled version fs
  finds : owner.Finds fs
  concrete : isLatest version = false

theorem Finds.of_keeps (h : owner.Finds fs) (hkeeps : owner.holdings.Keeps fs fs') :
    owner.Finds fs' :=
  fun host hsame hquiet => h host (hkeeps.trans hsame) hquiet

theorem Done.of_keeps {version : String} (h : owner.Done version fs)
    (hkeeps : owner.frame.Keeps fs fs') : owner.Done version fs' where
  settled := h.settled.of_keeps (hkeeps.mono (fun _ hv => hv) fun _ => .inl)
  finds := h.finds.of_keeps (hkeeps.mono (fun _ hv => hv) fun _ => .inr)
  concrete := h.concrete

/-! ### One installation -/

variable {host host' : Host} {version : String}

theorem stands_of_onlyAsks {frame : Frame} (h : OnlyAsks host host') : frame.Stands host host' :=
  Frame.stands_of_files_eq h.1 h.2

theorem onlyAsks_of_onlyReads (h : OnlyReads host host') : OnlyAsks host host' :=
  ⟨h.files_eq, h.faults_eq⟩

theorem OnlyAsks.trans {host'' : Host} (h : OnlyAsks host host') (h' : OnlyAsks host' host'') :
    OnlyAsks host host'' :=
  ⟨h'.1.trans h.1, h'.2.trans h.2⟩

/-- After a version was built the tool finds its artifacts. -/
theorem Sensible.finds_of_buildVersion (hsensible : owner.Sensible)
    (hplaced : owner.site.Placed host.files)
    (h : exec (buildVersion owner.tool version) host = (.ok (), host')) :
    owner.Finds host'.files := by
  have hworks := hsensible.works
  rw [buildVersion_eq_inside] at h
  obtain ⟨⟨⟩, host₁, hcreate, h⟩ := exec_bind_ok h
  have hleads : host.files.LeadsBy (· ∈ owner.site.way) owner.tool.root :=
    hworks.root ▸ hplaced.lies.leads.leadsBy
  have hstands := owner.site.course.stands_createDirectories hleads clear_course.way hcreate
  have hplaced₁ := hplaced.of_keeps hstands.1 fun _ hv => hv
  rcases exec_buildInside_cases hworks.isAt hworks.heeds hplaced₁ h with
    ⟨hfailed, -⟩ | ⟨n, loc, host₂, outcome, last, hruns, hok⟩
  · exact absurd rfl hfailed
  · obtain rfl := hok rfl
    obtain ⟨⟨⟩, fetched, hfetch, hassemble⟩ := exec_bind_ok hruns.assembles
    obtain ⟨⟨⟩, built, hbuild, hwrite⟩ := exec_bind_ok hassemble
    have hstands₁ := hworks.minds.download hruns.placed.lies hruns.isBuildPath (exec_within_ok hfetch)
    have hplaced₂ := hruns.placed.of_keeps hstands₁.1 fun _ hv => hv
    have hdir : owner.tool.IsBuildPath fetched.files
        (host₁.files.workingDirectory.path / owner.tool.root / owner.tool.buildName n) := by
      rw [Installer.IsBuildPath, hstands₁.1.workingDirectory]
      exact hruns.isBuildPath
    have hfinds := hsensible.finds hplaced₂.lies hdir (exec_within_ok hbuild)
    have hstands₂ := hworks.minds.buildAndInstall hplaced₂.lies hdir (exec_within_ok hbuild)
    have hplaced₃ := hplaced₂.of_keeps hstands₂.1 fun _ hv => hv
    -- Neither the lock file nor the build directory is one of the artifacts.
    rw [hworks.lockFile, Lock.write] at hwrite
    have hstands₃ : owner.holdings.Stands built last := by
      refine Frame.stands_writeAtomically ?_ (exec_within_ok hwrite)
      intro target hplace
      obtain rfl := hplaced₃.locate_eq hplace
      exact ⟨hsensible.lock, fun _ => hplaced₃.notLink⟩
    have hgone : owner.holdings.Keeps last.files host'.files := by
      have hne := Files.ne_nil_of_get?_eq_none hruns.free
      refine (Frame.keeps_eraseTree_off hne ?_).trans
        (Frame.keeps_of_get?_eq hruns.get?_eq hruns.workingDirectory)
      rw [hruns.loc_eq]
      exact hsensible.building n
    exact hfinds.of_keeps (hstands₃.1.trans hgone)

/-- An installation that succeeds leaves the tool at the version it resolved, whatever was there
before. -/
theorem Sensible.done_of_install {outcome : InstallOutcome} (hsensible : owner.Sensible)
    (hsound : owner.site.Sound host) (hroot : owner.site.root.text ≠ "")
    (h : exec (install owner.tool) host = (.ok outcome, host')) :
    ∃ version, (exec owner.tool.resolveVersion host).1 = .ok version ∧
      owner.Done version host'.files := by
  have hworks := hsensible.works
  have hheeds := hsensible.minds.heeds
  rcases install_ok_cases h with ⟨version, resolved, -, hresolves, hrequired⟩ |
    ⟨version, cleared, hclears, hbuild⟩
  · -- A tool that is skipped was settled, and found its artifacts.
    refine ⟨version, by rw [exec_within_ok hresolves.told], ?_⟩
    have hsound₁ := hsound.of_resolves hheeds hresolves
    rcases requiredState_ok_cases hrequired with
      ⟨asked, present, hdetermine, hpresent, hskip⟩ | ⟨hne, -⟩
    · have hasked := onlyReads_determine hdetermine
      have htold := hsensible.asksPresent hpresent
      rw [hworks.root, hworks.lockFile] at hdetermine
      have hsettled := Site.settled_of_determine hsound₁.placed hdetermine
      cases present with
      | true =>
        have hlies : owner.site.Lies asked.files := hasked.files_eq ▸ hsound₁.lies
        have hfinds := hsensible.findsAgain hlies hpresent
        rw [← htold.1] at hfinds
        rw [← hasked.files_eq, ← htold.1] at hsettled
        exact ⟨hsettled, hfinds, hresolves.concrete⟩
      | false => contradiction
    · exact absurd rfl hne
  · obtain ⟨resolved, hresolves⟩ := hclears.exists_resolves
    have htold := exec_within_ok hresolves.told
    have hsound' := (hsound.of_clears hworks.isAt hheeds hclears).1
    have hsettled := (hsound.written_of_clears hworks.isAt hheeds hroot hclears hbuild).settled
    rw [hsensible.trimmed htold, hsensible.trimmed htold] at hsettled
    exact ⟨version, by rw [htold], hsettled, hsensible.finds_of_buildVersion hsound'.placed hbuild,
      hresolves.concrete⟩

/-- Where a tool is done its installation only asks, and takes no other step. -/
theorem Done.exec_install (hdone : owner.Done version host.files)
    (hsensible : owner.Sensible) (hquiet : ∀ n, host.faults n = none)
    (hversion : (exec owner.tool.resolveVersion host).1 = .ok version) :
    ∃ last, OnlyAsks host last ∧ ∀ {tool}, owner.tool.AsksLike tool →
      exec (install tool) host = (.ok (.skipped version), last) := by
  obtain ⟨resolved, hresolve⟩ : ∃ resolved, exec owner.tool.resolveVersion host =
      (.ok version, resolved) := ⟨_, exec_eq_of_fst hversion⟩
  have hasks := hsensible.asksVersion hresolve
  have hquiet₁ : ∀ n, resolved.faults n = none := fun n => by rw [hasks.2, hquiet]
  have hdone₁ : owner.Done version resolved.files := hasks.1 ▸ hdone
  have hdetermine := hdone₁.settled.exec_determine hquiet₁
  have hpresent : (exec owner.tool.artifactsPresent (counted resolved)).1 = .ok true :=
    hdone₁.finds (counted resolved) (Frame.Keeps.refl _ _) hquiet₁
  obtain ⟨last, hlast⟩ : ∃ last, exec owner.tool.artifactsPresent (counted resolved) =
      (.ok true, last) := ⟨_, exec_eq_of_fst hpresent⟩
  refine ⟨last, (hasks.trans (onlyAsks_of_onlyReads (onlyReads_counted resolved))).trans
    (hsensible.asksPresent hlast), ?_⟩
  intro tool hlike
  have hstate : exec (requiredState tool version) resolved = (.ok .skip, last) := by
    rw [hlike]
    simp only [requiredState, hsensible.works.root, hsensible.works.lockFile]
    rw [exec_bind_of_ok hdetermine]
    simp only [exec_bind_of_ok hlast, exec_pure, if_true]
  have hresolve' : exec (within s!"resolving {tool.name} version" tool.resolveVersion) host =
      (.ok version, resolved) := by
    rw [exec_within, show tool.resolveVersion = owner.tool.resolveVersion by rw [hlike], hresolve]
    rfl
  rw [install, exec_bind_of_ok hresolve', hdone.concrete, if_neg (by simp), exec_bind_of_ok hstate]
  rfl

end Owner

/-! ### Runs -/

variable {owners : List Owner} {host host' : Host} {stages : List StageReport}

/-- A run of installations that succeeds leaves every tool at the version it resolved. -/
theorem done_of_installTools (hsensible : ∀ o ∈ owners, o.Sensible)
    (hrespects : owners.Pairwise fun a b => a.Respects b ∧ b.Respects a)
    (hsound : ∀ o ∈ owners, o.site.Sound host) (hroot : ∀ o ∈ owners, o.site.root.text ≠ "")
    (h : exec (installTools (owners.map (·.tool))) host = (.ok stages, host')) :
    ∃ versions, resolvedVersions (owners.map (·.tool)) host = versions.map some ∧
      List.Forall₂ (fun owner version => owner.Done version host'.files) owners versions := by
  induction owners generalizing host stages with
  | nil => exact ⟨[], rfl, .nil⟩
  | cons owner rest ih =>
    obtain ⟨hothers, hrest⟩ := List.pairwise_cons.1 hrespects
    obtain ⟨outcome, host₁, hinstall, h⟩ := exec_bind_ok h
    rw [exec_bind_of_ok (exec_report ..)] at h
    obtain ⟨stages', host₂, hinstalls, h⟩ := exec_bind_ok h
    obtain ⟨-, rfl⟩ := Prod.mk.inj h
    have hsensible' := fun o ho => hsensible o (List.mem_cons_of_mem _ ho)
    have hplaced := (hsound owner List.mem_cons_self).placed
    -- The others are as sound as before, since the first one touches none of them.
    have hsound₁ : ∀ o ∈ rest, o.site.Sound host₁ := by
      intro o ho
      have hworks := (hsensible owner List.mem_cons_self).works
      have hstands := (Frame.stands_install hworks.isAt hworks.heeds (hothers o ho).1.minds.heeds
        (hothers o ho).1.clear hplaced hinstall).1
      exact (hsound o (List.mem_cons_of_mem _ ho)).of_stands
        (hstands.mono (fun _ hv => hv) fun _ => .inl)
    obtain ⟨version, hversion, hdone⟩ := (hsensible owner List.mem_cons_self).done_of_install
      (hsound owner List.mem_cons_self) (hroot owner List.mem_cons_self) hinstall
    obtain ⟨versions, hversions, hall⟩ := ih hsensible' hrest hsound₁
      (fun o ho => hroot o (List.mem_cons_of_mem _ ho)) hinstalls
    -- And they leave what the first one did alone.
    have hstands : owner.frame.Stands host₁ host₂ := by
      have htenants : Tenants (rest.map (·.toTenant)) := by
        refine ⟨by simpa using fun o ho => (hsensible' o ho).works, List.pairwise_map.2 ?_⟩
        exact hrest.imp fun hmutual => hmutual.1.minds.mono (fun _ hv => hv) nofun
      refine Frame.stands_installTools htenants ?_ ?_ ?_
        (by rw [List.map_map]; exact hinstalls)
      · simpa using fun o ho => (hothers o ho).2.minds
      · simpa using fun o ho => (hothers o ho).2.clear
      · simpa using fun o ho => (hsound₁ o ho).placed
    refine ⟨version :: versions, ?_, .cons (hdone.of_keeps hstands.1) hall⟩
    rw [List.map_cons, resolvedVersions, hversion, hinstall, hversions]
    rfl

/-- A run of installations where every tool is done only asks, skips every tool and takes no other
step. -/
theorem exec_installTools_of_done {versions : List String} {fs : Files}
    (hsensible : ∀ o ∈ owners, o.Sensible)
    (hdone : List.Forall₂ (fun owner version => owner.Done version fs) owners versions)
    (hfiles : host.files = fs) (hquiet : ∀ n, host.faults n = none)
    (hversions : resolvedVersions (owners.map (·.tool)) host = versions.map some) :
    ∃ stages last, Owner.OnlyAsks host last ∧
      stages.map (·.result) = versions.map (fun v => .skipped s!"{v} already installed") ∧
      ∀ {tools}, List.Forall₂ Installer.AsksLike (owners.map (·.tool)) tools →
        exec (installTools tools) host = (.ok stages, last) := by
  induction hdone generalizing host with
  | nil =>
    refine ⟨[], host, ⟨rfl, rfl⟩, rfl, ?_⟩
    intro tools htools
    cases htools
    rfl
  | @cons owner version rest versions hfirst hrest ih =>
    rw [List.map_cons, resolvedVersions, List.map_cons, List.cons.injEq] at hversions
    obtain ⟨hversion, hversions⟩ := hversions
    have hresolve : (exec owner.tool.resolveVersion host).1 = .ok version := by
      cases hx : (exec owner.tool.resolveVersion host).1 with
      | error failure =>
        rw [hx] at hversion
        contradiction
      | ok told =>
        rw [hx] at hversion
        rw [Option.some.inj hversion]
    have hself : owner.tool.AsksLike owner.tool := rfl
    obtain ⟨last₁, hasks₁, hinstall⟩ := (hfiles ▸ hfirst).exec_install
      (hsensible owner List.mem_cons_self) hquiet hresolve
    rw [hinstall hself] at hversions
    obtain ⟨stages, last, hasks, hresults, hinstalls⟩ :=
      ih (fun o ho => hsensible o (List.mem_cons_of_mem _ ho)) (hasks₁.1.trans hfiles)
        (fun n => by rw [hasks₁.2, hquiet]) hversions
    refine ⟨⟨s!"install:{owner.tool.name}", last₁.now, .skipped s!"{version} already installed"⟩ ::
      stages, last, hasks₁.trans hasks, by rw [List.map_cons, hresults, List.map_cons], ?_⟩
    intro tools htools
    obtain ⟨tool, tools', hlike, htools', rfl⟩ := List.forall₂_cons_left_iff.1 htools
    have hname : tool.name = owner.tool.name := by rw [hlike]
    rw [installTools, exec_bind_of_ok (hinstall hlike), exec_bind_of_ok (exec_report ..),
      exec_bind_of_ok (hinstalls htools'), hname]
    rfl

/-! ### Tools that share a directory -/

/-- The site of a tool in a directory that several tools share. -/
def jarSite (name : String) (hname : IsPlainName (name ++ ".lock")) : Site where
  root := ⟨"/tools"⟩
  way := [[], ["tools"]]
  directory := ["tools"]
  lockName := name ++ ".lock"
  artifacts := []
  lockName_plain := hname
  lockName_not_mem := List.not_mem_nil

/-- The path of the jar of a tool. -/
def jarPath (name : String) : Path := (⟨"/tools"⟩ : Path) / (name ++ ".jar")

/-- A tool that installs one jar. -/
def jarTool (name version : String) : Installer where
  name := name
  root := ⟨"/tools"⟩
  lockFile := (⟨"/tools"⟩ : Path) / (name ++ ".lock")
  resolveVersion := pure version
  artifactsPresent := asking (·.hasEntry (jarPath name))
  removeArtifacts := do
    if ← asking (·.hasEntry (jarPath name)) then removeFile (jarPath name)
  download _ _ := pure ()
  buildAndInstall version _ := writeAtomically (jarPath name) version

/-- The tool with its site and its jar. -/
def jarOwner (name version : String) (hname : IsPlainName (name ++ ".lock")) : Owner where
  tool := jarTool name version
  site := jarSite name hname
  artifacts := fun l => l = ["tools", name ++ ".jar"]

section JarTools

variable {name version : String} {hname : IsPlainName (name ++ ".lock")} {frame : Frame}
  {fs fs' : Files} {l : Location}

theorem place_jarPath (hjar : IsPlainName (name ++ ".jar")) (hlies : (jarSite name hname).Lies fs)
    (hplace : fs.place (jarPath name) = .ok l) : l = ["tools", name ++ ".jar"] :=
  hlies.leads.place_eq hjar hplace

/-- The steps of the tool touch its jar alone. -/
theorem minds_jarTool (hjar : IsPlainName (name ++ ".jar"))
    (hways : ¬frame.ways ["tools", name ++ ".jar"]) (hkept : ¬frame.kept ["tools", name ++ ".jar"]) :
    (jarTool name version).Minds (jarSite name hname) frame := by
  have hoff : ∀ {host : Host}, (jarSite name hname).Lies host.files → ∀ target,
      host.files.place (jarPath name) = .ok target →
        ¬frame.kept target ∧ (frame.ways target → host.files.linkAt target = none) := by
    intro host hlies target hplace
    obtain rfl := place_jarPath hjar hlies hplace
    exact ⟨hkept, fun h => absurd h hways⟩
  refine ⟨?_, ?_, ?_, ?_, ?_⟩
  · intro host result host' _ h
    obtain ⟨-, rfl⟩ := Prod.mk.inj h
    exact Frame.stands_of_files_eq rfl rfl
  · intro host result host' _ h
    obtain ⟨-, rfl⟩ := Prod.mk.inj h
    exact Frame.stands_of_files_eq rfl rfl
  · intro host result host' hlies h
    simp only [jarTool, exec_asking_bind] at h
    split at h
    · exact Frame.stands_removeFile (hoff hlies) h
    · obtain ⟨-, rfl⟩ := Prod.mk.inj h
      exact Frame.stands_of_files_eq rfl rfl
  · intro host version' dir result host' _ _ h
    obtain ⟨-, rfl⟩ := Prod.mk.inj h
    exact Frame.stands_of_files_eq rfl rfl
  · intro host version' dir result host' hlies _ h
    exact Frame.stands_writeAtomically (hoff hlies) h

/-- A jar that is found is found while it stays. -/
theorem finds_jarOwner (hjar : IsPlainName (name ++ ".jar")) (hlies : (jarSite name hname).Lies fs)
    (hentry : fs.hasEntry (jarPath name) = true) : (jarOwner name version hname).Finds fs := by
  intro host hkeeps _
  have hfound : host.files.hasEntry (jarPath name) = true := by
    unfold Files.hasEntry at hentry ⊢
    split at hentry
    · rename_i l hplace
      have hstays := Site.stays_of_keeps hkeeps fun v hv => .inl hv
      obtain rfl := place_jarPath hjar hlies hplace
      rw [show host.files.place (jarPath name) = .ok ["tools", name ++ ".jar"] from
        hlies.place_of_stays hjar hstays hplace]
      simp only
      rwa [hkeeps.get?_eq _ rfl]
    · contradiction
  exact congrArg Except.ok hfound

/-- An entry whose name does not begin with a dot is not in a build directory. -/
theorem not_isPrefixOf_buildName {tool : Installer} {dir : Location} {entry : String}
    (hdot : entry.toList.head? ≠ some '.') (n : Nat) :
    ¬(dir ++ [tool.buildName n]).isPrefixOf (dir ++ [entry]) = true := by
  rw [List.isPrefixOf_iff_prefix, List.prefix_append_right_inj]
  intro hbelow
  obtain rfl := List.singleton_inj.1 (hbelow.eq_of_length rfl)
  exact hdot (head?_buildName tool n)

/-- The tool does what is asked of its steps, when its files do not begin with a dot. -/
theorem sensible_jarOwner (hjar : IsPlainName (name ++ ".jar")) (hslash : '/' ∉ name.toList)
    (hversion : Text.trimmed version = version) (hdot : (name ++ ".jar").toList.head? ≠ some '.')
    (hdot' : (name ++ ".lock").toList.head? ≠ some '.') :
    (jarOwner name version hname).Sensible := by
  have hne : ["tools", name ++ ".jar"] ≠ ["tools", name ++ ".lock"] := by
    intro heq
    have hends := congrArg String.toList (List.cons.inj (List.cons.inj heq).2).1
    rw [String.toList_append, String.toList_append, List.append_cancel_left_eq] at hends
    exact absurd hends (by decide)
  have hcourse : ¬(jarSite name hname).OnCourse ["tools", name ++ ".jar"] := by
    rintro (hway | hlock)
    · simp [jarSite] at hway
    · exact hne hlock
  refine ⟨⟨rfl, rfl, hslash, minds_jarTool hjar hcourse nofun⟩, minds_jarTool hjar hcourse hne,
    ?_, ?_, ?_, ?_, ?_, hne.symm, ?_⟩
  · intro host result host' h
    obtain ⟨-, rfl⟩ := Prod.mk.inj h
    exact ⟨rfl, rfl⟩
  · intro host result host' h
    obtain ⟨-, rfl⟩ := Prod.mk.inj h
    exact ⟨rfl, rfl⟩
  · intro host told host' h
    obtain rfl := Except.ok.inj (Prod.mk.inj h).1
    exact hversion
  · intro host version' dir host' hlies _ h
    obtain ⟨target, hplace, hreplaced, -⟩ := writeAtomically_ok h
    obtain rfl := place_jarPath hjar hlies hplace
    have hstands : (jarSite name hname).course.Stands host host' := by
      refine Frame.stands_writeAtomically ?_ h
      intro target hplace
      obtain rfl := place_jarPath hjar hlies hplace
      exact ⟨nofun, fun h => absurd h hcourse⟩
    have hstays := Site.stays_of_keeps hstands.1 fun v hv => .inl hv
    refine finds_jarOwner hjar (hlies.of_stays hstays) ?_
    unfold Files.hasEntry
    rw [show host'.files.place (jarPath name) = .ok ["tools", name ++ ".jar"] from
      hlies.place_of_stays hjar hstays hplace]
    simp only [hreplaced.get?_target, Option.isSome_some]
  · intro host host' hlies h
    exact finds_jarOwner hjar hlies (Except.ok.inj (Prod.mk.inj h).1)
  · intro n l hbelow
    refine ⟨?_, ?_⟩
    · rintro (hway | rfl)
      · have hlength := (List.isPrefixOf_iff_prefix.1 hbelow).length_le
        have hshort : l.length ≤ 1 := by
          rcases List.mem_pair.1 hway with rfl | rfl <;> simp
        simp only [jarOwner, jarSite, List.length_append, List.length_singleton] at hlength
        omega
      · exact not_isPrefixOf_buildName hdot' n hbelow
    · rintro rfl
      exact not_isPrefixOf_buildName hdot n hbelow

end JarTools

/-- The first of two tools that share a directory. -/
def redOwner : Owner := jarOwner "red" "1.0" (by decide)

/-- The second one. -/
def blueOwner : Owner := jarOwner "blue" "2.0" (by decide)

theorem trail_tools :
    sampleHost.files.trail Files.maxLinks (sampleHost.files.start ⟨"/tools"⟩) (Path.walked ⟨"/tools"⟩) =
      some ⟨[[], ["tools"]], ["tools"]⟩ := by
  rfl

theorem sound_jarSite {name : String} (hname : IsPlainName (name ++ ".lock")) :
    (jarSite name hname).Sound sampleHost := by
  have hnone : sampleHost.files.get? (jarSite name hname).lock = none := by
    simp [sampleHost, quietHost, Files.get?, jarSite, Site.lock]
  refine ⟨⟨?_, ?_, ?_⟩, fun _ h => absurd h (by simp [sampleHost, quietHost]),
    by rw [Files.linkAt, hnone], ?_⟩
  · intro loc entry e he
    simp [sampleHost, quietHost, Files.get?] at he
  · exact ⟨_, trail_tools, rfl, fun _ hv => hv⟩
  · have habsolute : sampleHost.files.workingDirectory.path / (jarSite name hname).root =
        ⟨"/tools"⟩ := Path.join_of_isAbsolute (show (⟨"/tools"⟩ : Path).isAbsolute = true by decide)
    rw [habsolute]
    exact ⟨_, trail_tools, rfl, fun _ hv => hv⟩
  · rintro ⟨contents, mode, shared, hget⟩
    rw [hnone] at hget
    contradiction

/-- Tools with other files leave each other alone. -/
theorem respects_jarOwner {name other version version' : String}
    {hname : IsPlainName (name ++ ".lock")} {hother : IsPlainName (other ++ ".lock")}
    (hjar : IsPlainName (name ++ ".jar"))
    (hlock : name ++ ".lock" ≠ other ++ ".lock" ∧ name ++ ".lock" ≠ other ++ ".jar")
    (hne : name ++ ".jar" ≠ other ++ ".lock" ∧ name ++ ".jar" ≠ other ++ ".jar") :
    (jarOwner name version hname).Respects (jarOwner other version' hother) := by
  refine ⟨minds_jarTool hjar ?_ ?_, ?_, ?_⟩
  · rintro (hway | heq)
    · simp [jarOwner, jarSite] at hway
    · simp [jarOwner, jarSite, Site.lock, hne] at heq
  · rintro (heq | heq)
    · simp [jarOwner, jarSite, Site.lock, hne] at heq
    · simp [jarOwner, hne] at heq
  · intro v hv hkept
    have hlength : v.length = 2 := by
      rcases hkept with rfl | rfl <;> rfl
    rcases List.mem_pair.1 hv with rfl | rfl <;> contradiction
  · rintro (heq | heq)
    · simp [jarOwner, jarSite, Site.lock, hlock] at heq
    · simp [jarOwner, jarSite, Site.lock, hlock] at heq

/-- Both tools are installed on a host without any files. -/
def redBlueFiles : Files :=
  (exec (runInstalls [redOwner.tool, blueOwner.tool]) sampleHost).2.files

/-! ### A second run -/

/-- A tool in the working directory, told by the empty path. -/
def bareTool : Installer where
  name := "t"
  root := ⟨""⟩
  lockFile := (⟨""⟩ : Path) / "t.lock"
  resolveVersion := pure "1"
  artifactsPresent := asking (·.isFile ((⟨""⟩ : Path) / "a"))
  removeArtifacts := removeFile ((⟨""⟩ : Path) / "a")
  download version dir := writeAtomically (dir / "a") s!"a {version}"
  buildAndInstall _ dir := rename (dir / "a") ((⟨""⟩ : Path) / "a")

/-- What the stages of a run of the tool did. -/
def bareResults (host : Host) : Option (List StageResult) :=
  (exec (runInstalls [bareTool]) host).1.toOption.map (·.stages.map (·.result))

end RamlBuild
