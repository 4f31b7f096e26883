import RamlBuild.Proofs.Tool.Building

/-!
# Sessions of installing and cleaning

A session installs and cleans at one site, with any tools that fit it and any versions, and every step
may fail. Whenever it leaves a lock file, the version in it was built completely by one of its
installations, and no artifact was put in place of what was built then. So an installation that is
skipped stands for the build of its version.

## Main definitions

* `Operation`, `hostAfter` — sessions
* `untilBuild` — the steps of an installation before the build
* `Site.Recorded` — an installation of the session vouches for the lock file

## Main results

* `Site.Sound.install`, `Site.Sound.clean` — what one call comes to
* `Site.recorded_hostAfter` — what a session leaves
* `Site.built_of_skipped` — a skip stands for a complete build
* `sampleTool_fits` — a tool whose steps do what is asked of them
-/

namespace RamlBuild

open Build

variable {tool : Installer} {site : Site} {host host' : Host} {version : String} {failure : Failure}

namespace Site

/-- The lock file has a version. -/
def Records (site : Site) (version : String) (fs : Files) : Prop :=
  ∃ contents mode shared text, fs.get? site.lock = some (.file contents mode shared) ∧
    String.fromUTF8? contents = some text ∧ version = Text.trimmed text

/-! ### What is to be done -/

theorem holds_root (hreached : site.Reached host.files)
    (hpath : Files.requirePath site.root = .ok ()) : host.files.holds site.root = true := by
  obtain ⟨hreach, mode, hdir⟩ := hreached
  rw [holds_eq, Files.resolve_of_reach hpath hreach hdir]
  simp only [hdir, Option.isSome_some]

/-- What the lock file tells to do. -/
theorem Sound.determine {result : Except Failure InstallState} (hsound : site.Sound host)
    (hpath : Files.requirePath site.root = .ok ())
    (h : exec (InstallState.determine site.root site.lockFile version) host = (result, host')) :
    host'.files = host.files ∧ host'.faults = host.faults ∧
      (result = .ok .new → ¬site.Locked host.files) ∧
      (result = .ok .skip → site.Records version host.files) := by
  rw [InstallState.determine, holds, exec_asking_bind] at h
  by_cases hholds : host.files.holds site.root = true
  · rw [if_pos hholds] at h
    rcases exec_bind_cases h with ⟨found, host₁, hread, h⟩ | ⟨failure, hread, rfl⟩
    · obtain rfl := exec_read_files hread
      cases found with
      | none =>
        obtain ⟨rfl, rfl⟩ := Prod.mk.inj h
        exact ⟨rfl, rfl, fun _ => hsound.not_locked_of_read hread, by simp⟩
      | some installed =>
        obtain ⟨rfl, rfl⟩ := Prod.mk.inj h
        refine ⟨rfl, rfl, ?_, ?_⟩
        · split <;> simp
        · split
          · rename_i heq
            intro _
            exact heq ▸ hsound.file_of_read hread
          · simp
    · obtain rfl := exec_read_files hread
      exact ⟨rfl, rfl, by simp, by simp⟩
  · rw [if_neg hholds] at h
    obtain ⟨rfl, rfl⟩ := Prod.mk.inj h
    refine ⟨rfl, rfl, ?_, by simp⟩
    intro _ hlocked
    exact hholds (holds_root (hsound.reached hlocked) hpath)

/-- What is to be done is told without touching the artifacts or the lock file. -/
theorem Sound.requiredState {result : Except Failure InstallState} (hsound : site.Sound host)
    (hfits : tool.Fits site) (hpath : Files.requirePath site.root = .ok ())
    (h : exec (requiredState tool version) host = (result, host')) :
    site.LeavesAlone host host' ∧ (result = .ok .new → ¬site.Locked host.files) ∧
      (result = .ok .skip → site.Records version host.files ∧ site.Present host.files) := by
  rw [RamlBuild.requiredState, hfits.root, hfits.lockFile] at h
  rcases exec_bind_cases h with ⟨state, host₁, hdetermine, h⟩ | ⟨failure, hdetermine, rfl⟩
  · obtain ⟨hfiles, hfaults, hnew, hskip⟩ := hsound.determine hpath hdetermine
    have halone : site.LeavesAlone host host₁ := leavesAlone_of_files_eq hfiles hfaults
    cases state with
    | new =>
      obtain ⟨rfl, rfl⟩ := Prod.mk.inj h
      exact ⟨halone, fun _ => hnew rfl, by simp⟩
    | update =>
      obtain ⟨rfl, rfl⟩ := Prod.mk.inj h
      exact ⟨halone, by simp, by simp⟩
    | skip =>
      -- The lock file alone is not trusted: the artifacts have to be there.
      have hlies : site.Lies host₁.files := hfiles ▸ hsound.lies
      rcases exec_bind_cases h with ⟨present, host₂, hpresent, h⟩ | ⟨failure, hpresent, rfl⟩
      · obtain ⟨halone', hthere⟩ := hfits.artifactsPresent hlies hpresent
        obtain ⟨rfl, rfl⟩ := Prod.mk.inj h
        refine ⟨halone.trans halone', ?_, ?_⟩
        · split <;> simp
        · split
          · rename_i htrue
            intro _
            exact ⟨hskip rfl, hfiles ▸ hthere (by rw [htrue])⟩
          · simp
      · obtain ⟨halone', -⟩ := hfits.artifactsPresent hlies hpresent
        exact ⟨halone.trans halone', by simp, by simp⟩
  · obtain ⟨hfiles, hfaults, -, -⟩ := hsound.determine hpath hdetermine
    exact ⟨leavesAlone_of_files_eq hfiles hfaults, by simp, by simp⟩

/-- The lock file is the one from before, and artifacts were only lost. -/
structure Continues (site : Site) (host host' : Host) : Prop where
  lock : host'.files.get? site.lock = host.files.get? site.lock
  loses : site.Loses host.files host'.files

theorem LeavesAlone.continues (h : site.LeavesAlone host host') : site.Continues host host' :=
  ⟨h.lock, h.loses⟩

theorem Continues.trans {host'' : Host} (h : site.Continues host host')
    (h' : site.Continues host' host'') : site.Continues host host'' :=
  ⟨h'.lock.trans h.lock, h.loses.trans h'.loses⟩

/-! ### Cleaning -/

/-- Cleaning only loses artifacts, and leaves no lock file when it succeeds. -/
theorem Sound.clean {result : Except Failure Unit} (hsound : site.Sound host)
    (hfits : tool.Fits site) (h : exec (clean tool) host = (result, host')) :
    site.Sound host' ∧ (result = .ok () → ¬site.Locked host'.files) ∧
      (site.Locked host'.files → site.Continues host host') := by
  rw [RamlBuild.clean, hfits.lockFile] at h
  have hremoves : ∀ {result : Except Failure Unit} {host₁},
      exec (within s!"removing installed {tool.name}" tool.removeArtifacts) host = (result, host₁) →
        site.Spares host host₁ ∧ site.Loses host.files host₁.files := by
    intro result host₁ hx
    rcases exec_within_cases hx with ⟨_, -, hx⟩ | ⟨_, -, hx⟩
    · exact hfits.removeArtifacts hsound.lies hx
    · exact hfits.removeArtifacts hsound.lies hx
  rcases exec_bind_cases h with ⟨⟨⟩, host₁, hartifacts, h⟩ | ⟨failure, hartifacts, rfl⟩
  · obtain ⟨hspares, hloses⟩ := hremoves hartifacts
    obtain ⟨hsound', hchanges, hgone, hkept⟩ := (hsound.of_spares hspares).remove h
    refine ⟨hsound', hgone, ?_⟩
    intro hlocked
    refine ⟨(hkept hlocked).trans hspares.lock, hloses.trans ?_⟩
    exact fun name hname => .inl (hchanges.get?_other _ (artifact_ne_lock hname))
  · obtain ⟨hspares, hloses⟩ := hremoves hartifacts
    exact ⟨hsound.of_spares hspares, by simp, fun _ => ⟨hspares.lock, hloses⟩⟩

end Site

/-! ### Installing -/

/-- The steps of an installation before the build: the version that is to be built, with the directory
that it was fetched into; none when the version is installed already. -/
def untilBuild (tool : Installer) : Build (Option (String × Path)) := do
  let version ← within s!"resolving {tool.name} version" tool.resolveVersion
  if isLatest version then
    fail (.install (.unresolvedVersion tool.name))
  else
    match ← requiredState tool version with
    | .skip => pure none
    | .update =>
      let _ ← Lock.read tool.lockFile
      clean tool
      pure (some (version, ← fetchVersion tool version))
    | .new => pure (some (version, ← fetchVersion tool version))

namespace Site

/-- An installation built a version completely; its artifacts are there or were lost since, and the
lock file has the version. -/
def Installs (site : Site) (tool : Installer) (host : Host) (version : String) (built : Host)
    (fs : Files) : Prop :=
  ∃ dir fetched, exec (untilBuild tool) host = (.ok (some (version, dir)), fetched) ∧
    exec (tool.buildAndInstall version dir) fetched = (.ok (), built) ∧
    site.Built version built.files fs ∧ Text.trimmed version = version

/-- An installation leaves a lock file only when it found it, or when it built the version in it. -/
theorem Sound.install {result : Except Failure InstallOutcome} (hsound : site.Sound host)
    (hfits : tool.Fits site) (hpath : Files.requirePath site.root = .ok ())
    (h : exec (install tool) host = (result, host')) :
    site.Sound host' ∧ (site.Locked host'.files → site.Continues host host' ∨
      ∃ version built, site.Installs tool host version built host'.files) := by
  have hroot := Files.text_ne_empty_of_requirePath hpath
  -- Whatever leaves the site alone is done with.
  have hdone : ∀ {host₁}, site.LeavesAlone host host₁ → site.Sound host₁ ∧
      (site.Locked host₁.files → site.Continues host host₁ ∨
        ∃ version built, site.Installs tool host version built host₁.files) :=
    fun halone => ⟨hsound.of_spares halone.toSpares, fun _ => .inl halone.continues⟩
  rw [RamlBuild.install] at h
  rcases exec_bind_cases h with ⟨version, host₁, hresolve, h⟩ | ⟨failure, hresolve, -⟩
  · obtain ⟨halone₁, htrimmed⟩ := hfits.resolveVersion hsound.lies (exec_within_ok hresolve)
    have hsound₁ := hsound.of_spares halone₁.toSpares
    by_cases hlatest : isLatest version = true
    · rw [if_pos hlatest] at h
      obtain ⟨-, rfl⟩ := Prod.mk.inj h
      exact hdone halone₁
    · rw [if_neg hlatest] at h
      rcases exec_bind_cases h with ⟨state, host₂, hstate, h⟩ | ⟨failure, hstate, -⟩
      · obtain ⟨halone₂, hnew, -⟩ := hsound₁.requiredState hfits hpath hstate
        have halone := halone₁.trans halone₂
        have hsound₂ := hsound₁.of_spares halone₂.toSpares
        cases state with
        | skip =>
          obtain ⟨-, rfl⟩ := Prod.mk.inj h
          exact hdone halone
        | new =>
          have hnot : ¬site.Locked host₂.files := by
            rw [locked_iff_of_lock_eq halone₂.lock]
            exact hnew rfl
          obtain ⟨result', hbuild⟩ :
              ∃ result', exec (RamlBuild.buildVersion tool version) host₂ = (result', host') := by
            rcases exec_bind_cases h with ⟨⟨⟩, host₃, hbuild, h⟩ | ⟨failure, hbuild, -⟩
            · obtain ⟨-, rfl⟩ := Prod.mk.inj h
              exact ⟨_, hbuild⟩
            · exact ⟨_, hbuild⟩
          obtain ⟨hsound', hbuilt⟩ := hsound₂.buildVersion hfits hroot hnot hbuild
          refine ⟨hsound', fun hlocked => .inr ?_⟩
          obtain ⟨dir, fetched, built, hfetch, hbuild, hbuilt⟩ := hbuilt hlocked
          refine ⟨version, built, dir, fetched, ?_, hbuild, hbuilt, htrimmed version rfl⟩
          rw [untilBuild, exec_bind_of_ok hresolve, if_neg hlatest, exec_bind_of_ok hstate]
          simp only [exec_bind_of_ok hfetch, exec_pure]
        | update =>
          rcases exec_bind_cases h with ⟨previous, host₃, hread, h⟩ | ⟨failure, hread, -⟩
          · obtain rfl := exec_read_files hread
            have halone₃ : site.LeavesAlone host₂ (counted host₂) := leavesAlone_of_files_eq rfl rfl
            have hsound₃ := hsound₂.of_spares halone₃.toSpares
            rcases exec_bind_cases h with ⟨⟨⟩, host₄, hclean, h⟩ | ⟨failure, hclean, -⟩
            · obtain ⟨hsound₄, hgone, -⟩ := hsound₃.clean hfits hclean
              obtain ⟨result', hbuild⟩ :
                  ∃ result', exec (RamlBuild.buildVersion tool version) host₄ = (result', host') := by
                rcases exec_bind_cases h with ⟨⟨⟩, host₅, hbuild, h⟩ | ⟨failure, hbuild, -⟩
                · obtain ⟨-, rfl⟩ := Prod.mk.inj h
                  exact ⟨_, hbuild⟩
                · exact ⟨_, hbuild⟩
              obtain ⟨hsound', hbuilt⟩ := hsound₄.buildVersion hfits hroot (hgone rfl) hbuild
              refine ⟨hsound', fun hlocked => .inr ?_⟩
              obtain ⟨dir, fetched, built, hfetch, hbuild, hbuilt⟩ := hbuilt hlocked
              refine ⟨version, built, dir, fetched, ?_, hbuild, hbuilt, htrimmed version rfl⟩
              rw [untilBuild, exec_bind_of_ok hresolve, if_neg hlatest, exec_bind_of_ok hstate]
              simp only [exec_bind_of_ok hread, exec_bind_of_ok hclean, exec_bind_of_ok hfetch,
                exec_pure]
            · obtain ⟨hsound₄, -, hcontinues⟩ := hsound₃.clean hfits hclean
              exact ⟨hsound₄, fun hlocked =>
                .inl ((halone.trans halone₃).continues.trans (hcontinues hlocked))⟩
          · obtain rfl := exec_read_files hread
            exact hdone (halone.trans (leavesAlone_of_files_eq rfl rfl))
      · obtain ⟨halone₂, -, -⟩ := hsound₁.requiredState hfits hpath hstate
        exact hdone (halone₁.trans halone₂)
  · rcases exec_within_cases hresolve with ⟨_, -, hx⟩ | ⟨_, -, hx⟩
    · exact hdone (hfits.resolveVersion hsound.lies hx).1
    · exact hdone (hfits.resolveVersion hsound.lies hx).1

/-- An installation is skipped where that is what is to be done for its version. -/
theorem install_skipped_cases
    (h : exec (RamlBuild.install tool) host = (.ok (.skipped version), host')) :
    ∃ host₁, exec tool.resolveVersion host = (.ok version, host₁) ∧
      exec (RamlBuild.requiredState tool version) host₁ = (.ok .skip, host') := by
  rw [RamlBuild.install] at h
  obtain ⟨version', host₁, hresolve, h⟩ := exec_bind_ok h
  by_cases hlatest : isLatest version' = true
  · rw [if_pos hlatest] at h
    exact absurd (Prod.mk.inj h).1 (by simp)
  · rw [if_neg hlatest] at h
    obtain ⟨state, host₂, hstate, h⟩ := exec_bind_ok h
    cases state with
    | skip =>
      obtain ⟨heq, rfl⟩ := Prod.mk.inj h
      obtain rfl := InstallOutcome.skipped.inj (Except.ok.inj heq)
      exact ⟨host₁, exec_within_ok hresolve, hstate⟩
    | new =>
      obtain ⟨⟨⟩, host₃, -, h⟩ := exec_bind_ok h
      exact absurd (Prod.mk.inj h).1 (by simp)
    | update =>
      obtain ⟨previous, host₃, -, h⟩ := exec_bind_ok h
      obtain ⟨⟨⟩, host₄, -, h⟩ := exec_bind_ok h
      obtain ⟨⟨⟩, host₅, -, h⟩ := exec_bind_ok h
      exact absurd (Prod.mk.inj h).1 (by simp)

/-- An installation is skipped only where the root can be looked for. -/
theorem requirePath_of_skipped (hfits : tool.Fits site)
    (h : exec (RamlBuild.install tool) host = (.ok (.skipped version), host')) :
    Files.requirePath site.root = .ok () := by
  obtain ⟨host₁, -, hstate⟩ := install_skipped_cases h
  rw [RamlBuild.requiredState, hfits.root] at hstate
  obtain ⟨state, host₂, hdetermine, hstate⟩ := exec_bind_ok hstate
  rw [InstallState.determine, holds, exec_asking_bind] at hdetermine
  by_cases hholds : host₁.files.holds site.root = true
  · rw [holds_eq] at hholds
    split at hholds
    · rename_i hresolve
      exact Files.requirePath_of_locate hresolve
    · contradiction
  · rw [if_neg hholds] at hdetermine
    obtain ⟨heq, rfl⟩ := Prod.mk.inj hdetermine
    obtain rfl := Except.ok.inj heq
    exact absurd (Prod.mk.inj hstate).1 (by simp)

/-- A skip is told by the lock file, with all artifacts there, and leaves both alone. -/
theorem Sound.install_skipped (hsound : site.Sound host) (hfits : tool.Fits site)
    (hpath : Files.requirePath site.root = .ok ())
    (h : exec (RamlBuild.install tool) host = (.ok (.skipped version), host')) :
    site.LeavesAlone host host' ∧ site.Records version host.files ∧ site.Present host'.files := by
  obtain ⟨host₁, hresolve, hstate⟩ := install_skipped_cases h
  obtain ⟨halone₁, -⟩ := hfits.resolveVersion hsound.lies hresolve
  have hsound₁ := hsound.of_spares halone₁.toSpares
  obtain ⟨halone₂, -, hskip⟩ := hsound₁.requiredState hfits hpath hstate
  obtain ⟨hrecords, hpresent⟩ := hskip rfl
  refine ⟨halone₁.trans halone₂, ?_, ?_⟩
  · rw [Records, ← halone₁.lock]
    exact hrecords
  · intro name hname
    rw [halone₂.artifact name hname]
    exact hpresent name hname

end Site

/-! ### Sessions -/

/-- A call at a site. -/
inductive Operation where
  /-- Brings a tool to its version. -/
  | install (tool : Installer)
  /-- Removes what is installed. -/
  | clean (tool : Installer)

/-- The tool of a call. -/
def Operation.installer : Operation → Installer
  | install tool => tool
  | clean tool => tool

/-- The host that a call leaves, whether it succeeds or fails. -/
def Operation.leaves : Operation → Host → Host
  | install tool, host => (exec (RamlBuild.install tool) host).2
  | clean tool, host => (exec (RamlBuild.clean tool) host).2

/-- The host that the calls of a session leave. -/
def hostAfter (calls : List Operation) (host : Host) : Host :=
  calls.foldl (fun host call => call.leaves host) host

@[simp] theorem hostAfter_concat (calls : List Operation) (call : Operation) (host : Host) :
    hostAfter (calls ++ [call]) host = call.leaves (hostAfter calls host) := by
  rw [hostAfter, List.foldl_append]
  rfl

namespace Site

variable {calls : List Operation}

/-- One of the calls installed the version that the lock file has, and since then artifacts were only
lost. -/
def Recorded (site : Site) (calls : List Operation) (host : Host) : Prop :=
  ∃ before tool since version built, calls = before ++ .install tool :: since ∧
    site.Installs tool (hostAfter before host) version built (hostAfter calls host).files ∧
    ∀ part, part <+: since →
      site.Loses (hostAfter (before ++ .install tool :: part) host).files (hostAfter calls host).files

/-- What is recorded stays so while the lock file does and artifacts are only lost. -/
theorem Recorded.concat (h : site.Recorded calls host) {call : Operation}
    (hcontinues : site.Continues (hostAfter calls host) (hostAfter (calls ++ [call]) host)) :
    site.Recorded (calls ++ [call]) host := by
  obtain ⟨before, tool, since, version, built, hcalls, hinstalls, hparts⟩ := h
  obtain ⟨dir, fetched, hfetch, hbuild, hbuilt, htrimmed⟩ := hinstalls
  refine ⟨before, tool, since ++ [call], version, built, ?_, ?_, ?_⟩
  · rw [hcalls, List.append_assoc, List.cons_append]
  · exact ⟨dir, fetched, hfetch, hbuild, ⟨hbuilt.present, hbuilt.loses.trans hcontinues.loses,
      hcontinues.lock ▸ hbuilt.lock⟩, htrimmed⟩
  · intro part hpart
    rcases List.prefix_concat_iff.1 hpart with rfl | hpart
    · rw [hcalls, List.append_assoc, List.cons_append]
      exact Loses.refl site _
    · exact (hparts part hpart).trans hcontinues.loses

/-- A session that starts without a lock file leaves none, or one that an installation of it vouches
for. -/
theorem recorded_hostAfter (hsound : site.Sound host) (hnot : ¬site.Locked host.files)
    (hpath : Files.requirePath site.root = .ok ()) (hfits : ∀ call ∈ calls, call.installer.Fits site) :
    site.Sound (hostAfter calls host) ∧
      (site.Locked (hostAfter calls host).files → site.Recorded calls host) := by
  induction calls using List.reverseRecOn with
  | nil => exact ⟨hsound, fun hlocked => absurd hlocked hnot⟩
  | append_singleton calls call ih =>
    obtain ⟨hsound', hrecorded⟩ := ih fun c hc => hfits c (List.mem_append_left _ hc)
    have hfit : call.installer.Fits site := hfits call (by simp)
    have hcontinued : site.Locked (hostAfter (calls ++ [call]) host).files →
        site.Continues (hostAfter calls host) (hostAfter (calls ++ [call]) host) →
          site.Recorded (calls ++ [call]) host := fun hlocked hcontinues =>
      (hrecorded ((locked_iff_of_lock_eq hcontinues.lock).1 hlocked)).concat hcontinues
    cases call with
    | clean tool =>
      obtain ⟨hsound'', -, hcontinues⟩ := hsound'.clean hfit rfl
      rw [hostAfter_concat] at hcontinued ⊢
      exact ⟨hsound'', fun hlocked => hcontinued hlocked (hcontinues hlocked)⟩
    | install tool =>
      obtain ⟨hsound'', hcases⟩ := hsound'.install hfit hpath rfl
      rw [hostAfter_concat] at hcontinued ⊢
      refine ⟨hsound'', ?_⟩
      intro hlocked
      rcases hcases hlocked with hcontinues | ⟨version, built, hinstalls⟩
      · exact hcontinued hlocked hcontinues
      · refine ⟨calls, tool, [], version, built, rfl, ?_, ?_⟩
        · rw [hostAfter_concat]
          exact hinstalls
        · intro part hpart
          rw [List.prefix_nil.1 hpart]
          exact Loses.refl site _

/-- A skip stands for a complete build. When a session starts without a lock file and an installation
at its end is skipped for a version, all artifacts are there, and an earlier installation built that
version to the end: every artifact is the one that this build left, and was so after every call since.
-/
theorem built_of_skipped (hlies : site.Lies host.files)
    (hhonest : ∀ n, host.faults n ≠ some .notFound) (hlock : host.files.get? site.lock = none)
    (hcalls : ∀ call ∈ calls, call.installer.Fits site) (hfits : tool.Fits site)
    (h : (exec (RamlBuild.install tool) (hostAfter calls host)).1 = .ok (.skipped version)) :
    ∃ before earlier since built, calls = before ++ .install earlier :: since ∧
      (∃ dir fetched,
        exec (untilBuild earlier) (hostAfter before host) = (.ok (some (version, dir)), fetched) ∧
        exec (earlier.buildAndInstall version dir) fetched = (.ok (), built)) ∧
      ∀ name ∈ site.artifacts, ∃ e, built.files.get? (site.artifact name) = some e ∧
        (exec (RamlBuild.install tool) (hostAfter calls host)).2.files.get? (site.artifact name) =
          some e ∧
        ∀ part, part <+: since →
          (hostAfter (before ++ .install earlier :: part) host).files.get? (site.artifact name) =
            some e := by
  have hskipped : exec (RamlBuild.install tool) (hostAfter calls host) =
      (.ok (.skipped version), (exec (RamlBuild.install tool) (hostAfter calls host)).2) :=
    Prod.ext h rfl
  have hpath := requirePath_of_skipped hfits hskipped
  have hnot : ¬site.Locked host.files := by
    rintro ⟨contents, mode, shared, hfile⟩
    rw [hlock] at hfile
    contradiction
  have hsound : site.Sound host :=
    ⟨hlies, hhonest, by rw [Files.linkAt, hlock], fun hlocked => absurd hlocked hnot⟩
  obtain ⟨hsound', hrecorded⟩ := recorded_hostAfter hsound hnot hpath hcalls
  obtain ⟨halone, hrecords, hpresent⟩ := hsound'.install_skipped hfits hpath hskipped
  obtain ⟨contents, mode, shared, text, hfile, htext, rfl⟩ := hrecords
  obtain ⟨before, earlier, since, version, built, hsplit, hinstalls, hparts⟩ :=
    hrecorded ⟨contents, mode, shared, hfile⟩
  obtain ⟨dir, fetched, hfetch, hbuild, hbuilt, htrimmed⟩ := hinstalls
  -- The text of the lock file is the version that was built.
  obtain rfl : text = version := by
    obtain ⟨mode', hwritten⟩ := hbuilt.lock
    rw [hfile] at hwritten
    obtain ⟨rfl, -, -⟩ := Entry.file.inj (Option.some.inj hwritten)
    rw [fromUTF8?_toUTF8, htrimmed] at htext
    exact (Option.some.inj htext).symm
  rw [htrimmed]
  refine ⟨before, earlier, since, built, hsplit, ⟨dir, fetched, hfetch, hbuild⟩, ?_⟩
  intro name hname
  obtain ⟨e, he⟩ := Option.isSome_iff_exists.1 (hpresent name hname)
  have hlast : (hostAfter calls host).files.get? (site.artifact name) = some e := by
    rw [← halone.artifact name hname, he]
  exact ⟨e, hbuilt.loses.get?_eq_some hname hlast, he, fun part hpart =>
    (hparts part hpart).get?_eq_some hname hlast⟩

end Site

/-! ### A tool that fits

The artifact of the sample tool is a file with its version. -/

/-- A tool in a directory at the root of the tree, with one artifact. -/
def sampleSite : Site where
  root := ⟨"/tool"⟩
  way := [[], ["tool"]]
  directory := ["tool"]
  lockName := "tool.lock"
  artifacts := ["tool.jar"]
  lockName_plain := by decide
  lockName_not_mem := by decide

/-- The path of the artifact. -/
def sampleJar : Path := sampleSite.root / "tool.jar"

/-- The tool at a version. -/
def sampleTool (version : String) : Installer where
  name := "tool"
  root := sampleSite.root
  lockFile := sampleSite.lockFile
  resolveVersion := pure version
  artifactsPresent := asking (·.hasEntry sampleJar)
  removeArtifacts := do
    if ← asking (·.hasEntry sampleJar) then removeFile sampleJar
  download _ _ := pure ()
  buildAndInstall version _ := writeAtomically sampleJar version

/-- A host without any files. -/
def sampleHost : Host :=
  quietHost ⟨[], []⟩

theorem place_sampleJar {fs : Files} {l : Location} (hlies : sampleSite.Lies fs) (hplace : fs.place sampleJar = .ok l) :
    l = sampleSite.artifact "tool.jar" :=
  hlies.leads.place_eq (by decide) hplace

/-- The sample tool does what is asked of its steps. -/
theorem sampleTool_fits {version : String} (hversion : Text.trimmed version = version) :
    (sampleTool version).Fits sampleSite where
  root := rfl
  lockFile := rfl
  name := show '/' ∉ "tool".toList by decide
  resolveVersion := by
    intro host result host' _ h
    obtain ⟨rfl, rfl⟩ := Prod.mk.inj h
    refine ⟨Site.leavesAlone_of_files_eq rfl rfl, ?_⟩
    intro version' heq
    obtain rfl := Except.ok.inj heq
    exact hversion
  artifactsPresent := by
    intro host result host' hlies h
    obtain ⟨rfl, rfl⟩ := Prod.mk.inj h
    refine ⟨Site.leavesAlone_of_files_eq rfl rfl, ?_⟩
    intro hthere name hname
    obtain rfl := List.mem_singleton.1 hname
    have hentry : host.files.hasEntry sampleJar = true := Except.ok.inj hthere
    unfold Files.hasEntry at hentry
    split at hentry
    · rename_i l hplace
      obtain rfl := place_sampleJar hlies hplace
      exact hentry
    · contradiction
  removeArtifacts := by
    intro host result host' hlies h
    have hnothing : sampleSite.Spares host host ∧ sampleSite.Loses host.files host.files :=
      ⟨(Site.leavesAlone_of_files_eq rfl rfl).toSpares, Site.Loses.refl sampleSite _⟩
    simp only [sampleTool, exec_asking_bind] at h
    split at h
    · cases result with
      | ok =>
        obtain ⟨hop, hfaults⟩ := changing_ok h
        obtain ⟨l, hplace, hentry, herase⟩ := Files.removeFile_ok hop
        obtain rfl := place_sampleJar hlies hplace
        have hne : sampleSite.artifact "tool.jar" ≠ [] := by decide
        have hlock : sampleSite.artifact "tool.jar" ≠ sampleSite.lock := by decide
        refine ⟨Site.spares_of_get?_eq (by decide) hlock ?_ ?_ ?_ hfaults, ?_⟩
        · intro l hl
          rw [herase, Files.get?_erase_of_ne hl]
        · rw [herase, Files.workingDirectory_erase]
        · rw [herase]
          exact fun htree => htree.erase hne hentry
        · intro name hname
          obtain rfl := List.mem_singleton.1 hname
          rw [herase]
          exact .inr (Files.get?_erase_self hne)
      | error failure =>
        obtain ⟨hfiles, hfaults⟩ := changing_error h
        exact ⟨(Site.leavesAlone_of_files_eq hfiles hfaults).toSpares,
          hfiles ▸ Site.Loses.refl sampleSite _⟩
    · obtain ⟨-, rfl⟩ := Prod.mk.inj h
      exact hnothing
  download := by
    intro host version' dir result host' _ _ h
    obtain ⟨-, rfl⟩ := Prod.mk.inj h
    exact Site.leavesAlone_of_files_eq rfl rfl
  buildAndInstall := by
    intro host version' dir result host' hlies _ h
    cases result with
    | ok =>
      obtain ⟨target, hplace, hreplaced, hfaults⟩ := writeAtomically_ok h
      obtain rfl := place_sampleJar hlies hplace
      have hlock : sampleSite.artifact "tool.jar" ≠ sampleSite.lock := by decide
      refine ⟨Site.spares_of_get?_eq (by decide) hlock
        hreplaced.get?_other hreplaced.workingDirectory
        (fun htree => hreplaced.isTree htree hplace) hfaults, ?_⟩
      intro _ name hname
      obtain rfl := List.mem_singleton.1 hname
      rw [hreplaced.get?_target]
      rfl
    | error failure =>
      obtain ⟨hget, hworking, hfaults⟩ := writeAtomically_error h
      refine ⟨⟨Site.stays_of_get?_eq hget hworking, hfaults, hget _⟩, ?_⟩
      simp

/-- An empty host has the sample site where it is said to be. -/
theorem lies_sampleHost : sampleSite.Lies sampleHost.files where
  isTree := by
    intro loc name e he
    simp [sampleHost, quietHost, Files.get?] at he
  leads := ⟨⟨[[], ["tool"]], ["tool"]⟩, by rfl, rfl, by decide⟩
  leads_absolute := ⟨⟨[[], ["tool"]], ["tool"]⟩, by rfl, rfl, by decide⟩

/-- The second version replaces the first one, and then its installation is skipped. -/
theorem built_of_skipped_second :
    ∃ before earlier since built,
      [.install (sampleTool "1.0"), .install (sampleTool "2.0")] = before ++ .install earlier :: since ∧
      (∃ dir fetched,
        exec (untilBuild earlier) (hostAfter before sampleHost) = (.ok (some ("2.0", dir)), fetched) ∧
        exec (earlier.buildAndInstall "2.0" dir) fetched = (.ok (), built)) ∧
      ∀ name ∈ sampleSite.artifacts, ∃ e, built.files.get? (sampleSite.artifact name) = some e ∧
        (exec (install (sampleTool "2.0"))
          (hostAfter [.install (sampleTool "1.0"), .install (sampleTool "2.0")] sampleHost)).2.files.get?
            (sampleSite.artifact name) = some e ∧
        ∀ part, part <+: since →
          (hostAfter (before ++ .install earlier :: part) sampleHost).files.get? (sampleSite.artifact name) =
            some e := by
  apply Site.built_of_skipped lies_sampleHost
  · intro n
    exact nofun
  · rfl
  · intro call hcall
    simp only [List.mem_cons, List.not_mem_nil, or_false] at hcall
    rcases hcall with rfl | rfl
    · exact sampleTool_fits (by decide)
    · exact sampleTool_fits (by decide)
  · exact sampleTool_fits (by decide)
  · decide +kernel

end RamlBuild
