import RamlBuild.Proofs.Tool.Kit

/-!
# Cleaning and installing anew

Installing a tool puts its artifacts and its lock file into the root, and cleaning takes the files away
that the tool takes for its own by their names. So cleaning undoes installing where every artifact has
such a name, and where no file had one before.

The names of the vendored files are told by the caller. A file that is not named as a jar of the
libraries stays where it was put.

When a version is replaced, the tool is cleaned before the next one is built, so that the files of the
root which it takes for its own are those of the version that was built. The same is so when no such
file was there to begin with.

Without a lock file nothing is cleaned: files that lie in the root from before stay among those that were
brought.

## Main results

* `Kit.get?_of_clean_install` — after installing and cleaning the root has the files it had
* `clean_leaves_sources` — but what is not named as a jar stays
* `Kit.hasFile_iff_of_install` — the files that a tool takes for its own are those that were brought
* `install_keeps_stale` — but without a lock file old ones stay
-/

/-! ## Cleaning undoes installing -/

namespace RamlBuild

open Build Location

namespace Kit

variable {kit : Kit} {root : Path} {url asked : String} {way : List Location} {directory : Location}
  {host installed cleaned : Host} {outcome : InstallOutcome}

theorem not_locked {fs : Files} (h : fs.get? (directory ++ [kit.lockName]) = none) :
    ¬(kit.site root way directory).Locked fs := by
  rintro ⟨contents, mode, shared, hfile⟩
  rw [Site.lock, site, h] at hfile
  contradiction

/-- After a tool was installed where neither its artifacts nor its lock file were, and then cleaned, the
root has exactly the files and links that it had, as they were. -/
theorem get?_of_clean_install (hlies : (kit.site root way directory).Lies host.files)
    (htidy : host.files.Tidy) (hroot : root.text ≠ "")
    (honest : ∀ n, host.faults n ≠ some .notFound)
    (htrusts : kit.Trusts (kit.site root way directory) url host)
    (hplain : ∀ name ∈ kit.targets, IsPlainName name) (hnodup : kit.targets.Nodup)
    (hfree : ∀ name ∈ kit.lockName :: kit.targets, host.files.get? (directory ++ [name]) = none)
    (hnone : ∀ name, kit.takes name = true → ¬host.files.HasFile (directory ++ [name]))
    (htakes : ∀ name ∈ kit.targets, kit.takes name = true)
    (hinstall : exec (install (kit.installer root url asked)) host = (.ok outcome, installed))
    (hclean : exec (clean (kit.installer root url asked)) installed = (.ok (), cleaned))
    (name : String) (e : Entry) (he : e.isDirectory = false) :
    cleaned.files.get? (directory ++ [name]) = some e ↔
      host.files.get? (directory ++ [name]) = some e := by
  have hlock : host.files.get? (directory ++ [kit.lockName]) = none :=
    hfree _ List.mem_cons_self
  have hsound : (kit.site root way directory).Sound host :=
    ⟨hlies, honest, by rw [Files.linkAt, Site.lock, site, hlock],
      fun hlocked => absurd hlocked (not_locked hlock)⟩
  have hnot : ∀ name, ¬kit.Gone directory host.files (directory ++ [name]) := by
    rintro name ⟨name', htaken | rfl, heq, hfile⟩
    · exact hnone name' htaken (heq ▸ hfile)
    · obtain ⟨e, he, -⟩ := heq ▸ hfile
      rw [hlock] at he
      contradiction
  rcases install_ok_cases hinstall with
    ⟨version, resolved, -, hresolves, hskip⟩ | ⟨version, cleared, hclears, hbuild⟩
  · -- What is skipped has a lock file.
    have hasks := onlyRequests_resolveVersion kit root url asked (exec_within_ok hresolves.told)
    obtain ⟨text, hwritten⟩ := Site.written_of_requiredState
      (isAt_installer kit root url asked way directory) (sound_of_onlyRequests hsound hasks).placed
      (by simp) hskip
    exact absurd (hasks.files ▸ hwritten.locked) (not_locked hlock)
  · have hready := readied hsound htidy hroot hclears
    have hcleared : ∀ name, cleared.files.get? (directory ++ [name]) =
        host.files.get? (directory ++ [name]) := fun name => hready.get?_eq (hnot name)
    obtain ⟨way', found, -, hbrings, hsound', hreached', htidy'⟩ :=
      brings hready.sound.placed (hready.loses.tidy htidy) hroot hready.sound.honest htrusts
        hready.machine hplain hnodup
        (fun name hname _ => by
          rw [Files.linkAt, hcleared, hfree name (List.mem_cons_of_mem _ hname)])
        (fun name _ htaken hfile => hnone name htaken (by rwa [Files.HasFile, ← hcleared])) hbuild
    obtain ⟨-, hloses⟩ := clean_ok hsound' hreached' htidy' hroot hclean
    by_cases hown : name ∈ kit.lockName :: kit.targets
    · -- What was installed is gone.
      have hgone : kit.Gone directory installed.files (directory ++ [name]) :=
        ⟨name, (List.mem_cons.1 hown).symm.imp_left (htakes name), rfl, hbrings.hasFile hown⟩
      rw [hloses.get?_of_gone _ hgone, hfree name hown]
    · rw [List.mem_cons, not_or] at hown
      have hsame := hbrings.others name hown.2 hown.1
      rw [hcleared] at hsame
      have hstays : ¬kit.Gone directory installed.files (directory ++ [name]) := by
        rintro ⟨name', hname', heq, e', he', hfile⟩
        obtain rfl := child_inj.1 heq
        exact hnone name (hname'.resolve_right hown.1)
          ⟨e', (hsame e' (Entry.isDirectory_eq_false hfile)).1 he', hfile⟩
      rw [hloses.get?_other _ hstays]
      exact hsame e he

end Kit

/-! ### Files under other names -/

/-- A host without any files, on which every request is answered. -/
def answeringHost : Host :=
  { quietHost ⟨[], []⟩ with network := fun _ => some ⟨200, [], "new".toUTF8⟩ }

/-- Files that are vendored from a release. -/
def vendoring (names : List String) : Installer :=
  (Kit.jars names).installer ⟨"vendor"⟩ "http://[::1]" "v1"

/-- The host after the files were vendored. -/
def vendored (names : List String) : Host :=
  (exec (install (vendoring names)) answeringHost).2

/-- The host after they were cleaned again. -/
def unvendored (names : List String) : Host :=
  (exec (clean (vendoring names)) (vendored names)).2

theorem tidy_answeringHost : answeringHost.files.Tidy :=
  (Files.wellFormed_of_entries (by decide) (by decide)).tidy

theorem lies_answeringHost {kit : Kit} :
    (kit.site ⟨"vendor"⟩ [[], ["vendor"]] ["vendor"]).Lies answeringHost.files := by
  have hrelative : answeringHost.files.trail Files.maxLinks (answeringHost.files.start ⟨"vendor"⟩)
      (Path.walked ⟨"vendor"⟩) = some ⟨[[], ["vendor"]], ["vendor"]⟩ := by rfl
  have habsolute : answeringHost.files.trail Files.maxLinks
      (answeringHost.files.start (answeringHost.files.workingDirectory.path / (⟨"vendor"⟩ : Path)))
      (Path.walked (answeringHost.files.workingDirectory.path / (⟨"vendor"⟩ : Path))) =
        some ⟨[[], ["vendor"]], ["vendor"]⟩ := by rfl
  exact ⟨tidy_answeringHost.isTree, ⟨_, hrelative, rfl, fun _ hv => hv⟩,
    ⟨_, habsolute, rfl, fun _ hv => hv⟩⟩

theorem get?_answeringHost {name : String} :
    answeringHost.files.get? (["vendor"] ++ [name]) = none := by
  simp [answeringHost, quietHost, Files.get?]

/-- A jar that is named after the libraries is vendored and cleaned. -/
theorem get?_of_clean_install_vendor :
    exec (install (vendoring ["fgputil-a.jar"])) answeringHost =
        (.ok (.installed "v1"), vendored ["fgputil-a.jar"]) ∧
      exec (clean (vendoring ["fgputil-a.jar"])) (vendored ["fgputil-a.jar"]) =
        (.ok (), unvendored ["fgputil-a.jar"]) ∧
      ∀ name e, e.isDirectory = false →
        ((unvendored ["fgputil-a.jar"]).files.get? (["vendor"] ++ [name]) = some e ↔
          answeringHost.files.get? (["vendor"] ++ [name]) = some e) := by
  have hinstall : exec (install (vendoring ["fgputil-a.jar"])) answeringHost =
      (.ok (.installed "v1"), vendored ["fgputil-a.jar"]) :=
    exec_eq_of_fst (by decide +kernel)
  have hclean : exec (clean (vendoring ["fgputil-a.jar"])) (vendored ["fgputil-a.jar"]) =
      (.ok (), unvendored ["fgputil-a.jar"]) :=
    exec_eq_of_fst (by decide +kernel)
  have htrusts : (Kit.jars ["fgputil-a.jar"]).Trusts
      ((Kit.jars ["fgputil-a.jar"]).site ⟨"vendor"⟩ [[], ["vendor"]] ["vendor"]) "http://[::1]"
      answeringHost := trivial
  refine ⟨hinstall, hclean, Kit.get?_of_clean_install lies_answeringHost tidy_answeringHost (by decide)
    ?_ htrusts (by decide) (by decide) (fun _ _ => get?_answeringHost) ?_ (by decide) hinstall hclean⟩
  · simp [answeringHost, quietHost]
  · rintro name - ⟨e, he, -⟩
    rw [get?_answeringHost] at he
    contradiction

/-- What is not named as a jar is vendored, but not taken away again. -/
theorem clean_leaves_sources :
    (exec (install (vendoring ["fgputil-sources.zip"])) answeringHost).1 = .ok (.installed "v1") ∧
      (exec (clean (vendoring ["fgputil-sources.zip"])) (vendored ["fgputil-sources.zip"])).1 = .ok () ∧
      answeringHost.files.get? ["vendor", "fgputil-sources.zip"] = none ∧
      (unvendored ["fgputil-sources.zip"]).files.get? ["vendor", "fgputil-sources.zip"] =
        some (.file "new".toUTF8 0o644 none) := by
  decide +kernel

end RamlBuild

/-! ## Installing anew leaves no old artifact -/

namespace RamlBuild

open Build Location

namespace Kit

variable {kit : Kit} {root : Path} {url asked version : String} {way : List Location}
  {directory : Location} {host host' : Host} {outcome : InstallOutcome}

/-- When an installation has built a version, after it replaced another one or where no file was that
the tool takes for its own, then the files of the root that it takes for its own are those that were
brought from the build directory. -/
theorem hasFile_iff_of_install (hsound : (kit.site root way directory).Sound host)
    (htidy : host.files.Tidy) (hroot : root.text ≠ "")
    (htrusts : kit.Trusts (kit.site root way directory) url host)
    (hplain : ∀ name ∈ kit.targets, IsPlainName name) (hnodup : kit.targets.Nodup)
    (hway : ∀ name ∈ kit.targets, directory ++ [name] ∈ way →
      host.files.linkAt (directory ++ [name]) = none)
    (hstale : (∃ previous, outcome = .updated previous version) ∨
      ∀ name, kit.takes name = true → ¬host.files.HasFile (directory ++ [name]))
    (hinstall : exec (install (kit.installer root url asked)) host = (.ok outcome, host'))
    (hbuilt : outcome.built? = some version) :
    ∃ start found, kit.Brings root directory url asked version start found host' ∧
      ∀ name, kit.takes name = true →
        (host'.files.HasFile (directory ++ [name]) ↔ name ∈ found.map Prod.snd) := by
  rcases install_ok_cases hinstall with ⟨version', resolved, rfl, -⟩ | ⟨version', cleared, hclears, hbuild⟩
  · contradiction
  · obtain rfl : version' = version := Option.some.inj (hclears.built?_eq.symm.trans hbuilt)
    have hready := readied hsound htidy hroot hclears
    have hnone : ∀ name, kit.takes name = true → ¬cleared.files.HasFile (directory ++ [name]) := by
      intro name htakes
      rcases hstale with ⟨previous, houtcome⟩ | hstale
      · exact hready.not_hasFile houtcome htakes
      · exact fun hfile => hstale name htakes (hready.loses.hasFile hfile).2
    obtain ⟨way', found, -, hbrings, -⟩ :=
      brings hready.sound.placed (hready.loses.tidy htidy) hroot hready.sound.honest htrusts
        hready.machine hplain hnodup (fun name hname hv => (hready.linkAt _).trans (hway name hname hv))
        (fun name _ => hnone name) hbuild
    refine ⟨cleared, found, hbrings, fun name htakes => ?_⟩
    rw [hbrings.names]
    constructor
    · rintro ⟨e, he, hfile⟩
      by_contra hname
      have hlock : name ≠ kit.lockName := by
        rintro rfl
        rw [kit.takes_lockName] at htakes
        contradiction
      exact hnone name htakes
        ⟨e, (hbrings.others name hname hlock e (Entry.isDirectory_eq_false hfile)).1 he, hfile⟩
    · exact fun hname => hbrings.hasFile (List.mem_cons_of_mem _ hname)

end Kit

/-! ### Old jars -/

/-- A host with an old jar of the libraries and other files, on which every request is answered. -/
def staleHost (others : List (Location × Entry)) : Host :=
  { quietHost ⟨(["vendor"], .directory 0o755) ::
      (["vendor", "fgputil-old.jar"], .file "old".toUTF8 0o644 none) :: others, []⟩ with
    network := fun _ => some ⟨200, [], "new".toUTF8⟩ }

/-- The lock file of the version that the old jar came with. -/
def staleLock : Location × Entry :=
  (["vendor", "fgputil.lock"], .file "v0".toUTF8 0o644 none)

/-- One jar of the libraries, as it is vendored. -/
def jarVendoring : Installer :=
  (Kit.jars ["fgputil-a.jar"]).installer ⟨"vendor"⟩ "http://[::1]" "v1"

/-- The host after the jar was vendored. -/
def afterVendoring (others : List (Location × Entry)) : Host :=
  (exec (install jarVendoring) (staleHost others)).2

theorem sound_staleHost :
    ((Kit.jars ["fgputil-a.jar"]).site ⟨"vendor"⟩ [[], ["vendor"]] ["vendor"]).Sound
      (staleHost [staleLock]) := by
  have htree : (staleHost [staleLock]).files.WellFormed :=
    Files.wellFormed_of_entries (by decide) (by decide)
  refine ⟨⟨htree.isTree, ⟨⟨[[], ["vendor"]], ["vendor"]⟩, by rfl, rfl, by decide⟩,
    ⟨⟨[[], ["vendor"]], ["vendor"]⟩, by rfl, rfl, by decide⟩⟩, ?_, by rfl, fun _ => ⟨by rfl, 0o755, by rfl⟩⟩
  simp [staleHost, quietHost]

/-- An old version is replaced with its jar. -/
theorem hasFile_iff_of_install_vendor :
    exec (install jarVendoring) (staleHost [staleLock]) =
        (.ok (.updated (some "v0") "v1"), afterVendoring [staleLock]) ∧
      ∃ start found, (Kit.jars ["fgputil-a.jar"]).Brings ⟨"vendor"⟩ ["vendor"] "http://[::1]" "v1" "v1"
          start found (afterVendoring [staleLock]) ∧
        ∀ name, VendoredJars.isJar name = true →
          ((afterVendoring [staleLock]).files.HasFile (["vendor"] ++ [name]) ↔
            name ∈ found.map Prod.snd) := by
  have hinstall : exec (install jarVendoring) (staleHost [staleLock]) =
      (.ok (.updated (some "v0") "v1"), afterVendoring [staleLock]) :=
    exec_eq_of_fst (by decide +kernel)
  have htrusts : (Kit.jars ["fgputil-a.jar"]).Trusts
      ((Kit.jars ["fgputil-a.jar"]).site ⟨"vendor"⟩ [[], ["vendor"]] ["vendor"]) "http://[::1]"
      (staleHost [staleLock]) := trivial
  exact ⟨hinstall, Kit.hasFile_iff_of_install sound_staleHost
    (Files.wellFormed_of_entries (by decide) (by decide)).tidy (by decide) htrusts
    (by decide) (by decide) (by decide) (.inl ⟨_, rfl⟩) hinstall rfl⟩

/-- Without a lock file the old jar stays, though the tool takes it for its own. -/
theorem install_keeps_stale :
    (exec (install jarVendoring) (staleHost [])).1 = .ok (.installed "v1") ∧
      VendoredJars.isJar "fgputil-old.jar" = true ∧
      (afterVendoring []).files.get? ["vendor", "fgputil-old.jar"] =
        some (.file "old".toUTF8 0o644 none) := by
  decide +kernel

end RamlBuild
