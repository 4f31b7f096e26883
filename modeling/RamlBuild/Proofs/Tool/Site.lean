import RamlBuild.Proofs.Build.Directories

/-!
# Sites of tools

A tool is installed in a root directory, with a lock file and artifacts in it. The path of the root
may lead through links. While these stay, the root's path leads to the one directory or nowhere, and
so do the paths of what is in it.

## Main definitions

* `Site` — where a tool is installed
* `Site.Lies` — the files have the site where it is said to be
* `Site.Stays` — the way to the site stays
* `Site.Reached` — the root is a directory that its path leads to

## Main results

* `Site.Lies.of_stays`, `Site.Reached.of_stays` — a site is where it was while its way stays
* `Site.LeadsTo.place_eq`, `Site.Lies.place_of_stays` — where the entries of the root are
* `Site.stays_eraseTree` — removing what was made at a free location
-/

namespace RamlBuild

/-- Where a tool is installed. -/
structure Site where
  /-- The path of the root. -/
  root : Path
  /-- The locations by which the path leads to the root. -/
  way : List Location
  /-- The location of the root. -/
  directory : Location
  /-- The name of the lock file. -/
  lockName : String
  /-- The names of the artifacts. -/
  artifacts : List String
  /-- The lock file stands in the root itself. -/
  lockName_plain : IsPlainName lockName
  /-- The lock file is not one of the artifacts. -/
  lockName_not_mem : lockName ∉ artifacts

namespace Site

variable {site : Site} {fs fs' fs'' : Files} {p : Path} {l loc : Location} {name : String}
  {mode : Nat}

/-- The path of the lock file. -/
def lockFile (site : Site) : Path := site.root / site.lockName

/-- The location of the lock file. -/
def lock (site : Site) : Location := site.directory ++ [site.lockName]

/-- The location of an artifact. -/
def artifact (site : Site) (name : String) : Location := site.directory ++ [name]

theorem lock_ne_nil : site.lock ≠ [] := by simp [lock]

theorem artifact_ne_lock (h : name ∈ site.artifacts) : site.artifact name ≠ site.lock := by
  intro heq
  obtain ⟨-, hname⟩ := List.append_inj' heq rfl
  exact site.lockName_not_mem (List.singleton_inj.1 hname ▸ h)

/-- A path leads to the root of a site by its way, when whatever is missing is taken for a
directory. -/
def LeadsTo (site : Site) (fs : Files) (p : Path) : Prop :=
  ∃ trail, fs.trail Files.maxLinks (fs.start p) p.walked = some trail ∧
    trail.finish = site.directory ∧ ∀ v ∈ trail.way, v ∈ site.way

theorem LeadsTo.leadsBy (h : site.LeadsTo fs p) : fs.LeadsBy (· ∈ site.way) p := by
  obtain ⟨trail, htrail, -, hway⟩ := h
  exact ⟨trail, htrail, hway⟩

/-- The files are a tree that has the site where it is said to be, by the path of its root and by the
absolute one. -/
structure Lies (site : Site) (fs : Files) : Prop where
  isTree : fs.IsTree
  leads : site.LeadsTo fs site.root
  leads_absolute : site.LeadsTo fs (fs.workingDirectory.path / site.root)

/-- The links on the way to a site stay, and so do the directories; new ones may come. -/
structure Stays (site : Site) (fs fs' : Files) : Prop where
  workingDirectory : fs'.workingDirectory = fs.workingDirectory
  isTree : fs.IsTree → fs'.IsTree
  linkAt : ∀ v ∈ site.way, fs'.linkAt v = fs.linkAt v
  passage : ∀ v ∈ site.way, ∀ e, fs.passage v = some e → fs'.passage v = some e

namespace Stays

theorem refl (site : Site) (fs : Files) : site.Stays fs fs :=
  ⟨rfl, fun h => h, fun _ _ => rfl, fun _ _ _ h => h⟩

theorem trans (h : site.Stays fs fs') (h' : site.Stays fs' fs'') : site.Stays fs fs'' where
  workingDirectory := h'.workingDirectory.trans h.workingDirectory
  isTree := fun htree => h'.isTree (h.isTree htree)
  linkAt := fun v hv => (h'.linkAt v hv).trans (h.linkAt v hv)
  passage := fun v hv e he => h'.passage v hv e (h.passage v hv e he)

end Stays

/-- The same entries are the same way. -/
theorem stays_of_get?_eq (h : ∀ l, fs'.get? l = fs.get? l)
    (hdir : fs'.workingDirectory = fs.workingDirectory) : site.Stays fs fs' where
  workingDirectory := hdir
  isTree := fun htree => htree.congr h
  linkAt := fun v _ => Files.linkAt_eq_of_get?_eq (h v)
  passage := by
    intro v _ e he
    rwa [Files.passage, h, ← Files.passage]

theorem stays_of_samePassages (h : Files.SamePassages fs fs') (htree : fs.IsTree → fs'.IsTree) :
    site.Stays fs fs' where
  workingDirectory := h.workingDirectory
  isTree := htree
  linkAt := fun v _ => Files.linkAt_eq_of_passage_eq (h.passage v)
  passage := by
    intro v _ e he
    rwa [h.passage]

/-- Making directories where nothing was keeps the way. -/
theorem stays_of_makesDirectories (h : Files.MakesDirectories fs fs') : site.Stays fs fs' where
  workingDirectory := h.workingDirectory
  isTree := h.isTree
  linkAt := fun v _ => h.linkAt v
  passage := fun _ _ _ he => h.passage he

/-- Something that came where nothing was may go again, with all that is below it. -/
theorem stays_eraseTree (hstays : site.Stays fs fs') (htree : fs.IsTree) (hfree : fs.get? loc = none) :
    site.Stays fs (fs'.eraseTree loc) := by
  have hne := Files.ne_nil_of_get?_eq_none hfree
  refine ⟨hstays.workingDirectory, fun htree => (hstays.isTree htree).eraseTree hne, ?_, ?_⟩
  · intro v hv
    by_cases hbelow : loc.isPrefixOf v = true
    · rw [Files.linkAt, Files.get?_eraseTree hne, if_pos hbelow, Files.linkAt,
        htree.get?_eq_none_of_prefix hfree hbelow]
    · rw [← hstays.linkAt v hv]
      exact Files.linkAt_eq_of_get?_eq (by rw [Files.get?_eraseTree hne, if_neg hbelow])
  · intro v hv e he
    have habove : ¬loc.isPrefixOf v = true := by
      intro hbelow
      rw [Files.passage_of_none (htree.get?_eq_none_of_prefix hfree hbelow)] at he
      contradiction
    rw [Files.passage, Files.get?_eraseTree hne, if_neg habove]
    exact hstays.passage v hv e he

/-! ### A site is where it was -/

theorem LeadsTo.of_stays (h : site.LeadsTo fs p) (hstays : site.Stays fs fs') :
    site.LeadsTo fs' p := by
  obtain ⟨trail, htrail, hfinish, hway⟩ := h
  refine ⟨trail, ?_, hfinish, hway⟩
  rw [show fs'.start p = fs.start p by rw [Files.start, hstays.workingDirectory, Files.start]]
  exact Files.trail_congr htrail fun v hv => hstays.linkAt v (hway v hv)

/-- A site is where it was while its way stays. -/
theorem Lies.of_stays (h : site.Lies fs) (hstays : site.Stays fs fs') : site.Lies fs' where
  isTree := hstays.isTree h.isTree
  leads := h.leads.of_stays hstays
  leads_absolute := by
    rw [hstays.workingDirectory]
    exact h.leads_absolute.of_stays hstays

/-- A path that leads to a site does so when it leads anywhere. -/
theorem LeadsTo.reach_eq (h : site.LeadsTo fs p) (hreach : fs.reach p = .ok l) :
    l = site.directory := by
  obtain ⟨trail, htrail, hfinish, -⟩ := h
  obtain ⟨trail', htrail', hfinish', -⟩ := Files.trail_of_walk hreach
  obtain rfl : trail = trail' := Option.some.inj (htrail.symm.trans htrail')
  exact hfinish'.symm.trans hfinish

theorem LeadsTo.place_eq (h : site.LeadsTo fs p) (hname : IsPlainName name)
    (hplace : fs.place (p / name) = .ok l) : l = site.directory ++ [name] := by
  obtain ⟨-, dir, hreach, hstep⟩ := (Files.place_child_iff hname).1 hplace
  rw [Files.eq_append_of_takeStep hstep, h.reach_eq hreach]

/-- The root is a directory that its path leads to. -/
def Reached (site : Site) (fs : Files) : Prop :=
  fs.reach site.root = .ok site.directory ∧ ∃ mode, fs.get? site.directory = some (.directory mode)

theorem Lies.reached (h : site.Lies fs) (hreaches : Build.ReachesDirectory fs site.root) :
    site.Reached fs := by
  obtain ⟨l, mode, hreach, hget⟩ := hreaches
  obtain rfl := h.leads.reach_eq hreach
  exact ⟨hreach, mode, hget⟩

/-- The root itself stays while the way to it does. -/
theorem Reached.directory_eq (h : site.Reached fs) (hlies : site.Lies fs)
    (hstays : site.Stays fs fs') : fs'.get? site.directory = fs.get? site.directory := by
  obtain ⟨-, mode, hget⟩ := h
  obtain ⟨trail, htrail, hfinish, hway⟩ := hlies.leads
  have hmem : site.directory ∈ site.way := hway _ (hfinish ▸ Files.finish_mem_way htrail)
  have hpassage := hstays.passage _ hmem _ (Files.passage_eq_some_iff.2 ⟨hget, rfl⟩)
  rw [hget, (Files.passage_eq_some_iff.1 hpassage).1]

/-- A root that was reached is reached while the way to it stays. -/
theorem Reached.of_stays (h : site.Reached fs) (hlies : site.Lies fs)
    (hstays : site.Stays fs fs') : site.Reached fs' := by
  have hdirectory := h.directory_eq hlies hstays
  obtain ⟨hreach, mode, hget⟩ := h
  obtain ⟨trail, htrail, hfinish, hway⟩ := hlies.leads
  refine ⟨?_, mode, hdirectory.trans hget⟩
  rw [Files.reach, show fs'.start site.root = fs.start site.root by
    rw [Files.start, hstays.workingDirectory, Files.start]]
  refine Files.walk_of_trail hreach htrail ?_ fun v hv => hstays.passage v (hway v hv)
  simp [Files.passage_eq_some_iff.2 ⟨hget, rfl⟩]

/-- An entry of the root is where it was while the way to the root stays. -/
theorem Lies.place_of_stays (h : site.Lies fs) (hname : IsPlainName name)
    (hstays : site.Stays fs fs') (hplace : fs.place (site.root / name) = .ok l) :
    fs'.place (site.root / name) = .ok l := by
  obtain ⟨hpath, dir, hreach, hstep⟩ := (Files.place_child_iff hname).1 hplace
  obtain rfl := h.leads.reach_eq hreach
  obtain ⟨hl, hlong, mode, hmode, henter⟩ := Files.takeStep_name_iff.1 hstep
  have hreached : site.Reached fs := ⟨hreach, mode, hmode⟩
  refine (Files.place_child_iff hname).2 ⟨hpath, site.directory, ?_, ?_⟩
  · exact (hreached.of_stays h hstays).1
  · exact Files.takeStep_name_iff.2
      ⟨hl, hlong, mode, (hreached.directory_eq h hstays).trans hmode, henter⟩

end Site

end RamlBuild
