import RamlBuild.Proofs.Tool.Artifact
import RamlBuild.Proofs.Tool.Fits
import RamlBuild.Proofs.Tool.Settled

/-!
# Working in a build directory

Once the root of a tool is there, its path leads to it by directories and links only, and a build
directory that is made in it then is off that way. Work inside of the build directory keeps the way
and what else is directly in the root; and when a version was built, what remains of the work is what
came directly to the root.

## Main definitions

* `Site.along` — a site with less on its way
* `Site.Workplace` — a build directory that is off the way to its root
* `Site.surface` — the way to a root, and what is directly in it beside the build directory
* `Site.Supplied` — files in a build directory that are to be moved to the root
* `Site.Works` — how building a version succeeds
* `Site.Finished` — what is there in the end
* `Site.Delivered` — what was moved to the root is there, and only directories came beside it

## Main results

* `Site.Workplace.of_keeps` — work that leaves the surface alone
* `Site.Placed.exists_works` — building a version works in a build directory
* `Site.Works.finished` — the lock file is written and the build directory goes
* `Site.Works.delivered` — what was found in the build directory is in the root
-/

namespace RamlBuild

open Build Location

variable {tool : Installer} {site : Site} {host host' opened fetched built last : Host}
  {fs fs' : Files} {b version : String} {dir : Path} {way : List Location}

namespace Site

/-- The site with something else told as its way. -/
def along (site : Site) (way : List Location) : Site :=
  { site with way := way }

/-- A root that is there is reached by the directories and links on its way. -/
theorem Lies.exists_along (h : site.Lies fs) (hreached : site.Reached fs)
    (habsolute : fs.reach (fs.workingDirectory.path / site.root) = .ok site.directory) :
    ∃ way, way ⊆ site.way ∧ (site.along way).Lies fs ∧ ∀ v ∈ way, (fs.passage v).isSome := by
  obtain ⟨hreach, mode, hmode⟩ := hreached
  have hleads : ∀ {p}, site.LeadsTo fs p → fs.reach p = .ok site.directory →
      (site.along (site.way.filter fun v => (fs.passage v).isSome)).LeadsTo fs p := by
    intro p hleads hreach
    have hway : fs.LeadsTo (· ∈ site.way) p site.directory := hleads
    obtain ⟨-, trail, htrail, hfinish, hmem⟩ :=
      hway.and (Files.leadsTo_of_reach_directory hreach hmode)
    exact ⟨trail, htrail, hfinish, fun v hv => List.mem_filter.2 (hmem v hv)⟩
  exact ⟨_, fun v hv => (List.mem_filter.1 hv).1,
    ⟨h.isTree, hleads h.leads hreach, hleads h.leads_absolute habsolute⟩,
    fun v hv => (List.mem_filter.1 hv).2⟩

theorem Stays.isSome_passage (h : site.Stays fs fs') {v : Location} (hv : v ∈ site.way)
    (hsome : (fs.passage v).isSome) : (fs'.passage v).isSome := by
  obtain ⟨e, he⟩ := Option.isSome_iff_exists.1 hsome
  rw [h.passage v hv e he]
  rfl

/-! ### Build directories -/

/-- A build directory in the root, which is reached by directories and links that are there: nothing
of the build directory is on that way. -/
structure Workplace (site : Site) (b : String) (dir : Path) (fs : Files) : Prop where
  lies : site.Lies fs
  passes : ∀ v ∈ site.way, (fs.passage v).isSome
  reached : site.Reached fs
  tidy : fs.Tidy
  plain : IsPlainName b
  path_eq : dir = fs.workingDirectory.path / site.root / b
  directory : ∃ mode, fs.get? (site.directory ++ [b]) = some (.directory mode)
  aside : ∀ v ∈ site.way, ¬(site.directory ++ [b]) <+: v

/-- The way to a root with a build directory, and what else is directly in the root. -/
def surface (site : Site) (b : String) : Frame :=
  ⟨fun v => v ∈ site.way ∨ v = site.directory ++ [b],
    fun l => ∃ name, name ≠ b ∧ l = site.directory ++ [name]⟩

namespace Workplace

/-- The way to a build directory is that to the root. -/
theorem leadsTo (h : site.Workplace b dir fs) :
    fs.LeadsTo (site.surface b).ways dir (site.directory ++ [b]) := by
  rw [h.path_eq]
  obtain ⟨mode, hdir⟩ := h.directory
  have habsolute : fs.LeadsTo (· ∈ site.way) (fs.workingDirectory.path / site.root)
    site.directory := h.lies.leads_absolute
  exact habsolute.child h.plain (Files.linkAt_of_directory hdir)

theorem headsFor (h : site.Workplace b dir fs) : fs.HeadsFor dir (site.directory ++ [b]) :=
  h.leadsTo.headsFor

theorem paved (h : site.Workplace b dir fs) : Archive.Paved fs dir (site.directory ++ [b]) := by
  refine h.leadsTo.mono ?_
  rintro v (hv | rfl)
  · obtain ⟨e, he⟩ := Option.isSome_iff_exists.1 (h.passes v hv)
    rw [(Files.passage_eq_some_iff.1 he).1]
    rfl
  · obtain ⟨mode, hmode⟩ := h.directory
    rw [hmode]
    rfl

/-- A build directory stays one while the surface is left alone. -/
theorem of_keeps (h : site.Workplace b dir fs) (hkeeps : (site.surface b).Keeps fs fs')
    (htidy : fs'.Tidy) : site.Workplace b dir fs' := by
  have hstays : site.Stays fs fs' := stays_of_keeps hkeeps fun v hv => .inl hv
  obtain ⟨mode, hmode⟩ := h.directory
  have hpassage := hkeeps.passage _ (.inr rfl) _ (Files.passage_eq_some_iff.2 ⟨hmode, rfl⟩)
  exact ⟨h.lies.of_stays hstays, fun v hv => hstays.isSome_passage hv (h.passes v hv),
    h.reached.of_stays h.lies hstays, htidy, h.plain, hkeeps.workingDirectory ▸ h.path_eq,
    ⟨mode, (Files.passage_eq_some_iff.1 hpassage).1⟩, h.aside⟩

/-- What happens inside of the build directory leaves the surface alone. -/
theorem keeps_of_changesInside (h : site.Workplace b dir fs)
    (hchanges : Files.ChangesInside (site.directory ++ [b]) fs fs') :
    (site.surface b).Keeps fs fs' := by
  have hways : ∀ v, (site.surface b).ways v → fs'.get? v = fs.get? v := by
    rintro v (hv | rfl)
    · exact hchanges.get?_eq v fun hinside => h.aside v hv hinside.1
    · exact hchanges.get?_eq _ (not_inside_self _)
  refine ⟨hchanges.workingDirectory, hchanges.isTree,
    fun v hv => Files.linkAt_eq_of_get?_eq (hways v hv), fun v hv e he => ?_, ?_⟩
  · rwa [Files.passage, hways v hv, ← Files.passage]
  · rintro l ⟨name, -, rfl⟩
    exact hchanges.get?_eq _ fun hinside => hinside.ne_child rfl

end Workplace

/-! ### What is found in a build directory -/

/-- Work in a build directory left the surface alone, and there are files in it to be moved to the
root. Those that may have further names have a name that the tool takes for one of its own. -/
structure Supplied (site : Site) (b : String) (takes : String → Bool)
    (spot : Path × String → Location) (found : List (Path × String)) (fs fs' : Files) : Prop where
  keeps : (site.surface b).Keeps fs fs'
  tidy : fs'.Tidy
  inside : ∀ x ∈ found, Inside (site.directory ++ [b]) (spot x)
  fixed : ∀ x ∈ found, fs'.FixedAt x.1 (spot x)
  isFile : ∀ x ∈ found, ∀ e, fs'.get? (spot x) = some e →
    e.isFile = true ∧ (e.shared? = none ∨ takes x.2 = true)

/-- What was found can be moved to the root, when no link on the way is in its place and no file that
the tool takes for its own. -/
theorem Supplied.movable {takes : String → Bool} {spot : Path × String → Location}
    {found : List (Path × String)} (h : site.Supplied b takes spot found fs fs')
    (hwork : site.Workplace b dir fs) (hplain : ∀ x ∈ found, IsPlainName x.2)
    (hnodup : (found.map Prod.snd).Nodup)
    (hway : ∀ x ∈ found, site.directory ++ [x.2] ∈ site.way →
      fs.linkAt (site.directory ++ [x.2]) = none)
    (hfree : ∀ x ∈ found, takes x.2 = true → ¬fs.HasFile (site.directory ++ [x.2])) :
    site.Movable b spot found fs' := by
  have hother : ∀ {name}, name ≠ b →
      fs'.get? (site.directory ++ [name]) = fs.get? (site.directory ++ [name]) := fun hne =>
    h.keeps.get?_eq _ ⟨_, hne, rfl⟩
  obtain ⟨mode, hmode⟩ := (hwork.of_keeps h.keeps h.tidy).directory
  refine ⟨hplain, hnodup, fun x hx hx' => ?_, h.inside, h.fixed, fun x hx e he => ?_⟩
  · by_cases hb : x.2 = b
    · rw [hb]
      exact Files.linkAt_of_directory hmode
    · rw [Files.linkAt_eq_of_get?_eq (hother hb)]
      exact hway x hx hx'
  · obtain ⟨hisFile, hnames⟩ := h.isFile x hx e he
    refine ⟨hisFile, ?_⟩
    rcases hnames with hnone | htakes
    · have hnever : e.isSameFile = fun _ => false := by
        funext e'
        rw [Entry.isSameFile, hnone]
      rw [hnever]
      cases fs'.get? (site.directory ++ [x.2]) <;> rfl
    · -- What is in its place is no file, so it is none with the same names.
      have hnot : ∀ e', fs'.get? (site.directory ++ [x.2]) = some e' → e'.isFile = false := by
        intro e' he'
        by_cases hb : x.2 = b
        · rw [hb, hmode] at he'
          rw [← Option.some.inj he']
          rfl
        · rw [hother hb] at he'
          by_contra hfile
          exact hfree x hx htakes ⟨e', he', by simpa using hfile⟩
      cases hget : fs'.get? (site.directory ++ [x.2]) with
      | none => rfl
      | some e' =>
        have hfile := hnot e' hget
        cases e' with
        | file => contradiction
        | directory | link => simp [Entry.isSameFile, Entry.shared?]

/-- A build directory stays one while files are moved from it to the root. -/
theorem Workplace.of_brought {spot : Path × String → Location} {found : List (Path × String)}
    (h : site.Workplace b dir fs) (hbrought : site.Brought b spot found fs fs') :
    site.Workplace b dir fs' := by
  obtain ⟨mode, hmode⟩ := h.directory
  have hne : ∀ x ∈ found, site.directory ++ [b] ≠ site.directory ++ [x.2] := fun x hx heq =>
    hbrought.free x hx mode (heq ▸ hmode)
  exact ⟨h.lies.of_stays hbrought.stays,
    fun v hv => hbrought.stays.isSome_passage hv (h.passes v hv),
    h.reached.of_stays h.lies hbrought.stays, hbrought.tidy, h.plain,
    hbrought.stays.workingDirectory ▸ h.path_eq,
    ⟨mode, (hbrought.get?_other _ (not_inside_self _) hne).trans hmode⟩, h.aside⟩

/-! ### Building a version -/

/-- How building a version succeeds: a version is fetched into a build directory that was just made
in the root, and built; then it is recorded, and the build directory goes. -/
structure Works (tool : Installer) (site : Site) (version : String) (host : Host) (b : String)
    (dir : Path) (opened fetched built last host' : Host) : Prop where
  machine : SameMachine host opened
  makes : Files.MakesDirectories host.files opened.files
  free : host.files.get? (site.directory ++ [b]) = none
  workplace : site.Workplace b dir opened.files
  empty : ∀ name rest, opened.files.get? (site.directory ++ b :: name :: rest) = none
  fetches : exec (fetchVersion tool version) host = (.ok dir, fetched)
  downloads : exec (tool.download version dir) opened = (.ok (), fetched)
  builds : exec (tool.buildAndInstall version dir) fetched = (.ok (), built)
  writes : exec (Lock.write site.lockFile version) built = (.ok (), last)
  removes : exec (removeTree dir) last = (.ok (), host')

/-- Building a version works in a build directory, which is off the way that the root is reached
by. -/
theorem Placed.exists_works (hplaced : site.Placed host.files) (hat : tool.IsAt site)
    (htidy : host.files.Tidy) (hroot : site.root.text ≠ "")
    (h : exec (buildVersion tool version) host = (.ok (), host')) :
    ∃ way n dir opened fetched built last, way ⊆ site.way ∧
      Works tool (site.along way) version host (tool.buildName n) dir opened fetched built last
        host' := by
  rw [buildVersion_eq] at h
  obtain ⟨⟨⟩, host₁, hcreate, h⟩ := exec_bind_ok h
  have hmakes₁ := (createDirectories_makes hcreate).1
  have hkeeps₁ : site.course.Keeps host.files host₁.files :=
    Frame.keeps_of_makesDirectories hmakes₁ nofun
  have hplaced₁ : site.Placed host₁.files := hplaced.of_keeps hkeeps₁ fun _ hv => hv
  have hreached₁ : site.Reached host₁.files := by
    rw [hat.root] at hcreate
    exact hplaced₁.lies.reached (createDirectories_reach hroot hcreate)
  obtain ⟨⟨loc, dir⟩, opened, hmake, h⟩ := exec_bind_ok h
  obtain ⟨n, hopens⟩ := opensAt_of_createBuildDirectory hat hplaced₁ (exec_within_ok hmake)
  simp only [exec_cleaningUp] at h
  rcases hcomplete : exec (completeVersion tool version dir) opened with ⟨result, last'⟩
  rw [hcomplete] at h
  cases result with
  | error failure => exact absurd (Prod.mk.inj h).1 (by simp)
  | ok =>
    obtain ⟨-, rfl⟩ := Prod.mk.inj h
    obtain ⟨⟨⟩, fetched, hfetch, hcomplete⟩ := exec_bind_ok hcomplete
    obtain ⟨⟨⟩, built, hbuild, hcomplete⟩ := exec_bind_ok hcomplete
    obtain ⟨⟨⟩, last, hwrite, hremove⟩ := exec_bind_ok hcomplete
    have hplain := Installer.isPlainName_buildName hat.name n
    -- The path of the build directory goes on from the root.
    have habsolute : host₁.files.reach (host₁.files.workingDirectory.path / site.root) =
        .ok site.directory := by
      have hplace := hopens.place
      rw [hopens.path_eq, hat.root] at hplace
      obtain ⟨-, d, hreach, -⟩ := (Files.place_child_iff hplain).1 hplace
      rw [hreach, hplaced₁.lies.leads_absolute.reach_eq hreach]
    obtain ⟨way, hway, hlies, hsome⟩ := hplaced₁.lies.exists_along hreached₁ habsolute
    have hstays : (site.along way).Stays host₁.files opened.files :=
      stays_of_makesDirectories hopens.makes.1
    have hfree : host₁.files.get? (site.directory ++ [tool.buildName n]) = none :=
      hopens.loc_eq ▸ hopens.free
    refine ⟨way, n, dir, opened, fetched, built, last, hway, ?_, hmakes₁.trans hopens.makes.1, ?_, ?_, hopens.opens.empty, ?_,
      exec_within_ok hfetch, exec_within_ok hbuild, hat.lockFile ▸ hwrite, exec_within_ok hremove⟩
    · exact chains_sameMachine.trans (sameMachine_createDirectories hcreate)
        (Always.within sameMachine_createBuildDirectory hmake)
    · rcases hmakes₁.get? (site.directory ++ [tool.buildName n]) with heq | ⟨hnone, -⟩
      · exact heq.symm.trans hfree
      · exact hnone
    · refine ⟨hlies.of_stays hstays, fun v hv => hstays.isSome_passage hv (hsome v hv),
        Reached.of_stays hreached₁ hlies hstays, ?_, hplain, ?_, ⟨_, hopens.opens.directory⟩, ?_⟩
      · rw [hopens.files_eq]
        exact (tidy_createDirectories hcreate htidy).put_of_locate hopens.place hopens.free
      · rw [hopens.path_eq, hat.root, hopens.makes.1.workingDirectory]
        rfl
      · intro v hv hbelow
        have hpassage := hsome v hv
        rw [Files.passage_of_none (hplaced₁.lies.isTree.get?_eq_none_of_prefix hfree
          (List.isPrefixOf_iff_prefix.2 hbelow))] at hpassage
        cases hpassage
    · rw [fetchVersion, exec_bind_of_ok hcreate, exec_bind_of_ok hmake, exec_bind_of_ok hfetch]
      rfl

/-- What is there in the end: the lock file has the version, the build directory is gone, and
everything else is as it was built. -/
structure Finished (site : Site) (version b : String) (built host' : Host) : Prop where
  sound : site.Sound host'
  reached : site.Reached host'.files
  tidy : host'.files.Tidy
  lock : ∃ mode, host'.files.get? site.lock = some (.file (Text.trimmed version).toUTF8 mode none)
  gone : ∀ l, (site.directory ++ [b]) <+: l → host'.files.get? l = none
  get?_other : ∀ l, ¬(site.directory ++ [b]) <+: l → l ≠ site.lock →
    host'.files.get? l = built.files.get? l

/-- The lock file is written, and the build directory goes. -/
theorem Works.finished (h : Works tool site version host b dir opened fetched built last host')
    (hwork : site.Workplace b dir built.files) (honest : ∀ n, built.faults n ≠ some .notFound)
    (hlink : built.files.linkAt site.lock = none) : site.Finished version b built host' := by
  have hsound : site.Sound built := ⟨hwork.lies, honest, hlink, fun _ => hwork.reached⟩
  have hwrite := h.writes
  obtain ⟨hsound₁, hchanges, hwritten, -⟩ := hsound.write hwrite
  obtain ⟨mode, hlock⟩ := hwritten rfl
  rw [Lock.write] at hwrite
  have hwrite := exec_within_ok hwrite
  have htidy₁ : last.files.Tidy := tidy_writeAtomically hwrite hwork.tidy
  have hne : site.directory ++ [b] ≠ site.lock := by
    intro heq
    obtain ⟨target, hplace, hreplaced, -⟩ := writeAtomically_ok hwrite
    obtain rfl := hsound.placed.locate_eq hplace
    obtain ⟨mode, hmode⟩ := hwork.directory
    exact hreplaced.not_directory mode (heq ▸ hmode)
  obtain ⟨hop, hfaults⟩ := changing_ok h.removes
  obtain ⟨l, hplace, hcases⟩ := Files.removeTree_cases hop
  obtain rfl : l = site.directory ++ [b] := by
    rw [hwork.path_eq, ← hchanges.stays.workingDirectory] at hplace
    exact hsound₁.lies.leads_absolute.place_eq hwork.plain hplace
  -- What stands there is the build directory still.
  obtain ⟨mode', hmode'⟩ := hwork.directory
  have hdir : last.files.get? (site.directory ++ [b]) = some (.directory mode') :=
    (hchanges.get?_other _ hne).trans hmode'
  have hfiles : host'.files = last.files.eraseTree (site.directory ++ [b]) := by
    rcases hcases with ⟨-, heq⟩ | ⟨⟨target, htarget⟩, -⟩
    · exact heq
    · rw [hdir] at htarget
      cases Option.some.inj htarget
  have hnil : site.directory ++ [b] ≠ [] := by simp
  have hget : ∀ l, host'.files.get? l =
      if (site.directory ++ [b]).isPrefixOf l then none else last.files.get? l := by
    intro l
    rw [hfiles, Files.get?_eraseTree hnil]
  have hoff : ∀ l, ¬(site.directory ++ [b]) <+: l → host'.files.get? l = last.files.get? l := by
    intro l hl
    rw [hget, if_neg (by rwa [List.isPrefixOf_iff_prefix])]
  have hlockOff : ¬(site.directory ++ [b]) <+: site.lock := by
    intro hbelow
    exact hne (hbelow.eq_of_length (by simp [Site.lock]))
  have hstays : site.Stays last.files host'.files := by
    have hkeeps : (Frame.mk (· ∈ site.way) fun _ => False).Keeps last.files host'.files :=
      hfiles ▸ Frame.keeps_eraseTree_off hnil fun l hbelow =>
        ⟨fun hl => hwork.aside l hl (List.isPrefixOf_iff_prefix.1 hbelow), id⟩
    exact stays_of_keeps hkeeps fun _ hv => hv
  have hreached₁ := hwork.reached.of_stays hwork.lies hchanges.stays
  refine ⟨hsound₁.of_stays hstays hfaults (hoff _ hlockOff),
    hreached₁.of_stays hsound₁.lies hstays, hfiles ▸ htidy₁.eraseTree hnil,
    ⟨mode, (hoff _ hlockOff).trans hlock⟩, ?_, ?_⟩
  · intro l hl
    rw [hget, if_pos (List.isPrefixOf_iff_prefix.2 hl)]
  · intro l hl hlock
    rw [hoff l hl, hchanges.get?_other l hlock]

/-! ### Bringing files to the root -/

/-- Files were brought from a build directory to the root, and nothing but directories came or went
there otherwise. -/
structure Delivered (site : Site) (spot : Path × String → Location) (found : List (Path × String))
    (host gathered host' : Host) : Prop where
  arrives : ∀ x ∈ found, ∃ e, gathered.files.get? (spot x) = some e ∧ e.isFile = true ∧
    (x.2 ≠ site.lockName → host'.files.get? (site.directory ++ [x.2]) = some e)
  others : ∀ name, name ∉ found.map Prod.snd → name ≠ site.lockName → ∀ e, e.isDirectory = false →
    (host'.files.get? (site.directory ++ [name]) = some e ↔
      host.files.get? (site.directory ++ [name]) = some e)

section

variable {takes : String → Bool} {spot : Path × String → Location} {found : List (Path × String)}
  {gathered : Host}

/-- What was found in the build directory is moved to the root. -/
theorem Works.brought (h : Works tool site version host b dir opened fetched built last host')
    (hsupplied : site.Supplied b takes spot found opened.files gathered.files)
    (hplain : ∀ x ∈ found, IsPlainName x.2) (hnodup : (found.map Prod.snd).Nodup)
    (hway : ∀ x ∈ found, site.directory ++ [x.2] ∈ site.way →
      host.files.linkAt (site.directory ++ [x.2]) = none)
    (hfree : ∀ x ∈ found, takes x.2 = true → ¬host.files.HasFile (site.directory ++ [x.2]))
    (hmove : exec (moveFound site.root found) gathered = (.ok (), built)) :
    site.Brought b spot found gathered.files built.files ∧ site.Workplace b dir built.files := by
  have hmovable := hsupplied.movable h.workplace hplain hnodup
    (fun x hx hv => by
      rw [h.makes.linkAt]
      exact hway x hx hv)
    (fun x hx htakes ⟨e, he, hfile⟩ => hfree x hx htakes
      ⟨e, (h.makes.get?_eq_some_iff (Entry.isDirectory_eq_false hfile)).1 he, hfile⟩)
  have hwork := h.workplace.of_keeps hsupplied.keeps hsupplied.tidy
  have hbrought := hmovable.brought hwork.lies hwork.reached hwork.tidy hmove
  exact ⟨hbrought, hwork.of_brought hbrought⟩

/-- What is directly in the root stays as it was while others are moved there. -/
theorem Brought.get?_eq {fs'' : Files} (h : site.Brought b spot found fs' fs'')
    (hsupplied : site.Supplied b takes spot found fs fs') {name : String} (hne : name ≠ b)
    (hname : name ∉ found.map Prod.snd) :
    fs''.get? (site.directory ++ [name]) = fs.get? (site.directory ++ [name]) := by
  refine (h.get?_other _ (fun hin => hin.ne_child rfl) fun x hx heq => ?_).trans
    (hsupplied.keeps.get?_eq _ ⟨name, hne, rfl⟩)
  exact hname (child_inj.1 heq ▸ List.mem_map_of_mem hx)

/-- No link is in the place of the lock file, when none was there. -/
theorem Works.linkAt_lock (h : Works tool site version host b dir opened fetched built last host')
    (hsupplied : site.Supplied b takes spot found opened.files gathered.files)
    (hbrought : site.Brought b spot found gathered.files built.files)
    (hwork : site.Workplace b dir built.files) (hlink : host.files.linkAt site.lock = none) :
    built.files.linkAt site.lock = none := by
  by_cases hb : site.lockName = b
  · obtain ⟨mode, hdir⟩ := hwork.directory
    rw [lock, hb]
    exact Files.linkAt_of_directory hdir
  by_cases hname : site.lockName ∈ found.map Prod.snd
  · obtain ⟨x, hx, hx'⟩ := List.mem_map.1 hname
    obtain ⟨e, -, hfile, harrives⟩ := hbrought.arrives x hx
    rw [lock, ← hx']
    exact Files.HasFile.linkAt ⟨e, harrives, hfile⟩
  · rw [lock, Files.linkAt_eq_of_get?_eq (hbrought.get?_eq hsupplied hb hname),
      h.makes.linkAt]
    exact hlink

/-- When building a version succeeds, what was found has been brought to the root. -/
theorem Works.delivered (h : Works tool site version host b dir opened fetched built last host')
    (hsupplied : site.Supplied b takes spot found opened.files gathered.files)
    (hbrought : site.Brought b spot found gathered.files built.files)
    (hwork : site.Workplace b dir built.files)
    (hfinished : site.Finished version b built host') :
    site.Delivered spot found host gathered host' := by
  obtain ⟨mode, hdir⟩ := hwork.directory
  have hlast : ∀ name, name ≠ b → name ≠ site.lockName →
      host'.files.get? (site.directory ++ [name]) = built.files.get? (site.directory ++ [name]) := by
    intro name hb hlock
    refine hfinished.get?_other _ (fun hbelow => hb ?_) fun heq => hlock (child_inj.1 heq)
    exact (child_inj.1 (hbelow.eq_of_length (by simp))).symm
  refine ⟨fun x hx => ?_, fun name hname hlock e he => ?_⟩
  · obtain ⟨e, hget, hfile, harrives⟩ := hbrought.arrives x hx
    refine ⟨e, hget, hfile, fun hlock => (hlast _ ?_ hlock).trans harrives⟩
    intro hb
    rw [hb, hdir] at harrives
    rw [← Option.some.inj harrives] at hfile
    contradiction
  · by_cases hb : name = b
    · rw [hb, h.free, hfinished.gone _ (List.prefix_refl _)]
    · rw [hlast name hb hlock, hbrought.get?_eq hsupplied hb hname]
      exact h.makes.get?_eq_some_iff he

end

end Site

end RamlBuild
