import RamlBuild.Proofs.Tool.Kinds

/-!
# The tools of a build

The generator, the merge tool and the vendored jars are three tools that work alike: files are
gathered in a build directory, and moved to the root under the names of the artifacts. When a tool is
cleaned, the files of the root go whose names it takes for its own.

What a tool brings to its root is told from this once for all: the artifacts are the files that were
gathered, the lock file is there, and of the other entries of the root only directories may have come.

## Main definitions

* `Kit` — a tool with the artifacts that are asked for
* `Kit.targets`, `Kit.takes` — the names of its artifacts, and the names that it takes for its own
* `Kit.gather` — the files in a build directory that are to be moved
* `Kit.Trusts` — what is expected of what comes from elsewhere
* `Kit.Brings` — what a tool has brought to its root

## Main results

* `Kit.build_ok` — what is moved is what was gathered
* `Kit.brings` — what building a version comes to
-/

namespace RamlBuild

open Build Location

/-- A tool with the artifacts that are asked for. -/
inductive Kit where
  /-- The generator of sources. -/
  | generator
  /-- The merge tool. -/
  | merger
  /-- Jars of the vendored libraries. -/
  | jars (names : List String)
  deriving DecidableEq, Repr

namespace Kit

variable {kit : Kit} {root dir : Path} {url asked version : String} {way : List Location}
  {directory : Location}

/-- The installer of a tool. -/
def installer (kit : Kit) (root : Path) (url asked : String) : Installer :=
  match kit with
  | generator => Generator.installer root url asked
  | merger => Merger.installer root url asked
  | jars names => VendoredJars.installer root url asked names

/-- The names of the artifacts. -/
def targets : Kit → List String
  | generator => [Generator.jarName]
  | merger => [Merger.toolName]
  | jars names => names

/-- The names that a tool takes for those of its artifacts. -/
def takes : Kit → String → Bool
  | generator => (· == Generator.jarName)
  | merger => fun name => Text.startsWith Merger.toolName name.toList && name != Merger.lockName
  | jars _ => VendoredJars.isJar

/-- The name of the lock file. -/
def lockName : Kit → String
  | generator => "raml4jaxrs.lock"
  | merger => Merger.lockName
  | jars _ => "fgputil.lock"

theorem isPlainName_lockName (kit : Kit) : IsPlainName kit.lockName := by
  cases kit with
  | generator => decide
  | merger => decide
  | jars names => exact (by decide : IsPlainName "fgputil.lock")

/-- The lock file is not taken for an artifact. -/
theorem takes_lockName (kit : Kit) : kit.takes kit.lockName = false := by
  cases kit with
  | generator => decide
  | merger => decide
  | jars names => exact (by decide : VendoredJars.isJar "fgputil.lock" = false)

/-- Where a tool is installed. -/
def site (kit : Kit) (root : Path) (way : List Location) (directory : Location) : Site where
  root := root
  way := way
  directory := directory
  lockName := kit.lockName
  artifacts := kit.targets.filter kit.takes
  lockName_plain := kit.isPlainName_lockName
  lockName_not_mem := by simp [takes_lockName]

/-- The files in a build directory that are to be moved, with their names in the root. -/
def gather (kit : Kit) (url version : String) (workDir : Path) : Build (List (Path × String)) :=
  match kit with
  | generator => Generator.find url version workDir
  | merger => Merger.find workDir
  | jars names => pure (VendoredJars.found workDir names)

theorem onlyRequests_of_onlyReads {host host' : Host} (h : OnlyReads host host') :
    OnlyRequests host host' := by
  rw [h]
  exact ⟨rfl, rfl, rfl, rfl, rfl, rfl, rfl, rfl⟩

section Installer

variable (kit root url asked)

theorem lockFile_installer : (kit.installer root url asked).lockFile = root / kit.lockName := by
  cases kit <;> rfl

/-- Artifacts are removed by their names. -/
theorem removeArtifacts_installer :
    (kit.installer root url asked).removeArtifacts = removeMatching root kit.takes := by
  cases kit <;> rfl

theorem isAt_installer (way : List Location) (directory : Location) :
    (kit.installer root url asked).IsAt (kit.site root way directory) := by
  refine ⟨by cases kit <;> rfl, lockFile_installer kit root url asked, ?_⟩
  cases kit with
  | generator => exact (by decide : '/' ∉ Generator.toolName.toList)
  | merger => exact (by decide : '/' ∉ Merger.toolName.toList)
  | jars names => exact (by decide : '/' ∉ VendoredJars.toolName.toList)

theorem leavesMachine_installer : (kit.installer root url asked).LeavesMachine := by
  cases kit with
  | generator => exact Generator.leavesMachine_installer
  | merger => exact Merger.leavesMachine_installer
  | jars names => exact VendoredJars.leavesMachine_installer

/-- Asking for a version leaves files alone. -/
theorem onlyRequests_resolveVersion :
    Always OnlyRequests (kit.installer root url asked).resolveVersion := by
  cases kit with
  | generator => exact Always.pure chains_onlyRequests _
  | merger => exact Merger.onlyRequests_resolveVersion
  | jars names => exact VendoredJars.onlyRequests_resolveVersion

/-- Finding out what is to be done leaves files alone. -/
theorem onlyRequests_requiredState :
    Always OnlyRequests (requiredState (kit.installer root url asked) version) := by
  have hpresent : Always OnlyRequests (kit.installer root url asked).artifactsPresent := by
    cases kit with
    | generator => exact Always.asking chains_onlyRequests _
    | merger => exact Always.asking chains_onlyRequests _
    | jars names => exact VendoredJars.onlyRequests_allPresent
  refine Always.bind chains_onlyRequests
    (fun _ _ _ h => onlyRequests_of_onlyReads (onlyReads_determine h)) fun state => ?_
  split
  · exact Always.bind chains_onlyRequests hpresent fun _ => Always.pure chains_onlyRequests _
  · exact Always.pure chains_onlyRequests _

end Installer

/-- What is moved is what was gathered. -/
theorem build_ok {host host' : Host}
    (h : exec ((kit.installer root url asked).buildAndInstall version dir) host = (.ok (), host')) :
    ∃ found gathered, exec (kit.gather url version dir) host = (.ok found, gathered) ∧
      exec (moveFound root found) gathered = (.ok (), host') := by
  cases kit with
  | generator => exact Generator.build_ok h
  | merger => exact Merger.build_ok h
  | jars names =>
    refine ⟨_, host, rfl, ?_⟩
    rw [← VendoredJars.moveAll_eq]
    exact h

/-! ### What comes from elsewhere -/

/-- What is expected of what comes from elsewhere: of the programs that check the generator out and
build it, and of the archive of the merge tool. -/
def Trusts (kit : Kit) (site : Site) (url : String) (machine : Host) : Prop :=
  match kit with
  | generator => ∀ version, Generator.Trusts site url version machine
  | merger => ∀ response, machine.Sends response → Archive.IsPlain response.body
  | jars _ => True

variable {host opened fetched gathered built host' machine : Host} {found : List (Path × String)}
  {b : String} {site : Site}

/-- What is expected for a root is expected for one that is reached by less. -/
theorem Trusts.along (h : kit.Trusts site url machine) (hway : way ⊆ site.way) :
    kit.Trusts (site.along way) url machine := by
  cases kit with
  | merger => exact h
  | jars names => exact h
  | generator =>
    intro version
    have hways : ∀ b v, ((site.along way).surface b).ways v → (site.surface b).ways v :=
      fun b v => Or.imp_left fun hv => hway hv
    refine ⟨fun b dir fs left hleft => ?_, fun b project fs left hleft => ?_⟩
    · obtain ⟨hkeeps, hrest⟩ := (h version).checksOut b dir fs left hleft
      exact ⟨hkeeps.mono (hways b) fun _ hl => hl, hrest⟩
    · obtain ⟨hkeeps, hrest⟩ := (h version).builds b project fs left hleft
      exact ⟨hkeeps.mono (fun v => Or.imp_left (hways b v)) fun _ hl => hl, hrest⟩

/-- What was gathered in a build directory can be moved from there. -/
theorem supplied (htrusts : kit.Trusts site url machine) (hmachine : SameMachine machine opened)
    (hwork : site.Workplace b dir opened.files)
    (hempty : ∀ name rest, opened.files.get? (site.directory ++ b :: name :: rest) = none)
    (hplain : ∀ name ∈ kit.targets, IsPlainName name) (hnodup : kit.targets.Nodup)
    (hdownload : exec ((kit.installer root url asked).download version dir) opened =
      (.ok (), fetched))
    (hgather : exec (kit.gather url version dir) fetched = (.ok found, gathered)) :
    ∃ spot, site.Supplied b kit.takes spot found opened.files gathered.files ∧
      found.map Prod.snd = kit.targets := by
  cases kit with
  | generator =>
    obtain ⟨checkedOut, host₁, hcheckout, hdownload⟩ := exec_bind_ok hdownload
    obtain ⟨-, rfl⟩ := Prod.mk.inj hdownload
    exact Generator.supplied (htrusts version) hmachine hwork (by decide) hcheckout hgather
  | merger =>
    have hplain : ∀ response, opened.Sends response → Archive.IsPlain response.body :=
      fun response hsends => htrusts response (hsends.of_sameMachine hmachine)
    exact Merger.supplied hwork hempty hplain (by decide) hdownload hgather
  | jars names =>
    obtain ⟨heq, rfl⟩ := Prod.mk.inj hgather
    obtain rfl := Except.ok.inj heq
    exact ⟨_, VendoredJars.supplied hwork hempty hplain hnodup hdownload, by
      simp [VendoredJars.found, targets, Function.comp_def]⟩

/-! ### What building a version comes to -/

/-- A version was brought to a root: the artifacts are the files that were gathered in a build
directory that was made for it, the lock file has the version, and beside them nothing but directories
came or went. -/
structure Brings (kit : Kit) (root : Path) (directory : Location) (url asked version : String)
    (host : Host) (found : List (Path × String)) (host' : Host) : Prop where
  moved : ∃ b dir fetched gathered, host.files.get? (directory ++ [b]) = none ∧
    exec (fetchVersion (kit.installer root url asked) version) host = (.ok dir, fetched) ∧
    exec (kit.gather url version dir) fetched = (.ok found, gathered) ∧
    ∀ x ∈ found, ∃ l e, Inside (directory ++ [b]) l ∧ gathered.files.FixedAt x.1 l ∧
      gathered.files.get? l = some e ∧ e.isFile = true ∧
      (x.2 ≠ kit.lockName → host'.files.get? (directory ++ [x.2]) = some e)
  names : found.map Prod.snd = kit.targets
  lock : ∃ mode, host'.files.get? (directory ++ [kit.lockName]) =
    some (.file (Text.trimmed version).toUTF8 mode none)
  others : ∀ name ∉ kit.targets, name ≠ kit.lockName → ∀ e, e.isDirectory = false →
    (host'.files.get? (directory ++ [name]) = some e ↔ host.files.get? (directory ++ [name]) = some e)

/-- The artifacts are files of the root, and so is the lock file. -/
theorem Brings.hasFile {name : String} (h : kit.Brings root directory url asked version host found host')
    (hname : name ∈ kit.lockName :: kit.targets) : host'.files.HasFile (directory ++ [name]) := by
  by_cases hlock : name = kit.lockName
  · obtain ⟨mode, hmode⟩ := h.lock
    exact ⟨_, hlock ▸ hmode, rfl⟩
  · obtain ⟨b, dir, fetched, gathered, -, -, -, hmoved⟩ := h.moved
    have hmem := (List.mem_cons.1 hname).resolve_left hlock
    obtain ⟨x, hx, rfl⟩ := List.mem_map.1 (h.names ▸ hmem)
    obtain ⟨l, e, -, -, -, hfile, harrives⟩ := hmoved x hx
    exact ⟨e, harrives hlock, hfile⟩

/-- When building a version succeeds, it was brought to its root, which is reached as before. -/
theorem brings (hplaced : (kit.site root way directory).Placed host.files)
    (htidy : host.files.Tidy) (hroot : root.text ≠ "")
    (honest : ∀ n, host.faults n ≠ some .notFound)
    (htrusts : kit.Trusts (kit.site root way directory) url machine)
    (hmachine : SameMachine machine host) (hplain : ∀ name ∈ kit.targets, IsPlainName name)
    (hnodup : kit.targets.Nodup)
    (hway : ∀ name ∈ kit.targets, directory ++ [name] ∈ way →
      host.files.linkAt (directory ++ [name]) = none)
    (hfree : ∀ name ∈ kit.targets, kit.takes name = true →
      ¬host.files.HasFile (directory ++ [name]))
    (h : exec (buildVersion (kit.installer root url asked) version) host = (.ok (), host')) :
    ∃ way' found, way' ⊆ way ∧ kit.Brings root directory url asked version host found host' ∧
      (kit.site root way' directory).Sound host' ∧
      (kit.site root way' directory).Reached host'.files ∧ host'.files.Tidy := by
  have hleaves : (kit.installer root url asked).LeavesMachine := leavesMachine_installer kit root url asked
  obtain ⟨way', n, dir, opened, fetched, built, last, hsub, hworks⟩ :=
    hplaced.exists_works (isAt_installer kit root url asked way directory) htidy hroot h
  obtain ⟨found, gathered, hgather, hmove⟩ := build_ok hworks.builds
  obtain ⟨spot, hsupplied, hnames⟩ := supplied (htrusts.along hsub)
    (chains_sameMachine.trans hmachine hworks.machine) hworks.workplace hworks.empty hplain hnodup
    hworks.downloads hgather
  have hmem : ∀ x ∈ found, x.2 ∈ kit.targets := fun x hx => hnames ▸ List.mem_map_of_mem hx
  obtain ⟨hbrought, hwork⟩ := hworks.brought hsupplied (fun x hx => hplain _ (hmem x hx))
    (hnames ▸ hnodup) (fun x hx hv => hway _ (hmem x hx) (hsub hv))
    (fun x hx => hfree _ (hmem x hx)) hmove
  have hfaults : built.faults = host.faults :=
    (hleaves.buildAndInstall _ _ hworks.builds).faults.trans
      ((hleaves.download _ _ hworks.downloads).faults.trans hworks.machine.faults)
  have hfinished := hworks.finished hwork (fun m => by rw [hfaults]; exact honest m)
    (hworks.linkAt_lock hsupplied hbrought hwork hplaced.notLink)
  have hdelivered := hworks.delivered hsupplied hbrought hwork hfinished
  refine ⟨way', found, hsub, ⟨⟨_, dir, fetched, gathered, hworks.free, hworks.fetches, hgather, ?_⟩,
    hnames, hfinished.lock, fun name hname => ?_⟩, hfinished.sound, hfinished.reached, hfinished.tidy⟩
  · intro x hx
    obtain ⟨e, hget, hfile, harrives⟩ := hdelivered.arrives x hx
    exact ⟨spot x, e, hsupplied.inside x hx, hsupplied.fixed x hx, hget, hfile, harrives⟩
  · exact hdelivered.others name (hnames ▸ hname)

/-! ### What is cleaned -/

/-- What goes when a tool is cleaned: the lock file, and the files of the root with names that the tool
takes for its own. -/
def Gone (kit : Kit) (directory : Location) (fs : Files) (l : Location) : Prop :=
  ∃ name, (kit.takes name = true ∨ name = kit.lockName) ∧ l = directory ++ [name] ∧ fs.HasFile l

theorem Gone.hasFile {fs : Files} {l : Location} (h : kit.Gone directory fs l) : fs.HasFile l := by
  obtain ⟨-, -, -, hfile⟩ := h
  exact hfile

theorem clean_ok (hsound : (kit.site root way directory).Sound host)
    (hreached : (kit.site root way directory).Reached host.files) (htidy : host.files.Tidy)
    (hroot : root.text ≠ "")
    (h : exec (clean (kit.installer root url asked)) host = (.ok (), host')) :
    (kit.site root way directory).Sound host' ∧
      Files.Loses (kit.Gone directory host.files) host.files host'.files := by
  obtain ⟨hsound', -, -, hloses⟩ := hsound.clean_ok hreached htidy hroot
    (lockFile_installer kit root url asked) kit.takes_lockName
    (removeArtifacts_installer kit root url asked) h
  exact ⟨hsound', hloses⟩

/-- What is there when a version is to be built: what was there before, and if the tool is updated then
it was cleaned. -/
structure Readied (kit : Kit) (root : Path) (way : List Location) (directory : Location)
    (version : String) (host cleared : Host) (outcome : InstallOutcome) : Prop where
  sound : (kit.site root way directory).Sound cleared
  machine : SameMachine host cleared
  loses : Files.Loses
    (fun l => (∃ previous, outcome = .updated previous version) ∧ kit.Gone directory host.files l)
    host.files cleared.files

theorem sound_of_onlyRequests (hsound : site.Sound host) (h : OnlyRequests host host') :
    site.Sound host' :=
  hsound.of_stays (Site.stays_of_get?_eq (fun l => by rw [h.files]) (by rw [h.files]))
    h.machine.faults (by rw [h.files])

/-- Everything up to the build readies the root for it. -/
theorem readied {outcome : InstallOutcome} {cleared : Host}
    (hsound : (kit.site root way directory).Sound host) (htidy : host.files.Tidy)
    (hroot : root.text ≠ "")
    (h : (kit.installer root url asked).Clears version host cleared outcome) :
    kit.Readied root way directory version host cleared outcome := by
  have hresolved : ∀ {resolved}, (kit.installer root url asked).Resolves version host resolved →
      OnlyRequests host resolved := fun hresolves =>
    onlyRequests_resolveVersion kit root url asked (exec_within_ok hresolves.told)
  cases h with
  | new resolved resolves state =>
    have hasks := chains_onlyRequests.trans (hresolved resolves)
      (onlyRequests_requiredState kit root url asked state)
    refine ⟨sound_of_onlyRequests hsound hasks, hasks.machine, ?_⟩
    rw [hasks.files]
    exact (Files.loses_nothing _).congr (by simp)
  | update resolved required read previous resolves state reads cleans =>
    have hrequired := onlyRequests_requiredState kit root url asked state
    have hasks : OnlyRequests host read := by
      rw [Site.exec_read_files reads]
      exact chains_onlyRequests.trans (chains_onlyRequests.trans (hresolved resolves) hrequired)
        (onlyRequests_of_onlyReads (onlyReads_counted required))
    have hsound' := sound_of_onlyRequests hsound hasks
    -- A lock file was read, so the root is there.
    obtain ⟨text, hwritten⟩ := Site.written_of_requiredState
      (isAt_installer kit root url asked way directory)
      (sound_of_onlyRequests hsound (hresolved resolves)).placed (by simp) state
    have hreached := hwritten.reached
    rw [(hresolved resolves).files, ← hasks.files] at hreached
    obtain ⟨hsound'', hloses⟩ := clean_ok hsound' hreached (hasks.files ▸ htidy) hroot cleans
    refine ⟨hsound'', chains_sameMachine.trans hasks.machine
      (sameMachine_clean (leavesMachine_installer kit root url asked) cleans), ?_⟩
    rw [hasks.files] at hloses
    exact hloses.congr (by simp)

namespace Readied

variable {outcome : InstallOutcome} {cleared : Host} {name : String}

/-- On the way to the root no link went. -/
theorem linkAt (h : kit.Readied root way directory version host cleared outcome) (l : Location) :
    cleared.files.linkAt l = host.files.linkAt l :=
  Files.linkAt_eq_of_passage_eq ((h.loses.samePassages fun _ hl => hl.2.hasFile.passage).passage l)

/-- What the tool does not take for its own stays. -/
theorem get?_eq (h : kit.Readied root way directory version host cleared outcome)
    (hname : ¬kit.Gone directory host.files (directory ++ [name])) :
    cleared.files.get? (directory ++ [name]) = host.files.get? (directory ++ [name]) :=
  h.loses.get?_other _ fun hgone => hname hgone.2

/-- After an update none of the files are left that the tool takes for its own. -/
theorem not_hasFile (h : kit.Readied root way directory version host cleared outcome)
    {previous : Option String} (houtcome : outcome = .updated previous version)
    (htakes : kit.takes name = true) : ¬cleared.files.HasFile (directory ++ [name]) := by
  intro hfile
  obtain ⟨hgone, hfile⟩ := h.loses.hasFile hfile
  exact hgone ⟨⟨previous, houtcome⟩, name, .inl htakes, rfl, hfile⟩

end Readied

end Kit

end RamlBuild
