import RamlBuild.Proofs.Program.Projects
import RamlBuild.Proofs.Tool.Workplace
import RamlBuild.Proofs.Web.Requests
import RamlBuild.Tool.Generator
import RamlBuild.Tool.Merger
import RamlBuild.Tool.VendoredJars

/-!
# What the tools bring

What a tool has built is moved to the root from its build directory, so it has to be inside of it.

Each jar of a release is downloaded into the build directory under its name, and moved to the root
from there.

The archive of the merge tool is downloaded into the build directory and unpacked there, and the
program among its files is moved to the root. When the archive holds no links, the path that is told
of the program leads to its file inside the build directory.

The generator is checked out into the build directory and built there by programs of the host. When
these work on the checkout and leave what is beside the build directory alone, the artifact that is
found is a file inside of the build directory.

## Main definitions

* `VendoredJars.found` — the jars in a build directory with the names they are moved under
* `Archive.IsPlain` — an archive whose files are where their names say
* `Merger.find` — the program in a build directory
* `Generator.Trusts` — what is expected of the programs
* `Generator.find` — the artifact in a build directory

## Main results

* `VendoredJars.moveAll_eq` — what is moved are the jars that were asked for
* `VendoredJars.supplied` — they are in the build directory once they were downloaded
* `Merger.build_ok` — what is moved is the program that was found
* `Merger.supplied` — it is in the build directory
* `Generator.build_ok` — what is moved is the artifact that was found
* `Generator.supplied` — it is in the build directory
-/

/-! ## Vendored jars -/

namespace RamlBuild

open Build Location

namespace VendoredJars

variable {host host' : Host} {url tag version : String} {dir root : Path} {d : Location}
  {jars : List String} {site : Site} {b : String}

/-- The jars in a directory, with the names that they are moved under. -/
def found (dir : Path) (jars : List String) : List (Path × String) :=
  jars.map fun (jar : String) => (dir / jar, jar)

theorem moveAll_eq (dir root : Path) (jars : List String) :
    moveAll dir root jars = moveFound root (found dir jars) := by
  induction jars with
  | nil => rfl
  | cons jar rest ih =>
    rw [moveAll, ih]
    rfl

/-- Jars that are downloaded into a directory where no others are of their names. -/
structure Downloaded (d : Location) (jars : List String) (fs fs' : Files) : Prop where
  tidy : fs'.Tidy
  changesInside : Files.ChangesInside d fs fs'
  fewerPassages : Files.FewerPassages fs fs'
  file : ∀ jar ∈ jars, ∃ contents mode, fs'.get? (d ++ [jar]) = some (.file contents mode none)
  get?_other : ∀ l, (∀ jar ∈ jars, l ≠ d ++ [jar]) → fs'.get? l = fs.get? l

theorem downloadAll_ok (hheads : host.files.HeadsFor dir d) (htidy : host.files.Tidy)
    (hplain : ∀ jar ∈ jars, IsPlainName jar) (hnodup : jars.Nodup)
    (hfree : ∀ jar ∈ jars, host.files.get? (d ++ [jar]) = none)
    (h : exec (downloadAll url tag dir jars) host = (.ok (), host')) :
    Downloaded d jars host.files host'.files := by
  induction jars generalizing host with
  | nil =>
    obtain ⟨-, rfl⟩ := Prod.mk.inj h
    exact ⟨htidy, Files.ChangesInside.refl _ _, Files.FewerPassages.refl _, by simp, fun _ _ => rfl⟩
  | cons jar rest ih =>
    obtain ⟨⟨⟩, host₁, hdownload, h⟩ := exec_bind_ok h
    obtain ⟨response, asked, hasked, -, hwrite⟩ := download_ok hdownload
    have hfirst := hfree jar List.mem_cons_self
    have htidy₁ : host₁.files.Tidy := tidy_writeBytes hwrite (hasked.files ▸ htidy)
    rw [← hasked.files] at hheads htidy hfirst
    obtain ⟨mode, hputs⟩ := Archive.writeBytes_ok hheads (hplain jar List.mem_cons_self) htidy.isTree
      (by rw [Files.linkAt, hfirst]) (by rw [hfirst]; rfl) hwrite
    have hne : ∀ jar' ∈ rest, d ++ [jar'] ≠ d ++ [jar] := by
      intro jar' hjar' heq
      exact (List.nodup_cons.1 hnodup).1 (child_inj.1 heq ▸ hjar')
    have hrest := ih (hheads.of_fewerPassages (hputs.fewerPassages rfl)) htidy₁
      (fun jar' hjar' => hplain jar' (List.mem_cons_of_mem _ hjar')) (List.nodup_cons.1 hnodup).2
      (fun jar' hjar' => by
        rw [hputs.get?_other _ (hne jar' hjar'), hasked.files]
        exact hfree jar' (List.mem_cons_of_mem _ hjar')) h
    rw [hasked.files] at hputs
    refine ⟨hrest.tidy, (hputs.changesInside (List.prefix_refl _)).trans hrest.changesInside,
      (hputs.fewerPassages rfl).trans hrest.fewerPassages, ?_, ?_⟩
    · intro jar' hjar'
      rcases List.mem_cons.1 hjar' with rfl | hjar'
      · refine ⟨response.body, mode, ?_⟩
        rw [hrest.get?_other _ fun other hother => (hne other hother).symm, hputs.get?_self]
      · exact hrest.file jar' hjar'
    · intro l hl
      rw [hrest.get?_other l fun jar' hjar' => hl jar' (List.mem_cons_of_mem _ hjar'),
        hputs.get?_other l (hl jar List.mem_cons_self)]

/-- Once they were downloaded into a build directory, the jars can be moved from there. -/
theorem supplied {takes : String → Bool} (hwork : site.Workplace b dir host.files)
    (hempty : ∀ name rest, host.files.get? (site.directory ++ b :: name :: rest) = none)
    (hplain : ∀ jar ∈ jars, IsPlainName jar) (hnodup : jars.Nodup)
    (h : exec (downloadAll url tag dir jars) host = (.ok (), host')) :
    site.Supplied b takes (fun x => site.directory ++ [b] ++ [x.2]) (found dir jars) host.files
      host'.files := by
  have hdownloaded := downloadAll_ok hwork.headsFor hwork.tidy hplain hnodup
    (fun jar _ => by
      rw [List.append_assoc]
      exact hempty jar []) h
  have hmem : ∀ x ∈ found dir jars, x.2 ∈ jars ∧ x.1 = dir / x.2 := by
    intro x hx
    obtain ⟨jar, hjar, rfl⟩ := List.mem_map.1 hx
    exact ⟨hjar, rfl⟩
  refine ⟨hwork.keeps_of_changesInside hdownloaded.changesInside, hdownloaded.tidy,
    fun x _ => inside_append (List.prefix_refl _) (by simp), ?_, ?_⟩
  · intro x hx
    rw [(hmem x hx).2]
    exact (hwork.headsFor.of_fewerPassages hdownloaded.fewerPassages).fixedAt
      (hplain _ (hmem x hx).1)
  · intro x hx e he
    obtain ⟨contents, mode, hfile⟩ := hdownloaded.file _ (hmem x hx).1
    obtain rfl := Option.some.inj (hfile.symm.trans he)
    exact ⟨rfl, .inl rfl⟩

/-! ### The machine -/

theorem onlyRequests_resolveVersion : Always OnlyRequests (resolveVersion url version) := by
  rw [resolveVersion]
  split
  · exact onlyRequests_fetchLatestTag
  · exact Always.pure chains_onlyRequests _

theorem onlyRequests_allPresent : Always OnlyRequests (allPresent dir jars) := by
  induction jars with
  | nil => exact Always.pure chains_onlyRequests _
  | cons jar rest ih =>
    refine Always.bind chains_onlyRequests (Always.asking chains_onlyRequests _) fun there => ?_
    split
    · exact ih
    · exact Always.pure chains_onlyRequests _

theorem sameMachine_downloadAll : Always SameMachine (downloadAll url tag dir jars) := by
  induction jars with
  | nil => exact Always.pure chains_sameMachine _
  | cons jar rest ih => exact Always.bind chains_sameMachine sameMachine_download fun _ => ih

/-- The steps of the installer leave the machine alone. -/
theorem leavesMachine_installer : (installer root url version jars).LeavesMachine where
  resolveVersion := fun _ _ _ h => (onlyRequests_resolveVersion h).machine
  artifactsPresent := fun _ _ _ h => (onlyRequests_allPresent h).machine
  removeArtifacts := sameMachine_removeMatching
  download _ _ := sameMachine_downloadAll
  buildAndInstall _ dir := by
    change Always SameMachine (moveAll dir root jars)
    rw [moveAll_eq]
    exact sameMachine_moveFound

end VendoredJars

end RamlBuild

/-! ## The merge tool -/

namespace RamlBuild

open Build Location

/-- An archive holds no links, and the names of its files are relative and end in a name. -/
def Archive.IsPlain (bytes : ByteArray) : Prop :=
  ∀ stream entries, Archive.Stream.ofCompressed? bytes = some stream →
    Archive.Lists stream 0 entries → ∀ x ∈ entries, x.1.isLink = false ∧
      (x.1.kind = .file → x.2.isAbsolute = false ∧ Archive.EndsInName x.2)

namespace Archive

open Files

variable {host host' : Host} {entries : List (Member × Path)} {bytes : ByteArray} {stream : Stream}
  {dest : Path} {root : Location} {x : Member × Path} {fs : Files}

/-- A file of an archive without links is where its name says. -/
theorem IsPlain.fixedAt (hplain : IsPlain bytes) (hstream : Stream.ofCompressed? bytes = some stream)
    (hlists : Lists stream 0 entries) (hunpacks : Unpacks dest host entries host')
    (hanchored : Anchored host.files dest root)
    (hempty : ∀ names, names ≠ [] → host.files.get? (root ++ names) = none)
    (hx : x ∈ entries) (hkind : x.1.kind = .file) :
    namesIn x.2 ≠ [] ∧ Files.HasFile host'.files (root ++ namesIn x.2) ∧
      host'.files.FixedAt (dest / x.2) (root ++ namesIn x.2) := by
  obtain ⟨habsolute, hend⟩ := (hplain stream entries hstream hlists x hx).2 hkind
  obtain ⟨hchanges, hparent⟩ := changesInside_of_unpacks hunpacks fun _ => hanchored
  obtain ⟨names, hnames⟩ := Option.ne_none_iff_exists'.1
    (mt targetNames?_eq_none_iff.1 (hparent x hx).1)
  have hin : namesIn x.2 = names := by rw [namesIn, hnames]; rfl
  obtain ⟨init, n, -, -, hslash, hsplit⟩ := hend.exists_steps hnames
  have hne : namesIn x.2 ≠ [] := by simp [hin, hsplit]
  have hlinks : ∀ y ∈ entries, y.1.isLink = false := fun y hy =>
    (hplain stream entries hstream hlists y hy).1
  have hunlinked : Unlinked root host.files entries := by
    refine ⟨fun y _ init _ hinit => ?_, fun y hy z hz hlink => ?_⟩
    · rw [Files.linkAt, hempty init hinit]
    · rw [hlinks z hz] at hlink
      cases hlink
  obtain ⟨text, htext, hpath⟩ := hlists.name_of_mem x hx
  obtain ⟨m, hm⟩ := exists_lastStored hx (isStored_of_file hkind htext (hpath ▸ hslash))
  obtain ⟨-, hcontents⟩ := contentsAt_of_unpacks hunpacks (List.Subset.refl _) (fun _ => hanchored)
    hunlinked hne fun y hy hlink => by
      rw [hlinks y hy] at hlink
      cases hlink
  rw [hm] at hcontents
  obtain ⟨mode, shared, hget⟩ := Files.contentsAt_eq_some_iff.1 hcontents
  have hanchored' := hanchored.changesInside hchanges
  refine ⟨hne, ⟨_, hget, rfl⟩, ?_⟩
  rw [hin] at hget ⊢
  exact fixedAt_join ((hparent x hx).2 hne) hanchored'.leadsTo.headsFor habsolute hend hnames
    (hanchored'.isTree.clearTo hget (Files.linkAt_of_file hget))

/-- A directory that is made in one that is there is empty, and what it is reached by stays when it is
filled. -/
theorem anchored_child {p : Path} {d : Location} {name : String} (hpaved : Paved host.files p d)
    (htidy : host.files.Tidy) (hname : IsPlainName name)
    (hfree : host.files.get? (d ++ [name]) = none)
    (h : exec (createDirectories (p / name)) host = (.ok (), host')) :
    Anchored host'.files (p / name) (d ++ [name]) ∧ ChangesInside d host.files host'.files ∧
      host'.files.Tidy ∧ (∀ names, names ≠ [] → host'.files.get? (d ++ [name] ++ names) = none) ∧
      ∀ l, l ≠ d ++ [name] → host'.files.get? l = host.files.get? l := by
  have hmakes := (createDirectories_makes h).1
  have hother := createDirectories_child hpaved hname h
  have htidy' := tidy_createDirectories h htidy
  obtain ⟨l, mode, hreach, hdir⟩ := createDirectories_reach (Path.text_child_ne_empty hname) h
  obtain rfl : l = d ++ [name] := by
    refine (hpaved.of_makesDirectories hmakes).headsFor.reach_child htidy'.isTree hname ?_ hreach
    rw [hmakes.linkAt, Files.linkAt, hfree]
  have hempty : ∀ names, names ≠ [] → host'.files.get? (d ++ [name] ++ names) = none := by
    intro names hne
    rw [hother _ (by simpa using hne)]
    exact htidy.isTree.get?_eq_none_of_prefix hfree
      (List.isPrefixOf_iff_prefix.2 (List.prefix_append _ _))
  refine ⟨⟨?_, ⟨mode, hdir⟩, htidy'.namesPlainly.of_isSome htidy'.isTree (by rw [hdir]; rfl),
    htidy'.isTree⟩, hmakes.changesInside fun l hl => hother l ?_, htidy', hempty, hother⟩
  · refine (leadsTo_of_reach_directory hreach hdir).mono fun v hv => ?_
    obtain ⟨e, he⟩ := Option.isSome_iff_exists.1 hv
    refine .inr ⟨by rw [(passage_eq_some_iff.1 he).1]; rfl, ?_⟩
    rintro ⟨⟨names, rfl⟩, hne⟩
    have hget := (passage_eq_some_iff.1 he).1
    rw [hempty names (by simpa using hne)] at hget
    cases hget
  · rintro rfl
    exact hl (inside_append (List.prefix_refl _) (by simp))

/-- The steps of unpacking an archive. -/
theorem unpack_steps {archive : Path} {files : List Path}
    (h : exec (unpack archive dest) host = (.ok files, host')) :
    ∃ host₁ bytes stream entries, exec (createDirectories dest) host = (.ok (), host₁) ∧
      host₁.files.readFile archive = .ok bytes ∧ Stream.ofCompressed? bytes = some stream ∧
      Lists stream 0 entries ∧ Unpacks dest (counted host₁) entries host' ∧
      files = filesIn dest entries := by
  rw [unpack, Build.holds, exec_asking_bind] at h
  split at h
  · exact absurd (Prod.mk.inj h).1 (by simp)
  · obtain ⟨⟨⟩, host₁, hcreate, h⟩ := exec_bind_ok h
    obtain ⟨bytes, host₂, hread, h⟩ := exec_bind_ok h
    obtain ⟨rfl, hbytes⟩ := reading_result (exec_within_ok hread)
    cases hstream : Stream.ofCompressed? bytes with
    | none =>
      rw [hstream, exec_within] at h
      exact absurd (Prod.mk.inj h).1 (by simp [Except.mapError])
    | some stream =>
      rw [hstream] at h
      obtain ⟨entries, hlists, hunpacks, rfl⟩ := unpackFrom_ok (by simp) h
      exact ⟨host₁, bytes, stream, entries, hcreate, hbytes bytes rfl, hstream, hlists, hunpacks,
        rfl⟩

end Archive

namespace Merger

variable {host host' opened fetched gathered : Host} {url version : String} {dir binDir root : Path}
  {found : List (Path × String)} {site : Site} {b : String}

/-- Unpacks the archive and finds the program in it. -/
def find (workDir : Path) : Build (List (Path × String)) := do
  let files ← unpack (workDir / downloadName) (workDir / "unpacked")
  match files.find? (·.fileName? == some toolName) with
  | none => fail (.install (.missingArtifact toolName toolName))
  | some file => pure [(file, toolName)]

/-- What is moved is the program that was found. -/
theorem build_ok (h : exec (build binDir dir) host = (.ok (), host')) :
    ∃ found gathered, exec (find dir) host = (.ok found, gathered) ∧
      exec (moveFound binDir found) gathered = (.ok (), host') := by
  obtain ⟨files, gathered, hunpack, h⟩ := exec_bind_ok h
  cases hfile : files.find? (·.fileName? == some toolName) with
  | none =>
    rw [hfile] at h
    exact absurd (Prod.mk.inj h).1 (by simp)
  | some file =>
    rw [hfile] at h
    refine ⟨[(file, toolName)], gathered, ?_, ?_⟩
    · rw [find, exec_bind_of_ok hunpack, hfile]
      rfl
    · exact (exec_bind_of_ok (exec_within_ok h)).trans rfl

/-- The archive is downloaded into the build directory. -/
theorem downloadArchive_ok (hwork : site.Workplace b dir opened.files)
    (hempty : ∀ name rest, opened.files.get? (site.directory ++ b :: name :: rest) = none)
    (h : exec (downloadArchive url version dir) opened = (.ok (), fetched)) :
    fetched.files.Tidy ∧ ∃ response mode, opened.Sends response ∧
      Files.Puts opened.files fetched.files (site.directory ++ [b]) downloadName
        (.file response.body mode none) := by
  obtain ⟨platform, host₁, hplatform, h⟩ := exec_bind_ok h
  obtain ⟨release, host₂, hrelease, h⟩ := exec_bind_ok h
  have hasked := chains_onlyRequests.trans (onlyRequests_currentPlatform hplatform)
    (onlyRequests_fetchRelease hrelease)
  cases hasset : release.assetFor platform with
  | error error =>
    rw [hasset] at h
    exact absurd (Prod.mk.inj h).1 (by simp)
  | ok asset =>
    rw [hasset] at h
    obtain ⟨response, asked, hasked', hsends, hwrite⟩ := download_ok h
    have hfiles : asked.files = opened.files := hasked'.files.trans hasked.files
    have hfree : opened.files.get? (site.directory ++ [b] ++ [downloadName]) = none := by
      rw [List.append_assoc]
      exact hempty downloadName []
    rw [← hfiles] at hfree
    have hheads : asked.files.HeadsFor dir (site.directory ++ [b]) := hfiles ▸ hwork.headsFor
    have htidy : asked.files.Tidy := hfiles ▸ hwork.tidy
    obtain ⟨mode, hputs⟩ := Archive.writeBytes_ok hheads (by decide) htidy.isTree
      (by rw [Files.linkAt, hfree]) (by rw [hfree]; rfl) hwrite
    exact ⟨tidy_writeBytes hwrite htidy, response, mode, hsends.of_sameMachine hasked.machine,
      hfiles ▸ hputs⟩

/-- The program that is found is a file of the archive, in a directory of its own. -/
theorem find_ok {contents : ByteArray} {mode : Nat} {shared : Option Nat}
    (hwork : site.Workplace b dir fetched.files)
    (harchive : fetched.files.get? (site.directory ++ [b] ++ [downloadName]) =
      some (.file contents mode shared))
    (hfree : fetched.files.get? (site.directory ++ [b] ++ ["unpacked"]) = none)
    (hplain : Archive.IsPlain contents)
    (h : exec (find dir) fetched = (.ok found, gathered)) :
    ∃ file l, found = [(file, toolName)] ∧ Inside (site.directory ++ [b]) l ∧
      gathered.files.HasFile l ∧ gathered.files.FixedAt file l ∧ gathered.files.Tidy ∧
      Files.ChangesInside (site.directory ++ [b]) fetched.files gathered.files := by
  obtain ⟨files, host', hunpack, h⟩ := exec_bind_ok h
  cases hfile : files.find? (·.fileName? == some toolName) with
  | none =>
    rw [hfile] at h
    exact absurd (Prod.mk.inj h).1 (by simp)
  | some file =>
    rw [hfile] at h
    obtain ⟨heq, rfl⟩ := Prod.mk.inj h
    obtain ⟨host₁, bytes, stream, entries, hcreate, hread, hstream, hlists, hunpacks, rfl⟩ :=
      Archive.unpack_steps hunpack
    obtain ⟨hanchored, hchanges, htidy₁, hempty, hother⟩ :=
      Archive.anchored_child hwork.paved hwork.tidy (by decide) hfree hcreate
    -- What is unpacked is the archive that was downloaded.
    have hwork₁ : site.Workplace b dir host₁.files :=
      hwork.of_keeps (hwork.keeps_of_changesInside hchanges) htidy₁
    have harchive₁ := (hother _ fun heq =>
      absurd (List.append_cancel_left heq) (by decide)).trans harchive
    obtain rfl := hwork₁.headsFor.readFile_eq htidy₁.isTree (by decide) harchive₁ hread
    obtain ⟨x, hx, rfl⟩ := List.mem_map.1 (List.mem_of_find?_eq_some hfile)
    obtain ⟨hx, hkind⟩ := List.mem_filter.1 hx
    obtain ⟨hne, hisFile, hfixed⟩ := hplain.fixedAt hstream hlists hunpacks hanchored hempty hx
      (by simpa using hkind)
    refine ⟨_, _, (Except.ok.inj heq).symm, ?_, hisFile, hfixed, tidy_unpack hunpack hwork.tidy, ?_⟩
    · rw [List.append_assoc]
      exact inside_append (List.prefix_refl _) (by simp)
    · exact hchanges.trans
        ((Archive.changesInside_of_unpacks hunpacks fun _ => hanchored).1.mono (List.prefix_append _ _))

/-- Once the archive was downloaded into a build directory, the program that is found in it can be
moved from there. -/
theorem supplied {takes : String → Bool} (hwork : site.Workplace b dir opened.files)
    (hempty : ∀ name rest, opened.files.get? (site.directory ++ b :: name :: rest) = none)
    (hplain : ∀ response, opened.Sends response → Archive.IsPlain response.body)
    (htakes : takes toolName = true)
    (hdownload : exec (downloadArchive url version dir) opened = (.ok (), fetched))
    (hfind : exec (find dir) fetched = (.ok found, gathered)) :
    ∃ spot, site.Supplied b takes spot found opened.files gathered.files ∧
      found.map Prod.snd = [toolName] := by
  obtain ⟨htidy, response, mode, hsends, hputs⟩ := downloadArchive_ok hwork hempty hdownload
  have hchanges := hputs.changesInside (List.prefix_refl _)
  have hwork' : site.Workplace b dir fetched.files :=
    hwork.of_keeps (hwork.keeps_of_changesInside hchanges) htidy
  have hfree : fetched.files.get? (site.directory ++ [b] ++ ["unpacked"]) = none := by
    rw [hputs.get?_other _ fun heq => absurd (List.append_cancel_left heq) (by decide),
      List.append_assoc]
    exact hempty "unpacked" []
  obtain ⟨file, l, rfl, hinside, hisFile, hfixed, htidy', hchanges'⟩ :=
    find_ok hwork' hputs.get?_self hfree (hplain response hsends) hfind
  refine ⟨fun _ => l, ⟨hwork.keeps_of_changesInside (hchanges.trans hchanges'), htidy',
    fun _ _ => hinside, fun x hx => ?_, fun x hx e he => ?_⟩, rfl⟩
  · rw [List.mem_singleton.1 hx]
    exact hfixed
  · obtain ⟨e', he', hfile⟩ := hisFile
    obtain rfl := Option.some.inj (he.symm.trans he')
    rw [List.mem_singleton.1 hx]
    exact ⟨hfile, .inr htakes⟩

/-! ### The machine -/

theorem onlyRequests_resolveVersion : Always OnlyRequests (resolveVersion url version) := by
  rw [resolveVersion]
  split
  · exact Always.bind chains_onlyRequests onlyRequests_fetchRelease fun _ =>
      Always.pure chains_onlyRequests _
  · exact Always.pure chains_onlyRequests _

theorem sameMachine_downloadArchive : Always SameMachine (downloadArchive url version dir) := by
  refine Always.bind chains_sameMachine
    (fun _ _ _ h => (onlyRequests_currentPlatform h).machine) fun platform => ?_
  refine Always.bind chains_sameMachine
    (fun _ _ _ h => (onlyRequests_fetchRelease h).machine) fun release => ?_
  split
  · exact sameMachine_download
  · exact Always.throw chains_sameMachine _

/-- The steps of the installer leave the machine alone. -/
theorem leavesMachine_installer : (installer root url version).LeavesMachine where
  resolveVersion := fun _ _ _ h => (onlyRequests_resolveVersion h).machine
  artifactsPresent := Always.asking chains_sameMachine _
  removeArtifacts := sameMachine_removeMatching
  download _ _ := sameMachine_downloadArchive
  buildAndInstall _ dir := by
    refine Always.bind chains_sameMachine sameMachine_unpack fun files => ?_
    split
    · exact Always.throw chains_sameMachine _
    · exact Always.within sameMachine_moveArtifact

end Merger

end RamlBuild

/-! ## The generator -/

namespace RamlBuild

open Build Location

namespace Generator

variable {host host' opened fetched gathered machine : Host} {url version : String}
  {dir binDir root : Path} {found : List (Path × String)} {site : Site} {b : String}

/-- The names that lead to the module that is built. -/
def moduleNames : List String := ["raml-to-jaxrs", "raml-to-jaxrs-cli"]

/-- The command that builds a project. -/
def projectCommand (project : Path) : Command :=
  { Command.of "mvn" ["clean", "install", "--quiet"] with directory := some project }

/-- Where the repository is checked out to in a build directory. -/
def checkoutAt (site : Site) (b url : String) : Location :=
  site.directory ++ [b] ++ [checkoutName url]

/-- The way to a root, with a build directory and the checkout in it, and what else is directly in the
root. -/
def ground (site : Site) (b url : String) : Frame :=
  ⟨fun v => (site.surface b).ways v ∨ v = checkoutAt site b url, (site.surface b).kept⟩

/-- What is expected of the programs that check the repository out and build it. Where they run in a
build directory, and succeed, they leave what is beside it alone. A checkout is a new directory, with
the module in it behind no links; and building the module leaves it there. -/
structure Trusts (site : Site) (url version : String) (machine : Host) : Prop where
  checksOut : ∀ b dir fs left,
    (checkoutCommand url dir (.shallow version)).RunsIn machine (site.directory ++ [b]) fs left →
    (site.surface b).Keeps fs left ∧ left.Tidy ∧
      (∃ mode, left.get? (checkoutAt site b url) = some (.directory mode)) ∧
      left.ClearTo (checkoutAt site b url) moduleNames
  builds : ∀ b project fs left,
    (projectCommand project).RunsIn machine (checkoutAt site b url ++ moduleNames) fs left →
    (ground site b url).Keeps fs left ∧ left.Tidy

/-- Pins and builds the checkout, and finds the artifact in it. -/
def find (url version : String) (workDir : Path) : Build (List (Path × String)) := do
  let repository := workDir / checkoutName url
  let _ ← pinProject repository version
  buildProject (repository / cliModule)
  match ← findArtifacts repository outputDirectory artifactEnding with
  | [] => fail (.install (.missingArtifact toolName artifactEnding))
  | artifact :: _ => pure [(artifact, jarName)]

/-- What is moved is the artifact that was found. -/
theorem build_ok (h : exec (build binDir url version dir) host = (.ok (), host')) :
    ∃ found gathered, exec (find url version dir) host = (.ok found, gathered) ∧
      exec (moveFound binDir found) gathered = (.ok (), host') := by
  obtain ⟨changed, host₁, hpin, h⟩ := exec_bind_ok h
  obtain ⟨⟨⟩, host₂, hbuild, h⟩ := exec_bind_ok h
  obtain ⟨artifacts, gathered, hfind, h⟩ := exec_bind_ok h
  cases artifacts with
  | nil => exact absurd (Prod.mk.inj h).1 (by simp)
  | cons artifact rest =>
    refine ⟨[(artifact, jarName)], gathered, ?_, (exec_bind_of_ok h).trans rfl⟩
    rw [find, exec_bind_of_ok hpin, exec_bind_of_ok hbuild, exec_bind_of_ok hfind]
    rfl

/-- The repository is checked out into the build directory. -/
theorem checkout_ok (htrusts : Trusts site url version machine) (hmachine : SameMachine machine opened)
    (hwork : site.Workplace b dir opened.files) {checkedOut : Path}
    (h : exec (checkout url dir (.shallow version)) opened = (.ok checkedOut, fetched)) :
    (site.surface b).Keeps opened.files fetched.files ∧ fetched.files.Tidy ∧
      (∃ mode, fetched.files.get? (checkoutAt site b url) = some (.directory mode)) ∧
      fetched.files.ClearTo (checkoutAt site b url) moduleNames := by
  obtain ⟨captured, host₁, hrun, h⟩ := exec_bind_ok h
  obtain ⟨-, rfl⟩ := Prod.mk.inj h
  obtain ⟨left, hleft, hfiles⟩ :=
    Command.runsIn_of_run_ok rfl rfl rfl hmachine hwork.tidy hwork.headsFor hrun
  obtain ⟨hkeeps, htidy, hdir, hclear⟩ := htrusts.checksOut b dir _ _ hleft
  rw [hfiles]
  exact ⟨hkeeps.workingIn, htidy.workingIn _, hdir, hclear⟩

/-- The checkout is the directory that its path leads to. -/
theorem hasDirectory (hwork : site.Workplace b dir fetched.files)
    (hdir : ∃ mode, fetched.files.get? (checkoutAt site b url) = some (.directory mode)) :
    fetched.files.HasDirectory (dir / checkoutName url) (checkoutAt site b url) := by
  obtain ⟨mode, hmode⟩ := hdir
  have hname : IsPlainName (checkoutName url) := hwork.tidy.namesPlainly _ _ _ hmode
  refine ⟨hwork.tidy, fun l hl => (hwork.headsFor.place hname hl).1, ?_, mode, hmode⟩
  exact (hwork.leadsTo.child hname (Files.linkAt_of_directory hmode)).headsFor

/-- The path of the module goes down by its names. -/
theorem child_cliModule (p : Path) : p / cliModule = p.descend moduleNames := by
  have hjoin : ∀ (q : Path) (name : String), (⟨name⟩ : Path).isAbsolute = false →
      q / name = if q.text.isEmpty || q.text.toList.getLast? == some '/' then ⟨q.text ++ name⟩
        else ⟨q.text ++ "/" ++ name⟩ := by
    intro q name h
    rw [show q / name = q.join ⟨name⟩ from rfl, Path.join, if_neg (by simp [h])]
  have hname : IsPlainName "raml-to-jaxrs" := by decide
  have hends : ((p / "raml-to-jaxrs").text.toList.getLast? == some '/') = false :=
    Path.endsInSlash_child hname
  have hne : (p / "raml-to-jaxrs").text ≠ "" := Path.text_child_ne_empty hname
  change p / cliModule = p / "raml-to-jaxrs" / "raml-to-jaxrs-cli"
  rw [hjoin (p / "raml-to-jaxrs") _ (by decide), if_neg (by simp [hne, hends]),
    hjoin p cliModule (by decide), hjoin p "raml-to-jaxrs" (by decide)]
  split <;> simp only [String.append_assoc] <;> rfl

/-- The artifact that is found is a file in the checkout. -/
theorem find_ok (htrusts : Trusts site url version machine) (hmachine : SameMachine machine fetched)
    (hwork : site.Workplace b dir fetched.files)
    (hdir : ∃ mode, fetched.files.get? (checkoutAt site b url) = some (.directory mode))
    (hclear : fetched.files.ClearTo (checkoutAt site b url) moduleNames)
    (h : exec (find url version dir) fetched = (.ok found, gathered)) :
    ∃ artifact l, found = [(artifact, jarName)] ∧ Inside (site.directory ++ [b]) l ∧
      gathered.files.HasFile l ∧ gathered.files.FixedAt artifact l ∧ gathered.files.Tidy ∧
      (site.surface b).Keeps fetched.files gathered.files := by
  obtain ⟨changed, pinned, hpin, h⟩ := exec_bind_ok h
  obtain ⟨⟨⟩, host₁, hbuild, h⟩ := exec_bind_ok h
  obtain ⟨artifacts, last, hfind, h⟩ := exec_bind_ok h
  obtain ⟨captured, built, hrun, hbuild⟩ := exec_bind_ok hbuild
  obtain ⟨-, rfl⟩ := Prod.mk.inj hbuild
  have hsame := chains_sameMachine.trans hmachine (sameMachine_pinProject hpin)
  -- The versions are pinned inside of the checkout.
  obtain ⟨htidy₁, hchanges, hfewer⟩ := pinProject_ok (hasDirectory hwork hdir) hpin
  have hkeeps₁ := hwork.keeps_of_changesInside (hchanges.mono (List.prefix_append _ _))
  have hwork₁ : site.Workplace b dir pinned.files := hwork.of_keeps hkeeps₁ htidy₁
  obtain ⟨mode, hmode⟩ : ∃ mode, pinned.files.get? (checkoutAt site b url) = some (.directory mode) :=
    hdir.elim fun mode => hchanges.directory _ mode
  have hdir₁ := hasDirectory hwork₁ ⟨mode, hmode⟩
  -- The module is built in its place.
  have hheads : pinned.files.HeadsFor (dir / checkoutName url / cliModule)
      (checkoutAt site b url ++ moduleNames) := by
    rw [child_cliModule]
    exact hdir₁.heads.descend htidy₁.isTree (by decide) (hclear.of_fewerPassages hfewer)
  obtain ⟨left, hleft, hfiles⟩ :=
    Command.runsIn_of_run_ok rfl rfl rfl hsame htidy₁ hheads hrun
  obtain ⟨hkeeps, htidy⟩ := htrusts.builds b _ _ _ hleft
  have hkeeps := hkeeps.workingIn
  have htidy := htidy.workingIn pinned.files.workingDirectory
  rw [← hfiles] at hkeeps htidy
  have hsurface : (site.surface b).Keeps pinned.files built.files :=
    hkeeps.mono (fun _ hv => .inl hv) fun _ hl => hl
  have hpassage := hkeeps.passage _ (.inr rfl) _ (Files.passage_eq_some_iff.2 ⟨hmode, rfl⟩)
  have hdir₂ := hasDirectory (hwork₁.of_keeps hsurface htidy)
    ⟨mode, (Files.passage_eq_some_iff.1 hpassage).1⟩
  -- The first artifact of the checkout is taken.
  obtain ⟨hfound, hartifacts⟩ := findArtifacts_ok hdir₂ hfind
  cases artifacts with
  | nil => exact absurd (Prod.mk.inj h).1 (by simp)
  | cons artifact rest =>
    obtain ⟨heq, rfl⟩ := Prod.mk.inj h
    obtain ⟨l, hinside, hfile, hfixed⟩ := hartifacts artifact List.mem_cons_self
    rw [hfound]
    exact ⟨artifact, l, (Except.ok.inj heq).symm, hinside.mono (List.prefix_append _ _), hfile, hfixed, htidy, hkeeps₁.trans hsurface⟩

/-- Once the repository was checked out into a build directory, the artifact that is found in it can be
moved from there. -/
theorem supplied {takes : String → Bool} (htrusts : Trusts site url version machine)
    (hmachine : SameMachine machine opened) (hwork : site.Workplace b dir opened.files)
    (htakes : takes jarName = true) {checkedOut : Path}
    (hcheckout : exec (checkout url dir (.shallow version)) opened = (.ok checkedOut, fetched))
    (hfind : exec (find url version dir) fetched = (.ok found, gathered)) :
    ∃ spot, site.Supplied b takes spot found opened.files gathered.files ∧
      found.map Prod.snd = [jarName] := by
  obtain ⟨hkeeps, htidy, hdir, hclear⟩ := checkout_ok htrusts hmachine hwork hcheckout
  obtain ⟨artifact, l, rfl, hinside, ⟨e', he', hfile⟩, hfixed, htidy', hkeeps'⟩ :=
    find_ok htrusts (chains_sameMachine.trans hmachine (sameMachine_checkout hcheckout)) (hwork.of_keeps hkeeps htidy) hdir hclear hfind
  refine ⟨fun _ => l, ⟨hkeeps.trans hkeeps', htidy', fun _ _ => hinside, fun x hx => ?_,
    fun x hx e he => ?_⟩, rfl⟩
  · rw [List.mem_singleton.1 hx]
    exact hfixed
  · obtain rfl := Option.some.inj (he.symm.trans he')
    rw [List.mem_singleton.1 hx]
    exact ⟨hfile, .inr htakes⟩

/-- The steps of the installer leave the machine alone. -/
theorem leavesMachine_installer : (installer root url version).LeavesMachine where
  resolveVersion := Always.pure chains_sameMachine _
  artifactsPresent := Always.asking chains_sameMachine _
  removeArtifacts := sameMachine_removeMatching
  download _ _ := Always.bind chains_sameMachine sameMachine_checkout fun _ =>
    Always.pure chains_sameMachine _
  buildAndInstall version dir := by
    refine Always.bind chains_sameMachine sameMachine_pinProject fun _ =>
      Always.bind chains_sameMachine sameMachine_buildProject fun _ =>
      Always.bind chains_sameMachine sameMachine_findArtifacts fun artifacts => ?_
    split
    · exact Always.throw chains_sameMachine _
    · exact sameMachine_moveArtifact

end Generator

end RamlBuild
