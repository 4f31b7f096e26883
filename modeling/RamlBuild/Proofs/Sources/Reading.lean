import RamlBuild.Proofs.Build.Files
import RamlBuild.Proofs.Build.Temporary
import RamlBuild.Proofs.Sources.ModelTypes
import RamlBuild.Sources.Run

/-!
# Reading sources

Listing sources, reading their texts and pairing model types count operations and change nothing
else, whether they succeed or fail.

What can be read in a directory that takes files can be written, and can still be read afterwards. So
sources that were read once can be rewritten one after the other.

## Main definitions

* `Readable`, `Writable` — a host without faults on which sources of a directory can be read, and
  written

## Main results

* `onlyReads_sourceFiles`, `onlyReads_modelTypes` — what patches find out before they write
* `textAt_of_replaced` — reading after a file was replaced
* `Readable.of_writeAtomically` — sources can be read after one of them was written
* `Writable.exec_rewriteAll` — where the directory takes files, all sources can be rewritten
-/

/-! ## Steps that only read -/

namespace RamlBuild

open Build

variable {α : Type} {host host' : Host} {p file : Path} {files : List Path}

/-- A report tells the time of the host and leaves it alone. -/
theorem exec_report (stage : String) (result : StageResult) (host : Host) :
    exec (report stage result) host = (.ok ⟨stage, host.now, result⟩, host) := rfl

/-- A run with its stages is timed by the host before and after them. -/
theorem exec_summarize (stages : Build (List StageReport)) (host : Host) :
    exec (summarize stages) host =
      match exec stages host with
      | (.ok stages, host') => (.ok ⟨host.now, host'.now, stages⟩, host')
      | (.error failure, host') => (.error failure, host') := by
  have hnow : ∀ host : Host, exec now host = (.ok host.now, host) := fun _ => rfl
  rw [summarize, exec_bind_of_ok (hnow host), exec_bind]
  rcases exec stages host with ⟨result, host₁⟩
  cases result with
  | error failure => rfl
  | ok stages => exact exec_bind_of_ok (hnow host₁)

/-- A run that succeeds has gone through its stages. -/
theorem summarize_ok {stages : Build (List StageReport)} {summary : Summary}
    (h : exec (summarize stages) host = (.ok summary, host')) :
    exec stages host = (.ok summary.stages, host') := by
  rw [exec_summarize] at h
  rcases hstages : exec stages host with ⟨result, host₁⟩
  rw [hstages] at h
  cases result with
  | error failure => exact absurd (Prod.mk.inj h).1 (by simp)
  | ok reports =>
    obtain ⟨heq, rfl⟩ := Prod.mk.inj h
    rw [← Except.ok.inj heq]

/-- A host before and after steps that only read: operations were counted. -/
def OnlyReads (host host' : Host) : Prop :=
  host' = { host with operations := host'.operations }

theorem chains_onlyReads : Chains OnlyReads where
  refl _ := rfl
  trans h h' := by
    rw [OnlyReads] at h h' ⊢
    rw [h', h]

theorem OnlyReads.files_eq (h : OnlyReads host host') : host'.files = host.files := by
  rw [h]

theorem OnlyReads.faults_eq (h : OnlyReads host host') : host'.faults = host.faults := by
  rw [h]

theorem onlyReads_counted (host : Host) : OnlyReads host (counted host) := rfl

theorem onlyReads_reading {attempt : String} {op : Files → Except IoError α} :
    Always OnlyReads (reading attempt op) := by
  intro host result host' h
  rw [(reading_result h).1]
  exact onlyReads_counted host

theorem onlyReads_readText : Always OnlyReads (readText p) := by
  intro host result host' h
  rw [exec_readText] at h
  rw [← (Prod.mk.inj h).2]
  exact onlyReads_counted host

theorem onlyReads_isFile : Always OnlyReads (isFile p) :=
  Always.asking chains_onlyReads _

theorem onlyReads_sourceFiles : Always OnlyReads (sourceFiles p) := by
  refine Always.bind chains_onlyReads (Always.asking chains_onlyReads _) fun isDirectory => ?_
  split
  · exact Always.bind chains_onlyReads (Always.within onlyReads_reading) fun _ =>
      Always.pure chains_onlyReads _
  · exact Always.pure chains_onlyReads _

theorem onlyReads_modelAndResourceFiles {layout : Layout} :
    Always OnlyReads (modelAndResourceFiles layout) :=
  Always.bind chains_onlyReads onlyReads_sourceFiles fun _ =>
    Always.bind chains_onlyReads onlyReads_sourceFiles fun _ => Always.pure chains_onlyReads _

theorem onlyReads_fail (cause : Cause) : Always OnlyReads (fail cause : Build α) :=
  Always.throw chains_onlyReads _

theorem onlyReads_modelType? : Always OnlyReads (modelType? file) := by
  rw [modelType?]
  split
  · refine Always.bind chains_onlyReads onlyReads_isFile fun hasInterface => ?_
    split
    · exact Always.pure chains_onlyReads _
    · exact onlyReads_fail _
  · refine Always.bind chains_onlyReads onlyReads_isFile fun hasImplementation => ?_
    split
    · exact Always.pure chains_onlyReads _
    · refine Always.bind chains_onlyReads onlyReads_readText fun source => ?_
      split
      · exact onlyReads_fail _
      · exact Always.pure chains_onlyReads _

theorem onlyReads_modelTypesAmong : Always OnlyReads (modelTypesAmong files) := by
  induction files with
  | nil => exact Always.pure chains_onlyReads _
  | cons file rest ih =>
    exact Always.bind chains_onlyReads onlyReads_modelType? fun _ =>
      Always.bind chains_onlyReads ih fun _ => Always.pure chains_onlyReads _

theorem onlyReads_modelTypes : Always OnlyReads (modelTypes p) :=
  Always.bind chains_onlyReads onlyReads_sourceFiles fun _ => onlyReads_modelTypesAmong

theorem onlyReads_allPropertyNames : Always OnlyReads (allPropertyNames files) := by
  induction files with
  | nil => exact Always.pure chains_onlyReads _
  | cons file rest ih =>
    exact Always.bind chains_onlyReads onlyReads_readText fun _ =>
      Always.bind chains_onlyReads ih fun _ => Always.pure chains_onlyReads _

theorem onlyReads_filesWhose {question : String → Bool} :
    Always OnlyReads (filesWhose question files) := by
  induction files with
  | nil => exact Always.pure chains_onlyReads _
  | cons file rest ih =>
    exact Always.bind chains_onlyReads onlyReads_readText fun _ =>
      Always.bind chains_onlyReads ih fun _ => Always.pure chains_onlyReads _

end RamlBuild

/-! ## Sources that can be read and written -/

namespace RamlBuild

open Build

variable {host host' : Host} {fs fs' : Files} {p q : Path} {name other stem text : String}
  {names : List String} {dir loc target : Location} {contents : ByteArray} {mode : Nat}
  {transform : String → String}

/-! ### Reading after a file was replaced -/

theorem readFile_eq_ok_iff : fs.readFile p = .ok contents ↔
    ∃ loc mode shared, fs.stat p = .ok (loc, .file contents mode shared) ∧
      (Entry.file contents mode shared).permits .read = true := by
  unfold Files.readFile
  cases hstat : fs.stat p with
  | error error => simp [bind, Except.bind]
  | ok found =>
    obtain ⟨loc, e⟩ := found
    simp only [bind, Except.bind, Except.ok.injEq, Prod.mk.injEq]
    cases hread : e.permits .read with
    | false =>
      simp only [Bool.not_false, if_true, reduceCtorEq, false_iff, not_exists, not_and]
      rintro _ mode shared ⟨-, rfl⟩
      simp [hread]
    | true =>
      cases e with
      | file contents' mode' shared' =>
        simp only [Bool.not_true, Bool.false_eq_true, if_false, Except.ok.injEq]
        constructor
        · rintro rfl
          exact ⟨loc, mode', shared', ⟨rfl, rfl⟩, hread⟩
        · rintro ⟨_, _, _, ⟨-, heq⟩, -⟩
          exact (Entry.file.inj heq).1
      | directory | link => simp

/-- A text is read from a file that permits it. -/
theorem textAt_eq_ok_iff : textAt fs p = .ok (some text) ↔
    ∃ loc contents mode shared, fs.resolve p = .ok loc ∧
      fs.get? loc = some (.file contents mode shared) ∧
      (Entry.file contents mode shared).permits .read = true ∧
      String.fromUTF8? contents = some text := by
  rw [textAt]
  constructor
  · intro h
    cases hread : fs.readFile p with
    | error error =>
      rw [hread] at h
      contradiction
    | ok contents =>
      rw [hread] at h
      obtain ⟨loc, mode, shared, hstat, hpermits⟩ := readFile_eq_ok_iff.1 hread
      obtain ⟨hresolve, hget⟩ := stat_eq_ok_iff.1 hstat
      exact ⟨loc, contents, mode, shared, hresolve, hget, hpermits, Except.ok.inj h⟩
  · rintro ⟨loc, contents, mode, shared, hresolve, hget, hpermits, htext⟩
    rw [readFile_eq_ok_iff.2 ⟨loc, mode, shared, stat_eq_ok_iff.2 ⟨hresolve, hget⟩, hpermits⟩]
    exact congrArg Except.ok htext

theorem exec_readText_of_textAt (hquiet : ∀ n, host.faults n = none)
    (h : textAt host.files p = .ok (some text)) :
    exec (readText p) host = (.ok text, counted host) := by
  simp only [exec_readText, hquiet, h]

theorem isFile_of_textAt (h : textAt fs p = .ok (some text)) : fs.isFile p = true := by
  obtain ⟨loc, contents, mode, shared, hresolve, hget, -, -⟩ := textAt_eq_ok_iff.1 h
  rw [Files.isFile, stat_eq_ok_iff.2 ⟨hresolve, hget⟩]

/-- What could be read can be read after a file was replaced by one that permits it. -/
theorem textAt_of_replaced (h : fs.Replaced fs' target text.toUTF8 mode)
    (hdead : ¬fs.LinksToDirectory target)
    (hpermits : (Entry.file text.toUTF8 mode none).permits .read = true)
    (hread : ∃ input, textAt fs q = .ok (some input)) : ∃ output, textAt fs' q = .ok (some output) := by
  have hnew : fs'.resolve q = .ok target → ∃ output, textAt fs' q = .ok (some output) :=
    fun hresolve => ⟨text, textAt_eq_ok_iff.2
      ⟨target, _, _, _, hresolve, h.get?_target, hpermits, fromUTF8?_toUTF8 text⟩⟩
  obtain ⟨input, hread⟩ := hread
  obtain ⟨loc, contents, mode', shared, hresolve, hget, hpermits', hinput⟩ :=
    textAt_eq_ok_iff.1 hread
  rcases Files.resolve_of_replaced h hdead hresolve with hresolve' | hresolve'
  · by_cases hloc : loc = target
    · exact hnew (hloc ▸ hresolve')
    · have hget' := (h.get?_other loc hloc).trans hget
      exact ⟨input, textAt_eq_ok_iff.2
        ⟨loc, contents, mode', shared, hresolve', hget', hpermits', hinput⟩⟩
  · exact hnew hresolve'

/-- A source that can be read is an entry of its directory, and no link to a directory. -/
theorem entry_of_textAt (hname : IsPlainName name) (h : textAt fs (p / name) = .ok (some text)) :
    ∃ dir, fs.reach p = .ok dir ∧ fs.place (p / name) = .ok (dir ++ [name]) ∧
      (∀ mode, fs.get? (dir ++ [name]) ≠ some (.directory mode)) ∧
      ¬fs.LinksToDirectory (dir ++ [name]) := by
  obtain ⟨loc, contents, mode, shared, hresolve, hget, -, -⟩ := textAt_eq_ok_iff.1 h
  have hfile : ∀ mode, fs.get? loc ≠ some (.directory mode) := by simp [hget]
  obtain ⟨dir, hreach, hplace, hends⟩ := Files.place_of_resolve_child hname hresolve
  refine ⟨dir, hreach, hplace, ?_, Files.not_linksToDirectory_of_resolve hname hreach hresolve hfile⟩
  rcases hends with ⟨rfl, -⟩ | ⟨path, -, hlink, -⟩
  · exact hfile
  · rw [Files.linkAt_eq_some_iff.1 hlink]
    simp

theorem permits_temporaryMode (contents : ByteArray) :
    (Entry.file contents temporaryMode none).permits .read = true := rfl

/-- A file has the permissions of what it replaced, so it can be read where this could, or was no
file. -/
theorem permits_of_place (hname : IsPlainName name) (hplace : fs.place (p / name) = .ok target)
    (hdirectory : ∀ mode, fs.get? target ≠ some (.directory mode))
    (hdead : ¬fs.LinksToDirectory target)
    (hread : fs.isFile (p / name) = true → ∃ input, textAt fs (p / name) = .ok (some input)) :
    (Entry.file contents ((fs.mode? (p / name)).getD temporaryMode) none).permits .read = true := by
  rw [mode?_eq]
  cases hresolve : fs.resolve (p / name) with
  | error error => exact permits_temporaryMode contents
  | ok loc =>
    cases hget : fs.get? loc with
    | none =>
      simp only [hget, Option.bind_none, Option.getD_none]
      exact permits_temporaryMode contents
    | some e =>
      cases e with
      | link path =>
        simp only [hget, Option.bind_some, Entry.mode?, Option.getD_none]
        exact permits_temporaryMode contents
      | file contents' mode' shared' =>
        have hfile : fs.isFile (p / name) = true := by
          rw [Files.isFile, stat_eq_ok_iff.2 ⟨hresolve, hget⟩]
        obtain ⟨input, hinput⟩ := hread hfile
        obtain ⟨loc', _, _, _, hresolve', hget', hpermits, -⟩ := textAt_eq_ok_iff.1 hinput
        obtain rfl := Except.ok.inj (hresolve.symm.trans hresolve')
        simp only [hget']
        exact hpermits
      | directory mode' =>
        -- The place would be the directory, or a link to it.
        exfalso
        obtain ⟨dir, -, hplace', hends⟩ := Files.place_of_resolve_child hname hresolve
        obtain rfl := Except.ok.inj (hplace.symm.trans hplace')
        rcases hends with ⟨rfl, -⟩ | ⟨path, m, hlink, hwalk⟩
        · exact hdirectory mode' hget
        · exact hdead ⟨path, m, loc, mode', hlink, hwalk, hget⟩

/-! ### Sources that can be read -/

/-- Nothing but its files decides what happens on a host, and these sources of a directory can be
read. -/
structure Readable (host : Host) (p : Path) (names : List String) : Prop where
  quiet : ∀ n, host.faults n = none
  isTree : host.files.IsTree
  distinct : host.files.Distinct
  text : ∀ name ∈ names, ∃ text, textAt host.files (p / name) = .ok (some text)

/-- The sources can be written as well, since the directory takes files. -/
structure Writable (host : Host) (p : Path) (names : List String) : Prop extends
    Readable host p names where
  takes : ∃ dir, host.files.TakesFiles p dir

theorem Readable.of_onlyReads (h : Readable host p names) (hreads : OnlyReads host host') :
    Readable host' p names := by
  obtain ⟨hquiet, htree, hdistinct, htext⟩ := h
  rw [← hreads.files_eq] at htree hdistinct htext
  exact ⟨fun n => by rw [hreads.faults_eq, hquiet], htree, hdistinct, htext⟩

theorem Writable.of_onlyReads (h : Writable host p names) (hreads : OnlyReads host host') :
    Writable host' p names := by
  refine ⟨h.toReadable.of_onlyReads hreads, ?_⟩
  rw [hreads.files_eq]
  exact h.takes

/-- The name of a source is not that of a temporary file. -/
theorem sourceName_ne_temporaryName (stem : String) (n : Nat) :
    sourceName stem ≠ Files.temporaryName n := by
  have hlast : ∀ start ending : String, ending.toList ≠ [] →
      (start ++ ending).toList.getLast? = ending.toList.getLast? := by
    intro start ending hne
    rw [String.toList_append, List.getLast?_append_of_ne_nil _ hne]
  intro heq
  have hends := congrArg (fun name : String => name.toList.getLast?) heq
  simp only [sourceName, Files.temporaryName] at hends
  rw [hlast _ ".java" (by decide), hlast _ ".tmp" (by decide)] at hends
  exact absurd hends (by decide)

/-- After a source was written all sources can be read and written. -/
theorem Readable.of_writeAtomically (h : Readable host (p / other) names)
    (hother : IsPlainName other) (hname : IsPlainName (sourceName stem))
    (hdead : ∀ dir, host.files.reach (p / other) = .ok dir →
      ¬host.files.LinksToDirectory (dir ++ [sourceName stem]))
    (hread : host.files.isFile (p / other / sourceName stem) = true →
      ∃ input, textAt host.files (p / other / sourceName stem) = .ok (some input))
    (hwrite : exec (writeAtomically (p / other / sourceName stem) text) host = (.ok (), host')) :
    Writable host' (p / other) names := by
  obtain ⟨target, hplace, hreplaced, hfaults⟩ := writeAtomically_ok hwrite
  obtain ⟨dir, hplace', htakes⟩ := takesFiles_of_writeAtomically hname hother hwrite
  obtain rfl := Except.ok.inj (hplace.symm.trans hplace')
  have hdead := hdead dir htakes.reach
  have hpermits := @permits_of_place _ _ _ _ text.toUTF8 hname hplace hreplaced.not_directory hdead
    hread
  have htarget : ∀ l n, dir ++ [sourceName stem] ≠ l ++ [Files.temporaryName n] := by
    intro l n heq
    exact sourceName_ne_temporaryName stem n (List.singleton_inj.1 (List.append_inj' heq rfl).2)
  refine ⟨⟨?_, hreplaced.isTree h.isTree hplace, hreplaced.distinct h.distinct, ?_⟩,
    dir, htakes.of_replaced hreplaced h.distinct hdead htarget⟩
  · intro n
    rw [hfaults, h.quiet]
  · intro name hmem
    exact textAt_of_replaced hreplaced hdead hpermits (h.text name hmem)

/-- Each source that can be written can be rewritten. -/
theorem Writable.exec_rewrite (h : Writable host (p / other) names) (hother : IsPlainName other)
    (hname : IsPlainName (sourceName stem)) (hmem : sourceName stem ∈ names) :
    ∃ changed host', exec (rewrite (p / other / sourceName stem)
        (always transform (p / other / sourceName stem))) host = (.ok changed, host') ∧
      Writable host' (p / other) names := by
  obtain ⟨input, hinput⟩ := h.text _ hmem
  have hcounted := h.of_onlyReads (onlyReads_counted host)
  rw [rewrite, exec_bind_of_ok (exec_readText_of_textAt h.quiet hinput)]
  simp only [always]
  split
  · exact ⟨false, counted host, rfl, hcounted⟩
  · obtain ⟨dir', hreach, hplace, hdirectory, hdead⟩ := entry_of_textAt hname hinput
    obtain ⟨dir, htakes⟩ := h.takes
    obtain ⟨host', hwrite⟩ := exec_writeAtomically_child hcounted.quiet hcounted.isTree hname hother
      htakes hplace hdirectory (transform input)
    have hdead' : ∀ dir, (counted host).files.reach (p / other) = .ok dir →
        ¬(counted host).files.LinksToDirectory (dir ++ [sourceName stem]) := by
      intro dir hdir
      obtain rfl := Except.ok.inj (hreach.symm.trans hdir)
      exact hdead
    refine ⟨true, host', exec_bind_of_ok hwrite, ?_⟩
    exact hcounted.toReadable.of_writeAtomically hother hname hdead' (fun _ => ⟨input, hinput⟩) hwrite

/-- All sources that can be written can be rewritten, one after the other. -/
theorem Writable.exec_rewriteAll {stems : List String} (h : Writable host (p / other) names)
    (hother : IsPlainName other) (hplain : ∀ stem ∈ stems, IsPlainName (sourceName stem))
    (hmem : ∀ stem ∈ stems, sourceName stem ∈ names) :
    ∃ changed host', exec (rewriteAll (always transform)
      (stems.map fun stem => p / other / sourceName stem)) host = (.ok changed, host') := by
  induction stems generalizing host with
  | nil => exact ⟨[], host, rfl⟩
  | cons stem rest ih =>
    obtain ⟨changed, host₁, hfirst, h₁⟩ :=
      h.exec_rewrite hother (hplain stem List.mem_cons_self) (hmem stem List.mem_cons_self)
    obtain ⟨others, host₂, hothers⟩ := ih h₁ (fun s hs => hplain s (List.mem_cons_of_mem _ hs))
      (fun s hs => hmem s (List.mem_cons_of_mem _ hs))
    rw [List.map_cons, rewriteAll, exec_bind_of_ok hfirst, exec_bind_of_ok hothers]
    exact ⟨_, _, rfl⟩

end RamlBuild
