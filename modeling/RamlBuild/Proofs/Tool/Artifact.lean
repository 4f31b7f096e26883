import RamlBuild.Proofs.Build.Machine
import RamlBuild.Proofs.Build.Tidy
import RamlBuild.Proofs.Files.Fixed
import RamlBuild.Proofs.Tool.Minding
import RamlBuild.Tool.Artifact

/-!
# What becomes of artifacts

Removing artifacts removes the files of the root whose names are wanted gone, and nothing else.
Moving artifacts to the root takes each one from its place and puts it under its name, over what was
there, and leaves everything else alone.

## Main definitions

* `Files.Loses` — some entries went, and nothing else changed
* `Files.Moved` — a file was moved
* `Site.Movable` — files that can be moved to a root one after the other
* `Site.Brought` — files that were moved to a root

## Main results

* `Site.removeMatching_ok` — the files that are removed are those whose names match
* `Site.Movable.brought` — what moving files to a root comes to
-/

namespace RamlBuild

open Build

namespace Files

variable {fs fs' fs'' : Files} {l loc target dir : Location} {e : Entry} {p source : Path}
  {name : String} {gone gone' : Location → Prop}

/-- The same directories and links are no more of them. -/
theorem fewerPassages_of_get?_eq (h : ∀ l, fs'.get? l = fs.get? l)
    (hdir : fs'.workingDirectory = fs.workingDirectory) : FewerPassages fs fs' :=
  ⟨fun l e he => by rwa [Files.passage, h, ← Files.passage] at he, hdir⟩

/-! ### Entries that went -/

/-- Some entries went, and nothing else changed. -/
structure Loses (gone : Location → Prop) (fs fs' : Files) : Prop where
  get?_of_gone : ∀ l, gone l → fs'.get? l = none
  get?_other : ∀ l, ¬gone l → fs'.get? l = fs.get? l
  workingDirectory : fs'.workingDirectory = fs.workingDirectory
  tidy : fs.Tidy → fs'.Tidy

namespace Loses

/-- What was not there need not be told to have gone. -/
theorem restrict (h : Loses gone fs fs') (hsub : ∀ l, gone' l → gone l)
    (hrest : ∀ l, gone l → ¬gone' l → fs.get? l = none) : Loses gone' fs fs' := by
  refine ⟨fun l hl => h.get?_of_gone l (hsub l hl), fun l hl => ?_, h.workingDirectory, h.tidy⟩
  by_cases hgone : gone l
  · rw [h.get?_of_gone l hgone, hrest l hgone hl]
  · exact h.get?_other l hgone

theorem congr (h : Loses gone fs fs') (hiff : ∀ l, gone l ↔ gone' l) : Loses gone' fs fs' :=
  h.restrict (fun l => (hiff l).2) fun l hl hl' => absurd ((hiff l).1 hl) hl'

theorem trans (h : Loses gone fs fs') (h' : Loses gone' fs' fs'') :
    Loses (fun l => gone l ∨ gone' l) fs fs'' where
  get?_of_gone := by
    intro l hl
    by_cases hlast : gone' l
    · exact h'.get?_of_gone l hlast
    · rw [h'.get?_other l hlast, h.get?_of_gone l (hl.resolve_right hlast)]
  get?_other := by
    intro l hl
    rw [not_or] at hl
    rw [h'.get?_other l hl.2, h.get?_other l hl.1]
  workingDirectory := h'.workingDirectory.trans h.workingDirectory
  tidy := fun htidy => h'.tidy (h.tidy htidy)

/-- A file that is left was there before. -/
theorem hasFile (h : Loses gone fs fs') (hfile : fs'.HasFile l) : ¬gone l ∧ fs.HasFile l := by
  obtain ⟨e, he, hfile⟩ := hfile
  have hgone : ¬gone l := by
    intro hgone
    rw [h.get?_of_gone l hgone] at he
    contradiction
  exact ⟨hgone, e, (h.get?_other l hgone).symm.trans he, hfile⟩

/-- Where only files went, all paths lead where they did. -/
theorem samePassages (h : Loses gone fs fs') (hgone : ∀ l, gone l → fs.passage l = none) :
    SamePassages fs fs' := by
  refine ⟨fun l => ?_, h.workingDirectory⟩
  by_cases hl : gone l
  · rw [passage_of_none (h.get?_of_gone l hl), hgone l hl]
  · rw [Files.passage, h.get?_other l hl, Files.passage]

end Loses

theorem loses_nothing (fs : Files) : Loses (fun _ => False) fs fs :=
  ⟨fun _ h => h.elim, fun _ _ => rfl, rfl, fun h => h⟩

theorem loses_removeFile (h : fs.removeFile p = .ok fs') :
    ∃ l, fs.place p = .ok l ∧ Loses (· = l) fs fs' ∧ FewerPassages fs fs' := by
  have htidy : fs.Tidy → fs'.Tidy := fun htidy => htidy.removeFile h
  obtain ⟨l, hplace, hentry, rfl⟩ := removeFile_ok h
  have hne : l ≠ [] := by
    rintro rfl
    exact hentry _ get?_nil
  refine ⟨l, hplace, ⟨?_, fun _ hl => get?_erase_of_ne hl, rfl, htidy⟩, fewerPassages_erase hne⟩
  rintro _ rfl
  exact get?_erase_self hne

/-! ### Files that were moved -/

/-- A file was moved, over what was at its new place, and nothing else changed. -/
structure Moved (loc target : Location) (e : Entry) (fs fs' : Files) : Prop where
  get?_source : fs.get? loc = some e
  isFile : e.isFile = true
  get?_target : fs'.get? target = some e
  get?_gone : fs'.get? loc = none
  get?_other : ∀ l, l ≠ loc → l ≠ target → fs'.get? l = fs.get? l
  workingDirectory : fs'.workingDirectory = fs.workingDirectory
  free : ∀ mode, fs.get? target ≠ some (.directory mode)

namespace Moved

theorem fewerPassages (h : Moved loc target e fs fs') : FewerPassages fs fs' := by
  refine ⟨fun l e' he => ?_, h.workingDirectory⟩
  by_cases hloc : l = loc
  · rw [hloc, passage_of_none h.get?_gone] at he
    contradiction
  · by_cases htarget : l = target
    · rw [htarget, HasFile.passage ⟨e, h.get?_target, h.isFile⟩] at he
      contradiction
    · rwa [Files.passage, h.get?_other l hloc htarget] at he

/-- A file that takes the place of no link changes no path. -/
theorem passage_eq (h : Moved loc target e fs fs') (hlink : l = target → fs.linkAt l = none) :
    fs'.passage l = fs.passage l := by
  by_cases hloc : l = loc
  · rw [hloc, passage_of_none h.get?_gone, HasFile.passage ⟨e, h.get?_source, h.isFile⟩]
  · by_cases htarget : l = target
    · subst htarget
      rw [HasFile.passage ⟨e, h.get?_target, h.isFile⟩, passage_eq_none (hlink rfl) h.free]
    · rw [Files.passage, h.get?_other l hloc htarget, Files.passage]

end Moved

/-- An entry that is moved away leaves something to be moved. -/
theorem exists_of_moveTo (h : fs.moveTo loc p = .ok fs') : ∃ e, fs.get? loc = some e := by
  cases hget : fs.get? loc with
  | some e => exact ⟨e, rfl⟩
  | none =>
    unfold moveTo entryAt at h
    simp only [hget, bind, Except.bind] at h
    split at h
    · cases h
    · split at h <;> cases h

/-- A file is moved by renaming it, unless it is one of the names of what is in its new place. -/
theorem rename_ok (htidy : fs.Tidy) (hsource : fs.FixedAt source loc)
    (hfile : ∀ e, fs.get? loc = some e →
      e.isFile = true ∧ (fs.get? target).any e.isSameFile = false)
    (hplace : ∀ l, fs.place p = .ok l → l = target) (hne : loc ≠ target)
    (h : fs.rename source p = .ok fs') : ∃ e, Moved loc target e fs fs' ∧ fs'.Tidy := by
  obtain ⟨loc', horigin, hmove⟩ : ∃ l, fs.place source = .ok l ∧ fs.moveTo l p = .ok fs' := by
    unfold rename at h
    cases horigin : fs.place source with
    | error error =>
      rw [horigin] at h
      cases h
    | ok l =>
      refine ⟨l, rfl, ?_⟩
      simp only [horigin, bind, Except.bind] at h
      split at h
      · cases h
      · split at h
        · cases h
        · exact h
  obtain rfl := hsource.place_eq htidy.isTree horigin
  obtain ⟨e, hget⟩ := exists_of_moveTo hmove
  obtain ⟨hisFile, hother⟩ := hfile e hget
  cases e with
  | directory | link => contradiction
  | file contents mode shared =>
    obtain ⟨target', htarget, ⟨-, heq | hsame⟩ | ⟨-, hnil, hfree, rfl⟩⟩ := moveTo_of_file hget hmove
    · exact absurd ((hplace _ htarget).symm.trans heq).symm hne
    · rw [hplace _ htarget, hother] at hsame
      contradiction
    · obtain rfl := hplace _ htarget
      have hloc : loc' ≠ [] := by
        rintro rfl
        simp at hget
      refine ⟨_, ⟨hget, hisFile, get?_put_self hnil, ?_, ?_, rfl, hfree⟩, ?_⟩
      · rw [get?_put_of_ne hne, get?_erase_self hloc]
      · intro l hl hl'
        rw [get?_put_of_ne hl', get?_erase_of_ne hl]
      · obtain ⟨dir, name, mode', rfl, hname, hdir⟩ := htidy.exists_child htarget hnil
        have hdir' : dir ≠ loc' := by
          rintro rfl
          rw [hget] at hdir
          cases Option.some.inj hdir
        refine (htidy.erase hloc (by simp [hget])).put hname
          ((get?_erase_of_ne hdir').trans hdir) fun mode'' => ?_
        rw [get?_erase_of_ne hne.symm]
        exact hfree mode''

end Files

variable {host host' : Host} {site : Site} {name : String} {source : Path} {loc : Location}

/-! ### Removing artifacts -/

namespace Build

/-- The files that are removed are those with the given names. -/
theorem removeEach_ok {dir : Path} {d : Location} {names : List String}
    (hheads : host.files.HeadsFor dir d) (hplain : ∀ name ∈ names, IsPlainName name)
    (h : exec (removeEach dir names) host = (.ok (), host')) :
    Files.Loses (fun l => ∃ name ∈ names, l = d ++ [name]) host.files host'.files ∧
      host'.faults = host.faults := by
  induction names generalizing host with
  | nil =>
    obtain ⟨-, rfl⟩ := Prod.mk.inj h
    exact ⟨(Files.loses_nothing _).congr (by simp), rfl⟩
  | cons name rest ih =>
    obtain ⟨⟨⟩, host₁, hremove, h⟩ := exec_bind_ok h
    obtain ⟨hop, hfaults⟩ := changing_ok hremove
    obtain ⟨l, hplace, hloses, hfewer⟩ := Files.loses_removeFile hop
    obtain ⟨rfl, -⟩ := hheads.place (hplain name List.mem_cons_self) hplace
    obtain ⟨hrest, hfaults'⟩ := ih (hheads.of_fewerPassages hfewer)
      (fun n hn => hplain n (List.mem_cons_of_mem _ hn)) h
    refine ⟨(hloses.trans hrest).congr fun l => ?_, hfaults'.trans hfaults⟩
    simp

end Build

namespace Files

variable {fs : Files} {dir : Path} {d : Location}

/-- A directory that its path leads to is not missed. -/
theorem list_ne_notFound {mode : Nat} (hne : dir.text ≠ "") (hreach : fs.reach dir = .ok d)
    (hdir : fs.get? d = some (.directory mode)) : fs.list dir ≠ .error .notFound := by
  unfold list stat
  cases hpath : requirePath dir with
  | error error =>
    have hresolve : fs.resolve dir = .error error := by
      rw [resolve, locate, hpath]
      rfl
    rw [hresolve]
    simp only [bind, Except.bind]
    rintro heq
    obtain rfl := Except.error.inj heq
    rw [requirePath, if_neg (by simpa using hne)] at hpath
    split at hpath
    · contradiction
    · split at hpath <;> contradiction
  | ok =>
    rw [resolve_of_reach hpath hreach hdir]
    simp only [bind, Except.bind, entryAt, hdir]
    split <;> simp

end Files

namespace Site

/-- The names that are found are those of the files in the root. -/
theorem fileNames_ok {names : List String} (hroot : site.root.text ≠ "")
    (hreached : site.Reached host.files) (htidy : host.files.Tidy)
    (honest : ∀ n, host.faults n ≠ some .notFound)
    (h : exec (fileNames site.root) host = (.ok names, host')) :
    host' = counted host ∧
      ∀ name, name ∈ names ↔ host.files.HasFile (site.directory ++ [name]) := by
  obtain ⟨hreach, mode, hdir⟩ := hreached
  rw [fileNames, exec_attempt_bind] at h
  rcases hlist : exec (list site.root) host with ⟨result, host₁⟩
  rw [hlist] at h
  obtain ⟨rfl, hop⟩ := reading_result hlist
  cases result with
  | ok entries =>
    obtain ⟨heq, rfl⟩ := Prod.mk.inj h
    obtain rfl := Except.ok.inj heq
    refine ⟨rfl, fun name => ?_⟩
    obtain ⟨d, -, hresolve, -, rfl⟩ := Files.list_ok (hop entries rfl)
    obtain rfl : site.directory = d :=
      Except.ok.inj (hreach.symm.trans (Files.reach_of_resolve hresolve))
    simp [Files.HasFile, Files.mem_children_iff htidy.nodup]
  | error failure =>
    -- The root is there, and nothing else passes for a missing one.
    rw [Build.list, exec_reading] at hlist
    have hresult := (Prod.mk.inj hlist).1
    cases hfault : host.faults host.operations with
    | some error =>
      have hne : error ≠ .notFound := by
        rintro rfl
        exact honest _ hfault
      simp only [hfault] at hresult
      obtain rfl := Except.error.inj hresult
      simp only [Failure.of] at h
      cases error <;> first | contradiction | exact absurd (Prod.mk.inj h).1 (by simp)
    | none =>
      simp only [hfault] at hresult
      cases hop' : host.files.list site.root with
      | ok entries =>
        rw [hop'] at hresult
        contradiction
      | error error =>
        have hne : error ≠ .notFound := by
          rintro rfl
          exact Files.list_ne_notFound hroot hreach hdir hop'
        rw [hop'] at hresult
        obtain rfl := Except.error.inj hresult
        simp only [Failure.of] at h
        cases error <;> first | contradiction | exact absurd (Prod.mk.inj h).1 (by simp)

/-- The files that are removed are those of the root whose names match. -/
theorem removeMatching_ok {condition : String → Bool} (hroot : site.root.text ≠ "")
    (hreached : site.Reached host.files) (htidy : host.files.Tidy)
    (honest : ∀ n, host.faults n ≠ some .notFound)
    (h : exec (removeMatching site.root condition) host = (.ok (), host')) :
    Files.Loses (fun l => ∃ name, condition name = true ∧ l = site.directory ++ [name] ∧
      host.files.HasFile l) host.files host'.files ∧ host'.faults = host.faults := by
  obtain ⟨names, host₁, hnames, h⟩ := exec_bind_ok h
  obtain ⟨rfl, hmem⟩ := fileNames_ok hroot hreached htidy honest hnames
  obtain ⟨mode, hdir⟩ := hreached.2
  have hheads : (counted host).files.HeadsFor site.root site.directory :=
    (Files.leadsTo_of_reach_directory hreached.1 hdir).headsFor
  have hplain : ∀ name ∈ names.filter condition, IsPlainName name := by
    intro name hname
    obtain ⟨e, hget, -⟩ := (hmem name).1 (List.mem_filter.1 hname).1
    exact htidy.namesPlainly _ name e hget
  obtain ⟨hloses, hfaults⟩ := removeEach_ok hheads hplain h
  refine ⟨hloses.congr fun l => ⟨?_, ?_⟩, hfaults⟩
  · rintro ⟨name, hname, rfl⟩
    obtain ⟨hname, hcondition⟩ := List.mem_filter.1 hname
    exact ⟨name, hcondition, rfl, (hmem name).1 hname⟩
  · rintro ⟨name, hcondition, rfl, hfile⟩
    exact ⟨name, List.mem_filter.2 ⟨(hmem name).2 hfile, hcondition⟩, rfl⟩

/-- The lock file is removed when it is there. -/
theorem Sound.loses_lock (hsound : site.Sound host)
    (h : exec (Lock.remove site.lockFile) host = (.ok (), host')) :
    Files.Loses (fun l => l = site.lock ∧ host.files.HasFile l) host.files host'.files := by
  have hnot := (hsound.remove h).2.2.1 rfl
  rw [Lock.remove, exec_attempt_bind] at h
  rcases hremove : exec (removeFile site.lockFile) host with ⟨outcome, host₁⟩
  rw [hremove] at h
  cases outcome with
  | ok =>
    obtain ⟨-, rfl⟩ := Prod.mk.inj h
    obtain ⟨hop, -⟩ := changing_ok hremove
    obtain ⟨l, hplace, hentry, -⟩ := Files.removeFile_ok hop
    obtain ⟨l', hplace', hloses, -⟩ := Files.loses_removeFile hop
    obtain rfl := Except.ok.inj (hplace.symm.trans hplace')
    obtain rfl := hsound.placed.locate_eq hplace
    refine hloses.restrict (fun l hl => hl.1) ?_
    rintro _ rfl hfile
    cases hget : host.files.get? site.lock with
    | none => rfl
    | some e =>
      cases e with
      | file => exact absurd ⟨rfl, _, hget, rfl⟩ hfile
      | directory mode => exact absurd hget (hentry mode)
      | link target =>
        have hlink := hsound.notLink
        rw [Files.linkAt_eq_some_iff.2 hget] at hlink
        contradiction
  | error failure =>
    -- A lock file that is there is not passed over.
    obtain ⟨hfiles, -⟩ := changing_error hremove
    obtain rfl : host₁ = host' := by
      simp only at h
      split at h <;> exact (Prod.mk.inj h).2
    rw [hfiles] at hnot ⊢
    refine (Files.loses_nothing _).congr fun l => ⟨fun hl => hl.elim, ?_⟩
    rintro ⟨rfl, e, hget, he⟩
    cases e with
    | file contents mode shared => exact hnot ⟨contents, mode, shared, hget⟩
    | directory | link => contradiction

/-- What cleaning comes to: the files of the root whose names match are gone, and the lock file. -/
theorem Sound.clean_ok {tool : Installer} {takes : String → Bool} (hsound : site.Sound host)
    (hreached : site.Reached host.files) (htidy : host.files.Tidy) (hroot : site.root.text ≠ "")
    (hlock : tool.lockFile = site.lockFile) (htakes : takes site.lockName = false)
    (hremove : tool.removeArtifacts = removeMatching site.root takes)
    (h : exec (clean tool) host = (.ok (), host')) :
    site.Sound host' ∧ site.Stays host.files host'.files ∧ host'.faults = host.faults ∧
      Files.Loses (fun l => ∃ name, (takes name = true ∨ name = site.lockName) ∧
        l = site.directory ++ [name] ∧ host.files.HasFile l) host.files host'.files := by
  obtain ⟨⟨⟩, host₁, hartifacts, h⟩ := exec_bind_ok h
  rw [hremove] at hartifacts
  obtain ⟨hloses, hfaults⟩ :=
    removeMatching_ok hroot hreached htidy hsound.honest (exec_within_ok hartifacts)
  have hsame : host₁.files.get? site.lock = host.files.get? site.lock := by
    apply hloses.get?_other
    rintro ⟨name, hname, heq, -⟩
    rw [← Location.child_inj.1 heq, htakes] at hname
    contradiction
  have hstays : site.Stays host.files host₁.files :=
    stays_of_samePassages (hloses.samePassages fun l ⟨_, _, _, hfile⟩ => hfile.passage)
      fun _ => (hloses.tidy htidy).isTree
  have hsound₁ := hsound.of_stays hstays hfaults hsame
  rw [hlock] at h
  obtain ⟨hsound₂, hchanges, -⟩ := hsound₁.remove h
  refine ⟨hsound₂, hstays.trans hchanges.stays, hchanges.faults.trans hfaults,
    (hloses.trans (hsound₁.loses_lock h)).congr fun l => ⟨?_, ?_⟩⟩
  · rintro (⟨name, hname, heq, hfile⟩ | ⟨rfl, hfile⟩)
    · exact ⟨name, .inl hname, heq, hfile⟩
    · rw [Files.HasFile, hsame] at hfile
      exact ⟨site.lockName, .inr rfl, rfl, hfile⟩
  · rintro ⟨name, hname | rfl, rfl, hfile⟩
    · exact .inl ⟨name, hname, rfl, hfile⟩
    · refine .inr ⟨rfl, ?_⟩
      rw [Files.HasFile, ← lock, hsame]
      exact hfile

end Site

/-! ### Moving artifacts -/

theorem Location.Inside.ne_child {d l : Location} {b name : String}
    (h : Location.Inside (d ++ [b]) l) : l ≠ d ++ [name] := by
  rintro rfl
  exact h.2 (h.1.eq_of_length (by simp)).symm

/-- The same files before a move. -/
theorem Files.Moved.congr {fs fs₁ fs' : Files} {target : Location} {e : Entry}
    (h : Files.Moved loc target e fs₁ fs') (hget : ∀ l, fs₁.get? l = fs.get? l)
    (hdir : fs₁.workingDirectory = fs.workingDirectory) : Files.Moved loc target e fs fs' where
  get?_source := (hget loc).symm.trans h.get?_source
  isFile := h.isFile
  get?_target := h.get?_target
  get?_gone := h.get?_gone
  get?_other := fun l hl hl' => (h.get?_other l hl hl').trans (hget l)
  workingDirectory := h.workingDirectory.trans hdir
  free := fun mode => by
    rw [← hget]
    exact h.free mode

/-- Moves files to a directory, each one under its name. -/
def moveFound (root : Path) : List (Path × String) → Build Unit
  | [] => pure ()
  | x :: rest => do
    moveArtifact x.1 (root / x.2)
    moveFound root rest

namespace Site

/-- A file is moved to the root, where its path keeps its place. -/
theorem Lies.moveArtifact_ok (hlies : site.Lies host.files) (hreached : site.Reached host.files)
    (htidy : host.files.Tidy) (hname : IsPlainName name) (hsource : host.files.FixedAt source loc)
    (hfile : ∀ e, host.files.get? loc = some e →
      e.isFile = true ∧ (host.files.get? (site.directory ++ [name])).any e.isSameFile = false)
    (hway : site.directory ++ [name] ∈ site.way →
      host.files.linkAt (site.directory ++ [name]) = none)
    (hne : loc ≠ site.directory ++ [name])
    (h : exec (moveArtifact source (site.root / name)) host = (.ok (), host')) :
    ∃ e, Files.Moved loc (site.directory ++ [name]) e host.files host'.files ∧
      host'.files.Tidy ∧ site.Stays host.files host'.files := by
  obtain ⟨host₁, hget, hdir, htidy₁, hrename⟩ : ∃ host₁,
      (∀ l, host₁.files.get? l = host.files.get? l) ∧
      host₁.files.workingDirectory = host.files.workingDirectory ∧ host₁.files.Tidy ∧
      exec (rename source (site.root / name)) host₁ = (.ok (), host') := by
    rw [moveArtifact] at h
    cases hparent : (site.root / name).parent? with
    | none =>
      rw [hparent] at h
      exact ⟨host, fun _ => rfl, rfl, htidy, exec_within_ok h⟩
    | some parent =>
      rw [hparent] at h
      obtain ⟨⟨⟩, host₁, hcreate, h⟩ := exec_bind_ok h
      obtain ⟨mode, hmode⟩ := hreached.2
      -- The root is there already, and so is all that is above it.
      have hpaved : Archive.Paved host.files site.root site.directory := by
        refine (Files.leadsTo_of_reach_directory hreached.1 hmode).mono fun v hv => ?_
        obtain ⟨e, he⟩ := Option.isSome_iff_exists.1 hv
        rw [(Files.passage_eq_some_iff.1 he).1]
        rfl
      exact ⟨host₁, Archive.createDirectories_above hpaved
        (Path.atOrAbove_of_parent?_child hname hparent) hcreate,
        (createDirectories_makes hcreate).1.workingDirectory, tidy_createDirectories hcreate htidy,
        exec_within_ok h⟩
  have hplace : ∀ l, host₁.files.place (site.root / name) = .ok l →
      l = site.directory ++ [name] := fun l hl =>
    (hlies.of_stays (stays_of_get?_eq hget hdir)).leads.place_eq hname hl
  have hfile₁ : ∀ e, host₁.files.get? loc = some e →
      e.isFile = true ∧ (host₁.files.get? (site.directory ++ [name])).any e.isSameFile = false := by
    simpa only [hget] using hfile
  obtain ⟨e, hmoved, htidy'⟩ := Files.rename_ok htidy₁
    (hsource.of_fewerPassages (Files.fewerPassages_of_get?_eq hget hdir)) hfile₁ hplace hne
    (changing_ok hrename).1
  have hmoved := hmoved.congr hget hdir
  have hpassage : ∀ v ∈ site.way, host'.files.passage v = host.files.passage v := by
    intro v hv
    refine hmoved.passage_eq ?_
    rintro rfl
    exact hway hv
  refine ⟨e, hmoved, htidy', hmoved.workingDirectory, fun _ => htidy'.isTree, ?_, ?_⟩
  · exact fun v hv => Files.linkAt_eq_of_passage_eq (hpassage v hv)
  · intro v hv e he
    rwa [hpassage v hv]

/-- Files inside an entry of the root that can be moved to the root one after the other: their paths
keep their places, and no link on the way to the root is in their new ones. -/
structure Movable (site : Site) (b : String) (spot : Path × String → Location)
    (found : List (Path × String)) (fs : Files) : Prop where
  plain : ∀ x ∈ found, IsPlainName x.2
  nodup : (found.map Prod.snd).Nodup
  way : ∀ x ∈ found, site.directory ++ [x.2] ∈ site.way →
    fs.linkAt (site.directory ++ [x.2]) = none
  inside : ∀ x ∈ found, Location.Inside (site.directory ++ [b]) (spot x)
  fixed : ∀ x ∈ found, fs.FixedAt x.1 (spot x)
  isFile : ∀ x ∈ found, ∀ e, fs.get? (spot x) = some e →
    e.isFile = true ∧ (fs.get? (site.directory ++ [x.2])).any e.isSameFile = false

/-- Files were moved to the root, and nothing else came or went outside of where they had been. -/
structure Brought (site : Site) (b : String) (spot : Path × String → Location)
    (found : List (Path × String)) (fs fs' : Files) : Prop where
  arrives : ∀ x ∈ found, ∃ e, fs.get? (spot x) = some e ∧ e.isFile = true ∧
    fs'.get? (site.directory ++ [x.2]) = some e
  free : ∀ x ∈ found, ∀ mode, fs.get? (site.directory ++ [x.2]) ≠ some (.directory mode)
  get?_other : ∀ v, ¬Location.Inside (site.directory ++ [b]) v →
    (∀ x ∈ found, v ≠ site.directory ++ [x.2]) → fs'.get? v = fs.get? v
  tidy : fs'.Tidy
  stays : site.Stays fs fs'

namespace Movable

variable {b : String} {spot : Path × String → Location} {found : List (Path × String)}
  {x : Path × String} {fs fs' : Files} {e : Entry}

theorem ne_of_mem (h : site.Movable b spot (x :: found) fs) {y : Path × String} (hy : y ∈ found) :
    site.directory ++ [y.2] ≠ site.directory ++ [x.2] := by
  intro heq
  have hnodup := h.nodup
  rw [List.map_cons, List.nodup_cons] at hnodup
  exact hnodup.1 (Location.child_inj.1 heq ▸ List.mem_map_of_mem hy)

/-- What is left can be moved after the first file was. -/
theorem tail (h : site.Movable b spot (x :: found) fs)
    (hmoved : Files.Moved (spot x) (site.directory ++ [x.2]) e fs fs') :
    site.Movable b spot found fs' := by
  have htarget : ∀ y ∈ found,
      fs'.get? (site.directory ++ [y.2]) = fs.get? (site.directory ++ [y.2]) := fun y hy =>
    hmoved.get?_other _ (h.inside x List.mem_cons_self).ne_child.symm (h.ne_of_mem hy)
  refine ⟨fun y hy => h.plain y (List.mem_cons_of_mem _ hy), (List.nodup_cons.1 h.nodup).2, ?_,
    fun y hy => h.inside y (List.mem_cons_of_mem _ hy),
    fun y hy => (h.fixed y (List.mem_cons_of_mem _ hy)).of_fewerPassages hmoved.fewerPassages, ?_⟩
  · intro y hy hway
    rw [Files.linkAt_eq_of_get?_eq (htarget y hy)]
    exact h.way y (List.mem_cons_of_mem _ hy) hway
  · intro y hy e he
    rw [htarget y hy]
    refine h.isFile y (List.mem_cons_of_mem _ hy) e ?_
    by_cases hl : spot y = spot x
    · rw [hl, hmoved.get?_gone] at he
      contradiction
    · rwa [hmoved.get?_other _ hl (h.inside y (List.mem_cons_of_mem _ hy)).ne_child] at he

/-- What moving files to a root comes to. -/
theorem brought (h : site.Movable b spot found host.files) (hlies : site.Lies host.files)
    (hreached : site.Reached host.files) (htidy : host.files.Tidy)
    (hrun : exec (moveFound site.root found) host = (.ok (), host')) :
    site.Brought b spot found host.files host'.files := by
  induction found generalizing host with
  | nil =>
    obtain ⟨-, rfl⟩ := Prod.mk.inj hrun
    exact ⟨by simp, by simp, fun _ _ _ => rfl, htidy, Stays.refl site _⟩
  | cons x rest ih =>
    obtain ⟨⟨⟩, host₁, hmove, hrun⟩ := exec_bind_ok hrun
    have hinside := h.inside x List.mem_cons_self
    obtain ⟨e, hmoved, htidy₁, hstays⟩ := hlies.moveArtifact_ok hreached htidy
      (h.plain x List.mem_cons_self) (h.fixed x List.mem_cons_self) (h.isFile x List.mem_cons_self)
      (h.way x List.mem_cons_self) hinside.ne_child hmove
    have hrest := ih (h.tail hmoved) (hlies.of_stays hstays) (hreached.of_stays hlies hstays) htidy₁
      hrun
    refine ⟨?_, ?_, ?_, hrest.tidy, hstays.trans hrest.stays⟩
    · intro y hy
      rcases List.mem_cons.1 hy with rfl | hy
      · refine ⟨e, hmoved.get?_source, hmoved.isFile, ?_⟩
        rw [hrest.get?_other _ (fun hbelow => hbelow.ne_child rfl)
          fun z hz => (h.ne_of_mem hz).symm, hmoved.get?_target]
      · obtain ⟨e', hget, hisFile, harrives⟩ := hrest.arrives y hy
        refine ⟨e', ?_, hisFile, harrives⟩
        -- What is moved next was not the first file, which is gone.
        have hne : spot y ≠ spot x := by
          intro heq
          rw [heq, hmoved.get?_gone] at hget
          cases hget
        rwa [hmoved.get?_other _ hne (h.inside y (List.mem_cons_of_mem _ hy)).ne_child] at hget
    · intro y hy
      rcases List.mem_cons.1 hy with rfl | hy
      · exact hmoved.free
      · rw [← hmoved.get?_other _ hinside.ne_child.symm (h.ne_of_mem hy)]
        exact hrest.free y hy
    · intro v hv hother
      rw [hrest.get?_other v hv fun y hy => hother y (List.mem_cons_of_mem _ hy)]
      refine hmoved.get?_other v ?_ (hother x List.mem_cons_self)
      rintro rfl
      exact hv hinside

end Movable

end Site

/-! ### The machine -/

theorem sameMachine_removeEach {dir : Path} {names : List String} :
    Always SameMachine (removeEach dir names) := by
  induction names with
  | nil => exact Always.pure chains_sameMachine _
  | cons name rest ih => exact Always.bind chains_sameMachine sameMachine_changing fun _ => ih

theorem sameMachine_fileNames {dir : Path} : Always SameMachine (fileNames dir) := by
  refine Always.bind chains_sameMachine sameMachine_reading.attempt fun listed => ?_
  cases listed with
  | ok => exact Always.pure chains_sameMachine _
  | error failure =>
    simp only
    split
    · exact Always.pure chains_sameMachine _
    · exact Always.throw chains_sameMachine _

theorem sameMachine_removeMatching {dir : Path} {condition : String → Bool} :
    Always SameMachine (removeMatching dir condition) :=
  Always.bind chains_sameMachine sameMachine_fileNames fun _ => sameMachine_removeEach

theorem sameMachine_moveArtifact {source target : Path} :
    Always SameMachine (moveArtifact source target) := by
  rw [moveArtifact]
  split
  · exact Always.bind chains_sameMachine sameMachine_createDirectories fun _ =>
      Always.within sameMachine_changing
  · exact Always.within sameMachine_changing

theorem sameMachine_moveFound {root : Path} {found : List (Path × String)} :
    Always SameMachine (moveFound root found) := by
  induction found with
  | nil => exact Always.pure chains_sameMachine _
  | cons x rest ih => exact Always.bind chains_sameMachine sameMachine_moveArtifact fun _ => ih

end RamlBuild
