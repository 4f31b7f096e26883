import Mathlib.Data.List.Perm.Subperm
import RamlBuild.Proofs.Build.Files
import RamlBuild.Proofs.Files.DeadEnds
import RamlBuild.Proofs.Files.Listing
import RamlBuild.Proofs.Files.Names

/-!
# Directories that take files

A file is replaced by way of a temporary one beside it. Where a directory takes files, nothing but a
fault of the host can keep a file of it from being replaced; and it goes on to take them afterwards.

## Main definitions

* `Files.TakesFiles` — a directory whose files can be replaced

## Main results

* `Files.temporaryPath_of_free`, `Files.temporaryPath_of_taken` — the label of a temporary path
* `Files.TakesFiles.of_replaced` — a directory takes files after one of them was replaced
* `Build.exec_writeAtomically_child` — replacing a file of such a directory succeeds
* `Build.takesFiles_of_writeAtomically` — a directory of which a file was replaced
-/

namespace RamlBuild

open Build

namespace Files

variable {fs fs' : Files} {dir p : Path} {start ending name other : String} {loc target : Location}
  {contents : ByteArray} {mode m n : Nat}

/-! ### Temporary paths -/

theorem slash_not_mem_temporaryLabel : '/' ∉ (temporaryLabel n).toList := by
  cases n with
  | zero => decide
  | succ n =>
    rw [temporaryLabel, String.toList_append, List.mem_append, not_or]
    refine ⟨by decide, ?_⟩
    intro hmem
    have hdigit := Nat.isDigit_of_mem_toDigits (by decide) (by decide)
      (show '/' ∈ Nat.toDigits 10 (n + 1) by simpa using hmem)
    contradiction

/-- A name with a temporary label can be a step of a path. -/
theorem isPlainName_temporary (hstart : '/' ∉ start.toList) (hending : '/' ∉ ending.toList)
    (n : Nat) : IsPlainName (start ++ temporaryLabel n ++ ending) := by
  have hlabel : 'X' ∈ (start ++ temporaryLabel n ++ ending).toList := by
    rw [String.toList_append, String.toList_append]
    refine List.mem_append_left _ (List.mem_append_right _ ?_)
    cases n with
    | zero => decide
    | succ n =>
      rw [temporaryLabel, String.toList_append]
      exact List.mem_append_left _ (by decide)
  refine ⟨?_, ?_, ?_, ?_⟩
  · intro heq
    rw [heq] at hlabel
    contradiction
  · intro heq
    rw [heq] at hlabel
    exact absurd hlabel (by decide)
  · intro heq
    rw [heq] at hlabel
    exact absurd hlabel (by decide)
  · rw [String.toList_append, String.toList_append, List.mem_append, List.mem_append]
    rintro ((hmem | hmem) | hmem)
    · exact hstart hmem
    · exact slash_not_mem_temporaryLabel hmem
    · exact hending hmem

/-- The path of a temporary entry with one of the labels. -/
def labeledPath (fs : Files) (dir : Path) (start ending : String) (n : Nat) : Path :=
  fs.workingDirectory.path / dir / (start ++ temporaryLabel n ++ ending)

/-- A temporary path that is free has the first label that is. -/
theorem temporaryPath_of_free (h : fs.freePlace (fs.temporaryPath dir start ending) = .ok loc) :
    ∃ n, n ≤ fs.entries.length ∧
      fs.temporaryPath dir start ending = fs.labeledPath dir start ending n ∧
      fs.hasEntry (fs.labeledPath dir start ending n) = false ∧
      ∀ m, m < n → fs.hasEntry (fs.labeledPath dir start ending m) = true := by
  obtain ⟨hplace, hfree⟩ := freePlace_ok h
  have hnot : fs.hasEntry (fs.temporaryPath dir start ending) = false := by
    rw [hasEntry, hplace]
    simp [hfree]
  unfold temporaryPath at hnot ⊢
  unfold labeledPath
  simp only at hnot ⊢
  cases hfind : (List.range fs.entries.length).find? fun n =>
      !fs.hasEntry (fs.workingDirectory.path / dir / (start ++ temporaryLabel n ++ ending)) with
  | some n =>
    rw [hfind] at hnot
    obtain ⟨-, hmem, hbefore⟩ := List.find?_range_eq_some.1 hfind
    exact ⟨n, Nat.le_of_lt (List.mem_range.1 hmem), rfl, hnot, fun m hm => by simpa using hbefore m hm⟩
  | none =>
    rw [hfind] at hnot
    refine ⟨_, Nat.le_refl _, rfl, hnot, fun m hm => ?_⟩
    simpa using List.find?_range_eq_none.1 hfind m hm

/-- The first label that is free is the one of the temporary path. -/
theorem temporaryPath_of_taken (hn : n ≤ fs.entries.length)
    (hfree : fs.hasEntry (fs.labeledPath dir start ending n) = false)
    (htaken : ∀ m, m < n → fs.hasEntry (fs.labeledPath dir start ending m) = true) :
    fs.temporaryPath dir start ending = fs.labeledPath dir start ending n := by
  unfold labeledPath at hfree htaken
  unfold temporaryPath labeledPath
  simp only
  rcases Nat.lt_or_eq_of_le hn with hlt | heq
  · rw [List.find?_range_eq_some.2 ⟨by simpa using hfree, List.mem_range.2 hlt,
      fun m hm => by simpa using htaken m hm⟩]
    rfl
  · rw [List.find?_range_eq_none.2 fun m hm => by simpa using htaken m (heq ▸ hm), heq]
    rfl

/-- No entry is lost when a file is replaced. -/
theorem Replaced.length_le (h : Replaced fs fs' target contents mode) (hdistinct : fs.Distinct) :
    fs.entries.length ≤ fs'.entries.length := by
  have hsubset : fs.entries.map Prod.fst ⊆ fs'.entries.map Prod.fst := by
    intro l hl
    obtain ⟨⟨l', e⟩, hmem, rfl⟩ := List.mem_map.1 hl
    have hne : l' ≠ [] := fun hnil => hdistinct.2 (hnil ▸ List.mem_map_of_mem hmem)
    have hget := (hdistinct.get?_eq_some_iff hne).2 hmem
    have hsome : ∃ e', fs'.get? l' = some e' := by
      by_cases hl' : l' = target
      · exact ⟨_, hl' ▸ h.get?_target⟩
      · exact ⟨e, (h.get?_other l' hl').trans hget⟩
    obtain ⟨e', hget'⟩ := hsome
    have hmem' := ((h.distinct hdistinct).get?_eq_some_iff hne).1 hget'
    exact List.mem_map.2 ⟨(l', e'), hmem', rfl⟩
  have hle := (List.Nodup.subperm hdistinct.1 hsubset).length_le
  rwa [List.length_map, List.length_map] at hle

/-- Where a file is replaced, entries stay. -/
theorem hasEntry_child_of_replaced (h : Replaced fs fs' target contents mode)
    (hdead : ¬fs.LinksToDirectory target) (hname : IsPlainName name)
    (hentry : fs.hasEntry (p / name) = true) : fs'.hasEntry (p / name) = true := by
  unfold hasEntry at hentry ⊢
  cases hplace : fs.place (p / name) with
  | error error =>
    rw [hplace] at hentry
    contradiction
  | ok l =>
    rw [hplace] at hentry
    rw [place_child_of_replaced h hdead hname hplace]
    simp only at hentry ⊢
    by_cases hl : l = target
    · rw [hl, h.get?_target]
      rfl
    · rwa [h.get?_other l hl]

/-! ### Directories that take files -/

/-- The name of a temporary file with one of the labels. -/
def temporaryName (n : Nat) : String :=
  ".forge-" ++ temporaryLabel n ++ ".tmp"

theorem isPlainName_temporaryName (n : Nat) : IsPlainName (temporaryName n) :=
  isPlainName_temporary (by decide) (by decide) n

/-- A path leads to a directory whose entries may be changed, and temporary files find a place in
it. -/
structure TakesFiles (fs : Files) (dir : Path) (loc : Location) : Prop where
  reach : fs.reach dir = .ok loc
  isDirectory : ∃ mode, fs.get? loc = some (.directory mode)
  mayChange : fs.mayChange loc = true
  freePlace : ∃ l, fs.freePlace (fs.temporaryPath dir ".forge-" ".tmp") = .ok l

theorem mayChange_of_freePlace (h : fs.freePlace p = .ok loc) :
    fs.mayChange loc.dropLast = true := by
  unfold freePlace at h
  cases hplace : fs.place p with
  | error error =>
    rw [hplace] at h
    cases h
  | ok l =>
    simp only [hplace, bind, Except.bind] at h
    cases hget : fs.get? l with
    | some e =>
      simp only [hget] at h
      cases h
    | none =>
      simp only [hget] at h
      split at h
      · rename_i hmay
        rwa [← Except.ok.inj h]
      · cases h

theorem freePlace_eq_ok_iff : fs.freePlace p = .ok loc ↔
    fs.place p = .ok loc ∧ fs.get? loc = none ∧ fs.mayChange loc.dropLast = true := by
  constructor
  · intro h
    obtain ⟨hplace, hfree⟩ := freePlace_ok h
    exact ⟨hplace, hfree, mayChange_of_freePlace h⟩
  · rintro ⟨hplace, hfree, hmay⟩
    simp only [freePlace, hplace, hfree, bind, Except.bind]
    rw [if_pos hmay]

theorem Replaced.mayChange (h : Replaced fs fs' target contents mode)
    (hdir : fs.get? loc = some (.directory n)) : fs'.mayChange loc = fs.mayChange loc := by
  rw [Files.mayChange, Files.mayChange, hdir, h.get?_directory hdir]

/-- A temporary file finds a place where it did, unless a file was put there. -/
theorem freePlace_temporaryPath_of_replaced (h : Replaced fs fs' target contents mode)
    (hdistinct : fs.Distinct) (hdead : ¬fs.LinksToDirectory target)
    (htarget : ∀ l n, target ≠ l ++ [temporaryName n])
    (hfree : fs.freePlace (fs.temporaryPath dir ".forge-" ".tmp") = .ok loc) :
    fs'.freePlace (fs'.temporaryPath dir ".forge-" ".tmp") = .ok loc := by
  obtain ⟨n, hn, hpath, hnone, htaken⟩ := temporaryPath_of_free hfree
  have hlabeled : ∀ m, fs'.labeledPath dir ".forge-" ".tmp" m =
      fs.labeledPath dir ".forge-" ".tmp" m := by
    intro m
    rw [labeledPath, labeledPath, h.workingDirectory]
  rw [hpath] at hfree
  obtain ⟨hplace, hget, hmay⟩ := freePlace_eq_ok_iff.1 hfree
  have hplace' : fs'.place (fs.labeledPath dir ".forge-" ".tmp" n) = .ok loc :=
    place_child_of_replaced h hdead (isPlainName_temporaryName n) hplace
  -- The place is in a directory, and the file that was replaced is no temporary one.
  obtain ⟨-, parent, -, hstep⟩ := (place_child_iff (isPlainName_temporaryName n)).1 hplace
  obtain ⟨rfl, -, mode', hparent, -⟩ := takeStep_name_iff.1 hstep
  have hget' : fs'.get? (parent ++ [temporaryName n]) = none := by
    rw [h.get?_other _ (Ne.symm (htarget parent n)), hget]
  have hfree' : fs'.freePlace (fs.labeledPath dir ".forge-" ".tmp" n) =
      .ok (parent ++ [temporaryName n]) := by
    refine freePlace_eq_ok_iff.2 ⟨hplace', hget', ?_⟩
    rw [List.dropLast_concat] at hmay ⊢
    rw [h.mayChange hparent, hmay]
  have hpath' : fs'.temporaryPath dir ".forge-" ".tmp" =
      fs'.labeledPath dir ".forge-" ".tmp" n := by
    refine temporaryPath_of_taken (Nat.le_trans hn (h.length_le hdistinct)) ?_ fun m hm => ?_
    · rw [hlabeled, hasEntry, hplace']
      simp [hget']
    · rw [hlabeled]
      exact hasEntry_child_of_replaced h hdead (isPlainName_temporaryName m) (htaken m hm)
  rw [hpath', hlabeled, hfree']

/-- A directory goes on to take files after one was replaced that is no temporary file itself. -/
theorem TakesFiles.of_replaced (htakes : fs.TakesFiles dir loc)
    (h : Replaced fs fs' target contents mode) (hdistinct : fs.Distinct)
    (hdead : ¬fs.LinksToDirectory target) (htarget : ∀ l n, target ≠ l ++ [temporaryName n]) :
    fs'.TakesFiles dir loc := by
  obtain ⟨mode', hdir⟩ := htakes.isDirectory
  obtain ⟨l, hfree⟩ := htakes.freePlace
  exact ⟨reach_of_replaced h hdead htakes.reach hdir, ⟨mode', h.get?_directory hdir⟩,
    by rw [h.mayChange hdir, htakes.mayChange],
    ⟨l, freePlace_temporaryPath_of_replaced h hdistinct hdead htarget hfree⟩⟩

/-! ### Moving a file to its place -/

theorem endsUnnamed_child (h : IsPlainName name) : endsUnnamed (p / name) = false := by
  rw [endsUnnamed, dropSlashes_of_not_endsInSlash (Path.endsInSlash_child h), Path.steps_child h,
    List.getLast?_concat]

/-- A file is moved to the place of what is no directory, where the entries of both directories may
be changed. -/
theorem moveTo_child_ok (htree : fs.IsTree) (hloc : fs.get? loc = some (.file contents mode none))
    (hname : IsPlainName name) (hplace : fs.place (p / name) = .ok target)
    (htarget : ∀ mode, fs.get? target ≠ some (.directory mode))
    (hmay : fs.mayChange loc.dropLast = true) (hmay' : fs.mayChange target.dropLast = true) :
    ∃ fs', fs.moveTo loc (p / name) = .ok fs' := by
  have hslash := Path.endsInSlash_child (p := p) hname
  have hentry : fs.entryAt loc = .ok (.file contents mode none) := by rw [entryAt, hloc]
  unfold moveTo
  rw [dropSlashes_of_not_endsInSlash hslash, hplace, hslash, endsUnnamed_child hname]
  simp only [hentry, bind, Except.bind, Bool.false_eq_true, if_false, Bool.and_false]
  split
  · exact ⟨fs, rfl⟩
  · rename_i hother
    have hne : loc ≠ target := by
      rintro rfl
      simp at hother
    -- Nothing is below what is no directory, so the file is not.
    have hprefix : target.isPrefixOf loc = false := by
      rw [Bool.eq_false_iff]
      intro hprefix
      obtain ⟨names, rfl⟩ := List.isPrefixOf_iff_prefix.1 hprefix
      have hnone := htree.get?_eq_none htarget fun hnil : names = [] => hne (by simp [hnil])
      rw [hnone] at hloc
      contradiction
    simp only [Entry.isDirectory, Bool.and_false, Bool.false_eq_true, if_false, hprefix, hmay, hmay',
      Bool.and_self, Bool.not_true]
    cases hget : fs.get? target with
    | none => exact ⟨_, rfl⟩
    | some e =>
      cases e with
      | directory mode => exact absurd hget (htarget mode)
      | file | link => exact ⟨_, rfl⟩

/-- What a file was moved to stands in a directory whose entries may be changed. -/
theorem mayChange_of_moveTo (hloc : fs.get? loc = some (.file contents mode none))
    (hname : IsPlainName name) (hplace : fs.place (p / name) = .ok target) (hne : target ≠ loc)
    (h : fs.moveTo loc (p / name) = .ok fs') : fs.mayChange target.dropLast = true := by
  have hslash := Path.endsInSlash_child (p := p) hname
  have hentry : fs.entryAt loc = .ok (.file contents mode none) := by rw [entryAt, hloc]
  have hother : (fs.get? target).any (Entry.isSameFile (.file contents mode none)) = false := by
    cases fs.get? target <;> rfl
  unfold moveTo at h
  rw [dropSlashes_of_not_endsInSlash hslash, hplace, hslash, endsUnnamed_child hname] at h
  simp only [hentry, bind, Except.bind, Bool.false_eq_true, if_false, Bool.and_false, hother,
    Bool.or_false, decide_eq_true_eq, if_neg hne, Entry.isDirectory] at h
  split at h
  · contradiction
  · split at h
    · contradiction
    · rename_i hmay
      simp only [Bool.not_eq_true', Bool.not_eq_false, Bool.and_eq_true] at hmay
      exact hmay.2

/-- The place of an entry stands in the directory of its path. -/
theorem directory_of_place_child (hname : IsPlainName name) (h : fs.place (p / name) = .ok target) :
    ∃ dir mode, target = dir ++ [name] ∧ fs.reach p = .ok dir ∧
      fs.get? dir = some (.directory mode) := by
  obtain ⟨-, dir, hreach, hstep⟩ := (place_child_iff hname).1 h
  obtain ⟨rfl, -, mode, hdir, -⟩ := takeStep_name_iff.1 hstep
  exact ⟨dir, mode, rfl, hreach, hdir⟩

/-- A place that is free for a temporary file is an entry of a directory. -/
theorem directory_of_freePlace
    (h : fs.freePlace (fs.temporaryPath dir ".forge-" ".tmp") = .ok loc) :
    ∃ parent mode n, loc = parent ++ [temporaryName n] ∧ fs.get? parent = some (.directory mode) := by
  obtain ⟨n, -, hpath, -, -⟩ := temporaryPath_of_free h
  rw [hpath] at h
  obtain ⟨parent, mode, rfl, -, hparent⟩ :=
    directory_of_place_child (isPlainName_temporaryName n) (freePlace_ok h).1
  exact ⟨parent, mode, n, rfl, hparent⟩

/-- A tree with one more file in a directory is one. -/
theorem AgreeOff.isTree (h : AgreeOff (loc ++ [name]) fs fs') (htree : fs.IsTree)
    (hdir : fs.get? loc = some (.directory n)) (hfree : fs.get? (loc ++ [name]) = none)
    (hfile : fs'.get? (loc ++ [name]) = some (.file contents mode none)) : fs'.IsTree := by
  have hput : (fs.put (loc ++ [name]) (.file contents mode none)).IsTree :=
    htree.put hdir (by simp [hfree])
  apply hput.congr
  intro l
  rw [get?_put h.ne_nil]
  split
  · rename_i hl
    rw [hl, hfile]
  · rename_i hl
    exact h.get?_eq l hl

/-- Where nothing was, a file does not keep paths from their places. -/
theorem AgreeOff.place_eq (h : AgreeOff loc fs fs') (hfree : fs.get? loc = none)
    (hfile : fs'.get? loc = some (.file contents mode none)) (hplace : fs.place p = .ok target) :
    fs'.place p = .ok target :=
  (locate_eq_ok_iff (h.samePassages (passage_of_none hfree) (passage_of_file hfile))).2 hplace

theorem AgreeOff.get?_of_isSome (h : AgreeOff loc fs fs') (hfree : fs.get? loc = none) {e : Entry}
    (he : fs.get? target = some e) : fs'.get? target = some e := by
  rw [h.get?_eq, he]
  rintro rfl
  rw [hfree] at he
  contradiction

end Files

namespace Build

variable {host host' : Host}

/-! ### Replacing files of such directories -/

/-- Only faults keep a temporary file from getting the permissions of its target. -/
theorem exec_adoptMode_of_quiet (hquiet : ∀ n, host.faults n = none) (loc : Location) (p : Path) :
    ∃ host', exec (adoptMode loc p) host = (.ok (), host') := by
  simp only [adoptMode, holds, exec_asking_bind]
  split
  · simp only [exec_bind, exec_reading, exec_changing, hquiet, Except.mapError, faults_counted]
    exact ⟨_, rfl⟩
  · exact ⟨host, rfl⟩

/-- Only faults keep a temporary file from being prepared. -/
theorem exec_prepareTemporary_of_quiet (hquiet : ∀ n, host.faults n = none) (loc : Location)
    (p : Path) (text : String) :
    ∃ host', exec (prepareTemporary loc p text) host = (.ok (), host') := by
  simp only [prepareTemporary, exec_bind, exec_within, exec_changing, exec_operation, hquiet,
    Except.mapError, faults_counted]
  apply exec_adoptMode_of_quiet
  exact hquiet

variable {fs : Files} {dir p : Path} {name other : String} {loc l target : Location} {mode n : Nat}

/-- The host after an empty temporary file was made. -/
def withTemporary (host : Host) (loc : Location) : Host :=
  { counted host with files := host.files.put loc (.file .empty temporaryMode none) }

theorem exec_createTemporary (hquiet : ∀ n, host.faults n = none)
    (hfree : host.files.freePlace (host.files.temporaryPath dir ".forge-" ".tmp") = .ok loc) :
    exec (createTemporary dir) host = (.ok loc, withTemporary host loc) := by
  rw [createTemporary, exec_files_bind]
  simp only [exec_bind, exec_reading, hquiet, hfree, Except.mapError]
  rfl

/-- Only faults keep a temporary file from taking its place, where the directories may be changed. -/
theorem exec_completeTemporary_child (hquiet : ∀ n, host.faults n = none)
    (hagree : Files.AgreeOff (loc ++ [other]) fs host.files) (htree : fs.IsTree)
    (hdir : fs.get? loc = some (.directory n)) (hmay : fs.mayChange loc = true)
    (hfree : fs.get? (loc ++ [other]) = none)
    (hempty : host.files.get? (loc ++ [other]) = some (.file .empty temporaryMode none))
    (hname : IsPlainName name) (hplace : fs.place (p / name) = .ok (l ++ [name]))
    (hdir' : fs.get? l = some (.directory mode)) (hmay' : fs.mayChange l = true)
    (htarget : ∀ mode, fs.get? (l ++ [name]) ≠ some (.directory mode)) (text : String) :
    ∃ host', exec (completeTemporary (loc ++ [other]) (p / name) text) host = (.ok (), host') := by
  obtain ⟨host₁, hprepare⟩ := exec_prepareTemporary_of_quiet hquiet (loc ++ [other]) (p / name) text
  obtain ⟨htouches, hprepared⟩ := prepareTemporary_result hagree.ne_nil hempty hprepare
  obtain ⟨mode₁, hfile⟩ : ∃ mode, host₁.files.get? (loc ++ [other]) =
      some (.file text.toUTF8 mode none) := by
    obtain ⟨fs₁, -, -, hfile⟩ := hprepared rfl
    exact ⟨_, hfile⟩
  have hagree₁ := hagree.trans htouches.agree
  have hplace₁ := hagree₁.place_eq hfree hfile hplace
  have htarget₁ : ∀ mode, host₁.files.get? (l ++ [name]) ≠ some (.directory mode) := by
    intro mode hdirectory
    by_cases hl : l ++ [name] = loc ++ [other]
    · rw [hl, hfile] at hdirectory
      exact absurd hdirectory (by simp)
    · rw [hagree₁.get?_eq _ hl] at hdirectory
      exact htarget mode hdirectory
  have hmay₁ : host₁.files.mayChange loc = true := by
    rwa [Files.mayChange, hagree₁.get?_of_isSome hfree hdir, ← hdir]
  have hmay₁' : host₁.files.mayChange l = true := by
    rwa [Files.mayChange, hagree₁.get?_of_isSome hfree hdir', ← hdir']
  obtain ⟨fs₂, hmove⟩ := Files.moveTo_child_ok (hagree₁.isTree htree hdir hfree hfile) hfile hname
    hplace₁ htarget₁ (by rwa [List.dropLast_concat]) (by rwa [List.dropLast_concat])
  refine ⟨{ counted host₁ with files := fs₂ }, ?_⟩
  rw [completeTemporary_eq, exec_bind_of_ok hprepare]
  simp only [exec_within, exec_changing, htouches.faults, hquiet, hmove, Except.mapError]

/-- Where a directory takes files, only faults keep a file of it from being replaced. -/
theorem exec_writeAtomically_child (hquiet : ∀ n, host.faults n = none)
    (htree : host.files.IsTree) (hname : IsPlainName name) (hother : IsPlainName other)
    (htakes : host.files.TakesFiles (p / other) l)
    (hplace : host.files.place (p / other / name) = .ok target)
    (htarget : ∀ mode, host.files.get? target ≠ some (.directory mode)) (text : String) :
    ∃ host', exec (writeAtomically (p / other / name) text) host = (.ok (), host') := by
  obtain ⟨dir, mode, rfl, hreach, hdir⟩ := Files.directory_of_place_child hname hplace
  obtain rfl := Except.ok.inj (hreach.symm.trans htakes.reach)
  obtain ⟨_, hfree⟩ := htakes.freePlace
  obtain ⟨parent, mode', n, rfl, hparent⟩ := Files.directory_of_freePlace hfree
  obtain ⟨-, hnone, hmay⟩ := Files.freePlace_eq_ok_iff.1 hfree
  rw [List.dropLast_concat] at hmay
  have hne := Files.ne_nil_of_get?_eq_none hnone
  rw [writeAtomically_eq, Path.directory_child hname hother, exec_bind, exec_within,
    exec_createTemporary hquiet hfree]
  simp only [Except.mapError, exec_cleaningUp]
  obtain ⟨host', hcomplete⟩ := @exec_completeTemporary_child
    (withTemporary host (parent ++ [Files.temporaryName n])) _ _ _ _ _ _ _ _ hquiet
    (Files.AgreeOff.put hne) htree hparent hmay hnone (Files.get?_put_self hne) hname hplace hdir
    htakes.mayChange htarget text
  exact ⟨host', by rw [hcomplete]⟩

theorem freePlace_of_createTemporary (h : exec (createTemporary dir) host = (.ok loc, host')) :
    host.files.freePlace (host.files.temporaryPath dir ".forge-" ".tmp") = .ok loc := by
  rw [createTemporary, exec_files_bind] at h
  obtain ⟨loc', host₁, hread, h⟩ := exec_bind_ok h
  obtain ⟨-, hfree⟩ := reading_result hread
  rw [exec_modify_bind, exec_pure] at h
  obtain rfl := Except.ok.inj (Prod.mk.inj h).1
  exact hfree loc' rfl

/-- A directory of which a file was replaced takes files. -/
theorem takesFiles_of_writeAtomically {text : String} (hname : IsPlainName name)
    (hother : IsPlainName other)
    (h : exec (writeAtomically (p / other / name) text) host = (.ok (), host')) :
    ∃ l, host.files.place (p / other / name) = .ok (l ++ [name]) ∧
      host.files.TakesFiles (p / other) l := by
  obtain ⟨target, hplace, -, -⟩ := writeAtomically_ok h
  obtain ⟨l, mode, rfl, hreach, hdir⟩ := Files.directory_of_place_child hname hplace
  rw [writeAtomically_eq, Path.directory_child hname hother] at h
  obtain ⟨loc, host₁, hcreate, h⟩ := exec_bind_ok h
  have hcreate := exec_within_ok hcreate
  obtain ⟨hnone, hfiles, -⟩ := createTemporary_ok hcreate
  have hfree := freePlace_of_createTemporary hcreate
  have hne := Files.ne_nil_of_get?_eq_none hnone
  refine ⟨l, hplace, hreach, ⟨mode, hdir⟩, ?_, loc, hfree⟩
  by_cases hl : l ++ [name] = loc
  · -- The temporary file stands in the place of the file.
    have hmay := Files.mayChange_of_freePlace hfree
    rwa [← hl, List.dropLast_concat] at hmay
  · rw [exec_cleaningUp] at h
    rcases hcomplete : exec (completeTemporary loc (p / other / name) text) host₁ with
      ⟨_ | ⟨⟨⟩⟩, host₂⟩
    · rw [hcomplete] at h
      exact absurd (Prod.mk.inj h).1 (by simp)
    · rw [completeTemporary_eq] at hcomplete
      obtain ⟨⟨⟩, host₃, hprepare, hmove⟩ := exec_bind_ok hcomplete
      have hempty : host₁.files.get? loc = some (.file .empty temporaryMode none) := by
        rw [hfiles, Files.get?_put_self hne]
      obtain ⟨htouches, hprepared⟩ := prepareTemporary_result hne hempty hprepare
      obtain ⟨fs₁, -, -, hfile⟩ := hprepared rfl
      have hagree : Files.AgreeOff loc host.files host₃.files := by
        refine Files.AgreeOff.trans ?_ htouches.agree
        rw [hfiles]
        exact Files.AgreeOff.put hne
      have hmay := Files.mayChange_of_moveTo hfile hname (hagree.place_eq hnone hfile hplace) hl
        (changing_ok (exec_within_ok hmove)).1
      rwa [List.dropLast_concat, Files.mayChange, hagree.get?_of_isSome hnone hdir, ← hdir] at hmay

end Build

end RamlBuild
