import RamlBuild.Build.Files
import RamlBuild.Proofs.Build.Exec
import RamlBuild.Proofs.Files.Replace

/-!
# What work on files does

Reading leaves the files alone. A file that is replaced as a whole holds the new text or is as it
was, and whatever else there is stays in either case.

## Main results

* `Build.exec_readText`, `Build.readText_ok` — reading the text of a file
* `Build.writeAtomically_ok`, `Build.files_of_writeAtomically_error` — replacing a file, or failing to
* `Build.rewrite_ok` — rewriting a file
-/

namespace RamlBuild.Build

variable {α β : Type} {host host' : Host} {p dir : Path} {loc : Location} {text : String}
  {failure : Failure}

/-! ### Reading -/

/-- A text is what is read from its bytes. -/
theorem fromUTF8?_toUTF8 (text : String) : String.fromUTF8? text.toUTF8 = some text := by
  rw [String.fromUTF8?, String.toUTF8_eq_toByteArray, dif_pos text.isValidUTF8]
  rfl

/-- The text of the file that a path leads to. -/
def textAt (fs : Files) (p : Path) : Except IoError (Option String) :=
  (fs.readFile p).map String.fromUTF8?

/-- Reading a text counts an operation and leaves the files alone. -/
theorem exec_readText (p : Path) (host : Host) :
    exec (readText p) host =
      (match host.faults host.operations with
        | some error => .error (.of (.io error s!"failed to open file `{p}`"))
        | none =>
          match textAt host.files p with
          | .ok (some text) => .ok text
          | .ok none => .error (.of (.io .invalidData s!"failed to read from file `{p}`"))
          | .error error => .error (.of (.io error s!"failed to open file `{p}`")),
      counted host) := by
  rw [readText, exec_bind, readBytes, exec_reading, textAt]
  cases host.faults host.operations with
  | some error => rfl
  | none =>
    cases host.files.readFile p with
    | error error => rfl
    | ok bytes =>
      simp only [Except.mapError, Except.map]
      cases String.fromUTF8? bytes <;> rfl

theorem readText_ok (h : exec (readText p) host = (.ok text, host')) :
    textAt host.files p = .ok (some text) ∧ host' = counted host := by
  rw [exec_readText] at h
  obtain ⟨hresult, rfl⟩ := Prod.mk.inj h
  refine ⟨?_, rfl⟩
  split at hresult
  · contradiction
  · split at hresult
    · rename_i htext
      rw [htext, Except.ok.inj hresult]
    · contradiction
    · contradiction

/-! ### Replacing a file -/

/-- An operation that succeeds leaves the files that it gives, and nothing else has changed but the
count of operations. -/
theorem changing_ok_eq {attempt : String} {op : Files → Except IoError Files}
    (h : exec (changing attempt op) host = (.ok (), host')) :
    op host.files = .ok host'.files ∧ host' = { counted host with files := host'.files } := by
  rw [exec_changing] at h
  split at h
  · split at h
    · rename_i after hop
      obtain ⟨-, rfl⟩ := Prod.mk.inj h
      exact ⟨hop, rfl⟩
    · exact absurd (Prod.mk.inj h).1 (by simp)
  · exact absurd (Prod.mk.inj h).1 (by simp)

theorem changing_ok {attempt : String} {op : Files → Except IoError Files}
    (h : exec (changing attempt op) host = (.ok (), host')) :
    op host.files = .ok host'.files ∧ host'.faults = host.faults := by
  obtain ⟨hop, heq⟩ := changing_ok_eq h
  exact ⟨hop, by rw [heq]; rfl⟩

theorem changing_error {attempt : String} {op : Files → Except IoError Files}
    (h : exec (changing attempt op) host = (.error failure, host')) :
    host'.files = host.files ∧ host'.faults = host.faults := by
  rw [exec_changing] at h
  split at h
  · split at h
    · exact absurd (Prod.mk.inj h).1 (by simp)
    · obtain ⟨-, rfl⟩ := Prod.mk.inj h
      exact ⟨rfl, rfl⟩
  · obtain ⟨-, rfl⟩ := Prod.mk.inj h
    exact ⟨rfl, rfl⟩

/-- An operation fails with an error of the schedule or with its own. -/
theorem changing_error_io {attempt attempt' : String} {op : Files → Except IoError Files}
    {error : IoError} (h : exec (changing attempt op) host = (.error failure, host'))
    (hcause : failure.cause = .io error attempt') :
    host.faults host.operations = some error ∨ op host.files = .error error := by
  rw [exec_changing] at h
  split at h
  · split at h
    · exact absurd (Prod.mk.inj h).1 (by simp)
    · rename_i error' hop
      obtain rfl := Except.error.inj (Prod.mk.inj h).1
      obtain ⟨rfl, -⟩ := Cause.io.inj hcause
      exact .inr hop
  · rename_i error' hfault
    obtain rfl := Except.error.inj (Prod.mk.inj h).1
    obtain ⟨rfl, -⟩ := Cause.io.inj hcause
    exact .inl hfault

theorem reading_result {attempt : String} {op : Files → Except IoError α}
    {result : Except Failure α} (h : exec (reading attempt op) host = (result, host')) :
    host' = counted host ∧ ∀ a, result = .ok a → op host.files = .ok a := by
  rw [exec_reading] at h
  obtain ⟨hresult, rfl⟩ := Prod.mk.inj h
  refine ⟨rfl, ?_⟩
  rintro a rfl
  split at hresult
  · cases hop : op host.files with
    | ok b =>
      rw [hop] at hresult
      rw [Except.ok.inj hresult]
    | error error =>
      rw [hop] at hresult
      contradiction
  · contradiction

/-- What a failure within an activity comes from. -/
theorem exec_within_cases {activity : String} {x : Build α} {result : Except Failure α}
    (h : exec (within activity x) host = (result, host')) :
    (∃ a, result = .ok a ∧ exec x host = (.ok a, host')) ∨
      ∃ failure, result = .error (failure.within activity) ∧ exec x host = (.error failure, host') := by
  rw [exec_within] at h
  obtain ⟨rfl, rfl⟩ := Prod.mk.inj h
  rcases hx : exec x host with ⟨result, host'⟩
  cases result with
  | ok a => exact .inl ⟨a, rfl, rfl⟩
  | error failure => exact .inr ⟨failure, rfl, rfl⟩

theorem exec_within_ok {activity : String} {x : Build α} {a : α}
    (h : exec (within activity x) host = (.ok a, host')) : exec x host = (.ok a, host') := by
  rcases exec_within_cases h with ⟨b, heq, hx⟩ | ⟨failure, heq, _⟩
  · rwa [Except.ok.inj heq]
  · contradiction

/-- What is found free is free. -/
theorem freePlace_ok {fs : Files} (h : fs.freePlace p = .ok loc) :
    fs.place p = .ok loc ∧ fs.get? loc = none := by
  unfold Files.freePlace at h
  cases hplace : fs.place p with
  | error error =>
    rw [hplace] at h
    cases h
  | ok loc' =>
    simp only [hplace, bind, Except.bind] at h
    cases hget : fs.get? loc' with
    | some e =>
      simp only [hget] at h
      cases h
    | none =>
      simp only [hget] at h
      split at h
      · obtain rfl := Except.ok.inj h
        exact ⟨rfl, hget⟩
      · cases h

/-- A temporary file comes where nothing was. -/
theorem createTemporary_ok (h : exec (createTemporary dir) host = (.ok loc, host')) :
    host.files.get? loc = none ∧
      host'.files = host.files.put loc (.file .empty temporaryMode none) ∧
      host'.faults = host.faults := by
  rw [createTemporary, exec_files_bind] at h
  obtain ⟨loc', host₁, hread, h⟩ := exec_bind_ok h
  obtain ⟨rfl, hfree⟩ := reading_result hread
  rw [exec_modify_bind, exec_pure] at h
  obtain ⟨hloc, rfl⟩ := Prod.mk.inj h
  obtain rfl := Except.ok.inj hloc
  exact ⟨(freePlace_ok (hfree loc' rfl)).2, rfl, rfl⟩

theorem createTemporary_error (h : exec (createTemporary dir) host = (.error failure, host')) :
    host'.files = host.files ∧ host'.faults = host.faults := by
  rw [createTemporary, exec_files_bind] at h
  rcases exec_bind_cases h with ⟨loc, host₁, hread, h⟩ | ⟨failure', hread, -⟩
  · rw [exec_modify_bind, exec_pure] at h
    exact absurd (Prod.mk.inj h).1 (by simp)
  · obtain ⟨rfl, -⟩ := reading_result hread
    exact ⟨rfl, rfl⟩

/-- The permission bits of the file that a path leads to, if it leads to one. -/
theorem mode?_eq (fs : Files) (p : Path) :
    fs.mode? p =
      match fs.resolve p with
      | .ok loc => (fs.get? loc).bind Entry.mode?
      | .error _ => none := by
  unfold Files.mode? Files.stat
  cases fs.resolve p with
  | error error => rfl
  | ok loc =>
    simp only [bind, Except.bind, Files.entryAt]
    cases fs.get? loc <;> rfl

theorem holds_eq (fs : Files) (p : Path) :
    fs.holds p =
      match fs.resolve p with
      | .ok loc => (fs.get? loc).isSome
      | .error _ => false := by
  unfold Files.holds Files.stat
  cases fs.resolve p with
  | error error => rfl
  | ok loc =>
    simp only [bind, Except.bind, Files.entryAt]
    cases fs.get? loc <;> rfl

/-- A temporary file has the permissions that its target is given when there is none, so it does not
matter whether it is found in its place. -/
theorem adoptedMode_eq {fs fs' : Files} {contents : ByteArray} (p : Path)
    (hfree : fs.get? loc = none) (hagree : Files.AgreeOff loc fs fs')
    (hloc : fs'.get? loc = some (.file contents temporaryMode none)) :
    (if fs'.holds p then (fs'.mode? p).getD temporaryMode else temporaryMode) =
      (fs.mode? p).getD temporaryMode := by
  have hpassages :=
    hagree.samePassages (Files.passage_of_none hfree) (Files.passage_of_file hloc)
  rw [mode?_eq, mode?_eq, holds_eq]
  cases hresolve : fs.resolve p with
  | ok l =>
    rw [show fs'.resolve p = .ok l from (Files.locate_eq_ok_iff hpassages).2 hresolve]
    by_cases hl : l = loc
    · simp [hl, hfree, hloc, Entry.mode?]
    · simp only [hagree.get?_eq l hl]
      cases fs.get? l <;> rfl
  | error error =>
    cases hresolve' : fs'.resolve p with
    | ok l =>
      have : fs.resolve p = .ok l := (Files.locate_eq_ok_iff hpassages).1 hresolve'
      rw [hresolve] at this
      contradiction
    | error => rfl

/-- A tree with one more file at a location. -/
def WithFile (fs : Files) (loc : Location) (fs' : Files) : Prop :=
  ∃ contents mode, fs' = fs.put loc (.file contents mode none)

theorem WithFile.rewriteFile {fs fs' : Files} {contents : ByteArray} {mode : Nat} (hne : loc ≠ [])
    (h : WithFile fs loc fs') : WithFile fs loc (fs'.rewriteFile loc contents mode) := by
  obtain ⟨contents', mode', rfl⟩ := h
  refine ⟨contents, mode, ?_⟩
  rw [Files.get?_rewriteFile_of_not_shared (by simp [Files.get?_put_self hne, Entry.shared?]),
    Files.put_put]

/-- The steps of a temporary file: they touch it alone, and it stays one more file. -/
structure Touches (loc : Location) (host host' : Host) : Prop where
  agree : Files.AgreeOff loc host.files host'.files
  withFile : ∀ fs, WithFile fs loc host.files → WithFile fs loc host'.files
  faults : host'.faults = host.faults

theorem Touches.trans {host'' : Host} (h : Touches loc host host') (h' : Touches loc host' host'') :
    Touches loc host host'' :=
  ⟨h.agree.trans h'.agree, fun fs hfs => h'.withFile fs (h.withFile fs hfs),
    h'.faults.trans h.faults⟩

theorem touches_of_eq (hne : loc ≠ []) (hfiles : host'.files = host.files)
    (hfaults : host'.faults = host.faults) : Touches loc host host' :=
  ⟨hfiles ▸ Files.AgreeOff.refl hne host.files, fun _ h => hfiles ▸ h, hfaults⟩

theorem touches_counted (hne : loc ≠ []) (host : Host) : Touches loc host (counted host) :=
  touches_of_eq hne rfl rfl

/-- Writing the temporary file touches it alone. -/
theorem touches_of_rewriteFile {contents contents' : ByteArray} {mode mode' : Nat} (hne : loc ≠ [])
    (hloc : host.files.get? loc = some (.file contents mode none))
    (hfiles : host.files.rewriteFile loc contents' mode' = host'.files)
    (hfaults : host'.faults = host.faults) :
    Touches loc host host' ∧ host'.files.get? loc = some (.file contents' mode' none) := by
  have hput : host.files.rewriteFile loc contents' mode' =
      host.files.put loc (.file contents' mode' none) :=
    Files.get?_rewriteFile_of_not_shared (by simp [hloc, Entry.shared?])
  refine ⟨⟨?_, fun fs h => hfiles ▸ h.rewriteFile hne, hfaults⟩, ?_⟩
  · rw [← hfiles, hput]
    exact Files.AgreeOff.put hne
  · rw [← hfiles, hput, Files.get?_put_self hne]

/-- Adopting permissions keeps the contents of the temporary file. -/
theorem adoptMode_result {contents : ByteArray} {mode : Nat} {result : Except Failure Unit}
    (hne : loc ≠ []) (hloc : host.files.get? loc = some (.file contents mode none))
    (h : exec (adoptMode loc p) host = (result, host')) :
    Touches loc host host' ∧
      (result = .ok () → host'.files.get? loc = some (.file contents
        (if host.files.holds p then (host.files.mode? p).getD temporaryMode else mode) none)) := by
  simp only [adoptMode, holds, exec_asking_bind] at h
  cases hholds : host.files.holds p with
  | false =>
    rw [hholds, if_neg (by simp), exec_pure] at h
    obtain ⟨rfl, rfl⟩ := Prod.mk.inj h
    rw [if_neg (by simp)]
    exact ⟨touches_of_eq hne rfl rfl, fun _ => hloc⟩
  | true =>
    rw [hholds, if_pos rfl] at h
    rw [if_pos rfl]
    rcases exec_bind_cases h with ⟨mode', host₁, hread, h⟩ | ⟨failure, hread, rfl⟩
    · obtain ⟨rfl, hmode⟩ := reading_result hread
      obtain rfl := Except.ok.inj (hmode mode' rfl)
      cases result with
      | ok =>
        obtain ⟨hset, hfaults⟩ := changing_ok h
        have hwritten := Except.ok.inj hset
        simp only [files_counted, Files.setMode, hloc] at hwritten
        obtain ⟨htouches, hloc'⟩ := @touches_of_rewriteFile host host' _ _ _ _ _ hne hloc hwritten hfaults
        exact ⟨htouches, fun _ => hloc'⟩
      | error failure =>
        obtain ⟨hfiles, hfaults⟩ := changing_error h
        exact ⟨touches_of_eq hne hfiles hfaults, by simp⟩
    · obtain ⟨rfl, -⟩ := reading_result hread
      exact ⟨touches_of_eq hne rfl rfl, by simp⟩

/-- The steps from an empty temporary file to one that is complete and in its place. -/
def completeTemporary (temporary : Location) (p : Path) (text : String) : Build Unit := do
  within s!"writing temporary file for {p}" <|
    changing "failed to write" fun fs => .ok (fs.rewriteFile temporary text.toUTF8 temporaryMode)
  within s!"syncing temporary file for {p}" <|
    operation "failed to sync"
  adoptMode temporary p
  within s!"replacing {p}" <|
    changing "failed to rename" (·.moveTo temporary p)

theorem writeAtomically_eq (p : Path) (text : String) :
    writeAtomically p text = (do
      let temporary ← within s!"creating temporary file in {p.directory}" (createTemporary p.directory)
      cleaningUp (·.erase temporary) (completeTemporary temporary p text)) := rfl

theorem operation_result {attempt : String} {result : Except Failure Unit}
    (h : exec (operation attempt) host = (result, host')) : host' = counted host := by
  rw [exec_operation] at h
  split at h <;> exact (Prod.mk.inj h).2.symm

/-- The steps from an empty temporary file to one that is complete. -/
def prepareTemporary (temporary : Location) (p : Path) (text : String) : Build Unit := do
  within s!"writing temporary file for {p}" <|
    changing "failed to write" fun fs => .ok (fs.rewriteFile temporary text.toUTF8 temporaryMode)
  within s!"syncing temporary file for {p}" <|
    operation "failed to sync"
  adoptMode temporary p

theorem completeTemporary_eq (temporary : Location) (p : Path) (text : String) :
    completeTemporary temporary p text = (do
      prepareTemporary temporary p text
      within s!"replacing {p}" <|
        changing "failed to rename" (·.moveTo temporary p)) := by
  simp only [completeTemporary, prepareTemporary, bind_assoc]

/-- A temporary file that is prepared has the text and the permissions of its target, and nothing
else was touched. -/
theorem prepareTemporary_result {result : Except Failure Unit} (hne : loc ≠ [])
    (hloc : host.files.get? loc = some (.file .empty temporaryMode none))
    (h : exec (prepareTemporary loc p text) host = (result, host')) :
    Touches loc host host' ∧ (result = .ok () → ∃ fs,
      Files.AgreeOff loc host.files fs ∧
      fs.get? loc = some (.file text.toUTF8 temporaryMode none) ∧
      host'.files.get? loc = some (.file text.toUTF8
        (if fs.holds p then (fs.mode? p).getD temporaryMode else temporaryMode) none)) := by
  rw [prepareTemporary] at h
  rcases exec_bind_cases h with ⟨⟨⟩, host₁, hwrite, h⟩ | ⟨failure, hwrite, rfl⟩
  · obtain ⟨hwritten, hfaults₁⟩ := changing_ok (exec_within_ok hwrite)
    obtain ⟨htouches₁, hloc₁⟩ :=
      touches_of_rewriteFile hne hloc (Except.ok.inj hwritten) hfaults₁
    rcases exec_bind_cases h with ⟨⟨⟩, host₂, hsync, h⟩ | ⟨failure, hsync, rfl⟩
    · obtain rfl := operation_result (exec_within_ok hsync)
      have htouches₂ := htouches₁.trans (touches_counted hne host₁)
      have hloc₂ : (counted host₁).files.get? loc =
          some (.file text.toUTF8 temporaryMode none) := hloc₁
      obtain ⟨htouches₃, hloc₃⟩ := adoptMode_result hne hloc₂ h
      exact ⟨htouches₂.trans htouches₃, fun hok => ⟨host₁.files, htouches₁.agree, hloc₁, hloc₃ hok⟩⟩
    · rcases exec_within_cases hsync with ⟨_, heq, _⟩ | ⟨failure', _, hsync⟩
      · contradiction
      · obtain rfl := operation_result hsync
        exact ⟨htouches₁.trans (touches_counted hne host₁), by simp⟩
  · rcases exec_within_cases hwrite with ⟨_, heq, _⟩ | ⟨failure', _, hwrite⟩
    · contradiction
    · obtain ⟨hfiles, hfaults⟩ := changing_error hwrite
      exact ⟨touches_of_eq hne hfiles hfaults, by simp⟩

/-- A temporary file is completed and replaces the file, or is all that there is more. -/
theorem completeTemporary_result {fs : Files} {result : Except Failure Unit}
    (hfree : fs.get? loc = none)
    (hfiles : host.files = fs.put loc (.file .empty temporaryMode none))
    (h : exec (completeTemporary loc p text) host = (result, host')) :
    host'.faults = host.faults ∧
      (result = .ok () → ∃ target, fs.place p = .ok target ∧
        Files.Replaced fs host'.files target text.toUTF8 ((fs.mode? p).getD temporaryMode)) ∧
      (∀ failure, result = .error failure → WithFile fs loc host'.files) := by
  have hne := Files.ne_nil_of_get?_eq_none hfree
  have hagree : Files.AgreeOff loc fs host.files := hfiles ▸ Files.AgreeOff.put hne
  have hloc : host.files.get? loc = some (.file .empty temporaryMode none) := by
    rw [hfiles, Files.get?_put_self hne]
  rw [completeTemporary_eq] at h
  rcases exec_bind_cases h with ⟨⟨⟩, host₁, hprepare, h⟩ | ⟨failure, hprepare, rfl⟩
  · obtain ⟨htouches, hprepared⟩ := prepareTemporary_result hne hloc hprepare
    obtain ⟨fs₁, hagree₁, hloc₁, hloc₂⟩ := hprepared rfl
    rcases exec_within_cases h with ⟨⟨⟩, rfl, hmove⟩ | ⟨failure, rfl, hmove⟩
    · obtain ⟨hmoved, hfaults⟩ := changing_ok hmove
      refine ⟨hfaults.trans htouches.faults, fun _ => ?_, by simp⟩
      rw [← adoptedMode_eq p hfree (hagree.trans hagree₁) hloc₁]
      exact Files.replaced_of_moveTo hfree (hagree.trans htouches.agree) hloc₂ hmoved
    · obtain ⟨hfiles', hfaults⟩ := changing_error hmove
      have htouches' := htouches.trans (touches_of_eq hne hfiles' hfaults)
      exact ⟨htouches'.faults, by simp, fun _ _ => htouches'.withFile fs ⟨_, _, hfiles⟩⟩
  · obtain ⟨htouches, -⟩ := prepareTemporary_result hne hloc hprepare
    exact ⟨htouches.faults, by simp, fun _ _ => htouches.withFile fs ⟨_, _, hfiles⟩⟩

/-- A file that was replaced as a whole has the new text, and every other entry is as it was. -/
theorem writeAtomically_ok (h : exec (writeAtomically p text) host = (.ok (), host')) :
    ∃ target, host.files.place p = .ok target ∧
      Files.Replaced host.files host'.files target text.toUTF8
        ((host.files.mode? p).getD temporaryMode) ∧
      host'.faults = host.faults := by
  rw [writeAtomically_eq] at h
  obtain ⟨loc, host₁, hcreate, h⟩ := exec_bind_ok h
  obtain ⟨hfree, hfiles, hfaults⟩ := createTemporary_ok (exec_within_ok hcreate)
  rw [exec_cleaningUp] at h
  rcases hcomplete : exec (completeTemporary loc p text) host₁ with ⟨result, host₂⟩
  obtain ⟨hfaults₂, hok, -⟩ := completeTemporary_result hfree hfiles hcomplete
  rw [hcomplete] at h
  cases result with
  | ok =>
    obtain ⟨-, rfl⟩ := Prod.mk.inj h
    obtain ⟨target, hplace, hreplaced⟩ := hok rfl
    exact ⟨target, hplace, hreplaced, hfaults₂.trans hfaults⟩
  | error failure => exact absurd (Prod.mk.inj h).1 (by simp)

/-- Where a file could not be replaced the files are the same as before, and no temporary file is
left. -/
theorem files_of_writeAtomically_error
    (h : exec (writeAtomically p text) host = (.error failure, host')) :
    host'.files = host.files ∧ host'.faults = host.faults := by
  rw [writeAtomically_eq] at h
  rcases exec_bind_cases h with ⟨loc, host₁, hcreate, h⟩ | ⟨failure', hcreate, -⟩
  · obtain ⟨hfree, hfiles, hfaults⟩ := createTemporary_ok (exec_within_ok hcreate)
    rw [exec_cleaningUp] at h
    rcases hcomplete : exec (completeTemporary loc p text) host₁ with ⟨result, host₂⟩
    obtain ⟨hfaults₂, -, herror⟩ := completeTemporary_result hfree hfiles hcomplete
    rw [hcomplete] at h
    cases result with
    | ok => exact absurd (Prod.mk.inj h).1 (by simp)
    | error failure'' =>
      obtain ⟨-, rfl⟩ := Prod.mk.inj h
      obtain ⟨contents, mode, hwith⟩ := herror failure'' rfl
      refine ⟨?_, hfaults₂.trans hfaults⟩
      simp only [hwith, Files.erase_put hfree]
  · rcases exec_within_cases hcreate with ⟨_, heq, _⟩ | ⟨failure'', _, hcreate⟩
    · contradiction
    · exact createTemporary_error hcreate

/-- A file that could not be replaced is as it was, and so is every other entry. -/
theorem writeAtomically_error (h : exec (writeAtomically p text) host = (.error failure, host')) :
    (∀ l, host'.files.get? l = host.files.get? l) ∧
      host'.files.workingDirectory = host.files.workingDirectory ∧ host'.faults = host.faults := by
  obtain ⟨hfiles, hfaults⟩ := files_of_writeAtomically_error h
  rw [hfiles]
  exact ⟨fun _ => rfl, rfl, hfaults⟩

/-! ### Rewriting files -/

/-- A rewritten file has what becomes of its text; it was written only when that is another text. -/
theorem rewrite_ok {transform : String → Except Cause String} {changed : Bool}
    (h : exec (rewrite p transform) host = (.ok changed, host')) :
    ∃ input output, textAt host.files p = .ok (some input) ∧ transform input = .ok output ∧
      host'.faults = host.faults ∧
      (changed = false ∧ output = input ∧ host'.files = host.files ∨
        changed = true ∧ output ≠ input ∧ ∃ target, host.files.place p = .ok target ∧
          Files.Replaced host.files host'.files target output.toUTF8
            ((host.files.mode? p).getD temporaryMode)) := by
  rw [rewrite] at h
  obtain ⟨input, host₁, hread, h⟩ := exec_bind_ok h
  obtain ⟨hinput, rfl⟩ := readText_ok hread
  cases houtput : transform input with
  | error cause =>
    rw [houtput, exec_throw] at h
    exact absurd (Prod.mk.inj h).1 (by simp)
  | ok output =>
    refine ⟨input, output, hinput, houtput, ?_⟩
    simp only [houtput] at h
    split at h
    · rename_i heq
      obtain ⟨hchanged, rfl⟩ := Prod.mk.inj h
      exact ⟨rfl, .inl ⟨(Except.ok.inj hchanged).symm, heq, rfl⟩⟩
    · rename_i hne
      obtain ⟨⟨⟩, host₂, hwrite, h⟩ := exec_bind_ok h
      obtain ⟨hchanged, rfl⟩ := Prod.mk.inj h
      obtain ⟨target, hplace, hreplaced, hfaults⟩ := writeAtomically_ok hwrite
      exact ⟨hfaults, .inr ⟨(Except.ok.inj hchanged).symm, hne, target, hplace, hreplaced⟩⟩

end RamlBuild.Build
