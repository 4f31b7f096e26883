import RamlBuild.Proofs.Tool.Site
import RamlBuild.Tool.Lock

/-!
# What work on a lock file does

Reading a lock file leaves the files alone, writing it replaces it as a whole, and removing it leaves
every other entry alone. As long as no fault is told as a missing file, a lock file that is not found
is not there.

## Main definitions

* `Site.Locked` — there is a lock file
* `Site.Sound` — what holds of a host between any two steps
* `Site.Placed` — the part of it that tells where the lock file is

## Main results

* `Site.Sound.not_locked_of_read`, `Site.Sound.file_of_read` — what reading the lock file tells
* `Site.Sound.remove`, `Site.Sound.write` — removing and writing it
-/

namespace RamlBuild

open Build

namespace Site

variable {site : Site} {fs fs' : Files} {host host' : Host} {l : Location} {version text : String}
  {contents : ByteArray} {failure : Failure}

/-- There is a lock file. -/
def Locked (site : Site) (fs : Files) : Prop :=
  ∃ contents mode shared, fs.get? site.lock = some (.file contents mode shared)

/-- What holds of a host between any two steps: the site lies where it is said to be, no fault is
told as a missing file, and a lock file is one itself, in a root that its path leads to. -/
structure Sound (site : Site) (host : Host) : Prop where
  lies : site.Lies host.files
  honest : ∀ n, host.faults n ≠ some .notFound
  notLink : host.files.linkAt site.lock = none
  reached : site.Locked host.files → site.Reached host.files

/-- A host is sound while the way to the site, the schedule of faults and the lock file stay. -/
theorem Sound.of_stays (h : site.Sound host) (hstays : site.Stays host.files host'.files)
    (hfaults : host'.faults = host.faults)
    (hlock : host'.files.get? site.lock = host.files.get? site.lock) : site.Sound host' where
  lies := h.lies.of_stays hstays
  honest := by
    rw [hfaults]
    exact h.honest
  notLink := (Files.linkAt_eq_of_get?_eq hlock).trans h.notLink
  reached := by
    intro hlocked
    rw [Locked, hlock] at hlocked
    exact (h.reached hlocked).of_stays h.lies hstays

/-! ### The path of the lock file -/

/-- The site lies where it is said to be, and the lock file is no link. -/
structure Placed (site : Site) (fs : Files) : Prop where
  lies : site.Lies fs
  notLink : fs.linkAt site.lock = none

theorem Sound.placed (h : site.Sound host) : site.Placed host.files :=
  ⟨h.lies, h.notLink⟩

/-- A lock file that is no link is located from the root. -/
theorem Placed.locate_lockFile (h : site.Placed fs)
    (hpath : Files.requirePath site.lockFile = .ok ()) (follow : Bool) :
    fs.locate follow site.lockFile =
      (fs.reach site.root).bind (fs.takeStep · (.name site.lockName)) := by
  apply Files.locate_child site.lockName_plain hpath
  rintro dir hreach - n target hname hget
  obtain rfl := h.lies.leads.reach_eq hreach
  obtain rfl := Step.name.inj hname
  rw [← lock, ← Files.linkAt_eq_some_iff, h.notLink] at hget
  contradiction

/-- Where the path of the lock file leads, it takes the last step from the root. -/
theorem Placed.reached_of_locate (h : site.Placed fs) {follow : Bool}
    (hlocate : fs.locate follow site.lockFile = .ok l) :
    site.Reached fs ∧ fs.takeStep site.directory (.name site.lockName) = .ok l := by
  rw [h.locate_lockFile (Files.requirePath_of_locate hlocate)] at hlocate
  cases hreach : fs.reach site.root with
  | error error =>
    rw [hreach] at hlocate
    contradiction
  | ok dir =>
    rw [hreach] at hlocate
    obtain rfl := h.lies.leads.reach_eq hreach
    exact ⟨⟨hreach, Files.exists_directory_of_takeStep hlocate⟩, hlocate⟩

theorem Placed.locate_eq (h : site.Placed fs) {follow : Bool}
    (hlocate : fs.locate follow site.lockFile = .ok l) : l = site.lock :=
  Files.eq_append_of_takeStep (h.reached_of_locate hlocate).2

theorem requirePath_lockFile_ne : Files.requirePath site.lockFile ≠ .error .notFound := by
  have hne : site.lockFile.text ≠ "" := Path.text_child_ne_empty site.lockName_plain
  rw [Files.requirePath, if_neg (by simpa using hne)]
  split
  · simp
  · split <;> simp

/-- A step to an entry that is there does not miss it. -/
theorem takeStep_ne_notFound {dir : Location} {n : String} {mode : Nat}
    (hdir : fs.get? dir = some (.directory mode)) (hentry : (fs.get? (dir ++ [n])).isSome) :
    fs.takeStep dir (.name n) ≠ .error .notFound := by
  obtain ⟨e, he⟩ := Option.isSome_iff_exists.1 hentry
  rw [Files.takeStep, Files.walkUpTo_directory hdir]
  split
  · simp
  · rw [Files.walkStep]
    split
    · simp
    · rw [Files.walkName, he]
      cases e <;> simp

/-- A lock file that is there is not missed. -/
theorem Sound.locate_ne_notFound (h : site.Sound host) (hlocked : site.Locked host.files)
    (follow : Bool) : host.files.locate follow site.lockFile ≠ .error .notFound := by
  obtain ⟨hreach, mode, hdir⟩ := h.reached hlocked
  obtain ⟨contents, mode', shared, hfile⟩ := hlocked
  cases hpath : Files.requirePath site.lockFile with
  | error error =>
    intro hlocate
    rw [Files.locate, hpath] at hlocate
    obtain rfl : error = .notFound := Except.error.inj hlocate
    exact requirePath_lockFile_ne hpath
  | ok =>
    rw [h.placed.locate_lockFile hpath, hreach]
    apply takeStep_ne_notFound hdir
    rw [← lock, hfile]
    rfl

/-! ### Reading the lock file -/

/-- The file that is read as the lock file stands in its location. -/
theorem Sound.readFile_eq (h : site.Sound host) :
    (∃ error, host.files.resolve site.lockFile = .error error ∧
      host.files.readFile site.lockFile = .error error) ∨
    host.files.readFile site.lockFile =
      match host.files.get? site.lock with
      | none => .error .notFound
      | some e =>
        if !e.permits .read then .error .permissionDenied
        else
          match e with
          | .file contents _ _ => .ok contents
          | _ => .error .isDirectory := by
  cases hresolve : host.files.resolve site.lockFile with
  | error error =>
    left
    refine ⟨error, rfl, ?_⟩
    simp only [Files.readFile, Files.stat, hresolve, bind, Except.bind]
  | ok l =>
    right
    obtain rfl := h.placed.locate_eq hresolve
    simp only [Files.readFile, Files.stat, hresolve, Files.entryAt, bind, Except.bind]
    cases hget : host.files.get? site.lock with
    | none => rfl
    | some e => cases hread : e.permits .read <;> cases e <;> simp [hread]

theorem Sound.not_locked_of_readFile (h : site.Sound host)
    (hread : host.files.readFile site.lockFile = .error .notFound) :
    ¬site.Locked host.files := by
  intro hlocked
  rcases h.readFile_eq with ⟨error, hresolve, heq⟩ | heq
  · obtain rfl : error = .notFound := Except.error.inj (heq.symm.trans hread)
    exact h.locate_ne_notFound hlocked true hresolve
  · obtain ⟨contents, mode, shared, hfile⟩ := hlocked
    rw [hread, hfile] at heq
    simp only at heq
    split at heq <;> contradiction

theorem Sound.get?_of_readFile (h : site.Sound host)
    (hread : host.files.readFile site.lockFile = .ok contents) :
    ∃ mode shared, host.files.get? site.lock = some (.file contents mode shared) := by
  rcases h.readFile_eq with ⟨error, -, heq⟩ | heq
  · rw [heq] at hread
    contradiction
  · rw [hread] at heq
    split at heq
    · contradiction
    · rename_i e hget
      split at heq
      · contradiction
      · cases e with
        | file contents' mode shared =>
          obtain rfl : contents = contents' := Except.ok.inj heq
          exact ⟨mode, shared, hget⟩
        | directory | link => contradiction

/-- Reading the lock file leaves the files alone. -/
theorem exec_read_files {result : Except Failure (Option String)} {p : Path}
    (h : exec (Lock.read p) host = (result, host')) : host' = counted host := by
  rw [Lock.read] at h
  rcases exec_bind_cases h with ⟨text, host₁, hattempt, h⟩ | ⟨failure, hattempt, -⟩
  · rw [exec_attempt, exec_readText] at hattempt
    obtain ⟨-, rfl⟩ := Prod.mk.inj hattempt
    split at h
    · exact (Prod.mk.inj h).2.symm
    · split at h <;> exact (Prod.mk.inj h).2.symm
  · rw [exec_attempt] at hattempt
    exact absurd (Prod.mk.inj hattempt).1 (by simp)

/-- When no lock file is read, there is none. -/
theorem Sound.not_locked_of_read (hsound : site.Sound host)
    (h : exec (Lock.read site.lockFile) host = (.ok none, host')) : ¬site.Locked host.files := by
  rw [Lock.read] at h
  obtain ⟨text, host₁, hattempt, h⟩ := exec_bind_ok h
  rw [exec_attempt, exec_readText] at hattempt
  obtain ⟨hresult, rfl⟩ := Prod.mk.inj hattempt
  obtain rfl := Except.ok.inj hresult
  apply hsound.not_locked_of_readFile
  cases hfault : host.faults host.operations with
  | some error =>
    -- A fault that is told as a missing file is the only one that could pass for one.
    have hne : error ≠ .notFound := by
      rintro rfl
      exact hsound.honest _ hfault
    simp only [hfault, Failure.of] at h
    cases error <;> first | contradiction | exact absurd (Prod.mk.inj h).1 (by simp)
  | none =>
    simp only [hfault, textAt] at h
    cases hread : host.files.readFile site.lockFile with
    | error error =>
      simp only [hread, Except.map, Failure.of] at h
      cases error <;> first | rfl | exact absurd (Prod.mk.inj h).1 (by simp)
    | ok bytes =>
      simp only [hread, Except.map] at h
      cases htext : String.fromUTF8? bytes with
      | none =>
        rw [htext] at h
        exact absurd (Prod.mk.inj h).1 (by simp)
      | some text =>
        rw [htext] at h
        exact absurd (Prod.mk.inj h).1 (by simp)

/-- The version that is read is the trimmed text of the lock file. -/
theorem Sound.file_of_read (hsound : site.Sound host)
    (h : exec (Lock.read site.lockFile) host = (.ok (some version), host')) :
    ∃ contents mode shared text, host.files.get? site.lock = some (.file contents mode shared) ∧
      String.fromUTF8? contents = some text ∧ version = Text.trimmed text := by
  rw [Lock.read] at h
  obtain ⟨result, host₁, hattempt, h⟩ := exec_bind_ok h
  rw [exec_attempt] at hattempt
  obtain ⟨hresult, rfl⟩ := Prod.mk.inj hattempt
  obtain rfl := Except.ok.inj hresult
  rcases hread : exec (readText site.lockFile) host with ⟨result, host₁⟩
  rw [hread] at h
  cases result with
  | error failure =>
    simp only at h
    split at h <;> exact absurd (Prod.mk.inj h).1 (by simp)
  | ok text =>
    obtain ⟨htext, -⟩ := readText_ok hread
    have hversion : some (Text.trimmed text) = some version := Except.ok.inj (Prod.mk.inj h).1
    rw [textAt] at htext
    cases hfile : host.files.readFile site.lockFile with
    | error error =>
      rw [hfile] at htext
      contradiction
    | ok contents =>
      rw [hfile] at htext
      obtain ⟨mode, shared, hget⟩ := hsound.get?_of_readFile hfile
      exact ⟨contents, mode, shared, text, hget, Except.ok.inj htext, (Option.some.inj hversion).symm⟩

/-! ### Removing and writing the lock file -/

/-- Nothing but the lock file was changed, and the way to the site stays. -/
structure ChangesLock (site : Site) (host host' : Host) : Prop where
  stays : site.Stays host.files host'.files
  faults : host'.faults = host.faults
  get?_other : ∀ l, l ≠ site.lock → host'.files.get? l = host.files.get? l

theorem changesLock_of_get?_eq (h : ∀ l, host'.files.get? l = host.files.get? l)
    (hdir : host'.files.workingDirectory = host.files.workingDirectory)
    (hfaults : host'.faults = host.faults) : site.ChangesLock host host' :=
  ⟨stays_of_get?_eq h hdir, hfaults, fun l _ => h l⟩

/-- Where the lock file stands is no passage, unless a directory stands there. -/
theorem Sound.passage_lock (h : site.Sound host)
    (hentry : ∀ mode, host.files.get? site.lock ≠ some (.directory mode)) :
    host.files.passage site.lock = none :=
  Files.passage_eq_none h.notLink hentry

/-- The lock file is removed, or nothing happens; it is gone when nothing is told. -/
theorem Sound.remove {result : Except Failure Unit} (hsound : site.Sound host)
    (h : exec (Lock.remove site.lockFile) host = (result, host')) :
    site.Sound host' ∧ site.ChangesLock host host' ∧ (result = .ok () → ¬site.Locked host'.files) ∧
      (site.Locked host'.files → host'.files.get? site.lock = host.files.get? site.lock) := by
  rw [Lock.remove, exec_attempt_bind] at h
  rcases hremove : exec (removeFile site.lockFile) host with ⟨outcome, host₁⟩
  rw [hremove] at h
  cases outcome with
  | ok =>
    obtain ⟨rfl, rfl⟩ := Prod.mk.inj h
    obtain ⟨hop, hfaults⟩ := changing_ok hremove
    obtain ⟨l, hplace, hentry, herase⟩ := Files.removeFile_ok hop
    obtain rfl := hsound.placed.locate_eq hplace
    have hgone : host₁.files.get? site.lock = none := by
      rw [herase, Files.get?_erase_self lock_ne_nil]
    have hnot : ¬site.Locked host₁.files := by
      rintro ⟨contents, mode, shared, hfile⟩
      rw [hgone] at hfile
      contradiction
    have hpassage := hsound.passage_lock hentry
    have hchanges : site.ChangesLock host host₁ := by
      refine ⟨?_, hfaults, ?_⟩
      · rw [herase]
        exact stays_of_samePassages (Files.samePassages_erase lock_ne_nil hpassage)
          fun htree => htree.erase lock_ne_nil hentry
      · intro l hl
        rw [herase, Files.get?_erase_of_ne hl]
    refine ⟨⟨hsound.lies.of_stays hchanges.stays, ?_, ?_, fun h => absurd h hnot⟩, hchanges,
      fun _ => hnot, fun h => absurd h hnot⟩
    · rw [hfaults]
      exact hsound.honest
    · rw [Files.linkAt, hgone]
  | error failure =>
    obtain ⟨hfiles, hfaults⟩ := changing_error hremove
    obtain rfl : host₁ = host' := by
      simp only at h
      split at h <;> exact (Prod.mk.inj h).2
    have hget : ∀ l, host₁.files.get? l = host.files.get? l := fun l => by rw [hfiles]
    have hchanges : site.ChangesLock host host₁ :=
      changesLock_of_get?_eq hget (by rw [hfiles]) hfaults
    refine ⟨hsound.of_stays hchanges.stays hfaults (hget _), hchanges, ?_, fun _ => hget _⟩
    -- Only a missing file is passed over, and a lock file that is there is not missed.
    rintro rfl hlocked
    rw [Locked, hfiles] at hlocked
    simp only at h
    split at h
    · rename_i attempt hcause
      rcases changing_error_io hremove hcause with hfault | hop
      · exact hsound.honest _ hfault
      · rcases Files.removeFile_notFound hop with hplace | ⟨l, hplace, hnone⟩
        · exact hsound.locate_ne_notFound hlocked false hplace
        · obtain rfl := hsound.placed.locate_eq hplace
          obtain ⟨contents, mode, shared, hfile⟩ := hlocked
          rw [hnone] at hfile
          contradiction
    · exact absurd (Prod.mk.inj h).1 (by simp)

/-- The lock file holds the version that was written, or is as it was when that failed. -/
theorem Sound.write {result : Except Failure Unit} (hsound : site.Sound host)
    (h : exec (Lock.write site.lockFile version) host = (result, host')) :
    site.Sound host' ∧ site.ChangesLock host host' ∧
      (result = .ok () → ∃ mode, host'.files.get? site.lock =
        some (.file (Text.trimmed version).toUTF8 mode none)) ∧
      (result ≠ .ok () → host'.files.get? site.lock = host.files.get? site.lock) := by
  rw [Lock.write] at h
  rcases exec_within_cases h with ⟨⟨⟩, rfl, hwrite⟩ | ⟨failure, rfl, hwrite⟩
  · obtain ⟨target, hplace, hreplaced, hfaults⟩ := writeAtomically_ok hwrite
    obtain rfl := hsound.placed.locate_eq hplace
    have hpassage := hsound.passage_lock hreplaced.not_directory
    have hstays : site.Stays host.files host'.files :=
      stays_of_samePassages (hreplaced.samePassages hpassage) fun htree =>
        hreplaced.isTree htree hplace
    refine ⟨⟨hsound.lies.of_stays hstays, ?_, ?_, ?_⟩, ⟨hstays, hfaults, hreplaced.get?_other⟩,
      fun _ => ⟨_, hreplaced.get?_target⟩, by simp⟩
    · rw [hfaults]
      exact hsound.honest
    · rw [Files.linkAt, hreplaced.get?_target]
    · intro _
      exact (hsound.placed.reached_of_locate hplace).1.of_stays hsound.lies hstays
  · obtain ⟨hget, hdir, hfaults⟩ := writeAtomically_error hwrite
    have hchanges : site.ChangesLock host host' := changesLock_of_get?_eq hget hdir hfaults
    exact ⟨hsound.of_stays hchanges.stays hfaults (hget _), hchanges, by simp, fun _ => hget _⟩

end Site

end RamlBuild
