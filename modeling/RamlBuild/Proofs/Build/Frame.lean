import RamlBuild.Proofs.Build.Directories

/-!
# Frames

A frame is what a build leaves alone while it works elsewhere: the entries at some locations, and the
ways that some paths lead by. On a way no link changes and no directory goes, but directories may
come where nothing is; so a path that leads by it leads where it did.

## Main definitions

* `Frame` — locations that are kept, and locations that paths lead by
* `Frame.Keeps` — the files keep what is in the frame
* `Frame.Stands` — a step of a build leaves the frame alone

## Main results

* `Frame.Keeps.eraseTree` — what came at a free location may go again
* `Frame.stands_createDirectories`, `Frame.stands_writeAtomically`, `Frame.stands_removeFile` — work
  off the frame
-/

namespace RamlBuild

open Build

/-- What is left alone: the entries at some locations, and the ways of some paths. -/
structure Frame where
  /-- The locations that paths lead by. -/
  ways : Location → Prop
  /-- The locations whose entries are kept. -/
  kept : Location → Prop

namespace Frame

variable {frame : Frame} {fs fs' fs'' : Files} {l loc target : Location} {p : Path}
  {ways : Location → Prop} {contents : ByteArray} {mode : Nat}

/-- The entries of the frame are kept, and its ways lead where they did. -/
structure Keeps (frame : Frame) (fs fs' : Files) : Prop where
  workingDirectory : fs'.workingDirectory = fs.workingDirectory
  isTree : fs.IsTree → fs'.IsTree
  linkAt : ∀ v, frame.ways v → fs'.linkAt v = fs.linkAt v
  passage : ∀ v, frame.ways v → ∀ e, fs.passage v = some e → fs'.passage v = some e
  get?_eq : ∀ l, frame.kept l → fs'.get? l = fs.get? l

namespace Keeps

theorem refl (frame : Frame) (fs : Files) : frame.Keeps fs fs :=
  ⟨rfl, fun h => h, fun _ _ => rfl, fun _ _ _ h => h, fun _ _ => rfl⟩

theorem trans (h : frame.Keeps fs fs') (h' : frame.Keeps fs' fs'') : frame.Keeps fs fs'' where
  workingDirectory := h'.workingDirectory.trans h.workingDirectory
  isTree := fun htree => h'.isTree (h.isTree htree)
  linkAt := fun v hv => (h'.linkAt v hv).trans (h.linkAt v hv)
  passage := fun v hv e he => h'.passage v hv e (h.passage v hv e he)
  get?_eq := fun l hl => (h'.get?_eq l hl).trans (h.get?_eq l hl)

/-- A path that leads by the frame does so still. -/
theorem leadsBy (h : frame.Keeps fs fs') (hleads : fs.LeadsBy ways p)
    (hways : ∀ v, ways v → frame.ways v) : fs'.LeadsBy ways p :=
  hleads.congr h.workingDirectory fun v hv => h.linkAt v (hways v hv)

end Keeps

theorem keeps_of_get?_eq (h : ∀ l, fs'.get? l = fs.get? l)
    (hdir : fs'.workingDirectory = fs.workingDirectory) : frame.Keeps fs fs' where
  workingDirectory := hdir
  isTree := fun htree => htree.congr h
  linkAt := fun v _ => by rw [Files.linkAt, h, Files.linkAt]
  passage := fun v _ e he => by rwa [Files.passage, h, ← Files.passage]
  get?_eq := fun l _ => h l

/-- Directories that come off the kept locations leave the frame alone. -/
theorem keeps_of_makesDirectories (h : Files.MakesDirectories fs fs')
    (hkept : ∀ l, frame.kept l → fs'.get? l = fs.get? l) : frame.Keeps fs fs' where
  workingDirectory := h.workingDirectory
  isTree := h.isTree
  linkAt := fun v _ => h.linkAt v
  passage := fun _ _ _ he => h.passage he
  get?_eq := hkept

/-- A change at one location leaves the frame alone, when nothing is kept there and no way leads
through it. -/
theorem keeps_of_get?_other (hother : ∀ l, l ≠ loc → fs'.get? l = fs.get? l)
    (hdir : fs'.workingDirectory = fs.workingDirectory) (htree : fs.IsTree → fs'.IsTree)
    (hkept : ¬frame.kept loc) (hpassage : frame.ways loc → fs.passage loc = none)
    (hpassage' : frame.ways loc → fs'.passage loc = none) : frame.Keeps fs fs' where
  workingDirectory := hdir
  isTree := htree
  linkAt := by
    intro v hv
    by_cases hl : v = loc
    · subst hl
      rw [Files.linkAt_eq_none_of_passage (hpassage hv),
        Files.linkAt_eq_none_of_passage (hpassage' hv)]
    · rw [Files.linkAt, hother v hl, Files.linkAt]
  passage := by
    intro v hv e he
    by_cases hl : v = loc
    · subst hl
      rw [hpassage hv] at he
      contradiction
    · rwa [Files.passage, hother v hl, ← Files.passage]
  get?_eq := by
    intro l hl
    apply hother
    rintro rfl
    exact hkept hl

/-- What is off the frame may go with all that is below it. -/
theorem keeps_eraseTree_off (hne : loc ≠ [])
    (hoff : ∀ l, loc.isPrefixOf l = true → ¬frame.ways l ∧ ¬frame.kept l) :
    frame.Keeps fs (fs.eraseTree loc) := by
  have hget : ∀ l, frame.ways l ∨ frame.kept l → (fs.eraseTree loc).get? l = fs.get? l := by
    intro l hl
    rw [Files.get?_eraseTree hne, if_neg]
    exact fun hbelow => hl.elim (hoff l hbelow).1 (hoff l hbelow).2
  refine ⟨rfl, fun htree => htree.eraseTree hne, ?_, ?_, fun l hl => hget l (.inr hl)⟩
  · intro v hv
    rw [Files.linkAt, hget v (.inl hv), Files.linkAt]
  · intro v hv e he
    rwa [Files.passage, hget v (.inl hv), ← Files.passage]

/-- Something that came where nothing was may go again, with all that is below it. -/
theorem Keeps.eraseTree (h : frame.Keeps fs fs') (htree : fs.IsTree) (hfree : fs.get? loc = none) :
    frame.Keeps fs (fs'.eraseTree loc) := by
  have hne := Files.ne_nil_of_get?_eq_none hfree
  have hgone : ∀ v, loc.isPrefixOf v = true → fs.get? v = none :=
    fun v hv => htree.get?_eq_none_of_prefix hfree hv
  have hget : ∀ v, (fs'.eraseTree loc).get? v = if loc.isPrefixOf v then none else fs'.get? v :=
    fun v => Files.get?_eraseTree hne
  refine ⟨h.workingDirectory, fun htree => (h.isTree htree).eraseTree hne, ?_, ?_, ?_⟩
  · intro v hv
    by_cases hbelow : loc.isPrefixOf v = true
    · rw [Files.linkAt, hget, if_pos hbelow, Files.linkAt, hgone v hbelow]
    · rw [← h.linkAt v hv, Files.linkAt, hget, if_neg hbelow, Files.linkAt]
  · intro v hv e he
    by_cases hbelow : loc.isPrefixOf v = true
    · rw [Files.passage_of_none (hgone v hbelow)] at he
      contradiction
    · rw [Files.passage, hget, if_neg hbelow]
      exact h.passage v hv e he
  · intro l hl
    by_cases hbelow : loc.isPrefixOf l = true
    · rw [hget, if_pos hbelow, hgone l hbelow]
    · rw [hget, if_neg hbelow, h.get?_eq l hl]

/-! ### Steps that leave a frame alone -/

variable {α : Type} {host host' : Host} {text : String}

/-- The frame is kept, and so is the schedule of faults. -/
def Stands (frame : Frame) (host host' : Host) : Prop :=
  frame.Keeps host.files host'.files ∧ host'.faults = host.faults

theorem chains_stands (frame : Frame) : Chains frame.Stands where
  refl := fun host => ⟨Keeps.refl frame host.files, rfl⟩
  trans := fun h h' => ⟨h.1.trans h'.1, h'.2.trans h.2⟩

theorem stands_of_files_eq (hfiles : host'.files = host.files) (hfaults : host'.faults = host.faults) :
    frame.Stands host host' :=
  ⟨hfiles ▸ Keeps.refl frame host.files, hfaults⟩

/-- Directories are made on the way of their path. -/
theorem stands_createDirectories {result : Except Failure Unit}
    (hleads : host.files.LeadsBy ways p) (hoff : ∀ l, ways l → ¬frame.kept l)
    (h : exec (createDirectories p) host = (result, host')) : frame.Stands host host' := by
  obtain ⟨⟨hmakes, hfaults⟩, hways⟩ := createDirectories_makesWay h
  refine ⟨keeps_of_makesDirectories hmakes ?_, hfaults⟩
  exact fun l hl => hways ways hleads l fun hway => hoff l hway hl

/-- A file that is replaced off the frame. -/
theorem stands_writeAtomically {result : Except Failure Unit}
    (hoff : ∀ target, host.files.place p = .ok target →
      ¬frame.kept target ∧ (frame.ways target → host.files.linkAt target = none))
    (h : exec (writeAtomically p text) host = (result, host')) : frame.Stands host host' := by
  cases result with
  | ok =>
    obtain ⟨target, hplace, hreplaced, hfaults⟩ := writeAtomically_ok h
    obtain ⟨hkept, hlink⟩ := hoff target hplace
    refine ⟨keeps_of_get?_other hreplaced.get?_other hreplaced.workingDirectory
      (fun htree => hreplaced.isTree htree hplace) hkept ?_
      fun _ => Files.passage_of_file hreplaced.get?_target, hfaults⟩
    exact fun hway => Files.passage_eq_none (hlink hway) hreplaced.not_directory
  | error failure =>
    obtain ⟨hget, hdir, hfaults⟩ := writeAtomically_error h
    exact ⟨keeps_of_get?_eq hget hdir, hfaults⟩

/-- A file off the frame may be removed. -/
theorem keeps_removeFile
    (hoff : ∀ target, fs.place p = .ok target →
      ¬frame.kept target ∧ (frame.ways target → fs.linkAt target = none))
    (h : fs.removeFile p = .ok fs') : frame.Keeps fs fs' := by
  obtain ⟨target, hplace, hentry, rfl⟩ := Files.removeFile_ok h
  obtain ⟨hkept, hlink⟩ := hoff target hplace
  have hne : target ≠ [] := by
    rintro rfl
    exact hentry _ Files.get?_nil
  refine keeps_of_get?_other (fun l hl => Files.get?_erase_of_ne hl) rfl
    (fun htree => htree.erase hne hentry) hkept
    (fun hway => Files.passage_eq_none (hlink hway) hentry) fun _ => ?_
  exact Files.passage_of_none (Files.get?_erase_self hne)

/-- A file that is removed off the frame. -/
theorem stands_removeFile {result : Except Failure Unit}
    (hoff : ∀ target, host.files.place p = .ok target →
      ¬frame.kept target ∧ (frame.ways target → host.files.linkAt target = none))
    (h : exec (removeFile p) host = (result, host')) : frame.Stands host host' := by
  cases result with
  | ok =>
    obtain ⟨hop, hfaults⟩ := changing_ok h
    exact ⟨keeps_removeFile hoff hop, hfaults⟩
  | error failure =>
    obtain ⟨hfiles, hfaults⟩ := changing_error h
    exact stands_of_files_eq hfiles hfaults

end Frame

end RamlBuild
