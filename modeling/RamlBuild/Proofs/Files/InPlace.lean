import RamlBuild.Proofs.Build.Frame

/-!
# Writing files in place

A file that is written in place changes under all of its names and nowhere else. What a path comes to
is never a link, so no link goes when a file is written.

## Main definitions

* `Frame.Apart` — a location that has nothing to do with what a frame keeps

## Main results

* `Files.get?_rewriteFile` — the entries after a file is written in place
* `Files.linkAt_of_resolve` — what a path comes to is no link
* `Frame.stands_writeBytes` — writing a file apart from a frame
-/

namespace RamlBuild

namespace Files

variable {fs fs' : Files} {loc l : Location} {contents : ByteArray} {mode : Nat} {links : Nat}
  {steps : List Step} {p : Path} {beyond : Location → List Step → Except IoError Location}

theorem lookup_map_value {α β : Type} [BEq α] (f : β → β) (a : α) (xs : List (α × β)) :
    (xs.map fun (key, value) => (key, f value)).lookup a = (xs.lookup a).map f := by
  induction xs with
  | nil => rfl
  | cons x rest ih =>
    obtain ⟨key, value⟩ := x
    simp only [List.map_cons, List.lookup_cons, ih]
    cases a == key <;> rfl

/-- A file changes under all of its names. -/
theorem get?_rewriteFile (hne : loc ≠ []) :
    (fs.rewriteFile loc contents mode).get? l =
      match (fs.get? loc).bind Entry.shared? with
      | none => if l = loc then some (.file contents mode none) else fs.get? l
      | some n =>
        (fs.get? l).map fun e => if e.shared? = some n then .file contents mode (some n) else e := by
  cases hshared : (fs.get? loc).bind Entry.shared? with
  | none => rw [get?_rewriteFile_of_not_shared hshared, get?_put hne]
  | some n =>
    simp only [rewriteFile, hshared]
    rw [get?, get?]
    split
    · simp [Entry.shared?]
    · exact lookup_map_value (fun e => if e.shared? = some n then .file contents mode (some n) else e)
        l fs.entries

@[simp] theorem workingDirectory_rewriteFile :
    (fs.rewriteFile loc contents mode).workingDirectory = fs.workingDirectory := by
  unfold rewriteFile
  split <;> rfl

theorem Distinct.rewriteFile (h : fs.Distinct) (hne : loc ≠ []) :
    (fs.rewriteFile loc contents mode).Distinct := by
  unfold Files.rewriteFile
  split
  · exact h.put hne
  · simpa [Distinct, Function.comp_def] using h

theorem Entry.isFile_of_shared {e : Entry} {n : Nat} (h : e.shared? = some n) : e.isFile = true := by
  cases e <;> first | rfl | contradiction

/-- Directories and links stay when a file is written. -/
theorem passage_rewriteFile (hne : loc ≠ []) (hloc : fs.passage loc = none) :
    (fs.rewriteFile loc contents mode).passage l = fs.passage l := by
  rw [passage, get?_rewriteFile hne]
  cases hshared : (fs.get? loc).bind Entry.shared? with
  | none =>
    simp only
    split
    · rename_i heq
      rw [heq, hloc]
      rfl
    · rw [passage]
  | some n =>
    rw [passage]
    cases fs.get? l with
    | none => rfl
    | some e =>
      simp only [Option.map_some]
      split
      · rename_i hsame
        rw [Option.filter_some, Option.filter_some, Entry.isFile_of_shared hsame]
        rfl
      · rfl

theorem isTree_rewriteFile {dir : Location} {name : String} {dirMode : Nat} (htree : fs.IsTree)
    (hdir : fs.get? dir = some (.directory dirMode)) (hloc : fs.passage (dir ++ [name]) = none) :
    (fs.rewriteFile (dir ++ [name]) contents mode).IsTree := by
  have hne : dir ++ [name] ≠ [] := by simp
  -- A directory is a passage, and these stay.
  have hdirectory : ∀ {l mode'}, fs.get? l = some (.directory mode') →
      (fs.rewriteFile (dir ++ [name]) contents mode).get? l = some (.directory mode') := by
    intro l mode' hl
    have hpassage : fs.passage l = some (.directory mode') := passage_eq_some_iff.2 ⟨hl, rfl⟩
    rw [← passage_rewriteFile hne hloc] at hpassage
    exact (passage_eq_some_iff.1 hpassage).1
  intro loc' name' e' he'
  have hparent : ∃ mode', fs.get? loc' = some (.directory mode') := by
    rw [get?_rewriteFile hne] at he'
    split at he'
    · split at he'
      · rename_i heq
        obtain ⟨rfl, -⟩ := List.append_inj' heq rfl
        exact ⟨dirMode, hdir⟩
      · exact htree _ _ _ he'
    · obtain ⟨e, he, -⟩ := Option.map_eq_some_iff.1 he'
      exact htree _ _ _ he
  obtain ⟨mode', hmode'⟩ := hparent
  exact ⟨mode', hdirectory hmode'⟩

/-! ### What a path comes to -/

theorem linkAt_of_directory (h : fs.get? loc = some (.directory mode)) : fs.linkAt loc = none := by
  rw [linkAt, h]

theorem linkAt_of_walkUpTo (htree : fs.IsTree)
    (hbeyond : ∀ loc steps, fs.linkAt loc = none → beyond loc steps = .ok l → fs.linkAt l = none)
    (hstart : fs.linkAt loc = none) (hwalk : fs.walkUpTo true beyond loc steps = .ok l) :
    fs.linkAt l = none := by
  induction steps generalizing loc with
  | nil =>
    obtain rfl : loc = l := by simpa using hwalk
    exact hstart
  | cons step rest ih =>
    obtain ⟨mode, hget, henter⟩ := exists_directory_of_walkUpTo hwalk
    rw [walkUpTo_of_entered hget henter] at hwalk
    cases step with
    | inside => exact ih hstart hwalk
    | here => exact ih hstart hwalk
    | up =>
      refine ih ?_ hwalk
      rcases List.eq_nil_or_concat loc with rfl | ⟨init, name, rfl⟩
      · exact hstart
      · rw [List.concat_eq_append] at hget ⊢
        obtain ⟨mode', hmode'⟩ := htree init name _ hget
        rw [List.dropLast_concat]
        exact linkAt_of_directory hmode'
    | name n =>
      simp only [walkStep] at hwalk
      split at hwalk
      · contradiction
      · unfold walkName at hwalk
        split at hwalk
        · rename_i hfree
          split at hwalk
          · obtain rfl : loc ++ [n] = l := by simpa using hwalk
            rw [linkAt, hfree]
          · contradiction
        · simp only [Bool.not_true, Bool.and_false, Bool.false_eq_true, if_false] at hwalk
          refine hbeyond _ _ ?_ hwalk
          split
          · exact linkAt_of_directory get?_nil
          · exact hstart
        · rename_i e hnotLink hentry
          refine ih ?_ hwalk
          rw [Option.eq_none_iff_forall_ne_some]
          intro target htarget
          rw [linkAt_eq_some_iff, hentry] at htarget
          exact hnotLink target (Option.some.inj htarget)

theorem linkAt_of_walk (htree : fs.IsTree) (hstart : fs.linkAt loc = none)
    (hwalk : fs.walk true links loc steps = .ok l) : fs.linkAt l = none := by
  induction links generalizing loc steps with
  | zero => exact linkAt_of_walkUpTo htree (by simp) hstart hwalk
  | succ links ih => exact linkAt_of_walkUpTo htree (fun _ _ => ih) hstart hwalk

/-- What a path comes to is no link. -/
theorem linkAt_of_resolve (htree : fs.IsTree) (h : fs.resolve p = .ok l) : fs.linkAt l = none := by
  have hpath := requirePath_of_locate h
  rw [resolve, locate_eq hpath] at h
  refine linkAt_of_walk htree ?_ h
  -- The path has a step, so it starts in a directory.
  obtain ⟨step, rest, hsteps⟩ :=
    List.exists_cons_of_ne_nil (Path.steps_ne_nil (text_ne_empty_of_requirePath hpath))
  rw [hsteps] at h
  cases hlinks : maxLinks with
  | zero =>
    rw [hlinks] at h
    obtain ⟨mode, hget, -⟩ := exists_directory_of_walkUpTo h
    exact linkAt_of_directory hget
  | succ links =>
    rw [hlinks] at h
    obtain ⟨mode, hget, -⟩ := exists_directory_of_walkUpTo h
    exact linkAt_of_directory hget

theorem writable_ok (h : fs.writable p = .ok l) :
    fs.resolve p = .ok l ∧ ∀ mode, fs.get? l ≠ some (.directory mode) := by
  unfold writable at h
  split at h
  · cases hplace : fs.place p.dropSlashes with
    | error error =>
      rw [hplace] at h
      cases h
    | ok l =>
      rw [hplace] at h
      cases h
  · cases hresolve : fs.resolve p with
    | error error =>
      rw [hresolve] at h
      cases h
    | ok target =>
      simp only [hresolve, bind, Except.bind] at h
      cases hget : fs.get? target with
      | none =>
        simp only [hget] at h
        split at h
        · obtain rfl := Except.ok.inj h
          exact ⟨rfl, by simp [hget]⟩
        · cases h
      | some e =>
        cases e with
        | directory mode' =>
          simp only [hget] at h
          cases h
        | file | link =>
          simp only [hget] at h
          split at h
          · obtain rfl := Except.ok.inj h
            exact ⟨rfl, by simp [hget]⟩
          · cases h

/-- A file is written where its path comes to, which is no directory, and keeps its permissions. -/
theorem writeFile_ok (h : fs.writeFile p contents mode = .ok fs') :
    ∃ target, fs.resolve p = .ok target ∧ (∀ mode, fs.get? target ≠ some (.directory mode)) ∧
      fs' = fs.rewriteFile target contents (((fs.get? target).bind Entry.mode?).getD mode) := by
  unfold writeFile at h
  cases hwritable : fs.writable p with
  | error error =>
    rw [hwritable] at h
    cases h
  | ok target =>
    rw [hwritable] at h
    obtain ⟨hresolve, hdirectory⟩ := writable_ok hwritable
    exact ⟨target, hresolve, hdirectory, (Except.ok.inj h).symm⟩

end Files

open Build

namespace Frame

variable {frame : Frame} {fs fs' : Files} {host host' : Host} {p : Path} {contents : ByteArray}
  {mode : Nat}

/-- Nothing is kept at a location, and what stands there is no other name of a file that is kept. -/
def Apart (frame : Frame) (fs : Files) (target : Location) : Prop :=
  ¬frame.kept target ∧
    ∀ l, frame.kept l → ∀ n, (fs.get? target).bind Entry.shared? = some n →
      (fs.get? l).bind Entry.shared? ≠ some n

/-- What is apart from a frame is so still when directories come where nothing was. -/
theorem Apart.of_makesDirectories {target : Location} (h : frame.Apart fs target)
    (hmakes : Files.MakesDirectories fs fs') : frame.Apart fs' target := by
  have hshared : ∀ l n, (fs'.get? l).bind Entry.shared? = some n →
      (fs.get? l).bind Entry.shared? = some n := by
    intro l n hl
    rcases hmakes.get? l with heq | ⟨-, mode, hmode⟩
    · rwa [heq] at hl
    · rw [hmode] at hl
      contradiction
  exact ⟨h.1, fun l hl n hn hln => h.2 l hl n (hshared _ _ hn) (hshared _ _ hln)⟩

/-- A file that is written apart from a frame leaves it alone. -/
theorem keeps_rewriteFile {target : Location} {mode : Nat} (htree : fs.IsTree)
    (hresolve : fs.resolve p = .ok target) (hdirectory : ∀ mode, fs.get? target ≠ some (.directory mode))
    (hapart : frame.Apart fs target) : frame.Keeps fs (fs.rewriteFile target contents mode) := by
  have hne : target ≠ [] := by
    rintro rfl
    exact hdirectory _ Files.get?_nil
  have hpassage : fs.passage target = none :=
    Files.passage_eq_none (Files.linkAt_of_resolve htree hresolve) hdirectory
  obtain ⟨dir, name, dirMode, rfl, hdir⟩ := Files.directory_of_locate htree hresolve hne
  have hsame : Files.SamePassages fs (fs.rewriteFile (dir ++ [name]) contents mode) :=
    ⟨fun l => Files.passage_rewriteFile hne hpassage, Files.workingDirectory_rewriteFile⟩
  refine ⟨hsame.workingDirectory, fun _ => Files.isTree_rewriteFile htree hdir hpassage,
    fun v _ => Files.linkAt_eq_of_passage_eq (hsame.passage v),
    fun v _ e he => (hsame.passage v).trans he, ?_⟩
  intro l hl
  rw [Files.get?_rewriteFile hne]
  split
  · rw [if_neg]
    rintro rfl
    exact hapart.1 hl
  · rename_i n hshared
    cases hget : fs.get? l with
    | none => rfl
    | some e =>
      have hother : e.shared? ≠ some n := by simpa [hget] using hapart.2 l hl n hshared
      rw [Option.map_some, if_neg hother]

/-- A file is written apart from a frame. -/
theorem stands_writeBytes {result : Except Failure Unit} (htree : host.files.IsTree)
    (hleads : host.files.LeadsBy (frame.Apart host.files) p)
    (h : exec (writeBytes p contents) host = (result, host')) : frame.Stands host host' := by
  cases result with
  | ok =>
    obtain ⟨hop, hfaults⟩ := changing_ok h
    obtain ⟨target, hresolve, hdirectory, heq⟩ := Files.writeFile_ok hop
    rw [Stands, heq]
    exact ⟨keeps_rewriteFile htree hresolve hdirectory (hleads.locate hresolve), hfaults⟩
  | error failure =>
    obtain ⟨hfiles, hfaults⟩ := changing_error h
    exact stands_of_files_eq hfiles hfaults

end Frame

end RamlBuild
