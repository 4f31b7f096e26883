import RamlBuild.Proofs.Files.Fixed
import RamlBuild.Proofs.Files.InPlace

/-!
# Copying files in place

A copy is written where its path comes to. What was there keeps its place and, if it is a file, its
other names; so paths to what is there lead to it still. A file that is copied to itself is empty
afterwards, whatever the two paths look like.

## Main definitions

* `Files.SameFile` — two locations hold one file
* `Files.Lasts` — what is there stays what it is
* `Files.Takes` — where a file is written by a path
* `Files.Copies` — a file was copied to a path

## Main results

* `Files.Lasts.reach` — paths to what is there lead to it still
* `Files.contentsAt_rewriteFile_of_sameFile`, `Files.contentsAt_rewriteFile_of_not_sameFile` — what
  is where after a file was written
* `Files.copyFile_ok`, `Files.exists_copies_of_copyFile` — what a copy writes, and what it leaves
-/

namespace RamlBuild.Files

variable {fs fs' fs'' : Files} {follow : Bool} {links : Nat} {loc l l' : Location}
  {steps : List Step} {p source target : Path} {contents : ByteArray} {mode : Nat}
  {beyond beyond' : Location → List Step → Except IoError Location}

/-- Two locations hold one file: they are the same, or it has both names. -/
def SameFile (fs : Files) (l l' : Location) : Prop :=
  l = l' ∨ ∃ n, (fs.get? l).bind Entry.shared? = some n ∧ (fs.get? l').bind Entry.shared? = some n

/-- What is there stays what it is: directories and links as they are, and files under the names that
they have. -/
structure Lasts (fs fs' : Files) : Prop where
  passage : ∀ l e, fs.passage l = some e → fs'.passage l = some e
  file : ∀ l, fs.HasFile l → fs'.HasFile l ∧
    (fs'.get? l).bind Entry.shared? = (fs.get? l).bind Entry.shared?
  workingDirectory : fs'.workingDirectory = fs.workingDirectory

namespace Lasts

theorem refl (fs : Files) : Lasts fs fs :=
  ⟨fun _ _ h => h, fun _ h => ⟨h, rfl⟩, rfl⟩

theorem trans (h : Lasts fs fs') (h' : Lasts fs' fs'') : Lasts fs fs'' := by
  refine ⟨fun l e he => h'.passage l e (h.passage l e he), fun l hl => ?_,
    h'.workingDirectory.trans h.workingDirectory⟩
  obtain ⟨hl', hshared⟩ := h.file l hl
  obtain ⟨hl'', hshared'⟩ := h'.file l hl'
  exact ⟨hl'', hshared'.trans hshared⟩

theorem get?_eq (h : Lasts fs fs') {e : Entry} (he : e.isFile = false) (hget : fs.get? l = some e) :
    fs'.get? l = some e :=
  (passage_eq_some_iff.1 (h.passage l e (passage_eq_some_iff.2 ⟨hget, he⟩))).1

theorem walkUpTo (h : Lasts fs fs') (hl : (fs.get? l).isSome = true)
    (hbeyond : ∀ loc steps, beyond loc steps = .ok l → beyond' loc steps = .ok l)
    (hwalk : fs.walkUpTo follow beyond loc steps = .ok l) :
    fs'.walkUpTo follow beyond' loc steps = .ok l := by
  induction steps generalizing loc with
  | nil => exact hwalk
  | cons step rest ih =>
    obtain ⟨mode, hget, henter⟩ := exists_directory_of_walkUpTo hwalk
    rw [walkUpTo_of_entered hget henter] at hwalk
    rw [walkUpTo_of_entered (h.get?_eq rfl hget) henter]
    cases step with
    | inside => exact ih hwalk
    | here => exact ih hwalk
    | up => exact ih hwalk
    | name n =>
      simp only [walkStep] at hwalk ⊢
      split at hwalk
      · contradiction
      rename_i hlong
      rw [if_neg hlong]
      cases hentry : fs.get? (loc ++ [n]) with
      | none =>
        -- The walk would end where nothing is.
        obtain ⟨-, rfl⟩ := (walkName_of_passage_eq_none (passage_of_none hentry)).1 hwalk
        rw [hentry] at hl
        contradiction
      | some e =>
        cases e with
        | file contents mode shared =>
          obtain ⟨⟨e', hget', hfile'⟩, -⟩ := h.file (loc ++ [n]) ⟨_, hentry, rfl⟩
          cases e' with
          | file contents' mode' shared' =>
            rw [walkName_of_passage_eq_none (passage_of_file hentry)] at hwalk
            rwa [walkName_of_passage_eq_none (passage_of_file hget')]
          | directory | link => contradiction
        | directory mode =>
          simp only [walkName, hentry, h.get?_eq rfl hentry] at hwalk ⊢
          exact ih hwalk
        | link path =>
          simp only [walkName, hentry, h.get?_eq rfl hentry] at hwalk ⊢
          split at hwalk
          · rename_i hlast
            rw [if_pos hlast]
            exact hwalk
          · rename_i hlast
            rw [if_neg hlast]
            exact hbeyond _ _ hwalk

theorem walk (h : Lasts fs fs') (hl : (fs.get? l).isSome = true)
    (hwalk : fs.walk follow links loc steps = .ok l) : fs'.walk follow links loc steps = .ok l := by
  induction links generalizing loc steps with
  | zero => exact h.walkUpTo hl (by simp) hwalk
  | succ links ih => exact h.walkUpTo hl (fun _ _ => ih) hwalk

/-- Paths to what is there lead to it still. -/
theorem reach (h : Lasts fs fs') (hl : (fs.get? l).isSome = true) (hreach : fs.reach p = .ok l) :
    fs'.reach p = .ok l := by
  rw [Files.reach, start] at hreach ⊢
  rw [h.workingDirectory]
  exact h.walk hl hreach

theorem sameFile_iff (h : Lasts fs fs') (hl : fs.HasFile l) (hl' : fs.HasFile l') :
    fs'.SameFile l l' ↔ fs.SameFile l l' := by
  rw [SameFile, SameFile, (h.file l hl).2, (h.file l' hl').2]

theorem of_makesDirectories (h : MakesDirectories fs fs') : Lasts fs fs' := by
  refine ⟨fun l e => h.passage, ?_, h.workingDirectory⟩
  rintro l ⟨e, hget, hfile⟩
  have hget' := (h.get?_eq_some_iff (Entry.isDirectory_eq_false hfile)).2 hget
  exact ⟨⟨e, hget', hfile⟩, by rw [hget, hget']⟩

end Lasts

/-! ### Writing in place -/

theorem HasFile.isSome (h : fs.HasFile l) : (fs.get? l).isSome = true := by
  obtain ⟨e, hget, -⟩ := h
  rw [hget]
  rfl

theorem hasFile_of_contentsAt (h : fs.contentsAt l = some contents) : fs.HasFile l := by
  obtain ⟨mode, shared, hget⟩ := contentsAt_eq_some_iff.1 h
  exact ⟨_, hget, rfl⟩

/-- A file that is written is another one under all of its names. -/
theorem get?_rewriteFile_of_sameFile (contents : ByteArray) (mode : Nat) (hne : loc ≠ []) (h : fs.SameFile loc l) :
    ∃ shared, (fs.rewriteFile loc contents mode).get? l = some (.file contents mode shared) := by
  rw [get?_rewriteFile hne]
  cases hshared : (fs.get? loc).bind Entry.shared? with
  | none =>
    rcases h with rfl | ⟨n, hn, -⟩
    · exact ⟨none, if_pos rfl⟩
    · rw [hshared] at hn
      contradiction
  | some n =>
    have hl : (fs.get? l).bind Entry.shared? = some n := by
      rcases h with rfl | ⟨n', hn', hl⟩
      · exact hshared
      · exact hl.trans (hn'.symm.trans hshared)
    obtain ⟨e, hget, he⟩ := Option.bind_eq_some_iff.1 hl
    refine ⟨some n, ?_⟩
    simp only [hget, Option.map_some, if_pos he]

/-- Other entries are as they were. -/
theorem get?_rewriteFile_of_not_sameFile (hne : loc ≠ []) (h : ¬fs.SameFile loc l) :
    (fs.rewriteFile loc contents mode).get? l = fs.get? l := by
  rw [get?_rewriteFile hne]
  split
  · refine if_neg ?_
    rintro rfl
    exact h (.inl rfl)
  · rename_i n hshared
    cases hget : fs.get? l with
    | none => rfl
    | some e =>
      rw [Option.map_some, if_neg]
      intro he
      exact h (.inr ⟨n, hshared, by rw [hget]; exact he⟩)

theorem contentsAt_rewriteFile_of_sameFile (hne : loc ≠ []) (h : fs.SameFile loc l) :
    (fs.rewriteFile loc contents mode).contentsAt l = some contents := by
  obtain ⟨shared, hget⟩ := get?_rewriteFile_of_sameFile contents mode hne h
  rw [contentsAt, hget]

theorem contentsAt_rewriteFile_of_not_sameFile (hne : loc ≠ []) (h : ¬fs.SameFile loc l) :
    (fs.rewriteFile loc contents mode).contentsAt l = fs.contentsAt l := by
  rw [contentsAt, get?_rewriteFile_of_not_sameFile hne h, contentsAt]

/-- A file keeps its names when it is written. -/
theorem shared?_rewriteFile (hne : loc ≠ []) :
    ((fs.rewriteFile loc contents mode).get? l).bind Entry.shared? =
      (fs.get? l).bind Entry.shared? := by
  rw [get?_rewriteFile hne]
  split
  · rename_i hshared
    split
    · rename_i heq
      rw [heq, hshared]
      rfl
    · rfl
  · rename_i n hshared
    cases fs.get? l with
    | none => rfl
    | some e =>
      simp only [Option.map_some, Option.bind_some]
      split
      · rename_i he
        exact he.symm
      · rfl

theorem sameFile_rewriteFile (hne : loc ≠ []) :
    (fs.rewriteFile loc contents mode).SameFile l l' ↔ fs.SameFile l l' := by
  rw [SameFile, SameFile, shared?_rewriteFile hne, shared?_rewriteFile hne]

/-- A file is written where its path comes to, if that is no directory. -/
structure Takes (fs : Files) (p : Path) (l : Location) : Prop where
  resolve : fs.resolve p = .ok l
  not_directory : ∀ mode, fs.get? l ≠ some (.directory mode)

namespace Takes

variable (h : fs.Takes p l) (htree : fs.IsTree)

include h

theorem ne_nil : l ≠ [] := by
  rintro rfl
  exact h.not_directory _ get?_nil

include htree

theorem passage : fs.passage l = none :=
  passage_eq_none (linkAt_of_resolve htree h.resolve) h.not_directory

theorem isTree : (fs.rewriteFile l contents mode).IsTree := by
  obtain ⟨dir, name, dirMode, rfl, hdir⟩ := directory_of_locate htree h.resolve h.ne_nil
  exact isTree_rewriteFile htree hdir (h.passage htree)

theorem lasts : Lasts fs (fs.rewriteFile l contents mode) := by
  refine ⟨fun v e he => ?_, fun v hv => ⟨?_, shared?_rewriteFile h.ne_nil⟩,
    workingDirectory_rewriteFile⟩
  · rwa [passage_rewriteFile h.ne_nil (h.passage htree)]
  · by_cases hsame : fs.SameFile l v
    · obtain ⟨shared, hget⟩ :=
        get?_rewriteFile_of_sameFile contents mode h.ne_nil hsame
      exact ⟨_, hget, rfl⟩
    · obtain ⟨e, hget, he⟩ := hv
      exact ⟨e, (get?_rewriteFile_of_not_sameFile h.ne_nil hsame).trans hget, he⟩

/-- The path leads to the file that was written. -/
theorem reach : (fs.rewriteFile l contents mode).reach p = .ok l := by
  have hsame : SamePassages fs (fs.rewriteFile l contents mode) :=
    ⟨fun v => passage_rewriteFile h.ne_nil (h.passage htree), workingDirectory_rewriteFile⟩
  exact reach_of_resolve (locate_of_samePassages hsame h.resolve)

end Takes

theorem exists_takes_of_writeFile (h : fs.writeFile p contents mode = .ok fs') :
    ∃ l mode', fs.Takes p l ∧ fs' = fs.rewriteFile l contents mode' := by
  obtain ⟨l, hresolve, hdirectory, heq⟩ := writeFile_ok h
  exact ⟨l, _, ⟨hresolve, hdirectory⟩, heq⟩

theorem isSameFile_iff {e : Entry} (hget : fs.get? l' = some e) :
    (fs.get? l).any e.isSameFile = true ↔
      ∃ n, (fs.get? l).bind Entry.shared? = some n ∧ (fs.get? l').bind Entry.shared? = some n := by
  rw [hget, Option.bind_some]
  cases hl : fs.get? l with
  | none => simp
  | some other =>
    rw [Option.any_some, Option.bind_some, Entry.isSameFile]
    cases e.shared? with
    | none => simp
    | some m =>
      cases other.shared? with
      | none => simp
      | some n =>
        simp only [beq_iff_eq, Option.some.injEq]
        constructor
        · rintro rfl
          exact ⟨m, rfl, rfl⟩
        · rintro ⟨k, rfl, rfl⟩
          rfl

/-- A copy writes what the source holds, and nothing if it is the source itself. -/
theorem copyFile_ok (h : fs.copyFile source target = .ok fs') (hsource : fs.reach source = .ok l)
    (hcontents : fs.contentsAt l = some contents) :
    ∃ loc written mode, fs.Takes target loc ∧ fs' = fs.rewriteFile loc written mode ∧
      (fs.SameFile loc l → written = .empty) ∧ (¬fs.SameFile loc l → written = contents) := by
  unfold copyFile at h
  cases hstat : fs.stat source with
  | error error =>
    rw [hstat] at h
    contradiction
  | ok found =>
    obtain ⟨l', e⟩ := found
    obtain ⟨hresolve, hget⟩ := Archive.stat_ok hstat
    obtain rfl := Except.ok.inj (hsource.symm.trans (reach_of_resolve hresolve))
    obtain ⟨mode, shared, hfile⟩ := contentsAt_eq_some_iff.1 hcontents
    obtain rfl := Option.some.inj (hget.symm.trans hfile)
    simp only [hstat, bind, Except.bind] at h
    split at h
    · contradiction
    cases hwritable : fs.writable target with
    | error error =>
      rw [hwritable] at h
      contradiction
    | ok loc =>
      obtain ⟨hresolve', hdirectory⟩ := writable_ok hwritable
      simp only [hwritable] at h
      refine ⟨loc, _, mode, ⟨hresolve', hdirectory⟩, (Except.ok.inj h).symm, ?_, ?_⟩
      · intro hsame
        refine if_pos ?_
        rw [Bool.or_eq_true, decide_eq_true_iff, isSameFile_iff hget]
        exact hsame
      · intro hother
        refine if_neg ?_
        rw [Bool.or_eq_true, decide_eq_true_iff, isSameFile_iff hget]
        exact hother

/-- A file was copied to a path: the path leads to what was written, and the source has it too. What
held it before holds it still. -/
structure Copies (fs fs' : Files) (target : Path) (l loc : Location)
    (contents written : ByteArray) : Prop where
  isTree : fs'.IsTree
  lasts : Lasts fs fs'
  reach : fs'.reach target = .ok loc
  contentsAt_target : fs'.contentsAt loc = some written
  contentsAt_source : fs'.contentsAt l = some written
  kept : ∀ v, fs.contentsAt v = some written → fs'.contentsAt v = some written
  of_sameFile : fs'.SameFile loc l → written = .empty
  of_not_sameFile : ¬fs'.SameFile loc l → written = contents

theorem exists_copies_of_copyFile (htree : fs.IsTree) (hsource : fs.reach source = .ok l)
    (hcontents : fs.contentsAt l = some contents) (h : fs.copyFile source target = .ok fs') :
    ∃ loc written, Copies fs fs' target l loc contents written := by
  obtain ⟨loc, written, mode, htakes, rfl, hsame, hother⟩ := copyFile_ok h hsource hcontents
  have hne := htakes.ne_nil
  have hkept : ∀ v, fs.contentsAt v = some written →
      (fs.rewriteFile loc written mode).contentsAt v = some written := by
    intro v hv
    by_cases hv' : fs.SameFile loc v
    · exact contentsAt_rewriteFile_of_sameFile hne hv'
    · rwa [contentsAt_rewriteFile_of_not_sameFile hne hv']
  refine ⟨loc, written, htakes.isTree htree, htakes.lasts htree, htakes.reach htree,
    contentsAt_rewriteFile_of_sameFile hne (.inl rfl), ?_, hkept, ?_, ?_⟩
  · by_cases hl : fs.SameFile loc l
    · exact contentsAt_rewriteFile_of_sameFile hne hl
    · rw [hother hl]
      rwa [contentsAt_rewriteFile_of_not_sameFile hne hl]
  · rwa [sameFile_rewriteFile hne]
  · rwa [sameFile_rewriteFile hne]

end RamlBuild.Files
