import RamlBuild.Proofs.Sources.Stages

/-!
# Sources that can be read

The path of a source leads to its location where the directories above it can be entered. Patches
leave these directories, and what they write has the permissions that it had. So what could be read
and listed before patches ran can be read and listed after them.

## Main definitions

* `Files.Enters` — a directory of sources that can be entered
* `Patched` — two trees, the second with other texts for some sources

## Main results

* `Generated.resolve_child_iff`, `Generated.resolve_area_iff` — where paths lead
* `Patched.exists_textAt`, `Patched.exists_list` — what can be read and listed still can be
-/

namespace RamlBuild

open Build

variable {layout : Layout} {root loc : Location} {fs fs' fs'' : Files} {s : Source} {area : Area}
  {name text : String} {p : Path}

/-! ### Where paths lead -/

theorem Files.isDirectory_iff : fs.isDirectory p = true ↔
    ∃ loc mode, fs.resolve p = .ok loc ∧ fs.get? loc = some (.directory mode) := by
  unfold Files.isDirectory
  constructor
  · intro hdirectory
    split at hdirectory
    · rename_i loc mode hstat
      exact ⟨loc, mode, stat_eq_ok_iff.1 hstat⟩
    · contradiction
  · rintro ⟨loc, mode, hstat⟩
    rw [stat_eq_ok_iff.2 hstat]

/-- A directory that can be entered is at a location. -/
def Files.Enters (fs : Files) (loc : Location) : Prop :=
  ∃ mode, fs.get? loc = some (.directory mode) ∧ (Entry.directory mode).permits .enter = true

theorem Source.ne_location_root (root : Location) (s : Source) : root ≠ s.location root := by
  intro heq
  have hlength := congrArg List.length heq
  simp [location, Area.location] at hlength

theorem Source.ne_location_area (root : Location) (area : Area) (s : Source) :
    area.location root ≠ s.location root := by
  intro heq
  have hlength := congrArg List.length heq
  simp [location, Area.location] at hlength

namespace Generated

/-- The directory of an area is found where the one above it can be entered. -/
theorem reach_area_iff (h : Generated layout root fs) :
    fs.reach (area.path layout) = .ok loc ↔
      loc = area.location root ∧ area.name.utf8ByteSize ≤ Files.maxNameSize ∧ fs.Enters root := by
  have hroot := Files.reach_of_resolve h.resolve
  rw [Area.path, Files.reach_child area.isPlainName, hroot]
  · exact Files.takeStep_name_iff
  · intro dir hdir
    obtain rfl := Except.ok.inj (hroot.symm.trans hdir)
    exact Files.endsPlainly_of_linkAt (h.linkAt_eq [area.name])

/-- A path into the directory of an area leads to the entry of its name. -/
theorem resolve_child_iff (h : Generated layout root fs) (hname : IsPlainName name) :
    fs.resolve (area.path layout / name) = .ok loc ↔
      Files.requirePath (area.path layout / name) = .ok () ∧ loc = area.location root ++ [name] ∧
        name.utf8ByteSize ≤ Files.maxNameSize ∧ area.name.utf8ByteSize ≤ Files.maxNameSize ∧
        fs.Enters root ∧ fs.Enters (area.location root) := by
  by_cases hpath : Files.requirePath (area.path layout / name) = .ok ()
  · rw [Files.resolve, Files.locate_child hname hpath]
    · cases hreach : fs.reach (area.path layout) with
      | error error =>
        have hnot : ¬(area.name.utf8ByteSize ≤ Files.maxNameSize ∧ fs.Enters root) := by
          intro henters
          rw [h.reach_area_iff.2 ⟨rfl, henters⟩] at hreach
          contradiction
        simp only [Except.bind, reduceCtorEq, false_iff]
        exact fun hall => hnot ⟨hall.2.2.2.1, hall.2.2.2.2.1⟩
      | ok dir =>
        obtain ⟨rfl, hsize, henters⟩ := h.reach_area_iff.1 hreach
        simp only [Except.bind, Files.takeStep_name_iff, hpath, hsize, henters, true_and]
        rfl
    · intro dir hdir
      obtain rfl := h.eq_location_of_reach hdir
      refine Files.endsPlainly_of_linkAt ?_
      rw [Area.location, List.append_assoc]
      exact h.linkAt_eq _
  · refine iff_of_false (fun hresolve => hpath (Files.requirePath_of_locate hresolve)) ?_
    exact fun hall => hpath hall.1

/-- The path of the directory of an area leads there. -/
theorem resolve_area_iff (h : Generated layout root fs) :
    fs.resolve (area.path layout) = .ok loc ↔
      Files.requirePath (area.path layout) = .ok () ∧ loc = area.location root ∧
        area.name.utf8ByteSize ≤ Files.maxNameSize ∧ fs.Enters root := by
  by_cases hpath : Files.requirePath (area.path layout) = .ok ()
  · have hroot := Files.reach_of_resolve h.resolve
    have hstep : fs.resolve (area.path layout) = fs.takeStep root (.name area.name) := by
      rw [Files.resolve, Area.path, Files.locate_child area.isPlainName hpath, hroot]
      · rfl
      · intro dir hdir
        obtain rfl := Except.ok.inj (hroot.symm.trans hdir)
        exact Files.endsPlainly_of_linkAt (h.linkAt_eq [area.name])
    rw [hstep, Files.takeStep_name_iff, and_iff_right hpath]
    rfl
  · refine iff_of_false (fun hresolve => hpath (Files.requirePath_of_locate hresolve)) ?_
    exact fun hall => hpath hall.1

/-- A file of a directory of sources. -/
theorem isFile_child_iff (h : Generated layout root fs) (hname : IsPlainName name) :
    fs.isFile (area.path layout / name) = true ↔
      (∃ loc, fs.resolve (area.path layout / name) = .ok loc) ∧
        (fs.contentsAt (area.location root ++ [name])).isSome = true := by
  unfold Files.isFile Files.contentsAt
  constructor
  · intro hfile
    split at hfile
    · rename_i loc contents mode shared hstat
      obtain ⟨hresolve, hget⟩ := stat_eq_ok_iff.1 hstat
      obtain ⟨-, rfl, -⟩ := (h.resolve_child_iff hname).1 hresolve
      exact ⟨⟨_, hresolve⟩, by rw [hget]; rfl⟩
    · contradiction
  · rintro ⟨⟨loc, hresolve⟩, hsome⟩
    obtain ⟨-, rfl, -⟩ := (h.resolve_child_iff hname).1 hresolve
    split at hsome
    · rename_i contents mode shared hget
      rw [stat_eq_ok_iff.2 ⟨hresolve, hget⟩]
    · contradiction

end Generated

/-! ### Trees with other texts -/

/-- Between two trees texts of sources were written: each under the permissions that the source had,
or those of a temporary file where it is new. -/
structure Patched (root : Location) (fs fs' : Files) : Prop where
  get?_other : ∀ loc, (∀ s : Source, loc ≠ s.location root) → fs'.get? loc = fs.get? loc
  get?_source : ∀ s : Source, fs'.get? (s.location root) = fs.get? (s.location root) ∨
    (∀ e, fs.get? (s.location root) = some e → e.isFile = true) ∧ ∃ text : String,
      fs'.get? (s.location root) =
        some (.file text.toUTF8 (fs.modeFor (s.location root)) none)

theorem Wrote.patched {output : Source → String → Prop} {written : List Source}
    (h : Wrote output root fs fs' written) : Patched root fs fs' where
  get?_other loc hloc := h.get?_other loc fun s _ => hloc s
  get?_source s := by
    by_cases hs : s ∈ written
    · obtain ⟨text, -, -, hget⟩ := h.get?_written s hs
      exact .inr ⟨h.isFile_before s hs, text, hget⟩
    · exact .inl (h.get?_of_not_mem hs)

namespace Patched

theorem refl (root : Location) (fs : Files) : Patched root fs fs :=
  ⟨fun _ _ => rfl, fun _ => .inl rfl⟩

theorem trans (h : Patched root fs fs') (h' : Patched root fs' fs'') : Patched root fs fs'' where
  get?_other loc hloc := (h'.get?_other loc hloc).trans (h.get?_other loc hloc)
  get?_source s := by
    rcases h.get?_source s with heq | ⟨hfile, text, hget⟩
    · rcases h'.get?_source s with heq' | ⟨hfile', text', hget'⟩
      · exact .inl (heq'.trans heq)
      · rw [Files.modeFor, heq] at hget'
        rw [heq] at hfile'
        exact .inr ⟨hfile', text', hget'⟩
    · refine .inr ⟨hfile, ?_⟩
      rcases h'.get?_source s with heq' | ⟨-, text', hget'⟩
      · exact ⟨text, heq'.trans hget⟩
      · rw [Files.modeFor, hget] at hget'
        exact ⟨text', hget'⟩

/-- A file that is there stays a file. -/
theorem isSome_contentsAt (h : Patched root fs fs') (hsome : (fs.contentsAt loc).isSome = true) :
    (fs'.contentsAt loc).isSome = true := by
  by_cases hsource : ∃ s : Source, loc = s.location root
  · obtain ⟨s, rfl⟩ := hsource
    rcases h.get?_source s with heq | ⟨-, text, heq⟩
    · rwa [Files.contentsAt, heq]
    · rw [Files.contentsAt, heq]
      rfl
  · rwa [Files.contentsAt, h.get?_other loc fun s hs => hsource ⟨s, hs⟩]

theorem enters_root_iff (h : Patched root fs fs') : fs'.Enters root ↔ fs.Enters root := by
  rw [Files.Enters, Files.Enters, h.get?_other root (Source.ne_location_root root)]

theorem enters_area_iff (h : Patched root fs fs') :
    fs'.Enters (area.location root) ↔ fs.Enters (area.location root) := by
  rw [Files.Enters, Files.Enters, h.get?_other _ (Source.ne_location_area root area)]

variable (h : Patched root fs fs') (hgen : Generated layout root fs)
  (hgen' : Generated layout root fs')
include h hgen hgen'

theorem resolve_child_iff (hname : IsPlainName name) :
    fs'.resolve (area.path layout / name) = .ok loc ↔
      fs.resolve (area.path layout / name) = .ok loc := by
  rw [hgen.resolve_child_iff hname, hgen'.resolve_child_iff hname, h.enters_root_iff,
    h.enters_area_iff]

theorem resolve_area_iff :
    fs'.resolve (area.path layout) = .ok loc ↔ fs.resolve (area.path layout) = .ok loc := by
  rw [hgen.resolve_area_iff, hgen'.resolve_area_iff, h.enters_root_iff]

/-- A directory of sources is there as before. -/
theorem isDirectory_area : fs'.isDirectory (area.path layout) = fs.isDirectory (area.path layout) := by
  rw [Bool.eq_iff_iff, Files.isDirectory_iff, Files.isDirectory_iff]
  refine exists_congr fun loc => exists_congr fun mode => ?_
  rw [h.resolve_area_iff hgen hgen']
  refine and_congr_right fun hresolve => ?_
  obtain ⟨-, rfl, -⟩ := hgen.resolve_area_iff.1 hresolve
  rw [h.get?_other _ (Source.ne_location_area root area)]

/-- So is the one of all sources. -/
theorem isDirectory_root : fs'.isDirectory layout.root = fs.isDirectory layout.root := by
  rw [Bool.eq_iff_iff, Files.isDirectory_iff, Files.isDirectory_iff, hgen.resolve, hgen'.resolve]
  refine exists_congr fun loc => exists_congr fun mode => and_congr_right fun hroot => ?_
  obtain rfl := Except.ok.inj hroot
  rw [h.get?_other root (Source.ne_location_root root)]

/-- A directory that could be listed can be listed. -/
theorem exists_list (hlist : ∃ entries, fs.list (area.path layout) = .ok entries) :
    ∃ entries, fs'.list (area.path layout) = .ok entries := by
  obtain ⟨entries, hlist⟩ := hlist
  unfold Files.list at hlist ⊢
  cases hstat : fs.stat (area.path layout) with
  | error error =>
    rw [hstat] at hlist
    contradiction
  | ok found =>
    obtain ⟨loc, e⟩ := found
    obtain ⟨hresolve, hget⟩ := stat_eq_ok_iff.1 hstat
    have hresolve' := (h.resolve_area_iff hgen hgen').2 hresolve
    obtain ⟨-, rfl, -⟩ := hgen.resolve_area_iff.1 hresolve
    rw [← h.get?_other _ (Source.ne_location_area root area)] at hget
    rw [hstat] at hlist
    rw [stat_eq_ok_iff.2 ⟨hresolve', hget⟩]
    simp only [bind, Except.bind] at hlist ⊢
    cases e with
    | directory mode =>
      simp only at hlist ⊢
      split at hlist
      · rename_i hread
        exact ⟨_, if_pos hread⟩
      · contradiction
    | file | link => contradiction

/-- A source that could be read can be read. -/
theorem exists_textAt (hread : ∃ text, textAt fs (s.path layout) = .ok (some text)) :
    ∃ text, textAt fs' (s.path layout) = .ok (some text) := by
  obtain ⟨text, hread⟩ := hread
  obtain ⟨loc, contents, mode, shared, hresolve, hget, hpermits, htext⟩ := textAt_eq_ok_iff.1 hread
  have hresolve' := (h.resolve_child_iff hgen hgen' s.isPlainName).2 hresolve
  obtain rfl := hgen.eq_location_of_resolve hresolve
  rcases h.get?_source s with heq | ⟨-, output, hget'⟩
  · exact ⟨text, textAt_eq_ok_iff.2 ⟨_, contents, mode, shared, hresolve', heq.trans hget, hpermits,
      htext⟩⟩
  · rw [Files.modeFor, hget] at hget'
    exact ⟨output, textAt_eq_ok_iff.2 ⟨_, _, _, _, hresolve', hget', hpermits,
      fromUTF8?_toUTF8 output⟩⟩

/-- A file of a directory of sources stays one. -/
theorem isFile_child (hname : IsPlainName name) (hfile : fs.isFile (area.path layout / name) = true) :
    fs'.isFile (area.path layout / name) = true := by
  obtain ⟨⟨loc, hresolve⟩, hsome⟩ := (hgen.isFile_child_iff hname).1 hfile
  exact (hgen'.isFile_child_iff hname).2
    ⟨⟨loc, (h.resolve_child_iff hgen hgen' hname).2 hresolve⟩, h.isSome_contentsAt hsome⟩

/-- A source that is a file, and is there before, is a file before. -/
theorem isFile_source_of_isSome (hsome : (fs.contentsAt (s.location root)).isSome = true)
    (hfile : fs'.isFile (s.path layout) = true) : fs.isFile (s.path layout) = true := by
  obtain ⟨⟨loc, hresolve⟩, -⟩ := (hgen'.isFile_child_iff s.isPlainName).1 hfile
  exact (hgen.isFile_child_iff s.isPlainName).2
    ⟨⟨loc, (h.resolve_child_iff hgen hgen' s.isPlainName).1 hresolve⟩, hsome⟩

end Patched

end RamlBuild
