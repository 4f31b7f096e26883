import RamlBuild.Proofs.Build.Files
import RamlBuild.Proofs.Files.Replace
import RamlBuild.Sources.Apply

/-!
# Rewriting the files of a directory

Files of one directory are rewritten one after the other. Each has what becomes of its text, and
everything else is as it was, also when some of the files were links.

## Main definitions

* `Files.textOf` — the text of the file at a location

## Main results

* `exec_rewrite_child_ok` — rewriting one file of a directory
* `exec_rewriteAll_ok` — rewriting files of a directory one after the other
* `exec_writeCompanion_child_ok` — a file of a directory with fixed contents
-/

namespace RamlBuild

open Build

variable {host host' : Host} {fs fs' : Files} {p : Path} {dir loc l : Location} {name : String}
  {text source : String} {transform : String → String}

/-- The text of the file at a location. -/
def Files.textOf (fs : Files) (loc : Location) : Option String :=
  match fs.get? loc with
  | some (.file contents _ _) => String.fromUTF8? contents
  | _ => none

theorem Files.textOf_congr (h : fs'.get? loc = fs.get? loc) : fs'.textOf loc = fs.textOf loc := by
  rw [textOf, textOf, h]

theorem Files.Replaced.textOf_target {mode : Nat}
    (h : Replaced fs fs' loc text.toUTF8 mode) : fs'.textOf loc = some text := by
  rw [textOf, h.get?_target]
  exact fromUTF8?_toUTF8 text

theorem Files.Replaced.textOf_other {contents : ByteArray} {mode : Nat}
    (h : Replaced fs fs' loc contents mode) (hl : l ≠ loc) : fs'.textOf l = fs.textOf l :=
  textOf_congr (h.get?_other l hl)

/-- A text is read from the file that the path leads to. -/
theorem textOf_of_textAt (h : textAt fs p = .ok (some text)) :
    ∃ loc, fs.resolve p = .ok loc ∧ fs.textOf loc = some text := by
  unfold textAt Files.readFile Files.stat at h
  cases hresolve : fs.resolve p with
  | error error =>
    rw [hresolve] at h
    contradiction
  | ok loc =>
    refine ⟨loc, rfl, ?_⟩
    simp only [hresolve, Files.entryAt, bind, Except.bind] at h
    unfold Files.textOf
    cases hget : fs.get? loc with
    | none =>
      rw [hget] at h
      contradiction
    | some e =>
      rw [hget] at h
      simp only at h
      split at h
      · contradiction
      · cases e with
        | file contents mode shared => exact Except.ok.inj h
        | directory | link => contradiction

/-- The text of an entry that is no link is read by its path. -/
theorem textOf_child_of_textAt (hfewer : Files.FewerPassages fs fs') (htree : fs'.IsTree)
    (hname : IsPlainName name) (hreach : fs.reach p = .ok dir)
    (hlink : fs'.linkAt (dir ++ [name]) = none) (h : textAt fs' (p / name) = .ok (some text)) :
    fs'.textOf (dir ++ [name]) = some text := by
  obtain ⟨loc, hresolve, htext⟩ := textOf_of_textAt h
  rwa [Files.resolve_child_of_fewerPassages hfewer htree hname hreach hlink hresolve] at htext

theorem linkAt_eq_none_of_fewerPassages (h : Files.FewerPassages fs fs')
    (hlink : fs.linkAt loc = none) : fs'.linkAt loc = none := by
  cases hlink' : fs'.linkAt loc with
  | none => rfl
  | some target =>
    have hget := h.get?_eq rfl (Files.linkAt_eq_some_iff.1 hlink')
    rw [Files.linkAt_eq_some_iff.2 hget] at hlink
    contradiction

/-- Named entries of a directory may become other files, and every other entry is as it was. -/
structure ChangesOnly (dir : Location) (names : List String) (fs fs' : Files) : Prop where
  get?_other : ∀ l, (∀ name ∈ names, l ≠ dir ++ [name]) → fs'.get? l = fs.get? l
  fewer : Files.FewerPassages fs fs'
  isTree : fs.IsTree → fs'.IsTree

namespace ChangesOnly

variable {names names' : List String} {fs'' : Files}

theorem refl (fs : Files) : ChangesOnly dir names fs fs :=
  ⟨fun _ _ => rfl, Files.FewerPassages.refl fs, fun h => h⟩

/-- One change after the other changes what either of them may. -/
theorem trans (h : ChangesOnly dir names fs fs') (h' : ChangesOnly dir names' fs' fs'') :
    ChangesOnly dir (names ++ names') fs fs'' := by
  refine ⟨?_, h.fewer.trans h'.fewer, fun htree => h'.isTree (h.isTree htree)⟩
  intro l hl
  rw [h'.get?_other l fun name hname => hl name (List.mem_append_right _ hname)]
  exact h.get?_other l fun name hname => hl name (List.mem_append_left _ hname)

theorem of_replaced {contents : ByteArray} {mode : Nat}
    (h : Files.Replaced fs fs' (dir ++ [name]) contents mode)
    (hplace : fs.place p = .ok (dir ++ [name])) : ChangesOnly dir [name] fs fs' := by
  refine ⟨?_, h.fewerPassages, fun htree => h.isTree htree hplace⟩
  intro l hl
  exact h.get?_other l (hl name List.mem_cons_self)

/-- Other entries of the directory have the text they had. -/
theorem textOf_other (h : ChangesOnly dir names fs fs') (hname : name ∉ names) :
    fs'.textOf (dir ++ [name]) = fs.textOf (dir ++ [name]) := by
  refine Files.textOf_congr (h.get?_other _ ?_)
  rintro other hother heq
  obtain ⟨-, heq⟩ := List.append_inj' heq rfl
  rw [List.singleton_inj] at heq
  exact hname (heq ▸ hother)

end ChangesOnly

/-- A file of a directory that is no link has what becomes of its text. -/
theorem exec_rewrite_child_ok {changed : Bool} (hfewer : Files.FewerPassages fs host.files)
    (htree : host.files.IsTree) (hname : IsPlainName name) (hreach : fs.reach p = .ok dir)
    (h : exec (rewrite (p / name) (always transform (p / name))) host = (.ok changed, host')) :
    ChangesOnly dir [name] host.files host'.files ∧
      (host.files.linkAt (dir ++ [name]) = none →
        ∃ source, host.files.textOf (dir ++ [name]) = some source ∧
          host'.files.textOf (dir ++ [name]) = some (transform source)) := by
  obtain ⟨input, output, hinput, houtput, -, hwritten⟩ := rewrite_ok h
  obtain rfl : transform input = output := Except.ok.inj houtput
  have htext := fun hlink => textOf_child_of_textAt hfewer htree hname hreach hlink hinput
  rcases hwritten with ⟨-, hsame, hfiles⟩ | ⟨-, -, target, hplace, hreplaced⟩
  · rw [hfiles]
    exact ⟨ChangesOnly.refl _, fun hlink => ⟨input, htext hlink, by rw [htext hlink, hsame]⟩⟩
  · obtain rfl := Files.place_child_of_fewerPassages hfewer hname hreach hplace
    exact ⟨ChangesOnly.of_replaced hreplaced hplace,
      fun hlink => ⟨input, htext hlink, hreplaced.textOf_target⟩⟩

/-- The files of a directory that are no links have what becomes of their texts. -/
theorem exec_rewriteAll_ok {names : List String} {changed : List Path}
    (hfewer : Files.FewerPassages fs host.files) (htree : host.files.IsTree)
    (hplain : ∀ name ∈ names, IsPlainName name) (hnodup : names.Nodup)
    (hreach : fs.reach p = .ok dir)
    (h : exec (rewriteAll (always transform) (names.map fun name : String => p / name)) host =
      (.ok changed, host')) :
    ChangesOnly dir names host.files host'.files ∧
      ∀ name ∈ names, host.files.linkAt (dir ++ [name]) = none →
        ∃ source, host.files.textOf (dir ++ [name]) = some source ∧
          host'.files.textOf (dir ++ [name]) = some (transform source) := by
  induction names generalizing host changed with
  | nil =>
    obtain ⟨-, rfl⟩ := Prod.mk.inj h
    exact ⟨ChangesOnly.refl _, by simp⟩
  | cons name rest ih =>
    rw [List.map_cons, rewriteAll] at h
    obtain ⟨first, host₁, hfirst, h⟩ := exec_bind_ok h
    obtain ⟨others, host₂, hothers, h⟩ := exec_bind_ok h
    obtain ⟨-, rfl⟩ := Prod.mk.inj h
    obtain ⟨hname, hrest⟩ := List.nodup_cons.1 hnodup
    obtain ⟨hchange, htext⟩ :=
      exec_rewrite_child_ok hfewer htree (hplain name List.mem_cons_self) hreach hfirst
    obtain ⟨hchanges, htexts⟩ := ih (hfewer.trans hchange.fewer) (hchange.isTree htree)
      (fun other hother => hplain other (List.mem_cons_of_mem _ hother)) hrest hothers
    refine ⟨hchange.trans hchanges, ?_⟩
    intro other hother hlink
    rcases List.mem_cons.1 hother with rfl | hother
    · -- The later files leave the first one alone.
      obtain ⟨source, hsource, htarget⟩ := htext hlink
      exact ⟨source, hsource, by rw [hchanges.textOf_other hname, htarget]⟩
    · have hne : other ∉ [name] := by
        rw [List.mem_singleton]
        intro heq
        exact hname (heq ▸ hother)
      rw [← hchange.textOf_other hne]
      exact htexts other hother (linkAt_eq_none_of_fewerPassages hchange.fewer hlink)

/-- A file of a directory that is no link has the fixed contents. -/
theorem exec_writeCompanion_child_ok {written : Bool} (htree : host.files.IsTree)
    (hname : IsPlainName name) (hreach : host.files.reach p = .ok dir)
    (h : exec (writeCompanion (p / name) source) host = (.ok written, host')) :
    ChangesOnly dir [name] host.files host'.files ∧
      (host.files.linkAt (dir ++ [name]) = none →
        host'.files.textOf (dir ++ [name]) = some source) := by
  have hfewer := Files.FewerPassages.refl host.files
  rw [writeCompanion] at h
  have hread : ∃ same host₁, host₁.files = host.files ∧
      (same = true → textAt host.files (p / name) = .ok (some source)) ∧
      exec (if same = true then pure false else do
        writeAtomically (p / name) source
        pure true) host₁ = (.ok written, host') := by
    rw [isFile, exec_asking_bind] at h
    split at h
    · obtain ⟨text, host₁, hread, h⟩ := exec_bind_ok h
      obtain ⟨htext, rfl⟩ := readText_ok hread
      refine ⟨decide (text = source), counted host, rfl, ?_, h⟩
      intro hsame
      rw [htext, of_decide_eq_true hsame]
    · exact ⟨false, host, rfl, by simp, h⟩
  obtain ⟨same, host₁, hfiles, htext, h⟩ := hread
  split at h
  · rename_i heq
    obtain ⟨-, rfl⟩ := Prod.mk.inj h
    rw [hfiles]
    exact ⟨ChangesOnly.refl _,
      fun hlink => textOf_child_of_textAt hfewer htree hname hreach hlink (htext heq)⟩
  · obtain ⟨⟨⟩, host₂, hwrite, h⟩ := exec_bind_ok h
    obtain ⟨-, rfl⟩ := Prod.mk.inj h
    obtain ⟨target, hplace, hreplaced, -⟩ := writeAtomically_ok hwrite
    rw [hfiles] at hplace hreplaced
    obtain rfl := Files.place_child_of_fewerPassages hfewer hname hreach hplace
    exact ⟨ChangesOnly.of_replaced hreplaced hplace, fun _ => hreplaced.textOf_target⟩

end RamlBuild
