import RamlBuild.Proofs.Files.Child

/-!
# Replacing a file

A file that is complete elsewhere is moved to its place in one step. Afterwards it stands there, the
place it was moved from is free, and every other entry is as it was.

When a file takes the place of a link, fewer paths lead through the tree. Those that still do lead
where they did.

## Main definitions

* `Files.Distinct` — no location has two entries
* `Files.AgreeOff` — the same entries but at one location
* `Files.Replaced` — one file with new contents, and every other entry as it was
* `Files.FewerPassages` — no directory or link is new

## Main results

* `Files.moveTo_file` — moving a file that has one name
* `Files.Replaced.isTree` — a tree stays one
* `Files.walk_of_fewerPassages` — a walk that still leads to a directory led there before
* `Files.Replaced.fewerPassages` — a replaced file brings no directory and no link
* `Files.resolve_child_of_fewerPassages` — a path to an entry that is no link
-/

namespace RamlBuild.Files

variable {fs fs' fs'' : Files} {loc l target : Location} {p : Path} {e : Entry}
  {contents : ByteArray} {mode : Nat}

/-! ### One entry at a location -/

/-- No location has two entries, and none is that of the root. -/
def Distinct (fs : Files) : Prop :=
  (fs.entries.map Prod.fst).Nodup ∧ [] ∉ fs.entries.map Prod.fst

theorem Distinct.filter (h : fs.Distinct) (p : Location × Entry → Bool) :
    Distinct { fs with entries := fs.entries.filter p } := by
  have hsublist : List.Sublist ((fs.entries.filter p).map Prod.fst) (fs.entries.map Prod.fst) :=
    List.filter_sublist.map Prod.fst
  exact ⟨h.1.sublist hsublist, fun hmem => h.2 (hsublist.subset hmem)⟩

theorem Distinct.put (h : fs.Distinct) (hne : loc ≠ []) : (fs.put loc e).Distinct := by
  have hrest : Distinct { fs with entries := fs.entries.filter (·.1 != loc) } := h.filter _
  refine ⟨?_, ?_⟩
  · simp only [Files.put, List.map_cons, List.nodup_cons]
    refine ⟨?_, hrest.1⟩
    intro hmem
    obtain ⟨x, hx, heq⟩ := List.mem_map.1 hmem
    have := (List.mem_filter.1 hx).2
    simp [heq] at this
  · simp only [Files.put, List.map_cons, List.mem_cons, not_or]
    exact ⟨Ne.symm hne, hrest.2⟩

theorem Distinct.erase (h : fs.Distinct) : (fs.erase loc).Distinct :=
  h.filter _

/-! ### The same entries but at one location -/

/-- The same entries but at one location, which is not the root. -/
structure AgreeOff (loc : Location) (fs fs' : Files) : Prop where
  ne_nil : loc ≠ []
  get?_eq : ∀ l, l ≠ loc → fs'.get? l = fs.get? l
  workingDirectory : fs'.workingDirectory = fs.workingDirectory
  distinct : fs.Distinct → fs'.Distinct

namespace AgreeOff

theorem refl (hne : loc ≠ []) (fs : Files) : AgreeOff loc fs fs :=
  ⟨hne, fun _ _ => rfl, rfl, fun h => h⟩

theorem trans (h : AgreeOff loc fs fs') (h' : AgreeOff loc fs' fs'') : AgreeOff loc fs fs'' :=
  ⟨h.ne_nil, fun l hl => (h'.get?_eq l hl).trans (h.get?_eq l hl),
    h'.workingDirectory.trans h.workingDirectory, fun hd => h'.distinct (h.distinct hd)⟩

theorem put (hne : loc ≠ []) : AgreeOff loc fs (fs.put loc e) :=
  ⟨hne, fun _ hl => get?_put_of_ne hl, rfl, fun h => h.put hne⟩

theorem erase (hne : loc ≠ []) : AgreeOff loc fs (fs.erase loc) :=
  ⟨hne, fun _ hl => get?_erase_of_ne hl, rfl, fun h => h.erase⟩

/-- The tree without the entry has all entries of the tree where nothing was. -/
theorem get?_erase_eq (h : AgreeOff loc fs fs') (hfree : fs.get? loc = none) (l : Location) :
    (fs'.erase loc).get? l = fs.get? l := by
  rw [get?_erase h.ne_nil]
  split
  · rename_i heq
    rw [heq, hfree]
  · rename_i hne
    exact h.get?_eq l hne

/-- Files in the one location do not tell where paths lead. -/
theorem samePassages (h : AgreeOff loc fs fs') (hfs : fs.passage loc = none)
    (hfs' : fs'.passage loc = none) : SamePassages fs fs' := by
  refine ⟨?_, h.workingDirectory⟩
  intro l
  by_cases hl : l = loc
  · rw [hl, hfs, hfs']
  · rw [passage, h.get?_eq l hl, passage]

end AgreeOff

theorem passage_of_file {shared : Option Nat} (h : fs.get? loc = some (.file contents mode shared)) :
    fs.passage loc = none := by
  rw [passage, h]
  rfl

theorem passage_of_none (h : fs.get? loc = none) : fs.passage loc = none := by
  rw [passage, h]
  rfl

/-! ### Removing and moving a file -/

theorem removeFile_ok (h : fs.removeFile p = .ok fs') :
    ∃ l, fs.place p = .ok l ∧ (∀ mode, fs.get? l ≠ some (.directory mode)) ∧ fs' = fs.erase l := by
  unfold removeFile at h
  cases hplace : fs.place p with
  | error error =>
    rw [hplace] at h
    cases h
  | ok l =>
    simp only [hplace, entryAt, bind, Except.bind] at h
    cases hget : fs.get? l with
    | none =>
      simp only [hget] at h
      cases h
    | some e =>
      simp only [hget] at h
      split at h
      · cases h
      · cases e with
        | directory mode => cases h
        | file | link => exact ⟨l, rfl, by simp [hget], (Except.ok.inj h).symm⟩

/-- A file is missed when it is removed only where its path leads nowhere or to nothing. -/
theorem removeFile_notFound (h : fs.removeFile p = .error .notFound) :
    fs.place p = .error .notFound ∨ ∃ l, fs.place p = .ok l ∧ fs.get? l = none := by
  unfold removeFile at h
  cases hplace : fs.place p with
  | error error =>
    simp only [hplace, bind, Except.bind, Except.error.injEq] at h
    exact .inl (congrArg Except.error h)
  | ok l =>
    simp only [hplace, entryAt, bind, Except.bind] at h
    cases hget : fs.get? l with
    | none => exact .inr ⟨l, rfl, hget⟩
    | some e =>
      simp only [hget] at h
      split at h
      · cases h
      · cases e <;> cases h

theorem dropSlashes_of_not_endsInSlash (h : p.endsInSlash = false) : p.dropSlashes = p := by
  have hdrop : Text.dropAtEnd '/' p.text.toList = p.text.toList := by
    unfold Text.dropAtEnd
    rcases List.eq_nil_or_concat p.text.toList with htext | ⟨init, last, htext⟩
    · simp [htext]
    · rw [List.concat_eq_append] at htext
      have hlast : last ≠ '/' := by
        rintro rfl
        rw [Path.endsInSlash, htext, List.getLast?_concat] at h
        exact absurd h (by simp)
      rw [htext, List.reverse_append, List.reverse_singleton, List.singleton_append,
        List.dropWhile_cons_of_neg (by simpa using hlast), List.reverse_cons, List.reverse_reverse]
  unfold Path.dropSlashes
  rw [hdrop]
  split
  · rename_i hnil
    have habsolute : p.isAbsolute = false := by
      rw [Path.isAbsolute, hnil]
      rfl
    rw [habsolute, if_neg (by simp)]
  · rw [String.ofList_toList]

/-- A file is moved to where the path leads, unless that is where it is or one of its names. -/
theorem moveTo_of_file {shared : Option Nat}
    (hloc : fs.get? loc = some (.file contents mode shared)) (h : fs.moveTo loc p = .ok fs') :
    ∃ target, fs.place p = .ok target ∧
      (fs' = fs ∧ (target = loc ∨
          (fs.get? target).any (Entry.isSameFile (.file contents mode shared)) = true) ∨
        target ≠ loc ∧ target ≠ [] ∧ (∀ mode, fs.get? target ≠ some (.directory mode)) ∧
          fs' = (fs.erase loc).put target (.file contents mode shared)) := by
  unfold moveTo at h
  cases hplace : fs.place p.dropSlashes with
  | error error =>
    rw [hplace] at h
    cases h
  | ok target =>
    have hentry : fs.entryAt loc = .ok (.file contents mode shared) := by rw [entryAt, hloc]
    simp only [hplace, hentry, Bool.or_eq_true, decide_eq_true_eq, Except.bind, bind] at h
    split at h
    · cases h
    · split at h
      · cases h
      · rename_i hslash
        have hslash' : p.endsInSlash = false := by simpa [Entry.isDirectory] using hslash
        rw [dropSlashes_of_not_endsInSlash hslash'] at hplace
        refine ⟨target, hplace, ?_⟩
        split at h
        · rename_i heq
          exact .inl ⟨(Except.ok.inj h).symm, heq⟩
        · rename_i hne
          right
          split at h
          · cases h
          · split at h
            · cases h
            · split at h
              · cases h
              · have hmoved : (∀ mode, fs.get? target ≠ some (.directory mode)) ∧
                    fs' = (fs.erase loc).put target (.file contents mode shared) := by
                  cases hget : fs.get? target with
                  | none =>
                    simp only [hget] at h
                    exact ⟨by simp, (Except.ok.inj h).symm⟩
                  | some e =>
                    cases e with
                    | directory mode' =>
                      simp only [hget] at h
                      cases h
                    | file | link =>
                      simp only [hget] at h
                      exact ⟨by simp, (Except.ok.inj h).symm⟩
                have hnil : target ≠ [] := by
                  rintro rfl
                  exact hmoved.1 _ get?_nil
                exact ⟨fun heq => hne (.inl heq), hnil, hmoved.1, hmoved.2⟩

/-- A file with one name is moved to where the path leads, unless that is where it is. -/
theorem moveTo_file (hloc : fs.get? loc = some (.file contents mode none))
    (h : fs.moveTo loc p = .ok fs') :
    ∃ target, fs.place p = .ok target ∧
      (target = loc ∧ fs' = fs ∨
        target ≠ loc ∧ target ≠ [] ∧ (∀ mode, fs.get? target ≠ some (.directory mode)) ∧
          fs' = (fs.erase loc).put target (.file contents mode none)) := by
  obtain ⟨target, hplace, ⟨hsame, heq | hother⟩ | hmoved⟩ := moveTo_of_file hloc h
  · exact ⟨target, hplace, .inl ⟨heq, hsame⟩⟩
  · have hnot : (fs.get? target).any (Entry.isSameFile (.file contents mode none)) = false := by
      cases fs.get? target <;> rfl
    rw [hnot] at hother
    contradiction
  · exact ⟨target, hplace, .inr hmoved⟩

/-- One file has new contents, and every other entry is as it was. -/
structure Replaced (fs fs' : Files) (target : Location) (contents : ByteArray) (mode : Nat) :
    Prop where
  ne_nil : target ≠ []
  not_directory : ∀ mode, fs.get? target ≠ some (.directory mode)
  get?_target : fs'.get? target = some (.file contents mode none)
  get?_other : ∀ l, l ≠ target → fs'.get? l = fs.get? l
  workingDirectory : fs'.workingDirectory = fs.workingDirectory
  distinct : fs.Distinct → fs'.Distinct

/-- A file that is complete at a location where nothing was takes the place of what it is moved
to. -/
theorem replaced_of_moveTo (hfree : fs.get? loc = none) (hagree : AgreeOff loc fs fs')
    (hloc : fs'.get? loc = some (.file contents mode none)) (h : fs'.moveTo loc p = .ok fs'') :
    ∃ target, fs.place p = .ok target ∧ Replaced fs fs'' target contents mode := by
  obtain ⟨target, hplace, hmoved⟩ := moveTo_file hloc h
  have hpassages := hagree.samePassages (passage_of_none hfree) (passage_of_file hloc)
  refine ⟨target, (locate_eq_ok_iff hpassages).1 hplace, ?_⟩
  rcases hmoved with ⟨rfl, rfl⟩ | ⟨hne, hnil, hdirectory, rfl⟩
  · -- The new file happens to stand in its place already.
    exact ⟨hagree.ne_nil, by simp [hfree], hloc, hagree.get?_eq, hagree.workingDirectory,
      hagree.distinct⟩
  · refine ⟨hnil, ?_, get?_put_self hnil, ?_, hagree.workingDirectory, ?_⟩
    · intro mode
      rw [← hagree.get?_eq target hne]
      exact hdirectory mode
    · intro l hl
      rw [get?_put_of_ne hl]
      exact hagree.get?_erase_eq hfree l
    · intro hd
      exact (hagree.distinct hd).erase.put hnil

/-- A tree stays one when a file in it is replaced. -/
theorem Replaced.isTree (h : Replaced fs fs' target contents mode) (htree : fs.IsTree)
    (hplace : fs.place p = .ok target) : fs'.IsTree := by
  obtain ⟨dir, name, dirMode, rfl, hdir⟩ := directory_of_locate htree hplace h.ne_nil
  have hput : (fs.put (dir ++ [name]) (.file contents mode none)).IsTree :=
    htree.put hdir h.not_directory
  refine hput.congr ?_
  intro l
  rw [get?_put h.ne_nil]
  split
  · rename_i hl
    rw [hl, h.get?_target]
  · rename_i hl
    exact h.get?_other l hl

/-- A path leads where it did, when a file is replaced by a file. -/
theorem Replaced.samePassages (h : Replaced fs fs' target contents mode)
    (htarget : fs.passage target = none) : SamePassages fs fs' := by
  refine ⟨?_, h.workingDirectory⟩
  intro l
  by_cases hl : l = target
  · rw [hl, htarget, passage_of_file h.get?_target]
  · rw [passage, h.get?_other l hl, passage]

end RamlBuild.Files

/-! ## Files where links were -/

namespace RamlBuild.Files

variable {fs fs' fs'' : Files} {follow : Bool} {links : Nat} {loc l dir target : Location}
  {steps : List Step} {beyond beyond' : Location → List Step → Except IoError Location} {p : Path}
  {name : String} {contents : ByteArray} {mode : Nat}

/-- The directories and links of the second tree are those of the first, as far as they are left. -/
structure FewerPassages (fs fs' : Files) : Prop where
  passage : ∀ loc e, fs'.passage loc = some e → fs.passage loc = some e
  workingDirectory : fs'.workingDirectory = fs.workingDirectory

namespace FewerPassages

theorem refl (fs : Files) : FewerPassages fs fs :=
  ⟨fun _ _ h => h, rfl⟩

theorem trans (h : FewerPassages fs fs') (h' : FewerPassages fs' fs'') : FewerPassages fs fs'' :=
  ⟨fun loc e he => h.passage loc e (h'.passage loc e he),
    h'.workingDirectory.trans h.workingDirectory⟩

theorem get?_eq (h : FewerPassages fs fs') {e : Entry} (he : e.isFile = false)
    (hget : fs'.get? loc = some e) : fs.get? loc = some e :=
  (passage_eq_some_iff.1 (h.passage loc e (passage_eq_some_iff.2 ⟨hget, he⟩))).1

end FewerPassages

theorem fewerPassages_erase (hne : l ≠ []) : FewerPassages fs (fs.erase l) := by
  refine ⟨?_, rfl⟩
  intro loc e hpassage
  by_cases hloc : loc = l
  · rw [hloc, passage_of_none (get?_erase_self hne)] at hpassage
    contradiction
  · rwa [passage, get?_erase_of_ne hloc] at hpassage

theorem walkUpTo_of_fewerPassages (h : FewerPassages fs fs')
    (hbeyond : ∀ loc steps l, beyond' loc steps = .ok l →
      beyond loc steps = .ok l ∨ fs'.passage l = none)
    (hwalk : fs'.walkUpTo follow beyond' loc steps = .ok l) :
    fs.walkUpTo follow beyond loc steps = .ok l ∨ fs'.passage l = none := by
  induction steps generalizing loc with
  | nil => exact .inl hwalk
  | cons step rest ih =>
    obtain ⟨mode, hget', henter⟩ := exists_directory_of_walkUpTo hwalk
    have hget := h.get?_eq rfl hget'
    rw [walkUpTo_of_entered hget' henter] at hwalk
    rw [walkUpTo_of_entered hget henter]
    cases step with
    | inside => exact ih hwalk
    | here => exact ih hwalk
    | up => exact ih hwalk
    | name n =>
      simp only [walkStep] at hwalk ⊢
      split at hwalk
      · contradiction
      · rename_i hlong
        rw [if_neg hlong]
        cases hpassage' : fs'.passage (loc ++ [n]) with
        | none =>
          -- The walk ends at a file, or where nothing is.
          right
          obtain ⟨-, rfl⟩ := (walkName_of_passage_eq_none hpassage').1 hwalk
          exact hpassage'
        | some e =>
          obtain ⟨hentry', hfile⟩ := passage_eq_some_iff.1 hpassage'
          have hentry := h.get?_eq hfile hentry'
          cases e with
          | file => contradiction
          | directory mode =>
            simp only [walkName, hentry, hentry'] at hwalk ⊢
            exact ih hwalk
          | link target =>
            simp only [walkName, hentry, hentry'] at hwalk ⊢
            split at hwalk
            · rename_i hlast
              rw [if_pos hlast]
              exact .inl hwalk
            · rename_i hlast
              rw [if_neg hlast]
              exact hbeyond _ _ _ hwalk

/-- A walk that still leads to a directory or a link led there before. -/
theorem walk_of_fewerPassages (h : FewerPassages fs fs')
    (hwalk : fs'.walk follow links loc steps = .ok l) :
    fs.walk follow links loc steps = .ok l ∨ fs'.passage l = none := by
  induction links generalizing loc steps l with
  | zero => exact walkUpTo_of_fewerPassages h (by simp) hwalk
  | succ links ih => exact walkUpTo_of_fewerPassages h (fun _ _ _ => ih) hwalk

theorem reach_of_fewerPassages (h : FewerPassages fs fs') (hreach : fs'.reach p = .ok l) :
    fs.reach p = .ok l ∨ fs'.passage l = none := by
  unfold reach start at hreach ⊢
  rw [h.workingDirectory] at hreach
  exact walk_of_fewerPassages h hreach

/-- What takes the place of a file or a link is no passage. -/
theorem Replaced.fewerPassages (h : Replaced fs fs' target contents mode) :
    FewerPassages fs fs' := by
  refine ⟨?_, h.workingDirectory⟩
  intro loc e hpassage
  by_cases hloc : loc = target
  · rw [hloc, passage_of_file h.get?_target] at hpassage
    contradiction
  · rwa [Files.passage, h.get?_other loc hloc] at hpassage

/-- The place of an entry is where it was. -/
theorem place_child_of_fewerPassages (h : FewerPassages fs fs') (hname : IsPlainName name)
    (hreach : fs.reach p = .ok dir) (hplace : fs'.place (p / name) = .ok l) :
    l = dir ++ [name] := by
  obtain ⟨-, dir', hreach', hstep⟩ := (place_child_iff hname).1 hplace
  obtain ⟨mode, hdir'⟩ := exists_directory_of_takeStep hstep
  have hpassage : fs'.passage dir' = some (.directory mode) := passage_eq_some_iff.2 ⟨hdir', rfl⟩
  rcases reach_of_fewerPassages h hreach' with hreach' | hnone
  · rw [hreach] at hreach'
    rw [eq_append_of_takeStep hstep, Except.ok.inj hreach']
  · rw [hnone] at hpassage
    contradiction

/-- A path to an entry leads to the entry, unless that is a link. -/
theorem resolve_child_of_fewerPassages (h : FewerPassages fs fs') (htree : fs'.IsTree)
    (hname : IsPlainName name) (hreach : fs.reach p = .ok dir)
    (hlink : fs'.linkAt (dir ++ [name]) = none) (hresolve : fs'.resolve (p / name) = .ok l) :
    l = dir ++ [name] := by
  have hp := requirePath_of_locate hresolve
  have hplain : ∀ dir', fs'.reach p = .ok dir' → EndsPlainly fs' true dir' (.name name) := by
    intro dir' hreach' _ n target heq hget
    obtain rfl := Step.name.inj heq
    rcases reach_of_fewerPassages h hreach' with hreach' | hnone
    · rw [hreach] at hreach'
      obtain rfl := Except.ok.inj hreach'
      rw [linkAt_eq_some_iff.2 hget] at hlink
      contradiction
    · -- Nothing stands below what is no directory.
      have hdir' : ∀ mode, fs'.get? dir' ≠ some (.directory mode) := by
        intro mode hdir'
        rw [passage_eq_some_iff.2 ⟨hdir', rfl⟩] at hnone
        contradiction
      rw [htree.get?_eq_none hdir' (by simp)] at hget
      contradiction
  have hplace : fs'.place (p / name) = .ok l := by
    rw [place, locate_child hname hp fun _ _ => endsPlainly_of_not_follow,
      ← locate_child hname hp hplain]
    exact hresolve
  exact place_child_of_fewerPassages h hname hreach hplace

end RamlBuild.Files
