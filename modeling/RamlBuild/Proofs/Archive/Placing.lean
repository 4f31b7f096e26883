import RamlBuild.Proofs.Archive.Members
import RamlBuild.Proofs.Build.Twins
import RamlBuild.Proofs.Files.Plainly

/-!
# Placing a member

A member is placed as an entry of the directory that its name leads to. Whatever it is, nothing
changes but what is inside the destination, and contents and links change at the place of the member
only.

## Main definitions

* `Archive.Lands` — what a member leaves at its location

## Main results

* `Archive.placeContents_ok` — a file is there with the contents of its member
* `Archive.placeHardLink_ok` — another name of what is inside the destination
* `Archive.place_ok` — any member
-/

namespace RamlBuild

namespace Archive

open Build Location Files

variable {host host' : Host} {par p dest : Path} {d root : Location} {name : String} {e : Entry}
  {m : Member} {make : Build Unit} {ways ways' : Location → Prop} {contents : ByteArray} {mode : Nat}

/-- What a member leaves at its location. Contents and links elsewhere stay. -/
structure Lands (m : Member) (target : Location) (fs fs' : Files) : Prop where
  contentsAt_other : ∀ l, l ≠ target → fs'.contentsAt l = fs.contentsAt l
  linkAt_other : ∀ l, l ≠ target → fs'.linkAt l = fs.linkAt l
  stored : m.isStored = true → fs'.contentsAt target = some m.contents ∧ fs'.linkAt target = none
  unstored : m.isStored = false → m.isLink = false →
    fs'.contentsAt target = fs.contentsAt target ∧ fs'.linkAt target = fs.linkAt target

/-- Directories that come before a member lands make no difference. -/
theorem Lands.of_makesDirectories {target : Location} {fs fs' fs'' : Files}
    (h : Lands m target fs' fs'') (hmakes : MakesDirectories fs fs') : Lands m target fs fs'' where
  contentsAt_other l hl := (h.contentsAt_other l hl).trans (hmakes.contentsAt l)
  linkAt_other l hl := (h.linkAt_other l hl).trans (hmakes.linkAt l)
  stored := h.stored
  unstored hstored hlink :=
    ⟨(h.unstored hstored hlink).1.trans (hmakes.contentsAt target),
      (h.unstored hstored hlink).2.trans (hmakes.linkAt target)⟩

/-! ### Making an entry -/

/-- A step makes an entry where nothing is, or changes nothing. -/
structure MakesEntry (make : Build Unit) (p : Path) (e : Entry) : Prop where
  ok : ∀ ⦃host host'⦄, exec make host = (.ok (), host') →
    ∃ l, host.files.place p = .ok l ∧ host.files.get? l = none ∧ host'.files = host.files.put l e
  error : ∀ ⦃host failure host'⦄, exec make host = (.error failure, host') →
    host'.files = host.files

theorem makesEntry_createFile {activity : String} :
    MakesEntry (changing activity (·.createFile p)) p (.file .empty newMode none) where
  ok := by
    intro host host' h
    obtain ⟨hop, -⟩ := changing_ok h
    unfold createFile at hop
    cases hfree : host.files.freePlace p with
    | error error =>
      rw [hfree] at hop
      contradiction
    | ok l =>
      rw [hfree] at hop
      obtain ⟨hplace, hnone⟩ := freePlace_ok hfree
      exact ⟨l, hplace, hnone, (Except.ok.inj hop).symm⟩
  error := fun _ _ _ h => (changing_error h).1

theorem makesEntry_createLink {activity : String} {target : Path} :
    MakesEntry (changing activity (·.createLink target p)) p (.link target) where
  ok := by
    intro host host' h
    obtain ⟨hop, -⟩ := changing_ok h
    unfold createLink at hop
    cases hpath : requirePath target with
    | error error =>
      rw [hpath] at hop
      contradiction
    | ok =>
      cases hfree : host.files.freePlace p with
      | error error =>
        rw [hpath, hfree] at hop
        contradiction
      | ok l =>
        rw [hpath, hfree] at hop
        obtain ⟨hplace, hnone⟩ := freePlace_ok hfree
        exact ⟨l, hplace, hnone, (Except.ok.inj hop).symm⟩
  error := fun _ _ _ h => (changing_error h).1

/-- Makes an entry; one that is there already is removed first. -/
def replacing (p : Path) (make : Build Unit) : Build Unit := do
  match ← attempt make with
  | .ok () => pure ()
  | .error failure =>
    if failure.cause = .io .alreadyExists s!"{p}" then
      removeFile p
      make
    else throw failure

theorem placeFile_eq (p : Path) :
    placeFile p = replacing p (changing s!"{p}" (·.createFile p)) := rfl

theorem placeLink_eq (target p : Path) :
    placeLink target p = replacing p (changing s!"{p}" (·.createLink target p)) := rfl

/-- The entry that is made in a directory. -/
theorem MakesEntry.puts (hmake : MakesEntry make (par / name) e)
    (hheads : host.files.HeadsFor par d) (hname : IsPlainName name)
    (h : exec make host = (.ok (), host')) : Puts host.files host'.files d name e := by
  obtain ⟨l, hplace, hfree, hput⟩ := hmake.ok h
  obtain ⟨rfl, hdir⟩ := hheads.place hname hplace
  rw [hput]
  exact puts_put hdir (by simp [hfree])

theorem replacing_ok (hmake : MakesEntry make (par / name) e)
    (hheads : host.files.HeadsFor par d) (hname : IsPlainName name)
    (h : exec (replacing (par / name) make) host = (.ok (), host')) :
    Puts host.files host'.files d name e := by
  rw [replacing] at h
  obtain ⟨result, host₁, hattempt, h⟩ := exec_bind_ok h
  rw [exec_attempt] at hattempt
  obtain ⟨hresult, rfl⟩ := Prod.mk.inj hattempt
  cases result with
  | ok =>
    obtain ⟨-, rfl⟩ := Prod.mk.inj h
    exact hmake.puts hheads hname (Prod.ext (Except.ok.inj hresult) rfl)
  | error failure =>
    have hsame : (exec make host).2.files = host.files :=
      hmake.error (Prod.ext (Except.ok.inj hresult) rfl)
    simp only at h
    split at h
    · obtain ⟨⟨⟩, host₂, hremove, h⟩ := exec_bind_ok h
      obtain ⟨hop, -⟩ := changing_ok hremove
      obtain ⟨l, hplace, hentry, hfiles⟩ := removeFile_ok hop
      rw [hsame] at hplace hentry hfiles
      obtain ⟨rfl, -⟩ := hheads.place hname hplace
      -- Without the entry that was in the way the path leads nowhere else.
      have hheads₂ : host₂.files.HeadsFor par d := by
        rw [hfiles]
        exact hheads.of_fewerPassages (fewerPassages_erase (by simp))
      have hputs := hmake.puts hheads₂ hname h
      rw [hfiles] at hputs
      exact hputs.of_erase hentry
    · exact absurd (Prod.mk.inj h).1 (by simp)

/-! ### Files -/

/-- A file is written in its directory, unless it is reached by a link or has other names. -/
theorem writeBytes_ok {bytes : ByteArray} (hheads : host.files.HeadsFor par d)
    (hname : IsPlainName name) (htree : host.files.IsTree)
    (hlink : host.files.linkAt (d ++ [name]) = none)
    (hshared : (host.files.get? (d ++ [name])).bind Entry.shared? = none)
    (h : exec (writeBytes (par / name) bytes) host = (.ok (), host')) :
    ∃ mode', Puts host.files host'.files d name (.file bytes mode' none) := by
  obtain ⟨hop, -⟩ := changing_ok h
  obtain ⟨target, hresolve, hentry, hfiles⟩ := writeFile_ok hop
  obtain rfl := hheads.reach_child htree hname hlink (reach_of_resolve hresolve)
  obtain ⟨dir, name', mode, heq, hdir⟩ := directory_of_locate htree hresolve (by simp)
  obtain ⟨rfl, -⟩ := List.append_inj' heq rfl
  rw [get?_rewriteFile_of_not_shared hshared] at hfiles
  rw [hfiles]
  exact ⟨_, puts_put ⟨mode, hdir⟩ hentry⟩

/-- What permissions are given to. -/
theorem placeMode_ok (h : exec (placeMode m p) host = (.ok (), host')) :
    host'.files = host.files ∨ ∃ loc mode, host.files.resolve p = .ok loc ∧
      host'.files = host.files.setMode loc mode := by
  unfold placeMode at h
  split at h
  · rename_i mode _
    obtain ⟨hop, -⟩ := changing_ok h
    right
    cases hresolve : host.files.resolve p with
    | error error =>
      rw [hresolve] at hop
      contradiction
    | ok loc =>
      rw [hresolve] at hop
      exact ⟨loc, _, rfl, (Except.ok.inj hop).symm⟩
  · obtain ⟨-, rfl⟩ := Prod.mk.inj h
    exact .inl rfl

/-- Permissions of a file leave its contents alone. -/
theorem placeMode_file (hheads : host.files.HeadsFor par d) (hname : IsPlainName name)
    (htree : host.files.IsTree)
    (hfile : host.files.get? (d ++ [name]) = some (.file contents mode none))
    (h : exec (placeMode m (par / name)) host = (.ok (), host')) :
    ∃ mode', Puts host.files host'.files d name (.file contents mode' none) := by
  rcases placeMode_ok h with hfiles | ⟨loc, mode', hresolve, hfiles⟩
  · rw [hfiles]
    exact ⟨mode, puts_self htree hfile⟩
  · obtain rfl := hheads.reach_child htree hname (linkAt_of_file hfile) (reach_of_resolve hresolve)
    rw [setMode, hfile] at hfiles
    simp only at hfiles
    rw [get?_rewriteFile_of_not_shared (by simp [hfile, Entry.shared?])] at hfiles
    rw [hfiles]
    exact ⟨mode', puts_put (htree d name _ hfile) (by simp [hfile])⟩

/-- A file is there with the contents of its member. -/
theorem placeContents_ok (hheads : host.files.HeadsFor par d) (hname : IsPlainName name)
    (htree : host.files.IsTree)
    (h : exec (placeContents m (par / name)) host = (.ok (), host')) :
    ∃ mode, Puts host.files host'.files d name (.file m.contents mode none) := by
  rw [placeContents] at h
  obtain ⟨⟨⟩, host₁, hplace, h⟩ := exec_bind_ok h
  rw [placeFile_eq] at hplace
  have hputs₁ := replacing_ok makesEntry_createFile hheads hname hplace
  have hheads₁ := hheads.of_fewerPassages (hputs₁.fewerPassages rfl)
  have htree₁ := hputs₁.isTree htree
  obtain ⟨⟨⟩, host₂, hwrite, h⟩ := exec_bind_ok h
  obtain ⟨mode₂, hputs₂⟩ := writeBytes_ok hheads₁ hname htree₁
    (linkAt_of_file hputs₁.get?_self) (by simp [hputs₁.get?_self, Entry.shared?]) hwrite
  have hheads₂ := hheads₁.of_fewerPassages (hputs₂.fewerPassages rfl)
  split at h
  · obtain ⟨mode₃, hputs₃⟩ :=
      placeMode_file hheads₂ hname (hputs₂.isTree htree₁) hputs₂.get?_self h
    exact ⟨mode₃, (hputs₁.trans hputs₂).trans hputs₃⟩
  · exact absurd (Prod.mk.inj h).1 (by simp)

/-! ### Directories -/

/-- A directory is there, and nothing else happened. -/
theorem ensureDirectory_ok (hheads : host.files.HeadsFor par d) (hname : IsPlainName name)
    (h : exec (ensureDirectory (par / name)) host = (.ok (), host')) :
    MakesDirectories host.files host'.files ∧
      (∀ l, l ≠ d ++ [name] → host'.files.get? l = host.files.get? l) ∧
      ∃ mode, host'.files.get? (d ++ [name]) = some (.directory mode) := by
  rw [ensureDirectory] at h
  obtain ⟨result, host₁, hattempt, h⟩ := exec_bind_ok h
  rw [exec_attempt] at hattempt
  obtain ⟨hresult, rfl⟩ := Prod.mk.inj hattempt
  cases result with
  | ok =>
    obtain ⟨-, rfl⟩ := Prod.mk.inj h
    have hrun : exec (changing s!"{par / name}" (·.createDirectory (par / name))) host =
        (.ok (), _) := Prod.ext (Except.ok.inj hresult) rfl
    refine ⟨(createDirectory_makes hrun).1, ?_⟩
    obtain ⟨hop, -⟩ := changing_ok hrun
    obtain ⟨l, hplace, hfree, hput⟩ := createDirectory_ok hop
    rw [dropSlashes_of_not_endsInSlash (Path.endsInSlash_child hname)] at hplace
    obtain ⟨rfl, -⟩ := hheads.place hname hplace
    rw [hput]
    exact ⟨fun l hl => get?_put_of_ne hl, _, get?_put_self (by simp)⟩
  | error failure =>
    obtain ⟨hsame, -⟩ := changing_error (Prod.ext (Except.ok.inj hresult) rfl)
    simp only at h
    rw [exec_bind_of_ok (exec_asking _ _)] at h
    split at h
    · rename_i hthere
      obtain ⟨-, rfl⟩ := Prod.mk.inj h
      rw [Bool.and_eq_true, hsame] at hthere
      rw [hsame]
      refine ⟨MakesDirectories.refl _, fun _ _ => rfl, ?_⟩
      have hown := hthere.2
      unfold isOwnDirectory at hown
      split at hown
      · rename_i l hplace
        obtain ⟨rfl, -⟩ := hheads.place hname hplace
        cases hget : host.files.get? (d ++ [name]) with
        | none => simp [hget] at hown
        | some e =>
          cases e with
          | directory mode => exact ⟨mode, rfl⟩
          | file | link => simp [hget, Entry.isDirectory] at hown
      · contradiction
    · exact absurd (Prod.mk.inj h).1 (by simp)

/-- Other permissions of a directory change nothing else. -/
theorem changesInside_setMode {fs : Files} {l : Location} (mode' : Nat) (htree : fs.IsTree)
    (hinside : Inside root l) (hdir : fs.get? l = some (.directory mode)) :
    ChangesInside root fs (fs.setMode l mode') ∧
      ∀ v, (fs.setMode l mode').contentsAt v = fs.contentsAt v ∧
        (fs.setMode l mode').linkAt v = fs.linkAt v := by
  have hne : l ≠ [] := by
    rintro rfl
    exact hinside.2 (List.prefix_nil.1 hinside.1).symm
  rw [setMode, hdir]
  simp only
  have hself : (fs.put l (.directory mode')).get? l = some (.directory mode') := get?_put_self hne
  refine ⟨⟨rfl, fun _ => ?_, ?_, ?_⟩, ?_⟩
  · -- What stood in a directory stands in one.
    intro loc n e he
    have hold : ∃ e, fs.get? (loc ++ [n]) = some e := by
      rw [get?_put hne] at he
      split at he
      · rename_i heq
        exact ⟨_, heq ▸ hdir⟩
      · exact ⟨e, he⟩
    obtain ⟨e', he'⟩ := hold
    obtain ⟨mode₀, hmode₀⟩ := htree loc n e' he'
    rw [get?_put hne]
    split
    · exact ⟨mode', rfl⟩
    · exact ⟨mode₀, hmode₀⟩
  · intro v hv
    refine get?_put_of_ne ?_
    rintro rfl
    exact hv hinside
  · intro v mode₀ hmode₀
    rw [get?_put hne]
    split
    · exact ⟨mode', rfl⟩
    · exact ⟨mode₀, hmode₀⟩
  · intro v
    by_cases hv : v = l
    · rw [hv, contentsAt_of_directory hself, contentsAt_of_directory hdir,
        linkAt_of_directory hself, linkAt_of_directory hdir]
      exact ⟨rfl, rfl⟩
    · rw [contentsAt, get?_put_of_ne hv, linkAt, get?_put_of_ne hv]
      exact ⟨rfl, rfl⟩

/-- A member that is a directory. -/
theorem placeDirectory_ok (hleads : host.files.LeadsTo ways par d) (hname : IsPlainName name)
    (htree : host.files.IsTree) (hroot : root <+: d)
    (h : exec (do ensureDirectory (par / name); placeMode m (par / name)) host = (.ok (), host')) :
    ChangesInside root host.files host'.files ∧
      ∀ v, host'.files.contentsAt v = host.files.contentsAt v ∧
        host'.files.linkAt v = host.files.linkAt v := by
  obtain ⟨⟨⟩, host₁, hensure, h⟩ := exec_bind_ok h
  obtain ⟨hmakes, hother, mode, hdir⟩ := ensureDirectory_ok hleads.headsFor hname hensure
  have hinside : Inside root (d ++ [name]) := inside_append hroot (by simp)
  have hchanges : ChangesInside root host.files host₁.files := by
    refine hmakes.changesInside fun l hl => hother l ?_
    rintro rfl
    exact hl hinside
  rcases placeMode_ok h with hfiles | ⟨loc, mode', hresolve, hfiles⟩
  · rw [hfiles]
    exact ⟨hchanges, fun v => ⟨hmakes.contentsAt v, hmakes.linkAt v⟩⟩
  · have hheads₁ : host₁.files.HeadsFor par d :=
      (hleads.congr hmakes.workingDirectory fun v _ => hmakes.linkAt v).headsFor
    obtain rfl := hheads₁.reach_child (hmakes.isTree htree) hname (linkAt_of_directory hdir)
      (reach_of_resolve hresolve)
    obtain ⟨hchanges', hsame⟩ :=
      changesInside_setMode mode' (hmakes.isTree htree) hinside hdir
    rw [hfiles]
    exact ⟨hchanges.trans hchanges', fun v => ⟨(hsame v).1.trans (hmakes.contentsAt v),
      (hsame v).2.trans (hmakes.linkAt v)⟩⟩

/-! ### Links -/

/-- A path that leads to something leads to the same by its own entry, unless that is a link. -/
theorem place_eq_of_reach {fs : Files} {l l' : Location} (hreach : fs.resolve p = .ok l)
    (hplace : fs.place p = .ok l') (hlink : fs.linkAt l' = none) : l' = l := by
  have hpath := requirePath_of_locate hreach
  rw [resolve, locate_eq hpath] at hreach
  rw [Files.place, locate_eq hpath] at hplace
  obtain ⟨l'', hwalk, hend⟩ := exists_walk_of_walk hreach
  rw [hplace] at hwalk
  obtain rfl := Except.ok.inj hwalk
  rcases hend with hend | hend
  · exact hend
  · rw [hlink] at hend
    contradiction

theorem stat_ok {fs : Files} {l : Location} (h : fs.stat p = .ok (l, e)) :
    fs.resolve p = .ok l ∧ fs.get? l = some e := by
  unfold stat at h
  cases hresolve : fs.resolve p with
  | error error =>
    rw [hresolve] at h
    contradiction
  | ok l' =>
    simp only [hresolve, bind, Except.bind, entryAt] at h
    cases hget : fs.get? l' with
    | none =>
      rw [hget] at h
      contradiction
    | some e' =>
      rw [hget] at h
      obtain ⟨rfl, rfl⟩ := Prod.mk.inj (Except.ok.inj h)
      exact ⟨rfl, hget⟩

/-- What is found inside lies at or below where the directory is. -/
theorem requireInside_ok (h : exec (requireInside dest p) host = (.ok (), host')) :
    host'.files = host.files ∧ ∃ inner outer e e', host.files.stat p = .ok (inner, e) ∧
      host.files.stat dest = .ok (outer, e') ∧ outer <+: inner := by
  rw [requireInside] at h
  obtain ⟨⟨inner, e⟩, host₁, hinner, h⟩ := exec_bind_ok h
  obtain ⟨rfl, hstat⟩ := reading_result hinner
  obtain ⟨⟨outer, e'⟩, host₂, houter, h⟩ := exec_bind_ok h
  obtain ⟨rfl, hstat'⟩ := reading_result houter
  simp only at h
  split at h
  · rename_i hbelow
    obtain ⟨-, rfl⟩ := Prod.mk.inj h
    exact ⟨rfl, inner, outer, e, e', hstat _ rfl, hstat' _ rfl, List.isPrefixOf_iff_prefix.1 hbelow⟩
  · exact absurd (Prod.mk.inj h).1 (by simp)

/-- What one more name of a file changes. -/
theorem createName_ok {fs fs' : Files} {source p : Path} (h : fs.createName source p = .ok fs') :
    ∃ origin e l, fs.place source = .ok origin ∧ fs.get? origin = some e ∧ fs.place p = .ok l ∧
      fs.get? l = none ∧
      ((∃ contents mode n, e = .file contents mode none ∧
          fs' = (fs.put origin (.file contents mode (some n))).put l (.file contents mode (some n))) ∨
        fs' = fs.put l e) := by
  unfold createName at h
  cases horigin : fs.place source with
  | error error =>
    rw [horigin] at h
    contradiction
  | ok origin =>
    simp only [horigin, bind, Except.bind, entryAt] at h
    cases he : fs.get? origin with
    | none =>
      rw [he] at h
      contradiction
    | some e =>
      simp only [he] at h
      cases hplace : fs.place p with
      | error error =>
        rw [hplace] at h
        contradiction
      | ok l =>
        simp only [hplace] at h
        cases hget : fs.get? l with
        | some e' =>
          rw [hget] at h
          contradiction
        | none =>
          refine ⟨origin, e, l, rfl, he, rfl, hget, ?_⟩
          cases e with
          | directory mode =>
            rw [hget] at h
            contradiction
          | link target =>
            simp only [hget] at h
            split at h
            · contradiction
            · exact .inr (Except.ok.inj h).symm
          | file contents mode shared =>
            simp only [hget] at h
            split at h
            · contradiction
            · cases shared with
              | none => exact .inl ⟨contents, mode, _, rfl, (Except.ok.inj h).symm⟩
              | some n => exact .inr (Except.ok.inj h).symm

theorem linkTarget_ok {target : Path} (h : exec (linkTarget m) host = (.ok target, host')) :
    host' = host := by
  unfold linkTarget at h
  dsimp only at h
  split at h
  · exact absurd (Prod.mk.inj h).1 (by simp)
  · exact (Prod.mk.inj h).2.symm

/-- The steps that give what is there another name. -/
def placeHardLink (dest p : Path) (m : Member) : Build Unit := do
  let (loc, _) ← reading s!"{dest}" (·.stat dest)
  let source := loc.path / (← linkTarget m)
  requireInside loc.path source
  changing s!"{p}" (·.createName source p)

/-- Another name is one of something inside the destination, or of a link. -/
theorem placeHardLink_ok {rootMode : Nat} (hleads : host.files.LeadsTo ways par d)
    (hname : IsPlainName name) (htree : host.files.IsTree) (hroot : root <+: d)
    (hdest : host.files.LeadsTo ways' dest root) (hplain : ∀ n ∈ root, IsPlainName n)
    (hdir : host.files.get? root = some (.directory rootMode))
    (h : exec (placeHardLink dest (par / name) m) host = (.ok (), host')) :
    ChangesInside root host.files host'.files ∧
      ∀ v, v ≠ d ++ [name] → host'.files.contentsAt v = host.files.contentsAt v ∧
        host'.files.linkAt v = host.files.linkAt v := by
  rw [placeHardLink] at h
  obtain ⟨⟨loc, e₀⟩, host₁, hstat, h⟩ := exec_bind_ok h
  obtain ⟨rfl, hloc⟩ := reading_result hstat
  obtain rfl : loc = root := hdest.eq_of_reach (reach_of_resolve (stat_ok (hloc _ rfl)).1)
  obtain ⟨target, host₁, htarget, h⟩ := exec_bind_ok h
  obtain rfl := linkTarget_ok htarget
  obtain ⟨⟨⟩, host₂, hrequire, h⟩ := exec_bind_ok h
  obtain ⟨hsame, inner, outer, e₁, e₂, hinner, houter, hbelow⟩ := requireInside_ok hrequire
  obtain rfl : outer = loc :=
    reach_path htree hplain hdir (reach_of_resolve (stat_ok houter).1)
  obtain ⟨hop, -⟩ := changing_ok h
  rw [hsame] at hop
  obtain ⟨origin, e, l, horigin, he, hplace, hfree, hcases⟩ := createName_ok hop
  rw [files_counted] at horigin he hplace hfree hcases
  obtain ⟨rfl, hd⟩ := hleads.headsFor.place hname hplace
  rcases hcases with ⟨contents, mode, n, rfl, hfiles⟩ | hfiles
  · -- A file that gets its first other name lies inside, and its contents stay.
    have hnotRoot : origin ≠ outer := by
      rintro rfl
      simp [hdir] at he
    obtain rfl : origin = inner := place_eq_of_reach (stat_ok hinner).1 horigin (linkAt_of_file he)
    have hne : origin ≠ [] := by
      rintro rfl
      exact hnotRoot (List.prefix_nil.1 hbelow).symm
    obtain ⟨init, last, rfl⟩ := (List.eq_nil_or_concat origin).resolve_left hne
    rw [List.concat_eq_append] at *
    have hinit : outer <+: init := by
      rcases List.prefix_concat_iff.1 hbelow with heq | hinit
      · exact absurd heq.symm hnotRoot
      · exact hinit
    have hputs₁ : Puts host.files
        (host.files.put (init ++ [last]) (.file contents mode (some n))) init last
        (.file contents mode (some n)) :=
      puts_put (htree init last _ he) (by simp [he])
    have hapart : d ++ [name] ≠ init ++ [last] := by
      intro heq
      rw [heq, he] at hfree
      contradiction
    have hputs₂ : Puts (host.files.put (init ++ [last]) (.file contents mode (some n)))
        host'.files d name (.file contents mode (some n)) := by
      rw [hfiles]
      refine puts_put ?_ (by rw [get?_put_of_ne hapart, hfree]; simp)
      obtain ⟨dirMode, hdirMode⟩ := hd
      have hother : d ≠ init ++ [last] := by
        rintro rfl
        simp [he] at hdirMode
      exact ⟨dirMode, by rw [get?_put_of_ne hother, hdirMode]⟩
    refine ⟨(hputs₁.changesInside hinit).trans (hputs₂.changesInside hroot), fun v hv => ?_⟩
    rw [hputs₂.contentsAt_other hv, hputs₂.linkAt_other hv]
    by_cases hv' : v = init ++ [last]
    · rw [hv', linkAt_of_file hputs₁.get?_self, linkAt_of_file he, contentsAt, hputs₁.get?_self,
        contentsAt, he]
      exact ⟨rfl, rfl⟩
    · exact ⟨hputs₁.contentsAt_other hv', hputs₁.linkAt_other hv'⟩
  · have hputs : Puts host.files host'.files d name e := by
      rw [hfiles]
      exact puts_put hd (by simp [hfree])
    exact ⟨hputs.changesInside hroot,
      fun v hv => ⟨hputs.contentsAt_other hv, hputs.linkAt_other hv⟩⟩

/-! ### Any member -/

/-- What is placed tells from the kind of the member. -/
theorem place_eq (dest p : Path) (m : Member) :
    place dest m p =
      if m.makesDirectory then (do ensureDirectory p; placeMode m p)
      else match m.kind with
        | .symbolicLink => do placeLink (← linkTarget m) p
        | .hardLink => placeHardLink dest p m
        | .file | .sparseFile | .other => placeContents m p
        | _ => pure () := rfl

/-- What a file that is put in a place leaves there. -/
theorem lands_of_puts {fs fs' : Files} (hstored : m.isStored = true)
    (h : Puts fs fs' d name (.file m.contents mode none)) : Lands m (d ++ [name]) fs fs' where
  contentsAt_other _ hl := h.contentsAt_other hl
  linkAt_other _ hl := h.linkAt_other hl
  stored _ := ⟨by rw [contentsAt, h.get?_self], linkAt_of_file h.get?_self⟩
  unstored hnot := by
    rw [hstored] at hnot
    contradiction

/-- A member that is placed in a directory changes what is inside the destination only, and leaves
its contents there. -/
theorem place_ok {rootMode : Nat} (hleads : host.files.LeadsTo ways par d)
    (hname : IsPlainName name) (htree : host.files.IsTree) (hroot : root <+: d)
    (hdest : host.files.LeadsTo ways' dest root) (hplain : ∀ n ∈ root, IsPlainName n)
    (hdir : host.files.get? root = some (.directory rootMode))
    (h : exec (place dest m (par / name)) host = (.ok (), host')) :
    ChangesInside root host.files host'.files ∧ Lands m (d ++ [name]) host.files host'.files := by
  rw [place_eq] at h
  by_cases hmakes : m.makesDirectory = true
  · rw [if_pos hmakes] at h
    obtain ⟨hchanges, hsame⟩ := placeDirectory_ok hleads hname htree hroot h
    refine ⟨hchanges, fun v _ => (hsame v).1, fun v _ => (hsame v).2, ?_, fun _ _ => hsame _⟩
    simp [Member.isStored, hmakes]
  rw [if_neg hmakes] at h
  have hcontents : m.isStored = true →
      exec (placeContents m (par / name)) host = (.ok (), host') →
      ChangesInside root host.files host'.files ∧
        Lands m (d ++ [name]) host.files host'.files := by
    intro hstored h
    obtain ⟨mode, hputs⟩ := placeContents_ok hleads.headsFor hname htree h
    exact ⟨hputs.changesInside hroot, lands_of_puts hstored hputs⟩
  have hlink : ∀ {fs' : Files}, m.isStored = false → m.isLink = true →
      (∀ v, v ≠ d ++ [name] → fs'.contentsAt v = host.files.contentsAt v ∧
        fs'.linkAt v = host.files.linkAt v) → Lands m (d ++ [name]) host.files fs' := by
    intro fs' hstored hlink hother
    refine ⟨fun v hv => (hother v hv).1, fun v hv => (hother v hv).2, ?_, ?_⟩
    · simp [hstored]
    · simp [hlink]
  have hnothing : m.isStored = false → host' = host → ChangesInside root host.files host'.files ∧
      Lands m (d ++ [name]) host.files host'.files := by
    rintro hstored rfl
    exact ⟨ChangesInside.refl _ _, fun _ _ => rfl, fun _ _ => rfl, by simp [hstored],
      fun _ _ => ⟨rfl, rfl⟩⟩
  cases hkind : m.kind with
  | file | sparseFile | other =>
    simp only [hkind] at h
    exact hcontents (by simp [Member.isStored, hmakes, hkind]) h
  | symbolicLink =>
    simp only [hkind] at h
    obtain ⟨target, host₁, htarget, hplace⟩ := exec_bind_ok h
    obtain rfl := linkTarget_ok htarget
    rw [placeLink_eq] at hplace
    have hputs := replacing_ok makesEntry_createLink hleads.headsFor hname hplace
    exact ⟨hputs.changesInside hroot, hlink (by simp [Member.isStored, hkind])
      (by simp [Member.isLink, hkind])
      fun v hv => ⟨hputs.contentsAt_other hv, hputs.linkAt_other hv⟩⟩
  | hardLink =>
    simp only [hkind] at h
    obtain ⟨hchanges, hother⟩ := placeHardLink_ok hleads hname htree hroot hdest hplain hdir h
    exact ⟨hchanges, hlink (by simp [Member.isStored, hkind]) (by simp [Member.isLink, hkind])
      hother⟩
  | directory | longName | longLink | «attributes» | sharedAttributes =>
    simp only [hkind] at h
    exact hnothing (by simp [Member.isStored, hkind]) (Prod.mk.inj h).2.symm

end Archive

end RamlBuild
