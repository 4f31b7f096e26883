import RamlBuild.Proofs.Files.Replace

/-!
# Replacing what leads to no directory

A link that leads to a file, or to nothing, can only stand at the end of a path. Where a file takes
its place every path leads on: to where it led, or to the new file if it ended at the link.

## Main definitions

* `Files.LinksToDirectory` — a link that leads to a directory

## Main results

* `Files.walk_split` — a walk goes on from where its first steps lead
* `Files.walk_of_replaced` — walks after a file was replaced
* `Files.place_child_of_replaced`, `Files.resolve_of_replaced` — paths after a file was replaced
* `Files.not_linksToDirectory_of_resolve` — a path that leads to a file
-/

namespace RamlBuild.Files

variable {fs fs' : Files} {follow : Bool} {links : Nat} {loc l dir target : Location}
  {steps rest : List Step} {step : Step} {beyond beyond' : Location → List Step → Except IoError Location}
  {p : Path} {name : String} {contents : ByteArray} {mode : Nat}

/-! ### Walks in two parts -/

theorem walkUpTo_split (hwalk : fs.walk follow links = fs.walkUpTo follow beyond)
    (hbeyond : ∀ loc steps, beyond loc (steps ++ step :: rest) = .ok l →
      ∃ m d, beyond' loc steps = .ok d ∧ fs.walk follow m d (step :: rest) = .ok l)
    (h : fs.walkUpTo follow beyond loc (steps ++ step :: rest) = .ok l) :
    ∃ m d, fs.walkUpTo true beyond' loc steps = .ok d ∧
      fs.walk follow m d (step :: rest) = .ok l := by
  induction steps generalizing loc with
  | nil => exact ⟨links, loc, rfl, by rw [hwalk]; exact h⟩
  | cons first steps ih =>
    obtain ⟨mode, hget, henter⟩ := exists_directory_of_walkUpTo h
    rw [List.cons_append, walkUpTo_of_entered hget henter] at h
    rw [walkUpTo_of_entered hget henter]
    cases first with
    | inside => exact ih h
    | here => exact ih h
    | up => exact ih h
    | name n =>
      simp only [walkStep] at h ⊢
      split at h
      · contradiction
      · rename_i hlong
        rw [if_neg hlong]
        have hmore : (steps ++ step :: rest).isEmpty = false := by simp
        unfold walkName at h ⊢
        cases hentry : fs.get? (loc ++ [n]) with
        | none =>
          simp only [hentry, hmore] at h
          contradiction
        | some e =>
          cases e with
          | file | directory =>
            simp only [hentry] at h
            exact ih h
          | link path =>
            -- The link is walked through, as more steps follow.
            simp only [hentry, hmore, Bool.false_and, Bool.false_eq_true, if_false,
              ← List.append_assoc] at h
            simp only [Bool.not_true, Bool.and_false, Bool.false_eq_true, if_false]
            exact hbeyond _ _ h

/-- A walk goes on from where its first steps lead, with the links that are left. -/
theorem walk_split (h : fs.walk follow links loc (steps ++ step :: rest) = .ok l) :
    ∃ m d, fs.walk true links loc steps = .ok d ∧ fs.walk follow m d (step :: rest) = .ok l := by
  induction links generalizing loc steps with
  | zero =>
    have hzero : fs.walk follow 0 = fs.walkUpTo follow fun _ _ => .error .filesystemLoop := rfl
    exact walkUpTo_split hzero (by simp) h
  | succ links ih =>
    have hsucc : fs.walk follow (links + 1) = fs.walkUpTo follow (fs.walk follow links) := rfl
    exact walkUpTo_split hsucc (fun _ _ => ih) h

theorem exists_directory_of_walk (h : fs.walk follow links loc (step :: rest) = .ok l) :
    ∃ mode, fs.get? loc = some (.directory mode) := by
  cases links with
  | zero =>
    obtain ⟨mode, hmode, -⟩ := exists_directory_of_walkUpTo h
    exact ⟨mode, hmode⟩
  | succ links =>
    obtain ⟨mode, hmode, -⟩ := exists_directory_of_walkUpTo h
    exact ⟨mode, hmode⟩

/-- A walk ends where it does with more links to spare. -/
theorem walk_mono {links' : Nat} (hle : links ≤ links')
    (h : fs.walk follow links loc steps = .ok l) : fs.walk follow links' loc steps = .ok l := by
  have hsucc : ∀ {n loc steps l}, fs.walk follow n loc steps = .ok l →
      fs.walk follow (n + 1) loc steps = .ok l := by
    intro n
    induction n with
    | zero => exact fun h => walkUpTo_of_samePassages (SamePassages.refl fs) (by simp) h
    | succ n ih =>
      exact fun h => walkUpTo_of_samePassages (SamePassages.refl fs) (fun _ _ _ => ih) h
  induction hle with
  | refl => exact h
  | step _ ih => exact hsucc ih

/-! ### Links that lead to no directory -/

/-- Where a link with a target starts from, at a location. -/
def linkStart (loc : Location) (path : Path) : Location :=
  if path.isAbsolute then [] else loc.dropLast

/-- There is a link at a location that leads to a directory, through any number of links. -/
def LinksToDirectory (fs : Files) (loc : Location) : Prop :=
  ∃ path links dir mode, fs.linkAt loc = some path ∧
    fs.walk true links (linkStart loc path) path.steps = .ok dir ∧
    fs.get? dir = some (.directory mode)

theorem not_linksToDirectory_of_linkAt (h : fs.linkAt loc = none) : ¬fs.LinksToDirectory loc := by
  rintro ⟨path, links, dir, mode, hlink, -⟩
  rw [h] at hlink
  contradiction

theorem walkUpTo_of_replaced {path : Path} (h : Replaced fs fs' target contents mode)
    (hlink : fs.linkAt target = some path)
    (hbeyond : ∀ loc steps l, beyond loc steps = .ok l → beyond' loc steps = .ok l ∨
      beyond' loc steps = .ok target ∧ ∀ mode, fs.get? l ≠ some (.directory mode))
    (hends : ∀ rest l, (rest = [] → follow = true) →
      beyond (linkStart target path) (path.steps ++ rest) = .ok l →
        rest = [] ∧ ∀ mode, fs.get? l ≠ some (.directory mode))
    (hwalk : fs.walkUpTo follow beyond loc steps = .ok l) :
    fs'.walkUpTo follow beyond' loc steps = .ok l ∨
      fs'.walkUpTo follow beyond' loc steps = .ok target ∧
        ∀ mode, fs.get? l ≠ some (.directory mode) := by
  induction steps generalizing loc with
  | nil => exact .inl hwalk
  | cons step rest ih =>
    obtain ⟨mode', hget, henter⟩ := exists_directory_of_walkUpTo hwalk
    have hkept : ∀ {e}, e.isDirectory = true → fs.get? loc = some e → fs'.get? loc = some e := by
      intro e he hget
      have hne : loc ≠ target := by
        rintro rfl
        rw [linkAt_eq_some_iff.1 hlink] at hget
        obtain rfl := Option.some.inj hget
        contradiction
      rw [h.get?_other loc hne, hget]
    rw [walkUpTo_of_entered hget henter] at hwalk
    rw [walkUpTo_of_entered (hkept rfl hget) henter]
    cases step with
    | inside => exact ih hwalk
    | here => exact ih hwalk
    | up => exact ih hwalk
    | name n =>
      simp only [walkStep] at hwalk ⊢
      split at hwalk
      · contradiction
      · rename_i hlong
        rw [if_neg hlong]
        by_cases hn : loc ++ [n] = target
        · -- The step leads to what was replaced.
          have hentry := linkAt_eq_some_iff.1 hlink
          rw [← hn] at hentry
          have hentry' := h.get?_target
          rw [← hn] at hentry'
          have hstart : (if path.isAbsolute then [] else loc) = linkStart target path := by
            rw [linkStart, ← hn, List.dropLast_concat]
          simp only [walkName, hentry, hentry', hstart] at hwalk ⊢
          split at hwalk
          · rename_i hlast
            rw [Bool.and_eq_true, List.isEmpty_iff] at hlast
            obtain ⟨rfl, -⟩ := hlast
            left
            rw [← Except.ok.inj hwalk]
            rfl
          · rename_i hlast
            obtain ⟨rfl, hfile⟩ := hends rest l (by simpa using hlast) hwalk
            exact .inr ⟨by rw [← hn]; rfl, hfile⟩
        · have hentry' := h.get?_other _ hn
          unfold walkName at hwalk ⊢
          rw [hentry']
          cases hentry : fs.get? (loc ++ [n]) with
          | none =>
            simp only [hentry] at hwalk
            exact .inl hwalk
          | some e =>
            simp only [hentry] at hwalk
            cases e with
            | file => exact ih hwalk
            | directory => exact ih hwalk
            | link path' =>
              simp only at hwalk ⊢
              split at hwalk
              · rename_i hlast
                rw [if_pos hlast]
                exact .inl hwalk
              · rename_i hlast
                rw [if_neg hlast]
                exact hbeyond _ _ _ hwalk

/-- Where a file takes the place of what leads to no directory, a walk ends where it did, or at the
new file; then it did not lead to a directory. -/
theorem walk_of_replaced (h : Replaced fs fs' target contents mode)
    (hdead : ¬fs.LinksToDirectory target) (hwalk : fs.walk follow links loc steps = .ok l) :
    fs'.walk follow links loc steps = .ok l ∨
      fs'.walk follow links loc steps = .ok target ∧ ∀ mode, fs.get? l ≠ some (.directory mode) := by
  cases hlink : fs.linkAt target with
  | none =>
    have htarget : fs.passage target = none := by
      cases hpassage : fs.passage target with
      | none => rfl
      | some e =>
        obtain ⟨hget, hfile⟩ := passage_eq_some_iff.1 hpassage
        cases e with
        | file => contradiction
        | directory mode => exact absurd hget (h.not_directory mode)
        | link path =>
          rw [linkAt_eq_some_iff.2 hget] at hlink
          contradiction
    exact .inl (walk_of_samePassages (h.samePassages htarget) hwalk)
  | some path =>
    -- What comes behind the link would start in a directory.
    have hends : ∀ {n : Nat} rest l, (rest = [] → follow = true) →
        fs.walk follow n (linkStart target path) (path.steps ++ rest) = .ok l →
          rest = [] ∧ ∀ mode, fs.get? l ≠ some (.directory mode) := by
      intro n rest l hfollow hwalk
      cases rest with
      | nil =>
        rw [hfollow rfl, List.append_nil] at hwalk
        exact ⟨rfl, fun mode hdir => hdead ⟨path, n, l, mode, hlink, hwalk, hdir⟩⟩
      | cons step rest =>
        obtain ⟨m, d, hd, hrest⟩ := walk_split hwalk
        obtain ⟨mode, hdir⟩ := exists_directory_of_walk hrest
        exact absurd ⟨path, n, d, mode, hlink, hd, hdir⟩ hdead
    induction links generalizing loc steps l with
    | zero => exact walkUpTo_of_replaced h hlink (by simp) (by simp) hwalk
    | succ links ih => exact walkUpTo_of_replaced h hlink (fun _ _ _ => ih) hends hwalk

/-- A path to a directory leads there still. -/
theorem reach_of_replaced {mode' : Nat} (h : Replaced fs fs' target contents mode)
    (hdead : ¬fs.LinksToDirectory target) (hreach : fs.reach p = .ok dir)
    (hdir : fs.get? dir = some (.directory mode')) : fs'.reach p = .ok dir := by
  unfold reach start at hreach ⊢
  rw [h.workingDirectory]
  rcases walk_of_replaced h hdead hreach with hreach' | ⟨-, hfile⟩
  · exact hreach'
  · exact absurd hdir (hfile mode')

theorem Replaced.get?_directory {mode' : Nat} (h : Replaced fs fs' target contents mode)
    (hdir : fs.get? dir = some (.directory mode')) : fs'.get? dir = some (.directory mode') := by
  rw [h.get?_other, hdir]
  rintro rfl
  exact h.not_directory mode' hdir

/-- The place of an entry of a directory is where it was. -/
theorem place_child_of_replaced (h : Replaced fs fs' target contents mode)
    (hdead : ¬fs.LinksToDirectory target) (hname : IsPlainName name)
    (hplace : fs.place (p / name) = .ok l) : fs'.place (p / name) = .ok l := by
  obtain ⟨hp, dir, hreach, hstep⟩ := (place_child_iff hname).1 hplace
  obtain ⟨rfl, hsize, mode', hdir, henter⟩ := takeStep_name_iff.1 hstep
  refine (place_child_iff hname).2 ⟨hp, dir, reach_of_replaced h hdead hreach hdir, ?_⟩
  exact takeStep_name_iff.2 ⟨rfl, hsize, mode', h.get?_directory hdir, henter⟩

/-- A path leads to where it led, or to the new file. -/
theorem resolve_of_replaced (h : Replaced fs fs' target contents mode)
    (hdead : ¬fs.LinksToDirectory target) (hresolve : fs.resolve p = .ok l) :
    fs'.resolve p = .ok l ∨ fs'.resolve p = .ok target := by
  have hp := requirePath_of_locate hresolve
  rw [resolve, locate_eq hp] at hresolve
  rw [resolve, locate_eq hp]
  unfold start at hresolve ⊢
  rw [h.workingDirectory]
  exact (walk_of_replaced h hdead hresolve).imp_right And.left

/-! ### Paths to files -/

theorem walkUpTo_last (h : fs.walkUpTo true beyond loc [.name name] = .ok l) :
    fs.takeStep loc (.name name) = .ok (loc ++ [name]) ∧
      (l = loc ++ [name] ∧ fs.linkAt (loc ++ [name]) = none ∨
        ∃ path, fs.linkAt (loc ++ [name]) = some path ∧
          beyond (linkStart (loc ++ [name]) path) path.steps = .ok l) := by
  obtain ⟨mode, hget, henter⟩ := exists_directory_of_walkUpTo h
  rw [walkUpTo_of_entered hget henter, walkStep] at h
  split at h
  · contradiction
  rename_i hlong
  refine ⟨takeStep_name_iff.2 ⟨rfl, Nat.le_of_not_lt hlong, mode, hget, by simpa using henter⟩, ?_⟩
  unfold walkName at h
  cases hentry : fs.get? (loc ++ [name]) with
  | none =>
    simp only [hentry, List.isEmpty_nil, if_true] at h
    exact .inl ⟨(Except.ok.inj h).symm, by rw [linkAt, hentry]⟩
  | some e =>
    cases e with
    | file | directory =>
      simp only [hentry, walkUpTo] at h
      exact .inl ⟨(Except.ok.inj h).symm, by rw [linkAt, hentry]⟩
    | link path =>
      have hstart : (if path.isAbsolute then [] else loc) = linkStart (loc ++ [name]) path := by
        rw [linkStart, List.dropLast_concat]
      simp only [hentry, List.isEmpty_nil, Bool.not_true, Bool.and_false, Bool.false_eq_true,
        if_false, List.append_nil, hstart] at h
      exact .inr ⟨path, linkAt_eq_some_iff.2 hentry, h⟩

/-- A path to an entry of a directory leads to the place of that entry, or goes on through the link
there. -/
theorem place_of_resolve_child (hname : IsPlainName name) (h : fs.resolve (p / name) = .ok l) :
    ∃ dir, fs.reach p = .ok dir ∧ fs.place (p / name) = .ok (dir ++ [name]) ∧
      (l = dir ++ [name] ∧ fs.linkAt (dir ++ [name]) = none ∨
        ∃ path m, fs.linkAt (dir ++ [name]) = some path ∧
          fs.walk true m (linkStart (dir ++ [name]) path) path.steps = .ok l) := by
  have hp := requirePath_of_locate h
  have hstart : fs.start (p / name) = fs.start p := by
    rw [start, start, Path.isAbsolute_child hname]
  rw [resolve, locate_eq hp, Path.steps_child hname, hstart] at h
  obtain ⟨m, dir, hreach, hlast⟩ := walk_split h
  have hplace : fs.takeStep dir (.name name) = .ok (dir ++ [name]) →
      fs.place (p / name) = .ok (dir ++ [name]) :=
    fun hstep => (place_child_iff hname).2 ⟨hp, dir, hreach, hstep⟩
  cases m with
  | zero =>
    obtain ⟨hstep, hplain | ⟨path, -, hloop⟩⟩ := walkUpTo_last hlast
    · exact ⟨dir, hreach, hplace hstep, .inl hplain⟩
    · contradiction
  | succ m =>
    obtain ⟨hstep, hplain | ⟨path, hlink, hwalk⟩⟩ := walkUpTo_last hlast
    · exact ⟨dir, hreach, hplace hstep, .inl hplain⟩
    · exact ⟨dir, hreach, hplace hstep, .inr ⟨path, m, hlink, hwalk⟩⟩

/-- What a path to a file goes through last does not lead to a directory. -/
theorem not_linksToDirectory_of_resolve (hname : IsPlainName name) (hreach : fs.reach p = .ok dir)
    (hresolve : fs.resolve (p / name) = .ok l)
    (hfile : ∀ mode, fs.get? l ≠ some (.directory mode)) :
    ¬fs.LinksToDirectory (dir ++ [name]) := by
  rintro ⟨path, links, dir', mode', hlink, hwalk, hdir'⟩
  obtain ⟨dir'', hreach', -, hends⟩ := place_of_resolve_child hname hresolve
  obtain rfl := Except.ok.inj (hreach.symm.trans hreach')
  rcases hends with ⟨-, hnone⟩ | ⟨path', m, hlink', hwalk'⟩
  · rw [hlink] at hnone
    contradiction
  · obtain rfl := Option.some.inj (hlink.symm.trans hlink')
    -- With enough links to spare, both walks are the same.
    have hboth := (walk_mono (Nat.le_max_left links m) hwalk).symm.trans
      (walk_mono (Nat.le_max_right links m) hwalk')
    rw [Except.ok.inj hboth] at hdir'
    exact hfile mode' hdir'

end RamlBuild.Files
