import RamlBuild.Proofs.Files.Tree

/-!
# Walking paths

Where a walk ends is told by the directories and links that it comes by, so files may change under
it. The last step can be taken apart from the steps before it, and what is free at the end of a walk
stands in a directory.

## Main definitions

* `Files.walkStep`, `Files.walkName` — one step of a walk
* `Files.takeStep` — the last step of a walk

## Main results

* `Files.walk_of_samePassages`, `Files.locate_eq_ok_iff` — files do not tell where a walk ends
* `Files.walk_append` — the last step apart
* `Files.walk_directory_of_free` — what is free at the end of a walk stands in a directory
* `Files.walk_put_of_free` — a walk to what was free comes to the directory that is made there
-/

namespace RamlBuild.Files

variable {fs fs' : Files} {follow : Bool} {links : Nat} {loc l : Location} {steps rest : List Step}
  {beyond beyond' : Location → List Step → Except IoError Location} {n : String} {mode : Nat}

/-! ### One step -/

@[simp] theorem walkUpTo_nil : fs.walkUpTo follow beyond loc [] = .ok loc := rfl

theorem walkUpTo_missing {step : Step} (h : fs.get? loc = none) :
    fs.walkUpTo follow beyond loc (step :: rest) = .error .notFound := by
  simp only [walkUpTo, h]

theorem walkUpTo_file {step : Step} {contents : ByteArray} {shared : Option Nat}
    (h : fs.get? loc = some (.file contents mode shared)) :
    fs.walkUpTo follow beyond loc (step :: rest) = .error .notDirectory := by
  simp only [walkUpTo, h]

theorem walkUpTo_link {step : Step} {target : Path} (h : fs.get? loc = some (.link target)) :
    fs.walkUpTo follow beyond loc (step :: rest) = .error .notDirectory := by
  simp only [walkUpTo, h]

/-- What the step to a named entry comes to, from a directory that may be entered. -/
def walkName (fs : Files) (follow : Bool)
    (beyond : Location → List Step → Except IoError Location) (loc : Location) (n : String)
    (rest : List Step) : Except IoError Location :=
  match fs.get? (loc ++ [n]) with
  | none => if rest.isEmpty then .ok (loc ++ [n]) else .error .notFound
  | some (.link target) =>
    if rest.isEmpty && !follow then .ok (loc ++ [n])
    else beyond (if target.isAbsolute then [] else loc) (target.steps ++ rest)
  | some _ => fs.walkUpTo follow beyond (loc ++ [n]) rest

/-- Where a walk goes on after a step from a directory that may be entered. -/
def walkStep (fs : Files) (follow : Bool)
    (beyond : Location → List Step → Except IoError Location) (loc : Location) (rest : List Step) :
    Step → Except IoError Location
  | .inside => fs.walkUpTo follow beyond loc rest
  | .here => fs.walkUpTo follow beyond loc rest
  | .up => fs.walkUpTo follow beyond loc.dropLast rest
  | .name n =>
    if maxNameSize < n.utf8ByteSize then .error .nameTooLong
    else fs.walkName follow beyond loc n rest

/-- A step from a directory. -/
theorem walkUpTo_directory {step : Step} (h : fs.get? loc = some (.directory mode)) :
    fs.walkUpTo follow beyond loc (step :: rest) =
      if step != .inside && !(Entry.directory mode).permits .enter then .error .permissionDenied
      else fs.walkStep follow beyond loc rest step := by
  simp only [walkUpTo, h]
  cases step <;> rfl

/-- A walk that takes a step starts in a directory. -/
theorem exists_directory_of_walkUpTo {step : Step}
    (h : fs.walkUpTo follow beyond loc (step :: rest) = .ok l) :
    ∃ mode, fs.get? loc = some (.directory mode) ∧
      (step != .inside && !(Entry.directory mode).permits .enter) = false := by
  cases hget : fs.get? loc with
  | none => rw [walkUpTo_missing hget] at h; contradiction
  | some e =>
    cases e with
    | file contents mode shared => rw [walkUpTo_file hget] at h; contradiction
    | link target => rw [walkUpTo_link hget] at h; contradiction
    | directory mode =>
      refine ⟨mode, rfl, ?_⟩
      rw [walkUpTo_directory hget] at h
      split at h
      · contradiction
      · rename_i hnot
        exact Bool.eq_false_iff.2 hnot

theorem walkUpTo_of_entered {step : Step} (hget : fs.get? loc = some (.directory mode))
    (henter : (step != .inside && !(Entry.directory mode).permits .enter) = false) :
    fs.walkUpTo follow beyond loc (step :: rest) = fs.walkStep follow beyond loc rest step := by
  rw [walkUpTo_directory hget, henter, if_neg (by simp)]

/-! ### Files on the way -/

/-- At a file or where nothing is, a walk can only end. -/
theorem walkName_of_passage_eq_none (h : fs.passage (loc ++ [n]) = none) :
    fs.walkName follow beyond loc n rest = .ok l ↔ rest = [] ∧ l = loc ++ [n] := by
  unfold passage at h
  unfold walkName
  cases hget : fs.get? (loc ++ [n]) with
  | none =>
    cases rest with
    | nil => simp [eq_comm]
    | cons step rest => simp
  | some e =>
    cases e with
    | file contents mode shared =>
      cases rest with
      | nil => simp [eq_comm]
      | cons step rest => simp [walkUpTo_file hget]
    | directory mode => simp [hget, Entry.isFile] at h
    | link target => simp [hget, Entry.isFile] at h

theorem passage_eq_some_iff {e : Entry} :
    fs.passage loc = some e ↔ fs.get? loc = some e ∧ e.isFile = false := by
  simp [passage, Option.filter_eq_some_iff]

theorem walkUpTo_of_samePassages (h : SamePassages fs fs')
    (hbeyond : ∀ loc steps l, beyond loc steps = .ok l → beyond' loc steps = .ok l)
    (hwalk : fs.walkUpTo follow beyond loc steps = .ok l) :
    fs'.walkUpTo follow beyond' loc steps = .ok l := by
  induction steps generalizing loc with
  | nil => exact hwalk
  | cons step rest ih =>
    obtain ⟨mode, hget, henter⟩ := exists_directory_of_walkUpTo hwalk
    have hget' := h.get?_eq rfl hget
    rw [walkUpTo_of_entered hget henter] at hwalk
    rw [walkUpTo_of_entered hget' henter]
    cases step with
    | inside => exact ih hwalk
    | here => exact ih hwalk
    | up => exact ih hwalk
    | name n =>
      simp only [walkStep] at hwalk ⊢
      split at hwalk
      · contradiction
      · rename_i hlong
        rw [if_neg hlong]
        cases hpassage : fs.passage (loc ++ [n]) with
        | none =>
          have hpassage' := (h.passage (loc ++ [n])).trans hpassage
          rw [walkName_of_passage_eq_none hpassage] at hwalk
          rw [walkName_of_passage_eq_none hpassage']
          exact hwalk
        | some e =>
          obtain ⟨hentry, hfile⟩ := passage_eq_some_iff.1 hpassage
          have hentry' := h.get?_eq hfile hentry
          cases e with
          | file => contradiction
          | directory mode =>
            simp only [walkName, hentry, hentry'] at hwalk ⊢
            exact ih hwalk
          | link target =>
            simp only [walkName, hentry, hentry'] at hwalk ⊢
            split at hwalk
            · rename_i hlast
              rw [if_pos hlast]
              exact hwalk
            · rename_i hlast
              rw [if_neg hlast]
              exact hbeyond _ _ _ hwalk

/-- Files do not tell where a walk ends. -/
theorem walk_of_samePassages (h : SamePassages fs fs')
    (hwalk : fs.walk follow links loc steps = .ok l) :
    fs'.walk follow links loc steps = .ok l := by
  induction links generalizing loc steps l with
  | zero => exact walkUpTo_of_samePassages h (by simp) hwalk
  | succ links ih => exact walkUpTo_of_samePassages h (fun _ _ _ => ih) hwalk

theorem locate_of_samePassages (h : SamePassages fs fs') {p : Path}
    (hlocate : fs.locate follow p = .ok l) : fs'.locate follow p = .ok l := by
  unfold locate at hlocate ⊢
  rw [h.workingDirectory]
  cases hpath : requirePath p with
  | error error => rw [hpath] at hlocate; contradiction
  | ok =>
    rw [hpath] at hlocate
    exact walk_of_samePassages h hlocate

theorem locate_eq_ok_iff (h : SamePassages fs fs') {p : Path} :
    fs'.locate follow p = .ok l ↔ fs.locate follow p = .ok l :=
  ⟨locate_of_samePassages h.symm, locate_of_samePassages h⟩

/-! ### The last step apart -/

/-- One step from a location, not through a link. -/
def takeStep (fs : Files) (loc : Location) (last : Step) : Except IoError Location :=
  fs.walkUpTo false (fun _ _ => .error .filesystemLoop) loc [last]

/-- The last step does not lead through a link from the location. -/
def EndsPlainly (fs : Files) (follow : Bool) (loc : Location) (last : Step) : Prop :=
  follow = true → ∀ n target, last = .name n → fs.get? (loc ++ [n]) ≠ some (.link target)

theorem endsPlainly_of_not_follow {last : Step} : EndsPlainly fs false loc last := by
  intro h
  contradiction

theorem endsPlainly_inside : EndsPlainly fs follow loc .inside := by
  intro _ n target h
  contradiction

theorem walkUpTo_singleton {last : Step} (h : EndsPlainly fs follow loc last) :
    fs.walkUpTo follow beyond loc [last] = fs.takeStep loc last := by
  unfold takeStep
  cases hget : fs.get? loc with
  | none => rw [walkUpTo_missing hget, walkUpTo_missing hget]
  | some e =>
    cases e with
    | file => rw [walkUpTo_file hget, walkUpTo_file hget]
    | link => rw [walkUpTo_link hget, walkUpTo_link hget]
    | directory mode =>
      rw [walkUpTo_directory hget, walkUpTo_directory hget]
      cases last with
      | inside => rfl
      | here => rfl
      | up => rfl
      | name n =>
        have hname : fs.walkName follow beyond loc n [] =
            fs.walkName false (fun _ _ => .error .filesystemLoop) loc n [] := by
          unfold walkName
          cases hentry : fs.get? (loc ++ [n]) with
          | none => rfl
          | some e =>
            cases e with
            | file => rfl
            | directory => rfl
            | link target =>
              cases follow with
              | false => rfl
              | true => exact absurd hentry (h rfl n target rfl)
        simp only [walkStep, hname]

theorem walkUpTo_append {last : Step}
    (hbeyond : ∀ loc steps, (∀ end', beyond' loc steps = .ok end' → EndsPlainly fs follow end' last) →
      beyond loc (steps ++ [last]) = (beyond' loc steps).bind (fs.takeStep · last))
    (hlast : ∀ end', fs.walkUpTo true beyond' loc steps = .ok end' →
      EndsPlainly fs follow end' last) :
    fs.walkUpTo follow beyond loc (steps ++ [last]) =
      (fs.walkUpTo true beyond' loc steps).bind (fs.takeStep · last) := by
  induction steps generalizing loc with
  | nil => exact walkUpTo_singleton (hlast loc rfl)
  | cons step rest ih =>
    rw [List.cons_append]
    cases hget : fs.get? loc with
    | none =>
      rw [walkUpTo_missing hget, walkUpTo_missing hget]
      rfl
    | some e =>
      cases e with
      | file =>
        rw [walkUpTo_file hget, walkUpTo_file hget]
        rfl
      | link =>
        rw [walkUpTo_link hget, walkUpTo_link hget]
        rfl
      | directory mode =>
        rw [walkUpTo_directory hget] at hlast
        rw [walkUpTo_directory hget, walkUpTo_directory hget]
        split
        · rfl
        · rename_i hpermits
          rw [if_neg hpermits] at hlast
          cases step with
          | inside => exact ih hlast
          | here => exact ih hlast
          | up => exact ih hlast
          | name n =>
            simp only [walkStep] at hlast ⊢
            split
            · rfl
            · rename_i hlong
              rw [if_neg hlong] at hlast
              unfold walkName at hlast ⊢
              cases hentry : fs.get? (loc ++ [n]) with
              | none =>
                -- What is free cannot be walked on from.
                cases rest with
                | nil => exact (walkUpTo_missing hentry).symm
                | cons => rfl
              | some e =>
                cases e with
                | file =>
                  simp only [hentry] at hlast
                  exact ih hlast
                | directory =>
                  simp only [hentry] at hlast
                  exact ih hlast
                | link target =>
                  simp only [hentry, Bool.not_true, Bool.and_false, Bool.false_eq_true,
                    if_false] at hlast
                  have hmore : (rest ++ [last]).isEmpty = false := by simp
                  simp only [hmore, Bool.false_and, Bool.not_true, Bool.and_false,
                    Bool.false_eq_true, if_false, ← List.append_assoc]
                  exact hbeyond _ _ hlast

/-- A walk takes its last step from where the steps before it end. -/
theorem walk_append {last : Step}
    (hlast : ∀ end', fs.walk true links loc steps = .ok end' → EndsPlainly fs follow end' last) :
    fs.walk follow links loc (steps ++ [last]) =
      (fs.walk true links loc steps).bind (fs.takeStep · last) := by
  induction links generalizing loc steps with
  | zero => exact walkUpTo_append (fun _ _ _ => rfl) hlast
  | succ links ih => exact walkUpTo_append (fun _ _ => ih) hlast

theorem takeStep_inside (h : fs.get? loc = some (.directory mode)) :
    fs.takeStep loc .inside = .ok loc := by
  rw [takeStep, walkUpTo_directory h]
  rfl

theorem exists_directory_of_takeStep {last : Step} (h : fs.takeStep loc last = .ok l) :
    ∃ mode, fs.get? loc = some (.directory mode) := by
  obtain ⟨mode, hmode, -⟩ := exists_directory_of_walkUpTo h
  exact ⟨mode, hmode⟩

theorem eq_append_of_takeStep (h : fs.takeStep loc (.name n) = .ok l) : l = loc ++ [n] := by
  obtain ⟨mode, hget, henter⟩ := exists_directory_of_walkUpTo h
  rw [takeStep, walkUpTo_of_entered hget henter, walkStep] at h
  split at h
  · contradiction
  · unfold walkName at h
    split at h <;> simpa [eq_comm] using h

/-- A step to a named entry is told by the directory alone. -/
theorem takeStep_name_iff :
    fs.takeStep loc (.name n) = .ok l ↔
      l = loc ++ [n] ∧ n.utf8ByteSize ≤ maxNameSize ∧
        ∃ mode, fs.get? loc = some (.directory mode) ∧ (Entry.directory mode).permits .enter = true := by
  constructor
  · intro h
    refine ⟨eq_append_of_takeStep h, ?_⟩
    obtain ⟨mode, hget, henter⟩ := exists_directory_of_walkUpTo h
    rw [takeStep, walkUpTo_of_entered hget henter, walkStep] at h
    split at h
    · contradiction
    · rename_i hlong
      refine ⟨Nat.le_of_not_lt hlong, mode, hget, ?_⟩
      simpa using henter
  · rintro ⟨rfl, hlong, mode, hget, henter⟩
    rw [takeStep, walkUpTo_of_entered hget (by simp [henter]), walkStep, if_neg (Nat.not_lt.2 hlong)]
    unfold walkName
    cases hentry : fs.get? (loc ++ [n]) with
    | none => rfl
    | some e => cases e <;> rfl

/-! ### Free ends -/

theorem walkUpTo_directory_of_free (htree : fs.IsTree)
    (hbeyond : ∀ loc steps, (fs.get? loc).isSome → beyond loc steps = .ok l →
      ∃ dir name mode, l = dir ++ [name] ∧ fs.get? dir = some (.directory mode))
    (hfree : fs.get? l = none) (hstart : fs.get? loc = none → steps ≠ [])
    (hwalk : fs.walkUpTo follow beyond loc steps = .ok l) :
    ∃ dir name mode, l = dir ++ [name] ∧ fs.get? dir = some (.directory mode) := by
  induction steps generalizing loc with
  | nil =>
    obtain rfl : loc = l := by simpa using hwalk
    exact absurd rfl (hstart hfree)
  | cons step rest ih =>
    obtain ⟨mode, hget, henter⟩ := exists_directory_of_walkUpTo hwalk
    rw [walkUpTo_of_entered hget henter] at hwalk
    cases step with
    | inside => exact ih (by simp [hget]) hwalk
    | here => exact ih (by simp [hget]) hwalk
    | up =>
      refine ih ?_ hwalk
      -- The directory above a directory is there.
      intro hnone
      rcases List.eq_nil_or_concat loc with rfl | ⟨init, name, rfl⟩
      · simp at hnone
      · rw [List.concat_eq_append] at hget hnone
        obtain ⟨mode', hmode'⟩ := htree init name _ hget
        rw [List.dropLast_concat, hmode'] at hnone
        contradiction
    | name n =>
      simp only [walkStep] at hwalk
      split at hwalk
      · contradiction
      · unfold walkName at hwalk
        split at hwalk
        · split at hwalk
          · exact ⟨loc, n, mode, by simpa [eq_comm] using hwalk, hget⟩
          · contradiction
        · rename_i target hlink
          split at hwalk
          · obtain rfl : loc ++ [n] = l := by simpa using hwalk
            rw [hlink] at hfree
            contradiction
          · refine hbeyond _ _ ?_ hwalk
            split
            · simp
            · simp [hget]
        · rename_i hentry
          exact ih (by simp [hentry]) hwalk

/-- What is free at the end of a walk stands in a directory. -/
theorem walk_directory_of_free (htree : fs.IsTree) (hfree : fs.get? l = none)
    (hstart : fs.get? loc = none → steps ≠ [])
    (hwalk : fs.walk follow links loc steps = .ok l) :
    ∃ dir name mode, l = dir ++ [name] ∧ fs.get? dir = some (.directory mode) := by
  induction links generalizing loc steps with
  | zero => exact walkUpTo_directory_of_free htree (by simp) hfree hstart hwalk
  | succ links ih =>
    refine walkUpTo_directory_of_free htree ?_ hfree hstart hwalk
    intro loc' steps' hsome hwalk'
    refine ih ?_ hwalk'
    intro hnone
    rw [hnone] at hsome
    contradiction

/-! ### New directories -/

theorem walkUpTo_put_of_free (hfree : fs.get? l = none)
    (hbeyond : ∀ loc steps, beyond loc steps = .ok l → beyond' loc steps = .ok l)
    (hwalk : fs.walkUpTo follow beyond loc steps = .ok l) :
    (fs.put l (.directory mode)).walkUpTo true beyond' loc steps = .ok l := by
  have hnil := ne_nil_of_get?_eq_none hfree
  have hkept : ∀ {v e}, fs.get? v = some e → (fs.put l (.directory mode)).get? v = some e := by
    intro v e hv
    have hne : v ≠ l := by
      rintro rfl
      rw [hfree] at hv
      contradiction
    rw [get?_put_of_ne hne, hv]
  induction steps generalizing loc with
  | nil => exact hwalk
  | cons step rest ih =>
    obtain ⟨mode', hget, henter⟩ := exists_directory_of_walkUpTo hwalk
    rw [walkUpTo_of_entered hget henter] at hwalk
    rw [walkUpTo_of_entered (hkept hget) henter]
    cases step with
    | inside => exact ih hwalk
    | here => exact ih hwalk
    | up => exact ih hwalk
    | name n =>
      simp only [walkStep] at hwalk ⊢
      split at hwalk
      · contradiction
      · rename_i hlong
        rw [if_neg hlong]
        unfold walkName at hwalk ⊢
        cases hentry : fs.get? (loc ++ [n]) with
        | none =>
          simp only [hentry] at hwalk
          split at hwalk
          · rename_i hlast
            obtain rfl : rest = [] := by simpa using hlast
            obtain rfl : loc ++ [n] = l := by simpa using hwalk
            simp [get?_put_self hnil]
          · contradiction
        | some e =>
          simp only [hentry] at hwalk
          simp only [hkept hentry]
          cases e with
          | file => exact ih hwalk
          | directory => exact ih hwalk
          | link target =>
            simp only at hwalk ⊢
            split at hwalk
            · obtain rfl : loc ++ [n] = l := by simpa using hwalk
              rw [hfree] at hentry
              contradiction
            · rw [if_neg (by simp)]
              exact hbeyond _ _ hwalk

/-- A walk to what was free comes to the directory that is made there. -/
theorem walk_put_of_free (hfree : fs.get? l = none)
    (hwalk : fs.walk follow links loc steps = .ok l) :
    (fs.put l (.directory mode)).walk true links loc steps = .ok l := by
  induction links generalizing loc steps with
  | zero => exact walkUpTo_put_of_free hfree (by simp) hwalk
  | succ links ih => exact walkUpTo_put_of_free hfree (fun _ _ => ih) hwalk

end RamlBuild.Files
