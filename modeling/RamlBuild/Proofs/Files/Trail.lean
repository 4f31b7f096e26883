import RamlBuild.Proofs.Files.Walk

/-!
# Trails

The trail of a path are the locations that it leads by, when whatever is missing on its way is taken
for a directory. It is told by links alone, so it stays the same while missing directories are made,
and a walk that succeeds has followed it. As long as the directories and links on its way stay, a walk
that came to a directory comes there again.

## Main definitions

* `Files.linkAt`, `Files.contentsAt` — the target of a link, the contents of a file
* `Files.trail` — the trail of steps from a location

## Main results

* `Files.trail_congr` — links tell the trail
* `Files.trail_of_walk` — a walk follows the trail
* `Files.walk_of_trail` — a walk comes to a directory again while its way stays
-/

namespace RamlBuild.Files

variable {fs fs' : Files} {links : Nat} {loc l v : Location} {steps rest : List Step} {n : String}
  {mode : Nat}

/-- The target of the link at a location. -/
def linkAt (fs : Files) (loc : Location) : Option Path :=
  match fs.get? loc with
  | some (.link target) => some target
  | _ => none

theorem linkAt_eq_some_iff {target : Path} :
    fs.linkAt loc = some target ↔ fs.get? loc = some (.link target) := by
  unfold linkAt
  split <;> simp_all

theorem endsPlainly_of_linkAt {follow : Bool} (h : fs.linkAt (loc ++ [n]) = none) :
    EndsPlainly fs follow loc (.name n) := by
  intro _ n' target hn hget
  obtain rfl := Step.name.inj hn
  rw [linkAt_eq_some_iff.2 hget] at h
  exact absurd h (by simp)

/-- The contents of the file at a location. -/
def contentsAt (fs : Files) (loc : Location) : Option ByteArray :=
  match fs.get? loc with
  | some (.file contents _ _) => some contents
  | _ => none

theorem contentsAt_eq_some_iff {contents : ByteArray} : fs.contentsAt l = some contents ↔
    ∃ mode shared, fs.get? l = some (.file contents mode shared) := by
  unfold contentsAt
  split <;> simp_all

theorem contentsAt_of_directory (h : fs.get? l = some (.directory mode)) :
    fs.contentsAt l = none := by
  rw [contentsAt, h]

theorem linkAt_of_file {contents : ByteArray} {shared : Option Nat}
    (h : fs.get? l = some (.file contents mode shared)) : fs.linkAt l = none := by
  rw [linkAt, h]

theorem linkAt_eq_of_get?_eq (h : fs'.get? l = fs.get? l) : fs'.linkAt l = fs.linkAt l := by
  rw [linkAt, h, linkAt]

theorem linkAt_eq_of_passage_eq (h : fs'.passage l = fs.passage l) :
    fs'.linkAt l = fs.linkAt l := by
  apply Option.ext
  intro target
  have hiff : ∀ fs : Files, fs.linkAt l = some target ↔ fs.passage l = some (.link target) := by
    intro fs
    rw [linkAt_eq_some_iff, passage_eq_some_iff]
    simp [Entry.isFile]
  rw [hiff, hiff, h]

theorem passage_eq_none (hlink : fs.linkAt loc = none)
    (hdir : ∀ mode, fs.get? loc ≠ some (.directory mode)) : fs.passage loc = none := by
  rw [Option.eq_none_iff_forall_ne_some]
  intro e he
  obtain ⟨hget, hfile⟩ := passage_eq_some_iff.1 he
  cases e with
  | file => contradiction
  | directory mode => exact hdir mode hget
  | link target =>
    rw [linkAt_eq_some_iff.2 hget] at hlink
    contradiction

theorem linkAt_eq_none_of_passage (h : fs.passage loc = none) : fs.linkAt loc = none := by
  rw [Option.eq_none_iff_forall_ne_some]
  intro target htarget
  have hpassage := passage_eq_some_iff.2 ⟨linkAt_eq_some_iff.1 htarget, rfl⟩
  rw [h] at hpassage
  contradiction

/-- The locations that steps lead by. -/
structure Trail where
  /-- The locations on the way, with the first and the last one. -/
  way : List Location
  /-- The last one. -/
  finish : Location

/-- The trail with one more location before it. -/
def Trail.comingBy (loc : Location) (trail : Trail) : Trail :=
  { trail with way := loc :: trail.way }

@[simp] theorem Trail.way_comingBy (trail : Trail) : (trail.comingBy loc).way = loc :: trail.way :=
  rfl

@[simp] theorem Trail.finish_comingBy (trail : Trail) :
    (trail.comingBy loc).finish = trail.finish := rfl

/-- The trail of steps from a location up to the first link, with `beyond` going on from there. -/
def trailUpTo (fs : Files) (beyond : Location → List Step → Option Trail) (loc : Location) :
    List Step → Option Trail
  | [] => some ⟨[loc], loc⟩
  | .inside :: rest => fs.trailUpTo beyond loc rest
  | .here :: rest => fs.trailUpTo beyond loc rest
  | .up :: rest => (fs.trailUpTo beyond loc.dropLast rest).map (·.comingBy loc)
  | .name n :: rest =>
    match fs.linkAt (loc ++ [n]) with
    | some target =>
      (beyond (if target.isAbsolute then [] else loc) (target.steps ++ rest)).map fun trail =>
        (trail.comingBy (loc ++ [n])).comingBy loc
    | none => (fs.trailUpTo beyond (loc ++ [n]) rest).map (·.comingBy loc)

/-- The trail of steps from a location through at most `links` links. -/
def trail (fs : Files) : (links : Nat) → Location → List Step → Option Trail
  | 0 => fs.trailUpTo fun _ _ => none
  | links + 1 => fs.trailUpTo (fs.trail links)

variable {trail : Trail} {beyond beyond' : Location → List Step → Option Trail}
  {walkBeyond walkBeyond' : Location → List Step → Except IoError Location}

theorem start_mem_way (h : fs.trailUpTo beyond loc steps = some trail) : loc ∈ trail.way := by
  induction steps with
  | nil =>
    obtain rfl : ⟨[loc], loc⟩ = trail := by simpa [trailUpTo] using h
    simp
  | cons step rest ih =>
    cases step with
    | inside => exact ih h
    | here => exact ih h
    | up =>
      obtain ⟨trail', -, rfl⟩ := Option.map_eq_some_iff.1 h
      simp
    | name n =>
      simp only [trailUpTo] at h
      split at h <;> (obtain ⟨trail', -, rfl⟩ := Option.map_eq_some_iff.1 h; simp)

theorem finish_mem_way_of_trailUpTo
    (hbeyond : ∀ loc steps trail, beyond loc steps = some trail → trail.finish ∈ trail.way)
    (h : fs.trailUpTo beyond loc steps = some trail) : trail.finish ∈ trail.way := by
  induction steps generalizing loc trail with
  | nil =>
    obtain rfl : ⟨[loc], loc⟩ = trail := by simpa [trailUpTo] using h
    simp
  | cons step rest ih =>
    cases step with
    | inside => exact ih h
    | here => exact ih h
    | up =>
      obtain ⟨trail', htrail, rfl⟩ := Option.map_eq_some_iff.1 h
      simp [ih htrail]
    | name n =>
      simp only [trailUpTo] at h
      split at h
      · obtain ⟨trail', htrail, rfl⟩ := Option.map_eq_some_iff.1 h
        simp [hbeyond _ _ _ htrail]
      · obtain ⟨trail', htrail, rfl⟩ := Option.map_eq_some_iff.1 h
        simp [ih htrail]

/-- A trail ends at one of its locations. -/
theorem finish_mem_way (h : fs.trail links loc steps = some trail) : trail.finish ∈ trail.way := by
  induction links generalizing loc steps trail with
  | zero => exact finish_mem_way_of_trailUpTo (by simp) h
  | succ links ih => exact finish_mem_way_of_trailUpTo (fun _ _ _ => ih) h

/-! ### Links tell the trail -/

theorem trailUpTo_congr
    (hbeyond : ∀ loc steps trail, beyond loc steps = some trail →
      (∀ v ∈ trail.way, fs'.linkAt v = fs.linkAt v) → beyond' loc steps = some trail)
    (h : fs.trailUpTo beyond loc steps = some trail)
    (hlinks : ∀ v ∈ trail.way, fs'.linkAt v = fs.linkAt v) :
    fs'.trailUpTo beyond' loc steps = some trail := by
  induction steps generalizing loc trail with
  | nil => exact h
  | cons step rest ih =>
    cases step with
    | inside => exact ih h hlinks
    | here => exact ih h hlinks
    | up =>
      obtain ⟨trail', htrail, rfl⟩ := Option.map_eq_some_iff.1 h
      simp only [trailUpTo]
      rw [ih htrail fun v hv => hlinks v (by simp [hv])]
      rfl
    | name n =>
      simp only [trailUpTo] at h ⊢
      cases hlink : fs.linkAt (loc ++ [n]) with
      | some target =>
        simp only [hlink] at h
        obtain ⟨trail', htrail, rfl⟩ := Option.map_eq_some_iff.1 h
        have hlink' := (hlinks (loc ++ [n]) (by simp)).trans hlink
        simp only [hlink']
        rw [hbeyond _ _ _ htrail fun v hv => hlinks v (by simp [hv])]
        rfl
      | none =>
        simp only [hlink] at h
        obtain ⟨trail', htrail, rfl⟩ := Option.map_eq_some_iff.1 h
        have hlink' := (hlinks (loc ++ [n]) (by simp [start_mem_way htrail])).trans hlink
        simp only [hlink']
        rw [ih htrail fun v hv => hlinks v (by simp [hv])]
        rfl

/-- The links on its way tell the trail. -/
theorem trail_congr (h : fs.trail links loc steps = some trail)
    (hlinks : ∀ v ∈ trail.way, fs'.linkAt v = fs.linkAt v) :
    fs'.trail links loc steps = some trail := by
  induction links generalizing loc steps trail with
  | zero => exact trailUpTo_congr (by simp) h hlinks
  | succ links ih => exact trailUpTo_congr (fun _ _ _ => ih) h hlinks

/-! ### Walks follow trails -/

theorem trailUpTo_of_walkUpTo
    (hbeyond : ∀ loc steps l, walkBeyond loc steps = .ok l →
      ∃ trail, beyond loc steps = some trail ∧ trail.finish = l ∧
        ((fs.passage l).isSome → ∀ v ∈ trail.way, (fs.passage v).isSome))
    (hwalk : fs.walkUpTo true walkBeyond loc steps = .ok l) :
    ∃ trail, fs.trailUpTo beyond loc steps = some trail ∧ trail.finish = l ∧
      ((fs.passage l).isSome → ∀ v ∈ trail.way, (fs.passage v).isSome) := by
  induction steps generalizing loc with
  | nil =>
    obtain rfl : loc = l := by simpa using hwalk
    exact ⟨⟨[loc], loc⟩, rfl, rfl, by simp⟩
  | cons step rest ih =>
    obtain ⟨mode, hget, henter⟩ := exists_directory_of_walkUpTo hwalk
    rw [walkUpTo_of_entered hget henter] at hwalk
    have hsome : (fs.passage loc).isSome := by simp [passage, hget, Entry.isFile]
    cases step with
    | inside => exact ih hwalk
    | here => exact ih hwalk
    | up =>
      obtain ⟨trail, htrail, hfinish, hway⟩ := ih hwalk
      refine ⟨trail.comingBy loc, by simp [trailUpTo, htrail], hfinish, ?_⟩
      intro hl v hv
      rcases List.mem_cons.1 hv with rfl | hv
      · exact hsome
      · exact hway hl v hv
    | name n =>
      simp only [walkStep] at hwalk
      split at hwalk
      · contradiction
      · unfold walkName at hwalk
        split at hwalk
        · rename_i hnone
          split at hwalk
          · rename_i hlast
            obtain rfl : rest = [] := by simpa using hlast
            obtain rfl : loc ++ [n] = l := by simpa using hwalk
            have hlink : fs.linkAt (loc ++ [n]) = none := by simp [linkAt, hnone]
            refine ⟨⟨[loc, loc ++ [n]], loc ++ [n]⟩, by simp [trailUpTo, hlink, Trail.comingBy], rfl,
              ?_⟩
            intro h
            rw [passage, hnone] at h
            contradiction
          · contradiction
        · rename_i target hentry
          simp only [Bool.not_true, Bool.and_false, Bool.false_eq_true, if_false] at hwalk
          obtain ⟨trail, htrail, hfinish, hway⟩ := hbeyond _ _ _ hwalk
          refine ⟨(trail.comingBy (loc ++ [n])).comingBy loc, ?_, hfinish, ?_⟩
          · simp [trailUpTo, linkAt_eq_some_iff.2 hentry, htrail]
          · intro hl v hv
            simp only [Trail.way_comingBy, List.mem_cons] at hv
            rcases hv with rfl | rfl | hv
            · exact hsome
            · simp [passage, hentry, Entry.isFile]
            · exact hway hl v hv
        · rename_i e hnotLink hentry
          obtain ⟨trail, htrail, hfinish, hway⟩ := ih hwalk
          have hlink : fs.linkAt (loc ++ [n]) = none := by
            rw [Option.eq_none_iff_forall_ne_some]
            intro target htarget
            rw [linkAt_eq_some_iff, hentry] at htarget
            exact hnotLink target (Option.some.inj htarget)
          refine ⟨trail.comingBy loc, by simp [trailUpTo, hlink, htrail], hfinish, ?_⟩
          intro hl v hv
          rcases List.mem_cons.1 hv with rfl | hv
          · exact hsome
          · exact hway hl v hv

/-- A walk follows the trail, and when it comes to a directory there is a directory or a link
everywhere on its way. -/
theorem trail_of_walk (hwalk : fs.walk true links loc steps = .ok l) :
    ∃ trail, fs.trail links loc steps = some trail ∧ trail.finish = l ∧
      ((fs.passage l).isSome → ∀ v ∈ trail.way, (fs.passage v).isSome) := by
  induction links generalizing loc steps l with
  | zero => exact trailUpTo_of_walkUpTo (by simp) hwalk
  | succ links ih => exact trailUpTo_of_walkUpTo (fun _ _ _ => ih) hwalk

theorem walkUpTo_of_trailUpTo
    (hbeyond : ∀ loc steps trail, walkBeyond loc steps = .ok l → beyond loc steps = some trail →
      (∀ v ∈ trail.way, ∀ e, fs.passage v = some e → fs'.passage v = some e) →
      walkBeyond' loc steps = .ok l)
    (hwalk : fs.walkUpTo true walkBeyond loc steps = .ok l)
    (htrail : fs.trailUpTo beyond loc steps = some trail) (hl : (fs.passage l).isSome)
    (hstay : ∀ v ∈ trail.way, ∀ e, fs.passage v = some e → fs'.passage v = some e) :
    fs'.walkUpTo true walkBeyond' loc steps = .ok l := by
  induction steps generalizing loc trail with
  | nil => exact hwalk
  | cons step rest ih =>
    obtain ⟨mode, hget, henter⟩ := exists_directory_of_walkUpTo hwalk
    have hget' := (passage_eq_some_iff.1 (hstay loc (start_mem_way htrail) _
      (passage_eq_some_iff.2 ⟨hget, rfl⟩))).1
    rw [walkUpTo_of_entered hget henter] at hwalk
    rw [walkUpTo_of_entered hget' henter]
    cases step with
    | inside => exact ih hwalk htrail hstay
    | here => exact ih hwalk htrail hstay
    | up =>
      obtain ⟨trail', htrail', rfl⟩ := Option.map_eq_some_iff.1 htrail
      exact ih hwalk htrail' fun v hv => hstay v (by simp [hv])
    | name n =>
      simp only [walkStep] at hwalk ⊢
      simp only [trailUpTo] at htrail
      split at hwalk
      · contradiction
      · rename_i hlong
        rw [if_neg hlong]
        unfold walkName at hwalk ⊢
        cases hentry : fs.get? (loc ++ [n]) with
        | none =>
          simp only [hentry] at hwalk
          split at hwalk
          · obtain rfl : loc ++ [n] = l := by simpa using hwalk
            rw [passage, hentry] at hl
            contradiction
          · contradiction
        | some e =>
          simp only [hentry] at hwalk
          cases hlink : fs.linkAt (loc ++ [n]) with
          | some target =>
            simp only [hlink] at htrail
            obtain ⟨trail', htrail', rfl⟩ := Option.map_eq_some_iff.1 htrail
            obtain rfl : e = .link target :=
              Option.some.inj (hentry.symm.trans (linkAt_eq_some_iff.1 hlink))
            have hentry' := (passage_eq_some_iff.1 (hstay (loc ++ [n]) (by simp) _
              (passage_eq_some_iff.2 ⟨hentry, rfl⟩))).1
            simp only [hentry', Bool.not_true, Bool.and_false, Bool.false_eq_true,
              if_false] at hwalk ⊢
            exact hbeyond _ _ _ hwalk htrail' fun v hv => hstay v (by simp [hv])
          | none =>
            simp only [hlink] at htrail
            obtain ⟨trail', htrail', rfl⟩ := Option.map_eq_some_iff.1 htrail
            have hgoes : fs.walkUpTo true walkBeyond (loc ++ [n]) rest = .ok l →
                fs'.walkUpTo true walkBeyond' (loc ++ [n]) rest = .ok l :=
              fun h => ih h htrail' fun v hv => hstay v (by simp [hv])
            cases e with
            | link target =>
              rw [linkAt_eq_some_iff.2 hentry] at hlink
              contradiction
            | file =>
              -- At a file the walk would end, but it ends at a directory.
              simp only at hwalk
              cases rest with
              | nil =>
                obtain rfl : loc ++ [n] = l := by simpa using hwalk
                rw [passage, hentry] at hl
                contradiction
              | cons step rest =>
                rw [walkUpTo_file hentry] at hwalk
                contradiction
            | directory mode' =>
              have hentry' := (passage_eq_some_iff.1 (hstay (loc ++ [n])
                (by simp [start_mem_way htrail']) _ (passage_eq_some_iff.2 ⟨hentry, rfl⟩))).1
              simpa only [hentry'] using hgoes hwalk

/-- A walk that came to a directory comes there again while the directories and links on its way
stay. -/
theorem walk_of_trail (hwalk : fs.walk true links loc steps = .ok l)
    (htrail : fs.trail links loc steps = some trail) (hl : (fs.passage l).isSome)
    (hstay : ∀ v ∈ trail.way, ∀ e, fs.passage v = some e → fs'.passage v = some e) :
    fs'.walk true links loc steps = .ok l := by
  induction links generalizing loc steps trail with
  | zero => exact walkUpTo_of_trailUpTo (by simp) hwalk htrail hl hstay
  | succ links ih =>
    exact walkUpTo_of_trailUpTo (fun _ _ _ hwalk htrail hstay => ih hwalk htrail hstay) hwalk
      htrail hl hstay

end RamlBuild.Files
