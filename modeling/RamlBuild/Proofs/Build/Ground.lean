import RamlBuild.Proofs.Build.Frame
import RamlBuild.Proofs.Build.Twins

/-!
# Two runs around a part of the tree

Two runs start from trees that differ in a part only. As long as no path of theirs leads through this
part, and the links and directories in it stay, they see the same, do the same and leave trees that
differ in this part only.

## Main definitions

* `Ground` — where two runs start, the part that may differ, and the ways around it
* `Ground.Alike` — trees that differ in the part only, with the ways as they were
* `Ground.Sees`, `Ground.Solid` — both runs see a path the same; its own entry is no link

## Main results

* `Ground.Sound.determined_createDirectories`, `Ground.Sees.determined_writeAtomically`,
  `Ground.Sees.determined_removeFile` — work around the part is determined
-/

namespace RamlBuild

open Build

namespace Files

variable {fs fs' : Files} {dir l : Location} {n : String} {p : Path}

/-- A step to a named entry is told by the directory. -/
theorem takeStep_name_congr (h : fs'.get? dir = fs.get? dir) :
    fs'.takeStep dir (.name n) = fs.takeStep dir (.name n) := by
  unfold takeStep
  cases hget : fs.get? dir with
  | none => rw [walkUpTo_missing (h.trans hget), walkUpTo_missing hget]
  | some e =>
    cases e with
    | file => rw [walkUpTo_file (h.trans hget), walkUpTo_file hget]
    | link => rw [walkUpTo_link (h.trans hget), walkUpTo_link hget]
    | directory mode =>
      have hname : ∀ fs : Files,
          fs.walkName false (fun _ _ => .error .filesystemLoop) dir n [] = .ok (dir ++ [n]) := by
        intro fs
        unfold walkName
        cases fs.get? (dir ++ [n]) with
        | none => rfl
        | some e => cases e <;> rfl
      rw [walkUpTo_directory (h.trans hget), walkUpTo_directory hget]
      simp only [walkStep, hname]

/-- The place of an entry of a directory is told by the way of the directory. -/
theorem AlikeOff.place_child {inside ways : Location → Prop} (h : AlikeOff inside fs fs')
    (hleads : fs.LeadsBy ways p) (hways : ∀ v, ways v → ¬inside v) (hname : IsPlainName n) :
    fs'.place (p / n) = fs.place (p / n) := by
  cases hpath : requirePath (p / n) with
  | error error => simp only [place, locate, hpath, bind, Except.bind]
  | ok =>
    rw [place, place, locate_child hname hpath fun _ _ => endsPlainly_of_not_follow,
      locate_child hname hpath fun _ _ => endsPlainly_of_not_follow, h.reach_eq hleads hways]
    cases hreach : fs.reach p with
    | error error => rfl
    | ok dir => exact takeStep_name_congr (h.get?_eq dir (hways dir (hleads.reach hreach)))

end Files

/-- The place of an entry of a directory stays while the way of the directory is kept. -/
theorem Frame.Keeps.place_child {frame : Frame} {fs fs' : Files} {p : Path} {l : Location} {n : String}
    (h : frame.Keeps fs fs') (hleads : fs.LeadsBy frame.ways p) (hname : IsPlainName n)
    (hplace : fs.place (p / n) = .ok l) : fs'.place (p / n) = .ok l := by
  obtain ⟨hpath, dir, hreach, hstep⟩ := (Files.place_child_iff hname).1 hplace
  obtain ⟨mode, hdir⟩ := Files.exists_directory_of_takeStep hstep
  have hpassage : fs.passage dir = some (.directory mode) := Files.passage_eq_some_iff.2 ⟨hdir, rfl⟩
  have hdir' : fs'.get? dir = some (.directory mode) :=
    (Files.passage_eq_some_iff.1 (h.passage dir (hleads.reach hreach) _ hpassage)).1
  obtain ⟨trail, htrail, hway⟩ := hleads
  have hstart : fs'.start p = fs.start p := by rw [Files.start, h.workingDirectory, Files.start]
  refine (Files.place_child_iff hname).2 ⟨hpath, dir, ?_, ?_⟩
  · rw [Files.reach, hstart]
    exact Files.walk_of_trail hreach htrail (by simp [hpassage])
      fun v hv => h.passage v (hway v hv)
  · rw [Files.takeStep_name_congr (hdir'.trans hdir.symm)]
    exact hstep

/-- Something that came where nothing was after a while may go again, with all that is below it. -/
theorem Frame.Keeps.eraseTree_of_free {frame : Frame} {start fs fs' : Files} {loc : Location}
    (h : frame.Keeps start fs) (htree : fs.IsTree) (hfree : fs.get? loc = none)
    (h' : frame.Keeps start fs') (hkept : ∀ l, ¬frame.kept l) :
    frame.Keeps start (fs'.eraseTree loc) := by
  have hne := Files.ne_nil_of_get?_eq_none hfree
  have hgone : ∀ v, loc.isPrefixOf v = true → fs.get? v = none :=
    fun v hv => htree.get?_eq_none_of_prefix hfree hv
  refine ⟨h'.workingDirectory, fun hstart => (h'.isTree hstart).eraseTree hne, ?_, ?_,
    fun l hl => absurd hl (hkept l)⟩
  · intro v hv
    by_cases hbelow : loc.isPrefixOf v = true
    · rw [← h.linkAt v hv, Files.linkAt, Files.get?_eraseTree hne, if_pos hbelow, Files.linkAt,
        hgone v hbelow]
    · rw [← h'.linkAt v hv]
      exact Files.linkAt_eq_of_get?_eq (by rw [Files.get?_eraseTree hne, if_neg hbelow])
  · intro v hv e he
    by_cases hbelow : loc.isPrefixOf v = true
    · have hpassage := h.passage v hv e he
      rw [Files.passage_of_none (hgone v hbelow)] at hpassage
      contradiction
    · rw [Files.passage, Files.get?_eraseTree hne, if_neg hbelow]
      exact h'.passage v hv e he

/-- Where two runs start, the part of their trees that may differ, and the locations that their paths
lead by. -/
structure Ground where
  /-- What is in the part. -/
  inside : Location → Prop
  /-- The locations on the ways of the paths. -/
  ways : Location → Prop
  /-- The tree that the one run starts from. -/
  first : Files
  /-- The tree that the other run starts from. -/
  second : Files

namespace Ground

variable {g : Ground} {fs fs' after after' : Files} {p : Path} {text : String} {a b : Host}

/-- What stays on the ways and in the part: no link changes and no directory goes. -/
def frame (g : Ground) : Frame :=
  ⟨fun v => g.ways v ∨ g.inside v, fun _ => False⟩

/-- The ways lead around the part, and both runs start from a tree. No name with a dot at its front
leads into the part. -/
structure Sound (g : Ground) : Prop where
  off : ∀ v, g.ways v → ¬g.inside v
  dotless : ∀ l n, g.inside (l ++ [n]) → g.inside l ∨ n.toList.head? ≠ some '.'
  isTree : g.first.IsTree
  isTree' : g.second.IsTree

/-- Two trees differ in the part only, and each has its links and directories on the ways and in the
part as they were at the start. -/
structure Alike (g : Ground) (fs fs' : Files) : Prop where
  alikeOff : Files.AlikeOff g.inside fs fs'
  keeps : g.frame.Keeps g.first fs
  keeps' : g.frame.Keeps g.second fs'
  distinct : fs.Distinct
  distinct' : fs'.Distinct

/-- Both runs see a path the same, at any time. -/
def Sees (g : Ground) (p : Path) : Prop :=
  ∀ fs fs', g.Alike fs fs' → Files.SeesOff g.inside fs fs' p

/-- What stands at a path itself is never a link. -/
def Solid (g : Ground) (p : Path) : Prop :=
  ∀ fs fs', g.Alike fs fs' → ∀ target, fs.place p = .ok target → fs.linkAt target = none

theorem Sound.isTree_of_alike (hg : g.Sound) (h : g.Alike fs fs') : fs.IsTree :=
  h.keeps.isTree hg.isTree

theorem Sound.isTree_of_alike' (hg : g.Sound) (h : g.Alike fs fs') : fs'.IsTree :=
  h.keeps'.isTree hg.isTree'

namespace Alike

theorem leadsBy (h : g.Alike fs fs') (hleads : g.first.LeadsBy g.ways p) : fs.LeadsBy g.ways p :=
  h.keeps.leadsBy hleads fun _ hv => .inl hv

theorem leadsBy' (h : g.Alike fs fs') (hg : g.Sound) (hleads : g.first.LeadsBy g.ways p) :
    fs'.LeadsBy g.ways p :=
  (h.leadsBy hleads).congr h.alikeOff.workingDirectory fun v hv => h.alikeOff.linkAt_eq (hg.off v hv)

/-- Trees stay alike when both runs leave the ways and the part alone. -/
theorem next (h : g.Alike fs fs') (halike : Files.AlikeOff g.inside after after')
    (hkeeps : g.frame.Keeps fs after) (hkeeps' : g.frame.Keeps fs' after')
    (hdistinct : after.Distinct) (hdistinct' : after'.Distinct) : g.Alike after after' :=
  ⟨halike, h.keeps.trans hkeeps, h.keeps'.trans hkeeps', hdistinct, hdistinct'⟩

end Alike

theorem Sound.sees (hg : g.Sound) (hleads : g.first.LeadsBy g.ways p) : g.Sees p :=
  fun _ _ h => h.alikeOff.seesOff (h.leadsBy hleads) hg.off

/-- What can be asked of a path that both runs see the same is determined. -/
theorem Sees.determined_isFile (hp : g.Sees p) : Determined g.Alike (isFile p) :=
  .asking fun fs fs' h => h.alikeOff.isFile_eq (hp fs fs' h)

theorem Sees.determined_isDirectory (hp : g.Sees p) : Determined g.Alike (isDirectory p) :=
  .asking fun fs fs' h => h.alikeOff.isDirectory_eq (hp fs fs' h)

theorem Sees.determined_holds (hp : g.Sees p) : Determined g.Alike (holds p) :=
  .asking fun fs fs' h => h.alikeOff.holds_eq (hp fs fs' h)

/-- Where the ways have no links, what a path leads to is none. -/
theorem solid_of_leads (hlinks : ∀ v, g.ways v → g.first.linkAt v = none)
    (hleads : g.first.LeadsBy g.ways p) : g.Solid p := by
  intro fs fs' h target hplace
  have hway : g.ways target := (h.leadsBy hleads).locate hplace
  exact (h.keeps.linkAt target (.inl hway)).trans (hlinks target hway)

/-- Where a file is replaced or removed, the ways do not lead through it. -/
theorem Solid.off (hp : g.Sees p) (hsolid : g.Solid p) (h : g.Alike fs fs') :
    (∀ target, fs.place p = .ok target →
      ¬g.frame.kept target ∧ (g.frame.ways target → fs.linkAt target = none)) ∧
      ∀ target, fs'.place p = .ok target →
        ¬g.frame.kept target ∧ (g.frame.ways target → fs'.linkAt target = none) := by
  have hsees := hp fs fs' h
  refine ⟨fun target hplace => ⟨id, fun _ => hsolid fs fs' h target hplace⟩, ?_⟩
  intro target hplace
  rw [Files.place, hsees.locate] at hplace
  exact ⟨id, fun _ => (h.alikeOff.linkAt_eq (hsees.off _ _ hplace)).trans
    (hsolid fs fs' h target hplace)⟩

namespace Sound

theorem determined_createDirectories (hg : g.Sound) (hleads : g.first.LeadsBy g.ways p) :
    Determined g.Alike (createDirectories p) := by
  refine (Build.determined_createDirectories (p := p) hg.off).strengthen ?_ ?_
  · exact fun fs fs' h => ⟨h.alikeOff, h.leadsBy hleads, h.distinct, h.distinct'⟩
  · intro a b r a' b' htwins ha hb halong
    have h := htwins.files
    exact h.next halong.toAlikeOff
      (Frame.stands_createDirectories (h.leadsBy hleads) (fun _ _ => id) ha).1
      (Frame.stands_createDirectories (h.leadsBy' hg hleads) (fun _ _ => id) hb).1
      halong.distinct halong.distinct'

end Sound

namespace Sees

theorem determined_writeAtomically (hp : g.Sees p) (hsolid : g.Solid p) :
    Determined g.Alike (writeAtomically p text) := by
  intro a b r s a' b' htwins ha hb
  have h := htwins.files
  have hsees := hp _ _ h
  obtain ⟨target, hplace, hreplaced, -⟩ := writeAtomically_ok ha
  obtain ⟨target', hplace', hreplaced', -⟩ := writeAtomically_ok hb
  rw [Files.place, hsees.locate, ← Files.place, hplace] at hplace'
  obtain rfl := Except.ok.inj hplace'
  rw [h.alikeOff.mode?_eq hsees] at hreplaced'
  obtain ⟨hoff, hoff'⟩ := hsolid.off hp h
  refine ⟨rfl, htwins.of_sameMachine (sameMachine_writeAtomically ha)
    (sameMachine_writeAtomically hb) ?_⟩
  exact h.next (h.alikeOff.replaced hreplaced hreplaced') (Frame.stands_writeAtomically hoff ha).1
    (Frame.stands_writeAtomically hoff' hb).1 (hreplaced.distinct h.distinct)
    (hreplaced'.distinct h.distinct')

/-- Trees from which the same file is removed stay alike. -/
theorem alike_of_removeFile (hp : g.Sees p) (hsolid : g.Solid p) (h : g.Alike fs fs')
    (hremove : fs.removeFile p = .ok after)
    (hremove' : fs'.removeFile p = .ok after') : g.Alike after after' := by
  obtain ⟨hoff, hoff'⟩ := hsolid.off hp h
  have hkeeps := Frame.keeps_removeFile hoff hremove
  have hkeeps' := Frame.keeps_removeFile hoff' hremove'
  obtain ⟨target, hplace, hentry, rfl⟩ := Files.removeFile_ok hremove
  obtain ⟨target', hplace', -, rfl⟩ := Files.removeFile_ok hremove'
  rw [Files.place, (hp _ _ h).locate, ← Files.place, hplace] at hplace'
  obtain rfl := Except.ok.inj hplace'
  have hne : target ≠ [] := by
    rintro rfl
    exact hentry _ Files.get?_nil
  exact h.next (h.alikeOff.erase hne) hkeeps hkeeps' h.distinct.erase h.distinct'.erase

theorem determined_removeFile (hp : g.Sees p) (hsolid : g.Solid p) :
    Determined g.Alike (removeFile p) :=
  .changing fun _ _ _ _ h hremove hremove' => hp.alike_of_removeFile hsolid h hremove hremove'

end Sees

end Ground

end RamlBuild
