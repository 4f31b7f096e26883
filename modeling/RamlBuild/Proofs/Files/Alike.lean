import Mathlib.Data.Char
import Mathlib.Data.List.Lex
import RamlBuild.Proofs.Files.InPlace
import RamlBuild.Proofs.Files.Listing

/-!
# Trees that are alike

Two trees are alike off a part of them when they have the same entries everywhere else. A path whose
trail stays off the part leads to the same place in both, and the same change leaves them alike.

## Main definitions

* `Files.AlikeOff` — the same entries but in a part of the trees
* `Files.SeesOff` — a path leads to the same place in both trees, off the part
* `Files.Same` — the same entries everywhere

## Main results

* `Files.AlikeOff.seesOff` — a trail off the part leads to the same place
* `Files.AlikeOff.stat_eq` — what such a path leads to is the same
* `Files.AlikeOff.put`, `Files.AlikeOff.replaced`, `Files.AlikeOff.eraseTree` — trees that stay alike
* `Files.Same.list_eq` — trees that are the same have the same listings
-/

namespace RamlBuild.Files

variable {inside ways : Location → Prop} {fs fs' after after' : Files} {follow : Bool} {links : Nat}
  {loc l target : Location} {steps : List Step} {trail : Trail} {p : Path} {e : Entry}
  {contents : ByteArray} {mode : Nat}

/-- The same entries but in a part of the trees, and the same working directory. -/
structure AlikeOff (inside : Location → Prop) (fs fs' : Files) : Prop where
  get?_eq : ∀ l, ¬inside l → fs'.get? l = fs.get? l
  workingDirectory : fs'.workingDirectory = fs.workingDirectory

theorem AlikeOff.refl (inside : Location → Prop) (fs : Files) : AlikeOff inside fs fs :=
  ⟨fun _ _ => rfl, rfl⟩

theorem AlikeOff.symm (h : AlikeOff inside fs fs') : AlikeOff inside fs' fs :=
  ⟨fun l hl => (h.get?_eq l hl).symm, h.workingDirectory.symm⟩

/-! ### Where paths lead -/

section Walks

variable {beyond beyond' : Location → List Step → Except IoError Location}
  {trailBeyond : Location → List Step → Option Trail}

theorem walkUpTo_congr (hget : ∀ l, fs'.get? l = fs.get? l)
    (hbeyond : ∀ loc steps, beyond' loc steps = beyond loc steps) :
    fs'.walkUpTo follow beyond' loc steps = fs.walkUpTo follow beyond loc steps := by
  induction steps generalizing loc with
  | nil => rfl
  | cons step rest ih => simp only [walkUpTo, hget, ih, hbeyond]

/-- The entries of a tree tell where a walk ends. -/
theorem walk_congr (hget : ∀ l, fs'.get? l = fs.get? l) :
    fs'.walk follow links loc steps = fs.walk follow links loc steps := by
  induction links generalizing loc steps with
  | zero => exact walkUpTo_congr hget fun _ _ => rfl
  | succ links ih => exact walkUpTo_congr hget fun _ _ => ih

theorem walkUpTo_eq_of_trailUpTo
    (hbeyond : ∀ loc steps trail, trailBeyond loc steps = some trail →
      (∀ v ∈ trail.way, fs'.get? v = fs.get? v) → beyond' loc steps = beyond loc steps)
    (htrail : fs.trailUpTo trailBeyond loc steps = some trail)
    (hget : ∀ v ∈ trail.way, fs'.get? v = fs.get? v) :
    fs'.walkUpTo follow beyond' loc steps = fs.walkUpTo follow beyond loc steps := by
  induction steps generalizing loc trail with
  | nil => rfl
  | cons step rest ih =>
    have hloc := hget loc (start_mem_way htrail)
    cases hentry : fs.get? loc with
    | none => rw [walkUpTo_missing (hloc.trans hentry), walkUpTo_missing hentry]
    | some e =>
      cases e with
      | file => rw [walkUpTo_file (hloc.trans hentry), walkUpTo_file hentry]
      | link => rw [walkUpTo_link (hloc.trans hentry), walkUpTo_link hentry]
      | directory mode =>
        rw [walkUpTo_directory (hloc.trans hentry), walkUpTo_directory hentry]
        congr 1
        cases step with
        | inside => exact ih htrail hget
        | here => exact ih htrail hget
        | up =>
          obtain ⟨trail', htrail', rfl⟩ := Option.map_eq_some_iff.1 htrail
          exact ih htrail' fun v hv => hget v (by simp [hv])
        | name n =>
          simp only [trailUpTo] at htrail
          simp only [walkStep, walkName]
          cases hlink : fs.linkAt (loc ++ [n]) with
          | some target =>
            simp only [hlink] at htrail
            obtain ⟨trail', htrail', rfl⟩ := Option.map_eq_some_iff.1 htrail
            have hnext := linkAt_eq_some_iff.1 hlink
            simp only [hget (loc ++ [n]) (by simp), hnext,
              hbeyond _ _ _ htrail' fun v hv => hget v (by simp [hv])]
          | none =>
            simp only [hlink] at htrail
            obtain ⟨trail', htrail', rfl⟩ := Option.map_eq_some_iff.1 htrail
            have hrest := ih htrail' fun v hv => hget v (by simp [hv])
            simp only [hget (loc ++ [n]) (by simp [start_mem_way htrail']), hrest]
            cases hnext : fs.get? (loc ++ [n]) with
            | none => rfl
            | some e =>
              cases e with
              | file | directory => rfl
              | link target =>
                rw [linkAt_eq_some_iff.2 hnext] at hlink
                contradiction

/-- The entries on its trail tell where a walk ends. -/
theorem walk_eq_of_trail (htrail : fs.trail links loc steps = some trail)
    (hget : ∀ v ∈ trail.way, fs'.get? v = fs.get? v) :
    fs'.walk follow links loc steps = fs.walk follow links loc steps := by
  induction links generalizing loc steps trail with
  | zero => exact walkUpTo_eq_of_trailUpTo (by simp) htrail hget
  | succ links ih => exact walkUpTo_eq_of_trailUpTo (fun _ _ _ => ih) htrail hget

end Walks

/-- A path leads to the same place in both trees, and this is off the part. -/
structure SeesOff (inside : Location → Prop) (fs fs' : Files) (p : Path) : Prop where
  locate : ∀ follow, fs'.locate follow p = fs.locate follow p
  off : ∀ follow l, fs.locate follow p = .ok l → ¬inside l

namespace AlikeOff

theorem start_eq (h : AlikeOff inside fs fs') (p : Path) : fs'.start p = fs.start p := by
  rw [start, h.workingDirectory, start]

theorem linkAt_eq (h : AlikeOff inside fs fs') (hl : ¬inside l) : fs'.linkAt l = fs.linkAt l :=
  linkAt_eq_of_get?_eq (h.get?_eq l hl)

theorem locate_eq_of_walk_eq (h : AlikeOff inside fs fs')
    (hwalk : fs'.walk follow maxLinks (fs.start p) p.steps =
      fs.walk follow maxLinks (fs.start p) p.steps) :
    fs'.locate follow p = fs.locate follow p := by
  cases hpath : requirePath p with
  | error error => simp only [Files.locate, hpath, bind, Except.bind]
  | ok => rw [Files.locate_eq hpath, Files.locate_eq hpath, h.start_eq, hwalk]

/-- A path whose trail stays off the part leads to the same place. -/
theorem seesOff (h : AlikeOff inside fs fs') (hleads : fs.LeadsBy ways p)
    (hways : ∀ v, ways v → ¬inside v) : SeesOff inside fs fs' p := by
  refine ⟨fun follow => ?_, fun follow l hl => hways l (hleads.locate hl)⟩
  obtain ⟨trail, htrail, hway⟩ := hleads
  have hget : ∀ v ∈ trail.way, fs'.get? v = fs.get? v :=
    fun v hv => h.get?_eq v (hways v (hway v hv))
  refine h.locate_eq_of_walk_eq (walk_eq_of_trail ?_ hget)
  rw [Path.steps_eq]
  split
  · rw [trail_inside, htrail]
  · exact htrail

/-- The steps of a path whose trail stays off the part lead to the same place. -/
theorem reach_eq (h : AlikeOff inside fs fs') (hleads : fs.LeadsBy ways p)
    (hways : ∀ v, ways v → ¬inside v) : fs'.reach p = fs.reach p := by
  obtain ⟨trail, htrail, hway⟩ := hleads
  rw [reach, h.start_eq, reach]
  exact walk_eq_of_trail htrail fun v hv => h.get?_eq v (hways v (hway v hv))

/-- When nothing is left out, every path leads to the same place. -/
theorem seesOff_of_none (h : AlikeOff (fun _ => False) fs fs') (p : Path) :
    SeesOff (fun _ => False) fs fs' p :=
  ⟨fun _ => h.locate_eq_of_walk_eq (walk_congr fun l => h.get?_eq l id), fun _ _ _ => id⟩

/-! ### What paths lead to -/

theorem stat_eq (h : AlikeOff inside fs fs') (hp : SeesOff inside fs fs' p) :
    fs'.stat p = fs.stat p := by
  unfold stat resolve
  rw [hp.locate]
  cases hlocate : fs.locate true p with
  | error error => rfl
  | ok l => simp only [bind, Except.bind, entryAt, h.get?_eq l (hp.off true l hlocate)]

theorem isFile_eq (h : AlikeOff inside fs fs') (hp : SeesOff inside fs fs' p) :
    fs'.isFile p = fs.isFile p := by
  rw [isFile, h.stat_eq hp, isFile]

theorem isDirectory_eq (h : AlikeOff inside fs fs') (hp : SeesOff inside fs fs' p) :
    fs'.isDirectory p = fs.isDirectory p := by
  rw [isDirectory, h.stat_eq hp, isDirectory]

theorem holds_eq (h : AlikeOff inside fs fs') (hp : SeesOff inside fs fs' p) :
    fs'.holds p = fs.holds p := by
  rw [holds, h.stat_eq hp, holds]

theorem hasEntry_eq (h : AlikeOff inside fs fs') (hp : SeesOff inside fs fs' p) :
    fs'.hasEntry p = fs.hasEntry p := by
  unfold hasEntry place
  rw [hp.locate]
  cases hlocate : fs.locate false p with
  | error error => rfl
  | ok l => simp only [h.get?_eq l (hp.off false l hlocate)]

theorem readFile_eq (h : AlikeOff inside fs fs') (hp : SeesOff inside fs fs' p) :
    fs'.readFile p = fs.readFile p := by
  rw [readFile, h.stat_eq hp, readFile]

theorem mode?_eq (h : AlikeOff inside fs fs') (hp : SeesOff inside fs fs' p) :
    fs'.mode? p = fs.mode? p := by
  rw [mode?, h.stat_eq hp, mode?]

/-! ### Changes -/

theorem put (h : AlikeOff inside fs fs') (hne : loc ≠ []) :
    AlikeOff inside (fs.put loc e) (fs'.put loc e) := by
  refine ⟨fun l hl => ?_, h.workingDirectory⟩
  rw [get?_put hne, get?_put hne, h.get?_eq l hl]

theorem erase (h : AlikeOff inside fs fs') (hne : loc ≠ []) :
    AlikeOff inside (fs.erase loc) (fs'.erase loc) := by
  refine ⟨fun l hl => ?_, h.workingDirectory⟩
  rw [get?_erase hne, get?_erase hne, h.get?_eq l hl]

theorem eraseTree (h : AlikeOff inside fs fs') (hne : loc ≠ []) :
    AlikeOff inside (fs.eraseTree loc) (fs'.eraseTree loc) := by
  refine ⟨fun l hl => ?_, h.workingDirectory⟩
  rw [get?_eraseTree hne, get?_eraseTree hne, h.get?_eq l hl]

theorem rewriteFile (h : AlikeOff inside fs fs') (hne : loc ≠ []) (hloc : ¬inside loc) :
    AlikeOff inside (fs.rewriteFile loc contents mode) (fs'.rewriteFile loc contents mode) := by
  refine ⟨fun l hl => ?_, by simp [h.workingDirectory]⟩
  rw [get?_rewriteFile hne, get?_rewriteFile hne, h.get?_eq l hl, h.get?_eq loc hloc]

/-- Trees in which the same file is replaced by the same one stay alike. -/
theorem replaced (h : AlikeOff inside fs fs') (hfs : Replaced fs after target contents mode)
    (hfs' : Replaced fs' after' target contents mode) : AlikeOff inside after after' := by
  refine ⟨fun l hl => ?_, ?_⟩
  · by_cases hlt : l = target
    · rw [hlt, hfs.get?_target, hfs'.get?_target]
    · rw [hfs.get?_other l hlt, hfs'.get?_other l hlt, h.get?_eq l hl]
  · rw [hfs.workingDirectory, hfs'.workingDirectory, h.workingDirectory]

/-- Trees that have the entries of trees that are alike. -/
theorem congr (h : AlikeOff inside fs fs') (hget : ∀ l, after.get? l = fs.get? l)
    (hget' : ∀ l, after'.get? l = fs'.get? l)
    (hworking : after.workingDirectory = fs.workingDirectory)
    (hworking' : after'.workingDirectory = fs'.workingDirectory) : AlikeOff inside after after' := by
  refine ⟨fun l hl => ?_, ?_⟩
  · rw [hget, hget', h.get?_eq l hl]
  · rw [hworking, hworking', h.workingDirectory]

end AlikeOff

/-! ### Listings -/

theorem pairwise_insertEntry {x : Location × Entry} {xs : List (Location × Entry)}
    (h : xs.Pairwise fun y z => Location.precedes z.1 y.1 = false) :
    (insertEntry x xs).Pairwise fun y z => Location.precedes z.1 y.1 = false := by
  induction xs with
  | nil => simp [insertEntry]
  | cons y rest ih =>
    obtain ⟨hy, hrest⟩ := List.pairwise_cons.1 h
    rw [insertEntry]
    split
    · rename_i hprecedes
      refine List.pairwise_cons.2 ⟨?_, ih hrest⟩
      intro z hz
      rcases List.mem_cons.1 ((insertEntry_perm x rest).mem_iff.1 hz) with rfl | hz
      · simp only [Location.precedes, decide_eq_true_eq, decide_eq_false_iff_not] at hprecedes ⊢
        exact lt_asymm hprecedes
      · exact hy z hz
    · rename_i hnot
      refine List.pairwise_cons.2 ⟨?_, h⟩
      intro z hz
      rcases List.mem_cons.1 hz with rfl | hz
      · simpa using hnot
      · have hyz := hy z hz
        simp only [Location.precedes, decide_eq_true_eq, decide_eq_false_iff_not,
          not_lt] at hnot hyz ⊢
        exact le_trans hnot hyz

/-- What is below a location is listed in order. -/
theorem pairwise_below_precedes (fs : Files) (loc : Location) :
    (fs.below loc).Pairwise fun x y => Location.precedes y.1 x.1 = false := by
  rw [below]
  generalize (fs.entries.filter _).map _ = xs
  induction xs with
  | nil => exact List.Pairwise.nil
  | cons x rest ih => exact pairwise_insertEntry ih

theorem below_eq_of_get?_eq (hd : fs.Distinct) (hd' : fs'.Distinct)
    (hget : ∀ l, fs'.get? l = fs.get? l) : fs'.below loc = fs.below loc := by
  have hnodup : ∀ {fs : Files}, fs.Distinct → (fs.below loc).Nodup := fun hd =>
    (pairwise_below hd).imp fun h heq => h (congrArg Prod.fst heq)
  have hmem : ∀ x : Location × Entry, x ∈ fs'.below loc ↔ x ∈ fs.below loc := by
    rintro ⟨steps, e⟩
    rw [mem_below_iff, mem_below_iff]
    refine and_congr_right fun hne => ?_
    have hnil : loc ++ steps ≠ [] := by simp [hne]
    rw [← hd.get?_eq_some_iff hnil, ← hd'.get?_eq_some_iff hnil, hget]
  refine ((List.perm_ext_iff_of_nodup (hnodup hd') (hnodup hd)).2 hmem).eq_of_pairwise ?_
    (pairwise_below_precedes fs' loc) (pairwise_below_precedes fs loc)
  -- Of two entries neither precedes the other only when they stand at one location.
  rintro ⟨steps, e⟩ ⟨steps', e'⟩ hx hy hle hle'
  simp only [Location.precedes, decide_eq_false_iff_not, not_lt] at hle hle'
  have hsteps : steps = steps' :=
    List.map_injective_iff.2 (fun _ _ => String.toList_inj.1) (le_antisymm hle hle')
  subst hsteps
  have hx' := (mem_below_iff.1 ((hmem _).1 hx)).2
  have hne : loc ++ steps ≠ [] := by simp [(mem_below_iff.1 hy).1]
  have hfirst := (hd.get?_eq_some_iff hne).2 hx'
  have hsecond := (hd.get?_eq_some_iff hne).2 (mem_below_iff.1 hy).2
  rw [Option.some.inj (hfirst.symm.trans hsecond)]

/-- The same entries everywhere, and no location has two. -/
structure Same (fs fs' : Files) : Prop extends AlikeOff (fun _ => False) fs fs' where
  distinct : fs.Distinct
  distinct' : fs'.Distinct

namespace Same

theorem seesOff (h : Same fs fs') (p : Path) : SeesOff (fun _ => False) fs fs' p :=
  h.seesOff_of_none p

/-- Trees that are the same have the same listings. -/
theorem list_eq (h : Same fs fs') : fs'.list p = fs.list p := by
  have hchildren : ∀ loc, fs'.children loc = fs.children loc := fun loc => by
    rw [children, below_eq_of_get?_eq h.distinct h.distinct' fun l => h.get?_eq l id, children]
  rw [list, h.stat_eq (h.seesOff p), list]
  simp only [hchildren]

theorem put (h : Same fs fs') (hne : loc ≠ []) : Same (fs.put loc e) (fs'.put loc e) :=
  ⟨h.toAlikeOff.put hne, h.distinct.put hne, h.distinct'.put hne⟩

/-- Trees in which the same file is replaced by the same one stay the same. -/
theorem of_replaced (h : Same fs fs') (hfs : Replaced fs after target contents mode)
    (hfs' : Replaced fs' after' target contents mode) : Same after after' :=
  ⟨h.replaced hfs hfs', hfs.distinct h.distinct, hfs'.distinct h.distinct'⟩

end Same

end RamlBuild.Files
