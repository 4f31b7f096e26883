import RamlBuild.Proofs.Build.Machine
import RamlBuild.Proofs.Files.Alike

/-!
# Two runs of one build

Twins are two hosts that differ in some of their files, their clocks, their records and the
operations that fail on them. What a build does is determined by what twins share when it gives the
same result on both, as long as it succeeds on both, and leaves twins.

Whether a directory is there, can be made or has nothing to stand in is told by its path. So making a
directory with those above it does the same on two hosts that are alike along its path.

## Main definitions

* `Twins` — two hosts with files that are alike and the same programs and surroundings
* `Build.Determined` — a build does the same on twins
* `Files.Makes` — what becomes of making a directory
* `Files.AlikeAlong` — trees that are alike off a part that a path does not lead through

## Main results

* `Build.Determined.bind` — one determined step after another
* `Build.Determined.reading`, `Build.Determined.changing` — single operations on files
* `Files.exists_place_of_isDirectory` — a directory has a place, and something stands there
* `Build.determined_createDirectories` — making a directory with those above it is determined
-/

namespace RamlBuild

open Build

variable {alike alike' : Files → Files → Prop} {a b a' b' : Host}

/-- Two hosts have files that are alike and the same programs and surroundings. Neither tells a file
as missing that is there. -/
structure Twins (alike : Files → Files → Prop) (a b : Host) : Prop where
  files : alike a.files b.files
  searchPath : b.searchPath = a.searchPath
  programOf : b.programOf = a.programOf
  network : b.network = a.network
  environment : b.environment = a.environment
  system : b.system = a.system
  honest : ∀ n, a.faults n ≠ some .notFound
  honest' : ∀ n, b.faults n ≠ some .notFound

namespace Twins

/-- Hosts on the machines of twins are twins when their files are alike. -/
theorem of_sameMachine (h : Twins alike a b) (ha : SameMachine a a') (hb : SameMachine b b')
    (hfiles : alike' a'.files b'.files) : Twins alike' a' b' where
  files := hfiles
  searchPath := by rw [ha.searchPath, hb.searchPath, h.searchPath]
  programOf := by rw [ha.programOf, hb.programOf, h.programOf]
  network := by rw [ha.network, hb.network, h.network]
  environment := by rw [ha.environment, hb.environment, h.environment]
  system := by rw [ha.system, hb.system, h.system]
  honest := fun n => by rw [ha.faults]; exact h.honest n
  honest' := fun n => by rw [hb.faults]; exact h.honest' n

theorem imp (h : Twins alike a b) (hfiles : alike' a.files b.files) : Twins alike' a b :=
  h.of_sameMachine (chains_sameMachine.refl a) (chains_sameMachine.refl b) hfiles

theorem counted (h : Twins alike a b) : Twins alike (counted a) (counted b) :=
  h.of_sameMachine (sameMachine_counted a) (sameMachine_counted b) h.files

end Twins

namespace Build

variable {α β : Type} {x : Build α} {f : α → Build β}

theorem exec_cleaningUp_ok {cleanup : Files → Files} {r : α}
    (h : exec (cleaningUp cleanup x) a = (.ok r, a')) : exec x a = (.ok r, a') := by
  rw [exec_cleaningUp] at h
  rcases hx : exec x a with ⟨result, host⟩
  rw [hx] at h
  cases result with
  | ok => exact h
  | error => exact absurd (Prod.mk.inj h).1 (by simp)

/-- A build does the same on twins: when it succeeds on both, it gives the same and leaves twins. -/
def Determined (alike : Files → Files → Prop) (x : Build α) : Prop :=
  ∀ ⦃a b : Host⦄ ⦃r s : α⦄ ⦃a' b' : Host⦄, Twins alike a b →
    exec x a = (.ok r, a') → exec x b = (.ok s, b') → r = s ∧ Twins alike a' b'

namespace Determined

theorem pure (r : α) : Determined alike (pure r : Build α) := by
  intro a b r' s a' b' htwins ha hb
  obtain ⟨hr, rfl⟩ := Prod.mk.inj ha
  obtain ⟨hs, rfl⟩ := Prod.mk.inj hb
  exact ⟨(Except.ok.inj hr).symm.trans (Except.ok.inj hs), htwins⟩

/-- What never succeeds is determined. -/
theorem throw (failure : Failure) : Determined alike (throw failure : Build α) := by
  intro a b r s a' b' _ ha
  exact absurd (Prod.mk.inj ha).1 (by simp)

theorem fail (cause : Cause) : Determined alike (fail cause : Build α) :=
  throw _

/-- One determined step after another. -/
theorem bind (hx : Determined alike x) (hf : ∀ r, Determined alike (f r)) :
    Determined alike (x >>= f) := by
  intro a b r s a' b' htwins ha hb
  obtain ⟨r₁, a₁, hxa, ha⟩ := exec_bind_ok ha
  obtain ⟨s₁, b₁, hxb, hb⟩ := exec_bind_ok hb
  obtain ⟨rfl, htwins₁⟩ := hx htwins hxa hxb
  exact hf r₁ htwins₁ ha hb

theorem within {activity : String} (hx : Determined alike x) :
    Determined alike (within activity x) :=
  fun _ _ _ _ _ _ htwins ha hb => hx htwins (exec_within_ok ha) (exec_within_ok hb)

theorem asking {question : Files → α} (h : ∀ fs fs', alike fs fs' → question fs' = question fs) :
    Determined alike (asking question) := by
  intro a b r s a' b' htwins ha hb
  obtain ⟨hr, rfl⟩ := Prod.mk.inj ha
  obtain ⟨hs, rfl⟩ := Prod.mk.inj hb
  obtain rfl := Except.ok.inj hr
  obtain rfl := Except.ok.inj hs
  exact ⟨(h _ _ htwins.files).symm, htwins⟩

theorem reading {attempt : String} {op : Files → Except IoError α}
    (h : ∀ fs fs', alike fs fs' → op fs' = op fs) : Determined alike (reading attempt op) := by
  intro a b r s a' b' htwins ha hb
  obtain ⟨rfl, hr⟩ := reading_result ha
  obtain ⟨rfl, hs⟩ := reading_result hb
  have heq := h _ _ htwins.files
  rw [hr r rfl, hs s rfl] at heq
  exact ⟨(Except.ok.inj heq).symm, htwins.counted⟩

theorem changing {attempt : String} {op : Files → Except IoError Files}
    (h : ∀ fs fs' after after', alike fs fs' → op fs = .ok after → op fs' = .ok after' →
      alike after after') : Determined alike (changing attempt op) := by
  intro a b r s a' b' htwins ha hb
  obtain ⟨hopa, -⟩ := changing_ok_eq ha
  obtain ⟨hopb, -⟩ := changing_ok_eq hb
  exact ⟨rfl, htwins.of_sameMachine (sameMachine_changing ha) (sameMachine_changing hb)
    (h _ _ _ _ htwins.files hopa hopb)⟩

/-- What is done when a build fails does not count when it succeeds. -/
theorem cleaningUp {cleanup : Files → Files} (hx : Determined alike x) :
    Determined alike (cleaningUp cleanup x) :=
  fun _ _ _ _ _ _ htwins ha hb => hx htwins (exec_cleaningUp_ok ha) (exec_cleaningUp_ok hb)

/-- A step that is determined by less leaves more alike, when each of the runs keeps the rest. -/
theorem strengthen (hx : Determined alike' x) (himp : ∀ fs fs', alike fs fs' → alike' fs fs')
    (hkeep : ∀ ⦃a b r a' b'⦄, Twins alike a b → exec x a = (.ok r, a') → exec x b = (.ok r, b') →
      alike' a'.files b'.files → alike a'.files b'.files) : Determined alike x := by
  intro a b r s a' b' htwins ha hb
  obtain ⟨rfl, htwins'⟩ := hx (htwins.imp (himp _ _ htwins.files)) ha hb
  exact ⟨rfl, htwins'.imp (hkeep htwins ha hb htwins'.files)⟩

end Determined

end Build

end RamlBuild

/-! ## Making directories on twins -/

namespace RamlBuild

namespace Path

/-- Without the slashes at its end a path takes the same steps from the same place. -/
theorem walked_dropSlashes (p : Path) :
    p.dropSlashes.walked = p.walked ∧ p.dropSlashes.isAbsolute = p.isAbsolute := by
  have hpieces := piecesOf_dropAtEnd p.text.toList
  unfold dropSlashes
  cases hdrop : Text.dropAtEnd '/' p.text.toList with
  | nil =>
    simp only
    split
    · rename_i habsolute
      rw [hdrop] at hpieces
      exact ⟨congrArg (List.map stepOf) hpieces, habsolute.symm⟩
    · exact ⟨rfl, rfl⟩
  | cons c rest =>
    refine ⟨?_, ?_⟩
    · rw [hdrop] at hpieces
      rw [walked, walked, String.toList_ofList]
      exact congrArg (List.map stepOf) hpieces
    · obtain ⟨more, hmore⟩ := dropAtEnd_prefix p.text.toList
      rw [hdrop] at hmore
      rw [isAbsolute, isAbsolute, String.toList_ofList, ← hmore]
      rfl

/-- The slashes at its end are the end of the text of a path. -/
theorem exists_text_dropSlashes (p : Path) : ∃ after, p.text = p.dropSlashes.text ++ after := by
  unfold dropSlashes
  cases hdrop : Text.dropAtEnd '/' p.text.toList with
  | nil =>
    simp only
    split
    · rename_i habsolute
      cases htext : p.text.toList with
      | nil => simp [isAbsolute, htext] at habsolute
      | cons c rest =>
        obtain rfl : c = '/' := by simpa [isAbsolute, htext] using habsolute
        exact ⟨String.ofList rest, by rw [← String.toList_inj, htext]; simp⟩
    · exact ⟨"", by simp⟩
  | cons c rest =>
    obtain ⟨more, hmore⟩ := dropAtEnd_prefix p.text.toList
    rw [hdrop] at hmore
    exact ⟨String.ofList more, by rw [← String.toList_inj, ← hmore]; simp⟩

theorem text_dropSlashes_ne_empty {p : Path} (h : p.text ≠ "") : p.dropSlashes.text ≠ "" := by
  unfold dropSlashes
  split
  · split
    · decide
    · exact h
  · rename_i hne
    intro heq
    rw [← String.toList_inj, String.toList_ofList] at heq
    exact hne heq

end Path

namespace Files

variable {fs fs' after after' : Files} {links : Nat} {loc l : Location} {steps : List Step}
  {p q : Path} {inside ways : Location → Prop}
  {beyond beyond' : Location → List Step → Except IoError Location}

theorem exists_walkUpTo_of_walkUpTo
    (hbeyond : ∀ loc steps, beyond loc steps = .ok l →
      ∃ l', beyond' loc steps = .ok l' ∧ (l' = l ∨ (fs.linkAt l').isSome = true))
    (hwalk : fs.walkUpTo true beyond loc steps = .ok l) :
    ∃ l', fs.walkUpTo false beyond' loc steps = .ok l' ∧
      (l' = l ∨ (fs.linkAt l').isSome = true) := by
  induction steps generalizing loc with
  | nil => exact ⟨loc, rfl, .inl (Except.ok.inj hwalk)⟩
  | cons step rest ih =>
    obtain ⟨mode, hget, henter⟩ := exists_directory_of_walkUpTo hwalk
    rw [walkUpTo_of_entered hget henter] at hwalk ⊢
    cases step with
    | inside => exact ih hwalk
    | here => exact ih hwalk
    | up => exact ih hwalk
    | name n =>
      simp only [walkStep] at hwalk ⊢
      split at hwalk
      · contradiction
      · rename_i hlong
        rw [if_neg hlong]
        unfold walkName at hwalk ⊢
        cases hentry : fs.get? (loc ++ [n]) with
        | none =>
          simp only [hentry] at hwalk
          split at hwalk
          · rename_i hlast
            simp only [hlast, if_true]
            exact ⟨_, rfl, .inl (Except.ok.inj hwalk)⟩
          · contradiction
        | some e =>
          simp only [hentry] at hwalk
          cases e with
          | file | directory => exact ih hwalk
          | link target =>
            simp only [Bool.not_true, Bool.and_false, Bool.false_eq_true, if_false,
              Bool.not_false, Bool.and_true] at hwalk ⊢
            split
            · -- A link at the end is where the walk stays when it does not follow.
              exact ⟨_, rfl, .inr (by rw [linkAt_eq_some_iff.2 hentry]; rfl)⟩
            · exact hbeyond _ _ hwalk

/-- A walk that does not follow a link at its end comes to the same place or to that link. -/
theorem exists_walk_of_walk (hwalk : fs.walk true links loc steps = .ok l) :
    ∃ l', fs.walk false links loc steps = .ok l' ∧ (l' = l ∨ (fs.linkAt l').isSome = true) := by
  induction links generalizing loc steps with
  | zero => exact exists_walkUpTo_of_walkUpTo (by simp) hwalk
  | succ links ih => exact exists_walkUpTo_of_walkUpTo (fun _ _ => ih) hwalk

/-- A directory has a place, and something stands there. -/
theorem exists_place_of_isDirectory (h : fs.isDirectory p = true) :
    ∃ l e, fs.place p.dropSlashes = .ok l ∧ fs.get? l = some e := by
  obtain ⟨d, mode, hreach, hdir⟩ := Build.reachesDirectory_of_isDirectory h
  have hpath : requirePath p = .ok () := by
    unfold isDirectory stat at h
    cases hresolve : fs.resolve p with
    | error error =>
      rw [hresolve] at h
      contradiction
    | ok l => exact requirePath_of_locate hresolve
  have hne := Path.text_dropSlashes_ne_empty (text_ne_empty_of_requirePath hpath)
  obtain ⟨after, hafter⟩ := Path.exists_text_dropSlashes p
  have htext : p.text = "" ++ p.dropSlashes.text ++ after := by simpa using hafter
  have hpath' : requirePath p.dropSlashes = .ok () := requirePath_of_append htext hne hpath
  rw [place, locate_eq hpath']
  rcases Path.steps_dropSlashes p with ⟨hsteps, habsolute⟩ | hroot | hempty
  · obtain ⟨l, hl, hentry⟩ := exists_walk_of_walk hreach
    have hsome : ∃ e, fs.get? l = some e := by
      rcases hentry with rfl | hlink
      · exact ⟨_, hdir⟩
      · obtain ⟨target, htarget⟩ := Option.isSome_iff_exists.1 hlink
        exact ⟨_, linkAt_eq_some_iff.1 htarget⟩
    obtain ⟨e, he⟩ := hsome
    refine ⟨l, e, ?_, he⟩
    rw [hsteps, start, habsolute, ← start]
    exact hl
  · rw [hroot]
    exact ⟨[], _, walkUpTo_of_entered get?_nil rfl, get?_nil⟩
  · exact absurd hempty hne

theorem createDirectory_notFound (h : fs.createDirectory p = .error .notFound) :
    fs.place p.dropSlashes = .error .notFound := by
  unfold createDirectory freePlace at h
  cases hplace : fs.place p.dropSlashes with
  | error error =>
    simp only [hplace, bind, Except.bind, Except.error.injEq] at h
    rw [h]
  | ok l =>
    simp only [hplace, bind, Except.bind] at h
    cases hget : fs.get? l with
    | some e => simp [hget] at h
    | none =>
      simp only [hget] at h
      split at h
      · rename_i heq
        split at heq <;> cases heq
        cases h
      · cases h

/-- What becomes of making a directory: it is made, it is there already, or it has nothing to stand
in. -/
inductive Makes (fs : Files) (p : Path) : Bool → Files → Prop
  | new {fs' : Files} (h : fs.createDirectory p = .ok fs') : Makes fs p true fs'
  | there (h : fs.isDirectory p = true) : Makes fs p true fs
  | missing (h : fs.createDirectory p = .error .notFound) : Makes fs p false fs

/-- The same becomes of making a directory where its path leads to the same. -/
theorem Makes.determined {r s : Bool} (h : Makes fs p r after) (h' : Makes fs' p s after')
    (hplace : fs'.place p.dropSlashes = fs.place p.dropSlashes)
    (hdirectory : fs'.isDirectory p = fs.isDirectory p) :
    r = s ∧ (after = fs ∧ after' = fs' ∨ ∃ l, fs.get? l = none ∧
      after = fs.put l (.directory directoryMode) ∧
      after' = fs'.put l (.directory directoryMode)) := by
  have hfree : ∀ {fs fs' : Files}, fs.createDirectory p = .ok fs' → fs.isDirectory p ≠ true := by
    intro fs fs' hnew hthere
    obtain ⟨l, hl, hnone, -⟩ := createDirectory_ok hnew
    obtain ⟨l', e, hl', he⟩ := exists_place_of_isDirectory hthere
    obtain rfl := Except.ok.inj (hl.symm.trans hl')
    rw [hnone] at he
    cases he
  cases h with
  | new hnew =>
    obtain ⟨l, hl, hnone, rfl⟩ := createDirectory_ok hnew
    cases h' with
    | new hnew' =>
      obtain ⟨l', hl', -, rfl⟩ := createDirectory_ok hnew'
      obtain rfl := Except.ok.inj (hl.symm.trans (hplace.symm.trans hl'))
      exact ⟨rfl, .inr ⟨l, hnone, rfl, rfl⟩⟩
    | there hthere' => exact absurd (hdirectory.symm.trans hthere') (hfree hnew)
    | missing hmissing' =>
      rw [createDirectory_notFound hmissing', hl] at hplace
      cases hplace
  | there hthere =>
    cases h' with
    | new hnew' => exact absurd (hdirectory.trans hthere) (hfree hnew')
    | there => exact ⟨rfl, .inl ⟨rfl, rfl⟩⟩
    | missing hmissing' =>
      obtain ⟨l, e, hl, -⟩ := exists_place_of_isDirectory hthere
      rw [createDirectory_notFound hmissing', hl] at hplace
      cases hplace
  | missing hmissing =>
    cases h' with
    | new hnew' =>
      obtain ⟨l, hl, -⟩ := createDirectory_ok hnew'
      rw [createDirectory_notFound hmissing, hl] at hplace
      cases hplace
    | there hthere' =>
      obtain ⟨l, e, hl, -⟩ := exists_place_of_isDirectory hthere'
      rw [createDirectory_notFound hmissing, hl] at hplace
      cases hplace
    | missing => exact ⟨rfl, .inl ⟨rfl, rfl⟩⟩

/-- Two trees, each with one entry at a location, are alike off a part that a path does not lead
through. -/
structure AlikeAlong (inside ways : Location → Prop) (p : Path) (fs fs' : Files) : Prop
    extends AlikeOff inside fs fs' where
  leads : fs.LeadsBy ways p
  distinct : fs.Distinct
  distinct' : fs'.Distinct

theorem LeadsBy.dropSlashes (h : fs.LeadsBy ways p) : fs.LeadsBy ways p.dropSlashes := by
  obtain ⟨hwalked, habsolute⟩ := Path.walked_dropSlashes p
  exact h.of_prefix (hwalked ▸ List.prefix_refl _) habsolute

end Files

namespace Build

variable {p q : Path} {activity : String} {host host' : Host} {made : Bool}
  {inside ways : Location → Prop}

/-- Making a directory comes to one of three things, where no host tells a directory as missing that
is there. -/
theorem makes_of_makeDirectory (honest : ∀ n, host.faults n ≠ some .notFound)
    (h : exec (makeDirectory activity p) host = (.ok made, host')) :
    host.files.Makes p made host'.files := by
  rw [makeDirectory] at h
  obtain ⟨result, host₁, hattempt, h⟩ := exec_bind_ok h
  rw [exec_attempt] at hattempt
  obtain ⟨hresult, rfl⟩ := Prod.mk.inj hattempt
  have hchanging := exec_eq_of_fst (Except.ok.inj hresult)
  cases result with
  | ok =>
    obtain ⟨hmade, rfl⟩ := Prod.mk.inj h
    obtain rfl := Except.ok.inj hmade
    exact .new (changing_ok hchanging).1
  | error failure =>
    have hfiles := (changing_error hchanging).1
    simp only at h
    split at h
    · rename_i hcause
      obtain ⟨hmade, rfl⟩ := Prod.mk.inj h
      obtain rfl := Except.ok.inj hmade
      rw [hfiles]
      rcases changing_error_io hchanging hcause with hfault | hop
      · exact absurd hfault (honest _)
      · exact .missing hop
    · rw [isDirectory, exec_asking_bind, hfiles] at h
      split at h
      · rename_i hthere
        obtain ⟨hmade, rfl⟩ := Prod.mk.inj h
        obtain rfl := Except.ok.inj hmade
        rw [hfiles]
        exact .there hthere
      · exact absurd (Prod.mk.inj h).1 (by simp)

theorem determined_makeDirectory (hways : ∀ v, ways v → ¬inside v) (hq : q ∈ p.ancestors) :
    Determined (Files.AlikeAlong inside ways p) (makeDirectory activity q) := by
  intro a b r s a' b' htwins ha hb
  have hfiles := htwins.files
  have hleads : a.files.LeadsBy ways q := hfiles.leads.ancestor hq
  have hplace := (hfiles.seesOff hleads.dropSlashes hways).locate false
  have hdirectory := hfiles.isDirectory_eq (hfiles.seesOff hleads hways)
  have hmachine : Always SameMachine (makeDirectory activity q) :=
    always_makeDirectory chains_sameMachine sameMachine_changing
  obtain ⟨rfl, ⟨hsame, hsame'⟩ | ⟨l, hfree, hput, hput'⟩⟩ :=
    (makes_of_makeDirectory htwins.honest ha).determined
      (makes_of_makeDirectory htwins.honest' hb) hplace hdirectory
  · refine ⟨rfl, htwins.of_sameMachine (hmachine ha) (hmachine hb) ?_⟩
    rw [hsame, hsame']
    exact hfiles
  · refine ⟨rfl, htwins.of_sameMachine (hmachine ha) (hmachine hb) ?_⟩
    have hne := Files.ne_nil_of_get?_eq_none hfree
    rw [hput, hput']
    refine ⟨hfiles.put hne, hfiles.leads.congr rfl fun v _ => ?_, hfiles.distinct.put hne,
      hfiles.distinct'.put hne⟩
    -- Where the directory comes there was no link.
    by_cases hv : v = l
    · rw [hv, Files.linkAt, Files.linkAt, Files.get?_put_self hne, hfree]
    · rw [Files.linkAt, Files.linkAt, Files.get?_put_of_ne hv]

theorem determined_makeDirectories {paths : List Path} (hways : ∀ v, ways v → ¬inside v)
    (hpaths : ∀ q ∈ paths, q ∈ p.ancestors) :
    Determined (Files.AlikeAlong inside ways p) (makeDirectories activity paths) := by
  induction paths with
  | nil => exact .fail _
  | cons q above ih =>
    have hmake : Determined (Files.AlikeAlong inside ways p) (makeDirectory activity q) :=
      determined_makeDirectory hways (hpaths q List.mem_cons_self)
    unfold makeDirectories
    split
    · exact .pure _
    · refine .bind hmake fun made => ?_
      split
      · exact .pure _
      · refine .bind (ih fun q hq => hpaths q (List.mem_cons_of_mem _ hq)) fun _ =>
          .bind hmake fun made' => ?_
        split
        · exact .pure _
        · exact .fail _

/-- Making a directory with those above it is determined by what is along its path. -/
theorem determined_createDirectories (hways : ∀ v, ways v → ¬inside v) :
    Determined (Files.AlikeAlong inside ways p) (createDirectories p) :=
  determined_makeDirectories hways fun _ hq => hq

end Build

end RamlBuild
