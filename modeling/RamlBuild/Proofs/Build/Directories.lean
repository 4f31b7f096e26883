import RamlBuild.Proofs.Files.Ways

/-!
# Making directories

Making a directory with the directories above it puts directories where nothing was and leaves
everything else alone, whether it succeeds or fails half way. When it succeeds the directory is
there.

## Main definitions

* `Files.MakesDirectories` — directories came where nothing was, and nothing else happened

## Main results

* `Build.createDirectories_makes` — making directories does only that
* `Build.createDirectories_makesWay` — and on the way of the path only
* `Build.createDirectories_reach` — the directory is there afterwards
-/

namespace RamlBuild

namespace Files

variable {fs fs' fs'' : Files} {l loc : Location} {p : Path}

/-- Directories came where nothing was, and nothing else happened. -/
structure MakesDirectories (fs fs' : Files) : Prop where
  get? : ∀ l, fs'.get? l = fs.get? l ∨
    fs.get? l = none ∧ ∃ mode, fs'.get? l = some (.directory mode)
  workingDirectory : fs'.workingDirectory = fs.workingDirectory
  isTree : fs.IsTree → fs'.IsTree

namespace MakesDirectories

theorem refl (fs : Files) : MakesDirectories fs fs :=
  ⟨fun _ => .inl rfl, rfl, fun h => h⟩

theorem trans (h : MakesDirectories fs fs') (h' : MakesDirectories fs' fs'') :
    MakesDirectories fs fs'' := by
  refine ⟨?_, h'.workingDirectory.trans h.workingDirectory, fun htree => h'.isTree (h.isTree htree)⟩
  intro l
  rcases h.get? l with hl | ⟨hnone, mode, hl⟩
  · rcases h'.get? l with hl' | ⟨hnone', mode', hl'⟩
    · exact .inl (hl'.trans hl)
    · exact .inr ⟨hl.symm.trans hnone', mode', hl'⟩
  · rcases h'.get? l with hl' | ⟨hnone', -⟩
    · exact .inr ⟨hnone, mode, hl'.trans hl⟩
    · rw [hl] at hnone'
      contradiction

/-- What is no directory is where it was. -/
theorem get?_eq_some_iff (h : MakesDirectories fs fs') {e : Entry} (he : e.isDirectory = false) :
    fs'.get? l = some e ↔ fs.get? l = some e := by
  rcases h.get? l with heq | ⟨hnone, mode, hdir⟩
  · rw [heq]
  · rw [hnone, hdir]
    constructor
    · intro hsome
      rw [← Option.some.inj hsome] at he
      contradiction
    · intro hsome
      contradiction

/-- Where a directory comes there was no link. -/
theorem linkAt (h : MakesDirectories fs fs') (v : Location) : fs'.linkAt v = fs.linkAt v := by
  rcases h.get? v with heq | ⟨hnone, mode, hmode⟩
  · rw [Files.linkAt, heq, Files.linkAt]
  · rw [Files.linkAt, hmode, Files.linkAt, hnone]

/-- Where a directory comes there was no file. -/
theorem contentsAt (h : MakesDirectories fs fs') (l : Location) :
    fs'.contentsAt l = fs.contentsAt l := by
  rcases h.get? l with heq | ⟨hnone, mode, hmode⟩
  · rw [Files.contentsAt, heq, Files.contentsAt]
  · rw [Files.contentsAt, hmode, Files.contentsAt, hnone]

/-- What is there stays. -/
theorem passage (h : MakesDirectories fs fs') {e : Entry} (he : fs.passage l = some e) :
    fs'.passage l = some e := by
  rcases h.get? l with heq | ⟨hnone, -⟩
  · rwa [Files.passage, heq, ← Files.passage]
  · rw [Files.passage_of_none hnone] at he
    contradiction

end MakesDirectories

theorem createDirectory_ok (h : fs.createDirectory p = .ok fs') :
    ∃ l, fs.place p.dropSlashes = .ok l ∧ fs.get? l = none ∧
      fs' = fs.put l (.directory directoryMode) := by
  unfold createDirectory at h
  cases hfree : fs.freePlace p.dropSlashes with
  | error error =>
    rw [hfree] at h
    cases h
  | ok l =>
    rw [hfree] at h
    obtain ⟨hplace, hnone⟩ := Build.freePlace_ok hfree
    exact ⟨l, hplace, hnone, (Except.ok.inj h).symm⟩

/-- A directory that is made where nothing was. -/
theorem makesDirectories_put {mode : Nat} {follow : Bool} (hfree : fs.get? l = none)
    (hlocate : fs.locate follow p = .ok l) : MakesDirectories fs (fs.put l (.directory mode)) := by
  have hne := ne_nil_of_get?_eq_none hfree
  refine ⟨?_, rfl, ?_⟩
  · intro l'
    rw [get?_put hne]
    split
    · rename_i heq
      exact .inr ⟨heq ▸ hfree, mode, rfl⟩
    · exact .inl rfl
  · intro htree
    obtain ⟨dir, name, dirMode, rfl, hdir⟩ := locate_directory_of_free htree hlocate hfree
    exact htree.put hdir (by simp [hfree])

end Files

namespace Build

variable {host host' : Host} {p : Path} {activity : String}

/-- Only directories were made, and the schedule of faults stayed. -/
def OnlyMakesDirectories (host host' : Host) : Prop :=
  Files.MakesDirectories host.files host'.files ∧ host'.faults = host.faults

theorem chains_onlyMakesDirectories : Chains OnlyMakesDirectories where
  refl := fun host => ⟨Files.MakesDirectories.refl host.files, rfl⟩
  trans := fun h h' => ⟨h.1.trans h'.1, h'.2.trans h.2⟩

theorem createDirectory_makes :
    Always OnlyMakesDirectories (changing activity (·.createDirectory p)) := by
  intro host result host' h
  cases result with
  | ok =>
    obtain ⟨hop, hfaults⟩ := changing_ok h
    obtain ⟨l, hplace, hfree, hput⟩ := Files.createDirectory_ok hop
    exact ⟨hput ▸ Files.makesDirectories_put hfree hplace, hfaults⟩
  | error failure =>
    obtain ⟨hfiles, hfaults⟩ := changing_error h
    exact ⟨hfiles ▸ Files.MakesDirectories.refl _, hfaults⟩

variable {related : Host → Host → Prop}

/-- What making a directory keeps is kept when a missing parent or a directory that is there already
is passed over. -/
theorem always_makeDirectory (hchains : Chains related)
    (h : Always related (changing activity (·.createDirectory p))) :
    Always related (makeDirectory activity p) := by
  refine Always.bind hchains h.attempt ?_
  intro result
  cases result with
  | ok => exact Always.pure hchains true
  | error failure =>
    simp only
    split
    · exact Always.pure hchains false
    · refine Always.bind hchains (Always.asking hchains _) ?_
      intro there
      cases there
      · exact Always.throw hchains failure
      · exact Always.pure hchains true

/-- What making each of the directories keeps is kept by making them one after the other. -/
theorem always_makeDirectories (hchains : Chains related) {paths : List Path}
    (h : ∀ p ∈ paths, Always related (changing activity (·.createDirectory p))) :
    Always related (makeDirectories activity paths) := by
  induction paths with
  | nil => exact Always.throw hchains _
  | cons p above ih =>
    have hmake := always_makeDirectory hchains (h p List.mem_cons_self)
    unfold makeDirectories
    split
    · exact Always.pure hchains ()
    · refine Always.bind hchains hmake ?_
      intro there
      split
      · exact Always.pure hchains ()
      · refine Always.bind hchains (ih fun p hp => h p (List.mem_cons_of_mem _ hp)) fun _ =>
          Always.bind hchains hmake ?_
        intro there'
        split
        · exact Always.pure hchains ()
        · exact Always.throw hchains _

/-- Making a directory with those above it does nothing else. -/
theorem createDirectories_makes : Always OnlyMakesDirectories (createDirectories p) :=
  always_makeDirectories chains_onlyMakesDirectories fun _ _ => createDirectory_makes

/-- Directories were made on the way of a path only. -/
def MakesWay (p : Path) (host host' : Host) : Prop :=
  OnlyMakesDirectories host host' ∧ ∀ ways : Location → Prop, host.files.LeadsBy ways p →
    ∀ l, ¬ways l → host'.files.get? l = host.files.get? l

theorem chains_makesWay : Chains (MakesWay p) where
  refl := fun host => ⟨chains_onlyMakesDirectories.refl host, fun _ _ _ _ => rfl⟩
  trans := by
    intro first second third h h'
    refine ⟨chains_onlyMakesDirectories.trans h.1 h'.1, ?_⟩
    intro ways hleads l hl
    have hleads' : second.files.LeadsBy ways p :=
      hleads.congr h.1.1.workingDirectory fun v _ => h.1.1.linkAt v
    exact (h'.2 ways hleads' l hl).trans (h.2 ways hleads l hl)

theorem createDirectory_makesWay {q : Path} (hq : q ∈ p.ancestors) :
    Always (MakesWay p) (changing activity (·.createDirectory q)) := by
  intro host result host' h
  refine ⟨createDirectory_makes h, ?_⟩
  intro ways hleads l hl
  cases result with
  | ok =>
    obtain ⟨hop, -⟩ := changing_ok h
    obtain ⟨loc, hplace, hfree, hput⟩ := Files.createDirectory_ok hop
    rw [hput, Files.get?_put_of_ne]
    rintro rfl
    exact hl ((hleads.ancestor hq).free hplace hfree)
  | error failure =>
    rw [(changing_error h).1]

/-- Making a directory with those above it changes nothing off its way. -/
theorem createDirectories_makesWay : Always (MakesWay p) (createDirectories p) :=
  always_makeDirectories chains_makesWay fun _ => createDirectory_makesWay

/-- The steps of a path lead to a directory. -/
def ReachesDirectory (fs : Files) (p : Path) : Prop :=
  ∃ l mode, fs.reach p = .ok l ∧ fs.get? l = some (.directory mode)

theorem reachesDirectory_of_isDirectory {fs : Files} (h : fs.isDirectory p = true) :
    ReachesDirectory fs p := by
  unfold Files.isDirectory Files.stat at h
  cases hresolve : fs.resolve p with
  | error error =>
    rw [hresolve] at h
    contradiction
  | ok l =>
    simp only [hresolve, bind, Except.bind, Files.entryAt] at h
    cases hget : fs.get? l with
    | none =>
      simp only [hget] at h
      contradiction
    | some e =>
      cases e with
      | directory mode => exact ⟨l, mode, Files.reach_of_resolve hresolve, hget⟩
      | file | link =>
        simp only [hget] at h
        contradiction

/-- A directory that was made, or was there, can be reached. -/
theorem makeDirectory_reach (h : exec (makeDirectory activity p) host = (.ok true, host')) :
    ReachesDirectory host'.files p := by
  rw [makeDirectory] at h
  obtain ⟨result, host₁, hattempt, h⟩ := exec_bind_ok h
  rw [exec_attempt] at hattempt
  obtain ⟨hresult, rfl⟩ := Prod.mk.inj hattempt
  cases result with
  | ok =>
    rw [exec_pure] at h
    obtain ⟨-, rfl⟩ := Prod.mk.inj h
    obtain ⟨hop, -⟩ := changing_ok (Prod.ext (Except.ok.inj hresult) rfl)
    obtain ⟨l, hplace, hfree, hput⟩ := Files.createDirectory_ok hop
    rw [hput]
    exact ⟨l, _, Files.reach_put_of_free hplace hfree,
      Files.get?_put_self (Files.ne_nil_of_get?_eq_none hfree)⟩
  | error failure =>
    simp only at h
    split at h
    · rw [exec_pure] at h
      exact absurd (Prod.mk.inj h).1 (by simp)
    · rw [isDirectory, exec_asking_bind] at h
      split at h
      · rename_i hthere
        rw [exec_pure] at h
        obtain ⟨-, rfl⟩ := Prod.mk.inj h
        exact reachesDirectory_of_isDirectory hthere
      · rw [exec_throw] at h
        exact absurd (Prod.mk.inj h).1 (by simp)

theorem makeDirectories_reach {above : List Path} (hp : p.text ≠ "")
    (h : exec (makeDirectories activity (p :: above)) host = (.ok (), host')) :
    ReachesDirectory host'.files p := by
  rw [makeDirectories, if_neg (by simpa using hp)] at h
  obtain ⟨there, host₁, hmake, h⟩ := exec_bind_ok h
  split at h
  · rename_i hthere
    rw [exec_pure] at h
    obtain ⟨-, rfl⟩ := Prod.mk.inj h
    exact makeDirectory_reach (hthere ▸ hmake)
  · obtain ⟨⟨⟩, host₂, -, h⟩ := exec_bind_ok h
    obtain ⟨there', host₃, hmake', h⟩ := exec_bind_ok h
    split at h
    · rename_i hthere
      rw [exec_pure] at h
      obtain ⟨-, rfl⟩ := Prod.mk.inj h
      exact makeDirectory_reach (hthere ▸ hmake')
    · rw [exec_fail] at h
      exact absurd (Prod.mk.inj h).1 (by simp)

/-- A directory that was made with those above it can be reached. -/
theorem createDirectories_reach (hp : p.text ≠ "")
    (h : exec (createDirectories p) host = (.ok (), host')) : ReachesDirectory host'.files p := by
  have hfirst : ∃ above, p.ancestors = p :: above := by
    unfold Path.ancestors
    cases p.components.length with
    | zero => exact ⟨[], rfl⟩
    | succ n =>
      unfold Path.ancestorsUpTo
      split
      · exact ⟨_, rfl⟩
      · exact ⟨[], rfl⟩
  obtain ⟨above, habove⟩ := hfirst
  rw [createDirectories, habove] at h
  exact makeDirectories_reach hp h

end Build

end RamlBuild
