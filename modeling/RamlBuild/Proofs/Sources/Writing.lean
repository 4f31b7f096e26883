import RamlBuild.Proofs.Sources.Generated
import RamlBuild.Proofs.Sources.Reading

/-!
# Writing sources

A step of a patch works on one source: it replaces it as a whole, or leaves it, or fails and leaves
it. Step after step, the sources that were written have their new texts and everything else is as it
was, also when a step fails.

## Main definitions

* `Stepped` — what a step does to a source
* `Wrote` — sources that were written, between two trees

## Main results

* `stepped_rewrite`, `stepped_writeCompanion` — the steps that write
* `exec_changedFiles` — one step after the other
-/

namespace RamlBuild

open Build

variable {layout : Layout} {root : Location} {host host' : Host} {s : Source} {text : String}

/-- The permission bits of what is written at a location. -/
def Files.modeFor (fs : Files) (loc : Location) : Nat :=
  ((fs.get? loc).bind Entry.mode?).getD temporaryMode

/-- What a step does to a source. `output` says which texts it may write. -/
inductive Stepped (layout : Layout) (root : Location) (output : String → Prop) (s : Source)
    (host host' : Host) : Except Failure Bool → Prop where
  /-- It fails, and leaves everything as it was. -/
  | failed {failure : Failure} (hfiles : ∀ loc, host'.files.get? loc = host.files.get? loc) :
      Stepped layout root output s host host' (.error failure)
  /-- It leaves the source. -/
  | left (hfiles : host'.files = host.files) : Stepped layout root output s host host' (.ok false)
  /-- It writes the source. -/
  | wrote {text : String} (houtput : output text)
      (hnew : host.files.contentsAt (s.location root) ≠ some text.toUTF8)
      (hreplaced : Files.Replaced host.files host'.files (s.location root) text.toUTF8
        (host.files.modeFor (s.location root)))
      (hgenerated : Generated layout root host'.files) :
      Stepped layout root output s host host' (.ok true)

theorem Stepped.imp {output output' : String → Prop} {result : Except Failure Bool}
    (h : Stepped layout root output s host host' result)
    (himp : ∀ text, output text → output' text) :
    Stepped layout root output' s host host' result := by
  cases h with
  | failed hfiles => exact .failed hfiles
  | left hfiles => exact .left hfiles
  | wrote houtput hnew hreplaced hgenerated =>
    exact .wrote (himp _ houtput) hnew hreplaced hgenerated

/-- Before a step come others that only read. -/
theorem Stepped.of_onlyReads {host₁ : Host} {output : String → Prop} {result : Except Failure Bool}
    (hreads : OnlyReads host host₁) (h : Stepped layout root output s host₁ host' result) :
    Stepped layout root output s host host' result := by
  have hfiles := hreads.files_eq
  cases h with
  | failed h => exact .failed (by rwa [hfiles] at h)
  | left h => exact .left (by rwa [hfiles] at h)
  | wrote houtput hnew hreplaced hgenerated =>
    rw [hfiles] at hnew hreplaced
    exact .wrote houtput hnew hreplaced hgenerated

theorem OnlyReads.stepped_error (h : OnlyReads host host') {output : String → Prop}
    {failure : Failure} : Stepped layout root output s host host' (.error failure) :=
  .failed fun _ => by rw [h.files_eq]

theorem OnlyReads.stepped_left (h : OnlyReads host host') {output : String → Prop} :
    Stepped layout root output s host host' (.ok false) :=
  .left h.files_eq

/-! ### Steps that write -/

/-- A source that is written as a whole. -/
theorem stepped_writeAtomically {result : Except Failure Bool}
    (hgen : Generated layout root host.files)
    (hnew : host.files.place (s.path layout) = .ok (s.location root) →
      host.files.contentsAt (s.location root) ≠ some text.toUTF8)
    (h : exec (do writeAtomically (s.path layout) text; pure true) host = (result, host')) :
    Stepped layout root (· = text) s host host' result := by
  rcases exec_bind_cases h with ⟨⟨⟩, host₁, hwrite, h⟩ | ⟨failure, hwrite, rfl⟩
  · obtain ⟨rfl, rfl⟩ := Prod.mk.inj h
    obtain ⟨target, hplace, hreplaced, -⟩ := writeAtomically_ok hwrite
    obtain rfl := hgen.eq_location_of_place hplace
    rw [hgen.mode?_eq hplace] at hreplaced
    exact .wrote rfl (hnew hplace) hreplaced (hgen.of_replaced hplace hreplaced)
  · exact .failed (writeAtomically_error hwrite).1

theorem contentsAt_ne_of_textOf {fs : Files} {loc : Location} {input : String}
    (hinput : fs.textOf loc = some input) (hne : text ≠ input) :
    fs.contentsAt loc ≠ some text.toUTF8 := by
  intro hcontents
  rw [Files.textOf_eq_bind, hcontents, Option.bind_some, fromUTF8?_toUTF8] at hinput
  exact hne (Option.some.inj hinput)

theorem contentsAt_eq_none_of_isFile {fs : Files} {p : Path} {loc : Location}
    (hresolve : fs.resolve p = .ok loc) (hfile : fs.isFile p = false) :
    fs.contentsAt loc = none := by
  unfold Files.contentsAt
  split
  · rename_i contents mode shared hget
    rw [Files.isFile, stat_eq_ok_iff.2 ⟨hresolve, hget⟩] at hfile
    exact absurd hfile (by simp)
  · rfl

theorem contentsAt_of_textOf {fs : Files} {loc : Location} (h : fs.textOf loc = some text) :
    fs.contentsAt loc = some text.toUTF8 := by
  rw [Files.textOf_eq_bind] at h
  obtain ⟨bytes, hbytes, htext⟩ := Option.bind_eq_some_iff.1 h
  rw [hbytes]
  unfold String.fromUTF8? at htext
  split at htext
  · rw [← Option.some.inj htext]
    rfl
  · exact absurd htext (by simp)

/-- A source that is rewritten has what becomes of its text. -/
theorem stepped_rewrite {transform : String → Except Cause String} {result : Except Failure Bool}
    (hgen : Generated layout root host.files)
    (h : exec (rewrite (s.path layout) transform) host = (result, host')) :
    Stepped layout root (fun text => ∃ input, host.files.textOf (s.location root) = some input ∧
      transform input = .ok text) s host host' result := by
  rw [rewrite] at h
  rcases exec_bind_cases h with ⟨input, host₁, hread, h⟩ | ⟨failure, hread, rfl⟩
  · have hreads := onlyReads_readText hread
    have hinput := hgen.textOf_of_textAt (readText_ok hread).1
    refine .of_onlyReads hreads ?_
    rw [← hreads.files_eq] at hgen hinput ⊢
    split at h
    · obtain ⟨rfl, rfl⟩ := Prod.mk.inj h
      exact .failed fun _ => rfl
    · rename_i output houtput
      split at h
      · obtain ⟨rfl, rfl⟩ := Prod.mk.inj h
        exact .left rfl
      · rename_i hne
        refine (stepped_writeAtomically hgen (fun _ => contentsAt_ne_of_textOf hinput hne) h).imp ?_
        rintro _ rfl
        exact ⟨input, hinput, houtput⟩
  · exact (onlyReads_readText hread).stepped_error

/-- A source with fixed contents is written unless it holds them. -/
theorem stepped_writeCompanion {result : Except Failure Bool}
    (hgen : Generated layout root host.files)
    (h : exec (writeCompanion (s.path layout) text) host = (result, host')) :
    Stepped layout root (· = text) s host host' result := by
  rw [writeCompanion, isFile, exec_asking_bind] at h
  split at h
  · rcases exec_bind_cases h with ⟨input, host₁, hread, h⟩ | ⟨failure, hread, rfl⟩
    · have hreads := onlyReads_readText hread
      have hinput := hgen.textOf_of_textAt (readText_ok hread).1
      refine .of_onlyReads hreads ?_
      rw [← hreads.files_eq] at hgen hinput
      rw [exec_bind_of_ok (exec_pure _ _)] at h
      simp only [decide_eq_true_eq] at h
      split at h
      · obtain ⟨rfl, rfl⟩ := Prod.mk.inj h
        exact .left rfl
      · rename_i hne
        exact stepped_writeAtomically hgen
          (fun _ => contentsAt_ne_of_textOf hinput (Ne.symm hne)) h
    · exact (onlyReads_readText hread).stepped_error
  · rename_i hfile
    refine stepped_writeAtomically hgen (fun hplace => ?_) h
    rw [← hgen.resolve_eq_place] at hplace
    rw [contentsAt_eq_none_of_isFile hplace (Bool.eq_false_iff.2 hfile)]
    exact (Option.some_ne_none _).symm

/-- Where that succeeds, it holds them. -/
theorem textOf_of_writeCompanion {changed : Bool} (hgen : Generated layout root host.files)
    (h : exec (writeCompanion (s.path layout) text) host = (.ok changed, host')) :
    host'.files.textOf (s.location root) = some text := by
  cases stepped_writeCompanion hgen h with
  | wrote houtput _ hreplaced => rw [← houtput, hreplaced.textOf_target]
  | left hfiles =>
    have hwrites : ∀ {host₁ : Host},
        exec (do writeAtomically (s.path layout) text; pure true) host₁ ≠ (.ok false, host') := by
      intro host₁ h
      obtain ⟨⟨⟩, host₂, -, h⟩ := exec_bind_ok h
      exact absurd (Prod.mk.inj h).1 (by simp)
    rw [writeCompanion, isFile, exec_asking_bind] at h
    split at h
    · obtain ⟨input, host₁, hread, h⟩ := exec_bind_ok h
      rw [exec_bind_of_ok (exec_pure _ _)] at h
      simp only [decide_eq_true_eq] at h
      split at h
      · rename_i hsame
        rw [hfiles, hgen.textOf_of_textAt (readText_ok hread).1, hsame]
      · exact absurd h hwrites
    · exact absurd h hwrites

/-! ### Step after step -/

/-- Between two trees, sources were written as a whole: each is a file that has an output, which is
other contents than it had, under the permissions it had; everything else is as it was. -/
structure Wrote (output : Source → String → Prop) (root : Location) (fs fs' : Files)
    (written : List Source) : Prop where
  nodup : written.Nodup
  get?_written : ∀ s ∈ written, ∃ text, output s text ∧
    fs.contentsAt (s.location root) ≠ some text.toUTF8 ∧
    fs'.get? (s.location root) = some (.file text.toUTF8 (fs.modeFor (s.location root)) none)
  get?_other : ∀ loc, (∀ s ∈ written, loc ≠ s.location root) → fs'.get? loc = fs.get? loc
  isFile_before : ∀ s ∈ written, ∀ e, fs.get? (s.location root) = some e → e.isFile = true

namespace Wrote

variable {output output' : Source → String → Prop} {fs fs' fs'' : Files} {written : List Source}

theorem nil (fs : Files) : Wrote output root fs fs [] :=
  ⟨List.nodup_nil, by simp, fun _ _ => rfl, by simp⟩

theorem congr (h : Wrote output root fs fs' written) (heq : ∀ loc, fs''.get? loc = fs'.get? loc) :
    Wrote output root fs fs'' written := by
  refine ⟨h.nodup, ?_, ?_, h.isFile_before⟩
  · intro s hs
    rw [heq]
    exact h.get?_written s hs
  · intro loc hloc
    rw [heq]
    exact h.get?_other loc hloc

theorem imp (h : Wrote output root fs fs' written)
    (himp : ∀ s ∈ written, ∀ text, output s text → output' s text) :
    Wrote output' root fs fs' written := by
  refine ⟨h.nodup, ?_, h.get?_other, h.isFile_before⟩
  intro s hs
  obtain ⟨text, houtput, hrest⟩ := h.get?_written s hs
  exact ⟨text, himp s hs text houtput, hrest⟩

/-- A source that was not written is as it was. -/
theorem get?_of_not_mem (h : Wrote output root fs fs' written) (hs : s ∉ written) :
    fs'.get? (s.location root) = fs.get? (s.location root) := by
  refine h.get?_other _ ?_
  rintro s' hs' heq
  exact hs (Source.location_injective root heq ▸ hs')

theorem textOf_of_not_mem (h : Wrote output root fs fs' written) (hs : s ∉ written) :
    fs'.textOf (s.location root) = fs.textOf (s.location root) :=
  Files.textOf_congr (h.get?_of_not_mem hs)

theorem contentsAt_of_not_mem (h : Wrote output root fs fs' written) (hs : s ∉ written) :
    fs'.contentsAt (s.location root) = fs.contentsAt (s.location root) := by
  rw [Files.contentsAt, Files.contentsAt, h.get?_of_not_mem hs]

/-- One more source is written. -/
theorem concat (h : Wrote output root fs fs' written) (hs : s ∉ written) (houtput : output s text)
    (hlink : fs'.linkAt (s.location root) = none)
    (hnew : fs'.contentsAt (s.location root) ≠ some text.toUTF8)
    (hreplaced : Files.Replaced fs' fs'' (s.location root) text.toUTF8
      (fs'.modeFor (s.location root))) :
    Wrote output root fs fs'' (written ++ [s]) := by
  have hget := h.get?_of_not_mem hs
  refine ⟨List.concat_eq_append ▸ h.nodup.concat hs, ?_, ?_, ?_⟩
  · intro s' hs'
    rcases List.mem_append.1 hs' with hs' | hs'
    · have hne : s'.location root ≠ s.location root := by
        intro heq
        exact hs (Source.location_injective root heq ▸ hs')
      rw [hreplaced.get?_other _ hne]
      exact h.get?_written s' hs'
    · obtain rfl := List.mem_singleton.1 hs'
      refine ⟨text, houtput, ?_, ?_⟩
      · rwa [← h.contentsAt_of_not_mem hs]
      · rw [hreplaced.get?_target, Files.modeFor, Files.modeFor, hget]
  · intro loc hloc
    rw [hreplaced.get?_other _ (hloc s (by simp))]
    exact h.get?_other loc fun s' hs' => hloc s' (List.mem_append_left _ hs')
  · intro s' hs' e he
    rcases List.mem_append.1 hs' with hs' | hs'
    · exact h.isFile_before s' hs' e he
    · obtain rfl := List.mem_singleton.1 hs'
      rw [← hget] at he
      cases e with
      | file => rfl
      | directory mode => exact absurd he (hreplaced.not_directory mode)
      | link target =>
        rw [Files.linkAt_eq_some_iff.2 he] at hlink
        exact absurd hlink (by simp)

/-- More sources are written, apart from the ones before. -/
theorem append {written' : List Source} (h : Wrote output root fs fs' written)
    (h' : Wrote output' root fs' fs'' written') (hapart : ∀ s ∈ written', s ∉ written)
    (himp : ∀ s ∈ written', ∀ text, output' s text →
      fs'.contentsAt (s.location root) ≠ some text.toUTF8 → output s text) :
    Wrote output root fs fs'' (written ++ written') := by
  refine ⟨List.nodup_append.2 ⟨h.nodup, h'.nodup, ?_⟩, ?_, ?_, ?_⟩
  · rintro s hs s' hs' rfl
    exact hapart s hs' hs
  · intro s hs
    by_cases hs' : s ∈ written'
    · obtain ⟨text, houtput, hnew, hget⟩ := h'.get?_written s hs'
      have hs := hapart s hs'
      refine ⟨text, himp s hs' text houtput hnew, ?_, ?_⟩
      · rwa [← h.contentsAt_of_not_mem hs]
      · rw [hget, Files.modeFor, Files.modeFor, h.get?_of_not_mem hs]
    · rw [h'.get?_of_not_mem hs']
      exact h.get?_written s ((List.mem_append.1 hs).resolve_right hs')
  · intro loc hloc
    rw [h'.get?_other loc fun s hs => hloc s (List.mem_append_right _ hs)]
    exact h.get?_other loc fun s hs => hloc s (List.mem_append_left _ hs)
  · intro s hs e he
    rcases List.mem_append.1 hs with hs | hs
    · exact h.isFile_before s hs e he
    · rw [← h.get?_of_not_mem (hapart s hs)] at he
      exact h'.isFile_before s hs e he

theorem eq_of_mem_ite {α : Type} {a b : α} {changed : Bool}
    (h : b ∈ if changed then [a] else []) : b = a := by
  cases changed with
  | false => exact absurd h (by simp)
  | true => exact List.mem_singleton.1 h

/-- After a step that succeeds, its source may be among those that were written. -/
theorem of_stepped {changed : Bool} (h : Wrote output root fs host.files written)
    (hgen : Generated layout root host.files) (hs : s ∉ written)
    (hstepped : Stepped layout root (output s) s host host' (.ok changed)) :
    Generated layout root host'.files ∧
      Wrote output root fs host'.files (written ++ if changed then [s] else []) := by
  cases hstepped with
  | left hfiles =>
    rw [hfiles]
    exact ⟨hgen, by simpa using h⟩
  | wrote houtput hnew hreplaced hgen' => exact ⟨hgen', h.concat hs houtput (hgen.linkAt_location s) hnew hreplaced⟩

end Wrote

/-- A step writes what `output` says from the tree at the start, also when other sources were written
since. -/
def StepWrites (layout : Layout) (root : Location) (output : Source → String → Prop) (fs : Files)
    (step : Build Bool) (s : Source) : Prop :=
  ∀ ⦃host result host' written⦄, Generated layout root host.files →
    Wrote output root fs host.files written → s ∉ written → exec step host = (result, host') →
      Stepped layout root (output s) s host host' result

/-- One step after the other writes sources, until one fails. -/
theorem exec_changedFiles {output : Source → String → Prop} {step : Path → Build Bool}
    {target : Source → Source} {fs : Files} {sources written : List Source}
    {result : Except Failure (List Path)}
    (hstep : ∀ s ∈ sources, StepWrites layout root output fs (step (s.path layout)) (target s))
    (hnodup : (sources.map target).Nodup) (hnew : ∀ s ∈ sources, target s ∉ written)
    (hgen : Generated layout root host.files) (hwrote : Wrote output root fs host.files written)
    (h : exec (changedFiles step (sources.map (Source.path layout))) host = (result, host')) :
    ∃ picked : List Source, (∀ s ∈ picked, s ∈ sources) ∧
      Wrote output root fs host'.files (written ++ picked.map target) ∧
      ∀ files, result = .ok files →
        files = picked.map (Source.path layout) ∧ Generated layout root host'.files := by
  induction sources generalizing host result written with
  | nil =>
    obtain ⟨rfl, rfl⟩ := Prod.mk.inj h
    refine ⟨[], by simp, by simpa using hwrote, ?_⟩
    intro files hfiles
    exact ⟨(Except.ok.inj hfiles).symm, hgen⟩
  | cons s rest ih =>
    rw [List.map_cons, List.nodup_cons] at hnodup
    rw [List.map_cons, changedFiles] at h
    have hs := hnew s List.mem_cons_self
    have hsteps : ∀ s' ∈ rest,
        StepWrites layout root output fs (step (s'.path layout)) (target s') := fun s' hs' =>
      hstep s' (List.mem_cons_of_mem _ hs')
    rcases exec_bind_cases h with ⟨changed, host₁, hfirst, h⟩ | ⟨failure, hfirst, rfl⟩
    · obtain ⟨hgen₁, hwrote₁⟩ :=
        hwrote.of_stepped hgen hs (hstep s List.mem_cons_self hgen hwrote hs hfirst)
      rcases hothers : exec (changedFiles step (rest.map (Source.path layout))) host₁ with
        ⟨others, host₂⟩
      obtain rfl : host₂ = host' := by
        rw [exec_bind, hothers] at h
        cases others <;> exact (Prod.mk.inj h).2
      have hnew₁ : ∀ s' ∈ rest, target s' ∉ written ++ if changed then [target s] else [] := by
        intro s' hs' hmem
        rcases List.mem_append.1 hmem with hmem | hmem
        · exact hnew s' (List.mem_cons_of_mem _ hs') hmem
        · exact hnodup.1 (Wrote.eq_of_mem_ite hmem ▸ List.mem_map_of_mem hs')
      obtain ⟨picked, hpicked, hwrote₂, hok⟩ := ih hsteps hnodup.2 hnew₁ hgen₁ hwrote₁ hothers
      refine ⟨(if changed then [s] else []) ++ picked, ?_, ?_, ?_⟩
      · intro s' hs'
        rcases List.mem_append.1 hs' with hs' | hs'
        · rw [Wrote.eq_of_mem_ite hs']
          exact List.mem_cons_self
        · exact List.mem_cons_of_mem _ (hpicked s' hs')
      · rw [List.map_append, ← List.append_assoc, apply_ite (List.map target)]
        exact hwrote₂
      · rintro files rfl
        obtain ⟨others', host₃, hothers', h⟩ := exec_bind_ok h
        obtain ⟨rfl, rfl⟩ := Prod.mk.inj (hothers.symm.trans hothers')
        obtain ⟨rfl, hgen₂⟩ := hok others' rfl
        refine ⟨?_, hgen₂⟩
        rw [← Except.ok.inj (Prod.mk.inj h).1]
        cases changed <;> rfl
    · cases hstep s List.mem_cons_self hgen hwrote hs hfirst with
      | failed hfiles => exact ⟨[], by simp, by simpa using hwrote.congr hfiles, by simp⟩

theorem rewriteAll_eq (transform : Path → String → Except Cause String) (files : List Path) :
    rewriteAll transform files = changedFiles (fun p => rewrite p (transform p)) files := by
  induction files with
  | nil => rfl
  | cons p rest ih => rw [rewriteAll, changedFiles, ih]

/-- Sources that are rewritten one after the other have what becomes of their texts. -/
theorem exec_rewriteAll {transform : Path → String → Except Cause String} {sources : List Source}
    {result : Except Failure (List Path)} (hnodup : sources.Nodup)
    (hgen : Generated layout root host.files)
    (h : exec (rewriteAll transform (sources.map (Source.path layout))) host = (result, host')) :
    ∃ written, (∀ s ∈ written, s ∈ sources) ∧
      Wrote (fun s text => ∃ input, host.files.textOf (s.location root) = some input ∧
        transform (s.path layout) input = .ok text) root host.files host'.files written ∧
      ∀ files, result = .ok files →
        files = written.map (Source.path layout) ∧ Generated layout root host'.files := by
  rw [rewriteAll_eq] at h
  have hstep : ∀ s ∈ sources, StepWrites layout root (fun s text =>
      ∃ input, host.files.textOf (s.location root) = some input ∧
        transform (s.path layout) input = .ok text) host.files
      (rewrite (s.path layout) (transform (s.path layout))) s := by
    intro s _ host₁ result₁ host₂ written hgen₁ hwrote hs h
    refine (stepped_rewrite hgen₁ h).imp ?_
    rintro text ⟨input, hinput, htext⟩
    rw [hwrote.textOf_of_not_mem hs] at hinput
    exact ⟨input, hinput, htext⟩
  obtain ⟨picked, hpicked, hwrote, hok⟩ := @exec_changedFiles _ _ _ _ _ _ id _ _ [] _ hstep
    (by simpa using hnodup) (by simp) hgen (Wrote.nil _) h
  exact ⟨picked, hpicked, by simpa using hwrote, hok⟩

end RamlBuild
