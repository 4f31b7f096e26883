import RamlBuild.Proofs.Sources.FieldConstants
import RamlBuild.Proofs.Sources.Reading

/-!
# Field constants are all or nothing

Every source of a model type is read before the first one is written. After that no source fails, as
what could be read can be written: where the field constants fail, nothing was written.

A class of constants that is a link to a directory is the exception. It is replaced like any other,
and then the paths through it are gone.

## Main definitions

* `LeavesOrWrites` — a step that only reads, or goes on to replace a file

## Main results

* `Readable.of_leavesOrWrites` — what a step that concerns one source leaves
* `get?_of_applyFieldConstants_error` — field constants that fail have written nothing
-/

namespace RamlBuild

open Build

variable {host host' host₁ : Host} {p : Path} {other stem text : String} {names : List String}
  {layout : Layout} {failure : Failure} {transform : String → String}

/-! ### Steps that write a file -/

/-- What a step does that concerns one file: it only reads, or goes on to replace the file by a text,
after it read the file if that is one. -/
def LeavesOrWrites (p : Path) (host host' : Host) (result : Except Failure Bool) : Prop :=
  OnlyReads host host' ∨ ∃ host₁ text written, OnlyReads host host₁ ∧
    (host.files.isFile p = true → ∃ input, textAt host.files p = .ok (some input)) ∧
    exec (writeAtomically p text) host₁ = (written, host') ∧ result = written.map fun _ => true

theorem leavesOrWrites_of_write {result : Except Failure Bool} (hreads : OnlyReads host host₁)
    (hread : host.files.isFile p = true → ∃ input, textAt host.files p = .ok (some input))
    (h : exec (do writeAtomically p text; pure true) host₁ = (result, host')) :
    LeavesOrWrites p host host' result := by
  rw [bind_pure_comp, exec_map] at h
  obtain ⟨rfl, rfl⟩ := Prod.mk.inj h
  exact .inr ⟨host₁, text, _, hreads, hread, rfl, rfl⟩

theorem leavesOrWrites_rewrite {result : Except Failure Bool}
    (h : exec (rewrite p (always transform p)) host = (result, host')) :
    LeavesOrWrites p host host' result := by
  rw [rewrite] at h
  rcases exec_bind_cases h with ⟨input, host₁, hread, h⟩ | ⟨failure, hread, rfl⟩
  · have hreads := onlyReads_readText hread
    simp only [always] at h
    split at h
    · obtain ⟨-, rfl⟩ := Prod.mk.inj h
      exact .inl hreads
    · exact leavesOrWrites_of_write hreads (fun _ => ⟨input, (readText_ok hread).1⟩) h
  · exact .inl (onlyReads_readText hread)

theorem leavesOrWrites_writeCompanion {result : Except Failure Bool}
    (h : exec (writeCompanion p text) host = (result, host')) :
    LeavesOrWrites p host host' result := by
  rw [writeCompanion, isFile, exec_asking_bind] at h
  split at h
  · rcases exec_bind_cases h with ⟨input, host₁, hread, h⟩ | ⟨failure, hread, rfl⟩
    · have hreads := onlyReads_readText hread
      rw [exec_bind_of_ok (exec_pure _ _)] at h
      simp only [decide_eq_true_eq] at h
      split at h
      · obtain ⟨-, rfl⟩ := Prod.mk.inj h
        exact .inl hreads
      · exact leavesOrWrites_of_write hreads (fun _ => ⟨input, (readText_ok hread).1⟩) h
    · exact .inl (onlyReads_readText hread)
  · rename_i hfile
    exact leavesOrWrites_of_write (chains_onlyReads.refl host) (fun h => absurd h hfile) h

/-- A step that concerns one source fails without a trace, or leaves all sources as they are, or
leaves sources that can all be written. -/
theorem Readable.of_leavesOrWrites {result : Except Failure Bool}
    (h : Readable host (p / other) names) (hother : IsPlainName other)
    (hname : IsPlainName (sourceName stem))
    (hdead : ∀ dir, host.files.reach (p / other) = .ok dir →
      ¬host.files.LinksToDirectory (dir ++ [sourceName stem]))
    (hstep : LeavesOrWrites (p / other / sourceName stem) host host' result) :
    (∃ failure, result = .error failure) ∧ (∀ loc, host'.files.get? loc = host.files.get? loc) ∨
      OnlyReads host host' ∨
      (∃ changed, result = .ok changed) ∧ Writable host' (p / other) names := by
  obtain hreads | ⟨host₁, text, written, hreads, hread, hwrite, rfl⟩ := hstep
  · exact .inr (.inl hreads)
  · have hfiles := hreads.files_eq
    cases written with
    | error failure =>
      refine .inl ⟨⟨failure, rfl⟩, fun loc => ?_⟩
      rw [(writeAtomically_error hwrite).1 loc, hfiles]
    | ok =>
      rw [← hfiles] at hdead hread
      exact .inr (.inr ⟨⟨true, rfl⟩, (h.of_onlyReads hreads).of_writeAtomically hother hname hdead
        hread hwrite⟩)

/-- Where sources that can be read are rewritten and one fails, none was written. -/
theorem Readable.get?_of_rewriteAll_error {stems : List String}
    (h : Readable host (p / other) names) (hother : IsPlainName other)
    (hplain : ∀ stem ∈ stems, IsPlainName (sourceName stem))
    (hmem : ∀ stem ∈ stems, sourceName stem ∈ names)
    (hfail : exec (rewriteAll (always transform)
      (stems.map fun stem => p / other / sourceName stem)) host = (.error failure, host'))
    (loc : Location) : host'.files.get? loc = host.files.get? loc := by
  induction stems generalizing host with
  | nil => exact absurd (Prod.mk.inj hfail).1 (by simp)
  | cons stem rest ih =>
    have hname := hplain stem List.mem_cons_self
    have hplain' : ∀ s ∈ rest, IsPlainName (sourceName s) :=
      fun s hs => hplain s (List.mem_cons_of_mem _ hs)
    have hmem' : ∀ s ∈ rest, sourceName s ∈ names := fun s hs => hmem s (List.mem_cons_of_mem _ hs)
    have hdead : ∀ dir, host.files.reach (p / other) = .ok dir →
        ¬host.files.LinksToDirectory (dir ++ [sourceName stem]) := by
      intro dir hdir
      obtain ⟨input, hinput⟩ := h.text _ (hmem stem List.mem_cons_self)
      obtain ⟨dir', hreach, -, -, hdead⟩ := entry_of_textAt hname hinput
      obtain rfl := Except.ok.inj (hreach.symm.trans hdir)
      exact hdead
    rw [List.map_cons, rewriteAll] at hfail
    rcases exec_bind_cases hfail with ⟨changed, host₁, hfirst, hfail⟩ | ⟨failure', hfirst, -⟩
    · have hothers : exec (rewriteAll (always transform)
          (rest.map fun stem => p / other / sourceName stem)) host₁ = (.error failure, host') := by
        rcases exec_bind_cases hfail with ⟨others, host₂, -, hpure⟩ | ⟨failure', hothers, heq⟩
        · exact absurd (Prod.mk.inj hpure).1 (by simp)
        · rw [hothers, heq]
      rcases h.of_leavesOrWrites hother hname hdead (leavesOrWrites_rewrite hfirst) with
        ⟨⟨failure', heq⟩, -⟩ | hreads | ⟨-, h₁⟩
      · contradiction
      · rw [ih (h.of_onlyReads hreads) hplain' hmem' hothers, hreads.files_eq]
      · -- Once one source was written, the others can be.
        obtain ⟨others, host₂, hok⟩ := h₁.exec_rewriteAll hother hplain' hmem'
        rw [hok] at hothers
        exact absurd (Prod.mk.inj hothers).1 (by simp)
    · rcases h.of_leavesOrWrites hother hname hdead (leavesOrWrites_rewrite hfirst) with
        ⟨-, hsame⟩ | hreads | ⟨⟨changed, heq⟩, -⟩
      · exact hsame loc
      · rw [hreads.files_eq]
      · contradiction

/-- Where a file with fixed contents is written and then sources that can be read are rewritten, a
failure means that nothing was written. -/
theorem Readable.get?_of_write_error {stems : List String} {tell : Bool → List Path → List Path}
    (h : Readable host (p / other) (stems.map sourceName)) (hother : IsPlainName other)
    (hplain : ∀ stem ∈ stems, IsPlainName (sourceName stem)) (hname : IsPlainName (sourceName stem))
    (hdead : ∀ dir, host.files.reach (p / other) = .ok dir →
      ¬host.files.LinksToDirectory (dir ++ [sourceName stem]))
    (hfail : exec (do
      let written ← writeCompanion (p / other / sourceName stem) text
      let changed ← rewriteAll (always transform) (stems.map fun stem => p / other / sourceName stem)
      pure (tell written changed)) host = (.error failure, host')) (loc : Location) :
    host'.files.get? loc = host.files.get? loc := by
  have hmem : ∀ stem ∈ stems, sourceName stem ∈ stems.map sourceName :=
    fun _ => List.mem_map_of_mem
  rcases exec_bind_cases hfail with ⟨written, host₁, hclass, hfail⟩ | ⟨failure', hclass, -⟩
  · have hothers : exec (rewriteAll (always transform)
        (stems.map fun stem => p / other / sourceName stem)) host₁ = (.error failure, host') := by
      rcases exec_bind_cases hfail with ⟨changed, host₂, -, hpure⟩ | ⟨failure', hothers, heq⟩
      · exact absurd (Prod.mk.inj hpure).1 (by simp)
      · rw [hothers, heq]
    rcases h.of_leavesOrWrites hother hname hdead (leavesOrWrites_writeCompanion hclass) with
      ⟨⟨failure', heq⟩, -⟩ | hreads | ⟨-, h₁⟩
    · contradiction
    · rw [(h.of_onlyReads hreads).get?_of_rewriteAll_error hother hplain hmem hothers,
        hreads.files_eq]
    · obtain ⟨others, host₂, hok⟩ := h₁.exec_rewriteAll hother hplain hmem
      rw [hok] at hothers
      exact absurd (Prod.mk.inj hothers).1 (by simp)
  · rcases h.of_leavesOrWrites hother hname hdead (leavesOrWrites_writeCompanion hclass) with
      ⟨-, hsame⟩ | hreads | ⟨⟨changed, heq⟩, -⟩
    · exact hsame loc
    · rw [hreads.files_eq]
    · contradiction

/-! ### Field constants -/

/-- Where the property names of sources are told, all of them can be read. -/
theorem textAt_of_allPropertyNames {files : List Path} {values : List (List Char)}
    (h : exec (allPropertyNames files) host = (.ok values, host')) :
    ∀ file ∈ files, ∃ text, textAt host.files file = .ok (some text) := by
  induction files generalizing host host' values with
  | nil => simp
  | cons file rest ih =>
    rw [allPropertyNames] at h
    obtain ⟨text, host₁, hread, h⟩ := exec_bind_ok h
    obtain ⟨htext, rfl⟩ := readText_ok hread
    obtain ⟨others, host₂, hothers, -⟩ := exec_bind_ok h
    intro other hmem
    rcases List.mem_cons.1 hmem with rfl | hmem
    · exact ⟨text, htext⟩
    · exact ih hothers other hmem

/-- The stems of the two files of each model type. -/
def typeStems (types : List ModelType) : List String :=
  types.flatMap fun type => [type.name, type.name ++ Path.implEnding]

theorem typeFileNames_eq (types : List ModelType) :
    typeFileNames types = (typeStems types).map sourceName := by
  rw [typeFileNames, typeStems, List.map_flatMap]
  rfl

/-- Field constants that fail leave every file as it was and make none, whatever the model directory
holds, unless the class of constants is a link to a directory. -/
theorem get?_of_applyFieldConstants_error (hfs : host.files.WellFormed)
    (hquiet : ∀ n, host.faults n = none)
    (hclass : ∀ dir, host.files.resolve layout.modelDir = .ok dir →
      ¬host.files.LinksToDirectory (dir ++ [sourceName jsonFieldClassName]))
    (h : exec (applyFieldConstants layout) host = (.error failure, host')) (loc : Location) :
    host'.files.get? loc = host.files.get? loc := by
  have hmodel : IsPlainName "model" := by decide
  rw [applyFieldConstants] at h
  rcases exec_bind_cases h with ⟨types, host₁, htypes, h⟩ | ⟨failure', htypes, -⟩
  swap
  · rw [(onlyReads_modelTypes htypes).files_eq]
  have hreads₁ := onlyReads_modelTypes htypes
  obtain ⟨-, -, htypes'⟩ := exec_modelTypes_ok hfs htypes
  have htypesOf : TypesOf host.files layout.modelDir types := htypes' ▸ typesOf_filterMap hfs hmodel
  have hplain := htypesOf.plain
  rw [typeFileNames_eq, List.forall_mem_map] at hplain
  split at h
  · exact absurd (Prod.mk.inj h).1 (by simp)
  rename_i hsome
  simp only [htypesOf.files_eq, typeFileNames_eq, List.map_map] at h
  rcases exec_bind_cases h with ⟨values, host₂, hvalues, h⟩ | ⟨failure', hvalues, -⟩
  swap
  · rw [(onlyReads_allPropertyNames hvalues).files_eq, hreads₁.files_eq]
  have hreads := chains_onlyReads.trans hreads₁ (onlyReads_allPropertyNames hvalues)
  -- All sources of model types were read by now.
  have hreadable : Readable host layout.modelDir ((typeStems types).map sourceName) := by
    refine ⟨hquiet, hfs.isTree, hfs.distinct, ?_⟩
    rw [List.forall_mem_map]
    intro stem hstem
    rw [← hreads₁.files_eq]
    exact textAt_of_allPropertyNames hvalues _ (List.mem_map_of_mem hstem)
  -- The directory is there, since it has the source of a type.
  obtain ⟨type, htype⟩ := List.exists_mem_of_ne_nil types (fun hnil => hsome (by simp [hnil]))
  obtain ⟨-, dir, mode, e, hresolve, -, -⟩ :=
    (mem_sourceNames hfs.distinct).1 (htypesOf.mem type htype)
  have hdead : ∀ dir, host₂.files.reach layout.modelDir = .ok dir →
      ¬host₂.files.LinksToDirectory (dir ++ [sourceName jsonFieldClassName]) := by
    intro dir' hreach
    rw [hreads.files_eq] at hreach ⊢
    obtain rfl := Except.ok.inj ((Files.reach_of_resolve hresolve).symm.trans hreach)
    exact hclass dir hresolve
  rw [(hreadable.of_onlyReads hreads).get?_of_write_error hmodel hplain (by decide) hdead h loc,
    hreads.files_eq]

/-- A model type, with a directory in the place of the class of constants. -/
def occupiedFiles : Files where
  entries :=
    (["demo", "generated", "model", "JsonField.java"], .directory 0o755) :: ticketFiles.entries
  workingDirectory := []

/-- Why the field constants fail there. -/
def occupiedFailure : Failure :=
  (Failure.of (.io .isDirectory "failed to rename")).within
    "replacing /demo/generated/model/JsonField.java"

/-- The directory stays, and the model type is as it was. -/
theorem get?_of_applyFieldConstants_occupiedFiles :
    (exec (applyFieldConstants ticketLayout) (quietHost occupiedFiles)).1 = .error occupiedFailure ∧
      ∀ loc, (exec (applyFieldConstants ticketLayout) (quietHost occupiedFiles)).2.files.get? loc =
        occupiedFiles.get? loc := by
  have hfiles : occupiedFiles.WellFormed :=
    Files.wellFormed_of_entries (by decide +kernel) (by decide +kernel)
  have hresolve : occupiedFiles.resolve ticketLayout.modelDir =
      .ok ["demo", "generated", "model"] := by
    decide +kernel
  have hclass : ∀ dir, occupiedFiles.resolve ticketLayout.modelDir = .ok dir →
      ¬occupiedFiles.LinksToDirectory (dir ++ [sourceName jsonFieldClassName]) := by
    intro dir hdir
    obtain rfl := Except.ok.inj (hresolve.symm.trans hdir)
    exact Files.not_linksToDirectory_of_linkAt (by decide +kernel)
  have hfail : (exec (applyFieldConstants ticketLayout) (quietHost occupiedFiles)).1 =
      .error occupiedFailure := by
    decide +kernel
  refine ⟨hfail, ?_⟩
  exact @get?_of_applyFieldConstants_error (quietHost occupiedFiles) _ _ _ hfiles (fun _ => rfl)
    hclass (exec_eq_of_fst hfail)

/-- A model type whose implementation is found through the class of constants, a link to a
directory. -/
def detourFiles : Files where
  entries :=
    [(["demo"], .directory 0o755), (["demo", "generated"], .directory 0o755),
      (["demo", "generated", "model"], .directory 0o755),
      (["demo", "generated", "model", "JsonField.java"], .link ⟨"d"⟩),
      (["demo", "generated", "model", "d"], .directory 0o755),
      (["demo", "generated", "model", "d", "x"], .file ticketImplementation.toUTF8 0o644 none),
      (["demo", "generated", "model", "Ticket.java"], .file ticketInterface.toUTF8 0o644 none),
      (["demo", "generated", "model", "TicketImpl.java"], .link ⟨"JsonField.java/x"⟩)]
  workingDirectory := []

/-- The class takes the place of the link, and then the implementation is gone. -/
theorem applyFieldConstants_detourFiles :
    detourFiles.WellFormed ∧
      (exec (modelTypes ticketLayout.modelDir) (quietHost detourFiles)).1 = .ok ticketTypes ∧
      (∀ type ∈ ticketTypes, type.name ≠ jsonFieldClassName) ∧
      (exec (applyFieldConstants ticketLayout) (quietHost detourFiles)).1 =
        .error (.of (.io .notDirectory
          "failed to open file `/demo/generated/model/TicketImpl.java`")) ∧
      (exec (applyFieldConstants ticketLayout) (quietHost detourFiles)).2.files.get?
          ["demo", "generated", "model", "JsonField.java"] ≠
        detourFiles.get? ["demo", "generated", "model", "JsonField.java"] := by
  refine ⟨Files.wellFormed_of_entries (by decide +kernel) (by decide +kernel), ?_, by decide, ?_, ?_⟩
  · decide +kernel
  · decide +kernel
  · decide +kernel

end RamlBuild
