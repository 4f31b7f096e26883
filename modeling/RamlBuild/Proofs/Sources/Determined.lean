import RamlBuild.Proofs.Build.Twins
import RamlBuild.Proofs.Sources.Stages

/-!
# Patches are determined by the files

What patches do to the sources of a layout, and what they tell, depends on the files alone: on files
that are the same they leave files that are the same, whichever order the entries are kept in.

## Main results

* `Patch.determined_apply` — a patch does the same on files that are the same
* `determined_applyEach` — so does a run of patches, but for its times
-/

namespace RamlBuild

open Build

variable {p file : Path} {files : List Path} {text package : String} {layout : Layout}
  {patch : Patch} {patches : List Patch}

namespace Build

theorem determined_isFile : Determined Files.Same (isFile p) :=
  .asking fun _ _ h => h.isFile_eq (h.seesOff p)

theorem determined_isDirectory : Determined Files.Same (isDirectory p) :=
  .asking fun _ _ h => h.isDirectory_eq (h.seesOff p)

theorem determined_readText : Determined Files.Same (readText p) := by
  refine .bind (.reading fun _ _ h => h.readFile_eq (h.seesOff p)) fun bytes => ?_
  split
  · exact .pure _
  · exact .fail _

theorem determined_list : Determined Files.Same (list p) :=
  .reading fun _ _ h => h.list_eq

theorem determined_writeAtomically : Determined Files.Same (writeAtomically p text) := by
  intro a b r s a' b' htwins ha hb
  obtain ⟨target, hplace, hreplaced, -⟩ := writeAtomically_ok ha
  obtain ⟨target', hplace', hreplaced', -⟩ := writeAtomically_ok hb
  have hsame := htwins.files
  rw [Files.place, (hsame.seesOff p).locate, ← Files.place, hplace] at hplace'
  obtain rfl := Except.ok.inj hplace'
  rw [hsame.mode?_eq (hsame.seesOff p)] at hreplaced'
  exact ⟨rfl, htwins.of_sameMachine (sameMachine_writeAtomically ha) (sameMachine_writeAtomically hb)
    (hsame.of_replaced hreplaced hreplaced')⟩

theorem determined_rewrite {transform : String → Except Cause String} :
    Determined Files.Same (rewrite p transform) := by
  refine .bind determined_readText fun input => ?_
  split
  · exact .throw _
  · split
    · exact .pure _
    · exact .bind determined_writeAtomically fun _ => .pure _

theorem determined_rewriteAll {transform : Path → String → Except Cause String} :
    Determined Files.Same (rewriteAll transform files) := by
  induction files with
  | nil => exact .pure _
  | cons file rest ih => exact .bind determined_rewrite fun _ => .bind ih fun _ => .pure _

end Build

/-! ### Steps of patches -/

theorem determined_sourceFiles : Determined Files.Same (sourceFiles p) := by
  refine .bind determined_isDirectory fun there => ?_
  split
  · exact .bind (.within determined_list) fun _ => .pure _
  · exact .pure _

theorem determined_modelAndResourceFiles : Determined Files.Same (modelAndResourceFiles layout) :=
  .bind determined_sourceFiles fun _ => .bind determined_sourceFiles fun _ => .pure _

theorem determined_typeDiscriminator : Determined Files.Same (typeDiscriminator file) := by
  unfold typeDiscriminator
  split
  · exact .pure _
  · refine .bind determined_readText fun source => ?_
    split
    · exact .pure _
    · refine .bind determined_isFile fun there => ?_
      split
      · exact .fail _
      · refine .bind determined_readText fun implementation => ?_
        split
        · exact .fail _
        · split
          · exact determined_rewrite
          · exact .pure _

theorem determined_openEnumValue : Determined Files.Same (openEnumValue file) := by
  refine .bind determined_readText fun source => ?_
  split
  · exact determined_rewrite
  · exact .pure _

theorem determined_changedFiles {step : Path → Build Bool}
    (hstep : ∀ file, Determined Files.Same (step file)) :
    Determined Files.Same (changedFiles step files) := by
  induction files with
  | nil => exact .pure _
  | cons file rest ih => exact .bind (hstep file) fun _ => .bind ih fun _ => .pure _

theorem determined_writeCompanion : Determined Files.Same (writeCompanion file text) := by
  have hwrite : ∀ same : Bool, Determined Files.Same
      (if same then pure false else do writeAtomically file text; pure true) := by
    intro same
    split
    · exact .pure _
    · exact .bind determined_writeAtomically fun _ => .pure _
  refine .bind determined_isFile fun there => ?_
  split
  · exact .bind determined_readText fun _ => .bind (.pure _) hwrite
  · exact .bind (.pure _) hwrite

theorem determined_writeStreams : Determined Files.Same (writeStreams package files) := by
  induction files with
  | nil => exact .pure _
  | cons file rest ih =>
    unfold writeStreams
    split
    · exact .bind determined_writeCompanion fun _ => .bind ih fun _ => .pure _
    · exact ih

theorem determined_allPropertyNames : Determined Files.Same (allPropertyNames files) := by
  induction files with
  | nil => exact .pure _
  | cons file rest ih => exact .bind determined_readText fun _ => .bind ih fun _ => .pure _

theorem determined_filesWhose {question : String → Bool} :
    Determined Files.Same (filesWhose question files) := by
  induction files with
  | nil => exact .pure _
  | cons file rest ih => exact .bind determined_readText fun _ => .bind ih fun _ => .pure _

theorem determined_modelType? : Determined Files.Same (modelType? file) := by
  unfold modelType?
  split
  · refine .bind determined_isFile fun there => ?_
    split
    · exact .pure _
    · exact .fail _
  · refine .bind determined_isFile fun there => ?_
    split
    · exact .pure _
    · refine .bind determined_readText fun source => ?_
      split
      · exact .fail _
      · exact .pure _

theorem determined_modelTypes : Determined Files.Same (modelTypes p) := by
  refine .bind determined_sourceFiles fun files => ?_
  induction files with
  | nil => exact .pure _
  | cons file rest ih => exact .bind determined_modelType? fun _ => .bind ih fun _ => .pure _

theorem determined_applyFieldConstants : Determined Files.Same (applyFieldConstants layout) := by
  refine .bind determined_modelTypes fun types => ?_
  split
  · exact .pure _
  · refine .bind determined_allPropertyNames fun names => ?_
    refine .bind determined_writeCompanion fun written => ?_
    exact .bind determined_rewriteAll fun _ => .pure _

/-! ### Runs of patches -/

/-- A patch does the same on files that are the same. -/
theorem Patch.determined_apply : Determined Files.Same (patch.apply layout) := by
  refine .within ?_
  cases patch with
  | discriminators =>
    exact .bind determined_sourceFiles fun _ =>
      determined_changedFiles fun _ => determined_typeDiscriminator
  | enumValues =>
    exact .bind determined_sourceFiles fun _ =>
      determined_changedFiles fun _ => determined_openEnumValue
  | streams => exact .bind determined_sourceFiles fun _ => determined_writeStreams
  | jakartaImports =>
    exact .bind determined_sourceFiles fun _ => .bind determined_sourceFiles fun _ =>
      determined_rewriteAll
  | boxedTypes | dates =>
    exact .bind determined_modelAndResourceFiles fun _ => determined_rewriteAll
  | fileResponses =>
    exact .bind determined_sourceFiles fun _ => .bind determined_filesWhose fun _ =>
      determined_rewriteAll
  | responseDelegate | responseTypes | urlConstants =>
    exact .bind determined_sourceFiles fun _ => determined_rewriteAll
  | fieldConstants => exact determined_applyFieldConstants

/-- The report of a stage without its time. -/
def StageReport.untimed (report : StageReport) : String × StageResult :=
  (report.stage, report.result)

/-- The first patch of a run that succeeds, and the others. -/
theorem applyEach_cons_ok {host host' : Host} {reports : List StageReport}
    (h : exec (applyEach layout (patch :: patches)) host = (.ok reports, host')) :
    ∃ files host₁ others, exec (patch.apply layout) host = (.ok files, host₁) ∧
      exec (applyEach layout patches) host₁ = (.ok others, host') ∧
      reports = ⟨patch.name, host₁.now, patchResult layout files⟩ :: others := by
  rw [applyEach] at h
  obtain ⟨files, host₁, happly, h⟩ := exec_bind_ok h
  rw [exec_bind_of_ok (exec_report ..)] at h
  obtain ⟨others, host₂, hrest, h⟩ := exec_bind_ok h
  obtain ⟨hreports, rfl⟩ := Prod.mk.inj h
  exact ⟨files, host₁, others, happly, hrest, (Except.ok.inj hreports).symm⟩

/-- Patches do the same on files that are the same, and tell the same but for the times. -/
theorem determined_applyEach {a b a' b' : Host} {reports reports' : List StageReport}
    (htwins : Twins Files.Same a b) (ha : exec (applyEach layout patches) a = (.ok reports, a'))
    (hb : exec (applyEach layout patches) b = (.ok reports', b')) :
    reports.map (·.untimed) = reports'.map (·.untimed) ∧ Twins Files.Same a' b' := by
  induction patches generalizing a b reports reports' with
  | nil =>
    obtain ⟨hreports, rfl⟩ := Prod.mk.inj ha
    obtain ⟨hreports', rfl⟩ := Prod.mk.inj hb
    rw [← Except.ok.inj hreports, ← Except.ok.inj hreports']
    exact ⟨rfl, htwins⟩
  | cons patch rest ih =>
    obtain ⟨files, a₁, others, happly, hrest, rfl⟩ := applyEach_cons_ok ha
    obtain ⟨files', b₁, others', happly', hrest', rfl⟩ := applyEach_cons_ok hb
    obtain ⟨rfl, htwins₁⟩ := Patch.determined_apply htwins happly happly'
    obtain ⟨hothers, htwins'⟩ := ih htwins₁ hrest hrest'
    refine ⟨?_, htwins'⟩
    rw [List.map_cons, List.map_cons, hothers]
    rfl

end RamlBuild
