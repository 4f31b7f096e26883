import RamlBuild.Proofs.Sources.Outputs
import RamlBuild.Sources.Run

/-!
# Stages of a run of patches

A run of patches goes through one stage for each. A stage that succeeds tells exactly what its patch
changed. One that fails ends the run, and leaves files that are whole.

## Main definitions

* `filesAfter` — the files after the first patches of a run
* `Tells` — what the stage of a patch tells about the trees before and after it
* `Whole` — what a patch that failed leaves

## Main results

* `tells_of_runPatches` — what the stages of a run tell
* `whole_of_runPatches` — what a run that fails leaves
-/

namespace RamlBuild

open Build

variable {layout : Layout} {root loc : Location} {host host' : Host} {s : Source} {patch : Patch}
  {patches : List Patch} {before after : Files} {failure : Failure} {stages : List StageReport}

/-! ### Runs and their parts -/

/-- The files after a run of patches. -/
def filesAfter (layout : Layout) (patches : List Patch) (host : Host) : Files :=
  (exec (runPatches layout patches) host).2.files

theorem Patch.writes_apply {result : Except Failure (List Path)}
    (hgen : Generated layout root host.files)
    (h : exec (patch.apply layout) host = (result, host')) :
    patch.Writes layout root host result host' := by
  rw [Patch.apply] at h
  rcases exec_within_cases h with ⟨files, rfl, happly⟩ | ⟨failure, rfl, happly⟩
  · exact writes_applyTo hgen happly
  · obtain ⟨written, hwrote, -⟩ := writes_applyTo hgen happly
    exact ⟨written, hwrote, by simp⟩

/-- A run goes on from where its first patch got, unless that fails. -/
theorem exec_applyEach_cons (layout : Layout) (patch : Patch) (patches : List Patch) (host : Host) :
    exec (applyEach layout (patch :: patches)) host =
      match exec (patch.apply layout) host with
      | (.ok files, host₁) =>
        ((exec (applyEach layout patches) host₁).1.map
            (⟨patch.name, host₁.now, patchResult layout files⟩ :: ·),
          (exec (applyEach layout patches) host₁).2)
      | (.error failure, host₁) => (.error failure, host₁) := by
  rw [applyEach, exec_bind]
  rcases exec (patch.apply layout) host with ⟨result, host₁⟩
  cases result with
  | error failure => rfl
  | ok files =>
    simp only
    rw [exec_bind_of_ok (exec_report _ _ _), bind_pure_comp, exec_map]

/-- What one stage did, of a run that succeeds. -/
theorem exists_apply_of_applyEach (h : exec (applyEach layout patches) host = (.ok stages, host')) :
    stages.length = patches.length ∧ ∀ i (hi : i < patches.length) (hi' : i < stages.length),
      ∃ files host₁ host₂,
        exec (applyEach layout (patches.take i)) host = (.ok (stages.take i), host₁) ∧
        exec (patches[i].apply layout) host₁ = (.ok files, host₂) ∧
        (exec (applyEach layout (patches.take (i + 1))) host).2 = host₂ ∧
        stages[i] = ⟨patches[i].name, host₂.now, patchResult layout files⟩ := by
  induction patches generalizing host stages with
  | nil =>
    obtain ⟨h, -⟩ := Prod.mk.inj h
    rw [← Except.ok.inj h]
    exact ⟨rfl, by simp⟩
  | cons patch rest ih =>
    rw [exec_applyEach_cons] at h
    rcases hfirst : exec (patch.apply layout) host with ⟨result, host₁⟩
    rw [hfirst] at h
    cases result with
    | error failure => exact absurd (Prod.mk.inj h).1 (by simp)
    | ok files =>
      simp only at h
      rcases hrest : exec (applyEach layout rest) host₁ with ⟨others, host₂⟩
      rw [hrest] at h
      cases others with
      | error failure => exact absurd (Prod.mk.inj h).1 (by simp [Except.map])
      | ok others =>
        obtain ⟨hstages, rfl⟩ := Prod.mk.inj h
        rw [← Except.ok.inj hstages]
        obtain ⟨hlength, hothers⟩ := ih hrest
        refine ⟨by simp [hlength], ?_⟩
        intro i hi hi'
        cases i with
        | zero =>
          refine ⟨files, host, host₁, rfl, hfirst, ?_, rfl⟩
          rw [List.take_succ_cons, List.take_zero, exec_applyEach_cons, hfirst]
          rfl
        | succ i =>
          obtain ⟨files', host₃, host₄, hbefore, happly, hafter, hstage⟩ :=
            hothers i (Nat.lt_of_succ_lt_succ hi) (Nat.lt_of_succ_lt_succ hi')
          refine ⟨files', host₃, host₄, ?_, happly, ?_, hstage⟩
          · rw [List.take_succ_cons, exec_applyEach_cons, hfirst, List.take_succ_cons]
            simp only [hbefore]
            rfl
          · rw [List.take_succ_cons, exec_applyEach_cons, hfirst]
            exact hafter

/-- Where a run fails. -/
theorem exists_apply_of_applyEach_error
    (h : exec (applyEach layout patches) host = (.error failure, host')) :
    ∃ i, ∃ hi : i < patches.length, ∃ stages host₁,
      exec (applyEach layout (patches.take i)) host = (.ok stages, host₁) ∧
      exec (patches[i].apply layout) host₁ = (.error failure, host') ∧
      exec (applyEach layout (patches.take (i + 1))) host = (.error failure, host') := by
  induction patches generalizing host with
  | nil => exact absurd (Prod.mk.inj h).1 (by simp)
  | cons patch rest ih =>
    rw [exec_applyEach_cons] at h
    rcases hfirst : exec (patch.apply layout) host with ⟨result, host₁⟩
    rw [hfirst] at h
    cases result with
    | error failure' =>
      obtain ⟨heq, rfl⟩ := Prod.mk.inj h
      obtain rfl := Except.error.inj heq
      refine ⟨0, by simp, [], host, rfl, hfirst, ?_⟩
      rw [List.take_succ_cons, exec_applyEach_cons, hfirst]
    | ok files =>
      simp only at h
      rcases hrest : exec (applyEach layout rest) host₁ with ⟨others, host₂⟩
      rw [hrest] at h
      cases others with
      | ok others => exact absurd (Prod.mk.inj h).1 (by simp [Except.map])
      | error failure' =>
        obtain ⟨heq, rfl⟩ := Prod.mk.inj h
        obtain rfl : failure' = failure := Except.error.inj heq
        obtain ⟨i, hi, stages, host₃, hbefore, happly, hafter⟩ := ih hrest
        refine ⟨i + 1, Nat.succ_lt_succ hi,
          ⟨patch.name, host₁.now, patchResult layout files⟩ :: stages, host₃, ?_, happly, ?_⟩
        · rw [List.take_succ_cons, exec_applyEach_cons, hfirst]
          simp only [hbefore]
          rfl
        · rw [List.take_succ_cons, exec_applyEach_cons, hfirst]
          simp only [hafter]
          rfl

/-- A run over sources that are there is that of its stages. -/
theorem exec_runPatches (layout : Layout) (patches : List Patch) (host : Host) :
    exec (runPatches layout patches) host =
      if host.files.isDirectory layout.root then
        ((exec (applyEach layout patches) host).1.map
            (⟨host.now, (exec (applyEach layout patches) host).2.now, ·⟩),
          (exec (applyEach layout patches) host).2)
      else
        (.error (.told s!"no generated sources under {layout.root}"), host) := by
  have hstages : exec (applyPatches layout patches) host =
      if host.files.isDirectory layout.root then exec (applyEach layout patches) host
      else (.error (.told s!"no generated sources under {layout.root}"), host) := by
    rw [applyPatches, isDirectory, exec_asking_bind]
    split
    · rfl
    · rw [exec_failWith]
  rw [runPatches, exec_summarize, hstages]
  by_cases hdirectory : host.files.isDirectory layout.root = true
  · rw [if_pos hdirectory, if_pos hdirectory]
    rcases exec (applyEach layout patches) host with ⟨result, host₁⟩
    cases result <;> rfl
  · rw [if_neg hdirectory, if_neg hdirectory]

theorem filesAfter_eq (hdirectory : host.files.isDirectory layout.root = true) :
    filesAfter layout patches host = (exec (applyEach layout patches) host).2.files := by
  rw [filesAfter, exec_runPatches, if_pos hdirectory]

/-- A run that succeeds leaves a tree of sources. -/
theorem generated_of_applyEach (hgen : Generated layout root host.files)
    (h : exec (applyEach layout patches) host = (.ok stages, host')) :
    Generated layout root host'.files := by
  induction patches generalizing host stages with
  | nil =>
    obtain ⟨-, rfl⟩ := Prod.mk.inj h
    exact hgen
  | cons patch rest ih =>
    rw [exec_applyEach_cons] at h
    rcases hfirst : exec (patch.apply layout) host with ⟨result, host₁⟩
    rw [hfirst] at h
    cases result with
    | error failure => exact absurd (Prod.mk.inj h).1 (by simp)
    | ok files =>
      obtain ⟨written, -, hok⟩ := Patch.writes_apply hgen hfirst
      rcases hrest : exec (applyEach layout rest) host₁ with ⟨others, host₂⟩
      simp only [hrest] at h
      obtain ⟨hothers, rfl⟩ := Prod.mk.inj h
      cases others with
      | error failure => exact absurd hothers (by simp [Except.map])
      | ok others => exact ih (hok files rfl).2 hrest

/-- Entries that are no sources are as they were, however a run ends. -/
theorem get?_of_applyEach {result : Except Failure (List StageReport)}
    (hgen : Generated layout root host.files) (hloc : ∀ s : Source, loc ≠ s.location root)
    (h : exec (applyEach layout patches) host = (result, host')) :
    host'.files.get? loc = host.files.get? loc := by
  induction patches generalizing host result with
  | nil =>
    obtain ⟨-, rfl⟩ := Prod.mk.inj h
    rfl
  | cons patch rest ih =>
    rw [exec_applyEach_cons] at h
    rcases hfirst : exec (patch.apply layout) host with ⟨result, host₁⟩
    obtain ⟨written, hwrote, hok⟩ := Patch.writes_apply hgen hfirst
    have hget := hwrote.get?_other loc fun s _ => hloc s
    rw [hfirst] at h
    cases result with
    | error failure =>
      obtain ⟨-, rfl⟩ := Prod.mk.inj h
      exact hget
    | ok files =>
      obtain ⟨-, rfl⟩ := Prod.mk.inj h
      rw [ih (hok files rfl).2 rfl, hget]

/-! ### What a stage tells -/

/-- The path of a source from the location of all sources on. -/
def Source.relative (s : Source) : String :=
  "/".intercalate [s.area.name, s.name]

theorem Source.toList_relative (s : Source) :
    s.relative.toList = s.area.name.toList ++ '/' :: s.name.toList := by
  have h : s.relative = s.area.name ++ "/" ++ s.name := rfl
  rw [h, String.toList_append, String.toList_append, List.append_assoc]
  rfl

theorem Source.relative_injective : Function.Injective Source.relative := by
  intro s s' h
  have htext := congrArg String.toList h
  rw [toList_relative, toList_relative] at htext
  have hslash : ∀ area : Area, ∀ c ∈ area.name.toList, (c != '/') = true := by
    intro area c hc
    rw [bne_iff_ne]
    rintro rfl
    exact area.isPlainName.2.2.2 hc
  have harea := Text.eq_of_append_cons_eq (hslash _) (hslash _) (by decide) (by decide) htext
  rw [harea, List.append_cancel_left_eq, List.cons_inj_right] at htext
  exact eq_of_area_of_name (Area.name_injective (String.toList_inj.1 harea))
    (String.toList_inj.1 htext)

/-- A path below another has its text, a slash and the name. -/
theorem text_child_eq {p : Path} {name : String} (hname : IsPlainName name) (hne : p.text ≠ "")
    (hslash : p.endsInSlash = false) :
    (p / name).text.toList = p.text.toList ++ '/' :: name.toList := by
  rcases Path.text_child (p := p) hname with ⟨hempty, -⟩ | ⟨start, hstart | hstart, -, htext⟩
  · contradiction
  · rw [htext, hstart]
  · rw [Path.endsInSlash, hstart, List.getLast?_concat] at hslash
    exact absurd hslash (by simp)

/-- A source is displayed from the root of the layout on. -/
theorem Source.relativeTo_path (s : Source) : (s.path layout).relativeTo layout.root = s.relative := by
  have hgenerated : IsPlainName "generated" := by decide
  have hroot : (s.area.path layout).text.toList =
      layout.root.text.toList ++ '/' :: s.area.name.toList :=
    text_child_eq s.area.isPlainName (Path.text_child_ne_empty hgenerated)
      (Path.endsInSlash_child hgenerated)
  have hpath : (s.path layout).text.toList =
      layout.root.text.toList ++ '/' :: s.relative.toList := by
    rw [path, Area.path, text_child_eq s.isPlainName (Path.text_child_ne_empty s.area.isPlainName)
      (Path.endsInSlash_child s.area.isPlainName), ← Area.path, hroot, toList_relative, List.append_assoc,
      List.cons_append]
  rw [Path.relativeTo, hpath, Text.after?_append]
  simp only
  rw [String.ofList_toList]

/-- What the stage of a patch tells about the trees before and after it, and what it may change. -/
structure Tells (layout : Layout) (root : Location) (patch : Patch) (before after : Files)
    (report : StageReport) : Prop where
  stage_eq : report.stage = patch.name
  /-- The stage is skipped exactly when every file has the bytes that it had. -/
  skipped_iff : (∃ reason, report.result = .skipped reason) ↔
    ∀ loc, after.contentsAt (root ++ loc) = before.contentsAt (root ++ loc)
  /-- Otherwise it tells each file that was created or has other bytes, once. -/
  applied : (∃ loc, after.contentsAt (root ++ loc) ≠ before.contentsAt (root ++ loc)) →
    ∃ files, report.result = .applied files ∧ files.Nodup ∧
      report.result.changedFiles = files.length ∧
      ∀ file, file ∈ files ↔ ∃ loc, file = "/".intercalate loc ∧
        after.contentsAt (root ++ loc) ≠ before.contentsAt (root ++ loc)
  /-- What is not as it was is a source with other bytes, and one of the base classes only where the
  patch is for them. -/
  changed : ∀ loc, after.get? loc ≠ before.get? loc → ∃ s : Source, loc = s.location root ∧
    after.contentsAt loc ≠ before.contentsAt loc ∧
    (s.area = .support → patch = .jakartaImports ∨ patch = .responseDelegate)
  /-- What is new is the stream class beside an implementation, or the class of constants. -/
  created : ∀ s : Source, before.get? (s.location root) = none →
    after.get? (s.location root) ≠ none →
      (patch = .streams ∧ ∃ implementation : Source, implementation.area = .model ∧
        implementation.isImplementation = true ∧ s = implementation.stream ∧
        (before.contentsAt (implementation.location root)).isSome = true) ∨
      (patch = .fieldConstants ∧ s = .jsonField)
  /-- Nothing is deleted. -/
  kept : ∀ loc e, before.get? loc = some e →
    ∃ e', after.get? loc = some e' ∧ (e' = e ∨ e.isFile = true ∧ e'.isFile = true)

theorem changed_iff_of_wrote {output : Source → String → Prop} {written : List Source}
    (h : Wrote output root before after written) (loc : Location) :
    after.contentsAt loc ≠ before.contentsAt loc ↔ ∃ s ∈ written, loc = s.location root := by
  constructor
  · intro hne
    by_contra hnone
    apply hne
    rw [Files.contentsAt, Files.contentsAt, h.get?_other loc fun s hs heq => hnone ⟨s, hs, heq⟩]
  · rintro ⟨s, hs, rfl⟩
    obtain ⟨text, -, hnew, hget⟩ := h.get?_written s hs
    have hafter : after.contentsAt (s.location root) = some text.toUTF8 := by
      rw [Files.contentsAt, hget]
    rw [hafter]
    exact Ne.symm hnew

theorem Patch.Output.area_support {text : String} (h : patch.Output layout root before s text)
    (harea : s.area = .support) : patch = .jakartaImports ∨ patch = .responseDelegate := by
  cases h with
  | rewritten _ hselects =>
    cases patch <;> simp [Patch.selects, harea] at hselects ⊢
  | discriminator h | fieldClass h => exact absurd (h.symm.trans harea) (by decide)
  | stream hs h =>
    rw [hs, Source.area_stream, h] at harea
    exact absurd harea (by decide)
  | fieldUse h => exact absurd ((area_of_mem_typeSources h).symm.trans harea) (by decide)

/-- What is written where nothing was. -/
theorem Patch.Output.of_missing {text : String} (h : patch.Output layout root before s text)
    (hmissing : before.get? (s.location root) = none) :
    (patch = .streams ∧ ∃ implementation : Source, implementation.area = .model ∧
      implementation.isImplementation = true ∧ s = implementation.stream ∧
      (before.contentsAt (implementation.location root)).isSome = true) ∨
    (patch = .fieldConstants ∧ s = .jsonField) := by
  have hnone : before.textOf (s.location root) = none := by
    rw [Files.textOf, hmissing]
  cases h with
  | rewritten hinput => exact absurd (hnone.symm.trans hinput) (by simp)
  | discriminator _ _ hinput => exact absurd (hnone.symm.trans hinput) (by simp)
  | stream hs harea himplementation hfile =>
    exact .inl ⟨rfl, _, harea, himplementation, hs, hfile⟩
  | fieldClass harea hstem => exact .inr ⟨rfl, Source.eq_jsonField harea hstem⟩
  | fieldUse _ _ hinput => exact absurd (hnone.symm.trans hinput) (by simp)

theorem tells_of_writes {files : List Path}
    (h : patch.Writes layout root host (.ok files) host') (time : String) :
    Tells layout root patch host.files host'.files
      ⟨patch.name, time, patchResult layout files⟩ := by
  obtain ⟨written, hwrote, hok⟩ := h
  obtain ⟨rfl, -⟩ := hok files rfl
  have hchanged := changed_iff_of_wrote hwrote
  have hrelative : ∀ loc, host'.files.contentsAt (root ++ loc) ≠ host.files.contentsAt (root ++ loc) ↔
      ∃ s ∈ written, loc = [s.area.name, s.name] := by
    intro loc
    rw [hchanged]
    refine exists_congr fun s => and_congr_right fun _ => ?_
    rw [Source.location, Area.location, List.append_assoc, List.append_right_inj]
    rfl
  have hresult : patchResult layout (written.map (Source.path layout)) =
      if written = [] then .skipped "nothing to change"
      else .applied (written.map Source.relative) := by
    cases written with
    | nil => rfl
    | cons s rest =>
      rw [if_neg (List.cons_ne_nil _ _), List.map_cons, patchResult]
      · simp only [List.map_cons, List.map_map, Function.comp_def, Source.relativeTo_path]
      · exact List.cons_ne_nil _ _
  rw [hresult]
  refine ⟨rfl, ?_, ?_, ?_, ?_, ?_⟩
  · split
    · rename_i hnone
      refine iff_of_true ⟨_, rfl⟩ fun loc => ?_
      by_contra hne
      obtain ⟨s, hs, -⟩ := (hrelative loc).1 hne
      rw [hnone] at hs
      exact absurd hs (by simp)
    · rename_i hsome
      refine iff_of_false (by simp) fun hsame => ?_
      obtain ⟨s, hs⟩ := List.exists_mem_of_ne_nil written hsome
      exact (hrelative _).2 ⟨s, hs, rfl⟩ (hsame _)
  · rintro ⟨loc, hne⟩
    obtain ⟨s, hs, -⟩ := (hrelative loc).1 hne
    rw [if_neg (List.ne_nil_of_mem hs)]
    refine ⟨written.map Source.relative, rfl,
      hwrote.nodup.map Source.relative_injective, rfl, fun file => ?_⟩
    rw [List.mem_map]
    constructor
    · rintro ⟨s', hs', rfl⟩
      exact ⟨[s'.area.name, s'.name], rfl, (hrelative _).2 ⟨s', hs', rfl⟩⟩
    · rintro ⟨loc', rfl, hne'⟩
      obtain ⟨s', hs', rfl⟩ := (hrelative loc').1 hne'
      exact ⟨s', hs', rfl⟩
  · intro loc hne
    have hsource : ∃ s ∈ written, loc = s.location root := by
      by_contra hnone
      exact hne (hwrote.get?_other loc fun s hs heq => hnone ⟨s, hs, heq⟩)
    obtain ⟨s, hs, rfl⟩ := hsource
    obtain ⟨text, houtput, -⟩ := hwrote.get?_written s hs
    exact ⟨s, rfl, (hchanged _).2 ⟨s, hs, rfl⟩, houtput.area_support⟩
  · intro s hmissing hafter
    have hs : s ∈ written := by
      by_contra hs
      exact hafter ((hwrote.get?_of_not_mem hs).trans hmissing)
    obtain ⟨text, houtput, -⟩ := hwrote.get?_written s hs
    exact houtput.of_missing hmissing
  · intro loc e he
    by_cases hsource : ∃ s ∈ written, loc = s.location root
    · obtain ⟨s, hs, rfl⟩ := hsource
      obtain ⟨text, -, -, hget⟩ := hwrote.get?_written s hs
      exact ⟨_, hget, .inr ⟨hwrote.isFile_before s hs e he, rfl⟩⟩
    · refine ⟨e, ?_, .inl rfl⟩
      rw [hwrote.get?_other loc fun s hs heq => hsource ⟨s, hs, heq⟩, he]

theorem isDirectory_of_runPatches {summary : Summary}
    (h : exec (runPatches layout patches) host = (.ok summary, host')) :
    host.files.isDirectory layout.root = true := by
  by_contra hdirectory
  rw [exec_runPatches, if_neg hdirectory] at h
  exact absurd (Prod.mk.inj h).1 (by simp)

/-- The summary of a run that succeeds has one stage for each patch, in order, and the stage of a
patch tells exactly what the patch changed: from the files after the patches before it to those after
it. -/
theorem tells_of_runPatches {summary : Summary} (hgen : Generated layout root host.files)
    (h : exec (runPatches layout patches) host = (.ok summary, host')) :
    summary.stages.length = patches.length ∧
      ∀ i (hi : i < patches.length) (hi' : i < summary.stages.length),
        Tells layout root patches[i] (filesAfter layout (patches.take i) host)
          (filesAfter layout (patches.take (i + 1)) host) summary.stages[i] := by
  have hdirectory := isDirectory_of_runPatches h
  rw [exec_runPatches, if_pos hdirectory] at h
  rcases hrun : exec (applyEach layout patches) host with ⟨stages, host₁⟩
  rw [hrun] at h
  cases stages with
  | error failure => exact absurd (Prod.mk.inj h).1 (by simp [Except.map])
  | ok stages =>
    obtain ⟨hsummary, rfl⟩ := Prod.mk.inj h
    rw [← Except.ok.inj hsummary]
    obtain ⟨hlength, hstages⟩ := exists_apply_of_applyEach hrun
    refine ⟨hlength, fun i hi hi' => ?_⟩
    obtain ⟨files, host₂, host₃, hbefore, happly, hafter, hstage⟩ := hstages i hi hi'
    have hgen₂ := generated_of_applyEach hgen hbefore
    rw [filesAfter_eq hdirectory, filesAfter_eq hdirectory, hbefore, hafter, hstage]
    exact tells_of_writes (Patch.writes_apply hgen₂ happly) host₃.now

/-- A base class, and an interface with a literal discriminator that lacks its implementation. -/
def orderFiles : Files where
  entries :=
    [(["demo"], .directory 0o755), (["demo", "generated"], .directory 0o755),
      (["demo", "generated", "model"], .directory 0o755),
      (["demo", "generated", "model", "Order.java"],
        .file ("public interface Order \x7b\n" ++ discriminatorLiteral ++ "order\";\n\x7d\n").toUTF8
          0o644 none),
      (["demo", "generated", "support"], .directory 0o755),
      (["demo", "generated", "support", "Base.java"],
        .file "import javax.ws.rs.Path;\n".toUTF8 0o644 none)]
  workingDirectory := []

theorem generated_orderFiles : Generated ticketLayout ["demo", "generated"] orderFiles :=
  generated_of_entries (by decide +kernel) (by decide +kernel) (by decide +kernel)
    (by decide +kernel) (by decide +kernel)

/-- What a run over the base class tells: its imports are moved, and there are no enums. -/
def orderSummary : Summary :=
  ⟨"", "", [⟨"jakarta-imports", "", .applied ["support/Base.java"]⟩,
    ⟨"enum-values", "", .skipped "nothing to change"⟩]⟩

theorem tells_of_runPatches_orderFiles :
    orderSummary.stages.length = [Patch.jakartaImports, .enumValues].length ∧
      ∀ i (hi : i < [Patch.jakartaImports, .enumValues].length)
        (hi' : i < orderSummary.stages.length),
        Tells ticketLayout ["demo", "generated"] [Patch.jakartaImports, .enumValues][i]
          (filesAfter ticketLayout ([Patch.jakartaImports, .enumValues].take i)
            (quietHost orderFiles))
          (filesAfter ticketLayout ([Patch.jakartaImports, .enumValues].take (i + 1))
            (quietHost orderFiles))
          orderSummary.stages[i] := by
  have hrun : (exec (runPatches ticketLayout [.jakartaImports, .enumValues])
      (quietHost orderFiles)).1 = .ok orderSummary := by
    decide +kernel
  exact tells_of_runPatches generated_orderFiles (exec_eq_of_fst hrun)

/-! ### What a failure leaves -/

/-- What a patch that failed leaves: each entry is as it was before the patch, or a file that holds
one of the patch's outputs and nothing else. -/
def Whole (layout : Layout) (root : Location) (patch : Patch) (before after : Files) : Prop :=
  ∀ loc, after.get? loc = before.get? loc ∨
    ∃ s text, loc = s.location root ∧ patch.Output layout root before s text ∧
      (∀ e, before.get? loc = some e → e.isFile = true) ∧
      after.get? loc = some (.file text.toUTF8 (before.modeFor loc) none)

theorem whole_of_wrote {written : List Source}
    (h : Wrote (patch.Output layout root before) root before after written) :
    Whole layout root patch before after := by
  intro loc
  by_cases hsource : ∃ s ∈ written, loc = s.location root
  · obtain ⟨s, hs, rfl⟩ := hsource
    obtain ⟨text, houtput, -, hget⟩ := h.get?_written s hs
    exact .inr ⟨s, text, rfl, houtput, h.isFile_before s hs, hget⟩
  · exact .inl (h.get?_other loc fun s hs heq => hsource ⟨s, hs, heq⟩)

/-- The name of a temporary file. -/
def isTemporaryName (name : String) : Bool :=
  Text.startsWith ".forge-" name.toList && Text.endsWith ".tmp" name.toList

theorem Source.location_ne_temporary {dir : Location} {name : String}
    (h : isTemporaryName name = true) (s : Source) : dir ++ [name] ≠ s.location root := by
  intro heq
  obtain ⟨-, hname⟩ := List.append_inj' heq rfl
  rw [List.singleton_inj] at hname
  rw [isTemporaryName, Bool.and_eq_true, hname, Text.endsWith_iff] at h
  have hjava : ".java".toList <:+ s.name.toList := by
    rw [Source.name, sourceName, String.toList_append]
    exact List.suffix_append _ _
  exact absurd (List.suffix_of_suffix_length_le h.2 hjava (by decide)) (by decide)

/-- A run that fails at one of its patches ends there. What the patches before it did stays, and what
that patch leaves are whole files; no temporary file is left. -/
theorem whole_of_runPatches (hgen : Generated layout root host.files)
    (h : exec (runPatches layout patches) host = (.error failure, host')) :
    (host.files.isDirectory layout.root = false ∧ host' = host) ∨
      ∃ i, ∃ hi : i < patches.length,
        (∃ summary, (exec (runPatches layout (patches.take i)) host).1 = .ok summary) ∧
        exec (runPatches layout (patches.take (i + 1))) host = (.error failure, host') ∧
        Whole layout root patches[i] (filesAfter layout (patches.take i) host) host'.files ∧
        ∀ dir name, isTemporaryName name = true →
          host'.files.get? (dir ++ [name]) = host.files.get? (dir ++ [name]) := by
  cases hdirectory : host.files.isDirectory layout.root with
  | false =>
    rw [exec_runPatches, if_neg (by simp [hdirectory])] at h
    exact .inl ⟨rfl, (Prod.mk.inj h).2.symm⟩
  | true =>
    right
    rw [exec_runPatches, if_pos hdirectory] at h
    rcases hrun : exec (applyEach layout patches) host with ⟨stages, host₁⟩
    rw [hrun] at h
    cases stages with
    | ok stages => exact absurd (Prod.mk.inj h).1 (by simp [Except.map])
    | error failure' =>
      obtain ⟨hfailure, rfl⟩ := Prod.mk.inj h
      obtain rfl : failure' = failure := Except.error.inj hfailure
      obtain ⟨i, hi, stages, host₂, hbefore, happly, hfails⟩ := exists_apply_of_applyEach_error hrun
      refine ⟨i, hi, ?_, ?_, ?_, ?_⟩
      · rw [exec_runPatches, if_pos hdirectory, hbefore]
        exact ⟨_, rfl⟩
      · rw [exec_runPatches, if_pos hdirectory, hfails]
        rfl
      · rw [filesAfter_eq hdirectory, hbefore]
        obtain ⟨written, hwrote, -⟩ :=
          Patch.writes_apply (generated_of_applyEach hgen hbefore) happly
        exact whole_of_wrote hwrote
      · intro dir name hname
        exact get?_of_applyEach hgen (Source.location_ne_temporary hname) hrun

/-- The failure of the interface that lacks its implementation. -/
def orderFailure : Failure :=
  ⟨["discriminators pass failed"], .shape (.missingImplementation
    ⟨"/demo/generated/model/Order.java"⟩ ⟨"/demo/generated/model/OrderImpl.java"⟩)⟩

/-- Where the interface lacks its implementation, the base class keeps its new imports. -/
theorem whole_of_runPatches_orderFiles :
    ∃ host', exec (runPatches ticketLayout [.jakartaImports, .discriminators])
        (quietHost orderFiles) = (.error orderFailure, host') ∧
      (((quietHost orderFiles).files.isDirectory ticketLayout.root = false ∧
          host' = quietHost orderFiles) ∨
        ∃ i, ∃ hi : i < [Patch.jakartaImports, .discriminators].length,
          (∃ summary, (exec (runPatches ticketLayout
            ([Patch.jakartaImports, .discriminators].take i)) (quietHost orderFiles)).1 =
              .ok summary) ∧
          exec (runPatches ticketLayout ([Patch.jakartaImports, .discriminators].take (i + 1)))
            (quietHost orderFiles) = (.error orderFailure, host') ∧
          Whole ticketLayout ["demo", "generated"] [Patch.jakartaImports, .discriminators][i]
            (filesAfter ticketLayout ([Patch.jakartaImports, .discriminators].take i)
              (quietHost orderFiles)) host'.files ∧
          ∀ dir name, isTemporaryName name = true →
            host'.files.get? (dir ++ [name]) =
              (quietHost orderFiles).files.get? (dir ++ [name])) := by
  obtain ⟨host', hrun⟩ : ∃ host', exec (runPatches ticketLayout [.jakartaImports, .discriminators])
      (quietHost orderFiles) = (.error orderFailure, host') :=
    ⟨_, exec_eq_of_fst (by decide +kernel)⟩
  exact ⟨host', hrun, whole_of_runPatches generated_orderFiles hrun⟩

end RamlBuild
