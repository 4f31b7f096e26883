import RamlBuild.Proofs.Files.Inside
import RamlBuild.Proofs.Files.Descent
import RamlBuild.Proofs.Files.Listing

/-!
# Plain names

The names on the way of a path are those of its steps, so whatever is made by a path has a plain
name. The absolute path of a location with plain names leads there.

## Main results

* `Files.isPlainName_of_locate` — the name of what a path leads to and is free
* `Build.namesPlainly_createDirectories` — directories that are made have plain names
* `Files.reach_path` — the path of a location
-/

namespace RamlBuild

namespace Path

variable {p : Path} {n : String}

/-- The names among the steps of a path are plain. -/
theorem isPlainName_of_mem_steps (h : Step.name n ∈ p.steps) : IsPlainName n := by
  have hwalked : Step.name n ∈ p.walked := by
    rw [steps_eq] at h
    split at h
    · rcases List.mem_append.1 h with h | h
      · exact h
      · simp at h
    · exact h
  obtain ⟨piece, hpiece, hstep⟩ := List.mem_map.1 hwalked
  obtain ⟨hmem, hne⟩ := List.mem_filter.1 hpiece
  have hslash := Text.not_mem_of_mem_splitOn hmem
  unfold stepOf at hstep
  split at hstep
  · contradiction
  rename_i hdot
  split at hstep
  · contradiction
  rename_i hdots
  obtain rfl := Step.name.inj hstep
  have hofList : ∀ {text : String}, String.ofList piece = text → piece = text.toList := by
    rintro text rfl
    rw [String.toList_ofList]
  refine ⟨fun h => ?_, fun h => hdot (hofList h), fun h => hdots (hofList h), ?_⟩
  · rw [hofList h] at hne
    contradiction
  · rwa [String.toList_ofList]

end Path

/-- The steps of a location's absolute path are its names. -/
theorem Location.walked_path {loc : Location} (h : ∀ n ∈ loc, IsPlainName n) :
    loc.path.walked = loc.map .name := by
  have htext : loc.path.text.toList = '/' :: ['/'].intercalate (loc.map String.toList) := by
    rw [Location.path, String.toList_append, String.toList_intercalate]
    rfl
  rw [Path.walked_eq_stepsOf_splitOn, htext]
  have hpieces : Path.stepsOf (loc.map String.toList) = loc.map .name := by
    clear htext
    induction loc with
    | nil => rfl
    | cons n rest ih =>
      have hn := h n List.mem_cons_self
      have hne : n.toList ≠ [] := fun h' => hn.1 (String.toList_inj.1 h')
      rw [List.map_cons, Path.stepsOf, List.filter_cons_of_pos (by simp [hne]), List.map_cons,
        Path.stepOf_toList hn, List.map_cons, ← ih fun n hn => h n (List.mem_cons_of_mem _ hn)]
      rfl
  rw [List.splitOn_cons_eq_if_modifyHead, if_pos (by simp)]
  cases loc with
  | nil => rfl
  | cons n rest =>
    rw [List.splitOn_intercalate '/' _ (by simp)]
    · exact hpieces
    · intro piece hpiece
      obtain ⟨n', hn', rfl⟩ := List.mem_map.1 hpiece
      exact (h n' hn').2.2.2

namespace Files

variable {fs : Files} {follow : Bool} {links : Nat} {loc l : Location} {steps : List Step} {p : Path}
  {beyond : Location → List Step → Except IoError Location}

/-- The names among steps are plain. -/
def GoPlainly (steps : List Step) : Prop :=
  ∀ n, Step.name n ∈ steps → IsPlainName n

theorem goPlainly_steps (p : Path) : GoPlainly p.steps :=
  fun _ h => Path.isPlainName_of_mem_steps h

theorem goPlainly_append {rest : List Step} (h : GoPlainly steps) (h' : GoPlainly rest) :
    GoPlainly (steps ++ rest) :=
  fun n hn => (List.mem_append.1 hn).elim (h n) (h' n)

theorem exists_plain_of_walkUpTo (htree : fs.IsTree)
    (hbeyond : ∀ loc steps, GoPlainly steps → (fs.get? loc).isSome → beyond loc steps = .ok l →
      ∃ dir n, l = dir ++ [n] ∧ IsPlainName n)
    (hfree : fs.get? l = none) (hstart : fs.get? loc = none → steps ≠ [])
    (hplain : GoPlainly steps) (hwalk : fs.walkUpTo follow beyond loc steps = .ok l) :
    ∃ dir n, l = dir ++ [n] ∧ IsPlainName n := by
  induction steps generalizing loc with
  | nil =>
    obtain rfl : loc = l := by simpa using hwalk
    exact absurd rfl (hstart hfree)
  | cons step rest ih =>
    have hrest : GoPlainly rest := fun n hn => hplain n (List.mem_cons_of_mem _ hn)
    obtain ⟨mode, hget, henter⟩ := exists_directory_of_walkUpTo hwalk
    rw [walkUpTo_of_entered hget henter] at hwalk
    cases step with
    | inside => exact ih (by simp [hget]) hrest hwalk
    | here => exact ih (by simp [hget]) hrest hwalk
    | up =>
      refine ih ?_ hrest hwalk
      -- The directory above a directory is there.
      intro hnone
      rcases List.eq_nil_or_concat loc with rfl | ⟨init, name, rfl⟩
      · simp at hnone
      · rw [List.concat_eq_append] at hget hnone
        obtain ⟨mode', hmode'⟩ := htree init name _ hget
        rw [List.dropLast_concat, hmode'] at hnone
        contradiction
    | name n =>
      simp only [walkStep] at hwalk
      split at hwalk
      · contradiction
      · unfold walkName at hwalk
        split at hwalk
        · split at hwalk
          · exact ⟨loc, n, by simpa [eq_comm] using hwalk, hplain n List.mem_cons_self⟩
          · contradiction
        · rename_i target hlink
          split at hwalk
          · obtain rfl : loc ++ [n] = l := by simpa using hwalk
            rw [hlink] at hfree
            contradiction
          · refine hbeyond _ _ (goPlainly_append (goPlainly_steps target) hrest) ?_ hwalk
            split
            · simp
            · simp [hget]
        · rename_i hentry
          exact ih (by simp [hentry]) hrest hwalk

theorem exists_plain_of_walk (htree : fs.IsTree) (hfree : fs.get? l = none)
    (hstart : fs.get? loc = none → steps ≠ []) (hplain : GoPlainly steps)
    (hwalk : fs.walk follow links loc steps = .ok l) : ∃ dir n, l = dir ++ [n] ∧ IsPlainName n := by
  induction links generalizing loc steps with
  | zero => exact exists_plain_of_walkUpTo htree (by simp) hfree hstart hplain hwalk
  | succ links ih =>
    refine exists_plain_of_walkUpTo htree ?_ hfree hstart hplain hwalk
    intro loc' steps' hplain' hsome hwalk'
    refine ih ?_ hplain' hwalk'
    intro hnone
    rw [hnone] at hsome
    contradiction

/-- What is free at the end of a path has a plain name. -/
theorem isPlainName_of_locate (htree : fs.IsTree) (hfree : fs.get? l = none)
    (h : fs.locate follow p = .ok l) : ∃ dir n, l = dir ++ [n] ∧ IsPlainName n := by
  have hp := requirePath_of_locate h
  rw [locate_eq hp] at h
  exact exists_plain_of_walk htree hfree
    (fun _ => Path.steps_ne_nil (text_ne_empty_of_requirePath hp)) (goPlainly_steps p) h

/-- The names of a location where something is are plain when all names are. -/
theorem NamesPlainly.of_isSome (h : fs.NamesPlainly) (htree : fs.IsTree)
    (hsome : (fs.get? loc).isSome) : ∀ n ∈ loc, IsPlainName n := by
  induction loc using List.reverseRecOn with
  | nil => simp
  | append_singleton init name ih =>
    obtain ⟨e, he⟩ := Option.isSome_iff_exists.1 hsome
    obtain ⟨mode, hmode⟩ := htree init name e he
    intro n hn
    rcases List.mem_append.1 hn with hn | hn
    · exact ih (by rw [hmode]; rfl) n hn
    · obtain rfl := List.mem_singleton.1 hn
      exact h init n e he

/-- Everything above a directory is a directory. -/
theorem IsTree.directory_of_prefix (htree : fs.IsTree) {mode : Nat}
    (hdir : fs.get? loc = some (.directory mode)) (hl : l <+: loc) :
    ∃ mode, fs.get? l = some (.directory mode) := by
  obtain ⟨names, rfl⟩ := hl
  induction names using List.reverseRecOn generalizing mode with
  | nil => exact ⟨mode, by rwa [List.append_nil] at hdir⟩
  | append_singleton init name ih =>
    rw [← List.append_assoc] at hdir
    obtain ⟨mode', hmode'⟩ := htree _ _ _ hdir
    exact ih hmode'

/-- The absolute path of a directory leads there. -/
theorem reach_path (htree : fs.IsTree) (hplain : ∀ n ∈ loc, IsPlainName n) {mode : Nat}
    (hdir : fs.get? loc = some (.directory mode)) (hreach : fs.reach loc.path = .ok l) : l = loc := by
  have hstart : fs.start loc.path = [] := by
    rw [start, if_pos]
    rw [Path.isAbsolute, Location.path, String.toList_append]
    rfl
  rw [reach, hstart, Location.walked_path hplain, ← List.nil_append (loc.map _)] at hreach
  by_cases hnil : loc = []
  · subst hnil
    exact (Except.ok.inj hreach).symm
  have hnames : namesOf (loc.map .name) = loc := by
    rw [namesOf, List.filterMap_map]
    exact List.filterMap_some
  have hl : l = [] ++ namesOf (loc.map .name) := by
    refine walk_of_clearTo ?_ htree ?_ (by simpa using hnil) ?_ hreach
    · intro d mode hd _
      exact (Except.ok.inj hd).symm
    · intro step hstep
      obtain ⟨n, -, rfl⟩ := List.mem_map.1 hstep
      exact .inr ⟨n, rfl⟩
    · rw [hnames]
      intro init hinit _
      obtain ⟨mode', hmode'⟩ := htree.directory_of_prefix hdir hinit
      rw [List.nil_append]
      exact linkAt_of_directory hmode'
  rw [hl, hnames, List.nil_append]

end Files

namespace Build

variable {p : Path} {activity : String}

/-- All names stay plain. -/
def KeepsPlain (host host' : Host) : Prop :=
  host.files.IsTree → host.files.NamesPlainly → host'.files.IsTree ∧ host'.files.NamesPlainly

theorem chains_keepsPlain : Chains KeepsPlain where
  refl _ := fun htree hplain => ⟨htree, hplain⟩
  trans h h' := fun htree hplain =>
    let ⟨htree', hplain'⟩ := h htree hplain
    h' htree' hplain'

theorem keepsPlain_createDirectory :
    Always KeepsPlain (changing activity (·.createDirectory p)) := by
  intro host result host' h htree hplain
  refine ⟨(createDirectory_makes h).1.isTree htree, ?_⟩
  cases result with
  | error failure =>
    rw [(changing_error h).1]
    exact hplain
  | ok =>
    obtain ⟨hop, -⟩ := changing_ok h
    obtain ⟨l, hplace, hfree, hput⟩ := Files.createDirectory_ok hop
    obtain ⟨dir, n, rfl, hn⟩ := Files.isPlainName_of_locate htree hfree hplace
    intro loc name e he
    rw [hput, Files.get?_put (by simp)] at he
    split at he
    · rename_i heq
      obtain ⟨-, hname⟩ := List.append_inj' heq rfl
      rw [List.singleton_inj.1 hname]
      exact hn
    · exact hplain loc name e he

/-- Directories that are made by a path have plain names. -/
theorem namesPlainly_createDirectories : Always KeepsPlain (createDirectories p) :=
  always_makeDirectories chains_keepsPlain fun _ _ => keepsPlain_createDirectory

end Build

end RamlBuild
