import RamlBuild.Proofs.Files.Descent
import RamlBuild.Proofs.Text.Search

/-!
# Joined paths and paths of the same components

Paths can be joined in any order: what is joined first does not matter. A relative text without dots
adds the names between its slashes, both to the components of a path and to its steps.

Two paths of the same components may be written differently: steps that stay where they are tell
nothing. Such a step can only be missed at the end of a path, where it asks for a directory.

## Main definitions

* `Path.namesIn` — the names between the slashes of a text
* `Restepped` — steps that differ by steps that stay where they are

## Main results

* `Path.join_assoc`, `Path.join_descend` — joining is associative
* `Path.walked_join_names`, `Path.components_join_names` — what a text without dots adds
* `Files.walk_of_restepped` — they lead to the same location
* `Files.reach_of_sameAs` — paths of the same components do
-/

/-! ## Joining paths -/

namespace RamlBuild.Path

variable {p q : Path} {text name : String}

/-! ### The order of joining -/

/-- What is put between a path and a relative one that is joined to it. -/
def separator (text : List Char) : List Char :=
  if text.isEmpty || text.getLast? == some '/' then [] else ['/']

theorem toList_join (h : q.isAbsolute = false) :
    (p / q).text.toList = p.text.toList ++ separator p.text.toList ++ q.text.toList := by
  have hjoin : p / q = if p.text.isEmpty || p.text.toList.getLast? == some '/' then
      ⟨p.text ++ q.text⟩ else ⟨p.text ++ "/" ++ q.text⟩ := by
    change p.join q = _
    rw [join, if_neg (by simp [h])]
  have hempty : p.text.toList.isEmpty = p.text.isEmpty := by
    rw [Bool.eq_iff_iff, List.isEmpty_iff, String.isEmpty_iff, ← String.toList_inj]
    rfl
  rw [hjoin, separator, hempty]
  split <;> simp

theorem separator_append {text rest : List Char} (h : rest ≠ []) :
    separator (text ++ rest) = separator rest := by
  rw [separator, separator, List.getLast?_append, List.getLast?_eq_some_getLast h, Option.some_or]
  simp [h]

/-- Behind what is put between, nothing more is put. -/
theorem separator_append_separator (text : List Char) : separator (text ++ separator text) = [] := by
  by_cases h : (text.isEmpty || text.getLast? == some '/') = true
  · rw [show separator text = [] from if_pos h, List.append_nil]
    exact if_pos h
  · rw [show separator text = ['/'] from if_neg h]
    simp [separator]

theorem join_of_empty (h : p.text = "") : p / q = q := by
  by_cases hq : q.isAbsolute
  · exact join_of_isAbsolute hq
  · rw [Bool.not_eq_true] at hq
    have htext := toList_join (p := p) hq
    rw [h] at htext
    exact eq_mk_of_toList htext

theorem isAbsolute_join_of_relative (h : q.isAbsolute = false) :
    (p / q).isAbsolute = p.isAbsolute := by
  by_cases hp : p.text = ""
  · rw [join_of_empty hp, h, isAbsolute, hp]
    rfl
  · exact isAbsolute_join hp h

/-- Joining is associative. -/
theorem join_assoc (p q r : Path) : p / (q / r) = p / q / r := by
  by_cases hr : r.isAbsolute = true
  · have habsolute : ∀ base : Path, base / r = r := fun base => join_of_isAbsolute hr
    rw [habsolute, habsolute, habsolute]
  · rw [Bool.not_eq_true] at hr
    by_cases hq : q.isAbsolute = true
    · have hpq : p / q = q := join_of_isAbsolute hq
      rw [hpq]
      exact join_of_isAbsolute (by rw [isAbsolute_join_of_relative hr, hq])
    · rw [Bool.not_eq_true] at hq
      change p / (q / r) = ⟨(p / q / r).text⟩
      refine eq_mk_of_toList ?_
      rw [toList_join (by rw [isAbsolute_join_of_relative hr, hq]), toList_join hr, toList_join hr,
        toList_join hq]
      -- An empty path in the middle adds the separator that the one behind it would add.
      by_cases hempty : q.text.toList = []
      · rw [hempty, List.append_nil, separator_append_separator]
        simp [separator]
      · rw [separator_append hempty]
        simp only [List.append_assoc]

theorem join_descend (p q : Path) (names : List String) :
    p / q.descend names = (p / q).descend names := by
  induction names generalizing q with
  | nil => rfl
  | cons name rest ih =>
    change p / (q / name).descend rest = (p / q / name).descend rest
    rw [ih]
    exact congrArg (descend · rest) (join_assoc p q ⟨name⟩)

theorem isAbsolute_descend_of_isAbsolute (h : p.isAbsolute = true) (names : List String) :
    (p.descend names).isAbsolute = true := by
  induction names generalizing p with
  | nil => exact h
  | cons name rest ih =>
    refine ih (p := p / name) ?_
    by_cases hname : (⟨name⟩ : Path).isAbsolute = true
    · exact (congrArg isAbsolute (join_of_isAbsolute hname)).trans hname
    · rw [Bool.not_eq_true] at hname
      exact (isAbsolute_join_of_relative hname).trans h

/-- A name that is an absolute path leads away from where the path starts. -/
theorem isAbsolute_descend_of_mem {names : List String} (hmem : name ∈ names)
    (h : (⟨name⟩ : Path).isAbsolute = true) : (p.descend names).isAbsolute = true := by
  obtain ⟨before, after, rfl⟩ := List.append_of_mem hmem
  rw [descend, List.foldl_append, List.foldl_cons]
  refine isAbsolute_descend_of_isAbsolute ?_ after
  exact (congrArg isAbsolute (join_of_isAbsolute h)).trans h

/-! ### Names between slashes -/

/-- The names between the slashes of a text. -/
def namesIn (text : String) : List String :=
  (piecesOf text.toList).map String.ofList

/-- Without a dot, every name between slashes can be a step of a path. -/
theorem isPlainName_of_mem_namesIn (hdot : '.' ∉ text.toList) (h : name ∈ namesIn text) :
    IsPlainName name := by
  obtain ⟨piece, hpiece, rfl⟩ := List.mem_map.1 h
  obtain ⟨hsplit, hne⟩ := List.mem_filter.1 hpiece
  have hpiecedot : '.' ∉ piece := fun hmem =>
    hdot ((Text.infix_of_mem_splitOn hsplit).subset hmem)
  refine ⟨?_, ?_, ?_, ?_⟩
  · intro hempty
    rw [← String.toList_inj, String.toList_ofList] at hempty
    rw [hempty] at hne
    contradiction
  · intro heq
    rw [← String.toList_inj, String.toList_ofList] at heq
    exact hpiecedot (by rw [heq]; decide)
  · intro heq
    rw [← String.toList_inj, String.toList_ofList] at heq
    exact hpiecedot (by rw [heq]; decide)
  · rw [String.toList_ofList]
    exact Text.not_mem_of_mem_splitOn hsplit

theorem walked_eq_map_namesIn (hdot : '.' ∉ text.toList) :
    (⟨text⟩ : Path).walked = (namesIn text).map .name := by
  rw [namesIn, List.map_map]
  apply List.map_congr_left
  intro piece hpiece
  have hplain := isPlainName_of_mem_namesIn hdot (List.mem_map_of_mem hpiece)
  have := stepOf_toList hplain
  rwa [String.toList_ofList] at this

theorem componentsOf_splitOn (hdot : '.' ∉ text.toList) :
    componentsOf (text.toList.splitOn '/') = (namesIn text).map .name := by
  have hfiller : (text.toList.splitOn '/').filter (!isFiller ·) = piecesOf text.toList := by
    apply List.filter_congr
    intro piece hpiece
    have hne : piece ≠ ['.'] := by
      rintro rfl
      exact hdot ((Text.infix_of_mem_splitOn hpiece).subset List.mem_cons_self)
    simp [isFiller, hne]
  rw [componentsOf, hfiller, namesIn, List.map_map]
  apply List.map_congr_left
  intro piece hpiece
  have hplain := isPlainName_of_mem_namesIn hdot (List.mem_map_of_mem hpiece)
  have := componentOf_toList hplain
  rwa [String.toList_ofList] at this

/-- A relative text without dots starts with no component of its own. -/
theorem component?_start (hdot : '.' ∉ text.toList) (h : (⟨text⟩ : Path).isAbsolute = false) :
    (⟨text⟩ : Path).body.1.component? = [] := by
  have habsolute := isAbsolute_eq_body ⟨text⟩
  have hsplit := splitOn_eq_body ⟨text⟩
  cases hbody : (⟨text⟩ : Path).body.1 with
  | root =>
    rw [h, hbody] at habsolute
    contradiction
  | dot =>
    rw [hbody] at hsplit
    have hmem : ['.'] ∈ text.toList.splitOn '/' := hsplit ▸ List.mem_cons_self
    exact absurd ((Text.infix_of_mem_splitOn hmem).subset List.mem_cons_self) hdot
  | bare => rfl

/-- A relative text without dots takes the steps to the names in it. -/
theorem walked_join_names (hdot : '.' ∉ text.toList) (h : (⟨text⟩ : Path).isAbsolute = false) :
    (p / text).walked = p.walked ++ (namesIn text).map .name := by
  change (p / (⟨text⟩ : Path)).walked = _
  rw [← walked_eq_map_namesIn hdot]
  by_cases hp : p.text = ""
  · have hwalked : p.walked = [] := by
      rw [walked, hp]
      rfl
    rw [join_of_empty hp, hwalked, List.nil_append]
  · exact walked_join hp h

/-- A relative text without dots adds the names in it. -/
theorem components_join_names (hdot : '.' ∉ text.toList)
    (h : (⟨text⟩ : Path).isAbsolute = false) :
    (p / text).components = p.components ++ (namesIn text).map .name := by
  change (p / (⟨text⟩ : Path)).components = _
  rw [← componentsOf_splitOn hdot]
  by_cases hp : p.text = ""
  · have hcomponents : p.components = [] := by
      have hempty : p = ⟨""⟩ := eq_mk_of_toList (by rw [hp])
      rw [hempty]
      rfl
    rw [join_of_empty hp, hcomponents, components_eq_componentsOf, component?_start hdot h]
  · exact components_join hp h

end RamlBuild.Path

/-! ## Paths of the same components -/

namespace RamlBuild

/-- Steps out of which others come when steps that stay where they are are left out or put in; they
are put in before another step only. -/
inductive Restepped : List Step → List Step → Prop where
  | nil : Restepped [] []
  | same {steps others : List Step} (step : Step) (h : Restepped steps others) :
      Restepped (step :: steps) (step :: others)
  | leave {steps others : List Step} (h : Restepped steps others) :
      Restepped (.here :: steps) others
  | put {steps others : List Step} {step : Step} (hstep : step ≠ .inside)
      (h : Restepped steps (step :: others)) : Restepped steps (.here :: step :: others)

namespace Restepped

variable {steps others : List Step}

theorem eq_nil (h : Restepped steps others) (hsteps : steps = []) : others = [] := by
  induction h with
  | nil => rfl
  | same => contradiction
  | leave => contradiction
  | put _ _ ih => exact absurd (ih hsteps) (by simp)

theorem append_left (h : Restepped steps others) (first : List Step) :
    Restepped (first ++ steps) (first ++ others) := by
  induction first with
  | nil => exact h
  | cons step rest ih => exact ih.same step

theorem of_filter_nil (h : steps.filter (· ≠ .here) = []) : Restepped steps [] := by
  induction steps with
  | nil => exact .nil
  | cons step rest ih =>
    rw [List.filter_eq_nil_iff] at h
    obtain rfl : step = .here := by simpa using h step List.mem_cons_self
    exact .leave (ih (List.filter_eq_nil_iff.2 fun step hstep => h step (List.mem_cons_of_mem _ hstep)))

/-- Steps that are the same but for those that stay come out of one another. -/
theorem of_filter (h : steps.filter (· ≠ .here) = others.filter (· ≠ .here))
    (hinside : .inside ∉ others) (hlast : others.getLast? ≠ some .here) :
    Restepped steps others := by
  induction others generalizing steps with
  | nil => exact of_filter_nil h
  | cons other rest ih =>
    have hrest : .inside ∉ rest := fun hmem => hinside (List.mem_cons_of_mem _ hmem)
    by_cases hhere : other = .here
    · subst hhere
      cases rest with
      | nil => exact absurd rfl hlast
      | cons next rest =>
        refine .put ?_ (ih ?_ hrest ?_)
        · rintro rfl
          exact hrest List.mem_cons_self
        · rw [h]
          simp
        · rwa [List.getLast?_cons_cons] at hlast
    · rw [List.filter_cons_of_pos (by simpa using hhere)] at h
      have hlast' : rest.getLast? ≠ some .here := by
        cases rest with
        | nil => simp
        | cons next rest => rwa [List.getLast?_cons_cons] at hlast
      -- What stays is left out up to the same step.
      induction steps with
      | nil => contradiction
      | cons step steps ih' =>
        by_cases hstep : step = .here
        · subst hstep
          rw [List.filter_cons_of_neg (by simp)] at h
          exact .leave (ih' h)
        · rw [List.filter_cons_of_pos (by simpa using hstep)] at h
          obtain ⟨rfl, htail⟩ := List.cons.inj h
          exact .same step (ih htail hrest hlast')

end Restepped

/-- The step that a component asks for. Where a path starts is no step. -/
def Component.step : Component → Step
  | .root | .current => .here
  | .parent => .up
  | .name text => .name text

namespace Path

variable {p q : Path} {pieces : List (List Char)}

theorem step_componentOf {piece : List Char} (h : piece ≠ ['.']) :
    (componentOf piece).step = stepOf piece := by
  rw [componentOf, stepOf, if_neg h]
  split <;> rfl

theorem stepOf_eq_here_iff {piece : List Char} : stepOf piece = .here ↔ piece = ['.'] := by
  rw [stepOf]
  split
  · simpa
  · split <;> simp_all

theorem filter_stepsOf (pieces : List (List Char)) :
    (stepsOf pieces).filter (· ≠ .here) = (componentsOf pieces).map Component.step := by
  rw [stepsOf, componentsOf, List.filter_map, List.filter_filter, List.map_map]
  have hfilter : pieces.filter (fun piece => (decide (stepOf piece ≠ .here)) && !piece.isEmpty) =
      pieces.filter (!isFiller ·) := by
    apply List.filter_congr
    intro piece _
    rw [isFiller, Bool.not_or, Bool.and_comm]
    simp only [ne_eq, stepOf_eq_here_iff, decide_not]
  change (pieces.filter (fun piece => (decide (stepOf piece ≠ .here)) && !piece.isEmpty)).map stepOf = _
  rw [hfilter]
  apply List.map_congr_left
  intro piece hpiece
  have hne := (List.mem_filter.1 hpiece).2
  refine (step_componentOf ?_).symm
  rintro rfl
  simp [isFiller] at hne

/-- The components tell all steps but those that stay. -/
theorem filter_walked (p : Path) :
    p.walked.filter (· ≠ .here) = (p.components.map Component.step).filter (· ≠ .here) := by
  have hstart : (p.body.1.component?.map Component.step).filter (· ≠ .here) = [] := by
    cases p.body.1 <;> rfl
  have hcomponents : ((componentsOf (p.text.toList.splitOn '/')).map Component.step).filter
      (· ≠ .here) = (componentsOf (p.text.toList.splitOn '/')).map Component.step := by
    rw [← filter_stepsOf, List.filter_filter]
    simp
  rw [components_eq_componentsOf, List.map_append, List.filter_append, hstart, List.nil_append,
    hcomponents, walked_eq_stepsOf_splitOn, filter_stepsOf]

theorem isAbsolute_iff_root_mem : p.isAbsolute = true ↔ .root ∈ p.components := by
  have hroot : Component.root ∉ componentsOf (p.text.toList.splitOn '/') := by
    intro hmem
    obtain ⟨piece, -, hpiece⟩ := List.mem_map.1 hmem
    rw [componentOf] at hpiece
    split at hpiece <;> contradiction
  rw [components_eq_componentsOf, List.mem_append, or_iff_left hroot, isAbsolute_eq_body,
    decide_eq_true_iff]
  cases p.body.1 <;> simp [Start.component?]

theorem isAbsolute_eq_of_sameAs (h : p.sameAs q = true) : p.isAbsolute = q.isAbsolute := by
  rw [Bool.eq_iff_iff, isAbsolute_iff_root_mem, isAbsolute_iff_root_mem, of_decide_eq_true h]

theorem inside_not_mem_walked (p : Path) : .inside ∉ p.walked := by
  intro hmem
  obtain ⟨piece, -, hpiece⟩ := List.mem_map.1 hmem
  rw [stepOf] at hpiece
  split at hpiece
  · contradiction
  · split at hpiece <;> contradiction

theorem sameAs_comm (p q : Path) : p.sameAs q = q.sameAs p := by
  rw [sameAs, sameAs, decide_eq_decide]
  exact eq_comm

/-- The name of a path's last component can be a step. -/
theorem isPlainName_of_fileName? {name : String} (h : p.fileName? = some name) :
    IsPlainName name := by
  have hmem : .name name ∈ p.components := by
    rw [fileName?] at h
    split at h
    · rename_i n hlast
      exact Option.some.inj h ▸ List.mem_of_getLast? hlast
    · contradiction
  have hstart : .name name ∉ p.body.1.component? := by cases p.body.1 <;> simp [Start.component?]
  rw [components_eq_componentsOf, List.mem_append, or_iff_right hstart] at hmem
  obtain ⟨piece, hpiece, hname⟩ := List.mem_map.1 hmem
  obtain ⟨hsplit, hfiller⟩ := List.mem_filter.1 hpiece
  have hslash : '/' ∉ piece := Text.not_mem_of_mem_splitOn hsplit
  rw [componentOf] at hname
  split at hname
  · contradiction
  · rename_i hup
    obtain rfl := Component.name.inj hname
    have hneither : piece ≠ [] ∧ piece ≠ ['.'] := by simpa [isFiller] using hfiller
    refine ⟨?_, ?_, ?_, by rwa [String.toList_ofList]⟩
    · exact fun h => hneither.1 (by rw [← String.toList_ofList (l := piece), h]; rfl)
    · exact fun h => hneither.2 (by rw [← String.toList_ofList (l := piece), h]; rfl)
    · exact fun h => hup (by rw [← String.toList_ofList (l := piece), h]; rfl)

/-- The steps of a path come out of those of another one of the same components, unless it ends in
a step that stays. -/
theorem restepped_of_sameAs (h : p.sameAs q = true) (hlast : q.walked.getLast? ≠ some .here) :
    Restepped p.walked q.walked := by
  refine .of_filter ?_ (inside_not_mem_walked q) hlast
  rw [filter_walked, filter_walked, of_decide_eq_true h]

end Path

namespace Files

variable {fs : Files} {links : Nat} {loc l : Location} {steps others : List Step} {p q : Path}
  {beyond beyond' : Location → List Step → Except IoError Location}

theorem walkUpTo_of_restepped (h : Restepped steps others)
    (hbeyond : ∀ loc steps others l, Restepped steps others → beyond loc steps = .ok l →
      beyond' loc others = .ok l)
    (hwalk : fs.walkUpTo true beyond loc steps = .ok l) :
    fs.walkUpTo true beyond' loc others = .ok l := by
  induction h generalizing loc with
  | nil => exact hwalk
  | @same steps others step h ih =>
    obtain ⟨mode, hget, henter⟩ := exists_directory_of_walkUpTo hwalk
    rw [walkUpTo_of_entered hget henter] at hwalk ⊢
    cases step with
    | inside => exact ih hwalk
    | here => exact ih hwalk
    | up => exact ih hwalk
    | name n =>
      simp only [walkStep] at hwalk ⊢
      split at hwalk
      · contradiction
      · rename_i hlong
        rw [if_neg hlong]
        unfold walkName at hwalk ⊢
        split at hwalk
        · -- Where nothing is no more steps follow, in either way to write them.
          split at hwalk
          · rename_i hempty
            rw [if_pos (by rw [h.eq_nil (by simpa using hempty)]; rfl)]
            exact hwalk
          · contradiction
        · simp only [Bool.not_true, Bool.and_false, Bool.false_eq_true, if_false] at hwalk ⊢
          exact hbeyond _ _ _ _ (h.append_left _) hwalk
        · exact ih hwalk
  | leave h ih =>
    obtain ⟨mode, hget, henter⟩ := exists_directory_of_walkUpTo hwalk
    rw [walkUpTo_of_entered hget henter] at hwalk
    exact ih hwalk
  | @put steps others step hstep h ih =>
    have hwalk' := ih hwalk
    obtain ⟨mode, hget, henter⟩ := exists_directory_of_walkUpTo hwalk'
    rw [walkUpTo_of_entered hget]
    · exact hwalk'
    · have hne : (step != .inside) = true := by simpa using hstep
      rw [hne] at henter
      exact henter

/-- Steps that come out of others lead to the same location. -/
theorem walk_of_restepped (h : Restepped steps others)
    (hwalk : fs.walk true links loc steps = .ok l) : fs.walk true links loc others = .ok l := by
  induction links generalizing loc steps others l with
  | zero => exact walkUpTo_of_restepped h (by simp) hwalk
  | succ links ih => exact walkUpTo_of_restepped h (fun _ _ _ _ => ih) hwalk

/-- Paths of the same components lead to the same location. -/
theorem reach_of_sameAs (h : p.sameAs q = true) (hlast : q.walked.getLast? ≠ some .here)
    (hreach : fs.reach p = .ok l) : fs.reach q = .ok l := by
  rw [reach, start] at hreach ⊢
  rw [← Path.isAbsolute_eq_of_sameAs h]
  exact walk_of_restepped (Path.restepped_of_sameAs h hlast) hreach

end Files

end RamlBuild
