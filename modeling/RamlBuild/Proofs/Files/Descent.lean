import RamlBuild.Proofs.Files.Names
import RamlBuild.Proofs.Files.Ways

/-!
# Paths below a directory

A relative path that is joined to another goes on where that one ends. The paths above one that names
lead to from a directory are those of the names before, and then the ones at or above the directory.

## Main results

* `Path.walked_join`, `Path.components_join` — what a joined path denotes
* `Path.walked_descend` — the steps of a path that names lead to
* `Path.parent?_descend`, `Path.ancestors_descends` — the paths above it
-/

namespace RamlBuild

namespace Path

variable {p q : Path} {name : String} {names : List String}

/-! ### Joined paths -/

/-- The pieces of a joined path are those of its parts, up to an empty one between them. -/
theorem splitOn_join (hne : p.text ≠ "") (h : q.isAbsolute = false) :
    ∃ pieces, (p.text.toList.splitOn '/' = pieces ∨ p.text.toList.splitOn '/' = pieces ++ [[]]) ∧
      pieces ≠ [] ∧ (p / q).text.toList.splitOn '/' = pieces ++ q.text.toList.splitOn '/' := by
  rcases text_join (p := p) h with ⟨hempty, -⟩ | ⟨before, hbefore, -, htext⟩
  · contradiction
  · refine ⟨before.splitOn '/', ?_, List.splitOn_ne_nil _ _, ?_⟩
    · rcases hbefore with hbefore | hbefore
      · exact .inl (by rw [hbefore])
      · right
        rw [hbefore, List.splitOn_append_cons_self]
        rfl
    · rw [htext, List.splitOn_append_cons_self]

theorem walked_eq_stepsOf_splitOn (p : Path) : p.walked = stepsOf (p.text.toList.splitOn '/') := rfl

theorem stepsOf_append (pieces others : List (List Char)) :
    stepsOf (pieces ++ others) = stepsOf pieces ++ stepsOf others := by
  rw [stepsOf, List.filter_append, List.map_append]
  rfl

/-- A joined path takes the steps of its parts. -/
theorem walked_join (hne : p.text ≠ "") (h : q.isAbsolute = false) :
    (p / q).walked = p.walked ++ q.walked := by
  obtain ⟨pieces, hpieces, -, hjoin⟩ := splitOn_join hne h
  rw [walked_eq_stepsOf_splitOn, hjoin, stepsOf_append, walked_eq_stepsOf_splitOn,
    walked_eq_stepsOf_splitOn]
  rcases hpieces with hpieces | hpieces
  · rw [hpieces]
  · rw [hpieces, stepsOf_append]
    simp [stepsOf]

theorem isAbsolute_join (hne : p.text ≠ "") (h : q.isAbsolute = false) :
    (p / q).isAbsolute = p.isAbsolute := by
  rcases text_join (p := p) h with ⟨hempty, -⟩ | ⟨before, hbefore, -, htext⟩
  · contradiction
  · have hhead : before ≠ [] ∨ p.text.toList = ['/'] := by
      cases before with
      | nil =>
        rcases hbefore with hbefore | hbefore
        · exact absurd (String.toList_inj.1 hbefore) hne
        · exact .inr hbefore
      | cons => exact .inl (by simp)
    rw [isAbsolute, isAbsolute, htext]
    rcases hhead with hhead | hhead
    · obtain ⟨c, rest, rfl⟩ := List.exists_cons_of_ne_nil hhead
      rcases hbefore with hbefore | hbefore <;> rw [hbefore] <;> rfl
    · rw [hhead]
      rcases hbefore with hbefore | hbefore
      · rw [hhead] at hbefore
        rw [← hbefore]
        rfl
      · rw [hhead] at hbefore
        have : before = [] := by simpa using hbefore.symm
        rw [this]
        rfl

theorem endsInSlash_join (h : q.isAbsolute = false) (hq : q.text ≠ "") :
    (p / q).endsInSlash = q.endsInSlash := by
  have hlast : q.text.toList ≠ [] := fun h' => hq (String.toList_inj.1 h')
  rw [endsInSlash, endsInSlash]
  rcases text_join (p := p) h with ⟨-, htext⟩ | ⟨before, -, -, htext⟩
  · rw [htext]
  · rw [htext, List.getLast?_append, List.getLast?_cons]
    obtain ⟨c, hc⟩ := Option.ne_none_iff_exists'.1 (mt List.getLast?_eq_none_iff.1 hlast)
    rw [hc]
    rfl

theorem steps_join (hne : p.text ≠ "") (h : q.isAbsolute = false) (hq : q.text ≠ "") :
    (p / q).steps = p.walked ++ q.steps := by
  rw [steps_eq, steps_eq, endsInSlash_join h hq, walked_join hne h]
  split
  · rw [List.append_assoc]
  · rfl

/-! ### Components -/

/-- The named components and steps up among pieces. -/
def componentsOf (pieces : List (List Char)) : List Component :=
  (pieces.filter (!isFiller ·)).map componentOf

theorem componentsOf_append (pieces others : List (List Char)) :
    componentsOf (pieces ++ others) = componentsOf pieces ++ componentsOf others := by
  rw [componentsOf, List.filter_append, List.map_append]
  rfl

theorem components_eq_componentsOf (p : Path) :
    p.components = p.body.1.component? ++ componentsOf (p.text.toList.splitOn '/') := by
  have hstart : componentsOf p.body.1.pieces = [] := by
    cases p.body.1 <;> rfl
  rw [splitOn_eq_body, componentsOf_append, hstart, List.nil_append]
  rfl

/-- A joined path starts where its first part does. -/
theorem start_join (hne : p.text ≠ "") (h : q.isAbsolute = false) :
    (p / q).body.1 = p.body.1 := by
  obtain ⟨pieces, hpieces, hnil, hjoin⟩ := splitOn_join hne h
  obtain ⟨first, rest, rfl⟩ := List.exists_cons_of_ne_nil hnil
  have hsplit : ∃ rest, p.text.toList.splitOn '/' = first :: rest := by
    rcases hpieces with hpieces | hpieces
    · exact ⟨rest, hpieces⟩
    · exact ⟨rest ++ [[]], by rw [hpieces, List.cons_append]⟩
  obtain ⟨rest', hsplit⟩ := hsplit
  rw [body, body, hjoin, hsplit, isAbsolute_join hne h]
  simp only [List.cons_append]
  split
  · rfl
  · split <;> rfl

/-- A relative path that is joined to another adds its components, but for a dot at its start. -/
theorem components_join (hne : p.text ≠ "") (h : q.isAbsolute = false) :
    (p / q).components = p.components ++ componentsOf (q.text.toList.splitOn '/') := by
  obtain ⟨pieces, hpieces, -, hjoin⟩ := splitOn_join hne h
  rw [components_eq_componentsOf, components_eq_componentsOf p, start_join hne h, hjoin,
    componentsOf_append, List.append_assoc]
  rcases hpieces with hpieces | hpieces
  · rw [hpieces]
  · rw [hpieces, componentsOf_append, show componentsOf [[]] = [] from rfl, List.append_nil]

/-! ### Names from a directory on -/

theorem descend_concat (p : Path) (names : List String) (name : String) :
    p.descend (names ++ [name]) = p.descend names / name := by
  rw [descend, List.foldl_append]
  rfl

theorem walked_child (h : IsPlainName name) : (p / name).walked = p.walked ++ [.name name] := by
  have hsteps := steps_child (p := p) h
  rwa [steps_eq, endsInSlash_child h, if_neg (by simp)] at hsteps

theorem walked_descend (h : ∀ n ∈ names, IsPlainName n) :
    (p.descend names).walked = p.walked ++ names.map .name := by
  induction names using List.reverseRecOn with
  | nil => simp [descend]
  | append_singleton init n ih =>
    rw [descend_concat, walked_child (h n (by simp)), ih fun n hn => h n (by simp [hn]),
      List.map_append, List.append_assoc]
    rfl

theorem isAbsolute_descend (h : ∀ n ∈ names, IsPlainName n) :
    (p.descend names).isAbsolute = p.isAbsolute := by
  induction names using List.reverseRecOn with
  | nil => rfl
  | append_singleton init n ih =>
    rw [descend_concat, isAbsolute_child (h n (by simp)), ih fun n hn => h n (by simp [hn])]

/-! ### The paths above -/

/-- A path takes the first steps of another. -/
def AtOrAbove (p q : Path) : Prop :=
  q.walked <+: p.walked ∧ q.isAbsolute = p.isAbsolute

theorem stepsOf_trimFiller_prefix (start : Start) (pieces : List (List Char)) :
    stepsOf (start.pieces ++ trimFiller pieces) <+: stepsOf (start.pieces ++ pieces) :=
  prefix_stepsOf ((List.prefix_append_right_inj _).2 (prefix_trimFiller pieces))

/-- The path above that of an entry is the directory's, or takes its first steps. -/
theorem atOrAbove_of_parent?_child (h : IsPlainName name) (hparent : (p / name).parent? = some q) :
    AtOrAbove p q := by
  obtain ⟨start, pieces, hbody⟩ := exists_body_child (p := p) h
  have habsolute : q.isAbsolute = p.isAbsolute := by
    rw [(walked_parent? hparent).2, isAbsolute_child h]
  refine ⟨?_, habsolute⟩
  have hstart : (p / name).body.1 = start := by rw [hbody]
  have hpieces : (p / name).body.2 = pieces ++ [name.toList] := by rw [hbody]
  -- All steps but the last one are those of the directory.
  have hwalked : p.walked = stepsOf (start.pieces ++ pieces) := by
    have hchild := walked_child (p := p) h
    rw [walked_eq_stepsOf, hstart, hpieces, ← List.append_assoc, stepsOf_append] at hchild
    exact ((List.append_inj' hchild (by
      rw [stepsOf, List.length_map, List.filter_cons_of_pos, List.filter_nil]
      · rfl
      · have hne : name.toList ≠ [] := fun h' => h.1 (String.toList_inj.1 h')
        simp [hne])).1).symm
  unfold parent? at hparent
  rw [hbody] at hparent
  simp only [trimFiller_concat h] at hparent
  split at hparent
  · rename_i hnil
    exact absurd hnil (by simp)
  · obtain rfl := Option.some.inj hparent
    rw [List.dropLast_concat, hwalked]
    rw [walked_ofBody]
    · exact stepsOf_trimFiller_prefix start pieces
    · intro piece hpiece
      refine slash_not_mem_body (p := p / name) ?_
      rw [hpieces]
      exact List.mem_append_left _ ((prefix_trimFiller pieces).mem hpiece)

/-- The path above one that names lead to from a directory. -/
theorem parent?_descend (h : ∀ n ∈ names, IsPlainName n) (hname : IsPlainName name)
    (hparent : (p.descend names / name).parent? = some q) :
    names ≠ [] ∧ q = p.descend names ∨ names = [] ∧ AtOrAbove p q := by
  rcases List.eq_nil_or_concat names with rfl | ⟨init, n, rfl⟩
  · exact .inr ⟨rfl, atOrAbove_of_parent?_child hname hparent⟩
  · left
    rw [List.concat_eq_append] at h hparent ⊢
    rw [descend_concat, parent?_child hname (h n (by simp))] at hparent
    rw [descend_concat]
    exact ⟨by simp, (Option.some.inj hparent).symm⟩

/-- What goes on to the path above holds of all paths above. -/
theorem ancestors_induction (good : Path → Prop)
    (hparent : ∀ p q, good p → p.parent? = some q → good q) (hp : good p) (hq : q ∈ p.ancestors) :
    good q := by
  have hupTo : ∀ count p, good p → ∀ q ∈ ancestorsUpTo count p, good q := by
    intro count
    induction count with
    | zero =>
      intro p hp q hq
      rwa [List.mem_singleton.1 hq]
    | succ count ih =>
      intro p hp q hq
      unfold ancestorsUpTo at hq
      split at hq
      · rename_i parent hparent'
        rcases List.mem_cons.1 hq with rfl | hq
        · exact hp
        · exact ih parent (hparent p parent hp hparent') q hq
      · rwa [List.mem_singleton.1 hq]
  exact hupTo _ p hp q hq

/-- A path that is at or above a directory, or that names lead to from it. -/
def Descends (dest q : Path) : Prop :=
  AtOrAbove dest q ∨ ∃ names name, (∀ n ∈ names, IsPlainName n) ∧ IsPlainName name ∧
    q = dest.descend names / name

theorem descends_descend {dest : Path} (h : ∀ n ∈ names, IsPlainName n) :
    Descends dest (dest.descend names) := by
  rcases List.eq_nil_or_concat names with rfl | ⟨init, n, rfl⟩
  · exact .inl ⟨List.prefix_refl _, rfl⟩
  · rw [List.concat_eq_append] at h ⊢
    exact .inr ⟨init, n, fun n hn => h n (by simp [hn]), h n (by simp), descend_concat dest init n⟩

theorem Descends.parent? {dest p q : Path} (h : Descends dest p) (hparent : p.parent? = some q) :
    Descends dest q := by
  rcases h with ⟨hwalked, habsolute⟩ | ⟨names, name, hnames, hname, rfl⟩
  · obtain ⟨hwalked', habsolute'⟩ := walked_parent? hparent
    exact .inl ⟨hwalked'.trans hwalked, habsolute'.trans habsolute⟩
  · rcases parent?_descend hnames hname hparent with ⟨-, rfl⟩ | ⟨-, habove⟩
    · exact descends_descend hnames
    · exact .inl habove

/-- The paths above one that names lead to from a directory. -/
theorem ancestors_descends {dest p q : Path} (h : Descends dest p) (hq : q ∈ p.ancestors) :
    Descends dest q :=
  ancestors_induction (Descends dest) (fun _ _ h hparent => h.parent? hparent) h hq

end Path

end RamlBuild
