import Mathlib.Data.Prod.Lex
import Mathlib.Data.String.Basic
import RamlBuild.Proofs.Files.Alike
import RamlBuild.Proofs.Files.Beside

/-!
# The order of a walk

Paths are ordered by their components, one after the other, and names by their characters. Their
texts have another order: a slash comes after a dot, the end of a name before it.

What is below a directory is listed depth first, the entries of each directory by name. Along such a
listing the paths that lead to the entries are in the order of their components.

## Main definitions

* `Path.Precedes` — the order of paths

## Main results

* `Path.precedes_or_sameAs_or_precedes` — paths are in order, unless they have the same components
* `Files.below_eq_flatMap_children` — what is below a directory is listed depth first
* `Path.precedes_descend_iff` — names that lead on from a path keep their order
-/

namespace RamlBuild

/-! ### The order of paths -/

/-- What a component is ordered by. The root comes first, then a step that stays, then one up, and
then the names in the order of their characters. -/
def Component.key : Component → ℕ ×ₗ String
  | .root => toLex (0, "")
  | .current => toLex (1, "")
  | .parent => toLex (2, "")
  | .name text => toLex (3, text)

theorem Component.key_injective : Function.Injective Component.key := by
  intro c d h
  cases c <;> cases d <;> simp_all [Component.key]

namespace Path

variable {p q r : Path} {name : String} {names others : List String}

/-- A path comes before another: their first components that differ are in order, or the other one
goes on where it ends. -/
def Precedes (p q : Path) : Prop :=
  p.components.map Component.key < q.components.map Component.key

instance : DecidableRel Precedes := fun p q =>
  inferInstanceAs (Decidable (p.components.map Component.key < q.components.map Component.key))

theorem Precedes.irrefl (p : Path) : ¬p.Precedes p :=
  lt_irrefl _

theorem Precedes.trans (h : p.Precedes q) (h' : q.Precedes r) : p.Precedes r :=
  lt_trans h h'

theorem precedes_or_sameAs_or_precedes (p q : Path) :
    p.Precedes q ∨ p.sameAs q = true ∨ q.Precedes p := by
  rcases lt_trichotomy (p.components.map Component.key) (q.components.map Component.key) with
    h | h | h
  · exact .inl h
  · exact .inr (.inl (decide_eq_true (List.map_injective_iff.2 Component.key_injective h)))
  · exact .inr (.inr h)

/-! ### Paths that names lead to -/

theorem body_of_isPlainName (h : IsPlainName name) :
    (⟨name⟩ : Path).body = (.bare, [name.toList]) := by
  have hdot : name.toList ≠ ['.'] := fun h' => h.2.1 (String.toList_inj.1 h')
  rw [body, List.splitOn_eq_singleton h.2.2.2]
  simp only
  rw [if_neg (by simp [not_isAbsolute_of_isPlainName h]), if_neg hdot]

theorem components_of_isPlainName (h : IsPlainName name) :
    (⟨name⟩ : Path).components = [.name name] := by
  rw [components, body_of_isPlainName h]
  simp [Start.component?, not_isFiller h, componentOf_toList h]

theorem components_child (h : IsPlainName name) :
    (p / name).components = p.components ++ [.name name] := by
  by_cases hp : p.text = ""
  · obtain rfl : p = ⟨""⟩ := eq_mk_of_toList (by rw [hp])
    rw [show (⟨""⟩ : Path) / name = ⟨name⟩ from join_of_empty rfl, components_of_isPlainName h]
    rfl
  · have hname : componentsOf (name.toList.splitOn '/') = [.name name] := by
      rw [List.splitOn_eq_singleton h.2.2.2]
      simp [componentsOf, not_isFiller h, componentOf_toList h]
    exact (components_join hp (not_isAbsolute_of_isPlainName h)).trans (congrArg _ hname)

theorem components_descend (h : ∀ n ∈ names, IsPlainName n) :
    (p.descend names).components = p.components ++ names.map .name := by
  induction names using List.reverseRecOn with
  | nil => simp [descend]
  | append_singleton init n ih =>
    rw [descend_concat, components_child (h n (by simp)), ih fun n hn => h n (by simp [hn]),
      List.map_append, List.append_assoc]
    rfl

theorem map_key_lt_iff : (names.map Component.name).map Component.key <
    (others.map Component.name).map Component.key ↔ Location.precedes names others = true := by
  rw [Location.precedes, decide_eq_true_eq]
  induction names generalizing others with
  | nil => cases others <;> simp
  | cons name rest ih =>
    cases others with
    | nil => simp
    | cons other more =>
      have hkey : Component.key (.name name) < Component.key (.name other) ↔
          name.toList < other.toList := by
        rw [← String.lt_iff_toList_lt]
        simp [Component.key, Prod.Lex.toLex_lt_toLex]
      simp only [List.map_cons, List.cons_lt_cons_iff, ih, hkey, String.toList_inj,
        Component.key_injective.eq_iff, Component.name.injEq]

/-- Names that lead on from a path keep their order. -/
theorem precedes_descend_iff (h : ∀ n ∈ names, IsPlainName n) (h' : ∀ n ∈ others, IsPlainName n) :
    (p.descend names).Precedes (p.descend others) ↔ Location.precedes names others = true := by
  have hmono : StrictMono (p.components.map Component.key ++ ·) := fun _ _ => List.append_left_lt
  rw [Precedes, components_descend h, components_descend h', List.map_append, List.map_append,
    ← map_key_lt_iff]
  exact hmono.lt_iff_lt

/-! ### The name of a directory -/

/-- The component that a step stands for, if it leads anywhere. -/
def stepComponent? : Step → Option Component
  | .inside | .here => none
  | .up => some .parent
  | .name text => some (.name text)

theorem componentsOf_eq_filterMap (pieces : List (List Char)) :
    componentsOf pieces = (stepsOf pieces).filterMap stepComponent? := by
  induction pieces with
  | nil => rfl
  | cons piece rest ih =>
    rw [← List.singleton_append, componentsOf_append, stepsOf_append, List.filterMap_append, ih]
    congr 1
    by_cases hempty : piece = []
    · rw [hempty]
      rfl
    · by_cases hdot : piece = ['.']
      · rw [hdot]
        rfl
      · by_cases hdots : piece = ['.', '.'] <;>
          simp [componentsOf, stepsOf, isFiller, stepOf, componentOf, stepComponent?, *]

/-- The name that a path ends in is that of the last step that leads anywhere. -/
theorem fileName?_eq_walked (p : Path) : p.fileName? =
    match (p.walked.filterMap stepComponent?).getLast? with
    | some (.name n) => some n
    | _ => none := by
  rw [fileName?, components_eq_componentsOf, componentsOf_eq_filterMap, ← walked_eq_stepsOf_splitOn,
    List.getLast?_append]
  cases (p.walked.filterMap stepComponent?).getLast? with
  | some c => rfl
  | none => cases p.body.1 <;> rfl

/-- The path above an entry ends in the name that the path of the directory ends in. -/
theorem exists_parent?_child_fileName? (h : IsPlainName name) :
    ∃ q, (p / name).parent? = some q ∧ q.fileName? = p.fileName? := by
  by_cases hp : p.text = ""
  · obtain rfl : p = ⟨""⟩ := eq_mk_of_toList (by rw [hp])
    refine ⟨⟨""⟩, ?_, rfl⟩
    have htrim : trimFiller [name.toList] = [name.toList] := trimFiller_concat h []
    rw [show (⟨""⟩ : Path) / name = ⟨name⟩ from join_of_empty rfl, parent?, body_of_isPlainName h]
    simp only [htrim]
    rfl
  · obtain ⟨q, filler, hparent, -, hwalked, hfiller, -⟩ := exists_parent?_child hp h
    have hnothing : filler.filterMap stepComponent? = [] := by
      rw [List.filterMap_eq_nil_iff]
      intro step hstep
      rw [hfiller step hstep]
      rfl
    refine ⟨q, hparent, ?_⟩
    rw [fileName?_eq_walked, fileName?_eq_walked, hwalked, List.filterMap_append, hnothing,
      List.append_nil]

/-- The end of a name comes before every character, also before those that a slash comes after. -/
example : (⟨"a/target"⟩ : Path).Precedes ⟨"a.b/target"⟩ ∧ "a.b/target" < "a/target" := by
  decide +kernel

end Path

/-! ### The order of a listing -/

namespace Files

variable {fs : Files} {loc : Location} {xs ys : List (Location × Entry)}

theorem precedes_eq_true_iff {names others : Location} :
    Location.precedes names others = true ↔ names.map String.toList < others.map String.toList := by
  rw [Location.precedes, decide_eq_true_eq]

/-- What is below a location is listed in order, each entry once. -/
theorem pairwise_below_lt (h : fs.Distinct) :
    (fs.below loc).Pairwise fun x y => Location.precedes x.1 y.1 = true := by
  refine ((pairwise_below_precedes fs loc).and (pairwise_below h)).imp ?_
  rintro ⟨names, e⟩ ⟨others, e'⟩ ⟨hle, hne⟩
  rw [Location.precedes, decide_eq_false_iff_not, not_lt] at hle
  rw [precedes_eq_true_iff]
  refine lt_of_le_of_ne hle fun heq => hne ?_
  exact List.map_injective_iff.2 (fun _ _ => String.toList_inj.1) heq

/-- The entries of a directory are listed by name. -/
theorem pairwise_children_lt (h : fs.Distinct) :
    (fs.children loc).Pairwise fun x y => x.1.toList < y.1.toList := by
  rw [children, List.pairwise_filterMap]
  refine (pairwise_below_lt h).imp ?_
  rintro ⟨names, e⟩ ⟨others, e'⟩ hlt x hx y hy
  split at hx
  · rename_i hnames
    split at hy
    · rename_i hothers
      obtain rfl := Option.some.inj hx
      obtain rfl := Option.some.inj hy
      rw [(Prod.mk.inj hnames).1, (Prod.mk.inj hothers).1, precedes_eq_true_iff] at hlt
      exact (List.cons_lt_cons_iff.1 hlt).resolve_right fun h => List.not_lt_nil _ h.2
    · contradiction
  · contradiction

/-- There is one way to list entries in order. -/
theorem eq_of_pairwise_precedes (hxs : xs.Pairwise fun x y => Location.precedes x.1 y.1 = true)
    (hys : ys.Pairwise fun x y => Location.precedes x.1 y.1 = true)
    (hmem : ∀ x, x ∈ xs ↔ x ∈ ys) : xs = ys := by
  have hirrefl : ∀ x y : Location × Entry, Location.precedes x.1 y.1 = true → x ≠ y := by
    rintro x y h rfl
    exact lt_irrefl _ (precedes_eq_true_iff.1 h)
  refine ((List.perm_ext_iff_of_nodup (hxs.imp (hirrefl _ _)) (hys.imp (hirrefl _ _))).2
    hmem).eq_of_pairwise ?_ hxs hys
  intro x y _ _ h h'
  exact absurd (precedes_eq_true_iff.1 h') (lt_asymm (precedes_eq_true_iff.1 h))

theorem Distinct.mem_below_iff {names : Location} {e : Entry} (h : fs.Distinct) :
    (names, e) ∈ fs.below loc ↔ names ≠ [] ∧ fs.get? (loc ++ names) = some e := by
  rw [Files.mem_below_iff]
  exact and_congr_right fun hne => (h.get?_eq_some_iff (by simp [hne])).symm

/-- An entry of a directory with its name, and what is below it with the names from the directory on. -/
def branch (fs : Files) (loc : Location) (child : String × Entry) : List (Location × Entry) :=
  ([child.1], child.2) :: (fs.below (loc ++ [child.1])).map fun x => (child.1 :: x.1, x.2)

theorem exists_of_mem_branch {child : String × Entry} {x : Location × Entry}
    (h : x ∈ fs.branch loc child) : ∃ rest, x.1 = child.1 :: rest := by
  rcases List.mem_cons.1 h with rfl | h
  · exact ⟨[], rfl⟩
  · obtain ⟨y, -, rfl⟩ := List.mem_map.1 h
    exact ⟨y.1, rfl⟩

theorem pairwise_branch (h : fs.Distinct) (child : String × Entry) :
    (fs.branch loc child).Pairwise fun x y => Location.precedes x.1 y.1 = true := by
  refine List.pairwise_cons.2 ⟨fun x hx => ?_, List.pairwise_map.2 ?_⟩
  · obtain ⟨⟨names, e⟩, hmem, rfl⟩ := List.mem_map.1 hx
    obtain ⟨name, rest, rfl⟩ := List.exists_cons_of_ne_nil (h.mem_below_iff.1 hmem).1
    rw [precedes_eq_true_iff]
    exact List.cons_lt_cons_iff.2 (.inr ⟨rfl, List.nil_lt_cons _ _⟩)
  · refine (pairwise_below_lt h).imp fun hlt => ?_
    rw [precedes_eq_true_iff] at hlt ⊢
    exact List.cons_lt_cons_iff.2 (.inr ⟨rfl, hlt⟩)

theorem mem_branch_iff {child : String × Entry} {names : Location} {e : Entry} (h : fs.Distinct)
    (hchild : fs.get? (loc ++ [child.1]) = some child.2) : (names, e) ∈ fs.branch loc child ↔
      names.head? = some child.1 ∧ fs.get? (loc ++ names) = some e := by
  constructor
  · intro hmem
    rcases List.mem_cons.1 hmem with heq | hmem
    · obtain ⟨rfl, rfl⟩ := Prod.mk.inj heq
      exact ⟨rfl, hchild⟩
    · obtain ⟨⟨rest, e'⟩, hbelow, heq⟩ := List.mem_map.1 hmem
      obtain ⟨rfl, rfl⟩ := Prod.mk.inj heq
      refine ⟨rfl, ?_⟩
      have hget := (h.mem_below_iff.1 hbelow).2
      rwa [List.append_assoc] at hget
  · rintro ⟨hhead, hget⟩
    obtain ⟨rest, rfl⟩ := List.head?_eq_some_iff.1 hhead
    by_cases hrest : rest = []
    · subst hrest
      obtain rfl := Option.some.inj (hchild.symm.trans hget)
      exact List.mem_cons_self
    · refine List.mem_cons_of_mem _ (List.mem_map.2 ⟨(rest, e), h.mem_below_iff.2 ⟨hrest, ?_⟩, rfl⟩)
      rwa [List.append_assoc]

/-- What is below a directory is listed depth first: each of its entries, by name, is followed by
what is below that. -/
theorem below_eq_flatMap_children (h : fs.WellFormed) (loc : Location) :
    fs.below loc = (fs.children loc).flatMap (fs.branch loc) := by
  have hchildren : ∀ child : String × Entry,
      child ∈ fs.children loc ↔ fs.get? (loc ++ [child.1]) = some child.2 :=
    fun _ => mem_children_iff h.distinct.1
  refine eq_of_pairwise_precedes (pairwise_below_lt h.distinct) ?_ fun ⟨names, e⟩ => ?_
  · refine List.pairwise_flatMap.2 ⟨fun child _ => pairwise_branch h.distinct child, ?_⟩
    -- Between branches, the names of their entries decide.
    refine (pairwise_children_lt h.distinct).imp fun hlt x hx y hy => ?_
    obtain ⟨rest, hrest⟩ := exists_of_mem_branch hx
    obtain ⟨rest', hrest'⟩ := exists_of_mem_branch hy
    rw [precedes_eq_true_iff, hrest, hrest']
    exact List.cons_lt_cons_iff.2 (.inl hlt)
  · rw [h.distinct.mem_below_iff, List.mem_flatMap]
    constructor
    · rintro ⟨hne, hget⟩
      obtain ⟨name, rest, rfl⟩ := List.exists_cons_of_ne_nil hne
      -- The entry stands in the one that the first name leads to.
      have hsome : fs.get? (loc ++ [name]) ≠ none := by
        intro hnone
        have hprefix : (loc ++ [name]).isPrefixOf (loc ++ name :: rest) = true :=
          List.isPrefixOf_iff_prefix.2 ⟨rest, by simp⟩
        rw [h.isTree.get?_eq_none_of_prefix hnone hprefix] at hget
        contradiction
      obtain ⟨e', he'⟩ := Option.ne_none_iff_exists'.1 hsome
      exact ⟨(name, e'), (hchildren _).2 he', (mem_branch_iff h.distinct he').2 ⟨rfl, hget⟩⟩
    · rintro ⟨child, hchild, hmem⟩
      obtain ⟨hhead, hget⟩ := (mem_branch_iff h.distinct ((hchildren _).1 hchild)).1 hmem
      refine ⟨?_, hget⟩
      rintro rfl
      contradiction

end Files

end RamlBuild
