import RamlBuild.Proofs.Files.Replace

/-!
# Listing a directory

A listing of a directory has the entries that stand directly in it, each once.

## Main definitions

* `Files.WellFormed` — what every tree of files is like

## Main results

* `Files.mem_children_iff` — what is listed stands in the directory, and what stands there is listed
* `Files.nodup_children` — no name is listed twice
* `Files.list_ok` — the listing of a path
-/

namespace RamlBuild.Files

variable {fs : Files} {loc l : Location} {name : String} {e : Entry} {p : Path}
  {xs : List (Location × Entry)} {x : Location × Entry}

theorem insertEntry_perm (x : Location × Entry) (xs : List (Location × Entry)) :
    (insertEntry x xs).Perm (x :: xs) := by
  induction xs with
  | nil => exact List.Perm.refl _
  | cons y rest ih =>
    rw [insertEntry]
    split
    · exact (ih.cons y).trans (List.Perm.swap x y rest)
    · exact List.Perm.refl _

theorem foldr_insertEntry_perm (xs : List (Location × Entry)) :
    (xs.foldr insertEntry []).Perm xs := by
  induction xs with
  | nil => exact List.Perm.refl _
  | cons x rest ih => exact (insertEntry_perm x _).trans (ih.cons x)

/-- An entry is what its location is looked up as, where no location is told twice. -/
theorem lookup_eq_some_iff (hnodup : (fs.entries.map Prod.fst).Nodup) :
    fs.entries.lookup l = some e ↔ (l, e) ∈ fs.entries := by
  constructor
  · intro hlookup
    obtain ⟨before, after, hentries, -⟩ := List.lookup_eq_some_iff.1 hlookup
    rw [hentries]
    exact List.mem_append_right _ List.mem_cons_self
  · intro hmem
    obtain ⟨before, after, hentries⟩ := List.append_of_mem hmem
    refine List.lookup_eq_some_iff.2 ⟨before, after, hentries, ?_⟩
    -- An entry before it at the same location would be a second one.
    rw [hentries, List.map_append, List.map_cons, List.nodup_append] at hnodup
    intro y hy
    have hne := hnodup.2.2 y.1 (List.mem_map_of_mem hy) l List.mem_cons_self
    simpa using Ne.symm hne

theorem get?_eq_some_iff (hnodup : (fs.entries.map Prod.fst).Nodup) (hne : l ≠ []) :
    fs.get? l = some e ↔ (l, e) ∈ fs.entries := by
  rw [get?, if_neg hne]
  exact lookup_eq_some_iff hnodup

theorem Distinct.get?_eq_some_iff (h : fs.Distinct) (hne : l ≠ []) :
    fs.get? l = some e ↔ (l, e) ∈ fs.entries :=
  Files.get?_eq_some_iff h.1 hne

theorem mem_below_iff {steps : Location} :
    (steps, e) ∈ fs.below loc ↔ steps ≠ [] ∧ (loc ++ steps, e) ∈ fs.entries := by
  rw [below, (foldr_insertEntry_perm _).mem_iff, List.mem_map]
  constructor
  · rintro ⟨⟨l, e'⟩, hmem, heq⟩
    obtain ⟨rfl, rfl⟩ := Prod.mk.inj heq
    obtain ⟨hentry, hinside⟩ := List.mem_filter.1 hmem
    rw [Bool.and_eq_true, List.isPrefixOf_iff_prefix, bne_iff_ne] at hinside
    obtain ⟨⟨steps, rfl⟩, hne⟩ := hinside
    rw [List.drop_left]
    refine ⟨?_, hentry⟩
    rintro rfl
    exact hne (List.append_nil loc)
  · rintro ⟨hne, hentry⟩
    refine ⟨(loc ++ steps, e), List.mem_filter.2 ⟨hentry, ?_⟩, by simp⟩
    rw [Bool.and_eq_true, List.isPrefixOf_iff_prefix, bne_iff_ne]
    exact ⟨List.prefix_append loc steps, by simpa using hne⟩

/-- What is listed stands in the directory, and what stands there is listed. -/
theorem mem_children_iff (hnodup : (fs.entries.map Prod.fst).Nodup) :
    (name, e) ∈ fs.children loc ↔ fs.get? (loc ++ [name]) = some e := by
  have hbelow : (name, e) ∈ fs.children loc ↔ ([name], e) ∈ fs.below loc := by
    rw [children, List.mem_filterMap]
    constructor
    · rintro ⟨⟨steps, e'⟩, hmem, heq⟩
      split at heq
      · rename_i heq'
        obtain ⟨rfl, rfl⟩ := Prod.mk.inj heq'
        obtain ⟨rfl, rfl⟩ := Prod.mk.inj (Option.some.inj heq)
        exact hmem
      · contradiction
    · intro hmem
      exact ⟨_, hmem, rfl⟩
  rw [hbelow, mem_below_iff, get?_eq_some_iff hnodup (by simp)]
  exact and_iff_right (by simp)

/-- No location stands twice among what is below another. -/
theorem pairwise_below (h : fs.Distinct) :
    (fs.below loc).Pairwise fun x y => x.1 ≠ y.1 := by
  rw [below, (foldr_insertEntry_perm _).pairwise_iff (fun h => Ne.symm h), List.pairwise_map]
  have hentries : fs.entries.Pairwise fun x y => x.1 ≠ y.1 := List.pairwise_map.1 h.1
  -- Below one location, what follows it tells locations apart.
  refine (hentries.sublist List.filter_sublist).imp_of_mem ?_
  intro x y hx hy hne heq
  have hstart : ∀ z ∈ fs.entries.filter (fun z => loc.isPrefixOf z.1 && z.1 != loc),
      loc ++ z.1.drop loc.length = z.1 := by
    intro z hz
    have hinside := (List.mem_filter.1 hz).2
    rw [Bool.and_eq_true, List.isPrefixOf_iff_prefix] at hinside
    obtain ⟨steps, hsteps⟩ := hinside.1
    rw [← hsteps, List.drop_left]
  apply hne
  rw [← hstart x hx, ← hstart y hy]
  exact congrArg (loc ++ ·) heq

/-- No name is listed twice. -/
theorem nodup_children (h : fs.Distinct) : ((fs.children loc).map Prod.fst).Nodup := by
  rw [List.Nodup, List.pairwise_map, children, List.pairwise_filterMap]
  refine (pairwise_below h).imp ?_
  rintro ⟨steps, e⟩ ⟨steps', e'⟩ hne entry hentry entry' hentry' heq
  apply hne
  split at hentry
  · rename_i hsteps
    split at hentry'
    · rename_i hsteps'
      obtain rfl := Option.some.inj hentry
      obtain rfl := Option.some.inj hentry'
      have hnames : steps = steps' := by
        rw [(Prod.mk.inj hsteps).1, (Prod.mk.inj hsteps').1]
        exact congrArg (fun name => [name]) heq
      exact hnames
    · contradiction
  · contradiction

/-- A listing is that of the directory that the path leads to. -/
theorem list_ok {entries : List (String × Entry)} (h : fs.list p = .ok entries) :
    ∃ dir mode, fs.resolve p = .ok dir ∧ fs.get? dir = some (.directory mode) ∧
      entries = fs.children dir := by
  unfold list stat at h
  cases hresolve : fs.resolve p with
  | error error =>
    rw [hresolve] at h
    contradiction
  | ok dir =>
    simp only [hresolve, entryAt, bind, Except.bind] at h
    cases hget : fs.get? dir with
    | none =>
      rw [hget] at h
      contradiction
    | some e =>
      rw [hget] at h
      cases e with
      | directory mode =>
        refine ⟨dir, mode, rfl, hget, ?_⟩
        simp only at h
        split at h
        · exact (Except.ok.inj h).symm
        · contradiction
      | file | link => contradiction

/-- All names of entries can be steps of a path. -/
def NamesPlainly (fs : Files) : Prop :=
  ∀ loc name e, fs.get? (loc ++ [name]) = some e → IsPlainName name

/-- What every tree of files is like. -/
structure WellFormed (fs : Files) : Prop where
  /-- Every entry stands in a directory. -/
  isTree : fs.IsTree
  /-- No location has two entries. -/
  distinct : fs.Distinct
  /-- All names can be steps of a path. -/
  namesPlainly : fs.NamesPlainly

/-- Every entry stands in a directory by a plain name, and no location has two entries. That is less
than to be well-formed: the root may be told as well. -/
structure Tidy (fs : Files) : Prop where
  isTree : fs.IsTree
  nodup : (fs.entries.map Prod.fst).Nodup
  namesPlainly : fs.NamesPlainly

theorem WellFormed.tidy (h : fs.WellFormed) : fs.Tidy :=
  ⟨h.isTree, h.distinct.1, h.namesPlainly⟩

/-- Trees that are given by their entries are well-formed, if these say so. -/
theorem wellFormed_of_entries (hnodup : (fs.entries.map Prod.fst).Nodup)
    (hentries : fs.entries.all (fun x => (fs.get? x.1.dropLast).any Entry.isDirectory &&
      x.1.getLast?.any fun name => decide (IsPlainName name)) = true) : fs.WellFormed := by
  have hroot : [] ∉ fs.entries.map Prod.fst := by
    intro hmem
    obtain ⟨x, hx, hnil⟩ := List.mem_map.1 hmem
    have := List.all_eq_true.1 hentries x hx
    rw [hnil] at this
    simp at this
  have hget : ∀ loc name e, fs.get? (loc ++ [name]) = some e →
      (fs.get? loc).any Entry.isDirectory = true ∧ IsPlainName name := by
    intro loc name e hget
    have hmem := (Distinct.get?_eq_some_iff ⟨hnodup, hroot⟩ (by simp)).1 hget
    have hall := List.all_eq_true.1 hentries _ hmem
    rw [List.dropLast_concat, List.getLast?_concat, Bool.and_eq_true] at hall
    exact ⟨hall.1, of_decide_eq_true hall.2⟩
  refine ⟨?_, ⟨hnodup, hroot⟩, fun loc name e h => (hget loc name e h).2⟩
  intro loc name e h
  have hdirectory := (hget loc name e h).1
  cases hloc : fs.get? loc with
  | none =>
    rw [hloc] at hdirectory
    contradiction
  | some e' =>
    rw [hloc] at hdirectory
    cases e' with
    | directory mode => exact ⟨mode, rfl⟩
    | file | link => contradiction

end RamlBuild.Files
