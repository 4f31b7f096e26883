import Mathlib.Data.List.Induction
import RamlBuild.Files.Operation

/-!
# Trees

In a tree whatever stands somewhere stands in a directory. Making an entry in a directory, removing
what has nothing below it and removing a location with all that is below it keep a tree one.

A path is told by the directories and links on its way alone, so files may change under it.

## Main definitions

* `Files.IsTree` — every entry stands in a directory
* `Files.passage` — the directory or the link at a location
* `Files.SamePassages` — the same directories and links

## Main results

* `Files.get?_eraseTree` — entries after a location is removed with all that is below it
* `Files.IsTree.get?_eq_none` — nothing stands below what is no directory
* `Files.IsTree.put`, `Files.IsTree.erase`, `Files.IsTree.eraseTree` — changes that keep a tree
-/

namespace RamlBuild.Files

variable {fs fs' fs'' : Files} {loc l : Location} {e : Entry} {name : String}

/-! ### Entries after a change -/

theorem lookup_filter_key {α β : Type} [BEq α] [LawfulBEq α] (p : α → Bool) (a : α)
    (xs : List (α × β)) :
    (xs.filter (p ·.1)).lookup a = if p a then xs.lookup a else none := by
  induction xs with
  | nil => simp
  | cons x rest ih =>
    obtain ⟨key, value⟩ := x
    by_cases hkey : p key = true
    · simp only [List.filter_cons, if_pos hkey, List.lookup_cons, ih]
      by_cases heq : a = key
      · rw [heq, beq_self_eq_true, hkey]
        rfl
      · rw [beq_false_of_ne heq]
    · simp only [List.filter_cons, if_neg hkey, List.lookup_cons, ih]
      by_cases heq : a = key
      · rw [heq, if_neg hkey, if_neg hkey]
      · rw [beq_false_of_ne heq]

/-- Removing a location with all that is below it leaves the other entries. -/
theorem get?_eraseTree (h : loc ≠ []) :
    (fs.eraseTree loc).get? l = if loc.isPrefixOf l then none else fs.get? l := by
  by_cases hl : l = []
  · subst hl
    have hnot : loc.isPrefixOf ([] : Location) = false := by
      cases loc with
      | nil => contradiction
      | cons => rfl
    simp [hnot]
  · simp only [get?, if_neg hl, eraseTree]
    rw [lookup_filter_key (fun key => !loc.isPrefixOf key) l]
    cases loc.isPrefixOf l <;> rfl

theorem get?_rewriteFile_of_not_shared {contents : ByteArray} {mode : Nat}
    (h : (fs.get? loc).bind Entry.shared? = none) :
    fs.rewriteFile loc contents mode = fs.put loc (.file contents mode none) := by
  simp only [rewriteFile, h]

@[simp] theorem workingDirectory_eraseTree :
    (fs.eraseTree loc).workingDirectory = fs.workingDirectory := rfl

theorem get?_put (h : loc ≠ []) :
    (fs.put loc e).get? l = if l = loc then some e else fs.get? l := by
  by_cases hl : l = loc
  · rw [if_pos hl, hl, get?_put_self h]
  · rw [if_neg hl, get?_put_of_ne hl]

theorem get?_erase (h : loc ≠ []) :
    (fs.erase loc).get? l = if l = loc then none else fs.get? l := by
  by_cases hl : l = loc
  · rw [if_pos hl, hl, get?_erase_self h]
  · rw [if_neg hl, get?_erase_of_ne hl]

theorem ne_nil_of_get?_eq_none (h : fs.get? loc = none) : loc ≠ [] := by
  rintro rfl
  simp at h

/-- Of two entries that are put at one location the second stays. -/
theorem put_put (fs : Files) (loc : Location) (e e' : Entry) :
    (fs.put loc e).put loc e' = fs.put loc e' := by
  simp [put]

/-- What is put where nothing was and then erased leaves the tree as it was. -/
theorem erase_put (h : fs.get? loc = none) : (fs.put loc e).erase loc = fs := by
  have hfree : ∀ x ∈ fs.entries, (x.1 != loc) = true := by
    rw [get?, if_neg (ne_nil_of_get?_eq_none h), List.lookup_eq_none_iff] at h
    intro x hx
    have hne := h x hx
    simp only [ne_eq, bne_iff_ne] at hne ⊢
    exact Ne.symm hne
  have hentries : fs.entries.filter (·.1 != loc) = fs.entries := List.filter_eq_self.2 hfree
  simp [put, erase, hentries]

/-! ### Trees -/

/-- Every entry stands in a directory. -/
def IsTree (fs : Files) : Prop :=
  ∀ loc name e, fs.get? (loc ++ [name]) = some e → ∃ mode, fs.get? loc = some (.directory mode)

/-- What is told of entries by `get?` alone holds of every tree with the same entries. -/
theorem IsTree.congr (h : fs.IsTree) (heq : ∀ l, fs'.get? l = fs.get? l) : fs'.IsTree := by
  intro loc name e he
  rw [heq] at he ⊢
  exact h loc name e he

/-- Nothing stands below what is no directory. -/
theorem IsTree.get?_eq_none (h : fs.IsTree) (hloc : ∀ mode, fs.get? loc ≠ some (.directory mode))
    {names : List String} (hne : names ≠ []) : fs.get? (loc ++ names) = none := by
  induction names using List.reverseRecOn with
  | nil => contradiction
  | append_singleton init name ih =>
    rw [← List.append_assoc]
    cases hget : fs.get? (loc ++ init ++ [name]) with
    | none => rfl
    | some e =>
      obtain ⟨mode, hmode⟩ := h _ _ _ hget
      by_cases hinit : init = []
      · subst hinit
        rw [List.append_nil] at hmode
        exact absurd hmode (hloc mode)
      · rw [ih hinit] at hmode
        contradiction

theorem IsTree.get?_eq_none_of_prefix (h : fs.IsTree) (hloc : fs.get? loc = none)
    (hl : loc.isPrefixOf l = true) : fs.get? l = none := by
  obtain ⟨names, rfl⟩ := List.isPrefixOf_iff_prefix.1 hl
  by_cases hne : names = []
  · rw [hne, List.append_nil, hloc]
  · exact h.get?_eq_none (by simp [hloc]) hne

/-- An entry can be made in a directory where nothing is, or in place of what is no directory. -/
theorem IsTree.put (h : fs.IsTree) {dir : Location} {mode : Nat}
    (hdir : fs.get? dir = some (.directory mode))
    (hfree : ∀ mode, fs.get? (dir ++ [name]) ≠ some (.directory mode)) :
    (fs.put (dir ++ [name]) e).IsTree := by
  have hne : dir ++ [name] ≠ [] := by simp
  intro loc' name' e' he'
  rw [get?_put hne] at he'
  have hparent : ∃ mode, fs.get? loc' = some (.directory mode) := by
    split at he'
    · rename_i heq
      obtain ⟨rfl, -⟩ := List.append_inj' heq rfl
      exact ⟨mode, hdir⟩
    · exact h _ _ _ he'
  obtain ⟨mode', hmode'⟩ := hparent
  have hother : loc' ≠ dir ++ [name] := by
    rintro rfl
    exact hfree mode' hmode'
  exact ⟨mode', by rw [get?_put hne, if_neg hother, hmode']⟩

/-- What is no directory can be removed. -/
theorem IsTree.erase (h : fs.IsTree) (hne : loc ≠ [])
    (hloc : ∀ mode, fs.get? loc ≠ some (.directory mode)) : (fs.erase loc).IsTree := by
  intro loc' name' e' he'
  rw [get?_erase hne] at he'
  split at he'
  · contradiction
  · obtain ⟨mode, hmode⟩ := h _ _ _ he'
    have hother : loc' ≠ loc := by
      rintro rfl
      exact hloc mode hmode
    exact ⟨mode, by rw [get?_erase hne, if_neg hother, hmode]⟩

/-- A location can be removed with all that is below it. -/
theorem IsTree.eraseTree (h : fs.IsTree) (hne : loc ≠ []) : (fs.eraseTree loc).IsTree := by
  intro loc' name' e' he'
  rw [get?_eraseTree hne] at he'
  split at he'
  · contradiction
  · rename_i hnot
    obtain ⟨mode, hmode⟩ := h _ _ _ he'
    have hother : ¬loc.isPrefixOf loc' = true := by
      intro hp
      apply hnot
      rw [List.isPrefixOf_iff_prefix] at hp ⊢
      exact hp.trans (List.prefix_append loc' [name'])
    exact ⟨mode, by rw [get?_eraseTree hne, if_neg hother, hmode]⟩

/-! ### Directories and links -/

/-- The directory or the link at a location. -/
def passage (fs : Files) (loc : Location) : Option Entry :=
  (fs.get? loc).filter (!·.isFile)

/-- The same directories and links at all locations, and the same working directory. -/
structure SamePassages (fs fs' : Files) : Prop where
  passage : ∀ loc, fs'.passage loc = fs.passage loc
  workingDirectory : fs'.workingDirectory = fs.workingDirectory

namespace SamePassages

theorem refl (fs : Files) : SamePassages fs fs := ⟨fun _ => rfl, rfl⟩

theorem symm (h : SamePassages fs fs') : SamePassages fs' fs :=
  ⟨fun loc => (h.passage loc).symm, h.workingDirectory.symm⟩

theorem trans (h : SamePassages fs fs') (h' : SamePassages fs' fs'') : SamePassages fs fs'' :=
  ⟨fun loc => (h'.passage loc).trans (h.passage loc),
    h'.workingDirectory.trans h.workingDirectory⟩

theorem get?_eq (h : SamePassages fs fs') (he : e.isFile = false) (hget : fs.get? loc = some e) :
    fs'.get? loc = some e := by
  have hpassage := h.passage loc
  simp only [Files.passage, hget, Option.filter_some, he, Bool.not_false, if_true] at hpassage
  exact (Option.filter_eq_some_iff.1 hpassage).1

end SamePassages

/-- A file may come where nothing is, or take the place of a file. -/
theorem samePassages_put (hne : loc ≠ []) (he : e.isFile = true)
    (hloc : fs.passage loc = none) : SamePassages fs (fs.put loc e) := by
  refine ⟨?_, rfl⟩
  intro loc'
  by_cases h : loc' = loc
  · subst h
    rw [hloc, passage, get?_put_self hne, Option.filter_some, if_neg (by simp [he])]
  · rw [passage, get?_put_of_ne h, passage]

/-- A file may go. -/
theorem samePassages_erase (hne : loc ≠ []) (hloc : fs.passage loc = none) :
    SamePassages fs (fs.erase loc) := by
  refine ⟨?_, rfl⟩
  intro loc'
  by_cases h : loc' = loc
  · subst h
    rw [hloc, passage, get?_erase_self hne, Option.filter_none]
  · rw [passage, get?_erase_of_ne h, passage]

end RamlBuild.Files
