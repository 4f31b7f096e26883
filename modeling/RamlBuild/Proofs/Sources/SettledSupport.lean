import RamlBuild.Proofs.Sources.SettledResources

/-!
# Base classes whose lines are settled

The base classes have their imports moved, and the response delegate is opened besides. A member that
was made public is not hidden any more, and it is no import, so neither patch has anything left to do
on what both leave.

## Main results

* `patchImports_again` — imports that have moved stay
* `patchImports_patchResponseDelegate`, `patchResponseDelegate_again` — so do members that were opened
-/

namespace RamlBuild

open Text ResponseClass

variable {line new out : Line} {ls : List Line} {source : String}

/-! ### Members that were made public -/

theorem exists_of_widen? (h : widen? line = some new) :
    ∃ blanks modifier rest, Blank blanks ∧ modifier ∈ hidingModifiers ∧
      line = blanks ++ (modifier ++ rest) ∧ new = blanks ++ ("public ".toList ++ rest) := by
  obtain ⟨rest, hrest, rfl⟩ := Option.map_eq_some_iff.1 h
  obtain ⟨modifier, hmodifier, htrim⟩ := afterHidingModifier?_eq_some_iff.1 hrest
  refine ⟨line.takeWhile isBlank, modifier, rest, fun c => List.mem_takeWhile_imp, hmodifier, ?_,
    List.append_assoc ..⟩
  rw [← htrim]
  exact List.takeWhile_append_dropWhile.symm

/-- A line as it stands among the members that are opened. -/
def openMember (line : Line) : Line :=
  (widen? line).getD line

theorem trimStart_public_append {blanks rest : Line} (hblanks : Blank blanks) :
    trimStart (blanks ++ ("public ".toList ++ rest)) = "public ".toList ++ rest :=
  trimStart_append hblanks (by decide)

theorem openMember_cases (line : Line) :
    widen? line = none ∧ openMember line = line ∨
      ∃ blanks modifier rest, Blank blanks ∧ modifier ∈ hidingModifiers ∧
        line = blanks ++ (modifier ++ rest) ∧
        openMember line = blanks ++ ("public ".toList ++ rest) := by
  unfold openMember
  cases hwiden : widen? line with
  | none => exact .inl ⟨rfl, rfl⟩
  | some new => exact .inr (exists_of_widen? hwiden)

/-- A member that was opened is not opened again. -/
theorem widen?_openMember (line : Line) : widen? (openMember line) = none := by
  obtain ⟨hnone, heq⟩ | ⟨blanks, modifier, rest, hblanks, -, -, heq⟩ := openMember_cases line
  · rw [heq, hnone]
  rw [heq, widen?, trimStart_public_append hblanks, Option.map_eq_none_iff, Option.eq_none_iff_forall_ne_some]
  intro rest' hrest
  obtain ⟨modifier', hmodifier', heq⟩ := afterHidingModifier?_eq_some_iff.1 hrest
  obtain ⟨word, rfl⟩ := head?_of_mem_hidingModifiers hmodifier'
  exact absurd (List.cons.inj (List.cons.inj heq).2).1 (by decide)

theorem openMember_again (line : Line) : openMember (openMember line) = openMember line := by
  rw [openMember, widen?_openMember, Option.getD_none]

/-- Overridden methods are told behind the modifier. -/
theorem override_infix_iff {start rest : Line} (hstart : '@' ∉ start) :
    "@Override".toList <:+: start ++ rest ↔ "@Override".toList <:+: rest := by
  constructor
  · rintro ⟨before, after, heq⟩
    rw [show before ++ "@Override".toList ++ after = before ++ '@' :: ("Override".toList ++ after) by simp]
      at heq
    rcases List.append_eq_append_iff.1 heq with ⟨_ | ⟨c, more⟩, rfl, hafter⟩ | ⟨more, rfl, hafter⟩
    · exact ⟨[], after, by simpa using hafter⟩
    · obtain ⟨rfl, -⟩ := List.cons.inj hafter
      exact absurd hstart (by simp)
    · exact ⟨more, after, by simp [hafter]⟩
  · exact fun h => h.trans (List.suffix_append start rest).isInfix

theorem at_not_mem_of_hidden {blanks modifier : Line} (hblanks : Blank blanks)
    (hmodifier : modifier ∈ hidingModifiers) : '@' ∉ blanks ++ modifier := by
  rw [List.mem_append, not_or]
  refine ⟨hblanks.not_mem (by decide), ?_⟩
  rcases List.mem_pair.1 hmodifier with rfl | rfl <;> decide

theorem has_override_openMember (line : Line) : has "@Override" (openMember line) = has "@Override" line := by
  obtain ⟨-, heq⟩ | ⟨blanks, modifier, rest, hblanks, hmodifier, hline, heq⟩ := openMember_cases line
  · rw [heq]
  rw [heq, hline, Bool.eq_iff_iff, has_iff, has_iff, ← List.append_assoc, ← List.append_assoc,
    override_infix_iff (at_not_mem_of_hidden hblanks hmodifier), override_infix_iff]
  rw [List.mem_append, not_or]
  exact ⟨hblanks.not_mem (by decide), by decide⟩

theorem openMembers_again (ls : List Line) : openMembers (openMembers ls) = openMembers ls := by
  induction ls with
  | nil => rfl
  | cons line rest ih =>
    cases hover : has "@Override" line with
    | true => simp only [openMembers, hover, if_true]
    | false =>
      have hopened : openMembers (line :: rest) = openMember line :: openMembers rest := by
        rw [openMembers, hover]
        rfl
      rw [hopened, openMembers, has_override_openMember, hover, ih]
      exact congrArg (· :: openMembers rest) (openMember_again line)

theorem openDelegate_again (ls : List Line) : openDelegate (openDelegate ls) = openDelegate ls := by
  induction ls with
  | nil => rfl
  | cons line rest ih =>
    cases hclass : startsWith "public class" line with
    | true => simp only [openDelegate, hclass, if_true, openMembers_again]
    | false => simpa only [openDelegate, hclass, Bool.false_eq_true, if_false, List.cons.injEq, true_and]

/-! ### Lines of the delegate -/

theorem mem_openMembers (h : out ∈ openMembers ls) : ∃ line ∈ ls, out = line ∨ out = openMember line := by
  induction ls with
  | nil => cases h
  | cons line rest ih =>
    rw [openMembers] at h
    split at h
    · exact ⟨out, h, .inl rfl⟩
    · rcases List.mem_cons.1 h with rfl | h
      · exact ⟨line, List.mem_cons_self, .inr rfl⟩
      · obtain ⟨line', hline', hout⟩ := ih h
        exact ⟨line', List.mem_cons_of_mem _ hline', hout⟩

theorem mem_openDelegate (h : out ∈ openDelegate ls) :
    ∃ line ∈ ls, out = line ∨ out = openMember line := by
  induction ls with
  | nil => cases h
  | cons line rest ih =>
    rcases List.mem_cons.1 h with rfl | h
    · exact ⟨out, List.mem_cons_self, .inl rfl⟩
    · have hrest : ∃ line ∈ rest, out = line ∨ out = openMember line := by
        split at h
        · exact mem_openMembers h
        · exact ih h
      obtain ⟨line', hline', hout⟩ := hrest
      exact ⟨line', List.mem_cons_of_mem _ hline', hout⟩

theorem IsPlainLine.openMember (h : IsPlainLine line) : IsPlainLine (openMember line) := by
  obtain ⟨-, heq⟩ | ⟨blanks, modifier, rest, -, -, hline, heq⟩ := openMember_cases line
  · rwa [heq]
  rw [heq]
  have hnewline : '\n' ∉ blanks := fun hmem => h.1 (hline ▸ List.mem_append_left _ hmem)
  by_cases hrest : rest = []
  · rw [hrest, List.append_nil, isPlainLine_append_iff (by decide)]
    exact ⟨hnewline, isPlainLine_of_not_mem (by decide) (by decide)⟩
  · rw [hline, ← List.append_assoc, isPlainLine_append_iff hrest] at h
    rw [← List.append_assoc, isPlainLine_append_iff hrest, List.mem_append, not_or]
    exact ⟨⟨hnewline, by decide⟩, h.2⟩

/-- A member that was made public is no import. -/
theorem not_namesOldPackage_openMember (h : ¬NamesOldPackage line) :
    ¬NamesOldPackage (openMember line) := by
  obtain ⟨-, heq⟩ | ⟨blanks, modifier, rest, hblanks, -, -, heq⟩ := openMember_cases line
  · rwa [heq]
  rw [heq]
  have hmember : IsMember (blanks ++ ("public ".toList ++ rest)) := by
    intro c hc
    rw [trimStart_public_append hblanks] at hc
    obtain rfl := Option.some.inj hc
    decide
  exact fun hnames => hmember.not_import hnames.1

theorem isPlainLine_openDelegate (h : ∀ line ∈ ls, IsPlainLine line) :
    ∀ line ∈ openDelegate ls, IsPlainLine line := by
  intro out hout
  obtain ⟨line, hline, rfl | rfl⟩ := mem_openDelegate hout
  · exact h out hline
  · exact (h line hline).openMember

/-! ### Whole base classes -/

section Sources

variable (h : ∀ line ∈ lines source, IsPlainLine line)
include h

theorem isPlainLine_moveImports : ∀ line ∈ (lines source).map moveImport, IsPlainLine line := by
  intro out hout
  obtain ⟨line, hline, rfl⟩ := List.mem_map.1 hout
  exact (h line hline).moveImport

/-- Imports that have moved are not moved again. -/
theorem patchImports_again : patchImports (patchImports source) = patchImports source := by
  refine mapLines_eq_self (isPlainLine_moveImports h) fun out hout => ?_
  obtain ⟨line, -, rfl⟩ := List.mem_map.1 hout
  exact moveImport_eq_self (not_namesOldPackage_moveImport line)

/-- A delegate that was opened is not opened again. -/
theorem patchResponseDelegate_again :
    patchResponseDelegate (patchResponseDelegate (patchImports source)) =
      patchResponseDelegate (patchImports source) := by
  have hplain := isPlainLine_moveImports h
  have hlines : lines (patchImports source) = (lines source).map moveImport :=
    lines_ofLines_of_plain hplain
  rw [patchResponseDelegate, patchResponseDelegate, hlines,
    lines_ofLines_of_plain (isPlainLine_openDelegate hplain), openDelegate_again]

/-- The members that were made public leave no import to move. -/
theorem patchImports_patchResponseDelegate :
    patchImports (patchResponseDelegate (patchImports source)) =
      patchResponseDelegate (patchImports source) := by
  have hplain := isPlainLine_moveImports h
  have hlines : lines (patchImports source) = (lines source).map moveImport :=
    lines_ofLines_of_plain hplain
  rw [patchResponseDelegate, hlines]
  refine mapLines_eq_self (isPlainLine_openDelegate hplain) fun out hout => moveImport_eq_self ?_
  obtain ⟨line, hline, hout⟩ := mem_openDelegate hout
  obtain ⟨line, -, rfl⟩ := List.mem_map.1 hline
  have hmoved := not_namesOldPackage_moveImport line
  rcases hout with rfl | rfl
  · exact hmoved
  · exact not_namesOldPackage_openMember hmoved

end Sources

end RamlBuild
