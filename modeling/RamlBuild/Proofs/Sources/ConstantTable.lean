import Mathlib.Data.Char
import Mathlib.Data.List.Lex
import Mathlib.Data.List.Nodup
import RamlBuild.Proofs.Sources.ConstantName
import RamlBuild.Sources.ConstantTable

/-!
# What a table of constants is

Every identifier in a table is handed out once, whatever names the values come to and however many of
them come to the same one. Identifiers are made of word characters, and the values of a table are
among the values that it was built for.

## Main results

* `Text.pairwise_ordered`, `Text.nodup_ordered` — the values stand in order, and are distinct
* `freeIdentifier_not_mem` — one of the candidates is free
* `ConstantTable.nodup_names` — no identifier stands for two values
* `ConstantTable.isWordChar_of_mem_name` — identifiers are words
* `ConstantTable.mem_of_get?` — the identifier of a value is in the table
* `ConstantTable.map_fst_assign` — the values that have a constant
* `ConstantTable.mem_taken_of_assign` — identifiers are taken for the next table
-/

namespace RamlBuild

/-! ### Sets of texts -/

namespace Text

variable {x : List Char} {xs : List (List Char)}

theorem pairwise_insertOrdered (h : xs.Pairwise (· < ·)) :
    (insertOrdered x xs).Pairwise (· < ·) := by
  induction xs with
  | nil => simp [insertOrdered]
  | cons y rest ih =>
    obtain ⟨hy, hrest⟩ := List.pairwise_cons.1 h
    unfold insertOrdered
    split_ifs with hlt heq
    · refine List.pairwise_cons.2 ⟨?_, h⟩
      intro z hz
      rcases List.mem_cons.1 hz with rfl | hz
      · exact hlt
      · exact List.lt_trans hlt (hy z hz)
    · exact h
    · refine List.pairwise_cons.2 ⟨?_, ih hrest⟩
      intro z hz
      rcases mem_insertOrdered.1 hz with rfl | hz
      · exact lt_of_le_of_ne (not_lt.1 hlt) (Ne.symm heq)
      · exact hy z hz

theorem pairwise_ordered (xs : List (List Char)) : (ordered xs).Pairwise (· < ·) := by
  have hfold : ∀ set : List (List Char), set.Pairwise (· < ·) →
      (xs.foldl (fun set x => insertOrdered x set) set).Pairwise (· < ·) := by
    induction xs with
    | nil => exact fun _ hset => hset
    | cons x rest ih => exact fun _ hset => ih _ (pairwise_insertOrdered hset)
  exact hfold [] List.Pairwise.nil

theorem nodup_ordered (xs : List (List Char)) : (ordered xs).Nodup :=
  (pairwise_ordered xs).imp ne_of_lt

end Text

open Text

variable {name ending value : List Char} {taken values : List (List Char)} {c : Char} {m n : Nat}

/-! ### Candidates -/

theorem toDigits_injective (h : Nat.toDigits 10 m = Nat.toDigits 10 n) : m = n := by
  rw [← Nat.ofDigitChars_ten_toDigits (n := m), h, Nat.ofDigitChars_ten_toDigits]

/-- Different numbers give different candidates. -/
theorem identifier_injective (h : identifier name ending m = identifier name ending n) : m = n := by
  have hnumbered : ∀ k, identifier name ending 0 ≠ identifier name ending (k + 1) := by
    intro k heq
    have hlength := congrArg List.length heq
    simp only [identifier, List.length_append, List.length_cons] at hlength
    omega
  cases m with
  | zero =>
    cases n with
    | zero => rfl
    | succ n => exact absurd h (hnumbered n)
  | succ m =>
    cases n with
    | zero => exact absurd h.symm (hnumbered m)
    | succ n =>
      simp only [identifier, List.append_cancel_right_eq, List.append_cancel_left_eq,
        List.cons.injEq, true_and] at h
      have := toDigits_injective h
      omega

/-- When none of the tries is free, all of them are taken. -/
theorem freeIdentifierFrom_not_mem {tries : Nat}
    (h : freeIdentifierFrom taken name ending n tries ∈ taken) :
    ∀ k ≤ tries, identifier name ending (n + k) ∈ taken := by
  induction tries generalizing n with
  | zero =>
    intro k hk
    obtain rfl : k = 0 := by omega
    exact h
  | succ tries ih =>
    unfold freeIdentifierFrom at h
    split at h
    · rename_i hfirst
      intro k hk
      cases k with
      | zero => exact hfirst
      | succ k =>
        have := ih h k (by omega)
        rwa [Nat.add_right_comm, Nat.add_assoc] at this
    · rename_i hfirst
      exact absurd h hfirst

/-- One of the candidates is free, and it is the one that is handed out. -/
theorem freeIdentifier_not_mem (taken : List (List Char)) (name ending : List Char) :
    freeIdentifier taken name ending ∉ taken := by
  intro hmem
  have hall := freeIdentifierFrom_not_mem hmem
  -- There would be more candidates among the taken identifiers than there are.
  have hnodup : ((List.range (taken.length + 1)).map (identifier name ending)).Nodup :=
    List.nodup_range.map fun _ _ => identifier_injective
  have hsubset : (List.range (taken.length + 1)).map (identifier name ending) ⊆ taken := by
    intro candidate hcandidate
    obtain ⟨k, hk, rfl⟩ := List.mem_map.1 hcandidate
    have := hall k (by rw [List.mem_range] at hk; omega)
    rwa [Nat.zero_add] at this
  have := hnodup.length_le_of_subset hsubset
  rw [List.length_map, List.length_range] at this
  omega

theorem freeIdentifierFrom_eq (taken : List (List Char)) (name ending : List Char) (tries : Nat) :
    ∃ k, freeIdentifierFrom taken name ending n tries = identifier name ending k := by
  induction tries generalizing n with
  | zero => exact ⟨n, rfl⟩
  | succ tries ih =>
    unfold freeIdentifierFrom
    split
    · exact ih
    · exact ⟨n, rfl⟩

/-! ### Words -/

theorem isWordChar_of_mem_identifier (hname : ∀ c ∈ name, isWordChar c)
    (hending : ∀ c ∈ ending, isWordChar c) (h : c ∈ identifier name ending n) : isWordChar c := by
  cases n with
  | zero =>
    rcases List.mem_append.1 h with h | h
    · exact hname c h
    · exact hending c h
  | succ n =>
    simp only [identifier, List.mem_append, List.mem_cons] at h
    rcases h with (h | rfl | h) | h
    · exact hname c h
    · decide
    · have hdigit := Nat.isDigit_of_mem_toDigits (by decide) (by decide) h
      exact isWordChar_of_isAlphanum (by simp [Char.isAlphanum, hdigit])
    · exact hending c h

/-- A name without lower case letters. -/
def IsCapital (name : List Char) : Prop :=
  ∀ c ∈ name, c = '_' ∨ c.isAlphanum ∧ ¬c.isLower

theorem isCapital_constantName (value : List Char) : IsCapital (constantName value) := by
  intro c hc
  rw [constantName_eq] at hc
  exact mem_flatMap_spelled (fun _ => isAlphanum_of_mem_letters) hc

theorem IsCapital.append {other : List Char} (h : IsCapital name) (hother : IsCapital other) :
    IsCapital (name ++ other) := by
  intro c hc
  rcases List.mem_append.1 hc with hc | hc
  · exact h c hc
  · exact hother c hc

theorem isCapital_toDigits (n : Nat) : IsCapital (Nat.toDigits 10 n) := by
  intro c hc
  have hdigit := Nat.isDigit_of_mem_toDigits (by decide) (by decide) hc
  refine .inr ⟨by simp [Char.isAlphanum, hdigit], fun hlower => ?_⟩
  simp only [Char.isDigit, Char.isLower, Bool.and_eq_true, decide_eq_true_eq, ge_iff_le,
    UInt32.le_iff_toNat_le] at hdigit hlower
  have hnine : '9'.val.toNat = 57 := rfl
  have ha : 'a'.val.toNat = 97 := rfl
  omega

theorem isCapital_identifier (hname : IsCapital name) (hending : IsCapital ending) :
    IsCapital (identifier name ending n) := by
  cases n with
  | zero => exact hname.append hending
  | succ n =>
    have hnumber : IsCapital ('_' :: Nat.toDigits 10 (n + 2)) := by
      intro c hc
      rcases List.mem_cons.1 hc with rfl | hc
      · exact .inl rfl
      · exact isCapital_toDigits _ c hc
    exact (hname.append hnumber).append hending

theorem IsCapital.isWordChar (h : IsCapital name) (hc : c ∈ name) : isWordChar c := by
  rcases h c hc with rfl | ⟨hletter, -⟩
  · decide
  · exact isWordChar_of_isAlphanum hletter

theorem IsCapital.not_isLower (h : IsCapital name) (hc : c ∈ name) : ¬c.isLower := by
  rcases h c hc with rfl | ⟨-, hlower⟩
  · decide
  · exact hlower

/-! ### Tables -/

namespace ConstantTable

/-- What the identifiers of a table are like. -/
theorem assign_names (values : List (List Char)) :
    (((assign ending taken values).1.map Prod.snd).Nodup) ∧
      (∀ entry ∈ (assign ending taken values).1, entry.2 ∉ taken) ∧
      ∀ entry ∈ (assign ending taken values).1, entry.1 ∈ values ∧
        ∃ n, entry.2 = identifier (constantName entry.1) ending n := by
  induction values generalizing taken with
  | nil => simp [assign]
  | cons value rest ih =>
    unfold assign
    split
    · obtain ⟨hnodup, hfresh, hentries⟩ := @ih taken
      refine ⟨hnodup, hfresh, ?_⟩
      intro entry hentry
      exact ⟨List.mem_cons_of_mem _ (hentries entry hentry).1, (hentries entry hentry).2⟩
    · obtain ⟨hnodup, hfresh, hentries⟩ :=
        @ih (insertOrdered (freeIdentifier taken (constantName value) ending) taken)
      -- What is handed out is taken from then on.
      refine ⟨?_, ?_, ?_⟩
      · rw [List.map_cons, List.nodup_cons]
        refine ⟨?_, hnodup⟩
        intro hmem
        obtain ⟨entry, hentry, heq⟩ := List.mem_map.1 hmem
        exact hfresh entry hentry (mem_insertOrdered.2 (.inl heq))
      · intro entry hentry
        rcases List.mem_cons.1 hentry with rfl | hentry
        · exact freeIdentifier_not_mem taken _ ending
        · exact fun hmem => hfresh entry hentry (mem_insertOrdered.2 (.inr hmem))
      · intro entry hentry
        rcases List.mem_cons.1 hentry with rfl | hentry
        · exact ⟨List.mem_cons_self, freeIdentifierFrom_eq taken _ ending _⟩
        · exact ⟨List.mem_cons_of_mem _ (hentries entry hentry).1, (hentries entry hentry).2⟩

/-- What is taken after a table: what was taken before it, and its identifiers. -/
theorem mem_taken_of_assign (values : List (List Char)) :
    (∀ ident ∈ taken, ident ∈ (assign ending taken values).2) ∧
      ∀ entry ∈ (assign ending taken values).1, entry.2 ∈ (assign ending taken values).2 := by
  induction values generalizing taken with
  | nil => simp [assign]
  | cons value rest ih =>
    unfold assign
    split
    · exact ih
    · obtain ⟨hkept, hentries⟩ :=
        @ih (insertOrdered (freeIdentifier taken (constantName value) ending) taken)
      refine ⟨fun ident hident => hkept ident (mem_insertOrdered.2 (.inr hident)), ?_⟩
      intro entry hentry
      rcases List.mem_cons.1 hentry with rfl | hentry
      · exact hkept _ (mem_insertOrdered.2 (.inl rfl))
      · exact hentries entry hentry

/-- A table has the values that have a name. -/
theorem map_fst_assign (values : List (List Char)) :
    (assign ending taken values).1.map Prod.fst =
      values.filter fun value => !(constantName value).isEmpty := by
  induction values generalizing taken with
  | nil => rfl
  | cons value rest ih =>
    unfold assign
    split
    · rename_i hname
      rw [ih, List.filter_cons_of_neg (by simp [hname])]
    · rename_i hname
      rw [List.filter_cons_of_pos (by simpa [List.isEmpty_iff] using hname)]
      simp only [List.map_cons, ih]

/-- The identifiers of a table are names without lower case letters, and none is empty. -/
theorem isCapital_of_mem_assign (hending : IsCapital ending) {entry : List Char × List Char}
    (hentry : entry ∈ (assign ending taken values).1) : IsCapital entry.2 ∧ entry.2 ≠ [] := by
  obtain ⟨-, n, hn⟩ := (assign_names values).2.2 entry hentry
  have hvalue := List.mem_map_of_mem (f := Prod.fst) hentry
  rw [map_fst_assign, List.mem_filter, Bool.not_eq_true', ← Bool.not_eq_true,
    List.isEmpty_iff] at hvalue
  rw [hn]
  refine ⟨isCapital_identifier (isCapital_constantName _) hending, fun hnil => hvalue.2 ?_⟩
  cases n with
  | zero => exact (List.append_eq_nil_iff.1 hnil).1
  | succ n => exact (List.append_eq_nil_iff.1 (List.append_eq_nil_iff.1 hnil).1).1

theorem isCapital_of_mem_entries {entry : List Char × List Char}
    (hentry : entry ∈ (ofValues values).entries) : IsCapital entry.2 ∧ entry.2 ≠ [] :=
  isCapital_of_mem_assign (by simp [IsCapital]) hentry

/-- No identifier of a table stands for two values. -/
theorem nodup_names (values : List (List Char)) :
    ((ofValues values).entries.map Prod.snd).Nodup :=
  (assign_names (ordered values)).1

/-- The identifiers of a table are words. -/
theorem isWordChar_of_mem_name {entry : List Char × List Char}
    (hentry : entry ∈ (ofValues values).entries) (hc : c ∈ entry.2) : isWordChar c := by
  obtain ⟨-, n, hn⟩ := (assign_names (ordered values)).2.2 entry hentry
  rw [hn] at hc
  exact isWordChar_of_mem_identifier (fun _ => isWordChar_of_mem_constantName) (by simp) hc

theorem mem_ordered {x : List Char} {xs : List (List Char)} : x ∈ ordered xs ↔ x ∈ xs := by
  have hfold : ∀ set : List (List Char),
      x ∈ xs.foldl (fun set x => insertOrdered x set) set ↔ x ∈ xs ∨ x ∈ set := by
    induction xs with
    | nil => simp
    | cons y rest ih =>
      intro set
      rw [List.foldl_cons, ih, mem_insertOrdered, List.mem_cons]
      exact or_left_comm.trans or_assoc.symm
  simpa [ordered] using hfold []

/-- A table has values that it was built for. -/
theorem mem_of_mem_entries {entry : List Char × List Char}
    (hentry : entry ∈ (ofValues values).entries) : entry.1 ∈ values :=
  mem_ordered.1 ((assign_names (ordered values)).2.2 entry hentry).1

theorem mem_of_get? {table : ConstantTable} (h : table.get? value = some name) :
    (value, name) ∈ table.entries := by
  obtain ⟨before, after, hentries, -⟩ := List.lookup_eq_some_iff.1 h
  rw [hentries]
  exact List.mem_append_right _ List.mem_cons_self

end ConstantTable

end RamlBuild
