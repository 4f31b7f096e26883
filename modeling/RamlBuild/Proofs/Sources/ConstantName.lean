import Mathlib
import RamlBuild.Sources.ConstantName
import RamlBuild.Text.Word

/-!
# What the name of a constant is

The scan for a name carries the last letter or digit and whether others followed it. Read from the
value as a whole, the name is its letters and digits in upper case, each with an underscore before it
where a word begins, and whether one begins is told by the letter or digit before it and by the places
of the two. A name is never left open by an underscore, and a name that is there can stand in a
source.

## Main definitions

* `letters` — the letters and digits of a value with their places
* `BeginsAfter` — whether a word begins at a letter, told by the one before it
* `spelled` — a letter as it stands in the name
* `IsIdentifier` — the names that a constant may have

## Main results

* `constantName_eq` — the name as a whole
* `constantName_eq_nil_iff` — the values without a name
* `constantName_scan` — the rule of the scan with all that follows from it
-/

namespace RamlBuild

open Text

variable {value : List Char} {c : Char} {before : Option Char} {apart : Bool}

/-! ### Letters and their places -/

/-- A letter or digit with its place in a value. -/
abbrev Placed := Char × Nat

/-- The letters and digits of a value with their places, where the value begins at place `start`. -/
def lettersFrom (start : Nat) (value : List Char) : List Placed :=
  (value.zipIdx start).filter (·.1.isAlphanum)

/-- The letters and digits of a value with their places. -/
def letters (value : List Char) : List Placed :=
  lettersFrom 0 value

/-- Each element of a list with the one before it; `first` is before the first one. -/
def withPrevious {α : Type} (first : Option α) (xs : List α) : List (Option α × α) :=
  (first :: xs.map some).zip xs

/-- Whether a word begins at a letter or digit. At the first one of a value it does when that is a
digit. Behind another one it does when other characters lie between the two, at an upper case letter
behind a lower case letter or a digit, and at a digit behind a letter. -/
def BeginsAfter (previous : Option Placed) (here : Placed) : Prop :=
  match previous with
  | none => here.1.isDigit
  | some before =>
    before.2 + 1 < here.2 ∨
      (here.1.isUpper ∧ (before.1.isLower ∨ before.1.isDigit)) ∨
      (here.1.isDigit ∧ before.1.isAlpha)

instance (previous : Option Placed) (here : Placed) : Decidable (BeginsAfter previous here) :=
  match previous with
  | none => inferInstanceAs (Decidable (here.1.isDigit = true))
  | some before => inferInstanceAs (Decidable (before.2 + 1 < here.2 ∨ _ ∨ _))

/-- A letter or digit as it stands in the name: in upper case, behind an underscore where a word
begins. -/
def spelled (letter : Option Placed × Placed) : List Char :=
  if BeginsAfter letter.1 letter.2 then ['_', letter.2.1.toUpper] else [letter.2.1.toUpper]

theorem beginsAfter_none {here : Placed} : BeginsAfter none here ↔ here.1.isDigit :=
  Iff.rfl

theorem lettersFrom_cons_of_isAlphanum {start : Nat} (h : c.isAlphanum) :
    lettersFrom start (c :: value) = (c, start) :: lettersFrom (start + 1) value := by
  rw [lettersFrom, List.zipIdx_cons, List.filter_cons_of_pos (by exact h), lettersFrom]

theorem lettersFrom_cons_of_not_isAlphanum {start : Nat} (h : ¬c.isAlphanum) :
    lettersFrom start (c :: value) = lettersFrom (start + 1) value := by
  rw [lettersFrom, List.zipIdx_cons, List.filter_cons_of_neg (by exact h), lettersFrom]

theorem map_fst_lettersFrom (start : Nat) (value : List Char) :
    (lettersFrom start value).map Prod.fst = value.filter Char.isAlphanum := by
  induction value generalizing start with
  | nil => rfl
  | cons c rest ih =>
    by_cases hc : c.isAlphanum = true
    · rw [lettersFrom_cons_of_isAlphanum hc, List.filter_cons_of_pos hc, List.map_cons, ih]
    · rw [lettersFrom_cons_of_not_isAlphanum hc, List.filter_cons_of_neg hc, ih]

theorem withPrevious_cons {α : Type} (first : Option α) (x : α) (xs : List α) :
    withPrevious first (x :: xs) = (first, x) :: withPrevious (some x) xs :=
  rfl

theorem map_snd_withPrevious {α : Type} (first : Option α) (xs : List α) :
    (withPrevious first xs).map Prod.snd = xs := by
  induction xs generalizing first with
  | nil => rfl
  | cons x xs ih => rw [withPrevious_cons, List.map_cons, ih]

/-! ### The name as a whole -/

theorem isAlpha_iff_of_isAlphanum (h : c.isAlphanum) : c.isAlpha ↔ ¬c.isDigit := by
  constructor
  · intro halpha hdigit
    simp only [Char.isAlpha, Char.isUpper, Char.isLower, Char.isDigit, Bool.or_eq_true,
      Bool.and_eq_true, decide_eq_true_eq, UInt32.le_iff_toNat_le, ge_iff_le] at halpha hdigit
    have h9 : '9'.val.toNat = 57 := rfl
    have hA : 'A'.val.toNat = 65 := rfl
    have ha : 'a'.val.toNat = 97 := rfl
    omega
  · intro hdigit
    simpa [Char.isAlphanum, hdigit] using h

/-- What the scan asks at a letter or digit is whether a word begins there. -/
theorem beginsWord_iff {before : Placed} {start : Nat} (hbefore : before.1.isAlphanum) :
    (decide (before.2 + 1 < start) || beginsWord before.1 c) = true ↔
      BeginsAfter (some before) (c, start) := by
  have halpha := isAlpha_iff_of_isAlphanum hbefore
  simp [beginsWord, BeginsAfter, halpha]

/-- The scan at a place of a value. Its state tells the letter or digit before that place, and that
others followed it when it does not stand right before. -/
theorem constantNameFrom_eq (start : Nat) (previous : Option Placed)
    (hprevious : ∀ before ∈ previous, before.1.isAlphanum ∧ before.2 < start) :
    constantNameFrom (previous.map Prod.fst) (previous.any (·.2 + 1 < start)) value =
      (withPrevious previous (lettersFrom start value)).flatMap spelled := by
  induction value generalizing start previous with
  | nil => rfl
  | cons c rest ih =>
    unfold constantNameFrom
    by_cases hc : c.isAlphanum = true
    · rw [if_pos hc, lettersFrom_cons_of_isAlphanum hc, withPrevious_cons, List.flatMap_cons]
      have hnext := ih (start + 1) (some (c, start)) (by simp [hc])
      simp only [Option.map_some, Option.any_some, Nat.lt_irrefl, decide_false] at hnext
      rw [hnext, ← List.singleton_append (l := List.flatMap _ _), ← List.append_assoc]
      congr 1
      cases previous with
      | none =>
        by_cases hdigit : c.isDigit = true <;> simp [spelled, BeginsAfter, hdigit]
      | some before =>
        have hbegins : (decide (before.2 + 1 < start) || beginsWord before.1 c) = true ↔
            BeginsAfter (some before) (c, start) := beginsWord_iff (hprevious before rfl).1
        simp only [Option.map_some, Option.any_some, spelled, ← hbegins]
        split <;> rfl
    · rw [if_neg hc, lettersFrom_cons_of_not_isAlphanum hc, ← ih (start + 1) previous]
      · congr 1
        cases previous with
        | none => rfl
        | some before => simpa using (hprevious before rfl).2
      · exact fun before hbefore => ⟨(hprevious before hbefore).1,
          Nat.lt_succ_of_lt (hprevious before hbefore).2⟩

/-- The name of a value is its letters and digits, each spelled by where it stands behind the one
before it. -/
theorem constantName_eq (value : List Char) :
    constantName value = (withPrevious none (letters value)).flatMap spelled :=
  constantNameFrom_eq 0 none (by simp)

theorem constantNameFrom_eq_nil_iff :
    constantNameFrom before apart value = [] ↔ ∀ c ∈ value, c.isAlphanum = false := by
  induction value generalizing before apart with
  | nil => simp [constantNameFrom]
  | cons c rest ih =>
    unfold constantNameFrom
    rw [List.forall_mem_cons]
    split
    · rename_i hc
      simp [hc]
    · rename_i hc
      rw [ih]
      exact (and_iff_right (Bool.eq_false_iff.2 hc)).symm

/-- A value without a name has no letter and no digit. -/
theorem constantName_eq_nil_iff : constantName value = [] ↔ ∀ c ∈ value, c.isAlphanum = false :=
  constantNameFrom_eq_nil_iff

/-! ### Its characters -/

/-- The upper case of a letter or digit. -/
theorem toUpper_of_isAlphanum (h : c.isAlphanum) :
    c.toUpper.isAlphanum ∧ ¬c.toUpper.isLower ∧ (c.toUpper.isDigit → c.isDigit) := by
  have hall : ∀ n < 128, (Char.ofNat n).isAlphanum →
      (Char.ofNat n).toUpper.isAlphanum ∧ ¬(Char.ofNat n).toUpper.isLower ∧
        ((Char.ofNat n).toUpper.isDigit → (Char.ofNat n).isDigit) := by decide
  have hsmall : c.toNat < 128 := by
    simp only [Char.isAlphanum, Char.isAlpha, Char.isUpper, Char.isLower, Char.isDigit,
      Bool.or_eq_true, Bool.and_eq_true, decide_eq_true_eq, UInt32.le_iff_toNat_le, ge_iff_le] at h
    change c.val.toNat < 128
    simp only [Char.toNat_val] at h ⊢
    have h90 : 'Z'.toNat = 90 := rfl
    have h122 : 'z'.toNat = 122 := rfl
    have h57 : '9'.toNat = 57 := rfl
    omega
  rw [← Char.ofNat_toNat c] at h ⊢
  exact hall _ hsmall h

theorem isAlphanum_toUpper (h : c.isAlphanum) : c.toUpper.isAlphanum :=
  (toUpper_of_isAlphanum h).1

theorem isWordChar_of_isAlphanum (h : c.isAlphanum) : isWordChar c := by
  simp [isWordChar, h]

theorem isAlphanum_of_mem_letters {letter : Option Placed × Placed}
    (h : letter ∈ withPrevious none (letters value)) : letter.2.1.isAlphanum := by
  have hmem : letter.2 ∈ letters value := by
    rw [← map_snd_withPrevious none (letters value)]
    exact List.mem_map_of_mem h
  exact (List.mem_filter.1 hmem).2

/-- In the name a letter or digit closes what an underscore opens. -/
theorem spelled_cases (letter : Option Placed × Placed) :
    BeginsAfter letter.1 letter.2 ∧ spelled letter = ['_', letter.2.1.toUpper] ∨
      ¬BeginsAfter letter.1 letter.2 ∧ spelled letter = [letter.2.1.toUpper] := by
  unfold spelled
  split
  · exact .inl ⟨‹_›, rfl⟩
  · exact .inr ⟨‹_›, rfl⟩

theorem ne_underscore_of_isAlphanum (h : c.isAlphanum) : c ≠ '_' := by
  rintro rfl
  revert h
  decide

section Spelled

variable {name : List (Option Placed × Placed)} (hname : ∀ letter ∈ name, letter.2.1.isAlphanum)
include hname

theorem mem_flatMap_spelled (h : c ∈ name.flatMap spelled) :
    c = '_' ∨ c.isAlphanum ∧ ¬c.isLower := by
  obtain ⟨letter, hletter, hc⟩ := List.mem_flatMap.1 h
  obtain ⟨hupper, hlower, -⟩ := toUpper_of_isAlphanum (hname letter hletter)
  rcases spelled_cases letter with ⟨-, hspelled⟩ | ⟨-, hspelled⟩ <;> rw [hspelled] at hc
  · rcases List.mem_pair.1 hc with rfl | rfl
    · exact .inl rfl
    · exact .inr ⟨hupper, hlower⟩
  · obtain rfl := List.mem_singleton.1 hc
    exact .inr ⟨hupper, hlower⟩

theorem filter_flatMap_spelled :
    (name.flatMap spelled).filter (· ≠ '_') = name.map (·.2.1.toUpper) := by
  induction name with
  | nil => rfl
  | cons letter rest ih =>
    obtain ⟨hletter, hrest⟩ := List.forall_mem_cons.1 hname
    have hne := ne_underscore_of_isAlphanum (isAlphanum_toUpper hletter)
    have hspelled : (spelled letter).filter (· ≠ '_') = [letter.2.1.toUpper] := by
      rcases spelled_cases letter with ⟨-, h⟩ | ⟨-, h⟩ <;> simp [h, hne]
    rw [List.flatMap_cons, List.filter_append, hspelled, ih hrest]
    rfl

/-- No underscore stands behind another one, and none at the end. -/
theorem closed_flatMap_spelled :
    ¬['_', '_'] <:+: name.flatMap spelled ∧ (name.flatMap spelled).getLast? ≠ some '_' := by
  induction name with
  | nil => simp
  | cons letter rest ih =>
    obtain ⟨hletter, hrest⟩ := List.forall_mem_cons.1 hname
    obtain ⟨hdoubled, htrailing⟩ := ih hrest
    have hne := ne_underscore_of_isAlphanum (isAlphanum_toUpper hletter)
    -- What comes before the rest has one letter, at its end.
    have hletter_rest : ¬['_', '_'] <:+: letter.2.1.toUpper :: rest.flatMap spelled ∧
        (letter.2.1.toUpper :: rest.flatMap spelled).getLast? ≠ some '_' := by
      refine ⟨?_, ?_⟩
      · rw [List.infix_cons_iff, List.cons_prefix_cons]
        rintro (⟨heq, -⟩ | h)
        · exact hne heq.symm
        · exact hdoubled h
      · rw [List.getLast?_cons]
        cases hlast : (rest.flatMap spelled).getLast? with
        | none => simpa using hne
        | some d => simpa using fun h : d = '_' => htrailing (h ▸ hlast)
    rw [List.flatMap_cons]
    rcases spelled_cases letter with ⟨-, h⟩ | ⟨-, h⟩ <;> rw [h]
    · refine ⟨?_, ?_⟩
      · rw [List.cons_append, List.singleton_append, List.infix_cons_iff, List.cons_prefix_cons,
          List.cons_prefix_cons]
        rintro (⟨-, heq, -⟩ | h)
        · exact hne heq.symm
        · exact hletter_rest.1 h
      · rw [List.cons_append, List.singleton_append, List.getLast?_cons_cons]
        exact hletter_rest.2
    · exact hletter_rest

end Spelled

/-- Names are words. -/
theorem isWordChar_of_mem_constantName (h : c ∈ constantName value) : isWordChar c := by
  rw [constantName_eq] at h
  rcases mem_flatMap_spelled (fun _ => isAlphanum_of_mem_letters) h with rfl | ⟨hc, -⟩
  · decide
  · exact isWordChar_of_isAlphanum hc

/-! ### Names in a source -/

/-- The words that are no names: those that a source gives a meaning of their own, and the
underscore. -/
def reservedWords : List String :=
  ["_", "abstract", "assert", "boolean", "break", "byte", "case", "catch", "char", "class", "const",
    "continue", "default", "do", "double", "else", "enum", "extends", "false", "final", "finally",
    "float", "for", "goto", "if", "implements", "import", "instanceof", "int", "interface", "long",
    "native", "new", "null", "package", "private", "protected", "public", "return", "short", "static",
    "strictfp", "super", "switch", "synchronized", "this", "throw", "throws", "transient", "true",
    "try", "void", "volatile", "while"]

/-- A name of ASCII characters that a constant may have: it is made of letters, digits, underscores
and dollar signs, it begins with no digit, and it is not reserved. -/
structure IsIdentifier (name : List Char) : Prop where
  nonempty : name ≠ []
  characters : ∀ c ∈ name, c.isAlphanum ∨ c = '_' ∨ c = '$'
  start : ∀ c ∈ name.head?, ¬c.isDigit
  unreserved : String.ofList name ∉ reservedWords

/-- Every reserved word but the underscore begins with a lower case letter. -/
theorem reservedWords_lower :
    ∀ word ∈ reservedWords, word = "_" ∨ word.toList.any Char.isLower = true := by
  decide

/-- How the name of a value begins, told by the first letter or digit of the value. -/
theorem constantName_of_find? (h : value.find? Char.isAlphanum = some c) :
    ∃ rest, constantName value = (if c.isDigit then '_' :: c.toUpper :: rest else c.toUpper :: rest) := by
  rw [← List.head?_filter, ← map_fst_lettersFrom 0, List.head?_map, Option.map_eq_some_iff] at h
  obtain ⟨letter, hletter, rfl⟩ := h
  obtain ⟨others, hletters⟩ := List.head?_eq_some_iff.1 hletter
  rw [constantName_eq, letters, hletters, withPrevious_cons, List.flatMap_cons]
  refine ⟨(withPrevious (some letter) others).flatMap spelled, ?_⟩
  simp only [spelled, beginsAfter_none]
  split <;> rfl

/-- The name of a value has an underscore at its start when the first letter or digit of the value is
a digit. -/
theorem head?_constantName (value : List Char) :
    (constantName value).head? = some '_' ↔
      ∃ c, value.find? Char.isAlphanum = some c ∧ c.isDigit := by
  cases hfirst : value.find? Char.isAlphanum with
  | none =>
    have hnil : constantName value = [] := constantName_eq_nil_iff.2 (by simpa using hfirst)
    simp [hnil]
  | some c =>
    have hne := ne_underscore_of_isAlphanum (isAlphanum_toUpper (List.find?_some hfirst))
    obtain ⟨rest, hname⟩ := constantName_of_find? hfirst
    rw [hname]
    by_cases hdigit : c.isDigit = true <;> simp [hdigit, hne]

/-- No name begins with a digit. -/
theorem not_isDigit_of_head?_constantName (h : (constantName value).head? = some c) : ¬c.isDigit := by
  cases hfirst : value.find? Char.isAlphanum with
  | none =>
    have hnil : constantName value = [] := constantName_eq_nil_iff.2 (by simpa using hfirst)
    simp [hnil] at h
  | some first =>
    obtain ⟨-, -, hkept⟩ := toUpper_of_isAlphanum (List.find?_some hfirst)
    obtain ⟨rest, hname⟩ := constantName_of_find? hfirst
    rw [hname] at h
    split at h
    · obtain rfl := Option.some.inj h
      decide
    · rename_i hdigit
      obtain rfl := Option.some.inj h
      exact fun hc => hdigit (hkept hc)

theorem isIdentifier_constantName (h : constantName value ≠ []) :
    IsIdentifier (constantName value) := by
  have hletters : ∀ letter ∈ withPrevious none (letters value), letter.2.1.isAlphanum :=
    fun _ => isAlphanum_of_mem_letters
  have hchars : ∀ c ∈ constantName value, c = '_' ∨ c.isAlphanum ∧ ¬c.isLower := by
    intro c hc
    rw [constantName_eq] at hc
    exact mem_flatMap_spelled hletters hc
  refine ⟨h, fun c hc => ?_, fun c hc => not_isDigit_of_head?_constantName hc, fun hmem => ?_⟩
  · rcases hchars c hc with rfl | ⟨hc, -⟩
    · exact .inr (.inl rfl)
    · exact .inl hc
  · rcases reservedWords_lower _ hmem with heq | hany
    · -- An underscore alone would be one at the end.
      have hlast := (closed_flatMap_spelled hletters).2
      rw [← constantName_eq, ← String.toList_ofList (l := constantName value), heq] at hlast
      exact hlast rfl
    · obtain ⟨c, hc, hlower⟩ := List.any_eq_true.1 hany
      rw [String.toList_ofList] at hc
      rcases hchars c hc with rfl | ⟨-, hnot⟩
      · revert hlower
        decide
      · exact hnot hlower

/-- The rule that gives a value its name. The name is the letters and digits of the value, each spelled
by where it stands behind the one before it. So without its underscores it is these in upper case; it
begins with an underscore when the first of them is a digit; no underscore follows another one or ends
it. It is empty when there are none of them, and a name that can stand in a source otherwise. -/
theorem constantName_scan (value : List Char) :
    constantName value = (withPrevious none (letters value)).flatMap spelled ∧
      (constantName value).filter (· ≠ '_') = (value.filter Char.isAlphanum).map Char.toUpper ∧
      ((constantName value).head? = some '_' ↔
        ∃ c, value.find? Char.isAlphanum = some c ∧ c.isDigit) ∧
      ¬['_', '_'] <:+: constantName value ∧ (constantName value).getLast? ≠ some '_' ∧
      (constantName value = [] ↔ ∀ c ∈ value, c.isAlphanum = false) ∧
      (constantName value ≠ [] → IsIdentifier (constantName value)) := by
  have hletters : ∀ letter ∈ withPrevious none (letters value), letter.2.1.isAlphanum :=
    fun _ => isAlphanum_of_mem_letters
  have hkept : (constantName value).filter (· ≠ '_') =
      (value.filter Char.isAlphanum).map Char.toUpper := by
    rw [constantName_eq, filter_flatMap_spelled hletters, ← map_fst_lettersFrom 0, List.map_map]
    conv_rhs => rw [← letters, ← map_snd_withPrevious none (letters value), List.map_map]
    rfl
  obtain ⟨hdoubled, htrailing⟩ := closed_flatMap_spelled hletters
  rw [← constantName_eq] at hdoubled htrailing
  exact ⟨constantName_eq value, hkept, head?_constantName value, hdoubled, htrailing,
    constantName_eq_nil_iff, isIdentifier_constantName⟩

example : constantName "2ndUser-idX9".toList = "_2ND_USER_ID_X_9".toList := by decide

end RamlBuild
