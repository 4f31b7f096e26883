import RamlBuild.Proofs.Text.Search
import RamlBuild.Proofs.Text.Words
import RamlBuild.Tool.SnapshotVersion

/-!
# Snapshot versions in a text

Snapshot versions are found from the left, and what was found is not looked at again. Everything that
is no part of one stays.

## Main definitions

* `IsSnapshot` — three numbers, separated by dots and followed by the mark
* `Pinned` — a text with its snapshot versions exchanged, the first one first

## Main results

* `afterSnapshot?_eq_some_iff` — what follows a snapshot version at the start of a text
* `pinned_iff` — the text that a text becomes
-/

namespace RamlBuild.Text

variable {version text rest pinned snapshot : List Char} {c : Char}

/-- A number: decimal digits, at least one. -/
def IsNumber (run : List Char) : Prop :=
  run ≠ [] ∧ ∀ c ∈ run, isDecimalDigit c

/-- A snapshot version: three numbers, separated by dots and followed by the mark. -/
def IsSnapshot (snapshot : List Char) : Prop :=
  ∃ major minor patch, IsNumber major ∧ IsNumber minor ∧ IsNumber patch ∧
    snapshot = major ++ '.' :: (minor ++ '.' :: (patch ++ "-SNAPSHOT".toList))

/-- What a text becomes when its snapshot versions are exchanged: the first one, then the first one
behind it, and so on. -/
inductive Pinned (version : List Char) : List Char → List Char → Prop where
  | done {text : List Char} (hnone : ∀ snapshot, IsSnapshot snapshot → ¬snapshot <:+: text) :
      Pinned version text text
  | next {before snapshot rest pinned : List Char} (hsnapshot : IsSnapshot snapshot)
      (hfirst : ∀ start other behind, IsSnapshot other →
        before ++ (snapshot ++ rest) = start ++ (other ++ behind) → before.length ≤ start.length)
      (hrest : Pinned version rest pinned) :
      Pinned version (before ++ (snapshot ++ rest)) (before ++ (version ++ pinned))

/-! ### The start of a text -/

theorem afterNumber?_eq_some_iff : afterNumber? text = some rest ↔
    ∃ run, IsNumber run ∧ text = run ++ rest ∧ ∀ c ∈ rest.head?, isDecimalDigit c = false := by
  rw [afterNumber?, Option.map_eq_some_iff]
  constructor
  · rintro ⟨⟨run, rest'⟩, hrun, rfl⟩
    obtain ⟨hne, hdigits, htext, hend⟩ := takeRun?_eq_some_iff.1 hrun
    exact ⟨run, ⟨hne, hdigits⟩, htext, hend⟩
  · rintro ⟨run, ⟨hne, hdigits⟩, htext, hend⟩
    exact ⟨(run, rest), takeRun?_eq_some_iff.2 ⟨hne, hdigits, htext, hend⟩, rfl⟩

/-- A number is read as a whole if no digit follows it. -/
theorem afterNumber?_append {run : List Char} (hrun : IsNumber run) (hc : isDecimalDigit c = false) :
    afterNumber? (run ++ c :: rest) = some (c :: rest) :=
  afterNumber?_eq_some_iff.2 ⟨run, hrun, rfl, by simpa using hc⟩

/-- A text begins with one snapshot version at most, and this is what is read. -/
theorem afterSnapshot?_eq_some_iff :
    afterSnapshot? text = some rest ↔ ∃ snapshot, IsSnapshot snapshot ∧ text = snapshot ++ rest := by
  constructor
  · intro h
    simp only [afterSnapshot?, Option.bind_eq_bind, Option.bind_eq_some_iff,
      afterNumber?_eq_some_iff, after?_eq_some_iff] at h
    obtain ⟨-, ⟨major, hmajor, rfl, -⟩, -, rfl, -, ⟨minor, hminor, rfl, -⟩, -, rfl,
      -, ⟨patch, hpatch, rfl, -⟩, rfl⟩ := h
    exact ⟨_, ⟨major, minor, patch, hmajor, hminor, hpatch, rfl⟩, by simp⟩
  · rintro ⟨snapshot, ⟨major, minor, patch, hmajor, hminor, hpatch, rfl⟩, rfl⟩
    have hdot : isDecimalDigit '.' = false := by decide +kernel
    have hdash : isDecimalDigit '-' = false := by decide +kernel
    have htext : major ++ '.' :: (minor ++ '.' :: (patch ++ "-SNAPSHOT".toList)) ++ rest =
        major ++ '.' :: (minor ++ '.' :: (patch ++ '-' :: ("SNAPSHOT".toList ++ rest))) := by
      simp
    rw [htext]
    simp only [afterSnapshot?, Option.bind_eq_bind, Option.bind_eq_some_iff]
    exact ⟨_, afterNumber?_append hmajor hdot, _, after?_eq_some_iff.2 rfl, _,
      afterNumber?_append hminor hdot, _, after?_eq_some_iff.2 rfl, _,
      afterNumber?_append hpatch hdash, after?_eq_some_iff.2 rfl⟩

theorem IsSnapshot.ne_nil (h : IsSnapshot snapshot) : snapshot ≠ [] := by
  rintro rfl
  obtain ⟨major, minor, patch, -, -, -, heq⟩ := h
  simp at heq

/-! ### The whole text -/

theorem replaceSnapshots_of_afterSnapshot? (h : afterSnapshot? text = some rest) :
    replaceSnapshots version text = version ++ replaceSnapshots version rest := by
  cases text with
  | nil => simpa using length_lt_of_afterSnapshot? h
  | cons c text =>
    rw [replaceSnapshots]
    split
    · rename_i heq
      rw [h] at heq
      rw [Option.some.inj heq]
    · rename_i heq
      rw [h] at heq
      contradiction

theorem replaceSnapshots_cons (h : afterSnapshot? (c :: text) = none) :
    replaceSnapshots version (c :: text) = c :: replaceSnapshots version text := by
  rw [replaceSnapshots]
  split
  · rename_i heq
    rw [h] at heq
    contradiction
  · rfl

/-- Characters at which no snapshot version begins stay. -/
theorem replaceSnapshots_append {before : List Char}
    (h : ∀ start other behind, IsSnapshot other →
      before ++ text = start ++ (other ++ behind) → before.length ≤ start.length) :
    replaceSnapshots version (before ++ text) = before ++ replaceSnapshots version text := by
  induction before with
  | nil => rfl
  | cons c before ih =>
    have hnone : afterSnapshot? (c :: (before ++ text)) = none := by
      rw [Option.eq_none_iff_forall_ne_some]
      intro rest hrest
      obtain ⟨other, hother, heq⟩ := afterSnapshot?_eq_some_iff.1 hrest
      exact absurd (h [] other rest hother heq) (by simp)
    rw [List.cons_append, replaceSnapshots_cons hnone, ih, List.cons_append]
    intro start other behind hother heq
    have hle := h (c :: start) other behind hother (by rw [List.cons_append, heq]; rfl)
    simpa using hle

theorem Pinned.eq_replaceSnapshots (h : Pinned version text pinned) :
    pinned = replaceSnapshots version text := by
  induction h with
  | @done text hnone =>
    have hkept : replaceSnapshots version (text ++ []) = text ++ replaceSnapshots version [] := by
      refine replaceSnapshots_append ?_
      intro start other behind hother heq
      exact absurd ⟨start, behind, by rw [List.append_assoc, ← heq, List.append_nil]⟩ (hnone other hother)
    simpa [replaceSnapshots] using hkept.symm
  | next hsnapshot hfirst hrest ih =>
    rw [replaceSnapshots_append hfirst,
      replaceSnapshots_of_afterSnapshot? (afterSnapshot?_eq_some_iff.2 ⟨_, hsnapshot, rfl⟩), ← ih]

theorem Pinned.cons (hnone : afterSnapshot? (c :: text) = none) (h : Pinned version text pinned) :
    Pinned version (c :: text) (c :: pinned) := by
  have hstart : ∀ other behind, IsSnapshot other → c :: text ≠ other ++ behind := by
    intro other behind hother heq
    rw [afterSnapshot?_eq_some_iff.2 ⟨other, hother, heq⟩] at hnone
    contradiction
  cases h with
  | done hnone' =>
    refine .done fun snapshot hsnapshot hinfix => ?_
    rcases List.infix_cons_iff.1 hinfix with ⟨behind, hfront⟩ | hinfix
    · exact hstart snapshot behind hsnapshot hfront.symm
    · exact hnone' snapshot hsnapshot hinfix
  | @next before snapshot rest pinned hsnapshot hfirst hrest =>
    change Pinned version (c :: before ++ (snapshot ++ rest)) (c :: before ++ (version ++ pinned))
    refine .next hsnapshot ?_ hrest
    intro start other behind hother heq
    cases start with
    | nil => exact absurd heq (hstart other behind hother)
    | cons d start =>
      have hle := hfirst start other behind hother (List.cons.inj heq).2
      simpa using hle

theorem pinned_replaceSnapshots (version text : List Char) :
    Pinned version text (replaceSnapshots version text) := by
  fun_induction replaceSnapshots version text with
  | case1 =>
    refine .done fun snapshot hsnapshot hinfix => hsnapshot.ne_nil ?_
    exact List.infix_nil.1 hinfix
  | case2 c rest after hafter ih =>
    obtain ⟨snapshot, hsnapshot, heq⟩ := afterSnapshot?_eq_some_iff.1 hafter
    rw [heq]
    change Pinned version ([] ++ (snapshot ++ after)) ([] ++ (version ++ _))
    exact .next hsnapshot (by simp) ih
  | case3 c rest hnone ih => exact ih.cons hnone

/-- Every text becomes one text. -/
theorem pinned_iff : Pinned version text pinned ↔ pinned = replaceSnapshots version text := by
  constructor
  · exact Pinned.eq_replaceSnapshots
  · rintro rfl
    exact pinned_replaceSnapshots version text

end RamlBuild.Text
