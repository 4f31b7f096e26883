import RamlBuild.Proofs.Sources.ConstantTable

/-!
# Tables that share what is taken

Tables are built one after the other, each behind what the earlier ones handed out. Then no two
constants have one identifier, in one table or in two, and each has the first candidate of its name
that was free when its value was reached.

## Main definitions

* `IsFirstFree` — the first candidate for a name that is not taken
* `ConstantTable.IsFor` — what a table is, told by its values and by what is taken before it
* `ConstantTable.buildEach` — tables in turn, sharing what is taken

## Main results

* `isFirstFree_freeIdentifier` — the search for an identifier ends at the first free one
* `ConstantTable.build_congr` — a table is told by the set of its values
* `ConstantTable.shared_buildEach` — tables in turn have no collisions
-/

namespace RamlBuild

open Text

variable {name ending ident value : List Char} {taken values values' : List (List Char)} {n : Nat}

/-! ### The first free candidate -/

/-- An identifier is the first candidate for a name that is not taken. -/
def IsFirstFree (isTaken : List Char → Prop) (name ending ident : List Char) : Prop :=
  ∃ n, ident = identifier name ending n ∧ ¬isTaken ident ∧
    ∀ m < n, isTaken (identifier name ending m)

theorem IsFirstFree.congr {isTaken isTaken' : List Char → Prop}
    (h : ∀ ident, isTaken ident ↔ isTaken' ident) (hfirst : IsFirstFree isTaken name ending ident) :
    IsFirstFree isTaken' name ending ident := by
  obtain ⟨n, hident, hfree, hbefore⟩ := hfirst
  exact ⟨n, hident, mt (h ident).2 hfree, fun m hm => (h _).1 (hbefore m hm)⟩

/-- However many tries there are, all candidates before the last one tried are taken. -/
theorem freeIdentifierFrom_eq_identifier (taken : List (List Char)) (name ending : List Char)
    (n tries : Nat) :
    ∃ k, freeIdentifierFrom taken name ending n tries = identifier name ending (n + k) ∧
      ∀ j < k, identifier name ending (n + j) ∈ taken := by
  induction tries generalizing n with
  | zero => exact ⟨0, rfl, fun j hj => absurd hj (Nat.not_lt_zero j)⟩
  | succ tries ih =>
    unfold freeIdentifierFrom
    split
    · rename_i hfirst
      obtain ⟨k, hk, hbefore⟩ := ih (n + 1)
      refine ⟨k + 1, by rw [hk, Nat.add_right_comm, Nat.add_assoc], fun j hj => ?_⟩
      cases j with
      | zero => exact hfirst
      | succ j =>
        have := hbefore j (by omega)
        rwa [Nat.add_right_comm, Nat.add_assoc] at this
    · exact ⟨0, rfl, fun j hj => absurd hj (Nat.not_lt_zero j)⟩

theorem isFirstFree_freeIdentifier (taken : List (List Char)) (name ending : List Char) :
    IsFirstFree (· ∈ taken) name ending (freeIdentifier taken name ending) := by
  obtain ⟨k, hk, hbefore⟩ := freeIdentifierFrom_eq_identifier taken name ending 0 taken.length
  rw [Nat.zero_add] at hk
  refine ⟨k, hk, freeIdentifier_not_mem taken name ending, fun m hm => ?_⟩
  simpa using hbefore m hm

namespace ConstantTable

/-- The identifiers of a table. -/
def identifiers (table : ConstantTable) : List (List Char) :=
  table.entries.map Prod.snd

/-! ### One table -/

/-- What is taken after values got their identifiers: what was taken before and these. -/
theorem mem_assign_taken (values : List (List Char)) :
    ident ∈ (assign ending taken values).2 ↔
      ident ∈ taken ∨ ident ∈ (assign ending taken values).1.map Prod.snd := by
  induction values generalizing taken with
  | nil => simp [assign]
  | cons value rest ih =>
    unfold assign
    split
    · exact ih
    · simp only [ih, mem_insertOrdered, List.map_cons, List.mem_cons]
      exact or_assoc.trans or_left_comm

theorem pairwise_assign_taken (values : List (List Char)) (h : taken.Pairwise (· < ·)) :
    (assign ending taken values).2.Pairwise (· < ·) := by
  induction values generalizing taken with
  | nil => exact h
  | cons value rest ih =>
    unfold assign
    split
    · exact ih h
    · exact ih (pairwise_insertOrdered h)

/-- Each value has the first candidate that was free when it was reached: neither taken before nor
handed out to a value before it. -/
theorem isFirstFree_of_assign {before after : List (List Char × List Char)}
    (h : (assign ending taken values).1 = before ++ (value, ident) :: after) :
    IsFirstFree (fun i => i ∈ taken ∨ i ∈ before.map Prod.snd) (constantName value) ending ident := by
  induction values generalizing taken before with
  | nil => simp [assign] at h
  | cons first rest ih =>
    unfold assign at h
    split at h
    · exact ih h
    · cases before with
      | nil =>
        obtain ⟨hentry, -⟩ := List.cons.inj h
        obtain ⟨rfl, rfl⟩ := Prod.mk.inj hentry
        exact (isFirstFree_freeIdentifier taken _ ending).congr (by simp)
      | cons entry before =>
        obtain ⟨rfl, hrest⟩ := List.cons.inj h
        refine (ih hrest).congr fun i => ?_
        rw [mem_insertOrdered, List.map_cons, List.mem_cons]
        exact or_assoc.trans or_left_comm

/-- What a table for some values is: it has one entry for each of them that has a letter or digit, in
their order, and gives it the first candidate that is not taken when it is reached. -/
structure IsFor (table : ConstantTable) (values : List (List Char)) (ending : List Char)
    (isTaken : List Char → Prop) : Prop where
  ordered : (table.entries.map Prod.fst).Pairwise (· < ·)
  values : ∀ value, value ∈ table.entries.map Prod.fst ↔
    value ∈ values ∧ ∃ c ∈ value, c.isAlphanum
  first : ∀ before value ident after, table.entries = before ++ (value, ident) :: after →
    IsFirstFree (fun i => isTaken i ∨ i ∈ before.map Prod.snd) (constantName value) ending ident

theorem isFor_build (values : List (List Char)) (ending : List Char) (taken : List (List Char)) :
    (build values ending taken).1.IsFor values ending (· ∈ taken) := by
  refine ⟨?_, fun value => ?_, fun before value ident after h => isFirstFree_of_assign h⟩
  · rw [show (build values ending taken).1.entries = (assign ending taken (Text.ordered values)).1
      from rfl, map_fst_assign]
    exact (pairwise_ordered values).filter _
  · rw [show (build values ending taken).1.entries = (assign ending taken (Text.ordered values)).1
      from rfl, map_fst_assign, List.mem_filter, mem_ordered]
    refine and_congr_right fun _ => ?_
    rw [Bool.not_eq_true', ← Bool.not_eq_true, List.isEmpty_iff, constantName_eq_nil_iff]
    simp

theorem mem_build_taken (values : List (List Char)) (ending : List Char) (taken : List (List Char)) :
    ident ∈ (build values ending taken).2 ↔
      ident ∈ taken ∨ ident ∈ (build values ending taken).1.identifiers :=
  mem_assign_taken (Text.ordered values)

/-- Lists with the same texts make the same set. -/
theorem ordered_congr (h : ∀ value, value ∈ values ↔ value ∈ values') :
    Text.ordered values = Text.ordered values' := by
  have hperm : (Text.ordered values).Perm (Text.ordered values') := by
    rw [List.perm_ext_iff_of_nodup (nodup_ordered values) (nodup_ordered values')]
    intro value
    rw [mem_ordered, mem_ordered, h]
  exact hperm.eq_of_pairwise (fun _ _ _ _ h h' => absurd h (lt_asymm h'))
    (pairwise_ordered values) (pairwise_ordered values')

/-- A table does not depend on the order of its values or on how often they are given. -/
theorem build_congr (h : ∀ value, value ∈ values ↔ value ∈ values') :
    build values ending taken = build values' ending taken := by
  rw [build, build, ordered_congr h]

/-! ### Tables in turn -/

/-- Tables for lists of values with their endings, each behind what is taken after the one before it,
and what is taken after all of them. -/
def buildEach (taken : List (List Char)) :
    List (List (List Char) × List Char) → List ConstantTable × List (List Char)
  | [] => ([], taken)
  | (values, ending) :: rest =>
    let (table, taken) := build values ending taken
    let (tables, taken) := buildEach taken rest
    (table :: tables, taken)

theorem buildEach_cons (request : List (List Char) × List Char)
    (rest : List (List (List Char) × List Char)) :
    buildEach taken (request :: rest) =
      ((build request.1 request.2 taken).1 ::
          (buildEach (build request.1 request.2 taken).2 rest).1,
        (buildEach (build request.1 request.2 taken).2 rest).2) :=
  rfl

/-- Tables in turn without collisions: what each table is, told by what was taken before the first one
and by the identifiers of the tables before it; no identifier stands twice, in one table or in two, or
was taken before; and these and no others are taken at the end. -/
structure Shared (taken : List (List Char)) (requests : List (List (List Char) × List Char))
    (tables : List ConstantTable) (last : List (List Char)) : Prop where
  length : tables.length = requests.length
  isFor : ∀ (i : Nat) values ending (table : ConstantTable),
    requests[i]? = some (values, ending) → tables[i]? = some table → table.IsFor values ending
      fun ident => ident ∈ taken ∨ ident ∈ (tables.take i).flatMap identifiers
  nodup : (tables.flatMap identifiers).Nodup
  fresh : ∀ ident ∈ tables.flatMap identifiers, ident ∉ taken
  mem_last : ∀ ident, ident ∈ last ↔ ident ∈ taken ∨ ident ∈ tables.flatMap identifiers
  ordered : taken.Pairwise (· < ·) → last.Pairwise (· < ·)

theorem IsFor.congr {table : ConstantTable} {isTaken isTaken' : List Char → Prop}
    (h : ∀ ident, isTaken ident ↔ isTaken' ident) (htable : table.IsFor values ending isTaken) :
    table.IsFor values ending isTaken' where
  ordered := htable.ordered
  values := htable.values
  first := fun before value ident after hentries =>
    (htable.first before value ident after hentries).congr fun i => or_congr_left (h i)

theorem nodup_identifiers_build (values : List (List Char)) (ending : List Char)
    (taken : List (List Char)) :
    (build values ending taken).1.identifiers.Nodup ∧
      ∀ ident ∈ (build values ending taken).1.identifiers, ident ∉ taken := by
  obtain ⟨hnodup, hfresh, -⟩ := @assign_names ending taken (Text.ordered values)
  refine ⟨hnodup, fun ident hident => ?_⟩
  obtain ⟨entry, hentry, rfl⟩ := List.mem_map.1 hident
  exact hfresh entry hentry

theorem shared_buildEach_self (taken : List (List Char))
    (requests : List (List (List Char) × List Char)) :
    Shared taken requests (buildEach taken requests).1 (buildEach taken requests).2 := by
  induction requests generalizing taken with
  | nil => exact ⟨rfl, by simp, List.nodup_nil, by simp [buildEach], by simp [buildEach], id⟩
  | cons request rest ih =>
    obtain ⟨values, ending⟩ := request
    have hlater := ih (build values ending taken).2
    have hmem : ∀ ident, ident ∈ (build values ending taken).2 ↔
        ident ∈ taken ∨ ident ∈ (build values ending taken).1.identifiers :=
      fun _ => mem_build_taken values ending taken
    obtain ⟨hnodup, hfresh⟩ := nodup_identifiers_build values ending taken
    rw [buildEach_cons]
    refine ⟨congrArg (· + 1) hlater.length, ?_, ?_, ?_, fun ident => ?_, fun h => ?_⟩
    · -- Behind the first table its identifiers are taken as well.
      intro i values' ending' table hrequest htable
      cases i with
      | zero =>
        obtain ⟨rfl, rfl⟩ := Prod.mk.inj (Option.some.inj hrequest)
        obtain rfl := Option.some.inj htable
        exact (isFor_build values ending taken).congr (by simp)
      | succ i =>
        refine (hlater.isFor i values' ending' table hrequest htable).congr fun ident => ?_
        rw [hmem, List.take_succ_cons, List.flatMap_cons, List.mem_append, or_assoc]
    · rw [List.flatMap_cons, List.nodup_append]
      refine ⟨hnodup, hlater.nodup, ?_⟩
      rintro ident hident _ hident' rfl
      exact hlater.fresh ident hident' ((hmem ident).2 (.inr hident))
    · intro ident hident
      rcases List.mem_append.1 hident with hident | hident
      · exact hfresh ident hident
      · exact fun htaken => hlater.fresh ident hident ((hmem ident).2 (.inl htaken))
    · rw [hlater.mem_last, hmem, List.flatMap_cons, List.mem_append, or_assoc]
    · exact hlater.ordered (pairwise_assign_taken _ h)

/-- Tables that are built in turn have no collisions, and are told by the sets of their values. -/
theorem shared_buildEach (taken : List (List Char))
    (requests : List (List (List Char) × List Char)) :
    Shared taken requests (buildEach taken requests).1 (buildEach taken requests).2 ∧
      ∀ requests', List.Forall₂ (fun request request' => request.2 = request'.2 ∧
          ∀ value, value ∈ request.1 ↔ value ∈ request'.1) requests requests' →
        buildEach taken requests' = buildEach taken requests := by
  refine ⟨shared_buildEach_self taken requests, fun requests' h => ?_⟩
  induction h generalizing taken with
  | nil => rfl
  | cons hrequest _ ih =>
    obtain ⟨hending, hvalues⟩ := hrequest
    rw [buildEach_cons, buildEach_cons, ← hending, build_congr hvalues, ih]

end ConstantTable

end RamlBuild
