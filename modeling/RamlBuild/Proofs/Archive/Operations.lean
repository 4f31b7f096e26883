import RamlBuild.Proofs.Archive.Placing
import RamlBuild.Proofs.Build.Machine

/-!
# The operations of unpacking

Unpacking an archive is put together from few operations on files. What they all keep is kept by it,
whether it succeeds or fails.

## Main definitions

* `Files.Alters` — the operations that change single entries

## Main results

* `always_unpack` — what the operations keep is kept by unpacking an archive
* `sameMachine_unpack` — the machine, for one
-/

namespace RamlBuild

/-- The operations that make, write or remove single entries, or give them permissions. -/
inductive Files.Alters : (Files → Except IoError Files) → Prop
  | createDirectory (p : Path) : Alters (·.createDirectory p)
  | createFile (p : Path) : Alters (·.createFile p)
  | createLink (target p : Path) : Alters (·.createLink target p)
  | createName (source p : Path) : Alters (·.createName source p)
  | writeFile (p : Path) (contents : ByteArray) (mode : Nat) : Alters (·.writeFile p contents mode)
  | removeFile (p : Path) : Alters (·.removeFile p)
  | setMode (p : Path) (mode : Nat) : Alters fun fs => do
    let loc ← fs.resolve p
    .ok (fs.setMode loc mode)

open Build Files

namespace Archive

variable {related : Host → Host → Prop} {m : Member} {p dest name archive : Path}
  {stream : Stream} {count start : Nat}

section Steps

variable (hchains : Chains related)
  (hreading : ∀ {α : Type} (activity : String) (op : Files → Except IoError α),
    Always related (reading activity op))
  (hchanging : ∀ activity {op}, Alters op → Always related (changing activity op))

include hchains

theorem always_requireInside
    (hreading : ∀ {α : Type} (activity : String) (op : Files → Except IoError α),
      Always related (reading activity op)) : Always related (requireInside dest p) := by
  refine Always.bind hchains (hreading _ _) fun inner => ?_
  refine Always.bind hchains (hreading _ _) fun outer => ?_
  simp only
  split
  · exact Always.pure hchains _
  · exact Always.throw hchains _

theorem always_linkTarget : Always related (linkTarget m) := by
  unfold linkTarget
  dsimp only
  split
  · exact Always.throw hchains _
  · exact Always.pure hchains _

theorem always_memberName : Always related (memberName m) := by
  unfold memberName
  split
  · exact Always.pure hchains _
  · exact Always.throw hchains _

include hchanging

theorem always_createDirectories : Always related (createDirectories p) :=
  always_makeDirectories hchains fun _ _ => hchanging _ (.createDirectory _)

/-- What is in the way is removed first. -/
theorem always_replacing {make : Build Unit} (hmake : Always related make) :
    Always related (replacing p make) := by
  refine Always.bind hchains hmake.attempt fun result => ?_
  cases result with
  | ok => exact Always.pure hchains _
  | error failure =>
    simp only
    split
    · exact Always.bind hchains (hchanging _ (.removeFile p)) fun _ => hmake
    · exact Always.throw hchains _

theorem always_placeMode : Always related (placeMode m p) := by
  unfold placeMode
  split
  · exact hchanging _ (.setMode p _)
  · exact Always.pure hchains _

theorem always_placeContents : Always related (placeContents m p) := by
  refine Always.bind hchains ?_ fun _ => ?_
  · rw [placeFile_eq]
    exact always_replacing hchains hchanging (hchanging _ (.createFile p))
  refine Always.bind hchains (hchanging _ (.writeFile p _ _)) fun _ => ?_
  split
  · exact always_placeMode hchains hchanging
  · exact Always.throw hchains _

theorem always_ensureDirectory : Always related (ensureDirectory p) := by
  refine Always.bind hchains (hchanging _ (.createDirectory p)).attempt fun result => ?_
  cases result with
  | ok => exact Always.pure hchains _
  | error failure =>
    refine Always.bind hchains (Always.asking hchains _) fun there => ?_
    split
    · exact Always.pure hchains _
    · exact Always.throw hchains _

include hreading

theorem always_createInside {paths : List Path} : Always related (createInside dest paths) := by
  induction paths with
  | nil => exact Always.pure hchains _
  | cons p above ih =>
    refine Always.bind hchains ih fun _ => ?_
    cases p.parent? with
    | none => exact always_createDirectories hchains hchanging
    | some parent =>
      exact Always.bind hchains (always_requireInside hchains hreading) fun _ =>
        always_createDirectories hchains hchanging

theorem always_placeHardLink : Always related (placeHardLink dest p m) := by
  refine Always.bind hchains (hreading _ _) fun _ => ?_
  refine Always.bind hchains (always_linkTarget hchains) fun _ => ?_
  refine Always.bind hchains (always_requireInside hchains hreading) fun _ => ?_
  exact hchanging _ (.createName _ p)

theorem always_place : Always related (place dest m p) := by
  rw [place_eq]
  split
  · exact Always.bind hchains (always_ensureDirectory hchains hchanging) fun _ =>
      always_placeMode hchains hchanging
  · split
    · refine Always.bind hchains (always_linkTarget hchains) fun target => ?_
      rw [placeLink_eq]
      exact always_replacing hchains hchanging (hchanging _ (.createLink target p))
    · exact always_placeHardLink hchains hreading hchanging
    all_goals first
      | exact always_placeContents hchains hchanging
      | exact Always.pure hchains _

theorem always_unpackMember : Always related (unpackMember dest m name) := by
  unfold unpackMember
  split
  · exact Always.pure hchains _
  · exact Always.pure hchains _
  · dsimp only
    split
    · exact Always.pure hchains _
    · refine Always.bind hchains (Always.files hchains) fun fs => ?_
      refine Always.bind hchains (always_createInside hchains hreading hchanging) fun _ => ?_
      refine Always.bind hchains (always_requireInside hchains hreading) fun _ => ?_
      exact Always.bind hchains (always_place hchains hreading hchanging) fun _ =>
        Always.pure hchains _

theorem always_unpackFrom : Always related (unpackFrom archive dest stream count start) := by
  induction count generalizing start with
  | zero => exact Always.pure hchains _
  | succ count ih =>
    unfold unpackFrom
    split
    · exact Always.pure hchains _
    · exact Always.within (Always.throw hchains _)
    · refine Always.bind hchains (always_memberName hchains) fun name => ?_
      refine Always.bind hchains
        (Always.within (always_unpackMember hchains hreading hchanging)) fun there => ?_
      split
      · exact Always.bind hchains ih fun _ => Always.pure hchains _
      · exact Always.throw hchains _

end Steps

end Archive

open Archive

/-- What all reading keeps, and every operation that changes a single entry, is kept by unpacking an
archive. -/
theorem always_unpack {related : Host → Host → Prop} {archive dest : Path}
    (hchains : Chains related)
    (hreading : ∀ {α : Type} (activity : String) (op : Files → Except IoError α),
      Always related (reading activity op))
    (hchanging : ∀ activity {op}, Alters op → Always related (changing activity op)) :
    Always related (unpack archive dest) := by
  refine Always.bind hchains (Always.asking hchains _) fun there => ?_
  split
  · exact Always.throw hchains _
  · refine Always.bind hchains (always_createDirectories hchains hchanging) fun _ => ?_
    refine Always.bind hchains (Always.within (hreading _ _)) fun bytes => ?_
    split
    · exact Always.within (Always.throw hchains _)
    · exact always_unpackFrom hchains hreading hchanging

/-- Unpacking an archive leaves the machine alone. -/
theorem sameMachine_unpack {archive dest : Path} : Always SameMachine (unpack archive dest) :=
  always_unpack chains_sameMachine (fun _ _ => sameMachine_reading) fun _ _ _ =>
    sameMachine_changing

end RamlBuild
