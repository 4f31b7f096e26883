import RamlBuild.Proofs.Archive.Contents

/-!
# Paths with a fixed place

What a path is for may have to outlast other work: files that are written, moved or removed before the
path is used. As long as no directory and no link comes by that work, a path that leads down from a
directory without links on its way keeps its place.

## Main definitions

* `Files.HasFile` — a file stands at a location
* `Files.FixedAt` — a path keeps its place when directories and links do not come

## Main results

* `Files.LeadsTo.child` — the way to an entry of a directory
* `Files.HeadsFor.fixedAt` — the entries of a directory keep their places
* `Files.fixedAt_descend` — what names lead to from a directory
* `Archive.fixedAt_join` — what a relative path leads to from a directory
-/

namespace RamlBuild

theorem Entry.isDirectory_eq_false {e : Entry} (h : e.isFile = true) : e.isDirectory = false := by
  cases e with
  | file => rfl
  | directory | link => contradiction

namespace Files

variable {fs fs' : Files} {p : Path} {d l l' : Location} {name : String} {names : List String}

/-- A file stands at a location. -/
def HasFile (fs : Files) (l : Location) : Prop :=
  ∃ e, fs.get? l = some e ∧ e.isFile = true

theorem HasFile.passage (h : fs.HasFile l) : fs.passage l = none := by
  obtain ⟨e, hget, he⟩ := h
  cases e with
  | file => exact passage_of_file hget
  | directory | link => contradiction

theorem HasFile.linkAt (h : fs.HasFile l) : fs.linkAt l = none :=
  linkAt_eq_none_of_passage h.passage

/-! ### Entries of a directory -/

/-- The trail with one more location at its end. -/
def Trail.goingTo (trail : Trail) (name : String) : Trail :=
  ⟨trail.way ++ [trail.finish ++ [name]], trail.finish ++ [name]⟩

theorem trailUpTo_concat {beyond : Location → List Step → Option Trail} {loc : Location}
    {steps : List Step} {trail : Trail}
    (hbeyond : ∀ loc steps trail, beyond loc steps = some trail →
      fs.linkAt (trail.finish ++ [name]) = none →
      beyond loc (steps ++ [.name name]) = some (trail.goingTo name))
    (h : fs.trailUpTo beyond loc steps = some trail)
    (hlink : fs.linkAt (trail.finish ++ [name]) = none) :
    fs.trailUpTo beyond loc (steps ++ [.name name]) = some (trail.goingTo name) := by
  induction steps generalizing loc trail with
  | nil =>
    obtain rfl : ⟨[loc], loc⟩ = trail := by simpa [trailUpTo] using h
    simp only [List.nil_append, trailUpTo]
    rw [hlink]
    rfl
  | cons step rest ih =>
    cases step with
    | inside => exact ih h hlink
    | here => exact ih h hlink
    | up =>
      obtain ⟨trail', htrail, rfl⟩ := Option.map_eq_some_iff.1 h
      simp only [List.cons_append, trailUpTo]
      rw [ih htrail hlink]
      rfl
    | name n =>
      simp only [List.cons_append, trailUpTo] at h ⊢
      cases hother : fs.linkAt (loc ++ [n]) with
      | some target =>
        simp only [hother] at h
        obtain ⟨trail', htrail, rfl⟩ := Option.map_eq_some_iff.1 h
        simp only
        rw [← List.append_assoc, hbeyond _ _ _ htrail hlink]
        rfl
      | none =>
        simp only [hother] at h
        obtain ⟨trail', htrail, rfl⟩ := Option.map_eq_some_iff.1 h
        simp only
        rw [ih htrail hlink]
        rfl

theorem trail_concat {links : Nat} {loc : Location} {steps : List Step} {trail : Trail}
    (h : fs.trail links loc steps = some trail)
    (hlink : fs.linkAt (trail.finish ++ [name]) = none) :
    fs.trail links loc (steps ++ [.name name]) = some (trail.goingTo name) := by
  induction links generalizing loc steps trail with
  | zero => exact trailUpTo_concat (by simp) h hlink
  | succ links ih => exact trailUpTo_concat (fun _ _ _ => ih) h hlink

/-- An entry that is no link is led to by the way of its directory. -/
theorem LeadsTo.child {ways : Location → Prop} (h : fs.LeadsTo ways p d) (hname : IsPlainName name)
    (hlink : fs.linkAt (d ++ [name]) = none) :
    fs.LeadsTo (fun v => ways v ∨ v = d ++ [name]) (p / name) (d ++ [name]) := by
  obtain ⟨trail, htrail, rfl, hway⟩ := h
  refine ⟨trail.goingTo name, ?_, rfl, fun v hv => ?_⟩
  · rw [start, Path.isAbsolute_child hname, ← start, Path.walked_child hname]
    exact trail_concat htrail hlink
  · rcases List.mem_append.1 hv with hv | hv
    · exact .inl (hway v hv)
    · exact .inr (List.mem_singleton.1 hv)

/-- A file is read by its name in its directory. -/
theorem HeadsFor.readFile_eq {contents bytes : ByteArray} {mode : Nat}
    {shared : Option Nat} (h : fs.HeadsFor p d) (htree : fs.IsTree) (hname : IsPlainName name)
    (hget : fs.get? (d ++ [name]) = some (.file contents mode shared))
    (hread : fs.readFile (p / name) = .ok bytes) : bytes = contents := by
  unfold readFile stat at hread
  cases hresolve : fs.resolve (p / name) with
  | error error =>
    rw [hresolve] at hread
    contradiction
  | ok l' =>
    obtain rfl := h.reach_child htree hname (linkAt_of_file hget) (reach_of_resolve hresolve)
    simp only [hresolve, bind, Except.bind, entryAt, hget] at hread
    split at hread
    · contradiction
    · exact (Except.ok.inj hread).symm

/-! ### Paths with a fixed place -/

/-- A path has no other place, also when directories and links have gone and files have come. -/
def FixedAt (fs : Files) (p : Path) (l : Location) : Prop :=
  ∀ fs', FewerPassages fs fs' → fs'.IsTree → ∀ l', fs'.place p = .ok l' → l' = l

theorem FixedAt.of_fewerPassages (h : fs.FixedAt p l) (hfewer : FewerPassages fs fs') :
    fs'.FixedAt p l :=
  fun fs'' hfewer' => h fs'' (hfewer.trans hfewer')

theorem FixedAt.place_eq (h : fs.FixedAt p l) (htree : fs.IsTree) (hplace : fs.place p = .ok l') :
    l' = l :=
  h fs (FewerPassages.refl fs) htree l' hplace

theorem FewerPassages.linkAt_eq_none (h : FewerPassages fs fs') (hlink : fs.linkAt l = none) :
    fs'.linkAt l = none := by
  cases hlink' : fs'.linkAt l with
  | none => rfl
  | some target =>
    rw [linkAt_eq_some_iff.2 (h.get?_eq rfl (linkAt_eq_some_iff.1 hlink'))] at hlink
    contradiction

theorem ClearTo.of_fewerPassages (h : fs.ClearTo d names) (hfewer : FewerPassages fs fs') :
    fs'.ClearTo d names :=
  fun init hinit hne => hfewer.linkAt_eq_none (h init hinit hne)

/-- What stands in directories all the way down has no link on its way. -/
theorem IsTree.clearTo {e : Entry} (htree : fs.IsTree) (hget : fs.get? (d ++ names) = some e)
    (hlink : fs.linkAt (d ++ names) = none) : fs.ClearTo d names := by
  intro init hinit _
  obtain ⟨rest, rfl⟩ := hinit
  rcases List.eq_nil_or_concat rest with rfl | ⟨rest', last, rfl⟩
  · rwa [List.append_nil] at hlink
  · rw [List.concat_eq_append, ← List.append_assoc, ← List.append_assoc] at hget
    obtain ⟨mode, hmode⟩ := htree _ last e hget
    obtain ⟨mode', hmode'⟩ := htree.directory_of_prefix hmode (List.prefix_append _ _)
    exact linkAt_of_directory hmode'

/-- The place of an entry is fixed where the path of its directory leads to no other one. -/
theorem HeadsFor.fixedAt (h : fs.HeadsFor p d) (hname : IsPlainName name) :
    fs.FixedAt (p / name) (d ++ [name]) :=
  fun _ hfewer _ _ hplace => ((h.of_fewerPassages hfewer).place hname hplace).1

/-- The path that names lead to leads to no other directory than theirs. -/
theorem HeadsFor.descend (h : fs.HeadsFor p d) (htree : fs.IsTree)
    (hplain : ∀ n ∈ names, IsPlainName n) (hclear : fs.ClearTo d names) :
    fs.HeadsFor (p.descend names) (d ++ names) := by
  intro l mode hreach hmode
  by_cases hnil : names = []
  · subst hnil
    rw [List.append_nil]
    exact h l mode hreach hmode
  · exact Archive.eq_append_of_reach h htree hplain hnil hclear hreach

/-- The place that names lead to is fixed when no link stands before the last one. -/
theorem fixedAt_descend (h : fs.HeadsFor p d) (hplain : ∀ n ∈ names, IsPlainName n)
    (hne : names ≠ []) (hclear : fs.ClearTo d names.dropLast) :
    fs.FixedAt (p.descend names) (d ++ names) := by
  intro fs' hfewer htree l' hplace
  obtain ⟨init, last, rfl⟩ := (List.eq_nil_or_concat names).resolve_left hne
  rw [List.concat_eq_append] at *
  rw [List.dropLast_concat] at hclear
  rw [Path.descend_concat] at hplace
  have hheads := (h.of_fewerPassages hfewer).descend htree
    (fun n hn => hplain n (List.mem_append_left _ hn)) (hclear.of_fewerPassages hfewer)
  rw [(hheads.place (hplain last (by simp)) hplace).1, List.append_assoc]

end Files

open Files

namespace Archive

variable {fs : Files} {dest p : Path} {root : Location} {names : List String}

/-- The place of a relative path that ends in a name is fixed when no link is on its way. -/
theorem fixedAt_join (hne : dest.text ≠ "") (h : fs.HeadsFor dest root)
    (habsolute : p.isAbsolute = false) (hend : EndsInName p) (hnames : targetNames? p = some names)
    (hclear : fs.ClearTo root names) : fs.FixedAt (dest / p) (root ++ names) :=
  fun _ hfewer htree _ hplace => eq_append_of_locate hne (h.of_fewerPassages hfewer) htree habsolute
    hend hnames (hclear.of_fewerPassages hfewer) hplace

end Archive

end RamlBuild
