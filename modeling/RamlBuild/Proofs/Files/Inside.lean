import RamlBuild.Proofs.Files.InPlace
import RamlBuild.Proofs.Files.Replace

/-!
# Changes inside a directory

What works inside a directory leaves everything outside of it alone, and no directory goes. A path
that leads to the directory by locations that stay leads there still, and the paths below it lead
where their names say as long as no link stands on the way.

## Main definitions

* `Location.Inside` — a location lies below another
* `Files.ChangesInside` — nothing changed but what is inside a directory
* `Files.Puts` — one entry came, or took the place of what is no directory
* `Files.LeadsTo`, `Files.HeadsFor` — where a path leads by its links, and where at most

## Main results

* `Files.ChangesInside.leadsTo` — a path to the directory still leads there
* `Files.Puts.changesInside` — an entry that came inside
* `Files.walk_of_clearTo`, `Files.walk_of_open` — where steps below a directory lead
-/

namespace RamlBuild

/-- A location lies below another. -/
def Location.Inside (root l : Location) : Prop :=
  root <+: l ∧ l ≠ root

namespace Location

variable {root d l : Location} {name : String}

theorem inside_append {names : List String} (h : root <+: d) (hne : names ≠ []) :
    Inside root (d ++ names) := by
  refine ⟨h.trans (List.prefix_append d names), ?_⟩
  intro heq
  have hlength := congrArg List.length heq
  have hle := h.length_le
  have hpos := List.length_pos_iff.2 hne
  rw [List.length_append] at hlength
  omega

theorem child_inj {name' : String} : d ++ [name] = d ++ [name'] ↔ name = name' := by
  rw [List.append_right_inj, List.singleton_inj]

/-- What is inside a directory is inside of those above it. -/
theorem Inside.mono {outer : Location} (h : Inside root d) (houter : outer <+: root) :
    Inside outer d := by
  refine ⟨houter.trans h.1, ?_⟩
  rintro rfl
  exact h.2 (houter.eq_of_length_le h.1.length_le)

theorem not_inside_self (root : Location) : ¬Inside root root :=
  fun h => h.2 rfl

end Location

open Location

namespace Files

variable {fs fs' fs'' : Files} {root d l : Location} {e e' : Entry} {name : String} {p q : Path}
  {ways ways' : Location → Prop}

/-! ### Where paths lead -/

/-- A path leads to a location by the given locations, when whatever is missing is taken for a
directory. -/
def LeadsTo (fs : Files) (ways : Location → Prop) (p : Path) (d : Location) : Prop :=
  ∃ trail, fs.trail maxLinks (fs.start p) p.walked = some trail ∧ trail.finish = d ∧
    ∀ v ∈ trail.way, ways v

namespace LeadsTo

theorem leadsBy (h : fs.LeadsTo ways p d) : fs.LeadsBy ways p :=
  let ⟨trail, htrail, _, hway⟩ := h
  ⟨trail, htrail, hway⟩

theorem mono (h : fs.LeadsTo ways p d) (hways : ∀ v, ways v → ways' v) : fs.LeadsTo ways' p d :=
  let ⟨trail, htrail, hfinish, hway⟩ := h
  ⟨trail, htrail, hfinish, fun v hv => hways v (hway v hv)⟩

/-- The links on its way tell where a path leads. -/
theorem congr (h : fs.LeadsTo ways p d) (hdir : fs'.workingDirectory = fs.workingDirectory)
    (hlinks : ∀ v, ways v → fs'.linkAt v = fs.linkAt v) : fs'.LeadsTo ways p d := by
  obtain ⟨trail, htrail, hfinish, hway⟩ := h
  refine ⟨trail, ?_, hfinish, hway⟩
  rw [show fs'.start p = fs.start p by rw [start, hdir, start]]
  exact trail_congr htrail fun v hv => hlinks v (hway v hv)

/-- Where a path leads is on its way. -/
theorem finish (h : fs.LeadsTo ways p d) : ways d := by
  obtain ⟨trail, htrail, rfl, hway⟩ := h
  exact hway _ (finish_mem_way htrail)

theorem eq_of_reach (h : fs.LeadsTo ways p d) (hreach : fs.reach p = .ok l) : l = d := by
  obtain ⟨trail, htrail, rfl, -⟩ := h
  obtain ⟨trail', htrail', rfl, -⟩ := trail_of_walk hreach
  rw [htrail] at htrail'
  rw [Option.some.inj htrail']

/-- What is told about the way of a path holds together. -/
theorem and {d' : Location} (h : fs.LeadsTo ways p d) (h' : fs.LeadsTo ways' p d') :
    d' = d ∧ fs.LeadsTo (fun v => ways v ∧ ways' v) p d := by
  obtain ⟨trail, htrail, rfl, hway⟩ := h
  obtain ⟨trail', htrail', rfl, hway'⟩ := h'
  rw [htrail] at htrail'
  obtain rfl := Option.some.inj htrail'
  exact ⟨rfl, trail, htrail, rfl, fun v hv => ⟨hway v hv, hway' v hv⟩⟩

end LeadsTo

/-- A path that can be walked leads where the walk ends; to a directory it leads by directories and
links. -/
theorem leadsTo_of_reach (h : fs.reach p = .ok l) :
    fs.LeadsTo (fun v => (fs.passage l).isSome → (fs.passage v).isSome) p l := by
  obtain ⟨trail, htrail, hfinish, hway⟩ := trail_of_walk h
  exact ⟨trail, htrail, hfinish, fun v hv hl => hway hl v hv⟩

theorem leadsTo_of_reach_directory {mode : Nat} (h : fs.reach p = .ok l)
    (hdir : fs.get? l = some (.directory mode)) :
    fs.LeadsTo (fun v => (fs.passage v).isSome) p l :=
  (leadsTo_of_reach h).mono fun _ hv => hv (by rw [passage_eq_some_iff.2 ⟨hdir, rfl⟩]; rfl)

theorem holds_stat (h : fs.holds p = true) : ∃ l e, fs.resolve p = .ok l ∧ fs.get? l = some e := by
  rw [Build.holds_eq] at h
  cases hresolve : fs.resolve p with
  | error error =>
    rw [hresolve] at h
    contradiction
  | ok l =>
    rw [hresolve] at h
    obtain ⟨e, he⟩ := Option.isSome_iff_exists.1 h
    exact ⟨l, e, rfl, he⟩

/-- A file that is there is read as it was when directories come. -/
theorem readFile_of_makesDirectories {bytes : ByteArray} (hmakes : MakesDirectories fs fs')
    (hholds : fs.holds p = true) (h : fs'.readFile p = .ok bytes) : fs.readFile p = .ok bytes := by
  obtain ⟨l, e, hresolve, hget⟩ := holds_stat hholds
  have hget' : fs'.get? l = some e := by
    rcases hmakes.get? l with heq | ⟨hnone, -⟩
    · rw [heq, hget]
    · rw [hnone] at hget
      contradiction
  unfold readFile stat at h ⊢
  cases hresolve' : fs'.resolve p with
  | error error =>
    rw [hresolve'] at h
    contradiction
  | ok l' =>
    have hleads := (leadsTo_of_reach (reach_of_resolve hresolve)).congr hmakes.workingDirectory
      fun v _ => hmakes.linkAt v
    obtain rfl := hleads.eq_of_reach (reach_of_resolve hresolve')
    rw [hresolve]
    simp only [hresolve', bind, Except.bind, entryAt, hget, hget'] at h ⊢
    exact h

/-- A path leads to no other directory. -/
def HeadsFor (fs : Files) (p : Path) (d : Location) : Prop :=
  ∀ l mode, fs.reach p = .ok l → fs.get? l = some (.directory mode) → l = d

theorem LeadsTo.headsFor (h : fs.LeadsTo ways p d) : fs.HeadsFor p d :=
  fun _ _ hreach _ => h.eq_of_reach hreach

namespace HeadsFor

/-- Where fewer directories and links are a path leads to no other directory. -/
theorem of_fewerPassages (h : fs.HeadsFor p d) (hfewer : FewerPassages fs fs') :
    fs'.HeadsFor p d := by
  intro l mode hreach hdir
  rcases reach_of_fewerPassages hfewer hreach with hreach' | hnone
  · exact h l mode hreach' (hfewer.get?_eq rfl hdir)
  · rw [passage_eq_some_iff.2 ⟨hdir, rfl⟩] at hnone
    contradiction

/-- The place of an entry in the directory. -/
theorem place (h : fs.HeadsFor p d) (hname : IsPlainName name) (hplace : fs.place (p / name) = .ok l) :
    l = d ++ [name] ∧ ∃ mode, fs.get? d = some (.directory mode) := by
  obtain ⟨-, dir, hreach, hstep⟩ := (place_child_iff hname).1 hplace
  obtain ⟨mode, hdir⟩ := exists_directory_of_takeStep hstep
  obtain rfl := h dir mode hreach hdir
  exact ⟨eq_append_of_takeStep hstep, mode, hdir⟩

/-- What an entry of the directory that is no link leads to. -/
theorem reach_child (h : fs.HeadsFor p d) (htree : fs.IsTree) (hname : IsPlainName name)
    (hlink : fs.linkAt (d ++ [name]) = none) (hreach : fs.reach (p / name) = .ok l) :
    l = d ++ [name] := by
  rw [Files.reach_child hname] at hreach
  · cases hdir : fs.reach p with
    | error error =>
      rw [hdir] at hreach
      contradiction
    | ok dir =>
      rw [hdir] at hreach
      obtain ⟨mode, hmode⟩ := exists_directory_of_takeStep hreach
      rw [eq_append_of_takeStep hreach, h dir mode hdir hmode]
  · intro dir hdir _ n target heq hget
    obtain rfl := Step.name.inj heq
    obtain ⟨mode, hmode⟩ := htree dir name _ hget
    rw [h dir mode hdir hmode] at hget
    rw [linkAt_eq_some_iff.2 hget] at hlink
    contradiction

end HeadsFor

/-! ### Paths below a directory -/

/-- The names among steps. -/
def namesOf (steps : List Step) : List String :=
  steps.filterMap fun
    | .name n => some n
    | _ => none

@[simp] theorem namesOf_append (steps steps' : List Step) :
    namesOf (steps ++ steps') = namesOf steps ++ namesOf steps' :=
  List.filterMap_append

/-- Steps that stay or go to a named entry. -/
def GoDown (steps : List Step) : Prop :=
  ∀ step ∈ steps, step = .here ∨ ∃ n, step = .name n

/-- No link stands below a location on the way that names take from it, their end included. -/
def ClearTo (fs : Files) (root : Location) (names : List String) : Prop :=
  ∀ init, init <+: names → init ≠ [] → fs.linkAt (root ++ init) = none

theorem ClearTo.of_prefix {names names' : List String} (h : fs.ClearTo root names)
    (hfirst : names' <+: names) : fs.ClearTo root names' :=
  fun init hinit => h init (hinit.trans hfirst)

/-- Steps that go down from a directory lead where their names say, unless a link stands on the way.
-/
theorem walk_of_clearTo {follow : Bool} {links : Nat} {loc : Location} {steps rest : List Step}
    (hroot : ∀ d mode, fs.walk true links loc steps = .ok d →
      fs.get? d = some (.directory mode) → d = root)
    (htree : fs.IsTree) (hrest : GoDown rest) (hne : rest ≠ [])
    (hclear : fs.ClearTo root (namesOf rest))
    (hwalk : fs.walk follow links loc (steps ++ rest) = .ok l) : l = root ++ namesOf rest := by
  induction rest using List.reverseRecOn generalizing l follow with
  | nil => contradiction
  | append_singleton init last ih =>
    have hinit : GoDown init := fun step hstep => hrest step (List.mem_append_left _ hstep)
    have hclearInit : fs.ClearTo root (namesOf init) :=
      hclear.of_prefix (by rw [namesOf_append]; exact List.prefix_append _ _)
    -- The steps before the last one lead to the directory that their names say.
    have hdir : ∀ d mode, fs.walk true links loc (steps ++ init) = .ok d →
        fs.get? d = some (.directory mode) → d = root ++ namesOf init := by
      intro d mode hd hmode
      by_cases hnil : init = []
      · subst hnil
        rw [List.append_nil] at hd
        simpa [namesOf] using hroot d mode hd hmode
      · exact ih hinit hnil hclearInit hd
    rw [← List.append_assoc, walk_append] at hwalk
    · cases hd : fs.walk true links loc (steps ++ init) with
      | error error =>
        rw [hd] at hwalk
        contradiction
      | ok d =>
        rw [hd] at hwalk
        obtain ⟨mode, hmode⟩ := exists_directory_of_takeStep hwalk
        obtain rfl := hdir d mode hd hmode
        rcases hrest last (by simp) with rfl | ⟨n, rfl⟩
        · have hstay : l = root ++ namesOf init := by
            simp only [Except.bind] at hwalk
            obtain ⟨mode, hget, henter⟩ := exists_directory_of_walkUpTo hwalk
            rw [takeStep, walkUpTo_of_entered hget henter] at hwalk
            exact (Except.ok.inj hwalk).symm
          rw [hstay, namesOf_append]
          simp [namesOf]
        · rw [eq_append_of_takeStep hwalk, namesOf_append, List.append_assoc]
          rfl
    · intro d hd _ n target heq hget
      subst heq
      obtain ⟨mode, hmode⟩ := htree d n _ hget
      obtain rfl := hdir d mode hd hmode
      have hnone := hclear (namesOf (init ++ [.name n])) (List.prefix_refl _) (by simp [namesOf])
      rw [namesOf_append, ← List.append_assoc] at hnone
      rw [show namesOf [.name n] = [n] from rfl, linkAt_eq_some_iff.2 hget] at hnone
      contradiction

/-- The directories from a location on, up to the last of some names, may be entered, and the names
are no longer than names may be. -/
def Open (fs : Files) (root : Location) (names : List String) : Prop :=
  (∀ init mode, init <+: names → fs.get? (root ++ init) = some (.directory mode) →
    (Entry.directory mode).permits .enter = true) ∧ ∀ n ∈ names, n.utf8ByteSize ≤ maxNameSize

theorem Open.of_prefix {names names' : List String} (h : fs.Open root names)
    (hfirst : names' <+: names) : fs.Open root names' :=
  ⟨fun init mode hinit => h.1 init mode (hinit.trans hfirst), fun n hn => h.2 n (hfirst.mem hn)⟩

theorem takeStep_here {mode : Nat} (hget : fs.get? l = some (.directory mode))
    (henter : (Entry.directory mode).permits .enter = true) : fs.takeStep l .here = .ok l := by
  rw [takeStep, walkUpTo_of_entered hget (by simp [henter])]
  rfl

/-- Steps that go down from a directory lead to the directory that is there, if they may be taken.
-/
theorem walk_of_open {links : Nat} {loc : Location} {steps rest : List Step} {mode : Nat}
    (hwalk : fs.walk true links loc steps = .ok root) (htree : fs.IsTree) (hrest : GoDown rest)
    (hopen : fs.Open root (namesOf rest))
    (hdir : fs.get? (root ++ namesOf rest) = some (.directory mode)) :
    fs.walk true links loc (steps ++ rest) = .ok (root ++ namesOf rest) := by
  induction rest using List.reverseRecOn generalizing mode with
  | nil => simpa [namesOf] using hwalk
  | append_singleton init last ih =>
    have hinit : GoDown init := fun step hstep => hrest step (List.mem_append_left _ hstep)
    have hfirst : namesOf init <+: namesOf (init ++ [last]) := by
      rw [namesOf_append]
      exact List.prefix_append _ _
    rcases hrest last (by simp) with rfl | ⟨n, rfl⟩
    · have hsame : namesOf (init ++ [.here]) = namesOf init := by simp [namesOf]
      rw [hsame] at hdir hopen ⊢
      have henter := hopen.1 _ mode (List.prefix_refl _) hdir
      rw [← List.append_assoc, walk_append fun d _ _ n target h => by contradiction,
        ih hinit hopen hdir]
      exact takeStep_here hdir henter
    · have hnames : namesOf (init ++ [.name n]) = namesOf init ++ [n] := by
        rw [namesOf_append]
        rfl
      rw [hnames, ← List.append_assoc] at hdir
      obtain ⟨mode', hmode'⟩ := htree _ n _ hdir
      have hwalk' := ih hinit (hopen.of_prefix hfirst) hmode'
      rw [← List.append_assoc, walk_append, hwalk', hnames, ← List.append_assoc]
      · exact takeStep_name_iff.2 ⟨rfl, hopen.2 n (by simp [hnames]), mode', hmode',
          hopen.1 _ mode' hfirst hmode'⟩
      · intro d hd
        rw [hwalk'] at hd
        obtain rfl := Except.ok.inj hd
        exact endsPlainly_of_linkAt (linkAt_of_directory hdir)

/-- Steps that go down from a directory to a name lead to what is there, if they may be taken and it
is no link. -/
theorem walk_name_of_open {follow : Bool} {links : Nat} {loc : Location} {steps init : List Step}
    {n : String} {e : Entry} (hwalk : fs.walk true links loc steps = .ok root) (htree : fs.IsTree)
    (hinit : GoDown init) (hopen : fs.Open root (namesOf init ++ [n]))
    (hget : fs.get? (root ++ namesOf init ++ [n]) = some e)
    (hlink : fs.linkAt (root ++ namesOf init ++ [n]) = none) :
    fs.walk follow links loc (steps ++ (init ++ [.name n])) = .ok (root ++ namesOf init ++ [n]) := by
  obtain ⟨mode, hmode⟩ := htree _ n e hget
  have hfirst : namesOf init <+: namesOf init ++ [n] := List.prefix_append _ _
  have hdir := walk_of_open hwalk htree hinit (hopen.of_prefix hfirst) hmode
  rw [← List.append_assoc, walk_append, hdir]
  · exact takeStep_name_iff.2 ⟨rfl, hopen.2 n (by simp), mode, hmode, hopen.1 _ mode hfirst hmode⟩
  · intro d hd
    rw [hdir] at hd
    obtain rfl := Except.ok.inj hd
    exact endsPlainly_of_linkAt hlink

/-! ### Changes -/

/-- What is inside a directory may have changed, but no directory went. -/
structure ChangesInside (root : Location) (fs fs' : Files) : Prop where
  workingDirectory : fs'.workingDirectory = fs.workingDirectory
  isTree : fs.IsTree → fs'.IsTree
  get?_eq : ∀ l, ¬Inside root l → fs'.get? l = fs.get? l
  directory : ∀ l mode, fs.get? l = some (.directory mode) →
    ∃ mode', fs'.get? l = some (.directory mode')

namespace ChangesInside

theorem refl (root : Location) (fs : Files) : ChangesInside root fs fs :=
  ⟨rfl, fun h => h, fun _ _ => rfl, fun _ mode h => ⟨mode, h⟩⟩

theorem trans (h : ChangesInside root fs fs') (h' : ChangesInside root fs' fs'') :
    ChangesInside root fs fs'' where
  workingDirectory := h'.workingDirectory.trans h.workingDirectory
  isTree htree := h'.isTree (h.isTree htree)
  get?_eq l hl := (h'.get?_eq l hl).trans (h.get?_eq l hl)
  directory l mode hl :=
    let ⟨mode', hl'⟩ := h.directory l mode hl
    h'.directory l mode' hl'

theorem mono {outer : Location} (h : ChangesInside root fs fs') (houter : outer <+: root) :
    ChangesInside outer fs fs' := by
  exact ⟨h.workingDirectory, h.isTree, fun l hl => h.get?_eq l fun hin => hl (hin.mono houter),
    h.directory⟩

end ChangesInside

theorem MakesDirectories.changesInside (h : MakesDirectories fs fs')
    (hoff : ∀ l, ¬Inside root l → fs'.get? l = fs.get? l) : ChangesInside root fs fs' where
  workingDirectory := h.workingDirectory
  isTree := h.isTree
  get?_eq := hoff
  directory l mode hl := by
    have hpassage := h.passage (passage_eq_some_iff.2 ⟨hl, rfl⟩)
    exact ⟨mode, (passage_eq_some_iff.1 hpassage).1⟩

/-- A location that work inside a directory does not take away: a directory, or something that is
not inside. -/
def Stays (root : Location) (fs : Files) (v : Location) : Prop :=
  (∃ mode, fs.get? v = some (.directory mode)) ∨ (fs.get? v).isSome ∧ ¬Inside root v

/-- A path that leads to a directory by what stays does so still. -/
theorem ChangesInside.leadsTo (h : ChangesInside root fs fs')
    (hleads : fs.LeadsTo (Stays root fs) p d) : fs'.LeadsTo (Stays root fs') p d := by
  refine (hleads.congr h.workingDirectory ?_).mono ?_
  · rintro v (⟨mode, hmode⟩ | ⟨-, hv⟩)
    · obtain ⟨mode', hmode'⟩ := h.directory v mode hmode
      rw [linkAt_of_directory hmode, linkAt_of_directory hmode']
    · exact linkAt_eq_of_get?_eq (h.get?_eq v hv)
  · rintro v (⟨mode, hmode⟩ | ⟨hsome, hv⟩)
    · exact .inl (h.directory v mode hmode)
    · exact .inr ⟨by rwa [h.get?_eq v hv], hv⟩

/-- An entry came in a directory, or took the place of what is no directory there. -/
structure Puts (fs fs' : Files) (d : Location) (name : String) (e : Entry) : Prop where
  get?_self : fs'.get? (d ++ [name]) = some e
  get?_other : ∀ l, l ≠ d ++ [name] → fs'.get? l = fs.get? l
  workingDirectory : fs'.workingDirectory = fs.workingDirectory
  directory : ∃ mode, fs.get? d = some (.directory mode)
  free : ∀ mode, fs.get? (d ++ [name]) ≠ some (.directory mode)

theorem puts_put (hdir : ∃ mode, fs.get? d = some (.directory mode))
    (hfree : ∀ mode, fs.get? (d ++ [name]) ≠ some (.directory mode)) :
    Puts fs (fs.put (d ++ [name]) e) d name e :=
  ⟨get?_put_self (by simp), fun _ hl => get?_put_of_ne hl, rfl, hdir, hfree⟩

/-- A file stays where it is when it is put there again. -/
theorem puts_self {contents : ByteArray} {mode : Nat} {shared : Option Nat} (htree : fs.IsTree)
    (h : fs.get? (d ++ [name]) = some (.file contents mode shared)) :
    Puts fs fs d name (.file contents mode shared) :=
  ⟨h, fun _ _ => rfl, rfl, htree d name _ h, by simp [h]⟩

namespace Puts

theorem isTree (h : Puts fs fs' d name e) (htree : fs.IsTree) : fs'.IsTree := by
  obtain ⟨mode, hmode⟩ := h.directory
  have hput : (fs.put (d ++ [name]) e).IsTree := htree.put hmode h.free
  refine hput.congr fun l => ?_
  rw [get?_put (by simp)]
  split
  · rename_i heq
    rw [heq, h.get?_self]
  · rename_i hne
    exact h.get?_other l hne

/-- Of two entries that come at one place the second one stays. -/
theorem trans (h : Puts fs fs' d name e) (h' : Puts fs' fs'' d name e') :
    Puts fs fs'' d name e' where
  get?_self := h'.get?_self
  get?_other l hl := (h'.get?_other l hl).trans (h.get?_other l hl)
  workingDirectory := h'.workingDirectory.trans h.workingDirectory
  directory := h.directory
  free := h.free

/-- What is erased first may as well have been replaced at once. -/
theorem of_erase (h : Puts (fs.erase (d ++ [name])) fs' d name e)
    (hfree : ∀ mode, fs.get? (d ++ [name]) ≠ some (.directory mode)) : Puts fs fs' d name e where
  get?_self := h.get?_self
  get?_other l hl := (h.get?_other l hl).trans (get?_erase_of_ne hl)
  workingDirectory := h.workingDirectory
  directory := by
    obtain ⟨mode, hmode⟩ := h.directory
    have hne : d ≠ d ++ [name] := by simp
    exact ⟨mode, by rwa [get?_erase_of_ne hne] at hmode⟩
  free := hfree

theorem changesInside (h : Puts fs fs' d name e) (hroot : root <+: d) :
    ChangesInside root fs fs' where
  workingDirectory := h.workingDirectory
  isTree := h.isTree
  get?_eq l hl := by
    refine h.get?_other l ?_
    rintro rfl
    exact hl (inside_append hroot (by simp))
  directory l mode hl := by
    refine ⟨mode, ?_⟩
    rw [h.get?_other l, hl]
    rintro rfl
    exact h.free mode hl

/-- A file brings no directory and no link. -/
theorem fewerPassages (h : Puts fs fs' d name e) (he : e.isFile = true) : FewerPassages fs fs' := by
  refine ⟨?_, h.workingDirectory⟩
  intro l e' hpassage
  obtain ⟨hget, hfile⟩ := passage_eq_some_iff.1 hpassage
  by_cases hl : l = d ++ [name]
  · rw [hl, h.get?_self] at hget
    rw [Option.some.inj hget, hfile] at he
    contradiction
  · exact passage_eq_some_iff.2 ⟨(h.get?_other l hl).symm.trans hget, hfile⟩

theorem linkAt_other (h : Puts fs fs' d name e) (hl : l ≠ d ++ [name]) :
    fs'.linkAt l = fs.linkAt l :=
  linkAt_eq_of_get?_eq (h.get?_other l hl)

theorem contentsAt_other (h : Puts fs fs' d name e) (hl : l ≠ d ++ [name]) :
    fs'.contentsAt l = fs.contentsAt l := by
  rw [contentsAt, h.get?_other l hl, contentsAt]

end Puts

end Files

end RamlBuild
