import RamlBuild.Proofs.Archive.Placing

/-!
# Unpacking a member

The directories that a member needs are made inside the destination, and the member is placed there.
When no link stands on its way the place is the one that its name says.

## Main definitions

* `Archive.Anchored` — a path leads to a directory by what stays when its inside changes
* `Archive.Unpacked` — what unpacking a member comes to

## Main results

* `Archive.createInside_ok` — directories are made inside the destination only
* `Archive.unpackMember_ok` — one member
-/

namespace RamlBuild.Archive

open Build Location Files

variable {host host' : Host} {par p q dest : Path} {d root : Location} {name : String}
  {names : List String} {m : Member} {ways : Location → Prop} {activity : String}

/-! ### Directories on the way of a path -/

/-- Something is everywhere on the way of a path. -/
def Paved (fs : Files) (p : Path) (d : Location) : Prop :=
  fs.LeadsTo (fun v => (fs.get? v).isSome) p d

theorem Paved.of_makesDirectories {fs fs' : Files} (h : Paved fs p d)
    (hmakes : MakesDirectories fs fs') : Paved fs' p d := by
  refine (h.congr hmakes.workingDirectory fun v _ => hmakes.linkAt v).mono fun v hv => ?_
  rcases hmakes.get? v with heq | ⟨-, mode, hmode⟩
  · rwa [heq]
  · rw [hmode]
    rfl

/-- What changes while a path stays paved. -/
def ChangesOnly (free : Location → Prop) (p : Path) (d : Location) (host host' : Host) : Prop :=
  Paved host.files p d →
    (∀ l, ¬free l → host'.files.get? l = host.files.get? l) ∧ Paved host'.files p d

theorem chains_changesOnly (free : Location → Prop) (p : Path) (d : Location) :
    Chains (ChangesOnly free p d) where
  refl _ := fun h => ⟨fun _ _ => rfl, h⟩
  trans h h' := fun hpaved =>
    let ⟨hget, hpaved'⟩ := h hpaved
    let ⟨hget', hpaved''⟩ := h' hpaved'
    ⟨fun l hl => (hget' l hl).trans (hget l hl), hpaved''⟩

/-- Where a path is paved no directory is missing, so one can only be made as its entry. -/
theorem changesOnly_createDirectory {free : Location → Prop}
    (hq : Path.AtOrAbove par q ∨ ∃ name, IsPlainName name ∧ q = par / name ∧ free (d ++ [name])) :
    Always (ChangesOnly free par d) (changing activity (·.createDirectory q)) := by
  intro host result host' h hpaved
  refine ⟨?_, hpaved.of_makesDirectories (createDirectory_makes h).1⟩
  cases result with
  | error failure =>
    rw [(changing_error h).1]
    exact fun _ _ => rfl
  | ok =>
    obtain ⟨hop, -⟩ := changing_ok h
    obtain ⟨l, hplace, hfree, hput⟩ := createDirectory_ok hop
    intro v hv
    rw [hput]
    rcases hq with ⟨hwalked, habsolute⟩ | ⟨name, hname, rfl, hfreed⟩
    · have hsome := (hpaved.leadsBy.of_prefix hwalked habsolute).free hplace hfree
      rw [hfree] at hsome
      contradiction
    · rw [dropSlashes_of_not_endsInSlash (Path.endsInSlash_child hname)] at hplace
      obtain ⟨rfl, -⟩ := hpaved.headsFor.place hname hplace
      refine get?_put_of_ne ?_
      rintro rfl
      exact hv hfreed

/-- A directory that is made in one that is there is the only one that comes. -/
theorem createDirectories_child {result : Except Failure Unit} (hpaved : Paved host.files par d)
    (hname : IsPlainName name) (h : exec (createDirectories (par / name)) host = (result, host')) :
    ∀ l, l ≠ d ++ [name] → host'.files.get? l = host.files.get? l := by
  have hancestors : ∀ q ∈ (par / name).ancestors,
      Path.AtOrAbove par q ∨
        ∃ name', IsPlainName name' ∧ q = par / name' ∧ d ++ [name'] = d ++ [name] := by
    intro q hq
    refine Path.ancestors_induction (fun q => Path.AtOrAbove par q ∨
      ∃ name', IsPlainName name' ∧ q = par / name' ∧ d ++ [name'] = d ++ [name]) ?_
      (.inr ⟨name, hname, rfl, rfl⟩) hq
    rintro p q (⟨hwalked, habsolute⟩ | ⟨name', hname', rfl, -⟩) hparent
    · obtain ⟨hwalked', habsolute'⟩ := Path.walked_parent? hparent
      exact .inl ⟨hwalked'.trans hwalked, habsolute'.trans habsolute⟩
    · exact .inl (Path.atOrAbove_of_parent?_child hname' hparent)
  have halways : Always (ChangesOnly (· = d ++ [name]) par d) (createDirectories (par / name)) :=
    always_makeDirectories (chains_changesOnly _ par d) fun q hq =>
      changesOnly_createDirectory (hancestors q hq)
  exact (halways h hpaved).1

/-- Nothing comes at or above a directory that is there. -/
theorem createDirectories_above {result : Except Failure Unit} (hpaved : Paved host.files dest d)
    (habove : Path.AtOrAbove dest q) (h : exec (createDirectories q) host = (result, host')) :
    ∀ l, host'.files.get? l = host.files.get? l := by
  have hancestors : ∀ q' ∈ q.ancestors, Path.AtOrAbove dest q' := by
    intro q' hq'
    obtain ⟨hwalked, habsolute⟩ := Path.walked_ancestors hq'
    exact ⟨hwalked.trans habove.1, habsolute.trans habove.2⟩
  have halways : Always (ChangesOnly (fun _ => False) dest d) (createDirectories q) :=
    always_makeDirectories (chains_changesOnly _ dest d) fun q' hq' =>
      changesOnly_createDirectory (.inl (hancestors q' hq'))
  exact fun l => (halways h hpaved).1 l (by simp)

/-- When a directory was made by a path that led to something, that was a directory. -/
theorem paved_of_made {inner : Location} {e : Entry} (hname : IsPlainName name)
    (hreach : host.files.reach par = .ok inner) (hentry : host.files.get? inner = some e)
    (h : exec (createDirectories (par / name)) host = (.ok (), host')) :
    Paved host.files par inner := by
  have hmakes := (createDirectories_makes h).1
  obtain ⟨l, mode, hl, hdir⟩ := createDirectories_reach (Path.text_child_ne_empty hname) h
  have hleads := leadsTo_of_reach_directory hl hdir
  -- The way of the new directory goes by that of the one above it.
  have hpassage : (host'.files.passage inner).isSome := by
    have hpar : host'.files.LeadsBy (fun v => (host'.files.passage v).isSome) par := by
      refine hleads.leadsBy.of_prefix ?_ (Path.isAbsolute_child hname).symm
      rw [Path.walked_child hname]
      exact List.prefix_append _ _
    exact (hpar.congr hmakes.workingDirectory.symm fun v _ => (hmakes.linkAt v).symm).reach hreach
  have hpassage' : (host.files.passage inner).isSome := by
    rcases hmakes.get? inner with heq | ⟨hnone, -⟩
    · rwa [passage, heq] at hpassage
    · rw [hnone] at hentry
      contradiction
  refine (leadsTo_of_reach hreach).mono fun v hv => ?_
  obtain ⟨e', he'⟩ := Option.isSome_iff_exists.1 (hv hpassage')
  rw [(passage_eq_some_iff.1 he').1]
  rfl

/-! ### Inside the destination -/

/-- A path leads to a directory by what stays when the inside of the directory changes. -/
structure Anchored (fs : Files) (dest : Path) (root : Location) : Prop where
  leadsTo : fs.LeadsTo (Stays root fs) dest root
  directory : ∃ mode, fs.get? root = some (.directory mode)
  plain : ∀ n ∈ root, IsPlainName n
  isTree : fs.IsTree

namespace Anchored

theorem changesInside {fs fs' : Files} (h : Anchored fs dest root)
    (hchanges : ChangesInside root fs fs') : Anchored fs' dest root where
  leadsTo := hchanges.leadsTo h.leadsTo
  directory :=
    let ⟨mode, hmode⟩ := h.directory
    ⟨mode, (hchanges.get?_eq root (not_inside_self root)).trans hmode⟩
  plain := h.plain
  isTree := hchanges.isTree h.isTree

theorem paved {fs : Files} (h : Anchored fs dest root) : Paved fs dest root := by
  refine h.leadsTo.mono ?_
  rintro v (⟨mode, hmode⟩ | ⟨hsome, -⟩)
  · rw [hmode]
    rfl
  · exact hsome

end Anchored

/-- A directory is made inside when the one above it was found there. -/
def requireParent (dest p : Path) : Build Unit :=
  match p.parent? with
  | some parent => requireInside dest parent
  | none => pure ()

theorem createInside_cons (dest p : Path) (above : List Path) :
    createInside dest (p :: above) = (do
      createInside dest above
      requireParent dest p
      createDirectories p) := by
  rw [createInside, requireParent]
  cases p.parent? <;> rfl

/-- The directories that a member needs come inside the destination. -/
theorem createInside_ok {paths : List Path} (hpaths : ∀ q ∈ paths, Path.Descends dest q)
    (hanchored : Anchored host.files dest root)
    (h : exec (createInside dest paths) host = (.ok (), host')) :
    MakesDirectories host.files host'.files ∧ ChangesInside root host.files host'.files := by
  induction paths generalizing host' with
  | nil =>
    obtain ⟨-, rfl⟩ := Prod.mk.inj h
    exact ⟨MakesDirectories.refl _, ChangesInside.refl root _⟩
  | cons p above ih =>
    rw [createInside_cons] at h
    obtain ⟨⟨⟩, host₁, habove, h⟩ := exec_bind_ok h
    obtain ⟨hmakes₁, hchanges₁⟩ := ih (fun q hq => hpaths q (List.mem_cons_of_mem _ hq)) habove
    have hanchored₁ := hanchored.changesInside hchanges₁
    obtain ⟨⟨⟩, host₂, hrequire, hcreate⟩ := exec_bind_ok h
    rw [requireParent] at hrequire
    have hsame : host₂.files = host₁.files := by
      split at hrequire
      · exact (requireInside_ok hrequire).1
      · exact congrArg Host.files (Prod.mk.inj hrequire).2.symm
    have hmakes₂ := (createDirectories_makes hcreate).1
    rw [hsame] at hmakes₂
    refine ⟨hmakes₁.trans hmakes₂, hchanges₁.trans (hmakes₂.changesInside ?_)⟩
    rw [← hsame]
    rw [← hsame] at hanchored₁
    rcases hpaths p List.mem_cons_self with hat | ⟨names, name, hnames, hname, rfl⟩
    · exact fun l _ => createDirectories_above hanchored₁.paved hat hcreate l
    · -- The directory above is the destination, or it was found inside.
      have hinside : ∃ d, root <+: d ∧ Paved host₂.files (dest.descend names) d := by
        rcases List.eq_nil_or_concat names with rfl | ⟨init, last, rfl⟩
        · exact ⟨root, List.prefix_refl _, hanchored₁.paved⟩
        · rw [List.concat_eq_append] at *
          have hparent : (dest.descend (init ++ [last]) / name).parent? =
              some (dest.descend (init ++ [last])) := by
            rw [Path.descend_concat]
            exact Path.parent?_child hname (hnames last (by simp))
          rw [hparent] at hrequire
          obtain ⟨-, inner, outer, e, e', hinner, houter, hbelow⟩ := requireInside_ok hrequire
          rw [← hsame] at hinner houter
          obtain ⟨hresolve, hentry⟩ := stat_ok hinner
          obtain rfl := hanchored₁.leadsTo.eq_of_reach (reach_of_resolve (stat_ok houter).1)
          exact ⟨inner, hbelow, paved_of_made hname (reach_of_resolve hresolve) hentry hcreate⟩
      obtain ⟨d, hroot, hpaved⟩ := hinside
      intro l hl
      refine createDirectories_child hpaved hname hcreate l ?_
      rintro rfl
      exact hl (inside_append hroot (by simp))

/-! ### One member -/

/-- The names that lead to a member, if its name does not lead up. -/
def namesIn (p : Path) : List String :=
  (targetNames? p).getD []

/-- What unpacking a member comes to. It lands where its names say, unless a link is on the way. -/
structure Unpacked (root : Location) (m : Member) (names : List String) (fs fs' : Files) : Prop where
  changesInside : ChangesInside root fs fs'
  lands : names ≠ [] → ∃ target, Lands m target fs fs' ∧
    (fs.ClearTo root names.dropLast → target = root ++ names)
  nothing : names = [] → fs' = fs

/-- A path of names from a directory leads where they say, unless a link is on the way. -/
theorem eq_append_of_reach {fs : Files} {l : Location} (hheads : fs.HeadsFor dest root)
    (htree : fs.IsTree) (hnames : ∀ n ∈ names, IsPlainName n) (hne : names ≠ [])
    (hclear : fs.ClearTo root names) (hreach : fs.reach (dest.descend names) = .ok l) :
    l = root ++ names := by
  have hnamesOf : namesOf (names.map .name) = names := by
    rw [namesOf, List.filterMap_map]
    exact List.filterMap_some
  rw [reach, start, Path.isAbsolute_descend hnames, ← start, Path.walked_descend hnames] at hreach
  have hl : l = root ++ namesOf (names.map .name) := by
    refine walk_of_clearTo hheads htree ?_ (by simpa using hne) ?_ hreach
    · intro step hstep
      obtain ⟨n, -, rfl⟩ := List.mem_map.1 hstep
      exact .inr ⟨n, rfl⟩
    · rwa [hnamesOf]
  rw [hl, hnamesOf]

/-- A member that is unpacked has a name that does not lead up. -/
theorem unpackMember_ok
    (hanchored : dest.text ≠ "" → Anchored host.files dest root)
    (h : exec (unpackMember dest m p) host = (.ok true, host')) :
    ∃ names, targetNames? p = some names ∧ (names ≠ [] → dest.text ≠ "") ∧
      Unpacked root m names host.files host'.files := by
  unfold unpackMember at h
  cases hnames : targetNames? p with
  | none =>
    rw [hnames] at h
    exact absurd (Prod.mk.inj h).1 (by simp)
  | some names =>
    rw [hnames] at h
    refine ⟨names, rfl, ?_⟩
    rcases List.eq_nil_or_concat names with rfl | ⟨init, last, rfl⟩
    · obtain ⟨-, rfl⟩ := Prod.mk.inj h
      exact ⟨by simp, ChangesInside.refl root _, by simp, fun _ => rfl⟩
    rw [List.concat_eq_append] at *
    have hplain := isPlainName_of_targetNames? hnames
    have hlast : IsPlainName last := hplain last (by simp)
    have hinit : ∀ n ∈ init, IsPlainName n := fun n hn => hplain n (by simp [hn])
    obtain ⟨first, rest, hcons⟩ := List.exists_cons_of_ne_nil (show init ++ [last] ≠ [] by simp)
    rw [hcons] at h
    simp only at h
    rw [← hcons, Path.descend_concat] at h
    cases hparent : (dest.descend init / last).parent? with
    | none =>
      rw [hparent] at h
      exact absurd (Prod.mk.inj h).1 (by simp)
    | some parent =>
      simp only [hparent] at h
      rw [exec_files_bind] at h
      obtain ⟨⟨⟩, host₁, hcreate, h⟩ := exec_bind_ok h
      obtain ⟨⟨⟩, host₂, hrequire, h⟩ := exec_bind_ok h
      obtain ⟨⟨⟩, host₃, hplace, h⟩ := exec_bind_ok h
      obtain ⟨-, rfl⟩ := Prod.mk.inj h
      obtain ⟨hsame, inner, outer, e, e', hinner, houter, hbelow⟩ := requireInside_ok hrequire
      have htext : dest.text ≠ "" :=
        text_ne_empty_of_requirePath (requirePath_of_locate (stat_ok houter).1)
      have hanchored := hanchored htext
      have hpaths : ∀ q ∈ parent.ancestors.takeWhile (!host.files.hasEntry ·),
          Path.Descends dest q := by
        intro q hq
        have hdescends : Path.Descends dest (dest.descend init / last) :=
          .inr ⟨init, last, hinit, hlast, rfl⟩
        exact Path.ancestors_descends (hdescends.parent? hparent) (List.takeWhile_subset _ hq)
      obtain ⟨hmakes, hchanges⟩ := createInside_ok hpaths hanchored hcreate
      have hanchored₁ := hanchored.changesInside hchanges
      obtain ⟨rootMode, hdir⟩ := hanchored₁.directory
      rw [← hsame] at hanchored₁ hdir hinner houter
      -- The directory of the member was found inside, and is where its names say if no link is.
      have hwhere : ∃ d, root <+: d ∧ host₂.files.LeadsTo (fun _ => True) (dest.descend init) d ∧
          (host.files.ClearTo root init → d = root ++ init) := by
        rcases Path.parent?_descend hinit hlast hparent with ⟨hne, rfl⟩ | ⟨rfl, -⟩
        · obtain rfl := hanchored₁.leadsTo.eq_of_reach (reach_of_resolve (stat_ok houter).1)
          have hreach := reach_of_resolve (stat_ok hinner).1
          refine ⟨inner, hbelow, (leadsTo_of_reach hreach).mono fun _ _ => trivial, fun hclear => ?_⟩
          refine eq_append_of_reach hanchored₁.leadsTo.headsFor hanchored₁.isTree hinit hne ?_ hreach
          intro init' hinit' hne'
          rw [hsame, hmakes.linkAt]
          exact hclear init' hinit' hne'
        · exact ⟨root, List.prefix_refl _, hanchored₁.leadsTo.mono fun _ _ => trivial, by simp⟩
      obtain ⟨d, hroot, hleads, hd⟩ := hwhere
      obtain ⟨hplaced, hlands⟩ := place_ok hleads hlast hanchored₁.isTree hroot hanchored₁.leadsTo
        hanchored₁.plain hdir hplace
      rw [hsame] at hplaced hlands
      refine ⟨fun _ => htext, hchanges.trans hplaced, fun _ => ?_, by simp⟩
      refine ⟨d ++ [last], hlands.of_makesDirectories hmakes, fun hclear => ?_⟩
      rw [List.dropLast_concat] at hclear
      rw [hd hclear, List.append_assoc]

end RamlBuild.Archive
