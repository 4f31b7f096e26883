import RamlBuild.Proofs.Program.Projects
import RamlBuild.Proofs.Sources.ModelTypes
import RamlBuild.Proofs.Sources.Rewriting
import RamlBuild.Proofs.Text.Snapshots

/-!
# Pinning the versions of a checkout

The project descriptions of a checkout are told by the names that lead to them from it. Pinning
exchanges the snapshot versions in them, tells which of them changed by that, and leaves everything
else in the tree alone.

## Main definitions

* `IsDescription` — a project description below a checkout
* `Rewrites` — files below a directory that were rewritten by their texts

## Main results

* `rewrites_rewrite`, `rewrites_rewriteAll` — rewriting one file, and one after the other
* `mem_projectDescriptions` — the descriptions that are found are those that are there
* `pinned_of_pinProject` — what becomes of a checkout
-/

namespace RamlBuild

open Build

variable {host host' : Host} {fs fs' fs'' : Files} {p checkout : Path} {d root l : Location}
  {names : Location} {version : String} {transform : String → String}

/-! ### Rewriting files below a directory -/

theorem Files.SamePassages.fewerPassages (h : Files.SamePassages fs fs') :
    Files.FewerPassages fs fs' :=
  ⟨fun loc e hpassage => by rwa [← h.passage loc], h.workingDirectory⟩

/-- The names that lead to a file can be steps of a path. -/
theorem Files.HasFile.isPlainName (h : fs.HasFile (d ++ names)) (hfs : fs.Tidy) :
    ∀ n ∈ names, IsPlainName n := by
  obtain ⟨e, hget, -⟩ := h
  intro n hn
  exact hfs.namesPlainly.of_isSome hfs.isTree (by rw [hget]; rfl) n (List.mem_append_right _ hn)

theorem Files.HasFile.clearTo (h : fs.HasFile (d ++ names)) (hfs : fs.Tidy) :
    fs.ClearTo d names := by
  have ⟨e, hget, _⟩ := h
  exact hfs.isTree.clearTo hget h.linkAt

/-- Files below a directory were looked at, each by its text. Those whose text became another one
were changed, and nothing else was. -/
structure Rewrites (transform : String → String) (p : Path) (d : Location) (looked : List Location)
    (fs fs' : Files) (changed : List Location) : Prop where
  /-- Paths lead where they did. -/
  samePassages : Files.SamePassages fs fs'
  tidy : fs.Tidy → fs'.Tidy
  sublist : changed.Sublist looked
  get?_ne_iff : ∀ loc, fs'.get? loc ≠ fs.get? loc ↔ ∃ names ∈ changed, loc = d ++ names
  resolve : ∀ names ∈ looked, fs.resolve (p.descend names) = .ok (d ++ names)
  textOf : ∀ names ∈ looked, ∃ text, fs.textOf (d ++ names) = some text ∧
    fs'.textOf (d ++ names) = some (transform text)

namespace Rewrites

variable {looked looked' changed changed' : List Location}

theorem nil (fs : Files) : Rewrites transform p d [] fs fs [] :=
  ⟨.refl fs, fun h => h, .refl _, by simp, by simp, by simp⟩

/-- What is not looked at is left. -/
theorem get?_of_not_mem (h : Rewrites transform p d looked fs fs' changed) (hnames : names ∉ looked) :
    fs'.get? (d ++ names) = fs.get? (d ++ names) := by
  by_contra hne
  obtain ⟨other, hother, heq⟩ := (h.get?_ne_iff _).1 hne
  exact hnames (List.append_cancel_left heq ▸ h.sublist.subset hother)

/-- Other files are looked at afterwards. -/
theorem append (h : Rewrites transform p d looked fs fs' changed)
    (h' : Rewrites transform p d looked' fs' fs'' changed') (hapart : ∀ names ∈ looked, names ∉ looked') :
    Rewrites transform p d (looked ++ looked') fs fs'' (changed ++ changed') := by
  have hlater : ∀ names ∈ looked, fs''.get? (d ++ names) = fs'.get? (d ++ names) :=
    fun names hnames => h'.get?_of_not_mem (hapart names hnames)
  have hbefore : ∀ names ∈ looked', fs'.get? (d ++ names) = fs.get? (d ++ names) :=
    fun names hnames => h.get?_of_not_mem fun hlooked => hapart names hlooked hnames
  refine ⟨h.samePassages.trans h'.samePassages, fun htidy => h'.tidy (h.tidy htidy),
    h.sublist.append h'.sublist, fun loc => ⟨fun hne => ?_, ?_⟩, ?_, ?_⟩
  · by_cases hsame : fs''.get? loc = fs'.get? loc
    · rw [hsame] at hne
      obtain ⟨names, hnames, rfl⟩ := (h.get?_ne_iff loc).1 hne
      exact ⟨names, List.mem_append_left _ hnames, rfl⟩
    · obtain ⟨names, hnames, rfl⟩ := (h'.get?_ne_iff loc).1 hsame
      exact ⟨names, List.mem_append_right _ hnames, rfl⟩
  · rintro ⟨names, hnames, rfl⟩
    rcases List.mem_append.1 hnames with hnames | hnames
    · rw [hlater names (h.sublist.subset hnames)]
      exact (h.get?_ne_iff _).2 ⟨names, hnames, rfl⟩
    · rw [← hbefore names (h'.sublist.subset hnames)]
      exact (h'.get?_ne_iff _).2 ⟨names, hnames, rfl⟩
  · intro names hnames
    rcases List.mem_append.1 hnames with hnames | hnames
    · exact h.resolve names hnames
    · exact (Files.locate_eq_ok_iff h.samePassages).1 (h'.resolve names hnames)
  · intro names hnames
    rcases List.mem_append.1 hnames with hnames | hnames
    · rw [Files.textOf_congr (hlater names hnames)]
      exact h.textOf names hnames
    · rw [← Files.textOf_congr (hbefore names hnames)]
      exact h'.textOf names hnames

end Rewrites

/-- A file below a directory is looked at, and rewritten if its text becomes another one. -/
theorem rewrites_rewrite {changed : Bool} (hheads : host.files.HeadsFor p d) (hfs : host.files.Tidy)
    (hne : names ≠ []) (hfile : host.files.HasFile (d ++ names))
    (h : exec (rewrite (p.descend names) fun text => .ok (transform text)) host =
      (.ok changed, host')) :
    Rewrites transform p d [names] host.files host'.files (if changed then [names] else []) := by
  have hplain := hfile.isPlainName hfs
  have hclear := hfile.clearTo hfs
  obtain ⟨input, output, hinput, houtput, -, hwritten⟩ := rewrite_ok h
  obtain rfl : transform input = output := Except.ok.inj houtput
  obtain ⟨loc, hresolve, htext⟩ := textOf_of_textAt hinput
  obtain rfl := Archive.eq_append_of_reach hheads hfs.isTree hplain hne hclear
    (Files.reach_of_resolve hresolve)
  rcases hwritten with ⟨rfl, hsame, hfiles⟩ | ⟨rfl, hother, target, hplace, hreplaced⟩
  · rw [hfiles]
    refine ⟨.refl _, fun h => h, List.nil_sublist _, by simp, ?_, ?_⟩
    · exact List.forall_mem_singleton.2 hresolve
    · exact List.forall_mem_singleton.2 ⟨input, htext, by rw [htext, hsame]⟩
  · obtain rfl := (Files.fixedAt_descend hheads hplain hne
      (hclear.of_prefix (List.dropLast_prefix names))).place_eq hfs.isTree hplace
    have hdiffers : host'.files.get? (d ++ names) ≠ host.files.get? (d ++ names) := by
      intro hsame
      have hsametext := Files.textOf_congr hsame
      rw [hreplaced.textOf_target, htext] at hsametext
      exact hother (Option.some.inj hsametext)
    refine ⟨hreplaced.samePassages hfile.passage, tidy_rewrite h, .refl _, fun loc => ?_, ?_, ?_⟩
    · simp only [if_true, List.mem_singleton, exists_eq_left]
      constructor
      · intro hne
        by_contra hloc
        exact hne (hreplaced.get?_other loc hloc)
      · rintro rfl
        exact hdiffers
    · exact List.forall_mem_singleton.2 hresolve
    · exact List.forall_mem_singleton.2 ⟨input, htext, hreplaced.textOf_target⟩

/-- Files below a directory are looked at one after the other. -/
theorem rewrites_rewriteAll {looked : List Location} {changed : List Path}
    (hheads : host.files.HeadsFor p d) (hfs : host.files.Tidy)
    (hfiles : ∀ names ∈ looked, names ≠ [] ∧ host.files.HasFile (d ++ names)) (hnodup : looked.Nodup)
    (h : exec (rewriteAll (fun _ text => .ok (transform text)) (looked.map p.descend)) host =
      (.ok changed, host')) :
    ∃ written, changed = written.map p.descend ∧
      Rewrites transform p d looked host.files host'.files written := by
  induction looked generalizing host changed with
  | nil =>
    obtain ⟨hchanged, rfl⟩ := Prod.mk.inj h
    obtain rfl := Except.ok.inj hchanged
    exact ⟨[], rfl, .nil _⟩
  | cons names rest ih =>
    rw [List.map_cons, rewriteAll] at h
    obtain ⟨first, host₁, hfirst, h⟩ := exec_bind_ok h
    obtain ⟨others, host₂, hothers, h⟩ := exec_bind_ok h
    obtain ⟨hchanged, rfl⟩ := Prod.mk.inj h
    obtain rfl := Except.ok.inj hchanged
    obtain ⟨hnames, hrest⟩ := List.nodup_cons.1 hnodup
    obtain ⟨hne, hfile⟩ := hfiles names List.mem_cons_self
    have hstep := rewrites_rewrite hheads hfs hne hfile hfirst
    have hleft : ∀ other ∈ rest, other ≠ [] ∧ host₁.files.HasFile (d ++ other) := by
      intro other hother
      have hapart : other ∉ [names] := fun hmem => hnames (List.mem_singleton.1 hmem ▸ hother)
      obtain ⟨hne, e, hget, he⟩ := hfiles other (List.mem_cons_of_mem _ hother)
      exact ⟨hne, e, (hstep.get?_of_not_mem hapart).trans hget, he⟩
    obtain ⟨written, rfl, hrun⟩ := ih (hheads.of_fewerPassages hstep.samePassages.fewerPassages)
      (hstep.tidy hfs) hleft hrest hothers
    refine ⟨(if first then [names] else []) ++ written, ?_, ?_⟩
    · cases first <;> rfl
    · exact hstep.append hrun (List.forall_mem_singleton.2 hnames)

/-! ### Project descriptions -/

/-- A project description below a checkout: a file of that name, with no directory between that is
named for sources or hidden. -/
structure IsDescription (fs : Files) (root : Location) (names : Location) : Prop where
  hasFile : fs.HasFile (root ++ names)
  name : names.getLast? = some "pom.xml"
  between : ∀ directory ∈ names.dropLast, directory ≠ "src" ∧ ¬".".toList <+: directory.toList

theorem IsDescription.ne_nil (h : IsDescription fs root names) : names ≠ [] := by
  rintro rfl
  exact absurd h.name (by simp)

theorem leadsToDescription_iff (hne : names ≠ []) : leadsToDescription checkout names = true ↔
    names.getLast? = some "pom.xml" ∧
      ∀ directory ∈ names.dropLast, directory ≠ "src" ∧ ¬".".toList <+: directory.toList := by
  obtain ⟨init, last, rfl⟩ := (List.eq_nil_or_concat names).resolve_left hne
  rw [List.concat_eq_append, leadsToDescription, List.getLast?_concat, List.dropLast_concat]
  simp [isForeign, descriptionName, Text.startsWith_iff]

/-- What is found at and below a directory: its own entry, which is no file, and what is below. -/
theorem tree_of_resolve {found : List (Location × Entry)} {mode : Nat}
    (hresolve : fs.resolve p = .ok root) (hdir : fs.get? root = some (.directory mode))
    (h : fs.tree p = .ok found) : ∃ own, own.isFile = false ∧ found = ([], own) :: fs.below root := by
  unfold Files.tree at h
  cases hplace : fs.place p with
  | error error =>
    rw [hplace] at h
    contradiction
  | ok l =>
    cases hget : fs.get? l with
    | none =>
      simp only [hplace, Files.entryAt, hget, bind, Except.bind] at h
      contradiction
    | some own =>
      have hstat : fs.stat p = .ok (root, .directory mode) := stat_eq_ok_iff.2 ⟨hresolve, hdir⟩
      simp only [hplace, Files.entryAt, hget, hstat, bind, Except.bind] at h
      split at h
      · refine ⟨own, ?_, (Except.ok.inj h).symm⟩
        rw [Bool.eq_false_iff]
        intro hfile
        -- A file that is led to by its own entry would be what the path leads to.
        obtain rfl := Archive.place_eq_of_reach hresolve hplace
          (Files.HasFile.linkAt ⟨own, hget, hfile⟩)
        rw [hdir] at hget
        obtain rfl := Option.some.inj hget
        contradiction
      · contradiction

/-- The descriptions that are found are those that are there, each once. -/
theorem mem_projectDescriptions {found : List Path} {mode : Nat} (hfs : host.files.WellFormed)
    (hresolve : host.files.resolve checkout = .ok root)
    (hdir : host.files.get? root = some (.directory mode))
    (h : exec (projectDescriptions checkout) host = (.ok found, host')) :
    host'.files = host.files ∧ ∃ looked : List Location, found = looked.map checkout.descend ∧
      looked.Nodup ∧ ∀ names, names ∈ looked ↔ IsDescription host.files root names := by
  obtain ⟨entries, host₁, hwalk, h⟩ := exec_bind_ok h
  obtain ⟨hfound, rfl⟩ := Prod.mk.inj h
  obtain rfl := Except.ok.inj hfound
  obtain ⟨hfiles, htree⟩ := walk_ok hwalk
  obtain ⟨own, hown, rfl⟩ := tree_of_resolve hresolve hdir htree
  refine ⟨hfiles, (((host.files.below root).filter fun x =>
    x.2.isFile && leadsToDescription checkout x.1).map Prod.fst), ?_, ?_, fun names => ?_⟩
  · rw [List.filter_cons_of_neg (by simp [hown]), List.map_map]
    rfl
  · rw [List.Nodup, List.pairwise_map]
    exact (Files.pairwise_below hfs.distinct).sublist List.filter_sublist
  · have hget : ∀ {e : Entry}, names ≠ [] →
        (host.files.get? (root ++ names) = some e ↔ (root ++ names, e) ∈ host.files.entries) :=
      fun hne => hfs.distinct.get?_eq_some_iff (by simp [hne])
    simp only [List.mem_map, List.mem_filter, Prod.exists, exists_and_right, exists_eq_right,
      Bool.and_eq_true, Files.mem_below_iff]
    constructor
    · rintro ⟨e, ⟨hne, hmem⟩, hfile, hleads⟩
      obtain ⟨hname, hbetween⟩ := (leadsToDescription_iff hne).1 hleads
      exact ⟨⟨e, (hget hne).2 hmem, hfile⟩, hname, hbetween⟩
    · intro hdescription
      have hne := hdescription.ne_nil
      obtain ⟨⟨e, hgete, hfile⟩, hname, hbetween⟩ := hdescription
      exact ⟨e, ⟨hne, (hget hne).1 hgete⟩, hfile, (leadsToDescription_iff hne).2 ⟨hname, hbetween⟩⟩

/-- What becomes of a checkout, wherever it stands. Its project descriptions have their snapshot
versions exchanged; what is told are those that changed by that, each once, and nothing else in the
tree is changed. -/
theorem pinned_of_pinProject {changed : List Path} (hfs : host.files.WellFormed)
    (hdir : host.files.isDirectory checkout = true)
    (h : exec (pinProject checkout version) host = (.ok changed, host')) :
    ∃ (root : Location) (written : List Location), host.files.resolve checkout = .ok root ∧
      changed = written.map checkout.descend ∧ changed.Nodup ∧
      (∀ names ∈ written, host.files.resolve (checkout.descend names) = .ok (root ++ names) ∧
        IsDescription host.files root names) ∧
      (∀ loc, host'.files.get? loc ≠ host.files.get? loc ↔ ∃ names ∈ written, loc = root ++ names) ∧
      ∀ names, IsDescription host.files root names → ∃ text pinned,
        host.files.textOf (root ++ names) = some text ∧
        Text.Pinned version.toList text.toList pinned ∧
        host'.files.textOf (root ++ names) = some (String.ofList pinned) := by
  obtain ⟨root, mode, hstat⟩ : ∃ root mode, host.files.stat checkout = .ok (root, .directory mode) := by
    unfold Files.isDirectory at hdir
    split at hdir
    · exact ⟨_, _, ‹_›⟩
    · contradiction
  obtain ⟨hresolve, hget⟩ := stat_eq_ok_iff.1 hstat
  obtain ⟨descriptions, host₁, hfind, h⟩ := exec_bind_ok h
  obtain ⟨hfiles, looked, rfl, hnodup, hmem⟩ := mem_projectDescriptions hfs hresolve hget hfind
  have hheads : host₁.files.HeadsFor checkout root := by
    intro l _ hreach _
    rw [hfiles, Files.reach_of_resolve hresolve] at hreach
    exact (Except.ok.inj hreach).symm
  rw [← hfiles] at hfs hmem hresolve ⊢
  obtain ⟨written, rfl, hrun⟩ := rewrites_rewriteAll hheads hfs.tidy
    (fun names hnames => ⟨((hmem names).1 hnames).ne_nil, ((hmem names).1 hnames).hasFile⟩) hnodup h
  have hlooked : ∀ names ∈ written, names ∈ looked := fun _ hnames => hrun.sublist.subset hnames
  refine ⟨root, written, hresolve, rfl, ?_, fun names hnames => ?_, hrun.get?_ne_iff, ?_⟩
  · -- Paths to other locations are other paths.
    refine (hnodup.sublist hrun.sublist).map_on ?_
    intro names hnames other hother heq
    have hsame := hrun.resolve names (hlooked names hnames)
    rw [heq, hrun.resolve other (hlooked other hother)] at hsame
    exact (List.append_cancel_left (Except.ok.inj hsame)).symm
  · exact ⟨hrun.resolve names (hlooked names hnames), (hmem names).1 (hlooked names hnames)⟩
  · intro names hdescription
    obtain ⟨text, htext, hpinned⟩ := hrun.textOf names ((hmem names).2 hdescription)
    exact ⟨text, _, htext, Text.pinned_replaceSnapshots _ _, hpinned⟩

/-- A checkout below a hidden directory and one for sources. -/
def checkoutFiles : Files where
  entries :=
    [([".cache"], .directory 0o755), ([".cache", "src"], .directory 0o755),
      ([".cache", "src", "raml"], .directory 0o755),
      ([".cache", "src", "raml", "pom.xml"],
        .file "<version>1.3.0.8-SNAPSHOT</version>".toUTF8 0o644 none),
      ([".cache", "src", "raml", ".git"], .directory 0o755),
      ([".cache", "src", "raml", ".git", "pom.xml"], .file "3.0.8-SNAPSHOT".toUTF8 0o644 none),
      ([".cache", "src", "raml", "cli"], .directory 0o755),
      ([".cache", "src", "raml", "cli", "pom.xml"], .file "3.0.8".toUTF8 0o644 none)]
  workingDirectory := []

/-- The hidden directory and the one for sources above the checkout do not count, the hidden one in
it does. What is put in stays as it is told. -/
theorem pinned_of_pinProject_checkout :
    ∃ host', exec (pinProject ⟨".cache/src/raml"⟩ "$1") (quietHost checkoutFiles) =
        (.ok [⟨".cache/src/raml/pom.xml"⟩], host') ∧
      host'.files.textOf [".cache", "src", "raml", "pom.xml"] = some "<version>1.$1</version>" ∧
      host'.files.get? [".cache", "src", "raml", ".git", "pom.xml"] =
        checkoutFiles.get? [".cache", "src", "raml", ".git", "pom.xml"] := by
  have hrun : (exec (pinProject ⟨".cache/src/raml"⟩ "$1") (quietHost checkoutFiles)).1 =
      .ok [⟨".cache/src/raml/pom.xml"⟩] := by
    decide +kernel
  obtain ⟨root, written, hresolve, -, -, hwritten, hframe, -⟩ :=
    pinned_of_pinProject (Files.wellFormed_of_entries (by decide +kernel) (by decide +kernel))
      (by decide +kernel) (exec_eq_of_fst hrun)
  have hroot : checkoutFiles.resolve ⟨".cache/src/raml"⟩ = .ok [".cache", "src", "raml"] := by
    decide +kernel
  obtain rfl := Except.ok.inj (hroot.symm.trans hresolve)
  refine ⟨_, exec_eq_of_fst hrun, by decide +kernel, ?_⟩
  by_contra hne
  obtain ⟨names, hnames, heq⟩ := (hframe _).1 hne
  have hsame : [".cache", "src", "raml"] ++ [".git", "pom.xml"] =
      [".cache", "src", "raml"] ++ names := heq
  obtain rfl := List.append_cancel_left hsame
  exact ((hwritten _ hnames).2.between ".git" (by decide)).2 (by decide)

end RamlBuild
