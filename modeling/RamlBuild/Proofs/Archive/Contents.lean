import RamlBuild.Proofs.Archive.Stored
import RamlBuild.Proofs.Archive.Unpacking

/-!
# Unpacking an archive

An archive that is unpacked has every member with its contents below the destination, tells its files
in their order, and leaves everything outside of the destination alone. What is told leads to a file
when the name of the member is relative and ends in a name, and no link gets in the way.

## Main definitions

* `Archive.Unpacks` — members that are unpacked one after the other
* `Archive.Unlinked` — no link stands on the way of a member, or comes there
* `Archive.lastStored` — the last member with given names that leaves a file
* `Archive.Landed` — a path leads to a file with given contents

## Main results

* `Archive.unpackFrom_ok` — the members are unpacked, and the files among them told
* `Archive.contentsAt_of_unpacks` — the last file of a name stays
* `unpack_ok` — what unpacking an archive comes to
-/

namespace RamlBuild

namespace Archive

open Build Location Files

variable {host host' : Host} {p dest : Path} {root : Location} {names : List String} {m : Member}
  {entries all : List (Member × Path)} {stream : Stream} {start count : Nat} {archive : Path}
  {files : List Path} {fs fs' : Files}

/-! ### All members -/

/-- Members that are unpacked one after the other. -/
inductive Unpacks (dest : Path) : Host → List (Member × Path) → Host → Prop
  /-- None. -/
  | nil {host : Host} : Unpacks dest host [] host
  /-- One, and then the others. -/
  | cons {host host₁ host' : Host} {m : Member} {p : Path} {rest : List (Member × Path)}
      (hfirst : exec (unpackMember dest m p) host = (.ok true, host₁))
      (hrest : Unpacks dest host₁ rest host') : Unpacks dest host ((m, p) :: rest) host'

/-- The files among members, by the paths that they are told by. -/
def filesIn (dest : Path) (entries : List (Member × Path)) : List Path :=
  (entries.filter (·.1.kind = .file)).map (dest / ·.2)

theorem memberName_ok (h : exec (memberName m) host = (.ok p, host')) :
    host' = host ∧ ∃ text, textOf? m.name = some text ∧ p = ⟨text⟩ := by
  unfold memberName at h
  split at h
  · rename_i text htext
    obtain ⟨hp, rfl⟩ := Prod.mk.inj h
    exact ⟨rfl, text, htext, (Except.ok.inj hp).symm⟩
  · exact absurd (Prod.mk.inj h).1 (by simp)

/-- The members from a place on are unpacked, and the files among them told. Each takes a block, so
their number stays below the bound. -/
theorem unpackFrom_ok
    (hcount : stream.bytes.size / blockSize + 2 ≤
      count + min start stream.bytes.size / blockSize)
    (h : exec (unpackFrom archive dest stream count start) host = (.ok files, host')) :
    ∃ entries, Lists stream start entries ∧ Unpacks dest host entries host' ∧
      files = filesIn dest entries := by
  induction count generalizing start host files with
  | zero =>
    have hle : min start stream.bytes.size / blockSize ≤ stream.bytes.size / blockSize :=
      Nat.div_le_div_right (Nat.min_le_right _ _)
    omega
  | succ count ih =>
    rw [unpackFrom] at h
    cases hnext : nextMember stream start with
    | finished =>
      rw [hnext] at h
      obtain ⟨hfiles, rfl⟩ := Prod.mk.inj h
      exact ⟨[], .finished hnext, .nil, (Except.ok.inj hfiles).symm⟩
    | damaged =>
      rw [hnext, exec_within] at h
      exact absurd (Prod.mk.inj h).1 (by simp [Except.mapError])
    | member m next =>
      rw [hnext] at h
      obtain ⟨p, host₁, hname, h⟩ := exec_bind_ok h
      obtain ⟨rfl, text, htext, rfl⟩ := memberName_ok hname
      obtain ⟨there, host₂, hmember, h⟩ := exec_bind_ok h
      cases there with
      | false => exact absurd (Prod.mk.inj h).1 (by simp)
      | true =>
        rw [if_pos rfl] at h
        obtain ⟨others, host₃, hothers, h⟩ := exec_bind_ok h
        obtain ⟨hfiles, rfl⟩ := Prod.mk.inj h
        obtain ⟨hbehind, hsize⟩ := next_of_member hnext
        have hcount' : stream.bytes.size / blockSize + 2 ≤
            count + min next stream.bytes.size / blockSize := by
          have hstep : min start stream.bytes.size + blockSize ≤ min next stream.bytes.size := by
            omega
          have hdiv := Nat.div_le_div_right (c := blockSize) hstep
          rw [Nat.add_div_right _ (by decide : 0 < blockSize)] at hdiv
          omega
        obtain ⟨rest, hlists, hunpacks, rfl⟩ := ih hcount' hothers
        refine ⟨(m, ⟨text⟩) :: rest, .member hnext htext hlists,
          .cons (exec_within_ok hmember) hunpacks, ?_⟩
        rw [← Except.ok.inj hfiles, filesIn, filesIn, List.filter_cons]
        by_cases hkind : m.kind = .file
        · rw [if_pos hkind, if_pos (by simp [hkind]), List.map_cons]
        · rw [if_neg hkind, if_neg (by simp [hkind])]

/-- Members that are unpacked have no names that lead up, and change what is inside only. Where one
has a name the destination is not the empty path. -/
theorem changesInside_of_unpacks (h : Unpacks dest host entries host')
    (hanchored : dest.text ≠ "" → Anchored host.files dest root) :
    ChangesInside root host.files host'.files ∧
      ∀ x ∈ entries, Component.parent ∉ x.2.components ∧ (namesIn x.2 ≠ [] → dest.text ≠ "") := by
  induction h with
  | nil => exact ⟨ChangesInside.refl root _, by simp⟩
  | cons hfirst hrest ih =>
    obtain ⟨names, hnames, hne, hunpacked⟩ := unpackMember_ok hanchored hfirst
    obtain ⟨hchanges, hothers⟩ :=
      ih fun hne => (hanchored hne).changesInside hunpacked.changesInside
    refine ⟨hunpacked.changesInside.trans hchanges, ?_⟩
    intro x hx
    rcases List.mem_cons.1 hx with rfl | hx
    · rw [← targetNames?_eq_none_iff, namesIn, hnames]
      exact ⟨by simp, hne⟩
    · exact hothers x hx

/-! ### Links -/

/-- No link stands on the way of a member, and none comes there. -/
structure Unlinked (root : Location) (fs : Files) (entries : List (Member × Path)) : Prop where
  standing : ∀ x ∈ entries, fs.ClearTo root (namesIn x.2).dropLast
  coming : ∀ x ∈ entries, ∀ y ∈ entries, y.1.isLink = true → namesIn y.2 ≠ [] →
    ¬namesIn y.2 <+: (namesIn x.2).dropLast

theorem Unlinked.congr (h : Unlinked root fs entries) (hlinks : ∀ l, fs'.linkAt l = fs.linkAt l) :
    Unlinked root fs' entries :=
  ⟨fun x hx init hinit hne => (hlinks _).trans (h.standing x hx init hinit hne), h.coming⟩

/-- The way of the members stays without links while they are unpacked. -/
theorem Unlinked.step {y : Member × Path} (h : Unlinked root fs all) (hy : y ∈ all)
    (hunpacked : Unpacked root y.1 (namesIn y.2) fs fs') : Unlinked root fs' all := by
  refine ⟨?_, h.coming⟩
  intro x hx init hinit hne
  by_cases hnil : namesIn y.2 = []
  · rw [hunpacked.nothing hnil]
    exact h.standing x hx init hinit hne
  obtain ⟨target, hlands, htarget⟩ := hunpacked.lands hnil
  obtain rfl := htarget (h.standing y hy)
  by_cases heq : root ++ init = root ++ namesIn y.2
  · obtain rfl := List.append_cancel_left heq
    cases hstored : y.1.isStored with
    | true => exact (hlands.stored hstored).2
    | false =>
      cases hlink : y.1.isLink with
      | true => exact absurd hinit (h.coming x hx y hy hlink hnil)
      | false =>
        rw [(hlands.unstored hstored hlink).2]
        exact h.standing x hx _ hinit hne
  · rw [hlands.linkAt_other _ heq]
    exact h.standing x hx init hinit hne

/-! ### Contents -/

/-- The last member with given names that leaves a file. -/
def lastStored (entries : List (Member × Path)) (names : List String) : Option Member :=
  (entries.filter fun x => x.1.isStored && namesIn x.2 = names).getLast?.map Prod.fst

theorem lastStored_cons (x : Member × Path) (rest : List (Member × Path)) (names : List String) :
    lastStored (x :: rest) names =
      (lastStored rest names).or
        (if x.1.isStored && namesIn x.2 = names then some x.1 else none) := by
  unfold lastStored
  rw [List.filter_cons]
  split
  · rw [List.getLast?_cons]
    cases (rest.filter fun x => x.1.isStored && namesIn x.2 = names).getLast? <;> rfl
  · simp

theorem exists_lastStored {x : Member × Path} (hx : x ∈ entries) (hstored : x.1.isStored = true) :
    ∃ m, lastStored entries (namesIn x.2) = some m := by
  have hmem : x ∈ entries.filter fun y => y.1.isStored && namesIn y.2 = namesIn x.2 :=
    List.mem_filter.2 ⟨hx, by simp [hstored]⟩
  obtain ⟨y, hy⟩ := Option.ne_none_iff_exists'.1
    (mt List.getLast?_eq_none_iff.1 (List.ne_nil_of_mem hmem))
  exact ⟨y.1, by rw [lastStored, hy]; rfl⟩

/-- Where no link comes the last file of a name stays, and what was there before if there is none. -/
theorem contentsAt_of_unpacks (h : Unpacks dest host entries host') (hsub : entries ⊆ all)
    (hanchored : dest.text ≠ "" → Anchored host.files dest root)
    (hunlinked : Unlinked root host.files all) (hne : names ≠ [])
    (hlinks : ∀ y ∈ all, y.1.isLink = true → namesIn y.2 ≠ names) :
    Unlinked root host'.files all ∧
      host'.files.contentsAt (root ++ names) =
        ((lastStored entries names).map (·.contents)).or
          (host.files.contentsAt (root ++ names)) := by
  induction h with
  | nil => exact ⟨hunlinked, by simp [lastStored]⟩
  | @cons host host₁ host' m p rest hfirst hrest ih =>
    obtain ⟨hmem, hsub⟩ := List.cons_subset.1 hsub
    obtain ⟨names', hnames', -, hunpacked⟩ := unpackMember_ok hanchored hfirst
    obtain rfl : namesIn p = names' := by rw [namesIn, hnames']; rfl
    obtain ⟨hunlinked', hcontents⟩ := ih hsub
      (fun hne => (hanchored hne).changesInside hunpacked.changesInside)
      (hunlinked.step hmem hunpacked)
    refine ⟨hunlinked', ?_⟩
    -- What the first member leaves at the names.
    have hstep : host₁.files.contentsAt (root ++ names) =
        (if m.isStored && namesIn p = names then some m.contents else none).or
          (host.files.contentsAt (root ++ names)) := by
      by_cases hnil : namesIn p = []
      · rw [hunpacked.nothing hnil, hnil, if_neg (by simp [Ne.symm hne]), Option.none_or]
      obtain ⟨target, hlands, htarget⟩ := hunpacked.lands hnil
      obtain rfl := htarget (hunlinked.standing (m, p) hmem)
      by_cases heq : namesIn p = names
      · subst heq
        cases hstored : m.isStored with
        | true => simp [(hlands.stored hstored).1]
        | false =>
          have hlink : m.isLink = false := by
            rw [Bool.eq_false_iff]
            exact fun hlink => hlinks (m, p) hmem hlink rfl
          simp [(hlands.unstored hstored hlink).1]
      · have hother : root ++ names ≠ root ++ namesIn p :=
          fun h => heq (List.append_cancel_left h).symm
        rw [hlands.contentsAt_other _ hother, if_neg (by simp [heq]), Option.none_or]
    rw [hcontents, hstep, lastStored_cons]
    cases lastStored rest names with
    | some m' => rfl
    | none =>
      simp only [Option.map_none, Option.none_or]
      split <;> rfl

/-! ### What is told -/

/-- The last step of a path goes to a named entry. -/
def EndsInName (p : Path) : Prop :=
  ∃ n, p.steps.getLast? = some (.name n)

/-- A path below a directory leads to a file with given contents. It can be walked when the directory
can be reached and what is below it may be entered. -/
structure Landed (fs : Files) (dest : Path) (root : Location) (p : Path) (contents : ByteArray) :
    Prop where
  contentsAt : fs.contentsAt (root ++ namesIn p) = some contents
  leads : ∀ l, fs.resolve (dest / p) = .ok l → l = root ++ namesIn p
  opens : requirePath (dest / p) = .ok () → fs.reach dest = .ok root → fs.Open root (namesIn p) →
    fs.resolve (dest / p) = .ok (root ++ namesIn p)

theorem EndsInName.text_ne_empty (h : EndsInName p) : p.text ≠ "" := by
  obtain ⟨n, hlast⟩ := h
  intro hempty
  rw [show p = ⟨""⟩ from congrArg Path.mk hempty] at hlast
  simp [Path.steps, Path.endsInSlash] at hlast

/-- The names of a path that ends in one. -/
theorem EndsInName.exists_steps (h : EndsInName p) (hnames : targetNames? p = some names) :
    ∃ init n, p.steps = init ++ [.name n] ∧ p.walked = init ++ [.name n] ∧
      p.endsInSlash = false ∧ names = namesOf init ++ [n] := by
  obtain ⟨n, hlast⟩ := h
  obtain ⟨init, hsteps⟩ := List.getLast?_eq_some_iff.1 hlast
  have hslash : p.endsInSlash = false := by
    rw [Bool.eq_false_iff]
    intro hslash
    rw [Path.steps_eq, if_pos hslash] at hsteps
    obtain ⟨-, hinside⟩ := List.append_inj' hsteps rfl
    simp at hinside
  have hwalked : p.walked = init ++ [.name n] := by
    rwa [Path.steps_eq, hslash, if_neg (by simp)] at hsteps
  refine ⟨init, n, hsteps, hwalked, hslash, ?_⟩
  rw [← (namesOf_walked hnames).1, hwalked, namesOf_append]
  rfl

/-- A path that ends in a name is located at its names. -/
theorem eq_append_of_locate {follow : Bool} {l : Location} (hne : dest.text ≠ "")
    (hheads : fs.HeadsFor dest root) (htree : fs.IsTree) (habsolute : p.isAbsolute = false)
    (hend : EndsInName p) (hnames : targetNames? p = some names) (hclear : fs.ClearTo root names)
    (h : fs.locate follow (dest / p) = .ok l) : l = root ++ names := by
  obtain ⟨init, n, hsteps, hwalked, -, -⟩ := hend.exists_steps hnames
  obtain ⟨hnamesOf, hdown⟩ := namesOf_walked hnames
  rw [locate_eq (requirePath_of_locate h), start, Path.isAbsolute_join hne habsolute, ← start,
    Path.steps_join hne habsolute hend.text_ne_empty, hsteps] at h
  rw [← hnamesOf, hwalked]
  refine walk_of_clearTo hheads htree (hwalked ▸ hdown) (by simp) ?_ h
  rwa [← hwalked, hnamesOf]

/-- A path that ends in a name leads to the file that is at its names. -/
theorem landed_of_contentsAt {ways : Location → Prop} {contents : ByteArray} (hne : dest.text ≠ "")
    (hheads : fs.LeadsTo ways dest root) (htree : fs.IsTree) (habsolute : p.isAbsolute = false)
    (hend : EndsInName p) (hnames : targetNames? p = some names)
    (hclear : fs.ClearTo root names.dropLast)
    (hcontents : fs.contentsAt (root ++ names) = some contents) :
    Landed fs dest root p contents := by
  obtain ⟨init, n, hsteps, hwalked, -, hsplit⟩ := hend.exists_steps hnames
  obtain ⟨hnamesOf, hdown⟩ := namesOf_walked hnames
  obtain ⟨mode, shared, hget⟩ := contentsAt_eq_some_iff.1 hcontents
  have hlink : fs.linkAt (root ++ names) = none := linkAt_of_file hget
  have hclearAll : fs.ClearTo root names := by
    intro init' hinit' hne'
    rw [hsplit] at hinit'
    rcases List.prefix_concat_iff.1 hinit' with heq | hinit'
    · rw [heq, ← hsplit]
      exact hlink
    · refine hclear init' ?_ hne'
      rwa [hsplit, List.dropLast_concat]
  have hin : namesIn p = names := by rw [namesIn, hnames]; rfl
  constructor
  · rw [hin]
    exact hcontents
  · intro l hl
    rw [hin]
    exact eq_append_of_locate hne hheads.headsFor htree habsolute hend hnames hclearAll hl
  · intro hpath hreach hopen
    rw [resolve, locate_eq hpath, start, Path.isAbsolute_join hne habsolute, ← start,
      Path.steps_join hne habsolute hend.text_ne_empty, hsteps]
    rw [hin] at hopen ⊢
    rw [hsplit] at hopen hget hlink ⊢
    rw [← List.append_assoc root] at hget hlink ⊢
    exact walk_name_of_open hreach htree
      (fun step hstep => hdown step (by rw [hwalked]; exact List.mem_append_left _ hstep))
      hopen hget hlink

end Archive

open Archive Files Location Build

variable {host host' : Host} {archive dest : Path} {root : Location} {files : List Path}

/-- After its directories are made a path leads to one, and what it leads by stays while the inside
of the directory changes. -/
theorem Archive.anchored_of_createDirectories {host host₁ : Host} (hwf : host.files.WellFormed)
    (hdest : host.files.LeadsTo (fun v => (host.files.linkAt v).isSome → ¬Inside root v) dest root)
    (hne : dest.text ≠ "") (h : exec (createDirectories dest) host = (.ok (), host₁)) :
    Anchored host₁.files dest root := by
  have hmakes := (createDirectories_makes h).1
  obtain ⟨l, mode, hreach, hdir⟩ := createDirectories_reach hne h
  have hdest₁ := hdest.congr hmakes.workingDirectory fun v _ => hmakes.linkAt v
  obtain ⟨rfl, hway⟩ := hdest₁.and (leadsTo_of_reach_directory hreach hdir)
  obtain ⟨htree, hplain⟩ := namesPlainly_createDirectories h hwf.isTree hwf.namesPlainly
  refine ⟨hway.mono ?_, ⟨mode, hdir⟩, hplain.of_isSome htree (by rw [hdir]; rfl), htree⟩
  rintro v ⟨hlink, hpassage⟩
  obtain ⟨e, he⟩ := Option.isSome_iff_exists.1 hpassage
  obtain ⟨hget, hfile⟩ := passage_eq_some_iff.1 he
  cases e with
  | file => contradiction
  | directory mode' => exact .inl ⟨mode', hget⟩
  | link target =>
    refine .inr ⟨by rw [hget]; rfl, hlink ?_⟩
    rw [← hmakes.linkAt, linkAt_eq_some_iff.2 hget]
    rfl

/-- A directory that came where nothing was, on the way of a path. -/
def Files.CameFor (fs fs' : Files) (p : Path) (l : Location) : Prop :=
  fs.get? l = none ∧ (∃ mode, fs'.get? l = some (.directory mode)) ∧
    ∀ ways : Location → Prop, fs.LeadsBy ways p → ways l

/-- An archive that is unpacked into a directory, where that is not reached by a link inside of it:
its members are unpacked one after the other and none of their names leads up; its files are told in
their order; outside of the directory nothing changes, but that the way to it is made. What is told
of a file leads to its contents, or to those of the last file of that name, when its name is relative
and ends in a name and no link is on the way of a member or comes in the place of the file. -/
theorem unpack_ok (hwf : host.files.WellFormed)
    (hdest : host.files.LeadsTo (fun v => (host.files.linkAt v).isSome → ¬Inside root v) dest root)
    (h : exec (unpack archive dest) host = (.ok files, host')) :
    ∃ bytes stream entries, host.files.readFile archive = .ok bytes ∧
      Stream.ofCompressed? bytes = some stream ∧ Lists stream 0 entries ∧
      files = filesIn dest entries ∧
      (∀ x ∈ entries, Component.parent ∉ x.2.components) ∧
      (∀ x ∈ entries, x.2.isAbsolute = false → namesIn x.2 ≠ [] →
        (dest / x.2).components = dest.components ++ (namesIn x.2).map .name) ∧
      (∀ l, ¬Inside root l → host'.files.get? l = host.files.get? l ∨
        CameFor host.files host'.files dest l) ∧
      (Unlinked root host.files entries → ∀ x ∈ entries, x.1.kind = .file →
        x.2.isAbsolute = false → EndsInName x.2 →
        (∀ y ∈ entries, y.1.isLink = true → namesIn y.2 ≠ namesIn x.2) →
        ∃ m, lastStored entries (namesIn x.2) = some m ∧
          Landed host'.files dest root x.2 m.contents) := by
  rw [unpack, Build.holds, exec_asking_bind] at h
  cases hholds : host.files.holds archive with
  | false =>
    rw [hholds, if_pos (by simp)] at h
    exact absurd (Prod.mk.inj h).1 (by simp)
  | true =>
    rw [hholds, if_neg (by simp)] at h
    obtain ⟨⟨⟩, host₁, hcreate, h⟩ := exec_bind_ok h
    obtain ⟨bytes, host₂, hread, h⟩ := exec_bind_ok h
    obtain ⟨rfl, hbytes⟩ := reading_result (exec_within_ok hread)
    obtain ⟨⟨hmakes, -⟩, hway⟩ := createDirectories_makesWay hcreate
    have hbytes' := readFile_of_makesDirectories hmakes hholds (hbytes bytes rfl)
    cases hstream : Stream.ofCompressed? bytes with
    | none =>
      rw [hstream, exec_within] at h
      exact absurd (Prod.mk.inj h).1 (by simp [Except.mapError])
    | some stream =>
      rw [hstream] at h
      obtain ⟨entries, hlists, hunpacks, rfl⟩ := unpackFrom_ok (by simp) h
      have hanchored : dest.text ≠ "" → Anchored (counted host₁).files dest root := by
        rw [files_counted]
        exact fun hne => anchored_of_createDirectories hwf hdest hne hcreate
      obtain ⟨hchanges, hparent⟩ := changesInside_of_unpacks hunpacks hanchored
      refine ⟨bytes, stream, entries, hbytes', hstream, hlists, rfl, fun x hx => (hparent x hx).1,
        ?_, ?_, ?_⟩
      · intro x hx habsolute hnonempty
        obtain ⟨names, hnames⟩ := Option.ne_none_iff_exists'.1
          (mt targetNames?_eq_none_iff.1 (hparent x hx).1)
        rw [namesIn, hnames]
        exact components_div ((hparent x hx).2 hnonempty) habsolute hnames
      · intro l hl
        rw [hchanges.get?_eq l hl, files_counted]
        rcases hmakes.get? l with heq | ⟨hnone, mode, hmode⟩
        · exact .inl heq
        · right
          refine ⟨hnone, ⟨mode, (hchanges.get?_eq l hl).trans hmode⟩, fun ways hleads => ?_⟩
          by_contra hoff
          rw [hway ways hleads l hoff, hnone] at hmode
          contradiction
      · intro hunlinked x hx hkind habsolute hend hlinks
        obtain ⟨names, hnames⟩ := Option.ne_none_iff_exists'.1
          (mt targetNames?_eq_none_iff.1 (hparent x hx).1)
        have hin : namesIn x.2 = names := by rw [namesIn, hnames]; rfl
        obtain ⟨init, n, -, -, hslash, hsplit⟩ := hend.exists_steps hnames
        have hnonempty : namesIn x.2 ≠ [] := by simp [hin, hsplit]
        have hanchored := hanchored ((hparent x hx).2 hnonempty)
        obtain ⟨text, htext, hpath⟩ := hlists.name_of_mem x hx
        have hstored := isStored_of_file hkind htext (hpath ▸ hslash)
        obtain ⟨m, hm⟩ := exists_lastStored hx hstored
        obtain ⟨hunlinked', hcontents⟩ := contentsAt_of_unpacks hunpacks (List.Subset.refl _)
          (fun _ => hanchored) (hunlinked.congr hmakes.linkAt) hnonempty hlinks
        rw [hm] at hcontents
        have hanchored' := hanchored.changesInside hchanges
        refine ⟨m, hm, landed_of_contentsAt ((hparent x hx).2 hnonempty) hanchored'.leadsTo
          hanchored'.isTree habsolute hend hnames ?_ ?_⟩
        · rw [← hin]
          exact hunlinked'.standing x hx
        · rw [← hin]
          exact hcontents

/-! ### An archive with one file -/

def toolArchive : Path := ⟨"tool.tgz"⟩

def binDirectory : Path := ⟨"bin"⟩

/-- A working directory with an archive in it. -/
def toolFiles (name sum : String) : Files where
  entries := [(["work"], .directory 0o755),
    (["work", "tool.tgz"], .file (storedFile (archiveOf name sum)) 0o644 none)]
  workingDirectory := ["work"]

/-- The host once the directory is made and the archive is read. -/
def readHost (name sum : String) : Host :=
  { quietHost (toolFiles name sum) with
    files := (toolFiles name sum).put ["work", "bin"] (.directory 0o755), operations := 2 }

theorem ofCompressed?_tool {name sum : String} (h : IsHeader name sum) :
    Stream.ofCompressed? (storedFile (archiveOf name sum)) = some ⟨archiveOf name sum, true⟩ :=
  ofCompressed?_storedFile (by rw [size_archiveOf h]; decide)

theorem nextMember_tool_end {name sum : String} (h : IsHeader name sum) :
    nextMember ⟨archiveOf name sum, true⟩ (2 * blockSize) = .finished := by
  rw [← size_archiveOf h]
  exact nextMember_of_end rfl

theorem textOf?_shortFile (name : String) : textOf? (shortFile name).name = some name :=
  fromUTF8?_toUTF8 name

/-- An archive with one file is unpacked when that file is. -/
theorem exec_unpack_tool {name sum : String} {host' : Host} (h : IsHeader name sum)
    (hrun : exec (unpackMember binDirectory (shortFile name) ⟨name⟩) (readHost name sum) =
      (.ok true, host')) :
    exec (unpack toolArchive binDirectory) (quietHost (toolFiles name sum)) =
      (.ok [binDirectory / ⟨name⟩], host') := by
  have hread : exec (do
      createDirectories binDirectory
      within s!"reading {toolArchive}" (readBytes toolArchive))
      (quietHost (toolFiles name sum)) =
      (.ok (storedFile (archiveOf name sum)), readHost name sum) := rfl
  have hholds : (quietHost (toolFiles name sum)).files.holds toolArchive = true := rfl
  have hname : memberName (shortFile name) = pure ⟨name⟩ := by
    rw [memberName, textOf?_shortFile]
  rw [unpack, Build.holds, exec_asking_bind, hholds, if_neg (by simp), ← bind_assoc,
    exec_bind_of_ok hread, ofCompressed?_tool h]
  simp only [unpackFrom, nextMember_archiveOf h, nextMember_tool_end h, hname, pure_bind]
  rw [exec_bind, exec_within, hrun]
  rfl

/-- The members of an archive with one file. -/
theorem lists_tool {name sum : String} {entries : List (Member × Path)} (h : IsHeader name sum)
    (hlists : Lists ⟨archiveOf name sum, true⟩ 0 entries) :
    entries = [(shortFile name, ⟨name⟩)] := by
  cases hlists with
  | finished hnext =>
    rw [nextMember_archiveOf h] at hnext
    cases hnext
  | member hnext hname hrest =>
    rw [nextMember_archiveOf h] at hnext
    obtain ⟨rfl, rfl⟩ := Place.member.inj hnext
    obtain rfl := Option.some.inj ((textOf?_shortFile name).symm.trans hname)
    cases hrest with
    | finished => rfl
    | member hnext =>
      rw [nextMember_tool_end h] at hnext
      cases hnext

/-- There are no links. -/
theorem leadsTo_tool (name sum : String) : (toolFiles name sum).LeadsTo
    (fun v => ((toolFiles name sum).linkAt v).isSome → ¬Inside ["work", "bin"] v) binDirectory
    ["work", "bin"] := by
  refine ⟨⟨[["work"], ["work", "bin"]], ["work", "bin"]⟩, rfl, rfl, fun v hv hlink => ?_⟩
  have hnone : ∀ v ∈ ([["work"], ["work", "bin"]] : List Location),
      (toolFiles name sum).linkAt v = none := by
    simp only [List.forall_mem_cons]
    exact ⟨rfl, rfl, by simp⟩
  rw [hnone v hv] at hlink
  contradiction

/-- Nothing is on the way of one file that comes to be directly in the directory. -/
theorem unlinked_shortFile {fs : Files} {name n : String} (hnames : namesIn ⟨name⟩ = [n]) :
    Unlinked root fs [(shortFile name, ⟨name⟩)] := by
  refine ⟨fun x hx init hinit hne => ?_, fun x hx y hy hlink => ?_⟩
  · rw [List.mem_singleton.1 hx, hnames] at hinit
    exact absurd (List.prefix_nil.1 hinit) hne
  · rw [List.mem_singleton.1 hy] at hlink
    contradiction

/-- A file whose name is relative is told by a path that leads to it. -/
theorem unpack_ok_tool :
    ∃ host', exec (unpack toolArchive binDirectory)
        (quietHost (toolFiles "merge-raml" "0007714")) =
          (.ok [binDirectory / ⟨"merge-raml"⟩], host') ∧
      (∀ l, ¬Inside ["work", "bin"] l →
        host'.files.get? l = (toolFiles "merge-raml" "0007714").get? l ∨
          CameFor (toolFiles "merge-raml" "0007714") host'.files binDirectory l) ∧
      Landed host'.files binDirectory ["work", "bin"] ⟨"merge-raml"⟩ shortContents.toUTF8 := by
  have hwf : (toolFiles "merge-raml" "0007714").WellFormed :=
    wellFormed_of_entries (by decide +kernel) (by decide +kernel)
  have hread : (toolFiles "merge-raml" "0007714").readFile toolArchive =
    .ok (storedFile (archiveOf "merge-raml" "0007714")) := rfl
  have hnames : namesIn ⟨"merge-raml"⟩ = ["merge-raml"] := by decide +kernel
  have hlast : lastStored [(shortFile "merge-raml", ⟨"merge-raml"⟩)] (namesIn ⟨"merge-raml"⟩) =
      some (shortFile "merge-raml") := by
    rw [lastStored_cons, if_pos (by decide +kernel)]
    rfl
  have hends : EndsInName ⟨"merge-raml"⟩ := ⟨"merge-raml", by decide +kernel⟩
  have hrun : (exec (unpackMember binDirectory (shortFile "merge-raml") ⟨"merge-raml"⟩)
      (readHost "merge-raml" "0007714")).1 = .ok true := by decide +kernel
  have hunpack := exec_unpack_tool isHeader_tool.1 (exec_eq_of_fst hrun)
  obtain ⟨bytes, stream, entries, hbytes, hstream, hlists, -, -, -, houtside, htold⟩ :=
    unpack_ok hwf (leadsTo_tool _ _) hunpack
  obtain rfl := Except.ok.inj (hread.symm.trans hbytes)
  obtain rfl := Option.some.inj ((ofCompressed?_tool isHeader_tool.1).symm.trans hstream)
  obtain rfl := lists_tool isHeader_tool.1 hlists
  obtain ⟨m, hm, hlanded⟩ := htold (unlinked_shortFile hnames) _ (List.mem_singleton_self _) rfl
    (by decide +kernel) hends (by simp [shortFile, Member.isLink])
  obtain rfl := Option.some.inj (hlast.symm.trans hm)
  exact ⟨_, hunpack, houtside, hlanded⟩

/-- A file whose name is absolute is told by a path at which nothing is, and is below the directory. -/
theorem unpack_absolute_tool :
    ∃ host', exec (unpack toolArchive binDirectory)
        (quietHost (toolFiles "/merge-raml" "0007773")) = (.ok [⟨"/merge-raml"⟩], host') ∧
      ¬binDirectory.components <+: (⟨"/merge-raml"⟩ : Path).components ∧
      host'.files.holds ⟨"/merge-raml"⟩ = false ∧
      host'.files.readFile ⟨"bin/merge-raml"⟩ = .ok shortContents.toUTF8 := by
  have hrun : (exec (unpackMember binDirectory (shortFile "/merge-raml") ⟨"/merge-raml"⟩)
      (readHost "/merge-raml" "0007773")).1 = .ok true := by decide +kernel
  have hunpack := exec_unpack_tool isHeader_tool.2 (exec_eq_of_fst hrun)
  rw [show binDirectory / ⟨"/merge-raml"⟩ = ⟨"/merge-raml"⟩ by decide +kernel] at hunpack
  exact ⟨_, hunpack, by decide +kernel, by decide +kernel, by decide +kernel⟩

end RamlBuild
