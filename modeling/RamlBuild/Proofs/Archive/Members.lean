import RamlBuild.Archive.Unpack
import RamlBuild.Proofs.Files.Descent
import RamlBuild.Proofs.Files.Inside

/-!
# The members of an archive

An archive lists its members one after the other, each at least a block further on. The name of a
member that does not lead up gives the names of entries below a directory.

## Main definitions

* `Archive.Lists` — the members from a place on, with the paths of their names
* `Archive.Member.isLink`, `Archive.Member.isStored` — what a member leaves when it is unpacked

## Main results

* `Archive.next_of_member` — a member takes a block at least
* `Archive.targetNames?_eq_none_iff` — which names lead up
* `Archive.isPlainName_of_targetNames?`, `Archive.namesOf_walked` — the names of the others
* `Archive.isStored_of_file` — a file is one unless its name ends in a slash
-/

namespace RamlBuild.Archive

variable {stream : Stream} {start next count : Nat} {m : Member} {p : Path} {names : List String}

/-- The members of an archive from a place on, with the paths that their names stand for. -/
inductive Lists (stream : Stream) : (start : Nat) → List (Member × Path) → Prop
  /-- None are left. -/
  | finished {start : Nat} (hnext : nextMember stream start = .finished) : Lists stream start []
  /-- One more member. -/
  | member {start next : Nat} {m : Member} {text : String} {rest : List (Member × Path)}
      (hnext : nextMember stream start = .member m next) (hname : textOf? m.name = some text)
      (hrest : Lists stream next rest) : Lists stream start ((m, ⟨text⟩) :: rest)

/-- The path of a member is its name. -/
theorem Lists.name_of_mem {entries : List (Member × Path)} (h : Lists stream start entries) :
    ∀ x ∈ entries, ∃ text, textOf? x.1.name = some text ∧ x.2 = ⟨text⟩ := by
  induction h with
  | finished => simp
  | member hnext hname hrest ih =>
    intro x hx
    rcases List.mem_cons.1 hx with rfl | hx
    · exact ⟨_, hname, rfl⟩
    · exact ih x hx

/-- A member that leaves a link, or another name of what is there. -/
def Member.isLink (m : Member) : Bool :=
  [MemberKind.symbolicLink, .hardLink].contains m.kind

/-- A member that leaves a file with its contents. -/
def Member.isStored (m : Member) : Bool :=
  !m.makesDirectory && [MemberKind.file, .sparseFile, .other].contains m.kind

/-! ### One member after the other -/

theorem next_of_memberFrom {d : Description} (h : memberFrom stream count start d = .member m next) :
    start + blockSize ≤ next ∧ start + blockSize ≤ stream.bytes.size := by
  induction count generalizing start d with
  | zero => contradiction
  | succ count ih =>
    have hending : (if d = .empty then Place.finished else .damaged) ≠ .member m next := by
      split <;> exact Place.noConfusion
    rw [memberFrom] at h
    dsimp only at h
    by_cases hend : stream.bytes.size = start
    · rw [if_pos hend] at h
      cases hends : stream.ends with
      | true => exact absurd (by simpa [hends] using h) hending
      | false => simp [hends] at h
    rw [if_neg hend] at h
    by_cases hsize : stream.bytes.size < start + blockSize
    · rw [if_pos hsize] at h
      cases h
    rw [if_neg hsize] at h
    by_cases hzero : isZeroBlock (stream.bytes.extract start (start + blockSize)) = true
    · rw [if_pos hzero] at h
      exact absurd h hending
    rw [if_neg hzero] at h
    split at h
    · cases h
    split at h
    · cases h
    split at h
    · cases h
    split at h
    · -- A description takes its own blocks, and the member comes behind it.
      split at h
      · obtain ⟨hnext, hbehind⟩ := ih h
        omega
      · cases h
    split at h
    · split at h
      · obtain ⟨-, rfl⟩ := Place.member.inj h
        omega
      · cases h
    · obtain ⟨-, rfl⟩ := Place.member.inj h
      omega

/-- A member takes a block at least, and stands in the archive with it. -/
theorem next_of_member (h : nextMember stream start = .member m next) :
    start + blockSize ≤ next ∧ start + blockSize ≤ stream.bytes.size :=
  next_of_memberFrom h

/-! ### Names -/

/-- A name leads up when one of its pieces does. -/
theorem parent_mem_components_iff :
    Component.parent ∈ p.components ↔ ['.', '.'] ∈ p.text.toList.splitOn '/' := by
  have hstart : ∀ start : Path.Start, Component.parent ∉ start.component? := by
    intro start
    cases start <;> simp [Path.Start.component?]
  rw [Path.components_eq_componentsOf, List.mem_append, or_iff_right (hstart _), Path.componentsOf,
    List.mem_map]
  constructor
  · rintro ⟨piece, hpiece, hparent⟩
    unfold Path.componentOf at hparent
    split at hparent
    · rename_i hdots
      rw [hdots] at hpiece
      exact (List.mem_filter.1 hpiece).1
    · contradiction
  · intro hmem
    exact ⟨_, List.mem_filter.2 ⟨hmem, rfl⟩, rfl⟩

/-- The names of a path that leads up are none. -/
theorem targetNames?_eq_none_iff : targetNames? p = none ↔ Component.parent ∈ p.components := by
  unfold targetNames?
  split
  · rename_i h
    simpa using h
  · rename_i h
    simpa using h

/-- Pieces of a name that does not lead up. -/
theorem componentsOf_eq_map {pieces : List (List Char)} (h : ['.', '.'] ∉ pieces) :
    Path.componentsOf pieces =
      ((pieces.filter (!Path.isFiller ·)).map String.ofList).map Component.name := by
  rw [Path.componentsOf, List.map_map]
  refine List.map_congr_left fun piece hpiece => ?_
  have hne : piece ≠ ['.', '.'] := by
    rintro rfl
    exact h (List.mem_filter.1 hpiece).1
  rw [Path.componentOf, if_neg hne]
  rfl

/-- What the names of a path are. -/
theorem targetNames?_eq_some (h : targetNames? p = some names) :
    ['.', '.'] ∉ p.text.toList.splitOn '/' ∧
      names = ((p.text.toList.splitOn '/').filter (!Path.isFiller ·)).map String.ofList := by
  have hparent : ¬Component.parent ∈ p.components := by
    rw [← targetNames?_eq_none_iff, h]
    simp
  have hdots := mt parent_mem_components_iff.2 hparent
  refine ⟨hdots, ?_⟩
  unfold targetNames? at h
  rw [if_neg (by simpa using hparent)] at h
  rw [← Option.some.inj h, Path.components_eq_componentsOf, List.filterMap_append,
    componentsOf_eq_map hdots]
  cases p.body.1 <;> exact (List.filterMap_map ..).trans List.filterMap_some

theorem isPlainName_of_targetNames? (h : targetNames? p = some names) :
    ∀ n ∈ names, IsPlainName n := by
  obtain ⟨hdots, rfl⟩ := targetNames?_eq_some h
  intro n hn
  obtain ⟨piece, hpiece, rfl⟩ := List.mem_map.1 hn
  obtain ⟨hmem, hfiller⟩ := List.mem_filter.1 hpiece
  have hslash : '/' ∉ piece := Text.not_mem_of_mem_splitOn hmem
  simp only [Path.isFiller, Bool.not_eq_true', Bool.or_eq_false_iff, List.isEmpty_eq_false_iff,
    decide_eq_false_iff_not] at hfiller
  have hofList : ∀ {text : String}, String.ofList piece = text → piece = text.toList := by
    rintro text rfl
    rw [String.toList_ofList]
  refine ⟨fun h => hfiller.1 (hofList h), fun h => hfiller.2 (hofList h), fun h => ?_, ?_⟩
  · rw [hofList h] at hmem
    exact hdots hmem
  · rwa [String.toList_ofList]

/-- The steps of a name that does not lead up go down by its names. -/
theorem namesOf_walked (h : targetNames? p = some names) :
    Files.namesOf p.walked = names ∧ Files.GoDown p.walked := by
  obtain ⟨hdots, rfl⟩ := targetNames?_eq_some h
  rw [Path.walked_eq_stepsOf_splitOn]
  generalize p.text.toList.splitOn '/' = pieces at hdots
  induction pieces with
  | nil => exact ⟨rfl, by simp [Path.stepsOf, Files.GoDown]⟩
  | cons piece rest ih =>
    obtain ⟨hne, hrest⟩ := not_or.1 (mt List.mem_cons.2 hdots)
    obtain ⟨hnames, hdown⟩ := ih hrest
    by_cases hempty : piece = []
    · subst hempty
      exact ⟨hnames, hdown⟩
    have hcons : Path.stepsOf (piece :: rest) = Path.stepOf piece :: Path.stepsOf rest := by
      rw [Path.stepsOf, List.filter_cons_of_pos (by simp [hempty])]
      rfl
    rw [hcons]
    by_cases hdot : piece = ['.']
    · subst hdot
      refine ⟨hnames, ?_⟩
      intro step hstep
      rcases List.mem_cons.1 hstep with rfl | hstep
      · exact .inl rfl
      · exact hdown step hstep
    · have hstep : Path.stepOf piece = .name (String.ofList piece) := by
        rw [Path.stepOf, if_neg hdot, if_neg (Ne.symm hne)]
      rw [hstep, List.filter_cons_of_pos (by simp [Path.isFiller, hempty, hdot]), List.map_cons,
        ← hnames]
      refine ⟨rfl, ?_⟩
      intro step hstep'
      rcases List.mem_cons.1 hstep' with rfl | hstep'
      · exact .inr ⟨_, rfl⟩
      · exact hdown step hstep'

/-- Only a slash has the byte of a slash at its end. -/
theorem eq_slash_of_getLast? {c : Char} (h : (String.utf8EncodeChar c).getLast? = some 0x2f) :
    c = '/' := by
  -- A byte that goes on with a character has its first bit set.
  have hbyte : ∀ n : Nat, UInt8.ofNat (n % 64 + 128) ≠ 0x2f := by
    intro n heq
    have hnat := congrArg UInt8.toNat heq
    rw [UInt8.toNat_ofNat', show (0x2f : UInt8).toNat = 47 from rfl] at hnat
    have hlt : n % 64 < 64 := Nat.mod_lt _ (by decide)
    omega
  unfold String.utf8EncodeChar at h
  dsimp only at h
  split at h
  · have hval : UInt8.ofNat c.val.toNat = 0x2f := by simpa using h
    have hnat := congrArg UInt8.toNat hval
    rw [UInt8.toNat_ofNat', show (0x2f : UInt8).toNat = 47 from rfl] at hnat
    apply Char.ext
    apply UInt32.toNat.inj
    rw [show '/'.val.toNat = 47 from rfl]
    omega
  · split at h
    · exact absurd (by simpa using h) (hbyte c.val.toNat)
    · split at h <;> exact absurd (by simpa using h) (hbyte c.val.toNat)

/-- The bytes that a text is read from are its own. -/
theorem textOf?_eq_some {bytes : List UInt8} {text : String} (h : textOf? bytes = some text) :
    bytes = text.toList.flatMap String.utf8EncodeChar := by
  unfold textOf? String.fromUTF8? at h
  split at h
  · have hbytes : text.toByteArray = ⟨bytes.toArray⟩ := by
      rw [← Option.some.inj h]
      rfl
    have hencode : text.toList.utf8Encode = ⟨bytes.toArray⟩ := by
      rw [← hbytes]
      exact String.utf8Encode_toList
    unfold List.utf8Encode at hencode
    simpa using (congrArg (fun b => b.data.toList) hencode).symm
  · contradiction

/-- A file whose name does not end in a slash is unpacked as one. -/
theorem isStored_of_file {text : String} (hkind : m.kind = .file) (hname : textOf? m.name = some text)
    (hslash : (⟨text⟩ : Path).endsInSlash = false) : m.isStored = true := by
  have hlast : m.name.getLast? ≠ some 0x2f := by
    intro hlast
    rw [textOf?_eq_some hname] at hlast
    rcases List.eq_nil_or_concat text.toList with hnil | ⟨init, c, htext⟩
    · simp [hnil] at hlast
    · rw [List.concat_eq_append] at htext
      have hne : (String.utf8EncodeChar c).getLast? ≠ none := by
        rw [ne_eq, List.getLast?_eq_none_iff]
        exact String.utf8EncodeChar_ne_nil
      rw [htext, List.flatMap_append, List.getLast?_append, List.flatMap_singleton] at hlast
      obtain ⟨b, hb⟩ := Option.ne_none_iff_exists'.1 hne
      rw [hb, Option.some_or] at hlast
      obtain rfl := eq_slash_of_getLast? (hb.trans hlast)
      rw [Path.endsInSlash, htext, List.getLast?_concat] at hslash
      contradiction
  simp [Member.isStored, Member.makesDirectory, hkind, hlast]

/-- A relative name that does not lead up gives the components below a directory. -/
theorem components_div {dest : Path} (hne : dest.text ≠ "") (habsolute : p.isAbsolute = false)
    (h : targetNames? p = some names) :
    (dest / p).components = dest.components ++ names.map Component.name := by
  obtain ⟨hdots, rfl⟩ := targetNames?_eq_some h
  rw [Path.components_join hne habsolute, componentsOf_eq_map hdots]

end RamlBuild.Archive
