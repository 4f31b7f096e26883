import Mathlib.Data.List.Basic
import Mathlib.Data.List.TakeWhile
import RamlBuild.Proofs.Files.Components
import RamlBuild.Proofs.Files.DeadEnds
import RamlBuild.Proofs.Files.Inside

/-!
# Paths beside one another

The path beside an entry's path leads to the entry beside it. It may be written differently: what
means nothing at the end of the directory's path is lost.

## Main results

* `Path.exists_parent?_child` — the path above an entry's path, up to what means nothing
* `Files.resolve_withFileName` — where the path beside an entry's path leads
-/

namespace RamlBuild

namespace Path

variable {p q : Path} {name new : String} {pieces : List (List Char)}

/-! ### Pieces and the slashes behind them -/

/-- Pieces with a slash behind each of them. -/
def slashed (pieces : List (List Char)) : List Char :=
  pieces.flatMap (· ++ ['/'])

theorem slashed_append (pieces others : List (List Char)) :
    slashed (pieces ++ others) = slashed pieces ++ slashed others :=
  List.flatMap_append

theorem intercalate_concat (pieces : List (List Char)) (last : List Char) :
    ['/'].intercalate (pieces ++ [last]) = slashed pieces ++ last := by
  induction pieces with
  | nil => simp [slashed, List.intercalate_singleton]
  | cons piece rest ih =>
    obtain ⟨next, others, hrest⟩ := List.exists_cons_of_ne_nil (l := rest ++ [last]) (by simp)
    rw [List.cons_append, hrest, List.intercalate_cons_cons, ← hrest, ih]
    simp [slashed]

/-- Behind pieces whose last one is not empty, a slash is put between. -/
theorem slashed_eq (hlast : ∀ piece ∈ pieces.getLast?, piece ≠ [] ∧ '/' ∉ piece) :
    ['/'].intercalate pieces ++ separator (['/'].intercalate pieces) = slashed pieces := by
  rcases List.eq_nil_or_concat pieces with rfl | ⟨init, last, rfl⟩
  · rfl
  · rw [List.concat_eq_append] at hlast ⊢
    obtain ⟨hne, hslash⟩ := hlast last (by simp)
    have hsep : separator last = ['/'] := by
      have hend : last.getLast? ≠ some '/' := fun h => hslash (List.mem_of_getLast? h)
      rw [separator, if_neg]
      simp [hne, hend]
    rw [intercalate_concat, separator_append hne, hsep, slashed_append, List.append_assoc]
    simp [slashed]

theorem not_isFiller_of_getLast?_trimFiller {piece : List Char}
    (h : (trimFiller pieces).getLast? = some piece) : isFiller piece = false := by
  rw [trimFiller, List.getLast?_reverse] at h
  have := List.head?_dropWhile_not isFiller pieces.reverse
  rw [h] at this
  simpa using this

theorem exists_filler (pieces : List (List Char)) :
    ∃ filler, pieces = trimFiller pieces ++ filler ∧ ∀ piece ∈ filler, isFiller piece = true := by
  refine ⟨(pieces.reverse.takeWhile isFiller).reverse, ?_, ?_⟩
  · rw [trimFiller, ← List.reverse_append, List.takeWhile_append_dropWhile, List.reverse_reverse]
  · intro piece hpiece
    exact List.mem_takeWhile_imp (List.mem_reverse.1 hpiece)

theorem stepsOf_filler {filler : List (List Char)} (h : ∀ piece ∈ filler, isFiller piece = true) :
    ∀ step ∈ stepsOf filler, step = .here := by
  intro step hstep
  obtain ⟨piece, hpiece, rfl⟩ := List.mem_map.1 hstep
  obtain ⟨hmem, hne⟩ := List.mem_filter.1 hpiece
  have hfiller := h piece hmem
  rw [isFiller, Bool.or_eq_true, decide_eq_true_eq] at hfiller
  rcases hfiller with hempty | rfl
  · rw [hempty] at hne
    contradiction
  · rfl

/-- The text of a path that is put together from pieces that end with a name. -/
theorem slashed_ofBody (start : Start) (hlast : ∀ piece ∈ pieces.getLast?, isFiller piece = false)
    (hslash : ∀ piece ∈ pieces, '/' ∉ piece) :
    (ofBody start pieces).text.toList ++ separator (ofBody start pieces).text.toList =
      slashed (start.pieces ++ pieces) := by
  have hends : ∀ others : List (List Char), pieces ≠ [] →
      ∀ piece ∈ (others ++ pieces).getLast?, piece ≠ [] ∧ '/' ∉ piece := by
    intro others hne piece hpiece
    rw [List.getLast?_append_of_ne_nil _ hne] at hpiece
    refine ⟨?_, hslash piece (List.mem_of_getLast? hpiece)⟩
    rintro rfl
    exact absurd (hlast [] hpiece) (by decide)
  cases start with
  | root =>
    by_cases hne : pieces = []
    · rw [hne]
      rfl
    · have htext : (ofBody .root pieces).text.toList = ['/'].intercalate ([[]] ++ pieces) := by
        obtain ⟨piece, rest, rfl⟩ := List.exists_cons_of_ne_nil hne
        rw [List.singleton_append, List.intercalate_cons_cons]
        simp [ofBody]
      rw [htext]
      exact slashed_eq (hends [[]] hne)
  | dot =>
    by_cases hne : pieces = []
    · rw [hne]
      rfl
    · have htext : (ofBody .dot pieces).text.toList = ['/'].intercalate ([['.']] ++ pieces) := by
        obtain ⟨piece, rest, rfl⟩ := List.exists_cons_of_ne_nil hne
        rw [List.singleton_append, List.intercalate_cons_cons]
        simp [ofBody]
      rw [htext]
      exact slashed_eq (hends [['.']] hne)
  | bare =>
    by_cases hne : pieces = []
    · rw [hne]
      rfl
    · have htext : (ofBody .bare pieces).text.toList = ['/'].intercalate pieces := by
        simp [ofBody]
      rw [htext]
      exact slashed_eq (hends [] hne)

/-- What an entry's path is made of: the pieces of the directory's path, each with a slash behind
it, and the entry's name. -/
theorem exists_pieces_child (hp : p.text ≠ "") (hname : IsPlainName name) :
    ∃ pieces, (p / name).body = (p.body.1, pieces ++ [name.toList]) ∧ pieces <+: p.body.2 ∧
      p.walked = stepsOf (p.body.1.pieces ++ pieces) ∧
      p.text.toList ++ separator p.text.toList = slashed (p.body.1.pieces ++ pieces) := by
  have hrelative := not_isAbsolute_of_isPlainName hname
  obtain ⟨leading, hleading, hne, hsplit⟩ := splitOn_join hp hrelative
  have hname' : name.toList.splitOn '/' = [name.toList] := List.splitOn_eq_singleton hname.2.2.2
  change (p / name).text.toList.splitOn '/' = _ at hsplit
  have hstart : (p / name).body.1 = p.body.1 := start_join hp hrelative
  have hbody := splitOn_eq_body (p / name)
  rw [hsplit, hname', hstart] at hbody
  -- The start of a path takes one piece at most, so the name is the last of the others.
  obtain ⟨pieces, hpieces, rfl⟩ : ∃ pieces, (p / name).body.2 = pieces ++ [name.toList] ∧
      leading = p.body.1.pieces ++ pieces := by
    rcases List.eq_nil_or_concat (p / name).body.2 with hnil | ⟨init, last, hconcat⟩
    · rw [hnil, List.append_nil] at hbody
      have hlength := congrArg List.length hbody
      have hpos := List.length_pos_iff.2 hne
      have hle : p.body.1.pieces.length ≤ 1 := by cases p.body.1 <;> simp [Start.pieces]
      rw [List.length_append, List.length_singleton] at hlength
      omega
    · rw [hconcat, List.concat_eq_append, ← List.append_assoc] at hbody
      obtain ⟨hleading, hlast⟩ := List.append_inj' hbody rfl
      exact ⟨init, by rw [hconcat, List.concat_eq_append, ← hlast], hleading⟩
  have hrest : p.body.2 = pieces ∨ p.body.2 = pieces ++ [[]] := by
    rw [splitOn_eq_body, List.append_assoc] at hleading
    exact hleading.imp List.append_cancel_left List.append_cancel_left
  refine ⟨pieces, Prod.ext hstart hpieces, ?_, ?_, ?_⟩
  · rcases hrest with hrest | hrest
    · exact hrest ▸ List.prefix_rfl
    · exact hrest ▸ List.prefix_append pieces [[]]
  · rw [walked_eq_stepsOf]
    rcases hrest with hrest | hrest <;> rw [hrest]
    rw [← List.append_assoc, stepsOf_append _ [[]]]
    exact List.append_nil _
  · have htext : (p / name).text.toList =
        p.text.toList ++ separator p.text.toList ++ name.toList := toList_join hrelative
    have hjoin : ['/'].intercalate ((p / name).text.toList.splitOn '/') = (p / name).text.toList :=
      List.intercalate_splitOn '/'
    rw [hsplit, hname', intercalate_concat, htext] at hjoin
    exact (List.append_cancel_right hjoin).symm

/-- The path above an entry's path leads to the directory. It lacks what means nothing at the end of
the directory's path. -/
theorem exists_parent?_child (hp : p.text ≠ "") (hname : IsPlainName name) :
    ∃ q filler, (p / name).parent? = some q ∧ q.isAbsolute = p.isAbsolute ∧
      p.walked = q.walked ++ filler ∧ (∀ step ∈ filler, step = .here) ∧
      ∃ between, p.text.toList ++ separator p.text.toList =
        q.text.toList ++ separator q.text.toList ++ between := by
  obtain ⟨pieces, hbody, hfront, hwalked, htext⟩ := exists_pieces_child hp hname
  obtain ⟨filler, hfiller, hmeans⟩ := exists_filler pieces
  have hslash : ∀ piece ∈ trimFiller pieces, '/' ∉ piece := fun piece hpiece =>
    slash_not_mem_body (p := p) (hfront.subset ((prefix_trimFiller pieces).subset hpiece))
  refine ⟨ofBody p.body.1 (trimFiller pieces), stepsOf filler, ?_,
    isAbsolute_ofBody ((prefix_trimFiller pieces).trans hfront), ?_, stepsOf_filler hmeans,
    slashed filler, ?_⟩
  · rw [parent?, hbody]
    simp only [trimFiller_concat hname]
    split
    · rename_i heq
      exact absurd heq (by simp)
    · rw [List.dropLast_concat]
  · rw [hwalked, walked_ofBody hslash, ← stepsOf_append, List.append_assoc, ← hfiller]
  · rw [htext, slashed_ofBody _ (fun piece hpiece => not_isFiller_of_getLast?_trimFiller hpiece) hslash,
      ← slashed_append, List.append_assoc, ← hfiller]

theorem withFileName_child_eq (hname : IsPlainName name) (hparent : (p / name).parent? = some q) :
    (p / name).withFileName new = q / new := by
  rw [withFileName, fileName?_child hname, hparent]

end Path

namespace Files

variable {fs : Files} {p : Path} {name new : String} {dir l : Location}

/-- Steps that stay where they are lead nowhere else. -/
theorem walk_of_here {links : Nat} {loc : Location} {steps filler : List Step}
    (htree : fs.IsTree) (hfiller : ∀ step ∈ filler, step = .here)
    (hwalk : fs.walk true links loc (steps ++ filler) = .ok dir) :
    fs.walk true links loc steps = .ok dir := by
  cases filler with
  | nil => rwa [List.append_nil] at hwalk
  | cons step rest =>
    obtain ⟨m, d, hsteps, hrest⟩ := walk_split hwalk
    have hdown : GoDown (step :: rest) := fun step hstep => .inl (hfiller step hstep)
    have hnames : namesOf (step :: rest) = [] := by
      rw [namesOf, List.filterMap_eq_nil_iff]
      intro step hstep
      rw [hfiller step hstep]
    have hroot : ∀ d' mode, fs.walk true m d [] = .ok d' →
        fs.get? d' = some (.directory mode) → d' = d := by
      intro d' _ hwalk _
      cases m <;> exact (Except.ok.inj hwalk).symm
    have hclear : fs.ClearTo d (namesOf (step :: rest)) := by
      intro init hinit hne
      rw [hnames] at hinit
      exact absurd (List.prefix_nil.1 hinit) hne
    have hfrom : fs.walk true m d ([] ++ step :: rest) = .ok dir := hrest
    have hends := walk_of_clearTo hroot htree hdown (by simp) hclear hfrom
    rw [hnames, List.append_nil] at hends
    rw [hsteps, hends]

theorem requirePath_beside {q : Path} {between : List Char} (hnew : IsPlainName new)
    (htext : p.text.toList ++ Path.separator p.text.toList =
      q.text.toList ++ Path.separator q.text.toList ++ between)
    (h : requirePath (p / new) = .ok ()) : requirePath (q / new) = .ok () := by
  have hrelative := Path.not_isAbsolute_of_isPlainName hnew
  have hjoin : ∀ base : Path, (base / new).text.toList =
      base.text.toList ++ Path.separator base.text.toList ++ new.toList :=
    fun base => Path.toList_join hrelative
  obtain ⟨-, hnull, hsize⟩ := requirePath_eq_ok_iff.1 h
  have hlonger : (p / new).text =
      String.ofList (q.text.toList ++ Path.separator q.text.toList) ++ String.ofList between ++ new := by
    rw [← String.toList_inj, hjoin, htext]
    simp
  have hshorter : (q / new).text =
      String.ofList (q.text.toList ++ Path.separator q.text.toList) ++ new := by
    rw [← String.toList_inj, hjoin]
    simp
  refine requirePath_eq_ok_iff.2 ⟨Path.text_child_ne_empty hnew, ?_, ?_⟩
  · rw [hjoin, htext] at hnull
    rw [hjoin]
    simp only [List.mem_append, not_or] at hnull ⊢
    exact ⟨hnull.1.1, hnull.2⟩
  · rw [hlonger, String.utf8ByteSize_append, String.utf8ByteSize_append] at hsize
    rw [hshorter, String.utf8ByteSize_append]
    omega

/-- The directory's path and the one above an entry's path lead to the same directory. -/
theorem exists_withFileName (htree : fs.IsTree) (hp : p.text ≠ "") (hname : IsPlainName name)
    (hnew : IsPlainName new) (hreach : fs.reach p = .ok dir) :
    ∃ q, (p / name).withFileName new = q / new ∧ fs.reach q = .ok dir ∧
      (requirePath (p / new) = .ok () → requirePath (q / new) = .ok ()) := by
  obtain ⟨q, filler, hparent, habsolute, hwalked, hfiller, between, htext⟩ :=
    Path.exists_parent?_child hp hname
  refine ⟨q, Path.withFileName_child_eq hname hparent, ?_, requirePath_beside hnew htext⟩
  rw [reach, hwalked] at hreach
  rw [reach, start, habsolute]
  exact walk_of_here htree hfiller hreach

theorem resolve_child_of_reach {base : Path} (hnew : IsPlainName new)
    (hreach : fs.reach base = .ok dir) (hlink : fs.linkAt (dir ++ [new]) = none)
    (hrequire : requirePath (base / new) = .ok ()) :
    fs.resolve (base / new) = fs.takeStep dir (.name new) := by
  have hplainly : ∀ d, fs.reach base = .ok d → EndsPlainly fs true d (.name new) := by
    intro d hd
    rw [hreach] at hd
    rw [← Except.ok.inj hd]
    exact endsPlainly_of_linkAt hlink
  rw [resolve, locate_child hnew hrequire hplainly, hreach]
  rfl

/-- The path beside an entry's path leads where the path below the directory leads. -/
theorem resolve_withFileName (htree : fs.IsTree) (hname : IsPlainName name)
    (hnew : IsPlainName new) (hp : p.text ≠ "") (hreach : fs.reach p = .ok dir)
    (hlink : fs.linkAt (dir ++ [new]) = none) (hresolve : fs.resolve (p / new) = .ok l) :
    fs.resolve ((p / name).withFileName new) = .ok l := by
  obtain ⟨q, hpath, hreach', hrequire⟩ := exists_withFileName htree hp hname hnew hreach
  have hshort := requirePath_of_locate hresolve
  rw [resolve_child_of_reach hnew hreach hlink hshort] at hresolve
  rw [hpath, resolve_child_of_reach hnew hreach' hlink (hrequire hshort)]
  exact hresolve

/-- It leads to the entry of that name in the directory, if anywhere. -/
theorem eq_of_resolve_withFileName (htree : fs.IsTree) (hname : IsPlainName name)
    (hnew : IsPlainName new) (hp : p.text ≠ "") (hreach : fs.reach p = .ok dir)
    (hlink : fs.linkAt (dir ++ [new]) = none)
    (hresolve : fs.resolve ((p / name).withFileName new) = .ok l) : l = dir ++ [new] := by
  obtain ⟨q, hpath, hreach', -⟩ := exists_withFileName htree hp hname hnew hreach
  rw [hpath] at hresolve
  rw [resolve_child_of_reach hnew hreach' hlink (requirePath_of_locate hresolve)] at hresolve
  exact eq_append_of_takeStep hresolve

end Files

end RamlBuild
