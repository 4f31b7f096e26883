import RamlBuild.Proofs.Build.Files
import RamlBuild.Proofs.Files.Names

/-!
# Ways of paths

A path leads by the locations of its trail. The paths above it lead by some of these, and whatever a
path comes to is one of them.

## Main definitions

* `Files.LeadsBy` — a path leads by given locations only

## Main results

* `Path.walked_parent?` — the path above another takes its first steps
* `Files.LeadsBy.ancestor` — the paths above another lead by its way
* `Files.LeadsBy.locate` — what a path comes to is on its way
-/

namespace RamlBuild

namespace Path

/-- What stands before the pieces of a path. -/
def Start.pieces : Start → List (List Char)
  | .root => [[]]
  | .dot => [['.']]
  | .bare => []

variable {p q : Path} {start : Start} {pieces : List (List Char)}

/-- The pieces between the slashes of a text are told by its body. -/
theorem splitOn_eq_body (p : Path) : p.text.toList.splitOn '/' = p.body.1.pieces ++ p.body.2 := by
  obtain ⟨first, rest, hsplit⟩ := List.exists_cons_of_ne_nil (List.splitOn_ne_nil '/' p.text.toList)
  rw [body, hsplit]
  simp only
  split
  · -- Nothing stands before the slash of an absolute path.
    rename_i habsolute
    have hfirst : first = [] := by
      have hjoin : ['/'].intercalate (p.text.toList.splitOn '/') = p.text.toList :=
        List.intercalate_splitOn '/'
      have hslash : '/' ∉ first :=
        Text.not_mem_of_mem_splitOn (by rw [hsplit]; exact List.mem_cons_self)
      have hhead : p.text.toList.head? = some '/' := by simpa [isAbsolute] using habsolute
      rw [← hjoin, hsplit] at hhead
      cases first with
      | nil => rfl
      | cons c first =>
        have hc : c = '/' := by
          cases rest with
          | nil => simpa [List.intercalate_singleton] using hhead
          | cons => simpa [List.intercalate_cons_cons] using hhead
        exact absurd List.mem_cons_self (hc ▸ hslash)
    rw [hfirst]
    rfl
  · split
    · rename_i hdot
      rw [hdot]
      rfl
    · rfl

theorem isAbsolute_eq_body (p : Path) : p.isAbsolute = decide (p.body.1 = .root) := by
  obtain ⟨first, rest, hsplit⟩ := List.exists_cons_of_ne_nil (List.splitOn_ne_nil '/' p.text.toList)
  rw [body, hsplit]
  simp only
  split
  · rename_i habsolute
    simp [habsolute]
  · rename_i hnot
    rw [Bool.eq_false_iff.2 hnot]
    split <;> rfl

theorem prefix_trimFiller (pieces : List (List Char)) : trimFiller pieces <+: pieces := by
  have hsuffix := List.dropWhile_suffix isFiller (l := pieces.reverse)
  rw [← List.reverse_prefix, List.reverse_reverse] at hsuffix
  exact hsuffix

/-- The steps that pieces stand for. -/
def stepsOf (pieces : List (List Char)) : List Step :=
  (pieces.filter (!·.isEmpty)).map stepOf

theorem walked_eq_stepsOf (p : Path) : p.walked = stepsOf (p.body.1.pieces ++ p.body.2) := by
  rw [← splitOn_eq_body]
  rfl

theorem prefix_stepsOf {others : List (List Char)} (h : pieces <+: others) :
    stepsOf pieces <+: stepsOf others := by
  obtain ⟨more, rfl⟩ := h
  rw [stepsOf, stepsOf, List.filter_append, List.map_append]
  exact List.prefix_append _ _

/-- A path that is put together from pieces has their steps. -/
theorem walked_ofBody (h : ∀ piece ∈ pieces, '/' ∉ piece) :
    (ofBody start pieces).walked = stepsOf (start.pieces ++ pieces) := by
  have hsplit : ∀ pieces : List (List Char), pieces ≠ [] → (∀ piece ∈ pieces, '/' ∉ piece) →
      stepsOf ((['/'].intercalate pieces).splitOn '/') = stepsOf pieces :=
    fun pieces hne h => by rw [List.splitOn_intercalate '/' h hne]
  have hwalked : ∀ p : Path, p.walked = stepsOf (p.text.toList.splitOn '/') := fun _ => rfl
  rw [hwalked]
  cases start with
  | root =>
    cases pieces with
    | nil => rfl
    | cons piece rest =>
      have htext : (ofBody .root (piece :: rest)).text.toList =
          ['/'].intercalate ([] :: piece :: rest) := by
        rw [List.intercalate_cons_cons]
        simp [ofBody]
      rw [htext]
      exact hsplit ([] :: piece :: rest) (by simp) (by simpa using h)
  | dot =>
    cases pieces with
    | nil => rfl
    | cons piece rest =>
      have htext : (ofBody .dot (piece :: rest)).text.toList =
          ['/'].intercalate (['.'] :: piece :: rest) := by
        rw [List.intercalate_cons_cons]
        simp [ofBody]
      rw [htext]
      refine hsplit (['.'] :: piece :: rest) (by simp) ?_
      intro piece' hpiece'
      rcases List.mem_cons.1 hpiece' with rfl | hpiece'
      · decide
      · exact h piece' hpiece'
  | bare =>
    cases pieces with
    | nil => rfl
    | cons piece rest =>
      have htext : (ofBody .bare (piece :: rest)).text.toList =
          ['/'].intercalate (piece :: rest) := by
        simp [ofBody]
      rw [htext]
      exact hsplit _ (by simp) h

theorem slash_not_mem_body {piece : List Char} (h : piece ∈ p.body.2) : '/' ∉ piece := by
  have hmem : piece ∈ p.text.toList.splitOn '/' := by
    rw [splitOn_eq_body]
    exact List.mem_append_right _ h
  exact Text.not_mem_of_mem_splitOn hmem

/-- A path that is put together from some of the first pieces starts where the whole does. -/
theorem isAbsolute_ofBody (h : pieces <+: p.body.2) :
    (ofBody p.body.1 pieces).isAbsolute = p.isAbsolute := by
  rw [isAbsolute_eq_body p]
  cases hstart : p.body.1 with
  | root => simp [ofBody, isAbsolute]
  | dot => cases pieces <;> simp [ofBody, isAbsolute]
  | bare =>
    cases pieces with
    | nil => rfl
    | cons first rest =>
      obtain ⟨more, hmore⟩ := h
      have hslash : '/' ∉ first := slash_not_mem_body (p := p) (by rw [← hmore]; simp)
      have htext : ['/'].intercalate (first :: (rest ++ more)) = p.text.toList := by
        have hjoin : ['/'].intercalate (p.text.toList.splitOn '/') = p.text.toList :=
          List.intercalate_splitOn '/'
        rw [splitOn_eq_body, hstart] at hjoin
        rw [← List.cons_append, hmore]
        exact hjoin
      -- Only an empty first piece could let the text begin with a slash, and then the whole would.
      have hwhole : p.isAbsolute = false := by rw [isAbsolute_eq_body, hstart]; rfl
      rw [isAbsolute, ← htext] at hwhole
      simp only [ofBody, isAbsolute, String.toList_ofList]
      cases first with
      | cons c first =>
        have hc : c ≠ '/' := fun heq => hslash (by simp [heq])
        cases rest <;> simp [List.intercalate_singleton, List.intercalate_cons_cons, hc]
      | nil =>
        cases rest with
        | nil => rfl
        | cons => simp [List.intercalate_cons_cons] at hwhole

/-- The path above another takes its first steps. -/
theorem walked_parent? (h : p.parent? = some q) :
    q.walked <+: p.walked ∧ q.isAbsolute = p.isAbsolute := by
  unfold parent? at h
  simp only at h
  split at h
  · split at h
    · rename_i hdot
      obtain rfl := Option.some.inj h
      exact ⟨List.nil_prefix, by rw [isAbsolute_eq_body p, hdot]; rfl⟩
    · contradiction
  · obtain rfl := Option.some.inj h
    have hpieces : trimFiller (trimFiller p.body.2).dropLast <+: p.body.2 :=
      ((prefix_trimFiller _).trans (List.dropLast_prefix _)).trans (prefix_trimFiller _)
    refine ⟨?_, isAbsolute_ofBody hpieces⟩
    rw [walked_ofBody fun piece hpiece => slash_not_mem_body (hpieces.mem hpiece), walked_eq_stepsOf]
    exact prefix_stepsOf ((List.prefix_append_right_inj _).2 hpieces)

/-- The paths above another take its first steps. -/
theorem walked_ancestors (h : q ∈ p.ancestors) :
    q.walked <+: p.walked ∧ q.isAbsolute = p.isAbsolute := by
  have hupTo : ∀ count (p : Path), q ∈ ancestorsUpTo count p →
      q.walked <+: p.walked ∧ q.isAbsolute = p.isAbsolute := by
    intro count
    induction count with
    | zero =>
      intro p hq
      obtain rfl := List.mem_singleton.1 hq
      exact ⟨List.prefix_refl _, rfl⟩
    | succ count ih =>
      intro p hq
      unfold ancestorsUpTo at hq
      split at hq
      · rename_i parent hparent
        rcases List.mem_cons.1 hq with rfl | hq
        · exact ⟨List.prefix_refl _, rfl⟩
        · obtain ⟨hwalked, habsolute⟩ := walked_parent? hparent
          obtain ⟨hwalked', habsolute'⟩ := ih parent hq
          exact ⟨hwalked'.trans hwalked, habsolute'.trans habsolute⟩
      · obtain rfl := List.mem_singleton.1 hq
        exact ⟨List.prefix_refl _, rfl⟩
  exact hupTo _ p h

end Path

namespace Files

variable {fs fs' : Files} {p q : Path} {ways ways' : Location → Prop} {links : Nat}
  {loc l : Location} {steps rest : List Step} {trail : Trail} {follow : Bool}
  {beyond beyond' : Location → List Step → Option Trail}
  {walkBeyond : Location → List Step → Except IoError Location}

/-! ### The first steps of a trail -/

theorem trailUpTo_of_append
    (hbeyond : ∀ loc steps trail, beyond loc (steps ++ rest) = some trail →
      ∃ first, beyond' loc steps = some first ∧ first.way ⊆ trail.way)
    (h : fs.trailUpTo beyond loc (steps ++ rest) = some trail) :
    ∃ first, fs.trailUpTo beyond' loc steps = some first ∧ first.way ⊆ trail.way := by
  induction steps generalizing loc trail with
  | nil => exact ⟨⟨[loc], loc⟩, rfl, by simpa using start_mem_way h⟩
  | cons step steps ih =>
    cases step with
    | inside => exact ih h
    | here => exact ih h
    | up =>
      obtain ⟨trail', htrail, rfl⟩ := Option.map_eq_some_iff.1 h
      obtain ⟨first, hfirst, hway⟩ := ih htrail
      exact ⟨first.comingBy loc, by simp [trailUpTo, hfirst],
        by simpa using List.subset_cons_of_subset loc hway⟩
    | name n =>
      simp only [List.cons_append, trailUpTo] at h ⊢
      split at h
      · obtain ⟨trail', htrail, rfl⟩ := Option.map_eq_some_iff.1 h
        rw [← List.append_assoc] at htrail
        obtain ⟨first, hfirst, hway⟩ := hbeyond _ _ _ htrail
        refine ⟨(first.comingBy (loc ++ [n])).comingBy loc, by simp [hfirst], ?_⟩
        simpa using List.subset_cons_of_subset loc (List.subset_cons_of_subset (loc ++ [n]) hway)
      · obtain ⟨trail', htrail, rfl⟩ := Option.map_eq_some_iff.1 h
        obtain ⟨first, hfirst, hway⟩ := ih htrail
        exact ⟨first.comingBy loc, by simp [hfirst],
          by simpa using List.subset_cons_of_subset loc hway⟩

/-- The first steps of a trail lead by some of its locations. -/
theorem trail_of_append (h : fs.trail links loc (steps ++ rest) = some trail) :
    ∃ first, fs.trail links loc steps = some first ∧ first.way ⊆ trail.way := by
  induction links generalizing loc steps trail with
  | zero => exact trailUpTo_of_append (by simp) h
  | succ links ih => exact trailUpTo_of_append (fun _ _ _ => ih) h

/-! ### What is on a trail -/

theorem mem_way_of_walkUpTo
    (hbeyond : ∀ loc steps trail, walkBeyond loc steps = .ok l → beyond loc steps = some trail →
      l ∈ trail.way)
    (hwalk : fs.walkUpTo follow walkBeyond loc steps = .ok l)
    (htrail : fs.trailUpTo beyond loc steps = some trail) : l ∈ trail.way := by
  induction steps generalizing loc trail with
  | nil =>
    obtain rfl : loc = l := by simpa using hwalk
    exact start_mem_way htrail
  | cons step rest ih =>
    obtain ⟨mode, hget, henter⟩ := exists_directory_of_walkUpTo hwalk
    rw [walkUpTo_of_entered hget henter] at hwalk
    cases step with
    | inside => exact ih hwalk htrail
    | here => exact ih hwalk htrail
    | up =>
      obtain ⟨trail', htrail', rfl⟩ := Option.map_eq_some_iff.1 htrail
      simp [ih hwalk htrail']
    | name n =>
      simp only [walkStep] at hwalk
      simp only [trailUpTo] at htrail
      split at hwalk
      · contradiction
      · unfold walkName at hwalk
        split at htrail
        · rename_i target hlink
          obtain ⟨trail', htrail', rfl⟩ := Option.map_eq_some_iff.1 htrail
          simp only [linkAt_eq_some_iff.1 hlink] at hwalk
          split at hwalk
          · obtain rfl : loc ++ [n] = l := by simpa using hwalk
            simp
          · simp [hbeyond _ _ _ hwalk htrail']
        · rename_i hlink
          obtain ⟨trail', htrail', rfl⟩ := Option.map_eq_some_iff.1 htrail
          split at hwalk
          · split at hwalk
            · obtain rfl : loc ++ [n] = l := by simpa using hwalk
              simp [start_mem_way htrail']
            · contradiction
          · rename_i target hentry
            rw [linkAt_eq_some_iff.2 hentry] at hlink
            contradiction
          · simp [ih hwalk htrail']

/-- Where a walk ends is on the trail of its steps. -/
theorem mem_way_of_walk (hwalk : fs.walk follow links loc steps = .ok l)
    (htrail : fs.trail links loc steps = some trail) : l ∈ trail.way := by
  induction links generalizing loc steps trail with
  | zero => exact mem_way_of_walkUpTo (by simp) hwalk htrail
  | succ links ih => exact mem_way_of_walkUpTo (fun _ _ _ => ih) hwalk htrail

theorem trailUpTo_inside
    (hbeyond : ∀ loc steps, beyond' loc (steps ++ [.inside]) = beyond loc steps) :
    fs.trailUpTo beyond' loc (steps ++ [.inside]) = fs.trailUpTo beyond loc steps := by
  induction steps generalizing loc with
  | nil => rfl
  | cons step steps ih =>
    cases step with
    | inside => exact ih
    | here => exact ih
    | up => simp only [List.cons_append, trailUpTo, ih]
    | name n => simp only [List.cons_append, trailUpTo, ih, ← List.append_assoc, hbeyond]

/-- A slash at the end of a path leads nowhere else. -/
theorem trail_inside : fs.trail links loc (steps ++ [.inside]) = fs.trail links loc steps := by
  induction links generalizing loc steps with
  | zero => exact trailUpTo_inside fun _ _ => rfl
  | succ links ih => exact trailUpTo_inside fun _ _ => ih

/-! ### Ways -/

/-- A path leads by the given locations, when whatever is missing is taken for a directory. -/
def LeadsBy (fs : Files) (ways : Location → Prop) (p : Path) : Prop :=
  ∃ trail, fs.trail maxLinks (fs.start p) p.walked = some trail ∧ ∀ v ∈ trail.way, ways v

namespace LeadsBy

theorem mono (h : fs.LeadsBy ways p) (hways : ∀ v, ways v → ways' v) : fs.LeadsBy ways' p := by
  obtain ⟨trail, htrail, hway⟩ := h
  exact ⟨trail, htrail, fun v hv => hways v (hway v hv)⟩

/-- The links on its way tell where a path leads by. -/
theorem congr (h : fs.LeadsBy ways p) (hdir : fs'.workingDirectory = fs.workingDirectory)
    (hlinks : ∀ v, ways v → fs'.linkAt v = fs.linkAt v) : fs'.LeadsBy ways p := by
  obtain ⟨trail, htrail, hway⟩ := h
  refine ⟨trail, ?_, hway⟩
  rw [show fs'.start p = fs.start p by rw [start, hdir, start]]
  exact trail_congr htrail fun v hv => hlinks v (hway v hv)

theorem of_prefix (h : fs.LeadsBy ways p) (hwalked : q.walked <+: p.walked)
    (habsolute : q.isAbsolute = p.isAbsolute) : fs.LeadsBy ways q := by
  obtain ⟨trail, htrail, hway⟩ := h
  obtain ⟨rest, hrest⟩ := hwalked
  rw [← hrest] at htrail
  obtain ⟨first, hfirst, hsub⟩ := trail_of_append htrail
  refine ⟨first, ?_, fun v hv => hway v (hsub hv)⟩
  rwa [show fs.start q = fs.start p by rw [start, habsolute, start]]

/-- The path above another leads by its way. -/
theorem parent (h : fs.LeadsBy ways p) (hparent : p.parent? = some q) : fs.LeadsBy ways q :=
  h.of_prefix (Path.walked_parent? hparent).1 (Path.walked_parent? hparent).2

/-- The paths above another lead by its way. -/
theorem ancestor (h : fs.LeadsBy ways p) (hq : q ∈ p.ancestors) : fs.LeadsBy ways q :=
  h.of_prefix (Path.walked_ancestors hq).1 (Path.walked_ancestors hq).2

/-- What a path comes to is on its way. -/
theorem locate (h : fs.LeadsBy ways p) (hlocate : fs.locate follow p = .ok l) : ways l := by
  obtain ⟨trail, htrail, hway⟩ := h
  rw [locate_eq (requirePath_of_locate hlocate)] at hlocate
  refine hway l (mem_way_of_walk hlocate ?_)
  rw [Path.steps_eq]
  split
  · rw [trail_inside, htrail]
  · exact htrail

/-- Where the steps of a path lead is on its way. -/
theorem reach (h : fs.LeadsBy ways p) (hreach : fs.reach p = .ok l) : ways l := by
  obtain ⟨trail, htrail, hway⟩ := h
  exact hway l (mem_way_of_walk hreach htrail)

/-- What is free where a directory is to be made is on the way of its path. -/
theorem free (h : fs.LeadsBy ways p) (hplace : fs.place p.dropSlashes = .ok l)
    (hfree : fs.get? l = none) : ways l := by
  have hne := ne_nil_of_get?_eq_none hfree
  -- With the directory in place the path leads there, and the links have stayed.
  have hlinks : ∀ v, (fs.put l (.directory directoryMode)).linkAt v = fs.linkAt v := by
    intro v
    by_cases hv : v = l
    · rw [hv, linkAt, linkAt, get?_put_self hne, hfree]
    · rw [linkAt, linkAt, get?_put_of_ne hv]
  have hput : (fs.put l (.directory directoryMode)).LeadsBy ways p :=
    h.congr (workingDirectory_put ..) fun v _ => hlinks v
  exact hput.reach (reach_put_of_free hplace hfree)

end LeadsBy

end Files

end RamlBuild
