import RamlBuild.Proofs.Files.Trail

/-!
# Entries of a directory by their paths

The path of an entry in a directory leads to where the path of the directory leads, and from there by
the entry's name.

## Main definitions

* `IsPlainName` — a name that is one step of a path
* `Path.walked` — the steps of a path, without the demand of a slash at its end
* `Files.reach` — where the steps of a path lead, through links

## Main results

* `Path.steps_child` — the steps of a path to an entry of a directory
* `Files.locate_child`, `Files.reach_child` — locating an entry of a directory, and the way to it
-/

namespace RamlBuild

/-- A name that is one step of a path. -/
def IsPlainName (name : String) : Prop :=
  name ≠ "" ∧ name ≠ "." ∧ name ≠ ".." ∧ '/' ∉ name.toList

instance (name : String) : Decidable (IsPlainName name) :=
  inferInstanceAs (Decidable (_ ∧ _ ∧ _ ∧ _))

namespace Path

variable {p : Path} {name : String}

/-- The step that a piece of a path stands for. -/
def stepOf (piece : List Char) : Step :=
  if piece = ['.'] then .here else if piece = ['.', '.'] then .up else .name (String.ofList piece)

/-- The steps of a path, without the demand of a slash at its end. -/
def walked (p : Path) : List Step :=
  ((p.text.toList.splitOn '/').filter (!·.isEmpty)).map stepOf

theorem steps_eq (p : Path) :
    p.steps = if p.endsInSlash then p.walked ++ [.inside] else p.walked := rfl

theorem stepOf_toList (h : IsPlainName name) : stepOf name.toList = .name name := by
  obtain ⟨-, hdot, hdots, -⟩ := h
  have hdot' : name.toList ≠ ['.'] := fun h => hdot (String.toList_inj.1 h)
  have hdots' : name.toList ≠ ['.', '.'] := fun h => hdots (String.toList_inj.1 h)
  rw [stepOf, if_neg hdot', if_neg hdots', String.ofList_toList]

theorem pieces_toList (h : IsPlainName name) :
    (name.toList.splitOn '/').filter (!·.isEmpty) = [name.toList] := by
  have hne : name.toList ≠ [] := fun h' => h.1 (String.toList_inj.1 h')
  rw [List.splitOn_eq_singleton h.2.2.2, List.filter_cons_of_pos (by simp [hne]), List.filter_nil]

theorem not_isAbsolute_of_isPlainName (h : IsPlainName name) : (⟨name⟩ : Path).isAbsolute = false := by
  unfold isAbsolute
  rw [beq_eq_false_iff_ne]
  intro hhead
  exact h.2.2.2 (List.mem_of_mem_head? hhead)

/-- The text of a relative path below a directory: a slash stands before it, unless nothing does. -/
theorem text_join {q : Path} (h : q.isAbsolute = false) :
    (p.text = "" ∧ (p / q).text.toList = q.text.toList) ∨
      ∃ before, (p.text.toList = before ∨ p.text.toList = before ++ ['/']) ∧ p.text ≠ "" ∧
        (p / q).text.toList = before ++ '/' :: q.text.toList := by
  have hdiv : p / q = p.join q := rfl
  rw [hdiv, join, if_neg (by simp [h])]
  by_cases hempty : p.text = ""
  · left
    refine ⟨hempty, ?_⟩
    rw [hempty]
    simp
  · right
    by_cases hslash : p.text.toList.getLast? = some '/'
    · obtain ⟨before, hbefore⟩ := List.getLast?_eq_some_iff.1 hslash
      refine ⟨before, .inr hbefore, hempty, ?_⟩
      rw [if_pos (by simp [hslash]), String.toList_append, hbefore, List.append_assoc,
        List.singleton_append]
    · refine ⟨p.text.toList, .inl rfl, hempty, ?_⟩
      rw [if_neg (by simp [hslash, hempty]), String.toList_append, String.toList_append,
        List.append_assoc]
      rfl

/-- The text of a path to an entry of a directory. -/
theorem text_child (h : IsPlainName name) :
    (p.text = "" ∧ (p / name).text.toList = name.toList) ∨
      ∃ before, (p.text.toList = before ∨ p.text.toList = before ++ ['/']) ∧ p.text ≠ "" ∧
        (p / name).text.toList = before ++ '/' :: name.toList :=
  text_join (not_isAbsolute_of_isPlainName h)

theorem endsInSlash_child (h : IsPlainName name) : (p / name).endsInSlash = false := by
  have hne : name.toList ≠ [] := fun h' => h.1 (String.toList_inj.1 h')
  obtain ⟨init, last, hname⟩ := (List.eq_nil_or_concat name.toList).resolve_left hne
  rw [List.concat_eq_append] at hname
  have hlast : last ≠ '/' := by
    rintro rfl
    exact h.2.2.2 (by simp [hname])
  have hend : ∃ start, (p / name).text.toList = start ++ [last] := by
    rcases text_child h with ⟨-, htext⟩ | ⟨before, -, -, htext⟩
    · exact ⟨init, by rw [htext, hname]⟩
    · exact ⟨before ++ '/' :: init, by rw [htext, hname, List.append_assoc, List.cons_append]⟩
  obtain ⟨start, hstart⟩ := hend
  rw [endsInSlash, hstart, List.getLast?_concat]
  simpa using hlast

/-- An entry of a directory is one step further. -/
theorem steps_child (h : IsPlainName name) : (p / name).steps = p.walked ++ [.name name] := by
  rw [steps_eq, endsInSlash_child h, if_neg (by simp), walked, walked]
  rcases text_child h with ⟨hempty, htext⟩ | ⟨before, hbefore, -, htext⟩
  · rw [htext, pieces_toList h, hempty]
    simp [stepOf_toList h]
  · rw [htext, List.splitOn_append_cons_self, List.filter_append, pieces_toList h, List.map_append,
      List.map_singleton, stepOf_toList h]
    rcases hbefore with hbefore | hbefore
    · rw [hbefore]
    · rw [hbefore, List.splitOn_append_cons_self]
      simp

theorem isAbsolute_child (h : IsPlainName name) : (p / name).isAbsolute = p.isAbsolute := by
  have hname := not_isAbsolute_of_isPlainName h
  unfold isAbsolute at hname ⊢
  rcases text_child h with ⟨hempty, htext⟩ | ⟨before, hbefore, hne, htext⟩
  · rw [htext, hempty, hname]
    rfl
  · rw [htext]
    rcases hbefore with hbefore | hbefore
    · rw [hbefore]
      cases before with
      | nil => exact absurd (String.toList_inj.1 hbefore) hne
      | cons => rfl
    · rw [hbefore]
      cases before <;> rfl

/-- The text of a path that is joined to another stands at the end of the whole. -/
theorem text_div (p q : Path) : ∃ before, (p / q).text = before ++ q.text := by
  rw [show p / q = p.join q from rfl, join]
  split
  · exact ⟨"", by simp⟩
  · split
    · exact ⟨p.text, rfl⟩
    · exact ⟨p.text ++ "/", rfl⟩

theorem text_div_ne_empty {q : Path} (h : q.text ≠ "") : (p / q).text ≠ "" := by
  obtain ⟨before, htext⟩ := text_div p q
  rw [htext]
  simp [h]

theorem text_child_ne_empty (h : IsPlainName name) : (p / name).text ≠ "" := by
  intro hempty
  have hne : name.toList ≠ [] := fun h' => h.1 (String.toList_inj.1 h')
  rcases text_child h with ⟨-, htext⟩ | ⟨before, -, -, htext⟩ <;> rw [hempty] at htext
  · exact hne htext.symm
  · simp at htext

/-- A character that does not part pieces stands in one of them. -/
theorem exists_mem_splitOn {xs : List Char} {c part : Char} (hmem : c ∈ xs) (hne : c ≠ part) :
    ∃ piece ∈ xs.splitOn part, c ∈ piece := by
  induction xs with
  | nil => simp at hmem
  | cons x rest ih =>
    obtain ⟨first, others, hsplit⟩ := List.exists_cons_of_ne_nil (List.splitOn_ne_nil part rest)
    rw [List.splitOn_cons_eq_if_modifyHead, hsplit]
    rw [hsplit] at ih
    by_cases hx : x = part
    · rw [if_pos (by simp [hx])]
      have hrest : c ∈ rest := by
        rcases List.mem_cons.1 hmem with rfl | h
        · exact absurd hx hne
        · exact h
      obtain ⟨piece, hpiece, hc⟩ := ih hrest
      exact ⟨piece, List.mem_cons_of_mem _ hpiece, hc⟩
    · rw [if_neg (by simp [hx]), List.modifyHead_cons]
      rcases List.mem_cons.1 hmem with rfl | h
      · exact ⟨c :: first, List.mem_cons_self, List.mem_cons_self⟩
      · obtain ⟨piece, hpiece, hc⟩ := ih h
        rcases List.mem_cons.1 hpiece with rfl | hpiece
        · exact ⟨x :: piece, List.mem_cons_self, List.mem_cons_of_mem _ hc⟩
        · exact ⟨piece, List.mem_cons_of_mem _ hpiece, hc⟩

/-- A path with some text takes at least one step. -/
theorem steps_ne_nil (h : p.text ≠ "") : p.steps ≠ [] := by
  rw [steps_eq]
  split
  · simp
  · rename_i hslash
    have hne : p.text.toList ≠ [] := fun h' => h (String.toList_inj.1 h')
    obtain ⟨init, last, htext⟩ := (List.eq_nil_or_concat p.text.toList).resolve_left hne
    rw [List.concat_eq_append] at htext
    have hlast : last ≠ '/' := by
      rintro rfl
      apply hslash
      rw [endsInSlash, htext, List.getLast?_concat]
      rfl
    -- The piece behind the last slash holds the last character.
    obtain ⟨piece, hpiece, hmem⟩ := exists_mem_splitOn (show last ∈ p.text.toList by rw [htext]; simp) hlast
    unfold walked
    rw [ne_eq, List.map_eq_nil_iff, List.filter_eq_nil_iff]
    intro hall
    have := hall piece hpiece
    rw [List.isEmpty_eq_false_iff.2 (List.ne_nil_of_mem hmem)] at this
    exact this rfl

/-- The pieces of a text between slashes, without empty ones. -/
def piecesOf (text : List Char) : List (List Char) :=
  (text.splitOn '/').filter (!·.isEmpty)

theorem dropAtEnd_concat (init : List Char) (last : Char) :
    Text.dropAtEnd '/' (init ++ [last]) =
      if last = '/' then Text.dropAtEnd '/' init else init ++ [last] := by
  unfold Text.dropAtEnd
  rw [List.reverse_append, List.reverse_singleton, List.singleton_append, List.dropWhile_cons]
  by_cases hlast : last = '/'
  · simp [hlast]
  · simp [hlast]

theorem piecesOf_dropAtEnd (text : List Char) : piecesOf (Text.dropAtEnd '/' text) = piecesOf text := by
  induction text using List.reverseRecOn with
  | nil => rfl
  | append_singleton init last ih =>
    rw [dropAtEnd_concat]
    split
    · rename_i hlast
      rw [ih, hlast, piecesOf, piecesOf, List.splitOn_append_cons_self]
      simp
    · rfl

theorem dropAtEnd_prefix (text : List Char) : Text.dropAtEnd '/' text <+: text := by
  induction text using List.reverseRecOn with
  | nil => exact List.prefix_refl _
  | append_singleton init last ih =>
    rw [dropAtEnd_concat]
    split
    · exact ih.trans (List.prefix_append init [last])
    · exact List.prefix_refl _

theorem endsInSlash_dropAtEnd (text : List Char) :
    (Text.dropAtEnd '/' text).getLast? ≠ some '/' := by
  induction text using List.reverseRecOn with
  | nil => simp [Text.dropAtEnd]
  | append_singleton init last ih =>
    rw [dropAtEnd_concat]
    split
    · exact ih
    · rename_i hlast
      rw [List.getLast?_concat]
      simpa using hlast

/-- Without the slashes at its end a path takes the same steps, but for the demand of a slash at its
end; the root and the empty path stay. -/
theorem steps_dropSlashes (p : Path) :
    (p.dropSlashes.steps = p.walked ∧ p.dropSlashes.isAbsolute = p.isAbsolute) ∨
      p.dropSlashes = ⟨"/"⟩ ∨ p.dropSlashes.text = "" := by
  unfold dropSlashes
  cases hdrop : Text.dropAtEnd '/' p.text.toList with
  | nil =>
    right
    simp only
    split
    · exact .inl rfl
    · rename_i habsolute
      right
      -- A text that does not begin with a slash and has nothing else is empty.
      cases htext : p.text.toList with
      | nil => exact String.toList_inj.1 htext
      | cons c rest =>
        exfalso
        have hpieces := piecesOf_dropAtEnd p.text.toList
        rw [hdrop] at hpieces
        have hc : c ≠ '/' := by
          rintro rfl
          exact habsolute (by rw [isAbsolute, htext]; rfl)
        obtain ⟨piece, hpiece, hmem⟩ :=
          exists_mem_splitOn (show c ∈ p.text.toList by simp [htext]) hc
        have hfilled : piece ∈ piecesOf p.text.toList :=
          List.mem_filter.2 ⟨hpiece, by simp [List.ne_nil_of_mem hmem]⟩
        rw [← hpieces] at hfilled
        simp [piecesOf] at hfilled
  | cons c rest =>
    left
    simp only
    have hends : (⟨String.ofList (c :: rest)⟩ : Path).endsInSlash = false := by
      have := endsInSlash_dropAtEnd p.text.toList
      rw [hdrop] at this
      unfold endsInSlash
      rw [String.toList_ofList]
      simpa using this
    refine ⟨?_, ?_⟩
    · have hpieces := piecesOf_dropAtEnd p.text.toList
      rw [hdrop] at hpieces
      rw [steps_eq, hends, if_neg (by simp), walked, walked, String.toList_ofList]
      exact congrArg (List.map stepOf) hpieces
    · obtain ⟨more, hmore⟩ := dropAtEnd_prefix p.text.toList
      rw [hdrop] at hmore
      rw [isAbsolute, isAbsolute, String.toList_ofList, ← hmore]
      rfl

end Path

namespace Files

variable {fs fs' : Files} {p : Path} {follow : Bool} {loc l : Location} {name : String}

/-- Where a path starts. -/
def start (fs : Files) (p : Path) : Location :=
  if p.isAbsolute then [] else fs.workingDirectory

/-- Where the steps of a path lead, through links; the path may be empty, and its end need not be a
directory. -/
def reach (fs : Files) (p : Path) : Except IoError Location :=
  fs.walk true maxLinks (fs.start p) p.walked

theorem locate_eq (hp : requirePath p = .ok ()) :
    fs.locate follow p = fs.walk follow maxLinks (fs.start p) p.steps := by
  rw [locate, hp]
  rfl

theorem requirePath_of_locate (h : fs.locate follow p = .ok l) : requirePath p = .ok () := by
  unfold locate at h
  cases hp : requirePath p with
  | ok => rfl
  | error error =>
    rw [hp] at h
    contradiction

theorem requirePath_eq_ok_iff :
    requirePath p = .ok () ↔
      p.text ≠ "" ∧ '\x00' ∉ p.text.toList ∧ p.text.utf8ByteSize < pathSizeLimit := by
  unfold requirePath
  split
  · rename_i hempty
    simp_all
  · rename_i hempty
    split
    · simp_all
    · split
      · simp_all
      · simp_all

/-- A part of the text of a path can be handed to an operation when the whole can. -/
theorem requirePath_of_append {q : Path} {before after : String}
    (htext : q.text = before ++ p.text ++ after) (hne : p.text ≠ "") (h : requirePath q = .ok ()) :
    requirePath p = .ok () := by
  rw [requirePath_eq_ok_iff, htext] at h
  rw [requirePath_eq_ok_iff]
  obtain ⟨-, hnull, hsize⟩ := h
  refine ⟨hne, ?_, ?_⟩
  · intro hmem
    exact hnull (by simp [hmem])
  · rw [String.utf8ByteSize_append, String.utf8ByteSize_append] at hsize
    omega

/-- A path that is joined to another can be handed to an operation when the whole can. -/
theorem requirePath_of_div {q : Path} (hne : q.text ≠ "") (h : requirePath (p / q) = .ok ()) :
    requirePath q = .ok () := by
  obtain ⟨before, htext⟩ := Path.text_div p q
  exact requirePath_of_append (by rw [htext, String.append_empty]) hne h

/-- A directory can be handed to an operation when an entry of it can. -/
theorem requirePath_of_child (hname : IsPlainName name) (hne : p.text ≠ "")
    (h : requirePath (p / name) = .ok ()) : requirePath p = .ok () := by
  have htext : ∃ after, (p / name).text = "" ++ p.text ++ after := by
    rw [show p / name = p.join ⟨name⟩ from rfl, Path.join,
      if_neg (by simp [Path.not_isAbsolute_of_isPlainName hname])]
    split
    · exact ⟨name, by simp⟩
    · exact ⟨"/" ++ name, by simp [String.append_assoc]⟩
  obtain ⟨after, htext⟩ := htext
  exact requirePath_of_append htext hne h

theorem text_ne_empty_of_requirePath (h : requirePath p = .ok ()) : p.text ≠ "" := by
  intro hempty
  have hnotFound : requirePath p = .error .notFound := if_pos (by simp [hempty])
  rw [hnotFound] at h
  contradiction

/-- Locating an entry of a directory takes its name from where the directory's path leads. -/
theorem locate_child (hname : IsPlainName name) (hp : requirePath (p / name) = .ok ())
    (hlast : ∀ dir, fs.reach p = .ok dir → EndsPlainly fs follow dir (.name name)) :
    fs.locate follow (p / name) = (fs.reach p).bind (fs.takeStep · (.name name)) := by
  have hstart : fs.start (p / name) = fs.start p := by
    rw [start, start, Path.isAbsolute_child hname]
  rw [locate_eq hp, hstart, Path.steps_child hname]
  exact walk_append hlast

/-- Reaching an entry that is no link takes its name from where the directory's path leads. -/
theorem reach_child (hname : IsPlainName name)
    (hlast : ∀ dir, fs.reach p = .ok dir → EndsPlainly fs true dir (.name name)) :
    fs.reach (p / name) = (fs.reach p).bind (fs.takeStep · (.name name)) := by
  have hstart : fs.start (p / name) = fs.start p := by
    rw [start, start, Path.isAbsolute_child hname]
  have hwalked : (p / name).walked = p.walked ++ [.name name] := by
    have hsteps := Path.steps_child (p := p) hname
    rwa [Path.steps_eq, Path.endsInSlash_child hname, if_neg (by simp)] at hsteps
  rw [reach, hstart, hwalked]
  exact walk_append hlast

/-- The place of an entry of a directory is the entry's name below where the directory is. -/
theorem place_child_iff (hname : IsPlainName name) :
    fs.place (p / name) = .ok l ↔
      requirePath (p / name) = .ok () ∧
        ∃ dir, fs.reach p = .ok dir ∧ fs.takeStep dir (.name name) = .ok l := by
  constructor
  · intro h
    have hp := requirePath_of_locate h
    rw [place, locate_child hname hp fun _ _ => endsPlainly_of_not_follow] at h
    refine ⟨hp, ?_⟩
    cases hreach : fs.reach p with
    | error error =>
      rw [hreach] at h
      contradiction
    | ok dir =>
      rw [hreach] at h
      exact ⟨dir, rfl, h⟩
  · rintro ⟨hp, dir, hreach, hstep⟩
    rw [place, locate_child hname hp fun _ _ => endsPlainly_of_not_follow, hreach]
    exact hstep

/-- A path to a directory leads where its steps do. -/
theorem resolve_of_reach {mode : Nat} (hp : requirePath p = .ok ()) (hreach : fs.reach p = .ok loc)
    (hdir : fs.get? loc = some (.directory mode)) : fs.resolve p = .ok loc := by
  rw [resolve, locate_eq hp, Path.steps_eq]
  split
  · rw [walk_append fun _ _ => endsPlainly_inside]
    unfold reach at hreach
    rw [hreach]
    exact takeStep_inside hdir
  · exact hreach

/-- The steps of a path to an entry lead there. -/
theorem reach_of_resolve (h : fs.resolve p = .ok loc) : fs.reach p = .ok loc := by
  have hp := requirePath_of_locate h
  rw [resolve, locate_eq hp, Path.steps_eq] at h
  split at h
  · rw [walk_append fun _ _ => endsPlainly_inside] at h
    unfold reach
    cases hwalk : fs.walk true maxLinks (fs.start p) p.walked with
    | error error =>
      rw [hwalk] at h
      contradiction
    | ok dir =>
      rw [hwalk] at h
      simp only [Except.bind] at h
      obtain ⟨mode, hmode⟩ := exists_directory_of_takeStep h
      rw [takeStep_inside hmode] at h
      exact h
  · exact h

/-- What is free at the end of a path stands in a directory. -/
theorem locate_directory_of_free (htree : fs.IsTree) (h : fs.locate follow p = .ok l)
    (hfree : fs.get? l = none) :
    ∃ dir name mode, l = dir ++ [name] ∧ fs.get? dir = some (.directory mode) := by
  have hp := requirePath_of_locate h
  rw [locate_eq hp] at h
  exact walk_directory_of_free htree hfree
    (fun _ => Path.steps_ne_nil (text_ne_empty_of_requirePath hp)) h

/-- What a path comes to stands in a directory, be it there or free. -/
theorem directory_of_locate (htree : fs.IsTree) (h : fs.locate follow p = .ok l) (hne : l ≠ []) :
    ∃ dir name mode, l = dir ++ [name] ∧ fs.get? dir = some (.directory mode) := by
  cases hget : fs.get? l with
  | none => exact locate_directory_of_free htree h hget
  | some e =>
    obtain ⟨dir, name, hname⟩ := (List.eq_nil_or_concat l).resolve_left hne
    rw [List.concat_eq_append] at hname
    rw [hname] at hget
    obtain ⟨mode, hmode⟩ := htree dir name e hget
    exact ⟨dir, name, mode, hname, hmode⟩

/-- The path of a directory that is made where nothing was leads to it. -/
theorem reach_put_of_free {mode : Nat} (hplace : fs.place p.dropSlashes = .ok l)
    (hfree : fs.get? l = none) : (fs.put l (.directory mode)).reach p = .ok l := by
  have hp := requirePath_of_locate hplace
  rw [place, locate_eq hp] at hplace
  rcases Path.steps_dropSlashes p with ⟨hsteps, habsolute⟩ | hroot | hempty
  · have hstart : (fs.put l (.directory mode)).start p = fs.start p.dropSlashes := by
      rw [start, start, habsolute, workingDirectory_put]
    rw [reach, hstart, ← hsteps]
    exact walk_put_of_free hfree hplace
  · -- The root is never free.
    exfalso
    have hnil : l = [] := by
      have hwalk : fs.walk false maxLinks [] [.inside] = .ok [] := by
        exact walkUpTo_of_entered get?_nil rfl
      rw [hroot, show fs.start ⟨"/"⟩ = [] from rfl, show (⟨"/"⟩ : Path).steps = [.inside] by decide,
        hwalk] at hplace
      exact (Except.ok.inj hplace).symm
    rw [hnil, get?_nil] at hfree
    contradiction
  · exact absurd hempty (text_ne_empty_of_requirePath hp)

end Files

end RamlBuild
