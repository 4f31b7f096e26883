import RamlBuild.Proofs.Files.Child
import RamlBuild.Proofs.Text.Lines

/-!
# Names in paths

The path of an entry in a directory has the entry's name and the directory above it.

## Main results

* `Path.fileName?_child` — the name of an entry's path
* `Path.parent?_child`, `Path.withFileName_child` — the path above it, and the entries beside it
-/

namespace RamlBuild.Path

variable {p q : Path} {name other : String} {pieces : List (List Char)}

theorem eq_mk_of_toList {text : String} (h : p.text.toList = text.toList) : p = ⟨text⟩ := by
  obtain ⟨text'⟩ := p
  rw [show text' = text from String.toList_inj.1 h]

/-- A path is put together from its body. -/
theorem ofBody_body (p : Path) : ofBody p.body.1 p.body.2 = p := by
  have hjoin : ['/'].intercalate (p.text.toList.splitOn '/') = p.text.toList :=
    List.intercalate_splitOn '/'
  obtain ⟨first, rest, hsplit⟩ := List.exists_cons_of_ne_nil (List.splitOn_ne_nil '/' p.text.toList)
  rw [hsplit] at hjoin
  have hfirst : '/' ∉ first := Text.not_mem_of_mem_splitOn (by rw [hsplit]; exact List.mem_cons_self)
  rw [body, hsplit]
  simp only
  split
  · -- What stands before the first slash of an absolute path is empty.
    rename_i habsolute
    have hhead : p.text.toList.head? = some '/' := by simpa [isAbsolute] using habsolute
    rw [← hjoin] at hhead
    have hempty : first = [] := by
      cases first with
      | nil => rfl
      | cons c first =>
        have hc : c = '/' := by
          cases rest with
          | nil => simpa [List.intercalate_singleton] using hhead
          | cons => simpa [List.intercalate_cons_cons] using hhead
        exact absurd List.mem_cons_self (hc ▸ hfirst)
    subst hempty
    cases rest with
    | nil => simp [List.intercalate_singleton] at hhead
    | cons piece rest =>
      refine (eq_mk_of_toList ?_).symm
      rw [← hjoin, List.intercalate_cons_cons]
      simp
  · split
    · rename_i hdot
      subst hdot
      cases rest with
      | nil => exact (eq_mk_of_toList (by rw [← hjoin, List.intercalate_singleton]; rfl)).symm
      | cons piece rest =>
        refine (eq_mk_of_toList ?_).symm
        rw [← hjoin, List.intercalate_cons_cons]
        simp
    · refine (eq_mk_of_toList ?_).symm
      rw [← hjoin]
      simp

theorem not_isFiller (h : IsPlainName name) : isFiller name.toList = false := by
  have hne : name.toList ≠ [] := fun h' => h.1 (String.toList_inj.1 h')
  have hdot : name.toList ≠ ['.'] := fun h' => h.2.1 (String.toList_inj.1 h')
  simp [isFiller, hne, hdot]

theorem componentOf_toList (h : IsPlainName name) : componentOf name.toList = .name name := by
  have hdots : name.toList ≠ ['.', '.'] := fun h' => h.2.2.1 (String.toList_inj.1 h')
  rw [componentOf, if_neg hdots, String.ofList_toList]

theorem trimFiller_concat (h : IsPlainName name) (pieces : List (List Char)) :
    trimFiller (pieces ++ [name.toList]) = pieces ++ [name.toList] := by
  rw [trimFiller, List.reverse_append, List.reverse_singleton, List.singleton_append,
    List.dropWhile_cons_of_neg (by simp [not_isFiller h]), List.reverse_cons, List.reverse_reverse]

/-- The body of an entry's path ends with the entry's name. -/
theorem exists_body_child (h : IsPlainName name) :
    ∃ start pieces, (p / name).body = (start, pieces ++ [name.toList]) := by
  have hsplit : ∃ init, (p / name).text.toList.splitOn '/' = init ++ [name.toList] := by
    rcases text_child h with ⟨-, htext⟩ | ⟨before, -, -, htext⟩
    · exact ⟨[], by rw [htext, List.splitOn_eq_singleton h.2.2.2, List.nil_append]⟩
    · exact ⟨before.splitOn '/', by
        rw [htext, List.splitOn_append_cons_self, List.splitOn_eq_singleton h.2.2.2]⟩
  obtain ⟨init, hinit⟩ := hsplit
  cases init with
  | nil =>
    have habsolute : (p / name).isAbsolute = false := by
      have htext : (p / name).text.toList = name.toList := by
        have hjoin : ['/'].intercalate ((p / name).text.toList.splitOn '/') =
            (p / name).text.toList :=
          List.intercalate_splitOn '/'
        rw [hinit, List.nil_append, List.intercalate_singleton] at hjoin
        exact hjoin.symm
      have hname := not_isAbsolute_of_isPlainName h
      unfold isAbsolute at hname ⊢
      rw [htext, hname]
    have hdot : name.toList ≠ ['.'] := fun h' => h.2.1 (String.toList_inj.1 h')
    refine ⟨.bare, [], ?_⟩
    rw [body, hinit, List.nil_append]
    simp only
    rw [if_neg (by simp [habsolute]), if_neg hdot]
  | cons first init =>
    rw [body, hinit, List.cons_append]
    simp only
    split
    · exact ⟨_, init, rfl⟩
    · split
      · exact ⟨_, init, rfl⟩
      · exact ⟨_, first :: init, rfl⟩

/-- The body of an entry's path goes on where that of the directory's path ends. -/
theorem body_child (h : IsPlainName name) (hne : p.text ≠ "") (hslash : p.endsInSlash = false) :
    (p / name).body = (p.body.1, p.body.2 ++ [name.toList]) := by
  rcases text_child (p := p) h with ⟨hempty, -⟩ | ⟨before, hbefore, -, htext⟩
  · contradiction
  · obtain rfl : p.text.toList = before := by
      rcases hbefore with hbefore | hbefore
      · exact hbefore
      · rw [endsInSlash, hbefore, List.getLast?_concat] at hslash
        contradiction
    obtain ⟨first, rest, hsplit⟩ :=
      List.exists_cons_of_ne_nil (List.splitOn_ne_nil '/' p.text.toList)
    rw [body, body, htext, List.splitOn_append_cons_self, List.splitOn_eq_singleton h.2.2.2, hsplit,
      List.cons_append, isAbsolute_child h]
    simp only
    split
    · rfl
    · split <;> rfl

/-- The name of an entry's path. -/
theorem fileName?_child (h : IsPlainName name) : (p / name).fileName? = some name := by
  obtain ⟨start, pieces, hbody⟩ := exists_body_child (p := p) h
  rw [fileName?, components, hbody]
  simp only [List.filter_append, List.map_append]
  rw [List.filter_cons_of_pos (by simp [not_isFiller h]), List.filter_nil, List.map_singleton,
    componentOf_toList h, ← List.append_assoc, List.getLast?_concat]

/-- The path above that of an entry of a directory. -/
theorem parent?_child (h : IsPlainName name) (h' : IsPlainName other) :
    (p / other / name).parent? = some (p / other) := by
  obtain ⟨start, pieces, hbody⟩ := exists_body_child (p := p) h'
  rw [parent?, body_child h (text_child_ne_empty h') (endsInSlash_child h')]
  simp only [trimFiller_concat h]
  have hpath := ofBody_body (p / other)
  rw [hbody] at hpath ⊢
  split
  · rename_i heq
    exact absurd heq (by simp)
  · rw [List.dropLast_concat, trimFiller_concat h']
    exact congrArg some hpath

/-- The directory that holds an entry of a directory. -/
theorem directory_child (h : IsPlainName name) (h' : IsPlainName other) :
    (p / other / name).directory = p / other := by
  have hne : (p / other).text.isEmpty = false := by
    rw [Bool.eq_false_iff]
    intro hempty
    exact text_child_ne_empty h' (String.isEmpty_iff.1 hempty)
  rw [directory, parent?_child h h']
  simp [hne]

/-- The path of another entry beside one. -/
theorem withFileName_child (h : IsPlainName name) (h' : IsPlainName other) (new : String) :
    (p / other / name).withFileName new = p / other / new := by
  rw [withFileName, fileName?_child h, parent?_child h h']

end RamlBuild.Path
