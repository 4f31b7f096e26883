import RamlBuild.Proofs.Files.Beside
import RamlBuild.Proofs.Files.Plainly
import RamlBuild.Proofs.Sources.Reading

/-!
# Rewriting a file is atomic

A file is rewritten as a whole or not at all. Whichever step fails, be it the transform or any
operation on files, the files are the same as before. When the file was rewritten its path holds the
new text, and nothing else has changed: where the path was a link, the link has gone, and the file
that it led to is as it was.

Nothing is written exactly when the transform gives back the text that it was given.

## Main definitions

* `Rewritten` — what a rewritten file leaves
* `RewritesAtomically` — what is left in every case

## Main results

* `Files.exists_child_of_resolve` — a path to a file ends in its name
* `Files.Replaced.readFile` — a file that was replaced holds the new text by its path
* `rewritesAtomically_of_rewrite` — every run of a rewriting
-/

namespace RamlBuild

open Build

/-! ## Paths to files -/

namespace Path

variable {p : Path} {name : String}

/-- A path is put together from its text up to the last slash and what stands behind that. -/
theorem exists_eq_div (p : Path) : ∃ (q : Path) (name : String), p = q / name ∧
    '/' ∉ name.toList ∧ (q.text = "" ∨ q.endsInSlash = true) := by
  have hparts : ∀ xs : List Char, ∃ before last : List Char, xs = before ++ last ∧ '/' ∉ last ∧
      (before = [] ∨ before.getLast? = some '/') := by
    intro xs
    induction xs using List.reverseRecOn with
    | nil => exact ⟨[], [], rfl, by simp, .inl rfl⟩
    | append_singleton init c ih =>
      by_cases hc : c = '/'
      · exact ⟨init ++ [c], [], by simp, by simp, .inr (by simp [hc])⟩
      · obtain ⟨before, last, rfl, hlast, hbefore⟩ := ih
        exact ⟨before, last ++ [c], by simp, by simp [hlast, Ne.symm hc], hbefore⟩
  obtain ⟨before, last, htext, hlast, hbefore⟩ := hparts p.text.toList
  have hname : '/' ∉ (String.ofList last).toList := by rwa [String.toList_ofList]
  have hrelative : (⟨String.ofList last⟩ : Path).isAbsolute = false := by
    rw [isAbsolute, beq_eq_false_iff_ne]
    exact fun hhead => hname (List.mem_of_mem_head? hhead)
  have hseparator : separator before = [] := by
    rcases hbefore with rfl | hbefore
    · rfl
    · simp [separator, hbefore]
  refine ⟨⟨String.ofList before⟩, String.ofList last, ?_, hname, ?_⟩
  · have hjoin : ((⟨String.ofList before⟩ : Path) / String.ofList last).text.toList = _ :=
      toList_join hrelative
    change p = ⟨((⟨String.ofList before⟩ : Path) / String.ofList last).text⟩
    refine eq_mk_of_toList ?_
    rw [htext, hjoin]
    simp [hseparator]
  · rcases hbefore with rfl | hbefore
    · exact .inl rfl
    · exact .inr (by simp [endsInSlash, hbefore])

/-- A path whose last step is a name is that of an entry of that name. -/
theorem exists_child_of_getLast? (h : p.steps.getLast? = some (.name name)) :
    ∃ q : Path, IsPlainName name ∧ p = q / name := by
  have hplain : IsPlainName name := isPlainName_of_mem_steps (List.mem_of_getLast? h)
  have hslash : p.endsInSlash = false := by
    rw [Bool.eq_false_iff]
    intro hslash
    rw [steps_eq, if_pos hslash, List.getLast?_concat] at h
    cases Option.some.inj h
  obtain ⟨q, last, rfl, hlast, hq⟩ := exists_eq_div p
  refine ⟨q, hplain, ?_⟩
  have hrelative : (⟨last⟩ : Path).isAbsolute = false := by
    rw [isAbsolute, beq_eq_false_iff_ne]
    exact fun hhead => hlast (List.mem_of_mem_head? hhead)
  -- Nothing behind the last slash would leave a path that ends in it, or is empty.
  have hne : last ≠ "" := by
    rintro rfl
    have hjoin : q / "" = ⟨q.text⟩ := by
      refine eq_mk_of_toList ?_
      have hjoin : (q / "").text.toList = _ := toList_join hrelative
      rw [hjoin]
      rcases hq with hq | hq
      · simp [hq, separator]
      · rw [endsInSlash, beq_iff_eq] at hq
        simp [separator, hq]
    rw [hjoin] at h hslash
    rcases hq with hq | hq
    · rw [hq] at h
      cases h
    · rw [show (⟨q.text⟩ : Path).endsInSlash = q.endsInSlash from rfl, hq] at hslash
      cases hslash
  have hwalked : (⟨last⟩ : Path).walked = [stepOf last.toList] := by
    have hne' : last.toList ≠ [] := fun h' => hne (String.toList_inj.1 h')
    rw [walked, List.splitOn_eq_singleton hlast, List.filter_cons_of_pos (by simp [hne']),
      List.filter_nil, List.map_singleton]
  have hends : (q / last).walked.getLast? = some (stepOf last.toList) := by
    by_cases hempty : q.text = ""
    · rw [show q / last = (⟨last⟩ : Path) from join_of_empty hempty, hwalked]
      rfl
    · have hjoin : (q / last).walked = _ := walked_join hempty hrelative
      rw [hjoin, hwalked, List.getLast?_concat]
  rw [steps_eq, hslash, if_neg (by simp), hends, stepOf] at h
  split at h
  · cases Option.some.inj h
  · split at h
    · cases Option.some.inj h
    · obtain rfl := Step.name.inj (Option.some.inj h)
      rw [String.ofList_toList]

end Path

namespace Files

variable {fs fs' : Files} {links : Nat} {loc l target : Location} {steps : List Step} {p : Path}
  {contents : ByteArray} {mode : Nat}

/-- A walk that does not end with a name ends in a directory. -/
theorem directory_of_walk_concat {step : Step} (htree : fs.IsTree) (hstep : ∀ n, step ≠ .name n)
    (h : fs.walk true links loc (steps ++ [step]) = .ok l) :
    ∃ mode, fs.get? l = some (.directory mode) := by
  have hlast : ∀ d, EndsPlainly fs true d step :=
    fun d _ n _ hn => absurd hn (hstep n)
  rw [walk_append fun d _ => hlast d] at h
  cases hwalk : fs.walk true links loc steps with
  | error error =>
    rw [hwalk] at h
    cases h
  | ok d =>
    rw [hwalk] at h
    change fs.takeStep d step = .ok l at h
    obtain ⟨mode, hget, henter⟩ := exists_directory_of_walkUpTo h
    rw [takeStep, walkUpTo_of_entered hget henter] at h
    cases step with
    | inside | here =>
      obtain rfl := Except.ok.inj h
      exact ⟨mode, hget⟩
    | up =>
      obtain rfl := Except.ok.inj h
      exact htree.directory_of_prefix hget (List.dropLast_prefix d)
    | name n => exact absurd rfl (hstep n)

/-- A path to what is no directory ends in a name. -/
theorem exists_child_of_resolve (htree : fs.IsTree) (hresolve : fs.resolve p = .ok l)
    (hfile : ∀ mode, fs.get? l ≠ some (.directory mode)) :
    ∃ (q : Path) (name : String), IsPlainName name ∧ p = q / name := by
  have hp := requirePath_of_locate hresolve
  rw [resolve, locate_eq hp] at hresolve
  obtain ⟨init, last, hsteps⟩ :=
    (List.eq_nil_or_concat p.steps).resolve_left (Path.steps_ne_nil (text_ne_empty_of_requirePath hp))
  rw [List.concat_eq_append] at hsteps
  have hname : ∃ n, last = .name n := by
    by_contra hnone
    rw [hsteps] at hresolve
    obtain ⟨mode, hdir⟩ := directory_of_walk_concat htree (fun n hn => hnone ⟨n, hn⟩) hresolve
    exact hfile mode hdir
  obtain ⟨name, rfl⟩ := hname
  obtain ⟨q, hplain, hq⟩ := Path.exists_child_of_getLast? (by rw [hsteps, List.getLast?_concat])
  exact ⟨q, name, hplain, hq⟩

/-- A file that could be read and was replaced holds the new text by its path. -/
theorem Replaced.readFile {input text : String} (htree : fs.IsTree)
    (hread : textAt fs p = .ok (some input)) (hplace : fs.place p = .ok target)
    (h : Replaced fs fs' target text.toUTF8 ((fs.mode? p).getD temporaryMode)) :
    fs'.readFile p = .ok text.toUTF8 := by
  obtain ⟨loc, _, _, _, hresolve, hget, -, -⟩ := textAt_eq_ok_iff.1 hread
  obtain ⟨q, name, hname, rfl⟩ := exists_child_of_resolve htree hresolve (by simp [hget])
  obtain ⟨dir, hreach, hplace', hdirectory, hdead⟩ := entry_of_textAt hname hread
  obtain rfl := Except.ok.inj (hplace.symm.trans hplace')
  have hpermits : (Entry.file text.toUTF8 _ none).permits .read = true :=
    permits_of_place hname hplace hdirectory hdead fun _ => ⟨input, hread⟩
  -- The new file is no link, so the path leads to its own place.
  obtain ⟨hp, dir', hreach', hstep⟩ :=
    (place_child_iff hname).1 (place_child_of_replaced h hdead hname hplace)
  obtain rfl : dir = dir' := (List.append_inj' (eq_append_of_takeStep hstep) rfl).1
  have hresolve' : fs'.resolve (q / name) = .ok (dir ++ [name]) := by
    rw [resolve_child_of_reach hname hreach' (linkAt_of_file h.get?_target) hp, hstep]
  exact readFile_eq_ok_iff.2
    ⟨_, _, none, stat_eq_ok_iff.2 ⟨hresolve', h.get?_target⟩, hpermits⟩

end Files

/-! ## Every run of a rewriting -/

variable {host host' : Host} {p : Path} {transform : String → Except Cause String}
  {result : Except Failure Bool}

/-- A path holds a text, and every entry but that in its place is as it was. Where a link was, the
file that it led to is among these. -/
structure Rewritten (p : Path) (target : Location) (text : String) (fs fs' : Files) : Prop where
  place : fs.place p = .ok target
  readFile : fs'.readFile p = .ok text.toUTF8
  contentsAt : fs'.contentsAt target = some text.toUTF8
  others : ∀ l, l ≠ target → fs'.get? l = fs.get? l
  linked : ∀ l, fs.resolve p = .ok l → fs.linkAt target ≠ none →
    l ≠ target ∧ fs'.get? l = fs.get? l

/-- A file that could be read and was replaced is rewritten. -/
theorem Files.Replaced.rewritten {fs fs' : Files} {target : Location} {input text : String}
    (htree : fs.IsTree) (hread : textAt fs p = .ok (some input)) (hplace : fs.place p = .ok target)
    (h : Files.Replaced fs fs' target text.toUTF8 ((fs.mode? p).getD temporaryMode)) :
    Rewritten p target text fs fs' where
  place := hplace
  readFile := h.readFile htree hread hplace
  contentsAt := by rw [Files.contentsAt, h.get?_target]
  others := h.get?_other
  linked := by
    intro l hresolve hlink
    obtain ⟨l', _, _, _, hresolve', hget, -, -⟩ := textAt_eq_ok_iff.1 hread
    obtain rfl := Except.ok.inj (hresolve.symm.trans hresolve')
    have hne : l ≠ target := by
      rintro rfl
      exact hlink (Files.linkAt_of_file hget)
    exact ⟨hne, h.get?_other l hne⟩

/-- What rewriting a file leaves, whichever of its steps fails. -/
structure RewritesAtomically (p : Path) (transform : String → Except Cause String)
    (host host' : Host) (result : Except Failure Bool) : Prop where
  /-- After a failure the files are the same as before, so no temporary file is left. -/
  of_error : ∀ failure, result = .error failure → host'.files = host.files
  /-- The file is said to be unchanged when the transform gives back the text that was read, and only
  then. -/
  unchanged_iff : result = .ok false ↔
    ∃ input, (exec (readText p) host).1 = .ok input ∧ transform input = .ok input
  /-- Then nothing was done but to read. -/
  of_unchanged : result = .ok false → host' = counted host
  of_changed : result = .ok true → ∃ input output target,
    textAt host.files p = .ok (some input) ∧ transform input = .ok output ∧ output ≠ input ∧
      Rewritten p target output host.files host'.files

/-- Rewriting a file is atomic for every transform, every schedule of faults and every path. -/
theorem rewritesAtomically_of_rewrite (htree : host.files.IsTree)
    (h : exec (rewrite p transform) host = (result, host')) :
    RewritesAtomically p transform host host' result := by
  rw [rewrite] at h
  rcases exec_bind_cases h with ⟨input, host₁, hread, h⟩ | ⟨failure, hread, rfl⟩
  · obtain ⟨hinput, rfl⟩ := readText_ok hread
    have hgiven : ∀ input', (exec (readText p) host).1 = .ok input' → input' = input := by
      intro input' hread'
      rw [hread] at hread'
      exact (Except.ok.inj hread').symm
    cases houtput : transform input with
    | error cause =>
      simp only [houtput, exec_throw] at h
      obtain ⟨rfl, rfl⟩ := Prod.mk.inj h
      refine ⟨fun _ _ => rfl, iff_of_false (by simp) ?_, by simp, by simp⟩
      rintro ⟨input', hread', hsame⟩
      rw [hgiven input' hread', houtput] at hsame
      cases hsame
    | ok output =>
      simp only [houtput] at h
      split at h
      · rename_i hsame
        obtain ⟨rfl, rfl⟩ := Prod.mk.inj h
        refine ⟨by simp, iff_of_true rfl ⟨input, by rw [hread], ?_⟩, fun _ => rfl, by simp⟩
        rw [houtput, hsame]
      · rename_i hne
        have hchanges : ¬∃ input, (exec (readText p) host).1 = .ok input ∧
            transform input = .ok input := by
          rintro ⟨input', hread', hsame⟩
          rw [hgiven input' hread', houtput] at hsame
          exact hne (Except.ok.inj hsame)
        rcases exec_bind_cases h with ⟨⟨⟩, host₂, hwrite, h⟩ | ⟨failure, hwrite, rfl⟩
        · obtain ⟨rfl, rfl⟩ := Prod.mk.inj h
          obtain ⟨target, hplace, hreplaced, -⟩ := writeAtomically_ok hwrite
          refine ⟨by simp, iff_of_false (by simp) hchanges, by simp, fun _ => ?_⟩
          exact ⟨input, output, target, hinput, houtput, hne,
            hreplaced.rewritten htree hinput hplace⟩
        · refine ⟨fun _ _ => ?_, iff_of_false (by simp) hchanges, by simp, by simp⟩
          exact (files_of_writeAtomically_error hwrite).1
  · have hfiles : host'.files = host.files := (onlyReads_readText hread).files_eq
    refine ⟨fun _ _ => hfiles, iff_of_false (by simp) ?_, by simp, by simp⟩
    rintro ⟨input, hread', -⟩
    rw [hread] at hread'
    cases hread'

/-- A source that is a link to another one. -/
def linkedFiles : Files where
  entries :=
    [(["src"], .directory 0o755), (["src", "Cat.java"], .link ⟨"Pet.java"⟩),
      (["src", "Pet.java"], .file "interface Pet\n".toUTF8 0o644 none)]
  workingDirectory := []

/-- A host with that source, whose storage is full when the temporary file is to be written. -/
def brimfulHost : Host :=
  { quietHost linkedFiles with faults := fun n => if n = 2 then some .storageFull else none }

/-- A transform that adds a line. -/
def addLine (source : String) : Except Cause String :=
  .ok (source ++ "\x7d\n")

/-- The link is replaced by a file with the new text, unless the storage is full. -/
theorem rewritesAtomically_of_rewrite_linkedFiles :
    (exec (rewrite ⟨"/src/Cat.java"⟩ addLine) (quietHost linkedFiles)).1 = .ok true ∧
      RewritesAtomically ⟨"/src/Cat.java"⟩ addLine (quietHost linkedFiles)
        (exec (rewrite ⟨"/src/Cat.java"⟩ addLine) (quietHost linkedFiles)).2 (.ok true) ∧
      ∃ failure, (exec (rewrite ⟨"/src/Cat.java"⟩ addLine) brimfulHost).1 = .error failure ∧
        RewritesAtomically ⟨"/src/Cat.java"⟩ addLine brimfulHost
          (exec (rewrite ⟨"/src/Cat.java"⟩ addLine) brimfulHost).2 (.error failure) := by
  have htree : linkedFiles.IsTree :=
    (Files.wellFormed_of_entries (by decide +kernel) (by decide +kernel)).isTree
  have hchanged : (exec (rewrite ⟨"/src/Cat.java"⟩ addLine) (quietHost linkedFiles)).1 = .ok true := by
    decide +kernel
  have hfailed : (exec (rewrite ⟨"/src/Cat.java"⟩ addLine) brimfulHost).1 =
      .error ((Failure.of (.io .storageFull "failed to write")).within
        "writing temporary file for /src/Cat.java") := by
    decide +kernel
  exact ⟨hchanged, @rewritesAtomically_of_rewrite (quietHost linkedFiles) _ _ _ _ htree
    (exec_eq_of_fst hchanged), _, hfailed,
    @rewritesAtomically_of_rewrite brimfulHost _ _ _ _ htree (exec_eq_of_fst hfailed)⟩

end RamlBuild
