import RamlBuild.Proofs.Archive.Operations

/-!
# Tidy trees stay so

Every operation on files leaves a tidy tree tidy: what is new stands in a directory, by a name that
can be a step of a path, and no location comes to have two entries. So do the builds that are put
together from operations, whether they succeed or fail.

## Main definitions

* `Build.KeepsTidy` — a tidy tree stays tidy

## Main results

* `Files.Tidy.of_sameLocations`, `Files.Tidy.put_of_locate` — the two ways to change a
  tree
* `tidy_unpack` — unpacking an archive
-/

namespace RamlBuild

namespace Files

variable {fs fs' : Files} {l target : Location} {e e' : Entry} {p source : Path} {follow : Bool}
  {contents : ByteArray} {mode : Nat}

theorem nodup_filter (h : (fs.entries.map Prod.fst).Nodup) (p : Location × Entry → Bool) :
    ((fs.entries.filter p).map Prod.fst).Nodup :=
  h.sublist (List.filter_sublist.map Prod.fst)

theorem nodup_put (h : (fs.entries.map Prod.fst).Nodup) :
    ((fs.put l e).entries.map Prod.fst).Nodup := by
  rw [Files.put, List.map_cons, List.nodup_cons]
  refine ⟨?_, nodup_filter h _⟩
  intro hmem
  obtain ⟨x, hx, heq⟩ := List.mem_map.1 hmem
  simpa [heq] using (List.mem_filter.1 hx).2

theorem nodup_rewriteFile (h : (fs.entries.map Prod.fst).Nodup) :
    ((fs.rewriteFile l contents mode).entries.map Prod.fst).Nodup := by
  unfold Files.rewriteFile
  split
  · exact nodup_put h
  · simpa [Function.comp_def] using h

theorem nodup_setMode (h : (fs.entries.map Prod.fst).Nodup) :
    ((fs.setMode l mode).entries.map Prod.fst).Nodup := by
  unfold Files.setMode
  split
  · exact nodup_rewriteFile h
  · exact nodup_put h
  · exact h

/-- What is moved comes where everything else went. -/
theorem nodup_moveTree (h : (fs.entries.map Prod.fst).Nodup) :
    ((fs.moveTree l target).entries.map Prod.fst).Nodup := by
  rw [Files.moveTree, List.map_append, List.map_map, List.nodup_append]
  refine ⟨?_, nodup_filter (nodup_filter h _) _, ?_⟩
  · have hmoved := nodup_filter h fun x => l.isPrefixOf x.1
    rw [List.Nodup, List.pairwise_map] at hmoved ⊢
    refine hmoved.imp_of_mem fun {x y} hx hy hne heq => hne ?_
    obtain ⟨names, hnames⟩ := List.isPrefixOf_iff_prefix.1 (List.mem_filter.1 hx).2
    obtain ⟨names', hnames'⟩ := List.isPrefixOf_iff_prefix.1 (List.mem_filter.1 hy).2
    have hdrop := List.append_cancel_left heq
    rwa [← hnames, ← hnames', List.drop_left, List.drop_left, ← List.append_cancel_left_eq l,
      hnames, hnames'] at hdrop
  · intro v hv v' hv' heq
    subst heq
    obtain ⟨x, -, rfl⟩ := List.mem_map.1 hv
    obtain ⟨y, hy, heq⟩ := List.mem_map.1 hv'
    have hbelow : target.isPrefixOf y.1 = true := by
      rw [heq, List.isPrefixOf_iff_prefix]
      exact List.prefix_append _ _
    have hoff := (List.mem_filter.1 hy).2
    rw [hbelow] at hoff
    contradiction

theorem nodup_moveTo (h : (fs.entries.map Prod.fst).Nodup) (hop : fs.moveTo l p = .ok fs') :
    (fs'.entries.map Prod.fst).Nodup := by
  unfold Files.moveTo at hop
  cases hplace : fs.place p.dropSlashes with
  | error error =>
    rw [hplace] at hop
    contradiction
  | ok target =>
    cases hentry : fs.entryAt l with
    | error error =>
      simp only [hplace, hentry, bind, Except.bind] at hop
      split at hop <;> cases hop
    | ok e =>
      simp only [hplace, hentry, bind, Except.bind] at hop
      split at hop
      · cases hop
      split at hop
      · cases hop
      split at hop
      · rwa [← Except.ok.inj hop]
      split at hop
      · cases hop
      split at hop
      · cases hop
      split at hop
      · cases hop
      split at hop
      · rw [← Except.ok.inj hop]
        exact nodup_moveTree h
      · split at hop
        · rw [← Except.ok.inj hop]
          exact nodup_moveTree h
        · cases hop
      · cases hop
      · cases hop
      · rw [← Except.ok.inj hop]
        exact nodup_put (nodup_filter h _)

/-- Other entries at the same locations are as tidy, when no directory went. -/
theorem Tidy.of_sameLocations (h : fs.Tidy) (hnodup : (fs'.entries.map Prod.fst).Nodup)
    (hsome : ∀ l, (fs'.get? l).isSome → (fs.get? l).isSome)
    (hdir : ∀ l mode, fs.get? l = some (.directory mode) →
      ∃ mode', fs'.get? l = some (.directory mode')) : fs'.Tidy := by
  have hold : ∀ {loc name e}, fs'.get? (loc ++ [name]) = some e →
      ∃ e, fs.get? (loc ++ [name]) = some e := fun he =>
    Option.isSome_iff_exists.1 (hsome _ (by rw [he]; rfl))
  refine ⟨?_, hnodup, ?_⟩
  · intro loc name e he
    obtain ⟨e', he'⟩ := hold he
    obtain ⟨mode, hmode⟩ := h.isTree loc name e' he'
    exact hdir loc mode hmode
  · intro loc name e he
    obtain ⟨e', he'⟩ := hold he
    exact h.namesPlainly loc name e' he'

/-- An entry comes to a directory, or takes the place of what is no directory there. -/
theorem Tidy.put (h : fs.Tidy) {dir : Location} {name : String} (hname : IsPlainName name)
    (hdir : fs.get? dir = some (.directory mode))
    (hfree : ∀ mode, fs.get? (dir ++ [name]) ≠ some (.directory mode)) :
    (fs.put (dir ++ [name]) e).Tidy := by
  refine ⟨h.isTree.put hdir hfree, nodup_put h.nodup, ?_⟩
  intro loc name' e' he'
  rw [get?_put (by simp)] at he'
  split at he'
  · rename_i heq
    obtain ⟨-, hsame⟩ := List.append_inj' heq rfl
    rw [List.singleton_inj.1 hsame]
    exact hname
  · exact h.namesPlainly loc name' e' he'

/-- An entry comes where a path leads and nothing is. -/
theorem Tidy.put_of_locate (h : fs.Tidy) (hlocate : fs.locate follow p = .ok l)
    (hfree : fs.get? l = none) : (fs.put l e).Tidy := by
  obtain ⟨dir, name, rfl, hname⟩ := isPlainName_of_locate h.isTree hfree hlocate
  obtain ⟨dir', name', mode, heq, hdir⟩ := locate_directory_of_free h.isTree hlocate hfree
  obtain ⟨rfl, -⟩ := List.append_inj' heq rfl
  exact h.put hname hdir (by simp [hfree])

/-- Where a path leads is an entry of a directory, by a name that can be a step of a path. -/
theorem Tidy.exists_child (h : fs.Tidy) (hlocate : fs.locate follow p = .ok l)
    (hne : l ≠ []) :
    ∃ dir name mode, l = dir ++ [name] ∧ IsPlainName name ∧
      fs.get? dir = some (.directory mode) := by
  obtain ⟨dir, name, mode, rfl, hdir⟩ := directory_of_locate h.isTree hlocate hne
  refine ⟨dir, name, mode, rfl, ?_, hdir⟩
  cases hget : fs.get? (dir ++ [name]) with
  | some e => exact h.namesPlainly dir name e hget
  | none =>
    obtain ⟨dir', name', heq, hname⟩ := isPlainName_of_locate h.isTree hget hlocate
    obtain ⟨-, hsame⟩ := List.append_inj' heq rfl
    rwa [List.singleton_inj.1 hsame]

theorem Tidy.erase (h : fs.Tidy) (hne : l ≠ [])
    (hentry : ∀ mode, fs.get? l ≠ some (.directory mode)) : (fs.erase l).Tidy := by
  refine ⟨h.isTree.erase hne hentry, nodup_filter h.nodup _, ?_⟩
  intro loc name e he
  rw [get?_erase hne] at he
  split at he
  · contradiction
  · exact h.namesPlainly loc name e he

theorem Tidy.eraseTree (h : fs.Tidy) (hne : l ≠ []) : (fs.eraseTree l).Tidy := by
  refine ⟨h.isTree.eraseTree hne, nodup_filter h.nodup _, ?_⟩
  intro loc name e he
  rw [get?_eraseTree hne] at he
  split at he
  · contradiction
  · exact h.namesPlainly loc name e he

/-- An entry that is no directory takes the place of another one. -/
theorem Tidy.put_of_some (h : fs.Tidy) (hget : fs.get? l = some e)
    (hentry : e.isDirectory = false) : (fs.put l e').Tidy := by
  have hne : l ≠ [] := by
    rintro rfl
    rw [get?_nil] at hget
    obtain rfl := Option.some.inj hget
    contradiction
  refine h.of_sameLocations (nodup_put h.nodup) ?_ ?_
  · intro v hv
    rw [get?_put hne] at hv
    split at hv
    · rename_i heq
      rw [heq, hget]
      rfl
    · exact hv
  · intro v mode hv
    refine ⟨mode, ?_⟩
    rw [get?_put_of_ne, hv]
    rintro rfl
    rw [hget] at hv
    obtain rfl := Option.some.inj hv
    contradiction

/-- A file is written where a path leads. -/
theorem Tidy.rewriteFile (h : fs.Tidy) (hlocate : fs.locate follow p = .ok l)
    (hentry : ∀ mode, fs.get? l ≠ some (.directory mode)) :
    (fs.rewriteFile l contents mode).Tidy := by
  cases hget : fs.get? l with
  | none =>
    rw [get?_rewriteFile_of_not_shared (by simp [hget])]
    exact h.put_of_locate hlocate hget
  | some e =>
    have hne : l ≠ [] := by
      rintro rfl
      exact hentry _ get?_nil
    cases hshared : e.shared? with
    | none =>
      rw [get?_rewriteFile_of_not_shared (by simp [hget, hshared])]
      refine h.put_of_some hget ?_
      cases e with
      | directory mode' => exact absurd hget (hentry mode')
      | file | link => rfl
    | some n =>
      have hsame : ∀ v, (fs.rewriteFile l contents mode).get? v =
          (fs.get? v).map fun e => if e.shared? = some n then .file contents mode (some n) else e := by
        intro v
        rw [get?_rewriteFile hne]
        simp only [hget, Option.bind_some, hshared]
      refine h.of_sameLocations (nodup_rewriteFile h.nodup) ?_ ?_
      · intro v hv
        rwa [hsame, Option.isSome_map] at hv
      · intro v mode' hv
        exact ⟨mode', by rw [hsame, hv]; rfl⟩

theorem Tidy.setMode (h : fs.Tidy) (hlocate : fs.locate follow p = .ok l) :
    (fs.setMode l mode).Tidy := by
  unfold Files.setMode
  split
  · rename_i contents' mode' shared hget
    exact h.rewriteFile hlocate (by simp [hget])
  · rename_i mode' hget
    have hput : ∀ v, (fs.put l (.directory mode)).get? v =
        if v = l ∧ l ≠ [] then some (.directory mode) else fs.get? v := by
      intro v
      by_cases hne : l = []
      · -- What is told of the root itself does not count.
        subst hne
        by_cases hv : v = []
        · rw [hv, get?_nil, get?_nil, if_neg (by simp)]
        · rw [get?_put_of_ne hv, if_neg (by simp)]
      · simp [get?_put hne, hne]
    refine h.of_sameLocations (nodup_put h.nodup) ?_ ?_
    · intro v hv
      rw [hput] at hv
      split at hv
      · rename_i heq
        rw [heq.1, hget]
        rfl
      · exact hv
    · intro v mode₀ hv
      rw [hput]
      split
      · exact ⟨mode, rfl⟩
      · exact ⟨mode₀, hv⟩
  · exact h

/-! ### Operations -/

theorem Tidy.createDirectory (h : fs.Tidy) (hop : fs.createDirectory p = .ok fs') :
    fs'.Tidy := by
  obtain ⟨l, hplace, hfree, rfl⟩ := createDirectory_ok hop
  exact h.put_of_locate hplace hfree

theorem Tidy.createFile (h : fs.Tidy) (hop : fs.createFile p = .ok fs') : fs'.Tidy := by
  unfold Files.createFile at hop
  cases hfree : fs.freePlace p with
  | error error =>
    rw [hfree] at hop
    contradiction
  | ok l =>
    rw [hfree] at hop
    obtain ⟨hplace, hnone⟩ := Build.freePlace_ok hfree
    obtain rfl := Except.ok.inj hop
    exact h.put_of_locate hplace hnone

theorem Tidy.createLink {path : Path} (h : fs.Tidy) (hop : fs.createLink path p = .ok fs') :
    fs'.Tidy := by
  unfold Files.createLink at hop
  cases hpath : requirePath path with
  | error error =>
    rw [hpath] at hop
    contradiction
  | ok =>
    cases hfree : fs.freePlace p with
    | error error =>
      rw [hpath, hfree] at hop
      contradiction
    | ok l =>
      rw [hpath, hfree] at hop
      obtain ⟨hplace, hnone⟩ := Build.freePlace_ok hfree
      obtain rfl := Except.ok.inj hop
      exact h.put_of_locate hplace hnone

theorem Tidy.writeFile (h : fs.Tidy) (hop : fs.writeFile p contents mode = .ok fs') :
    fs'.Tidy := by
  obtain ⟨l, hresolve, hentry, rfl⟩ := writeFile_ok hop
  exact h.rewriteFile hresolve hentry

theorem Tidy.removeFile (h : fs.Tidy) (hop : fs.removeFile p = .ok fs') :
    fs'.Tidy := by
  obtain ⟨l, -, hentry, rfl⟩ := removeFile_ok hop
  refine h.erase ?_ hentry
  rintro rfl
  exact hentry _ get?_nil

theorem Tidy.createName (h : fs.Tidy) (hop : fs.createName source p = .ok fs') :
    fs'.Tidy := by
  obtain ⟨origin, e, l, -, horigin, hplace, hfree, hcases⟩ := Archive.createName_ok hop
  rcases hcases with ⟨contents, mode, n, rfl, rfl⟩ | rfl
  · have hne : origin ≠ l := by
      rintro rfl
      rw [hfree] at horigin
      contradiction
    obtain ⟨dir, name, rfl, hname⟩ := isPlainName_of_locate h.isTree hfree hplace
    obtain ⟨dir', name', mode', heq, hdir⟩ := locate_directory_of_free h.isTree hplace hfree
    obtain ⟨rfl, -⟩ := List.append_inj' heq rfl
    have hother : dir ≠ origin := by
      rintro rfl
      simp [horigin] at hdir
    have hdir' : (fs.put origin (.file contents mode (some n))).get? dir = some (.directory mode') :=
      (get?_put_of_ne hother).trans hdir
    refine (h.put_of_some horigin rfl).put hname hdir' ?_
    rw [get?_put_of_ne hne.symm, hfree]
    simp
  · exact h.put_of_locate hplace hfree

end Files

open Build

namespace Build

variable {α : Type} {p dest : Path} {activity : String} {loc : Location}

/-- A tidy tree stays tidy. -/
def KeepsTidy (host host' : Host) : Prop :=
  host.files.Tidy → host'.files.Tidy

theorem chains_keepsTidy : Chains KeepsTidy where
  refl _ := fun h => h
  trans h h' := fun hwf => h' (h hwf)

theorem tidy_reading {op : Files → Except IoError α} :
    Always KeepsTidy (reading activity op) := by
  intro host result host' h hwf
  rw [(reading_result h).1]
  exact hwf

theorem tidy_changing {op : Files → Except IoError Files}
    (hop : ∀ fs fs', fs.Tidy → op fs = .ok fs' → fs'.Tidy) :
    Always KeepsTidy (changing activity op) := by
  intro host result host' h hwf
  cases result with
  | ok => exact hop _ _ hwf (changing_ok h).1
  | error failure =>
    rw [(changing_error h).1]
    exact hwf

theorem tidy_createDirectories : Always KeepsTidy (createDirectories p) :=
  always_makeDirectories chains_keepsTidy fun _ _ =>
    tidy_changing fun _ _ h hop => h.createDirectory hop

theorem tidy_writeBytes {contents : ByteArray} :
    Always KeepsTidy (writeBytes p contents) :=
  tidy_changing fun _ _ h hop => h.writeFile hop

/-- No location comes to have two entries. -/
def KeepsNodup (host host' : Host) : Prop :=
  (host.files.entries.map Prod.fst).Nodup → (host'.files.entries.map Prod.fst).Nodup

theorem chains_keepsNodup : Chains KeepsNodup where
  refl _ := fun h => h
  trans h h' := fun hnodup => h' (h hnodup)

theorem nodup_reading {op : Files → Except IoError α} :
    Always KeepsNodup (reading activity op) := by
  intro host result host' h hnodup
  rw [(reading_result h).1]
  exact hnodup

theorem nodup_changing {op : Files → Except IoError Files}
    (hop : ∀ fs fs', (fs.entries.map Prod.fst).Nodup → op fs = .ok fs' →
      (fs'.entries.map Prod.fst).Nodup) : Always KeepsNodup (changing activity op) := by
  intro host result host' h hnodup
  cases result with
  | ok => exact hop _ _ hnodup (changing_ok h).1
  | error failure =>
    rw [(changing_error h).1]
    exact hnodup

theorem nodup_createTemporary {dir : Path} : Always KeepsNodup (createTemporary dir) := by
  intro host result host' h hnodup
  cases result with
  | ok loc =>
    rw [(createTemporary_ok h).2.1]
    exact Files.nodup_put hnodup
  | error failure =>
    rw [(createTemporary_error h).1]
    exact hnodup

theorem nodup_completeTemporary {text : String} :
    Always KeepsNodup (completeTemporary loc p text) := by
  refine Always.bind chains_keepsNodup (Always.within ?_) fun _ => ?_
  · refine nodup_changing fun fs fs' h hop => ?_
    rw [← Except.ok.inj hop]
    exact Files.nodup_rewriteFile h
  refine Always.bind chains_keepsNodup (Always.within ?_) fun _ => ?_
  · intro host result host' h hnodup
    rw [operation_result h]
    exact hnodup
  refine Always.bind chains_keepsNodup ?_ fun _ => ?_
  · refine Always.bind chains_keepsNodup (Always.asking chains_keepsNodup _) fun there => ?_
    split
    · refine Always.bind chains_keepsNodup nodup_reading fun mode => ?_
      refine nodup_changing fun fs fs' h hop => ?_
      rw [← Except.ok.inj hop]
      exact Files.nodup_setMode h
    · exact Always.pure chains_keepsNodup _
  · exact Always.within (nodup_changing fun fs fs' h hop => Files.nodup_moveTo h hop)

theorem nodup_writeAtomically {text : String} : Always KeepsNodup (writeAtomically p text) := by
  rw [writeAtomically_eq]
  refine Always.bind chains_keepsNodup (Always.within nodup_createTemporary) fun loc => ?_
  intro host result host' h hnodup
  rw [exec_cleaningUp] at h
  rcases hcomplete : exec (completeTemporary loc p text) host with ⟨outcome, last⟩
  have hlast := nodup_completeTemporary hcomplete hnodup
  rw [hcomplete] at h
  cases outcome with
  | ok =>
    obtain ⟨-, rfl⟩ := Prod.mk.inj h
    exact hlast
  | error failure =>
    obtain ⟨-, rfl⟩ := Prod.mk.inj h
    exact Files.nodup_filter hlast _

/-- A file that is replaced as a whole stands by a plain name in a directory. -/
theorem tidy_writeAtomically {text : String} : Always KeepsTidy (writeAtomically p text) := by
  intro host result host' h htidy
  have hnodup := nodup_writeAtomically h htidy.nodup
  cases result with
  | ok =>
    obtain ⟨target, hplace, hreplaced, -⟩ := writeAtomically_ok h
    refine ⟨hreplaced.isTree htidy.isTree hplace, hnodup, fun loc name e he => ?_⟩
    by_cases htarget : loc ++ [name] = target
    · obtain ⟨dir, name', mode, heq, hname, -⟩ := htidy.exists_child hplace hreplaced.ne_nil
      obtain ⟨-, hsame⟩ := List.append_inj' (htarget.trans heq) rfl
      rwa [List.singleton_inj.1 hsame]
    · rw [hreplaced.get?_other _ htarget] at he
      exact htidy.namesPlainly loc name e he
  | error failure =>
    obtain ⟨hget, -, -⟩ := writeAtomically_error h
    refine ⟨htidy.isTree.congr hget, hnodup, fun loc name e he => ?_⟩
    rw [hget] at he
    exact htidy.namesPlainly loc name e he

end Build

/-! ### Archives -/

/-- The operations on single entries leave a tidy tree tidy. -/
theorem Files.Alters.tidy {fs fs' : Files} {op : Files → Except IoError Files} (h : Alters op)
    (htidy : fs.Tidy) (hop : op fs = .ok fs') : fs'.Tidy := by
  cases h with
  | createDirectory p => exact htidy.createDirectory hop
  | createFile p => exact htidy.createFile hop
  | createLink target p => exact htidy.createLink hop
  | createName source p => exact htidy.createName hop
  | writeFile p contents mode => exact htidy.writeFile hop
  | removeFile p => exact htidy.removeFile hop
  | setMode p mode =>
    simp only at hop
    cases hresolve : fs.resolve p with
    | error error =>
      rw [hresolve] at hop
      contradiction
    | ok loc =>
      rw [hresolve] at hop
      obtain rfl := Except.ok.inj hop
      exact htidy.setMode hresolve

/-- An archive that is unpacked leaves a tidy tree tidy. -/
theorem tidy_unpack {archive dest : Path} : Always KeepsTidy (unpack archive dest) :=
  always_unpack chains_keepsTidy (fun _ _ => tidy_reading) fun _ _ h =>
    tidy_changing fun _ _ htidy hop => h.tidy htidy hop

end RamlBuild
