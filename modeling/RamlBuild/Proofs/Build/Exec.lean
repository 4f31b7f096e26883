import RamlBuild.Host

/-!
# Running builds

A build that runs on a host ends with a result or a failure and leaves a host. What a build of
several steps does follows from what its steps do.

## Main definitions

* `quietHost` — a host with nothing but files
* `Build.exec` — the result of a build on a host, and the host it leaves
* `Build.Always` — a relation between the hosts before and after every run

## Main results

* `Build.exec_bind`, `Build.exec_bind_cases`, `Build.exec_bind_ok` — one step after another
* `Build.exec_reading`, `Build.exec_changing` — single operations on files
* `Build.Always.bind` — what all steps keep is kept by the whole
-/

namespace RamlBuild

/-- A host with the given files and nothing else, on which no operation fails. -/
def quietHost (files : Files) : Host where
  files := files
  faults := fun _ => none
  operations := 0
  searchPath := []
  programOf := fun _ => none
  network := fun _ => none
  environment := []
  system := "Linux"
  now := ""
  calls := []
  requests := []
  output := .empty

namespace Build

variable {α β : Type} {host host' host'' : Host} {x : Build α} {f : α → Build β}

/-- The result of a build on a host, and the host that it leaves. -/
def exec (build : Build α) (host : Host) : Except Failure α × Host :=
  build.run.run host

theorem exec_eq_of_fst {result : Except Failure α} (h : (exec x host).1 = result) :
    exec x host = (result, (exec x host).2) :=
  Prod.ext h rfl

/-- A run that succeeds has a result. -/
theorem exec_of_isOk (h : (exec x host).1.isOk = true) :
    ∃ a, exec x host = (.ok a, (exec x host).2) := by
  cases hx : (exec x host).1 with
  | ok a => exact ⟨a, exec_eq_of_fst hx⟩
  | error failure =>
    rw [hx] at h
    contradiction

@[simp] theorem exec_pure (a : α) (host : Host) : exec (pure a) host = (.ok a, host) := rfl

@[simp] theorem exec_throw (failure : Failure) (host : Host) :
    exec (throw failure : Build α) host = (.error failure, host) := rfl

@[simp] theorem exec_fail (cause : Cause) (host : Host) :
    exec (fail cause : Build α) host = (.error (Failure.of cause), host) := rfl

@[simp] theorem exec_failWith (text : String) (host : Host) :
    exec (failWith text : Build α) host = (.error (Failure.told text), host) := rfl

@[simp] theorem exec_get (host : Host) : exec (get : Build Host) host = (.ok host, host) := rfl

@[simp] theorem exec_set (host host' : Host) :
    exec (set host' : Build Unit) host = (.ok (), host') := rfl

@[simp] theorem exec_modify (f : Host → Host) (host : Host) :
    exec (modify f : Build Unit) host = (.ok (), f host) := rfl

/-- The second step runs on the host that the first one leaves, unless the first one fails. -/
theorem exec_bind (x : Build α) (f : α → Build β) (host : Host) :
    exec (x >>= f) host =
      match exec x host with
      | (.ok a, host') => exec (f a) host'
      | (.error failure, host') => (.error failure, host') := by
  simp only [exec, ExceptT.run_bind, StateT.run_bind]
  rcases hx : StateT.run (ExceptT.run x) host with ⟨result, host'⟩
  cases result <;> rfl

theorem exec_bind_of_ok {a : α} (hx : exec x host = (.ok a, host')) :
    exec (x >>= f) host = exec (f a) host' := by
  rw [exec_bind, hx]

theorem exec_bind_of_error {failure : Failure} (hx : exec x host = (.error failure, host')) :
    exec (x >>= f) host = (.error failure, host') := by
  rw [exec_bind, hx]

/-- A run of two steps ends with the second one, or with a failure of the first one. -/
theorem exec_bind_cases {result : Except Failure β} (h : exec (x >>= f) host = (result, host'')) :
    (∃ a host', exec x host = (.ok a, host') ∧ exec (f a) host' = (result, host'')) ∨
      ∃ failure, exec x host = (.error failure, host'') ∧ result = .error failure := by
  rcases hx : exec x host with ⟨first, host'⟩
  cases first with
  | ok a =>
    rw [exec_bind_of_ok hx] at h
    exact .inl ⟨a, host', rfl, h⟩
  | error failure =>
    rw [exec_bind_of_error hx] at h
    obtain ⟨rfl, rfl⟩ := Prod.mk.inj h
    exact .inr ⟨failure, rfl, rfl⟩

/-- When two steps succeed, each of them does. -/
theorem exec_bind_ok {b : β} (h : exec (x >>= f) host = (.ok b, host'')) :
    ∃ a host', exec x host = (.ok a, host') ∧ exec (f a) host' = (.ok b, host'') := by
  rcases exec_bind_cases h with h | ⟨failure, _, heq⟩
  · exact h
  · exact absurd heq (by simp)

@[simp] theorem exec_map (f : α → β) (x : Build α) (host : Host) :
    exec (f <$> x) host = ((exec x host).1.map f, (exec x host).2) := by
  rw [← bind_pure_comp, exec_bind]
  rcases exec x host with ⟨result, host'⟩
  cases result <;> rfl

/-! ### Combinators -/

theorem exec_within (activity : String) (x : Build α) (host : Host) :
    exec (within activity x) host = ((exec x host).1.mapError (·.within activity), (exec x host).2) := by
  have h : exec (within activity x) host =
      match exec x host with
      | (.ok a, host') => (.ok a, host')
      | (.error failure, host') => (.error (failure.within activity), host') := by
    simp only [exec, within, ExceptT.run_mk, StateT.run_bind]
    rcases StateT.run (ExceptT.run x) host with ⟨result, host'⟩
    cases result <;> rfl
  rw [h]
  rcases exec x host with ⟨result, host'⟩
  cases result <;> rfl

theorem exec_attempt (x : Build α) (host : Host) :
    exec (attempt x) host = (.ok (exec x host).1, (exec x host).2) := rfl

/-- What follows an attempt goes on with its result. -/
theorem exec_attempt_bind (x : Build α) (f : Except Failure α → Build β) (host : Host) :
    exec (attempt x >>= f) host = exec (f (exec x host).1) (exec x host).2 := by
  rw [exec_bind, exec_attempt]

theorem exec_cleaningUp (cleanup : Files → Files) (x : Build α) (host : Host) :
    exec (cleaningUp cleanup x) host =
      match exec x host with
      | (.ok a, host') => (.ok a, host')
      | (.error failure, host') =>
        (.error failure, { host' with files := cleanup host'.files }) := by
  simp only [exec, cleaningUp, ExceptT.run_mk, StateT.run_bind]
  rcases StateT.run (ExceptT.run x) host with ⟨result, host'⟩
  cases result <;> rfl

/-! ### Operations on files -/

/-- The host with one more operation counted. -/
def counted (host : Host) : Host :=
  { host with operations := host.operations + 1 }

@[simp] theorem files_counted (host : Host) : (counted host).files = host.files := rfl

@[simp] theorem faults_counted (host : Host) : (counted host).faults = host.faults := rfl

@[simp] theorem exec_files (host : Host) : exec files host = (.ok host.files, host) := rfl

@[simp] theorem exec_asking (question : Files → α) (host : Host) :
    exec (asking question) host = (.ok (question host.files), host) := rfl

@[simp] theorem exec_files_bind (f : Files → Build β) (host : Host) :
    exec (files >>= f) host = exec (f host.files) host := rfl

@[simp] theorem exec_asking_bind (question : Files → α) (f : α → Build β) (host : Host) :
    exec (asking question >>= f) host = exec (f (question host.files)) host := rfl

@[simp] theorem exec_modify_bind (change : Host → Host) (f : PUnit → Build β) (host : Host) :
    exec ((modify change : Build PUnit) >>= f) host = exec (f ⟨⟩) (change host) := rfl

theorem exec_operation (attempt : String) (host : Host) :
    exec (operation attempt) host =
      match host.faults host.operations with
      | none => (.ok (), counted host)
      | some error => (.error (.of (.io error attempt)), counted host) := by
  simp only [operation, exec_bind, exec_get, exec_set]
  cases host.faults host.operations <;> rfl

/-- An operation that reads ends with what the files say, or with what the schedule says, and leaves
the files alone. -/
theorem exec_reading (attempt : String) (op : Files → Except IoError α) (host : Host) :
    exec (reading attempt op) host =
      (match host.faults host.operations with
        | none => (op host.files).mapError fun error => .of (.io error attempt)
        | some error => .error (.of (.io error attempt)),
      counted host) := by
  rw [reading, exec_bind, exec_operation]
  cases host.faults host.operations with
  | none =>
    simp only [exec_bind, exec_files, files_counted]
    cases op host.files <;> rfl
  | some error => rfl

/-- An operation that changes the files changes them when it succeeds, and leaves them alone when it
fails. -/
theorem exec_changing (attempt : String) (op : Files → Except IoError Files) (host : Host) :
    exec (changing attempt op) host =
      match host.faults host.operations with
      | none =>
        match op host.files with
        | .ok after => (.ok (), { counted host with files := after })
        | .error error => (.error (.of (.io error attempt)), counted host)
      | some error => (.error (.of (.io error attempt)), counted host) := by
  rw [changing, exec_bind, exec_operation]
  cases host.faults host.operations with
  | none =>
    simp only [exec_bind, exec_get, files_counted]
    cases op host.files <;> rfl
  | some error => rfl

/-! ### What every run keeps -/

/-- A relation holds between the hosts before and after every run of a build. -/
def Always (related : Host → Host → Prop) (build : Build α) : Prop :=
  ∀ ⦃host result host'⦄, exec build host = (result, host') → related host host'

/-- A relation that can be followed from step to step. -/
structure Chains (related : Host → Host → Prop) : Prop where
  refl : ∀ host, related host host
  trans : ∀ {first second third}, related first second → related second third →
    related first third

namespace Always

variable {related : Host → Host → Prop} (hchains : Chains related)

include hchains

theorem pure (a : α) : Always related (pure a : Build α) := by
  intro host result host' h
  obtain ⟨rfl, rfl⟩ := Prod.mk.inj h
  exact hchains.refl host

theorem throw (failure : Failure) : Always related (throw failure : Build α) := by
  intro host result host' h
  obtain ⟨rfl, rfl⟩ := Prod.mk.inj h
  exact hchains.refl host

theorem asking (question : Files → α) : Always related (asking question) := by
  intro host result host' h
  obtain ⟨rfl, rfl⟩ := Prod.mk.inj h
  exact hchains.refl host

theorem files : Always related files := by
  intro host result host' h
  obtain ⟨rfl, rfl⟩ := Prod.mk.inj h
  exact hchains.refl host

/-- What two steps keep is kept by one after the other. -/
theorem bind (hx : Always related x) (hf : ∀ a, Always related (f a)) :
    Always related (x >>= f) := by
  intro host result host'' h
  rcases exec_bind_cases h with ⟨a, host', hfirst, hsecond⟩ | ⟨failure, hfirst, _⟩
  · exact hchains.trans (hx hfirst) (hf a hsecond)
  · exact hx hfirst

omit hchains in
theorem within {activity : String} (hx : Always related x) : Always related (within activity x) := by
  intro host result host' h
  rw [exec_within] at h
  obtain ⟨-, rfl⟩ := Prod.mk.inj h
  exact hx rfl

omit hchains in
theorem attempt (hx : Always related x) : Always related (attempt x) := by
  intro host result host' h
  rw [exec_attempt] at h
  obtain ⟨-, rfl⟩ := Prod.mk.inj h
  exact hx rfl

end Always

end Build

end RamlBuild
