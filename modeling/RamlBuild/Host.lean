import RamlBuild.Failure
import RamlBuild.Files.Operation
import RamlBuild.Program.Program
import RamlBuild.Web.Exchange

/-!
# Hosts and builds

A build runs on a host: files, programs, a network and an environment. It works step by step, keeps
what a step did when a later one fails, and leaves a record of programs, requests and output.

Operations on files can fail for reasons of the host. Its fault schedule says which ones do, by
their number; everything that holds for every schedule holds whichever operation fails.

## Main definitions

* `Host` — what a build runs on, and the record so far
* `Build` — a computation on a host that may fail
* `Build.within` — a build as an activity that a failure tells
* `Build.cleaningUp` — a build that tidies up when it fails
* `Build.reading`, `Build.changing` — single operations on the files of the host
-/

namespace RamlBuild

/-- What a build runs on. -/
structure Host where
  /-- The files. -/
  files : Files
  /-- Which operations on files fail, by their number. -/
  faults : Nat → Option IoError
  /-- The number of operations on files so far. -/
  operations : Nat
  /-- The directories that programs are looked for in. -/
  searchPath : List Path
  /-- The program that the contents of an executable file stand for. -/
  programOf : ByteArray → Option Program
  /-- The answer of the network to a request for an address that it can reach. -/
  network : Url → Option Response
  /-- The environment variables. -/
  environment : List (String × String)
  /-- The operating system. -/
  system : String
  /-- The current time, as it is written. -/
  now : String
  /-- The programs that were run. -/
  calls : List Call
  /-- The requests that were made. -/
  requests : List Request
  /-- What was written to the output. -/
  output : ByteArray

/-- A computation on a host that may fail. What was done before a failure stays done. -/
abbrev Build := ExceptT Failure (StateM Host)

namespace Build

/-- Fails for a cause. -/
def fail {α : Type} (cause : Cause) : Build α :=
  throw (Failure.of cause)

/-- Fails with a text. -/
def failWith {α : Type} (text : String) : Build α :=
  throw (Failure.told text)

/-- The build as an activity that a failure tells. -/
def within {α : Type} (activity : String) (build : Build α) : Build α :=
  ExceptT.mk do
    match ← build.run with
    | .ok a => pure (.ok a)
    | .error failure => pure (.error (failure.within activity))

/-- The build; when it fails, the files are cleaned up, which always succeeds. -/
def cleaningUp {α : Type} (cleanup : Files → Files) (build : Build α) : Build α :=
  ExceptT.mk do
    match ← build.run with
    | .ok a => pure (.ok a)
    | .error failure =>
      modify fun host => { host with files := cleanup host.files }
      pure (.error failure)

/-- The result of a build, or its failure. -/
def attempt {α : Type} (build : Build α) : Build (Except Failure α) :=
  ExceptT.mk do pure (.ok (← build.run))

/-- Counts one more operation on files, which fails when the schedule says so. -/
def operation (attempt : String) : Build Unit := do
  let host ← get
  set { host with operations := host.operations + 1 }
  match host.faults host.operations with
  | none => pure ()
  | some error => fail (.io error attempt)

/-- The files as they are. -/
def files : Build Files := do
  pure (← get).files

/-- Asks the files; an answer is always there. -/
def asking {α : Type} (question : Files → α) : Build α := do
  pure (question (← files))

/-- One operation that reads the files. -/
def reading {α : Type} (attempt : String) (op : Files → Except IoError α) : Build α := do
  operation attempt
  match op (← files) with
  | .ok a => pure a
  | .error error => fail (.io error attempt)

/-- One operation that changes the files. -/
def changing (attempt : String) (op : Files → Except IoError Files) : Build Unit := do
  operation attempt
  let host ← get
  match op host.files with
  | .ok after => set { host with files := after }
  | .error error => fail (.io error attempt)

/-- Writes to the output. -/
def write (bytes : ByteArray) : Build Unit :=
  modify fun host => { host with output := host.output ++ bytes }

/-- Writes a line to the output. -/
def printLine (line : String) : Build Unit :=
  write (line ++ "\n").toUTF8

end Build

end RamlBuild
