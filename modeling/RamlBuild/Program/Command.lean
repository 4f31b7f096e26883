import RamlBuild.Build.Files
import RamlBuild.Text.Lossy

/-!
# Commands

A command is a program with its arguments, the directory it runs in, and where its two streams go.
It runs to its end; a program that ends with another status than zero has failed.

## Main definitions

* `Redirect`, `Command` — what to run, and where its output goes
* `Command.line` — the command as it is written
* `Command.run` — runs it, and gives what was captured
* `findProgram` — the path of a program
-/

namespace RamlBuild

open Build

/-- Where a stream of a program goes. -/
inductive Redirect where
  /-- To the same place as the streams of the build. -/
  | inherit
  /-- Nowhere. -/
  | discard
  /-- Back to the caller. -/
  | capture
  /-- To a file, whose directory is made where it is missing. -/
  | file (path : Path)
  deriving DecidableEq, Repr

/-- A program to run. -/
structure Command where
  /-- The program, by its name or path. -/
  program : String
  /-- The arguments. -/
  arguments : List String
  /-- The directory to run in, unless it is the working directory. -/
  directory : Option Path
  /-- Where the output goes. -/
  stdout : Redirect
  /-- Where the errors go. -/
  stderr : Redirect
  deriving DecidableEq, Repr

/-- What was captured from a program. -/
structure Captured where
  /-- The captured output. -/
  stdout : String
  /-- The captured errors. -/
  stderr : String
  deriving DecidableEq, Repr

namespace Command

/-- A command in the working directory. Its output goes where that of the build goes, its errors are
captured to tell why it failed. -/
def of (program : String) (arguments : List String) : Command :=
  ⟨program, arguments, none, .inherit, .capture⟩

/-- The command as it is written, its parts joined by blanks. -/
def line (cmd : Command) : String :=
  " ".intercalate (cmd.program :: cmd.arguments)

/-- The program of an executable file. -/
def executable (host : Host) (fs : Files) (p : Path) : Except IoError Program :=
  match fs.stat p with
  | .error error => .error error
  | .ok (_, .file contents mode shared) =>
    if (Entry.file contents mode shared).permits .enter then
      match host.programOf contents with
      | some program => .ok program
      | none => .error .notExecutable
    else .error .permissionDenied
  | .ok _ => .error .permissionDenied

/-- The first program of a name in some directories. One that may not be run is passed over, and
told only when no other is found. -/
def search (host : Host) (fs : Files) (name : String) (denied : Bool) :
    List Path → Except IoError Program
  | [] => .error (if denied then .permissionDenied else .notFound)
  | dir :: rest =>
    match executable host fs (dir / name) with
    | .ok program => .ok program
    -- What is in the way does not end the search, other defects do.
    | .error .permissionDenied => search host fs name true rest
    | .error .notFound => search host fs name denied rest
    | .error .notDirectory => search host fs name denied rest
    | .error error => .error error

/-- The files as a program sees them that runs in a directory. -/
def enter (fs : Files) : Option Path → Except IoError Files
  | none => .ok fs
  | some dir =>
    match fs.stat dir with
    | .ok (loc, .directory mode) =>
      if (Entry.directory mode).permits .enter then .ok { fs with workingDirectory := loc }
      else .error .permissionDenied
    | .ok _ => .error .notDirectory
    | .error error => .error error

/-- Whether a null character is among what a program would be handed. None can be handed over. -/
def holdsNull (cmd : Command) : Bool :=
  (cmd.program :: cmd.arguments ++ (cmd.directory.map Path.text).toList).any
    (·.toList.contains '\x00')

/-- The program of a command, and the files as it sees them. A name with a slash is a path from the
directory of the command. -/
def locate (host : Host) (cmd : Command) : Except IoError (Program × Files) := do
  if cmd.holdsNull then .error .invalidInput
  let fs ← enter host.files cmd.directory
  if cmd.program.isEmpty then .error .notFound
  else if cmd.program.toList.contains '/' then .ok (← executable host fs ⟨cmd.program⟩, fs)
  else .ok (← search host fs cmd.program false host.searchPath, fs)

/-- Runs a program, which may change the files, and records it. -/
def spawn (cmd : Command) : Build Outcome := do
  let host ← get
  match locate host cmd with
  | .error error => fail (.io error s!"spawning {cmd.program}")
  | .ok (program, fs) =>
    let outcome := program.run cmd.arguments fs
    let call : Call := ⟨program.name, cmd.arguments, fs.workingDirectory.path⟩
    set { host with
      files := { outcome.files with workingDirectory := host.files.workingDirectory }
      calls := host.calls ++ [call] }
    pure outcome

/-- Empties a stream into the place it goes to; what was captured of it. `shared` says what happens
to a stream that goes where those of the build go. -/
def drain (redirect : Redirect) (shared : ByteArray → Build Unit) (bytes : ByteArray) :
    Build ByteArray :=
  match redirect with
  | .inherit => do
    shared bytes
    pure .empty
  | .discard => pure .empty
  | .capture => pure bytes
  | .file p => do
    match p.parent? with
    | some parent => createDirectories parent
    | none => pure ()
    writeBytes p bytes
    pure .empty

/-- Runs a command to its end, and gives what was captured. Both streams are emptied, whatever
becomes of the other one. A stream that cannot be written is told before a status other than zero.
-/
def run (cmd : Command) : Build Captured := do
  let outcome ← within s!"spawning {cmd.program}" (spawn cmd)
  let out ← attempt (drain cmd.stdout write outcome.stdout)
  let err ← attempt (drain cmd.stderr (fun _ => pure ()) outcome.stderr)
  let captured : Captured := ⟨Text.decodeLossy (← out), Text.decodeLossy (← err)⟩
  match outcome.ending with
  | .exited 0 => pure captured
  | .exited code => fail (.exit ⟨cmd.program, some code, captured.stderr⟩)
  | .killed => fail (.exit ⟨cmd.program, none, captured.stderr⟩)

end Command

/-- Whether a path leads to an executable file. -/
def Files.isExecutable (fs : Files) (p : Path) : Bool :=
  match fs.stat p with
  | .ok (_, e) => e.isFile && e.permits .enter
  | .error _ => false

/-- The path of a program: a name is looked for on the search path, a path of several components is
taken from the working directory. -/
def findProgram (program : String) : Build (Option Path) := do
  let host ← get
  let candidates : List Path :=
    if 1 < (Path.mk program).components.length then
      [host.files.workingDirectory.path / program]
    else host.searchPath.map (· / program)
  pure (candidates.find? host.files.isExecutable)

end RamlBuild
