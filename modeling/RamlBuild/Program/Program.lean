import RamlBuild.Files.Tree

/-!
# Programs

A program runs in a directory of a file tree. It may change the tree, writes to two streams and ends
with a status or by a signal.
-/

namespace RamlBuild

/-- How a program ends. -/
inductive Ending where
  /-- With a status; zero is success. -/
  | exited (status : Nat)
  /-- By a signal. -/
  | killed
  deriving DecidableEq, Repr

/-- What a program leaves behind. -/
structure Outcome where
  /-- The file tree after the run. -/
  files : Files
  /-- What it wrote to its output stream. -/
  stdout : ByteArray
  /-- What it wrote to its error stream. -/
  stderr : ByteArray
  /-- How it ended. -/
  ending : Ending

/-- A program that can be run. -/
structure Program where
  /-- Its name. -/
  name : String
  /-- A run with the given arguments, in the working directory of the given files. -/
  run : List String → Files → Outcome

/-- A program that was run. -/
structure Call where
  /-- The name of the program. -/
  program : String
  /-- Its arguments. -/
  arguments : List String
  /-- The directory it ran in. -/
  directory : Path
  deriving DecidableEq, Repr

end RamlBuild
