import RamlBuild.Program.Command
import RamlBuild.Text.Search

/-!
# Project builds and container images

A repository is checked out by `git` into a directory named for its address. A project is built by
`mvn`, which leaves its artifacts in output directories anywhere below it. An image is built by
`docker` from a context directory.

## Main definitions

* `checkout` — checks a repository out
* `buildProject` — builds a project from scratch
* `findArtifacts` — the files of a given ending in output directories
* `ContainerBuild`, `ContainerBuild.run` — an image, and building it
* `checkContainerAccess` — asks whether containers can be built
-/

namespace RamlBuild

open Build

/-- What to check out of a repository. -/
structure CheckoutOptions where
  /-- How many steps of its history. -/
  depth : Option Nat
  /-- The branch or tag. -/
  branch : Option String
  deriving DecidableEq, Repr

/-- A branch or tag without its history. -/
def CheckoutOptions.shallow (branch : String) : CheckoutOptions :=
  ⟨some 1, some branch⟩

/-- The directory that a repository is checked out into: the last name of its address, without the
ending `.git`. -/
def checkoutName (url : String) : String :=
  let last := Text.afterLast '/' (Text.dropAtEnd '/' url.toList)
  String.ofList (if Text.endsWith ".git" last then last.take (last.length - 4) else last)

/-- The command that checks a repository out in a directory. -/
def checkoutCommand (url : String) (parent : Path) (options : CheckoutOptions) : Command :=
  let depth := options.depth.toList.flatMap fun n => ["--depth", toString n]
  let branch := options.branch.toList.flatMap fun name => ["--branch", name]
  { Command.of "git" (["clone", "--quiet"] ++ depth ++ branch ++ [url]) with
    directory := some parent }

/-- Checks a repository out in a directory; the new checkout. -/
def checkout (url : String) (parent : Path) (options : CheckoutOptions) : Build Path := do
  let _ ← (checkoutCommand url parent options).run
  pure (parent / checkoutName url)

/-- Builds a project from scratch. -/
def buildProject (project : Path) : Build Unit := do
  let _ ← Command.run
    { Command.of "mvn" ["clean", "install", "--quiet"] with directory := some project }

/-- The entries at and below a path, itself first, then parents before their entries and siblings by
name. Each comes with the names that lead to it. Links are not followed, but for the path itself. -/
def Files.tree (fs : Files) (root : Path) : Except IoError (List (Location × Entry)) := do
  let own ← fs.entryAt (← fs.place root)
  match ← fs.stat root with
  | (loc, .directory mode) =>
    let inner := fs.below loc
    if (.directory mode :: inner.map (·.2)).all fun e => !e.isDirectory || e.permits .read then
      .ok (([], own) :: inner)
    else .error .permissionDenied
  | _ => .ok [([], own)]

/-- The entries at and below a path with their paths. -/
def walk (root : Path) : Build (List (Location × Entry)) :=
  within s!"walking {root}" (reading s!"failed to read directory `{root}`" (·.tree root))

/-- Whether a path's own directory has a name. -/
def Path.isIn (p : Path) (directoryName : String) : Bool :=
  match p.parent? with
  | some parent => parent.fileName? == some directoryName
  | none => false

/-- The files at or below a path whose directory has a name and whose path has an ending, in the
order of their paths. -/
def findArtifacts (root : Path) (outputDir ending : String) : Build (List Path) := do
  let files := (← walk root).filter (·.2.isFile)
  pure ((files.map fun (names, _) => root.descend names).filter fun p =>
    p.isIn outputDir && p.endsWith ending)

/-! ### Container images -/

/-- An image to build. -/
structure ContainerBuild where
  /-- The directory that the image is built from. -/
  context : Path
  /-- The file that describes the image, below the context. -/
  dockerfile : String
  /-- The name of the image. -/
  image : String
  /-- Values that the description asks for. -/
  buildArguments : List (String × String)
  /-- More arguments. -/
  extraArguments : List String
  deriving DecidableEq, Repr

namespace ContainerBuild

/-- The command that builds the image. -/
def command (build : ContainerBuild) : Command :=
  let values := build.buildArguments.map fun (key, value) => s!"--build-arg={key}={value}"
  { Command.of "docker"
      (["build", "--no-cache", "--file", (build.context / build.dockerfile).text, "--tag",
        build.image] ++ values ++ build.extraArguments ++ [build.context.text]) with
    stderr := .inherit }

/-- Builds the image. -/
def run (build : ContainerBuild) : Build Unit := do
  let _ ← within s!"building image {build.image}" build.command.run

end ContainerBuild

/-- Fails unless containers can be built. -/
def checkContainerAccess : Build Unit := do
  let _ ← within
    "docker is not reachable; is the daemon running and is this user allowed to use it?"
    (Command.run { Command.of "docker" ["ps"] with stdout := .discard })

end RamlBuild
