import RamlBuild.Sources.ConstantTable
import RamlBuild.Sources.ShapeError
import RamlBuild.Text.Blank
import RamlBuild.Text.Lines

/-!
# Paths of a resource

A resource declares its root path, and the paths of its methods below it. Both hold variables in
braces. Each of them gets a constant at the top of the resource.

## Main definitions

* `pathVariables` — the variables of a path
* `ResourcePaths.scan` — the paths and variables of a resource
* `ResourcePaths.constants` — the declarations for them
* `injectUrlConstants` — the source with the declarations in place
-/

namespace RamlBuild

open Text

/-- What a resource declares about its paths. -/
structure ResourcePaths where
  /-- The root path. -/
  root : List Char
  /-- The paths of the methods, below the root. -/
  subPaths : List (List Char)
  /-- The variables of all these paths. -/
  params : List (List Char)
  /-- The number of lines up to and with the declaration of the resource. -/
  insertAt : Nat
  deriving DecidableEq, Repr

/-- The texts between a brace and the next closing one, if there is any text between them. -/
def bracedParts (path : List Char) : List (List Char) :=
  match path with
  | [] => []
  | c :: rest =>
    if c = '\x7b' then
      match rest.takeWhile (· != '\x7d'), rest.dropWhile (· != '\x7d') with
      -- An empty part, or one that is not closed, may still hold another opening brace.
      | [], _ => bracedParts rest
      | _, [] => bracedParts rest
      | part, _ :: _ => part :: bracedParts (rest.drop (part.length + 1))
    else
      bracedParts rest
termination_by path.length
decreasing_by all_goals simp only [List.length_cons, List.length_drop]; omega

/-- The variables of a path: each braced part up to a colon, without the blanks around it. -/
def pathVariables (path : List Char) : List (List Char) :=
  ((bracedParts path).map fun part => trim (beforeFirst ':' part)).filter (!·.isEmpty)

/-- The path of a method on a line. -/
def subPath? (line : Line) : Option (List Char) := do
  let rest ← after? "  @Path(\"".toList line
  match rest.takeWhile (· != '"') with
  | [] => none
  | path => if rest.drop path.length = "\")".toList then some path else none

/-- The lines after the first one that satisfies `p`, all dropped when there is none. -/
def dropThrough (p : Line → Bool) (ls : List Line) : List Line :=
  (ls.dropWhile (!p ·)).drop 1

namespace ResourcePaths

/-- The paths of a resource: its root on the first line that declares one, then its declaration,
then the paths of its methods up to the first response class. -/
def scan (source : String) (file : Path) : Except ShapeError ResourcePaths :=
  let ls := lines source
  match ls.findSome? (after? "@Path(\"".toList) with
  | none => .error (.missingRootPath file)
  | some rest =>
    let root := beforeFirst '"' rest
    -- The declaration is looked for behind the root path, so another public line before it does not
    -- count.
    let body := dropThrough (startsWith "public ") (dropThrough (startsWith "@Path(\"") ls)
    let isResponse := fun line => (subPath? line).isNone && startsWith "  class" line
    if body.any isResponse then
      let subPaths := (body.takeWhile (!isResponse ·)).filterMap subPath?
      .ok {
        root
        subPaths := ordered subPaths
        params := ordered ((root :: subPaths).flatMap pathVariables)
        insertAt := ls.length - body.length }
    else
      .error (.missingResponseClasses file)

/-- The name of the constant for the root path. -/
def rootConstant : List Char := "ROOT_PATH".toList

/-- How the declaration of the root constant begins. -/
def rootMarker : List Char := "  String ".toList ++ rootConstant ++ " = ".toList

/-- The declarations for the paths and variables of a resource, a blank line after each. -/
def constants (paths : ResourcePaths) : List Line :=
  let (subPaths, taken) := ConstantTable.build paths.subPaths "_PATH".toList [rootConstant]
  -- A variable gives way to a path that has the same name.
  let (params, _) := ConstantTable.build paths.params "_VAR".toList taken
  [rootMarker ++ '"' :: paths.root ++ "\";".toList, []] ++
  subPaths.entries.flatMap (fun (path, name) =>
    ["  String ".toList ++ name ++ " = ".toList ++ rootConstant ++ " + \"".toList ++ path ++
      "\";".toList, []]) ++
  params.entries.flatMap (fun (param, name) =>
    ["  String ".toList ++ name ++ " = \"".toList ++ param ++ "\";".toList, []])

end ResourcePaths

/-- The source with the constants for its paths after its declaration. A source that has them is
kept as it is. -/
def injectUrlConstants (source : String) (file : Path) : Except ShapeError String :=
  let ls := lines source
  if ls.any ResourcePaths.rootMarker.isPrefixOf then .ok source
  else do
    let paths ← ResourcePaths.scan source file
    .ok (ofLines (ls.take paths.insertAt ++ paths.constants ++ ls.drop paths.insertAt))

end RamlBuild
