import RamlBuild.Program.ProjectBuild
import RamlBuild.Text.Word

/-!
# Snapshot versions

A checkout of a release may still name the version that was under development in its project
descriptions: three numbers, separated by dots and followed by a mark. They are pinned to the
version that was checked out, in the descriptions of the project and of its modules.

## Main definitions

* `Text.afterSnapshot?` — what follows a snapshot version
* `pinSnapshots` — a text with its snapshot versions pinned
* `pinProject` — a checkout with its project descriptions pinned
-/

namespace RamlBuild

namespace Text

/-- What follows the number that a text begins with. -/
def afterNumber? (text : List Char) : Option (List Char) :=
  (takeRun? isDecimalDigit text).map (·.2)

/-- What follows the snapshot version that a text begins with. -/
def afterSnapshot? (text : List Char) : Option (List Char) := do
  let text ← after? ['.'] (← afterNumber? text)
  let text ← after? ['.'] (← afterNumber? text)
  after? "-SNAPSHOT".toList (← afterNumber? text)

theorem length_le_of_afterNumber? {text rest : List Char} (h : afterNumber? text = some rest) :
    rest.length ≤ text.length := by
  simp only [afterNumber?, takeRun?] at h
  split at h
  · simp at h
  · simp only [Option.map_some, Option.some.injEq] at h
    rw [← h]
    exact (List.dropWhile_suffix _).length_le

theorem length_eq_of_after? {start text rest : List Char} (h : after? start text = some rest) :
    text.length = start.length + rest.length := by
  rw [eq_append_of_after? h, List.length_append]

/-- A snapshot version is not empty. -/
theorem length_lt_of_afterSnapshot? {text rest : List Char} (h : afterSnapshot? text = some rest) :
    rest.length < text.length := by
  simp only [afterSnapshot?, Option.bind_eq_bind, Option.bind_eq_some_iff] at h
  obtain ⟨u₁, hu₁, t₁, ht₁, u₂, hu₂, t₂, ht₂, u₃, hu₃, hr⟩ := h
  have h₁ := length_le_of_afterNumber? hu₁
  have h₂ := length_le_of_afterNumber? hu₂
  have h₃ := length_le_of_afterNumber? hu₃
  have e₁ := length_eq_of_after? ht₁
  have e₂ := length_eq_of_after? ht₂
  have e₃ := length_eq_of_after? hr
  simp only [List.length_cons, List.length_nil] at e₁ e₂
  omega

/-- A text with its snapshot versions replaced. -/
def replaceSnapshots (version : List Char) (text : List Char) : List Char :=
  match text with
  | [] => []
  | c :: rest =>
    match _h : afterSnapshot? (c :: rest) with
    | some after => version ++ replaceSnapshots version after
    | none => c :: replaceSnapshots version rest
termination_by text.length
decreasing_by
  · exact length_lt_of_afterSnapshot? _h
  · exact Nat.lt_succ_self _

end Text

/-- A text with its snapshot versions pinned. -/
def pinSnapshots (version text : String) : String :=
  String.ofList (Text.replaceSnapshots version.toList text.toList)

/-- The name of a project description. -/
def descriptionName : String := "pom.xml"

/-- A directory whose entries are not modules of a project. -/
def isForeign (directory : String) : Bool :=
  directory == "src" || Text.startsWith "." directory.toList

/-- The names that lead to a project description: they end in its name, and no directory on the way
is foreign. -/
def leadsToDescription (root : Path) (names : Location) : Bool :=
  match names.getLast? with
  | some name => name == descriptionName && !names.dropLast.any isForeign
  | none => root.fileName? == some descriptionName

/-- The project descriptions of a checkout, in the order of their names. -/
def projectDescriptions (checkout : Path) : Build (List Path) := do
  let found := (← walk checkout).filter fun (names, e) =>
    e.isFile && leadsToDescription checkout names
  pure (found.map fun (names, _) => checkout.descend names)

/-- Pins the snapshot versions in the project descriptions of a checkout; the ones that changed. -/
def pinProject (checkout : Path) (version : String) : Build (List Path) := do
  Build.rewriteAll (fun _ text => .ok (pinSnapshots version text)) (← projectDescriptions checkout)

end RamlBuild
