/-!
# JSON values

A JSON value as a tree. Objects keep the order of their fields and any repeated ones; numbers keep
the text they are written in. A string can be written that denotes no text, with half of a pair of
code units or with bytes that are not UTF-8; as long as nobody asks for it the value is sound.
-/

namespace RamlBuild

/-- A JSON value. -/
inductive Json where
  /-- The null value. -/
  | null
  /-- A truth value. -/
  | bool (value : Bool)
  /-- A number, as it is written. -/
  | number (text : String)
  /-- A string. -/
  | string (text : String)
  /-- A string that denotes no text. -/
  | illegible
  /-- A list of values. -/
  | array (items : List Json)
  /-- Named values. -/
  | object (fields : List (String × Json))
  /-- Named values, with a name among them that denotes no text. -/
  | misnamed
  deriving Repr, Inhabited

namespace Json

/-- A natural number. -/
def nat (n : Nat) : Json := .number (toString n)

/-- A list of strings. -/
def strings (texts : List String) : Json := .array (texts.map .string)

/-- A value that may be missing, which is null then. -/
def ofOption {α : Type} (f : α → Json) : Option α → Json
  | some a => f a
  | none => .null

/-- The text of a string. -/
def text? : Json → Option String
  | string text => some text
  | _ => none

/-- The value of a field that may be missing, but not be given twice. -/
def field? (name : String) (fields : List (String × Json)) : Option (Option Json) :=
  match fields.filter (·.1 == name) with
  | [] => some none
  | [(_, value)] => some (some value)
  | _ => none

end Json

end RamlBuild
