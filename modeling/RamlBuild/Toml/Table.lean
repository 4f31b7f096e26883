/-!
# Tables of a configuration

A configuration is a table of named values in the order in which they were written. Tables come
about in several ways: under a header of their own, as a part of the path of a header or of a dotted
name, or in braces. Where a table came from tells how it may grow: a header opens a table once, and
one that only was a part of another header's path may still be opened; a dotted name adds to tables
that come from dotted names; a table in braces is complete.

## Main definitions

* `Toml`, `Toml.Fields` — values and tables
* `Toml.insert?` — a table with one more value under a dotted name
* `Toml.open?`, `Toml.addRow?` — a table with one more table under a header
* `Toml.modify?` — a table with the one at a path changed
-/

namespace RamlBuild

/-- Where a table comes from. -/
inductive TableOrigin where
  /-- It has a header. -/
  | header
  /-- It is a part of the path of a header. -/
  | path
  /-- It is a part of a dotted name. -/
  | dotted
  /-- It stands in braces. -/
  | braces
  deriving DecidableEq, Repr

/-- A value of a configuration. -/
inductive Toml where
  /-- A text. -/
  | string (text : String)
  /-- A truth value. -/
  | bool (value : Bool)
  /-- A number. -/
  | number
  /-- A date, a time or both. -/
  | moment
  /-- A list of values in brackets. -/
  | array (items : List Toml)
  /-- A table. -/
  | table (origin : TableOrigin) (fields : List (String × Toml))
  /-- The tables of a repeated header. -/
  | rows (tables : List (List (String × Toml)))
  deriving Repr, Inhabited

namespace Toml

/-- The named values of a table. -/
abbrev Fields := List (String × Toml)

/-- The table with another value under a name that it has. -/
def replace (fields : Fields) (name : String) (value : Toml) : Fields :=
  fields.map fun (n, v) => if n == name then (n, value) else (n, v)

/-- The table with one more value under a new name, reached by the path of a dotted name. -/
def insert? (name : String) (value : Toml) : (path : List String) → Fields → Option Fields
  | [], fields => if (fields.lookup name).isSome then none else some (fields ++ [(name, value)])
  | step :: rest, fields =>
    match fields.lookup step with
    | none => do
      let inner ← insert? name value rest []
      some (fields ++ [(step, .table .dotted inner)])
    | some (.table .dotted inner) => do
      some (replace fields step (.table .dotted (← insert? name value rest inner)))
    | some (.table .path inner) =>
      -- Names are added to the tables on its path, but not to such a table itself.
      if rest.isEmpty then none
      else do some (replace fields step (.table .path (← insert? name value rest inner)))
    | some (.rows tables) =>
      match rest, tables.getLast? with
      | _ :: _, some last => do
        some (replace fields step (.rows (tables.dropLast ++ [← insert? name value rest last])))
      | _, _ => none
    | some _ => none

/-- The table with the one at a path changed. What a header of the path has not opened yet is made;
of the tables of a repeated header, the last one is meant. -/
def modify? (change : Fields → Option Fields) : (path : List String) → Fields → Option Fields
  | [], fields => change fields
  | step :: rest, fields =>
    match fields.lookup step with
    | none => do some (fields ++ [(step, .table .path (← modify? change rest []))])
    | some (.table .braces _) => none
    | some (.table origin inner) => do
      some (replace fields step (.table origin (← modify? change rest inner)))
    | some (.rows tables) =>
      match tables.getLast? with
      | some last => do
        some (replace fields step (.rows (tables.dropLast ++ [← modify? change rest last])))
      | none => none
    | some _ => none

/-- The table with one more table that a header opens. -/
def open? (name : String) (fields : Fields) : Option Fields :=
  match fields.lookup name with
  | none => some (fields ++ [(name, .table .header [])])
  | some (.table .path inner) =>
    -- A table that is opened late counts as written here.
    some (fields.filter (·.1 != name) ++ [(name, .table .header inner)])
  | some _ => none

/-- The table with one more table of a repeated header. -/
def addRow? (name : String) (fields : Fields) : Option Fields :=
  match fields.lookup name with
  | none => some (fields ++ [(name, .rows [[]])])
  | some (.rows tables) => some (replace fields name (.rows (tables ++ [[]])))
  | some _ => none

end Toml

end RamlBuild
