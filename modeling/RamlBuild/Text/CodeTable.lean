import RamlBuild.Text.Digits

/-!
# Tables of code points

A table tells something about ranges of code points. It is written in rows of entries with blanks
between them. An entry is a range such as `c0-de`, or a single code point, and behind an equals sign
the values of its code points: with commas between them, and in a value a plus sign between its
numbers. Where there are fewer values than code points the last one holds for the rest.

## Main definitions

* `CodeTable.ofRows` — the table that rows write
* `CodeTable.has`, `CodeTable.value?` — what it tells about a code point
-/

namespace RamlBuild.Text

/-- A range of code points with their values. -/
structure CodeRange where
  /-- The first code point. -/
  first : Nat
  /-- The last code point. -/
  last : Nat
  /-- The values, the last of which holds for all further code points. -/
  values : List (List Nat)

/-- A table of ranges. -/
abbrev CodeTable := List CodeRange

/-- The value of the `n`-th code point of a range. -/
def CodeRange.value (r : CodeRange) (n : Nat) : List Nat :=
  match r.values[n]? with
  | some value => value
  | none => r.values.getLast?.getD []

/-- The numbers of a value. -/
def numbersOfText (text : List Char) : List Nat :=
  ((text.splitOn '+').filter (!·.isEmpty)).map (valueOf 16)

/-- The range that an entry writes. -/
def CodeRange.ofText (text : List Char) : CodeRange :=
  let range := text.takeWhile (· != '=')
  let first := valueOf 16 (range.takeWhile (· != '-'))
  let last := match range.dropWhile (· != '-') with
    | [] => first
    | _ :: digits => valueOf 16 digits
  let values := match text.dropWhile (· != '=') with
    | [] => []
    | _ :: values => (values.splitOn ',').map numbersOfText
  ⟨first, last, values⟩

namespace CodeTable

/-- The table that rows write. -/
def ofRows (rows : List String) : CodeTable :=
  rows.flatMap fun row => (row.toList.splitOn ' ').map .ofText

/-- The range that a code point lies in. -/
def find? (table : CodeTable) (n : Nat) : Option CodeRange :=
  List.find? (fun r => r.first ≤ n && n ≤ r.last) table

/-- Whether a range holds the code point. -/
def has (table : CodeTable) (n : Nat) : Bool :=
  (table.find? n).isSome

/-- The value of a code point. -/
def value? (table : CodeTable) (n : Nat) : Option (List Nat) :=
  (table.find? n).map fun r => r.value (n - r.first)

end CodeTable

end RamlBuild.Text
