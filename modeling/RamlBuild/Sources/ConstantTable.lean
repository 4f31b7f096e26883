import RamlBuild.Sources.ConstantName
import RamlBuild.Text.Order

/-!
# Tables of constants

A table gives each value an identifier of its own: its name and a fixed ending, with a number
between them when that identifier is taken. Identifiers are handed out in the order of the values,
and every one handed out is taken from then on, for later tables too.

## Main definitions

* `identifier` — the candidates for a name, in the order they are tried
* `ConstantTable.build` — the table for a list of values
* `ConstantTable.get?` — the identifier of a value
-/

namespace RamlBuild

/-- Values with the identifiers of their constants, in the order of the values. -/
structure ConstantTable where
  /-- Each value with its identifier. -/
  entries : List (List Char × List Char)
  deriving DecidableEq, Repr

/-- The candidates for a name: at first the name alone, then with the numbers from 2 on. -/
def identifier (name ending : List Char) : Nat → List Char
  | 0 => name ++ ending
  | n + 1 => name ++ '_' :: Nat.toDigits 10 (n + 2) ++ ending

/-- The first candidate from the `n`-th on that is not taken. Among one more candidates than there
are taken identifiers one is free, so that many tries are enough. -/
def freeIdentifierFrom (taken : List (List Char)) (name ending : List Char) (n : Nat) :
    (tries : Nat) → List Char
  | 0 => identifier name ending n
  | tries + 1 =>
    if identifier name ending n ∈ taken then
      freeIdentifierFrom taken name ending (n + 1) tries
    else
      identifier name ending n

/-- The first candidate for a name that is not taken. -/
def freeIdentifier (taken : List (List Char)) (name ending : List Char) : List Char :=
  freeIdentifierFrom taken name ending 0 taken.length

namespace ConstantTable

/-- Hands out the identifiers for values in the order given, leaving out those without a name. -/
def assign (ending : List Char) (taken : List (List Char)) :
    List (List Char) → List (List Char × List Char) × List (List Char)
  | [] => ([], taken)
  | value :: rest =>
    match constantName value with
    | [] => assign ending taken rest
    | name =>
      let ident := freeIdentifier taken name ending
      let (entries, taken) := assign ending (Text.insertOrdered ident taken) rest
      ((value, ident) :: entries, taken)

/-- The table for the distinct values of a list, and the identifiers taken after it. -/
def build (values : List (List Char)) (ending : List Char) (taken : List (List Char)) :
    ConstantTable × List (List Char) :=
  let (entries, taken) := assign ending taken (Text.ordered values)
  (⟨entries⟩, taken)

/-- The table for the distinct values of a list, with nothing taken before and no ending. -/
def ofValues (values : List (List Char)) : ConstantTable :=
  (build values [] []).1

/-- The identifier of a value. -/
def get? (table : ConstantTable) (value : List Char) : Option (List Char) :=
  table.entries.lookup value

/-- The number of constants. -/
def size (table : ConstantTable) : Nat :=
  table.entries.length

/-- Whether there are no constants. -/
def isEmpty (table : ConstantTable) : Bool :=
  table.entries.isEmpty

end ConstantTable

end RamlBuild
