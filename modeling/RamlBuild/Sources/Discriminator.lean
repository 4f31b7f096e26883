import RamlBuild.Text.Lines
import RamlBuild.Text.Search

/-!
# Typed discriminators

A polymorphic model interface declares the name of its type as a string literal, also where the
discriminator property is an enum; the implementation's field carries the real type. The literal is
exchanged for the constant of that enum, or for `null` on the type that is itself the root.

## Main definitions

* `hasDiscriminatorLiteral` — whether an interface declares such a literal
* `discriminatorType?` — the type that an implementation declares
* `patchDiscriminator` — the interface with its declaration typed
-/

namespace RamlBuild

open Text

/-- How the declaration of a literal discriminator begins. -/
def discriminatorLiteral : String := "  String _DISCRIMINATOR_TYPE_NAME = \""

/-- How the declaration of an implementation's field begins. -/
def discriminatorField : String := "  private final "

/-- How the declaration of an implementation's discriminator field ends. -/
def discriminatorFieldEnd : String := "_DISCRIMINATOR_TYPE_NAME;"

/-- Works on the first line that satisfies `p`. -/
def mapFirst (p : Line → Bool) (f : Line → Line) : List Line → List Line
  | [] => []
  | line :: rest => if p line then f line :: rest else line :: mapFirst p f rest

/-- Lines up to and with the first one that satisfies `p`, and the lines after it. -/
def splitAfter (p : Line → Bool) : List Line → List Line × List Line
  | [] => ([], [])
  | line :: rest =>
    if p line then ([line], rest)
    else
      let (before, after) := splitAfter p rest
      (line :: before, after)

/-- A line that opens a public interface. -/
def opensInterface (line : Line) : Bool :=
  startsWith "public interface" line

/-- Whether a source declares a public interface. -/
def declaresInterface (source : String) : Bool :=
  (lines source).any opensInterface

/-- Whether the body of the interface declares a literal discriminator. -/
def hasDiscriminatorLiteral (source : String) : Bool :=
  (splitAfter opensInterface (lines source)).2.any (startsWith discriminatorLiteral)

/-- The type of the discriminator field in the body of an implementation: the first word of its
declaration. -/
def discriminatorType? (source : String) : Option (List Char) := do
  let (_, body) := splitAfter (startsWith "public class") (lines source)
  let field ← body.find? fun line =>
    startsWith discriminatorField line && endsWith discriminatorFieldEnd line
  match beforeFirst ' ' (field.drop discriminatorField.length) with
  | [] => none
  | type => some type

/-- The builtin types. -/
def builtinTypes : List String :=
  ["String", "Byte", "Short", "Integer", "Long", "Float", "Double",
    "byte", "short", "int", "long", "float", "double"]

/-- Whether the type of a discriminator is an enum rather than a builtin. Every name longer than
seven bytes counts as one. -/
def isCustomType (type : String) : Bool :=
  -- The longest builtin has seven bytes.
  type.utf8ByteSize > 7 || !builtinTypes.contains type

/-- An ASCII letter, a digit or an underscore. -/
def isAsciiWordChar (c : Char) : Bool :=
  c.isAlphanum || c == '_'

/-- The constant of an enum for a value. -/
def enumConstant (type value : List Char) : List Char :=
  type ++ '.' :: (value.filter isAsciiWordChar).map Char.toUpper

/-- The declaration that takes the place of a literal one. -/
def typedDiscriminator (type interface : List Char) (line : Line) : Line :=
  let literal := line.drop discriminatorLiteral.length
  -- The literal ends at its last quote; without one the rest of the line is taken.
  let value := ((beforeLast? '"' literal).getD literal).filter (· != '_')
  let assigned := if value = interface then "null".toList else enumConstant type value
  "  ".toList ++ type ++ " _DISCRIMINATOR_TYPE_NAME = ".toList ++ assigned ++ [';']

/-- The source of an interface with its first literal discriminator typed. A source without one is
kept as it is. -/
def patchDiscriminator (type interface : List Char) (source : String) : String :=
  if hasDiscriminatorLiteral source then
    let (head, body) := splitAfter opensInterface (lines source)
    let patched :=
      mapFirst (startsWith discriminatorLiteral) (typedDiscriminator type interface) body
    ofLines (head ++ patched)
  else
    source

end RamlBuild
