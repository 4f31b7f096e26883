import RamlBuild.Web.Domain
import RamlBuild.Web.NumericHost

/-!
# Names of hosts

A host is named by a domain name or by a numeric address. In its written form a domain name is ASCII
in lower case, and numeric addresses are written in their usual way.

## Main definitions

* `HostName.written?` — the written form of the name of a host
-/

namespace RamlBuild.HostName

open Text

/-- The characters that no host holds, and those that a request for it could not hold. -/
def forbidden : List Char :=
  [' ', '"', '#', '%', '/', ':', '<', '>', '?', '@', '[', '\\', ']', '^', '\x60', '\x7b', '|',
    '\x7d', '\x7f']

/-- Whether a host may hold a character. -/
def isAllowed (c : Char) : Bool :=
  0x20 < c.toNat && !forbidden.contains c

/-- The bytes of a text in which bytes may stand as two digits behind a percent sign. -/
def percentDecode : List Char → List UInt8
  | '%' :: a :: b :: rest =>
    if isDigitTo 16 a && isDigitTo 16 b then (valueOf 16 [a, b]).toUInt8 :: percentDecode rest
    else '%'.toUInt8 :: percentDecode (a :: b :: rest)
  | c :: rest => String.utf8EncodeChar c ++ percentDecode rest
  | [] => []

/-- The written form of a domain name, or of the numeric address that it is. -/
def domain? (name : List Char) : Option (List Char) := do
  let decoded ← String.fromUTF8? ⟨(percentDecode name).toArray⟩
  let domain ← Domain.written? decoded.toList
  if domain.isEmpty || !domain.all isAllowed then none
  else if Ipv4.isNumeric domain then (Ipv4.ofText? domain).map Ipv4.text
  else some domain

/-- The written form of the name of a host. -/
def written? (name : List Char) : Option (List Char) :=
  match name with
  | '[' :: address =>
    if address.getLast? = some ']' then
      (Ipv6.ofText? address.dropLast).map fun pieces => '[' :: Ipv6.text pieces ++ [']']
    else none
  | _ => domain? name

end RamlBuild.HostName
