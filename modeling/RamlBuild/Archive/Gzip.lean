import RamlBuild.Archive.Deflate

/-!
# Compressed files

A compressed file has a header, compressed data, and a trailer with a check of the bytes that the
data stands for and their number. What comes after the trailer does not count.

The check of a sequence of bytes is the remainder of its bits, taken as a polynomial over two
elements, on division by a fixed polynomial of degree 32.

The bytes are read from the front, and a defect shows only when reading comes to it.

## Main definitions

* `crc32` — the check of a sequence of bytes
* `Stream` — the bytes that can be read, and whether they are all
* `Stream.ofCompressed?` — the bytes of a compressed file
-/

/-! ## Cyclic redundancy checks -/

namespace RamlBuild.Archive

/-- The fixed polynomial, its lowest coefficient in the highest bit. -/
def crcPolynomial : UInt32 := 0xedb88320

/-- The remainder after one more bit. -/
def crcBit (crc : UInt32) : UInt32 :=
  if crc &&& 1 = 1 then (crc >>> 1) ^^^ crcPolynomial else crc >>> 1

/-- The remainder after one more byte. -/
def crcByte (crc : UInt32) (b : UInt8) : UInt32 :=
  crcBit (crcBit (crcBit (crcBit (crcBit (crcBit (crcBit (crcBit (crc ^^^ b.toUInt32))))))))

/-- The check of a sequence of bytes. -/
def crc32 (bytes : ByteArray) : UInt32 :=
  bytes.foldl crcByte 0xffffffff ^^^ 0xffffffff

end RamlBuild.Archive

/-! ## Compressed files -/

namespace RamlBuild.Archive

/-- Bytes that are read from the front. -/
structure Stream where
  /-- The bytes that can be read. -/
  bytes : ByteArray
  /-- Whether reading comes to an end behind them, and not to a defect. -/
  ends : Bool

/-- The bits of a byte, the lowest first. -/
def bitsOfByte (b : UInt8) : List Bool :=
  (List.range 8).map fun k => b.toNat.testBit k

/-- The bits of bytes. -/
def bitsOfBytes (bytes : List UInt8) : List Bool :=
  bytes.flatMap bitsOfByte

/-- The number that bytes stand for, the lowest first. -/
def numberOfBytes : List UInt8 → Nat
  | [] => 0
  | b :: rest => b.toNat + 256 * numberOfBytes rest

/-- The number that bits stand for, the lowest first. -/
def numberOfBits : List Bool → Nat
  | [] => 0
  | b :: rest => b.toNat + 2 * numberOfBits rest

/-- The most bytes of a text in the header. -/
def maxTextSize : Nat := 0xffff

/-- The bytes behind a text that a zero ends. -/
def skipText? (bytes : List UInt8) : Option (List UInt8) := do
  guard ((bytes.takeWhile (· != 0)).length ≤ maxTextSize)
  match bytes.dropWhile (· != 0) with
  | [] => none
  | _ :: rest => some rest

/-- The bytes behind a field that its length comes before. -/
def skipExtra? : List UInt8 → Option (List UInt8)
  | a :: b :: rest =>
    let length := numberOfBytes [a, b]
    if length ≤ rest.length then some (rest.drop length) else none
  | _ => none

/-- The bytes behind a check of the header, which has to be right. -/
def skipHeaderCheck? (bytes : ByteArray) : List UInt8 → Option (List UInt8)
  | a :: b :: rest =>
    let header := bytes.extract 0 (bytes.size - rest.length - 2)
    if numberOfBytes [a, b] = (crc32 header).toNat % 0x10000 then some rest else none
  | _ => none

/-- The compressed data behind the header of a compressed file. -/
def skipHeader? (bytes : ByteArray) : Option (List UInt8) :=
  match bytes.toList with
  | 0x1f :: 0x8b :: 8 :: flags :: _ :: _ :: _ :: _ :: _ :: _ :: rest => do
    let has := fun k => flags.toNat.testBit k
    -- The highest three flags have no meaning, and a file that sets one is not read.
    guard (flags.toNat < 0x20)
    let rest ← if has 2 then skipExtra? rest else some rest
    let rest ← if has 3 then skipText? rest else some rest
    let rest ← if has 4 then skipText? rest else some rest
    if has 1 then skipHeaderCheck? bytes rest else some rest
  | _ => none

/-- The number of bytes that are taken in together and that are handed on together. -/
def chunk : Nat := 0x8000

/-- The number of bytes that all of the compressed data up to a place stands for, unless the place
lies behind a defect. -/
def reachedAt? (data : List UInt8) (count : Nat) : Option Nat :=
  let expanded := expand (bitsOfBytes (data.take count))
  match expanded.rest with
  | .error .truncated => some expanded.bytes.size
  | _ => none

/-- How many bytes had been handed on when corrupt data showed its defect. They are handed on when
they fill a chunk, or when the compressed chunk that they were read from is used up. -/
def handedOn (header : Nat) (data : List UInt8) (size : Nat) : Nat :=
  let usedUp := (List.range ((header + data.length) / chunk)).filterMap fun k =>
    reachedAt? data ((k + 1) * chunk - header)
  usedUp.foldl max (size / chunk * chunk)

/-- The bits of a trailer that belongs to the bytes. -/
def isTrailer (bytes : ByteArray) (bits : List Bool) : Bool :=
  64 ≤ bits.length && numberOfBits (bits.take 32) = (crc32 bytes).toNat &&
    numberOfBits ((bits.drop 32).take 32) = bytes.size % 0x100000000

/-- The bytes of a compressed file, if it has a header. Of corrupt data those come to be read that
had been handed on before the defect showed. -/
def Stream.ofCompressed? (bytes : ByteArray) : Option Stream := do
  let data ← skipHeader? bytes
  let expanded := expand (bitsOfBytes data)
  match expanded.rest with
  | .ok rest => some ⟨expanded.bytes, isTrailer expanded.bytes rest⟩
  | .error .truncated => some ⟨expanded.bytes, false⟩
  | .error .corrupt =>
    let size := handedOn (bytes.size - data.length) data expanded.bytes.size
    some ⟨expanded.bytes.extract 0 size, false⟩

end RamlBuild.Archive
