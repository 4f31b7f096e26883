import RamlBuild.Archive.PrefixCode

/-!
# Compressed data

Compressed data comes in blocks of bits. A block holds bytes as they are, or words of two prefix
codes: one for bytes and for the lengths of earlier parts that are repeated, one for how far back
these parts begin. The codes are fixed ones or are told at the start of the block.

## Main definitions

* `Expansion` — a computation on the bits that are left and the bytes so far
* `expand` — the bytes that compressed bits stand for, and how the bits ended
-/

namespace RamlBuild.Archive

/-- Why no more bytes can be had. -/
inductive Defect where
  /-- The bits end too early. -/
  | truncated
  /-- The bits make no sense. -/
  | corrupt
  deriving DecidableEq, Repr

/-- The state of an expansion. -/
structure ExpansionState where
  /-- The bits that are left. -/
  bits : List Bool
  /-- The bytes so far. -/
  bytes : ByteArray

/-- A computation that reads bits and appends bytes. What was appended before a defect stays. -/
abbrev Expansion := ExceptT Defect (StateM ExpansionState)

namespace Expansion

/-- The next bit. -/
def bit : Expansion Bool := do
  let state ← get
  match state.bits with
  | [] => throw .truncated
  | b :: rest =>
    set { state with bits := rest }
    pure b

/-- The number that the next `count` bits stand for, the lowest bit first. -/
def number : (count : Nat) → Expansion Nat
  | 0 => pure 0
  | count + 1 => do
    let low ← bit
    let high ← number count
    pure (low.toNat + 2 * high)

/-- The number of the next word of a code. -/
def word (code : PrefixCode) : Expansion Nat := do
  let state ← get
  match code.read state.bits with
  | .found n rest =>
    set { state with bits := rest }
    pure n
  | .ended => throw .truncated
  | .unknown => throw .corrupt

/-- Appends a byte. -/
def append (b : UInt8) : Expansion Unit :=
  modify fun state => { state with bytes := state.bytes.push b }

/-- Appends `count` bytes, each of them the one that lies `distance` bytes back, or zero where no
bytes were yet. -/
def repeated (distance : Nat) : (count : Nat) → Expansion Unit
  | 0 => pure ()
  | count + 1 => do
    let bytes := (← get).bytes
    -- The bytes that are appended here may be read again, so a short distance repeats a pattern.
    append (if distance ≤ bytes.size then bytes[bytes.size - distance]?.getD 0 else 0)
    repeated distance count

/-- Goes on to the next whole byte. -/
def align : Expansion Unit :=
  -- All bits together are whole bytes, so those that are left tell how far the next byte is.
  modify fun state => { state with bits := state.bits.drop (state.bits.length % 8) }

/-- Appends the next `count` bytes as they are. -/
def verbatim : (count : Nat) → Expansion Unit
  | 0 => pure ()
  | count + 1 => do
    append (← number 8).toUInt8
    verbatim count

/-- The fixed code for bytes and lengths. -/
def fixedLiterals : List Nat :=
  List.replicate 144 8 ++ List.replicate 112 9 ++ List.replicate 24 7 ++ List.replicate 8 8

/-- The fixed code for distances. -/
def fixedDistances : List Nat := List.replicate 32 5

/-- The lengths of repeated parts: each word stands for those from a number on, told apart by some
more bits. -/
def partLengths : List (Nat × Nat) := [
  (3, 0), (4, 0), (5, 0), (6, 0), (7, 0), (8, 0), (9, 0), (10, 0), (11, 1), (13, 1), (15, 1),
  (17, 1), (19, 2), (23, 2), (27, 2), (31, 2), (35, 3), (43, 3), (51, 3), (59, 3), (67, 4),
  (83, 4), (99, 4), (115, 4), (131, 5), (163, 5), (195, 5), (227, 5), (258, 0)]

/-- The distances of repeated parts, told in the same way. -/
def partDistances : List (Nat × Nat) := [
  (1, 0), (2, 0), (3, 0), (4, 0), (5, 1), (7, 1), (9, 2), (13, 2), (17, 3), (25, 3), (33, 4),
  (49, 4), (65, 5), (97, 5), (129, 6), (193, 6), (257, 7), (385, 7), (513, 8), (769, 8),
  (1025, 9), (1537, 9), (2049, 10), (3073, 10), (4097, 11), (6145, 11), (8193, 12), (12289, 12),
  (16385, 13), (24577, 13)]

/-- The number that a word and some more bits stand for. -/
def ranged (ranges : List (Nat × Nat)) (word : Nat) : Expansion Nat :=
  match ranges[word]? with
  | some (first, extra) => do pure (first + (← number extra))
  | none => throw .corrupt

/-- The words of a block up to the one that ends it. `count` bounds their number. -/
def words (literals distances : PrefixCode) : (count : Nat) → Expansion Unit
  | 0 => throw .truncated
  | count + 1 => do
    let n ← word literals
    if n < 256 then
      append n.toUInt8
      words literals distances count
    else if n = 256 then pure ()
    else
      let length ← ranged partLengths (n - 257)
      let distance ← ranged partDistances (← word distances)
      repeated distance length
      words literals distances count

/-- The code with the given lengths. -/
def codeOf (lengths : List Nat) : Expansion PrefixCode :=
  match PrefixCode.ofLengths? lengths with
  | some code => pure code
  | none => throw .corrupt

/-- The order in which the lengths of the words for lengths are told. -/
def lengthOrder : List Nat := [16, 17, 18, 0, 8, 7, 9, 6, 10, 5, 11, 4, 12, 3, 13, 2, 14, 1, 15]

/-- Several numbers of three bits. -/
def shortLengths : (count : Nat) → Expansion (List Nat)
  | 0 => pure []
  | count + 1 => do
    let length ← number 3
    let others ← shortLengths count
    pure (length :: others)

/-- The code for lengths. -/
def lengthCode (count : Nat) : Expansion PrefixCode := do
  let told := lengthOrder.zip (← shortLengths count)
  let lengths := (List.range 19).map fun n => (told.lookup n).getD 0
  if PrefixCode.isComplete lengths then pure (PrefixCode.ofLengths lengths) else throw .corrupt

/-- Lengths of words until `total` of them are told, which has to be met exactly. The last ones come
first. `count` bounds the steps. -/
def lengthsFrom (code : PrefixCode) (total : Nat) (told : List Nat) :
    (count : Nat) → Expansion (List Nat)
  | 0 => if told.length = total then pure told else throw .corrupt
  | count + 1 => do
    if total ≤ told.length then
      if told.length = total then pure told else throw .corrupt
    else
      let next ← match ← word code with
        -- The last three words stand for a repeated length and for runs of zeros.
        | 16 =>
          match told with
          | last :: _ => do pure (List.replicate (3 + (← number 2)) last)
          | [] => throw .corrupt
        | 17 => do pure (List.replicate (3 + (← number 3)) 0)
        | 18 => do pure (List.replicate (11 + (← number 7)) 0)
        | length => pure [length]
      lengthsFrom code total (next ++ told) count

/-- The two codes that are told at the start of a block. -/
def toldCodes : Expansion (PrefixCode × PrefixCode) := do
  let literals := (← number 5) + 257
  let distances := (← number 5) + 1
  let code ← lengthCode ((← number 4) + 4)
  let total := literals + distances
  -- Both codes are told as one list, and a run may go over from the first to the second.
  let lengths := (← lengthsFrom code total [] total).reverse
  pure (← codeOf (lengths.take literals), ← codeOf (lengths.drop literals))

/-- The bytes of a block that holds them as they are. -/
def storedBlock : Expansion Unit := do
  align
  let length ← number 16
  let complement ← number 16
  if length + complement = 0xffff then verbatim length else throw .corrupt

/-- The words of a block in the given codes. Each word has a bit at least. -/
def codedBlock (literals distances : PrefixCode) : Expansion Unit := do
  words literals distances ((← get).bits.length + 1)

/-- One block; whether it is the last one. -/
def block : Expansion Bool := do
  let last ← bit
  match ← number 2 with
  | 0 => storedBlock
  | 1 => codedBlock (PrefixCode.ofLengths fixedLiterals) (PrefixCode.ofLengths fixedDistances)
  | 2 => do
    let (literals, distances) ← toldCodes
    codedBlock literals distances
  | _ => throw .corrupt
  pure last

/-- The blocks up to the last one. `count` bounds their number. -/
def blocks : (count : Nat) → Expansion Unit
  | 0 => throw .truncated
  | count + 1 => do
    if ← block then align else blocks count

end Expansion

/-- What compressed bits stand for. -/
structure Expanded where
  /-- The bytes. -/
  bytes : ByteArray
  /-- The bits behind the last block, or why no more bytes can be had. -/
  rest : Except Defect (List Bool)

/-- Expands compressed bits. Each block has a bit at least. -/
def expand (bits : List Bool) : Expanded :=
  match (Expansion.blocks (bits.length + 1)).run ⟨bits, .empty⟩ with
  | (.ok (), state) => ⟨state.bytes, .ok state.bits⟩
  | (.error defect, state) => ⟨state.bytes, .error defect⟩

end RamlBuild.Archive
