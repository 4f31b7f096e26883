import Mathlib.Algebra.Order.Ring.Nat
import RamlBuild.Archive.Member

/-!
# Archives that are stored as they are

Bytes that are not too many can be stored in a compressed file as they are, in one block. Reading the
file gives them back and comes to an end behind them. A sound header that describes nothing and the
contents behind it are a member of an archive.

## Main definitions

* `Archive.bytesOfNumber` — a number in bytes, the lowest first
* `Archive.storedFile` — a compressed file with one block of bytes as they are
* `Archive.archiveOf` — an archive with one short file

## Main results

* `Archive.numberOfBits_bitsOfBytes` — the bits of bytes stand for the same number
* `Archive.yields_number`, `Archive.yields_verbatim` — numbers and bytes are read from their bits
* `Archive.ofCompressed?_storedFile` — reading a file gives back what is stored in it
* `Archive.nextMember_of_header` — a sound header and its contents are a member
-/

namespace RamlBuild.Archive

variable {bits rest : List Bool} {bytes bytes' : List UInt8} {out : ByteArray}

/-! ### Numbers, bytes and bits -/

theorem toList_eq (bytes : ByteArray) : bytes.toList = bytes.data.toList := by
  have hloop (i : Nat) (before : List UInt8) :
      ByteArray.toList.loop bytes i before = before.reverse ++ bytes.data.toList.drop i := by
    fun_induction ByteArray.toList.loop bytes i before with
    | case1 i before hlt ih =>
      have hi : i < bytes.data.toList.length := hlt
      have hnext : bytes.get! i = bytes.data.toList[i] := getElem!_pos bytes.data i hlt
      rw [ih, List.reverse_cons, List.append_assoc, List.drop_eq_getElem_cons hi, hnext]
      rfl
    | case2 i before hle =>
      have hi : bytes.data.toList.length ≤ i := Nat.le_of_not_lt hle
      rw [List.drop_eq_nil_of_le hi, List.append_nil]
  rw [ByteArray.toList, hloop]
  rfl

/-- The lowest bytes of a number, the lowest first. -/
def bytesOfNumber : (count : Nat) → (n : Nat) → List UInt8
  | 0, _ => []
  | count + 1, n => n.toUInt8 :: bytesOfNumber count (n / 256)

@[simp] theorem length_bytesOfNumber (count n : Nat) : (bytesOfNumber count n).length = count := by
  induction count generalizing n with
  | zero => rfl
  | succ count ih => rw [bytesOfNumber, List.length_cons, ih]

/-- Bytes stand for the number they are the lowest bytes of, up to what does not fit in them. -/
theorem numberOfBytes_bytesOfNumber (count n : Nat) :
    numberOfBytes (bytesOfNumber count n) = n % 256 ^ count := by
  induction count generalizing n with
  | zero => rw [Nat.pow_zero, Nat.mod_one]; rfl
  | succ count ih =>
    have hlow : n.toUInt8.toNat = n % 256 := UInt8.toNat_ofNat'
    rw [bytesOfNumber, numberOfBytes, ih, hlow, Nat.pow_succ', Nat.mod_mul]

@[simp] theorem length_bitsOfByte (b : UInt8) : (bitsOfByte b).length = 8 := by
  simp [bitsOfByte]

@[simp] theorem length_bitsOfBytes (bytes : List UInt8) :
    (bitsOfBytes bytes).length = 8 * bytes.length := by
  induction bytes with
  | nil => rfl
  | cons b bytes ih =>
    rw [bitsOfBytes, List.flatMap_cons, List.length_append, length_bitsOfByte, ← bitsOfBytes, ih,
      List.length_cons]
    omega

theorem bitsOfBytes_append (bytes bytes' : List UInt8) :
    bitsOfBytes (bytes ++ bytes') = bitsOfBytes bytes ++ bitsOfBytes bytes' :=
  List.flatMap_append

theorem numberOfBits_append (bits rest : List Bool) :
    numberOfBits (bits ++ rest) = numberOfBits bits + 2 ^ bits.length * numberOfBits rest := by
  induction bits with
  | nil => simp [numberOfBits]
  | cons b bits ih =>
    rw [List.cons_append, numberOfBits, ih, numberOfBits, List.length_cons, Nat.pow_succ', Nat.mul_add,
      Nat.mul_assoc, Nat.add_assoc]

/-- The lowest bits of a number stand for it, up to what does not fit in them. -/
theorem numberOfBits_testBit (count n : Nat) :
    numberOfBits ((List.range count).map n.testBit) = n % 2 ^ count := by
  induction count generalizing n with
  | zero => rw [Nat.pow_zero, Nat.mod_one]; rfl
  | succ count ih =>
    have hrest : (n.testBit ∘ Nat.succ) = (n / 2).testBit := funext fun k => Nat.testBit_succ n k
    have hlow : (n.testBit 0).toNat = n % 2 := by
      rw [Nat.testBit_zero]
      rcases Nat.mod_two_eq_zero_or_one n with h | h <;> rw [h] <;> rfl
    rw [List.range_succ_eq_map, List.map_cons, List.map_map, hrest, numberOfBits, ih, hlow,
      Nat.pow_succ', Nat.mod_mul]

theorem numberOfBits_bitsOfByte (b : UInt8) : numberOfBits (bitsOfByte b) = b.toNat := by
  rw [bitsOfByte, numberOfBits_testBit, Nat.mod_eq_of_lt b.toNat_lt]

/-- The bits of bytes stand for the same number. -/
theorem numberOfBits_bitsOfBytes (bytes : List UInt8) :
    numberOfBits (bitsOfBytes bytes) = numberOfBytes bytes := by
  induction bytes with
  | nil => rfl
  | cons b bytes ih =>
    have hpow : 2 ^ 8 = 256 := rfl
    rw [bitsOfBytes, List.flatMap_cons, ← bitsOfBytes, numberOfBits_append, numberOfBits_bitsOfByte,
      length_bitsOfByte, ih, numberOfBytes, hpow]

/-! ### Reading them -/

namespace Expansion

variable {α β : Type} {x : Expansion α} {f : α → Expansion β} {a : α} {b : β}
  {state state' state'' : ExpansionState}

/-- A computation gives a result and leaves a state. -/
def Yields (x : Expansion α) (state : ExpansionState) (a : α) (state' : ExpansionState) : Prop :=
  StateT.run (ExceptT.run x) state = (.ok a, state')

theorem Yields.bind (hx : Yields x state a state') (hf : Yields (f a) state' b state'') :
    Yields (x >>= f) state b state'' := by
  rw [Yields, ExceptT.run_bind, StateT.run_bind, hx]
  exact hf

theorem yields_pure (a : α) (state : ExpansionState) : Yields (pure a) state a state := rfl

theorem yields_bit (b : Bool) (rest : List Bool) (out : ByteArray) :
    Yields bit ⟨b :: rest, out⟩ b ⟨rest, out⟩ := rfl

theorem yields_append (b : UInt8) (bits : List Bool) (out : ByteArray) :
    Yields (append b) ⟨bits, out⟩ () ⟨bits, out.push b⟩ := rfl

/-- As many bits as are asked for are read as the number they stand for. -/
theorem yields_number (bits rest : List Bool) (out : ByteArray) :
    Yields (number bits.length) ⟨bits ++ rest, out⟩ (numberOfBits bits) ⟨rest, out⟩ := by
  induction bits with
  | nil => rfl
  | cons b bits ih => exact (yields_bit b _ out).bind (ih.bind (yields_pure _ _))

/-- Bytes are read as the number they stand for. -/
theorem yields_number_bytes {count : Nat} (hcount : count = 8 * bytes.length) (rest : List Bool)
    (out : ByteArray) :
    Yields (number count) ⟨bitsOfBytes bytes ++ rest, out⟩ (numberOfBytes bytes) ⟨rest, out⟩ := by
  have h := yields_number (bitsOfBytes bytes) rest out
  rwa [length_bitsOfBytes, ← hcount, numberOfBits_bitsOfBytes] at h

/-- Bytes are read as they are. -/
theorem yields_verbatim (bytes : List UInt8) (rest : List Bool) (out : ByteArray) :
    Yields (verbatim bytes.length) ⟨bitsOfBytes bytes ++ rest, out⟩ ()
      ⟨rest, ⟨out.data ++ bytes.toArray⟩⟩ := by
  induction bytes generalizing out with
  | nil => simp [verbatim, bitsOfBytes]; rfl
  | cons b bytes ih =>
    have hbyte : Yields (number 8) ⟨bitsOfByte b ++ (bitsOfBytes bytes ++ rest), out⟩ b.toNat
        ⟨bitsOfBytes bytes ++ rest, out⟩ := by
      have h := yields_number (bitsOfByte b) (bitsOfBytes bytes ++ rest) out
      rwa [length_bitsOfByte, numberOfBits_bitsOfByte] at h
    have hpush : (⟨(out.push b).data ++ bytes.toArray⟩ : ByteArray) =
        ⟨out.data ++ (b :: bytes).toArray⟩ := by
      rw [ByteArray.data_push, Array.push_eq_append, Array.append_assoc]
      simp
    rw [bitsOfBytes, List.flatMap_cons, ← bitsOfBytes, List.append_assoc, ← hpush]
    have hput : Yields (append b.toNat.toUInt8) ⟨bitsOfBytes bytes ++ rest, out⟩ ()
        ⟨bitsOfBytes bytes ++ rest, out.push b⟩ := by
      rw [Nat.toUInt8, UInt8.ofNat_toNat]
      exact yields_append b _ out
    exact hbyte.bind (hput.bind (ih (out.push b)))

/-- The bits before the next whole byte are passed over. -/
theorem yields_align (hbits : bits.length < 8) (hrest : rest.length % 8 = 0) (out : ByteArray) : Yields align ⟨bits ++ rest, out⟩ () ⟨rest, out⟩ := by
  have hcount : (bits ++ rest).length % 8 = bits.length := by
    rw [List.length_append]
    omega
  have hdrop : (bits ++ rest).drop ((bits ++ rest).length % 8) = rest := by
    rw [hcount, List.drop_left]
  show (_, ExpansionState.mk _ _) = _
  rw [hdrop]

end Expansion

/-! ### A file with one block -/

/-- A last block with bytes as they are. -/
def storedBlockOf (bytes : List UInt8) : List UInt8 :=
  1 :: (bytesOfNumber 2 bytes.length ++ bytesOfNumber 2 (0xffff - bytes.length) ++ bytes)

/-- The check of bytes and their number. -/
def trailerOf (bytes : ByteArray) : List UInt8 :=
  bytesOfNumber 4 (crc32 bytes).toNat ++ bytesOfNumber 4 bytes.size

/-- A header that tells nothing more than the format. -/
def plainHeader : List UInt8 := [0x1f, 0x8b, 8, 0, 0, 0, 0, 0, 0, 0xff]

/-- A compressed file with one block of bytes as they are. -/
def storedFile (bytes : ByteArray) : ByteArray :=
  ⟨(plainHeader ++ (storedBlockOf bytes.data.toList ++ trailerOf bytes)).toArray⟩

open Expansion in
/-- A block gives back the bytes in it, if their number fits. -/
theorem expand_storedBlockOf (hsize : bytes.length ≤ 0xffff) (behind : List UInt8) :
    expand (bitsOfBytes (storedBlockOf bytes ++ behind)) =
      ⟨⟨bytes.toArray⟩, .ok (bitsOfBytes behind)⟩ := by
  -- The first byte says that the block is the last one and of the first kind.
  have hfirst : bitsOfBytes (storedBlockOf bytes ++ behind) =
      true :: ([false, false] ++ ([false, false, false, false, false] ++
        (bitsOfBytes (bytesOfNumber 2 bytes.length) ++
          (bitsOfBytes (bytesOfNumber 2 (0xffff - bytes.length)) ++
            (bitsOfBytes bytes ++ bitsOfBytes behind))))) := by
    have hone : bitsOfByte 1 = [true, false, false, false, false, false, false, false] := by decide
    rw [storedBlockOf, List.cons_append, bitsOfBytes, List.flatMap_cons, ← bitsOfBytes, hone]
    simp [bitsOfBytes_append]
  have hlength : numberOfBytes (bytesOfNumber 2 bytes.length) = bytes.length := by
    rw [numberOfBytes_bytesOfNumber, Nat.mod_eq_of_lt (by omega)]
  have hcomplement : numberOfBytes (bytesOfNumber 2 (0xffff - bytes.length)) =
      0xffff - bytes.length := by
    rw [numberOfBytes_bytesOfNumber, Nat.mod_eq_of_lt (by omega)]
  have hstored : Yields storedBlock
      ⟨[false, false, false, false, false] ++ (bitsOfBytes (bytesOfNumber 2 bytes.length) ++
        (bitsOfBytes (bytesOfNumber 2 (0xffff - bytes.length)) ++
          (bitsOfBytes bytes ++ bitsOfBytes behind))), .empty⟩ ()
      ⟨bitsOfBytes behind, ⟨bytes.toArray⟩⟩ := by
    refine (yields_align (by decide) (by simp; omega) _).bind ?_
    refine (yields_number_bytes (by simp) _ _).bind ((yields_number_bytes (by simp) _ _).bind ?_)
    rw [hlength, hcomplement, if_pos (by omega)]
    simpa using yields_verbatim bytes (bitsOfBytes behind) .empty
  have hblock : Yields block ⟨bitsOfBytes (storedBlockOf bytes ++ behind), .empty⟩ true
      ⟨bitsOfBytes behind, ⟨bytes.toArray⟩⟩ := by
    rw [hfirst]
    exact (yields_bit _ _ _).bind ((yields_number [false, false] _ _).bind
      (hstored.bind (yields_pure _ _)))
  have hwhole : (bitsOfBytes behind).length % 8 = 0 := by
    rw [length_bitsOfBytes, Nat.mul_mod_right]
  have hend : Yields align ⟨bitsOfBytes behind, ⟨bytes.toArray⟩⟩ ()
      ⟨bitsOfBytes behind, ⟨bytes.toArray⟩⟩ :=
    yields_align (by decide : ([] : List Bool).length < 8) hwhole _
  have hblocks (count : Nat) : Yields (blocks (count + 1))
      ⟨bitsOfBytes (storedBlockOf bytes ++ behind), .empty⟩ ()
      ⟨bitsOfBytes behind, ⟨bytes.toArray⟩⟩ := hblock.bind hend
  rw [expand, show (blocks _).run _ = _ from hblocks _]

/-- The trailer of bytes belongs to them. -/
theorem isTrailer_trailerOf (bytes : ByteArray) : isTrailer bytes (bitsOfBytes (trailerOf bytes)) := by
  have hcheck : (crc32 bytes).toNat % 256 ^ 4 = (crc32 bytes).toNat :=
    Nat.mod_eq_of_lt (crc32 bytes).toNat_lt
  have hfirst : (bitsOfBytes (bytesOfNumber 4 (crc32 bytes).toNat)).length = 32 := by simp
  have hsecond : (bitsOfBytes (bytesOfNumber 4 bytes.size)).length = 32 := by simp
  rw [isTrailer, trailerOf, bitsOfBytes_append, List.take_left' hfirst, List.drop_left' hfirst,
    List.take_of_length_le (Nat.le_of_eq hsecond), numberOfBits_bitsOfBytes, numberOfBits_bitsOfBytes,
    numberOfBytes_bytesOfNumber, numberOfBytes_bytesOfNumber, hcheck]
  simp [hfirst, hsecond]

/-- Reading a file gives back what is stored in it. -/
theorem ofCompressed?_storedFile {bytes : ByteArray} (hsize : bytes.size ≤ 0xffff) :
    Stream.ofCompressed? (storedFile bytes) = some ⟨bytes, true⟩ := by
  have hheader : skipHeader? (storedFile bytes) =
      some (storedBlockOf bytes.data.toList ++ trailerOf bytes) := by
    rw [skipHeader?, toList_eq]
    rfl
  have hfits : bytes.data.toList.length ≤ 0xffff := hsize
  have hexpand := expand_storedBlockOf hfits (trailerOf bytes)
  rw [Stream.ofCompressed?, hheader, Option.bind_eq_bind, Option.bind_some, hexpand]
  simp [isTrailer_trailerOf]

/-! ### A member with its contents -/

variable {stream : Stream} {start size : Nat} {header : Header} {block : ByteArray}

theorem field_eq (block : ByteArray) (start length : Nat) :
    field block start length = (block.data.toList.drop start).take length := by
  rw [field, toList_eq, ByteArray.data_extract, Array.toList_extract, List.extract,
    Nat.add_sub_cancel_left]

/-- A sound header that describes nothing is that of a member. -/
theorem nextMember_of_header (hblock : stream.bytes.extract start (start + blockSize) = block)
    (hbytes : start + blockSize ≤ stream.bytes.size) (hzero : isZeroBlock block = false)
    (hsound : Header.isSound block = true) (hheader : Header.ofBlock block = header)
    (hdescribes : header.describes = false) (hkind : header.kind ≠ .sparseFile)
    (hsize : header.size = some size) (hlimit : start + blockSize + blocksFor size < wordLimit) :
    nextMember stream start =
      .member (.of header .empty stream .full (start + blockSize) size)
        (start + blockSize + blocksFor size) := by
  have hsizeFor : Description.empty.sizeFor? header = some size := by
    simp [Description.sizeFor?, hsize, hdescribes, Description.empty]
  have hpositive : 0 < blockSize := by decide
  rw [nextMember, memberFrom, if_neg (by omega), if_neg (by omega)]
  simp only [hblock, hzero, hsound, hheader, hsizeFor, hdescribes, hkind, Bool.not_true,
    Bool.false_eq_true, if_false, if_neg (Nat.not_le.2 hlimit)]

/-- The end of the bytes is the end of the members. -/
theorem nextMember_of_end (hends : stream.ends = true) : nextMember stream stream.bytes.size =
    .finished := by
  rw [nextMember, memberFrom, if_pos rfl, if_pos hends, if_pos rfl]

/-- Contents that are all there are those of their member. -/
theorem assemble_full {bytes contents : ByteArray}
    (hcontents : bytes.extract start (start + size) = contents)
    (hbytes : start + size ≤ bytes.size) :
    assemble bytes .empty start [(0, size)] = (contents, true) := by
  have hwritten : ByteArray.empty ++ ⟨Array.replicate (0 - ByteArray.empty.size) 0⟩ ++
      bytes.extract start (start + size) = contents := by
    rw [hcontents]
    exact ByteArray.ext (by simp)
  rw [assemble, hwritten, if_pos hbytes, assemble]

/-! ### An archive with one short file -/

/-- Bytes with zeros behind them, to take up a given size. -/
def padded (size : Nat) (bytes : List UInt8) : List UInt8 :=
  bytes ++ List.replicate (size - bytes.length) 0

/-- A field of a header block with a text. -/
def fieldOf (size : Nat) (text : String) : List UInt8 :=
  padded size text.toUTF8.data.toList

/-- What is in an archive with one short file. -/
def shortContents : String := "hi\n"

/-- The header block of a short file that can be run, with its sum in octal digits. -/
def headerOf (name sum : String) : List UInt8 :=
  padded blockSize (fieldOf 100 name ++ fieldOf 8 "0000755" ++ fieldOf 8 "0000000" ++
    fieldOf 8 "0000000" ++ fieldOf 12 "00000000003" ++ fieldOf 12 "00000000000" ++ fieldOf 8 sum ++
    fieldOf 101 "0" ++ fieldOf 8 "ustar\x0000")

/-- An archive with one short file that can be run. -/
def archiveOf (name sum : String) : ByteArray :=
  ⟨(headerOf name sum ++ fieldOf blockSize shortContents).toArray⟩

/-- A short file that can be run. -/
def shortFile (name : String) : Member where
  format := .standard
  kind := .file
  name := name.toUTF8.data.toList
  link := []
  mode := some 0o755
  contents := shortContents.toUTF8
  isWhole := true

/-- The header block of a short file tells its name, and its sum is right. -/
structure IsHeader (name sum : String) : Prop where
  length : (headerOf name sum).length = blockSize
  isSound : Header.isSound ⟨(headerOf name sum).toArray⟩ = true
  isZeroBlock : isZeroBlock ⟨(headerOf name sum).toArray⟩ = false
  ofBlock : Header.ofBlock ⟨(headerOf name sum).toArray⟩ =
    ⟨.standard, .file, name.toUTF8.data.toList, [], some 0o755, some 3⟩

theorem size_archiveOf {name sum : String} (h : IsHeader name sum) :
    (archiveOf name sum).size = 2 * blockSize := by
  have hcontents : (fieldOf blockSize shortContents).length = blockSize := by decide +kernel
  show (headerOf name sum ++ fieldOf blockSize shortContents).toArray.size = _
  rw [List.size_toArray, List.length_append, h.length, hcontents, Nat.two_mul]

/-- Reading an archive with one short file comes to the file and then to the end. -/
theorem nextMember_archiveOf {name sum : String} (h : IsHeader name sum) :
    nextMember ⟨archiveOf name sum, true⟩ 0 = .member (shortFile name) (2 * blockSize) := by
  have hblock : (archiveOf name sum).extract 0 (0 + blockSize) = ⟨(headerOf name sum).toArray⟩ := by
    refine ByteArray.ext (Array.toList_inj.1 ?_)
    rw [ByteArray.data_extract, Array.toList_extract, archiveOf, List.extract, List.drop_zero,
      Nat.sub_zero, Nat.zero_add]
    exact List.take_left' h.length
  have hcontents : (archiveOf name sum).extract blockSize (blockSize + 3) =
      shortContents.toUTF8 := by
    refine ByteArray.ext (Array.toList_inj.1 ?_)
    rw [ByteArray.data_extract, Array.toList_extract, archiveOf, List.extract,
      Nat.add_sub_cancel_left, List.drop_left' h.length]
    decide +kernel
  have hsize := size_archiveOf h
  have hpositive : blockSize = 512 := rfl
  have hbytes : 0 + blockSize ≤ (archiveOf name sum).size := by omega
  have hmember : nextMember ⟨archiveOf name sum, true⟩ 0 = _ :=
    nextMember_of_header hblock hbytes h.isZeroBlock h.isSound h.ofBlock rfl nofun rfl (by decide)
  rw [hmember, Member.of, Nat.zero_add, assemble_full hcontents (by omega)]
  rfl

/-- Two names for a short file: one leads down from the directory that it is unpacked in, one from the
root. -/
theorem isHeader_tool : IsHeader "merge-raml" "0007714" ∧ IsHeader "/merge-raml" "0007773" := by
  constructor <;> constructor
  case left.length | right.length => decide +kernel
  case left.isSound | right.isSound =>
    rw [Header.isSound, Header.checksum]
    simp only [field_eq]
    decide +kernel
  case left.isZeroBlock | right.isZeroBlock =>
    rw [isZeroBlock, toList_eq]
    decide +kernel
  case left.ofBlock | right.ofBlock =>
    rw [Header.ofBlock, Header.nameOf, Header.formatOf]
    simp only [field_eq, toList_eq, Header.mk.injEq]
    decide +kernel

end RamlBuild.Archive
