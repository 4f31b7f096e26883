import RamlBuild.Archive.Gzip
import RamlBuild.Text.Blank

/-!
# Archive members

An archive is a sequence of members, each a header of one block and its contents in whole blocks. A
block of zeros, or the end of the bytes, ends the archive. Some members only describe the next one:
they give it a name or a link that is too long for its header, or a list of attributes.

## Main definitions

* `Header` — what a header block tells
* `Member` — a member with what was described before it
* `nextMember` — the member at a place of the archive, and where the next one is
-/

namespace RamlBuild.Archive

/-- The size of a block. -/
def blockSize : Nat := 512

/-- The bytes of a block from a place on. -/
def field (block : ByteArray) (start length : Nat) : List UInt8 :=
  (block.extract start (start + length)).toList

/-- The bytes before the first zero. -/
def beforeZero (bytes : List UInt8) : List UInt8 :=
  bytes.takeWhile (· != 0)

/-- The text of bytes, if they are one. -/
def textOf? (bytes : List UInt8) : Option String :=
  String.fromUTF8? ⟨bytes.toArray⟩

/-- The numbers that are too large for a word. -/
def wordLimit : Nat := 0x10000000000000000

/-- The number that digits to a base stand for. A plus sign may come before them. -/
def digitsValue? (base : Nat) (digits : List Char) : Option Nat := do
  let digits := match digits with
    | '+' :: rest => rest
    | _ => digits
  guard (!digits.isEmpty && digits.all fun c => c.isDigit && c.toNat - '0'.toNat < base)
  let n := digits.foldl (fun n c => base * n + (c.toNat - '0'.toNat)) 0
  guard (n < wordLimit)
  some n

/-- The number in a field of octal digits, with blanks around them. -/
def octal? (bytes : List UInt8) : Option Nat := do
  let text ← textOf? (beforeZero bytes)
  digitsValue? 8 (Text.trim text.toList)

/-- The number in a field of octal digits, or of bytes where its first bit is set. -/
def octalOrBinary? (bytes : List UInt8) : Option Nat :=
  match bytes with
  | first :: _ =>
    if first < 0x80 then octal? bytes
    else
      -- Only the lowest eight bytes count.
      let low := bytes.drop (bytes.length - 8)
      some (low.foldl (fun n b => 256 * n + b.toNat) 0)
  | [] => none

/-- What a member is. -/
inductive MemberKind where
  /-- A file. -/
  | file
  /-- A directory. -/
  | directory
  /-- A symbolic link. -/
  | symbolicLink
  /-- Another name of an earlier file. -/
  | hardLink
  /-- The name of the next member. -/
  | longName
  /-- The link of the next member. -/
  | longLink
  /-- Attributes of the next member. -/
  | attributes
  /-- Attributes of all members. -/
  | sharedAttributes
  /-- A file of which only the pieces that are not zero are kept. -/
  | sparseFile
  /-- Anything else. -/
  | other
  deriving DecidableEq, Repr

/-- The kind of member that a byte stands for. -/
def MemberKind.ofByte (b : UInt8) : MemberKind :=
  match Char.ofNat b.toNat with
  | '\x00' => file
  | '0' => file
  | '1' => hardLink
  | '2' => symbolicLink
  | '5' => directory
  | 'L' => longName
  | 'K' => longLink
  | 'x' => attributes
  | 'g' => sharedAttributes
  | 'S' => sparseFile
  | _ => other

/-- The formats of headers. -/
inductive HeaderFormat where
  /-- The oldest one. -/
  | plain
  /-- With longer names in two parts. -/
  | standard
  /-- With names of any length in members of their own. -/
  | extended
  deriving DecidableEq, Repr

/-- What a header tells. -/
structure Header where
  /-- Its format. -/
  format : HeaderFormat
  /-- The kind of its member. -/
  kind : MemberKind
  /-- The name of the member. -/
  name : List UInt8
  /-- The link of the member. -/
  link : List UInt8
  /-- Its permission bits. -/
  mode : Option Nat
  /-- The size of its contents. -/
  size : Option Nat
  deriving Repr

namespace Header

/-- The format of a header block. -/
def formatOf (block : ByteArray) : HeaderFormat :=
  let magic := field block 257 8
  if magic = "ustar\x0000".toUTF8.toList then .standard
  else if magic = "ustar  \x00".toUTF8.toList then .extended
  else .plain

/-- The name in a header block. -/
def nameOf (block : ByteArray) : List UInt8 :=
  let name := beforeZero (field block 0 100)
  let above := beforeZero (field block 345 155)
  if formatOf block = .standard && !above.isEmpty then above ++ 0x2f :: name else name

/-- What a header block tells. -/
def ofBlock (block : ByteArray) : Header where
  format := formatOf block
  kind := .ofByte (block[156]?.getD 0)
  name := nameOf block
  link := beforeZero (field block 157 100)
  mode := octal? (field block 100 8)
  size := octalOrBinary? (field block 124 12)

/-- The sum of the bytes of a header block, with blanks in place of the sum in it. -/
def checksum (block : ByteArray) : Nat :=
  (field block 0 148 ++ field block 156 356).foldl (fun total b => total + b.toNat) (8 * 0x20)

/-- A header block holds its sum. -/
def isSound (block : ByteArray) : Bool :=
  octal? (field block 148 8) = some (checksum block)

/-- Whether the member describes the next one. In the plain format none does. -/
def describes (header : Header) : Bool :=
  header.format != .plain && [.longName, .longLink, .attributes].contains header.kind

end Header

/-- What is described about the next member. -/
structure Description where
  /-- Its name. -/
  name : Option (List UInt8)
  /-- Its link. -/
  link : Option (List UInt8)
  /-- Its attributes. -/
  attributes : Option (List UInt8)
  deriving DecidableEq, Repr

namespace Description

/-- Nothing. -/
def empty : Description := ⟨none, none, none⟩

/-- The attribute that a line tells: its length, its name and its value. -/
def attribute? (line : List UInt8) : Option (List UInt8 × List UInt8) := do
  let digits := line.takeWhile (· != 0x20)
  let length ← (← textOf? digits) |>.toList |> digitsValue? 10
  guard (digits.length < line.length && line.length + 1 = length)
  let body := line.drop (digits.length + 1)
  let name := body.takeWhile (· != 0x3d)
  guard (name.length < body.length)
  some (name, body.drop (name.length + 1))

/-- The lines of attributes up to an empty one. -/
def attributeLines (attributes : List UInt8) : List (List UInt8) :=
  (attributes.splitOn 0x0a).takeWhile (!·.isEmpty)

/-- The first value of a name in attributes. Lines that tell none are passed over. -/
def value? (attributes : List UInt8) (name : String) : Option (List UInt8) :=
  ((attributeLines attributes).filterMap attribute?).lookup name.toUTF8.toList

/-- The size in attributes, if no line before it is damaged. -/
def size? (attributes : List UInt8) : Option Nat := do
  let sound := ((attributeLines attributes).map attribute?).takeWhile Option.isSome
  let value ← (sound.filterMap id).lookup "size".toUTF8.toList
  digitsValue? 10 (← textOf? value).toList

/-- The bytes without a zero at their end. -/
def dropZero (bytes : List UInt8) : List UInt8 :=
  if bytes.getLast? = some 0 then bytes.dropLast else bytes

/-- The name of a member with a header that was described so. -/
def nameFor (d : Description) (header : Header) : List UInt8 :=
  match d.name, d.attributes.bind (value? · "path") with
  | some name, _ => dropZero name
  | none, some name => name
  | none, none => header.name

/-- The link of a member with a header that was described so. -/
def linkFor (d : Description) (header : Header) : List UInt8 :=
  match d.link, d.attributes.bind (value? · "linkpath") with
  | some link, _ => dropZero link
  | none, some link => link
  | none, none => header.link

/-- The size of the contents behind a header that was described so. The header has to tell one, but
one in the attributes wins over it. The size of a description is its own. -/
def sizeFor? (d : Description) (header : Header) : Option Nat := do
  let size ← header.size
  if header.describes then some size else some ((d.attributes.bind size?).getD size)

end Description

/-- A member of an archive. -/
structure Member where
  /-- The format of its header. -/
  format : HeaderFormat
  /-- What it is. -/
  kind : MemberKind
  /-- Its name. -/
  name : List UInt8
  /-- Its link. -/
  link : List UInt8
  /-- Its permission bits, where they are told. -/
  mode : Option Nat
  /-- The contents, as far as they can be read. -/
  contents : ByteArray
  /-- Whether these are all of the contents. -/
  isWhole : Bool

/-- Whether the member is unpacked as a directory. A slash at the end of the name of a file says so
in the formats that have no directories of their own. -/
def Member.makesDirectory (m : Member) : Bool :=
  match m.kind with
  | .directory => true
  | .file | .sparseFile | .other => m.format != .standard && m.name.getLast? = some 0x2f
  | _ => false

/-- What there is at a place of an archive. -/
inductive Place where
  /-- The end of the archive. -/
  | finished
  /-- A defect. -/
  | damaged
  /-- A member, and the place of the next one. -/
  | member (m : Member) (next : Nat)

/-- Whether all bytes of a block are zero. -/
def isZeroBlock (block : ByteArray) : Bool :=
  block.toList.all (· == 0)

/-- The number of bytes that contents take up in whole blocks. -/
def blocksFor (size : Nat) : Nat :=
  (size + blockSize - 1) / blockSize * blockSize

/-- What is kept of a file: all of its contents, or pieces with zeros between them. -/
inductive Shape where
  /-- All. -/
  | full
  /-- Pieces, by where they start in the file and how long they are. -/
  | pieces (extents : List (Nat × Nat))

/-- The piece that a field tells. An empty field tells none, a damaged one is a defect. -/
def extent? (bytes : List UInt8) : Option (List (Nat × Nat)) :=
  if bytes.head? = some 0 || (bytes.drop 12).head? = some 0 then some []
  else do
    let start ← octal? (bytes.take 12)
    let length ← octal? (bytes.drop 12)
    some [(start, length)]

/-- The pieces that `count` fields of a block tell. -/
def extents? (block : ByteArray) (start count : Nat) : Option (List (Nat × Nat)) := do
  let extents ← (List.range count).mapM fun k => extent? (field block (start + 24 * k) 24)
  some extents.flatten

/-- The pieces that the blocks from a place on tell, and the place behind them. Each block says
whether another one follows. -/
def moreExtents? (stream : Stream) : (count : Nat) → (start : Nat) →
    Option (List (Nat × Nat) × Nat)
  | 0, _ => none
  | count + 1, start => do
    guard (start + blockSize ≤ stream.bytes.size)
    let block := stream.bytes.extract start (start + blockSize)
    let extents ← extents? block 0 21
    let (more, next) ← if block[504]?.getD 0 = 1 then moreExtents? stream count (start + blockSize)
      else some ([], start + blockSize)
    some (extents ++ more, next)

/-- Pieces follow each other in the file, and each begins a block of the archive unless it is empty.
`reached` and `used` count the bytes of both that come before; what they come to at the end. -/
def extentsEnd? (reached used : Nat) : List (Nat × Nat) → Option (Nat × Nat)
  | [] => some (reached, used)
  | (start, length) :: rest =>
    if (length != 0 && used % blockSize != 0) || start < reached || wordLimit ≤ start + length then
      none
    else extentsEnd? (start + length) (used + length) rest

/-- The pieces of a file with its header in a block, and the place behind the blocks that tell them.
They take up the whole size of the contents and come to an end where the file does. -/
def sparseShape? (stream : Stream) (block : ByteArray) (inner size : Nat) :
    Option (Shape × Nat) := do
  guard (Header.formatOf block = .extended)
  let extents ← extents? block 386 4
  let (more, next) ← if block[482]?.getD 0 = 1 then
      moreExtents? stream (stream.bytes.size / blockSize) inner
    else some ([], inner)
  let (reached, used) ← extentsEnd? 0 0 (extents ++ more)
  guard (octal? (field block 483 12) = some reached && used = size)
  some (.pieces (extents ++ more), next)

/-- The bytes of pieces that lie one behind the other from a place on, with zeros between them up to
where each starts; and whether they are all there. -/
def assemble (bytes : ByteArray) (written : ByteArray) (start : Nat) :
    List (Nat × Nat) → ByteArray × Bool
  | [] => (written, true)
  | (offset, length) :: rest =>
    let zeros : ByteArray := ⟨(Array.replicate (offset - written.size) 0)⟩
    let written := written ++ zeros ++ bytes.extract start (start + length)
    if start + length ≤ bytes.size then assemble bytes written (start + length) rest
    else (written, false)

/-- The member with a header that was described so, its contents taken from a place on. -/
def Member.of (header : Header) (d : Description) (stream : Stream) (shape : Shape)
    (start size : Nat) : Member :=
  let extents := match shape with
    | .full => [(0, size)]
    | .pieces extents => extents
  let (contents, isWhole) := assemble stream.bytes .empty start extents
  { format := header.format
    kind := header.kind
    name := d.nameFor header
    link := d.linkFor header
    mode := header.mode
    contents
    isWhole }

/-- The description after one more member that describes, unless it tells something again. -/
def Description.add? (d : Description) (kind : MemberKind) (contents : List UInt8) :
    Option Description :=
  match kind with
  | .longName => if d.name.isNone then some { d with name := some contents } else none
  | .longLink => if d.link.isNone then some { d with link := some contents } else none
  | _ => if d.attributes.isNone then some { d with attributes := some contents } else none

/-- The member at a place of an archive, behind the members that describe it. `count` bounds the
number of these. -/
def memberFrom (stream : Stream) : (count : Nat) → (start : Nat) → Description → Place
  | 0, _, _ => .damaged
  | count + 1, start, d =>
    -- A description of nothing is a defect.
    let ending := if d = .empty then .finished else .damaged
    if stream.bytes.size = start then
      if stream.ends then ending else .damaged
    else if stream.bytes.size < start + blockSize then .damaged
    else
      let block := stream.bytes.extract start (start + blockSize)
      if isZeroBlock block then ending
      else if !Header.isSound block then .damaged
      else
        let header := Header.ofBlock block
        match d.sizeFor? header with
        | none => .damaged
        | some size =>
          let inner := start + blockSize
          let next := inner + blocksFor size
          if wordLimit ≤ next then .damaged
          else if header.describes then
            let contents := (stream.bytes.extract inner (inner + size)).toList
            match d.add? header.kind contents with
            | some d => memberFrom stream count next d
            | none => .damaged
          else if header.kind = .sparseFile then
            match sparseShape? stream block inner size with
            | some (shape, start) =>
              .member (.of header d stream shape start size) (next + (start - inner))
            | none => .damaged
          else
            .member (.of header d stream .full inner size) next

/-- The member at a place of an archive. Each member takes a block at least. -/
def nextMember (stream : Stream) (start : Nat) : Place :=
  memberFrom stream (stream.bytes.size / blockSize + 1) start .empty

end RamlBuild.Archive
