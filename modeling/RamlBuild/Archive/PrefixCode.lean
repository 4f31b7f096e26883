/-!
# Prefix codes

A code gives some of the numbers from zero on a word of bits, such that no word begins another. Only
the lengths of the words are told: the words of one length follow each other in the order of their
numbers, and all of them come after the shorter ones.

So a word is read level by level. On the level of its own length it is found by its distance from
the first word of that length; on the levels before, that distance tells how far behind the words of
these lengths it lies.

## Main definitions

* `PrefixCode.ofLengths?` — the code with the given lengths of words
* `PrefixCode.walk` — reads one word
-/

namespace RamlBuild.Archive

/-- A prefix code: for each length from one on, the numbers whose words have this length. -/
structure PrefixCode where
  /-- The numbers by the lengths of their words. -/
  levels : List (Array Nat)
  deriving Repr

namespace PrefixCode

/-- The length of the longest words. -/
def maxLength : Nat := 15

/-- The numbers whose words have a given length. -/
def level (lengths : List Nat) (length : Nat) : Array Nat :=
  (lengths.zipIdx.filterMap fun (l, number) => if l = length then some number else none).toArray

/-- The code with the given lengths; zero stands for a number without a word. -/
def ofLengths (lengths : List Nat) : PrefixCode :=
  ⟨(List.range maxLength).map fun k => level lengths (k + 1)⟩

/-- The room that a word of a length takes up, in units of the longest words. -/
def roomOf (length : Nat) : Nat :=
  if length = 0 then 0 else Nat.pow 2 (maxLength - length)

/-- The room that words of the given lengths take up. -/
def room (lengths : List Nat) : Nat :=
  lengths.foldl (fun total length => total + roomOf length) 0

/-- The lengths leave no word unused. -/
def isComplete (lengths : List Nat) : Bool :=
  room lengths = Nat.pow 2 maxLength

/-- The code with the given lengths, if it leaves no word unused. A code with a single word or none
at all is accepted as well. -/
def ofLengths? (lengths : List Nat) : Option PrefixCode :=
  if isComplete lengths || (lengths.filter (· != 0)).length ≤ 1 then some (ofLengths lengths)
  else none

/-- What comes of reading a word. -/
inductive Reading where
  /-- The number of the word, and the bits behind it. -/
  | found (number : Nat) (rest : List Bool)
  /-- The bits end within the word. -/
  | ended
  /-- No word begins with these bits. -/
  | unknown
  deriving Repr

/-- Reads a word from the given levels on; `distance` is the distance of the bits so far from the
first word that is not shorter. -/
def walk : (levels : List (Array Nat)) → (distance : Nat) → List Bool → Reading
  | [], _, _ => .unknown
  | _ :: _, _, [] => .ended
  | level :: longer, distance, bit :: rest =>
    -- A longer word lies twice as far from the first one, and its last bit one step further.
    let distance := 2 * distance + bit.toNat
    match level[distance]? with
    | some number => .found number rest
    | none => walk longer (distance - level.size) rest

/-- Reads a word off the front of some bits. -/
def read (code : PrefixCode) (bits : List Bool) : Reading :=
  walk code.levels 0 bits

/-- A word has at least one bit. -/
theorem length_lt_of_walk {levels : List (Array Nat)} {distance number : Nat}
    {bits rest : List Bool} (h : walk levels distance bits = .found number rest) :
    rest.length < bits.length := by
  induction levels generalizing distance bits with
  | nil => simp [walk] at h
  | cons level longer ih =>
    cases bits with
    | nil => simp [walk] at h
    | cons bit more =>
      simp only [walk] at h
      split at h
      · simp only [Reading.found.injEq] at h
        simp [h.2]
      · have := ih h
        simp only [List.length_cons]
        omega

end PrefixCode

end RamlBuild.Archive
