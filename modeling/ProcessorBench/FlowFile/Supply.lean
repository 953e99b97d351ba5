import ProcessorBench.FlowFile.Basic

/-!
# Fresh numbers, identifiers and buffers

All that must not repeat comes from one `Supply`.  Flow file numbers are machine words and start
over after the last one.  Unique identifiers and dates come from outside: the `Sources` of a supply
tell what the generators of identifiers give out, and what the clock shows.  They may be anything;
where it matters that no identifier is given out twice, that is said.

To try things out there are sources that need nothing from outside.  There an identifier is a number
written as thirty hexadecimal digits with a fixed pattern added to each digit, so different numbers
below `16 ^ 30` have different identifiers, and the clock stands still.
-/

namespace ProcessorBench

namespace Uuid

/-- What is added to the hexadecimal digits of a number, least significant digit first. -/
def pattern : List Nat :=
  [11, 3, 14, 7, 0, 9, 5, 12, 2, 8, 15, 1, 6, 13, 4, 10, 7, 3, 12, 9, 1, 14, 5, 8, 0, 11, 6, 2, 13,
    15]

/-- The digits of the identifier with the given number. -/
def digits (n : Nat) : List UInt8 :=
  pattern.zipIdx.map fun (shift, i) => Text.hexDigit ((n >>> (4 * i) + shift) % 16)

/-- The identifier with the given number: groups of 8, 4, 4, 4 and 12 digits, of which the first
ones of the third and the fourth group are fixed. -/
def text (n : Nat) : Text :=
  let d := digits n
  Text.join [d.take 8, "-", (d.drop 8).take 4, "-4", (d.drop 12).take 3, "-a", (d.drop 15).take 3,
    "-", d.drop 18]

/-- The text is written like an identifier: 36 characters, dashes between the groups, lower-case
hexadecimal digits everywhere else. -/
def hasShape (t : Text) : Bool :=
  t.length = 36 && t.zipIdx.all fun (b, i) =>
    if i ∈ [8, 13, 18, 23] then b = 45 else (48 ≤ b && b ≤ 57) || (97 ≤ b && b ≤ 102)

end Uuid

/-- What fresh things need from outside. -/
structure Sources where
  /-- The unique identifiers in the order in which they are drawn, whichever session draws them. -/
  uuid : Nat → Text
  /-- What the clock shows when it is read, one reading after the other: seconds since the epoch. -/
  clock : Nat → Int

/-- Sources that count. -/
def Sources.counting : Sources := ⟨Uuid.text, fun _ => 0⟩

/-- What the next fresh things are made of. -/
structure Supply where
  sources : Sources := .counting
  /-- The number of the next flow file. -/
  nextId : UInt64 := 0
  /-- How many unique identifiers were drawn. -/
  uuids : Nat := 0
  /-- How often the clock was read. -/
  readings : Nat := 0
  /-- How many buffers were made. -/
  buffers : Nat := 0
  deriving Inhabited

namespace Supply

def takeId (s : Supply) : UInt64 × Supply := (s.nextId, { s with nextId := s.nextId + 1 })

/-- Draws a unique identifier. -/
def takeUuid (s : Supply) : Text × Supply :=
  (s.sources.uuid s.uuids, { s with uuids := s.uuids + 1 })

/-- Reads the clock. -/
def readClock (s : Supply) : Int × Supply :=
  (s.sources.clock s.readings, { s with readings := s.readings + 1 })

/-- A new buffer with the given bytes. -/
def takeBuffer (s : Supply) (bytes : List UInt8) : Buffer × Supply :=
  (⟨.session s.buffers, bytes⟩, { s with buffers := s.buffers + 1 })

end Supply

end ProcessorBench
