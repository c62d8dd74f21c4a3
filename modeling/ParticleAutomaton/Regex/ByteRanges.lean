import ParticleAutomaton.Unicode.CharSet

namespace ParticleAutomaton

/-- The bytes from `first` to `last`. -/
structure ByteRange where
  first : Nat
  last : Nat
  deriving DecidableEq, Repr

namespace CharRange

/-- The greatest numbers of characters with one, two and three bytes. -/
def lengthBounds : List Nat := [0x7F, 0x7FF, 0xFFFF]

/-- Where a range is cut in two: the end of the first piece and the start of the second one. -/
structure Cut where
  stop : Nat
  start : Nat

/-- A cut between characters that differ in a byte before the last ones, if the range does not hold
all characters with one of these bytes; `unit` is how many have the last ones in common. -/
def unitCut? (r : CharRange) (unit : Nat) : Option Cut :=
  if r.first / unit = r.last / unit then none
  else if r.first % unit ≠ 0 then
    let start := (r.first / unit + 1) * unit
    some ⟨start - 1, start⟩
  else if r.last % unit ≠ unit - 1 then
    let start := r.last / unit * unit
    some ⟨start - 1, start⟩
  else none

/-- A cut of a range whose characters do not have every combination of the bytes of the first one
and the last one. -/
def cut? (r : CharRange) : Option Cut :=
  if r.first < 0xE000 ∧ 0xD7FF < r.last then some ⟨0xD7FF, 0xE000⟩
  else
    match lengthBounds.find? fun bound => r.first ≤ bound && bound < r.last with
    | some bound => some ⟨bound, bound + 1⟩
    | none => if r.last < 0x80 then none else [0x40, 0x1000, 0x40000].findSome? r.unitCut?

/-- The bytes of a character. -/
def bytesOf (code : Nat) : List Nat :=
  if code < 0x80 then [code]
  else if code < 0x800 then [0xC0 + code / 0x40, 0x80 + code % 0x40]
  else if code < 0x10000 then
    [0xE0 + code / 0x1000, 0x80 + code / 0x40 % 0x40, 0x80 + code % 0x40]
  else
    [0xF0 + code / 0x40000, 0x80 + code / 0x1000 % 0x40, 0x80 + code / 0x40 % 0x40,
      0x80 + code % 0x40]

/-- The sequences of bytes of the characters of a range, each as a range for every byte. A range is
cut at most `fuel` times on the way to one of them. -/
def byteRanges : Nat → CharRange → List (List ByteRange)
  | 0, _ => []
  | fuel + 1, r =>
    match r.cut? with
    | some ⟨stop, start⟩ => byteRanges fuel ⟨r.first, stop⟩ ++ byteRanges fuel ⟨start, r.last⟩
    | none => [((bytesOf r.first).zip (bytesOf r.last)).map fun (a, b) => ⟨a, b⟩]

/-- More cuts than a sequence can need: one at the gap, three by length, and two by each byte but
the last. -/
def maxCuts : Nat := 16

end CharRange

/-- The sequences of bytes of the characters of a set. -/
def CharSet.byteRanges (s : CharSet) : List (List ByteRange) :=
  s.ranges.flatMap (CharRange.byteRanges CharRange.maxCuts)

end ParticleAutomaton
