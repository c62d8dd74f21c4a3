namespace ParticleAutomaton

/-- The characters from one number to another. -/
structure CharRange where
  first : Nat
  last : Nat
  deriving DecidableEq, Repr

namespace CharRange

def contains (r : CharRange) (code : Nat) : Bool := r.first ≤ code && code ≤ r.last

/-- The range between two numbers, the smaller one first. -/
def between (a b : Nat) : CharRange := if a ≤ b then ⟨a, b⟩ else ⟨b, a⟩

def inter? (r s : CharRange) : Option CharRange :=
  let first := max r.first s.first
  let last := min r.last s.last
  if first ≤ last then some ⟨first, last⟩ else none

/-- The order of the first characters, then that of the last ones. -/
def le (r s : CharRange) : Bool := r.first < s.first || (r.first == s.first && r.last ≤ s.last)

end CharRange

/-- A set of characters, as ranges in order. -/
structure CharSet where
  ranges : List CharRange
  deriving DecidableEq, Repr

namespace CharSet

/-- The number of the last character. -/
def maxCode : Nat := 0x10FFFF

/-- The number of the next character; no character has a number from `0xD800` to `0xDFFF`. -/
def next (code : Nat) : Nat := if code = 0xD7FF then 0xE000 else code + 1

def prev (code : Nat) : Nat := if code = 0xE000 then 0xD7FF else code - 1

def empty : CharSet := ⟨[]⟩

def full : CharSet := ⟨[⟨0, maxCode⟩]⟩

def isEmpty (s : CharSet) : Bool := s.ranges.isEmpty

/-- Ranges that touch or overlap become one; they come in order. -/
def merge : CharRange → List CharRange → List CharRange
  | r, [] => [r]
  | r, s :: rest =>
    if s.first ≤ r.last + 1 then merge ⟨r.first, max r.last s.last⟩ rest else r :: merge s rest

def ofRanges (ranges : List CharRange) : CharSet :=
  match ranges.mergeSort CharRange.le with
  | [] => empty
  | r :: rest => ⟨merge r rest⟩

def single (c : Char) : CharSet := ⟨[⟨c.toNat, c.toNat⟩]⟩

/-- The ranges of a list of first and last numbers. -/
def ofPairs (pairs : List (Nat × Nat)) : CharSet :=
  ofRanges (pairs.map fun (first, last) => ⟨first, last⟩)

def ofCodes (codes : List Nat) : CharSet := ofRanges (codes.map fun n => ⟨n, n⟩)

/-- The ranges, in order, are those that contain a number; none behind it is looked at. -/
def memRanges (code : Nat) : List CharRange → Bool
  | [] => false
  | r :: rest => r.first ≤ code && (code ≤ r.last || memRanges code rest)

def contains (s : CharSet) (code : Nat) : Bool := memRanges code s.ranges

def mem (s : CharSet) (c : Char) : Bool := s.contains c.toNat

def union (s t : CharSet) : CharSet :=
  if t.isEmpty || s == t then s else ofRanges (s.ranges ++ t.ranges)

def unionAll (sets : List CharSet) : CharSet := ofRanges (sets.flatMap ranges)

def interRanges : List CharRange → List CharRange → List CharRange
  | [], _ | _, [] => []
  | r :: rs, s :: ss =>
    let rest := if r.last < s.last then interRanges rs (s :: ss) else interRanges (r :: rs) ss
    match r.inter? s with
    | some both => both :: rest
    | none => rest
termination_by rs ss => rs.length + ss.length

def inter (s t : CharSet) : CharSet := ⟨interRanges s.ranges t.ranges⟩

def diffRanges : List CharRange → List CharRange → List CharRange
  | [], _ => []
  | rs, [] => rs
  | r :: rs, s :: ss =>
    if s.last < r.first then diffRanges (r :: rs) ss
    else if r.last < s.first then r :: diffRanges rs (s :: ss)
    else
      let rest :=
        if s.last < r.last then diffRanges (⟨next s.last, r.last⟩ :: rs) ss
        else diffRanges rs (s :: ss)
      if r.first < s.first then ⟨r.first, prev s.first⟩ :: rest else rest
termination_by rs ss => rs.length + ss.length

def diff (s t : CharSet) : CharSet := ⟨diffRanges s.ranges t.ranges⟩

def symmDiff (s t : CharSet) : CharSet := (s.union t).diff (s.inter t)

/-- The gaps behind a number and between ranges, up to the last character. -/
def gaps : Nat → List CharRange → List CharRange
  | last, [] => if last < maxCode then [⟨next last, maxCode⟩] else []
  | last, r :: rest => .between (next last) (prev r.first) :: gaps r.last rest

/-- All other characters. -/
def compl (s : CharSet) : CharSet :=
  match s.ranges with
  | [] => full
  | r :: rest =>
    let front : List CharRange := if 0 < r.first then [⟨0, prev r.first⟩] else []
    ⟨front ++ gaps r.last rest⟩

/-- The only character of a set, if it has but one. -/
def only? (s : CharSet) : Option Char :=
  match s.ranges with
  | [r] => if r.first = r.last then some (Char.ofNat r.first) else none
  | _ => none

/-- All characters are ASCII. -/
def isAscii (s : CharSet) : Bool := s.ranges.all fun r => r.last < 0x80

end CharSet

end ParticleAutomaton
