import ParticleAutomaton.Fault
import ParticleAutomaton.Scalar

namespace ParticleAutomaton

/-- An item with its weight and the sum of the weights before it. -/
structure Bucket (α R : Type) where
  item : α
  weight : R
  start : R

/-- A choice between items by weight. -/
structure WeightedSampler (α R : Type) where
  buckets : List (Bucket α R)
  total : R
  /-- The range of draws, once it is frozen. -/
  closed : Option R

namespace WeightedSampler

variable {α R γ : Type} [Scalar R]

def empty : WeightedSampler α R := ⟨[], 0, none⟩

def isEmpty (s : WeightedSampler α R) : Bool := s.buckets.isEmpty

def toList (s : WeightedSampler α R) : List (α × R) := s.buckets.map fun b => (b.item, b.weight)

/-- Buckets that follow each other from a start on, and the sum behind the last of them. -/
def lineUp : R → List (α × R) → List (Bucket α R) × R
  | start, [] => ([], start)
  | start, (item, weight) :: items =>
    let (buckets, total) := lineUp (start + weight) items
    (⟨item, weight, start⟩ :: buckets, total)

/-- The items with their weights, all starts computed anew. -/
def rebuild (s : WeightedSampler α R) (items : List (α × R)) : WeightedSampler α R :=
  let (buckets, total) := lineUp 0 items
  { s with buckets, total }

/-- The last item takes the place of a removed one. -/
def removeSwap {β : Type} (xs : List β) (i : Nat) : List β :=
  match xs.getLast? with
  | none => []
  | some last => if i + 1 = xs.length then xs.dropLast else xs.dropLast.set i last

/-- Adds an item. One that is there already is replaced, a weight of zero removes it. -/
def add [BEq α] (s : WeightedSampler α R) (item : α) (weight : R) :
    Except Fault (WeightedSampler α R) :=
  if ¬ 0 ≤ weight then .error (.badWeight (Scalar.text weight))
  else
    match s.buckets.findIdx? (·.item == item) with
    | some i =>
      .ok (s.rebuild (if weight ≤ 0 then removeSwap s.toList i else s.toList.set i (item, weight)))
    | none =>
      if weight ≤ 0 then .ok s
      else
        .ok { s with
          buckets := s.buckets ++ [⟨item, weight, s.total⟩]
          total := s.total + weight }

/-- Freezes the range of draws, to at least one. -/
def close (s : WeightedSampler α R) : WeightedSampler α R :=
  { s with closed := some (Scalar.atLeast 1 s.total) }

def drawRange (s : WeightedSampler α R) : R := s.closed.getD s.total

/-- The weight of an item, zero if it is not there. -/
def weight [BEq α] (s : WeightedSampler α R) (item : α) : R :=
  ((s.buckets.find? (·.item == item)).map (·.weight)).getD 0

/-- The item in whose bucket a draw falls. -/
def locate (s : WeightedSampler α R) (draw : R) : Option α :=
  if s.total ≤ draw then none
  else
    match (s.buckets.takeWhile fun b => b.start ≤ draw).getLast? with
    | some b => if draw < b.start + b.weight then some b.item else none
    | none => none

/-- Draws an item; none, without a draw, if there are no items. -/
def sample [Generator R γ] (s : WeightedSampler α R) (g : γ) : Option α × γ :=
  if s.isEmpty then (none, g)
  else
    let (u, g) := Generator.next (R := R) g
    (s.locate (u * s.drawRange), g)

end WeightedSampler

end ParticleAutomaton
