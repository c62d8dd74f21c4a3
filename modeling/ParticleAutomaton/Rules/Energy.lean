import ParticleAutomaton.Lattice.Metric
import ParticleAutomaton.Regex.NamePattern
import ParticleAutomaton.Rules.Error

namespace ParticleAutomaton

variable {R : Type} [Scalar R]

/-- The weight of a value beside a window: one inside, falling to nothing over a tolerance, and none
beyond it. -/
def taper (value : R) (min max : Option R) (tolerance : R) : Option R := do
  let below ← match min with
    | none => some 1
    | some min =>
      if value < min then
        if tolerance ≤ 0 ∨ value < min - tolerance then none
        else some (Scalar.atMost 1 ((value - (min - tolerance)) / tolerance))
      else some 1
  match max with
  | none => some below
  | some max =>
    if max < value then
      if tolerance ≤ 0 ∨ max + tolerance < value then none
      else some (Scalar.atMost below ((max + tolerance - value) / tolerance))
    else some below

/-- The window of lengths and of angles in which a bond counts. -/
structure BondGeometry (R : Type) where
  minLen : Option R
  maxLen : Option R
  lenTolerance : R
  minAngle : Option R
  maxAngle : Option R
  angleTolerance : R

namespace BondGeometry

def constrainsAngle (g : BondGeometry R) : Bool := g.minAngle.isSome || g.maxAngle.isSome

/-- The weight of a bond with an offset, after a bond with another one. -/
def factor (g : BondGeometry R) (t : Topology) (offset : Point) (previous : Option Point) :
    Option R := do
  if offset.isZero then none
  let length ← taper (t.length offset) g.minLen g.maxLen g.lenTolerance
  if g.constrainsAngle then
    let turn ← t.turnAngle (← previous) offset
    let angle ← taper turn g.minAngle g.maxAngle g.angleTolerance
    some (length * angle)
  else some length

end BondGeometry

structure EnergyRecord (R : Type) where
  source : Option String
  target : Option String
  bond : Option String
  energy : Option R
  geometry : BondGeometry R

/-- The energy of a bond between particles whose names two patterns accept. -/
structure EnergyRule (R : Type) where
  source : NamePattern
  target : NamePattern
  bond : String
  energy : R
  geometry : BondGeometry R

namespace EnergyRule

def ofRecord? (r : EnergyRecord R) : Except RuleError (EnergyRule R) := do
  let missing {α : Type} (field : String) : Except RuleError α :=
    .error (.missingField "energy" field)
  let some source := r.source | missing "source"
  let some target := r.target | missing "target"
  let some bond := r.bond | missing "bond"
  let some energy := r.energy | missing "energy"
  let some sourcePattern := NamePattern.parse? source | .error (.invalidPattern source)
  let some targetPattern := NamePattern.parse? target | .error (.invalidPattern target)
  .ok ⟨sourcePattern, targetPattern, bond, energy, r.geometry⟩

def matchesPair (r : EnergyRule R) (source target : String) : Bool :=
  r.source.accepts source && r.target.accepts target

/-- The energy of rules that all match, each with its weight. -/
def sum (rules : List (EnergyRule R)) (t : Topology) (offset : Point)
    (previous : Option Point) : R :=
  Scalar.sum (rules.filterMap fun r => (r.geometry.factor t offset previous).map (· * r.energy))

end EnergyRule

end ParticleAutomaton
