import Std.Data.HashMap
import ParticleAutomaton.Particle.Outcome
import ParticleAutomaton.Rules.Rulebook
import ParticleAutomaton.Sampling.WeightedSampler

namespace ParticleAutomaton

/-- The rules for a particle as a source, by direction, and how often each direction is tried. -/
structure SourceRules (R : Type) where
  matched : List (List (NameMatch R))
  rates : WeightedSampler Direction R

/-- A named state. The last three fields remember what the rules say about it. -/
structure Particle (R : Type) where
  name : String
  appearance : Appearance
  /-- The number of cells that hold it. -/
  count : Nat
  sources : Option (SourceRules R)
  transforms : Std.HashMap (Direction × ParticleId) (WeightedSampler (Outcome R) R)
  energies : Std.HashMap (String × ParticleId) (List (EnergyRule R))

namespace Particle

variable {R : Type}

def new (name : String) (appearance : Appearance) : Particle R :=
  ⟨name, appearance, 0, none, ∅, ∅⟩

/-- Forgets what the rules say. -/
def flush (p : Particle R) : Particle R :=
  { p with sources := none, transforms := ∅, energies := ∅ }

end Particle

/-- The rules for a name as a source. The rate of a direction is the sum of the probabilities of its
rules, at most one. -/
def SourceRules.ofName {R : Type} [Scalar R] (b : Rulebook R) (name : String) :
    Except Fault (SourceRules R) := do
  let matched := (List.range b.topology.count).map (b.sourceMatches name)
  let rates ← matched.zipIdx.foldlM (fun rates (ms, d) =>
    rates.add d (Scalar.atMost 1 (Scalar.sum (ms.map (·.rule.rule.prob))))) .empty
  .ok ⟨matched, rates⟩

end ParticleAutomaton
