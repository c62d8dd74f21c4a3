import ParticleAutomaton.Particle.Arena
import ParticleAutomaton.Rules.Transform

namespace ParticleAutomaton

/-- What two neighbors may turn into. -/
structure Outcome (R : Type) where
  newSource : ParticleId
  newTarget : ParticleId
  verb : String
  /-- The rule that says so; none where nothing happens. -/
  rule : Option (TransformRule R)

namespace Outcome

variable {R : Type}

/-- Nothing happens. -/
def idle (source target : ParticleId) : Outcome R := ⟨source, target, "", none⟩

def isIdle (o : Outcome R) : Bool := o.rule.isNone

/-- Outcomes count as one if the same particles come out, and nothing happening is one of its own. -/
instance : BEq (Outcome R) :=
  ⟨fun o p =>
    o.newSource == p.newSource && o.newTarget == p.newTarget && o.isIdle == p.isIdle⟩

end Outcome

end ParticleAutomaton
