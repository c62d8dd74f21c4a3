import ParticleAutomaton.Rules.Appearance
import ParticleAutomaton.Rules.Energy
import ParticleAutomaton.Rules.Match

namespace ParticleAutomaton

/-- The records that a rulebook is made of, in the order in which they were declared. -/
structure RuleRecords (R : Type) where
  particles : List AppearanceRecord
  rules : List (TransformRecord R)
  energies : List (EnergyRecord R)

/-- All rules of a board. -/
structure Rulebook (R : Type) where
  topology : Topology
  appearances : List AppearanceRule
  rules : List (TransformRule R)
  /-- For each direction the rules that hold in it. -/
  directed : List (List (DirectedRule R))
  energies : List (EnergyRule R)

namespace Rulebook

variable {R : Type} [Scalar R]

/-- The first record that is no rule refuses them all. -/
def ofRecords? (t : Topology) (records : RuleRecords R) : Except RuleError (Rulebook R) := do
  let appearances ← records.particles.mapM AppearanceRule.ofRecord?
  let rules ← records.rules.mapM (TransformRule.ofRecord? t)
  let energies ← records.energies.mapM EnergyRule.ofRecord?
  let directed := (List.range t.count).map fun d =>
    (rules.filter (·.appliesTo d)).map fun r => DirectedRule.ofRule r t d
  .ok ⟨t, appearances, rules, directed, energies⟩

/-- The look that the first fitting rule gives, or the plain one. -/
def appearance (b : Rulebook R) (name : String) : Appearance :=
  ((b.appearances.find? (·.pattern.accepts name)).map (·.appearance)).getD .plain

/-- The rules that give a look to one name only. -/
def literals (b : Rulebook R) : List (String × Color) :=
  b.appearances.filterMap fun a => a.literalName?.map (·, a.appearance.color)

def directedRules (b : Rulebook R) (d : Direction) : List (DirectedRule R) :=
  b.directed[d]?.getD []

/-- The rules for a source in a direction, ready to be tried on targets. -/
def sourceMatches (b : Rulebook R) (name : String) (d : Direction) : List (NameMatch R) :=
  (b.directedRules d).filterMap fun rule =>
    (NameMatch.sourceSlot? rule name).map fun s => ⟨rule, .source s⟩

/-- The energy rules of a bond between two particles. -/
def energyRules (b : Rulebook R) (source target bond : String) : List (EnergyRule R) :=
  b.energies.filter fun r => r.bond == bond && r.matchesPair source target

/-- The energy of a bond with an offset, after a bond with another one. -/
def energy (b : Rulebook R) (source target bond : String) (offset : Point)
    (previous : Option Point) : R :=
  EnergyRule.sum (b.energyRules source target bond) b.topology offset previous

end Rulebook

end ParticleAutomaton
