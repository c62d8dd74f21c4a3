import ParticleAutomaton.Macro.Expansion
import ParticleAutomaton.Regex.NamePattern
import ParticleAutomaton.Rules.Error
import ParticleAutomaton.Scalar

namespace ParticleAutomaton

/-- A named bond between two places, which labels stand for. -/
structure BondExpr where
  origin : String
  destination : String
  name : String
  deriving DecidableEq, Repr

structure TransformRecord (R : Type) where
  start : Option String := none
  dir : Option String := none
  source : Option String := none
  target : Option String := none
  newSource : Option String := none
  newTarget : Option String := none
  prob : Option R := none
  verb : Option String := none
  required : List BondExpr := []
  optional : List BondExpr := []
  excluded : List BondExpr := []
  created : List BondExpr := []

/-- A rule that turns two neighbors into two others. -/
structure TransformRule (R : Type) where
  /-- The names that the rule is for start with this text. -/
  start : Option String
  /-- The only direction of the rule. -/
  dir : Option Direction
  source : Template
  target : Template
  newSource : Template
  newTarget : Template
  prob : R
  verb : Template
  required : List BondExpr
  optional : List BondExpr
  excluded : List BondExpr
  created : List BondExpr

namespace BondExpr

def check (e : BondExpr) : Except RuleError Unit :=
  if e.origin = "" ∨ e.destination = "" ∨ e.name = "" then
    .error (.invalidBond e.origin e.destination e.name)
  else .ok ()

end BondExpr

def checkPattern (text : String) : Except RuleError Unit :=
  if (NamePattern.parse? text).isSome then .ok () else .error (.invalidPattern text)

namespace TransformRule

variable {R : Type}

/-- The rule holds in a direction. -/
def appliesTo (r : TransformRule R) (d : Direction) : Bool := r.dir.all (· == d)

def hasBonds (r : TransformRule R) : Bool :=
  !(r.required.isEmpty && r.optional.isEmpty && r.excluded.isEmpty && r.created.isEmpty)

def direction? (t : Topology) : Option String → Except RuleError (Option Direction)
  | none => .ok none
  | some name =>
    match t.find? name with
    | some d => .ok (some d)
    | none => .error (.unknownDirection name)

/-- A rule keeps a particle whose new name is not given, and happens always unless a probability
is. Both patterns are checked for the first direction of the rule. -/
def ofRecord? [Scalar R] (t : Topology) (r : TransformRecord R) :
    Except RuleError (TransformRule R) := do
  let some source := r.source | .error (.missingField "rule" "source")
  let some target := r.target | .error (.missingField "rule" "target")
  let prob := r.prob.getD 1
  if ¬ 0 ≤ prob then .error (.invalidProbability (Scalar.text prob))
  let dir ← direction? t r.dir
  (r.required ++ r.optional ++ r.excluded ++ r.created).forM BondExpr.check
  let source := Template.parse source
  let target := Template.parse target
  let ctx := Context.ofDirection t (dir.getD 0)
  checkPattern (source.expandPattern ctx)
  checkPattern (target.expandPattern ctx)
  .ok {
    start := r.start, dir, source, target
    newSource := Template.parse (r.newSource.getD "$S")
    newTarget := Template.parse (r.newTarget.getD "$T")
    prob
    verb := Template.parse (r.verb.getD "")
    required := r.required, optional := r.optional
    excluded := r.excluded, created := r.created }

end TransformRule

end ParticleAutomaton
