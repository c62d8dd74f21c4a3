import ParticleAutomaton.Fault
import ParticleAutomaton.Rules.Transform

namespace ParticleAutomaton

/-- The text that every match of a pattern starts with, as far as it can be seen from the front. -/
def literalStart (pattern : List Char) : List Char :=
  if pattern.contains '|' then []
  else
    let plain := pattern.takeWhile fun c => !isMark c
    match (pattern.dropWhile fun c => !isMark c).head? with
    | some c => if ['*', '?', '\x7b'].contains c then plain.dropLast else plain
    | none => plain
where
  isMark (c : Char) : Bool :=
    ['\\', '.', '+', '*', '?', '(', ')', '|', '[', ']', '\x7b', '\x7d', '^', '$'].contains c

/-- A rule seen in one direction. -/
structure DirectedRule (R : Type) where
  rule : TransformRule R
  topology : Topology
  dir : Direction
  /-- The pattern of the source; none if the direction leaves no valid one. -/
  source : Option NamePattern
  /-- The names of sources start with this text. -/
  start : String

namespace DirectedRule

variable {R : Type}

def ofRule (rule : TransformRule R) (t : Topology) (d : Direction) : DirectedRule R :=
  let text := rule.source.expandPattern (Context.ofDirection t d)
  { rule, topology := t, dir := d
    source := NamePattern.parse? text
    start := rule.start.getD (String.ofList (literalStart text.toList)) }

/-- A quick test that comes before the pattern. -/
def mayMatch (d : DirectedRule R) (name : String) : Bool :=
  d.source.isSome && d.start.toList.isPrefixOf name.toList

end DirectedRule

/-- A source with its captured texts, and the pattern that they make of the target. -/
structure SourceSlot where
  name : String
  groups : List String
  target : Option NamePattern
  deriving DecidableEq

structure TargetSlot where
  name : String
  groups : List String
  deriving DecidableEq

/-- The names that a rule is tried on; the source comes first. -/
inductive Slots
  | free
  | source (s : SourceSlot)
  | both (s : SourceSlot) (t : TargetSlot)
  deriving DecidableEq

/-- A rule that is tried on one source and on many targets in turn. -/
structure NameMatch (R : Type) where
  rule : DirectedRule R
  slots : Slots

namespace NameMatch

variable {R : Type}

def new (rule : DirectedRule R) : NameMatch R := ⟨rule, .free⟩

def sourceName? (m : NameMatch R) : Option String :=
  match m.slots with
  | .free => none
  | .source s | .both s _ => some s.name

def targetName? (m : NameMatch R) : Option String :=
  match m.slots with
  | .both _ t => some t.name
  | _ => none

/-- What a source makes of a rule, if the rule is for it. -/
def sourceSlot? (rule : DirectedRule R) (name : String) : Option SourceSlot := do
  if !rule.mayMatch name then none
  let groups ← (← rule.source).groups? name
  let target := rule.rule.target.expandPattern
    ⟨rule.topology, rule.dir, some name, none, groups⟩
  some ⟨name, groups, NamePattern.parse? target⟩

def targetSlot? (s : SourceSlot) (name : String) : Option TargetSlot := do
  some ⟨name, ← (← s.target).groups? name⟩

/-- Tries a source; false if the rule is not for it. -/
def bindSource (m : NameMatch R) (name : String) : Except Fault (Bool × NameMatch R) :=
  match m.slots with
  | .source s | .both s _ => .error (.sourceBound s.name)
  | .free =>
    match sourceSlot? m.rule name with
    | some s => .ok (true, { m with slots := .source s })
    | none => .ok (false, m)

/-- Tries a target; false if the rule is not for it. -/
def bindTarget (m : NameMatch R) (name : String) : Except Fault (Bool × NameMatch R) :=
  match m.slots with
  | .free => .error .targetBeforeSource
  | .both _ t => .error (.targetBound t.name)
  | .source s =>
    match targetSlot? s name with
    | some t => .ok (true, { m with slots := .both s t })
    | none => .ok (false, m)

def unbindTarget (m : NameMatch R) : NameMatch R :=
  match m.slots with
  | .both s _ => { m with slots := .source s }
  | _ => m

def unbind (m : NameMatch R) : NameMatch R := { m with slots := .free }

/-- What the directives of a template refer to once both slots are bound. -/
def context (m : NameMatch R) (s : SourceSlot) (t : TargetSlot) : Context :=
  ⟨m.rule.topology, m.rule.dir, some s.name, some t.name, s.groups ++ t.groups⟩

def expand (m : NameMatch R) (template : Template) : Except Fault String :=
  match m.slots with
  | .both s t => .ok (template.expand (m.context s t))
  | _ => .error .expandUnbound

def newSource (m : NameMatch R) : Except Fault String := m.expand m.rule.rule.newSource

def newTarget (m : NameMatch R) : Except Fault String := m.expand m.rule.rule.newTarget

def verb (m : NameMatch R) : Except Fault String := m.expand m.rule.rule.verb

end NameMatch

end ParticleAutomaton
