import ParticleAutomaton.Particle.Registry
import ParticleAutomaton.Update.Labels
import ParticleAutomaton.Update.Plan

namespace ParticleAutomaton

/-- A proposed change of two neighbors. -/
structure UpdateEvent (R : Type) where
  source : Point
  target : Point
  dir : Direction
  oldSource : ParticleId
  oldTarget : ParticleId
  outcome : Outcome R
  /-- The source is on another board. -/
  remote : Bool
  bound : Bool
  labels : Labels
  plan : Plan

namespace UpdateEvent

variable {R : Type}

def new (source target : Point) (dir : Direction) (oldSource oldTarget : ParticleId)
    (outcome : Outcome R) : UpdateEvent R :=
  ⟨source, target, dir, oldSource, oldTarget, outcome, false, false, .empty, .empty⟩

/-- A change whose source is on another board. -/
def ofRemote (source target : Point) (dir : Direction) (oldSource oldTarget : ParticleId)
    (outcome : Outcome R) : UpdateEvent R :=
  { new source target dir oldSource oldTarget outcome with remote := true }

def newSource (e : UpdateEvent R) : ParticleId := e.outcome.newSource

def newTarget (e : UpdateEvent R) : ParticleId := e.outcome.newTarget

def sourceChanges (e : UpdateEvent R) : Bool := e.newSource != e.oldSource

def targetChanges (e : UpdateEvent R) : Bool := e.newTarget != e.oldTarget

def label? (e : UpdateEvent R) (label : String) : Option Point := e.labels.get? label

/-- The places of the change that are on this board. -/
def ends (e : UpdateEvent R) : List Point :=
  if e.remote then [e.target] else [e.source, e.target]

def changesAt (e : UpdateEvent R) (p : Point) : Bool :=
  (p == e.source && !e.remote && e.sourceChanges) || (p == e.target && e.targetChanges)

/-- The bonds that a rule creates; none if one of them has no place or would be a loop. -/
def createdBonds (l : Labels) (created : List BondExpr) : Option (List Bond) :=
  created.mapM fun e => do
    let a ← l.get? e.origin
    let b ← l.get? e.destination
    if a = b then none else some ⟨a, b, e.name⟩

/-- The bonds at an end that do not last: all if its particle changes, otherwise those that were
found. -/
def droppedAt (e : UpdateEvent R) (g : Grid) (l : Labels) (p : Point) : List Bond :=
  match g.get? p with
  | none => []
  | some c =>
    let goes (origin : Point) (name : String) : Bool :=
      e.changesAt p || l.found.contains (origin, name)
    (c.bonds.outgoing.entries.filter fun (name, _) => goes p name).map
        (fun (name, offset) => ⟨p, p + offset, name⟩) ++
      (c.bonds.incoming.entries.filter fun (name, offset) => goes (p + offset) name).map
        fun (name, offset) => ⟨p + offset, p, name⟩

/-- The plan that drops and creates the bonds of a change. -/
def planFor? (e : UpdateEvent R) (g : Grid) (l : Labels) (created : List BondExpr) :
    Option Plan := do
  let bonds ← createdBonds l created
  let dropped := e.ends.flatMap (e.droppedAt g l)
  some (bonds.foldl (Plan.add g) (dropped.foldl (Plan.drop g) .empty))

/-- Finds the bonds of a rule and plans the change; the plan is none if the change is impossible. -/
def planRule (e : UpdateEvent R) (g : Grid) (l : Labels) (rule : TransformRule R) :
    Option Plan × Labels :=
  if e.remote ∧ rule.hasBonds then (none, l)
  else
    match l.resolve g true rule.required with
    | (false, l) => (none, l)
    | (true, l) =>
      let (_, l) := l.resolve g false rule.optional
      if rule.excluded.any fun x => l.look g x != .missing then (none, l)
      else (e.planFor? g l rule.created, l)

/-- Binds the labels of the rule and plans the change; false if it is impossible. -/
def bind (e : UpdateEvent R) (g : Grid) : Except Fault (Bool × UpdateEvent R) :=
  if e.bound then .error .eventBound
  else
    let l := Labels.ofEnds e.source e.target
    match e.outcome.rule with
    | none => .ok (true, { e with bound := true, labels := l })
    | some rule =>
      match e.planRule g l rule with
      | (some plan, l) => .ok (true, { e with bound := true, labels := l, plan })
      | (none, l) => .ok (false, { e with bound := true, labels := l })

variable [Scalar R]

/-- Writes a new particle to a cell. -/
def write (state : List Point × Grid × Registry R) (p : Point) (old new : ParticleId) :
    Except Fault (List Point × Grid × Registry R) := do
  let (touched, g, r) := state
  if !g.contains p then .ok state
  else
    let r ← if old ≠ new then (r.dropCount old).map (·.addCount new) else .ok r
    let g := g.modify p fun c => { c with particle := new, writes := c.writes + 1 }
    .ok (touched ++ [p], g, r)

/-- Writes the change. All cells whose particle or bonds are written are told, the ends first. -/
def commit (e : UpdateEvent R) (g : Grid) (r : Registry R) :
    Except Fault (List Point × Grid × Registry R) := do
  let state := ([], g, r)
  let state ← if e.remote then .ok state else write state e.source e.oldSource e.newSource
  let (touched, g, r) ← write state e.target e.oldTarget e.newTarget
  let g := e.plan.edits.foldl (fun g (p, bonds) => g.modifyBonds p fun _ => bonds) g
  let touched := e.plan.edits.foldl (fun touched (p, _) =>
    if touched.contains p then touched else touched ++ [p]) touched
  .ok (touched, g, r)

end UpdateEvent

end ParticleAutomaton
