import ParticleAutomaton.Grid.Bonds

namespace ParticleAutomaton

/-- The bonds that cells are going to have, by place. -/
structure Plan where
  edits : List (Point × CellBonds)

namespace Plan

def empty : Plan := ⟨[]⟩

def get? (plan : Plan) (p : Point) : Option CellBonds := plan.edits.lookup p

def insertEdit (p : Point) (b : CellBonds) : List (Point × CellBonds) → List (Point × CellBonds)
  | [] => [(p, b)]
  | (q, c) :: rest =>
    if q = p then (p, b) :: rest
    else if p.before q then (p, b) :: (q, c) :: rest
    else (q, c) :: insertEdit p b rest

/-- Changes the bonds that a cell is going to have; a cell that is not in the plan enters it with
the bonds that it has. -/
def edit (plan : Plan) (g : Grid) (p : Point) (f : CellBonds → CellBonds) : Plan :=
  match (plan.get? p).or ((g.get? p).map (·.bonds)) with
  | none => plan
  | some b => ⟨insertEdit p (f b) plan.edits⟩

/-- The bonds of a cell in the plan or on the grid. -/
def bondsAt (plan : Plan) (g : Grid) (p : Point) : Option CellBonds :=
  (plan.get? p).or ((g.get? p).map (·.bonds))

/-- Takes a bond off both of its cells. -/
def drop (g : Grid) (plan : Plan) (b : Bond) : Plan :=
  (plan.edit g b.origin (·.dropOutgoing b.name (b.destination - b.origin))).edit g
    b.destination (·.dropIncoming b.name (b.origin - b.destination))

/-- Writes a bond to its cells. A bond of the same name that leaves its origin or enters its
destination makes way. -/
def add (g : Grid) (plan : Plan) (b : Bond) : Plan :=
  let plan := plan.edit g b.origin id
  let after := (plan.get? b.origin).bind fun c => c.outgoing.get? b.name
  let plan := match after.map (b.origin + ·) with
    | some old => if old = b.destination then plan else drop g plan ⟨b.origin, old, b.name⟩
    | none => plan
  let plan := plan.edit g b.destination id
  let before := (plan.get? b.destination).bind fun c => c.incoming.get? b.name
  let plan := match before.map (b.destination + ·) with
    | some old => if old = b.origin then plan else drop g plan ⟨old, b.destination, b.name⟩
    | none => plan
  (plan.edit g b.origin (·.addOutgoing b.name (b.destination - b.origin))).edit g
    b.destination (·.addIncoming b.name (b.origin - b.destination))

end Plan

end ParticleAutomaton
