import ParticleAutomaton.Update.Event

namespace ParticleAutomaton

namespace Bond

/-- Bonds are ordered by origin, destination and name. -/
def before (a b : Bond) : Bool :=
  a.origin.before b.origin ||
    (a.origin == b.origin &&
      (a.destination.before b.destination ||
        (a.destination == b.destination && Text.before a.name b.name)))

/-- Adds a bond to bonds in order, unless it is there. -/
def insertSorted (b : Bond) : List Bond → List Bond
  | [] => [b]
  | c :: cs =>
    if c = b then c :: cs else if b.before c then b :: c :: cs else c :: insertSorted b cs

end Bond

/-- The bonds of a cell. -/
def CellBonds.bondsAt (p : Point) (b : CellBonds) : List Bond :=
  b.outgoing.entries.map (fun (name, offset) => ⟨p, p + offset, name⟩) ++
    b.incoming.entries.map fun (name, offset) => ⟨p + offset, p, name⟩

namespace UpdateEvent

variable {R : Type} [Scalar R]

/-- The bonds of a cell before or after the change. -/
def bondsAt (e : UpdateEvent R) (g : Grid) (after : Bool) (p : Point) : Option CellBonds :=
  if after then e.plan.bondsAt g p else (g.get? p).map (·.bonds)

/-- The particle of a cell before or after the change. -/
def particleAt (e : UpdateEvent R) (g : Grid) (after : Bool) (p : Point) : Option ParticleId :=
  if p = e.target then some (if after then e.newTarget else e.oldTarget)
  else if p = e.source ∧ !e.remote then some (if after then e.newSource else e.oldSource)
  else (g.get? p).map (·.particle)

/-- The bonds at the ends of the change and at the cells of its plan, in order. -/
def nearBonds (e : UpdateEvent R) (g : Grid) (after : Bool) : List Bond :=
  (e.ends ++ e.plan.edits.map Prod.fst).foldl (fun bonds p =>
    (((e.bondsAt g after p).map (CellBonds.bondsAt p)).getD []).foldl
      (fun bonds b => b.insertSorted bonds) bonds) []

/-- Adds the energy of a bond. Its angle is that to the bond of its name that enters its origin. -/
def addEnergy (e : UpdateEvent R) (g : Grid) (after : Bool) (state : R × Registry R) (b : Bond) :
    R × Registry R :=
  let (sum, r) := state
  match e.particleAt g after b.origin, e.particleAt g after b.destination with
  | some source, some target =>
    if g.contains b.origin ∧ g.contains b.destination then
      let previous := (e.bondsAt g after b.origin).bind fun c =>
        (c.incoming.get? b.name).map (- ·)
      let (energy, r) := r.bondEnergy source b.name target (b.destination - b.origin) previous
      (sum + energy, r)
    else state
  | _, _ => state

/-- The energy of the bonds near the change, before or after it. -/
def localEnergy (e : UpdateEvent R) (g : Grid) (r : Registry R) (after : Bool) : R × Registry R :=
  (e.nearBonds g after).foldl (e.addEnergy g after) (0, r)

/-- The energy that the change gains, with a barrier where the source changes. -/
def energyDelta (e : UpdateEvent R) (g : Grid) (r : Registry R) (barrier : R) : R × Registry R :=
  if !e.sourceChanges && !e.targetChanges && e.plan.edits.isEmpty then (0, r)
  else
    let (old, r) := e.localEnergy g r false
    let (new, r) := e.localEnergy g r true
    ((if e.sourceChanges then barrier else 0) + new - old, r)

end UpdateEvent

end ParticleAutomaton
