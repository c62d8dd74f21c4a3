import ParticleAutomaton.Board.Basic
import ParticleAutomaton.Update.Energy

namespace ParticleAutomaton

/-- What an attempt to change two neighbors came to. -/
inductive StepOutcome
  | idle
  | offGrid
  | noInteraction
  | noChange
  | bindFailed
  | rejected
  | accepted
  | remoteRequested
  deriving DecidableEq, Repr

def StepOutcome.label : StepOutcome → String
  | .idle => "Idle"
  | .offGrid => "OffGrid"
  | .noInteraction => "NoInteraction"
  | .noChange => "NoChange"
  | .bindFailed => "BindFailed"
  | .rejected => "Rejected"
  | .accepted => "Accepted"
  | .remoteRequested => "RemoteRequested"

/-- How often attempts came to what. -/
structure UpdateStats where
  attempts : Nat := 0
  accepted : Nat := 0
  rejected : Nat := 0
  bindFailures : Nat := 0
  noOps : Nat := 0
  offGrid : Nat := 0
  remoteRequests : Nat := 0
  idle : Nat := 0
  deriving DecidableEq, Repr

namespace UpdateStats

def record (s : UpdateStats) (outcome : StepOutcome) : UpdateStats :=
  let s := { s with attempts := s.attempts + 1 }
  match outcome with
  | .idle => { s with idle := s.idle + 1 }
  | .offGrid => { s with offGrid := s.offGrid + 1 }
  | .noInteraction | .noChange => { s with noOps := s.noOps + 1 }
  | .bindFailed => { s with bindFailures := s.bindFailures + 1 }
  | .rejected => { s with rejected := s.rejected + 1 }
  | .accepted => { s with accepted := s.accepted + 1 }
  | .remoteRequested => { s with remoteRequests := s.remoteRequests + 1 }

def merge (s t : UpdateStats) : UpdateStats :=
  ⟨s.attempts + t.attempts, s.accepted + t.accepted, s.rejected + t.rejected,
    s.bindFailures + t.bindFailures, s.noOps + t.noOps, s.offGrid + t.offGrid,
    s.remoteRequests + t.remoteRequests, s.idle + t.idle⟩

end UpdateStats

namespace Board

variable {R γ : Type} [Scalar R] [Generator R γ]

/-- A gain of energy is always accepted, a loss with ten to its power as the probability. -/
def accept (b : Board R γ) (delta : R) : Bool × Board R γ :=
  if 0 < delta then (true, b)
  else
    let (u, random) := Generator.next (R := R) b.random
    (u < Scalar.tenPow delta, { b with random })

/-- Writes a change and shows it. -/
def commit (b : Board R γ) (e : UpdateEvent R) : Except Fault (Board R γ) := do
  let notice : VerbNotice :=
    ⟨e.source, e.target, b.registry.name e.oldSource, b.registry.name e.oldTarget,
      b.registry.name e.newSource, b.registry.name e.newTarget, e.outcome.verb⟩
  let (touched, grid, registry) ← e.commit b.grid b.registry
  let b ← { b with grid, registry }.refreshRates touched
  let b := b.drawAll touched
  .ok (if e.outcome.verb = "" then b else { b with journal := b.journal.announce notice })

/-- Binds a change, weighs its energy against a barrier and commits it if it is accepted; the energy
is told with the outcome. -/
def propose (b : Board R γ) (e : UpdateEvent R) (barrier : R) :
    Except Fault (StepOutcome × R × Board R γ) := do
  let (bound, e) ← e.bind b.grid
  if !bound then .ok (.bindFailed, 0, b)
  else
    let (delta, registry) := e.energyDelta b.grid b.registry barrier
    let (accepted, b) := { b with registry }.accept delta
    if accepted then .ok (.accepted, delta, ← b.commit e) else .ok (.rejected, delta, b)

/-- Adds the energy of a bond between two cells of the grid. -/
def addBondEnergy (g : Grid) (state : R × Registry R) (bond : Bond) : R × Registry R :=
  match g.get? bond.origin, g.get? bond.destination with
  | some source, some target =>
    let previous := (source.bonds.incoming.get? bond.name).map (- ·)
    let (energy, r) := state.2.bondEnergy source.particle bond.name target.particle
      (bond.destination - bond.origin) previous
    (state.1 + energy, r)
  | _, _ => state

/-- The energy of the bonds at a cell. -/
def bondEnergyAt (b : Board R γ) (p : Point) : R × Board R γ :=
  match b.grid.get? p with
  | none => (0, b)
  | some c =>
    let (sum, registry) := (c.bonds.bondsAt p).foldl (addBondEnergy b.grid) (0, b.registry)
    (sum, { b with registry })

/-- Asks another board to change its cell as the neighbor of a cell of this board. -/
def requestRemote (b : Board R γ) (p : Point) (d : Direction) (remote : RemoteCell) : Board R γ :=
  match b.grid.get? p with
  | none => b
  | some c =>
    let (energy, b) := b.bondEnergyAt p
    let request : EvolveRequest R :=
      ⟨remote.point, b.registry.name c.particle, d, -energy, p, b.config.address, c.writes⟩
    { b with journal := b.journal.send remote.address (.evolve request) }

/-- An attempt to change a cell and its neighbor in a direction. -/
def attemptAt (b : Board R γ) (p : Point) (source : ParticleId) (d : Direction) :
    Except Fault (StepOutcome × Board R γ) := do
  let n := p + b.topology.offset d
  match b.grid.get? n with
  | none =>
    match b.remotes.lookup n with
    | some remote => .ok (.remoteRequested, b.requestRemote p d remote)
    | none => .ok (.offGrid, b)
  | some target =>
    let (outcome, registry, random) ← b.registry.samplePair source d target.particle b.random
    let b := { b with registry, random }
    match outcome with
    | none => .ok (.noInteraction, b)
    | some outcome =>
      if outcome.isIdle then .ok (.noChange, b)
      else
        let (result, _, b) ← b.propose (.new p n d source target.particle outcome) 0
        .ok (result, b)

/-- One attempt: a cell is drawn by its activity, then a direction, then an outcome. -/
def step (b : Board R γ) : Except Fault (StepOutcome × Board R γ) := do
  let (p, random) := b.activity.sample b.random
  let b := { b with random }
  match p with
  | none => .ok (.idle, b)
  | some p =>
    match b.grid.get? p with
    | none => .ok (.idle, b)
    | some c =>
      let (d, registry, random) ← b.registry.sampleDir c.particle b.random
      let b := { b with registry, random }
      match d with
      | none => .ok (.noInteraction, b)
      | some d => b.attemptAt p c.particle d

/-- A number of attempts. -/
def update (b : Board R γ) (attempts : Nat) : Except Fault (UpdateStats × Board R γ) :=
  go attempts {} b
where
  go : Nat → UpdateStats → Board R γ → Except Fault (UpdateStats × Board R γ)
    | 0, stats, b => .ok (stats, b)
    | n + 1, stats, b => do
      let (outcome, b) ← b.step
      go n (stats.record outcome) b

/-- As many attempts as the activities sum up to; a rest below one counts by chance. -/
def tick (b : Board R γ) : Except Fault (UpdateStats × Board R γ) :=
  let top := b.activity.topRate
  let whole := Scalar.floor top
  let (u, random) := Generator.next (R := R) b.random
  { b with random }.update (Scalar.toNat whole + if u < top - whole then 1 else 0)

/-- A number of ticks, with all their attempts. -/
def ticks (b : Board R γ) (n : Nat) : Except Fault (UpdateStats × Board R γ) :=
  go n {} b
where
  go : Nat → UpdateStats → Board R γ → Except Fault (UpdateStats × Board R γ)
    | 0, stats, b => .ok (stats, b)
    | n + 1, stats, b => do
      let (more, b) ← b.tick
      go n (stats.merge more) b

end Board

end ParticleAutomaton
