import ParticleAutomaton.Board.Config
import ParticleAutomaton.Board.Journal
import ParticleAutomaton.Grid.Bonds
import ParticleAutomaton.Particle.Registry
import ParticleAutomaton.Sampling.ActivityTree

namespace ParticleAutomaton

/-- A grid that changes under rules, with a source of random numbers. -/
structure Board (R γ : Type) where
  config : BoardConfig
  grid : Grid
  registry : Registry R
  activity : ActivityTree R
  /-- Cells of other boards that stand for places off the grid. -/
  remotes : List (Point × RemoteCell)
  random : γ
  journal : Journal R

/-- Why there is no board. -/
inductive BoardError
  | config (e : ConfigError)
  | fault (f : Fault)
  deriving DecidableEq, Repr

namespace Board

variable {R γ : Type}

def topology (b : Board R γ) : Topology := b.config.topology

def width (b : Board R γ) : Nat := b.grid.width

def height (b : Board R γ) : Nat := b.grid.height

/-- The name of the particle of a cell. -/
def particleName? (b : Board R γ) (p : Point) : Option String :=
  (b.grid.get? p).map fun c => b.registry.name c.particle

def writes? (b : Board R γ) (p : Point) : Option Nat := (b.grid.get? p).map (·.writes)

/-- Lets a cell of another board stand for a place off the grid; false for a place on it. -/
def connect (b : Board R γ) (p : Point) (cell : RemoteCell) : Bool × Board R γ :=
  if b.grid.contains p then (false, b)
  else (true, { b with remotes := (p, cell) :: b.remotes.filter fun (q, _) => q ≠ p })

def drawAll (b : Board R γ) (ps : List Point) : Board R γ :=
  { b with journal := b.journal.drawAll ps }

/-- Starts a new journal. -/
def takeJournal (b : Board R γ) : Journal R × Board R γ := (b.journal, { b with journal := .empty })

def count (b : Board R γ) (name : String) : Nat := b.registry.count name

def counts (b : Board R γ) : List (String × Nat) := b.registry.counts

/-- Forgets what the rules say about particles and lets go of those that no cell holds. -/
def flush (b : Board R γ) : Nat × Board R γ :=
  let (gone, registry) := b.registry.flush
  (gone, { b with registry })

/-- Flushes if there are more particles than a bound. -/
def flushIfLarger (b : Board R γ) (bound : Nat) : Nat × Board R γ :=
  if b.registry.size ≤ bound then (0, b) else b.flush

/-- Records a bond. Bonds of its name that leave its origin or enter its destination make way. -/
def addBond (b : Board R γ) (bond : Bond) : Bool × Board R γ :=
  let g := b.grid
  if bond.origin = bond.destination ∨ (!g.contains bond.origin ∧ !g.contains bond.destination) then
    (false, b)
  else
    let g := match g.outgoing? bond.origin bond.name with
      | some offset => g.removeBond ⟨bond.origin, bond.origin + offset, bond.name⟩
      | none => g
    let g := match g.incoming? bond.destination bond.name with
      | some offset => g.removeBond ⟨bond.destination + offset, bond.destination, bond.name⟩
      | none => g
    (true, { b with grid := g.writeBond bond })

/-- Takes all bonds off a cell. -/
def removeBonds (b : Board R γ) (p : Point) : Board R γ :=
  let (touched, grid) := b.grid.removeBonds p
  { b with grid }.drawAll touched

variable [Scalar R]

/-- Sets the activity of a cell to that of its particle. -/
def refreshRate (b : Board R γ) (p : Point) : Except Fault (Board R γ) := do
  match b.grid.get? p with
  | none => .ok b
  | some c =>
    let (rate, registry) ← b.registry.activityRate c.particle
    let (_, activity) := b.activity.update p rate
    .ok { b with registry, activity }

def refreshRates (b : Board R γ) (ps : List Point) : Except Fault (Board R γ) :=
  ps.foldlM refreshRate b

/-- A board on which all cells hold the configured particle. -/
def new (config : BoardConfig) (rules : Rulebook R) (random : γ) :
    Except BoardError (Board R γ) := do
  config.validate.mapError .config
  if rules.topology ≠ config.topology then
    .error (.config (.topology config.topology rules.topology))
  let (filler, registry) := (Registry.new rules config.maxNameLen).intern config.emptyParticle
  let grid := Grid.new config.width config.height filler
  let registry := grid.points.foldl (fun r _ => r.addCount filler) registry
  let activity ← (ActivityTree.covering config.width config.height).mapError .fault
  let board : Board R γ := ⟨config, grid, registry, activity, [], random, .empty⟩
  (board.refreshRates grid.points).mapError .fault

/-- Writes a particle to a cell and takes its bonds off. All cells with a change are told. -/
def write (b : Board R γ) (p : Point) (particle : ParticleId) :
    Except Fault (List Point × Board R γ) := do
  match b.grid.get? p with
  | none => .ok ([], b)
  | some c =>
    let (partners, grid) := b.grid.removeBonds p
    let grid := grid.modify p fun c => { c with particle, writes := c.writes + 1 }
    let registry ←
      if c.particle ≠ particle then
        (b.registry.dropCount c.particle).map (·.addCount particle)
      else .ok b.registry
    let b ← { b with grid, registry }.refreshRate p
    .ok (p :: partners, b)

/-- Overwrites a cell; false off the grid. -/
def set (b : Board R γ) (p : Point) (name : String) : Except Fault (Bool × Board R γ) := do
  if !b.grid.contains p then .ok (false, b)
  else
    let (particle, registry) := b.registry.intern name
    let (touched, b) ← { b with registry }.write p particle
    .ok (true, b.drawAll touched)

/-- Overwrites all cells. -/
def fill (b : Board R γ) (name : String) : Except Fault (Board R γ) :=
  b.grid.points.foldlM (fun b p => (b.set p name).map Prod.snd) b

end Board

end ParticleAutomaton
