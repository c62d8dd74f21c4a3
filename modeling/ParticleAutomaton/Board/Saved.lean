import ParticleAutomaton.Board.Basic
import ParticleAutomaton.Snapshot.Basic

namespace ParticleAutomaton.Board

variable {R γ : Type}

/-- The contents of all cells. -/
def snapshot (b : Board R γ) : Snapshot where
  width := b.width
  height := b.height
  topology := b.topology
  cells := b.grid.cells.toList.map fun c =>
    ⟨b.registry.name c.particle, c.writes, c.bonds.outgoing, c.bonds.incoming⟩

/-- A cell with saved contents. Writes never become fewer, and a new particle counts as one. -/
def restoredCell (c : Cell) (saved : CellSnapshot) (particle : ParticleId) : Cell :=
  let least := if c.particle ≠ particle then c.writes + 1 else c.writes
  ⟨particle, max saved.writes least, ⟨saved.outgoing, saved.incoming⟩⟩

variable [Scalar R]

/-- The grid of a snapshot, with all particles of the snapshot in the registry. -/
def stage (b : Board R γ) (cells : List CellSnapshot) : Grid × Registry R :=
  (b.grid.points.zip cells).foldl (fun (g, r) (p, saved) =>
    let (particle, r) := r.intern saved.particle
    (g.modify p fun c => restoredCell c saved particle, r)) (b.grid, b.registry)

/-- Counts the cells whose particles differ anew. -/
def recount (old new : Grid) (r : Registry R) : Except Fault (Registry R) :=
  (old.cells.toList.zip new.cells.toList).foldlM (fun r (c, d) =>
    if c.particle ≠ d.particle then (r.dropCount c.particle).map (·.addCount d.particle)
    else .ok r) r

/-- Gives all cells the contents of a snapshot. Nothing is written if it does not fit the board or
if one of its bonds stands at one of two cells only. -/
def restore (b : Board R γ) (s : Snapshot) :
    Except Fault (Except SnapshotError Unit × Board R γ) := do
  if s.width ≠ b.width ∨ s.height ≠ b.height ∨ s.cells.length ≠ b.width * b.height then
    .ok (.error (.dimensions b.width b.height s.width s.height), b)
  else if s.topology ≠ b.topology then .ok (.error (.topology s.topology b.topology), b)
  else
    let (staged, registry) := b.stage s.cells
    match staged.gap? with
    | some gap => .ok (.error (.inconsistent gap.message), { b with registry })
    | none =>
      let registry ← recount b.grid staged registry
      let b ← { b with grid := staged, registry }.refreshRates staged.points
      .ok (.ok (), b.drawAll staged.points)

end ParticleAutomaton.Board
